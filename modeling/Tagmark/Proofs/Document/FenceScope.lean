import Tagmark.Proofs.Document.Faults
import Tagmark.Proofs.Document.Fenced
import Tagmark.Proofs.Document.Places
import Tagmark.Proofs.Document.Runs

/-!
How far a code fence reaches. A fence that text between two tags opens is open beyond its content;
all other fences end with the content that opened them, and then no fence makes text of the tags
outside of this content (`Document.fences_end_iff`).
-/

namespace Tagmark

namespace Item

/-- Fences end with the content that opened them: none is open where a tag stands. -/
def FencesEnd : Option Fence → List Item → Prop
  | _, [] => True
  | fence, .content line :: rest => FencesEnd (Fence.next fence line) rest
  | fence, .tag _ :: rest => fence = none ∧ FencesEnd fence rest
  | fence, .fault _ :: rest => FencesEnd fence rest

/-- No text between two tags on one line opens a fence. -/
def PlainBetween (items : List Item) : Prop :=
  ∀ front line group back, items = front ++ .content line :: .tag group :: back →
    line.text.getLast? ≠ some '\n' → Fence.ofLine? line = none

theorem PlainBetween.tail {item : Item} {rest : List Item} (hplain : PlainBetween (item :: rest)) :
    PlainBetween rest := by
  rintro front line group back rfl
  exact hplain (item :: front) line group back rfl

theorem PlainBetween.cons {item : Item} {rest : List Item} (hrest : PlainBetween rest)
    (hhead : ∀ line group back, item = .content line → rest = .tag group :: back →
      line.text.getLast? ≠ some '\n' → Fence.ofLine? line = none) :
    PlainBetween (item :: rest) := by
  intro front line group back hsplit
  cases front with
  | nil =>
      obtain ⟨hitem, htail⟩ := List.cons.inj hsplit
      exact hhead line group back hitem htail
  | cons first front =>
      obtain ⟨-, htail⟩ := List.cons.inj hsplit
      exact hrest front line group back htail

section Runs

variable {inline : Bool} {fence : Option Fence} {items : List Item}

theorem Runs.fencesEnd (hruns : Runs inline fence items) (hplain : PlainBetween items)
    (hinline : inline = true → fence = none)
    (htag : ∀ group after, items = .tag group :: after → fence = none) :
    FencesEnd fence items := by
  induction items generalizing inline fence with
  | nil => trivial
  | cons item rest induction =>
      cases item with
      | content line =>
          obtain ⟨hline, hrest⟩ := hruns
          apply induction hrest hplain.tail (fun h => Bool.noConfusion h)
          intro group after hafter
          rcases hline.tag group after hafter with ⟨-, hnone⟩ | ⟨hlast, hhere⟩
          · exact hnone
          · obtain rfl := hinline hhere
            exact hplain [] line group after (by rw [hafter]; rfl) hlast
      | tag group =>
          obtain rfl := htag group rest rfl
          exact ⟨rfl, induction hruns hplain.tail (fun _ => rfl) fun _ _ _ => rfl⟩
      | fault fault =>
          obtain rfl : rest = [] := hruns
          trivial

theorem Runs.plainBetween (hruns : Runs inline fence items) (hends : FencesEnd fence items)
    (hinline : inline = true → fence = none) : PlainBetween items := by
  induction items generalizing inline fence with
  | nil =>
      intro front line group back hsplit
      simp at hsplit
  | cons item rest induction =>
      cases item with
      | content line =>
          obtain ⟨hline, hrest⟩ := hruns
          apply (induction hrest hends fun h => Bool.noConfusion h).cons
          intro _ group back heq hafter hlast
          cases heq
          rcases hline.tag group back hafter with ⟨hnewline, -⟩ | ⟨-, hhere⟩
          · exact absurd hnewline hlast
          · obtain rfl := hinline hhere
            subst hafter
            exact hends.1
      | tag group =>
          obtain ⟨rfl, hends⟩ := hends
          apply (induction hruns hends fun _ => rfl).cons
          intro _ _ _ heq
          cases heq
      | fault fault =>
          refine (show PlainBetween rest from ?_).cons ?_
          · obtain rfl : rest = [] := hruns
            intro front line group back hsplit
            simp at hsplit
          · intro _ _ _ heq
            cases heq

/-- Each line of content that starts with a tag is inside a fence that was opened in the same
content, or before it where it comes first. -/
def TagsFenced : Option Fence → List Item → Prop
  | _, [] => True
  | fence, .content line :: rest =>
      Line.tagsFencedFrom fence line.start (Text.splitLines line.text) = true ∧
        TagsFenced none rest
  | _, .tag _ :: rest => TagsFenced none rest
  | _, .fault _ :: rest => TagsFenced none rest

theorem TagsFenced.of_mem (hfenced : TagsFenced none items) {line : Line}
    (hmem : .content line ∈ items) : Line.TagsFenced line.start line.text := by
  induction items with
  | nil => cases hmem
  | cons item rest induction =>
      cases item with
      | content first =>
          obtain ⟨hfirst, hrest⟩ := hfenced
          rcases List.mem_cons.1 hmem with hhere | hlater
          · cases hhere
            exact Line.tagsFencedFrom_iff.1 hfirst
          · exact induction hrest hlater
      | tag group =>
          rcases List.mem_cons.1 hmem with hhere | hlater
          · cases hhere
          · exact induction hfenced hlater
      | fault fault =>
          rcases List.mem_cons.1 hmem with hhere | hlater
          · cases hhere
          · exact induction hfenced hlater

theorem exists_of_joinContent {next : Line} {after : List Item}
    (hjoin : Mark.joinContent items = .content next :: after) :
    ∃ first rest, items = .content first :: rest ∧ next.start = first.start := by
  cases items with
  | nil => cases hjoin
  | cons item rest =>
      cases item with
      | content first =>
          refine ⟨first, rest, rfl, ?_⟩
          rw [Mark.joinContent] at hjoin
          split at hjoin <;> cases hjoin <;> rfl
      | tag group => cases hjoin
      | fault fault => cases hjoin

theorem Runs.tagsFenced (hruns : Runs inline fence items) (hends : FencesEnd fence items) :
    TagsFenced fence (Mark.joinContent items) := by
  induction items generalizing inline fence with
  | nil => trivial
  | cons item rest induction =>
      cases item with
      | content line =>
          obtain ⟨hline, hrest⟩ := hruns
          have hhead : (fence.isSome || !line.startsWithTag) = true := by
            cases hstart : line.startsWithTag with
            | false => exact Bool.or_true _
            | true =>
                rw [hline.fenced hstart]
                rfl
          have hfenced := induction hrest hends
          rw [Mark.joinContent]
          split
          · next next after hjoin =>
              rw [hjoin] at hfenced
              obtain ⟨first, others, rfl, hstart⟩ := exists_of_joinContent hjoin
              obtain ⟨hplace, hended⟩ := hline.next first others rfl
              have hlast : Text.IsLine line.text next.text :=
                ⟨hline.ne_nil, hline.newline_last, fun _ => hended⟩
              refine ⟨?_, hfenced.2⟩
              change Line.tagsFencedFrom fence line.start
                (Text.splitLines (line.text ++ next.text)) = true
              rw [Text.splitLines_append hlast, Line.tagsFencedFrom, ← hplace, ← hstart]
              exact Bool.and_eq_true_iff.2 ⟨hhead, hfenced.1⟩
          · next hjoin =>
              have halone : Text.IsLine line.text [] :=
                ⟨hline.ne_nil, hline.newline_last, fun hne => absurd rfl hne⟩
              have hsplit := Text.splitLines_append halone
              rw [List.append_nil] at hsplit
              refine ⟨?_, ?_⟩
              · rw [hsplit]
                exact Bool.and_eq_true_iff.2 ⟨hhead, rfl⟩
              · cases hafter : Mark.joinContent rest with
                | nil => trivial
                | cons first others =>
                    rw [hafter] at hfenced
                    cases first with
                    | content next => exact absurd hafter (hjoin next others)
                    | tag group => exact hfenced
                    | fault fault => exact hfenced
      | tag group =>
          obtain ⟨rfl, hends⟩ := hends
          exact induction hruns hends
      | fault fault =>
          obtain rfl : rest = [] := hruns
          trivial

end Runs

end Item

theorem Fence.start_of_ofLine? {line : Line} {opened : Fence} (hopens : ofLine? line = some opened) :
    opened.start = line.start := by
  unfold ofLine? at hopens
  rcases Option.or_eq_some_iff.1 hopens with hfound | ⟨-, hfound⟩
  · obtain ⟨_, -, rfl⟩ := Option.map_eq_some_iff.1 hfound
    rfl
  · obtain ⟨_, -, rfl⟩ := Option.map_eq_some_iff.1 hfound
    rfl

theorem Fence.opens_of_next {fence : Option Fence} {line : Line} {opened : Fence}
    (hnext : next fence line = some opened) :
    fence = some opened ∨ ofLine? line = some opened := by
  cases fence with
  | none => exact .inr hnext
  | some fence =>
      unfold next at hnext
      dsimp only at hnext
      split at hnext
      · cases hnext
      · exact .inl hnext

namespace Item

theorem exists_of_fenceAfter {fence : Option Fence} {items : List Item} {opened : Fence}
    (hafter : fenceAfter fence items = some opened) :
    fence = some opened ∨ ∃ line, .content line ∈ items ∧ Fence.ofLine? line = some opened := by
  induction items generalizing fence with
  | nil => exact .inl hafter
  | cons item rest induction =>
      cases item with
      | content line =>
          rcases induction hafter with hnext | ⟨later, hmem, hopens⟩
          · rcases Fence.opens_of_next hnext with hopen | hopens
            · exact .inl hopen
            · exact .inr ⟨line, List.mem_cons_self, hopens⟩
          · exact .inr ⟨later, List.mem_cons_of_mem _ hmem, hopens⟩
      | tag group =>
          rcases induction hafter with hopen | ⟨later, hmem, hopens⟩
          · exact .inl hopen
          · exact .inr ⟨later, List.mem_cons_of_mem _ hmem, hopens⟩
      | fault fault =>
          rcases induction hafter with hopen | ⟨later, hmem, hopens⟩
          · exact .inl hopen
          · exact .inr ⟨later, List.mem_cons_of_mem _ hmem, hopens⟩

section LaidOver

variable {run : Bool} {point : Point} {text : List Char} {items : List Item}

theorem LaidOver.le_start (hlaid : LaidOver run point text items)
    (hclean : ∀ fault, .fault fault ∉ items) {line : Line} (hmem : .content line ∈ items) :
    point.offset ≤ line.start.offset := by
  induction hlaid with
  | nil => cases hmem
  | @content _ point gap _ first _ _ _ hstart _ induction =>
      have hfirst : point.offset ≤ first.start.offset := by
        rw [hstart, Point.offset_advance]
        exact Nat.le_add_right _ _
      rcases List.mem_cons.1 hmem with hhere | hlater
      · cases hhere
        exact hfirst
      · have hle := induction (fun fault h => hclean fault (List.mem_cons_of_mem _ h)) hlater
        rw [Point.offset_advance] at hle
        omega
  | tag _ _ _ induction =>
      rcases List.mem_cons.1 hmem with hhere | hlater
      · cases hhere
      · have hle := induction (fun fault h => hclean fault (List.mem_cons_of_mem _ h)) hlater
        rw [Point.offset_advance] at hle
        omega
  | fault => exact absurd List.mem_cons_self (hclean _)

theorem LaidOver.start_lt_fence (hlaid : LaidOver run point text items)
    (hclean : ∀ fault, .fault fault ∉ items) {fence : Option Fence} (hends : FencesEnd fence items)
    {opened : Fence} (hafter : fenceAfter fence items = some opened) {group : TokenGroup}
    (hmem : .tag group ∈ items) : group.span.start.offset < opened.start.offset := by
  induction hlaid generalizing fence with
  | nil => cases hmem
  | content _ _ _ _ induction =>
      rcases List.mem_cons.1 hmem with hhere | hlater
      · cases hhere
      · exact induction (fun fault h => hclean fault (List.mem_cons_of_mem _ h)) hends hafter hlater
  | @tag _ point gap source _ first others _ hreads hrest induction =>
      have hlater : ∀ fault, .fault fault ∉ others := fun fault h =>
        hclean fault (List.mem_cons_of_mem _ h)
      obtain ⟨rfl, hends⟩ := hends
      rcases List.mem_cons.1 hmem with hhere | hthere
      · cases hhere
        obtain ⟨front, hsource, hspan⟩ := hreads.source
        have hopened : fenceAfter none others = some opened := hafter
        rcases exists_of_fenceAfter hopened with hopen | ⟨line, hline, hopens⟩
        · cases hopen
        · have hle := hrest.le_start hlater hline
          have hpositive := Text.byteSize_pos (show source ≠ [] by rw [hsource]; simp)
          rw [Fence.start_of_ofLine? hopens, hspan]
          rw [Point.advance_append, Point.offset_advance _ source] at hle
          change (point.advance gap).offset < _
          omega
      · exact induction hlater hends hafter hthere
  | fault => exact absurd List.mem_cons_self (hclean _)

end LaidOver

end Item

namespace Document

/-- The items of the body of a text. -/
def items (text : String) : List Item :=
  match cutFrontmatter (Line.ofText text.toList) with
  | .error _ => []
  | .ok (_, body) => (Scan.ofLines body).items

theorem items_of_cut {text : String} {frontmatter : Option String} {body : List Line}
    (hcut : cutFrontmatter (Line.ofText text.toList) = .ok (frontmatter, body)) :
    items text = (Scan.ofLines body).items := by
  unfold items
  rw [hcut]

theorem runs_items (text : String) : Item.Runs false none (items text) := by
  unfold items
  split
  · trivial
  · next hcut =>
      obtain ⟨_, _, -, -, hreads⟩ := reads_of_cut hcut
      exact hreads.runs false

theorem eq_of_cutFrontmatter {lines : List Line} {fault : Fault}
    (hcut : cutFrontmatter lines = .error fault) : fault = .unterminatedFrontmatter := by
  unfold cutFrontmatter at hcut
  split at hcut
  · cases hcut
  · split at hcut
    · split at hcut <;> cases hcut
      rfl
    · cases hcut

theorem tagsFenced_of_fencesEnd {text : String} {document : Document}
    (hparse : parse text = .ok document) (hends : Item.FencesEnd none (items text))
    {value : String} {span : Span}
    (hmem : .content value span ∈ Node.preorderAll document.children) :
    Line.TagsFenced span.start value.toList := by
  obtain ⟨body, hcut, hproper, hwalk⟩ := walk_of_parse hparse
  have hvisit := Node.visit_of_preorderAll hproper hmem
  have hsome : some (Visit.content value span) ∈ (Mark.ofLines body).map Mark.visit? := by
    rw [hwalk]
    exact List.mem_map_of_mem hvisit
  obtain ⟨mark, hmark, hcontent⟩ := List.mem_map.1 hsome
  rw [← Mark.movedVisit?_id] at hcontent
  obtain ⟨place, rfl, rfl⟩ := Mark.movedVisit?_eq_content.1 hcontent
  obtain ⟨line, hline, hvalue, hstart⟩ := Mark.exists_of_content_mem hmark
  rw [← items_of_cut hcut] at hline
  have hfenced := ((runs_items text).tagsFenced hends).of_mem hline
  obtain ⟨ending, htext, -⟩ := Text.exists_dropLineEnd_append line.text
  rw [htext] at hfenced
  rw [hvalue, show (place.relocate id).start = line.start from hstart]
  exact hfenced.of_append

theorem opened_inside_of_fencesEnd {text : String} {name : String} {place : Point}
    (hparse : parse text = .error (.unclosedFence name place))
    (hends : Item.FencesEnd none (items text)) :
    ∃ start outer, Mark.Pending (Mark.ofItems (items text)) ((name, start) :: outer) ∧
      start.offset < place.offset := by
  cases hcut : cutFrontmatter (Line.ofText text.toList) with
  | error fault =>
      unfold parse at hparse
      rw [hcut, eq_of_cutFrontmatter hcut] at hparse
      cases hparse
  | ok cut =>
      obtain ⟨frontmatter, body⟩ := cut
      obtain ⟨_, _, -, -, hreads⟩ := reads_of_cut hcut
      have hitems := items_of_cut hcut
      rw [hitems] at hends ⊢
      have htree := assemble_of_parse_error hcut hparse
      have hclean := assemble_clean htree fun fault hmem =>
        Mark.isOfTag_of_mem hmem fun _ => hreads.isOfTag
      have hitemsClean : ∀ fault, .fault fault ∉ (Scan.ofLines body).items := by
        intro fault hmem
        exact hclean fault (Mark.fault_mem_of_item hmem)
      obtain ⟨start, outer, opened, hpending, hfence, rfl⟩ := pending_of_unclosedFence htree hclean
      refine ⟨start, outer, hpending, ?_⟩
      obtain ⟨attributes, hopening⟩ := hpending.opening_mem
      obtain ⟨group, hgroup, -, rfl⟩ := Mark.exists_of_opening_mem hopening
      have hafter := hreads.fence_eq.symm.trans hfence
      exact (hreads.laidOver false).start_lt_fence hitemsClean hends hafter hgroup

/-- No text between two tags on one line opens a fence exactly when no fence outlives the content
that opened it. Then tags are text only inside fences of their own content, and a fence that is
never closed was opened inside the innermost open tag. -/
theorem fences_end_iff (text : String) :
    Item.PlainBetween (items text) ↔
      Item.FencesEnd none (items text) ∧
      (∀ document, parse text = .ok document → ∀ value span,
        .content value span ∈ Node.preorderAll document.children →
          Line.TagsFenced span.start value.toList) ∧
      (∀ name place, parse text = .error (.unclosedFence name place) →
        ∃ start outer, Mark.Pending (Mark.ofItems (items text)) ((name, start) :: outer) ∧
          start.offset < place.offset) := by
  have hruns := runs_items text
  constructor
  · intro hplain
    have hends := hruns.fencesEnd hplain (fun _ => rfl) fun _ _ _ => rfl
    refine ⟨hends, ?_, ?_⟩
    · intro document hparse value span hmem
      exact tagsFenced_of_fencesEnd hparse hends hmem
    · intro name place hparse
      exact opened_inside_of_fencesEnd hparse hends
  · rintro ⟨hends, -, -⟩
    exact hruns.plainBetween hends fun _ => rfl

def fault? (text : String) : Option Fault :=
  match parse text with
  | .error fault => some fault
  | .ok _ => none

theorem exists_parse_of_isSome {text : String} (hsome : (parse text).toOption.isSome = true) :
    ∃ document, parse text = .ok document := by
  cases hparse : parse text with
  | ok document => exact ⟨document, rfl⟩
  | error fault =>
      rw [hparse] at hsome
      cases hsome

theorem parse_of_fault? {text : String} {fault : Fault} (hfault : fault? text = some fault) :
    parse text = .error fault := by
  unfold fault? at hfault
  split at hfault
  · next other hparse =>
      cases hfault
      exact hparse
  · cases hfault

def swallows : Node → Bool
  | .content value span => !decide (Line.TagsFenced span.start value.toList)
  | .block _ _ => false

def opensAfter (offset : Nat) : Mark → Bool
  | .opening _ _ start => decide (offset < start.offset)
  | _ => true

theorem fence_outlives_content :
    (∃ document, parse "\x7b% a %\x7d ``` \x7b% /a %\x7d\n\x7b% b /%\x7d\n" = .ok document ∧
      ∃ value span, .content value span ∈ Node.preorderAll document.children ∧
        ¬ Line.TagsFenced span.start value.toList) ∧
    ∃ place, parse "\x7b% a /%\x7d ``` \x7b% b %\x7d\n" = .error (.unclosedFence "b" place) ∧
      ∀ start outer, Mark.Pending (Mark.ofItems (items "\x7b% a /%\x7d ``` \x7b% b %\x7d\n"))
        (("b", start) :: outer) → place.offset < start.offset := by
  constructor
  · have hany : (parse "\x7b% a %\x7d ``` \x7b% /a %\x7d\n\x7b% b /%\x7d\n").toOption.any
        (fun document => (Node.preorderAll document.children).any swallows) = true := by
      decide +kernel
    cases hparse : parse "\x7b% a %\x7d ``` \x7b% /a %\x7d\n\x7b% b /%\x7d\n" with
    | error fault =>
        rw [hparse] at hany
        cases hany
    | ok document =>
        rw [hparse] at hany
        obtain ⟨node, hmem, hnode⟩ := List.any_eq_true.1 hany
        cases node with
        | content value span =>
            exact ⟨document, rfl, value, span, hmem, by simpa [swallows] using hnode⟩
        | block tag children => cases hnode
  · have hopenings : (Mark.ofItems (items "\x7b% a /%\x7d ``` \x7b% b %\x7d\n")).all
        (opensAfter 8) = true := by
      decide +kernel
    have hfault : fault? "\x7b% a /%\x7d ``` \x7b% b %\x7d\n" =
        some (.unclosedFence "b" ⟨1, 9, 8⟩) := by
      decide +kernel
    refine ⟨⟨1, 9, 8⟩, parse_of_fault? hfault, ?_⟩
    intro start outer hpending
    obtain ⟨attributes, hmem⟩ := hpending.opening_mem
    exact of_decide_eq_true (List.all_eq_true.1 hopenings _ hmem)

end Document

end Tagmark
