import Mathlib.Data.List.Induction
import Tagmark.Document.Tree
import Tagmark.Proofs.Document.Walk

/-!
The brackets of a body. Marks are either well bracketed, or leave tags open, or have a first closing
tag that does not match (`Mark.brackets_trichotomy`); a tree is built exactly from the marks that
its walk meets.
-/

namespace Tagmark

namespace Mark

/-- The visit that a mark stands for; faults stand for none. -/
def visit? : Mark → Option Visit
  | .content value span => some (.content value span)
  | .leaf tag => some (.leaf tag)
  | .opening name attributes start => some (.opening name attributes start)
  | .closing name span => some (.closing name span.stop)
  | .fault _ => none

def movedVisit? (move : Point → Point) (mark : Mark) : Option Visit :=
  mark.visit?.map (Visit.relocate move)

theorem movedVisit?_id (mark : Mark) : mark.movedVisit? id = mark.visit? := by
  cases hvisit : mark.visit? <;> simp [movedVisit?, hvisit, Visit.relocate_id]

theorem map_movedVisit?_id (marks : List Mark) :
    marks.map (movedVisit? id) = marks.map visit? :=
  List.map_congr_left fun mark _ => movedVisit?_id mark

section Inversion

variable {move : Point → Point} {mark : Mark}

theorem movedVisit?_eq_content {value : String} {span : Span} :
    mark.movedVisit? move = some (.content value span) ↔
      ∃ place, mark = .content value place ∧ place.relocate move = span := by
  cases mark <;> simp [movedVisit?, visit?, Visit.relocate, and_assoc]

theorem movedVisit?_eq_leaf {tag : Tag} :
    mark.movedVisit? move = some (.leaf tag) ↔
      ∃ written, mark = .leaf written ∧ written.relocate move = tag := by
  cases mark <;> simp [movedVisit?, visit?, Visit.relocate]

theorem movedVisit?_eq_opening {name : String} {attributes : KeyMap Value} {start : Point} :
    mark.movedVisit? move = some (.opening name attributes start) ↔
      ∃ place, mark = .opening name attributes place ∧ move place = start := by
  cases mark <;> simp [movedVisit?, visit?, Visit.relocate, and_assoc]

theorem movedVisit?_eq_closing {name : String} {stop : Point} :
    mark.movedVisit? move = some (.closing name stop) ↔
      ∃ span, mark = .closing name span ∧ move span.stop = stop := by
  cases mark <;> simp [movedVisit?, visit?, Visit.relocate, and_assoc]

end Inversion

/-- Each opening tag has its closing tag of the same name, properly nested. -/
inductive Balanced : List Mark → Prop
  | nil : Balanced []
  | content {value : String} {span : Span} {rest : List Mark} :
      Balanced rest → Balanced (.content value span :: rest)
  | leaf {tag : Tag} {rest : List Mark} : Balanced rest → Balanced (.leaf tag :: rest)
  | block {name : String} {attributes : KeyMap Value} {start : Point} {span : Span}
      {inner rest : List Mark} :
      Balanced inner → Balanced rest →
        Balanced (.opening name attributes start :: (inner ++ .closing name span :: rest))

/-- Each closing tag closes the innermost open tag, and the tags of the given names and places
stay open, the innermost first. -/
inductive Pending : List Mark → List (String × Point) → Prop
  | balanced {marks : List Mark} : Balanced marks → Pending marks []
  | opening {before inner : List Mark} {outer : List (String × Point)} {name : String}
      {attributes : KeyMap Value} {start : Point} :
      Pending before outer → Balanced inner →
        Pending (before ++ .opening name attributes start :: inner) ((name, start) :: outer)

theorem Balanced.append {left right : List Mark} (hleft : Balanced left)
    (hright : Balanced right) : Balanced (left ++ right) := by
  induction hleft with
  | nil => exact hright
  | content _ induction => exact .content induction
  | leaf _ induction => exact .leaf induction
  | block hinner _ _ induction =>
      rw [List.cons_append, List.append_assoc, List.cons_append]
      exact .block hinner induction

theorem Pending.balanced_of_nil {marks : List Mark} (hpending : Pending marks []) :
    Balanced marks := by
  cases hpending with
  | balanced hbalanced => exact hbalanced

theorem Pending.opening_mem {marks : List Mark} {name : String} {start : Point}
    {outer : List (String × Point)} (hpending : Pending marks ((name, start) :: outer)) :
    ∃ attributes, .opening name attributes start ∈ marks := by
  cases hpending with
  | @opening _ _ _ _ attributes _ _ _ =>
      exact ⟨attributes, List.mem_append_right _ List.mem_cons_self⟩

theorem Pending.append_balanced {before after : List Mark} {opened : List (String × Point)}
    (hbefore : Pending before opened) (hafter : Balanced after) :
    Pending (before ++ after) opened := by
  cases hbefore with
  | balanced hbalanced => exact .balanced (hbalanced.append hafter)
  | opening houter hinner =>
      rw [List.append_assoc, List.cons_append]
      exact .opening houter (hinner.append hafter)

theorem Pending.close {before : List Mark} {opened : List (String × Point)} {name : String}
    {start : Point} (hbefore : Pending before ((name, start) :: opened)) (span : Span) :
    Pending (before ++ [.closing name span]) opened := by
  cases hbefore with
  | @opening outside inner _ _ attributes _ houter hinner =>
      have hblock : Balanced (.opening name attributes start :: (inner ++ [.closing name span])) :=
        .block hinner .nil
      rw [List.append_assoc, List.cons_append]
      exact houter.append_balanced hblock

/-- The first closing tag that does not match is the one after `before`. -/
def Mismatch (before : List Mark) (name : String) : Prop :=
  ∃ opened, Pending before opened ∧ opened.head?.map (·.1) ≠ some name

theorem pending_or_mismatch (marks : List Mark) (hclean : ∀ fault, .fault fault ∉ marks) :
    (∃ opened, Pending marks opened) ∨
      ∃ before name span after,
        marks = before ++ .closing name span :: after ∧ Mismatch before name := by
  induction marks using List.reverseRecOn with
  | nil => exact .inl ⟨[], .balanced .nil⟩
  | append_singleton before mark induction =>
      have hbefore : ∀ fault, .fault fault ∉ before := fun fault hmem =>
        hclean fault (List.mem_append_left _ hmem)
      rcases induction hbefore with ⟨opened, hpending⟩ | ⟨front, name, span, after, heq, hmismatch⟩
      · cases mark with
        | content value span => exact .inl ⟨opened, hpending.append_balanced (.content .nil)⟩
        | leaf tag => exact .inl ⟨opened, hpending.append_balanced (.leaf .nil)⟩
        | opening name attributes start => exact .inl ⟨_, .opening hpending .nil⟩
        | closing name span =>
            by_cases hmatch : opened.head?.map (·.1) = some name
            · cases opened with
              | nil => simp at hmatch
              | cons innermost outer =>
                  obtain ⟨innermostName, start⟩ := innermost
                  obtain rfl : innermostName = name := by simpa using hmatch
                  exact .inl ⟨outer, hpending.close span⟩
            · exact .inr ⟨before, name, span, [], rfl, opened, hpending, hmatch⟩
        | fault fault => exact absurd (List.mem_append_right _ List.mem_cons_self) (hclean fault)
      · refine .inr ⟨front, name, span, after ++ [mark], ?_, hmismatch⟩
        rw [heq, List.append_assoc, List.cons_append]

theorem brackets_trichotomy (marks : List Mark) (hclean : ∀ fault, .fault fault ∉ marks) :
    Balanced marks ∨
      (∃ before name span after,
        marks = before ++ .closing name span :: after ∧ Mismatch before name) ∨
      ∃ name start outer, Pending marks ((name, start) :: outer) := by
  rcases pending_or_mismatch marks hclean with ⟨opened, hpending⟩ | hfirst
  · cases opened with
    | nil => exact .inl hpending.balanced_of_nil
    | cons innermost outer => exact .inr (.inr ⟨_, _, _, hpending⟩)
  · exact .inr (.inl hfirst)

end Mark

section Assemble

variable {fence : Option Fence}

theorem assemble_append_balanced (fence : Option Fence) {marks : List Mark}
    (hbalanced : Mark.Balanced marks) :
    ∃ added, ∀ stack nodes rest,
      assemble fence stack nodes (marks ++ rest) = assemble fence stack (added ++ nodes) rest := by
  induction hbalanced with
  | nil => exact ⟨[], fun _ _ _ => rfl⟩
  | @content value span _ _ induction =>
      obtain ⟨added, hadded⟩ := induction
      refine ⟨added ++ [.content value span], ?_⟩
      intro stack nodes rest
      rw [List.append_assoc, List.cons_append, assemble]
      exact hadded stack _ rest
  | @leaf tag _ _ induction =>
      obtain ⟨added, hadded⟩ := induction
      refine ⟨added ++ [.block tag []], ?_⟩
      intro stack nodes rest
      rw [List.append_assoc, List.cons_append, assemble]
      exact hadded stack _ rest
  | @block name attributes start span inner after _ _ inductionInner inductionAfter =>
      obtain ⟨inside, hinside⟩ := inductionInner
      obtain ⟨added, hadded⟩ := inductionAfter
      let tag : Tag := ⟨name, attributes, false, ⟨start, span.stop⟩⟩
      refine ⟨added ++ [.block tag inside.reverse], ?_⟩
      intro stack nodes rest
      rw [List.cons_append, assemble, List.append_assoc, hinside, List.cons_append, assemble]
      simp only [if_true, List.append_nil]
      rw [hadded, List.append_assoc]
      rfl

theorem assemble_append_pending (fence : Option Fence) {marks : List Mark}
    {opened : List (String × Point)} (hpending : Mark.Pending marks opened) :
    ∃ stack nodes, stack.map (fun tag => (tag.name, tag.start)) = opened ∧
      ∀ rest, assemble fence [] [] (marks ++ rest) = assemble fence stack nodes rest := by
  induction hpending with
  | balanced hbalanced =>
      obtain ⟨added, hadded⟩ := assemble_append_balanced fence hbalanced
      exact ⟨[], added ++ [], rfl, fun rest => hadded [] [] rest⟩
  | @opening before inner outer name attributes start _ hinner induction =>
      obtain ⟨stack, nodes, hstack, hbefore⟩ := induction
      obtain ⟨added, hadded⟩ := assemble_append_balanced fence hinner
      refine ⟨⟨name, attributes, start, nodes⟩ :: stack, added ++ [], by simp [hstack], ?_⟩
      intro rest
      rw [List.append_assoc, hbefore, List.cons_append, assemble]
      exact hadded _ _ rest

theorem assemble_mismatch {before after : List Mark} {name : String} {span : Span}
    (hmismatch : Mark.Mismatch before name) :
    assemble fence [] [] (before ++ .closing name span :: after) =
      .error (.unexpectedClosing name span.start) := by
  obtain ⟨opened, hpending, hhead⟩ := hmismatch
  obtain ⟨stack, nodes, hstack, hbefore⟩ := assemble_append_pending fence hpending
  rw [hbefore]
  cases stack with
  | nil => rfl
  | cons innermost outer =>
      have hname : innermost.name ≠ name := by
        rintro rfl
        exact hhead (by simp [← hstack])
      rw [assemble, if_neg hname]

theorem assemble_unclosed {marks : List Mark} {name : String} {start : Point}
    {outer : List (String × Point)} (hpending : Mark.Pending marks ((name, start) :: outer)) :
    assemble fence [] [] marks =
      .error (match fence with
        | some fence => .unclosedFence name fence.start
        | none => .unclosedTag name start) := by
  obtain ⟨stack, nodes, hstack, hmarks⟩ := assemble_append_pending fence hpending
  have hassemble := hmarks []
  rw [List.append_nil] at hassemble
  rw [hassemble]
  cases stack with
  | nil => cases hstack
  | cons innermost rest =>
      obtain ⟨⟨rfl, rfl⟩, -⟩ : (innermost.name = name ∧ innermost.start = start) ∧ _ := by
        simpa using hstack
      rfl

theorem assemble_balanced (fence : Option Fence) {marks : List Mark}
    (hbalanced : Mark.Balanced marks) :
    ∃ nodes, assemble fence [] [] marks = .ok nodes := by
  obtain ⟨added, hadded⟩ := assemble_append_balanced fence hbalanced
  have hassemble := hadded [] [] []
  rw [List.append_nil] at hassemble
  exact ⟨(added ++ []).reverse, hassemble.trans rfl⟩

/-- The walk of a tree that is being built: of the nodes already there, with the open tags around
them. -/
def OpenTag.walkAll : List OpenTag → List Node → List Visit
  | [], nodes => Node.walkAll nodes.reverse
  | innermost :: outer, nodes =>
      OpenTag.walkAll outer innermost.before ++
        .opening innermost.name innermost.attributes innermost.start ::
          Node.walkAll nodes.reverse

theorem OpenTag.walkAll_cons (stack : List OpenTag) (node : Node) (nodes : List Node) :
    OpenTag.walkAll stack (node :: nodes) = OpenTag.walkAll stack nodes ++ node.walk := by
  cases stack with
  | nil => simp only [OpenTag.walkAll, List.reverse_cons, Node.walkAll_concat]
  | cons innermost outer =>
      simp only [OpenTag.walkAll, List.reverse_cons, Node.walkAll_concat, List.append_assoc,
        List.cons_append]

/-- The walk of the tree under construction, followed by the marks that are left, is the walk of the
tree in the end. -/
theorem assemble_walk {stack : List OpenTag} {nodes tree : List Node} {marks : List Mark}
    (hleaf : ∀ tag, .leaf tag ∈ marks → tag.selfClosing = true)
    (htree : assemble fence stack nodes marks = .ok tree) :
    (OpenTag.walkAll stack nodes).map some ++ marks.map Mark.visit? =
      (Node.walkAll tree).map some := by
  induction marks generalizing stack nodes with
  | nil =>
      cases stack with
      | nil =>
          cases htree
          simp [OpenTag.walkAll]
      | cons innermost outer => cases htree
  | cons mark rest induction =>
      have hrest : ∀ tag, .leaf tag ∈ rest → tag.selfClosing = true := fun tag hmem =>
        hleaf tag (List.mem_cons_of_mem _ hmem)
      cases mark with
      | content value span =>
          rw [← induction hrest htree, OpenTag.walkAll_cons]
          simp [Node.walk, Mark.visit?]
      | leaf tag =>
          have hself := hleaf tag List.mem_cons_self
          rw [← induction hrest htree, OpenTag.walkAll_cons]
          simp [Node.walk, Mark.visit?, hself]
      | opening name attributes start =>
          rw [← induction hrest htree]
          simp [OpenTag.walkAll, Node.walkAll, Mark.visit?]
      | closing name span =>
          cases stack with
          | nil => cases htree
          | cons innermost outer =>
              rw [assemble] at htree
              split at htree
              · next hname =>
                  rw [← induction hrest htree, OpenTag.walkAll_cons]
                  simp [OpenTag.walkAll, Node.walk, Mark.visit?, hname]
              · cases htree
      | fault fault => cases htree

mutual

theorem Node.assemble_walk (fence : Option Fence) {move : Point → Point} {node : Node}
    (hproper : node.Proper) {marks : List Mark}
    (hmarks : marks.map (Mark.movedVisit? move) = node.walk.map some) :
    ∃ built : Node, built.relocate move = node ∧ ∀ stack nodes rest,
      assemble fence stack nodes (marks ++ rest) = assemble fence stack (built :: nodes) rest := by
  cases node with
  | content value span =>
      obtain ⟨mark, rfl, hmark⟩ := List.map_eq_singleton_iff.1 hmarks
      obtain ⟨place, rfl, rfl⟩ := Mark.movedVisit?_eq_content.1 hmark
      exact ⟨.content value place, rfl, fun _ _ _ => rfl⟩
  | block tag children =>
      cases hself : tag.selfClosing with
      | true =>
          obtain rfl : children = [] := hproper.1 hself
          simp only [Node.walk, hself, if_true] at hmarks
          obtain ⟨mark, rfl, hmark⟩ := List.map_eq_singleton_iff.1 hmarks
          obtain ⟨written, rfl, rfl⟩ := Mark.movedVisit?_eq_leaf.1 hmark
          exact ⟨.block written [], rfl, fun _ _ _ => rfl⟩
      | false =>
          simp only [Node.walk, hself, Bool.false_eq_true, if_false, List.map_cons,
            List.map_append] at hmarks
          obtain ⟨first, rest, rfl, hfirst, hrest⟩ := List.map_eq_cons_iff.1 hmarks
          obtain ⟨inner, last, rfl, hinner, hlast⟩ := List.map_eq_append_iff.1 hrest
          obtain ⟨final, rfl, hfinal⟩ := List.map_eq_singleton_iff.1 hlast
          obtain ⟨start, rfl, hstart⟩ := Mark.movedVisit?_eq_opening.1 hfirst
          obtain ⟨span, rfl, hstop⟩ := Mark.movedVisit?_eq_closing.1 hfinal
          obtain ⟨built, hbuilt, hassemble⟩ := Node.assemble_walkAll fence hproper.2 hinner
          refine ⟨.block ⟨tag.name, tag.attributes, false, ⟨start, span.stop⟩⟩ built, ?_, ?_⟩
          · rw [Node.relocate, hbuilt]
            simp only [Tag.relocate, Span.relocate, hstart, hstop, ← hself]
          · intro stack nodes rest
            rw [List.cons_append, assemble, List.append_assoc, hassemble, List.cons_append,
              assemble]
            simp

theorem Node.assemble_walkAll (fence : Option Fence) {move : Point → Point} {tree : List Node}
    (hproper : Node.AllProper tree) {marks : List Mark}
    (hmarks : marks.map (Mark.movedVisit? move) = (Node.walkAll tree).map some) :
    ∃ built, Node.relocateAll move built = tree ∧ ∀ stack nodes rest,
      assemble fence stack nodes (marks ++ rest) =
        assemble fence stack (built.reverse ++ nodes) rest := by
  cases tree with
  | nil =>
      obtain rfl := List.map_eq_nil_iff.1 hmarks
      exact ⟨[], rfl, fun _ _ _ => rfl⟩
  | cons node tail =>
      rw [Node.walkAll, List.map_append] at hmarks
      obtain ⟨front, back, rfl, hfront, hback⟩ := List.map_eq_append_iff.1 hmarks
      obtain ⟨built, hbuilt, hnode⟩ := Node.assemble_walk fence hproper.1 hfront
      obtain ⟨others, hothers, htail⟩ := Node.assemble_walkAll fence hproper.2 hback
      refine ⟨built :: others, by rw [Node.relocateAll, hbuilt, hothers], ?_⟩
      intro stack nodes rest
      rw [List.append_assoc, hnode, htail, List.reverse_cons, List.append_assoc]
      rfl

end

theorem assemble_proper {stack : List OpenTag} {nodes tree : List Node} {marks : List Mark}
    (hstack : ∀ tag ∈ stack, Node.AllProper tag.before) (hnodes : Node.AllProper nodes)
    (htree : assemble fence stack nodes marks = .ok tree) : Node.AllProper tree := by
  induction marks generalizing stack nodes with
  | nil =>
      cases stack with
      | nil =>
          cases htree
          exact Node.allProper_reverse.2 hnodes
      | cons innermost outer => cases htree
  | cons mark rest induction =>
      cases mark with
      | content value span =>
          exact induction hstack (Node.allProper_cons.2 ⟨Node.proper_content, hnodes⟩) htree
      | leaf tag =>
          have hleaf : (Node.block tag []).Proper :=
            Node.proper_block.2 ⟨fun _ => rfl, Node.allProper_nil⟩
          exact induction hstack (Node.allProper_cons.2 ⟨hleaf, hnodes⟩) htree
      | opening name attributes start =>
          refine induction ?_ Node.allProper_nil htree
          intro tag hmem
          rcases List.mem_cons.1 hmem with rfl | houter
          · exact hnodes
          · exact hstack tag houter
      | closing name span =>
          cases stack with
          | nil => cases htree
          | cons innermost outer =>
              obtain ⟨hbefore, houter⟩ := List.forall_mem_cons.1 hstack
              rw [assemble] at htree
              split at htree
              · refine induction houter
                  (Node.allProper_cons.2 ⟨Node.proper_block.2 ⟨?_, ?_⟩, hbefore⟩) htree
                · intro hself
                  cases hself
                · exact Node.allProper_reverse.2 hnodes
              · cases htree
      | fault fault => cases htree

end Assemble

theorem assemble_eq_ok_of_walk (fence : Option Fence) {move : Point → Point} {tree : List Node}
    (hproper : Node.AllProper tree) {marks : List Mark}
    (hmarks : marks.map (Mark.movedVisit? move) = (Node.walkAll tree).map some) :
    ∃ built, assemble fence [] [] marks = .ok built ∧ Node.relocateAll move built = tree := by
  obtain ⟨built, hbuilt, hassemble⟩ := Node.assemble_walkAll fence hproper hmarks
  have hmade := hassemble [] [] []
  rw [List.append_nil, List.append_nil] at hmade
  refine ⟨built, ?_, hbuilt⟩
  rw [hmade, assemble, List.reverse_reverse]

namespace Mark

/-- The marks of a body as its line scan meets them: content that is not blank, and tags. -/
def ofLines (body : List Line) : List Mark :=
  ofItems (Scan.ofLines body).items

theorem selfClosing_of_leaf_mem {body : List Line} {tag : Tag} (hmem : .leaf tag ∈ ofLines body) :
    tag.selfClosing = true := by
  obtain ⟨item, -, hitem⟩ := List.mem_filterMap.1 hmem
  cases item with
  | content line =>
      simp only [ofItem?] at hitem
      split at hitem <;> cases hitem
  | tag group =>
      simp only [ofItem?] at hitem
      split at hitem <;> cases hitem
      rfl
  | fault fault => cases hitem

end Mark

theorem Document.parse_eq_map {text : String} {frontmatter : Option String} {body : List Line}
    (hcut : cutFrontmatter (Line.ofText text.toList) = .ok (frontmatter, body)) :
    parse text = (assemble (Scan.ofLines body).fence [] [] (Mark.ofLines body)).map
      (Document.mk frontmatter) := by
  unfold parse
  rw [hcut]
  change (do return Document.mk frontmatter (← Node.ofLines body)) = _
  unfold Node.ofLines Mark.ofLines
  cases assemble (Scan.ofLines body).fence [] [] (Mark.ofItems (Scan.ofLines body).items) <;> rfl

theorem Document.assemble_of_parse_error {text : String} {frontmatter : Option String}
    {body : List Line} {fault : Fault}
    (hcut : cutFrontmatter (Line.ofText text.toList) = .ok (frontmatter, body))
    (hparse : parse text = .error fault) :
    assemble (Scan.ofLines body).fence [] [] (Mark.ofLines body) = .error fault := by
  rw [parse_eq_map hcut] at hparse
  cases htree : assemble (Scan.ofLines body).fence [] [] (Mark.ofLines body) with
  | error other =>
      rw [htree] at hparse
      rw [Except.error.inj hparse]
  | ok nodes =>
      rw [htree] at hparse
      cases hparse

theorem Document.walk_of_parse {text : String} {document : Document}
    (hparse : parse text = .ok document) :
    ∃ body, cutFrontmatter (Line.ofText text.toList) = .ok (document.frontmatter, body) ∧
      Node.AllProper document.children ∧
        (Mark.ofLines body).map Mark.visit? = (Node.walkAll document.children).map some := by
  cases hcut : cutFrontmatter (Line.ofText text.toList) with
  | error fault =>
      unfold parse at hparse
      rw [hcut] at hparse
      cases hparse
  | ok cut =>
      obtain ⟨frontmatter, body⟩ := cut
      rw [parse_eq_map hcut] at hparse
      cases htree : assemble (Scan.ofLines body).fence [] [] (Mark.ofLines body) with
      | error fault =>
          rw [htree] at hparse
          cases hparse
      | ok nodes =>
          rw [htree] at hparse
          cases hparse
          refine ⟨body, rfl, assemble_proper (by simp) Node.allProper_nil htree, ?_⟩
          have hwalk := assemble_walk (fun _ => Mark.selfClosing_of_leaf_mem) htree
          simpa [OpenTag.walkAll, Node.walkAll] using hwalk

section Parse

variable {text : String} {frontmatter : Option String} {body : List Line}

theorem Document.parse_of_mismatch
    (hcut : cutFrontmatter (Line.ofText text.toList) = .ok (frontmatter, body))
    {before after : List Mark} {name : String} {span : Span}
    (hmarks : Mark.ofLines body = before ++ .closing name span :: after)
    (hfirst : Mark.Mismatch before name) :
    parse text = .error (.unexpectedClosing name span.start) := by
  rw [parse_eq_map hcut, hmarks, assemble_mismatch hfirst]
  rfl

theorem Document.parse_of_pending
    (hcut : cutFrontmatter (Line.ofText text.toList) = .ok (frontmatter, body))
    {name : String} {start : Point} {outer : List (String × Point)}
    (hpending : Mark.Pending (Mark.ofLines body) ((name, start) :: outer)) :
    parse text = .error (match (Scan.ofLines body).fence with
      | some fence => .unclosedFence name fence.start
      | none => .unclosedTag name start) := by
  rw [parse_eq_map hcut, assemble_unclosed hpending]
  rfl

theorem Document.exists_parse_iff
    (hcut : cutFrontmatter (Line.ofText text.toList) = .ok (frontmatter, body))
    (hclean : ∀ fault, .fault fault ∉ Mark.ofLines body) :
    (∃ document, parse text = .ok document) ↔ Mark.Balanced (Mark.ofLines body) := by
  constructor
  · intro hparse
    obtain ⟨document, hdocument⟩ := hparse
    rcases Mark.brackets_trichotomy _ hclean with
      hbalanced | ⟨_, _, _, _, hmarks, hfirst⟩ | ⟨_, _, _, hpending⟩
    · exact hbalanced
    · cases hdocument.symm.trans (parse_of_mismatch hcut hmarks hfirst)
    · cases hdocument.symm.trans (parse_of_pending hcut hpending)
  · intro hbalanced
    obtain ⟨nodes, hnodes⟩ := assemble_balanced (Scan.ofLines body).fence hbalanced
    refine ⟨⟨frontmatter, nodes⟩, ?_⟩
    rw [parse_eq_map hcut, hnodes]
    rfl

theorem Document.parse_eq_ok_iff
    (hcut : cutFrontmatter (Line.ofText text.toList) = .ok (frontmatter, body))
    (document : Document) :
    parse text = .ok document ↔
      document.frontmatter = frontmatter ∧ Node.AllProper document.children ∧
        (Mark.ofLines body).map Mark.visit? = (Node.walkAll document.children).map some := by
  constructor
  · intro hdocument
    obtain ⟨_, hbody, hproper, hwalk⟩ := walk_of_parse hdocument
    cases hcut.symm.trans hbody
    exact ⟨rfl, hproper, hwalk⟩
  · intro hmeets
    obtain ⟨rfl, hproper, hwalk⟩ := hmeets
    have hmarks : (Mark.ofLines body).map (Mark.movedVisit? id) =
        (Node.walkAll document.children).map some := by
      rw [Mark.map_movedVisit?_id, hwalk]
    obtain ⟨built, hbuilt, hid⟩ :=
      assemble_eq_ok_of_walk (Scan.ofLines body).fence hproper hmarks
    rw [Node.relocateAll_id] at hid
    rw [parse_eq_map hcut, hbuilt, hid]
    rfl

end Parse

/-- The marks of a text decide what becomes of it. It has a document exactly when they are well
bracketed, and then that is the one whose walk meets them; the first closing tag that does not match
is a fault, and without one so is the innermost tag that stays open. -/
theorem Document.parse_of_brackets {text : String} {frontmatter : Option String}
    {body : List Line}
    (hcut : cutFrontmatter (Line.ofText text.toList) = .ok (frontmatter, body))
    (hclean : ∀ fault, .fault fault ∉ Mark.ofLines body) :
    ((∃ document, parse text = .ok document) ↔ Mark.Balanced (Mark.ofLines body)) ∧
    (∀ document, parse text = .ok document ↔
      document.frontmatter = frontmatter ∧ Node.AllProper document.children ∧
        (Mark.ofLines body).map Mark.visit? = (Node.walkAll document.children).map some) ∧
    (∀ before name span after, Mark.ofLines body = before ++ .closing name span :: after →
      Mark.Mismatch before name → parse text = .error (.unexpectedClosing name span.start)) ∧
    (∀ name start outer, Mark.Pending (Mark.ofLines body) ((name, start) :: outer) →
      parse text = .error (match (Scan.ofLines body).fence with
        | some fence => .unclosedFence name fence.start
        | none => .unclosedTag name start)) ∧
    (Mark.Balanced (Mark.ofLines body) ∨
      (∃ before name span after, Mark.ofLines body = before ++ .closing name span :: after ∧
        Mark.Mismatch before name) ∨
      ∃ name start outer, Mark.Pending (Mark.ofLines body) ((name, start) :: outer)) := by
  refine ⟨exists_parse_iff hcut hclean, parse_eq_ok_iff hcut, ?_, ?_, ?_⟩
  · intro before name span after hmarks hfirst
    exact parse_of_mismatch hcut hmarks hfirst
  · intro name start outer hpending
    exact parse_of_pending hcut hpending
  · exact Mark.brackets_trichotomy _ hclean

theorem Document.parse_of_brackets_nested :
    let text := "\x7b% a %\x7d\nx\n\x7b% b /%\x7d\n\x7b% /a %\x7d\n"
    (∃ document, parse text = .ok document) ∧
      Mark.Balanced (Mark.ofLines (Line.ofText text.toList)) := by
  intro text
  have hcut : cutFrontmatter (Line.ofText text.toList) = .ok (none, Line.ofText text.toList) := by
    decide +kernel
  have hvisits : (Mark.ofLines (Line.ofText text.toList)).all
      (fun mark => mark.visit?.isSome) = true := by
    decide +kernel
  have hclean : ∀ fault, .fault fault ∉ Mark.ofLines (Line.ofText text.toList) := by
    intro fault hmem
    have hvisit := List.all_eq_true.1 hvisits _ hmem
    cases hvisit
  have hsome : (parse text).toOption.isSome = true := by
    decide +kernel
  have hparse : ∃ document, parse text = .ok document := by
    cases hresult : parse text with
    | error fault =>
        rw [hresult] at hsome
        cases hsome
    | ok document => exact ⟨document, rfl⟩
  exact ⟨hparse, (parse_of_brackets hcut hclean).1.1 hparse⟩

end Tagmark
