import Tagmark.Proofs.Document.Block
import Tagmark.Proofs.Document.Front
import Tagmark.Proofs.Document.Places

/-!
A block among other text. Where the tags of a block stand on lines of their own and plain lines are
between them, a document that is accepted has the block with these lines as its content, whatever
stands in front of it and behind it (`Document.LeadsToTag.exists_block`).
-/

namespace Tagmark

theorem assemble_mem {fence : Option Fence} {stack : List OpenTag} {nodes tree : List Node}
    {marks : List Mark} (htree : assemble fence stack nodes marks = .ok tree) {node : Node}
    (hmem : node ∈ Node.preorderAll nodes ∨ ∃ opened ∈ stack, node ∈ Node.preorderAll opened.before) :
    node ∈ Node.preorderAll tree := by
  induction marks generalizing stack nodes with
  | nil =>
      cases stack with
      | nil =>
          cases htree
          rcases hmem with hmem | ⟨_, hopened, -⟩
          · rw [Node.mem_preorderAll] at hmem ⊢
            simpa using hmem
          · cases hopened
      | cons innermost outer => cases htree
  | cons mark rest induction =>
      cases mark with
      | content value span => exact induction htree (hmem.imp_left (List.mem_append_right _))
      | leaf tag => exact induction htree (hmem.imp_left (List.mem_append_right _))
      | opening name attributes start =>
          refine induction htree (.inr ?_)
          rcases hmem with hmem | ⟨opened, hopened, hmem⟩
          · exact ⟨_, List.mem_cons_self, hmem⟩
          · exact ⟨opened, List.mem_cons_of_mem _ hopened, hmem⟩
      | closing name span =>
          cases stack with
          | nil => cases htree
          | cons innermost outer =>
              rw [assemble] at htree
              split at htree
              · refine induction htree ?_
                rcases hmem with hmem | ⟨opened, hopened, hmem⟩
                · refine .inl (List.mem_append_left _ (List.mem_cons_of_mem _ ?_))
                  rw [Node.mem_preorderAll] at hmem ⊢
                  simpa using hmem
                · rcases List.mem_cons.1 hopened with rfl | houter
                  · exact .inl (List.mem_append_right _ hmem)
                  · exact .inr ⟨opened, houter, hmem⟩
              · cases htree
      | fault fault => cases htree

theorem Text.cut?_opening_of_blank {text : List Char} (hblank : isBlankText text = true) :
    cut? ['{', '%'] text = none :=
  cut?_eq_none_of_not_mem (not_mem_of_blank (by decide) hblank) _

theorem Segment.exists_items_tag {point stop : Point} {gap body blank : List Char}
    {group : TokenGroup} (hgap : Text.isBlankText gap = true) (hblank : Text.isBlankText blank = true)
    (hcut : segments (point.advance gap) ('{' :: '%' :: (body ++ blank)) =
      .ok (.tag group :: Segment.ofText stop blank)) :
    ∃ cut, segments point (gap ++ '{' :: '%' :: (body ++ blank)) = .ok cut ∧
      items cut = [.tag group] := by
  rw [segments_append_of_none point (Text.cut?_opening_of_blank hgap) (body ++ blank), hcut]
  refine ⟨_, rfl, ?_⟩
  have hback := items_ofText_append stop blank []
  rw [List.append_nil, if_pos hblank] at hback
  rw [items_ofText_append, if_pos hgap, items, hback]
  rfl

def Header.Alone (header : Header) (line : List Char) : Prop :=
  ∃ indent text ending, line = indent ++ (text ++ ending) ∧ Text.isBlankText indent = true ∧
    header.WrittenAs text ∧ Text.isBlankText ending = true

namespace Header.Alone

variable {header : Header} {line : List Char}

theorem startsWithTag (halone : header.Alone line) (point : Point) :
    Line.startsWithTag ⟨line, point⟩ = true := by
  obtain ⟨indent, text, ending, rfl, hindent, hwritten, -⟩ := halone
  obtain ⟨front, rfl⟩ := hwritten.delimited
  refine Line.startsWithTag_iff.2 ⟨indent, front ++ ['%', '}'] ++ ending, hindent, ?_⟩
  simp

theorem exists_segments (halone : header.Alone line) (point : Point) :
    ∃ group cut, segments point line = .ok cut ∧ Segment.items cut = [.tag group] ∧
      group.header = .ok header := by
  obtain ⟨indent, text, ending, rfl, hindent, hwritten, hending⟩ := halone
  obtain ⟨group, stop, hcut, hheader⟩ :=
    hwritten.segments_append (point.advance indent) (Text.cut?_opening_of_blank hending)
  obtain ⟨front, rfl⟩ := hwritten.delimited
  obtain ⟨cut, hown, hitems⟩ := Segment.exists_items_tag hindent hending hcut
  exact ⟨group, cut, hown, hitems, hheader⟩

theorem gathered (halone : header.Alone line) {rest : List Char} (hline : Text.IsLine line rest)
    (point : Point) : Line.Gathered point line rest := by
  obtain ⟨_, _, hcut, -⟩ := halone.exists_segments point
  constructor
  · exact fun front back heq hback => absurd (hline.eq_nil_of_eq heq) hback
  · exact fun hrest => ⟨hline.ended hrest, Line.endsInTag_of_segments hcut point⟩

theorem exists_reads (halone : header.Alone line) {rest : List Char}
    (hline : Text.IsLine line rest) {point : Point} {scan : Scan}
    (hrest : Scan.Reads none (point.advance line) rest scan) :
    ∃ group : TokenGroup, group.header = .ok header ∧
      Scan.Reads none point (line ++ rest) { scan with items := .tag group :: scan.items } := by
  obtain ⟨group, cut, hcut, hitems, hheader⟩ := halone.exists_segments point
  refine ⟨group, hheader, ?_⟩
  have hreads : Scan.Reads none point (line ++ rest)
      { scan with items := Segment.items cut ++ scan.items } :=
    .tags (halone.gathered hline point) (halone.startsWithTag point) hcut (by rwa [hitems])
  rwa [hitems] at hreads

end Header.Alone

theorem Scan.Reads.plain {lines : List (List Char)} (hlines : Text.AreLines lines)
    (hplain : ∀ line ∈ lines, Text.IsPlain line)
    (hended : lines.flatten ≠ [] → lines.flatten.getLast? = some '\n') {point : Point}
    {rest : List Char} {scan : Scan}
    (hrest : Reads none (point.advance lines.flatten) rest scan) :
    Reads none point (lines.flatten ++ rest)
      { scan with items := (Line.place point lines).map .content ++ scan.items } := by
  induction lines generalizing point with
  | nil => exact hrest
  | cons line lines induction =>
      obtain ⟨hline, hlater⟩ := hlines
      obtain ⟨hfirst, hothers⟩ := List.forall_mem_cons.1 hplain
      rw [List.flatten_cons] at hended hrest ⊢
      rw [Point.advance_append] at hrest
      have hnewline : line.getLast? = some '\n' := by
        by_cases hnil : lines.flatten = []
        · rw [hnil, List.append_nil] at hended
          exact hended hline.ne_nil
        · exact hline.ended hnil
      have hcontent : Line.startsWithTag ⟨line, point⟩ = false := hfirst.not_tag
      have hread := induction hlater hothers (Text.getLast?_of_append hended) hrest
      rw [← hfirst.fence_next point] at hread
      rw [List.append_assoc]
      exact .line ⟨hline.ne_nil, hline.newline_last, fun _ => hnewline⟩ (.inr hcontent) hread

theorem Mark.ofItems_tag {group : TokenGroup} {mark : Mark}
    (hmark : ofItem? (.tag group) = some mark) (items : List Item) :
    ofItems (.tag group :: items) = mark :: ofItems items :=
  List.filterMap_cons_some hmark

namespace Document

/-- The tags of a block on lines of their own, with plain lines between them and `back` behind. -/
structure IsBlock (name : String) (attributes : KeyMap Value) (first body last back : List Char) :
    Prop where
  opening : (Header.opening name attributes false).Alone first
  opening_line : Text.IsLine first (body ++ (last ++ back))
  plain : ∀ line ∈ Text.splitLines body, Text.IsPlain line
  whole : body ≠ [] → body.getLast? = some '\n'
  closing : (Header.closing name).Alone last
  closing_line : Text.IsLine last back

variable {front first body last back : List Char} {name : String} {attributes : KeyMap Value}
  {document : Document}

theorem LeadsToTag.exists_block (hfront : LeadsToTag front)
    (hblock : IsBlock name attributes first body last back)
    (hparse : parse (String.ofList (front ++ (first ++ (body ++ (last ++ back))))) = .ok document) :
    ∃ span, .block ⟨name, attributes, false, span⟩
        (Node.ofBody (Point.origin.advance (front ++ first)) body) ∈
      Node.preorderAll document.children := by
  obtain ⟨frontmatter, opened, built, happend⟩ := hfront.parse_append
  let point := Point.origin.advance (front ++ first)
  have hflatten := Text.flatten_splitLines body
  have hback := (Scan.reads_scan (Text.areLines_splitLines back)).1 none
    ((point.advance (Text.splitLines body).flatten).advance last)
  rw [Text.flatten_splitLines back] at hback
  obtain ⟨after, hafter, hlast⟩ := hblock.closing.exists_reads hblock.closing_line hback
  have hbody := Scan.Reads.plain (Text.areLines_splitLines body) hblock.plain
    (by rw [hflatten]; exact hblock.whole) hlast
  rw [hflatten] at hbody
  have hplace : point = (Point.origin.advance front).advance first := Point.advance_append _ _ _
  rw [hplace] at hbody
  obtain ⟨before, hbefore, hreads⟩ := hblock.opening.exists_reads hblock.opening_line hbody
  rw [happend _ _ _ (hblock.opening.gathered hblock.opening_line _)
    (hblock.opening.startsWithTag _) hreads] at hparse
  obtain ⟨htree, -⟩ := eq_ok_of_map hparse
  have hopening : Mark.ofItem? (.tag before) =
      some (.opening name attributes before.span.start) := by
    simp [Mark.ofItem?, hbefore]
  have hclosing : Mark.ofItem? (.tag after) = some (.closing name after.span) := by
    simp [Mark.ofItem?, hafter]
  have hapart : ∀ items line rest,
      Mark.joinContent (.tag after :: items) ≠ .content line :: rest :=
    fun items line rest h => by cases h
  rw [Mark.ofItems_tag hopening, Mark.ofItems_run _ _ (hapart _), Mark.ofItems_tag hclosing,
    assemble_block, ← hplace] at htree
  exact ⟨_, assemble_mem htree (.inl (List.mem_append_left _ (Node.mem_preorder_self _)))⟩

end Document

end Tagmark
