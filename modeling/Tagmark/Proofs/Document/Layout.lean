import Tagmark.Proofs.Document.Brackets
import Tagmark.Proofs.Document.Reading

/-!
How a document lies over its text. Items, marks and nodes follow on each other in their text with
nothing but white space between them, each at its place (`Scan.Reads.laidOver`,
`Mark.laidOver_of_items`, `Node.laidOver_of_walk`).
-/

namespace Tagmark

namespace Item

/-- Items in the order of a text, with white space between them; content follows right on content
before it, as the lines of one run do. After a fault nothing is said. -/
inductive LaidOver : Bool → Point → List Char → List Item → Prop
  | nil {run : Bool} {point : Point} {text : List Char}
      (hblank : Text.isBlankText text = true) : LaidOver run point text []
  | content {run : Bool} {point : Point} {gap rest : List Char} {line : Line} {items : List Item}
      (hgap : Text.isBlankText gap = true) (hrun : run = true → gap = [])
      (hstart : line.start = point.advance gap)
      (hrest : LaidOver true (line.start.advance line.text) rest items) :
      LaidOver run point (gap ++ (line.text ++ rest)) (.content line :: items)
  | tag {run : Bool} {point : Point} {gap source rest : List Char} {group : TokenGroup}
      {items : List Item} (hgap : Text.isBlankText gap = true)
      (hreads : group.ReadsFrom (point.advance gap) source)
      (hrest : LaidOver false (point.advance (gap ++ source)) rest items) :
      LaidOver run point (gap ++ (source ++ rest)) (.tag group :: items)
  | fault {run : Bool} {point : Point} {text : List Char} {fault : Fault} {items : List Item} :
      LaidOver run point text (.fault fault :: items)

theorem LaidOver.gap {run : Bool} {point : Point} {gap text : List Char} {items : List Item}
    (hgap : Text.isBlankText gap = true) (hlaid : LaidOver run (point.advance gap) text items) :
    LaidOver false point (gap ++ text) items := by
  cases hlaid with
  | nil htext => exact .nil (Text.isBlankText_append.2 ⟨hgap, htext⟩)
  | content hspace _ hstart hrest =>
      rw [← List.append_assoc]
      rw [← Point.advance_append] at hstart
      have hblank := Text.isBlankText_append.2 ⟨hgap, hspace⟩
      exact .content hblank (fun h => Bool.noConfusion h) hstart hrest
  | tag hspace hreads hrest =>
      rw [← List.append_assoc]
      rw [← Point.advance_append] at hreads hrest
      have hblank := Text.isBlankText_append.2 ⟨hgap, hspace⟩
      exact .tag hblank hreads (by rwa [List.append_assoc])
  | fault => exact .fault

theorem LaidOver.line {run : Bool} {point : Point} {text rest : List Char} {items : List Item}
    (hrest : LaidOver true (point.advance text) rest items) :
    LaidOver run point (text ++ rest) (.content ⟨text, point⟩ :: items) :=
  @LaidOver.content run point [] rest ⟨text, point⟩ items rfl (fun _ => rfl) rfl hrest

end Item

theorem Segment.items_ofText_append (point : Point) (before : List Char) (rest : List Segment) :
    Segment.items (Segment.ofText point before ++ rest) =
      if Text.isBlankText before then Segment.items rest
      else .content ⟨before, point⟩ :: Segment.items rest := by
  unfold Segment.ofText
  split
  · next hnil =>
      subst hnil
      rfl
  · rfl

/-- The items of segments, with items laid over the text that follows. Right after content the
segments must hold a tag, for blank text between two lines of content would be lost. -/
theorem Segment.Tiles.laidOver {point : Point} {text after : List Char} {cut : List Segment}
    {items : List Item} (htiles : Segment.Tiles point text cut) {run : Bool}
    (hrun : run = true → Text.cut? ['{', '%'] text ≠ none)
    (hafter : ∀ run, Item.LaidOver run (point.advance text) after items) :
    Item.LaidOver run point (text ++ after) (Segment.items cut ++ items) := by
  induction htiles generalizing run with
  | @text point text hcut =>
      have hitems := Segment.items_ofText_append point text []
      rw [List.append_nil] at hitems
      rw [hitems]
      split
      · next hblank =>
          cases run with
          | true => exact absurd hcut (hrun rfl)
          | false => exact (hafter false).gap hblank
      · exact .line (hafter true)
  | @tag point before body behind group rest _ hreads _ induction =>
      have hrest : Item.LaidOver false (point.advance (before ++ '{' :: '%' :: body))
          (behind ++ after) (Segment.items rest ++ items) := by
        apply induction (fun h => Bool.noConfusion h)
        intro run
        rw [← Point.advance_append, List.append_assoc]
        exact hafter run
      have htext : before ++ '{' :: '%' :: (body ++ behind) ++ after =
          before ++ ('{' :: '%' :: body ++ (behind ++ after)) := by
        simp
      rw [htext, Segment.items_ofText_append]
      split
      · next hblank => exact .tag hblank hreads hrest
      · rw [Point.advance_append] at hrest
        exact .line (@Item.LaidOver.tag _ _ [] _ _ _ _ rfl hreads hrest)

theorem Scan.Reads.laidOver {fence : Option Fence} {point : Point} {text : List Char} {scan : Scan}
    (hreads : Scan.Reads fence point text scan) (run : Bool) :
    Item.LaidOver run point text scan.items := by
  induction hreads generalizing run with
  | done => exact .nil rfl
  | @line _ point line _ _ _ _ _ induction =>
      exact .line (induction true)
  | tags _ hstart hcut _ induction =>
      refine (tiles_of_segments hcut).laidOver ?_ induction
      intro _
      exact Line.cut?_ne_none_of_startsWithTag hstart
  | fault => exact .fault

theorem Item.LaidOver.join {run : Bool} {point : Point} {text : List Char} {items : List Item}
    (hlaid : Item.LaidOver run point text items) :
    Item.LaidOver run point text (Mark.joinContent items) := by
  induction hlaid with
  | nil hblank => exact .nil hblank
  | @content run point gap rest line items hgap hrun hstart _ induction =>
      rw [Mark.joinContent]
      split
      · next next after hjoin =>
          rw [hjoin] at induction
          cases induction with
          | @content _ _ gap' rest' _ _ _ hrun' hstart' hrest' =>
              obtain rfl := hrun' rfl
              rw [List.nil_append, ← List.append_assoc line.text]
              apply @Item.LaidOver.content _ _ gap rest' (line.append next) _ hgap hrun hstart
              rw [hstart', Point.advance_nil, ← Point.advance_append] at hrest'
              exact hrest'
      · exact .content hgap hrun hstart induction
  | tag hgap hreads _ induction => exact .tag hgap hreads induction
  | fault => exact .fault

def Header.WrittenAt (header : Header) (point : Point) (source : List Char) : Prop :=
  ∃ group : TokenGroup, group.ReadsFrom point source ∧ group.header = .ok header

namespace Mark

def StandsAt (point : Point) (source : List Char) : Mark → Prop
  | .content value span =>
      value.toList = source ∧ Text.isBlankText source = false ∧ span = .covering point source
  | .leaf tag =>
      (Header.opening tag.name tag.attributes true).WrittenAt point source ∧
        tag.span = .covering point source
  | .opening name attributes start =>
      (Header.opening name attributes false).WrittenAt point source ∧ start = point
  | .closing name span =>
      (Header.closing name).WrittenAt point source ∧ span = .covering point source
  | .fault _ => False

/-- Marks in the order of a text, with white space between them. After a fault nothing is said. -/
inductive LaidOver : Point → List Char → List Mark → Prop
  | nil {point : Point} {text : List Char} (hblank : Text.isBlankText text = true) :
      LaidOver point text []
  | cons {point : Point} {gap source rest : List Char} {mark : Mark} {marks : List Mark}
      (hgap : Text.isBlankText gap = true) (hmark : mark.StandsAt (point.advance gap) source)
      (hrest : LaidOver (point.advance (gap ++ source)) rest marks) :
      LaidOver point (gap ++ (source ++ rest)) (mark :: marks)
  | fault {point : Point} {text : List Char} {fault : Fault} {marks : List Mark} :
      LaidOver point text (.fault fault :: marks)

theorem LaidOver.gap {point : Point} {gap text : List Char} {marks : List Mark}
    (hgap : Text.isBlankText gap = true) (hlaid : LaidOver (point.advance gap) text marks) :
    LaidOver point (gap ++ text) marks := by
  cases hlaid with
  | nil htext => exact .nil (Text.isBlankText_append.2 ⟨hgap, htext⟩)
  | cons hspace hmark hrest =>
      rw [← List.append_assoc]
      rw [← Point.advance_append] at hmark hrest
      exact .cons (Text.isBlankText_append.2 ⟨hgap, hspace⟩) hmark (by rwa [List.append_assoc])
  | fault => exact .fault

end Mark

theorem Mark.exists_of_header {group : TokenGroup} {header : Header} {point : Point}
    {source : List Char} (hreads : group.ReadsFrom point source)
    (hheader : group.header = .ok header) :
    ∃ mark, Mark.ofItem? (.tag group) = some mark ∧ mark.StandsAt point source := by
  obtain ⟨_, _, hspan⟩ := hreads.source
  have hwritten : header.WrittenAt point source := ⟨group, hreads, hheader⟩
  cases header with
  | opening name attributes selfClosing =>
      cases selfClosing with
      | true =>
          refine ⟨.leaf ⟨name, attributes, true, group.span⟩, ?_, hwritten, hspan⟩
          simp [Mark.ofItem?, hheader]
      | false =>
          refine ⟨.opening name attributes group.span.start, ?_, hwritten, ?_⟩
          · simp [Mark.ofItem?, hheader]
          · rw [hspan]
            rfl
  | closing name =>
      refine ⟨.closing name group.span, ?_, hwritten, hspan⟩
      simp [Mark.ofItem?, hheader]

theorem Mark.laidOver_of_items {run : Bool} {point : Point} {text : List Char} {items : List Item}
    (hlaid : Item.LaidOver run point text items) :
    Mark.LaidOver point text (items.filterMap Mark.ofItem?) := by
  induction hlaid with
  | nil hblank => exact .nil hblank
  | @content run point gap rest line items hgap _ hstart _ induction =>
      rw [hstart, ← Point.advance_append] at induction
      cases hblank : Text.isBlankText line.text with
      | true =>
          have hnone : Mark.ofItem? (.content line) = none := by simp [Mark.ofItem?, hblank]
          rw [List.filterMap_cons_none hnone, ← List.append_assoc]
          exact induction.gap (Text.isBlankText_append.2 ⟨hgap, hblank⟩)
      | false =>
          obtain ⟨ending, htext, hending⟩ := Text.exists_dropLineEnd_append line.text
          have hsome : Mark.ofItem? (.content line) =
              some (.content (String.ofList (Text.dropLineEnd line.text))
                (.covering line.start (Text.dropLineEnd line.text))) := by
            simp [Mark.ofItem?, hblank]
          rw [List.filterMap_cons_some hsome]
          generalize Text.dropLineEnd line.text = value at *
          have hvalue : Text.isBlankText value = false := by
            cases hspace : Text.isBlankText value with
            | false => rfl
            | true =>
                rw [htext, Text.isBlankText_append.2 ⟨hspace, hending⟩] at hblank
                cases hblank
          rw [htext, List.append_assoc]
          refine .cons hgap ⟨String.toList_ofList, hvalue, by rw [hstart]⟩ ?_
          apply Mark.LaidOver.gap hending
          rw [← Point.advance_append, List.append_assoc, ← htext]
          exact induction
  | @tag run point gap source rest group items hgap hreads _ induction =>
      cases hheader : group.header with
      | error fault =>
          have hsome : Mark.ofItem? (.tag group) = some (.fault fault) := by
            simp [Mark.ofItem?, hheader]
          rw [List.filterMap_cons_some hsome]
          exact .fault
      | ok header =>
          obtain ⟨mark, hmark, hstands⟩ := Mark.exists_of_header hreads hheader
          rw [List.filterMap_cons_some hmark]
          exact .cons hgap hstands induction
  | fault => exact .fault

mutual

/-- The node is what `source` means at the place: content is its text, a self-closing tag is written
there, and any other tag is its opening tag, its children with white space between them, and its
closing tag. -/
def Node.StandsAt : Node → Point → List Char → Prop
  | .content value span, point, source =>
      value.toList = source ∧ Text.isBlankText source = false ∧ span = .covering point source
  | .block tag children, point, source =>
      tag.span = .covering point source ∧
        if tag.selfClosing then
          children = [] ∧ (Header.opening tag.name tag.attributes true).WrittenAt point source
        else
          ∃ opening inner closing, source = opening ++ (inner ++ closing) ∧
            (Header.opening tag.name tag.attributes false).WrittenAt point opening ∧
            Node.LaidOver children (point.advance opening) inner ∧
            (Header.closing tag.name).WrittenAt (point.advance (opening ++ inner)) closing

def Node.LaidOver : List Node → Point → List Char → Prop
  | [], _, text => Text.isBlankText text = true
  | node :: rest, point, text =>
      ∃ gap source after, text = gap ++ (source ++ after) ∧ Text.isBlankText gap = true ∧
        node.StandsAt (point.advance gap) source ∧
        Node.LaidOver rest (point.advance (gap ++ source)) after

end

theorem Node.LaidOver.trail {nodes : List Node} {point : Point} {text gap : List Char}
    (hlaid : Node.LaidOver nodes point text) (hgap : Text.isBlankText gap = true) :
    Node.LaidOver nodes point (text ++ gap) := by
  induction nodes generalizing point text with
  | nil => exact Text.isBlankText_append.2 ⟨hlaid, hgap⟩
  | cons node rest induction =>
      obtain ⟨space, source, after, rfl, hspace, hnode, hrest⟩ := hlaid
      refine ⟨space, source, after ++ gap, ?_, hspace, hnode, induction hrest⟩
      rw [List.append_assoc, List.append_assoc]

mutual

theorem Node.standsAt_of_walk {node : Node} (hproper : node.Proper) {marks rest : List Mark}
    (hmarks : marks.map (Mark.movedVisit? id) = node.walk.map some) {point : Point}
    {text : List Char} (hlaid : Mark.LaidOver point text (marks ++ rest)) :
    ∃ gap source after, text = gap ++ (source ++ after) ∧ Text.isBlankText gap = true ∧
      node.StandsAt (point.advance gap) source ∧
      Mark.LaidOver (point.advance (gap ++ source)) after rest := by
  cases node with
  | content value span =>
      obtain ⟨mark, rfl, hmark⟩ := List.map_eq_singleton_iff.1 hmarks
      obtain ⟨place, rfl, rfl⟩ := Mark.movedVisit?_eq_content.1 hmark
      cases hlaid with
      | @cons _ gap source after _ _ hgap hstands hrest =>
          exact ⟨gap, source, after, rfl, hgap, hstands, hrest⟩
  | block tag children =>
      cases hself : tag.selfClosing with
      | true =>
          obtain rfl : children = [] := hproper.1 hself
          simp only [Node.walk, hself, if_true] at hmarks
          obtain ⟨mark, rfl, hmark⟩ := List.map_eq_singleton_iff.1 hmarks
          obtain ⟨written, rfl, rfl⟩ := Mark.movedVisit?_eq_leaf.1 hmark
          cases hlaid with
          | @cons _ gap source after _ _ hgap hstands hrest =>
              obtain ⟨hwritten, hspan⟩ := hstands
              refine ⟨gap, source, after, rfl, hgap, ⟨hspan, ?_⟩, hrest⟩
              rw [if_pos hself]
              exact ⟨rfl, hwritten⟩
      | false =>
          simp only [Node.walk, hself, Bool.false_eq_true, if_false, List.map_cons,
            List.map_append] at hmarks
          obtain ⟨first, others, rfl, hfirst, hothers⟩ := List.map_eq_cons_iff.1 hmarks
          obtain ⟨inner, last, rfl, hinner, hlast⟩ := List.map_eq_append_iff.1 hothers
          obtain ⟨final, rfl, hfinal⟩ := List.map_eq_singleton_iff.1 hlast
          obtain ⟨start, rfl, hstart⟩ := Mark.movedVisit?_eq_opening.1 hfirst
          obtain ⟨span, rfl, hstop⟩ := Mark.movedVisit?_eq_closing.1 hfinal
          rw [List.cons_append, List.append_assoc, List.singleton_append] at hlaid
          cases hlaid with
          | @cons _ gap opening after _ _ hgap hopening hrest =>
              obtain ⟨hwritten, hplace⟩ := hopening
              obtain ⟨front, behind, rfl, hchildren, hclosing⟩ :=
                Node.laidOver_of_walk hproper.2 hinner hrest
              cases hclosing with
              | @cons _ space closing after _ _ hspace hstands hafter =>
                  obtain ⟨hclosed, rfl⟩ := hstands
                  have hinside : Node.LaidOver children
                      ((point.advance gap).advance opening) (front ++ space) := by
                    rw [← Point.advance_append]
                    exact hchildren.trail hspace
                  have hspan : tag.span =
                      .covering (point.advance gap) (opening ++ ((front ++ space) ++ closing)) := by
                    cases hwhole : tag.span with
                    | mk first last =>
                        rw [hwhole] at hstart hstop
                        rw [← show start = first from hstart, hplace,
                          ← show _ = last from hstop]
                        simp only [Span.covering, Point.advance_append, id]
                  refine ⟨gap, opening ++ ((front ++ space) ++ closing), after, ?_, hgap,
                    ⟨hspan, ?_⟩, ?_⟩
                  · simp only [List.append_assoc]
                  · rw [if_neg (Bool.eq_false_iff.1 hself)]
                    refine ⟨opening, front ++ space, closing, rfl, hwritten, hinside, ?_⟩
                    simpa only [Point.advance_append] using hclosed
                  · simpa only [Point.advance_append] using hafter

theorem Node.laidOver_of_walk {nodes : List Node} (hproper : Node.AllProper nodes)
    {marks rest : List Mark}
    (hmarks : marks.map (Mark.movedVisit? id) = (Node.walkAll nodes).map some) {point : Point}
    {text : List Char} (hlaid : Mark.LaidOver point text (marks ++ rest)) :
    ∃ front after, text = front ++ after ∧ Node.LaidOver nodes point front ∧
      Mark.LaidOver (point.advance front) after rest := by
  cases nodes with
  | nil =>
      obtain rfl := List.map_eq_nil_iff.1 hmarks
      exact ⟨[], text, rfl, rfl, hlaid⟩
  | cons node tail =>
      rw [Node.walkAll, List.map_append] at hmarks
      obtain ⟨first, others, rfl, hfirst, hothers⟩ := List.map_eq_append_iff.1 hmarks
      rw [List.append_assoc] at hlaid
      obtain ⟨gap, source, after, rfl, hgap, hnode, hafter⟩ :=
        Node.standsAt_of_walk hproper.1 hfirst hlaid
      obtain ⟨front, behind, rfl, htail, hrest⟩ := Node.laidOver_of_walk hproper.2 hothers hafter
      refine ⟨gap ++ (source ++ front), behind, ?_, ?_, ?_⟩
      · simp only [List.append_assoc]
      · exact ⟨gap, source, front, rfl, hgap, hnode, htail⟩
      · rw [← List.append_assoc, Point.advance_append]
        exact hrest

end

end Tagmark
