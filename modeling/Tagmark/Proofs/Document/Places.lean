import Tagmark.Proofs.Document.Layout
import Tagmark.Proofs.Text.Slice

/-!
Where the nodes of a document are in its text. `Document.parse_places` says that the places are
exact and that only white space lies outside of the nodes.
-/

namespace Tagmark

namespace Node

def span : Node → Span
  | .content _ span => span
  | .block tag _ => tag.span

def tag? : Node → Option Tag
  | .content _ _ => none
  | .block tag _ => some tag

def children : Node → List Node
  | .content _ _ => []
  | .block _ children => children

end Node

mutual

def Node.preorder : Node → List Node
  | .content value span => [.content value span]
  | .block tag children => .block tag children :: Node.preorderAll children

def Node.preorderAll : List Node → List Node
  | [] => []
  | node :: rest => node.preorder ++ Node.preorderAll rest

end

theorem Node.mem_preorderAll {node : Node} {nodes : List Node} :
    node ∈ Node.preorderAll nodes ↔ ∃ outer ∈ nodes, node ∈ outer.preorder := by
  induction nodes with
  | nil => simp [Node.preorderAll]
  | cons first rest induction =>
      rw [Node.preorderAll, List.mem_append, induction]
      simp

theorem Node.mem_preorder_self (node : Node) : node ∈ node.preorder := by
  cases node with
  | content value span => exact List.mem_singleton_self _
  | block tag children => exact List.mem_cons_self

mutual

theorem Node.mem_preorder_trans {node inner nested : Node} (hinner : inner ∈ node.preorder)
    (hnested : nested ∈ inner.preorder) : nested ∈ node.preorder := by
  cases node with
  | content value span =>
      obtain rfl := List.mem_singleton.1 hinner
      exact hnested
  | block tag children =>
      rcases List.mem_cons.1 hinner with rfl | hinside
      · exact hnested
      · exact List.mem_cons_of_mem _ (Node.mem_preorderAll_trans hinside hnested)

theorem Node.mem_preorderAll_trans {nodes : List Node} {inner nested : Node}
    (hinner : inner ∈ Node.preorderAll nodes) (hnested : nested ∈ inner.preorder) :
    nested ∈ Node.preorderAll nodes := by
  cases nodes with
  | nil => cases hinner
  | cons node rest =>
      rcases List.mem_append.1 hinner with hfirst | hlater
      · exact List.mem_append_left _ (Node.mem_preorder_trans hfirst hnested)
      · exact List.mem_append_right _ (Node.mem_preorderAll_trans hlater hnested)

end

mutual

theorem Node.tags_eq_filterMap (node : Node) : node.tags = node.preorder.filterMap Node.tag? := by
  cases node with
  | content value span => rfl
  | block tag children =>
      rw [Node.tags, Node.preorder, List.filterMap_cons_some (f := Node.tag?) (b := tag) rfl,
        Node.tagsOf_eq_filterMap children]

theorem Node.tagsOf_eq_filterMap (nodes : List Node) :
    Node.tagsOf nodes = (Node.preorderAll nodes).filterMap Node.tag? := by
  cases nodes with
  | nil => rfl
  | cons node rest =>
      rw [Node.tagsOf, Node.preorderAll, List.filterMap_append, Node.tags_eq_filterMap node,
        Node.tagsOf_eq_filterMap rest]

end

mutual

theorem Node.visit_of_preorder {node : Node} (hproper : node.Proper) {value : String} {span : Span}
    (hmem : .content value span ∈ node.preorder) : .content value span ∈ node.walk := by
  cases node with
  | content other place =>
      cases List.mem_singleton.1 hmem
      exact List.mem_singleton_self _
  | block tag children =>
      obtain ⟨hempty, hchildren⟩ := hproper
      rcases List.mem_cons.1 hmem with hhere | hinside
      · cases hhere
      · cases hself : tag.selfClosing with
        | true =>
            rw [hempty hself] at hinside
            cases hinside
        | false =>
            rw [Node.walk, if_neg (Bool.eq_false_iff.1 hself)]
            have hvisit := Node.visit_of_preorderAll hchildren hinside
            exact List.mem_cons_of_mem _ (List.mem_append_left _ hvisit)

theorem Node.visit_of_preorderAll {nodes : List Node} (hproper : Node.AllProper nodes)
    {value : String} {span : Span} (hmem : .content value span ∈ Node.preorderAll nodes) :
    .content value span ∈ Node.walkAll nodes := by
  cases nodes with
  | nil => cases hmem
  | cons node rest =>
      rcases List.mem_append.1 hmem with hhere | hlater
      · exact List.mem_append_left _ (Node.visit_of_preorder hproper.1 hhere)
      · exact List.mem_append_right _ (Node.visit_of_preorderAll hproper.2 hlater)

end

def Point.Reached (text : List Char) (point : Point) : Prop :=
  Point.origin.advance (Text.firstBytes point.offset text) = point

def Span.slice (span : Span) (text : List Char) : List Char :=
  Text.slice text span.start.offset span.stop.offset

namespace Node

/-- `left` ends before `right` starts, or where it does. -/
def Before (left right : Node) : Prop :=
  left.span.stop.offset ≤ right.span.start.offset

/-- From one offset to another there are the nodes in their order, and white space outside of
them. -/
def Fill (text : List Char) : Nat → Nat → List Node → Prop
  | first, last, [] => first ≤ last ∧ Text.isBlankText (Text.slice text first last) = true
  | first, last, node :: rest =>
      first ≤ node.span.start.offset ∧
        Text.isBlankText (Text.slice text first node.span.start.offset) = true ∧
        node.span.start.offset < node.span.stop.offset ∧ Fill text node.span.stop.offset last rest

/-- A tag with a body is its opening tag, its children with white space around them, and its closing
tag. -/
def Body (text : List Char) (tag : Tag) (children : List Node) : Prop :=
  ∃ first last : Point, first.Reached text ∧ last.Reached text ∧
    tag.span.start.offset < first.offset ∧ last.offset < tag.span.stop.offset ∧
    (Header.opening tag.name tag.attributes false).WrittenAt tag.span.start
      (Text.slice text tag.span.start.offset first.offset) ∧
    Fill text first.offset last.offset children ∧
    (Header.closing tag.name).WrittenAt last (Text.slice text last.offset tag.span.stop.offset)

/-- What the places of a node say about the text. -/
structure Exact (text : List Char) (node : Node) : Prop where
  positive : node.span.start.offset < node.span.stop.offset
  start : node.span.start.Reached text
  stop : node.span.stop.Reached text
  content : ∀ value span, node = .content value span → value.toList = span.slice text
  tag : ∀ tag children, node = .block tag children →
    ['{', '%'] <+: tag.span.slice text ∧ ['%', '}'] <:+ tag.span.slice text
  leaf : ∀ tag children, node = .block tag children → tag.selfClosing = true →
    children = [] ∧ (Header.opening tag.name tag.attributes true).WrittenAt tag.span.start
      (tag.span.slice text)
  body : ∀ tag children, node = .block tag children → tag.selfClosing = false →
    Body text tag children
  ordered : node.children.Pairwise Before
  inside : ∀ child ∈ node.children, node.span.start.offset < child.span.start.offset ∧
    child.span.stop.offset < node.span.stop.offset

end Node

theorem Point.reached_advance (before after : List Char) :
    (Point.origin.advance before).Reached (before ++ after) := by
  unfold Point.Reached
  rw [Point.offset_origin_advance, Text.firstBytes_byteSize]

theorem Span.slice_covering (before source after : List Char) :
    (Span.covering (Point.origin.advance before) source).slice (before ++ (source ++ after)) =
      source := by
  unfold Span.slice Span.covering
  rw [← Point.advance_append, Point.offset_origin_advance, Point.offset_origin_advance,
    Text.slice_byteSize]

theorem Header.WrittenAt.source {header : Header} {point : Point} {source : List Char}
    (hwritten : header.WrittenAt point source) :
    ∃ front, source = '{' :: '%' :: (front ++ ['%', '}']) := by
  obtain ⟨group, hreads, -⟩ := hwritten
  obtain ⟨front, hsource, -⟩ := hreads.source
  exact ⟨front, hsource⟩

theorem Header.WrittenAt.ne_nil {header : Header} {point : Point} {source : List Char}
    (hwritten : header.WrittenAt point source) : source ≠ [] := by
  obtain ⟨front, rfl⟩ := hwritten.source
  exact List.cons_ne_nil _ _

namespace Node

theorem StandsAt.span_eq {node : Node} {point : Point} {source : List Char}
    (hnode : node.StandsAt point source) : node.span = .covering point source := by
  cases node with
  | content value span => exact hnode.2.2
  | block tag children => exact hnode.1

theorem StandsAt.ne_nil {node : Node} {point : Point} {source : List Char}
    (hnode : node.StandsAt point source) : source ≠ [] := by
  cases node with
  | content value span => exact Text.ne_nil_of_not_blank hnode.2.1
  | block tag children =>
      obtain ⟨-, hbody⟩ := hnode
      split at hbody
      · exact hbody.2.ne_nil
      · obtain ⟨opening, inner, closing, rfl, hopening, -⟩ := hbody
        exact List.append_ne_nil_of_left_ne_nil hopening.ne_nil _

theorem LaidOver.fill {nodes : List Node} {before source : List Char} (after : List Char)
    (hlaid : LaidOver nodes (Point.origin.advance before) source) :
    Fill (before ++ (source ++ after)) (Text.byteSize before) (Text.byteSize (before ++ source))
      nodes := by
  induction nodes generalizing before source with
  | nil =>
      refine ⟨?_, ?_⟩
      · rw [Text.byteSize_append]
        exact Nat.le_add_right _ _
      · rw [Text.slice_byteSize]
        exact hlaid
  | cons node rest induction =>
      obtain ⟨gap, here, behind, rfl, hgap, hnode, hrest⟩ := hlaid
      rw [← Point.advance_append] at hnode hrest
      have hspan := hnode.span_eq
      have hpositive := Text.byteSize_pos hnode.ne_nil
      have hstart : node.span.start.offset = Text.byteSize (before ++ gap) := by
        rw [hspan]
        exact Point.offset_origin_advance _
      have hstop : node.span.stop.offset = Text.byteSize (before ++ (gap ++ here)) := by
        rw [hspan, ← List.append_assoc]
        exact (congrArg Point.offset (Point.advance_append _ _ _)).symm.trans
          (Point.offset_origin_advance _)
      have htext : before ++ ((gap ++ (here ++ behind)) ++ after) =
          before ++ (gap ++ (here ++ (behind ++ after))) := by
        simp only [List.append_assoc]
      have hfill := induction hrest
      refine ⟨?_, ?_, ?_, ?_⟩
      · rw [hstart, Text.byteSize_append]
        exact Nat.le_add_right _ _
      · rw [hstart, htext, Text.slice_byteSize]
        exact hgap
      · rw [hstart, hstop]
        simp only [Text.byteSize_append]
        omega
      · rw [hstop]
        simpa only [List.append_assoc] using hfill

section Fill

variable {text : List Char} {first last : Nat} {nodes : List Node}

theorem Fill.le (hfill : Fill text first last nodes) : first ≤ last := by
  induction nodes generalizing first with
  | nil => exact hfill.1
  | cons node rest induction =>
      obtain ⟨hfirst, -, hpositive, hrest⟩ := hfill
      have hlast := induction hrest
      omega

theorem Fill.bounds (hfill : Fill text first last nodes) {node : Node} (hmem : node ∈ nodes) :
    first ≤ node.span.start.offset ∧ node.span.stop.offset ≤ last := by
  induction nodes generalizing first with
  | nil => cases hmem
  | cons head rest induction =>
      obtain ⟨hfirst, -, hpositive, hrest⟩ := hfill
      rcases List.mem_cons.1 hmem with rfl | hlater
      · exact ⟨hfirst, hrest.le⟩
      · obtain ⟨hstart, hstop⟩ := induction hrest hlater
        exact ⟨by omega, hstop⟩

theorem Fill.pairwise (hfill : Fill text first last nodes) : nodes.Pairwise Before := by
  induction nodes generalizing first with
  | nil => exact .nil
  | cons node rest induction =>
      obtain ⟨-, -, -, hrest⟩ := hfill
      exact .cons (fun later hmem => (hrest.bounds hmem).1) (induction hrest)

end Fill

theorem body_of_standsAt {tag : Tag} {children : List Node}
    {before opening inner closing : List Char} (after : List Char)
    (hspan : tag.span =
      .covering (Point.origin.advance before) (opening ++ (inner ++ closing)))
    (hopening : (Header.opening tag.name tag.attributes false).WrittenAt
      (Point.origin.advance before) opening)
    (hinner : LaidOver children (Point.origin.advance (before ++ opening)) inner)
    (hclosing : (Header.closing tag.name).WrittenAt
      (Point.origin.advance (before ++ (opening ++ inner))) closing) :
    Body (before ++ ((opening ++ (inner ++ closing)) ++ after)) tag children := by
  have hstart : tag.span.start = Point.origin.advance before := by
    rw [hspan]
    rfl
  have hstop : tag.span.stop.offset =
      Text.byteSize ((before ++ (opening ++ inner)) ++ closing) := by
    rw [hspan, ← Point.offset_origin_advance]
    simp only [Span.covering, Point.advance_append]
  have hfront : before ++ ((opening ++ (inner ++ closing)) ++ after) =
      (before ++ opening) ++ (inner ++ (closing ++ after)) := by
    simp only [List.append_assoc]
  have hback : before ++ ((opening ++ (inner ++ closing)) ++ after) =
      (before ++ (opening ++ inner)) ++ (closing ++ after) := by
    simp only [List.append_assoc]
  refine ⟨Point.origin.advance (before ++ opening),
    Point.origin.advance (before ++ (opening ++ inner)), ?_, ?_, ?_, ?_, ?_, ?_, ?_⟩
  · rw [hfront]
    exact Point.reached_advance _ _
  · rw [hback]
    exact Point.reached_advance _ _
  · have hpositive := Text.byteSize_pos hopening.ne_nil
    rw [hstart, Point.offset_origin_advance, Point.offset_origin_advance, Text.byteSize_append]
    omega
  · have hpositive := Text.byteSize_pos hclosing.ne_nil
    rw [hstop, Point.offset_origin_advance, Text.byteSize_append _ closing]
    omega
  · rw [hstart, Point.offset_origin_advance, Point.offset_origin_advance, List.append_assoc,
      Text.slice_byteSize]
    exact hopening
  · rw [hfront, Point.offset_origin_advance, Point.offset_origin_advance,
      ← List.append_assoc before opening inner]
    exact hinner.fill _
  · rw [hback, hstop, Point.offset_origin_advance, Text.slice_byteSize]
    exact hclosing

theorem StandsAt.bounds {node : Node} {before source : List Char}
    (hnode : node.StandsAt (Point.origin.advance before) source) :
    node.span.start = Point.origin.advance before ∧
      node.span.stop = Point.origin.advance (before ++ source) := by
  rw [hnode.span_eq, Point.advance_append]
  exact ⟨rfl, rfl⟩

theorem StandsAt.positive {node : Node} {before source : List Char}
    (hnode : node.StandsAt (Point.origin.advance before) source) :
    node.span.start.offset < node.span.stop.offset := by
  obtain ⟨hstart, hstop⟩ := hnode.bounds
  have hsource := Text.byteSize_pos hnode.ne_nil
  rw [hstart, hstop, Point.offset_origin_advance, Point.offset_origin_advance,
    Text.byteSize_append]
  omega

section Exact

variable {before source : List Char} (after : List Char)

theorem StandsAt.reached {node : Node}
    (hnode : node.StandsAt (Point.origin.advance before) source) :
    node.span.start.Reached (before ++ (source ++ after)) ∧
      node.span.stop.Reached (before ++ (source ++ after)) := by
  obtain ⟨hstart, hstop⟩ := hnode.bounds
  constructor
  · rw [hstart]
    exact Point.reached_advance _ _
  · rw [hstop, ← List.append_assoc]
    exact Point.reached_advance _ _

theorem StandsAt.slice_eq {node : Node}
    (hnode : node.StandsAt (Point.origin.advance before) source) :
    node.span.slice (before ++ (source ++ after)) = source := by
  rw [hnode.span_eq]
  exact Span.slice_covering before source after

theorem exact_content {value : String} {span : Span}
    (hnode : (content value span).StandsAt (Point.origin.advance before) source) :
    (content value span).Exact (before ++ (source ++ after)) := by
  obtain ⟨hstart, hstop⟩ := hnode.reached after
  refine ⟨hnode.positive, hstart, hstop, ?_, ?_, ?_, ?_, .nil, ?_⟩
  · intro _ _ heq
    cases heq
    exact hnode.1.trans (hnode.slice_eq after).symm
  · intro _ _ heq
    cases heq
  · intro _ _ heq
    cases heq
  · intro _ _ heq
    cases heq
  · intro child hmem
    cases hmem

theorem exact_leaf {tag : Tag} {children : List Node} (hself : tag.selfClosing = true)
    (hnode : (block tag children).StandsAt (Point.origin.advance before) source) :
    (block tag children).Exact (before ++ (source ++ after)) := by
  have hslice : tag.span.slice (before ++ (source ++ after)) = source := hnode.slice_eq after
  have hplace : tag.span.start = Point.origin.advance before := hnode.bounds.1
  obtain ⟨hstart, hstop⟩ := hnode.reached after
  have hpositive := hnode.positive
  obtain ⟨-, hinside⟩ := hnode
  rw [if_pos hself] at hinside
  obtain ⟨rfl, hwritten⟩ := hinside
  obtain ⟨front, hfront⟩ := hwritten.source
  refine ⟨hpositive, hstart, hstop, ?_, ?_, ?_, ?_, .nil, ?_⟩
  · intro _ _ heq
    cases heq
  · intro _ _ heq
    cases heq
    rw [hslice, hfront]
    exact ⟨⟨front ++ ['%', '}'], rfl⟩, ⟨'{' :: '%' :: front, rfl⟩⟩
  · intro _ _ heq _
    cases heq
    rw [hslice, hplace]
    exact ⟨rfl, hwritten⟩
  · intro _ _ heq hopen
    cases heq
    rw [hself] at hopen
    cases hopen
  · intro child hmem
    cases hmem

theorem exact_body {tag : Tag} {children : List Node} (hself : tag.selfClosing = false)
    (hnode : (block tag children).StandsAt (Point.origin.advance before) source) :
    (block tag children).Exact (before ++ (source ++ after)) := by
  have hslice : tag.span.slice (before ++ (source ++ after)) = source := hnode.slice_eq after
  obtain ⟨hstart, hstop⟩ := hnode.reached after
  have hpositive := hnode.positive
  obtain ⟨hspan, hinside⟩ := hnode
  rw [if_neg (Bool.eq_false_iff.1 hself)] at hinside
  obtain ⟨opening, inner, closing, rfl, hopening, hinner, hclosing⟩ := hinside
  rw [← Point.advance_append] at hinner hclosing
  have hbody := body_of_standsAt after hspan hopening hinner hclosing
  obtain ⟨front, hfront⟩ := hopening.source
  obtain ⟨back, hback⟩ := hclosing.source
  refine ⟨hpositive, hstart, hstop, ?_, ?_, ?_, ?_, ?_, ?_⟩
  · intro _ _ heq
    cases heq
  · intro _ _ heq
    cases heq
    rw [hslice]
    refine ⟨⟨front ++ ['%', '}'] ++ (inner ++ closing), ?_⟩,
      ⟨opening ++ (inner ++ '{' :: '%' :: back), ?_⟩⟩
    · rw [hfront]
      simp
    · rw [hback]
      simp
  · intro _ _ heq hclosed
    cases heq
    rw [hself] at hclosed
    cases hclosed
  · intro _ _ heq _
    cases heq
    exact hbody
  · obtain ⟨_, _, -, -, -, -, -, hfill, -⟩ := hbody
    exact hfill.pairwise
  · intro child hmem
    obtain ⟨first, last, -, -, hfirst, hlast, -, hfill, -⟩ := hbody
    obtain ⟨hafter, hbefore⟩ := hfill.bounds hmem
    exact ⟨Nat.lt_of_lt_of_le hfirst hafter, Nat.lt_of_le_of_lt hbefore hlast⟩

theorem StandsAt.exact {node : Node}
    (hnode : node.StandsAt (Point.origin.advance before) source) :
    node.Exact (before ++ (source ++ after)) := by
  cases node with
  | content value span => exact exact_content after hnode
  | block tag children =>
      cases hself : tag.selfClosing with
      | true => exact exact_leaf after hself hnode
      | false => exact exact_body after hself hnode

end Exact

end Node

/-! Every node of a tree over a text stands over its part of it. -/

mutual

theorem Node.exists_standsAt {node : Node} {point : Point} {source : List Char}
    (hnode : node.StandsAt point source) {nested : Node} (hmem : nested ∈ node.preorder) :
    ∃ front inner back, source = front ++ (inner ++ back) ∧
      nested.StandsAt (point.advance front) inner := by
  cases node with
  | content value span =>
      obtain rfl := List.mem_singleton.1 hmem
      exact ⟨[], source, [], (List.append_nil _).symm, hnode⟩
  | block tag children =>
      rcases List.mem_cons.1 hmem with rfl | hinside
      · exact ⟨[], source, [], (List.append_nil _).symm, hnode⟩
      · obtain ⟨-, hbody⟩ := hnode
        split at hbody
        · obtain ⟨rfl, -⟩ := hbody
          cases hinside
        · obtain ⟨opening, inner, closing, rfl, -, hinner, -⟩ := hbody
          obtain ⟨front, here, back, rfl, hnested⟩ := Node.exists_standsAt_of_laidOver hinner hinside
          rw [← Point.advance_append] at hnested
          exact ⟨opening ++ front, here, back ++ closing, by simp, hnested⟩

theorem Node.exists_standsAt_of_laidOver {nodes : List Node} {point : Point} {source : List Char}
    (hlaid : Node.LaidOver nodes point source) {nested : Node}
    (hmem : nested ∈ Node.preorderAll nodes) :
    ∃ front inner back, source = front ++ (inner ++ back) ∧
      nested.StandsAt (point.advance front) inner := by
  cases nodes with
  | nil => cases hmem
  | cons node rest =>
      obtain ⟨gap, here, behind, rfl, -, hnode, hrest⟩ := hlaid
      rcases List.mem_append.1 hmem with hfirst | hlater
      · obtain ⟨front, inner, back, rfl, hnested⟩ := Node.exists_standsAt hnode hfirst
        rw [← Point.advance_append] at hnested
        exact ⟨gap ++ front, inner, back ++ behind, by simp, hnested⟩
      · obtain ⟨front, inner, back, rfl, hnested⟩ := Node.exists_standsAt_of_laidOver hrest hlater
        rw [← Point.advance_append] at hnested
        exact ⟨gap ++ here ++ front, inner, back, by simp, hnested⟩

end

theorem Node.exact_of_laidOver {nodes : List Node} {before source : List Char} (after : List Char)
    (hlaid : Node.LaidOver nodes (Point.origin.advance before) source) {nested : Node}
    (hmem : nested ∈ Node.preorderAll nodes) : nested.Exact (before ++ (source ++ after)) := by
  obtain ⟨front, inner, back, rfl, hnested⟩ := Node.exists_standsAt_of_laidOver hlaid hmem
  rw [← Point.advance_append] at hnested
  have hexact := hnested.exact (back ++ after)
  simpa only [List.append_assoc] using hexact

mutual

theorem Node.inside_of_exact {text : List Char} {node : Node}
    (hexact : ∀ nested ∈ node.preorder, nested.Exact text) :
    (∀ nested ∈ node.preorder, node.span.start.offset ≤ nested.span.start.offset ∧
        nested.span.stop.offset ≤ node.span.stop.offset) ∧
      node.preorder.Pairwise fun left right =>
        left.span.start.offset < right.span.start.offset := by
  cases node with
  | content value span =>
      refine ⟨?_, List.pairwise_singleton _ _⟩
      intro nested hmem
      obtain rfl := List.mem_singleton.1 hmem
      exact ⟨Nat.le_refl _, Nat.le_refl _⟩
  | block tag children =>
      obtain ⟨hnode, hinner⟩ := List.forall_mem_cons.1 hexact
      obtain ⟨hbounds, hsorted⟩ := Node.sorted_of_exact hnode.ordered hinner
      have hstrict : ∀ nested ∈ Node.preorderAll children,
          tag.span.start.offset < nested.span.start.offset ∧
            nested.span.stop.offset < tag.span.stop.offset := by
        intro nested hmem
        obtain ⟨child, hchild, hafter, hbefore⟩ := hbounds nested hmem
        obtain ⟨hstart, hstop⟩ := hnode.inside child hchild
        exact ⟨Nat.lt_of_lt_of_le hstart hafter, Nat.lt_of_le_of_lt hbefore hstop⟩
      refine ⟨?_, .cons (fun nested hmem => (hstrict nested hmem).1) hsorted⟩
      intro nested hmem
      rcases List.mem_cons.1 hmem with rfl | hinside
      · exact ⟨Nat.le_refl _, Nat.le_refl _⟩
      · obtain ⟨hstart, hstop⟩ := hstrict nested hinside
        exact ⟨Nat.le_of_lt hstart, Nat.le_of_lt hstop⟩

theorem Node.sorted_of_exact {text : List Char} {nodes : List Node}
    (hordered : nodes.Pairwise Node.Before)
    (hexact : ∀ nested ∈ Node.preorderAll nodes, nested.Exact text) :
    (∀ nested ∈ Node.preorderAll nodes, ∃ node ∈ nodes,
        node.span.start.offset ≤ nested.span.start.offset ∧
          nested.span.stop.offset ≤ node.span.stop.offset) ∧
      (Node.preorderAll nodes).Pairwise fun left right =>
        left.span.start.offset < right.span.start.offset := by
  cases nodes with
  | nil =>
      refine ⟨?_, .nil⟩
      intro nested hmem
      cases hmem
  | cons node rest =>
      obtain ⟨hbefore, hlater⟩ := List.pairwise_cons.1 hordered
      obtain ⟨hhere, hthere⟩ := List.forall_mem_append.1 hexact
      obtain ⟨hinside, hsorted⟩ := Node.inside_of_exact hhere
      obtain ⟨hbounds, hrest⟩ := Node.sorted_of_exact hlater hthere
      refine ⟨?_, List.pairwise_append.2 ⟨hsorted, hrest, ?_⟩⟩
      · intro nested hmem
        rcases List.mem_append.1 hmem with hfirst | hsecond
        · exact ⟨node, List.mem_cons_self, hinside nested hfirst⟩
        · obtain ⟨other, hother, hplace⟩ := hbounds nested hsecond
          exact ⟨other, List.mem_cons_of_mem _ hother, hplace⟩
      · intro left hleft right hright
        obtain ⟨-, hstop⟩ := hinside left hleft
        obtain ⟨other, hother, hstart, -⟩ := hbounds right hright
        have hpositive := (hhere left hleft).positive
        have hgap : node.span.stop.offset ≤ other.span.start.offset := hbefore other hother
        omega

end

theorem Document.laidOver_of_parse {text : String} {document : Document}
    (hparse : parse text = .ok document) :
    ∃ block lines, Text.splitLines text.toList = block ++ lines ∧
      Heads document.frontmatter block ∧
      Node.LaidOver document.children (Point.origin.advance block.flatten) lines.flatten := by
  obtain ⟨body, hcut, hproper, hwalk⟩ := walk_of_parse hparse
  obtain ⟨block, lines, hsplit, hheads, hreads⟩ := reads_of_cut hcut
  refine ⟨block, lines, hsplit, hheads, ?_⟩
  rw [← Mark.map_movedVisit?_id] at hwalk
  have hlaid := Mark.laidOver_of_items (hreads.laidOver false).join
  rw [← List.append_nil (List.filterMap _ _)] at hlaid
  obtain ⟨front, after, hfront, hnodes, hafter⟩ := Node.laidOver_of_walk hproper hwalk hlaid
  cases hafter with
  | nil hblank =>
      rw [hfront]
      exact hnodes.trail hblank

/-- In a document every place is the one that its text has at this offset, tags and content are
their text, the nodes of a tag lie inside it in their order, and only white space lies outside of
the nodes and of the opening and closing tags around them. -/
theorem Document.parse_places {text : String} {document : Document}
    (hparse : parse text = .ok document) :
    (∀ node ∈ Node.preorderAll document.children, node.Exact text.toList) ∧
    document.children.Pairwise Node.Before ∧
    (∃ block lines, Text.splitLines text.toList = block ++ lines ∧
      Heads document.frontmatter block ∧
      Node.Fill text.toList (Text.byteSize block.flatten) (Text.byteSize text.toList)
        document.children) ∧
    document.tags = (Node.preorderAll document.children).filterMap Node.tag? ∧
    document.tags.Pairwise fun left right =>
      left.span.start.offset < right.span.start.offset := by
  obtain ⟨block, lines, hsplit, hheads, hlaid⟩ := laidOver_of_parse hparse
  have htext : text.toList = block.flatten ++ (lines.flatten ++ []) := by
    rw [List.append_nil, ← List.flatten_append, ← hsplit, Text.flatten_splitLines]
  have hexact : ∀ node ∈ Node.preorderAll document.children, node.Exact text.toList := by
    intro node hmem
    rw [htext]
    exact Node.exact_of_laidOver [] hlaid hmem
  have hfill : Node.Fill text.toList (Text.byteSize block.flatten) (Text.byteSize text.toList)
      document.children := by
    have hbody := hlaid.fill []
    rw [← htext] at hbody
    rw [List.append_nil] at htext
    rwa [← htext] at hbody
  have htags : document.tags = (Node.preorderAll document.children).filterMap Node.tag? :=
    Node.tagsOf_eq_filterMap _
  refine ⟨hexact, hfill.pairwise, ⟨block, lines, hsplit, hheads, hfill⟩, htags, ?_⟩
  obtain ⟨-, hsorted⟩ := Node.sorted_of_exact hfill.pairwise hexact
  rw [htags]
  apply hsorted.filterMap _
  intro left right hless tag htag other hother
  cases left with
  | content value span => cases htag
  | block leftTag _ =>
      cases right with
      | content value span => cases hother
      | block rightTag _ =>
          cases htag
          cases hother
          exact hless

theorem Document.parse_places_nested :
    let text := "---\r\nt: é\r\n---\n \x7b% a %\x7d é \x7b% b /%\x7d\r\nx\r\n\x7b% /a %\x7d\n"
    ∃ document, parse text = .ok document ∧ document.tags.length = 2 ∧
      ∀ node ∈ Node.preorderAll document.children, node.Exact text.toList := by
  intro text
  have hlength : (parse text).toOption.map (fun document => document.tags.length) = some 2 := by
    decide +kernel
  cases hparse : parse text with
  | error fault =>
      rw [hparse] at hlength
      cases hlength
  | ok document =>
      rw [hparse] at hlength
      exact ⟨document, rfl, Option.some.inj hlength, (parse_places hparse).1⟩

end Tagmark
