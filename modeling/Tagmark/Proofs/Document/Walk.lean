import Tagmark.Document.Basic

/-!
Depth-first walks of trees, and trees with their places moved. A walk commutes with moving the
places (`Node.walkAll_relocateAll`).
-/

namespace Tagmark

/-- What a depth-first walk of a tree meets. -/
inductive Visit where
  | content (value : String) (span : Span)
  | leaf (tag : Tag)
  | opening (name : String) (attributes : KeyMap Value) (start : Point)
  | closing (name : String) (stop : Point)

mutual

def Node.walk : Node → List Visit
  | .content value span => [.content value span]
  | .block tag children =>
      if tag.selfClosing then [.leaf tag]
      else
        .opening tag.name tag.attributes tag.span.start ::
          (Node.walkAll children ++ [.closing tag.name tag.span.stop])

def Node.walkAll : List Node → List Visit
  | [] => []
  | node :: rest => node.walk ++ Node.walkAll rest

end

mutual

def Node.Proper : Node → Prop
  | .content _ _ => True
  | .block tag children => (tag.selfClosing = true → children = []) ∧ Node.AllProper children

def Node.AllProper : List Node → Prop
  | [] => True
  | node :: rest => node.Proper ∧ Node.AllProper rest

end

namespace Node

theorem walkAll_append (left right : List Node) :
    walkAll (left ++ right) = walkAll left ++ walkAll right := by
  induction left with
  | nil => rfl
  | cons node rest induction =>
      simp only [List.cons_append, walkAll, induction, List.append_assoc]

theorem walkAll_concat (nodes : List Node) (node : Node) :
    walkAll (nodes ++ [node]) = walkAll nodes ++ node.walk := by
  rw [walkAll_append]
  simp only [walkAll, List.append_nil]

theorem proper_content {value : String} {span : Span} : (content value span).Proper := trivial

theorem proper_block {tag : Tag} {children : List Node} :
    (block tag children).Proper ↔
      (tag.selfClosing = true → children = []) ∧ AllProper children := Iff.rfl

theorem allProper_nil : AllProper [] := trivial

theorem allProper_cons {node : Node} {rest : List Node} :
    AllProper (node :: rest) ↔ node.Proper ∧ AllProper rest := Iff.rfl

theorem allProper_append {left right : List Node} :
    AllProper (left ++ right) ↔ AllProper left ∧ AllProper right := by
  induction left with
  | nil => simp [allProper_nil]
  | cons node rest induction => simp only [List.cons_append, allProper_cons, induction, and_assoc]

theorem allProper_reverse {nodes : List Node} : AllProper nodes.reverse ↔ AllProper nodes := by
  induction nodes with
  | nil => rfl
  | cons node rest induction =>
      rw [List.reverse_cons, allProper_append, induction]
      simp [allProper_cons, allProper_nil, and_comm]

end Node

def Span.relocate (move : Point → Point) (span : Span) : Span :=
  ⟨move span.start, move span.stop⟩

def Tag.relocate (move : Point → Point) (tag : Tag) : Tag :=
  { tag with span := tag.span.relocate move }

def Visit.relocate (move : Point → Point) : Visit → Visit
  | .content value span => .content value (span.relocate move)
  | .leaf tag => .leaf (tag.relocate move)
  | .opening name attributes start => .opening name attributes (move start)
  | .closing name stop => .closing name (move stop)

mutual

def Node.relocate (move : Point → Point) : Node → Node
  | .content value span => .content value (span.relocate move)
  | .block tag children => .block (tag.relocate move) (Node.relocateAll move children)

def Node.relocateAll (move : Point → Point) : List Node → List Node
  | [] => []
  | node :: rest => node.relocate move :: Node.relocateAll move rest

end

mutual

theorem Node.walk_relocate (move : Point → Point) (node : Node) :
    (node.relocate move).walk = node.walk.map (Visit.relocate move) := by
  cases node with
  | content value span => rfl
  | block tag children =>
      have hchildren := Node.walkAll_relocateAll move children
      cases hself : tag.selfClosing with
      | true =>
          simp [Node.relocate, Node.walk, Tag.relocate, Visit.relocate, hself]
      | false =>
          simp only [Node.relocate, Node.walk, Tag.relocate, hself, hchildren]
          simp [Visit.relocate, Span.relocate]

theorem Node.walkAll_relocateAll (move : Point → Point) (nodes : List Node) :
    Node.walkAll (Node.relocateAll move nodes) =
      (Node.walkAll nodes).map (Visit.relocate move) := by
  cases nodes with
  | nil => rfl
  | cons node rest =>
      simp only [Node.relocateAll, Node.walkAll, List.map_append]
      rw [Node.walk_relocate move node, Node.walkAll_relocateAll move rest]

end

theorem Visit.relocate_id (visit : Visit) : visit.relocate id = visit := by
  cases visit <;> rfl

mutual

theorem Node.relocate_id (node : Node) : node.relocate id = node := by
  cases node with
  | content value span => rfl
  | block tag children =>
      rw [Node.relocate, Node.relocateAll_id children]
      rfl

theorem Node.relocateAll_id (nodes : List Node) : Node.relocateAll id nodes = nodes := by
  cases nodes with
  | nil => rfl
  | cons node rest => rw [Node.relocateAll, Node.relocate_id node, Node.relocateAll_id rest]

end

mutual

theorem Node.proper_relocate (move : Point → Point) (node : Node) :
    (node.relocate move).Proper ↔ node.Proper := by
  cases node with
  | content value span => exact Iff.rfl
  | block tag children =>
      have hchildren := Node.allProper_relocateAll move children
      cases children with
      | nil => exact Iff.rfl
      | cons head tail =>
          simp only [Node.relocate, Node.Proper, Tag.relocate, hchildren]
          simp [Node.relocateAll]

theorem Node.allProper_relocateAll (move : Point → Point) (nodes : List Node) :
    Node.AllProper (Node.relocateAll move nodes) ↔ Node.AllProper nodes := by
  cases nodes with
  | nil => exact Iff.rfl
  | cons node rest =>
      simp only [Node.relocateAll, Node.AllProper]
      rw [Node.proper_relocate move node, Node.allProper_relocateAll move rest]

end

end Tagmark
