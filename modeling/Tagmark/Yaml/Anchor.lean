import Tagmark.Yaml.Node

/-!
Anchors of YAML nodes. An anchor gets as its number the count of the names before it, which is free
unless a name was used again; aliases then refer to numbers, and the last node of a number is meant.
-/

namespace Tagmark.Yaml.Node

abbrev Numbering := List (Name × Nat)

def Numbering.add (numbering : Numbering) (name : Name) : Numbering :=
  (name, numbering.length) :: numbering.filter fun entry => entry.1 != name

def numberMarks (marks : Marks Name) : StateT Numbering Option (Marks Nat) := do
  match marks.anchor with
  | none => return { tag := marks.tag }
  | some name => do
      let numbering ← get
      set (numbering.add name)
      return ⟨some numbering.length, marks.tag⟩

mutual

def number : Node Name → StateT Numbering Option (Node Nat)
  | .alias name => do
      let numbering ← get
      return .alias (← (numbering.lookup name : Option Nat))
  | .scalar marks text plain => do
      return .scalar (← numberMarks marks) text plain
  | .sequence marks items => do
      let marks ← numberMarks marks
      return .sequence marks (← numberItems items)
  | .mapping marks entries => do
      let marks ← numberMarks marks
      return .mapping marks (← numberEntries entries)

def numberItems : List (Node Name) → StateT Numbering Option (List (Node Nat))
  | [] => return []
  | item :: rest => do
      let item ← number item
      return item :: (← numberItems rest)

def numberEntries : List (Node Name × Node Name) → StateT Numbering Option (List (Node Nat × Node Nat))
  | [] => return []
  | (key, value) :: rest => do
      let key ← number key
      let value ← number value
      return (key, value) :: (← numberEntries rest)

end

def number? (node : Node Name) : Option (Node Nat) :=
  ((number node).run []).map (·.1)

mutual

def descendants {α : Type} : Node α → List (Node α)
  | .alias anchor => [.alias anchor]
  | .scalar marks text plain => [.scalar marks text plain]
  | .sequence marks items => .sequence marks items :: itemDescendants items
  | .mapping marks entries => .mapping marks entries :: entryDescendants entries

def itemDescendants {α : Type} : List (Node α) → List (Node α)
  | [] => []
  | item :: rest => descendants item ++ itemDescendants rest

def entryDescendants {α : Type} : List (Node α × Node α) → List (Node α)
  | [] => []
  | (key, value) :: rest => descendants key ++ descendants value ++ entryDescendants rest

end

def anchor? {α : Type} : Node α → Option α
  | .alias _ => none
  | .scalar marks _ _ | .sequence marks _ | .mapping marks _ => marks.anchor

def size {α : Type} (node : Node α) : Nat :=
  (node.descendants.map fun
    | .sequence _ _ | .mapping _ _ => 2
    | _ => 1).foldr (· + ·) 0

def anchored (node : Node Nat) : List (Nat × Node Nat) :=
  (node.descendants.filterMap fun found => found.anchor?.map fun anchor => (anchor, found)).reverse

end Tagmark.Yaml.Node
