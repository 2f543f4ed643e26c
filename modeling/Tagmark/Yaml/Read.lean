import Tagmark.Yaml.Anchor
import Tagmark.Yaml.Plain

/-!
Reading YAML. Keys of mappings are texts as they are written, the last entry of a key counts, and
nothing has a tag of its own. What aliases make of a short text is bounded: data is nested at most
128 deep, and aliases are followed at most a hundred times for each place of the text.
-/

namespace Tagmark.Yaml

structure Anchors where
  nodes : List (Nat × Node Nat)
  limit : Nat
deriving Inhabited

abbrev Reading := StateT Nat Option

/-- The node itself, or the node that an alias refers to. -/
def Anchors.follow (anchors : Anchors) : Node Nat → Reading (Node Nat)
  | .alias anchor => do
      let followed ← get
      if anchors.limit ≤ followed then failure
      else
        set (followed + 1)
        match anchors.nodes.lookup anchor with
        | some node => return node
        | none => failure
  | node => return node

namespace Node

def isLocal (marks : Marks Nat) : Bool :=
  marks.tag.any fun tag => tag.head? == some '!'

def scalarData? (marks : Marks Nat) (text : List Char) (plain : Bool) : Option Data :=
  match marks.tag with
  | some tag => if isLocal marks then none else Plain.tagged? (String.ofList tag) text
  | none => if plain then Plain.data? text else some (.text (String.ofList text))

def keyText (anchors : Anchors) (key : Node Nat) : Reading String := do
  match ← anchors.follow key with
  | .scalar _ text _ => return String.ofList text
  | _ => failure

def toData (anchors : Anchors) : Nat → Node Nat → Reading Data
  | 0, node => do
      match ← anchors.follow node with
      | .scalar marks text plain => scalarData? marks text plain
      | _ => failure
  | depth + 1, node => do
      match ← anchors.follow node with
      | .scalar marks text plain => scalarData? marks text plain
      | .sequence marks items =>
          if isLocal marks then failure
          else return .list (← items.mapM (toData anchors depth))
      | .mapping marks entries =>
          if isLocal marks then failure
          else
            let read ← entries.mapM fun (key, value) => do
              let name ← keyText anchors key
              return (name, ← toData anchors depth value)
            return .mapping (KeyMap.ofList read).entries
      | .alias _ => failure

end Node

def read? (text : String) : Option Data := do
  match ← Node.ofTokens? (← tokens? text.toList) with
  | none => some .null
  | some written =>
      let node ← written.number?
      let anchors : Anchors := ⟨node.anchored, 100 * node.size⟩
      ((Node.toData anchors 128 node).run 0).map (·.1)

end Tagmark.Yaml
