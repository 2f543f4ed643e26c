import Tagmark.Data
import Tagmark.Html.Tree

/-!
Trees of HTML as data. A text or an element stands under the name of its kind; an element leaves out
attributes and children that it does not have, which reading fills in again.
-/

namespace Tagmark

namespace Html

def attributesField (attributes : KeyMap String) : List (String × Data) :=
  if attributes.isEmpty then []
  else [("attributes", .mapping (attributes.map Data.text).entries)]

def childrenField (children : List Data) : List (String × Data) :=
  if children.isEmpty then [] else [("children", .list children)]

mutual

def toData : Html → Data
  | .text value => .mapping [("text", .text value)]
  | .element name attributes children =>
      .mapping [("element", .mapping
        (("name", .text name) :: attributesField attributes ++ childrenField (allToData children)))]

def allToData : List Html → List Data
  | [] => []
  | node :: rest => node.toData :: allToData rest

end

theorem sizeOf_lt_of_lookup {name : String} {value : Data} {fields : List (String × Data)}
    (hlookup : fields.lookup name = some value) : sizeOf value < sizeOf fields := by
  induction fields with
  | nil => simp at hlookup
  | cons head tail induction =>
      obtain ⟨other, first⟩ := head
      by_cases hname : name = other
      · subst hname
        simp at hlookup
        subst hlookup
        simp
        omega
      · simp only [List.lookup_cons, beq_false_of_ne hname] at hlookup
        have := induction hlookup
        simp
        omega

def attributesOf? (fields : List (String × Data)) : Option (KeyMap String) :=
  match fields.lookup "attributes" with
  | none => some ∅
  | some (.mapping entries) =>
      (entries.mapM fun (entry : String × Data) => entry.2.text?.map fun text => (entry.1, text)).map KeyMap.ofList
  | some _ => none

mutual

def ofData? (data : Data) : Option Html :=
  match data with
  | .mapping [("text", .text value)] => some (.text value)
  | .mapping [("element", .mapping fields)] => do
      let name ← (fields.lookup "name").bind Data.text?
      let attributes ← attributesOf? fields
      let children ← match _hchildren : fields.lookup "children" with
        | none => some []
        | some (.list items) => allOfData? items
        | some _ => none
      some (.element name attributes children)
  | _ => none
termination_by sizeOf data
decreasing_by
  have := sizeOf_lt_of_lookup _hchildren
  simp at this ⊢
  omega

def allOfData? (items : List Data) : Option (List Html) :=
  match items with
  | [] => some []
  | item :: rest => do
      let node ← ofData? item
      let nodes ← allOfData? rest
      some (node :: nodes)
termination_by sizeOf items

end

end Html

end Tagmark
