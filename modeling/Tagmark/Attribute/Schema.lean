import Tagmark.Fault
import Tagmark.KeyMap

/-!
Schemas, the attributes that a tag understands. Binding declared attributes to a schema checks their
types, fills in defaults, and keeps what the schema does not mention as extras.
-/

namespace Tagmark

structure AttributeSpec where
  type : ValueType
  required : Bool := false
  default : Option Value := none
deriving DecidableEq, Inhabited, Repr

abbrev Schema := KeyMap AttributeSpec

/-- Attributes bound to a schema. -/
structure Bound where
  tag : String
  values : KeyMap Value
  extra : KeyMap Value
deriving DecidableEq

namespace Schema

def bind (tag name : String) (spec : AttributeSpec) (declared : Option Value) :
    Except Fault (Option Value) :=
  match declared with
  | some value =>
      if value.type = spec.type then .ok (some value)
      else .error (.wrongType tag name spec.type value.type)
  | none =>
      match spec.default with
      | some value => .ok (some value)
      | none => if spec.required then .error (.missingAttribute tag name) else .ok none

def bindAll (tag : String) (declared : KeyMap Value) :
    List (String × AttributeSpec) → Except Fault (List (String × Value))
  | [] => .ok []
  | (name, spec) :: rest => do
      let value ← bind tag name spec (declared.get? name)
      let values ← bindAll tag declared rest
      return match value with
        | some value => (name, value) :: values
        | none => values

def resolve (schema : Schema) (tag : String) (declared : KeyMap Value) : Except Fault Bound := do
  let values ← bindAll tag declared schema.entries
  return ⟨tag, .ofList values, declared.filter fun name _ => !schema.contains name⟩

end Schema

namespace Bound

def requireText (bound : Bound) (name : String) : Except Fault String :=
  match bound.values.get? name with
  | some (.string text) => .ok text
  | some value => .error (.wrongType bound.tag name .string value.type)
  | none => .error (.missingAttribute bound.tag name)

def printedExtra (bound : Bound) : KeyMap String :=
  bound.extra.map Value.print

def printed (bound : Bound) : KeyMap String :=
  (bound.values.map Value.print).insertAll bound.printedExtra.entries

end Bound

end Tagmark
