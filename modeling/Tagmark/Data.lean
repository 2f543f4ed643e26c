import Tagmark.KeyMap
import Tagmark.Number.Print

/-!
Data: what a document says about itself, and what is reported about documents. The entries of a
mapping have an order.
-/

namespace Tagmark

inductive Data where
  | null
  | boolean (truth : Bool)
  | integer (value : Int)
  | float (value : Number)
  | text (value : String)
  | list (items : List Data)
  | mapping (entries : List (String × Data))
deriving Inhabited

namespace Data

def describe : Data → String
  | .null => "null"
  | .boolean _ => "a boolean"
  | .integer _ | .float _ => "a number"
  | .text _ => "a string"
  | .list _ => "a sequence"
  | .mapping _ => "a mapping"

def text? : Data → Option String
  | .text value => some value
  | _ => none

def ofFloat (x : Number) : Data :=
  if x.isFinite then .float x else .null

end Data

end Tagmark
