import Tagmark.Number.Print

/-! Attribute values and their types. -/

namespace Tagmark

inductive ValueType where
  | string
  | number
  | boolean
deriving DecidableEq, Inhabited, Repr

def ValueType.name : ValueType → String
  | .string => "string"
  | .number => "number"
  | .boolean => "boolean"

inductive Value where
  | string (text : String)
  | number (number : Number)
  | boolean (truth : Bool)
deriving DecidableEq, Inhabited, Repr

namespace Value

def type : Value → ValueType
  | .string _ => .string
  | .number _ => .number
  | .boolean _ => .boolean

def print : Value → String
  | .string text => text
  | .number x => x.print
  | .boolean true => "true"
  | .boolean false => "false"

def text? : Value → Option String
  | .string text => some text
  | _ => none

/-- Numbers are the same when they are equal, differ by at most `2 ^ -52`, or lie at most four
places apart in the order of patterns. -/
def same : Value → Value → Bool
  | .number left, .number right =>
      left.sameValue right || left.withinEpsilon right || left.withinSteps 4 right
  | left, right => left == right

end Value

end Tagmark
