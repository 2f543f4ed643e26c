import Tagmark.Tag.Escape
import Tagmark.Tag.Token

/-! What can be wrong with the text of a tag. -/

namespace Tagmark

inductive TagFlaw where
  | strayText (text : String)
  | badEscape (flaw : Escape.Flaw)
  | nestedOpening
  | expectedName (found : Option Token)
  | closingWithMore (found : Token)
  | expectedEquals (key : String)
  | missingValue (key : String)
  | expectedValue (found : Token)
  | expectedAttribute (found : Token)
  | unfinished
deriving DecidableEq, Inhabited, Repr

def TagFlaw.message : TagFlaw → String
  | .strayText text => "unexpected character `" ++ text ++ "`"
  | .badEscape flaw => "invalid string escape: " ++ flaw.message
  | .nestedOpening => "unexpected `\x7b%` inside a tag"
  | .expectedName (some found) => "expected a tag name, found " ++ found.describe
  | .expectedName none => "expected a tag name"
  | .closingWithMore found => "closing tags take no attributes, found " ++ found.describe
  | .expectedEquals key => "expected `=` after attribute `" ++ key ++ "`"
  | .missingValue key => "expected a value for attribute `" ++ key ++ "`"
  | .expectedValue found => "expected an attribute value, found " ++ found.describe
  | .expectedAttribute found => "expected an attribute, found " ++ found.describe
  | .unfinished => "expected `%\x7d`"

end Tagmark
