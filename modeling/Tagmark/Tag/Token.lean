import Tagmark.Point
import Tagmark.Number.Print

/-!
The tokens of a tag. Two number tokens are the same when their patterns lie at most two places
apart, all other tokens when they are equal.
-/

namespace Tagmark

inductive Quote where
  | single
  | double
deriving DecidableEq, Inhabited, Repr

def Quote.mark : Quote → Char
  | .single => '\''
  | .double => '"'

inductive Token where
  | newline
  | opening
  | closing
  | selfClosing
  | slash
  | equals
  | blank (c : Char)
  /-- A quoted text, without its quotes and with its escapes resolved. -/
  | text (value : String) (quote : Quote)
  | name (word : String)
  | number (value : Number)
deriving DecidableEq, Inhabited, Repr

namespace Token

def isTrivia : Token → Bool
  | .blank _ | .newline => true
  | _ => false

def same : Token → Token → Bool
  | .number left, .number right => left.sameValue right || left.withinSteps 2 right
  | left, right => left == right

def print : Token → String
  | .newline => "\n"
  | .opening => "\x7b%"
  | .closing => "%\x7d"
  | .selfClosing => "/%\x7d"
  | .slash => "/"
  | .equals => "="
  | .blank c => String.singleton c
  | .text value quote => String.singleton quote.mark ++ value ++ String.singleton quote.mark
  | .name word => word
  | .number value => value.print

def describe : Token → String
  | .newline => "a newline"
  | .blank _ => "whitespace"
  | .text _ _ => "a string"
  | .number _ => "a number"
  | token => "`" ++ token.print ++ "`"

end Token

structure PlacedToken where
  token : Token
  start : Point
deriving DecidableEq, Inhabited, Repr

/-- The tokens of one tag in source order, white space included, and the stretch they cover. -/
structure TokenGroup where
  tokens : List PlacedToken
  span : Span
deriving DecidableEq, Inhabited, Repr

def TokenGroup.significant (group : TokenGroup) : List PlacedToken :=
  group.tokens.filter fun placed => !placed.token.isTrivia

end Tagmark
