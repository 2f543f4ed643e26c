import Tagmark.Fault
import Tagmark.KeyMap

/-!
What a tag says: it opens a block with a name and attributes, stands by itself, or closes the block
of a name.
-/

namespace Tagmark

inductive Header where
  | opening (name : String) (attributes : KeyMap Value) (selfClosing : Bool)
  | closing (name : String)
deriving DecidableEq

namespace Header

def value (placed : PlacedToken) : Except Fault Value :=
  match placed.token with
  | .text value _ => .ok (.string value)
  | .number value => .ok (.number value)
  | .name "true" => .ok (.boolean true)
  | .name "false" => .ok (.boolean false)
  | token => .error (.invalidTag (.expectedValue token) placed.start)

def ofClosing (stop : Point) : List PlacedToken → Except Fault Header
  | [] => .error (.invalidTag (.expectedName none) stop)
  | ⟨.name word, _⟩ :: rest =>
      match rest with
      | [] => .error (.invalidTag .unfinished stop)
      | ⟨.closing, _⟩ :: _ => .ok (.closing word)
      | found :: _ => .error (.invalidTag (.closingWithMore found.token) found.start)
  | found :: _ => .error (.invalidTag (.expectedName (some found.token)) found.start)

def ofOpening (stop : Point) (name : String) (attributes : KeyMap Value) :
    List PlacedToken → Except Fault Header
  | [] => .error (.invalidTag .unfinished stop)
  | ⟨.closing, _⟩ :: _ => .ok (.opening name attributes false)
  | ⟨.selfClosing, _⟩ :: _ => .ok (.opening name attributes true)
  | ⟨.name key, _⟩ :: ⟨.equals, _⟩ :: written :: rest =>
      match value written with
      | .error fault => .error fault
      | .ok value => ofOpening stop name (attributes.insert key value) rest
  | ⟨.name key, _⟩ :: [⟨.equals, _⟩] => .error (.invalidTag (.missingValue key) stop)
  | ⟨.name key, start⟩ :: _ => .error (.invalidTag (.expectedEquals key) start)
  | found :: _ => .error (.invalidTag (.expectedAttribute found.token) found.start)

def ofTokens (stop : Point) : List PlacedToken → Except Fault Header
  | [] => .error (.invalidTag (.expectedName none) stop)
  | ⟨.slash, _⟩ :: rest => ofClosing stop rest
  | ⟨.name word, _⟩ :: rest => ofOpening stop word ∅ rest
  | found :: _ => .error (.invalidTag (.expectedName (some found.token)) found.start)

end Header

def TokenGroup.header (group : TokenGroup) : Except Fault Header :=
  Header.ofTokens group.span.stop
    (group.significant.dropWhile fun placed => placed.token != .opening).tail

end Tagmark
