import Tagmark.KeyMap

/-! Trees of HTML elements and text. -/

namespace Tagmark

inductive Html where
  | text (value : String)
  | element (name : String) (attributes : KeyMap String) (children : List Html)
deriving Inhabited

namespace Html

def make (name : String) (attributes : List (String × String)) (children : List Html) : Html :=
  .element name (.ofList attributes) children

def labelled (name text : String) : Html :=
  make name [] [.text text]

mutual

def texts : Html → List String
  | .text value => [value]
  | .element _ _ children => textsOf children

def textsOf : List Html → List String
  | [] => []
  | node :: rest => node.texts ++ textsOf rest

end

def textContent (node : Html) : String :=
  String.join node.texts

def childrenNamed? (name : String) : Html → Option (List Html)
  | .text _ => none
  | .element _ _ children => some (children.filter fun
      | .element childName _ _ => childName == name
      | .text _ => false)

end Html

end Tagmark
