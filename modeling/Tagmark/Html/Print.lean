import Tagmark.Html.Tree

/-!
HTML text. The characters that have a meaning in markup are written as references, attributes stand
in the order of their names, and a void element has neither content nor a closing tag.
-/

namespace Tagmark.Html

def escapeChar : Char → List Char
  | '&' => ['&', 'a', 'm', 'p', ';']
  | '<' => ['&', 'l', 't', ';']
  | '>' => ['&', 'g', 't', ';']
  | '"' => ['&', 'q', 'u', 'o', 't', ';']
  | '\'' => ['&', '#', '3', '9', ';']
  | c => [c]

def escape (text : List Char) : List Char :=
  text.flatMap escapeChar

def escapeText (text : String) : String :=
  String.ofList (escape text.toList)

def isVoid (name : String) : Bool :=
  ["br", "hr", "img", "input", "link", "meta"].contains name

def printAttribute (entry : String × String) : List Char :=
  ' ' :: entry.1.toList ++ ['=', '"'] ++ escape entry.2.toList ++ ['"']

def printOpening (name : String) (attributes : KeyMap String) : List Char :=
  '<' :: name.toList ++ attributes.entries.flatMap printAttribute ++ ['>']

def printClosing (name : String) : List Char :=
  ['<', '/'] ++ name.toList ++ ['>']

mutual

def chars : Html → List Char
  | .text value => escape value.toList
  | .element name attributes children =>
      printOpening name attributes ++
        if isVoid name then [] else charsOf children ++ printClosing name

def charsOf : List Html → List Char
  | [] => []
  | node :: rest => node.chars ++ charsOf rest

end

theorem charsOf_append (left right : List Html) :
    charsOf (left ++ right) = charsOf left ++ charsOf right := by
  induction left with
  | nil => rfl
  | cons node rest induction => simp [charsOf, induction]

def print (node : Html) : String :=
  String.ofList node.chars

def printAll (nodes : List Html) : String :=
  String.ofList (charsOf nodes)

end Tagmark.Html
