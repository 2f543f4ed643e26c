import Tagmark.Data

/-!
Data as JSON text over several lines. Every level is indented by two spaces; what is empty stays on
one line.
-/

namespace Tagmark.Data

def hexDigits (width n : Nat) : List Char :=
  let digits := Nat.toDigits 16 n
  List.replicate (width - digits.length) '0' ++ digits

def jsonChar (c : Char) : List Char :=
  match c with
  | '"' => ['\\', '"']
  | '\\' => ['\\', '\\']
  | '\n' => ['\\', 'n']
  | '\r' => ['\\', 'r']
  | '\t' => ['\\', 't']
  | '\x08' => ['\\', 'b']
  | '\x0c' => ['\\', 'f']
  | _ => if c.toNat < 0x20 then ['\\', 'u'] ++ hexDigits 4 c.toNat else [c]

def jsonText (text : String) : List Char :=
  '"' :: text.toList.flatMap jsonChar ++ ['"']

def bracketed (opening closing : Char) (level : Nat) : List (List Char) → List Char
  | [] => [opening, closing]
  | piece :: pieces =>
      let line (depth : Nat) := '\n' :: List.replicate (2 * depth) ' '
      [opening] ++ line (level + 1) ++ piece ++
        pieces.flatMap (fun piece => ',' :: line (level + 1) ++ piece) ++ line level ++ [closing]

mutual

def jsonAt (level : Nat) : Data → List Char
  | .null => "null".toList
  | .boolean truth => (toString truth).toList
  | .integer value => (toString value).toList
  | .float value => value.printFloat.toList
  | .text value => jsonText value
  | .list items => bracketed '[' ']' level (jsonItems (level + 1) items)
  | .mapping entries => bracketed '{' '}' level (jsonEntries (level + 1) entries)

def jsonItems (level : Nat) : List Data → List (List Char)
  | [] => []
  | item :: rest => item.jsonAt level :: jsonItems level rest

def jsonEntries (level : Nat) : List (String × Data) → List (List Char)
  | [] => []
  | (name, value) :: rest =>
      (jsonText name ++ [':', ' '] ++ value.jsonAt level) :: jsonEntries level rest

end

def json (data : Data) : String :=
  String.ofList (data.jsonAt 0)

end Tagmark.Data
