import Tagmark.Text.Blank

/-!
Text in double quotes on one line. Quotes and backslashes get a backslash, and characters that do
not show are written by their code points.
-/

namespace Tagmark.Text

def isHidden (c : Char) : Bool :=
  c != ' ' && (isBlank c || c.toNat < 0x20 || (0x7F ≤ c.toNat && c.toNat < 0xA0))

def quoteChar (c : Char) : List Char :=
  match c with
  | '"' => ['\\', '"']
  | '\\' => ['\\', '\\']
  | '\n' => ['\\', 'n']
  | '\r' => ['\\', 'r']
  | '\t' => ['\\', 't']
  | '\x00' => ['\\', '0']
  | _ =>
      if isHidden c then ['\\', 'u', '{'] ++ Nat.toDigits 16 c.toNat ++ ['}']
      else [c]

def quote (text : String) : String :=
  String.ofList ('"' :: text.toList.flatMap quoteChar ++ ['"'])

end Tagmark.Text
