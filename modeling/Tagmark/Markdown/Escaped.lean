import Tagmark.Markdown.NamedCharacter
import Tagmark.Text.Punctuation

/-!
Backslash escapes and character references in Markdown text.
-/

namespace Tagmark.Markdown

/-- A number of code point as text. What is no character, or a control character, or never assigned
is replaced. -/
def numbered (n : Nat) : Char :=
  if n ≤ 0x08 || n == 0x0B || (0x0E ≤ n && n ≤ 0x1F) || (0x7F ≤ n && n ≤ 0x9F) ||
      (0xFDD0 ≤ n && n ≤ 0xFDEF) || n % 0x10000 == 0xFFFE || n % 0x10000 == 0xFFFF ||
      !n.isValidChar then
    '\uFFFD'
  else Char.ofNat n

/-- The characters of the reference that goes on with `text` after its ampersand, and the number of
characters taken. -/
def reference? (text : List Char) : Option (List Char × Nat) :=
  let closed (length : Nat) : Bool := (text.drop length).head? == some ';'
  match text with
  | '#' :: x :: rest =>
      if x = 'x' ∨ x = 'X' then
        let digits := rest.takeWhile fun c => (Escape.hexDigit? c).isSome
        let length := digits.length
        if 1 ≤ length && length ≤ 6 && closed (length + 2) then
          some ([numbered (NamedCharacter.hexNumber digits)], length + 3)
        else none
      else
        let digits := (x :: rest).takeWhile Char.isDigit
        let length := digits.length
        if 1 ≤ length && length ≤ 7 && closed (length + 1) then
          let value := digits.foldl (fun total c => 10 * total + (c.toNat - '0'.toNat)) 0
          some ([numbered value], length + 2)
        else none
  | _ =>
      let name := text.takeWhile Char.isAlphanum
      if 1 ≤ name.length && name.length ≤ 31 && closed name.length then
        (NamedCharacter.find? (String.ofList name)).map fun chars => (chars, name.length + 1)
      else none

def decode (text : List Char) : List Char :=
  match text with
  | [] => []
  | '\\' :: c :: rest =>
      if Text.isAsciiPunctuation c then c :: decode rest else '\\' :: decode (c :: rest)
  | '&' :: rest =>
      match reference? rest with
      | some (chars, length) => chars ++ decode (rest.drop length)
      | none => '&' :: decode rest
  | c :: rest => c :: decode rest
termination_by text.length
decreasing_by all_goals simp +arith

end Tagmark.Markdown
