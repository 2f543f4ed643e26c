import Tagmark.Tag.Escape
import Tagmark.Toml.Item

/-! Numbers and truth values of TOML. Dates and times are refused, as no table holds any. -/

namespace Tagmark.Toml

def joinDigits? (isDigit : Char → Bool) : List Char → Option (List Char)
  | [] => none
  | [c] => if isDigit c then some [c] else none
  | c :: '_' :: rest => if isDigit c then (joinDigits? isDigit rest).map (c :: ·) else none
  | c :: rest => if isDigit c then (joinDigits? isDigit rest).map (c :: ·) else none

def digitsIn? (base : Nat) (text : List Char) : Option Nat :=
  (joinDigits? (fun c => (Escape.hexDigit? c).any (· < base)) text).map fun digits =>
    digits.foldl (fun total c => base * total + (Escape.hexDigit? c).getD 0) 0

def whole? (text : List Char) : Option (List Char) :=
  match joinDigits? Char.isDigit text with
  | some ('0' :: _ :: _) => none
  | digits => digits

def signed (text : List Char) : Option Bool × List Char :=
  match text with
  | '-' :: rest => (some true, rest)
  | '+' :: rest => (some false, rest)
  | rest => (none, rest)

def integer? (text : List Char) : Option Int :=
  match text with
  | '0' :: 'x' :: rest => (digitsIn? 16 rest).map Int.ofNat
  | '0' :: 'o' :: rest => (digitsIn? 8 rest).map Int.ofNat
  | '0' :: 'b' :: rest => (digitsIn? 2 rest).map Int.ofNat
  | _ =>
      let (sign, digits) := signed text
      (whole? digits).map fun digits =>
        let value : Int := Number.digitsValue digits
        if sign = some true then -value else value

def isExponentMark (c : Char) : Bool :=
  c == 'e' || c == 'E'

def exponent? (text : List Char) : Option (List Char) :=
  match text with
  | [] => some []
  | _ :: rest =>
      let sign := if rest.head? = some '-' then ['-'] else []
      (joinDigits? Char.isDigit (signed rest).2).map fun digits => 'e' :: sign ++ digits

def fraction? (text : List Char) : Option (List Char) :=
  match text with
  | [] => some []
  | _ :: digits => (joinDigits? Char.isDigit digits).map ('.' :: ·)

def float? (text : List Char) : Option Number :=
  let (sign, unsigned) := signed text
  let negative := sign = some true
  if unsigned = ['i', 'n', 'f'] then some (.infinity negative)
  else if unsigned = ['n', 'a', 'n'] then
    some (if negative then .ofMagnitude true Number.nan.magnitude else .nan)
  else do
    let mantissa := unsigned.takeWhile fun c => !isExponentMark c
    let whole ← whole? (mantissa.takeWhile (· != '.'))
    let fraction ← fraction? (mantissa.dropWhile (· != '.'))
    let exponent ← exponent? (unsigned.dropWhile fun c => !isExponentMark c)
    let value ← Number.readUnsigned? negative (whole ++ fraction ++ exponent)
    if value.isFinite then some value else none

def scalar? (text : List Char) : Option Item :=
  if text = ['t', 'r', 'u', 'e'] then some (.boolean true)
  else if text = ['f', 'a', 'l', 's', 'e'] then some (.boolean false)
  else ((integer? text).map Item.integer).or ((float? text).map Item.float)

end Tagmark.Toml
