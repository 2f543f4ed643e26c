import Tagmark.Number.Basic

/-!
Reading decimal text. The result is the number nearest to the decimal, of two nearest the one with
the even pattern; decimals beyond the largest number are infinite.
-/

namespace Tagmark.Number

def roundToEven (num den : Nat) : Nat :=
  let quotient := num / den
  let rest := num % den
  if 2 * rest < den then quotient
  else if den < 2 * rest then quotient + 1
  else quotient + quotient % 2

def ratioLog (num den : Nat) : Int :=
  let estimate : Int := (num.log2 : Int) - (den.log2 : Int)
  if den * Nat.pow 2 estimate.toNat ≤ num * Nat.pow 2 (-estimate).toNat then estimate
  else estimate - 1

/-- The magnitude of the number nearest to `num / den`. Patterns of subsequent exponents follow on
each other, so a mantissa rounded up to `2 ^ 53` carries into the exponent by the sum alone. -/
def nearestMagnitude (num den : Nat) : Nat :=
  if num = 0 then 0
  else
    let exponent := max (ratioLog num den - 52) (-1074)
    let mantissa :=
      roundToEven (num * Nat.pow 2 (-exponent).toNat) (den * Nat.pow 2 exponent.toNat)
    min ((exponent + 1074).toNat * Nat.pow 2 52 + mantissa) infinityMagnitude

/-- The number nearest to `digits * 10 ^ exponent`, where `digits` has `count` decimal places. -/
def ofDecimal (negative : Bool) (digits count : Nat) (exponent : Int) : Number :=
  let size := (count : Int) + exponent
  if digits = 0 || size < -330 then ofMagnitude negative 0
  else if 310 < size then infinity negative
  else
    ofMagnitude negative
      (nearestMagnitude (digits * Nat.pow 10 exponent.toNat) (Nat.pow 10 (-exponent).toNat))

def ofInt (value : Int) : Number :=
  ofMagnitude (value < 0) (nearestMagnitude value.natAbs 1)

def digitsValue (digits : List Char) : Nat :=
  digits.foldl (fun total c => 10 * total + (c.toNat - '0'.toNat)) 0

def readExponent? : List Char → Option Int
  | [] => some 0
  | mark :: rest =>
      if mark = 'e' ∨ mark = 'E' then
        let (negative, digits) := match rest with
          | '-' :: digits => (true, digits)
          | '+' :: digits => (false, digits)
          | digits => (false, digits)
        if digits.isEmpty || !digits.all Char.isDigit then none
        else some (if negative then -(digitsValue digits : Int) else digitsValue digits)
      else none

/-- Digits with at most one point among them and at least one digit, then perhaps an exponent. -/
def readUnsigned? (negative : Bool) (text : List Char) : Option Number :=
  let whole := text.takeWhile Char.isDigit
  let rest := text.dropWhile Char.isDigit
  let (fraction, rest) := match rest with
    | '.' :: rest => (rest.takeWhile Char.isDigit, rest.dropWhile Char.isDigit)
    | rest => ([], rest)
  let digits := whole ++ fraction
  if digits.isEmpty then none
  else
    let significant := digits.dropWhile (· == '0')
    (readExponent? rest).map fun exponent =>
      ofDecimal negative (digitsValue significant) significant.length
        (exponent - (fraction.length : Int))

def readWord? (negative : Bool) (text : List Char) : Option Number :=
  match String.ofList (text.map Char.toLower) with
  | "inf" | "infinity" => some (infinity negative)
  | "nan" => some (if negative then ofMagnitude true nan.magnitude else nan)
  | _ => none

def read? (text : List Char) : Option Number :=
  let (negative, unsigned) := match text with
    | '-' :: rest => (true, rest)
    | '+' :: rest => (false, rest)
    | rest => (false, rest)
  (readUnsigned? negative unsigned).or (readWord? negative unsigned)

end Tagmark.Number
