import Tagmark.Number.Basic

/-!
Printing numbers with the fewest digits that read back. Of the decimals with that many digits the
nearest is taken, and of two nearest the larger one.
-/

namespace Tagmark.Number

/-- The decimal `0.d₁d₂d₃… * 10 ^ point`, without zeros at either end of its digits. -/
structure Decimal where
  digits : List Char
  point : Int
deriving DecidableEq, Repr

def Decimal.ofScaled (units : Nat) (exponent : Int) : Decimal :=
  let digits := Nat.toDigits 10 units
  ⟨(digits.reverse.dropWhile (· == '0')).reverse, (digits.length : Int) + exponent⟩

/-- The positive rationals `low / den`, `exact / den` and `high / den`: a number and the ends of the
interval of rationals that are read as it. -/
structure Interval where
  low : Nat
  exact : Nat
  high : Nat
  den : Nat
  closed : Bool

/-- A number lies half-way between its neighbours, but for the powers of two, whose lower neighbour
is twice as near. -/
def Interval.around (mantissa : Nat) (exponent : Int) : Interval :=
  let below := if mantissa = Nat.pow 2 52 ∧ -1074 < exponent then 1 else 2
  let up := Nat.pow 2 (exponent - 2).toNat
  { low := (4 * mantissa - below) * up
    exact := 4 * mantissa * up
    high := (4 * mantissa + 2) * up
    den := Nat.pow 2 (2 - exponent).toNat
    closed := mantissa % 2 = 0 }

def Interval.holds (interval : Interval) (units : Nat) (exponent : Int) : Bool :=
  let point := units * interval.den * Nat.pow 10 exponent.toNat
  let low := interval.low * Nat.pow 10 (-exponent).toNat
  let high := interval.high * Nat.pow 10 (-exponent).toNat
  if interval.closed then low ≤ point && point ≤ high else low < point && point < high

def Interval.decimalPoint (interval : Interval) : Int :=
  let estimate : Int :=
    ((Nat.toDigits 10 interval.exact).length : Int) - (Nat.toDigits 10 interval.den).length
  if interval.exact * Nat.pow 10 (-estimate).toNat < interval.den * Nat.pow 10 estimate.toNat then
    estimate
  else estimate + 1

def Interval.nearestOn? (interval : Interval) (exponent : Int) : Option Decimal :=
  let num := interval.exact * Nat.pow 10 (-exponent).toNat
  let den := interval.den * Nat.pow 10 exponent.toNat
  let below := num / den
  let nearer := if 2 * (num % den) < den then [below, below + 1] else [below + 1, below]
  (nearer.find? fun units => interval.holds units exponent).map
    fun units => Decimal.ofScaled units exponent

/-- The shortest decimal that is read as `mantissa * 2 ^ exponent`. Seventeen digits always
suffice. -/
def shortest (mantissa : Nat) (exponent : Int) : Decimal :=
  let interval := Interval.around mantissa exponent
  let point := interval.decimalPoint
  let found := (List.range 17).findSome? fun (places : Nat) =>
    interval.nearestOn? (point - (places : Int) - 1)
  found.getD ⟨['0'], 1⟩

def zeros (count : Int) : List Char :=
  List.replicate count.toNat '0'

def Decimal.positional (decimal : Decimal) : List Char :=
  let length : Int := decimal.digits.length
  if decimal.point ≤ 0 then '0' :: '.' :: zeros (-decimal.point) ++ decimal.digits
  else if length ≤ decimal.point then decimal.digits ++ zeros (decimal.point - length)
  else
    decimal.digits.take decimal.point.toNat ++ '.' :: decimal.digits.drop decimal.point.toNat

/-- Up to sixteen places before the point and four zeros after it are written out; beyond, the
decimal is written with one digit before the point and an exponent. -/
def Decimal.scientific (decimal : Decimal) : List Char :=
  let length : Int := decimal.digits.length
  if -5 < decimal.point && decimal.point ≤ 16 then
    if length ≤ decimal.point then decimal.positional ++ ['.', '0'] else decimal.positional
  else
    let exponent := 'e' :: (toString (decimal.point - 1)).toList
    match decimal.digits with
    | [digit] => digit :: exponent
    | digit :: digits => digit :: '.' :: digits ++ exponent
    | [] => []

def print (x : Number) : String :=
  let sign := if x.isNegative then "-" else ""
  match x.value with
  | .notANumber => "NaN"
  | .infinite => sign ++ "inf"
  | .finite 0 _ => sign ++ "0"
  | .finite mantissa exponent => sign ++ String.ofList (shortest mantissa exponent).positional

/-- The text of a finite number in a data file, which always has a fraction or an exponent. -/
def printFloat (x : Number) : String :=
  let sign := if x.isNegative then "-" else ""
  match x.value with
  | .finite 0 _ => sign ++ "0.0"
  | .finite mantissa exponent => sign ++ String.ofList (shortest mantissa exponent).scientific
  | _ => "null"

end Tagmark.Number
