/-!
Numbers in the binary format of 64 bits: sign, 11 bits of exponent, 52 bits of fraction. A number is
its bit pattern; its value is read off exactly, as a whole number times a power of two.
-/

namespace Tagmark

structure Number where
  bits : UInt64
deriving DecidableEq, Inhabited, Repr

namespace Number

inductive Value where
  | notANumber
  | infinite
  | finite (mantissa : Nat) (exponent : Int)
deriving DecidableEq, Repr

def isNegative (x : Number) : Bool :=
  Nat.pow 2 63 ≤ x.bits.toNat

def magnitude (x : Number) : Nat :=
  x.bits.toNat % Nat.pow 2 63

def value (x : Number) : Value :=
  let fraction := x.magnitude % Nat.pow 2 52
  match x.magnitude / Nat.pow 2 52 with
  | 0 => .finite fraction (-1074)
  | 2047 => if fraction = 0 then .infinite else .notANumber
  | field + 1 => .finite (Nat.pow 2 52 + fraction) (field - 1074)

def ofMagnitude (negative : Bool) (magnitude : Nat) : Number :=
  ⟨UInt64.ofNat ((if negative then Nat.pow 2 63 else 0) + magnitude)⟩

def infinityMagnitude : Nat := 2047 * Nat.pow 2 52

def infinity (negative : Bool) : Number :=
  ofMagnitude negative infinityMagnitude

def nan : Number :=
  ofMagnitude false (infinityMagnitude + Nat.pow 2 51)

def isFinite (x : Number) : Bool :=
  x.magnitude < infinityMagnitude

def isNaN (x : Number) : Bool :=
  infinityMagnitude < x.magnitude

def sameValue (x y : Number) : Bool :=
  !x.isNaN && !y.isNaN && (x.bits == y.bits || (x.magnitude == 0 && y.magnitude == 0))

/-- The place of a bit pattern in the order of all patterns, the negative ones downwards from -1. -/
def rank (x : Number) : Int :=
  if x.isNegative then -(x.magnitude : Int) - 1 else x.magnitude

def withinSteps (steps : Nat) (x y : Number) : Bool :=
  (x.rank - y.rank).natAbs ≤ steps

def leastUnits? (x : Number) : Option Int :=
  match x.value with
  | .finite mantissa exponent =>
      let units := mantissa * Nat.pow 2 (exponent + 1074).toNat
      some (if x.isNegative then -(units : Int) else units)
  | _ => none

/-- Whether the difference of two numbers, rounded to a number, is at most `2 ^ -52`. A difference
of `2 ^ -52 + 2 ^ -105` is the largest that rounds down to it. -/
def withinEpsilon (x y : Number) : Bool :=
  match x.leastUnits?, y.leastUnits? with
  | some left, some right =>
      (left - right).natAbs ≤ Nat.pow 2 (1074 - 52) + Nat.pow 2 (1074 - 105)
  | _, _ => false

end Number

end Tagmark
