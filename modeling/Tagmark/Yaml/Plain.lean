import Tagmark.Data
import Tagmark.Number.Read
import Tagmark.Tag.Escape

/-!
What scalars of YAML stand for. A plain scalar is null, a truth value or a number if it is written
like one, and text otherwise; digits after a leading zero are text.
-/

namespace Tagmark.Yaml.Plain

def isNull (text : List Char) : Bool :=
  ["null", "Null", "NULL", "~"].contains (String.ofList text)

def boolean? (text : List Char) : Option Bool :=
  match String.ofList text with
  | "true" | "True" | "TRUE" => some true
  | "false" | "False" | "FALSE" => some false
  | _ => none

def isPadded (text : List Char) : Bool :=
  match text with
  | '0' :: digit :: rest | '-' :: '0' :: digit :: rest | '+' :: '0' :: digit :: rest =>
      (digit :: rest).all Char.isDigit
  | _ => false

def digits? (base : Nat) (text : List Char) : Option Nat :=
  if text = [] then none
  else
    text.foldlM (fun total c => do
      let digit ← Escape.hexDigit? c
      if digit < base then some (base * total + digit) else none) 0

def natural? (text : List Char) : Option Nat :=
  match text with
  | '0' :: 'x' :: rest => digits? 16 rest
  | '0' :: 'o' :: rest => digits? 8 rest
  | '0' :: 'b' :: rest => digits? 2 rest
  | _ => digits? 10 text

def integer? (text : List Char) : Option Int :=
  if isPadded text then none
  else
    match text with
    | '-' :: rest => (natural? rest).map fun value => -(value : Int)
    | '+' :: rest => (natural? rest).map Int.ofNat
    | _ => (natural? text).map Int.ofNat

def float? (text : List Char) : Option Number :=
  match String.ofList text with
  | ".inf" | ".Inf" | ".INF" | "+.inf" | "+.Inf" | "+.INF" => some (.infinity false)
  | "-.inf" | "-.Inf" | "-.INF" => some (.infinity true)
  | ".nan" | ".NaN" | ".NAN" => some .nan
  | _ => (Number.read? text).filter Number.isFinite

/-- What an integer becomes. Beyond 64 bits there is none, and beyond 128 bits it is no integer. -/
def ofInteger? (value : Int) : Option (Option Data) :=
  if -(Nat.pow 2 63) ≤ value ∧ value < Nat.pow 2 64 then some (some (.integer value))
  else if -(Nat.pow 2 127) ≤ value ∧ value < Nat.pow 2 128 then some none
  else none

def data? (text : List Char) : Option Data :=
  if text = [] || isNull text then some .null
  else
    match boolean? text with
    | some truth => some (.boolean truth)
    | none =>
        match (integer? text).bind ofInteger? with
        | some read => read
        | none =>
            match if isPadded text then none else float? text with
            | some value => some (.ofFloat value)
            | none => some (.text (String.ofList text))

def tagged? (tag : String) (text : List Char) : Option Data :=
  match tag with
  | "tag:yaml.org,2002:bool" => (boolean? text).map .boolean
  | "tag:yaml.org,2002:int" => ((integer? text).bind ofInteger?).join
  | "tag:yaml.org,2002:float" => (float? text).map .ofFloat
  | "tag:yaml.org,2002:null" => if isNull text then some .null else none
  | _ => some (.text (String.ofList text))

end Tagmark.Yaml.Plain
