import Tagmark.Tag.Escape

/-!
Texts of TOML. Between double quotes escapes are resolved, between single quotes nothing is; three
quotes enclose text of several lines. The readers start after the opening quotes and give what is
left after the closing ones.
-/

namespace Tagmark.Toml

def isLineChar (c : Char) : Bool :=
  let n := c.toNat
  n == 0x09 || (0x20 ≤ n && n ≤ 0x7E) || 0x80 ≤ n

def isBlank (c : Char) : Bool :=
  c == ' ' || c == '\t'

def escape? : Char → Option Char
  | 'b' => some '\x08'
  | 't' => some '\t'
  | 'n' => some '\n'
  | 'f' => some '\x0c'
  | 'r' => some '\r'
  | 'e' => some '\x1b'
  | '"' => some '"'
  | '\\' => some '\\'
  | _ => none

def escapeLength? : Char → Option Nat
  | 'x' => some 2
  | 'u' => some 4
  | 'U' => some 8
  | _ => none

def hexChar? (length : Nat) (text : List Char) : Option Char := do
  let digits := text.take length
  if digits.length < length then none
  else
    let values ← digits.mapM Escape.hexDigit?
    let value := values.foldl (fun total digit => 16 * total + digit) 0
    if value.isValidChar then some (Char.ofNat value) else none

def readEscape? : List Char → Option (Char × List Char)
  | [] => none
  | letter :: rest =>
      match escapeLength? letter with
      | some length => (hexChar? length rest).map fun c => (c, rest.drop length)
      | none => (escape? letter).map fun c => (c, rest)

theorem length_readEscape?_lt {text rest : List Char} {c : Char}
    (hread : readEscape? text = some (c, rest)) : rest.length < text.length := by
  cases text with
  | nil => simp [readEscape?] at hread
  | cons letter tail =>
      simp only [readEscape?] at hread
      split at hread
      · obtain ⟨_, _, heq⟩ := Option.map_eq_some_iff.1 hread
        cases heq
        simp only [List.length_drop, List.length_cons]
        omega
      · obtain ⟨_, _, heq⟩ := Option.map_eq_some_iff.1 hread
        cases heq
        simp

def readLiteral? (text : List Char) : Option (List Char × List Char) :=
  let inner := text.takeWhile (· != '\'')
  match text.drop inner.length with
  | _ :: rest => if inner.all isLineChar then some (inner, rest) else none
  | [] => none

def readBasic? (text : List Char) : Option (List Char × List Char) :=
  match text with
  | [] => none
  | '"' :: rest => some ([], rest)
  | '\\' :: rest =>
      match _hescape : readEscape? rest with
      | none => none
      | some (c, after) => (readBasic? after).map fun (inner, last) => (c :: inner, last)
  | c :: rest =>
      if isLineChar c then (readBasic? rest).map fun (inner, last) => (c :: inner, last) else none
termination_by text.length
decreasing_by
  · have := length_readEscape?_lt _hescape
    simp
    omega
  · simp

def dropFirstBreak : List Char → List Char
  | '\n' :: rest => rest
  | '\r' :: '\n' :: rest => rest
  | text => text

def dropGaps : List Char → List Char
  | ' ' :: rest => dropGaps rest
  | '\t' :: rest => dropGaps rest
  | '\n' :: rest => dropGaps rest
  | '\r' :: '\n' :: rest => dropGaps rest
  | text => text

theorem length_dropGaps_le (text : List Char) : (dropGaps text).length ≤ text.length := by
  fun_induction dropGaps text <;> simp_all <;> omega

def endsLine (text : List Char) : Bool :=
  match text.dropWhile isBlank with
  | '\n' :: _ => true
  | '\r' :: '\n' :: _ => true
  | _ => false

def closingQuotes (quote : Char) (rest : List Char) : List Char × List Char :=
  let extra := (rest.take 2).takeWhile (· == quote)
  (extra, rest.drop extra.length)

def readLiteralLines? : List Char → Option (List Char × List Char)
  | [] => none
  | '\'' :: '\'' :: '\'' :: rest => some (closingQuotes '\'' rest)
  | '\r' :: '\n' :: rest => (readLiteralLines? rest).map fun (inner, last) =>
      ('\r' :: '\n' :: inner, last)
  | c :: rest =>
      if isLineChar c || c == '\n' then
        (readLiteralLines? rest).map fun (inner, last) => (c :: inner, last)
      else none

def readBasicLines? (text : List Char) : Option (List Char × List Char) :=
  match text with
  | [] => none
  | '"' :: '"' :: '"' :: rest => some (closingQuotes '"' rest)
  | '\\' :: rest =>
      if endsLine rest then readBasicLines? (dropGaps rest)
      else
        match _hescape : readEscape? rest with
        | none => none
        | some (c, after) => (readBasicLines? after).map fun (inner, last) => (c :: inner, last)
  | '\r' :: '\n' :: rest => (readBasicLines? rest).map fun (inner, last) =>
      ('\r' :: '\n' :: inner, last)
  | c :: rest =>
      if isLineChar c || c == '\n' then
        (readBasicLines? rest).map fun (inner, last) => (c :: inner, last)
      else none
termination_by text.length
decreasing_by
  · have := length_dropGaps_le rest
    simp
    omega
  · have := length_readEscape?_lt _hescape
    simp
    omega
  · simp +arith
  · simp

def readText? : List Char → Option (List Char × List Char)
  | '"' :: '"' :: '"' :: rest => readBasicLines? (dropFirstBreak rest)
  | '"' :: rest => readBasic? rest
  | '\'' :: '\'' :: '\'' :: rest => readLiteralLines? (dropFirstBreak rest)
  | '\'' :: rest => readLiteral? rest
  | _ => none

end Tagmark.Toml
