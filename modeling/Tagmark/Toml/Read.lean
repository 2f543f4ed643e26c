import Tagmark.Toml.Scalar
import Tagmark.Toml.Text

/-!
Reading TOML. A document is a list of statements, each on a line of its own; brackets and braces may
go over several lines.
-/

namespace Tagmark.Toml

def commentText (text : List Char) : List Char :=
  let line := text.takeWhile (· != '\n')
  if line.length < text.length && line.getLast? = some '\r' then line.dropLast else line

def skipComment? (text : List Char) : Option (List Char) :=
  if (commentText text).all isLineChar then some (text.dropWhile (· != '\n')) else none

theorem length_skipComment?_le {text rest : List Char} (hskip : skipComment? text = some rest) :
    rest.length ≤ text.length := by
  unfold skipComment? at hskip
  split at hskip <;> cases hskip
  exact (List.dropWhile_suffix _).length_le

def skipGaps? (text : List Char) : Option (List Char) :=
  match text with
  | [] => some []
  | '\r' :: '\n' :: rest => skipGaps? rest
  | '#' :: rest =>
      match _hskip : skipComment? rest with
      | none => none
      | some after => skipGaps? after
  | c :: rest => if isBlank c || c == '\n' then skipGaps? rest else some (c :: rest)
termination_by text.length
decreasing_by
  · simp +arith
  · have := length_skipComment?_le _hskip
    simp
    omega
  · simp

def skipBlanks (text : List Char) : List Char :=
  text.dropWhile isBlank

def endLine? (text : List Char) : Option (List Char) := do
  let rest ← match skipBlanks text with
    | '#' :: rest => skipComment? rest
    | rest => some rest
  match rest with
  | [] => some []
  | '\n' :: rest => some rest
  | '\r' :: '\n' :: rest => some rest
  | _ => none

def isKeyChar (c : Char) : Bool :=
  c.isAlphanum || c == '_' || c == '-'

def readKeyPart? (text : List Char) : Option (String × List Char) :=
  match text with
  | '"' :: rest => (readBasic? rest).map fun (name, rest) => (String.ofList name, rest)
  | '\'' :: rest => (readLiteral? rest).map fun (name, rest) => (String.ofList name, rest)
  | _ =>
      let name := text.takeWhile isKeyChar
      if name = [] then none else some (String.ofList name, text.drop name.length)

def readKey? (text : List Char) : Nat → Option ((List String × String) × List Char)
  | 0 => none
  | fuel + 1 => do
      let (name, rest) ← readKeyPart? (skipBlanks text)
      match skipBlanks rest with
      | '.' :: rest => do
          let ((path, last), rest) ← readKey? rest fuel
          some ((name :: path, last), rest)
      | rest => some (([], name), rest)

def isScalarChar (c : Char) : Bool :=
  c.isAlphanum || c == '_' || c == '-' || c == '+' || c == '.' || c == ':'

mutual

def readValue? : Nat → List Char → Option (Item × List Char)
  | 0, _ => none
  | fuel + 1, text =>
      match text with
      | '[' :: rest => do
          let (items, rest) ← readItems? fuel rest
          some (.array false items, rest)
      | c :: rest =>
          if c.toNat = 0x7B then do
            let (entries, rest) ← readFields? fuel [] rest
            some (.table .braces entries, rest)
          else if c = '"' || c = '\'' then
            (readText? text).map fun (value, rest) => (.text (String.ofList value), rest)
          else
            let written := text.takeWhile isScalarChar
            (scalar? written).map fun value => (value, text.drop written.length)
      | [] => none

def readItems? : Nat → List Char → Option (List Item × List Char)
  | 0, _ => none
  | fuel + 1, text => do
      match ← skipGaps? text with
      | ']' :: rest => some ([], rest)
      | text => do
          let (item, rest) ← readValue? fuel text
          match ← skipGaps? rest with
          | ']' :: rest => some ([item], rest)
          | ',' :: rest => do
              let (items, rest) ← readItems? fuel rest
              some (item :: items, rest)
          | _ => none

def readFields? : Nat → Entries → List Char → Option (Entries × List Char)
  | 0, _, _ => none
  | fuel + 1, entries, text => do
      match ← skipGaps? text with
      | [] => none
      | c :: rest =>
          if c.toNat = 0x7D then some (entries, rest)
          else do
            let ((path, name), rest) ← readKey? (c :: rest) (rest.length + 1)
            match rest with
            | '=' :: rest => do
                let (value, rest) ← readValue? fuel (skipBlanks rest)
                let (_, entries) ← putEntry path name value .braces entries
                match ← skipGaps? rest with
                | ',' :: rest => readFields? fuel entries rest
                | d :: rest => if d.toNat = 0x7D then some (entries, rest) else none
                | [] => none
            | _ => none

end

def readHeader? (text : List Char) : Option (Statement × List Char) :=
  match text with
  | '[' :: rest => do
      let ((path, name), rest) ← readKey? rest (rest.length + 1)
      match rest with
      | ']' :: ']' :: rest => some (.element path name, rest)
      | _ => none
  | rest => do
      let ((path, name), rest) ← readKey? rest (rest.length + 1)
      match rest with
      | ']' :: rest => some (.table path name, rest)
      | _ => none

def readStatement? (text : List Char) : Option (Statement × List Char) :=
  match text with
  | '[' :: rest => readHeader? rest
  | _ => do
      let ((path, name), rest) ← readKey? text (text.length + 1)
      match rest with
      | '=' :: rest => do
          let (value, rest) ← readValue? (rest.length + 1) (skipBlanks rest)
          some (.entry path name value, rest)
      | _ => none

def readStatements? : Nat → List Char → Option (List Statement)
  | 0, _ => none
  | fuel + 1, text => do
      match ← skipGaps? text with
      | [] => some []
      | text => do
          let (statement, rest) ← readStatement? text
          let rest ← endLine? rest
          (readStatements? fuel rest).map (statement :: ·)

def read? (document : String) : Option Entries := do
  let text := document.toList
  let text := if text.head? = some '\uFEFF' then text.tail else text
  build [] .header [] (← readStatements? (text.length + 1) text)

end Tagmark.Toml
