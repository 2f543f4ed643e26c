import Tagmark.Markdown.Escaped

/-!
The parts of links: labels, destinations and titles, in links themselves and in definitions. Each
reader tells what it read and the text after it.
-/

namespace Tagmark.Markdown

def isLineEnd (c : Char) : Bool :=
  c == '\n' || c == '\r'

def isSpacing (c : Char) : Bool :=
  c == ' ' || c == '\t' || isLineEnd c

def normalizeLabel (label : List Char) : String :=
  let collapsed := label.foldl (fun (kept : List Char) c =>
    if isSpacing c then (if kept.head? = some ' ' then kept else ' ' :: kept) else c :: kept) []
  let trimmed := (collapsed.reverse.dropWhile (· == ' ')).reverse.dropWhile (· == ' ')
  String.ofList (trimmed.reverse.map fun c => c.toLower.toUpper)

def skipSpacing (text : List Char) : List Char :=
  let afterBlank := text.dropWhile fun c => c == ' ' || c == '\t'
  match afterBlank with
  | '\r' :: '\n' :: rest => rest.dropWhile fun c => c == ' ' || c == '\t'
  | c :: rest =>
      if isLineEnd c then rest.dropWhile fun c => c == ' ' || c == '\t' else afterBlank
  | [] => []

def labelText? : List Char → Option (List Char × List Char)
  | [] => none
  | ']' :: rest => some ([], rest)
  | '[' :: _ => none
  | '\\' :: c :: rest =>
      if c ∈ ['[', ']', '\\'] then
        (labelText? rest).map fun (label, after) => ('\\' :: c :: label, after)
      else (labelText? (c :: rest)).map fun (label, after) => ('\\' :: label, after)
  | c :: rest => (labelText? rest).map fun (label, after) => (c :: label, after)

def label? (text : List Char) : Option (List Char × List Char) := do
  let (label, after) ← labelText? text
  if label.length ≤ 999 && !label.all isSpacing then some (label, after) else none

def enclosed? : List Char → Option (List Char × List Char)
  | [] => none
  | '>' :: rest => some ([], rest)
  | '\\' :: c :: rest =>
      if c ∈ ['<', '>', '\\'] then
        (enclosed? rest).map fun (text, after) => ('\\' :: c :: text, after)
      else (enclosed? (c :: rest)).map fun (text, after) => ('\\' :: text, after)
  | c :: rest =>
      if c = '<' || isLineEnd c then none
      else (enclosed? rest).map fun (text, after) => (c :: text, after)

def isControl (c : Char) : Bool :=
  (1 ≤ c.toNat && c.toNat < 0x20) || c.toNat == 0x7F

/-- The text up to white space or to a parenthesis that was not opened in it; `depth` of them are
open, of at most `limit`. -/
def bare? (limit depth : Nat) : List Char → Option (List Char × List Char)
  | [] => if depth = 0 then some ([], []) else none
  | '\\' :: c :: rest =>
      if c ∈ ['(', ')', '\\'] then
        (bare? limit depth rest).map fun (text, after) => ('\\' :: c :: text, after)
      else (bare? limit depth (c :: rest)).map fun (text, after) => ('\\' :: text, after)
  | c :: rest =>
      if depth = 0 && (isSpacing c || c == ')') then some ([], c :: rest)
      else if c = '(' && depth < limit then
        (bare? limit (depth + 1) rest).map fun (text, after) => (c :: text, after)
      else if c = ')' then (bare? limit (depth - 1) rest).map fun (text, after) => (c :: text, after)
      else if isControl c || c == ' ' || c == '(' then none
      else (bare? limit depth rest).map fun (text, after) => (c :: text, after)

def destination? (limit : Nat) (text : List Char) : Option (List Char × List Char) :=
  match text with
  | [] => none
  | '<' :: rest => enclosed? rest
  | c :: rest => if isControl c || c == ' ' || c == ')' then none else bare? limit 0 (c :: rest)

def titleText? (close : Char) : List Char → Option (List Char × List Char)
  | [] => none
  | '\\' :: c :: rest =>
      if c = close ∨ c = '\\' then
        (titleText? close rest).map fun (text, after) => ('\\' :: c :: text, after)
      else (titleText? close (c :: rest)).map fun (text, after) => ('\\' :: text, after)
  | c :: rest =>
      if c = close then some ([], rest)
      else if close = ')' ∧ c = '(' then none
      else (titleText? close rest).map fun (text, after) => (c :: text, after)

def title? (text : List Char) : Option (List Char × List Char) :=
  match text with
  | '"' :: rest => titleText? '"' rest
  | '\'' :: rest => titleText? '\'' rest
  | '(' :: rest => titleText? ')' rest
  | _ => none

def blankLine? (text : List Char) : Option (List Char) :=
  match text.dropWhile fun c => c == ' ' || c == '\t' with
  | [] => some []
  | '\r' :: '\n' :: rest => some rest
  | c :: rest => if isLineEnd c then some rest else none

def definitionEnd? (text : List Char) : Option (List Char) :=
  let spaced := skipSpacing text
  let titled := if spaced.length < text.length then
      (title? spaced).bind fun (_, after) => blankLine? after
    else none
  titled.or (blankLine? text)

/-- The label that a text starts with a definition of, and the text after the definition. -/
def definition? (text : List Char) : Option (List Char × List Char) :=
  match text.dropWhile fun c => c == ' ' || c == '\t' with
  | '[' :: rest => do
      let (label, afterLabel) ← label? rest
      let afterColon ← match afterLabel with
        | ':' :: rest => some rest
        | _ => none
      let (_, afterDestination) ← destination? afterColon.length (skipSpacing afterColon)
      let after ← definitionEnd? afterDestination
      some (label, after)
  | _ => none

structure Resource where
  url : String
  title : Option String
deriving DecidableEq, Inhabited, Repr

def decoded (text : List Char) : String :=
  String.ofList (decode text)

def closeResource? (resource : Resource) (text : List Char) : Option (Resource × List Char) :=
  match text with
  | ')' :: rest => some (resource, rest)
  | _ => none

def resource? (text : List Char) : Option (Resource × List Char) :=
  match skipSpacing text with
  | ')' :: rest => some (⟨"", none⟩, rest)
  | spaced => do
      let (url, afterUrl) ← destination? 32 spaced
      let untitled : Resource := ⟨decoded url, none⟩
      let beforeTitle := skipSpacing afterUrl
      if beforeTitle.length < afterUrl.length then
        match beforeTitle.head? with
        | some c =>
            if c ∈ ['"', '\'', '('] then do
              let (title, afterTitle) ← title? beforeTitle
              closeResource? { untitled with title := some (decoded title) }
                (skipSpacing afterTitle)
            else closeResource? untitled beforeTitle
        | none => none
      else closeResource? untitled afterUrl

end Tagmark.Markdown
