import Tagmark.Markdown.Emphasis
import Tagmark.Markdown.HtmlTag
import Tagmark.Markdown.Label

/-!
Inline Markdown. Text is read from left to right; a bracket that opens a label waits until its
closing one tells whether it is a link, an image, or the call of a footnote.
-/

namespace Tagmark.Markdown

structure Definitions where
  links : List String := []
  footnotes : List String := []
deriving DecidableEq, Inhabited, Repr

inductive LabelKind where
  | link
  | image
  | footnote
deriving DecidableEq, Inhabited, Repr

/-- A label that is open: whether it may still become a link, the pieces before it in reverse, and
the text after its opening bracket. -/
structure OpenLabel where
  kind : LabelKind
  active : Bool
  before : List Piece
  source : List Char

/-- Puts plain text behind the pieces before it. The text and the pieces are in reverse. -/
def pushPlain (text : List Char) (pieces : List Piece) : List Piece :=
  match pieces with
  | .plain before :: rest => .plain (text ++ before) :: rest
  | _ => if text = [] then pieces else .plain text :: pieces

def inOrder (pieces : List Piece) : List Piece :=
  pieces.reverse.map fun
    | .plain text => .plain text.reverse
    | piece => piece

def isSpaceOrTabChar (c : Char) : Bool :=
  c == ' ' || c == '\t'

/-- Takes white space off the end of the pieces, and tells whether it was two spaces or more and
nothing else. -/
def trimPieces (pieces : List Piece) : List Piece × Bool :=
  match pieces with
  | .plain text :: rest =>
      let blank := text.takeWhile isSpaceOrTabChar
      let kept := text.dropWhile isSpaceOrTabChar
      (if kept = [] then rest else .plain kept :: rest, 2 ≤ blank.length && blank.all (· == ' '))
  | _ => (pieces, false)

def LabelKind.opening : LabelKind → List Char
  | .link => ['[']
  | .image => ['[', '!']
  | .footnote => ['^', '[']

def abandonLabels (labels : List OpenLabel) (pieces : List Piece) : List Piece :=
  labels.foldl (fun inner label => inner ++ pushPlain label.kind.opening label.before) pieces

def lineEndLength (text : List Char) : Nat :=
  match text with
  | '\r' :: '\n' :: _ => 2
  | c :: _ => if isLineEnd c then 1 else 0
  | [] => 0

def codeText? (size : Nat) (text : List Char) : Option (List Char) :=
  match text with
  | [] => none
  | '`' :: rest =>
      let more := (rest.takeWhile (· == '`')).length
      if more + 1 = size then some []
      else (codeText? size (rest.drop more)).map (List.replicate (more + 1) '`' ++ ·)
  | c :: rest => (codeText? size rest).map (c :: ·)
termination_by text.length
decreasing_by all_goals simp +arith

def unpad (text : List Char) : List Char :=
  if 2 ≤ text.length && text.head? == some ' ' && text.getLast? == some ' ' &&
      text.any (· != ' ') then
    text.tail.dropLast
  else text

def code? (inTable : Bool) (size : Nat) (text : List Char) : Option (Tree × Nat) := do
  let source ← codeText? size text
  let value := unpad source
  let value := if inTable then unescapeBars value else value
  some (.inlineCode (String.ofList value), source.length + size)
where
  unescapeBars : List Char → List Char
    | [] => []
    | '\\' :: '|' :: rest => '|' :: unescapeBars rest
    | c :: rest => c :: unescapeBars rest

def unindent (text : List Char) : List Char :=
  match text with
  | [] => []
  | c :: rest =>
      if isLineEnd c then c :: unindent (rest.dropWhile isSpaceOrTabChar) else c :: unindent rest
termination_by text.length
decreasing_by
  · have hlength := (List.dropWhile_sublist isSpaceOrTabChar (l := rest)).length_le
    simp
    omega
  · simp

def angle? (text : List Char) : Option (Tree × Nat) :=
  (Autolink.bracketed? text).or
    ((HtmlTag.afterInline? text).map fun after =>
      let length := text.length - after.length
      (.html (String.ofList (unindent ('<' :: text.take length))), length))

/-- How a label ends: with an address, or with the name of one. -/
inductive LabelEnd where
  | resource (resource : Resource)
  | reference
deriving DecidableEq, Inhabited, Repr

def Definitions.hasLink (definitions : Definitions) (label : List Char) : Bool :=
  definitions.links.contains (normalizeLabel label)

def Definitions.hasFootnote (definitions : Definitions) (label : List Char) : Bool :=
  definitions.footnotes.contains (normalizeLabel label)

def labelEnd? (definitions : Definitions) (label after : List Char) : Option (LabelEnd × Nat) :=
  let defined := definitions.hasLink label
  let short := if defined then some (LabelEnd.reference, 0) else none
  match after with
  | '(' :: rest =>
      ((resource? rest).map fun (resource, left) =>
        (.resource resource, after.length - left.length)).or short
  | '[' :: rest =>
      let full := (label? rest).bind fun (name, left) =>
        if definitions.hasLink name then some (LabelEnd.reference, after.length - left.length)
        else none
      let collapsed := if defined && rest.head? == some ']' then some (LabelEnd.reference, 2)
        else none
      (full.or collapsed).or short
  | _ => short

def labelNode (kind : LabelKind) (labelEnd : LabelEnd) (inner : List Piece) : Tree :=
  match kind, labelEnd with
  | .image, .resource resource =>
      .image resource.url (Tree.plainTextOf (Piece.resolve false inner)) resource.title
  | .image, .reference => .leaf ""
  | _, .resource resource => .link resource.url resource.title (Piece.resolve true inner)
  | _, .reference => .reference (Piece.resolve true inner)

def deactivate (kind : LabelKind) (labels : List OpenLabel) : List OpenLabel :=
  if kind = .image then labels
  else labels.map fun label => if label.kind = .image then label else { label with active := false }

structure Reading where
  before : Option Char := none
  labels : List OpenLabel := []
  pieces : List Piece := []

namespace Reading

def plain (reading : Reading) (c : Char) : Reading :=
  { reading with before := some c, pieces := pushPlain [c] reading.pieces }

def piece (reading : Reading) (last : Char) (piece : Piece) : Reading :=
  { reading with before := some last, pieces := piece :: reading.pieces }

def openLabel (reading : Reading) (kind : LabelKind) (last : Char) (source : List Char) :
    Reading :=
  { before := some last
    labels := ⟨kind, true, reading.pieces, source⟩ :: reading.labels
    pieces := [] }

/-- Closes the last open label before the text `rest`, which the closing bracket precedes, and
tells how much of it that takes. -/
def closeLabel (definitions : Definitions) (reading : Reading) (rest : List Char) :
    Reading × Nat :=
  match reading.labels with
  | [] => (reading.plain ']', 0)
  | label :: outer =>
      let text := label.source.take (label.source.length - rest.length - 1)
      if label.kind = .footnote && definitions.hasFootnote text.tail then
        (⟨some ']', outer, .node (.leaf "") :: label.before⟩, 0)
      else
        let inner := if label.kind = .footnote then reading.pieces ++ [.plain ['^']]
          else reading.pieces
        let found := if label.active then labelEnd? definitions text rest else none
        match found with
        | some (labelEnd, length) =>
            let node := labelNode label.kind labelEnd (inOrder inner)
            (⟨some (if length = 0 then ']' else ')'), deactivate label.kind outer,
              .node node :: label.before⟩, length)
        | none =>
            let pieces := reading.pieces ++ pushPlain label.kind.opening label.before
            (⟨some ']', outer, pushPlain [']'] pieces⟩, 0)

/-- Reads the character `c`, and tells how many characters of the text after it that takes. -/
def step (definitions : Definitions) (inTable : Bool) (reading : Reading) (c : Char)
    (rest : List Char) : Reading × Nat :=
  let unread : Reading × Nat := (reading.plain c, 0)
  let ending := lineEndLength (c :: rest)
  if 0 < ending then
    let (pieces, isBreak) := trimPieces reading.pieces
    let piece := if isBreak then .node .lineBreak else .decoded ((c :: rest).take ending)
    let indent := (rest.drop (ending - 1)).takeWhile isSpaceOrTabChar
    ({ reading with before := some '\n', pieces := piece :: pieces }, ending - 1 + indent.length)
  else
    match c with
    | '\\' =>
        let ending := lineEndLength rest
        if 0 < ending then
          let indent := (rest.drop ending).takeWhile isSpaceOrTabChar
          (reading.piece '\n' (.node .lineBreak), ending + indent.length)
        else
          match rest with
          | d :: _ =>
              if Text.isAsciiPunctuation d then (reading.piece d (.decoded [d]), 1) else unread
          | [] => unread
    | '&' =>
        match reference? rest with
        | some (chars, length) => (reading.piece ';' (.decoded chars), length)
        | none => unread
    | '`' =>
        let more := (rest.takeWhile (· == '`')).length
        match code? inTable (more + 1) (rest.drop more) with
        | some (node, length) => (reading.piece '`' (.node node), more + length)
        | none =>
            ({ reading with
                before := some '`'
                pieces := pushPlain (List.replicate (more + 1) '`') reading.pieces }, more)
    | '<' =>
        match angle? rest with
        | some (node, length) => (reading.piece '>' (.node node), length)
        | none => unread
    | '!' =>
        match rest with
        | '[' :: after =>
            if after.head? = some '^' then unread
            else (reading.openLabel .image '[' after, 1)
        | _ => unread
    | '[' =>
        match rest with
        | '^' :: _ => (reading.openLabel .footnote '^' rest, 1)
        | _ => (reading.openLabel .link '[' rest, 0)
    | ']' => reading.closeLabel definitions rest
    | _ =>
        if c = '*' ∨ c = '_' ∨ c = '~' then
          let more := (rest.takeWhile (· == c)).length
          let run := Run.between c (more + 1) reading.before (rest.drop more).head?
          (reading.piece c (.run run), more)
        else if c = 'h' ∨ c = 'H' ∨ c = 'w' ∨ c = 'W' then
          match Autolink.bare? reading.before (c :: rest) with
          | some (node, length) =>
              (reading.piece (((c :: rest).take length).getLast?.getD c) (.node node), length - 1)
          | none => unread
        else unread

def run (definitions : Definitions) (inTable : Bool) (reading : Reading) :
    List Char → List Piece
  | [] => inOrder (abandonLabels reading.labels (trimPieces reading.pieces).1)
  | c :: rest =>
      let (next, length) := step definitions inTable reading c rest
      run definitions inTable next (rest.drop length)
termination_by text => text.length
decreasing_by simp +arith

end Reading

def inline (definitions : Definitions) (inTable : Bool) (text : List Char) : List Tree :=
  Piece.resolve false
    (Reading.run definitions inTable {} (text.dropWhile isSpaceOrTabChar))

end Tagmark.Markdown
