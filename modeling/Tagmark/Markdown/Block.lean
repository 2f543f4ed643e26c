import Tagmark.Markdown.HtmlTag
import Tagmark.Markdown.Label
import Tagmark.Markdown.TableRow

/-!
Blocks of Markdown and the lines that start them: headings, rules, fences, HTML, and the markers of
quotes, items and footnotes.
-/

namespace Tagmark.Markdown

structure SourceLine where
  text : List Char
  ending : List Char
deriving DecidableEq, Inhabited, Repr

def SourceLine.push (c : Char) (lines : List SourceLine) : List SourceLine :=
  match lines with
  | [] => [⟨[c], []⟩]
  | line :: rest => { line with text := c :: line.text } :: rest

def sourceLines : List Char → List SourceLine
  | [] => []
  | '\r' :: '\n' :: rest => ⟨[], ['\r', '\n']⟩ :: sourceLines rest
  | c :: rest =>
      if isLineEnd c then ⟨[], [c]⟩ :: sourceLines rest else SourceLine.push c (sourceLines rest)

def joinLines : List SourceLine → List Char
  | [] => []
  | [line] => line.text
  | line :: rest => line.text ++ line.ending ++ joinLines rest

/-- A block before the text in it is read. -/
inductive Block where
  | paragraph (source : List Char)
  | heading (depth : Nat) (source : List Char)
  | code (info : List Char) (value : List Char)
  | html (value : List Char)
  | rule
  | table (alignment : List Alignment) (rows : List (List (List Char)))
  | definition (label : String)
  | quote (children : List Block)
  | item (marker : Char) (number : Option Nat) (children : List Block)
  | footnote (label : String) (children : List Block)
  | blank
deriving Inhabited

def isRule (text : List Char) : Bool :=
  match text with
  | [] => false
  | mark :: _ =>
      (mark == '*' || mark == '-' || mark == '_') &&
        text.all (fun c => c == mark || isSpaceOrTab c) && 3 ≤ text.count mark

/-- Whether a line is a run of one mark that underlines a heading, and the depth of that. -/
def underline? (text : List Char) : Option Nat :=
  match text with
  | [] => none
  | mark :: _ =>
      if (mark = '=' ∨ mark = '-') ∧ (text.dropWhile (· == mark)).all isSpaceOrTab then
        some (if mark = '=' then 1 else 2)
      else none

def words (text : List Char) : List (List Char) :=
  match text with
  | [] => []
  | c :: rest =>
      if isSpaceOrTab c then words rest
      else
        match rest with
        | [] => [[c]]
        | d :: _ =>
            if isSpaceOrTab d then [c] :: words rest
            else
              match words rest with
              | [] => [[c]]
              | word :: others => (c :: word) :: others

/-- Takes words of nothing but number signs off the end of a heading, where the text is in reverse
and starts with white space or such a word. -/
def dropClosing (reversed : List Char) : List Char :=
  match reversed with
  | [] => []
  | c :: rest =>
      if isSpaceOrTab c then dropClosing rest
      else if c = '#' then
        let more := rest.dropWhile (· == '#')
        match more with
        | [] => []
        | d :: _ =>
            if isSpaceOrTab d then dropClosing (rest.drop (rest.length - more.length))
            else c :: rest
      else c :: rest
termination_by reversed.length
decreasing_by all_goals simp +arith

def heading? (text : List Char) : Option (Nat × List Char) :=
  let depth := (text.takeWhile (· == '#')).length
  let rest := text.drop depth
  if depth = 0 || 6 < depth || !rest.head?.all isSpaceOrTab then none
  else
    let start := rest.dropWhile fun c => c == '#' || isSpaceOrTab c
    some (depth, (dropClosing start.reverse).reverse)

/-- A fence of code that is open: its mark, the length of its run, the columns by which its lines
are indented, and what stands after the run. -/
structure CodeFence where
  mark : Char
  length : Nat
  indent : Nat
  info : List Char
deriving DecidableEq, Inhabited, Repr

def codeFence? (indent : Nat) (text : List Char) : Option CodeFence :=
  match text with
  | [] => none
  | mark :: _ =>
      if mark = '`' ∨ mark = '~' then
        let length := (text.takeWhile (· == mark)).length
        let rest := text.drop length
        if length < 3 || (mark == '`' && rest.contains '`') then none
        else
          let info := (rest.dropWhile isSpaceOrTab).takeWhile fun c => !isSpaceOrTab c
          some ⟨mark, length, indent, info⟩
      else none

def CodeFence.closedBy (fence : CodeFence) (cursor : Cursor) : Bool :=
  let text := cursor.skipAll.text
  let run := text.takeWhile (· == fence.mark)
  cursor.indent < 4 && fence.length ≤ run.length && (text.drop run.length).all isSpaceOrTab

inductive Container where
  | quote
  /-- An item whose content is indented by `width` columns; `empty` says that nothing stands in it
  yet. -/
  | item (marker : Char) (number : Option Nat) (width : Nat) (empty : Bool)
  | footnote (label : String)
deriving DecidableEq, Inhabited, Repr

def quoteRest? (cursor : Cursor) : Option Cursor :=
  let start := cursor.skipAll
  if cursor.indent < 4 && start.text.head? == some '>' then some ((start.drop 1).skip 1) else none

/-- The rest of a line in a container that the line goes on with, and the container after it. -/
def Container.continue? (container : Container) (cursor : Cursor) : Option (Container × Cursor) :=
  match container with
  | .quote => (quoteRest? cursor).map fun rest => (.quote, rest)
  | .item marker number width empty =>
      if cursor.isBlank then
        if empty then none else some (.item marker number width empty, cursor.skip width)
      else if width ≤ cursor.indent then
        some (.item marker number width false, cursor.skip width)
      else none
  | .footnote label =>
      if cursor.isBlank || 4 ≤ cursor.indent then some (.footnote label, cursor.skip 4) else none

def marker? (interrupting : Bool) (text : List Char) : Option (Char × Option Nat × Nat) :=
  match text with
  | [] => none
  | c :: _ =>
      if c = '+' ∨ ((c = '*' ∨ c = '-') ∧ !isRule text) then some (c, none, 1)
      else
        let digits := text.takeWhile Char.isDigit
        let value := digits.foldl (fun total c => 10 * total + (c.toNat - '0'.toNat)) 0
        match text.drop digits.length with
        | mark :: _ =>
            if (mark = '.' ∨ mark = ')') ∧ 1 ≤ digits.length ∧ digits.length ≤ 9 ∧
                (!interrupting ∨ digits = ['1']) then
              some (mark, some value, digits.length + 1)
            else none
        | [] => none

/-- The item that a line starts. Its content starts after one to four columns of white space; after
more, or on an empty line, after one. -/
def item? (interrupting : Bool) (cursor : Cursor) : Option (Container × Cursor) := do
  let start := cursor.skipAll
  if 4 ≤ cursor.indent then none
  let (marker, number, length) ← marker? interrupting start.text
  let after := start.drop length
  if after.isBlank then
    if interrupting then none
    else some (.item marker number (cursor.indent + length + 1) true, after.skipAll)
  else if after.indent = 0 then none
  else
    let space := if 4 < after.indent then 1 else after.indent
    some (.item marker number (cursor.indent + length + space) false, after.skip space)

def footnoteLabel? (text : List Char) : Option (List Char × List Char) := do
  let (label, after) ← labelText? text
  if label.isEmpty || 999 < label.length || label.any isSpaceOrTab then none
  else some (label, after)

def footnote? (cursor : Cursor) : Option (Container × Cursor) :=
  let start := cursor.skipAll
  match start.text with
  | '[' :: '^' :: rest =>
      if 4 ≤ cursor.indent then none
      else
        match footnoteLabel? rest with
        | some (label, ':' :: after) =>
            let length := start.text.length - after.length
            some (.footnote (normalizeLabel label), (start.drop length).skipAll)
        | _ => none
  | _ => none

def Container.start? (interrupting : Bool) (cursor : Cursor) : Option (Container × Cursor) :=
  ((quoteRest? cursor).map fun rest => (Container.quote, rest)).or
    ((item? interrupting cursor).or (footnote? cursor))

/-- The containers that a line starts, the outermost first. Each takes a character of the line, so
`fuel` of the line's length suffices. -/
def Container.startAll (interrupting : Bool) (cursor : Cursor) : Nat → List Container × Cursor
  | 0 => ([], cursor)
  | fuel + 1 =>
      match Container.start? interrupting cursor with
      | none => ([], cursor)
      | some (container, rest) =>
          let (containers, last) := Container.startAll false rest fuel
          (container :: containers, last)

def Container.block (container : Container) (children : List Block) : Block :=
  match container with
  | .quote => .quote children
  | .item marker number _ _ => .item marker number children
  | .footnote label => .footnote label children

end Tagmark.Markdown
