/-!
Places in a YAML stream. `next` takes a line end as one step, so `length_next_lt` is the measure by
which reading ends.
-/

namespace Tagmark.Yaml

def isBreak (c : Char) : Bool :=
  c == '\n' || c == '\r' || c == '\u0085' || c == '\u2028' || c == '\u2029'

def isBlank (c : Char) : Bool :=
  c == ' ' || c == '\t'

structure Cursor where
  rest : List Char
  line : Nat := 0
  column : Nat := 0
  offset : Nat := 0
deriving DecidableEq, Inhabited, Repr

namespace Cursor

/-- The place after the next character or line end. -/
def next (cursor : Cursor) : Cursor :=
  match cursor.rest with
  | [] => cursor
  | '\r' :: '\n' :: rest => ⟨rest, cursor.line + 1, 0, cursor.offset + 2⟩
  | c :: rest =>
      if isBreak c then ⟨rest, cursor.line + 1, 0, cursor.offset + 1⟩
      else ⟨rest, cursor.line, cursor.column + 1, cursor.offset + 1⟩

theorem length_next_lt {cursor : Cursor} {c : Char} {rest : List Char}
    (hrest : cursor.rest = c :: rest) : cursor.next.rest.length < cursor.rest.length := by
  unfold next
  split
  · next hnil => simp [hrest] at hnil
  · next heq => simp +arith [heq]
  · next heq => split <;> simp [heq]

def skip (cursor : Cursor) (count : Nat) : Cursor :=
  { cursor with
    rest := cursor.rest.drop count
    column := cursor.column + count
    offset := cursor.offset + count }

/-- Whether the characters after `count` others are white space, a line end, or missing. -/
def endsAt (cursor : Cursor) (count : Nat) : Bool :=
  (cursor.rest.drop count).head?.all fun c => isBlank c || isBreak c

def startsWith (cursor : Cursor) (text : List Char) : Bool :=
  text.isPrefixOf cursor.rest

def skipWhile (p : Char → Bool) (cursor : Cursor) : Cursor :=
  cursor.skip (cursor.rest.takeWhile p).length

def atDocumentMark (cursor : Cursor) : Bool :=
  cursor.column == 0 &&
    (cursor.startsWith ['-', '-', '-'] || cursor.startsWith ['.', '.', '.']) && cursor.endsAt 3

end Cursor

def breakChar (c : Char) : Char :=
  if c = '\u2028' ∨ c = '\u2029' then c else '\n'

end Tagmark.Yaml
