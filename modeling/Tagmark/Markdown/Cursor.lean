/-!
The rest of a line while its containers are taken off. White space counts in columns, and a tab
reaches to the next column that is a multiple of four; a tab that is taken in part leaves spaces.
-/

namespace Tagmark.Markdown

/-- The rest of a line and the column where it starts. -/
structure Cursor where
  column : Nat := 0
  text : List Char
deriving DecidableEq, Inhabited, Repr

def isSpaceOrTab (c : Char) : Bool :=
  c == ' ' || c == '\t'

def widthAt (column : Nat) (c : Char) : Nat :=
  if c = '\t' then 4 - column % 4 else 1

namespace Cursor

def isBlank (cursor : Cursor) : Bool :=
  cursor.text.all isSpaceOrTab

def indentOf (column : Nat) : List Char → Nat
  | [] => 0
  | c :: rest =>
      if isSpaceOrTab c then widthAt column c + indentOf (column + widthAt column c) rest else 0

def indent (cursor : Cursor) : Nat :=
  indentOf cursor.column cursor.text

def skipFrom (column width : Nat) : List Char → Cursor
  | [] => ⟨column, []⟩
  | c :: rest =>
      if width = 0 || !isSpaceOrTab c then ⟨column, c :: rest⟩
      else if widthAt column c ≤ width then
        skipFrom (column + widthAt column c) (width - widthAt column c) rest
      else ⟨column + width, List.replicate (widthAt column c - width) ' ' ++ rest⟩

def skip (cursor : Cursor) (width : Nat) : Cursor :=
  skipFrom cursor.column width cursor.text

def skipAll (cursor : Cursor) : Cursor :=
  cursor.skip cursor.indent

def drop (cursor : Cursor) (count : Nat) : Cursor :=
  ⟨cursor.column + count, cursor.text.drop count⟩

end Cursor

end Tagmark.Markdown
