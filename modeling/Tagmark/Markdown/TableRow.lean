import Tagmark.Markdown.Cursor
import Tagmark.Markdown.Tree

/-!
Rows of tables: cells between bars, and the row under the head that says how they are aligned.
-/

namespace Tagmark.Markdown.TableRow

def split : List Char → List (List Char)
  | [] => [[]]
  | '\\' :: c :: rest =>
      if c = '|' ∨ c = '\\' then
        match split rest with
        | [] => [['\\', c]]
        | cell :: cells => ('\\' :: c :: cell) :: cells
      else
        match split (c :: rest) with
        | [] => [['\\']]
        | cell :: cells => ('\\' :: cell) :: cells
  | '|' :: rest => [] :: split rest
  | c :: rest =>
      match split rest with
      | [] => [[c]]
      | cell :: cells => (c :: cell) :: cells

def trimCell (cell : List Char) : List Char :=
  ((cell.dropWhile isSpaceOrTab).reverse.dropWhile isSpaceOrTab).reverse

def dropFirst (cells : List (List Char)) : List (List Char) :=
  match cells with
  | [] :: cell :: rest => cell :: rest
  | _ => cells

def dropLast (cells : List (List Char)) : List (List Char) :=
  if 1 < cells.length && cells.getLast? == some [] then cells.dropLast else cells

def cells (row : List Char) : List (List Char) :=
  dropLast (dropFirst ((split row).map trimCell))

def alignment? (cell : List Char) : Option Alignment :=
  let left := cell.head? == some ':'
  let afterLeft := if left then cell.tail else cell
  let hyphens := afterLeft.takeWhile (· == '-')
  let rest := afterLeft.drop hyphens.length
  if hyphens.isEmpty then none
  else if rest.isEmpty then some (if left then .left else .unset)
  else if rest == [':'] then some (if left then .center else .right)
  else none

/-- The alignments of the columns, read off the row under the head. It must hold a bar or a
colon. -/
def alignments? (row : List Char) : Option (List Alignment) :=
  if row.contains '|' || row.contains ':' then (cells row).mapM alignment? else none

def canBeHead (row : List Char) : Bool :=
  trimCell row != ['|']

end Tagmark.Markdown.TableRow
