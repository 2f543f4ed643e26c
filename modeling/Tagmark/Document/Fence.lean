import Tagmark.Document.Line

/-!
Code fences. A fence is opened by three or more backticks or tildes, indented by at most three
spaces, and closed by a line of at least as many of the same characters. Delimiters of tags between
them are content.
-/

namespace Tagmark

/-- An open fence: its run of marks, and the place where the line that opened it starts. -/
structure Fence where
  mark : Char
  length : Nat
  start : Point
deriving DecidableEq, Inhabited, Repr

namespace Fence

def unindent? (text : List Char) : Option (List Char) :=
  if (text.takeWhile (· == ' ')).length ≤ 3 then some (text.dropWhile (· == ' ')) else none

def run? (mark : Char) (text : List Char) : Option Nat := do
  let unindented ← unindent? text
  let length := (unindented.takeWhile (· == mark)).length
  if length < 3 || (mark == '`' && (unindented.drop length).contains '`') then none
  else some length

/-- The fence that a line opens where none is open. -/
def ofLine? (line : Line) : Option Fence :=
  let text := Text.trimEnd line.text
  ((run? '`' text).map fun length => ⟨'`', length, line.start⟩).or
    ((run? '~' text).map fun length => ⟨'~', length, line.start⟩)

def closedBy (fence : Fence) (line : Line) : Bool :=
  match unindent? (Text.trimEnd line.text) with
  | none => false
  | some unindented =>
      fence.length ≤ (unindented.takeWhile (· == fence.mark)).length &&
        Text.isBlankText (unindented.dropWhile (· == fence.mark))

/-- The fence that is open after a line, from the one open before it. -/
def next (fence : Option Fence) (line : Line) : Option Fence :=
  match fence with
  | none => ofLine? line
  | some fence => if fence.closedBy line then none else some fence

end Fence

end Tagmark
