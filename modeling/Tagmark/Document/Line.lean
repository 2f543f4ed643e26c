import Tagmark.Point
import Tagmark.Text.Blank
import Tagmark.Text.Split

/-! The lines of a document with their places, and the frontmatter at its head. -/

namespace Tagmark

/-- A stretch of text from one line or several, with the line ends in it. -/
structure Line where
  text : List Char
  start : Point
deriving DecidableEq, Inhabited, Repr

namespace Line

def place (point : Point) : List (List Char) → List Line
  | [] => []
  | text :: rest => ⟨text, point⟩ :: place (point.advance text) rest

def ofText (text : List Char) : List Line :=
  place .origin (Text.splitLines text)

def isFrontmatterFence (line : Line) : Bool :=
  Text.trimEnd line.text == ['-', '-', '-']

def cutAtFence? : List Line → Option (List Line × List Line)
  | [] => none
  | line :: rest =>
      if line.isFrontmatterFence then some ([], rest)
      else (cutAtFence? rest).map fun (before, after) => (line :: before, after)

/-- Whether the first thing on the line is the opening delimiter of a tag. -/
def startsWithTag (line : Line) : Bool :=
  ['{', '%'].isPrefixOf (Text.trimStart line.text)

/-- Whether no closing delimiter follows the last opening one. -/
def endsInTag (line : Line) : Bool :=
  match Text.lastFrom? ['{', '%'] line.text with
  | none => false
  | some rest => !Text.contains ['%', '}'] rest

def append (line next : Line) : Line :=
  ⟨line.text ++ next.text, line.start⟩

@[simp] theorem flatten_place (point : Point) (texts : List (List Char)) :
    ((place point texts).map (·.text)).flatten = texts.flatten := by
  induction texts generalizing point with
  | nil => rfl
  | cons text rest induction => simp [place, induction]

end Line

end Tagmark
