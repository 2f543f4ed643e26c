/-!
Places in a text. `Point.advance_append` says that moving over two texts in turn is moving over
their concatenation.
-/

namespace Tagmark

/-- A place in a text: line and column count from 1, the column in characters, and the offset
counts bytes of UTF-8 from 0. -/
structure Point where
  line : Nat := 1
  column : Nat := 1
  offset : Nat := 0
deriving DecidableEq, Inhabited, Repr

namespace Point

def origin : Point := {}

def step (point : Point) (c : Char) : Point :=
  if c = '\n' then ⟨point.line + 1, 1, point.offset + c.utf8Size⟩
  else ⟨point.line, point.column + 1, point.offset + c.utf8Size⟩

/-- The place reached from `point` by moving over `text`. -/
def advance (point : Point) (text : List Char) : Point :=
  text.foldl step point

@[simp] theorem advance_nil (point : Point) : point.advance [] = point := rfl

@[simp] theorem advance_cons (point : Point) (c : Char) (text : List Char) :
    point.advance (c :: text) = (point.step c).advance text := rfl

theorem advance_append (point : Point) (left right : List Char) :
    point.advance (left ++ right) = (point.advance left).advance right :=
  List.foldl_append

end Point

/-- A stretch of a text, from its first place to the place after it. -/
structure Span where
  start : Point := {}
  stop : Point := {}
deriving DecidableEq, Inhabited, Repr

/-- The stretch that `text` covers from `start` on. -/
def Span.covering (start : Point) (text : List Char) : Span :=
  ⟨start, start.advance text⟩

end Tagmark
