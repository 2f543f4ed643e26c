import Tagmark.Markdown.Autolink

/-!
Emphasis. Runs of `*`, `_` and `~` open and close emphasis, strong emphasis and deleted text. A run
that can close is matched with the nearest run before it that can open; runs in between lose their
meaning.
-/

namespace Tagmark.Markdown

/-- A run of marks that may still open or close something. -/
structure Run where
  mark : Char
  size : Nat
  opens : Bool
  closes : Bool
deriving DecidableEq, Inhabited, Repr

inductive Piece where
  | plain (text : List Char)
  | decoded (text : List Char)
  | node (tree : Tree)
  | run (marks : Run)
deriving Inhabited

inductive CharKind where
  | space
  | punctuation
  | other
deriving DecidableEq, Inhabited, Repr

def CharKind.of (c : Option Char) : CharKind :=
  match c with
  | none => .space
  | some c =>
      if Text.isBlank c then .space
      else if Text.isPunctuation c then .punctuation
      else .other

def isRunMark (c : Option Char) : Bool :=
  c == some '*' || c == some '_' || c == some '~'

def Run.between (mark : Char) (size : Nat) (before after : Option Char) : Run :=
  let left := CharKind.of before
  let right := CharKind.of after
  let opens := right = .other || (right = .punctuation && left ≠ .other) ||
    (mark != '~' && isRunMark after)
  let closes := left = .other || (left = .punctuation && right ≠ .other) ||
    (mark != '~' && isRunMark before)
  { mark := mark
    size := size
    opens := if mark = '_' then opens && (left ≠ .other || !closes) else opens
    closes := if mark = '_' then closes && (right ≠ .other || !opens) else closes }

/-- Whether a run can be closed by a later one. Runs that could both open and close match only if
their sizes do not add up to a multiple of three, and marks of deletion only in equal numbers. -/
def Run.matches (opener closer : Run) : Bool :=
  opener.opens && opener.mark == closer.mark &&
    !((opener.closes || closer.opens) && closer.size % 3 != 0 &&
      (opener.size + closer.size) % 3 == 0) &&
    !(closer.mark == '~' && (closer.size != opener.size || 2 < closer.size))

def Run.shared (opener closer : Run) : Nat :=
  if 1 < opener.size && 1 < closer.size then 2 else 1

def Run.wrap (mark : Char) (count : Nat) (children : List Tree) : Tree :=
  if mark = '~' then .delete children
  else if count = 1 then .emphasis children
  else .strong children

def joinTexts : List Tree → List Tree
  | [] => []
  | .text value :: rest =>
      match joinTexts rest with
      | .text next :: after => .text (value ++ next) :: after
      | after => if value = "" then after else .text value :: after
  | node :: rest => node :: joinTexts rest

def joinPlain : List Piece → List Piece
  | [] => []
  | piece :: rest =>
      let plain? := match piece with
        | .plain text => some text
        | .run run => some (List.replicate run.size run.mark)
        | _ => none
      match plain? with
      | none => piece :: joinPlain rest
      | some text =>
          match joinPlain rest with
          | .plain next :: after => .plain (text ++ next) :: after
          | after => .plain text :: after

def Piece.nodes (inLink : Bool) : Piece → List Tree
  | .plain text => if inLink then [.text (String.ofList text)] else Autolink.splitMail [] text
  | .decoded text => [.text (String.ofList text)]
  | .node tree => [tree]
  | .run _ => []

def nodesOf (inLink : Bool) (pieces : List Piece) : List Tree :=
  joinTexts ((joinPlain pieces).flatMap (Piece.nodes inLink))

/-- The nearest run that `closer` closes, with the pieces after it and before it. All pieces are in
reverse. -/
def findOpener? (closer : Run) (after : List Piece) :
    List Piece → Option (Run × List Piece × List Piece)
  | [] => none
  | .run opener :: rest =>
      if opener.matches closer then some (opener, after, rest)
      else findOpener? closer (.run opener :: after) rest
  | piece :: rest => findOpener? closer (piece :: after) rest

def Run.remaining (run : Run) (taken : Nat) : List Piece :=
  if run.size ≤ taken then [] else [.run { run with size := run.size - taken }]

/-- Closes what `closer` can close in the pieces before it, which are in reverse, as long as
`fuel` lasts: each node takes a mark of it. -/
def close (inLink : Bool) (closer : Run) (before : List Piece) : Nat → List Piece
  | 0 => .run closer :: before
  | fuel + 1 =>
      match findOpener? closer [] before with
      | none => .run closer :: before
      | some (opener, inner, outer) =>
          let taken := Run.shared opener closer
          let node := Run.wrap closer.mark taken (nodesOf inLink inner)
          let before := .node node :: (opener.remaining taken ++ outer)
          if closer.size ≤ taken then before
          else close inLink { closer with size := closer.size - taken } before fuel

def matchRuns (inLink : Bool) (before : List Piece) : List Piece → List Piece
  | [] => before.reverse
  | .run run :: rest =>
      let before := if run.closes then close inLink run before run.size else .run run :: before
      matchRuns inLink before rest
  | piece :: rest => matchRuns inLink (piece :: before) rest

/-- The nodes of a line of text. -/
def Piece.resolve (inLink : Bool) (pieces : List Piece) : List Tree :=
  nodesOf inLink (matchRuns inLink [] pieces)

end Tagmark.Markdown
