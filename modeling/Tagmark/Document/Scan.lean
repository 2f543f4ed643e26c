import Tagmark.Document.Basic
import Tagmark.Document.Fence
import Tagmark.Tag.Header
import Tagmark.Tag.Segment

/-!
The body of a document read line by line. A line that starts with a tag outside a code fence is
taken together with the lines after it for as long as its last tag is open; then it is cut into
tags and text. All other lines are content.
-/

namespace Tagmark

inductive Item where
  | content (line : Line)
  | tag (group : TokenGroup)
  | fault (fault : Fault)
deriving DecidableEq, Inhabited, Repr

/-- The items of a body up to the first fault, and the fence that is open after them. -/
structure Scan where
  items : List Item
  fence : Option Fence
deriving DecidableEq, Inhabited, Repr

namespace Scan

/-- Puts the items of segments, with blank text left out, before what `next` makes of the fence
open after them. -/
def ofSegments (fence : Option Fence) (next : Option Fence → Scan) : List Segment → Scan
  | [] => next fence
  | .tag group :: rest =>
      let scan := ofSegments fence next rest
      { scan with items := .tag group :: scan.items }
  | .text text start :: rest =>
      if Text.isBlankText text then ofSegments fence next rest
      else
        let line : Line := ⟨text, start⟩
        let scan := ofSegments (Fence.next fence line) next rest
        { scan with items := .content line :: scan.items }

def ofTagLine (fence : Option Fence) (next : Option Fence → Scan) (line : Line) : Scan :=
  match segments line.start line.text with
  | .error fault => ⟨[.fault fault], fence⟩
  | .ok segments => ofSegments fence next segments

def scan (fence : Option Fence) (gathered : Option Line) : List Line → Scan
  | [] =>
      match gathered with
      | none => ⟨[], fence⟩
      | some line => ofTagLine fence (fun fence => ⟨[], fence⟩) line
  | line :: rest =>
      match gathered with
      | some before =>
          if (before.append line).endsInTag then scan fence (some (before.append line)) rest
          else ofTagLine fence (fun fence => scan fence none rest) (before.append line)
      | none =>
          if fence.isSome || !line.startsWithTag then
            let after := scan (Fence.next fence line) none rest
            { after with items := .content line :: after.items }
          else if line.endsInTag then scan fence (some line) rest
          else ofTagLine fence (fun fence => scan fence none rest) line

def ofLines (lines : List Line) : Scan :=
  scan none none lines

end Scan

end Tagmark
