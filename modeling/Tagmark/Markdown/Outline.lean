import Tagmark.Markdown.Block

/-!
The blocks of a text, read line by line. A line goes on with the containers that are open, may start
others, and then belongs to the last block in them. A line of a paragraph need not repeat the
markers of the containers around it.
-/

namespace Tagmark.Markdown

/-- The block at the end of what was read, with its lines in reverse. -/
inductive Leaf where
  | closed
  | paragraph (lines : List SourceLine)
  | fenced (fence : CodeFence) (lines : List SourceLine)
  | indented (lines : List (SourceLine × Bool))
  | html (blockEnd : HtmlTag.BlockEnd) (lines : List SourceLine)
  | table (alignment : List Alignment) (rows : List (List (List Char)))
deriving Inhabited

/-- An open container and the blocks in it, in reverse. -/
structure Frame where
  container : Container
  blocks : List Block

/-- What was read of a text: the open containers, the innermost first, the blocks outside of them in
reverse, the block at the end, and whether a blank line follows it. -/
structure Outline where
  frames : List Frame := []
  blocks : List Block := []
  leaf : Leaf := .closed
  blank : Bool := false

def dropDefinitions (text : List Char) : List String × List Char :=
  match definition? text with
  | none => ([], text)
  | some (label, after) =>
      if _hshorter : after.length < text.length then
        let (labels, rest) := dropDefinitions after
        (normalizeLabel label :: labels, rest)
      else ([normalizeLabel label], after)
termination_by text.length

def trimIndented (lines : List (SourceLine × Bool)) : List SourceLine :=
  ((lines.dropWhile (·.2)).map (·.1)).reverse

def dropLineEnd (text : List Char) : List Char :=
  match text.reverse with
  | '\n' :: '\r' :: rest => rest.reverse
  | c :: rest => if isLineEnd c then rest.reverse else text
  | [] => []

def Leaf.blocks : Leaf → List Block
  | .closed => []
  | .paragraph lines =>
      let (labels, rest) := dropDefinitions (joinLines lines.reverse)
      labels.map .definition ++ if rest.all isSpacing then [] else [.paragraph rest]
  | .fenced fence lines => [.code fence.info (joinLines lines.reverse)]
  | .indented lines => [.code [] (dropLineEnd (joinLines (trimIndented lines)))]
  | .html _ lines => [.html (joinLines lines.reverse)]
  | .table alignment rows => [.table alignment rows.reverse]

inductive BlockStart where
  | indented
  | heading (depth : Nat) (source : List Char)
  | rule
  | fence (fence : CodeFence)
  | html (blockEnd : HtmlTag.BlockEnd)
deriving Inhabited

def BlockStart.of? (interrupting lazy : Bool) (cursor : Cursor) : Option BlockStart :=
  if 4 ≤ cursor.indent then
    if interrupting then none else some .indented
  else
    let text := cursor.skipAll.text
    match text with
    | '<' :: rest => (HtmlTag.blockEnd? (interrupting && !lazy) rest).map .html
    | _ =>
        match heading? text with
        | some (depth, source) => some (.heading depth source)
        | none =>
            if isRule text then some .rule else (codeFence? cursor.indent text).map .fence

/-- Whether a line can be a row of a table. A line that starts with a mark of another construct
cannot. -/
def canBeRow (cursor : Cursor) : Bool :=
  cursor.indent < 4 &&
    !cursor.text.head?.any fun c =>
      c.toNat == 0x7B || ['#', '$', '`', '~', '*', '_', '<', 'e', 'i'].contains c

namespace Outline

def add (outline : Outline) (blocks : List Block) : Outline :=
  match outline.frames with
  | [] => { outline with blocks := blocks.reverse ++ outline.blocks }
  | frame :: rest =>
      { outline with frames := { frame with blocks := blocks.reverse ++ frame.blocks } :: rest }

def closeLeaf (outline : Outline) : Outline :=
  { outline.add outline.leaf.blocks with leaf := .closed }

def pop (outline : Outline) : Outline :=
  match outline.frames with
  | [] => outline
  | frame :: rest =>
      { outline with frames := rest }.add [frame.container.block frame.blocks.reverse]

def close (outline : Outline) (count : Nat) : Outline :=
  Nat.repeat pop count outline.closeLeaf

def separate (outline : Outline) : Outline :=
  let closed := outline.closeLeaf
  if closed.blank then { closed.add [.blank] with blank := false } else closed

def addLine (outline : Outline) (block : Block) : Outline :=
  outline.separate.add [block]

def openLeaf (outline : Outline) (leaf : Leaf) : Outline :=
  { outline.separate with leaf := leaf }

def goOn (outline : Outline) (leaf : Leaf) : Outline :=
  { outline with leaf := leaf, blank := false }

def startBlock (outline : Outline) (cursor : Cursor) (ending : List Char) (start : BlockStart) :
    Outline :=
  match start with
  | .indented => outline.openLeaf (.indented [(⟨(cursor.skip 4).text, ending⟩, false)])
  | .heading depth source => outline.addLine (.heading depth source)
  | .rule => outline.addLine .rule
  | .fence fence => outline.openLeaf (.fenced fence [])
  | .html blockEnd =>
      if blockEnd.isOn cursor.skipAll.text.tail then outline.addLine (.html cursor.text)
      else outline.openLeaf (.html blockEnd [⟨cursor.text, ending⟩])

def openContainer (outline : Outline) (container : Container) : Outline :=
  let separated := outline.separate
  { separated with frames := ⟨container, []⟩ :: separated.frames }

def fencedLine (outline : Outline) (fence : CodeFence) (lines : List SourceLine) (cursor : Cursor)
    (ending : List Char) : Outline :=
  if fence.closedBy cursor then { outline.closeLeaf with blank := false }
  else outline.goOn (.fenced fence (⟨(cursor.skip fence.indent).text, ending⟩ :: lines))

def htmlLine (outline : Outline) (blockEnd : HtmlTag.BlockEnd) (lines : List SourceLine)
    (cursor : Cursor) (ending : List Char) : Outline :=
  if blockEnd = .blankLine && cursor.isBlank then { outline.closeLeaf with blank := true }
  else
    let next := outline.goOn (.html blockEnd (⟨cursor.text, ending⟩ :: lines))
    if blockEnd.isOn cursor.text then next.closeLeaf else next

def blankLine (outline : Outline) (cursor : Cursor) (ending : List Char) : Outline :=
  match outline.leaf with
  | .indented lines =>
      let optional := cursor.indent < 4
      { outline with
        leaf := .indented ((⟨(cursor.skip 4).text, ending⟩, optional) :: lines)
        blank := optional }
  | _ => { outline.closeLeaf with blank := true }

def paragraphLine (outline : Outline) (cursor : Cursor) (ending : List Char) : Outline :=
  match outline.leaf with
  | .paragraph lines => outline.goOn (.paragraph (⟨cursor.text, ending⟩ :: lines))
  | _ => outline.openLeaf (.paragraph [⟨cursor.text, ending⟩])

/-- The table whose head is the last line of a paragraph and whose second row is this line. -/
def table? (outline : Outline) (lines : List SourceLine) (cursor : Cursor) : Option Outline :=
  match lines with
  | [] => none
  | head :: before => do
      let headCursor : Cursor := ⟨0, head.text⟩
      let alignment ← if cursor.indent < 4 then TableRow.alignments? cursor.skipAll.text else none
      let cells := TableRow.cells head.text
      if canBeRow headCursor && TableRow.canBeHead head.text &&
          cells.length == alignment.length then
        let above := { outline with leaf := .paragraph before }.closeLeaf
        some (above.goOn (.table alignment [cells]))
      else none

def lineAfterParagraph (outline : Outline) (lines : List SourceLine) (lazy : Bool)
    (cursor : Cursor) (ending : List Char) : Outline :=
  let underlined := if lazy || 4 ≤ cursor.indent then none else underline? cursor.skipAll.text
  match underlined with
  | some depth =>
      let (labels, rest) := dropDefinitions (joinLines lines.reverse)
      if rest.all isSpacing then outline.paragraphLine cursor ending
      else
        { (outline.add (labels.map .definition ++ [.heading depth rest])) with
          leaf := .closed, blank := false }
  | none =>
      match BlockStart.of? true lazy cursor with
      | some start => outline.startBlock cursor ending start
      | none =>
          if lazy then outline.paragraphLine cursor ending
          else (outline.table? lines cursor).getD (outline.paragraphLine cursor ending)

def freshLine (outline : Outline) (cursor : Cursor) (ending : List Char) : Outline :=
  match BlockStart.of? false false cursor with
  | some start => outline.startBlock cursor ending start
  | none => outline.paragraphLine cursor ending

def contentLine (outline : Outline) (cursor : Cursor) (ending : List Char) : Outline :=
  if cursor.isBlank then outline.blankLine cursor ending
  else
    match outline.leaf with
    | .paragraph lines => outline.lineAfterParagraph lines false cursor ending
    | .indented lines =>
        if 4 ≤ cursor.indent then
          outline.goOn (.indented ((⟨(cursor.skip 4).text, ending⟩, false) :: lines))
        else outline.freshLine cursor ending
    | .table alignment rows =>
        match BlockStart.of? false false cursor with
        | some start => outline.startBlock cursor ending start
        | none =>
            if canBeRow cursor then
              outline.goOn (.table alignment (TableRow.cells cursor.text :: rows))
            else outline.paragraphLine cursor ending
    | _ => outline.freshLine cursor ending

def isLazy (outline : Outline) (cursor : Cursor) : Bool :=
  match outline.leaf with
  | .paragraph _ => !cursor.isBlank && (BlockStart.of? true true cursor).isNone
  | _ => false

/-- The containers that a line goes on with, the outermost first, and the rest of the line. -/
def matchFrames (cursor : Cursor) : List Frame → List Frame × Cursor
  | [] => ([], cursor)
  | frame :: rest =>
      match frame.container.continue? cursor with
      | none => ([], cursor)
      | some (container, after) =>
          let (frames, last) := matchFrames after rest
          ({ frame with container := container } :: frames, last)

def lineIn (outline : Outline) (cursor : Cursor) (ending : List Char) (unmatched : Nat) :
    Outline :=
  let interrupting := match outline.leaf with
    | .paragraph _ => unmatched == 0
    | _ => false
  let (containers, rest) := Container.startAll interrupting cursor cursor.text.length
  if containers.isEmpty then
    if unmatched = 0 then outline.contentLine cursor ending
    else if outline.isLazy cursor then outline.paragraphLine cursor ending
    else (outline.close unmatched).contentLine cursor ending
  else
    let opened := containers.foldl openContainer (outline.close unmatched)
    match containers.getLast? with
    | some (.item _ _ _ true) => opened
    | _ => opened.contentLine rest ending

/-- An item with nothing in it is a blank line to the containers that end together with it. -/
def leave (outline : Outline) (unmatched : Nat) : Outline :=
  match outline.frames with
  | ⟨.item _ _ _ true, _⟩ :: _ =>
      if 2 ≤ unmatched then { outline with blank := true } else outline
  | _ => outline

def line (outline : Outline) (source : SourceLine) : Outline :=
  let (frames, cursor) := matchFrames ⟨0, source.text⟩ outline.frames.reverse
  let unmatched := outline.frames.length - frames.length
  let current :=
    { outline with frames := outline.frames.take unmatched ++ frames.reverse }.leave unmatched
  match outline.leaf with
  | .fenced fence lines =>
      if unmatched = 0 then current.fencedLine fence lines cursor source.ending
      else current.lineIn cursor source.ending unmatched
  | .html blockEnd lines =>
      if unmatched = 0 then current.htmlLine blockEnd lines cursor source.ending
      else current.lineIn cursor source.ending unmatched
  | _ => current.lineIn cursor source.ending unmatched

def closeHtml (outline : Outline) : Outline :=
  match outline.leaf with
  | .html (.marks marks) (last :: lines) =>
      { outline with leaf := .html (.marks marks) (⟨last.text ++ last.ending, []⟩ :: lines) }
  | _ => outline

def read (text : List Char) : List Block :=
  let last := (sourceLines text).foldl line {}
  (last.closeHtml.close last.frames.length).blocks.reverse

end Outline

end Tagmark.Markdown
