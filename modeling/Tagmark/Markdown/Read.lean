import Tagmark.Markdown.Inline
import Tagmark.Markdown.Outline

/-!
Markdown text as a tree. The blocks are found first, as the labels they define decide which brackets
in them are links; items that follow on each other become a list.
-/

namespace Tagmark.Markdown

mutual

def Block.definitions : Block → Definitions
  | .definition label => ⟨[label], []⟩
  | .quote children => definitionsOf children
  | .item _ _ children => definitionsOf children
  | .footnote label children =>
      let inner := definitionsOf children
      ⟨inner.links, label :: inner.footnotes⟩
  | _ => {}

def definitionsOf : List Block → Definitions
  | [] => {}
  | block :: rest =>
      let first := block.definitions
      let others := definitionsOf rest
      ⟨first.links ++ others.links, first.footnotes ++ others.footnotes⟩

end

/-- A node, an item that belongs to a list, or the blank line between two of them. -/
inductive Part where
  | node (tree : Tree)
  | item (marker : Char) (number : Option Nat) (tree : Tree)
  | blank
deriving Inhabited

/-- The items at the front of parts that belong to a list of a marker, whether a blank line stands
before one of them, and the parts after them. -/
def takeItems (marker : Char) (ordered : Bool) : List Part → List Tree × Bool × List Part
  | [] => ([], false, [])
  | .blank :: .item other number tree :: rest =>
      if other = marker ∧ number.isSome = ordered then
        let (items, _, after) := takeItems marker ordered rest
        (tree :: items, true, after)
      else ([], false, .blank :: .item other number tree :: rest)
  | .item other number tree :: rest =>
      if other = marker ∧ number.isSome = ordered then
        let (items, spread, after) := takeItems marker ordered rest
        (tree :: items, spread, after)
      else ([], false, .item other number tree :: rest)
  | part :: rest => ([], false, part :: rest)

theorem length_takeItems_le (marker : Char) (ordered : Bool) (parts : List Part) :
    (takeItems marker ordered parts).2.2.length ≤ parts.length := by
  fun_induction takeItems marker ordered parts <;> simp_all <;> omega

def joinItems (parts : List Part) : List Part :=
  match parts with
  | [] => []
  | .item marker number tree :: rest =>
      let found := takeItems marker number.isSome rest
      .node (.list number found.2.1 (tree :: found.1)) :: joinItems found.2.2
  | part :: rest => part :: joinItems rest
termination_by parts.length
decreasing_by
  · exact Nat.lt_succ_of_le (length_takeItems_le marker number.isSome rest)
  · simp

def Part.tree? : Part → Option Tree
  | .node tree => some tree
  | _ => none

def Part.isBlank : Part → Bool
  | .blank => true
  | _ => false

def trees (parts : List Part) : List Tree × Bool :=
  let joined := joinItems parts
  (joined.filterMap Part.tree?, joined.any Part.isBlank)

def task? (source : List Char) : Option (Bool × List Char) :=
  match source.dropWhile isSpaceOrTab with
  | '[' :: c :: ']' :: rest =>
      let checked := c == 'x' || c == 'X'
      let ending := lineEndLength rest
      if !checked && !isSpacing c then none
      else if 0 < ending then some (checked, rest.drop ending)
      else if rest.head?.any isSpaceOrTab && !rest.all isSpaceOrTab then
        some (checked, rest.tail)
      else none
  | _ => none

def language? (info : List Char) : Option String :=
  if info = [] then none else some (decoded info)

def tableTree (definitions : Definitions) (alignment : List Alignment)
    (rows : List (List (List Char))) : Tree :=
  .table alignment (rows.map fun cells =>
    .row (cells.map fun cell => .cell (inline definitions true cell)))

mutual

def Block.part (definitions : Definitions) : Block → Part
  | .paragraph source => .node (.paragraph (inline definitions false source))
  | .heading depth source => .node (.heading depth (inline definitions false source))
  | .code info value => .node (.code (language? info) (String.ofList value))
  | .html value => .node (.html (String.ofList value))
  | .rule => .node .rule
  | .table alignment rows => .node (tableTree definitions alignment rows)
  | .definition _ => .node .definition
  | .quote children => .node (.quote (trees (partsOf definitions children)).1)
  | .item marker number children =>
      let (checked, parts) := itemParts definitions children
      let (nodes, spread) := trees parts
      .item marker number (.item checked spread nodes)
  | .footnote _ children => .node (.footnote (trees (partsOf definitions children)).1)
  | .blank => .blank

def partsOf (definitions : Definitions) : List Block → List Part
  | [] => []
  | block :: rest => block.part definitions :: partsOf definitions rest

/-- The parts of an item, and the mark of its task if its first paragraph starts with one. -/
def itemParts (definitions : Definitions) : List Block → Option Bool × List Part
  | [] => (none, [])
  | .paragraph source :: rest =>
      let others := partsOf definitions rest
      match task? source with
      | some (checked, text) =>
          (some checked, .node (.paragraph (inline definitions false text)) :: others)
      | none => (none, .node (.paragraph (inline definitions false source)) :: others)
  | block :: rest => (none, block.part definitions :: partsOf definitions rest)

end

def read (text : String) : List Tree :=
  let blocks := Outline.read (match text.toList with
    | '\uFEFF' :: rest => rest
    | chars => chars)
  (trees (partsOf (definitionsOf blocks) blocks)).1

end Tagmark.Markdown
