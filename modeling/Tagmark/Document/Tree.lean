import Tagmark.Document.Scan

/-!
The tree of a document. The items of its body become marks, brackets and leaves, and the brackets
must match: a closing tag closes the innermost open one.
-/

namespace Tagmark

/-- An item of a body with its meaning. -/
inductive Mark where
  | content (value : String) (span : Span)
  | leaf (tag : Tag)
  | opening (name : String) (attributes : KeyMap Value) (start : Point)
  | closing (name : String) (span : Span)
  | fault (fault : Fault)

namespace Mark

/-- Joins each run of content into one item. -/
def joinContent : List Item → List Item
  | [] => []
  | .content line :: rest =>
      match joinContent rest with
      | .content next :: after => .content (line.append next) :: after
      | after => .content line :: after
  | item :: rest => item :: joinContent rest

/-- The meaning of an item, or none for blank content. A line end at the end of content is left
out. -/
def ofItem? : Item → Option Mark
  | .content line =>
      let value := Text.dropLineEnd line.text
      if Text.isBlankText line.text then none
      else some (.content (String.ofList value) (.covering line.start value))
  | .tag group =>
      match group.header with
      | .error reason => some (.fault reason)
      | .ok (.opening name attributes true) => some (.leaf ⟨name, attributes, true, group.span⟩)
      | .ok (.opening name attributes false) =>
          some (.opening name attributes group.span.start)
      | .ok (.closing name) => some (.closing name group.span)
  | .fault reason => some (.fault reason)

def ofItems (items : List Item) : List Mark :=
  (joinContent items).filterMap ofItem?

end Mark

/-- An open tag and the nodes before it in the enclosing one, the last of them first. -/
structure OpenTag where
  name : String
  attributes : KeyMap Value
  start : Point
  before : List Node

/-- The fault of a body that ends inside a tag. -/
def unclosed (fence : Option Fence) (innermost : OpenTag) : Fault :=
  match fence with
  | some fence => .unclosedFence innermost.name fence.start
  | none => .unclosedTag innermost.name innermost.start

/-- Builds the tree of marks, with the open tags around them, the innermost first, and the nodes
already in it, the last of them first. -/
def assemble (fence : Option Fence) (stack : List OpenTag) (nodes : List Node) :
    List Mark → Except Fault (List Node)
  | [] =>
      match stack with
      | [] => .ok nodes.reverse
      | innermost :: _ => .error (unclosed fence innermost)
  | .content value span :: rest => assemble fence stack (.content value span :: nodes) rest
  | .leaf tag :: rest => assemble fence stack (.block tag [] :: nodes) rest
  | .opening name attributes start :: rest =>
      assemble fence (⟨name, attributes, start, nodes⟩ :: stack) [] rest
  | .closing name span :: rest =>
      match stack with
      | [] => .error (.unexpectedClosing name span.start)
      | innermost :: outer =>
          if innermost.name = name then
            let tag : Tag := ⟨name, innermost.attributes, false, ⟨innermost.start, span.stop⟩⟩
            assemble fence outer (.block tag nodes.reverse :: innermost.before) rest
          else .error (.unexpectedClosing name span.start)
  | .fault fault :: _ => .error fault

def Node.ofLines (lines : List Line) : Except Fault (List Node) :=
  let scan := Scan.ofLines lines
  assemble scan.fence [] [] (Mark.ofItems scan.items)

namespace Document

def cutFrontmatter (lines : List Line) : Except Fault (Option String × List Line) :=
  match lines with
  | [] => .ok (none, [])
  | first :: rest =>
      if first.isFrontmatterFence then
        match Line.cutAtFence? rest with
        | none => .error .unterminatedFrontmatter
        | some (raw, body) =>
            let text := Text.dropLineEnd (raw.map (·.text)).flatten
            .ok (some (String.ofList text), body)
      else .ok (none, lines)

def parse (text : String) : Except Fault Document := do
  let (frontmatter, body) ← cutFrontmatter (Line.ofText text.toList)
  return ⟨frontmatter, ← Node.ofLines body⟩

end Document

end Tagmark
