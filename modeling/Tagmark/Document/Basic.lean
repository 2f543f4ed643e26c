import Tagmark.KeyMap
import Tagmark.Point
import Tagmark.Attribute.Value

/-!
Documents: the text of the frontmatter and a tree of content and tags. `Document.tags` lists the
tags in the order of their openings.
-/

namespace Tagmark

/-- A tag with what it declares. It covers the text from its opening to the end of its closing tag;
a self-closing tag has no body. -/
structure Tag where
  name : String
  attributes : KeyMap Value
  selfClosing : Bool
  span : Span
deriving DecidableEq, Inhabited

inductive Node where
  | content (value : String) (span : Span)
  | block (tag : Tag) (children : List Node)
deriving Inhabited

structure Document where
  frontmatter : Option String := none
  children : List Node := []
deriving Inhabited

mutual

def Node.tags : Node → List Tag
  | .content _ _ => []
  | .block tag children => tag :: Node.tagsOf children

def Node.tagsOf : List Node → List Tag
  | [] => []
  | node :: rest => node.tags ++ Node.tagsOf rest

end

def Document.tags (document : Document) : List Tag :=
  Node.tagsOf document.children

/-! Sameness of trees, for which attributes need only be the same as values. -/

def sameAttributes : List (String × Value) → List (String × Value) → Bool
  | [], [] => true
  | (leftName, leftValue) :: left, (rightName, rightValue) :: right =>
      leftName == rightName && leftValue.same rightValue && sameAttributes left right
  | _, _ => false

def Tag.same (left right : Tag) : Bool :=
  left.name == right.name && sameAttributes left.attributes.entries right.attributes.entries &&
    left.selfClosing == right.selfClosing && left.span == right.span

mutual

def Node.same : Node → Node → Bool
  | .content leftValue leftSpan, .content rightValue rightSpan =>
      leftValue == rightValue && leftSpan == rightSpan
  | .block leftTag left, .block rightTag right => leftTag.same rightTag && Node.sameAll left right
  | _, _ => false

def Node.sameAll : List Node → List Node → Bool
  | [], [] => true
  | left :: lefts, right :: rights => left.same right && Node.sameAll lefts rights
  | _, _ => false

end

end Tagmark
