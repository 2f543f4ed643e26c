import Tagmark.Attribute.Schema
import Tagmark.Columns
import Tagmark.Logged

/-!
What a tag means: the attributes it understands, how its body is read, and the element it becomes.
-/

namespace Tagmark

/-- How the content of a tag's body is read. -/
inductive BodyMode where
  | markdown
  | raw
deriving DecidableEq, Inhabited, Repr

def BodyMode.name : BodyMode → String
  | .markdown => "markdown"
  | .raw => "raw"

structure Definition where
  schema : Schema := ∅
  body : BodyMode := .markdown
  /-- The element of a tag with the given attributes and children. -/
  build : Bound → List Html → Logged Html

namespace Definition

def element (name : String) (schema : Schema) (body : BodyMode) : Definition where
  schema := schema
  body := body
  build bound children := .pure (.element name bound.printed children)

def isLineEnd (c : Char) : Bool :=
  c == '\n' || c == '\r'

def sql (children : List Html) : List Char :=
  Text.trimMatches isLineEnd (String.join (children.map Html.textContent)).toList

def queryCode (children : List Html) : Html :=
  let sql := sql children
  .make "code" [("class", "language-sql")]
    (if sql = [] then [] else [.text (String.ofList sql)])

def query : Definition where
  schema := .ofList [("name", { type := .string, required := true })]
  body := .raw
  build bound children := do
    let name ← .ofExcept (bound.requireText "name")
    let attributes := (KeyMap.ofList [("name", name)]).insertAll bound.printedExtra.entries
    .pure (.element "pre" attributes [queryCode children])

def delimiterOf (bound : Bound) : Except Fault String := do
  let delimiter ← bound.requireText "delimiter"
  if delimiter = "" then .error (.emptyDelimiter bound.tag) else .ok delimiter

def datasource : Definition where
  schema := .ofList
    [("name", { type := .string, required := true }),
      ("delimiter", { type := .string, default := some (.string "|") })]
  body := .raw
  build bound children := do
    let delimiter ← .ofExcept (delimiterOf bound)
    let name ← .ofExcept (bound.requireText "name")
    let texts := (Html.textsOf children).map String.toList
    .noteAll ((Column.skipped delimiter.toList texts).map fun row =>
      .skippedRow (String.ofList row) delimiter)
    let attributes := (KeyMap.ofList
      [("class", "datasource-container"), ("name", name), ("delimiter", delimiter)]).insertAll
        bound.printedExtra.entries
    .pure (.element "div" attributes [Column.table (Column.extract delimiter.toList texts)])

end Definition

end Tagmark
