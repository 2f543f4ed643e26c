import Tagmark.Html.Tree
import Tagmark.Text.Blank
import Tagmark.Text.Split

/-!
Columns of a data source. Each line of text describes one column by fields between delimiters; a
line without a name, a type and a path is skipped.
-/

namespace Tagmark

structure Column where
  name : String
  type : String
  path : String
  description : String
deriving DecidableEq, Inhabited, Repr

namespace Column

/-- The fields of a line, trimmed. -/
def fields (delimiter line : List Char) : List (List Char) :=
  (Text.splitOn delimiter (Text.trim line)).map Text.trim

/-- The column of fields, of which the first three must not be empty. -/
def ofFields? (fields : List (List Char)) : Option Column :=
  match fields with
  | name :: type :: path :: rest =>
      if name = [] ∨ type = [] ∨ path = [] then none
      else
        some
          { name := String.ofList name
            type := String.ofList type
            path := String.ofList path
            description := String.ofList (rest.headD []) }
  | _ => none

def ofLine? (delimiter line : List Char) : Option Column :=
  if Text.isBlankText line then none else ofFields? (fields delimiter line)

def rows (delimiter : List Char) (texts : List (List Char)) :
    List (List Char × Option Column) :=
  ((texts.flatMap Text.lines).filter fun line => !Text.isBlankText line).map
    fun line => (line, ofLine? delimiter line)

def extract (delimiter : List Char) (texts : List (List Char)) : List Column :=
  (rows delimiter texts).filterMap (·.2)

def skipped (delimiter : List Char) (texts : List (List Char)) : List (List Char) :=
  ((rows delimiter texts).filter (·.2.isNone)).map fun row => Text.trim row.1

def row (column : Column) : Html :=
  .make "tr" []
    [.labelled "td" column.name, .labelled "td" column.type, .labelled "td" column.path,
      .labelled "td" column.description]

def header : Html :=
  .make "tr" [] (["Name", "Type", "Path", "Description"].map (Html.labelled "th"))

def table (columns : List Column) : Html :=
  .make "table" [("class", "datasource-table")]
    [.make "thead" [] [header], .make "tbody" [] (columns.map row)]

end Column

end Tagmark
