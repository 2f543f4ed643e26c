import Tagmark.Html.Tree
import Tagmark.Markdown.Tree

/-!
The HTML of Markdown. HTML in Markdown becomes text, so that no element stands in the result that
is not made here. Paragraphs of a list without blank lines between its items are unwrapped.
-/

namespace Tagmark.Markdown

def Alignment.attributes : Alignment → List (String × String)
  | .unset => []
  | .left => [("align", "left")]
  | .right => [("align", "right")]
  | .center => [("align", "center")]

namespace Tree

def checkbox (checked : Bool) : Html :=
  .make "input"
    ([("type", "checkbox"), ("disabled", "")] ++ if checked then [("checked", "")] else []) []

def codeBlock (language : Option String) (value : String) : Html :=
  let attributes := match language with
    | some language => [("class", "language-" ++ language)]
    | none => []
  .make "pre" [] [.make "code" attributes [.text value]]

def titleAttribute : Option String → List (String × String)
  | some title => [("title", title)]
  | none => []

def listElement (start : Option Nat) (items : List Html) : Html :=
  match start with
  | none => .make "ul" [] items
  | some 1 => .make "ol" [] items
  | some start => .make "ol" [("start", toString start)] items

def tableElement (rows : List Html) : Html :=
  match rows with
  | [] => .make "table" [] []
  | [head] => .make "table" [] [.make "thead" [] [head]]
  | head :: body => .make "table" [] [.make "thead" [] [head], .make "tbody" [] body]

mutual

def toHtml (tight : Bool) : Tree → List Html
  | .paragraph children =>
      let inner := allToHtml false children
      if tight then inner else [.make "p" [] inner]
  | .heading depth children => [.make ("h" ++ toString depth) [] (allToHtml false children)]
  | .text value => [.text value]
  | .emphasis children => [.make "em" [] (allToHtml false children)]
  | .strong children => [.make "strong" [] (allToHtml false children)]
  | .delete children => [.make "del" [] (allToHtml false children)]
  | .inlineCode value => [.labelled "code" value]
  | .code language value => [codeBlock language value]
  | .quote children => [.make "blockquote" [] (allToHtml false children)]
  | .list start spread items => [listElement start (itemsToHtml (!spread) items)]
  | .item _ _ children => allToHtml tight children
  | .link url title children =>
      [.make "a" (("href", url) :: titleAttribute title) (allToHtml false children)]
  | .image url alt title => [.make "img" ([("src", url), ("alt", alt)] ++ titleAttribute title) []]
  | .lineBreak => [.make "br" [] []]
  | .rule => [.make "hr" [] []]
  | .table alignment rows => [tableElement (rowsToHtml "th" alignment rows)]
  | .row cells => allToHtml tight cells
  | .cell children => allToHtml tight children
  | .html value => [.text value]
  | .definition => []
  | .reference children => allToHtml tight children
  | .footnote children => allToHtml tight children
  | .leaf value => [.text value]

def allToHtml (tight : Bool) : List Tree → List Html
  | [] => []
  | node :: rest => node.toHtml tight ++ allToHtml tight rest

def itemsToHtml (tight : Bool) : List Tree → List Html
  | [] => []
  | .item checked _ children :: rest =>
      .make "li" [] (checked.toList.map checkbox ++ allToHtml tight children) ::
        itemsToHtml tight rest
  | node :: rest => node.toHtml tight ++ itemsToHtml tight rest

/-- The rows of a table, the first of them with cells of another name than those after it. -/
def rowsToHtml (cellName : String) (alignment : List Alignment) : List Tree → List Html
  | [] => []
  | .row cells :: rest =>
      .make "tr" [] (cellsToHtml cellName alignment cells) :: rowsToHtml "td" alignment rest
  | _ :: rest => .make "tr" [] [] :: rowsToHtml "td" alignment rest

def cellsToHtml (cellName : String) (alignment : List Alignment) : List Tree → List Html
  | [] => []
  | .cell children :: rest =>
      .make cellName (alignment.headD .unset).attributes (allToHtml false children) ::
        cellsToHtml cellName alignment.tail rest
  | _ :: rest =>
      .make cellName (alignment.headD .unset).attributes [] ::
        cellsToHtml cellName alignment.tail rest

end

end Tree

end Tagmark.Markdown
