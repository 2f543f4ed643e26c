/-!
Markdown as a tree of blocks and of the inline nodes in them.
-/

namespace Tagmark.Markdown

inductive Alignment where
  | unset
  | left
  | right
  | center
deriving DecidableEq, Inhabited, Repr

inductive Tree where
  | paragraph (children : List Tree)
  | heading (depth : Nat) (children : List Tree)
  | text (value : String)
  | emphasis (children : List Tree)
  | strong (children : List Tree)
  | delete (children : List Tree)
  | inlineCode (value : String)
  | code (language : Option String) (value : String)
  | quote (children : List Tree)
  /-- A list is ordered if it has a start. It is spread if a blank line stands between items. -/
  | list (start : Option Nat) (spread : Bool) (items : List Tree)
  /-- An item is spread if a blank line stands between its children. -/
  | item (checked : Option Bool) (spread : Bool) (children : List Tree)
  | link (url : String) (title : Option String) (children : List Tree)
  | image (url alt : String) (title : Option String)
  | lineBreak
  | rule
  | table (alignment : List Alignment) (rows : List Tree)
  | row (cells : List Tree)
  | cell (children : List Tree)
  | html (value : String)
  | definition
  | reference (children : List Tree)
  | footnote (children : List Tree)
  | leaf (value : String)
deriving Inhabited

namespace Tree

mutual

def plainText : Tree → String
  | .text value | .inlineCode value | .code _ value | .html value | .leaf value => value
  | .paragraph children | .heading _ children | .emphasis children | .strong children
  | .delete children | .quote children | .item _ _ children | .link _ _ children
  | .cell children | .reference children | .footnote children => plainTextOf children
  | .list _ _ items => plainTextOf items
  | .table _ rows => plainTextOf rows
  | .row cells => plainTextOf cells
  | .image _ _ _ | .lineBreak | .rule | .definition => ""

def plainTextOf : List Tree → String
  | [] => ""
  | node :: rest => node.plainText ++ plainTextOf rest

end

end Tree

end Tagmark.Markdown
