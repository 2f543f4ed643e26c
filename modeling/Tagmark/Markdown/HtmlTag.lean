import Tagmark.Text.Split

/-!
Tags, comments, instructions and declarations of HTML inside Markdown. The functions tell where one
ends, as the text after it.
-/

namespace Tagmark.Markdown.HtmlTag

def isNamePart (c : Char) : Bool :=
  c.isAlphanum || c == '-'

def isAttributeStart (c : Char) : Bool :=
  c.isAlpha || c == '_' || c == ':'

def isAttributePart (c : Char) : Bool :=
  c.isAlphanum || c == '_' || c == ':' || c == '.' || c == '-'

def isSpace (c : Char) : Bool :=
  c == ' ' || c == '\t' || c == '\n' || c == '\r'

/-- Where in an opening tag, after its name, a character stands. -/
inductive Place where
  | between
  | attributeName
  | afterName
  | beforeValue
  | bareValue
  | quoted (mark : Char)
  | afterQuoted
  | afterSlash
deriving DecidableEq, Inhabited, Repr

def betweenNext? (c : Char) : Option Place :=
  if isSpace c then some .between
  else if c = '/' then some .afterSlash
  else if isAttributeStart c then some .attributeName
  else none

def next? (place : Place) (c : Char) : Option Place :=
  match place with
  | .between => betweenNext? c
  | .attributeName =>
      if isAttributePart c then some .attributeName
      else if isSpace c then some .afterName
      else if c = '=' then some .beforeValue
      else betweenNext? c
  | .afterName =>
      if isSpace c then some .afterName else if c = '=' then some .beforeValue else betweenNext? c
  | .beforeValue =>
      if isSpace c then some .beforeValue
      else if c = '"' ∨ c = '\'' then some (.quoted c)
      else if c ∈ ['<', '=', '>', '`'] then none
      else some .bareValue
  | .bareValue =>
      if c ∈ ['"', '\'', '<', '=', '`'] then none
      else if isSpace c ∨ c = '/' then betweenNext? c
      else some .bareValue
  | .quoted mark => if c = mark then some .afterQuoted else some (.quoted mark)
  | .afterQuoted => if isSpace c ∨ c = '/' then betweenNext? c else none
  | .afterSlash => none

def mayEnd (place : Place) : Bool :=
  match place with
  | .beforeValue | .quoted _ => false
  | _ => true

def afterOpening? (place : Place) : List Char → Option (List Char)
  | [] => none
  | c :: rest =>
      if c = '>' ∧ mayEnd place then some rest
      else
        match next? place c with
        | none => none
        | some place => afterOpening? place rest

def afterTag? (text : List Char) : Option (List Char) :=
  match text with
  | '/' :: c :: rest =>
      if c.isAlpha then
        match (rest.dropWhile isNamePart).dropWhile isSpace with
        | '>' :: after => some after
        | _ => none
      else none
  | c :: rest =>
      if c.isAlpha then
        match rest.dropWhile isNamePart with
        | [] => none
        | d :: more =>
            if isSpace d ∨ d = '/' ∨ d = '>' then afterOpening? .between (d :: more) else none
      else none
  | [] => none

def after? (mark text : List Char) : Option (List Char) :=
  (Text.cut? mark text).map (·.2)

/-- The text after any HTML in a line of text, given the text after its opening bracket. -/
def afterInline? (text : List Char) : Option (List Char) :=
  match text with
  | '!' :: '-' :: '-' :: rest => after? ['-', '-', '>'] ('-' :: '-' :: rest)
  | '!' :: '[' :: 'C' :: 'D' :: 'A' :: 'T' :: 'A' :: '[' :: rest => after? [']', ']', '>'] rest
  | '!' :: c :: rest => if c.isAlpha then after? ['>'] rest else none
  | '?' :: rest => after? ['?', '>'] rest
  | _ => afterTag? text

/-- What ends a block of HTML. -/
inductive BlockEnd where
  | marks (texts : List (List Char))
  | blankLine
deriving DecidableEq, Inhabited, Repr

def rawNames : List String :=
  ["pre", "script", "style", "textarea"]

def blockNames : List String :=
  ["address", "article", "aside", "base", "basefont", "blockquote", "body", "caption", "center",
    "col", "colgroup", "dd", "details", "dialog", "dir", "div", "dl", "dt", "fieldset",
    "figcaption", "figure", "footer", "form", "frame", "frameset", "h1", "h2", "h3", "h4", "h5",
    "h6", "head", "header", "hr", "html", "iframe", "legend", "li", "link", "main", "menu",
    "menuitem", "nav", "noframes", "ol", "optgroup", "option", "p", "param", "search", "section",
    "summary", "table", "tbody", "td", "tfoot", "th", "thead", "title", "tr", "track", "ul"]

def lower (text : List Char) : List Char :=
  text.map Char.toLower

/-- The end of a block that starts with a tag of a name; `closing` says whether it is a closing
tag. A tag of any other name must fill the line, and must not follow on a paragraph. -/
def namedBlockEnd? (interrupting closing : Bool) (name after whole : List Char) :
    Option BlockEnd :=
  let known := String.ofList (lower name)
  let bounded := match after with
    | [] => true
    | c :: _ => isSpace c || c == '/' || c == '>'
  let isSlash := after.head? == some '/'
  if !bounded then none
  else if !closing && !isSlash && rawNames.contains known then
    some (.marks (rawNames.map fun name => ['<', '/'] ++ name.toList ++ ['>']))
  else if blockNames.contains known then
    if isSlash && after.tail.head? != some '>' then none else some .blankLine
  else if interrupting then none
  else
    match afterTag? whole with
    | some rest => if rest.all isSpace then some .blankLine else none
    | none => none

/-- What ends the block of HTML that a line starts, given the text after its opening bracket. -/
def blockEnd? (interrupting : Bool) (text : List Char) : Option BlockEnd :=
  match text with
  | '!' :: '-' :: '-' :: _ => some (.marks [['-', '-', '>']])
  | '!' :: '[' :: 'C' :: 'D' :: 'A' :: 'T' :: 'A' :: '[' :: _ => some (.marks [[']', ']', '>']])
  | '!' :: c :: _ => if c.isAlpha then some (.marks [['>']]) else none
  | '?' :: _ => some (.marks [['?', '>']])
  | '/' :: c :: rest =>
      if c.isAlpha then
        namedBlockEnd? interrupting true (c :: rest.takeWhile isNamePart)
          (rest.dropWhile isNamePart) text
      else none
  | c :: rest =>
      if c.isAlpha then
        namedBlockEnd? interrupting false (c :: rest.takeWhile isNamePart)
          (rest.dropWhile isNamePart) text
      else none
  | [] => none

def BlockEnd.isOn (blockEnd : BlockEnd) (line : List Char) : Bool :=
  match blockEnd with
  | .marks texts => texts.any fun mark => Text.contains mark (lower line)
  | .blankLine => false

end Tagmark.Markdown.HtmlTag
