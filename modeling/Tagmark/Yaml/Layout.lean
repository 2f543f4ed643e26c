import Tagmark.Yaml.Token

/-!
The tokens of a YAML stream. In block context columns take the place of brackets: a construct opens
a block where it stands deeper than the block around it, and a line that starts further to the left
closes blocks. Whether a node is a key is known only at the colon after it, so each possible key
remembers its place among the tokens, and its mark is put in there.
-/

namespace Tagmark.Yaml

structure PossibleKey where
  /-- Whether the node can only be a key, as it stands where a block mapping has its keys. -/
  required : Bool
  number : Nat
  start : Cursor
deriving DecidableEq, Inhabited, Repr

structure Layout where
  cursor : Cursor
  tokens : List Token
  indents : List Nat
  keyAllowed : Bool
  key : Option PossibleKey
  /-- The possible keys around the open brackets, the innermost first. -/
  outerKeys : List (Option PossibleKey)
deriving DecidableEq, Inhabited, Repr

namespace Layout

def ofText (text : List Char) : Layout :=
  ⟨{ rest := text }, [], [], true, none, []⟩

def inFlow (layout : Layout) : Bool :=
  !layout.outerKeys.isEmpty

def scalarIndent (layout : Layout) : Nat :=
  match layout.indents with
  | [] => 0
  | indent :: _ => indent + 1

def put (layout : Layout) (token : Token) (after : Cursor) : Layout :=
  { layout with tokens := token :: layout.tokens, cursor := after }

def putAt (layout : Layout) (number : Nat) (token : Token) : Layout :=
  { layout with tokens := layout.tokens.insertIdx (layout.tokens.length - number) token }

def allowKey (layout : Layout) (allowed : Bool) : Layout :=
  { layout with keyAllowed := allowed }

def openBlock (layout : Layout) (column number : Nat) (token : Token) : Layout :=
  if layout.inFlow || !layout.indents.head?.all (· < column) then layout
  else { layout.putAt number token with indents := column :: layout.indents }

def closeBlocks (layout : Layout) (isInside : Nat → Bool) : Layout :=
  if layout.inFlow then layout
  else
    let closed := layout.indents.takeWhile fun indent => !isInside indent
    { layout with
      tokens := List.replicate closed.length .blockEnd ++ layout.tokens
      indents := layout.indents.drop closed.length }

def dropKey? (layout : Layout) : Option Layout :=
  if layout.key.any (·.required) then none else some { layout with key := none }

def noteKey? (layout : Layout) : Option Layout :=
  if layout.keyAllowed then
    let required := !layout.inFlow && layout.indents.head? == some layout.cursor.column
    (layout.dropKey?).map fun layout =>
      { layout with key := some ⟨required, layout.tokens.length, layout.cursor⟩ }
  else some layout

def isStale (place : Cursor) (key : PossibleKey) : Bool :=
  key.start.line < place.line || key.start.offset + 1024 < place.offset

def dropStaleKeys? (layout : Layout) : Option Layout :=
  let stale := isStale layout.cursor
  if (layout.key :: layout.outerKeys).any fun key => key.any fun key => key.required && stale key then
    none
  else
    let fresh := Option.filter fun key => !stale key
    some { layout with key := fresh layout.key, outerKeys := layout.outerKeys.map fresh }

/-- Skips white space, comments and line ends. Tabs do not indent a line on which a key may
start. -/
def skipGaps (layout : Layout) : Nat → Layout
  | 0 => layout
  | fuel + 1 =>
      let isGap := fun (c : Char) =>
        c == ' ' || ((layout.inFlow || !layout.keyAllowed) && c == '\t')
      let blank := layout.cursor.skipWhile isGap
      let atEnd := if blank.rest.head? == some '#' then blank.skipWhile fun c => !isBreak c
        else blank
      if atEnd.rest.head?.any isBreak then
        skipGaps
          { layout with cursor := atEnd.next, keyAllowed := layout.keyAllowed || !layout.inFlow } fuel
      else { layout with cursor := atEnd }

def openFlow? (layout : Layout) (token : Token) : Option Layout :=
  (layout.noteKey?).map fun layout =>
    { (layout.put token (layout.cursor.skip 1)).allowKey true with
      key := none
      outerKeys := layout.key :: layout.outerKeys }

def closeFlow? (layout : Layout) (token : Token) : Option Layout :=
  (layout.dropKey?).map fun layout =>
    let layout := (layout.put token (layout.cursor.skip 1)).allowKey false
    match layout.outerKeys with
    | [] => layout
    | key :: keys => { layout with key := key, outerKeys := keys }

def blockEntry? (layout : Layout) : Option Layout :=
  if !layout.inFlow && !layout.keyAllowed then none
  else
    let opened := layout.openBlock layout.cursor.column layout.tokens.length .blockSequence
    (opened.dropKey?).map fun layout =>
      (layout.put .blockEntry (layout.cursor.skip 1)).allowKey true

def explicitKey? (layout : Layout) : Option Layout :=
  if !layout.inFlow && !layout.keyAllowed then none
  else
    let opened := layout.openBlock layout.cursor.column layout.tokens.length .blockMapping
    (opened.dropKey?).map fun layout =>
      (layout.put .key (layout.cursor.skip 1)).allowKey (!layout.inFlow)

def mappingValue? (layout : Layout) : Option Layout :=
  match layout.key with
  | some key =>
      let marked := layout.putAt key.number .key
      let opened := marked.openBlock key.start.column key.number .blockMapping
      some { (opened.put .value (layout.cursor.skip 1)).allowKey false with key := none }
  | none =>
      if !layout.inFlow && !layout.keyAllowed then none
      else
        let opened := layout.openBlock layout.cursor.column layout.tokens.length .blockMapping
        some ((opened.put .value (layout.cursor.skip 1)).allowKey (!layout.inFlow))

def betweenDocuments? (layout : Layout) (token : Token) (after : Cursor) : Option Layout :=
  ((layout.closeBlocks fun _ => false).dropKey?).map fun layout =>
    (layout.put token after).allowKey false

def node? (layout : Layout) (scanned : Option (Token × Cursor)) : Option Layout := do
  let layout ← layout.noteKey?
  let (token, after) ← scanned
  some ((layout.put token after).allowKey false)

def plainScalar? (layout : Layout) : Option Layout := do
  let noted ← layout.noteKey?
  let scanned ← scanPlain layout.inFlow layout.scalarIndent layout.cursor ⟨[], false, false⟩
    (layout.cursor.rest.length + 1)
  some ((noted.put (.scalar scanned.text true) scanned.after).allowKey scanned.broken)

def blockScalar? (layout : Layout) (literal : Bool) : Option Layout := do
  let layout ← layout.dropKey?
  let (text, after) ← scanBlock? literal layout.indents.head? (layout.cursor.skip 1)
  some ((layout.put (.scalar text false) after).allowKey true)

def isIndicator (c : Char) : Bool :=
  isFlowMark c ||
    ['-', '?', ':', '#', '&', '*', '!', '|', '>', '\'', '"', '%', '@', '\u0060'].contains c

def advance? (layout : Layout) (c : Char) : Option Layout :=
  let cursor := layout.cursor
  let spaced := cursor.endsAt 1
  let next := cursor.skip 1
  if cursor.column = 0 && c = '%' then do
    let (token, after) ← scanDirective? next
    layout.betweenDocuments? token after
  else if cursor.atDocumentMark then
    layout.betweenDocuments? (if c = '-' then .documentStart else .documentEnd) (cursor.skip 3)
  else if c = '[' then layout.openFlow? .flowSequence
  else if c.toNat = 0x7B then layout.openFlow? .flowMapping
  else if c = ']' then layout.closeFlow? .flowSequenceEnd
  else if c.toNat = 0x7D then layout.closeFlow? .flowMappingEnd
  else if c = ',' then
    (layout.dropKey?).map fun layout => (layout.put .flowEntry next).allowKey true
  else if c = '-' && spaced then layout.blockEntry?
  else if c = '?' && (layout.inFlow || spaced) then layout.explicitKey?
  else if c = ':' && (layout.inFlow || spaced) then layout.mappingValue?
  else if c = '*' then
    layout.node? ((scanAnchor? next).map fun (name, after) => (.alias name, after))
  else if c = '&' then
    layout.node? ((scanAnchor? next).map fun (name, after) => (.anchor name, after))
  else if c = '!' then layout.node? (scanTag? layout.inFlow cursor)
  else if c = '|' && !layout.inFlow then layout.blockScalar? true
  else if c = '>' && !layout.inFlow then layout.blockScalar? false
  else if c = '\'' || c = '"' then
    layout.node? ((scanQuoted (c == '"') next (cursor.rest.length + 1)).map
      fun (text, after) => (.scalar text false, after))
  else if !isIndicator c && !isBlank c || c = '-' || (!layout.inFlow && (c = '?' || c = ':')) then
    layout.plainScalar?
  else none

def finish? (layout : Layout) : Nat → Option Layout
  | 0 => none
  | fuel + 1 => do
      let layout ← (layout.skipGaps (layout.cursor.rest.length + 1)).dropStaleKeys?
      match layout.cursor.rest with
      | [] => (layout.closeBlocks fun _ => false).dropKey?
      | c :: _ => do
          let layout ← (layout.closeBlocks (· ≤ layout.cursor.column)).advance? c
          layout.finish? fuel

end Layout

def isAllowed (c : Char) : Bool :=
  let n := c.toNat
  n == 0x09 || n == 0x0A || n == 0x0D || (0x20 ≤ n && n ≤ 0x7E) || n == 0x85 ||
    (0xA0 ≤ n && n ≤ 0xFFFD && n != 0xFEFF) || 0x10000 ≤ n

def tokens? (text : List Char) : Option (List Token) :=
  let text := if text.head? = some '\uFEFF' then text.tail else text
  if text.all isAllowed then
    ((Layout.ofText text).finish? (text.length + 2)).map (·.tokens.reverse)
  else none

end Tagmark.Yaml
