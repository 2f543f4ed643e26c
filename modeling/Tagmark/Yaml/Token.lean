import Tagmark.Yaml.Scalar

/-!
Tokens of YAML, and those that stand by themselves: directives, anchors and tags.
-/

namespace Tagmark.Yaml

inductive Token where
  | documentStart
  | documentEnd
  | version (major minor : Nat)
  | handle (name expansion : List Char)
  | blockSequence
  | blockMapping
  | blockEnd
  | flowSequence
  | flowSequenceEnd
  | flowMapping
  | flowMappingEnd
  | blockEntry
  | flowEntry
  | key
  | value
  | alias (name : List Char)
  | anchor (name : List Char)
  /-- A tag by its handle, which is empty for a tag that is written out. -/
  | tag (handle suffix : List Char)
  | scalar (text : List Char) (plain : Bool)
deriving DecidableEq, Inhabited, Repr

def isNameChar (c : Char) : Bool :=
  c.isAlphanum || c == '_' || c == '-'

def endsAnchor (c : Char) : Bool :=
  isBlank c || isBreak c || c.toNat == 0x7D || ['?', ':', ',', ']', '%', '@', '\u0060'].contains c

def scanAnchor? (cursor : Cursor) : Option (List Char × Cursor) :=
  let name := cursor.rest.takeWhile isNameChar
  let after := cursor.skip name.length
  if name = [] || !after.rest.head?.all endsAnchor then none else some (name, after)

def isTagChar (c : Char) : Bool :=
  isNameChar c ||
    [';', '/', '?', ':', '@', '&', '=', '+', '$', '.', '%', '!', '~', '*', '\'', '(', ')'].contains c

def isLongTagChar (c : Char) : Bool :=
  isTagChar c || [',', '[', ']'].contains c

def octetsAfter? (octet : Nat) : Option Nat :=
  if octet < 0x80 then some 0
  else if 0xC0 ≤ octet && octet < 0xE0 then some 1
  else if 0xE0 ≤ octet && octet < 0xF0 then some 2
  else if 0xF0 ≤ octet && octet < 0xF8 then some 3
  else none

/-- Resolves the escapes of a tag. An octet is kept as the character of its number, `pending` more
have to follow. -/
def resolveOctets? : Nat → List Char → Option (List Char)
  | 0, [] => some []
  | _ + 1, [] => none
  | pending, '%' :: high :: low :: rest =>
      match Escape.hexDigit? high, Escape.hexDigit? low with
      | some high, some low =>
          let octet := 16 * high + low
          let left? := match pending with
            | 0 => octetsAfter? octet
            | left + 1 => if 0x80 ≤ octet && octet < 0xC0 then some left else none
          match left? with
          | some left => (resolveOctets? left rest).map (Char.ofNat octet :: ·)
          | none => none
      | _, _ => none
  | pending, c :: rest =>
      if pending ≠ 0 || c = '%' then none else (resolveOctets? 0 rest).map (c :: ·)

def scanTagText? (p : Char → Bool) (cursor : Cursor) : Option (List Char × Cursor) :=
  let written := cursor.rest.takeWhile p
  (resolveOctets? 0 written).map fun text => (text, cursor.skip written.length)

def scanHandle (cursor : Cursor) : List Char × Cursor :=
  let name := cursor.rest.tail.takeWhile isNameChar
  let after := cursor.skip (name.length + 1)
  if after.rest.head? == some '!' then ('!' :: name ++ ['!'], after.skip 1)
  else ('!' :: name, after)

def scanTag? (inFlow : Bool) (cursor : Cursor) : Option (Token × Cursor) := do
  let (token, after) ←
    if cursor.startsWith ['!', '<'] then do
      let (text, atEnd) ← scanTagText? isLongTagChar (cursor.skip 2)
      if text = [] || atEnd.rest.head? ≠ some '>' then none
      else some (Token.tag [] text, atEnd.skip 1)
    else do
      let (handle, afterHandle) := scanHandle cursor
      let (text, atEnd) ← scanTagText? isTagChar afterHandle
      if 1 < handle.length && handle.getLast? = some '!' then
        if text = [] then none else some (Token.tag handle text, atEnd)
      else
        match handle.tail ++ text with
        | [] => some (Token.tag [] ['!'], atEnd)
        | suffix => some (Token.tag ['!'] suffix, atEnd)
  if after.endsAt 0 || (inFlow && after.rest.head? = some ',') then some (token, after) else none

def scanNumber? (cursor : Cursor) : Option (Nat × Cursor) :=
  let digits := cursor.rest.takeWhile Char.isDigit
  if digits = [] || 9 < digits.length then none
  else
    some (digits.foldl (fun total c => 10 * total + (c.toNat - '0'.toNat)) 0,
      cursor.skip digits.length)

def scanVersion? (cursor : Cursor) : Option (Token × Cursor) := do
  let (major, after) ← scanNumber? (cursor.skipWhile isBlank)
  if after.rest.head? ≠ some '.' then none
  else do
    let (minor, atEnd) ← scanNumber? (after.skip 1)
    some (.version major minor, atEnd)

def scanHandleDirective? (cursor : Cursor) : Option (Token × Cursor) := do
  let start := cursor.skipWhile isBlank
  let (handle, after) := scanHandle start
  let closed := handle = ['!'] || handle.getLast? = some '!'
  if start.rest.head? ≠ some '!' || !closed || !after.rest.head?.any isBlank then none
  else do
    let (text, atEnd) ← scanTagText? isLongTagChar (after.skipWhile isBlank)
    if text = [] || !atEnd.endsAt 0 then none else some (.handle handle text, atEnd)

def skipComment? (cursor : Cursor) : Option Cursor :=
  let start := cursor.skipWhile isBlank
  let atEnd := if start.rest.head? = some '#' then start.skipWhile fun c => !isBreak c else start
  if atEnd.rest.head?.all isBreak then some atEnd.next else none

def scanDirective? (cursor : Cursor) : Option (Token × Cursor) := do
  let name := cursor.rest.takeWhile isNameChar
  let after := cursor.skip name.length
  if !after.endsAt 0 then none
  else do
    let (token, atEnd) ←
      if name = ['Y', 'A', 'M', 'L'] then scanVersion? after
      else if name = ['T', 'A', 'G'] then scanHandleDirective? after
      else none
    some (token, ← skipComment? atEnd)

end Tagmark.Yaml
