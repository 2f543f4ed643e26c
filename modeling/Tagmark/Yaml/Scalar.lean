import Tagmark.Tag.Escape
import Tagmark.Yaml.Cursor

/-!
Scalars of YAML: plain, quoted, and block scalars. A line end in a plain or quoted scalar stands for
a space, or for as many line ends as blank lines follow it.
-/

namespace Tagmark.Yaml

/-- White space inside a scalar: the text it stands for, whether it holds a line end, and whether a
tab stands in it where only spaces may indent. -/
structure Gap where
  text : List Char
  broken : Bool
  badTab : Bool
deriving DecidableEq, Inhabited, Repr

/-- The line ends after a first one, up to the next character that is no white space, and whether a
tab comes before column `indent`. -/
def readBreaks (indent : Nat) (cursor : Cursor) : List Char × Bool × Cursor :=
  match _hrest : cursor.rest with
  | [] => ([], false, cursor)
  | c :: _ =>
      if isBlank c then
        let (breaks, badTab, after) := readBreaks indent cursor.next
        (breaks, badTab || (c == '\t' && cursor.column < indent), after)
      else if isBreak c then
        let (breaks, badTab, after) := readBreaks indent cursor.next
        (breakChar c :: breaks, badTab, after)
      else ([], false, cursor)
termination_by cursor.rest.length
decreasing_by all_goals exact Cursor.length_next_lt _hrest

def fold (first : Char) (others : List Char) : List Char :=
  if first ≠ '\n' then first :: others
  else if others = [] then [' ']
  else others

def readGap (indent : Nat) (cursor : Cursor) : Gap × Cursor :=
  let blanks := cursor.rest.takeWhile isBlank
  let atEnd := cursor.skip blanks.length
  match atEnd.rest with
  | c :: _ =>
      if isBreak c then
        let (breaks, badTab, after) := readBreaks indent atEnd.next
        (⟨fold (breakChar c) breaks, true, badTab⟩, after)
      else (⟨blanks, false, false⟩, atEnd)
  | [] => (⟨blanks, false, false⟩, atEnd)

def isFlowMark (c : Char) : Bool :=
  c == ',' || c == '[' || c == ']' || c.toNat == 0x7B || c.toNat == 0x7D

/-- The characters of a plain word. A colon before white space ends it, and within brackets a mark
of them; there a colon directly before such a mark is refused. -/
def plainWord? (inFlow : Bool) : List Char → Option (List Char)
  | [] => some []
  | c :: rest =>
      let spaced := rest.head?.all fun d => isBlank d || isBreak d
      if isBlank c || isBreak c then some []
      else if inFlow && c == ':' && rest.head?.any (fun d => isFlowMark d || d == '?') then none
      else if (c == ':' && spaced) || (inFlow && isFlowMark c) then some []
      else (plainWord? inFlow rest).map (c :: ·)

/-- A scalar that was read, with whether it ended after a line end. -/
structure Scanned where
  text : List Char
  broken : Bool
  after : Cursor
deriving DecidableEq, Inhabited, Repr

def scanPlain (inFlow : Bool) (indent : Nat) (cursor : Cursor) (gap : Gap) :
    Nat → Option Scanned
  | 0 => none
  | fuel + 1 =>
      if cursor.atDocumentMark || cursor.rest.head? == some '#' then
        some ⟨[], gap.broken, cursor⟩
      else
        match plainWord? inFlow cursor.rest with
        | none => none
        | some [] => some ⟨[], gap.broken, cursor⟩
        | some word =>
            let atEnd := cursor.skip word.length
            let (next, after) := readGap indent atEnd
            if next.badTab then none
            else if next.text = [] || (!inFlow && after.column < indent) then
              some ⟨gap.text ++ word, next.broken, after⟩
            else
              (scanPlain inFlow indent after next fuel).map fun scanned =>
                { scanned with text := gap.text ++ word ++ scanned.text }

def escape? : Char → Option Char
  | '0' => some '\x00'
  | 'a' => some '\x07'
  | 'b' => some '\x08'
  | 't' => some '\t'
  | '\t' => some '\t'
  | 'n' => some '\n'
  | 'v' => some '\x0b'
  | 'f' => some '\x0c'
  | 'r' => some '\r'
  | 'e' => some '\x1b'
  | ' ' => some ' '
  | '"' => some '"'
  | '/' => some '/'
  | '\\' => some '\\'
  | 'N' => some '\u0085'
  | '_' => some '\u00A0'
  | 'L' => some '\u2028'
  | 'P' => some '\u2029'
  | _ => none

def escapeLength? : Char → Option Nat
  | 'x' => some 2
  | 'u' => some 4
  | 'U' => some 8
  | _ => none

def hexChar? (digits : List Char) : Option Char := do
  let values ← digits.mapM Escape.hexDigit?
  let value := values.foldl (fun total digit => 16 * total + digit) 0
  if value.isValidChar then some (Char.ofNat value) else none

/-- The character of an escape, after its backslash, and the number of characters it takes. -/
def readEscape? (text : List Char) : Option (Char × Nat) :=
  match text with
  | [] => none
  | letter :: rest =>
      match escapeLength? letter with
      | some length =>
          if rest.length < length then none
          else (hexChar? (rest.take length)).map fun c => (c, length + 1)
      | none => (escape? letter).map fun c => (c, 1)

def scanQuoted (double : Bool) (cursor : Cursor) : Nat → Option (List Char × Cursor)
  | 0 => none
  | fuel + 1 =>
      let put (text : List Char) (after : Cursor) : Option (List Char × Cursor) :=
        (scanQuoted double after fuel).map fun (more, last) => (text ++ more, last)
      if cursor.atDocumentMark then none
      else
        match cursor.rest with
        | [] => none
        | c :: rest =>
            if isBlank c || isBreak c then
              let (gap, after) := readGap 0 cursor
              put gap.text after
            else if double then
              if c = '"' then some ([], cursor.next)
              else if c = '\\' then
                if rest.head?.any isBreak then
                  let (breaks, _, after) := readBreaks 0 (cursor.skip 1).next
                  put breaks after
                else
                  match readEscape? rest with
                  | none => none
                  | some (escaped, length) => put [escaped] (cursor.skip (length + 1))
              else put [c] cursor.next
            else if c = '\'' then
              if rest.head? = some '\'' then put ['\''] (cursor.skip 2)
              else some ([], cursor.next)
            else put [c] cursor.next

/-- What happens to the line ends at the end of a block scalar. -/
inductive Chomping where
  | strip
  | clip
  | keep
deriving DecidableEq, Inhabited, Repr

def chomping? : Char → Option Chomping
  | '-' => some .strip
  | '+' => some .keep
  | _ => none

/-- The marks after the sign of a block scalar: how it ends and by how much it is indented, in
either order. -/
def blockHeader? (cursor : Cursor) : Option (Chomping × Option Nat × Cursor) :=
  let digit? (c : Char) : Option Nat := if c.isDigit then some (c.toNat - '0'.toNat) else none
  let marks : Option Chomping × Option Nat × Nat := match cursor.rest with
    | [] => (none, none, 0)
    | [c] =>
        ((chomping? c), digit? c, if (chomping? c).isSome || (digit? c).isSome then 1 else 0)
    | c :: d :: _ =>
        match chomping? c, digit? c with
        | some chomping, _ =>
            (some chomping, digit? d, if (digit? d).isSome then 2 else 1)
        | none, some digit =>
            (chomping? d, some digit, if (chomping? d).isSome then 2 else 1)
        | none, none => (none, none, 0)
  let (chomping, increment, length) := marks
  if increment = some 0 then none
  else
    let afterBlank := (cursor.skip length).skipWhile isBlank
    let afterComment := if afterBlank.rest.head? == some '#' then
        afterBlank.skipWhile fun c => !isBreak c
      else afterBlank
    match afterComment.rest with
    | [] => some (chomping.getD .clip, increment, afterComment)
    | c :: _ =>
        if isBreak c then some (chomping.getD .clip, increment, afterComment.next) else none

/-- Line ends before the next line of a block scalar, the deepest column reached by spaces, and the
place after them. A tab may not stand where spaces indent. -/
def blockBreaks? (indent : Option Nat) (deepest : Nat) (cursor : Cursor) :
    Option (List Char × Nat × Cursor) :=
  match _hrest : cursor.rest with
  | [] => some ([], max deepest cursor.column, cursor)
  | c :: _ =>
      let indenting := indent.all (cursor.column < ·)
      if c = ' ' && indenting then blockBreaks? indent deepest cursor.next
      else if c = '\t' && indenting then none
      else if isBreak c then
        (blockBreaks? indent (max deepest cursor.column) cursor.next).map
          fun (breaks, deepest, after) => (breakChar c :: breaks, deepest, after)
      else some ([], max deepest cursor.column, cursor)
termination_by cursor.rest.length
decreasing_by all_goals exact Cursor.length_next_lt _hrest

structure BlockGap where
  first : List Char
  others : List Char
deriving DecidableEq, Inhabited, Repr

/-- The text between two lines. In a folded scalar a line end between lines that start with no white
space is a space, or nothing before blank lines. -/
def BlockGap.text (gap : BlockGap) (folded : Bool) : List Char :=
  if folded && gap.first == ['\n'] then
    (if gap.others = [] then [' '] else gap.others)
  else gap.first ++ gap.others

/-- The lines of a block scalar whose indent is known, and the gap after the last of them. -/
def blockLines? (literal : Bool) (indent : Nat) (gap : BlockGap) (wasBlank : Bool)
    (cursor : Cursor) : Nat → Option (List Char × BlockGap × Cursor)
  | 0 => none
  | fuel + 1 =>
      if cursor.column ≠ indent || cursor.rest.isEmpty then some ([], gap, cursor)
      else
        let startsBlank := cursor.rest.head?.any isBlank
        let before := gap.text (!literal && !wasBlank && !startsBlank)
        let line := cursor.rest.takeWhile fun c => !isBreak c
        let atEnd := cursor.skip line.length
        let first := (atEnd.rest.head?.map breakChar).toList
        match blockBreaks? (some indent) 0 atEnd.next with
        | none => none
        | some (others, _, after) =>
            (blockLines? literal indent ⟨first, others⟩ startsBlank after fuel).map
              fun (text, last, stop) => (before ++ line ++ text, last, stop)

def scanBlock? (literal : Bool) (parent : Option Nat) (cursor : Cursor) :
    Option (List Char × Cursor) := do
  let (chomping, increment, start) ← blockHeader? cursor
  let least := match parent with
    | some parent => parent + 1
    | none => 1
  let given := increment.map fun increment => match parent with
    | some parent => parent + increment
    | none => increment
  let (breaks, deepest, first) ← blockBreaks? given 0 start
  let indent := given.getD (max deepest least)
  let (text, last, after) ← blockLines? literal indent ⟨[], breaks⟩ false first
    (first.rest.length + 1)
  let ending := match chomping with
    | .strip => []
    | .clip => last.first
    | .keep => last.first ++ last.others
  some (text ++ ending, after)

end Tagmark.Yaml
