import Tagmark.Markdown.Tree
import Tagmark.Text.Punctuation

/-!
Links that are written as nothing but their address: between angle brackets, or bare with a scheme,
with `www.`, or as an address of mail.
-/

namespace Tagmark.Markdown.Autolink

def link (protocol : String) (text : List Char) : Tree :=
  .link (protocol ++ String.ofList text) none [.text (String.ofList text)]

def isSchemePart (c : Char) : Bool :=
  c.isAlphanum || c == '+' || c == '-' || c == '.'

def isUrlPart (c : Char) : Bool :=
  0x20 < c.toNat && c != '<' && c != '>' && c.toNat != 0x7F

def isUrl (text : List Char) : Bool :=
  let scheme := text.takeWhile isSchemePart
  2 ≤ scheme.length && scheme.length ≤ 32 && (scheme.head?.any Char.isAlpha) &&
    match text.drop scheme.length with
    | ':' :: rest => rest.all isUrlPart
    | _ => false

def isMailPart (c : Char) : Bool :=
  c.isAlphanum || "!#$%&'*+-./=?^_`|~".toList.contains c || c.toNat == 0x7B || c.toNat == 0x7D

/-- Whether text is labels of letters, digits and inner hyphens, with dots between them. -/
def isDomain (length : Nat) (last : Char) : List Char → Bool
  | [] => last != '.' && last != '-'
  | c :: rest =>
      if c = '.' then last != '.' && last != '-' && isDomain 0 c rest
      else if c.isAlphanum || (c == '-' && last != '.') then
        length < 63 && isDomain (length + 1) c rest
      else false

def isMail (text : List Char) : Bool :=
  let name := text.takeWhile isMailPart
  name != [] &&
    match text.drop name.length with
    | '@' :: rest => isDomain 0 '.' rest
    | _ => false

/-- The link between angle brackets, given the text after the opening one, and the number of
characters it takes. -/
def bracketed? (text : List Char) : Option (Tree × Nat) :=
  let inner := text.takeWhile (· != '>')
  if (text.drop inner.length).isEmpty then none
  else if isUrl inner then some (link "" inner, inner.length + 1)
  else if isMail inner then some (link "mailto:" inner, inner.length + 1)
  else none

def isTrailing (c : Char) : Bool :=
  "!\"'),.:;?_*~".toList.contains c

/-- Whether an address ends before `text`: nothing follows but marks of punctuation, up to white
space or to what cannot belong to an address. -/
def endsBefore (text : List Char) : Bool :=
  match text with
  | [] => true
  | '<' :: _ => true
  | '&' :: rest =>
      let letters := (rest.takeWhile Char.isAlpha).length
      letters != 0 && (rest.drop letters).head? == some ';' && endsBefore (rest.drop (letters + 1))
  | ']' :: rest =>
      rest.head?.all (" \t\n\r([".toList.contains ·) || endsBefore rest
  | c :: rest => if isTrailing c then endsBefore rest else Text.isBlank c
termination_by text.length
decreasing_by all_goals simp +arith

/-- The number of characters of a path, in which `opened` parentheses were opened and `closed`
closed. -/
def pathLength (opened closed : Nat) : List Char → Nat
  | [] => 0
  | c :: rest =>
      if c = '(' then pathLength (opened + 1) closed rest + 1
      else if isTrailing c || c == '<' || c == '&' || c == ']' then
        if endsBefore (c :: rest) && !(c == ')' && closed < opened) then 0
        else pathLength opened (if c = ')' then closed + 1 else closed) rest + 1
      else if Text.isBlank c then 0
      else pathLength opened closed rest + 1

/-- The end of a domain: whether an underscore stands in its last part and in the one before. -/
structure DomainMarks where
  underscored : Bool := false
  underscoredBefore : Bool := false
  hasLetter : Bool := false
deriving DecidableEq, Inhabited, Repr

def domain (marks : DomainMarks) : List Char → Nat × DomainMarks
  | [] => (0, marks)
  | c :: rest =>
      if c = '.' || c = '_' then
        if endsBefore (c :: rest) then (0, marks)
        else
          let next := if c = '_' then { marks with underscored := true }
            else { marks with underscoredBefore := marks.underscored, underscored := false }
          let (length, found) := domain next rest
          (length + 1, found)
      else if c = '-' then
        let (length, found) := domain marks rest
        (length + 1, found)
      else if Text.isBlank c || Text.isPunctuation c then (0, marks)
      else
        let (length, found) := domain { marks with hasLetter := true } rest
        (length + 1, found)

/-- The number of characters of an address without its scheme. Underscores may not stand in the
last two parts of its domain. -/
def addressLength? (text : List Char) : Option Nat :=
  let (length, marks) := domain {} text
  if marks.underscored || marks.underscoredBefore || !marks.hasLetter then none
  else some (length + pathLength 0 0 (text.drop length))

def startsWithIgnoringCase (expected text : List Char) : Bool :=
  expected.isPrefixOf (text.map Char.toLower)

/-- The bare address at the front of a text, if one may stand after the character before it. -/
def bare? (before : Option Char) (text : List Char) : Option (Tree × Nat) :=
  let start := text.take 8
  let scheme := if startsWithIgnoringCase "https://".toList start then 8
    else if startsWithIgnoringCase "http://".toList start then 7 else 0
  if 0 < scheme then
    if before.any Char.isAlpha then none
    else
      (addressLength? (text.drop scheme)).map fun length =>
        (link "" (text.take (scheme + length)), scheme + length)
  else if startsWithIgnoringCase "www.".toList start && !(text.drop 4).isEmpty then
    if before.all fun c => " \t\n\r(*_[]~".toList.contains c then
      (addressLength? text).map fun length => (link "http://" (text.take length), length)
    else none
  else none

def isNamePart (c : Char) : Bool :=
  c.isAlphanum || c == '+' || c == '-' || c == '.' || c == '_'

/-- The number of characters of a domain of mail, with whether it has a dot and its last
character. -/
def mailDomain (allowSlash : Bool) : List Char → Nat × Bool × Char
  | [] => (0, false, '.')
  | c :: rest =>
      let goesOn := c.isAlphanum || c == '-' || c == '_' || (allowSlash && c == '/') ||
        (c == '.' && rest.head?.any Char.isAlphanum)
      if goesOn then
        let (length, dotted, last) := mailDomain allowSlash rest
        (length + 1, dotted || c == '.', if length = 0 then c else last)
      else (0, false, '.')

/-- The name before the sign of an address, taken off the end of the text before the sign, with
`mailto:` or `xmpp:` if it stands there. The text is reversed. -/
def mailName? (before : List Char) : Option (List Char × Option String) :=
  let name := before.takeWhile isNamePart
  let rest := before.drop name.length
  if name = [] || rest.head? == some '/' then none
  else
    match rest with
    | ':' :: more =>
        let protocol := (more.takeWhile Char.isAlphanum)
        let word := String.ofList (protocol.reverse.map Char.toLower)
        if word = "mailto" || word = "xmpp" then
          some (name ++ ':' :: protocol, some word)
        else some (name, none)
    | _ => some (name, none)

def splitMail (before : List Char) (text : List Char) : List Tree :=
  let plain : List Tree :=
    if before = [] then [] else [.text (String.ofList before.reverse)]
  match text with
  | [] => plain
  | c :: rest =>
      let found := if c = '@' then
          (mailName? before).bind fun (name, protocol) =>
            let (length, dotted, last) := mailDomain (protocol == some "xmpp") rest
            if dotted && last.isAlpha then some (name, protocol, length) else none
        else none
      match found with
      | none => splitMail (c :: before) rest
      | some (name, protocol, length) =>
          let address := name.reverse ++ '@' :: rest.take length
          let kept := before.drop name.length
          let shown := link (if protocol.isSome then "" else "mailto:") address
          (if kept = [] then [] else [.text (String.ofList kept.reverse)]) ++
            shown :: splitMail [] (rest.drop length)
termination_by text.length
decreasing_by all_goals simp +arith

end Tagmark.Markdown.Autolink
