/-!
Escapes in double quoted text. A backslash and the character after it stand for one character;
`\u` takes a code point in hexadecimal digits between braces.
-/

namespace Tagmark

namespace Escape

inductive CodePointFlaw where
  | noBrace
  | empty (digits : String)
  | badDigit (digits : String)
  | tooLarge (digits : String)
  | notScalar (value : Nat)
deriving DecidableEq, Inhabited, Repr

def CodePointFlaw.message : CodePointFlaw → String
  | .noBrace => "expected '\x7b' character in unicode escape"
  | .empty digits =>
      "could not parse " ++ digits ++ " as u32 hex: cannot parse integer from empty string"
  | .badDigit digits =>
      "could not parse " ++ digits ++ " as u32 hex: invalid digit found in string"
  | .tooLarge digits =>
      "could not parse " ++ digits ++ " as u32 hex: number too large to fit in target type"
  | .notScalar value => "could not parse " ++ toString value ++ " as a unicode char"

/-- Why the escape whose letter has place `index` in `source` has no meaning. -/
inductive Flaw where
  | unknown (letter : Char) (index : Nat) (source : String)
  | codePoint (flaw : CodePointFlaw) (index : Nat) (source : String)
  | unfinished (index : Nat) (source : String)
deriving DecidableEq, Inhabited, Repr

def Flaw.message : Flaw → String
  | .unknown letter index source =>
      "invalid escape \\" ++ String.singleton letter ++ " at " ++ toString index ++ " in " ++ source
  | .codePoint flaw index source =>
      "\\u could not be parsed at " ++ toString index ++ " in " ++ source ++ ": " ++ flaw.message
  | .unfinished index source =>
      "invalid escape \\ at " ++ toString index ++ " in " ++ source

def simple? : Char → Option Char
  | 'a' => some '\x07'
  | 'b' => some '\x08'
  | 'v' => some '\x0b'
  | 'f' => some '\x0c'
  | 'n' => some '\n'
  | 'r' => some '\r'
  | 't' => some '\t'
  | 'e' => some '\x1b'
  | 'E' => some '\x1b'
  | '\\' => some '\\'
  | '\'' => some '\''
  | '"' => some '"'
  | '$' => some '$'
  | '`' => some '`'
  | ' ' => some ' '
  | _ => none

def hexDigit? (c : Char) : Option Nat :=
  if c.isDigit then some (c.toNat - '0'.toNat)
  else if 'a' ≤ c ∧ c ≤ 'f' then some (c.toNat - 'a'.toNat + 10)
  else if 'A' ≤ c ∧ c ≤ 'F' then some (c.toNat - 'A'.toNat + 10)
  else none

/-- Reads hexadecimal digits from the left, up to the first character that is no digit or makes the
value too large for 32 bits. -/
def hexValue (written : String) : Nat → List Char → Except CodePointFlaw Nat
  | value, [] => .ok value
  | value, c :: rest =>
      match hexDigit? c with
      | none => .error (.badDigit written)
      | some digit =>
          if UInt32.size ≤ 16 * value + digit then .error (.tooLarge written)
          else hexValue written (16 * value + digit) rest

def codePoint (digits : List Char) : Except CodePointFlaw Char := do
  let written := String.ofList digits
  let value ← match digits with
    | [] => .error (.empty written)
    | ['+'] => .error (.badDigit written)
    | '+' :: digits => hexValue written 0 digits
    | digits => hexValue written 0 digits
  if value.isValidChar then .ok (Char.ofNat value) else .error (.notScalar value)

/-- Resolves the escapes of `text`, whose first character has place `index` in `source`. Quotes
are dropped, as only the quotes around a text stand in it without a backslash. -/
def resolve (source : String) (index : Nat) (text : List Char) : Except Flaw (List Char) :=
  match text with
  | [] => .ok []
  | '\\' :: 'u' :: '{' :: rest =>
      match codePoint (rest.takeWhile (· != '}')) with
      | .error flaw => .error (.codePoint flaw (index + 1) source)
      | .ok c => do
          let digits := (rest.takeWhile (· != '}')).length
          return c :: (← resolve source (index + digits + 4) (rest.drop (digits + 1)))
  | '\\' :: 'u' :: _ => .error (.codePoint .noBrace (index + 1) source)
  | '\\' :: letter :: rest =>
      match simple? letter with
      | none => .error (.unknown letter (index + 1) source)
      | some c => do return c :: (← resolve source (index + 2) rest)
  | ['\\'] => .error (.unfinished index source)
  | c :: rest => do
      let tail ← resolve source (index + 1) rest
      return if c = '"' then tail else c :: tail
termination_by text.length
decreasing_by all_goals simp +arith

end Escape

def unescape (quoted : List Char) : Except Escape.Flaw (List Char) :=
  Escape.resolve (String.ofList quoted) 0 quoted

end Tagmark
