/-!
Lexemes, the stretches of text that make up a tag. `lex` takes the longest lexeme off the front of
a text, and no character is lost (`lex_append`).
-/

namespace Tagmark

inductive Lexeme.Kind where
  | opening
  | closing
  | selfClosing
  | slash
  | equals
  | newline
  | blank
  | name
  | double
  | single
  | number
  /-- A text that no lexeme starts with, up to where the most hopeful reading of it ends. -/
  | stray
deriving DecidableEq, Inhabited, Repr

structure Lexeme where
  kind : Lexeme.Kind
  text : List Char
deriving DecidableEq, Inhabited, Repr

namespace Lexeme

def isNameStart (c : Char) : Bool :=
  c.isAlpha || c == '_'

def isNamePart (c : Char) : Bool :=
  c.isAlphanum || c == '_' || c == '-'

/-- Up to and including the next unescaped double quote. Without one the text ends with the last
character that a double quoted text can hold: a backslash before a newline ends it. -/
def doubleQuoted : List Char → Bool × List Char × List Char
  | [] => (false, [], [])
  | '"' :: rest => (true, ['"'], rest)
  | ['\\'] => (false, ['\\'], [])
  | '\\' :: c :: rest =>
      if c = '\n' then (false, ['\\'], c :: rest)
      else
        let (closed, text, after) := doubleQuoted rest
        (closed, '\\' :: c :: text, after)
  | c :: rest =>
      let (closed, text, after) := doubleQuoted rest
      (closed, c :: text, after)

def singleQuoted : List Char → Bool × List Char × List Char
  | [] => (false, [], [])
  | c :: rest =>
      if c = '\'' then (true, [c], rest)
      else
        let (closed, text, after) := singleQuoted rest
        (closed, c :: text, after)

def digits (text : List Char) : List Char × List Char :=
  (text.takeWhile Char.isDigit, text.dropWhile Char.isDigit)

def sign (signs : List Char) (text : List Char) : List Char × List Char :=
  match text with
  | [] => ([], [])
  | c :: rest => if c ∈ signs then ([c], rest) else ([], c :: rest)

def fraction (text : List Char) : List Char × List Char :=
  match text with
  | '.' :: rest =>
      let places := digits rest
      if places.1 = [] then ([], text) else ('.' :: places.1, places.2)
  | _ => ([], text)

def exponent (text : List Char) : List Char × List Char :=
  match text with
  | [] => ([], [])
  | mark :: rest =>
      let signed := sign ['+', '-'] rest
      let places := digits signed.2
      if (mark = 'e' ∨ mark = 'E') ∧ places.1 ≠ [] then
        (mark :: (signed.1 ++ places.1), places.2)
      else ([], mark :: rest)

def number (text : List Char) : Lexeme × List Char :=
  let minus := sign ['-'] text
  let whole := digits minus.2
  let fractional := fraction whole.2
  let scale := exponent fractional.2
  if whole.1 = [] then (⟨.stray, minus.1⟩, minus.2)
  else (⟨.number, minus.1 ++ (whole.1 ++ (fractional.1 ++ scale.1))⟩, scale.2)

/-- The lexeme at the front of the text that starts with `c` and goes on with `rest`, and the text
after it. -/
def lex (c : Char) (rest : List Char) : Lexeme × List Char :=
  match c, rest with
  | '{', '%' :: rest => (⟨.opening, ['{', '%']⟩, rest)
  | '%', '}' :: rest => (⟨.closing, ['%', '}']⟩, rest)
  | '/', '%' :: '}' :: rest => (⟨.selfClosing, ['/', '%', '}']⟩, rest)
  | '/', rest => (⟨.slash, ['/']⟩, rest)
  | '=', rest => (⟨.equals, ['=']⟩, rest)
  | '\n', rest => (⟨.newline, ['\n']⟩, rest)
  | ' ', rest => (⟨.blank, [' ']⟩, rest)
  | '\t', rest => (⟨.blank, ['\t']⟩, rest)
  | '\r', rest => (⟨.blank, ['\r']⟩, rest)
  | '"', rest =>
      let (closed, text, after) := doubleQuoted rest
      (⟨if closed then .double else .stray, '"' :: text⟩, after)
  | '\'', rest =>
      let (closed, text, after) := singleQuoted rest
      (⟨if closed then .single else .stray, '\'' :: text⟩, after)
  | c, rest =>
      if isNameStart c then 
        (⟨.name, c :: rest.takeWhile isNamePart⟩, rest.dropWhile isNamePart)
      else if c = '-' ∨ c.isDigit then number (c :: rest)
      else (⟨.stray, [c]⟩, rest)

theorem doubleQuoted_append (text : List Char) :
    (doubleQuoted text).2.1 ++ (doubleQuoted text).2.2 = text := by
  fun_induction doubleQuoted text <;> simp_all

theorem singleQuoted_append (text : List Char) :
    (singleQuoted text).2.1 ++ (singleQuoted text).2.2 = text := by
  fun_induction singleQuoted text <;> simp_all

theorem digits_append (text : List Char) : (digits text).1 ++ (digits text).2 = text :=
  List.takeWhile_append_dropWhile

theorem sign_append (signs text : List Char) :
    (sign signs text).1 ++ (sign signs text).2 = text := by
  unfold sign
  split
  · rfl
  · split <;> rfl

theorem fraction_append (text : List Char) : (fraction text).1 ++ (fraction text).2 = text := by
  unfold fraction
  split
  · next rest =>
      have hdigits := digits_append rest
      dsimp only
      split <;> simp_all
  · rfl

theorem exponent_append (text : List Char) : (exponent text).1 ++ (exponent text).2 = text := by
  unfold exponent
  split
  · rfl
  · next mark rest =>
      have hsign := sign_append ['+', '-'] rest
      have hdigits := digits_append (sign ['+', '-'] rest).2
      dsimp only
      split <;> simp_all

theorem number_append (text : List Char) : (number text).1.text ++ (number text).2 = text := by
  have hsign := sign_append ['-'] text
  have hdigits := digits_append (sign ['-'] text).2
  have hfraction := fraction_append (digits (sign ['-'] text).2).2
  have hexponent := exponent_append (fraction (digits (sign ['-'] text).2).2).2
  unfold number
  dsimp only
  split <;> simp_all

theorem lex_append (c : Char) (rest : List Char) :
    (lex c rest).1.text ++ (lex c rest).2 = c :: rest := by
  unfold lex
  split <;> try rfl
  · simp [doubleQuoted_append]
  · simp [singleQuoted_append]
  · split
    · simp
    · split
      · exact number_append _
      · rfl

theorem number_text_ne_nil {c : Char} (hstart : c = '-' ∨ c.isDigit = true) (rest : List Char) :
    (number (c :: rest)).1.text ≠ [] := by
  rcases hstart with rfl | hdigit
  · have hsign : sign ['-'] ('-' :: rest) = (['-'], rest) := rfl
    unfold number
    dsimp only
    rw [hsign]
    split <;> simp
  · have hminus : c ≠ '-' := by
      rintro rfl
      revert hdigit
      decide
    have hsign : sign ['-'] (c :: rest) = ([], c :: rest) := by simp [sign, hminus]
    unfold number
    dsimp only
    rw [hsign]
    simp [digits, hdigit]

theorem lex_text_ne_nil (c : Char) (rest : List Char) : (lex c rest).1.text ≠ [] := by
  unfold lex
  split <;> try exact List.cons_ne_nil _ _
  split
  · exact List.cons_ne_nil _ _
  · split
    · next hstart => exact number_text_ne_nil hstart _
    · exact List.cons_ne_nil _ _

theorem length_lex_lt (c : Char) (rest : List Char) :
    (lex c rest).2.length < (c :: rest).length := by
  have hlength := congrArg List.length (lex_append c rest)
  have hpos := List.length_pos_iff.2 (lex_text_ne_nil c rest)
  rw [List.length_append] at hlength
  omega

end Lexeme

end Tagmark
