import Tagmark.Fault
import Tagmark.Number.Read
import Tagmark.Tag.Lexeme
import Tagmark.Text.Split

/-!
Text that holds tags, cut into tags and the text between them. A tag is read lexeme by lexeme from
its opening delimiter up to its closing one.
-/

namespace Tagmark

/-- A tag, or the text before, between or after tags. -/
inductive Segment where
  | tag (group : TokenGroup)
  | text (text : List Char) (start : Point)
deriving DecidableEq, Inhabited, Repr

namespace Lexeme

def token (lexeme : Lexeme) : Except TagFlaw Token :=
  let text := lexeme.text
  match lexeme.kind with
  | .opening => .error .nestedOpening
  | .closing => .ok .closing
  | .selfClosing => .ok .selfClosing
  | .slash => .ok .slash
  | .equals => .ok .equals
  | .newline => .ok .newline
  | .blank => .ok (.blank (text.headD ' '))
  | .name => .ok (.name (String.ofList text))
  | .single => .ok (.text (String.ofList text.tail.dropLast) .single)
  | .double =>
      if '\\' ∈ text then
        match unescape text with
        | .ok value => .ok (.text (String.ofList value) .double)
        | .error flaw => .error (.badEscape flaw)
      else .ok (.text (String.ofList text.tail.dropLast) .double)
  | .number => .ok (.number ((Number.read? text).getD Number.nan))
  | .stray => .error (.strayText (String.ofList text))

def closes (lexeme : Lexeme) : Bool :=
  lexeme.kind = .closing || lexeme.kind = .selfClosing

end Lexeme

/-- The tokens of a tag that are left to read, the place after them and the text there. -/
structure TagRest where
  tokens : List PlacedToken
  stop : Point
  after : List Char

/-- Reads the tag that was opened at `start` on from `point`, up to its closing delimiter. -/
def readTag (start point : Point) : List Char → Except Fault TagRest
  | [] => .error (.unterminatedTag start)
  | c :: rest =>
      let lexed := Lexeme.lex c rest
      match lexed.1.token with
      | .error flaw => .error (.invalidTag flaw point)
      | .ok token =>
          let next := point.advance lexed.1.text
          if lexed.1.closes then .ok ⟨[⟨token, point⟩], next, lexed.2⟩
          else
            match readTag start next lexed.2 with
            | .error fault => .error fault
            | .ok tag => .ok { tag with tokens := ⟨token, point⟩ :: tag.tokens }
termination_by text => text.length
decreasing_by exact Lexeme.length_lex_lt c rest

theorem length_after_le {start point : Point} {text : List Char} {tag : TagRest}
    (hread : readTag start point text = .ok tag) : tag.after.length ≤ text.length := by
  fun_induction readTag start point text generalizing tag with
  | case1 => cases hread
  | case2 => cases hread
  | case3 point c rest lexed token =>
      cases hread
      exact Nat.le_of_lt (Lexeme.length_lex_lt c rest)
  | case4 => cases hread
  | case5 point c rest lexed token htoken next hcloses tag' hrest =>
      next induction =>
        cases hread
        change tag'.after.length ≤ _
        exact Nat.le_trans (induction hrest) (Nat.le_of_lt (Lexeme.length_lex_lt c rest))

/-- Cuts `text`, which starts at `start`, into tags and the text around them. -/
def segments (start : Point) (text : List Char) : Except Fault (List Segment) :=
  match _hcut : Text.cut? ['{', '%'] text with
  | none => .ok (if text = [] then [] else [.text text start])
  | some (before, after) =>
      let opening := start.advance before
      match _hread : readTag opening (opening.advance ['{', '%']) after with
      | .error fault => .error fault
      | .ok tag =>
          let group : TokenGroup :=
            ⟨⟨.opening, opening⟩ :: tag.tokens, ⟨opening, tag.stop⟩⟩
          match segments tag.stop tag.after with
          | .error fault => .error fault
          | .ok rest =>
              .ok (if before = [] then .tag group :: rest
                else .text before start :: .tag group :: rest)
termination_by text.length
decreasing_by
  exact Nat.lt_of_le_of_lt (length_after_le _hread)
    (Text.length_lt_of_cut? (List.cons_ne_nil _ _) _hcut)

end Tagmark
