import Tagmark.Proofs.Tag.Header
import Tagmark.Proofs.Tag.Tiling

/-!
Where a tag is refused. What is wrong with a tag is found at one of its lexemes, which is no token or
not the one that is expected there (`Fault.foundIn_of_readTag`, `Fault.foundIn_of_header`). A tag that
was read ends with a closing delimiter, so the tokens do not run out before that. Where no closing
delimiter follows, the tokens run out unless some text is no token (`readTag_of_unclosed`).
-/

namespace Tagmark

/-- Texts read token by token up to a lexeme with `behind` after it, and not closed before it. -/
inductive Lexeme.Follows (lexeme : Lexeme) (behind : List Char) : List Char → Prop
  | here {c : Char} {rest : List Char} (hlex : lex c rest = (lexeme, behind)) :
      Follows lexeme behind []
  | later {c : Char} {rest front : List Char} {first : Lexeme} {token : Token}
      (hlex : lex c rest = (first, front ++ (lexeme.text ++ behind)))
      (htoken : first.token = .ok token) (hcloses : first.closes = false)
      (hlater : Follows lexeme behind front) : Follows lexeme behind (first.text ++ front)

theorem Lexeme.Follows.ne_nil {lexeme : Lexeme} {behind front : List Char}
    (hfollows : lexeme.Follows behind front) : lexeme.text ≠ [] := by
  induction hfollows with
  | @here c rest hlex =>
      have hne := lex_text_ne_nil c rest
      rwa [hlex] at hne
  | later _ _ _ _ induction => exact induction

/-- A text that is read from `point` on has the lexeme at `place`. -/
def Lexeme.StandsAt (lexeme : Lexeme) (place point : Point) (text : List Char) : Prop :=
  ∃ front behind, place = point.advance front ∧ text = front ++ (lexeme.text ++ behind) ∧
    lexeme.Follows behind front

theorem Lexeme.standsAt_first (point : Point) (c : Char) (rest : List Char) :
    (lex c rest).1.StandsAt point point (c :: rest) :=
  ⟨[], (lex c rest).2, rfl, (lex_append c rest).symm, .here rfl⟩

theorem Lexeme.StandsAt.later {lexeme : Lexeme} {place point : Point} {c : Char}
    {rest : List Char} {token : Token} (htoken : (lex c rest).1.token = .ok token)
    (hcloses : ¬ (lex c rest).1.closes = true)
    (hstands : lexeme.StandsAt place (point.advance (lex c rest).1.text) (lex c rest).2) :
    lexeme.StandsAt place point (c :: rest) := by
  obtain ⟨front, behind, rfl, htext, hfollows⟩ := hstands
  refine ⟨(lex c rest).1.text ++ front, behind, ?_, ?_, ?_⟩
  · rw [Point.advance_append]
  · rw [List.append_assoc, ← htext, lex_append]
  · exact .later (Prod.ext rfl htext) htoken (Bool.eq_false_iff.2 hcloses) hfollows

/-- The token at which a flaw is found. -/
def TagFlaw.token? : TagFlaw → Option Token
  | .expectedName found => found
  | .closingWithMore found | .expectedValue found | .expectedAttribute found => some found
  | .expectedEquals key => some (.name key)
  | .strayText _ | .badEscape _ | .nestedOpening | .missingValue _ | .unfinished => none

/-- The lexeme is no token, for the reason that the flaw gives, or it is the flaw's token. -/
def TagFlaw.IsOf (flaw : TagFlaw) (lexeme : Lexeme) : Prop :=
  lexeme.token = .error flaw ∨ ∃ token, lexeme.token = .ok token ∧ flaw.token? = some token

def Fault.FoundIn (fault : Fault) (point : Point) (text : List Char) : Prop :=
  ∃ (flaw : TagFlaw) (lexeme : Lexeme) (place : Point), fault = .invalidTag flaw place ∧
    lexeme.StandsAt place point text ∧ flaw.IsOf lexeme

section ReadTag

variable {start point : Point} {text : List Char}

theorem Fault.foundIn_of_readTag {fault : Fault}
    (hread : readTag start point text = .error fault) :
    fault = .unterminatedTag start ∨ fault.FoundIn point text := by
  fun_induction readTag start point text with
  | case1 =>
      cases hread
      exact .inl rfl
  | case2 point c rest lexed flaw hflaw =>
      cases hread
      exact .inr ⟨flaw, lexed.1, point, rfl, Lexeme.standsAt_first point c rest, .inl hflaw⟩
  | case3 => cases hread
  | case4 point c rest lexed token htoken next hcloses other hrest induction =>
      cases hread
      rcases induction hrest with hunterminated | ⟨flaw, lexeme, place, hfault, hstands, hof⟩
      · exact .inl hunterminated
      · exact .inr ⟨flaw, lexeme, place, hfault, hstands.later htoken hcloses, hof⟩
  | case5 => cases hread

theorem PlacedToken.standsAt_of_readTag {tag : TagRest}
    (hread : readTag start point text = .ok tag) {placed : PlacedToken}
    (hmem : placed ∈ tag.tokens) :
    ∃ lexeme : Lexeme, lexeme.StandsAt placed.start point text ∧
      lexeme.token = .ok placed.token := by
  fun_induction readTag start point text generalizing tag with
  | case1 | case2 | case4 => cases hread
  | case3 point c rest lexed token htoken =>
      cases hread
      cases List.mem_singleton.1 hmem
      exact ⟨lexed.1, Lexeme.standsAt_first point c rest, htoken⟩
  | case5 point c rest lexed token htoken after hcloses tag' hrest =>
      next induction =>
        cases hread
        rcases List.mem_cons.1 hmem with rfl | hlater
        · exact ⟨lexed.1, Lexeme.standsAt_first point c rest, htoken⟩
        · obtain ⟨lexeme, hstands, hlexeme⟩ := induction hrest hlater
          exact ⟨lexeme, hstands.later htoken hcloses, hlexeme⟩

end ReadTag

/-- Texts that are made of tokens, up to their end. -/
inductive Text.IsTokens : List Char → Prop
  | nil : IsTokens []
  | cons {c : Char} {rest after : List Char} {lexeme : Lexeme} {token : Token}
      (hlex : Lexeme.lex c rest = (lexeme, after)) (htoken : lexeme.token = .ok token)
      (hafter : IsTokens after) : IsTokens (c :: rest)

theorem Text.isTokens_cons {c : Char} {rest : List Char} :
    IsTokens (c :: rest) ↔
      (∃ token, (Lexeme.lex c rest).1.token = .ok token) ∧ IsTokens (Lexeme.lex c rest).2 := by
  constructor
  · rintro (_ | ⟨hlex, htoken, hafter⟩)
    rw [hlex]
    exact ⟨⟨_, htoken⟩, hafter⟩
  · rintro ⟨⟨token, htoken⟩, hafter⟩
    exact .cons rfl htoken hafter

theorem Lexeme.closes_of_unclosed {c : Char} {rest : List Char}
    (hunclosed : Text.contains ['%', '}'] (c :: rest) = false) : (lex c rest).1.closes = false := by
  rw [← Bool.not_eq_true]
  intro hcloses
  rcases eq_of_closes hcloses with ⟨rfl, after, rfl⟩ | ⟨rfl, after, rfl⟩
  · exact absurd ((Text.contains_append ['%', '}'] [] after).symm.trans hunclosed) (by decide)
  · exact absurd ((Text.contains_append ['%', '}'] ['/'] after).symm.trans hunclosed) (by decide)

/-- In text that has no closing delimiter, a tag is not terminated if the text is made of tokens.
Otherwise it is refused at the first lexeme that is no token. -/
theorem readTag_of_unclosed (start point : Point) {text : List Char}
    (hunclosed : Text.contains ['%', '}'] text = false) :
    (Text.IsTokens text ∧ readTag start point text = .error (.unterminatedTag start)) ∨
    (¬ Text.IsTokens text ∧ ∃ (flaw : TagFlaw) (lexeme : Lexeme) (place : Point),
      lexeme.StandsAt place point text ∧ lexeme.token = .error flaw ∧
        readTag start point text = .error (.invalidTag flaw place)) := by
  have hlater : ∀ {c : Char} {rest : List Char}, Text.contains ['%', '}'] (c :: rest) = false →
      Text.contains ['%', '}'] (Lexeme.lex c rest).2 = false := by
    intro c rest hnone
    rw [← Lexeme.lex_append c rest, Text.contains, Option.isSome_eq_false_iff,
      Option.isNone_iff_eq_none] at hnone
    rw [Text.contains, Text.cut?_of_append_right hnone]
    rfl
  fun_induction readTag start point text with
  | case1 => exact .inl ⟨.nil, rfl⟩
  | case2 point c rest lexed flaw hflaw =>
      refine .inr ⟨?_, flaw, lexed.1, point, Lexeme.standsAt_first point c rest, hflaw, rfl⟩
      rw [Text.isTokens_cons]
      rintro ⟨⟨token, htoken⟩, -⟩
      cases hflaw.symm.trans htoken
  | case3 point c rest lexed token htoken next hcloses =>
      exact absurd hcloses (by rw [Lexeme.closes_of_unclosed hunclosed]; exact Bool.false_ne_true)
  | case4 point c rest lexed token htoken next hcloses fault hrest induction =>
      rcases induction (hlater hunclosed) with
        ⟨htokens, hfault⟩ | ⟨hstray, flaw, lexeme, place, hstands, hflaw, hfault⟩
      · cases hrest.symm.trans hfault
        exact .inl ⟨Text.isTokens_cons.2 ⟨⟨token, htoken⟩, htokens⟩, rfl⟩
      · cases hrest.symm.trans hfault
        exact .inr ⟨fun htokens => hstray (Text.isTokens_cons.1 htokens).2, flaw, lexeme, place,
          hstands.later htoken hcloses, hflaw, rfl⟩
  | case5 point c rest lexed token htoken next hcloses tag hrest induction =>
      rcases induction (hlater hunclosed) with ⟨-, hfault⟩ | ⟨-, _, _, _, -, -, hfault⟩
      · cases hrest.symm.trans hfault
      · cases hrest.symm.trans hfault

theorem Lexeme.isClosing_token {lexeme : Lexeme} {token : Token} (htoken : lexeme.token = .ok token) :
    token.isClosing = lexeme.closes := by
  obtain ⟨kind, text⟩ := lexeme
  unfold Lexeme.token at htoken
  cases kind with
  | double =>
      dsimp only at htoken
      split at htoken
      · split at htoken <;> cases htoken
        rfl
      · cases htoken
        rfl
  | _ =>
      cases htoken
      try rfl

theorem PlacedToken.closedOnce_of_readTag {start point : Point} {text : List Char} {tag : TagRest}
    (hread : readTag start point text = .ok tag) : ClosedOnce tag.tokens := by
  fun_induction readTag start point text generalizing tag with
  | case1 | case2 | case4 => cases hread
  | case3 point c rest lexed token htoken =>
      next hcloses =>
        cases hread
        exact ⟨[], _, rfl, (Lexeme.isClosing_token htoken).trans hcloses,
          fun _ hmem => absurd hmem List.not_mem_nil⟩
  | case5 point c rest lexed token htoken after hcloses tag' hrest =>
      next induction =>
        cases hread
        have hfirst : token.isClosing = false :=
          (Lexeme.isClosing_token htoken).trans (Bool.eq_false_iff.2 hcloses)
        exact (induction hrest).cons hfirst

theorem PlacedToken.closedOnce_significant {start point : Point} {text : List Char} {tag : TagRest}
    (hread : readTag start point text = .ok tag) :
    ClosedOnce (tag.tokens.filter fun placed => !placed.token.isTrivia) := by
  refine (closedOnce_of_readTag hread).filter fun placed hclosing => ?_
  rw [Token.isTrivia_of_isClosing hclosing, Bool.not_false]

def Fault.FoundAt (fault : Fault) (tokens : List PlacedToken) : Prop :=
  ∃ flaw, ∃ placed ∈ tokens,
    fault = .invalidTag flaw placed.start ∧ flaw.token? = some placed.token

theorem Fault.FoundAt.mono {fault : Fault} {tokens others : List PlacedToken}
    (hfound : fault.FoundAt tokens) (hsubset : tokens ⊆ others) : fault.FoundAt others := by
  obtain ⟨flaw, placed, hmem, hfault⟩ := hfound
  exact ⟨flaw, placed, hsubset hmem, hfault⟩

namespace Header

variable {stop : Point} {tokens : List PlacedToken} {fault : Fault}

theorem fault_of_value {placed : PlacedToken} (hvalue : value placed = .error fault) :
    fault = .invalidTag (.expectedValue placed.token) placed.start := by
  unfold value at hvalue
  split at hvalue <;> cases hvalue
  rfl

theorem foundAt_of_ofClosing (hclosed : PlacedToken.Closed tokens)
    (hheader : ofClosing stop tokens = .error fault) : fault.FoundAt tokens := by
  unfold ofClosing at hheader
  split at hheader
  · exact absurd rfl hclosed.ne_nil
  · next word start rest =>
      split at hheader
      · exact absurd rfl (hclosed.tail rfl).ne_nil
      · cases hheader
      · next found others _ =>
          cases hheader
          exact ⟨_, found, by simp, rfl, rfl⟩
  · next found rest _ =>
      cases hheader
      exact ⟨_, found, List.mem_cons_self, rfl, rfl⟩

theorem foundAt_of_ofOpening {name : String} {attributes : KeyMap Value}
    (hclosed : PlacedToken.Closed tokens)
    (hheader : ofOpening stop name attributes tokens = .error fault) : fault.FoundAt tokens := by
  fun_induction ofOpening stop name attributes tokens with
  | case1 => exact absurd rfl hclosed.ne_nil
  | case2 | case3 => cases hheader
  | case4 attributes key keyStart equalsStart written rest other hvalue =>
      cases hheader
      cases fault_of_value hvalue
      exact ⟨_, written, by simp, rfl, rfl⟩
  | case5 attributes key keyStart equalsStart written rest value hvalue induction =>
      have hrest := ((hclosed.tail rfl).tail rfl).tail (not_closing_of_value hvalue)
      exact (induction hrest hheader).mono fun placed hmem => by simp [hmem]
  | case6 attributes key keyStart equalsStart =>
      exact absurd rfl ((hclosed.tail rfl).tail rfl).ne_nil
  | case7 attributes key start rest =>
      cases hheader
      exact ⟨_, ⟨.name key, start⟩, List.mem_cons_self, rfl, rfl⟩
  | case8 attributes found rest =>
      cases hheader
      exact ⟨_, found, List.mem_cons_self, rfl, rfl⟩

theorem foundAt_of_ofTokens (hclosed : PlacedToken.Closed tokens)
    (hheader : ofTokens stop tokens = .error fault) : fault.FoundAt tokens := by
  unfold ofTokens at hheader
  split at hheader
  · exact absurd rfl hclosed.ne_nil
  · exact (foundAt_of_ofClosing (hclosed.tail rfl) hheader).mono (List.subset_cons_self _ _)
  · exact (foundAt_of_ofOpening (hclosed.tail rfl) hheader).mono (List.subset_cons_self _ _)
  · next found rest _ _ =>
      cases hheader
      exact ⟨_, found, List.mem_cons_self, rfl, rfl⟩

end Header

theorem TagRest.header_group (tag : TagRest) (start : Point) :
    (tag.group start).header =
      Header.ofTokens tag.stop (tag.tokens.filter fun placed => !placed.token.isTrivia) := rfl

theorem Fault.foundIn_of_header {start point : Point} {text : List Char} {tag : TagRest}
    {fault : Fault} (hread : readTag start point text = .ok tag)
    (hheader : (tag.group start).header = .error fault) : fault.FoundIn point text := by
  have hclosed := (PlacedToken.closedOnce_significant hread).closed
  rw [tag.header_group] at hheader
  obtain ⟨flaw, placed, hmem, rfl, htoken⟩ := Header.foundAt_of_ofTokens hclosed hheader
  obtain ⟨lexeme, hstands, hlexeme⟩ :=
    PlacedToken.standsAt_of_readTag hread (List.mem_filter.1 hmem).1
  exact ⟨flaw, lexeme, placed.start, rfl, hstands, .inr ⟨_, hlexeme, htoken⟩⟩

end Tagmark
