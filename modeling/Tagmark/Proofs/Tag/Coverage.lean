import Tagmark.Proofs.Tag.Endings
import Tagmark.Proofs.Tag.Flaws

/-!
What text segments and tokens cover. The segments of a text follow on each other from its first place
to its last, and so do the tokens of each tag in it. Numbers and escapes apart, a token prints as the
text that it covers (`Segment.consecutive_of_segments`).
-/

namespace Tagmark

universe u

/-- Things that follow on each other from a place on, each with the text that it covers. -/
inductive Consecutive {α : Type u} (Covers : α → Point → List Char → Prop) :
    Point → List α → List (List Char) → Prop
  | nil {point : Point} : Consecutive Covers point [] []
  | cons {point : Point} {first : α} {rest : List α} {source : List Char}
      {sources : List (List Char)} (hfirst : Covers first point source)
      (hrest : Consecutive Covers (point.advance source) rest sources) :
      Consecutive Covers point (first :: rest) (source :: sources)

/-- A token and its source. Numbers and escaped texts are what their source is read as; all other
tokens print as it. -/
structure PlacedToken.Covers (placed : PlacedToken) (point : Point) (source : List Char) : Prop where
  start : placed.start = point
  ne_nil : source ≠ []
  print : (∀ value, placed.token ≠ .number value) →
    (∀ value, placed.token = .text value .double → '\\' ∉ source) →
      placed.token.print.toList = source
  number : ∀ value, placed.token = .number value →
    (Number.read? source).getD Number.nan = value
  escaped : ∀ value, placed.token = .text value .double → '\\' ∈ source →
    unescape source = .ok value.toList

def TokenGroup.Delimited (group : TokenGroup) : Prop :=
  ∃ first middle last, group.tokens = first :: (middle ++ [last]) ∧
    first.token = .opening ∧ last.token.isClosing = true ∧
    ∀ placed ∈ middle, placed.token ≠ .opening ∧ placed.token.isClosing = false

/-- A segment and its source. Text holds no opening delimiter; a tag is delimited, its tokens cover
its source, and it is read from this source alone. -/
inductive Segment.Covers : Segment → Point → List Char → Prop
  | text {point : Point} {source : List Char} (hne : source ≠ [])
      (hplain : ¬ ['{', '%'] <:+: source) : Covers (.text source point) point source
  | tag {point : Point} {source : List Char} {group : TokenGroup} {sources : List (List Char)}
      (hspan : group.span = .covering point source) (hdelimited : group.Delimited)
      (hsource : sources.flatten = source)
      (htokens : Consecutive PlacedToken.Covers point group.tokens sources)
      (hreads : group.ReadsFrom point source) : Covers (.tag group) point source

namespace Lexeme

section Token

variable {lexeme : Lexeme} {token : Token}

theorem eq_double_of_token {value : String} (htoken : lexeme.token = .ok (.text value .double)) :
    lexeme.kind = .double := by
  obtain ⟨kind, text⟩ := lexeme
  cases kind with
  | double => rfl
  | _ => cases htoken

theorem unescape_of_token {value : String} (htoken : lexeme.token = .ok (.text value .double))
    (hescaped : '\\' ∈ lexeme.text) : unescape lexeme.text = .ok value.toList := by
  rw [Lexeme.token, eq_double_of_token htoken] at htoken
  dsimp only at htoken
  rw [if_pos hescaped] at htoken
  split at htoken
  · next unescaped hvalue =>
      cases htoken
      rw [hvalue, String.toList_ofList]
  · cases htoken

theorem read_of_token {value : Number} (htoken : lexeme.token = .ok (.number value)) :
    (Number.read? lexeme.text).getD Number.nan = value := by
  obtain ⟨kind, text⟩ := lexeme
  cases kind with
  | number =>
      cases htoken
      rfl
  | double =>
      dsimp only [Lexeme.token] at htoken
      split at htoken
      · split at htoken <;> cases htoken
      · cases htoken
  | _ => cases htoken

theorem ne_opening_of_token (htoken : lexeme.token = .ok token) : token ≠ .opening := by
  rintro rfl
  obtain ⟨kind, text⟩ := lexeme
  cases kind with
  | double =>
      dsimp only [Lexeme.token] at htoken
      split at htoken
      · split at htoken <;> cases htoken
      · cases htoken
  | _ => cases htoken

end Token

variable {c : Char} {rest : List Char} {token : Token}

theorem print_token (htoken : (lex c rest).1.token = .ok token)
    (hnumber : ∀ value, token ≠ .number value)
    (hescaped : ∀ value, token = .text value .double → '\\' ∉ (lex c rest).1.text) :
    token.print.toList = (lex c rest).1.text := by
  have hquoted : ∀ (inner : List Char) (quote : Quote),
      (Token.text (String.ofList inner) quote).print.toList =
        quote.mark :: (inner ++ [quote.mark]) := by
    intro inner quote
    simp [Token.print]
  revert htoken hescaped
  fun_cases lex c rest <;> intro htoken hescaped
  case case1 | case14 => cases htoken
  case case7 | case8 | case9 =>
    cases htoken
    simp [Token.print]
  case case10 closed text after hread =>
    cases closed with
    | false => cases htoken
    | true =>
        have hclosed : (doubleQuoted rest).1 = true := by rw [hread]
        obtain ⟨inner, hinner⟩ := exists_of_doubleQuoted hclosed
        rw [hread] at hinner
        cases hinner
        change Lexeme.token ⟨.double, '"' :: (inner ++ ['"'])⟩ = .ok token at htoken
        rw [Lexeme.token] at htoken
        dsimp only at htoken
        split at htoken
        · next hmem =>
            split at htoken
            · cases htoken
              exact absurd hmem (hescaped _ rfl)
            · cases htoken
        · cases htoken
          rw [List.tail_cons, List.dropLast_concat]
          exact hquoted inner .double
  case case11 closed text after hread =>
    cases closed with
    | false => cases htoken
    | true =>
        have hclosed : (singleQuoted rest).1 = true := by rw [hread]
        obtain ⟨inner, hinner⟩ := exists_of_singleQuoted hclosed
        rw [hread] at hinner
        cases hinner
        change Lexeme.token ⟨.single, '\'' :: (inner ++ ['\''])⟩ = .ok token at htoken
        cases htoken
        rw [List.tail_cons, List.dropLast_concat]
        exact hquoted inner .single
  case case12 =>
    cases htoken
    simp [Token.print]
  case case13 =>
    rcases number_kind (c :: rest) with hkind | hkind
    · rw [Lexeme.token, hkind] at htoken
      cases htoken
      exact absurd rfl (hnumber _)
    · exact absurd hkind (kind_ne_stray_of_token htoken)
  all_goals
    cases htoken
    rfl

theorem covers_token (htoken : (lex c rest).1.token = .ok token) (point : Point) :
    PlacedToken.Covers ⟨token, point⟩ point (lex c rest).1.text where
  start := rfl
  ne_nil := lex_text_ne_nil c rest
  print := print_token htoken
  number := by
    rintro value rfl
    exact read_of_token htoken
  escaped := by
    rintro value rfl hescaped
    exact unescape_of_token htoken hescaped

end Lexeme

/-- The tokens of a tag behind its opening delimiter cover the text up to where it ends, and none of
them opens a tag. -/
theorem PlacedToken.consecutive_of_readTag {start point : Point} {text : List Char} {tag : TagRest}
    (hread : readTag start point text = .ok tag) :
    (∃ sources, text = sources.flatten ++ tag.after ∧
      Consecutive PlacedToken.Covers point tag.tokens sources) ∧
    ∀ placed ∈ tag.tokens, placed.token ≠ .opening := by
  fun_induction readTag start point text generalizing tag with
  | case1 | case2 | case4 => cases hread
  | case3 point c rest lexed token htoken =>
      cases hread
      refine ⟨⟨[lexed.1.text], ?_, .cons (Lexeme.covers_token htoken point) .nil⟩, ?_⟩
      · simpa using (Lexeme.lex_append c rest).symm
      · simpa using Lexeme.ne_opening_of_token htoken
  | case5 point c rest lexed token htoken next hcloses tag' hrest =>
      next induction =>
        cases hread
        obtain ⟨⟨sources, hafter, hcovers⟩, hopening⟩ := induction hrest
        have hfirst := Lexeme.covers_token htoken point
        refine ⟨⟨lexed.1.text :: sources, ?_, .cons hfirst hcovers⟩, ?_⟩
        · rw [List.flatten_cons, List.append_assoc, ← hafter]
          exact (Lexeme.lex_append c rest).symm
        · exact List.forall_mem_cons.2 ⟨Lexeme.ne_opening_of_token htoken, hopening⟩

theorem TagRest.delimited_group {start point : Point} {text : List Char} {tag : TagRest}
    (hread : readTag start point text = .ok tag) (opening : Point) :
    (tag.group opening).Delimited := by
  obtain ⟨middle, last, htokens, hlast, hmiddle⟩ := PlacedToken.closedOnce_of_readTag hread
  obtain ⟨-, hopening⟩ := PlacedToken.consecutive_of_readTag hread
  refine ⟨⟨.opening, opening⟩, middle, last, congrArg _ htokens, rfl, hlast, fun placed hmem => ?_⟩
  exact ⟨hopening placed (by simp [htokens, hmem]), hmiddle placed hmem⟩

theorem PlacedToken.covers_opening (point : Point) :
    PlacedToken.Covers ⟨.opening, point⟩ point ['{', '%'] where
  start := rfl
  ne_nil := List.cons_ne_nil _ _
  print := fun _ _ => (by decide : Token.opening.print.toList = ['{', '%'])
  number := nofun
  escaped := nofun

theorem TokenGroup.ReadsFrom.covers {group : TokenGroup} {point : Point} {source : List Char}
    (hreads : group.ReadsFrom point source) : Segment.Covers (.tag group) point source := by
  obtain ⟨tag, body, rfl, hread, hafter, rfl⟩ := hreads.exists_readTag
  obtain ⟨-, -, hspan⟩ := hreads.source
  obtain ⟨⟨sources, hbody, hcovers⟩, -⟩ := PlacedToken.consecutive_of_readTag hread
  have hsource : (['{', '%'] :: sources).flatten = '{' :: '%' :: body := by
    rw [hbody, hafter, List.append_nil]
    rfl
  exact .tag hspan (TagRest.delimited_group hread point) hsource
    (.cons (PlacedToken.covers_opening point) hcovers) hreads

theorem Consecutive.append {α : Type u} {Covers : α → Point → List Char → Prop} {point : Point}
    {left right : List α} {sources others : List (List Char)}
    (hleft : Consecutive Covers point left sources)
    (hright : Consecutive Covers (point.advance sources.flatten) right others) :
    Consecutive Covers point (left ++ right) (sources ++ others) := by
  induction hleft with
  | nil => exact hright
  | cons hfirst _ induction =>
      rw [List.flatten_cons, Point.advance_append] at hright
      exact .cons hfirst (induction hright)

def Segment.sourcesOf (text : List Char) : List (List Char) :=
  if text = [] then [] else [text]

theorem Segment.flatten_sourcesOf (text : List Char) : (sourcesOf text).flatten = text := by
  unfold sourcesOf
  split
  · next hempty => exact hempty.symm
  · exact List.flatten_singleton

theorem Segment.consecutive_ofText {text : List Char} (hplain : Text.cut? ['{', '%'] text = none)
    (point : Point) :
    Consecutive Segment.Covers point (Segment.ofText point text) (sourcesOf text) := by
  unfold Segment.ofText sourcesOf
  split
  · exact .nil
  · next hne =>
      refine .cons (.text hne ?_) .nil
      rintro ⟨before, after, rfl⟩
      have hfound := Text.contains_append ['{', '%'] before after
      rw [← List.append_assoc, Text.contains, hplain] at hfound
      cases hfound

theorem Segment.consecutive_tag {point : Point} {before body after : List Char} {group : TokenGroup}
    {rest : List Segment} {sources : List (List Char)}
    (hcut : Text.cut? ['{', '%'] (before ++ '{' :: '%' :: (body ++ after)) =
      some (before, body ++ after))
    (hreads : group.ReadsFrom (point.advance before) ('{' :: '%' :: body))
    (hrest : Consecutive Segment.Covers (point.advance (before ++ '{' :: '%' :: body)) rest sources) :
    Consecutive Segment.Covers point (Segment.ofText point before ++ .tag group :: rest)
      (sourcesOf before ++ ('{' :: '%' :: body) :: sources) := by
  have hbefore := consecutive_ofText (Text.cut?_before hcut (List.cons_ne_nil _ _)) point
  rw [Point.advance_append] at hrest
  refine hbefore.append ?_
  rw [flatten_sourcesOf]
  exact .cons hreads.covers hrest

/-- The segments of a text follow on each other and cover it: texts without an opening delimiter, and
tags whose tokens cover them in the same way. -/
theorem Segment.consecutive_of_segments {start : Point} {text : List Char} {cut : List Segment}
    (hsegments : segments start text = .ok cut) :
    ∃ sources, sources.flatten = text ∧ Consecutive Segment.Covers start cut sources := by
  have htiles := tiles_of_segments hsegments
  clear hsegments
  induction htiles with
  | text hcut => exact ⟨_, flatten_sourcesOf _, consecutive_ofText hcut _⟩
  | tag hcut hreads _ induction =>
      obtain ⟨sources, rfl, hcovers⟩ := induction
      exact ⟨_, by simp [flatten_sourcesOf], consecutive_tag hcut hreads hcovers⟩

theorem Segment.consecutive_of_segments_quoted :
    let start : Point := ⟨3, 5, 40⟩
    let text := "é \x7b% a k=\"%\x7d\nü\" l=-1.5e1 m='\\' %\x7d x\x7b%/a%\x7d\n".toList
    ∃ cut, segments start text = .ok cut ∧ cut.length = 5 ∧
      ∃ sources, sources.flatten = text ∧ Consecutive Segment.Covers start cut sources := by
  intro start text
  have hlength : (segments start text).toOption.map List.length = some 5 := by decide +kernel
  obtain ⟨cut, hsegments, hlength⟩ := exists_of_toOption_map hlength
  exact ⟨cut, hsegments, hlength, consecutive_of_segments hsegments⟩

end Tagmark
