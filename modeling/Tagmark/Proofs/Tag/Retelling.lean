import Mathlib.Data.List.Forall2
import Tagmark.Proofs.Tag.Endings
import Tagmark.Proofs.Tag.Spacing

/-!
Tags told again with other line ends. Under a view that does not see these, a text is cut into the
same tags and the same texts between them, or is refused for the same reason (`segments_tell`).
-/

namespace Tagmark

open Text (endLines IsEnding)

/-- A view under which a text is the same with another line end. -/
structure Retelling extends View where
  ending : List Char
  isEnding : IsEnding ending
  keeps_ending : ending.filter keeps = ['\n'].filter keeps
  place_step : ∀ {left right : Point}, place left = place right →
    ∀ c, place (left.step c) = place (right.step c)
  place_ending : ∀ {left right : Point}, place left = place right →
    place (left.step '\n') = place (right.advance ending)

/-- Both succeed alike, or both fail with faults that look the same. -/
inductive View.SameResult (view : View) {α β : Type} (Same : α → β → Prop) :
    Except Fault α → Except Fault β → Prop
  | ok {left : α} {right : β} (hsame : Same left right) :
      SameResult view Same (.ok left) (.ok right)
  | error {left right : Fault} (hsame : view.fault left = view.fault right) :
      SameResult view Same (.error left) (.error right)

theorem View.sameResult_iff {view : View} {α β : Type} {f : α → β} {left right : Except Fault α} :
    view.SameResult (fun a b => f a = f b) left right ↔
      view.result f left = view.result f right := by
  constructor
  · intro hsame
    cases hsame with
    | ok hsame => exact congrArg Except.ok hsame
    | error hsame => exact congrArg Except.error hsame
  · intro heq
    cases left <;> cases right <;> injection heq
    · next hsame => exact .error hsame
    · next hsame => exact .ok hsame

theorem View.SameResult.map {view : View} {α β α' β' : Type} {Same : α → β → Prop}
    {Same' : α' → β' → Prop} {left : Except Fault α} {right : Except Fault β} {f : α → α'}
    {g : β → β'} (hsame : view.SameResult Same left right)
    (hmap : ∀ a b, Same a b → Same' (f a) (g b)) :
    view.SameResult Same' (left.map f) (right.map g) := by
  cases hsame with
  | ok hsame => exact .ok (hmap _ _ hsame)
  | error hsame => exact .error hsame

namespace Retelling

variable (told : Retelling)

def tell (text : List Char) : List Char :=
  endLines told.ending text

@[simp] theorem tell_nil : told.tell [] = [] := rfl

theorem tell_newline (rest : List Char) :
    told.tell ('\n' :: rest) = told.ending ++ told.tell rest := rfl

theorem tell_cons {c : Char} (hc : c ≠ '\n') (rest : List Char) :
    told.tell (c :: rest) = c :: told.tell rest :=
  Text.endLines_cons _ hc rest

theorem tell_append (left right : List Char) :
    told.tell (left ++ right) = told.tell left ++ told.tell right :=
  Text.endLines_append _ left right

theorem place_advance {left right : Point} (hplace : told.place left = told.place right)
    (text : List Char) :
    told.place (left.advance text) = told.place (right.advance (told.tell text)) := by
  induction text generalizing left right with
  | nil => exact hplace
  | cons c rest induction =>
      by_cases hc : c = '\n'
      · subst hc
        rw [tell_newline, Point.advance_append]
        exact induction (told.place_ending hplace)
      · rw [tell_cons told hc]
        exact induction (told.place_step hplace c)

structure SameRest (left right : TagRest) : Prop where
  tokens : left.plain.tokens.map told.placed = right.plain.tokens.map told.placed
  stop : told.place left.stop = told.place right.stop
  after : right.after = told.tell left.after

theorem sameRest_plain {left right : Except Fault TagRest} :
    told.SameResult told.SameRest (left.map TagRest.plain) (right.map TagRest.plain) ↔
      told.SameResult told.SameRest left right := by
  have hplain : ∀ left right : TagRest,
      told.SameRest left.plain right.plain ↔ told.SameRest left right := by
    intro left right
    have hplain : ∀ tag : TagRest, tag.plain.plain = tag.plain := by simp [TagRest.plain]
    constructor
    · rintro ⟨htokens, hstop, hafter⟩
      rw [hplain, hplain] at htokens
      exact ⟨htokens, hstop, hafter⟩
    · rintro ⟨htokens, hstop, hafter⟩
      refine ⟨?_, hstop, hafter⟩
      rw [hplain, hplain]
      exact htokens
  constructor
  · intro hsame
    cases left <;> cases right <;> cases hsame
    · next hsame => exact .error hsame
    · next hsame => exact .ok ((hplain _ _).1 hsame)
  · intro hsame
    exact hsame.map fun _ _ => (hplain _ _).2

theorem all_isSpacing_ending : told.ending.all Lexeme.isSpacing = true := by
  rcases told.isEnding with hending | hending <;> rw [hending] <;> rfl

section

variable {start start' point point' : Point}

theorem readTag_newline {rest : List Char}
    (hrest : told.SameResult told.SameRest (readTag start (point.step '\n') rest)
      (readTag start' (point'.advance told.ending) (told.tell rest))) :
    told.SameResult told.SameRest (readTag start point ('\n' :: rest))
      (readTag start' point' (told.tell ('\n' :: rest))) := by
  have hnewline : ['\n'].all Lexeme.isSpacing = true := rfl
  have hown := readTag_spaces hnewline start point rest
  have htold := readTag_spaces told.all_isSpacing_ending start' point' (told.tell rest)
  rw [List.singleton_append] at hown
  rw [tell_newline, ← told.sameRest_plain, hown, htold, told.sameRest_plain]
  exact hrest

theorem readTag_token (hpoint : told.place point = told.place point') {c : Char} (hc : c ≠ '\n')
    {rest : List Char} {token token' : Token}
    (htoken : (Lexeme.lex c rest).1.token = .ok token)
    (htoken' : (Lexeme.lex c (told.tell rest)).1.token = .ok token')
    (hsame : told.token token = told.token token')
    (hrest : ∀ {next next' : Point}, told.place next = told.place next' →
      told.SameResult told.SameRest (readTag start next (Lexeme.lex c rest).2)
        (readTag start' next' (told.tell (Lexeme.lex c rest).2))) :
    told.SameResult told.SameRest (readTag start point (c :: rest))
      (readTag start' point' (c :: told.tell rest)) := by
  have hlex : Lexeme.lex c (told.tell rest) =
      (⟨(Lexeme.lex c rest).1.kind, told.tell (Lexeme.lex c rest).1.text⟩,
        told.tell (Lexeme.lex c rest).2) := by
    apply Lexeme.lex_endLines told.isEnding hc
    rintro rfl
    have hkind := Lexeme.kind_ne_stray_of_token htoken
    rw [Lexeme.lex_double] at hkind
    by_contra hopen
    exact hkind (if_neg hopen)
  have hnext := told.place_advance hpoint (Lexeme.lex c rest).1.text
  rw [hlex] at htoken'
  cases hcloses : (Lexeme.lex c rest).1.closes with
  | true =>
      rw [readTag_close rfl htoken hcloses, readTag_close hlex htoken' hcloses]
      exact .ok ⟨told.significant_cons_congr hsame hpoint rfl, hnext, rfl⟩
  | false =>
      rw [readTag_cons rfl htoken hcloses, readTag_cons hlex htoken' hcloses]
      apply (hrest hnext).map
      intro tag tag' hrest
      exact ⟨told.significant_cons_congr hsame hpoint hrest.tokens, hrest.stop, hrest.after⟩

end

theorem readTag_tell {start start' : Point} (hstart : told.place start = told.place start')
    {point point' : Point} (hpoint : told.place point = told.place point') (text : List Char) :
    told.SameResult told.SameRest (readTag start point text)
      (readTag start' point' (told.tell text)) := by
  induction hlength : text.length using Nat.strongRecOn generalizing point point' text with
  | ind length induction =>
      subst hlength
      rcases text with _ | ⟨c, rest⟩
      · rw [tell_nil, readTag, readTag]
        exact .error (congrArg Fault.unterminatedTag hstart)
      · by_cases hc : c = '\n'
        · subst hc
          apply told.readTag_newline
          exact induction rest.length (Nat.lt_succ_self _) (told.place_ending hpoint) rest rfl
        · have hstep : Lexeme.SameToken told.toView (Lexeme.lex c rest).1.token
              (Lexeme.lex c (told.tell rest)).1.token :=
            Lexeme.sameToken_lex told.isEnding told.keeps_ending hc rest
          rw [tell_cons told hc]
          generalize htoken : (Lexeme.lex c rest).1.token = token at hstep
          generalize htoken' : (Lexeme.lex c (told.tell rest)).1.token = token' at hstep
          cases hstep with
          | error flaw flaw' =>
              rw [readTag_error rfl htoken, readTag_error rfl htoken']
              exact .error (congrArg (Fault.invalidTag .unfinished) hpoint)
          | ok hsame =>
              apply told.readTag_token hpoint hc htoken htoken' hsame
              intro next next' hnext
              exact induction _ (Lexeme.length_lex_lt c rest) hnext _ rfl

def Suits (text : List Char) : Prop :=
  told.ending = ['\n'] ∨ '\r' ∉ text

theorem suits_append {left right : List Char} :
    told.Suits (left ++ right) ↔ told.Suits left ∧ told.Suits right := by
  unfold Suits
  rw [List.mem_append, not_or, or_and_left]

/-- Segments in two tellings. -/
inductive SameSegment : Segment → Segment → Prop
  | tag {left right : TokenGroup} (hsame : told.SameGroup left right) :
      SameSegment (.tag left) (.tag right)
  | text {text : List Char} {start start' : Point} (hsuits : told.Suits text)
      (hplace : told.place start = told.place start') :
      SameSegment (.text text start) (.text (told.tell text) start')

theorem tell_eq_nil {text : List Char} : told.tell text = [] ↔ text = [] :=
  Text.endLines_eq_iff told.isEnding (by simp)

theorem sameSegment_ofText {start start' : Point} (hplace : told.place start = told.place start')
    {text : List Char} (hsuits : told.Suits text) :
    List.Forall₂ told.SameSegment (Segment.ofText start text)
      (Segment.ofText start' (told.tell text)) := by
  unfold Segment.ofText
  simp only [tell_eq_nil]
  split
  · exact .nil
  · exact .cons (.text hsuits hplace) .nil

theorem segments_tell {start start' : Point} (hplace : told.place start = told.place start')
    {text : List Char} (hsuits : told.Suits text) :
    told.SameResult (List.Forall₂ told.SameSegment) (segments start text)
      (segments start' (told.tell text)) := by
  induction hlength : text.length using Nat.strongRecOn generalizing start start' text with
  | ind length induction =>
      subst hlength
      have hinner : ∀ c ∈ ['{', '%'], Text.IsInner c := by simp [Text.IsInner]
      have hcut' : Text.cut? ['{', '%'] (told.tell text) = _ :=
        Text.cut?_endLines told.isEnding hinner text
      cases hcut : Text.cut? ['{', '%'] text with
      | none =>
          rw [hcut] at hcut'
          rw [segments_of_cut_none start hcut, segments_of_cut_none start' hcut']
          exact .ok (told.sameSegment_ofText hplace hsuits)
      | some pair =>
          obtain ⟨before, after⟩ := pair
          rw [hcut] at hcut'
          have htext := Text.cut?_eq_some hcut
          have hsuits' := hsuits
          rw [htext, suits_append, suits_append] at hsuits'
          obtain ⟨⟨hbefore, -⟩, hafter⟩ := hsuits'
          have hopening := told.place_advance hplace before
          have hpoint := told.place_advance hopening ['{', '%']
          have hread := told.readTag_tell hopening hpoint after
          generalize hleft : readTag (start.advance before)
            ((start.advance before).advance ['{', '%']) after = left at hread
          generalize hright : readTag (start'.advance (told.tell before))
            ((start'.advance (told.tell before)).advance (told.tell ['{', '%']))
            (told.tell after) = right at hread
          cases hread with
          | error hfault =>
              rw [segments_of_fault hcut hleft, segments_of_fault hcut' hright]
              exact .error hfault
          | @ok tag tag' hsame =>
              obtain ⟨front, hfront, -⟩ := readTag_frame hleft
              have hshort := Text.length_lt_of_cut? (List.cons_ne_nil _ _) hcut
              have hlength := length_after_le hleft
              have hrest : told.Suits tag.after := by
                rw [hfront, List.append_cons, List.append_cons, suits_append] at hafter
                exact hafter.2
              rw [segments_of_cut hcut hleft, segments_of_cut hcut' hright, hsame.after]
              apply (induction tag.after.length (by omega) hsame.stop hrest rfl).map
              intro others others' hothers
              have hgroup : told.SameGroup (tag.group (start.advance before))
                  (tag'.group (start'.advance (told.tell before))) := by
                refine ⟨told.significant_cons_congr rfl hopening hsame.tokens, ?_⟩
                exact congrArg₂ Span.mk hopening hsame.stop
              exact List.rel_append (told.sameSegment_ofText hplace hbefore)
                (.cons (.tag hgroup) hothers)

end Retelling

end Tagmark
