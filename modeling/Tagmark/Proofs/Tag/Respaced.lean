import Tagmark.Proofs.Tag.Retelling

/-!
Tags with other white space between their tokens. They are read alike but for their places
(`Respaced.readTag`). The part of such a tag before a newline has no end (`Respaced.readTag_cut`).
-/

namespace Tagmark

open Lexeme (EndsAlike Ends isSpacing)

/-- The same tag, from behind its opening delimiter up to its end, with other runs of white space in
the place of those between its tokens. -/
inductive Respaced : List Char → List Char → Prop
  | closing : Respaced ['%', '}'] ['%', '}']
  | selfClosing : Respaced ['/', '%', '}'] ['/', '%', '}']
  | lexeme {c : Char} {rest after after' : List Char} {lexeme : Lexeme} {token : Token}
      (hlex : Lexeme.lex c rest = (lexeme, after)) (htoken : lexeme.token = .ok token)
      (hcloses : lexeme.closes = false) (hafter : Respaced after after') :
      Respaced (c :: rest) (lexeme.text ++ after')
  | spaces {spaces spaces' rest rest' : List Char} (hne : spaces ≠ []) (hne' : spaces' ≠ [])
      (hspaces : spaces.all isSpacing = true) (hspaces' : spaces'.all isSpacing = true)
      (hrest : Respaced rest rest') : Respaced (spaces ++ rest) (spaces' ++ rest')

namespace Lexeme

theorem Ends.append {text : List Char} (hends : Ends text) (more : List Char) :
    Ends (text ++ more) := by
  cases hends with
  | space hspace => exact .space hspace
  | closing => exact .closing

theorem Ends.cut {front back : List Char} (hends : Ends (front ++ '\n' :: back)) :
    Ends (front ++ ['\n']) := by
  rcases front with _ | ⟨c, front⟩
  · exact .space (by decide)
  · generalize htext : c :: front ++ '\n' :: back = text at hends
    cases hends with
    | space hspace =>
        obtain ⟨rfl, -⟩ := List.cons.inj htext
        exact .space hspace
    | closing =>
        obtain ⟨rfl, hrest⟩ := List.cons.inj htext
        rcases front with _ | ⟨d, front⟩
        · cases hrest
        · obtain ⟨rfl, -⟩ := List.cons.inj hrest
          exact .closing

variable {text other : List Char}

theorem EndsAlike.append (halike : EndsAlike text other) (more : List Char) :
    EndsAlike text (other ++ more) := by
  obtain ⟨front, stop, stop', rfl, rfl, hstop, hstop', hclosing⟩ := halike
  refine ⟨front, stop, stop' ++ more, rfl, List.append_assoc .., hstop, hstop'.append more, ?_⟩
  intro tail htail
  cases hstop' with
  | closing => exact hclosing _ rfl
  | space hspace =>
      obtain ⟨rfl, -⟩ := List.cons.inj htail
      cases hspace

theorem EndsAlike.cut {front back : List Char} (halike : EndsAlike text (front ++ '\n' :: back))
    (hline : '\n' ∉ text) : EndsAlike text (front ++ ['\n']) := by
  obtain ⟨shared, stop, stop', rfl, hother, hstop, hstop', hclosing⟩ := halike
  rcases Text.append_eq_split hother.symm with ⟨more, rfl, -⟩ | ⟨more, rfl, rfl⟩
  · exact absurd (by simp) hline
  refine ⟨shared, stop, more ++ ['\n'], rfl, List.append_assoc .., hstop, hstop'.cut, ?_⟩
  intro tail htail
  rcases more with _ | ⟨c, _ | ⟨d, more⟩⟩
  · cases htail
  · cases htail
  · obtain ⟨rfl, hrest⟩ := List.cons.inj htail
    obtain ⟨rfl, -⟩ := List.cons.inj hrest
    exact hclosing _ rfl

theorem lex_of_endsAlike {c : Char} {rest after other : List Char} {lexeme : Lexeme} {token : Token}
    (hlex : lex c rest = (lexeme, after)) (htoken : lexeme.token = .ok token)
    (halike : EndsAlike after other) : lex c (lexeme.text.tail ++ other) = (lexeme, other) := by
  have hframe := @lex_frame c rest other
  rw [hlex] at hframe
  exact hframe halike (kind_ne_stray_of_token htoken)

end Lexeme

namespace Respaced

variable {body variant : List Char}

theorem endsAlike (hspaced : Respaced body variant) : EndsAlike body variant := by
  induction hspaced with
  | closing => exact Lexeme.endsAlike_closing [] [] []
  | selfClosing => exact Lexeme.endsAlike_closing ['/'] [] []
  | @lexeme c rest after after' lexeme token hlex htoken hcloses hafter induction =>
      obtain ⟨front, stop, stop', rfl, rfl, hends⟩ := induction
      have happend := Lexeme.lex_append c rest
      rw [hlex] at happend
      exact ⟨lexeme.text ++ front, stop, stop', by rw [← happend, List.append_assoc],
        (List.append_assoc ..).symm, hends⟩
  | @spaces spaces spaces' rest rest' hne hne' hspaces hspaces' hrest induction =>
      obtain ⟨c, spaces, rfl⟩ := List.exists_cons_of_ne_nil hne
      obtain ⟨d, spaces', rfl⟩ := List.exists_cons_of_ne_nil hne'
      have hc := List.all_eq_true.1 hspaces c List.mem_cons_self
      have hd := List.all_eq_true.1 hspaces' d List.mem_cons_self
      refine ⟨[], _, _, rfl, rfl, .space hc, .space hd, ?_⟩
      intro tail htail
      obtain ⟨rfl, -⟩ := List.cons.inj htail
      cases hd

theorem refl (hspaced : Respaced body variant) : Respaced body body := by
  induction hspaced with
  | closing => exact .closing
  | selfClosing => exact .selfClosing
  | @lexeme c rest after after' lexeme token hlex htoken hcloses hafter induction =>
      have hself := Respaced.lexeme hlex htoken hcloses induction
      have happend := Lexeme.lex_append c rest
      rw [hlex] at happend
      rwa [show lexeme.text ++ after = c :: rest from happend] at hself
  | spaces hne hne' hspaces hspaces' hrest induction =>
      exact .spaces hne hne hspaces hspaces induction

theorem exists_closing (hspaced : Respaced body variant) :
    ∃ front, variant = front ++ ['%', '}'] := by
  induction hspaced with
  | closing => exact ⟨[], rfl⟩
  | selfClosing => exact ⟨['/'], rfl⟩
  | lexeme hlex htoken hcloses hafter induction =>
      obtain ⟨front, rfl⟩ := induction
      exact ⟨_, (List.append_assoc ..).symm⟩
  | spaces hne hne' hspaces hspaces' hrest induction =>
      obtain ⟨front, rfl⟩ := induction
      exact ⟨_, (List.append_assoc ..).symm⟩

end Respaced

/-- The view of everything but places, with the text as it is. -/
def Retelling.unplaced : Retelling where
  toView := .ofPlaces fun _ => .origin
  ending := ['\n']
  isEnding := .inl rfl
  keeps_ending := rfl
  place_step := fun _ _ => rfl
  place_ending := fun _ => rfl

@[simp] theorem Retelling.tell_unplaced (text : List Char) : unplaced.tell text = text :=
  Text.endLines_self text

theorem Retelling.place_unplaced (left right : Point) : unplaced.place left = unplaced.place right :=
  rfl

theorem Retelling.readTag_unplaced (start point start' point' : Point) (text : List Char) :
    unplaced.SameResult unplaced.SameRest (readTag start point text) (readTag start' point' text) := by
  have hsame : unplaced.SameResult unplaced.SameRest (readTag start point text)
      (readTag start' point' (unplaced.tell text)) :=
    unplaced.readTag_tell (place_unplaced start start') (place_unplaced point point') text
  rwa [tell_unplaced] at hsame

namespace Respaced

variable {body variant : List Char}

theorem readTag (hspaced : Respaced body variant) (start point start' point' : Point)
    (back : List Char) :
    Retelling.unplaced.SameResult Retelling.unplaced.SameRest
      (Tagmark.readTag start point (body ++ back))
      (Tagmark.readTag start' point' (variant ++ back)) := by
  induction hspaced generalizing point point' with
  | closing | selfClosing => exact Retelling.readTag_unplaced _ _ _ _ _
  | @lexeme c rest after after' lexeme token hlex htoken hcloses hafter induction =>
      have hhead := Lexeme.cons_tail_lex_text c rest
      have happend := Lexeme.lex_append c rest
      rw [hlex] at hhead happend
      have hself := Lexeme.lex_of_endsAlike hlex htoken (hafter.refl.endsAlike.append back)
      have hother := Lexeme.lex_of_endsAlike hlex htoken (hafter.endsAlike.append back)
      rw [← show lexeme.text ++ after = c :: rest from happend,
        ← show c :: lexeme.text.tail = lexeme.text from hhead, List.cons_append,
        List.cons_append, List.cons_append, List.cons_append, List.append_assoc,
        List.append_assoc, readTag_cons hself htoken hcloses, readTag_cons hother htoken hcloses]
      apply (induction _ _).map
      intro tag tag' hrest
      exact ⟨Retelling.unplaced.significant_cons_congr rfl rfl hrest.tokens, hrest.stop, hrest.after⟩
  | spaces hne hne' hspaces hspaces' hrest induction =>
      rw [List.append_assoc, List.append_assoc, ← Retelling.sameRest_plain,
        readTag_spaces hspaces, readTag_spaces hspaces', Retelling.sameRest_plain]
      exact induction _ _

theorem readTag_spaces_cut {spaces : List Char} (hspaces : spaces.all isSpacing = true)
    {start : Point} {rest : List Char}
    (hrest : ∀ point, Tagmark.readTag start point rest = .error (.unterminatedTag start))
    (point : Point) :
    Tagmark.readTag start point (spaces ++ rest) = .error (.unterminatedTag start) := by
  have hread := readTag_spaces hspaces start point rest
  rw [hrest] at hread
  cases hresult : Tagmark.readTag start point (spaces ++ rest) with
  | error fault =>
      rw [hresult] at hread
      exact congrArg Except.error (Except.error.inj hread)
  | ok tag =>
      rw [hresult] at hread
      cases hread

theorem readTag_cut (hspaced : Respaced body variant) (hline : '\n' ∉ body) {front back : List Char}
    (hvariant : variant = front ++ '\n' :: back) (start point : Point) :
    Tagmark.readTag start point (front ++ ['\n']) = .error (.unterminatedTag start) := by
  induction hspaced generalizing front point with
  | closing => exact absurd (by simp [hvariant]) hline
  | selfClosing => exact absurd (by simp [hvariant]) hline
  | @lexeme c rest after after' lexeme token hlex htoken hcloses hafter induction =>
      have hhead := Lexeme.cons_tail_lex_text c rest
      have happend := Lexeme.lex_append c rest
      rw [hlex] at hhead happend
      rw [← show lexeme.text ++ after = c :: rest from happend, List.mem_append, not_or] at hline
      rcases Text.append_eq_split hvariant with ⟨more, htext, -⟩ | ⟨more, rfl, rfl⟩
      · exact absurd (by simp [htext]) hline.1
      · have hlex' := Lexeme.lex_of_endsAlike hlex htoken (hafter.endsAlike.cut hline.2)
        rw [List.append_assoc, ← show c :: lexeme.text.tail = lexeme.text from hhead,
          List.cons_append, readTag_cons hlex' htoken hcloses, induction hline.2 rfl]
        rfl
  | @spaces spaces spaces' rest rest' hne hne' hspaces hspaces' hrest induction =>
      rw [List.mem_append, not_or] at hline
      rcases Text.append_eq_split hvariant with ⟨more, rfl, -⟩ | ⟨more, rfl, rfl⟩
      · have hseen : (front ++ ['\n']).all isSpacing = true := by
          rw [List.append_cons, List.all_append, Bool.and_eq_true] at hspaces'
          exact hspaces'.1
        have hnothing : ∀ point, Tagmark.readTag start point [] = .error (.unterminatedTag start) := by
          intro point
          rw [Tagmark.readTag]
        have hcut := readTag_spaces_cut hseen hnothing point
        rwa [List.append_nil] at hcut
      · rw [List.append_assoc]
        exact readTag_spaces_cut hspaces' (induction hline.2 rfl) point

end Respaced

end Tagmark
