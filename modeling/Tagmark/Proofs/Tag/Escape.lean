import Tagmark.Proofs.Text.Endings
import Tagmark.Tag.Escape

/-!
Escapes one after the other. Only where an escape stands in a text and what the whole text is goes
into a flaw, so that a text is read from its characters alone (`toOption_resolve`), and with other
line ends it is read as the same up to these (`read?_endLines`).
-/

namespace Tagmark.Escape

/-- The character that an escape stands for, from the text after its backslash, and what follows. -/
def escape? : List Char → Option (Char × List Char)
  | 'u' :: '{' :: rest =>
      (codePoint (rest.takeWhile (· != '}'))).toOption.map fun c =>
        (c, (rest.dropWhile (· != '}')).tail)
  | 'u' :: _ => none
  | letter :: rest => (simple? letter).map fun c => (c, rest)
  | [] => none

theorem length_escape?_le {text after : List Char} {c : Char}
    (hescape : escape? text = some (c, after)) : after.length ≤ text.length := by
  revert hescape
  fun_cases escape? text with
  | case1 rest =>
      intro hescape
      obtain ⟨d, -, heq⟩ := Option.map_eq_some_iff.1 hescape
      obtain ⟨-, rfl⟩ := Prod.mk.inj heq
      have hdrop := (List.dropWhile_sublist (· != '}') (l := rest)).length_le
      simp only [List.length_tail, List.length_cons]
      omega
  | case2 | case4 => simp
  | case3 letter rest =>
      intro hescape
      obtain ⟨d, -, heq⟩ := Option.map_eq_some_iff.1 hescape
      obtain ⟨-, rfl⟩ := Prod.mk.inj heq
      simp

def read? (text : List Char) : Option (List Char) :=
  match text with
  | [] => some []
  | c :: rest =>
      if c = '\\' then
        match _hescape : escape? rest with
        | none => none
        | some (d, after) => (read? after).map (d :: ·)
      else (read? rest).map fun tail => if c = '"' then tail else c :: tail
termination_by text.length
decreasing_by
  · have := length_escape?_le _hescape
    simp
    omega
  · simp

theorem read?_nil : read? [] = some [] := by
  rw [read?]

theorem read?_escape (rest : List Char) :
    read? ('\\' :: rest) =
      (escape? rest).bind fun escaped => (read? escaped.2).map (escaped.1 :: ·) := by
  rw [read?, if_pos rfl]
  split
  · next hnone => rw [hnone, Option.bind_none]
  · next d after hsome => rw [hsome, Option.bind_some]

theorem read?_cons {c : Char} (hc : c ≠ '\\') (rest : List Char) :
    read? (c :: rest) = (read? rest).map fun tail => if c = '"' then tail else c :: tail := by
  rw [read?, if_neg hc]

theorem escape?_letter {letter : Char} (hletter : letter ≠ 'u') (rest : List Char) :
    escape? (letter :: rest) = (simple? letter).map fun c => (c, rest) := by
  rw [escape?]
  · rintro _ rfl
    exact absurd rfl hletter
  · rintro rfl
    exact absurd rfl hletter

theorem escape?_unbraced {rest : List Char} (hrest : ∀ tail, rest ≠ '{' :: tail) :
    escape? ('u' :: rest) = none := by
  rw [escape?]
  exact hrest

theorem toOption_map {α β ε : Type} (first : Except ε α) (f : α → β) :
    (first >>= fun value => pure (f value)).toOption = first.toOption.map f := by
  cases first <;> rfl

theorem toOption_resolve (source : String) (index : Nat) (text : List Char) :
    (resolve source index text).toOption = read? text := by
  fun_induction resolve source index text with
  | case1 => exact read?_nil.symm
  | case2 index rest flaw hflaw => simp [read?_escape, escape?, hflaw, Except.toOption]
  | case3 index rest c hc digits induction =>
      rw [toOption_map, induction, read?_escape, ← List.tail_drop, Text.drop_takeWhile]
      simp [escape?, hc, Except.toOption]
  | case4 index tail hbrace =>
      rw [read?_escape, escape?_unbraced hbrace]
      rfl
  | case5 index letter rest _ hletter hnone =>
      rw [read?_escape, escape?_letter hletter, hnone]
      rfl
  | case6 index letter rest _ hletter c hsome induction =>
      rw [toOption_map, induction, read?_escape, escape?_letter hletter, hsome]
      rfl
  | case7 index => rw [read?_escape]; rfl
  | case8 index c rest _ _ hletter hlast induction =>
      have hc : c ≠ '\\' := by
        rintro rfl
        cases rest with
        | nil => exact hlast rfl rfl
        | cons letter rest => exact hletter letter rest rfl rfl
      rw [toOption_map, induction, read?_cons hc]

theorem read?_append {plain : List Char} (hplain : '\\' ∉ plain) (rest : List Char) :
    read? (plain ++ rest) = (read? rest).map (plain.filter (· != '"') ++ ·) := by
  induction plain with
  | nil => simp
  | cons c tail induction =>
      obtain ⟨hc, htail⟩ := not_or.1 (mt List.mem_cons.2 hplain)
      rw [List.cons_append, read?_cons (Ne.symm hc), induction htail, Option.map_map]
      by_cases hquote : c = '"' <;> simp [hquote, Function.comp_def]

theorem read?_plain {plain : List Char} (hplain : '\\' ∉ plain) : read? plain ≠ none := by
  have hread := read?_append hplain []
  rw [List.append_nil, read?_nil] at hread
  simp [hread]

theorem hexDigit?_of_hexValue {written : String} {value result : Nat} {digits : List Char}
    (hvalue : hexValue written value digits = .ok result) :
    ∀ c ∈ digits, (hexDigit? c).isSome = true := by
  induction digits generalizing value with
  | nil => simp
  | cons c rest induction =>
      rw [hexValue] at hvalue
      split at hvalue
      · cases hvalue
      · next digit hdigit =>
          split at hvalue
          · cases hvalue
          · exact List.forall_mem_cons.2 ⟨by rw [hdigit]; rfl, induction hvalue⟩

theorem mem_of_codePoint {digits : List Char} {c : Char} (hcode : codePoint digits = .ok c) :
    ∀ d ∈ digits, d = '+' ∨ (hexDigit? d).isSome = true := by
  have hnumber : ∀ (value : Except CodePointFlaw Nat) (rest : List Char),
      value = hexValue (String.ofList digits) 0 rest →
      (value >>= fun value => if value.isValidChar then Except.ok (Char.ofNat value)
        else .error (.notScalar value)) = .ok c →
      ∀ d ∈ rest, d = '+' ∨ (hexDigit? d).isSome = true := by
    intro value rest hvalue hvalid d hmem
    cases value with
    | error flaw => cases hvalid
    | ok value => exact .inr (hexDigit?_of_hexValue hvalue.symm d hmem)
  unfold codePoint at hcode
  dsimp only at hcode
  split at hcode
  · cases hcode
  · cases hcode
  · next rest _ => exact List.forall_mem_cons.2 ⟨.inl rfl, hnumber _ rest rfl hcode⟩
  · exact hnumber _ _ rfl hcode

/-- What cannot be read cannot be read after a backslash and one more character either, although
the escape may take in more than that character. -/
theorem read?_escaped {text : List Char} (hnone : read? text = none) (letter : Char) :
    read? ('\\' :: letter :: text) = none := by
  rw [read?_escape]
  by_cases hletter : letter = 'u'
  · subst hletter
    by_cases hbrace : ∃ rest, text = '{' :: rest
    · obtain ⟨rest, rfl⟩ := hbrace
      cases hcode : codePoint (rest.takeWhile (· != '}')) with
      | error flaw => simp [escape?, hcode, Except.toOption]
      | ok c =>
          have hplain : '\\' ∉ '{' :: rest.takeWhile (· != '}') := by
            intro hmem
            rcases List.mem_cons.1 hmem with h | hdigits
            · cases h
            · rcases mem_of_codePoint hcode '\\' hdigits with h | h
              · cases h
              · cases h
          have hsplit : '{' :: rest =
              ('{' :: rest.takeWhile (· != '}')) ++ rest.dropWhile (· != '}') := by
            rw [List.cons_append, List.takeWhile_append_dropWhile]
          rw [hsplit, read?_append hplain, Option.map_eq_none_iff] at hnone
          have hafter : read? (rest.dropWhile (· != '}')).tail = none := by
            have hhead := List.head?_dropWhile_not (· != '}') rest
            cases hdrop : rest.dropWhile (· != '}') with
            | nil =>
                rw [hdrop, read?_nil] at hnone
                cases hnone
            | cons d tail =>
                rw [hdrop] at hhead hnone
                obtain rfl : d = '}' := by simpa using hhead
                rw [read?_cons (by decide)] at hnone
                exact Option.map_eq_none_iff.1 hnone
          simp [escape?, hcode, Except.toOption, hafter]
    · rw [escape?_unbraced fun tail heq => hbrace ⟨tail, heq⟩]
      rfl
  · rw [escape?_letter hletter]
    cases simple? letter with
    | none => rfl
    | some c => simp [hnone]

open Text (endLines IsEnding)

theorem map_filter_append (keeps : Char → Bool) (front : List Char)
    (read : Option (List Char)) :
    (read.map (front ++ ·)).map (List.filter keeps) =
      (read.map (List.filter keeps)).map (front.filter keeps ++ ·) := by
  cases read with
  | none => rfl
  | some text => exact congrArg some (List.filter_append front text)

section

variable {ending : List Char} (hending : IsEnding ending)

include hending

theorem codePoint_endLines (digits : List Char) :
    (codePoint (endLines ending digits)).toOption = (codePoint digits).toOption := by
  have hfail : ∀ text : List Char, '\n' ∈ text → (codePoint text).toOption = none := by
    intro text hmem
    cases hcode : codePoint text with
    | error flaw => rfl
    | ok c =>
        rcases mem_of_codePoint hcode '\n' hmem with h | h
        · cases h
        · cases h
  by_cases hmem : '\n' ∈ digits
  · obtain ⟨front, back, rfl⟩ := List.append_of_mem hmem
    rw [hfail _ hmem, hfail]
    rcases hending with rfl | rfl <;> simp
  · rw [Text.endLines_of_not_mem ending hmem]

theorem escape?_endLines (text : List Char) :
    escape? (endLines ending text) = (escape? text).map (Prod.map id (endLines ending)) := by
  cases text with
  | nil => rfl
  | cons letter rest =>
      by_cases hnewline : letter = '\n'
      · subst hnewline
        rcases hending with rfl | rfl <;> rfl
      · rw [Text.endLines_cons _ hnewline]
        by_cases hletter : letter = 'u'
        · subst hletter
          by_cases hbrace : ∃ tail, rest = '{' :: tail
          · obtain ⟨tail, rfl⟩ := hbrace
            have hdigits : (tail.dropWhile (· != '}')).head? ≠ some '\n' := by
              intro hhead
              have hnot := List.head?_dropWhile_not (· != '}') tail
              rw [hhead] at hnot
              cases hnot
            rw [Text.endLines_cons _ (by decide), escape?, escape?,
              Text.takeWhile_endLines hending (by decide),
              Text.dropWhile_endLines hending (by decide), codePoint_endLines hending,
              Text.tail_endLines ending hdigits]
            cases (codePoint (tail.takeWhile (· != '}'))).toOption <;> rfl
          · have hnone : escape? ('u' :: rest) = none :=
              escape?_unbraced fun tail heq => hbrace ⟨tail, heq⟩
            rw [hnone, escape?_unbraced]
            · rfl
            · intro tail heq
              obtain ⟨tail', hrest, -⟩ := Text.endLines_eq_cons hending (by decide) heq
              exact hbrace ⟨tail', hrest⟩
        · rw [escape?_letter hletter, escape?_letter hletter]
          cases simple? letter <;> rfl

theorem read?_endLines {keeps : Char → Bool}
    (hkeeps : ending.filter keeps = ['\n'].filter keeps) (text : List Char) :
    (read? (endLines ending text)).map (List.filter keeps) =
      (read? text).map (List.filter keeps) := by
  induction hlength : text.length using Nat.strongRecOn generalizing text with
  | ind length induction =>
      subst hlength
      cases text with
      | nil => rfl
      | cons c rest =>
          have hrest := induction rest.length (Nat.lt_succ_self _) rest rfl
          by_cases hnewline : c = '\n'
          · subst hnewline
            have hplain : '\\' ∉ ending ∧ ending.filter (· != '"') = ending := by
              rcases hending with rfl | rfl <;> decide
            have hown := map_filter_append keeps ['\n'] (read? rest)
            rw [Text.endLines_newline, read?_append hplain.1, hplain.2, map_filter_append, hkeeps,
              hrest, read?_cons (by decide)]
            exact hown.symm
          · rw [Text.endLines_cons _ hnewline]
            by_cases hslash : c = '\\'
            · subst hslash
              rw [read?_escape, read?_escape, escape?_endLines hending]
              cases hescape : escape? rest with
              | none => rfl
              | some escaped =>
                  obtain ⟨d, after⟩ := escaped
                  have hshort := Nat.lt_succ_of_le (length_escape?_le hescape)
                  have hafter := induction after.length hshort after rfl
                  have htold := map_filter_append keeps [d] (read? (endLines ending after))
                  have hown := map_filter_append keeps [d] (read? after)
                  rw [hafter, ← hown] at htold
                  exact htold
            · rw [read?_cons hslash, read?_cons hslash]
              by_cases hquote : c = '"'
              · simpa [hquote] using hrest
              · have htold := map_filter_append keeps [c] (read? (endLines ending rest))
                have hown := map_filter_append keeps [c] (read? rest)
                rw [hrest, ← hown] at htold
                simpa [hquote] using htold

end

end Tagmark.Escape
