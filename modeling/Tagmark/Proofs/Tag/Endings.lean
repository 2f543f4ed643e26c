import Tagmark.Proofs.Document.View
import Tagmark.Proofs.Tag.Escape
import Tagmark.Proofs.Tag.Frame

/-!
Lexemes with other line ends. They end where they ended (`lex_endLines`) and are the same tokens, but
for the characters of line ends in quoted text, which a view may leave out (`sameToken_lex`).
-/

namespace Tagmark

open Text (endLines IsEnding)

namespace Lexeme

theorem exists_of_doubleQuoted {text : List Char} (hclosed : (doubleQuoted text).1 = true) :
    ∃ inner, (doubleQuoted text).2.1 = inner ++ ['"'] := by
  fun_induction doubleQuoted text with
  | case1 | case3 | case4 => cases hclosed
  | case2 rest => exact ⟨[], rfl⟩
  | case5 c rest hc closed quoted after hrest induction =>
      obtain ⟨inner, hinner⟩ := induction (by simpa [hrest] using hclosed)
      rw [hrest] at hinner
      exact ⟨'\\' :: c :: inner, congrArg (fun quoted => '\\' :: c :: quoted) hinner⟩
  | case6 c rest hquote hlast hescape closed quoted after hrest induction =>
      obtain ⟨inner, hinner⟩ := induction (by simpa [hrest] using hclosed)
      rw [hrest] at hinner
      exact ⟨c :: inner, congrArg (c :: ·) hinner⟩

theorem exists_of_singleQuoted {text : List Char} (hclosed : (singleQuoted text).1 = true) :
    ∃ inner, (singleQuoted text).2.1 = inner ++ ['\''] := by
  induction text with
  | nil => cases hclosed
  | cons c rest induction =>
      rw [singleQuoted] at hclosed ⊢
      split at hclosed
      · next hquote =>
          rw [if_pos hquote, hquote]
          exact ⟨[], rfl⟩
      · next hquote =>
          rw [if_neg hquote]
          obtain ⟨inner, hinner⟩ := induction hclosed
          exact ⟨c :: inner, congrArg (c :: ·) hinner⟩

section

variable {ending : List Char} (hending : IsEnding ending)

include hending

theorem endLines_of_break {α : Type} (read : List Char → α × List Char) (written : α → List Char)
    (hbreak : ∀ stop text rest, isBreak stop = true →
      read (text ++ stop :: rest) = ((read text).1, (read text).2 ++ stop :: rest))
    (hwritten : ∀ text, written (read text).1 ++ (read text).2 = text) (text : List Char) :
    read (endLines ending text) = ((read text).1, endLines ending (read text).2) ∧
      '\n' ∉ written (read text).1 := by
  have hsplit : ∃ front rest, text = front ++ rest ∧ '\n' ∉ front ∧
      ∀ c ∈ rest.head?, c = '\n' := by
    refine ⟨text.takeWhile (· != '\n'), text.dropWhile (· != '\n'), ?_, ?_, ?_⟩
    · exact List.takeWhile_append_dropWhile.symm
    · intro hmem
      have hall := List.all_eq_true.1 (List.all_takeWhile (p := (· != '\n')) (l := text)) _ hmem
      cases hall
    · intro c hc
      have hnot := List.head?_dropWhile_not (· != '\n') text
      rw [hc] at hnot
      simpa using hnot
  obtain ⟨front, rest, rfl, hfront, hrest⟩ := hsplit
  have hwhole := hwritten front
  have hafter : '\n' ∉ (read front).2 := by
    intro hmem
    rw [← hwhole] at hfront
    exact hfront (List.mem_append_right _ hmem)
  have hbefore : '\n' ∉ written (read front).1 := by
    intro hmem
    rw [← hwhole] at hfront
    exact hfront (List.mem_append_left _ hmem)
  rw [Text.endLines_append, Text.endLines_of_not_mem ending hfront]
  cases rest with
  | nil =>
      rw [Text.endLines_nil, List.append_nil, Text.endLines_of_not_mem ending hafter]
      exact ⟨rfl, hbefore⟩
  | cons c rest =>
      obtain rfl := hrest c rfl
      obtain ⟨first, more, hends, hfirst⟩ : ∃ first more,
          ending ++ endLines ending rest = first :: more ∧ isBreak first = true := by
        rcases hending with rfl | rfl
        · exact ⟨'\n', _, rfl, by decide⟩
        · exact ⟨'\r', _, rfl, by decide⟩
      rw [Text.endLines_newline, hends, hbreak first front more hfirst,
        hbreak '\n' front rest (by decide), Text.endLines_append,
        Text.endLines_of_not_mem ending hafter, Text.endLines_newline, hends]
      exact ⟨rfl, hbefore⟩

theorem name_endLines (text : List Char) :
    ((endLines ending text).takeWhile isNamePart, (endLines ending text).dropWhile isNamePart) =
        (text.takeWhile isNamePart, endLines ending (text.dropWhile isNamePart)) ∧
      '\n' ∉ text.takeWhile isNamePart :=
  endLines_of_break hending (fun text => (text.takeWhile isNamePart, text.dropWhile isNamePart)) id
    (fun _ text rest hstop => name_append_break hstop text rest)
    (fun _ => List.takeWhile_append_dropWhile) text

theorem number_endLines (text : List Char) :
    number (endLines ending text) = ((number text).1, endLines ending (number text).2) ∧
      '\n' ∉ (number text).1.text :=
  endLines_of_break hending number Lexeme.text
    (fun _ text rest hstop => number_append_break hstop text rest) number_append text

theorem singleQuoted_endLines (text : List Char) :
    singleQuoted (endLines ending text) =
      ((singleQuoted text).1, endLines ending (singleQuoted text).2.1,
        endLines ending (singleQuoted text).2.2) := by
  induction text with
  | nil => rfl
  | cons c rest induction =>
      by_cases hnewline : c = '\n'
      · subst hnewline
        rcases hending with rfl | rfl <;> simp [singleQuoted, induction, -Text.endLines_self]
      · rw [Text.endLines_cons _ hnewline, singleQuoted, singleQuoted]
        by_cases hquote : c = '\''
        · simp [hquote, Text.endLines_cons]
        · simp [hquote, induction, Text.endLines_cons _ hnewline]

theorem doubleQuoted_endLines {text : List Char} (hclosed : (doubleQuoted text).1 = true) :
    doubleQuoted (endLines ending text) =
      (true, endLines ending (doubleQuoted text).2.1, endLines ending (doubleQuoted text).2.2) := by
  fun_induction doubleQuoted text with
  | case1 => cases hclosed
  | case2 rest =>
      rw [Text.endLines_cons _ (by decide), doubleQuoted_quote]
      rfl
  | case3 => cases hclosed
  | case4 rest => cases hclosed
  | case5 c rest hc closed quoted after hrest induction =>
      have hinner := induction (by simpa [hrest] using hclosed)
      rw [Text.endLines_cons _ (by decide), Text.endLines_cons _ hc, doubleQuoted_escape hc,
        hinner, hrest]
      simp [Text.endLines_cons, hc]
  | case6 c rest hquote hlast hescape closed quoted after hrest induction =>
      have hinner := induction (by simpa [hrest] using hclosed)
      have hslash := ne_slash_of_cases hlast hescape
      by_cases hnewline : c = '\n'
      · subst hnewline
        rcases hending with rfl | rfl <;>
          simp [doubleQuoted_cons, hinner, hrest, -Text.endLines_self]
      · rw [Text.endLines_cons _ hnewline, doubleQuoted_cons hquote hslash, hinner, hrest]
        simp [Text.endLines_cons _ hnewline]

/-- Quoted text that does not end may do so with other line ends, where a backslash before a newline
broke it off. It has an escape without a meaning then. -/
theorem read?_of_unclosed {text : List Char} (hopen : (doubleQuoted text).1 = false)
    (hclosed : (doubleQuoted (endLines ending text)).1 = true) :
    Escape.read? (doubleQuoted (endLines ending text)).2.1 = none := by
  fun_induction doubleQuoted text with
  | case1 => cases hclosed
  | case2 rest => cases hopen
  | case3 => cases hclosed
  | case4 rest =>
      rw [Text.endLines_cons _ (by decide), Text.endLines_newline] at hclosed ⊢
      rcases hending with rfl | rfl
      · cases hclosed
      · rw [List.cons_append, doubleQuoted_escape (by decide), Escape.read?_escape,
          Escape.escape?_letter (by decide)]
        rfl
  | case5 c rest hc closed quoted after hrest induction =>
      rw [Text.endLines_cons _ (by decide), Text.endLines_cons _ hc, doubleQuoted_escape hc]
        at hclosed ⊢
      exact Escape.read?_escaped (induction (by simpa [hrest] using hopen) hclosed) c
  | case6 c rest hquote hlast hescape closed quoted after hrest induction =>
      have hinner := induction (by simpa [hrest] using hopen)
      have hslash := ne_slash_of_cases hlast hescape
      by_cases hnewline : c = '\n'
      · subst hnewline
        rcases hending with rfl | rfl
        · rw [Text.endLines_newline, List.singleton_append, doubleQuoted_cons hquote hslash]
            at hclosed ⊢
          rw [Escape.read?_cons hslash, hinner hclosed, Option.map_none]
        · rw [Text.endLines_newline, List.cons_append, List.singleton_append,
            doubleQuoted_cons (by decide) (by decide), doubleQuoted_cons hquote hslash]
            at hclosed ⊢
          rw [Escape.read?_cons (by decide), Escape.read?_cons hslash, hinner hclosed,
            Option.map_none, Option.map_none]
      · rw [Text.endLines_cons _ hnewline, doubleQuoted_cons hquote hslash] at hclosed ⊢
        rw [Escape.read?_cons hslash, hinner hclosed, Option.map_none]

theorem lex_endLines {c : Char} (hc : c ≠ '\n') (rest : List Char)
    (hquoted : c = '"' → (doubleQuoted rest).1 = true) :
    lex c (endLines ending rest) =
      (⟨(lex c rest).1.kind, endLines ending (lex c rest).1.text⟩,
        endLines ending (lex c rest).2) := by
  revert hc hquoted
  fun_cases lex c rest <;> intro hc hquoted
  case case4 hslash =>
      have htold : ∀ tail, endLines ending rest ≠ '%' :: '}' :: tail := by
        intro tail heq
        obtain ⟨middle, rfl, hmiddle⟩ := Text.endLines_eq_cons hending (by decide) heq
        obtain ⟨after, rfl, -⟩ := Text.endLines_eq_cons hending (by decide) hmiddle.symm
        exact hslash after rfl
      rw [lex_slash htold]
      rfl
  case case6 => exact absurd rfl hc
  case case10 closed text after hrest =>
      have hclosed := hquoted rfl
      have htold := doubleQuoted_endLines hending hclosed
      rw [hrest] at hclosed htold
      subst hclosed
      rw [lex_double, htold]
      rfl
  case case11 closed text after hrest =>
      have htold := singleQuoted_endLines hending rest
      rw [hrest] at htold
      rw [lex_single, htold, Text.endLines_cons _ hc]
  case case12 hstart _ _ _ =>
      obtain ⟨htold, hname⟩ := name_endLines hending rest
      obtain ⟨htake, hdrop⟩ := Prod.mk.inj htold
      rw [lex_name hstart, htake, hdrop, Text.endLines_cons _ hc,
        Text.endLines_of_not_mem ending hname]
  case case13 hstart _ _ _ =>
      obtain ⟨htold, hnewline⟩ := number_endLines hending (c :: rest)
      rw [Text.endLines_cons _ hc] at htold
      rw [lex_number hstart, htold, Text.endLines_of_not_mem ending hnewline]
  case case14 hname hnumber hopening hclosing hself =>
      rw [lex]
      · rw [if_neg hname, if_neg hnumber, Text.endLines_cons _ hc]
        rfl
      case x =>
          rintro _ rfl heq
          obtain ⟨tail, hrest, -⟩ := Text.endLines_eq_cons hending (by decide) heq
          exact hopening tail rfl hrest
      case x_1 =>
          rintro _ rfl heq
          obtain ⟨tail, hrest, -⟩ := Text.endLines_eq_cons hending (by decide) heq
          exact hclosing tail rfl hrest
      case x_2 =>
          rintro _ rfl
          contradiction
      all_goals assumption
  all_goals simp [lex, Text.endLines_cons]

end

inductive SameToken (view : View) : Except TagFlaw Token → Except TagFlaw Token → Prop
  | ok {left right : Token} (hsame : view.token left = view.token right) :
      SameToken view (.ok left) (.ok right)
  | error (left right : TagFlaw) : SameToken view (.error left) (.error right)

theorem SameToken.refl (view : View) (read : Except TagFlaw Token) : SameToken view read read := by
  cases read with
  | ok token => exact .ok rfl
  | error flaw => exact .error flaw flaw

theorem sameToken_resolved {view : View} {left right : Except Escape.Flaw (List Char)} :
    left.toOption.map (List.filter view.keeps) = right.toOption.map (List.filter view.keeps) →
      SameToken view
        (match left with
          | .ok value => .ok (.text (String.ofList value) .double)
          | .error flaw => .error (.badEscape flaw))
        (match right with
          | .ok value => .ok (.text (String.ofList value) .double)
          | .error flaw => .error (.badEscape flaw)) := by
  intro hsame
  cases left with
  | error flaw =>
      cases right with
      | error flaw' => exact .error _ _
      | ok value => cases hsame
  | ok value =>
      cases right with
      | error flaw => cases hsame
      | ok value' =>
          refine .ok (congrArg (Token.text · .double) ?_)
          rw [View.text_ofList, View.text_ofList]
          exact congrArg String.ofList (Option.some.inj hsame)

theorem sameToken_open {ending : List Char} (hending : IsEnding ending) {view : View}
    {rest : List Char} (hopen : (doubleQuoted rest).1 = false) :
    SameToken view (lex '"' rest).1.token (lex '"' (endLines ending rest)).1.token := by
  rw [lex_double, lex_double, if_neg (Bool.eq_false_iff.1 hopen)]
  split
  · next hclosed =>
      have hnone := read?_of_unclosed hending hopen hclosed
      generalize (doubleQuoted (endLines ending rest)).2.1 = quoted at hnone
      have hslash : '\\' ∈ '"' :: quoted := by
        by_contra hplain
        exact Escape.read?_plain (mt (List.mem_cons_of_mem _) hplain) hnone
      have hunread : (unescape ('"' :: quoted)).toOption = none := by
        rw [unescape, Escape.toOption_resolve, Escape.read?_cons (by decide), hnone]
        rfl
      simp only [token, if_pos hslash]
      cases hread : unescape ('"' :: quoted) with
      | error flaw => exact .error _ _
      | ok value =>
          rw [hread] at hunread
          cases hunread
  · exact .error _ _

section

variable {ending : List Char} (hending : IsEnding ending) {view : View}
  (hkeeps : ending.filter view.keeps = ['\n'].filter view.keeps)

include hkeeps

theorem sameToken_text (inner : List Char) (quote : Quote) :
    SameToken view (.ok (.text (String.ofList inner) quote))
      (.ok (.text (String.ofList (endLines ending inner)) quote)) := by
  refine .ok (congrArg (Token.text · quote) ?_)
  rw [View.text_ofList, View.text_ofList, Text.filter_endLines hkeeps]

theorem sameToken_single (inner : List Char) :
    SameToken view (token ⟨.single, '\'' :: (inner ++ ['\''])⟩)
      (token ⟨.single, endLines ending ('\'' :: (inner ++ ['\'']))⟩) := by
  have htext := sameToken_text hkeeps inner .single
  simpa [token, Text.endLines_cons] using htext

include hending

theorem sameToken_double (inner : List Char) :
    SameToken view (token ⟨.double, '"' :: (inner ++ ['"'])⟩)
      (token ⟨.double, endLines ending ('"' :: (inner ++ ['"']))⟩) := by
  have hmem : '\\' ∈ endLines ending ('"' :: (inner ++ ['"'])) ↔
      '\\' ∈ '"' :: (inner ++ ['"']) := Text.mem_endLines hending (by decide)
  by_cases hslash : '\\' ∈ '"' :: (inner ++ ['"'])
  · have hread := Escape.read?_endLines hending hkeeps ('"' :: (inner ++ ['"']))
    simp only [token, if_pos hslash, if_pos (hmem.2 hslash), unescape]
    generalize '"' :: (inner ++ ['"']) = text at hread
    rw [← Escape.toOption_resolve (String.ofList (endLines ending text)) 0,
      ← Escape.toOption_resolve (String.ofList text) 0] at hread
    exact sameToken_resolved hread.symm
  · have htext := sameToken_text hkeeps inner .double
    simp only [token, if_neg hslash, if_neg (mt hmem.1 hslash)]
    simpa [Text.endLines_cons] using htext

theorem sameToken_lex {c : Char} (hc : c ≠ '\n') (rest : List Char) :
    SameToken view (lex c rest).1.token (lex c (endLines ending rest)).1.token := by
  by_cases hquoted : c = '"' → (doubleQuoted rest).1 = true
  · rw [lex_endLines hending hc rest hquoted]
    revert hc hquoted
    fun_cases lex c rest <;> intro hc hquoted
    case case6 => exact absurd rfl hc
    case case10 closed text after hrest =>
        obtain ⟨inner, hinner⟩ := exists_of_doubleQuoted (hquoted rfl)
        have hclosed := hquoted rfl
        rw [hrest] at hinner hclosed
        cases hclosed
        cases hinner
        exact sameToken_double hending hkeeps inner
    case case11 closed text after hrest =>
        cases closed with
        | false => exact .error _ _
        | true =>
            have hclosed : (singleQuoted rest).1 = true := by rw [hrest]
            obtain ⟨inner, hinner⟩ := exists_of_singleQuoted hclosed
            rw [hrest] at hinner
            cases hinner
            exact sameToken_single hkeeps inner
    case case12 =>
        rw [Text.endLines_cons _ hc, Text.endLines_of_not_mem ending (name_endLines hending rest).2]
        exact .refl view _
    case case13 =>
        rw [Text.endLines_of_not_mem ending (number_endLines hending (c :: rest)).2]
        exact .refl view _
    case case14 => exact .error _ _
    all_goals exact .refl view _
  · obtain ⟨rfl, hopen⟩ := Classical.not_imp.1 hquoted
    exact sameToken_open hending (Bool.eq_false_iff.2 hopen)

end

end Lexeme

end Tagmark
