import Mathlib.Data.List.Induction
import Tagmark.Proofs.Text.Trim

/-!
Texts with other line ends. A carriage return before each newline is blank and part of no pattern, so
that cuts, lines and blank ends are found where they were (`cut?_endLines`, `splitLines_endLines`,
`trimEnd_endLines`).
-/

namespace Tagmark.Text

/-- The text with `ending` in place of each newline. -/
def endLines (ending text : List Char) : List Char :=
  text.flatMap fun c => if c = '\n' then ending else [c]

def IsEnding (ending : List Char) : Prop :=
  ending = ['\n'] ∨ ending = ['\r', '\n']

def IsInner (c : Char) : Prop :=
  c ≠ '\n' ∧ c ≠ '\r'

instance (c : Char) : Decidable (IsInner c) :=
  inferInstanceAs (Decidable (_ ∧ _))

section

variable (ending : List Char)

@[simp] theorem endLines_nil : endLines ending [] = [] := rfl

@[simp] theorem endLines_newline (rest : List Char) :
    endLines ending ('\n' :: rest) = ending ++ endLines ending rest := rfl

theorem endLines_cons {c : Char} (hc : c ≠ '\n') (rest : List Char) :
    endLines ending (c :: rest) = c :: endLines ending rest := by
  simp [endLines, hc]

@[simp] theorem endLines_append (left right : List Char) :
    endLines ending (left ++ right) = endLines ending left ++ endLines ending right :=
  List.flatMap_append

theorem tail_endLines {text : List Char} (hhead : text.head? ≠ some '\n') :
    (endLines ending text).tail = endLines ending text.tail := by
  cases text with
  | nil => rfl
  | cons c rest =>
      have hc : c ≠ '\n' := fun heq => hhead (congrArg some heq)
      rw [endLines_cons ending hc, List.tail_cons, List.tail_cons]

theorem endLines_of_not_mem {text : List Char} (htext : '\n' ∉ text) :
    endLines ending text = text := by
  induction text with
  | nil => rfl
  | cons c rest induction =>
      obtain ⟨hc, hrest⟩ := not_or.1 (mt List.mem_cons.2 htext)
      rw [endLines_cons ending (Ne.symm hc), induction hrest]

end

theorem filter_endLines {ending : List Char} {keeps : Char → Bool}
    (hkeeps : ending.filter keeps = ['\n'].filter keeps) (text : List Char) :
    (endLines ending text).filter keeps = text.filter keeps := by
  induction text with
  | nil => rfl
  | cons c rest induction =>
      by_cases hc : c = '\n'
      · subst hc
        rw [endLines_newline, List.filter_append, hkeeps, induction]
        exact (List.filter_append ['\n'] rest).symm
      · rw [endLines_cons _ hc, List.filter_cons, List.filter_cons, induction]

@[simp] theorem endLines_self (text : List Char) : endLines ['\n'] text = text := by
  induction text with
  | nil => rfl
  | cons c rest induction =>
      by_cases hc : c = '\n'
      · rw [hc, endLines_newline, induction]
        rfl
      · rw [endLines_cons _ hc, induction]

variable {ending : List Char} (hending : IsEnding ending)

section

include hending

theorem takeWhile_endLines {p : Char → Bool} (hp : p '\r' = p '\n') (text : List Char) :
    (endLines ending text).takeWhile p = endLines ending (text.takeWhile p) := by
  induction text with
  | nil => rfl
  | cons c rest induction =>
      by_cases hc : c = '\n'
      · subst hc
        rcases hending with rfl | rfl <;> cases hnewline : p '\n' <;>
          simp_all [endLines_newline]
      · rw [endLines_cons _ hc]
        cases hpc : p c <;> simp [hpc, induction, endLines_cons _ hc]

theorem dropWhile_endLines {p : Char → Bool} (hp : p '\r' = p '\n') (text : List Char) :
    (endLines ending text).dropWhile p = endLines ending (text.dropWhile p) := by
  induction text with
  | nil => rfl
  | cons c rest induction =>
      by_cases hc : c = '\n'
      · subst hc
        rcases hending with rfl | rfl <;> cases hnewline : p '\n' <;>
          simp_all [endLines_newline]
      · rw [endLines_cons _ hc]
        cases hpc : p c <;> simp [hpc, induction, endLines_cons _ hc]

theorem takeWhile_endLines_of_false {p : Char → Bool} (hnewline : p '\n' = false)
    (hreturn : p '\r' = false) (text : List Char) :
    (endLines ending text).takeWhile p = text.takeWhile p := by
  rw [takeWhile_endLines hending (hreturn.trans hnewline.symm), endLines_of_not_mem]
  intro hmem
  have hall := List.all_eq_true.1 (List.all_takeWhile (p := p) (l := text)) _ hmem
  rw [hnewline] at hall
  cases hall

theorem all_endLines {p : Char → Bool} (hp : p '\r' = p '\n') (text : List Char) :
    (endLines ending text).all p = text.all p := by
  induction text with
  | nil => rfl
  | cons c rest induction =>
      by_cases hc : c = '\n'
      · subst hc
        rcases hending with rfl | rfl <;> simp [hp, induction]
      · simp [endLines_cons _ hc, induction]

theorem isBlankText_endLines (text : List Char) :
    isBlankText (endLines ending text) = isBlankText text :=
  all_endLines hending (by decide) text

theorem mem_endLines {c : Char} (hc : IsInner c) {text : List Char} :
    c ∈ endLines ending text ↔ c ∈ text := by
  have hends : c ∉ ending := by
    obtain ⟨hnewline, hreturn⟩ := hc
    rcases hending with rfl | rfl <;> simp [hnewline, hreturn]
  induction text with
  | nil => rfl
  | cons d rest induction =>
      by_cases hd : d = '\n'
      · subst hd
        simp [hends, hc.1, induction]
      · simp [endLines_cons _ hd, induction]

theorem endLines_eq_cons {c : Char} (hc : IsInner c) {text rest : List Char}
    (heq : endLines ending text = c :: rest) :
    ∃ tail, text = c :: tail ∧ rest = endLines ending tail := by
  cases text with
  | nil => cases heq
  | cons d tail =>
      by_cases hd : d = '\n'
      · subst hd
        rcases hending with rfl | rfl
        · exact absurd (List.cons.inj heq).1.symm hc.1
        · exact absurd (List.cons.inj heq).1.symm hc.2
      · rw [endLines_cons _ hd] at heq
        obtain ⟨rfl, rfl⟩ := List.cons.inj heq
        exact ⟨tail, rfl, rfl⟩

theorem endLines_eq_iff {other : List Char} (hother : ∀ c ∈ other, IsInner c)
    {text : List Char} : endLines ending text = other ↔ text = other := by
  constructor
  · intro heq
    induction other generalizing text with
    | nil =>
        have hall := all_endLines hending (p := fun _ => false) rfl text
        rw [heq] at hall
        cases text with
        | nil => rfl
        | cons c rest => cases hall
    | cons c rest induction =>
        obtain ⟨hc, hrest⟩ := List.forall_mem_cons.1 hother
        obtain ⟨tail, rfl, htail⟩ := endLines_eq_cons hending hc heq
        rw [induction hrest htail.symm]
  · rintro rfl
    exact endLines_of_not_mem ending fun hmem => (hother _ hmem).1 rfl

theorem isPrefixOf?_endLines {pattern : List Char} (hpattern : ∀ c ∈ pattern, IsInner c)
    (text : List Char) :
    pattern.isPrefixOf? (endLines ending text) =
      (pattern.isPrefixOf? text).map (endLines ending) := by
  induction pattern generalizing text with
  | nil => rw [isPrefixOf?_nil, isPrefixOf?_nil, Option.map_some]
  | cons head tail induction =>
      obtain ⟨hhead, htail⟩ := List.forall_mem_cons.1 hpattern
      cases text with
      | nil => rfl
      | cons c rest =>
          by_cases hc : c = '\n'
          · subst hc
            have hnewline : (head == '\n') = false := beq_false_of_ne hhead.1
            have hreturn : (head == '\r') = false := beq_false_of_ne hhead.2
            rcases hending with rfl | rfl <;> simp [isPrefixOf?_cons, hnewline, hreturn]
          · rw [endLines_cons _ hc, isPrefixOf?_cons, isPrefixOf?_cons]
            split
            · exact induction htail rest
            · rfl

theorem isPrefixOf_endLines {pattern : List Char} (hpattern : ∀ c ∈ pattern, IsInner c)
    (text : List Char) : pattern.isPrefixOf (endLines ending text) = pattern.isPrefixOf text := by
  have hstarts : ∀ other : List Char,
      pattern.isPrefixOf other = (pattern.isPrefixOf? other).isSome := by
    intro other
    rw [Bool.eq_iff_iff, List.isPrefixOf_iff_prefix, Option.isSome_iff_exists]
    simp only [isPrefixOf?_eq_some]
    exact ⟨fun ⟨rest, heq⟩ => ⟨rest, heq.symm⟩, fun ⟨rest, heq⟩ => ⟨rest, heq.symm⟩⟩
  rw [hstarts, hstarts, isPrefixOf?_endLines hending hpattern, Option.isSome_map]

end

theorem cut?_cons_of_ne {head c : Char} {tail : List Char} (hc : head ≠ c) (rest : List Char) :
    cut? (head :: tail) (c :: rest) =
      (cut? (head :: tail) rest).map fun (before, after) => (c :: before, after) := by
  rw [cut?, isPrefixOf?_cons, beq_false_of_ne hc]
  rfl

theorem lastFrom?_cons_of_ne {head c : Char} {tail : List Char} (hc : head ≠ c)
    (rest : List Char) : lastFrom? (head :: tail) (c :: rest) = lastFrom? (head :: tail) rest := by
  rw [lastFrom?]
  cases lastFrom? (head :: tail) rest with
  | some found => rfl
  | none => simp [List.isPrefixOf, hc]

section

variable {head : Char} {tail : List Char} (hpattern : ∀ c ∈ head :: tail, IsInner c)

include hending hpattern

theorem cut?_endLines (text : List Char) :
    cut? (head :: tail) (endLines ending text) =
      (cut? (head :: tail) text).map (Prod.map (endLines ending) (endLines ending)) := by
  obtain ⟨hnewline, hreturn⟩ := hpattern head List.mem_cons_self
  induction text with
  | nil => rfl
  | cons c rest induction =>
      by_cases hc : c = '\n'
      · subst hc
        rw [cut?_cons_of_ne hnewline]
        rcases hending with rfl | rfl
        · rw [endLines_newline, List.singleton_append, cut?_cons_of_ne hnewline, induction]
          cases cut? (head :: tail) rest <;> rfl
        · rw [endLines_newline, List.cons_append, List.singleton_append,
            cut?_cons_of_ne hreturn, cut?_cons_of_ne hnewline, induction]
          cases cut? (head :: tail) rest <;> rfl
      · have hprefix := isPrefixOf?_endLines hending hpattern (c :: rest)
        rw [endLines_cons _ hc] at hprefix ⊢
        rw [cut?, cut?, hprefix, induction]
        cases (head :: tail).isPrefixOf? (c :: rest) with
        | some after => rfl
        | none =>
            cases cut? (head :: tail) rest with
            | none => rfl
            | some pair => simp [endLines_cons _ hc]

theorem contains_endLines (text : List Char) :
    contains (head :: tail) (endLines ending text) = contains (head :: tail) text := by
  rw [contains, contains, cut?_endLines hending hpattern, Option.isSome_map]

theorem lastFrom?_endLines (text : List Char) :
    lastFrom? (head :: tail) (endLines ending text) =
      (lastFrom? (head :: tail) text).map (endLines ending) := by
  obtain ⟨hnewline, hreturn⟩ := hpattern head List.mem_cons_self
  induction text with
  | nil => rfl
  | cons c rest induction =>
      by_cases hc : c = '\n'
      · subst hc
        rw [lastFrom?_cons_of_ne hnewline]
        rcases hending with rfl | rfl
        · rw [endLines_newline, List.singleton_append, lastFrom?_cons_of_ne hnewline, induction]
        · rw [endLines_newline, List.cons_append, List.singleton_append,
            lastFrom?_cons_of_ne hreturn, lastFrom?_cons_of_ne hnewline, induction]
      · have hprefix := isPrefixOf_endLines hending hpattern (c :: rest)
        rw [endLines_cons _ hc] at hprefix ⊢
        rw [lastFrom?, lastFrom?, hprefix, induction]
        cases lastFrom? (head :: tail) rest with
        | some found => rfl
        | none => cases (head :: tail).isPrefixOf (c :: rest) <;> simp [endLines_cons _ hc]

end

section

include hending

theorem splitLines_endLines (text : List Char) :
    splitLines (endLines ending text) = (splitLines text).map (endLines ending) := by
  induction text with
  | nil => rfl
  | cons c rest induction =>
      by_cases hc : c = '\n'
      · subst hc
        rcases hending with rfl | rfl <;> simp [splitLines, induction, -endLines_self]
      · rw [endLines_cons _ hc, splitLines, splitLines, if_neg hc, if_neg hc, induction]
        cases splitLines rest <;> simp [endLines_cons _ hc]

theorem trimEnd_endLines (text : List Char) :
    trimEnd (endLines ending text) = endLines ending (trimEnd text) := by
  induction text using List.reverseRecOn with
  | nil => rfl
  | append_singleton front c induction =>
      cases hblank : isBlank c with
      | true =>
          have hone : isBlankText [c] = true := by simpa [isBlankText] using hblank
          have hend : isBlankText (endLines ending [c]) = true := by
            rw [isBlankText_endLines hending, hone]
          rw [endLines_append, trimEnd_append_of_blank hend, trimEnd_append_of_blank hone,
            induction]
      | false =>
          have hkeep : ∀ before : List Char, trimEnd (before ++ [c]) = before ++ [c] := by
            intro before
            simp [trimEnd, hblank]
          have hc : c ≠ '\n' := by
            rintro rfl
            cases hblank
          rw [hkeep, endLines_append, endLines_cons _ hc, endLines_nil, hkeep]

theorem dropLineEnd_endLines {text : List Char} (htext : ending = ['\n'] ∨ '\r' ∉ text) :
    dropLineEnd (endLines ending text) = endLines ending (dropLineEnd text) := by
  have hown : dropLineEnd (endLines ['\n'] text) = endLines ['\n'] (dropLineEnd text) := by
    rw [endLines_self, endLines_self]
  rcases hending with rfl | rfl
  · exact hown
  · have hreturn : '\r' ∉ text := htext.resolve_left (by decide)
    have hlast : ∀ front : List Char, '\r' ∉ front → front.getLast? ≠ some '\r' :=
      fun front hnot heq => hnot (List.mem_of_getLast? heq)
    rcases List.eq_nil_or_concat text with rfl | ⟨front, c, rfl⟩
    · rfl
    · rw [List.concat_eq_append] at hreturn ⊢
      obtain ⟨hfront, hc⟩ := not_or.1 (mt List.mem_append.2 hreturn)
      by_cases hnewline : c = '\n'
      · subst hnewline
        rw [endLines_append, dropLineEnd_concat (hlast front hfront)]
        simp [dropLineEnd, dropLast]
      · have hc' : c ≠ '\r' := fun heq => hc (List.mem_singleton.2 heq.symm)
        rw [endLines_append, endLines_cons _ hnewline, endLines_nil]
        simp [dropLineEnd, dropLast, hnewline, hc', endLines_cons _ hnewline]

end

end Tagmark.Text
