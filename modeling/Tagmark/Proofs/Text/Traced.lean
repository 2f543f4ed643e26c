import Mathlib.Data.List.DropRight
import Tagmark.Definition
import Tagmark.Proofs.Text.Slice

/-!
Text that is put together from the lines of a document. Each of its characters is traced to the line
on which it was written. Lines are not fused in such a text when characters from different lines have
a newline between them (`Traced.Unfused`), which can be checked from left to right
(`Traced.unfused_iff_apart`).
-/

namespace Tagmark

/-- A character with the line of the document that it was written on. A line end is text of no line,
nor is a character that does not come from the document as it is. -/
structure Traced where
  char : Char
  line? : Option Nat

namespace Traced

def ofText (point : Point) : List Char → List Traced
  | [] => []
  | c :: rest =>
      ⟨c, if Definition.isLineEnd c then none else some point.line⟩ :: ofText (point.step c) rest

def ofNested (text : List Char) : List Traced :=
  text.map (⟨·, none⟩)

def chars (trace : List Traced) : List Char :=
  trace.map (·.char)

@[simp] theorem chars_append (left right : List Traced) :
    chars (left ++ right) = chars left ++ chars right :=
  List.map_append

@[simp] theorem chars_ofText (point : Point) (text : List Char) : chars (ofText point text) = text := by
  induction text generalizing point with
  | nil => rfl
  | cons c rest induction => exact congrArg (c :: ·) (induction (point.step c))

@[simp] theorem chars_ofNested (text : List Char) : chars (ofNested text) = text := by
  rw [chars, ofNested, List.map_map]
  exact List.map_id text

theorem ofText_append (point : Point) (left right : List Char) :
    ofText point (left ++ right) = ofText point left ++ ofText (point.advance left) right := by
  induction left generalizing point with
  | nil => rfl
  | cons c rest induction => exact congrArg (List.cons _) (induction (point.step c))

/-- Characters that were written on different lines are on different lines of the text. -/
def Unfused (trace : List Traced) : Prop :=
  ∀ front left between right back, trace = front ++ left :: (between ++ right :: back) →
    '\n' ∉ chars (left :: between) → ∀ m n, left.line? = some m → right.line? = some n → m = n

/-- The line that the text on the current line of a text is from, after one more character. -/
def next (line? : Option Nat) (traced : Traced) : Option Nat :=
  if traced.char = '\n' then none else traced.line?.or line?

def after (line? : Option Nat) (trace : List Traced) : Option Nat :=
  trace.foldl next line?

/-- No character is from another line than the text before it on the current line, which is from the
given line if there is any. -/
def Apart : Option Nat → List Traced → Prop
  | _, [] => True
  | line?, traced :: rest =>
      (∀ m n, line? = some m → traced.line? = some n → m = n) ∧ Apart (next line? traced) rest

instance (left right : Option Nat) : Decidable (∀ m n, left = some m → right = some n → m = n) :=
  match left, right with
  | none, _ => .isTrue fun _ _ hline => nomatch hline
  | some _, none => .isTrue fun _ _ _ hline => nomatch hline
  | some m, some n =>
      decidable_of_iff (m = n)
        ⟨fun hsame _ _ hm hn => Option.some.inj hm ▸ Option.some.inj hn ▸ hsame,
          fun hall => hall m n rfl rfl⟩

instance decidableApart : (line? : Option Nat) → (trace : List Traced) →
    Decidable (Apart line? trace)
  | _, [] => .isTrue trivial
  | line?, traced :: rest =>
      have := decidableApart (next line? traced) rest
      inferInstanceAs (Decidable (_ ∧ Apart (next line? traced) rest))

theorem apart_append {line? : Option Nat} {left right : List Traced} :
    Apart line? (left ++ right) ↔ Apart line? left ∧ Apart (after line? left) right := by
  induction left generalizing line? with
  | nil => exact (iff_of_eq (true_and _)).symm
  | cons traced rest induction =>
      rw [List.cons_append, Apart, Apart, induction, and_assoc]
      rfl

theorem after_append (line? : Option Nat) (left right : List Traced) :
    after line? (left ++ right) = after (after line? left) right :=
  List.foldl_append

/-- Up to the next newline, text is from the given line. -/
def Joins (line? : Option Nat) (trace : List Traced) : Prop :=
  ∀ between right back, trace = between ++ right :: back → '\n' ∉ chars between →
    ∀ m n, line? = some m → right.line? = some n → m = n

theorem joins_none (trace : List Traced) : Joins none trace :=
  fun _ _ _ _ _ _ _ hline => by cases hline

theorem joins_cons {line? : Option Nat} {traced : Traced} {rest : List Traced} :
    Joins line? (traced :: rest) ↔
      (∀ m n, line? = some m → traced.line? = some n → m = n) ∧
        (traced.char ≠ '\n' → Joins line? rest) := by
  constructor
  · intro hjoins
    refine ⟨hjoins [] traced rest rfl List.not_mem_nil, fun hchar between right back hrest hnone => ?_⟩
    exact hjoins (traced :: between) right back (by rw [hrest]; rfl)
      (List.not_mem_cons_of_ne_of_not_mem (Ne.symm hchar) hnone)
  · rintro ⟨hfirst, hlater⟩ between right back htrace hnone
    cases between with
    | nil =>
        obtain ⟨rfl, -⟩ := List.cons.inj htrace
        exact hfirst
    | cons other between =>
        obtain ⟨rfl, hrest⟩ := List.cons.inj htrace
        obtain ⟨hchar, hnone⟩ := List.ne_and_not_mem_of_not_mem_cons hnone
        exact hlater (Ne.symm hchar) between right back hrest hnone

theorem unfused_cons {traced : Traced} {rest : List Traced} :
    Unfused (traced :: rest) ↔ (traced.char ≠ '\n' → Joins traced.line? rest) ∧ Unfused rest := by
  constructor
  · intro hunfused
    constructor
    · intro hchar between right back hrest hnone
      exact hunfused [] traced between right back (by rw [hrest]; rfl)
        (List.not_mem_cons_of_ne_of_not_mem (Ne.symm hchar) hnone)
    · intro front left between right back hrest
      exact hunfused (traced :: front) left between right back (by rw [hrest]; rfl)
  · rintro ⟨hfirst, hlater⟩ front left between right back htrace hnone
    cases front with
    | nil =>
        obtain ⟨rfl, hrest⟩ := List.cons.inj htrace
        obtain ⟨hchar, hnone⟩ := List.ne_and_not_mem_of_not_mem_cons hnone
        exact hfirst (Ne.symm hchar) between right back hrest hnone
    | cons other front =>
        exact hlater front left between right back (List.cons.inj htrace).2 hnone

theorem apart_iff {line? : Option Nat} {trace : List Traced} :
    Apart line? trace ↔ Joins line? trace ∧ Unfused trace := by
  induction trace generalizing line? with
  | nil =>
      refine iff_of_true trivial ⟨fun between right back htrace => ?_,
        fun front left between right back htrace => ?_⟩
      · simp at htrace
      · simp at htrace
  | cons traced rest induction =>
      rw [Apart, induction, joins_cons, unfused_cons, next]
      by_cases hchar : traced.char = '\n'
      · simp [hchar, joins_none]
      · rw [if_neg hchar]
        cases hline : traced.line? with
        | none => simp [hchar, joins_none]
        | some n =>
            simp only [ne_eq, hchar, not_false_eq_true, forall_const, Option.some_or,
              Option.some.injEq]
            constructor
            · rintro ⟨hsame, hjoins, hunfused⟩
              refine ⟨⟨hsame, ?_⟩, hjoins, hunfused⟩
              cases line? with
              | none => exact joins_none rest
              | some m =>
                  rw [hsame m n rfl rfl]
                  exact hjoins
            · rintro ⟨⟨hsame, -⟩, hjoins, hunfused⟩
              exact ⟨hsame, hjoins, hunfused⟩

theorem unfused_iff_apart {trace : List Traced} : Unfused trace ↔ Apart none trace := by
  rw [apart_iff]
  exact (and_iff_right (joins_none trace)).symm

instance (trace : List Traced) : Decidable (Unfused trace) :=
  decidable_of_iff (Apart none trace) unfused_iff_apart.symm

section

variable {line? : Option Nat} {trace : List Traced} (hnone : ∀ traced ∈ trace, traced.line? = none)

include hnone

theorem apart_of_none : Apart line? trace := by
  induction trace generalizing line? with
  | nil => trivial
  | cons traced rest induction =>
      obtain ⟨hfirst, hrest⟩ := List.forall_mem_cons.1 hnone
      refine ⟨fun m n _ hline => ?_, induction hrest⟩
      cases hfirst.symm.trans hline

theorem after_of_none : after line? trace = if '\n' ∈ chars trace then none else line? := by
  induction trace generalizing line? with
  | nil => rfl
  | cons traced rest induction =>
      obtain ⟨hfirst, hrest⟩ := List.forall_mem_cons.1 hnone
      change after (next line? traced) rest = if '\n' ∈ traced.char :: chars rest then none else line?
      rw [induction hrest, next, hfirst]
      by_cases hchar : traced.char = '\n'
      · simp [hchar]
      · simp [hchar, Ne.symm hchar]

end

theorem line?_ofNested {text : List Char} : ∀ traced ∈ ofNested text, traced.line? = none := by
  intro traced hmem
  obtain ⟨c, -, rfl⟩ := List.mem_map.1 hmem
  rfl

theorem line?_ofText {point : Point} {text : List Char} :
    ∀ traced ∈ ofText point text, Definition.isLineEnd traced.char = true → traced.line? = none := by
  induction text generalizing point with
  | nil => exact fun traced hmem => absurd hmem List.not_mem_nil
  | cons c rest induction =>
      intro traced hmem hend
      rcases List.mem_cons.1 hmem with rfl | hlater
      · exact if_pos hend
      · exact induction traced hlater hend

theorem line?_ofText_of_all {text : List Char} (hall : ∀ c ∈ text, Definition.isLineEnd c = true)
    (point : Point) : ∀ traced ∈ ofText point text, traced.line? = none := by
  intro traced hmem
  refine line?_ofText traced hmem (hall _ ?_)
  have hchar := List.mem_map_of_mem (f := Traced.char) hmem
  rwa [← chars, chars_ofText] at hchar

theorem line_advance_of_not_mem {text : List Char} (hnone : '\n' ∉ text) (point : Point) :
    (point.advance text).line = point.line := by
  rw [Point.line_advance, List.count_eq_zero.2 hnone, Nat.add_zero]

theorem apart_ofText {line? : Option Nat} {point : Point} (hline : ∀ m, line? = some m → m = point.line)
    (text : List Char) :
    Apart line? (ofText point text) ∧
      ∀ m, after line? (ofText point text) = some m → m = (point.advance text).line := by
  induction text generalizing line? point with
  | nil => exact ⟨trivial, hline⟩
  | cons c rest induction =>
      have hfirst : ∀ n, (if Definition.isLineEnd c then none else some point.line) = some n →
          n = point.line := by
        intro n hn
        split at hn <;> cases hn
        rfl
      have hnext : ∀ m, next line? ⟨c, if Definition.isLineEnd c then none else some point.line⟩ =
          some m → m = (point.step c).line := by
        intro m hm
        by_cases hc : c = '\n'
        · rw [next, if_pos hc] at hm
          cases hm
        · rw [next, if_neg hc, Option.or_eq_some_iff] at hm
          rw [Point.step, if_neg hc]
          rcases hm with hown | ⟨-, hbefore⟩
          · exact hfirst m hown
          · exact hline m hbefore
      obtain ⟨hrest, hafter⟩ := induction hnext
      refine ⟨⟨fun m n hm hn => ?_, hrest⟩, hafter⟩
      rw [hline m hm, hfirst n hn]

section

variable {line? : Option Nat} {point : Point} {text : List Char}
  (htext : ∃ c ∈ text, Definition.isLineEnd c = false)

include htext

theorem exists_first :
    ∃ c rest, text = text.takeWhile Definition.isLineEnd ++ c :: rest ∧
      Definition.isLineEnd c = false := by
  obtain ⟨other, hmem, hother⟩ := htext
  cases hrest : text.dropWhile Definition.isLineEnd with
  | nil =>
      rw [List.dropWhile_eq_nil_iff.1 hrest other hmem] at hother
      cases hother
  | cons c rest =>
      refine ⟨c, rest, ?_, ?_⟩
      · rw [← hrest, List.takeWhile_append_dropWhile]
      · have hhead := List.head?_dropWhile_not Definition.isLineEnd text
        rw [hrest] at hhead
        simpa using hhead

theorem exists_last :
    ∃ front c, text = front ++ c :: text.rtakeWhile Definition.isLineEnd ∧
      Definition.isLineEnd c = false := by
  obtain ⟨other, hmem, hother⟩ := htext
  rcases List.eq_nil_or_concat (text.rdropWhile Definition.isLineEnd) with hnil | ⟨front, c, hfront⟩
  · rw [List.rdropWhile_eq_nil_iff.1 hnil other hmem] at hother
    cases hother
  · refine ⟨front, c, ?_, ?_⟩
    · rw [List.append_cons, ← List.concat_eq_append, ← hfront, List.rdropWhile_append_rtakeWhile]
    · have hlast := List.rdropWhile_last_not Definition.isLineEnd text
        (by simp [hfront])
      simpa [hfront] using hlast

theorem apart_ofText_iff :
    Apart line? (ofText point text) ↔
      (∀ m, line? = some m → m = point.line) ∨ '\n' ∈ text.takeWhile Definition.isLineEnd := by
  obtain ⟨c, rest, hsplit, hc⟩ := exists_first htext
  generalize hends : text.takeWhile Definition.isLineEnd = ends at hsplit ⊢
  have hall : ∀ traced ∈ ofText point ends, traced.line? = none := by
    rw [← hends]
    exact line?_ofText_of_all (fun _ => List.mem_takeWhile_imp) point
  rw [hsplit, ofText_append, apart_append, after_of_none hall, chars_ofText]
  by_cases hnewline : '\n' ∈ ends
  · rw [if_pos hnewline]
    exact iff_of_true ⟨apart_of_none hall, (apart_ofText (fun _ h => by cases h) _).1⟩
      (.inr hnewline)
  · have hline := line_advance_of_not_mem hnewline point
    rw [if_neg hnewline, or_iff_left hnewline, ← hline]
    constructor
    · exact fun hapart m hm => hapart.2.1 m _ hm (by rw [hc]; rfl)
    · exact fun hsame => ⟨apart_of_none hall, (apart_ofText hsame _).1⟩

theorem after_ofText :
    after line? (ofText point text) =
      if '\n' ∈ text.rtakeWhile Definition.isLineEnd then none
      else some (point.advance text).line := by
  obtain ⟨front, c, hsplit, hc⟩ := exists_last htext
  generalize hends : text.rtakeWhile Definition.isLineEnd = ends at hsplit ⊢
  have hall : ∀ place, ∀ traced ∈ ofText place ends, traced.line? = none := by
    rw [← hends]
    exact line?_ofText_of_all (fun _ => List.mem_rtakeWhile_imp)
  have hne : c ≠ '\n' := by
    rintro rfl
    cases hc
  rw [hsplit, ofText_append, after_append, ofText, after, List.foldl_cons, ← after,
    after_of_none (hall _), chars_ofText]
  split
  · rfl
  · next hnewline =>
      have hlast : '\n' ∉ c :: ends := List.not_mem_cons_of_ne_of_not_mem (Ne.symm hne) hnewline
      rw [next, if_neg hne, hc, if_neg Bool.false_ne_true, Point.advance_append,
        line_advance_of_not_mem hlast]
      rfl

end

def endsLine (traced : Traced) : Bool :=
  Definition.isLineEnd traced.char

def trim (trace : List Traced) : List Traced :=
  (trace.dropWhile endsLine).rdropWhile endsLine

theorem chars_trim (trace : List Traced) :
    chars (trim trace) = Text.trimMatches Definition.isLineEnd (chars trace) := by
  rw [Text.trimMatches, chars, chars, List.dropWhile_map, ← List.map_reverse, List.dropWhile_map,
    ← List.map_reverse]
  rfl

theorem unfused_trim {trace : List Traced}
    (hends : ∀ traced ∈ trace, traced.endsLine = true → traced.line? = none) :
    Unfused (trim trace) ↔ Unfused trace := by
  have hsplit : trace = trace.takeWhile endsLine ++
      (trim trace ++ (trace.dropWhile endsLine).rtakeWhile endsLine) := by
    rw [trim, List.rdropWhile_append_rtakeWhile, List.takeWhile_append_dropWhile]
  have hfront : ∀ traced ∈ trace.takeWhile endsLine, traced.line? = none := fun traced hmem =>
    hends traced ((List.takeWhile_sublist _).subset hmem) (List.mem_takeWhile_imp hmem)
  have hback : ∀ traced ∈ (trace.dropWhile endsLine).rtakeWhile endsLine, traced.line? = none :=
    fun traced hmem => hends traced ((List.dropWhile_sublist _).subset
      (List.rtakeWhile_suffix _ _ |>.subset hmem)) (List.mem_rtakeWhile_imp hmem)
  have hnone : after none (trace.takeWhile endsLine) = none := by
    rw [after_of_none hfront, ite_self]
  rw [unfused_iff_apart, unfused_iff_apart, congrArg (Apart none) hsplit, apart_append, hnone,
    apart_append]
  exact ⟨fun hapart => ⟨apart_of_none hfront, hapart, apart_of_none hback⟩, fun h => h.2.1⟩

end Traced

end Tagmark
