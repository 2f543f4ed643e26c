import Mathlib.Data.List.DropRight
import Tagmark.Proofs.Text.Trim

/-!
Blank lines around text. Trimming takes off characters and knows nothing of lines, so it takes off the
blank lines and no more exactly when these are made of characters that are trimmed and the lines
between them neither begin nor end with one (`Text.trimMatches_eq_withoutBlankLines_iff`).
-/

namespace Tagmark.Text

section

variable {p : Char → Bool}

theorem exists_trimMatches_append (p : Char → Bool) (text : List Char) :
    ∃ front back, text = front ++ (trimMatches p text ++ back) ∧ (∀ c ∈ front, p c = true) ∧
      ∀ c ∈ back, p c = true := by
  refine ⟨text.takeWhile p, (text.dropWhile p).rtakeWhile p, ?_, ?_, ?_⟩
  · have hback : trimMatches p text ++ (text.dropWhile p).rtakeWhile p = text.dropWhile p :=
      List.rdropWhile_append_rtakeWhile
    rw [hback, List.takeWhile_append_dropWhile]
  · exact fun c hmem => List.mem_takeWhile_imp hmem
  · exact fun c hmem => List.mem_rtakeWhile_imp hmem

theorem trimMatches_trimMatches (p : Char → Bool) (text : List Char) :
    trimMatches p (trimMatches p text) = trimMatches p text := by
  obtain ⟨front, back, htext, hfront, hback⟩ := exists_trimMatches_append p text
  rw [← trimMatches_append_of_all hback, ← trimMatches_of_all_append hfront, ← htext]

theorem countP_of_all {text : List Char} (hall : ∀ c ∈ text, p c = true) :
    text.countP (fun c => !p c) = 0 := by
  rw [List.countP_eq_zero]
  intro c hmem
  rw [hall c hmem]
  exact Bool.false_ne_true

theorem countP_trimMatches (p : Char → Bool) (text : List Char) :
    (trimMatches p text).countP (fun c => !p c) = text.countP (fun c => !p c) := by
  obtain ⟨front, back, htext, hfront, hback⟩ := exists_trimMatches_append p text
  have hcount := congrArg (List.countP fun c => !p c) htext
  rw [List.countP_append, List.countP_append, countP_of_all hfront, countP_of_all hback] at hcount
  omega

end

def coreLines (lines : List (List Char)) : List (List Char) :=
  (lines.dropWhile isBlankText).rdropWhile isBlankText

/-- The blank lines before the first and behind the last line that is not blank. -/
def outerLines (lines : List (List Char)) : List (List Char) :=
  lines.takeWhile isBlankText ++ (lines.dropWhile isBlankText).rtakeWhile isBlankText

/-- A text without the blank lines around it, and without the line end behind it. -/
def withoutBlankLines (text : List Char) : List Char :=
  dropLineEnd (coreLines (splitLines text)).flatten

theorem withoutBlankLines_of_blank {text : List Char} (hblank : isBlankText text = true) :
    withoutBlankLines text = [] := by
  have hlines : ∀ line ∈ splitLines text, isBlankText line = true := by
    intro line hline
    rw [← flatten_splitLines text, isBlankText, List.all_flatten] at hblank
    exact List.all_eq_true.1 hblank line hline
  have hcore : coreLines (splitLines text) = [] := by
    unfold coreLines
    rw [List.dropWhile_eq_nil_iff.2 hlines, List.rdropWhile_nil]
  rw [withoutBlankLines, hcore]
  rfl

theorem exists_withoutBlankLines_append (text : List Char) :
    ∃ front ending back, text = front ++ (withoutBlankLines text ++ (ending ++ back)) ∧
      (∀ c ∈ ending, c = '\n' ∨ c = '\r') ∧
      ∀ c, c ∈ front ++ back ↔ ∃ line ∈ outerLines (splitLines text), c ∈ line := by
  let lines := splitLines text
  let back := (lines.dropWhile isBlankText).rtakeWhile isBlankText
  obtain ⟨ending, hcore, hending⟩ := exists_lineEnd (coreLines lines).flatten
  refine ⟨(lines.takeWhile isBlankText).flatten, ending, back.flatten, ?_, hending, fun c => ?_⟩
  · have hrest : coreLines lines ++ back = lines.dropWhile isBlankText :=
      List.rdropWhile_append_rtakeWhile
    have hlines : lines.takeWhile isBlankText ++ (coreLines lines ++ back) = lines := by
      rw [hrest, List.takeWhile_append_dropWhile]
    calc text = lines.flatten := (flatten_splitLines text).symm
      _ = (lines.takeWhile isBlankText).flatten ++ ((coreLines lines).flatten ++ back.flatten) := by
        rw [← List.flatten_append, ← List.flatten_append, hlines]
      _ = _ := by rw [hcore, List.append_assoc]; rfl
  · rw [← List.flatten_append]
    exact List.mem_flatten

theorem trimMatches_eq_withoutBlankLines_iff {p : Char → Bool} (hnewline : p '\n' = true)
    (hreturn : p '\r' = true) (text : List Char) :
    trimMatches p text = withoutBlankLines text ↔
      (∀ line ∈ outerLines (splitLines text), ∀ c ∈ line, p c = true) ∧
        trimMatches p (withoutBlankLines text) = withoutBlankLines text := by
  obtain ⟨front, ending, back, htext, hending, houter⟩ := exists_withoutBlankLines_append text
  have hends : ∀ c ∈ ending, p c = true := by
    intro c hmem
    rcases hending c hmem with rfl | rfl
    · exact hnewline
    · exact hreturn
  constructor
  · intro htrim
    have hcount := countP_trimMatches p text
    rw [htrim, congrArg (List.countP fun c => !p c) htext, List.countP_append, List.countP_append,
      List.countP_append, countP_of_all hends] at hcount
    have hzero : (front ++ back).countP (fun c => !p c) = 0 := by
      rw [List.countP_append]
      omega
    refine ⟨fun line hline c hc => ?_, ?_⟩
    · have hmem := List.countP_eq_zero.1 hzero c ((houter c).2 ⟨line, hline, hc⟩)
      simpa using hmem
    · rw [← htrim, trimMatches_trimMatches]
  · rintro ⟨hblank, hkept⟩
    have haround : ∀ c ∈ front ++ back, p c = true := by
      intro c hmem
      obtain ⟨line, hline, hc⟩ := (houter c).1 hmem
      exact hblank line hline c hc
    obtain ⟨hfront, hback⟩ := List.forall_mem_append.1 haround
    have hbehind : ∀ c ∈ ending ++ back, p c = true := List.forall_mem_append.2 ⟨hends, hback⟩
    rw [congrArg (trimMatches p) htext, trimMatches_of_all_append hfront,
      trimMatches_append_of_all hbehind, hkept]

end Tagmark.Text
