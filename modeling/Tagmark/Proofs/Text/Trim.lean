import Tagmark.Proofs.Text.Split

/-!
Trimming texts that are put together. What is taken off an end may as well not be there
(`trimMatches_append_of_all`), and a text that begins or ends otherwise keeps what stands before or
behind it.
-/

namespace Tagmark.Text

section

variable {p : Char → Bool} {text : List Char}

theorem trimMatches_append_of_all {ending : List Char} (hending : ∀ c ∈ ending, p c = true) :
    trimMatches p (text ++ ending) = trimMatches p text := by
  have hreverse : ∀ c ∈ ending.reverse, p c = true := fun c hmem =>
    hending c (List.mem_reverse.1 hmem)
  unfold trimMatches
  rw [List.dropWhile_append]
  split
  · next hnil =>
      rw [List.isEmpty_iff.1 hnil, dropWhile_eq_nil_iff_all.2 (List.all_eq_true.2 hending)]
  · rw [List.reverse_append, List.dropWhile_append_of_pos hreverse]

theorem trimMatches_of_all_append {beginning : List Char}
    (hbeginning : ∀ c ∈ beginning, p c = true) :
    trimMatches p (beginning ++ text) = trimMatches p text := by
  unfold trimMatches
  rw [List.dropWhile_append_of_pos hbeginning]

end

section

variable {text gap : List Char}

theorem trim_append_of_blank (hgap : isBlankText gap = true) : trim (text ++ gap) = trim text :=
  trimMatches_append_of_all (List.all_eq_true.1 hgap)

theorem trim_of_blank_append (hgap : isBlankText gap = true) : trim (gap ++ text) = trim text :=
  trimMatches_of_all_append (List.all_eq_true.1 hgap)

theorem trimEnd_append_of_blank (hgap : isBlankText gap = true) :
    trimEnd (text ++ gap) = trimEnd text := by
  have hall : ∀ c ∈ gap.reverse, isBlank c = true := by
    intro c hmem
    exact List.all_eq_true.1 hgap c (List.mem_reverse.1 hmem)
  unfold trimEnd
  rw [List.reverse_append, List.dropWhile_append_of_pos hall]

end

section

variable {left right : List Char}

theorem trimStart_append (hleft : isBlankText left = false) (right : List Char) :
    trimStart (left ++ right) = trimStart left ++ right := by
  have hne : trimStart left ≠ [] := by
    rw [ne_eq, trimStart_eq_nil_iff, hleft]
    exact Bool.false_ne_true
  unfold trimStart at hne ⊢
  rw [List.dropWhile_append, if_neg (by simpa [List.isEmpty_iff] using hne)]

theorem trimEnd_append (hleft : trimEnd left = left) (right : List Char) :
    trimEnd (left ++ right) = left ++ trimEnd right := by
  unfold trimEnd at hleft ⊢
  rw [List.reverse_append, List.dropWhile_append]
  split
  · next hnil => rw [List.isEmpty_iff.1 hnil, hleft, List.reverse_nil, List.append_nil]
  · rw [List.reverse_append, List.reverse_reverse]

end

theorem exists_trimEnd_append (text : List Char) :
    ∃ ending, text = trimEnd text ++ ending ∧ isBlankText ending = true := by
  refine ⟨(text.reverse.takeWhile isBlank).reverse, ?_, ?_⟩
  · have hsplit := List.takeWhile_append_dropWhile (p := isBlank) (l := text.reverse)
    rw [trimEnd, ← List.reverse_append, hsplit, List.reverse_reverse]
  · rw [isBlankText, List.all_reverse]
    exact List.all_takeWhile

theorem trim_trimEnd (text : List Char) : trim (trimEnd text) = trim text := by
  obtain ⟨ending, htext, hending⟩ := exists_trimEnd_append text
  rw [← trim_append_of_blank hending, ← htext]

theorem not_mem_of_blank {c : Char} (hc : isBlank c = false) {text : List Char}
    (htext : isBlankText text = true) : c ∉ text := by
  intro hmem
  rw [List.all_eq_true.1 htext c hmem] at hc
  cases hc

section

variable {text : List Char} (htext : trim text = text)

include htext

theorem trimStart_of_trim : trimStart text = text := by
  have hinside : List.Sublist (trim text) (trimStart text) := by
    have hreverse := (List.dropWhile_sublist isBlank (l := (trimStart text).reverse)).reverse
    rwa [List.reverse_reverse] at hreverse
  rw [htext] at hinside
  exact (List.dropWhile_sublist isBlank).eq_of_length_le hinside.length_le

theorem trimEnd_of_trim : trimEnd text = text := by
  have hstart := trimStart_of_trim htext
  rw [trim, hstart] at htext
  exact htext

theorem not_blank_of_trim (hne : text ≠ []) : isBlankText text = false := by
  cases hblank : isBlankText text with
  | false => rfl
  | true =>
      rw [trim_eq_nil_iff.2 hblank] at htext
      exact absurd htext.symm hne

theorem isBlank_head_of_trim {head : Char} {tail : List Char} (heq : text = head :: tail) :
    isBlank head = false := by
  cases hblank : isBlank head with
  | false => rfl
  | true =>
      have hstart := trimStart_of_trim htext
      rw [heq, trimStart, List.dropWhile_cons_of_pos hblank] at hstart
      have hlength := (List.dropWhile_sublist isBlank (l := tail)).length_le
      rw [hstart, List.length_cons] at hlength
      omega

theorem trimEnd_append_of_trim (hne : text ≠ []) (before : List Char) :
    trimEnd (before ++ text) = before ++ text := by
  have hend := trimEnd_of_trim htext
  unfold trimEnd at hend ⊢
  rw [List.reverse_append, List.dropWhile_append]
  split
  · next hnil =>
      rw [List.isEmpty_iff.1 hnil] at hend
      exact absurd hend.symm hne
  · rw [List.reverse_append, List.reverse_reverse, hend]

end

theorem trimMatches_dropLineEnd {p : Char → Bool} (hnewline : p '\n' = true)
    (hreturn : p '\r' = true) (text : List Char) :
    trimMatches p (dropLineEnd text) = trimMatches p text := by
  obtain ⟨ending, htext, hending⟩ := exists_lineEnd text
  have hall : ∀ c ∈ ending, p c = true := by
    intro c hmem
    rcases hending c hmem with rfl | rfl
    · exact hnewline
    · exact hreturn
  rw [← trimMatches_append_of_all hall, ← htext]

theorem trim_dropLineEnd (text : List Char) : trim (dropLineEnd text) = trim text :=
  trimMatches_dropLineEnd (p := isBlank) rfl rfl text

end Tagmark.Text
