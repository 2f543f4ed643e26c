import Tagmark.Proofs.Text.Split

/-!
Pieces between the occurrences of one character. Text is cut there as lists are (`splitOn_eq`), and
the character is in none of the pieces.
-/

namespace Tagmark.Text

theorem field_induction {c : Char} {motive : List Char → Prop}
    (last : ∀ field, c ∉ field → motive field)
    (more : ∀ field rest, c ∉ field → motive rest → motive (field ++ c :: rest))
    (text : List Char) : motive text := by
  by_cases hmem : c ∈ text
  · obtain ⟨field, rest, htext, hfield⟩ := List.eq_append_cons_of_mem hmem
    have hshorter : rest.length < text.length := by
      rw [htext, List.length_append, List.length_cons]
      omega
    rw [htext]
    exact more field rest hfield (field_induction last more rest)
  · exact last text hmem
termination_by text.length

theorem splitOn_eq (c : Char) (text : List Char) : splitOn [c] text = text.splitOn c := by
  induction text using field_induction (c := c) with
  | last field hfield => rw [splitOn_of_not_mem hfield, List.splitOn_eq_singleton hfield]
  | more field rest hfield induction =>
      have hsplit := splitOn_append_of_not_mem hfield [] rest
      rw [List.singleton_append] at hsplit
      rw [hsplit, induction, List.splitOn_append_cons_self_of_not_mem hfield]

end Tagmark.Text
