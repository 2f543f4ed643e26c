import Tagmark.Proofs.Tag.Tiling

/-!
White space in tags. Its characters are tokens of their own that mean nothing
(`readTag_spaces`).
-/

namespace Tagmark

def TagRest.plain (tag : TagRest) : TagRest :=
  { tag with tokens := tag.tokens.filter fun placed => !placed.token.isTrivia }

theorem Lexeme.exists_trivia {c : Char} (hc : isSpacing c = true) (rest : List Char) :
    ∃ lexeme token, lex c rest = (lexeme, rest) ∧ lexeme.text = [c] ∧
      lexeme.token = .ok token ∧ token.isTrivia = true ∧ lexeme.closes = false := by
  have hcases := List.contains_iff_mem.1 hc
  simp only [List.mem_cons, List.not_mem_nil, or_false] at hcases
  rcases hcases with rfl | rfl | rfl | rfl
  all_goals exact ⟨_, _, rfl, rfl, rfl, rfl, rfl⟩

theorem readTag_spaces {spaces : List Char} (hspaces : spaces.all Lexeme.isSpacing = true)
    (start point : Point) (rest : List Char) :
    (readTag start point (spaces ++ rest)).map TagRest.plain =
      (readTag start (point.advance spaces) rest).map TagRest.plain := by
  induction spaces generalizing point with
  | nil => rfl
  | cons c spaces induction =>
      rw [List.all_cons, Bool.and_eq_true] at hspaces
      obtain ⟨hc, hspaces⟩ := hspaces
      obtain ⟨lexeme, token, hlex, htext, htoken, htrivia, hcloses⟩ :=
        Lexeme.exists_trivia hc (spaces ++ rest)
      rw [List.cons_append, readTag_cons hlex htoken hcloses, htext, Point.advance_cons,
        Point.advance_nil, Point.advance_cons, ← induction hspaces]
      cases readTag start (point.step c) (spaces ++ rest) with
      | error fault => rfl
      | ok tag => simp [Except.map, TagRest.plain, htrivia]

end Tagmark
