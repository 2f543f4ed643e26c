import Mathlib.Logic.Relation
import Tagmark.Number.Read
import Tagmark.Proofs.Number.Rank
import Tagmark.Tag.Token

/-!
Sameness of tokens is reflexive and symmetric, but transitive only through tokens that are no
numbers, and the two outermost patterns (`same_transitive_iff`). A chain of same tokens leads from
any number to any other.
-/

namespace Tagmark.Token

theorem same_number_iff {x y : Number} :
    (number x).same (number y) = true ↔ (x.rank - y.rank).natAbs ≤ 2 := by
  simp only [same, Bool.or_eq_true]
  constructor
  · rintro (hvalue | hnear)
    · have hnext := Number.withinSteps_of_sameValue hvalue
      rw [Number.withinSteps, decide_eq_true_iff] at hnext
      omega
    · exact of_decide_eq_true hnear
  · exact fun hnear => .inr (decide_eq_true hnear)

theorem same_iff {a b : Token} :
    a.same b = true ↔
      a = b ∨ ∃ x y, a = number x ∧ b = number y ∧ (x.rank - y.rank).natAbs ≤ 2 := by
  cases a with
  | number x =>
      cases b with
      | number y =>
          rw [same_number_iff]
          constructor
          · exact fun hnear => .inr ⟨x, y, rfl, rfl, hnear⟩
          · rintro (heq | ⟨_, _, hx, hy, hnear⟩)
            · obtain rfl := Token.number.inj heq
              simp
            · rwa [Token.number.inj hx, Token.number.inj hy]
      | _ => simp [same]
  | _ => cases b <;> simp [same]

theorem same_refl (a : Token) : a.same a = true :=
  same_iff.2 (.inl rfl)

theorem same_symm {a b : Token} (hsame : a.same b = true) : b.same a = true := by
  obtain rfl | ⟨x, y, rfl, rfl, hnear⟩ := same_iff.1 hsame
  · exact same_refl a
  · rw [same_number_iff]
    omega

theorem same_trans_of_isOutermost {x : Number} (houtermost : x.IsOutermost) {a c : Token}
    (hleft : a.same (number x) = true) (hright : (number x).same c = true) : a.same c = true := by
  obtain rfl | ⟨y, x', rfl, heq, hy⟩ := same_iff.1 hleft
  · exact hright
  obtain rfl : x = x' := Token.number.inj heq
  obtain rfl | ⟨x', z, heq, rfl, hz⟩ := same_iff.1 hright
  · exact hleft
  obtain rfl : x = x' := Token.number.inj heq
  rw [same_number_iff]
  have hylow := y.le_rank
  have hyhigh := y.rank_lt
  have hzlow := z.le_rank
  have hzhigh := z.rank_lt
  rcases Number.isOutermost_iff.1 houtermost with hlast | hfirst <;> omega

/-- Between two patterns three places apart, one place from the one and two from the other, lies
every pattern that has another on both sides. -/
theorem exists_not_same {x : Number} (hinner : ¬x.IsOutermost) :
    ∃ y z : Number, (number y).same (number x) = true ∧ (number x).same (number z) = true ∧
      ¬(number y).same (number z) = true := by
  rw [Number.isOutermost_iff, not_or] at hinner
  have hlow := x.le_rank
  have hhigh := x.rank_lt
  simp only [same_number_iff]
  by_cases hroom : x.rank + 2 < 2 ^ 63
  · obtain ⟨y, hy⟩ := Number.exists_of_rank (x.rank - 1) (by omega) (by omega)
    obtain ⟨z, hz⟩ := Number.exists_of_rank (x.rank + 2) (by omega) hroom
    exact ⟨y, z, by omega, by omega, by omega⟩
  · obtain ⟨y, hy⟩ := Number.exists_of_rank (x.rank - 2) (by omega) (by omega)
    obtain ⟨z, hz⟩ := Number.exists_of_rank (x.rank + 1) (by omega) (by omega)
    exact ⟨y, z, by omega, by omega, by omega⟩

abbrev Chained : Token → Token → Prop :=
  Relation.TransGen fun a b => a.same b = true

theorem chained_numbers (x y : Number) : Chained (number x) (number y) := by
  generalize hdistance : (x.rank - y.rank).natAbs = distance
  induction distance generalizing y with
  | zero => exact .single (same_number_iff.2 (by omega))
  | succ distance induction =>
      by_cases hup : x.rank < y.rank
      · have hlow := x.le_rank
        have hhigh := y.rank_lt
        obtain ⟨z, hz⟩ := Number.exists_of_rank (y.rank - 1) (by omega) (by omega)
        exact (induction z (by omega)).tail (same_number_iff.2 (by omega))
      · have hlow := y.le_rank
        have hhigh := x.rank_lt
        obtain ⟨z, hz⟩ := Number.exists_of_rank (y.rank + 1) (by omega) (by omega)
        exact (induction z (by omega)).tail (same_number_iff.2 (by omega))

theorem chained_iff {a b : Token} :
    Chained a b ↔ a = b ∨ ∃ x y, a = number x ∧ b = number y := by
  constructor
  · intro hchain
    induction hchain with
    | single hsame =>
        obtain rfl | ⟨x, y, rfl, rfl, -⟩ := same_iff.1 hsame
        · exact .inl rfl
        · exact .inr ⟨x, y, rfl, rfl⟩
    | tail _ hsame induction =>
        obtain rfl | ⟨y, z, rfl, rfl, -⟩ := same_iff.1 hsame
        · exact induction
        · obtain rfl | ⟨x, -, rfl, -⟩ := induction
          · exact .inr ⟨y, z, rfl, rfl⟩
          · exact .inr ⟨x, z, rfl, rfl⟩
  · rintro (rfl | ⟨x, y, rfl, rfl⟩)
    · exact .single (same_refl a)
    · exact chained_numbers x y

/-- A token is the same as itself, and what is the same as it the other way round too. It hands
sameness on, from any token before it to any after it, exactly when it is no number or has one of
the two outermost patterns. Chains of same tokens lead from a number to all numbers, and from any
other token to itself only. -/
theorem same_transitive_iff (b : Token) :
    b.same b = true ∧
      (∀ a : Token, a.same b = true → b.same a = true) ∧
      ((∀ a c : Token, a.same b = true → b.same c = true → a.same c = true) ↔
        ∀ x, b = number x → x.IsOutermost) ∧
      ∀ c : Token, Chained b c ↔ b = c ∨ ∃ x y, b = number x ∧ c = number y := by
  refine ⟨same_refl b, fun _ => same_symm, ⟨?_, ?_⟩, fun _ => chained_iff⟩
  · rintro htransitive x rfl
    refine Classical.byContradiction fun hinner => ?_
    obtain ⟨y, z, hleft, hright, hnot⟩ := exists_not_same hinner
    exact hnot (htransitive _ _ hleft hright)
  · intro houtermost a c hleft hright
    obtain rfl | ⟨_, x, -, hnumber, -⟩ := same_iff.1 hleft
    · exact hright
    · subst hnumber
      exact same_trans_of_isOutermost (houtermost x rfl) hleft hright

theorem same_transitive_iff_last :
    (number ⟨0x7ffffffffffffffd⟩).same (number ⟨0x7fffffffffffffff⟩) = true ∧
      (number ⟨0x7fffffffffffffff⟩).same (number ⟨0x7ffffffffffffffe⟩) = true ∧
      (number ⟨0x7ffffffffffffffd⟩).same (number ⟨0x7ffffffffffffffe⟩) = true ∧
      Chained (number ⟨0x7fffffffffffffff⟩) (number ⟨0⟩) := by
  obtain ⟨-, -, htransitive, hchained⟩ := same_transitive_iff (number ⟨0x7fffffffffffffff⟩)
  have hleft : (number ⟨0x7ffffffffffffffd⟩).same (number ⟨0x7fffffffffffffff⟩) = true := by
    decide
  have hright : (number ⟨0x7fffffffffffffff⟩).same (number ⟨0x7ffffffffffffffe⟩) = true := by
    decide
  refine ⟨hleft, hright, htransitive.2 ?_ _ _ hleft hright, (hchained _).2 ?_⟩
  · rintro x ⟨⟩
    exact .inl rfl
  · exact .inr ⟨_, _, rfl, rfl⟩

theorem same_not_transitive :
    ∃ x y z : Number,
      Number.read? "1".toList = some x ∧
        Number.read? "1.0000000000000004".toList = some y ∧
        Number.read? "1.0000000000000009".toList = some z ∧
        (number x).same (number y) = true ∧ (number y).same (number z) = true ∧
        (number x).same (number z) = false :=
  ⟨⟨0x3ff0000000000000⟩, ⟨0x3ff0000000000002⟩, ⟨0x3ff0000000000004⟩, by decide +kernel,
    by decide +kernel, by decide +kernel, by decide, by decide, by decide⟩

end Tagmark.Token
