import Mathlib.Algebra.Group.Int.Defs
import Mathlib.Algebra.Group.Nat.Defs
import Tagmark.Number.Basic

/-!
The order of all patterns. It has no gap: every rank from `-2 ^ 63` up to `2 ^ 63 - 1` is that of
a pattern (`exists_of_rank`). Numbers of the same value are neighbours in it
(`withinSteps_of_sameValue`).
-/

namespace Tagmark.Number

theorem rank_eq (x : Number) :
    x.rank = if x.bits.toNat < 2 ^ 63 then (x.bits.toNat : Int) else 2 ^ 63 - 1 - x.bits.toNat := by
  have hpow : Nat.pow 2 63 = 9223372036854775808 := rfl
  have hbits := x.bits.toNat_lt
  unfold rank isNegative magnitude
  rw [hpow]
  by_cases hnegative : 9223372036854775808 ≤ x.bits.toNat
  · rw [if_pos (decide_eq_true hnegative), if_neg (by omega)]
    omega
  · rw [if_neg (by simpa using hnegative), if_pos (by omega)]
    omega

theorem rank_lt (x : Number) : x.rank < 2 ^ 63 := by
  have hbits := x.bits.toNat_lt
  rw [rank_eq]
  split <;> omega

theorem le_rank (x : Number) : -2 ^ 63 ≤ x.rank := by
  have hbits := x.bits.toNat_lt
  rw [rank_eq]
  split <;> omega

theorem exists_of_rank (rank : Int) (hlow : -2 ^ 63 ≤ rank) (hhigh : rank < 2 ^ 63) :
    ∃ x : Number, x.rank = rank := by
  by_cases hnegative : rank < 0
  · refine ⟨⟨UInt64.ofNat (2 ^ 63 - 1 - rank).toNat⟩, ?_⟩
    rw [rank_eq, UInt64.toNat_ofNat_of_lt' (by simp [UInt64.size]; omega)]
    split <;> omega
  · refine ⟨⟨UInt64.ofNat rank.toNat⟩, ?_⟩
    rw [rank_eq, UInt64.toNat_ofNat_of_lt' (by simp [UInt64.size]; omega)]
    split <;> omega

/-- The first or the last pattern in the order of all patterns. Neither stands for a number. -/
def IsOutermost (x : Number) : Prop :=
  x.bits = 0x7fffffffffffffff ∨ x.bits = 0xffffffffffffffff

theorem isOutermost_iff {x : Number} :
    x.IsOutermost ↔ x.rank = 2 ^ 63 - 1 ∨ x.rank = -2 ^ 63 := by
  have hbits := x.bits.toNat_lt
  unfold IsOutermost
  rw [← UInt64.toNat_inj, ← UInt64.toNat_inj, rank_eq]
  split <;> simp <;> omega

theorem withinSteps_of_sameValue {x y : Number} (hsame : x.sameValue y = true) :
    withinSteps 1 x y = true := by
  simp only [sameValue, Bool.and_eq_true, Bool.or_eq_true, beq_iff_eq] at hsame
  obtain hbits | ⟨hx, hy⟩ := hsame.2
  · have hrank : x.rank = y.rank := by rw [rank_eq, rank_eq, hbits]
    simp [withinSteps, hrank]
  · have hzero {z : Number} (hz : z.magnitude = 0) : z.rank = 0 ∨ z.rank = -1 := by
      unfold rank
      rw [hz]
      split
      · exact .inr rfl
      · exact .inl rfl
    have hxrank := hzero hx
    have hyrank := hzero hy
    rw [withinSteps, decide_eq_true_iff]
    omega

end Tagmark.Number
