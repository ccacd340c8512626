import Mathlib.Algebra.Order.Field.Power
import Mathlib.Algebra.Order.Ring.Rat
import Mathlib.Data.Rat.Cast.Order
import Mathlib.Tactic.Linarith
import Mathlib.Tactic.NormNum
import Mathlib.Tactic.Positivity
import Mathlib.Tactic.Ring
import SegmentSwap.Number.Quantity

/-!
# Doubles and the numbers that they stand for

A finite double other than the two zeros is the only one that stands for its number: of two with the
same absolute value none has the larger exponent, since a significand that is not scaled by the least
power of two has all of its digits. So a double that counts as one is the double one.
-/

namespace SegmentSwap

namespace Binary64

variable {x y : Binary64}

theorem fractionField_lt (x : Binary64) : x.fractionField < 2 ^ 52 :=
  Nat.mod_lt _ (Nat.pow_pos (by decide))

theorem significand_lt (x : Binary64) : x.significand < 2 ^ 53 := by
  have hfraction := x.fractionField_lt
  unfold significand
  rw [Nat.pow_eq]
  split <;> omega

/-- Beyond the smallest doubles the first digit of the significand is one. -/
theorem significand_ge (h : -1074 < x.exponent) : 2 ^ 52 ≤ x.significand := by
  unfold exponent at h
  unfold significand
  split
  · rename_i hzero
    rw [if_pos hzero] at h
    exact absurd h (by decide)
  · exact Nat.le_add_right _ _

theorem exponent_ge (x : Binary64) : -1074 ≤ x.exponent := by
  unfold exponent
  split <;> omega

/-- The absolute value is the significand scaled by a power of two. -/
theorem magnitude_eq (x : Binary64) : x.magnitude = x.significand * (2 : Rat) ^ x.exponent := by
  unfold magnitude scaleFraction
  rw [Rat.mkRat_eq_div]
  split
  · rename_i hnonneg
    obtain ⟨e, he⟩ := Int.eq_ofNat_of_zero_le hnonneg
    rw [he, zpow_natCast, Int.toNat_natCast]
    push_cast [Nat.pow_eq]
    rw [div_one]
  · rename_i hneg
    obtain ⟨e, he⟩ := Int.eq_ofNat_of_zero_le (by omega : 0 ≤ -x.exponent)
    have hexponent : x.exponent = -(e : Int) := by omega
    rw [hexponent, neg_neg, zpow_neg, zpow_natCast, Int.toNat_natCast]
    push_cast [Nat.pow_eq]
    rw [one_mul, div_eq_mul_inv]

theorem magnitude_nonneg (x : Binary64) : 0 ≤ x.magnitude := by
  rw [magnitude_eq]
  positivity

theorem exponent_le_of_magnitude_eq (h : x.magnitude = y.magnitude) : y.exponent ≤ x.exponent := by
  by_contra hlt
  have hdigits : (2 : Rat) ^ 52 ≤ y.significand := by
    have hexponent := x.exponent_ge
    exact_mod_cast significand_ge (by omega : -1074 < y.exponent)
  have hfew : (x.significand : Rat) < 2 ^ 53 := by exact_mod_cast x.significand_lt
  have hpositive : (0 : Rat) < 2 ^ x.exponent := by positivity
  have htwo : (2 : Rat) * 2 ^ x.exponent ≤ 2 ^ y.exponent := by
    calc (2 : Rat) * 2 ^ x.exponent
        = 2 ^ (x.exponent + 1) := by rw [zpow_add_one₀ two_ne_zero, mul_comm]
      _ ≤ 2 ^ y.exponent := zpow_le_zpow_right₀ (by norm_num) (by omega)
  rw [magnitude_eq, magnitude_eq] at h
  have hlarge : (2 : Rat) ^ 53 * 2 ^ x.exponent ≤ x.significand * 2 ^ x.exponent := by
    calc (2 : Rat) ^ 53 * 2 ^ x.exponent
        = 2 ^ 52 * (2 * 2 ^ x.exponent) := by ring
      _ ≤ 2 ^ 52 * 2 ^ y.exponent := by gcongr
      _ ≤ y.significand * 2 ^ y.exponent := by gcongr
      _ = x.significand * 2 ^ x.exponent := h.symm
  exact absurd (le_of_mul_le_mul_right hlarge hpositive) (not_le.mpr hfew)

/-- Doubles with the same absolute value have the same fields but for the sign. -/
theorem fields_eq_of_magnitude_eq (h : x.magnitude = y.magnitude) :
    x.exponentField = y.exponentField ∧ x.fractionField = y.fractionField := by
  have hexponent : x.exponent = y.exponent :=
    Int.le_antisymm (exponent_le_of_magnitude_eq h.symm) (exponent_le_of_magnitude_eq h)
  rw [magnitude_eq, magnitude_eq, hexponent] at h
  have hsignificand : x.significand = y.significand := by
    exact_mod_cast mul_right_cancel₀ (zpow_ne_zero _ two_ne_zero) h
  have hx := x.fractionField_lt
  have hy := y.fractionField_lt
  unfold exponent at hexponent
  unfold significand at hsignificand
  rw [Nat.pow_eq] at hsignificand
  split_ifs at hexponent hsignificand <;> omega

/-- A double is made up of its fields. -/
theorem word_eq (x : Binary64) :
    x.word = (if x.isNegative then 2 ^ 63 else 0) + x.exponentField * 2 ^ 52 +
      x.fractionField := by
  have hword : x.word < 2 ^ 64 := x.bits.toNat_lt
  unfold isNegative exponentField fractionField
  simp only [Nat.pow_eq, decide_eq_true_eq]
  split <;> omega

theorem eq_of_word_eq (h : x.word = y.word) : x = y := by
  obtain ⟨x⟩ := x
  obtain ⟨y⟩ := y
  exact congrArg Binary64.mk (UInt64.toNat_inj.mp h)

/-- No two doubles stand for the same number, the zeros apart. -/
theorem eq_of_toRat_eq (h : x.toRat = y.toRat) (hne : y.toRat ≠ 0) : x = y := by
  have hx := x.magnitude_nonneg
  have hy := y.magnitude_nonneg
  have hsame : x.isNegative = y.isNegative ∧ x.magnitude = y.magnitude := by
    unfold toRat at h hne
    cases hxs : x.isNegative <;> cases hys : y.isNegative <;>
      simp only [hxs, hys, if_true, if_false, Bool.false_eq_true, neg_inj, neg_ne_zero] at h hne ⊢
    · exact ⟨trivial, h⟩
    · exact absurd (by linarith : y.magnitude = 0) hne
    · exact absurd (by linarith : y.magnitude = 0) hne
    · exact ⟨trivial, h⟩
  obtain ⟨hexponent, hfraction⟩ := fields_eq_of_magnitude_eq hsame.2
  apply eq_of_word_eq
  rw [word_eq x, word_eq y, hsame.1, hexponent, hfraction]

/-- The double one. -/
def one : Binary64 := ⟨0x3FF0000000000000⟩

theorem toRat_one : one.toRat = 1 := by decide +kernel

end Binary64

/-- A real quantity is equal to the whole number one if it is the double one. -/
theorem Quantity.same_one_iff {x : Binary64} :
    (Quantity.real x).same (.whole 1) = true ↔ x = .one := by
  constructor
  · intro h
    unfold Quantity.same Quantity.value? at h
    by_cases hnan : x.isNaN
    · simp [hnan] at h
    · by_cases hinfinite : x.isInfinite
      · cases hsign : x.isNegative <;> simp [hnan, hinfinite, hsign] at h
      · simp only [hnan, hinfinite, if_false, beq_iff_eq, Bool.false_eq_true,
          Extended.finite.injEq] at h
        refine Binary64.eq_of_toRat_eq ?_ ?_
        · rw [h, Binary64.toRat_one]
          rfl
        · rw [Binary64.toRat_one]
          exact one_ne_zero
  · rintro rfl
    decide +kernel

end SegmentSwap
