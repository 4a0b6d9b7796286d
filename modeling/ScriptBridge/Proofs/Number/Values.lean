import Mathlib.Algebra.Order.Field.Rat
import Mathlib.Data.Nat.Cast.Field
import Mathlib.Tactic.NormNum
import ScriptBridge.Number.Binary64

/-! # The value of a double

A finite double is a rational number, `± significand · 2 ^ exponent`. It holds an integer if that
number is one: `Binary64.toInt?_eq_some_iff`.
-/

namespace ScriptBridge.Binary64
set_option autoImplicit false

variable {x : Binary64} {z : Int} {k : Nat}

def magnitude (x : Binary64) : ℚ := x.significand * 2 ^ x.exponent

/-- The rational number that a finite double is. -/
def value (x : Binary64) : ℚ := if x.isNegative then -x.magnitude else x.magnitude

theorem magnitude_of_exponent (h : x.exponent = k) :
    x.magnitude = ((x.significand * Nat.pow 2 k : Nat) : ℚ) := by
  rw [magnitude, h, Nat.pow_eq, zpow_natCast]
  norm_cast

theorem magnitude_eq_div (h : x.exponent = -k) : x.magnitude = x.significand / (2 ^ k : Nat) := by
  rw [magnitude, h, zpow_neg, zpow_natCast, div_eq_mul_inv]
  norm_cast

/-- A magnitude that is a natural number, with the sign of the double. -/
theorem value_eq_iff {n : Nat} (h : x.magnitude = n) :
    x.value = z ↔ (if x.isNegative then -(n : Int) else n) = z := by
  rw [value, h]
  split <;> norm_cast

/-- **A double holds an integer exactly if its value is that integer.** -/
theorem toInt?_eq_some_iff : x.toInt? = some z ↔ x.isFinite ∧ x.value = z := by
  by_cases hfinite : x.isFinite
  · simp only [toInt?, hfinite, Bool.not_true, Bool.false_eq_true, if_false, true_and]
    split
    next he =>
      obtain ⟨k, hk⟩ := Int.eq_ofNat_of_zero_le he
      rw [value_eq_iff (magnitude_of_exponent hk), hk, Int.toNat_natCast, Option.some.injEq]
    next he =>
      obtain ⟨k, hk⟩ := Int.eq_ofNat_of_zero_le (show 0 ≤ -x.exponent by omega)
      have hk' : x.exponent = -k := by omega
      rw [hk, Int.toNat_natCast, Nat.pow_eq]
      split
      next hdvd =>
        have hmagnitude : x.magnitude = ((x.significand / 2 ^ k : Nat) : ℚ) := by
          rw [magnitude_eq_div hk', Nat.cast_div (Nat.dvd_of_mod_eq_zero hdvd)
            (Nat.cast_ne_zero.2 (Nat.two_pow_pos k).ne')]
        rw [value_eq_iff hmagnitude, Option.some.injEq]
      next hdvd =>
        refine iff_of_false nofun fun hvalue => hdvd (Nat.mod_eq_zero_of_dvd ?_)
        obtain ⟨w, hw⟩ : ∃ w : Int, x.magnitude = w := by
          rw [value] at hvalue
          split at hvalue
          · exact ⟨-z, by rw [Int.cast_neg, ← hvalue, neg_neg]⟩
          · exact ⟨z, hvalue⟩
        have hne : ((2 ^ k : Nat) : ℚ) ≠ 0 := Nat.cast_ne_zero.2 (Nat.two_pow_pos k).ne'
        rw [magnitude_eq_div hk', div_eq_iff hne] at hw
        have hmul : (x.significand : Int) = w * (2 ^ k : Nat) := by exact_mod_cast hw
        exact Int.natCast_dvd_natCast.1 ⟨w, hmul.trans (Int.mul_comm _ _)⟩
  · simp [toInt?, hfinite]

end ScriptBridge.Binary64
