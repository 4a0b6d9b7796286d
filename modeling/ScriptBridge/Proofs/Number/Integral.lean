import Mathlib.Tactic.NormNum
import ScriptBridge.Number.Binary64

/-! # Integers held by doubles

The double nearest to an integer is a number, and it is the double itself that holds the integer,
up to the sign of zero: `Binary64.equal_ofInt_of_toInt?`. Equality of doubles is symmetric and
transitive, and equal doubles hold the same integer.
-/

namespace ScriptBridge.Binary64
set_option autoImplicit false

variable {x : Binary64} {negative : Bool} {m n E F : Nat} {e z : Int}

/-! ## Fields -/

theorem toNat_ofFields (hE : E < 2048) (hF : F < Nat.pow 2 52) :
    (ofFields negative E F).bits.toNat =
      (if negative then Nat.pow 2 63 else 0) + E * Nat.pow 2 52 + F := by
  rw [ofFields, UInt64.toNat_ofNat_of_lt']
  simp only [UInt64.size, Nat.pow_eq] at *
  split <;> omega

theorem exponentField_ofFields (hE : E < 2048) (hF : F < Nat.pow 2 52) :
    (ofFields negative E F).exponentField = E := by
  rw [exponentField, toNat_ofFields hE hF]
  simp only [Nat.pow_eq] at *
  split <;> omega

theorem fractionField_ofFields (hE : E < 2048) (hF : F < Nat.pow 2 52) :
    (ofFields negative E F).fractionField = F := by
  rw [fractionField, toNat_ofFields hE hF]
  simp only [Nat.pow_eq] at *
  split <;> omega

theorem ofFields_fields (x : Binary64) :
    ofFields x.isNegative x.exponentField x.fractionField = x := by
  have hlt := x.bits.toNat_lt
  have hbits : (if x.isNegative then Nat.pow 2 63 else 0) + x.exponentField * Nat.pow 2 52 +
      x.fractionField = x.bits.toNat := by
    simp only [isNegative, exponentField, fractionField, Nat.pow_eq, decide_eq_true_eq]
    split <;> omega
  rw [ofFields, hbits, UInt64.ofNat_toNat]

theorem exponentField_lt (x : Binary64) : x.exponentField < 2048 := Nat.mod_lt _ (by decide)

theorem fractionField_lt (x : Binary64) : x.fractionField < Nat.pow 2 52 :=
  Nat.mod_lt _ (by decide)

theorem isNaN_ofFields (hE : E < 2047) (hF : F < Nat.pow 2 52) :
    (ofFields negative E F).isNaN = false := by
  rw [isNaN, exponentField_ofFields (by omega) hF]
  simp
  omega

/-! ## Rounding -/

/-- The exact quotient and the next integer are the only candidates. -/
theorem roundHalfEven_bounds (num den : Nat) :
    num / den ≤ roundHalfEven num den ∧ roundHalfEven num den ≤ num / den + 1 := by
  simp only [roundHalfEven]
  split
  · omega
  · split <;> omega

theorem roundHalfEven_mul {den : Nat} (hden : 0 < den) (m : Nat) :
    roundHalfEven (m * den) den = m := by
  simp [roundHalfEven, hden]

theorem ratioExponent_double (hn : n ≠ 0) :
    ratioExponent .double n 1 = (n.log2 : Int) - 52 := by
  have hreached : 1 * Nat.pow 2 n.log2 ≤ n := by
    rw [Nat.one_mul]
    exact Nat.log2_self_le hn
  have hone : Nat.log2 1 = 0 := by decide
  have hhigh : (n.log2 : Int) - 0 - 53 + 53 = n.log2 := by omega
  simp only [ratioExponent, BinaryFormat.double, hone, Nat.cast_zero, Nat.cast_ofNat, hhigh,
    Int.natCast_nonneg, if_true, Int.toNat_natCast, hreached, decide_true]
  omega

/-- The significand of an integer at an exponent, before a carry. -/
def significandAt (n : Nat) (e : Int) : Nat :=
  if 0 ≤ e then roundHalfEven n (Nat.pow 2 e.toNat) else n * Nat.pow 2 (-e).toNat

theorem significandAt_bounds (hn : n ≠ 0) :
    Nat.pow 2 52 ≤ significandAt n (n.log2 - 52) ∧
      significandAt n (n.log2 - 52) ≤ Nat.pow 2 53 := by
  have hle := Nat.log2_self_le hn
  have hlt := Nat.lt_log2_self (n := n)
  unfold significandAt
  split
  next he =>
    obtain ⟨k, hk⟩ : ∃ k, n.log2 = k + 52 := ⟨n.log2 - 52, by omega⟩
    have htoNat : ((n.log2 : Int) - 52).toNat = k := by omega
    have hpos : 0 < 2 ^ k := Nat.two_pow_pos k
    rw [htoNat]
    rw [hk, pow_add] at hle
    rw [hk, add_assoc, pow_add] at hlt
    have hlower : 2 ^ 52 ≤ n / 2 ^ k := (Nat.le_div_iff_mul_le hpos).2 (by rw [mul_comm]; exact hle)
    have hupper : n / 2 ^ k < 2 ^ 53 := (Nat.div_lt_iff_lt_mul hpos).2 (by rw [mul_comm]; exact hlt)
    have hround := roundHalfEven_bounds n (2 ^ k)
    simp only [Nat.pow_eq]
    omega
  next he =>
    obtain ⟨k, hk⟩ : ∃ k, 52 = n.log2 + k := ⟨52 - n.log2, by omega⟩
    have htoNat : (-((n.log2 : Int) - 52)).toNat = k := by omega
    rw [htoNat]
    have hlower : 2 ^ n.log2 * 2 ^ k ≤ n * 2 ^ k := Nat.mul_le_mul_right _ hle
    have hupper : n * 2 ^ k ≤ 2 ^ (n.log2 + 1) * 2 ^ k := Nat.mul_le_mul_right _ hlt.le
    rw [← pow_add] at hlower hupper
    rw [← hk] at hlower
    rw [show n.log2 + 1 + k = 53 by omega] at hupper
    exact ⟨hlower, hupper⟩

theorem log2_full (hm : Nat.pow 2 52 ≤ m) (hm' : m < Nat.pow 2 53) : m.log2 = 52 := by
  refine (Nat.log2_eq_iff ?_).2 ⟨hm, hm'⟩
  rintro rfl
  exact absurd hm (by decide)

/-- A full significand is not widened. -/
theorem ofParts_full (hm : Nat.pow 2 52 ≤ m) (hm' : m < Nat.pow 2 53) (k : Nat) :
    ofParts negative (m * Nat.pow 2 (min (52 - m.log2) k)) (e - (min (52 - m.log2) k : Nat)) =
      ofFields negative (e + 1075).toNat (m - Nat.pow 2 52) := by
  have hlog := log2_full hm hm'
  have hshift : min (52 - m.log2) k = 0 := by omega
  rw [hshift, Nat.pow_eq, pow_zero, mul_one, Nat.cast_zero, sub_zero, ofParts, if_neg (by omega)]

/-- The double nearest to a positive integer, by whether rounding carries. -/
theorem ofRatio_eq (hn : n ≠ 0) (he : e = n.log2 - 52) (hm : significandAt n e = m) :
    ofRatio .double negative n 1 =
      if m = Nat.pow 2 53 then
        if 971 < e + 1 then infinity negative else ofFields negative (e + 1076).toNat 0
      else if 971 < e then infinity negative
        else ofFields negative (e + 1075).toNat (m - Nat.pow 2 52) := by
  have hrounded : (if 0 ≤ e then roundHalfEven n (1 * Nat.pow 2 e.toNat)
      else roundHalfEven (n * Nat.pow 2 (-e).toNat) 1) = m := by
    rw [← hm, significandAt, Nat.one_mul]
    split
    · rfl
    · simpa only [Nat.mul_one] using roundHalfEven_mul Nat.one_pos (n * Nat.pow 2 (-e).toNat)
  have hbounds := significandAt_bounds hn
  rw [← he, hm] at hbounds
  simp only [ofRatio, if_neg hn, ratioExponent_double hn, ← he, hrounded]
  by_cases hcarry : m = Nat.pow 2 53
  · -- Half of a significand of 54 bits is a full one again, at the next exponent.
    have hprecision : m = Nat.pow 2 BinaryFormat.double.precision := hcarry
    have hhalf : m / 2 = Nat.pow 2 52 := by rw [hcarry]
    have hfull : ofParts negative _ _ = ofFields negative (e + 1 + 1075).toNat _ :=
      ofParts_full (Nat.le_refl (Nat.pow 2 52)) (by decide) (e + 1 + 1074).toNat
    rw [add_assoc e 1 1075, Nat.sub_self] at hfull
    rw [if_pos hprecision, if_pos hcarry, hhalf, hfull]
    rfl
  · have hlt : m < Nat.pow 2 53 := lt_of_le_of_ne hbounds.2 hcarry
    have hprecision : ¬ m = Nat.pow 2 BinaryFormat.double.precision := hcarry
    rw [if_neg hprecision, if_neg hcarry, ofParts_full hbounds.1 hlt]
    rfl

/-! ## Integers -/

theorem isNaN_ofInt (z : Int) : (ofInt z).isNaN = false := by
  by_cases hz : z.natAbs = 0
  · rw [ofInt, ofRatio, if_pos hz]
    exact isNaN_ofFields (by decide) (by decide)
  · have hbounds := significandAt_bounds hz
    rw [ofInt, ofRatio_eq hz rfl rfl]
    have hinfinity : (infinity (decide (z < 0))).isNaN = false := by
      rw [isNaN, infinity, fractionField_ofFields (by decide) (by decide)]
      simp
    split
    · split
      · exact hinfinity
      · exact isNaN_ofFields (by omega) (by decide)
    next hcarry =>
      split
      · exact hinfinity
      · refine isNaN_ofFields (by omega) ?_
        simp only [Nat.pow_eq] at *
        omega

theorem log2_mul_two_pow (hn : n ≠ 0) (k : Nat) : (n * Nat.pow 2 k).log2 = n.log2 + k := by
  refine (Nat.log2_eq_iff (Nat.mul_ne_zero hn (Nat.two_pow_pos k).ne')).2 ?_
  rw [pow_add, add_right_comm, pow_add]
  exact ⟨Nat.mul_le_mul_right _ (Nat.log2_self_le hn),
    Nat.mul_lt_mul_of_pos_right Nat.lt_log2_self (Nat.two_pow_pos k)⟩

/-- A full significand that gives an integer at an exponent is that of the nearest double. -/
theorem ofRatio_of_exact (hn : n ≠ 0) (hm : Nat.pow 2 52 ≤ m) (hm' : m < Nat.pow 2 53)
    (he : e ≤ 971) (heq : n * Nat.pow 2 (-e).toNat = m * Nat.pow 2 e.toNat) :
    ofRatio .double negative n 1 = ofFields negative (e + 1075).toNat (m - Nat.pow 2 52) := by
  have hm0 : m ≠ 0 := by
    rintro rfl
    exact absurd hm (by decide)
  -- Both sides of the equation have the same length, which settles the exponent.
  have hlog : e = n.log2 - 52 := by
    have hboth := congrArg Nat.log2 heq
    rw [log2_mul_two_pow hn, log2_mul_two_pow hm0, log2_full hm hm'] at hboth
    omega
  have hsignificand : significandAt n e = m := by
    unfold significandAt
    split
    next h0 =>
      have hn' : n = m * Nat.pow 2 e.toNat := by
        rw [← heq, show (-e).toNat = 0 by omega]
        simp
      exact hn' ▸ roundHalfEven_mul (Nat.two_pow_pos _) m
    next h0 =>
      rw [heq, show e.toNat = 0 by omega]
      simp
  rw [ofRatio_eq hn hlog hsignificand, if_neg hm'.ne, if_neg (by omega)]

/-- What it means that a double holds an integer. -/
structure Holds (x : Binary64) (z : Int) (n : Nat) : Prop where
  finite : x.isFinite
  signed : z = if x.isNegative then -(n : Int) else n
  exact : n * Nat.pow 2 (-x.exponent).toNat = x.significand * Nat.pow 2 x.exponent.toNat

theorem exists_holds_of_toInt? (h : x.toInt? = some z) : ∃ n, x.Holds z n := by
  have hfinite : x.isFinite := by
    by_contra hnot
    simp [toInt?, hnot] at h
  by_cases he : 0 ≤ x.exponent
  · simp only [toInt?, hfinite, Bool.not_true, Bool.false_eq_true, if_false, if_pos he,
      Option.some.injEq] at h
    refine ⟨_, hfinite, h.symm, ?_⟩
    rw [show (-x.exponent).toNat = 0 by omega]
    simp
  · by_cases hunit : x.significand % Nat.pow 2 (-x.exponent).toNat = 0
    · simp only [toInt?, hfinite, Bool.not_true, Bool.false_eq_true, if_false, if_neg he,
        if_pos hunit, Option.some.injEq] at h
      refine ⟨_, hfinite, h.symm, ?_⟩
      rw [show x.exponent.toNat = 0 by omega, Nat.div_mul_cancel (Nat.dvd_of_mod_eq_zero hunit)]
      simp
    · simp only [toInt?, hfinite, Bool.not_true, Bool.false_eq_true, if_false, if_neg he,
        if_neg hunit, reduceCtorEq] at h

theorem exponentField_lt_of_finite (h : x.isFinite) : x.exponentField < 2047 := by
  have hlt := x.exponentField_lt
  have hne : x.exponentField ≠ 2047 := by simpa [isFinite] using h
  omega

theorem isNaN_of_finite (h : x.isFinite) : x.isNaN = false := by
  rw [← ofFields_fields x]
  exact isNaN_ofFields (exponentField_lt_of_finite h) x.fractionField_lt

theorem isZero_of_significand (h : x.significand = 0) : x.isZero := by
  unfold significand at h
  simp only [isZero, Bool.and_eq_true, beq_iff_eq]
  split at h
  next h0 => exact ⟨h0, h⟩
  · simp at h

namespace Holds

variable (h : x.Holds z n)
include h

theorem natAbs_eq : z.natAbs = n := by
  rw [h.signed]
  split <;> simp

/-- Only the zeros hold zero. -/
theorem isZero (hn : n = 0) : x.isZero := by
  have hproduct := h.exact
  rw [hn, Nat.zero_mul, eq_comm, Nat.mul_eq_zero] at hproduct
  exact isZero_of_significand (hproduct.resolve_right (Nat.two_pow_pos _).ne')

/-- A subnormal number is too small to hold another integer. -/
theorem normal (hn : n ≠ 0) : x.exponentField ≠ 0 := by
  intro h0
  obtain ⟨k, hk⟩ : ∃ k, k = (-x.exponent).toNat := ⟨_, rfl⟩
  have hexponent : x.exponent = -1074 := by rw [exponent, if_pos h0]
  have hsignificand : x.significand = x.fractionField := by rw [significand, if_pos h0]
  have hproduct := h.exact
  rw [← hk, hsignificand, show x.exponent.toNat = 0 by omega] at hproduct
  have hF := x.fractionField_lt
  have hbig : Nat.pow 2 52 ≤ x.fractionField :=
    calc Nat.pow 2 52
      _ ≤ Nat.pow 2 k := Nat.pow_le_pow_right (by decide) (by omega)
      _ ≤ n * Nat.pow 2 k := Nat.le_mul_of_pos_left _ (Nat.pos_of_ne_zero hn)
      _ = x.fractionField := hproduct.trans (Nat.mul_one _)
  omega

theorem ofInt_eq (hn : n ≠ 0) : ofInt z = x := by
  have hE := exponentField_lt_of_finite h.finite
  have hF := x.fractionField_lt
  have hnormal := h.normal hn
  have hsignificand : x.significand = Nat.pow 2 52 + x.fractionField := by
    rw [significand, if_neg hnormal]
  have hexponent : x.exponent = x.exponentField - 1075 := by rw [exponent, if_neg hnormal]
  have hsign : decide (z < 0) = x.isNegative := by
    rw [h.signed]
    cases x.isNegative
    · simp
    · simp [Nat.pos_of_ne_zero hn]
  have hexact := h.exact
  rw [hsignificand] at hexact
  have hnearest : ofRatio .double x.isNegative n 1 = _ :=
    ofRatio_of_exact hn (Nat.le_add_right _ _) (by simp only [Nat.pow_eq] at *; omega)
      (by omega) hexact
  rw [ofInt, hsign, h.natAbs_eq, hnearest, hexponent, Nat.add_sub_cancel_left,
    show ((x.exponentField : Int) - 1075 + 1075).toNat = x.exponentField by omega]
  exact ofFields_fields x

end Holds

theorem isZero_ofInt (hz : z.natAbs = 0) : (ofInt z).isZero := by
  rw [ofInt, hz]
  cases decide (z < 0) <;> decide

/-- **A double that holds an integer is equal to the nearest one to it.** -/
theorem equal_ofInt_of_toInt? (h : x.toInt? = some z) : (ofInt z).equal x := by
  obtain ⟨n, hn⟩ := exists_holds_of_toInt? h
  rw [equal, isNaN_ofInt, isNaN_of_finite hn.finite]
  by_cases hn0 : n = 0
  · have hnearest : (ofInt z).isZero := isZero_ofInt (hn.natAbs_eq.trans hn0)
    simp [hn.isZero hn0, hnearest]
  · simp [hn.ofInt_eq hn0]

/-! ## Equal doubles -/

section
variable {y w : Binary64}

theorem equal_iff : x.equal y ↔
    x.isNaN = false ∧ y.isNaN = false ∧ (x = y ∨ x.isZero ∧ y.isZero) := by
  cases x
  cases y
  simp [equal, and_assoc]

theorem equal_symm (h : x.equal y) : y.equal x := by
  obtain ⟨hx, hy, heq⟩ := equal_iff.1 h
  exact equal_iff.2 ⟨hy, hx, heq.imp Eq.symm And.symm⟩

theorem equal_trans (hxy : x.equal y) (hyw : y.equal w) : x.equal w := by
  obtain ⟨hx, -, rfl | ⟨hzx, hzy⟩⟩ := equal_iff.1 hxy
  · exact hyw
  · obtain ⟨-, hw, rfl | ⟨-, hzw⟩⟩ := equal_iff.1 hyw
    · exact equal_iff.2 ⟨hx, hw, .inr ⟨hzx, hzy⟩⟩
    · exact equal_iff.2 ⟨hx, hw, .inr ⟨hzx, hzw⟩⟩

theorem equal_congr_left (h : x.equal y) (w : Binary64) : x.equal w = y.equal w := by
  rw [Bool.eq_iff_iff]
  exact ⟨equal_trans (equal_symm h), equal_trans h⟩

theorem equal_congr_right (h : x.equal y) (w : Binary64) : w.equal x = w.equal y := by
  rw [Bool.eq_iff_iff]
  exact ⟨fun hw => equal_trans hw h, fun hw => equal_trans hw (equal_symm h)⟩

theorem toInt?_of_isZero (h : x.isZero) : x.toInt? = some 0 := by
  obtain ⟨hE, hF⟩ : x.exponentField = 0 ∧ x.fractionField = 0 := by simpa [isZero] using h
  have hfinite : x.isFinite := by simp [isFinite, hE]
  have hexponent : ¬ 0 ≤ x.exponent := by
    rw [exponent, if_pos hE]
    decide
  have hsignificand : x.significand = 0 := by rw [significand, if_pos hE, hF]
  simp [toInt?, hfinite, hexponent, hsignificand]

/-- Equal doubles hold the same integer, if any. -/
theorem toInt?_congr (h : x.equal y) : x.toInt? = y.toInt? := by
  obtain ⟨-, -, rfl | ⟨hx, hy⟩⟩ := equal_iff.1 h
  · rfl
  · rw [toInt?_of_isZero hx, toInt?_of_isZero hy]

end

end ScriptBridge.Binary64
