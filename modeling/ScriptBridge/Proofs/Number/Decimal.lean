import Mathlib.Data.Nat.Notation
import ScriptBridge.Number.Reader

/-! # Integers and their decimal texts

The text of a 64-bit integer is read as that integer, and no other text is:
`readInt64?_eq_some_iff`.
-/

namespace ScriptBridge.Number
set_option autoImplicit false

theorem toInt64?_eq_some_iff {z : Int} {i : Int64} : toInt64? z = some i ↔ i.toInt = z := by
  unfold toInt64?
  constructor
  · intro h
    split at h
    next hz =>
      obtain rfl := Option.some.inj h
      exact Int64.toInt_ofInt_of_le hz.1 (Int.lt_add_one_of_le hz.2)
    · cases h
  · rintro rfl
    rw [if_pos ⟨i.minValue_le_toInt, i.toInt_le⟩, Int64.ofInt_toInt]

theorem readInt?_toDigits (n : Nat) : readInt? (Nat.toDigits 10 n) = some (n : Int) ∧
    readInt? ('-' :: Nat.toDigits 10 n) = some (-n : Int) := by
  have hdigits : (Nat.toDigits 10 n).all Char.isDigit :=
    List.all_eq_true.2 fun c hc => Nat.isDigit_of_mem_toDigits (by decide) (by decide) hc
  have hne : Nat.toDigits 10 n ≠ [] := Nat.toDigits_ne_nil
  constructor
  · cases hcs : Nat.toDigits 10 n with
    | nil => exact absurd hcs hne
    | cons c cs =>
      have hc : c ≠ '-' := by
        rintro rfl
        rw [hcs] at hdigits
        simp at hdigits
      have hvalue : Nat.ofDigitChars 10 (c :: cs) 0 = n := by
        rw [← hcs, Nat.ofDigitChars_ten_toDigits]
      rw [hcs] at hdigits
      simp [readInt?, hc, hdigits, hvalue]
  · simp [readInt?, hne, hdigits, Nat.ofDigitChars_ten_toDigits]

theorem readInt?_toString (z : Int) : readInt? (toString z).toList = some z := by
  rw [Int.toString_eq_repr, Int.repr_eq_if]
  split
  next hz =>
    rw [Nat.toList_repr, (readInt?_toDigits _).1, Int.toNat_of_nonneg hz]
  next hz =>
    rw [String.toList_append, Nat.toList_repr]
    refine (readInt?_toDigits _).2.trans (congrArg some ?_)
    omega

/-- **The canonical text of an integer is read back as the integer**, and no other text is. -/
theorem readInt64?_eq_some_iff {text : String} {i : Int64} :
    readInt64? text = some i ↔ toString i.toInt = text := by
  unfold readInt64?
  constructor
  · intro h
    obtain ⟨z, hz, h⟩ := Option.bind_eq_some_iff.1 h
    split at h
    next htext => rw [toInt64?_eq_some_iff.1 h, htext]
    · cases h
  · rintro rfl
    rw [readInt?_toString]
    exact (if_pos rfl).trans (toInt64?_eq_some_iff.2 rfl)

end ScriptBridge.Number
