import ScriptBridge.Conversion.FromScript
import ScriptBridge.Proofs.Number.Decimal
import ScriptBridge.Proofs.Script.Comparing

/-! # Equal numbers

Equal numbers are read as equal doubles. They are read as the same integer only among values that
are `Exact`.
-/

namespace ScriptBridge.Script.Value
set_option autoImplicit false

variable {ps : List Value} {v w : Value} {i : Int64} {x y : Binary64}

theorem integer?_float_iff : (float x).integer? = some i ↔ x.toInt? = some i.toInt := by
  rw [integer?, Option.bind_eq_some_iff]
  simp only [Number.toInt64?_eq_some_iff]
  exact ⟨fun ⟨_, hz, hi⟩ => hi ▸ hz, fun h => ⟨_, h, rfl⟩⟩

theorem held_of_integer? (hv : v ∈ ps) (hi : v.integer? = some i) : Held ps i := by
  cases v with
  | int j =>
    cases hi
    exact .inl hv
  | float x => exact .inr ⟨x, hv, integer?_float_iff.1 hi⟩
  | _ => cases hi

/-- Equal numbers hold the same integer. -/
theorem Exact.integer?_of_same (h : Exact ps) (hv : v ∈ ps) (hw : w ∈ ps) (hsame : v.same w)
    (hi : v.integer? = some i) : w.integer? = some i := by
  cases v with
  | int i' =>
    cases hi
    cases w with
    | int j =>
      obtain rfl : i = j := beq_iff_eq.1 hsame
      rfl
    | float y => exact integer?_float_iff.2 (h.toInt?_of_equal (.inl hv) hw hsame)
    | _ => cases hsame
  | float x =>
    rw [integer?_float_iff] at hi
    cases w with
    | int j =>
      have hj := h.toInt?_of_equal (.inl hw) hv hsame
      rw [integer?, Int64.toInt_inj.1 (Option.some.inj (hj.symm.trans hi))]
    | float y => exact integer?_float_iff.2 (Binary64.toInt?_congr hsame ▸ hi)
    | _ => cases hsame
  | _ => cases hi

theorem exists_number?_of_same (hsame : v.same w) (hx : v.number? = some x) :
    ∃ y, w.number? = some y ∧ x.equal y := by
  cases v with
  | int i =>
    cases hx
    cases w with
    | int j =>
      obtain rfl : i = j := beq_iff_eq.1 hsame
      exact ⟨_, rfl, equal_self (Binary64.isNaN_ofInt _)⟩
    | float y => exact ⟨y, rfl, hsame⟩
    | _ => cases hsame
  | float x =>
    cases hx
    cases w with
    | int j => exact ⟨_, rfl, Binary64.equal_symm hsame⟩
    | float y => exact ⟨y, rfl, hsame⟩
    | _ => cases hsame
  | _ => cases hx

/-- Numbers that are read as equal doubles are equal, except for integers that are rounded to one
double. -/
theorem same_of_equal (hx : v.number? = some x) (hy : w.number? = some y) (h : x.equal y)
    (hint : ∀ i j, v = .int i → w = .int j → i = j) : v.same w := by
  cases v with
  | int i =>
    cases hx
    cases w with
    | int j => exact beq_iff_eq.2 (hint i j rfl rfl)
    | float y =>
      cases hy
      exact h
    | _ => cases hy
  | float x =>
    cases hx
    cases w with
    | int j =>
      cases hy
      exact Binary64.equal_symm h
    | float y =>
      cases hy
      exact h
    | _ => cases hy
  | _ => cases hx

end ScriptBridge.Script.Value
