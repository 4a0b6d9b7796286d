import ScriptBridge.Proofs.Conversion.Reading
import ScriptBridge.Proofs.Conversion.Writing

/-! # Dropping what is there already

`Script.Value.fresh` keeps the values of a list that equal none kept before. That is what a set does
with the elements of an array, before it converts them, and again with what its elements become when
it is converted back.
-/

namespace ScriptBridge
set_option autoImplicit false

namespace Script.Value

/-- The values that equal none of `seen` and none kept before. -/
def fresh (seen : List Value) : List Value → List Value
  | [] => []
  | v :: rest => if seen.any (· == v) then fresh seen rest else v :: fresh (seen ++ [v]) rest

variable {seen vs : List Value} {v : Value}

theorem not_any_same_iff : ¬ seen.any (· == v) ↔ ∀ u ∈ seen, u.same v = false := by
  simp [BEq.beq]

theorem fresh_sublist (seen vs : List Value) : (fresh seen vs).Sublist vs := by
  induction vs generalizing seen with
  | nil => exact .slnil
  | cons v rest ih =>
    unfold fresh
    split
    · exact (ih seen).cons v
    · exact (ih _).cons_cons v

/-- A value is kept, or else an equal one is. -/
theorem exists_fresh_same (seen : List Value) (hv : v ∈ vs) :
    v ∈ fresh seen vs ∨ ∃ u ∈ seen ++ fresh seen vs, u.same v := by
  induction vs generalizing seen with
  | nil => cases hv
  | cons w rest ih =>
    unfold fresh
    split
    next hseen =>
      rcases List.mem_cons.1 hv with rfl | hv
      · obtain ⟨u, hu, hsame⟩ := List.any_eq_true.1 hseen
        exact .inr ⟨u, List.mem_append_left _ hu, hsame⟩
      · exact ih seen hv
    · rcases List.mem_cons.1 hv with rfl | hv
      · exact .inl List.mem_cons_self
      · refine (ih (seen ++ [w]) hv).imp (List.mem_cons_of_mem w) ?_
        rintro ⟨u, hu, hsame⟩
        exact ⟨u, by simpa using hu, hsame⟩

/-- What is kept equals nothing that was kept before. -/
theorem fresh_pairwise (hseen : seen.Pairwise fun v w => v.same w = false) (vs : List Value) :
    (seen ++ fresh seen vs).Pairwise fun v w => v.same w = false := by
  induction vs generalizing seen with
  | nil => simpa [fresh] using hseen
  | cons v rest ih =>
    unfold fresh
    split
    · exact ih hseen
    next hnew =>
      rw [List.append_cons]
      refine ih (List.pairwise_append.2 ⟨hseen, List.pairwise_singleton _ v, ?_⟩)
      intro u hu w hw
      obtain rfl := List.mem_singleton.1 hw
      exact not_any_same_iff.1 hnew u hu

theorem fresh_of_pairwise (h : (seen ++ vs).Pairwise fun v w => v.same w = false) :
    fresh seen vs = vs := by
  induction vs generalizing seen with
  | nil => rfl
  | cons v rest ih =>
    have hnew : ¬ seen.any (· == v) := by
      refine not_any_same_iff.2 fun u hu => ?_
      exact (List.pairwise_append.1 h).2.2 u hu v List.mem_cons_self
    rw [List.append_cons] at h
    rw [fresh, if_neg hnew, ih h]

/-- Lists whose values compare alike keep the values in the same places. -/
theorem fresh_congr {R : Value → Value → Prop} {seen' vs' : List Value}
    (hsame : ∀ v v' w w', R v v' → R w w' → v.same w = v'.same w')
    (hseen : List.Forall₂ R seen seen') (h : List.Forall₂ R vs vs') :
    List.Forall₂ R (fresh seen vs) (fresh seen' vs') := by
  induction h generalizing seen seen' with
  | nil => exact .nil
  | @cons v v' rest rest' hv _ ih =>
    have hany : seen.any (· == v) = seen'.any (· == v') := by
      clear ih
      induction hseen with
      | nil => rfl
      | cons hu _ ihseen =>
        rw [List.any_cons, List.any_cons, ihseen]
        exact congrArg (· || _) (hsame _ _ _ _ hu hv)
    unfold fresh
    rw [hany]
    split
    · exact ih hseen
    · exact .cons hv (ih (List.rel_append hseen (.cons hv .nil)))

end Script.Value

open Script.Value (fresh)

theorem Conversion.distinctItems_eq {convert : Script.Value → Except BridgeError Native.Value}
    (seen items : List Script.Value) :
    Conversion.distinctItems convert seen items = (fresh seen items).mapM convert := by
  induction items generalizing seen with
  | nil => rfl
  | cons item rest ih =>
    unfold Conversion.distinctItems fresh
    split
    · exact ih seen
    · rw [List.mapM_cons]
      simp only [ih]

namespace Native.Value

variable {b : Bridge} {depth : Nat}

/-- Whatever the elements of a set become, the distinct ones of that are kept. -/
theorem run_elementsToScript_eq {ns : List Value} {vs converted : List Script.Value}
    (h : List.Forall₂ (Becomes b depth) ns vs) :
    (elementsToScript depth converted ns).run b = (.ok (converted ++ fresh converted vs), b) := by
  induction h generalizing converted with
  | nil =>
    rw [fresh, List.append_nil]
    rfl
  | @cons n v ns vs hn _ ih =>
    refine (run_bind_of_ok hn _).trans ?_
    rw [ih]
    by_cases hv : converted.any (· == v)
    · rw [addDistinct, fresh, if_pos hv, if_pos hv]
    · rw [addDistinct, fresh, if_neg hv, if_neg hv, List.append_assoc, List.singleton_append]

theorem becomes_set_fresh (hdepth : depth ≤ b.options.maxDepth) {ns : List Value}
    {vs : List Script.Value} (h : List.Forall₂ (Becomes b (depth + 1)) ns vs) :
    Becomes b depth (.set ns) (.array (fresh [] vs)) := by
  have hrun : (elementsToScript (depth + 1) [] ns).run b = (.ok ([] ++ fresh [] vs), b) :=
    run_elementsToScript_eq h
  exact run_map_within hdepth hrun _

theorem becomes_set (hdepth : depth ≤ b.options.maxDepth) {ns : List Value}
    {vs : List Script.Value} (h : List.Forall₂ (Becomes b (depth + 1)) ns vs)
    (hdistinct : vs.Pairwise fun v w => v.same w = false) :
    Becomes b depth (.set ns) (.array vs) := by
  have hkept : fresh [] vs = vs := Script.Value.fresh_of_pairwise hdistinct
  have hset := becomes_set_fresh hdepth h
  rwa [hkept] at hset

end Native.Value

namespace Bridge

variable {b : Bridge} {index depth : Nat} {v : Script.Value} {n : Native.Value}
  {t element : DeclaredType} {items : List Script.Value}

/-- A set converts what is fresh of an array. -/
theorem fromScriptAt_set_iff_fresh : b.fromScriptAt index (.set element) depth v = .ok n ↔
    depth ≤ b.options.maxDepth ∧ ∃ items ns, v = .array items ∧
      List.Forall₂ (fun item n => b.fromScriptAt index element (depth + 1) item = .ok n)
        (fresh [] items) ns ∧ .set ns = n := by
  simp only [fromScriptAt_set_iff, Conversion.distinctItems_eq, mapM_eq_ok_iff]

theorem fromScript_set_iff : b.fromScript (.array items) (.set t) index = .ok n ↔
    ∃ ns, List.Forall₂ (fun v n => b.fromScriptAt index t 1 v = .ok n) (fresh [] items) ns ∧
      .set ns = n := by
  refine fromScriptAt_set_iff_fresh.trans ⟨?_, ?_⟩
  · rintro ⟨-, _, ns, heq, hns, rfl⟩
    cases heq
    exact ⟨ns, hns, rfl⟩
  · rintro ⟨ns, hns, rfl⟩
    exact ⟨Nat.zero_le _, items, ns, rfl, hns, rfl⟩

end Bridge
end ScriptBridge
