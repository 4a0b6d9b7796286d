import ScriptBridge.Registry
import Mathlib.Data.List.Nodup

/-! # The two tables of the registry

`Registry.Inverse` says that the tables of a registry are inverse to each other. Binding an instance
to a wrapper keeps them so if the wrapper is not bound yet, and retiring a wrapper always does. The
half of it that `Registry.Faithful` says needs no such condition.
-/

namespace ScriptBridge.Registry
set_option autoImplicit false

/-- An instance has a wrapper exactly if the wrapper is bound to a handle of the instance. -/
def Inverse (r : Registry) : Prop :=
  ∀ i w, r.byNative.find? i = some w ↔ ∃ o, r.native? w = some o ∧ o.identity = i

theorem inverse_empty : Inverse {} := by
  intro i w
  constructor
  · intro h
    cases h
  · rintro ⟨o, h, -⟩
    cases h

variable {r : Registry} {o : InstanceHandle} {w : ObjectId}

theorem contains_iff : r.contains w ↔ ∃ o, r.native? w = some o := by
  simp [contains, native?, Option.isSome_iff_exists]

theorem contains_eq_false_iff : r.contains w = false ↔ r.native? w = none := by
  simp [contains, native?]

/-- A wrapper is that of one instance. -/
theorem Inverse.eq_of_find? (h : r.Inverse) {i j : InstanceId} (hi : r.byNative.find? i = some w)
    (hj : r.byNative.find? j = some w) : i = j := by
  obtain ⟨o, ho, rfl⟩ := (h i w).1 hi
  obtain ⟨o', ho', rfl⟩ := (h j w).1 hj
  rw [Option.some.inj (ho.symm.trans ho')]

/-- Different wrappers are bound to different instances. -/
theorem Inverse.identity_ne (h : r.Inverse) {o' : InstanceHandle} {w' : ObjectId}
    (hn : r.native? w = some o) (hn' : r.native? w' = some o') (hne : w ≠ w') :
    o.identity ≠ o'.identity := by
  intro heq
  have hw := (h o.identity w).2 ⟨o, hn, rfl⟩
  have hw' := (h o.identity w').2 ⟨o', hn', heq.symm⟩
  exact hne (Option.some.inj (hw.symm.trans hw'))

/-! ## Binding -/

theorem bind_of_some {bound : ObjectId} (h : r.wrapper? o = some bound) :
    r.bind o w = (bound, r) := by
  simp only [bind, h]

theorem bind_of_none (h : r.wrapper? o = none) :
    r.bind o w = (w,
      { byNative := r.byNative.insert o.identity w
        bindings := r.bindings.insert w ⟨o, .weak⟩ }) := by
  simp only [bind, h]

theorem native?_bind (h : r.wrapper? o = none) (w' : ObjectId) :
    (r.bind o w).2.native? w' = if w' = w then some o else r.native? w' := by
  rw [bind_of_none h, native?, binding?, Table.find?_insert, native?, binding?]
  split <;> rfl

theorem byNative_bind (h : r.wrapper? o = none) (i : InstanceId) :
    (r.bind o w).2.byNative.find? i =
      if i = o.identity then some w else r.byNative.find? i := by
  rw [bind_of_none h, Table.find?_insert]

theorem contains_bind {w' : ObjectId} (h : (r.bind o w).2.contains w') :
    w' = w ∨ r.contains w' := by
  cases hw : r.wrapper? o with
  | some bound =>
    rw [bind_of_some hw] at h
    exact .inr h
  | none =>
    rw [contains_iff, native?_bind hw] at h
    by_cases hww : w' = w
    · exact .inl hww
    · rw [if_neg hww] at h
      exact .inr (contains_iff.2 h)

theorem Inverse.bind (h : r.Inverse) (o : InstanceHandle) (hfresh : ¬ r.contains w) :
    (r.bind o w).2.Inverse := by
  cases hw : r.wrapper? o with
  | some bound =>
    rw [bind_of_some hw]
    exact h
  | none =>
    intro i w'
    rw [native?_bind hw, bind_of_none hw, Table.find?_insert]
    have hnone : r.native? w = none := by
      cases hn : r.native? w with
      | none => rfl
      | some o' => exact absurd (contains_iff.2 ⟨o', hn⟩) hfresh
    have hi := h i w'
    have ho := h o.identity w'
    rw [show r.byNative.find? o.identity = none from hw] at ho
    by_cases hio : i = o.identity <;> by_cases hww : w' = w <;> grind

/-- Binding takes no wrapper from an instance. -/
theorem wrapper?_bind (h : r.wrapper? o = some w) (o' : InstanceHandle) (w' : ObjectId) :
    (r.bind o' w').2.wrapper? o = some w := by
  cases hw : r.wrapper? o' with
  | some bound =>
    rw [bind_of_some hw]
    exact h
  | none =>
    rw [bind_of_none hw, wrapper?, Table.find?_insert, if_neg]
    · exact h
    · intro heq
      rw [wrapper?, ← heq] at hw
      cases hw.symm.trans h

theorem wrapper?_of_bind (hnone : r.wrapper? o = none) {o' : InstanceHandle} {w' : ObjectId}
    (h : (r.bind o w).2.wrapper? o' = some w') : w' = w ∨ r.wrapper? o' = some w' := by
  rw [bind_of_none hnone, wrapper?, Table.find?_insert] at h
  split at h
  · exact .inl (Option.some.inj h).symm
  · exact .inr h

/-! ## Retiring -/

/-- The registry without the binding of a wrapper. -/
def without (r : Registry) (id : ObjectId) : Registry :=
  match r.retire? id with
  | none => r
  | some (_, r) => r

theorem binding?_without (id w : ObjectId) :
    (r.without id).binding? w = if w = id then none else r.binding? w := by
  unfold without retire?
  cases hb : r.binding? id with
  | none =>
    by_cases hw : w = id
    · simp [hw, hb]
    · simp [hw]
  | some binding =>
    simp only [Option.map_some, binding?, Table.find?_erase]

theorem native?_without (id w : ObjectId) :
    (r.without id).native? w = if w = id then none else r.native? w := by
  simp only [native?, binding?_without]
  split <;> rfl

theorem contains_without {id : ObjectId} (h : (r.without id).contains w) : r.contains w := by
  rw [contains_iff, native?_without] at h
  split at h
  · simp at h
  · exact contains_iff.2 h

/-- Retiring a wrapper takes no other from its instance. -/
theorem wrapper?_without {id : ObjectId} (h : r.wrapper? o = some w) (hw : w ≠ id) :
    (r.without id).wrapper? o = some w := by
  unfold without retire?
  cases r.binding? id with
  | none => exact h
  | some binding =>
    simp only [Option.map_some, wrapper?]
    split
    next hid =>
      rw [Table.find?_erase, if_neg]
      · exact h
      · intro heq
        rw [wrapper?, heq, hid] at h
        exact hw (Option.some.inj h).symm
    · exact h

/-- While the tables are inverse, the instance loses the wrapper with the binding. -/
theorem Inverse.byNative_without (h : r.Inverse) (id : ObjectId) (i : InstanceId) :
    (r.without id).byNative.find? i =
      if r.byNative.find? i = some id then none else r.byNative.find? i := by
  unfold without retire?
  have hi := h i id
  cases hb : r.binding? id with
  | none => simp [native?, hb] at hi; simp [hi]
  | some binding =>
    have hid : r.byNative.find? binding.native.identity = some id :=
      (h _ _).2 ⟨binding.native, by simp [native?, hb], rfl⟩
    simp only [Option.map_some, hid, if_true, Table.find?_erase]
    simp only [native?, hb, Option.map_some, Option.some.injEq, exists_eq_left'] at hi
    by_cases hin : i = binding.native.identity
    · simp [hin, hid]
    · simp [hin, hi, Ne.symm hin]

theorem Inverse.without (h : r.Inverse) (id : ObjectId) : (r.without id).Inverse := by
  intro i w
  rw [h.byNative_without, native?_without]
  have hi := h i w
  by_cases hw : w = id <;> grind

/-! ## Switching modes -/

theorem native?_setMode (w : ObjectId) (mode : RetentionMode) (w' : ObjectId) :
    (r.setMode w mode).2.native? w' = r.native? w' := by
  simp only [setMode, native?, binding?, Table.find?_adjust]
  split
  · cases r.bindings.find? w' <;> rfl
  · rfl

theorem mode?_setMode (w : ObjectId) (mode : RetentionMode) (w' : ObjectId) :
    (r.setMode w mode).2.mode? w' =
      if w' = w then (r.mode? w').map fun _ => mode else r.mode? w' := by
  simp only [setMode, mode?, binding?, Table.find?_adjust]
  split
  · cases r.bindings.find? w' <;> rfl
  · rfl

theorem Inverse.setMode (h : r.Inverse) (w : ObjectId) (mode : RetentionMode) :
    (r.setMode w mode).2.Inverse := by
  intro i w'
  rw [native?_setMode]
  exact h i w'

/-! ## One half -/

/-- A bound wrapper is the wrapper of its instance. This half of `Inverse` is kept even by binding a
wrapper that was bound to another instance. -/
def Faithful (r : Registry) : Prop := ∀ w o, r.native? w = some o → r.wrapper? o = some w

theorem faithful_empty : Faithful {} := by
  intro w o h
  cases h

theorem Faithful.bind (h : r.Faithful) (o : InstanceHandle) (w : ObjectId) :
    (r.bind o w).2.Faithful := by
  intro w' o' hn
  cases hw : r.wrapper? o with
  | some bound =>
    rw [bind_of_some hw] at hn ⊢
    exact h w' o' hn
  | none =>
    rw [native?_bind hw] at hn
    split at hn
    next hww =>
      obtain rfl := Option.some.inj hn
      rw [bind_of_none hw, wrapper?, Table.find?_insert, if_pos rfl, hww]
    · exact wrapper?_bind (h w' o' hn) o w

theorem Faithful.without (h : r.Faithful) (id : ObjectId) : (r.without id).Faithful := by
  intro w o hn
  rw [native?_without] at hn
  split at hn
  · cases hn
  next hw => exact wrapper?_without (h w o hn) hw

theorem Faithful.setMode (h : r.Faithful) (w : ObjectId) (mode : RetentionMode) :
    (r.setMode w mode).2.Faithful := by
  intro w' o hn
  rw [native?_setMode] at hn
  exact h w' o hn

end ScriptBridge.Registry
