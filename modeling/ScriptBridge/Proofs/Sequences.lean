import Mathlib.Data.List.Forall2
import Mathlib.Data.List.Induction
import Mathlib.Data.List.Nodup

/-! # Computations one after another

Two computations in a row succeed if both do. A computation carried out on every item of a list
succeeds with the outcomes for the single items, in order. What follows on lists is about items in the
same places and about first occurrences.
-/

namespace ScriptBridge
set_option autoImplicit false

variable {ε α β : Type}

theorem mapM_eq_some_iff {f : α → Option β} {as : List α} {bs : List β} :
    as.mapM f = some bs ↔ List.Forall₂ (fun a b => f a = some b) as bs := by
  induction as generalizing bs with
  | nil => cases bs <;> simp
  | cons a rest ih =>
    cases bs <;> cases hf : f a <;> cases hrest : rest.mapM f <;> simp [← ih, hf, hrest]

theorem bind_eq_ok_iff {x : Except ε α} {f : α → Except ε β} {b : β} :
    x >>= f = .ok b ↔ ∃ a, x = .ok a ∧ f a = .ok b := by
  cases x <;> simp [bind, Except.bind]

theorem map_eq_ok_iff {x : Except ε α} {f : α → β} {b : β} :
    f <$> x = .ok b ↔ ∃ a, x = .ok a ∧ f a = b := by
  cases x <;> simp [Functor.map, Except.map]

theorem pure_eq_ok_iff {a b : α} : (pure a : Except ε α) = .ok b ↔ a = b := by
  simp [pure, Except.pure]

theorem throw_ne_ok {err : ε} {a : α} : (throw err : Except ε α) ≠ .ok a := nofun

theorem mapM_eq_ok_iff {f : α → Except ε β} {as : List α} {bs : List β} :
    as.mapM f = .ok bs ↔ List.Forall₂ (fun a b => f a = .ok b) as bs := by
  induction as generalizing bs with
  | nil => cases bs <;> simp [pure, Except.pure]
  | cons a rest ih =>
    cases bs <;> cases hf : f a <;> cases hrest : rest.mapM f <;>
      simp [List.mapM_cons, bind, Except.bind, pure, Except.pure, ← ih, hf, hrest]

theorem exists_mapM_eq_ok {f : α → Except ε β} {as : List α} (h : ∀ a ∈ as, ∃ b, f a = .ok b) :
    ∃ bs, as.mapM f = .ok bs := by
  induction as with
  | nil => exact ⟨[], rfl⟩
  | cons a rest ih =>
    obtain ⟨b, hb⟩ := h a List.mem_cons_self
    obtain ⟨bs, hbs⟩ := ih fun a' ha' => h a' (List.mem_cons_of_mem a ha')
    exact ⟨b :: bs, mapM_eq_ok_iff.2 (.cons hb (mapM_eq_ok_iff.1 hbs))⟩

/-- What undoes a map on every item undoes it on the list. -/
theorem mapM_map_eq_ok {f : β → Except ε α} {g : α → β} {as : List α}
    (h : ∀ a ∈ as, f (g a) = .ok a) : (as.map g).mapM f = .ok as :=
  mapM_eq_ok_iff.2 (List.forall₂_map_left_iff.2 (List.forall₂_same.2 h))

/-- Items that are related through something are related to a list of such things. -/
theorem exists_forall₂_of_exists {γ : Type} {P : β → γ → Prop} {Q : γ → α → Prop} {as : List α}
    {bs : List β} (h : List.Forall₂ (fun a b => ∃ c, P b c ∧ Q c a) as bs) :
    ∃ cs, List.Forall₂ P bs cs ∧ List.Forall₂ Q cs as := by
  induction h with
  | nil => exact ⟨[], .nil, .nil⟩
  | cons hab _ ih =>
    obtain ⟨c, hp, hq⟩ := hab
    obtain ⟨cs, hps, hqs⟩ := ih
    exact ⟨c :: cs, .cons hp hps, .cons hq hqs⟩

theorem forall₂_imp_of_mem {R S : α → β → Prop} {as : List α} {bs : List β}
    (h : List.Forall₂ R as bs) (himp : ∀ a ∈ as, ∀ b, R a b → S a b) : List.Forall₂ S as bs := by
  induction h with
  | nil => exact .nil
  | cons hab _ ih =>
    have hrest := ih fun a ha => himp a (List.mem_cons_of_mem _ ha)
    exact .cons (himp _ List.mem_cons_self _ hab) hrest

theorem forall₂_map_of_mem {γ : Type} {R : β → γ → Prop} {f : α → β} {g : α → γ} {as : List α}
    (h : ∀ a ∈ as, R (f a) (g a)) : List.Forall₂ R (as.map f) (as.map g) := by
  rw [List.forall₂_map_left_iff, List.forall₂_map_right_iff]
  exact List.forall₂_same.2 h

theorem exists_of_mem_right {R : α → β → Prop} {as : List α} {bs : List β}
    (h : List.Forall₂ R as bs) {b : β} (hb : b ∈ bs) : ∃ a ∈ as, R a b := by
  induction h with
  | nil => cases hb
  | cons hab _ ih =>
    rcases List.mem_cons.1 hb with rfl | hb
    · exact ⟨_, List.mem_cons_self, hab⟩
    · obtain ⟨a, ha, hr⟩ := ih hb
      exact ⟨a, List.mem_cons_of_mem _ ha, hr⟩

theorem not_mem_map_concat {f : α → β} {l : List α} {a : α} {b : β} :
    b ∉ (l ++ [a]).map f ↔ b ∉ l.map f ∧ b ≠ f a := by
  rw [List.map_append, List.mem_append, not_or, List.map_singleton, List.mem_singleton]

/-! ## First occurrences -/

section
variable [BEq α] [LawfulBEq α]

theorem eraseDups_concat (l : List α) (a : α) :
    (l ++ [a]).eraseDups = if a ∈ l then l.eraseDups else l.eraseDups ++ [a] := by
  rw [List.eraseDups_append]
  split
  next hmem => simp [List.removeAll, hmem]
  next hnew => simp [List.removeAll, hnew, List.eraseDups_cons]

theorem nodup_eraseDups (l : List α) : l.eraseDups.Nodup := by
  induction l using List.reverseRecOn with
  | nil => exact List.nodup_nil
  | append_singleton l a ih =>
    rw [eraseDups_concat]
    split
    · exact ih
    next hnew =>
      rw [← List.concat_eq_append]
      exact ih.concat fun hmem => hnew (List.mem_eraseDups.1 hmem)

theorem eraseDups_sublist (l : List α) : l.eraseDups.Sublist l := by
  induction l using List.reverseRecOn with
  | nil => exact .slnil
  | append_singleton l a ih =>
    rw [eraseDups_concat]
    split
    · exact ih.trans (List.sublist_append_left l [a])
    · exact ih.append (.refl [a])

theorem eraseDups_of_length {l : List α} (h : l.eraseDups.length = l.length) : l.eraseDups = l :=
  (eraseDups_sublist l).eq_of_length h

theorem eraseDups_of_nodup {l : List α} (h : l.Nodup) : l.eraseDups = l := by
  induction l using List.reverseRecOn with
  | nil => rfl
  | append_singleton l a ih =>
    rw [← List.concat_eq_append, List.nodup_concat] at h
    rw [eraseDups_concat, if_neg h.1, ih h.2]

end

end ScriptBridge
