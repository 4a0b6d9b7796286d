import Mathlib.Data.List.Perm.Basic
import ScriptBridge.Proofs.Sequences

/-! # Lists whose items match

`Matched R as bs` pairs every item of one list with an item of its own in the other, which is what
greedy matching of equal items finds.
-/

namespace ScriptBridge
set_option autoImplicit false

variable {α β γ : Type} {R : α → β → Prop} {S : β → γ → Prop} {T : α → γ → Prop} {as : List α}
  {bs : List β} {cs : List γ}

theorem forall₂_trans (h : List.Forall₂ R as bs) (h' : List.Forall₂ S bs cs)
    (himp : ∀ a ∈ as, ∀ b, ∀ c ∈ cs, R a b → S b c → T a c) : List.Forall₂ T as cs := by
  induction h generalizing cs with
  | nil =>
    cases h'
    exact .nil
  | cons hab _ ih =>
    cases h' with
    | cons hbc hrest =>
      refine .cons (himp _ List.mem_cons_self _ _ List.mem_cons_self hab hbc) (ih hrest ?_)
      exact fun a ha b c hc => himp a (List.mem_cons_of_mem _ ha) b c (List.mem_cons_of_mem _ hc)

theorem forall₂_imp_of_mem₂ {R' : α → β → Prop} (h : List.Forall₂ R as bs)
    (himp : ∀ a ∈ as, ∀ b ∈ bs, R a b → R' a b) : List.Forall₂ R' as bs := by
  refine forall₂_trans h (List.forall₂_same.2 fun b _ => rfl) fun a ha b b' hb' hab heq => ?_
  subst heq
  exact himp a ha b hb' hab

theorem forall₂_and {R' : α → β → Prop} (h : List.Forall₂ R as bs) (h' : List.Forall₂ R' as bs) :
    List.Forall₂ (fun a b => R a b ∧ R' a b) as bs := by
  induction h with
  | nil => exact .nil
  | cons hab _ ih =>
    cases h' with
    | cons hab' hrest => exact .cons ⟨hab, hab'⟩ (ih hrest)

/-- What holds of any two items of a list holds of what they are related to. -/
theorem pairwise_of_forall₂ {P : α → α → Prop} {Q : β → β → Prop} (h : List.Forall₂ R as bs)
    (himp : ∀ a ∈ as, ∀ a' ∈ as, ∀ b b', R a b → R a' b' → P a a' → Q b b')
    (has : as.Pairwise P) : bs.Pairwise Q := by
  induction h with
  | nil => exact .nil
  | cons hab hrest ih =>
    obtain ⟨hfirst, has⟩ := List.pairwise_cons.1 has
    refine List.pairwise_cons.2 ⟨fun b' hb' => ?_, ih (fun a ha a' ha' => ?_) has⟩
    · obtain ⟨a', ha', hab'⟩ := exists_of_mem_right hrest hb'
      exact himp _ List.mem_cons_self a' (List.mem_cons_of_mem _ ha') _ _ hab hab' (hfirst a' ha')
    · exact himp a (List.mem_cons_of_mem _ ha) a' (List.mem_cons_of_mem _ ha')

theorem exists_sublist_forall₂ {as' : List α} (h : List.Forall₂ R as bs)
    (hsub : as'.Sublist as) : ∃ bs', List.Forall₂ R as' bs' ∧ bs'.Sublist bs := by
  induction hsub generalizing bs with
  | slnil => exact ⟨[], .nil, List.nil_sublist bs⟩
  | cons a _ ih =>
    cases h with
    | cons _ hrest =>
      obtain ⟨bs', hbs, hsub⟩ := ih hrest
      exact ⟨bs', hbs, hsub.cons _⟩
  | cons_cons a _ ih =>
    cases h with
    | cons hab hrest =>
      obtain ⟨bs', hbs, hsub⟩ := ih hrest
      exact ⟨_ :: bs', .cons hab hbs, hsub.cons_cons _⟩

theorem exists_forall₂_iff :
    (∃ bs, List.Forall₂ R as bs) ↔ ∀ a ∈ as, ∃ b, R a b := by
  constructor
  · rintro ⟨bs, h⟩ a ha
    obtain ⟨b, -, hab⟩ := exists_of_mem_right h.flip ha
    exact ⟨b, hab⟩
  · intro h
    induction as with
    | nil => exact ⟨[], .nil⟩
    | cons a as ih =>
      obtain ⟨⟨b, hb⟩, hrest⟩ := List.forall_mem_cons.1 h
      obtain ⟨bs, hbs⟩ := ih hrest
      exact ⟨b :: bs, .cons hb hbs⟩

/-- In some order, the items of the right list are related to those of the left one. -/
def Matched (R : α → β → Prop) (as : List α) (bs : List β) : Prop :=
  ∃ bs', List.Forall₂ R as bs' ∧ bs'.Perm bs

theorem Matched.of_forall₂ (h : List.Forall₂ R as bs) : Matched R as bs := ⟨bs, h, .refl bs⟩

theorem Matched.imp {R' : α → β → Prop} (h : Matched R as bs)
    (himp : ∀ a ∈ as, ∀ b ∈ bs, R a b → R' a b) : Matched R' as bs := by
  obtain ⟨bs', hr, hperm⟩ := h
  refine ⟨bs', forall₂_imp_of_mem₂ hr fun a ha b hb => ?_, hperm⟩
  exact himp a ha b (hperm.subset hb)

theorem Matched.symm (h : Matched R as bs) : Matched (flip R) bs as := by
  obtain ⟨bs', hr, hperm⟩ := h
  exact List.perm_comp_forall₂ hperm.symm hr.flip

theorem Matched.perm_right {bs' : List β} (h : Matched R as bs) (hperm : bs.Perm bs') :
    Matched R as bs' := by
  obtain ⟨cs, hr, hcs⟩ := h
  exact ⟨cs, hr, hcs.trans hperm⟩

theorem Matched.perm_left {as' : List α} (h : Matched R as bs) (hperm : as.Perm as') :
    Matched R as' bs := (h.symm.perm_right hperm).symm

theorem Matched.trans (h : Matched R as bs) (h' : Matched S bs cs)
    (himp : ∀ a ∈ as, ∀ b, ∀ c ∈ cs, R a b → S b c → T a c) : Matched T as cs := by
  obtain ⟨bs', hr, hbs⟩ := h
  obtain ⟨cs', hs, hcs⟩ := h'
  obtain ⟨cs'', hs', hcs'⟩ := List.perm_comp_forall₂ hbs hs
  have hperm := hcs'.trans hcs
  refine ⟨cs'', forall₂_trans hr hs' fun a ha b c hc => ?_, hperm⟩
  exact himp a ha b c (hperm.subset hc)

theorem Matched.exists_of_mem (h : Matched R as bs) {a : α} (ha : a ∈ as) : ∃ b ∈ bs, R a b := by
  obtain ⟨bs', hr, hperm⟩ := h
  obtain ⟨b, hb, hab⟩ := exists_of_mem_right hr.flip ha
  exact ⟨b, hperm.subset hb, hab⟩

theorem Matched.length_eq (h : Matched R as bs) : as.length = bs.length := by
  obtain ⟨bs', hr, hperm⟩ := h
  exact hr.length_eq.trans hperm.length_eq

/-- What matched items have in common they have up to order. -/
theorem Matched.map_perm {δ : Type} {f : α → δ} {g : β → δ} (h : Matched R as bs)
    (heq : ∀ a b, R a b → f a = g b) : (as.map f).Perm (bs.map g) := by
  obtain ⟨bs', hr, hperm⟩ := h
  have hmap : as.map f = bs'.map g := by
    rw [← List.forall₂_eq_eq_eq, List.forall₂_map_left_iff, List.forall₂_map_right_iff]
    exact hr.imp heq
  rw [hmap]
  exact hperm.map g

end ScriptBridge
