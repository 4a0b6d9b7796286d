import ScriptBridge.Proofs.Matchings
import ScriptBridge.Script.Equality

/-! # Greedy matching

With `eachTakes` every item of one list takes the first item of the other that passes a test with
it and that no earlier item took. What is taken is a matching, but it need not be the only one, and
an item may be left over although all could be matched.

* `eachTakes_flip`: the two lists may change places. An item and the first one that it can take are
  taken by each other from either side.
* `eachTakes_of_matched`: a matching is found if there is one, provided that the test is coherent.
-/

namespace ScriptBridge.Script.Value
set_option autoImplicit false

/-! ## The first item that passes -/

theorem removeFirst?_cons {α : Type} (test : α → Bool) (a : α) (as : List α) :
    removeFirst? test (a :: as) =
      if test a then some as else (removeFirst? test as).map (a :: ·) := rfl

theorem perm_of_removeFirst? {α : Type} {test : α → Bool} {as rest : List α}
    (h : removeFirst? test as = some rest) : ∃ a, test a ∧ (a :: rest).Perm as := by
  induction as generalizing rest with
  | nil => cases h
  | cons a as ih =>
    rw [removeFirst?_cons] at h
    split at h
    next hpass =>
      obtain rfl := Option.some.inj h
      exact ⟨a, hpass, .refl _⟩
    · obtain ⟨rest', hrest, rfl⟩ := Option.map_eq_some_iff.1 h
      obtain ⟨b, hpass, hperm⟩ := ih hrest
      exact ⟨b, hpass, (List.Perm.swap a b rest').trans (hperm.cons a)⟩

theorem exists_removeFirst? {α : Type} {test : α → Bool} {as : List α} {a : α} (ha : a ∈ as)
    (hpass : test a) : ∃ rest, removeFirst? test as = some rest := by
  induction as with
  | nil => cases ha
  | cons b as ih =>
    rw [removeFirst?_cons]
    split
    · exact ⟨as, rfl⟩
    next hfail =>
      have hne : a ≠ b := by
        rintro rfl
        exact hfail hpass
      obtain ⟨rest, hrest⟩ := ih ((List.mem_cons.1 ha).resolve_left hne)
      exact ⟨b :: rest, by rw [hrest]; rfl⟩

theorem mem_of_removeFirst? {α : Type} {test : α → Bool} {as rest : List α}
    (h : removeFirst? test as = some rest) : (∃ a ∈ as, test a) ∧ rest ⊆ as := by
  obtain ⟨a, hpass, hperm⟩ := perm_of_removeFirst? h
  exact ⟨⟨a, hperm.subset List.mem_cons_self, hpass⟩,
    fun b hb => hperm.subset (List.mem_cons_of_mem a hb)⟩

theorem removeFirst?_congr {α : Type} {test test' : α → Bool} {as : List α}
    (h : ∀ a ∈ as, test a = test' a) : removeFirst? test as = removeFirst? test' as := by
  induction as with
  | nil => rfl
  | cons a as ih =>
    obtain ⟨ha, has⟩ := List.forall_mem_cons.1 h
    rw [removeFirst?_cons, removeFirst?_cons, ha, ih has]

theorem removeFirst?_map {α β : Type} (test : β → Bool) (f : α → β) (as : List α) :
    removeFirst? test (as.map f) = (removeFirst? (fun a => test (f a)) as).map (List.map f) := by
  induction as with
  | nil => rfl
  | cons a as ih =>
    rw [List.map_cons, removeFirst?_cons, removeFirst?_cons]
    split
    · rfl
    · rw [ih, Option.map_map, Option.map_map]
      rfl

/-! ## Item after item -/

variable {α β : Type} {test : α → β → Bool} {a : α} {as : List α} {bs bs' : List β}

theorem eachTakes_cons : eachTakes test (a :: as) bs =
    (removeFirst? (test a) bs).any (eachTakes test as) := by
  rw [eachTakes]
  cases removeFirst? (test a) bs <;> rfl

theorem eachTakes_cons_of_some (h : removeFirst? (test a) bs = some bs') :
    eachTakes test (a :: as) bs = eachTakes test as bs' := by
  rw [eachTakes_cons, h, Option.any_some]

theorem eachTakes_congr {test' : α → β → Bool}
    (h : ∀ a ∈ as, ∀ b ∈ bs, test a b = test' a b) :
    eachTakes test as bs = eachTakes test' as bs := by
  induction as generalizing bs with
  | nil => rfl
  | cons a as ih =>
    obtain ⟨ha, has⟩ := List.forall_mem_cons.1 h
    rw [eachTakes_cons, eachTakes_cons, removeFirst?_congr ha]
    cases hrest : removeFirst? (test' a) bs with
    | none => rfl
    | some rest =>
      exact ih fun a' ha' b hb => has a' ha' b ((mem_of_removeFirst? hrest).2 hb)

theorem eachTakes_map_left {γ : Type} (test : α → β → Bool) (f : γ → α) (cs : List γ)
    (bs : List β) : eachTakes test (cs.map f) bs = eachTakes (fun c b => test (f c) b) cs bs := by
  induction cs generalizing bs with
  | nil => rfl
  | cons c cs ih =>
    rw [List.map_cons, eachTakes_cons, eachTakes_cons]
    cases removeFirst? (test (f c)) bs with
    | none => rfl
    | some rest => exact ih rest

theorem eachTakes_map_right {γ : Type} (test : α → β → Bool) (f : γ → β) (as : List α)
    (cs : List γ) : eachTakes test as (cs.map f) = eachTakes (fun a c => test a (f c)) as cs := by
  induction as generalizing cs with
  | nil => rfl
  | cons a as ih =>
    rw [eachTakes_cons, eachTakes_cons, removeFirst?_map]
    cases removeFirst? (fun c => test a (f c)) cs with
    | none => rfl
    | some rest => exact ih rest

theorem matched_of_eachTakes (h : eachTakes test as bs) (hlen : as.length = bs.length) :
    Matched (fun a b => test a b = true) as bs := by
  induction as generalizing bs with
  | nil =>
    obtain rfl := List.eq_nil_of_length_eq_zero hlen.symm
    exact .of_forall₂ .nil
  | cons a rest ih =>
    rw [eachTakes_cons, Option.any_eq_true] at h
    obtain ⟨others, hremove, h⟩ := h
    obtain ⟨b, hb, hperm⟩ := perm_of_removeFirst? hremove
    have hlen' : rest.length = others.length := by
      have hboth := hperm.length_eq
      simp only [List.length_cons] at hlen hboth
      omega
    obtain ⟨cs, hcs, hothers⟩ := ih h hlen'
    exact ⟨b :: cs, .cons hb hcs, (hothers.cons b).trans hperm⟩

/-! ## From the other side -/

/-- An item that stands first is taken by the first item that it can take. -/
theorem eachTakes_flip_cons (h : removeFirst? (test a) bs = some bs') :
    eachTakes (flip test) bs (a :: as) = eachTakes (flip test) bs' as := by
  induction bs generalizing as bs' with
  | nil => cases h
  | cons b bs ih =>
    rw [removeFirst?_cons] at h
    split at h
    next hpass =>
      obtain rfl := Option.some.inj h
      have htaken : removeFirst? (flip test b) (a :: as) = some as := if_pos hpass
      exact eachTakes_cons_of_some htaken
    next hfail =>
      obtain ⟨rest, hrest, rfl⟩ := Option.map_eq_some_iff.1 h
      -- The items before that one leave it where it is.
      have hkept : removeFirst? (flip test b) (a :: as) =
          (removeFirst? (flip test b) as).map (a :: ·) := if_neg hfail
      rw [eachTakes_cons, eachTakes_cons, hkept]
      cases removeFirst? (flip test b) as with
      | none => rfl
      | some as' => exact ih hrest

/-- **Greedy matching is the same from either side.** -/
theorem eachTakes_flip (hlen : as.length = bs.length) :
    eachTakes test as bs = eachTakes (flip test) bs as := by
  induction as generalizing bs with
  | nil =>
    obtain rfl := List.eq_nil_of_length_eq_zero hlen.symm
    rfl
  | cons a as ih =>
    cases htaken : removeFirst? (test a) bs with
    | some bs' =>
      obtain ⟨b, -, hperm⟩ := perm_of_removeFirst? htaken
      have hlen' : as.length = bs'.length := by
        have hboth := hperm.length_eq
        simp only [List.length_cons] at hlen hboth
        omega
      rw [eachTakes_cons_of_some htaken, eachTakes_flip_cons htaken, ih hlen']
    | none =>
      have hleft : eachTakes test (a :: as) bs = false := by
        rw [eachTakes_cons, htaken, Option.any_none]
      rw [hleft, eq_comm, Bool.eq_false_iff]
      intro hright
      have hmatched := (matched_of_eachTakes hright hlen.symm).symm
      obtain ⟨b, hb, hpass⟩ := hmatched.exists_of_mem List.mem_cons_self
      obtain ⟨rest, hrest⟩ := exists_removeFirst? hb hpass
      rw [htaken] at hrest
      cases hrest

/-! ## Coherent tests -/

/-- Two items that can take the same one can take the same ones. -/
def Coherent (R : α → β → Prop) (as : List α) (bs : List β) : Prop :=
  ∀ a ∈ as, ∀ a' ∈ as, ∀ b ∈ bs, ∀ b' ∈ bs, R a b → R a' b → R a' b' → R a b'

theorem Coherent.of_subset {R : α → β → Prop} {as' : List α} (h : Coherent R as bs)
    (has : as' ⊆ as) (hbs : bs' ⊆ bs) : Coherent R as' bs' :=
  fun a ha a' ha' b hb b' hb' => h a (has ha) a' (has ha') b (hbs hb) b' (hbs hb')

/-- Whoever has `b` gets `c` in its place. -/
theorem exists_forall₂_exchange {R : α → β → Prop} {b c : β} {cs : List β}
    (h : List.Forall₂ R as cs) (hb : b ∈ cs) (hexchange : ∀ a ∈ as, R a b → R a c) :
    ∃ cs', List.Forall₂ R as cs' ∧ (b :: cs').Perm (c :: cs) := by
  induction h with
  | nil => cases hb
  | @cons a d as cs had hrest ih =>
    obtain ⟨ha, has⟩ := List.forall_mem_cons.1 hexchange
    by_cases hd : d = b
    · subst hd
      exact ⟨c :: cs, .cons (ha had) hrest, .swap c d cs⟩
    · obtain ⟨cs', hcs', hperm⟩ := ih ((List.mem_cons.1 hb).resolve_left (Ne.symm hd)) has
      refine ⟨d :: cs', .cons had hcs', ?_⟩
      exact (List.Perm.swap d b cs').trans ((hperm.cons d).trans (.swap c d cs))

/-- Where an item takes another one than it is matched with, the two partners change places. -/
theorem Coherent.matched_of_cons {R : α → β → Prop} {b : β} (h : Coherent R (a :: as) (b :: bs))
    (hab : R a b) (hmatched : Matched R (a :: as) (b :: bs)) : Matched R as bs := by
  obtain ⟨_, hcs, hperm⟩ := hmatched
  cases hcs with
  | @cons _ c _ cs hac hcs =>
    by_cases hc : c = b
    · subst hc
      exact ⟨cs, hcs, (List.perm_cons c).1 hperm⟩
    · have hb : b ∈ cs :=
        (List.mem_cons.1 (hperm.symm.subset List.mem_cons_self)).resolve_left (Ne.symm hc)
      have hexchange : ∀ a' ∈ as, R a' b → R a' c := fun a' ha' ha'b =>
        h a' (List.mem_cons_of_mem a ha') a List.mem_cons_self b List.mem_cons_self c
          (hperm.subset List.mem_cons_self) ha'b hab hac
      obtain ⟨cs', hcs', hperm'⟩ := exists_forall₂_exchange hcs hb hexchange
      exact ⟨cs', hcs', (List.perm_cons b).1 (hperm'.trans hperm)⟩

/-- **A matching is found if there is one**, when the test is coherent. -/
theorem eachTakes_of_matched (h : Matched (fun a b => test a b = true) as bs)
    (hcoherent : Coherent (fun a b => test a b = true) as bs) : eachTakes test as bs := by
  induction as generalizing bs with
  | nil => rfl
  | cons a as ih =>
    obtain ⟨b₀, hb₀, hpass₀⟩ := h.exists_of_mem List.mem_cons_self
    obtain ⟨others, htaken⟩ := exists_removeFirst? hb₀ hpass₀
    obtain ⟨b, hpass, hperm⟩ := perm_of_removeFirst? htaken
    rw [eachTakes_cons_of_some htaken]
    have hcoherent' := hcoherent.of_subset (List.Subset.refl _) hperm.subset
    refine ih (hcoherent'.matched_of_cons hpass (h.perm_right hperm.symm)) ?_
    exact hcoherent'.of_subset (List.subset_cons_self a as) (List.subset_cons_self b others)

end ScriptBridge.Script.Value
