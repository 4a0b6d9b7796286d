import Mathlib.Data.Finset.Card
import Mathlib.Logic.Relation
import ScriptBridge.Class.Hierarchy
import ScriptBridge.Proofs.TableEntries

/-! # Derivation

A class derives from its base, and from what that derives from. Bases may be replaced until they
close a cycle, and the walk along them is cut off after as many steps as there are classes. Nothing
is lost by that: `Hierarchy.Sound.isA_iff`.

* `Hierarchy.Sound` is what registration keeps: classes go by their names, bases are registered.
* `Hierarchy.above?` walks so many bases up. A class that is above another one at all is less than
  as many bases up as there are classes, since a longer way comes to one class twice:
  `Hierarchy.Sound.exists_above?_lt_size`.
-/

namespace ScriptBridge.Hierarchy
set_option autoImplicit false

variable {t : Hierarchy} {name base ancestor : String} {c : NativeClass} {j k : Nat}

/-! ## Sound hierarchies -/

/-- The base of a registered class. -/
def base? (t : Hierarchy) (name : String) : Option String := (t.find? name).bind (·.base?)

structure Sound (t : Hierarchy) : Prop where
  named : ∀ name c, t.find? name = some c → c.name = name
  based : ∀ name base, t.base? name = some base → ∃ c, t.find? base = some c

theorem sound_empty : Sound {} where
  named _ _ h := nomatch h
  based _ _ h := nomatch h

theorem find?_insert (c : NativeClass) (name : String) :
    find? ⟨t.classes.insert c.name c⟩ name = if name = c.name then some c else t.find? name :=
  t.classes.find?_insert c.name c name

/-- A class whose base is registered replaces another one, or is registered beside the others. -/
theorem Sound.insert (h : t.Sound) (hbase : ∀ base, c.base? = some base → t.classes.contains base) :
    Sound ⟨t.classes.insert c.name c⟩ := by
  have hregistered : ∀ base c', t.find? base = some c' →
      ∃ c'', find? ⟨t.classes.insert c.name c⟩ base = some c'' := by
    intro base c' hc'
    rw [find?_insert]
    split
    · exact ⟨c, rfl⟩
    · exact ⟨c', hc'⟩
  constructor
  · intro name c' hc'
    rw [find?_insert] at hc'
    split at hc'
    next hname =>
      obtain rfl := Option.some.inj hc'
      exact hname.symm
    · exact h.named name c' hc'
  · intro name base hbase'
    rw [base?, find?_insert] at hbase'
    split at hbase'
    · obtain ⟨c', hc'⟩ := Option.isSome_iff_exists.1 (hbase base hbase')
      exact hregistered base c' hc'
    · obtain ⟨c', hc'⟩ := h.based name base hbase'
      exact hregistered base c' hc'

theorem define_eq_ok_iff {t' : Hierarchy} : t.define c = .ok t' ↔
    (∀ base, c.base? = some base → t.classes.contains base) ∧
      ⟨t.classes.insert c.name c⟩ = t' := by
  unfold Hierarchy.define
  cases c.base? with
  | none => simp
  | some base => by_cases h : t.classes.contains base <;> simp [h]

/-- **Registration keeps a hierarchy sound.** -/
theorem Sound.define {t' : Hierarchy} (h : t.Sound) (hdefine : t.define c = .ok t') : t'.Sound := by
  obtain ⟨hbase, rfl⟩ := define_eq_ok_iff.1 hdefine
  exact h.insert hbase

/-! ## Ways up -/

/-- Derivation, by any number of bases. -/
def Derives (t : Hierarchy) : String → String → Prop :=
  Relation.ReflTransGen fun name base => t.base? name = some base

/-- The class that is so many bases up. -/
def above? (t : Hierarchy) : Nat → String → Option String
  | 0, name => some name
  | k + 1, name => (t.base? name).bind (t.above? k)

theorem above?_add (j k : Nat) (name : String) :
    t.above? (j + k) name = (t.above? j name).bind (t.above? k) := by
  induction j generalizing name with
  | zero =>
    rw [Nat.zero_add]
    rfl
  | succ j ih =>
    rw [Nat.add_right_comm, above?, above?, Option.bind_assoc]
    exact congrArg _ (funext ih)

theorem above?_succ (k : Nat) (name : String) :
    t.above? (k + 1) name = (t.above? k name).bind t.base? := by
  rw [above?_add]
  exact congrArg _ (funext fun name' => Option.bind_fun_some (t.base? name'))

theorem derives_iff : t.Derives name ancestor ↔ ∃ k, t.above? k name = some ancestor := by
  constructor
  · intro h
    induction h with
    | refl => exact ⟨0, rfl⟩
    | tail _ hbase ih =>
      obtain ⟨k, hk⟩ := ih
      exact ⟨k + 1, by rw [above?_succ, hk, Option.bind_some, hbase]⟩
  · rintro ⟨k, hk⟩
    induction k generalizing ancestor with
    | zero =>
      obtain rfl := Option.some.inj hk
      exact .refl
    | succ k ih =>
      rw [above?_succ] at hk
      obtain ⟨name', hname', hbase⟩ := Option.bind_eq_some_iff.1 hk
      exact (ih hname').tail hbase

/-- Whatever lies on the way to a class that is above another one is there. -/
theorem exists_above?_of_le (h : t.above? k name = some ancestor) (hle : j ≤ k) :
    ∃ name', t.above? j name = some name' := by
  rw [← Nat.add_sub_cancel' hle, above?_add] at h
  obtain ⟨name', hname', -⟩ := Option.bind_eq_some_iff.1 h
  exact ⟨name', hname'⟩

/-- A class with another one above it is registered, and so are those above it. -/
theorem Sound.exists_find? (h : t.Sound) (hk : t.above? k name = some ancestor)
    (hne : ancestor ≠ name) (hle : j ≤ k) {name' : String} (hname' : t.above? j name = some name') :
    ∃ c, t.find? name' = some c := by
  cases j with
  | zero =>
    obtain rfl := Option.some.inj hname'
    cases k with
    | zero => exact absurd (Option.some.inj hk).symm hne
    | succ k =>
      obtain ⟨base, hbase, -⟩ := Option.bind_eq_some_iff.1 hk
      obtain ⟨c, hc, -⟩ := Option.bind_eq_some_iff.1 hbase
      exact ⟨c, hc⟩
  | succ j =>
    rw [above?_succ] at hname'
    obtain ⟨below, -, hbase⟩ := Option.bind_eq_some_iff.1 hname'
    exact h.based below name' hbase

/-- A way of as many bases as there are classes comes to one class twice. Without what lies between
it is shorter. -/
theorem Sound.exists_shorter (h : t.Sound) (hk : t.above? k name = some ancestor)
    (hne : ancestor ≠ name) (hsize : t.size ≤ k) :
    ∃ k' < k, t.above? k' name = some ancestor := by
  let visited (j : Nat) : String := (t.above? j name).getD name
  have hvisited : ∀ j ≤ k, t.above? j name = some (visited j) := by
    intro j hj
    obtain ⟨name', hname'⟩ := exists_above?_of_le hk hj
    rw [hname', show visited j = name' by simp only [visited, hname', Option.getD_some]]
  have hkeys : ∀ j ∈ Finset.range (k + 1), visited j ∈ t.classes.keys.toFinset := by
    intro j hj
    have hj : j ≤ k := Nat.le_of_lt_succ (Finset.mem_range.1 hj)
    obtain ⟨c, hc⟩ := h.exists_find? hk hne hj (hvisited j hj)
    exact List.mem_toFinset.2 (Table.mem_keys_of_find? hc)
  have hcard : t.classes.keys.toFinset.card < (Finset.range (k + 1)).card := by
    have hle := t.classes.keys.toFinset_card_le
    rw [Table.keys, List.length_map] at hle
    rw [Finset.card_range]
    exact Nat.lt_succ_of_le (Nat.le_trans hle hsize)
  obtain ⟨i, hi, j, hj, hij, hsame⟩ := Finset.exists_ne_map_eq_of_card_lt_of_maps_to hcard hkeys
  -- Of the two visits, the first one stands for the second.
  have hcut : ∀ i j, i < j → j ≤ k → visited i = visited j →
      ∃ k' < k, t.above? k' name = some ancestor := by
    intro i j hlt hj hsame
    refine ⟨i + (k - j), by omega, ?_⟩
    rw [above?_add, hvisited i (by omega), hsame, ← hvisited j hj, ← above?_add,
      Nat.add_sub_cancel' hj, hk]
  have hi := Nat.le_of_lt_succ (Finset.mem_range.1 hi)
  have hj := Nat.le_of_lt_succ (Finset.mem_range.1 hj)
  rcases Nat.lt_or_gt_of_ne hij with hlt | hlt
  · exact hcut i j hlt hj hsame
  · exact hcut j i hlt hi hsame.symm

/-- **What is above a class is less than as many bases up as there are classes.** -/
theorem Sound.exists_above?_lt_size (h : t.Sound) (hne : ancestor ≠ name)
    (hk : t.above? k name = some ancestor) : ∃ k < t.size, t.above? k name = some ancestor := by
  induction k using Nat.strongRecOn with
  | ind k ih =>
    rcases Nat.lt_or_ge k t.size with hlt | hge
    · exact ⟨k, hlt, hk⟩
    · obtain ⟨k', hlt, hk'⟩ := h.exists_shorter hk hne hge
      exact ih k' hlt hk'

/-! ## The walk -/

theorem chain_none (t : Hierarchy) (steps : Nat) : t.chain steps none = [] := by
  cases steps <;> rfl

/-- The walk meets the classes that are fewer bases up than it has steps. -/
theorem mem_chain_iff {steps : Nat} : c ∈ t.chain steps (some name) ↔
    ∃ k < steps, ∃ name', t.above? k name = some name' ∧ t.find? name' = some c := by
  induction steps generalizing name with
  | zero => simp [chain]
  | succ steps ih =>
    rw [Nat.exists_lt_succ_left, chain]
    simp only [above?, Option.some.injEq, exists_eq_left', base?]
    cases t.find? name with
    | none => simp
    | some c' =>
      rw [List.mem_cons, Option.some.injEq, eq_comm]
      refine or_congr_right ?_
      cases hbase : c'.base? with
      | none => simp [chain_none, hbase]
      | some base => simpa [hbase] using ih

/-- What a look-up finds, a registered class has. -/
theorem exists_of_findSome?_ancestry {α : Type} {f : NativeClass → Option α} {a : α}
    (h : (t.ancestry name).findSome? f = some a) :
    ∃ name' c, t.find? name' = some c ∧ f c = some a := by
  obtain ⟨c, hc, ha⟩ := List.exists_of_findSome?_eq_some h
  obtain ⟨_, -, name', -, hname'⟩ := mem_chain_iff.1 hc
  exact ⟨name', c, hname', ha⟩

/-- **A class is another one exactly if it derives from it by the links of the bases**, however many
they are, and also where they close a cycle. -/
theorem Sound.isA_iff (h : t.Sound) : t.isA name ancestor ↔ t.Derives name ancestor := by
  by_cases hne : ancestor = name
  · subst hne
    exact iff_of_true (by simp [isA]) .refl
  · have hname : (name == ancestor) = false := beq_false_of_ne (Ne.symm hne)
    simp only [isA, hname, Bool.false_or, List.any_eq_true, beq_iff_eq, ancestry]
    constructor
    · rintro ⟨c, hc, rfl⟩
      obtain ⟨k, -, name', hk, hfind⟩ := mem_chain_iff.1 hc
      rw [h.named name' c hfind]
      exact derives_iff.2 ⟨k, hk⟩
    · intro hderives
      obtain ⟨k, hk⟩ := derives_iff.1 hderives
      obtain ⟨k, hlt, hk⟩ := h.exists_above?_lt_size hne hk
      obtain ⟨c, hc⟩ := h.exists_find? hk hne (Nat.le_refl k) hk
      exact ⟨c, mem_chain_iff.2 ⟨k, hlt, ancestor, hk, hc⟩, h.named ancestor c hc⟩

end ScriptBridge.Hierarchy
