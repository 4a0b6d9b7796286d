import ScriptBridge.Proofs.Class.Ancestry

/-! # Look-ups along the bases

A look-up answers with what the nearest class has, however the bases were replaced. The chain of
bases may go round a cycle for ever, and the walk along it is cut off; but a class that the walk does
not come to was passed before.

* `Hierarchy.classAbove?` is the chain without an end, `Hierarchy.getElem?_ancestry` the walk as the
  beginning of it.
* `Hierarchy.FindsNearest` is what a look-up is to answer, and
  `Hierarchy.Sound.findsNearest_ancestry` says that every look-up does.
* `Hierarchy.defineAll` is any sequence of registrations.
-/

namespace ScriptBridge.Hierarchy
set_option autoImplicit false

variable {α : Type} {t : Hierarchy} {name ancestor : String} {c : NativeClass} {k : Nat}
  {f : NativeClass → Option α} {a : α}

/-! ## Registrations -/

/-- Classes registered one after another. One whose base is not registered is refused, and leaves
everything as it was. -/
def defineAll (t : Hierarchy) : List NativeClass → Hierarchy
  | [] => t
  | c :: rest => ((t.define c).toOption.getD t).defineAll rest

theorem Sound.defineAll (h : t.Sound) (cs : List NativeClass) : (t.defineAll cs).Sound := by
  induction cs generalizing t with
  | nil => exact h
  | cons c rest ih =>
    rw [Hierarchy.defineAll]
    cases hdefine : t.define c with
    | error err => exact ih h
    | ok t' => exact ih (h.define hdefine)

/-! ## The chain and the walk -/

/-- The registered class that is so many bases up. -/
def classAbove? (t : Hierarchy) (k : Nat) (name : String) : Option NativeClass :=
  (t.above? k name).bind t.find?

/-- The walk follows the chain, as far as it goes. -/
theorem getElem?_chain (t : Hierarchy) (steps k : Nat) (name : String) :
    (t.chain steps (some name))[k]? = if k < steps then t.classAbove? k name else none := by
  induction steps generalizing k name with
  | zero => rfl
  | succ steps ih =>
    rw [chain]
    cases hfind : t.find? name with
    | none =>
      cases k with
      | zero => simp [classAbove?, above?, hfind]
      | succ k => simp [classAbove?, above?, base?, hfind]
    | some c =>
      cases k with
      | zero => simp [classAbove?, above?, hfind]
      | succ k =>
        have hbase : t.base? name = c.base? := by rw [base?, hfind, Option.bind_some]
        simp only [List.getElem?_cons_succ, Nat.add_lt_add_iff_right, classAbove?, above?, hbase]
        cases c.base? with
        | none => simp [chain_none]
        | some base => exact ih k base

theorem getElem?_ancestry (t : Hierarchy) (name : String) (k : Nat) :
    (t.ancestry name)[k]? = if k < t.size then t.classAbove? k name else none :=
  t.getElem?_chain t.size k name

theorem length_ancestry_le (t : Hierarchy) (name : String) : (t.ancestry name).length ≤ t.size := by
  rw [← List.getElem?_eq_none_iff, getElem?_ancestry, if_neg (Nat.lt_irrefl _)]

theorem size_pos (hfind : t.find? name = some c) : 0 < t.size := by
  have hmem := List.length_pos_of_mem (Table.mem_keys_of_find? hfind)
  rwa [Table.keys, List.length_map] at hmem

/-- **The walk is not cut off before a class is met for the first time.** -/
theorem Sound.lt_size_of_first (h : t.Sound) (hc : t.classAbove? k name = some c)
    (hfirst : ∀ j < k, t.classAbove? j name ≠ some c) : k < t.size := by
  obtain ⟨ancestor, hk, hfind⟩ := Option.bind_eq_some_iff.1 hc
  have hnew : ∀ j < k, t.above? j name ≠ some ancestor := by
    intro j hj hancestor
    exact hfirst j hj (Option.bind_eq_some_iff.2 ⟨ancestor, hancestor, hfind⟩)
  by_contra hsize
  by_cases hne : ancestor = name
  · -- A class is at the beginning of its own chain.
    refine hnew 0 ?_ (congrArg some hne.symm)
    exact Nat.lt_of_lt_of_le (size_pos hfind) (Nat.le_of_not_lt hsize)
  · obtain ⟨k', hlt, hk'⟩ := h.exists_shorter hk hne (Nat.le_of_not_lt hsize)
    exact hnew k' hlt hk'

/-- The walk meets a class for the first time where the chain does. -/
theorem Sound.first_ancestry_iff (h : t.Sound) :
    ((t.ancestry name)[k]? = some c ∧ ∀ j < k, (t.ancestry name)[j]? ≠ some c) ↔
      t.classAbove? k name = some c ∧ ∀ j < k, t.classAbove? j name ≠ some c := by
  have hbelow : k < t.size → (((t.ancestry name)[k]? = some c ∧
      ∀ j < k, (t.ancestry name)[j]? ≠ some c) ↔
        t.classAbove? k name = some c ∧ ∀ j < k, t.classAbove? j name ≠ some c) := by
    intro hk
    rw [getElem?_ancestry, if_pos hk]
    refine and_congr_right fun _ => forall₂_congr fun j hj => ?_
    rw [getElem?_ancestry, if_pos (Nat.lt_trans hj hk)]
  constructor
  · intro hfirst
    refine (hbelow ?_).1 hfirst
    by_contra hk
    rw [getElem?_ancestry, if_neg hk] at hfirst
    cases hfirst.1
  · intro hfirst
    exact (hbelow (h.lt_size_of_first hfirst.1 hfirst.2)).2 hfirst

/-! ## Look-ups -/

/-- What the first class on the chain has that has anything of the kind. -/
def Nearest (t : Hierarchy) (name : String) (f : NativeClass → Option α) (a : α) : Prop :=
  ∃ k c, t.classAbove? k name = some c ∧ f c = some a ∧
    ∀ j < k, ∀ c', t.classAbove? j name = some c' → f c' = none

/-- The answer is what the nearest class has, and nothing exactly if no class on the chain has it. -/
def FindsNearest (t : Hierarchy) (name : String) (f : NativeClass → Option α)
    (answer : Option α) : Prop :=
  (∀ a, answer = some a ↔ t.Nearest name f a) ∧
    (answer = none ↔ ∀ k c, t.classAbove? k name = some c → f c = none)

theorem Sound.findSome?_ancestry_of_nearest (h : t.Sound) (hnearest : t.Nearest name f a) :
    (t.ancestry name).findSome? f = some a := by
  obtain ⟨k, c, hc, ha, hbefore⟩ := hnearest
  have hk : k < t.size := by
    refine h.lt_size_of_first hc fun j hj hsame => ?_
    cases ha.symm.trans (hbefore j hj c hsame)
  have hvisit : (t.ancestry name)[k]? = some c := by rw [getElem?_ancestry, if_pos hk, hc]
  obtain ⟨hlength, hget⟩ := List.getElem?_eq_some_iff.1 hvisit
  refine List.findSome?_eq_some_iff.2
    ⟨(t.ancestry name).take k, c, (t.ancestry name).drop (k + 1), ?_, ha, fun c' hc' => ?_⟩
  · rw [← hget, ← List.drop_eq_getElem_cons hlength, List.take_append_drop]
  · obtain ⟨j, hj⟩ := List.mem_iff_getElem?.1 hc'
    rw [List.getElem?_take] at hj
    split at hj
    next hlt =>
      rw [getElem?_ancestry, if_pos (Nat.lt_trans hlt hk)] at hj
      exact hbefore j hlt c' hj
    · cases hj

theorem exists_nearest (hc : t.classAbove? k name = some c) (ha : f c = some a) :
    ∃ a', t.Nearest name f a' := by
  induction k using Nat.strongRecOn generalizing c a with
  | ind k ih =>
    by_cases hearlier : ∃ j < k, ∃ c', t.classAbove? j name = some c' ∧ f c' ≠ none
    · obtain ⟨j, hj, c', hc', hsome⟩ := hearlier
      obtain ⟨a', ha'⟩ := Option.ne_none_iff_exists'.1 hsome
      exact ih j hj hc' ha'
    · push Not at hearlier
      exact ⟨a, k, c, hc, ha, hearlier⟩

theorem Sound.findSome?_ancestry_eq_none_iff (h : t.Sound) :
    (t.ancestry name).findSome? f = none ↔
      ∀ k c, t.classAbove? k name = some c → f c = none := by
  constructor
  · intro hnone k c hc
    by_contra hsome
    obtain ⟨a, ha⟩ := Option.ne_none_iff_exists'.1 hsome
    obtain ⟨a', hnearest⟩ := exists_nearest hc ha
    cases hnone.symm.trans (h.findSome?_ancestry_of_nearest hnearest)
  · intro hall
    refine List.findSome?_eq_none_iff.2 fun c hc => ?_
    obtain ⟨k, hk⟩ := List.mem_iff_getElem?.1 hc
    rw [getElem?_ancestry] at hk
    split at hk
    · exact hall k c hk
    · cases hk

/-- **Every look-up finds what the nearest class has.** -/
theorem Sound.findsNearest_ancestry (h : t.Sound) (name : String) (f : NativeClass → Option α) :
    t.FindsNearest name f ((t.ancestry name).findSome? f) := by
  refine ⟨fun a => ⟨fun hsome => ?_, h.findSome?_ancestry_of_nearest⟩,
    h.findSome?_ancestry_eq_none_iff⟩
  obtain ⟨k, c, hc, hne⟩ : ∃ k c, t.classAbove? k name = some c ∧ f c ≠ none := by
    by_contra hnot
    push Not at hnot
    cases hsome.symm.trans (h.findSome?_ancestry_eq_none_iff.2 hnot)
  obtain ⟨a', ha'⟩ := Option.ne_none_iff_exists'.1 hne
  obtain ⟨a', hnearest⟩ := exists_nearest hc ha'
  have hsame := hsome.symm.trans (h.findSome?_ancestry_of_nearest hnearest)
  rwa [Option.some.inj hsame]

/-- **The walk along the bases loses nothing**, whatever classes were registered and replaced. Bases
are registered. The walk is the beginning of the chain, not longer than there are classes, and meets
every class where the chain meets it first. Derivation is what the links of the bases lead to, from
any class to itself and from there on. A method, an accessor or a finalizer is that of the nearest
class with one, and is not found exactly if no class on the chain has one. -/
theorem lookups_nearest (cs : List NativeClass) :
    let t := ({} : Hierarchy).defineAll cs
    (∀ name c base, t.find? name = some c → c.base? = some base → ∃ c', t.find? base = some c') ∧
    (∀ name, (t.ancestry name).length ≤ t.size ∧
      (∀ k, (t.ancestry name)[k]? = if k < t.size then t.classAbove? k name else none) ∧
      ∀ k c, ((t.ancestry name)[k]? = some c ∧ ∀ j < k, (t.ancestry name)[j]? ≠ some c) ↔
        t.classAbove? k name = some c ∧ ∀ j < k, t.classAbove? j name ≠ some c) ∧
    ((∀ name ancestor, t.isA name ancestor = true ↔ t.Derives name ancestor) ∧
      (∀ name, t.isA name name = true) ∧
      ∀ a b c, t.isA a b = true → t.isA b c = true → t.isA a c = true) ∧
    ∀ className,
      (∀ name, t.FindsNearest className (·.methods.find? name) (t.method? className name)) ∧
      (∀ name, t.FindsNearest className (·.accessors.find? name) (t.accessor? className name)) ∧
      t.FindsNearest className (·.finalizer?) (t.finalizer? className) := by
  intro t
  have h : t.Sound := sound_empty.defineAll cs
  refine ⟨fun name c base hc hbase => ?_, fun name => ⟨t.length_ancestry_le name,
    t.getElem?_ancestry name, fun k c => h.first_ancestry_iff⟩,
    ⟨fun name ancestor => h.isA_iff, fun name => h.isA_iff.2 .refl, fun a b c hab hbc => ?_⟩,
    fun className => ⟨fun name => h.findsNearest_ancestry className _,
      fun name => h.findsNearest_ancestry className _, h.findsNearest_ancestry className _⟩⟩
  · exact h.based name base (by rw [base?, hc, Option.bind_some, hbase])
  · exact h.isA_iff.2 ((h.isA_iff.1 hab).trans (h.isA_iff.1 hbc))

/-- A class is replaced by one that derives from a class derived from it. -/
example : (({} : Hierarchy).defineAll [{ name := "Box" }, { name := "Crate", base? := some "Box" },
    { name := "Box", base? := some "Crate" }]).isA "Box" "Crate" = true := rfl

end ScriptBridge.Hierarchy
