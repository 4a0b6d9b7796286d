import ScriptBridge.Proofs.Host.Marking
import ScriptBridge.Proofs.Host.Recycling

/-! # What a sweep frees and what it leaves

A sweep goes through the slots in order and frees every object that is not marked, once. The counts
that a collection keeps follow from that.

* `Heap.pairwise_sweep` is the order, which holds also where numbers of slots have more than 32 bits
  and names are ambiguous.
* `Heap.Exact.length_sweep` and `Heap.Exact.length_mark` are the counts of objects.
-/

namespace ScriptBridge.Heap
set_option autoImplicit false

variable {h h' : Heap}

/-! ## What is handed out -/

/-- What is handed out is what the names found. -/
theorem get?_of_mem_freeAll {l : List ObjectId} {id : ObjectId} {e : LiveObject}
    (hmem : (id, e) ∈ (h.freeAll l).1) : h.get? id = some e := by
  induction l generalizing h with
  | nil => cases hmem
  | cons a rest ih =>
    cases hf : h.free? a with
    | none =>
      rw [freeAll_cons_of_none hf] at hmem
      exact ih hmem
    | some r =>
      obtain ⟨e', h'⟩ := r
      rw [freeAll_cons_of_some hf] at hmem
      rcases List.mem_cons.1 hmem with heq | hrest
      · obtain ⟨rfl, rfl⟩ := Prod.mk.inj heq
        exact (free?_eq_some hf).1
      · have hid := ih hrest
        rw [get?_free hf] at hid
        split at hid
        · cases hid
        · exact hid

theorem contains_free {id a : ObjectId} {e : LiveObject} (hf : h.free? a = some (e, h')) :
    h'.contains id = (h.contains id && id != a) := by
  rw [contains, contains, get?_free hf]
  by_cases hid : id = a <;> simp [hid]

/-- Every live object of the list is freed where it is named first. -/
theorem map_fst_freeAll (h : Heap) (l : List ObjectId) :
    (h.freeAll l).1.map Prod.fst = (l.filter h.contains).eraseDups := by
  induction l generalizing h with
  | nil => rfl
  | cons a rest ih =>
    cases hf : h.free? a with
    | none =>
      have hdead : h.contains a = false := by simp [contains, free?_eq_none_iff.1 hf]
      rw [freeAll_cons_of_none hf, ih, List.filter_cons_of_neg (by simp [hdead])]
    | some r =>
      obtain ⟨e, h'⟩ := r
      have hlive : h.contains a := contains_of_get? (free?_eq_some hf).1
      have hrest : rest.filter h'.contains = (rest.filter h.contains).filter fun id => !id == a := by
        rw [List.filter_filter]
        refine List.filter_congr fun id _ => ?_
        rw [contains_free hf, Bool.and_comm]
        rfl
      rw [freeAll_cons_of_some hf, List.map_cons, ih, List.filter_cons_of_pos hlive,
        List.eraseDups_cons, hrest]

/-! ## The order of the slots -/

/-- The name of a live object stands at the number of its slot. -/
theorem idAt_of_contains {id : ObjectId} (hc : h.contains id) :
    h.idAt id.index.toNat = some id := by
  obtain ⟨e, he⟩ := contains_iff.1 hc
  obtain ⟨slot, hs, hg, hentry⟩ := get?_eq_some_iff.1 he
  simp [idAt, hs, hentry, hg]

/-- Of the live objects, those that are named first come in the order of their slots. -/
theorem pairwise_eraseDups_ids (h : Heap) (p : ObjectId → Bool) (hp : ∀ id, p id → h.contains id)
    (n : Nat) : (((List.range n).filterMap h.idAt).filter p).eraseDups.Pairwise
      fun a b => a.index < b.index := by
  induction n with
  | zero => exact .nil
  | succ n ih =>
    rw [List.range_succ, List.filterMap_append, List.filter_append]
    cases hid : h.idAt n with
    | none => simpa [hid] using ih
    | some a =>
      by_cases ha : p a
      · rw [List.filterMap_cons_some hid, List.filterMap_nil, List.filter_cons_of_pos ha,
          List.filter_nil, eraseDups_concat]
        split
        · exact ih
        next hnew =>
          have hindex := (idAt_eq_some hid).2.1
          -- A number that is cut to 32 bits is that of a slot where the name was met before.
          have hnumber : a.index.toNat = n := by
            have hle : a.index.toNat ≤ n := by
              rw [hindex, UInt32.toNat_ofNat']
              exact Nat.mod_le _ _
            refine Nat.le_antisymm hle (Nat.le_of_not_lt fun hlt => hnew ?_)
            exact List.mem_filter.2 ⟨List.mem_filterMap.2
              ⟨_, List.mem_range.2 hlt, idAt_of_contains (hp a ha)⟩, ha⟩
          refine List.pairwise_append.2 ⟨ih, List.pairwise_singleton _ _, fun b hb c hc => ?_⟩
          obtain rfl := List.mem_singleton.1 hc
          obtain ⟨i, hi, hib⟩ := List.mem_filterMap.1
            (List.mem_filter.1 (List.mem_eraseDups.1 hb)).1
          rw [UInt32.lt_iff_toNat_lt, hnumber, (idAt_eq_some hib).2.1, UInt32.toNat_ofNat']
          exact Nat.lt_of_le_of_lt (Nat.mod_le _ _) (List.mem_range.1 hi)
      · simpa [hid, ha] using ih

/-- **A sweep frees in the order of the slots.** -/
theorem pairwise_sweep (h : Heap) (marked : List ObjectId) :
    ((h.sweep marked).1.map Prod.fst).Pairwise fun a b => a.index < b.index := by
  rw [sweep, map_fst_freeAll, ids, List.filter_filter]
  exact h.pairwise_eraseDups_ids _ (fun id hid => (Bool.and_eq_true_iff.1 hid).1) _

/-! ## Counts -/

theorem live_allocate (h : Heap) (object : HeapObject) :
    (h.allocate object).2.live = h.live + 1 := by
  unfold allocate
  cases h.vacant <;> rfl

theorem live_update {id : ObjectId} {f : LiveObject → LiveObject} (hu : h.update id f = .ok h') :
    h'.live = h.live := by
  obtain ⟨-, rfl⟩ := update_eq_ok hu
  rfl

theorem Exact.live_free {id : ObjectId} {e : LiveObject} (hx : h.Exact)
    (hf : h.free? id = some (e, h')) : h'.live + 1 = h.live := by
  obtain ⟨he, rfl⟩ := free?_eq_some hf
  obtain ⟨slot, hs, -, hentry⟩ := get?_eq_some_iff.1 he
  have hpos : 0 < h.live := by
    rw [hx.live]
    exact Array.countP_pos_iff.2 ⟨slot, Array.mem_iff_getElem?.2 ⟨_, hs⟩, by simp [hentry]⟩
  exact Nat.sub_add_cancel hpos

theorem Exact.freeAll (hx : h.Exact) (l : List ObjectId) :
    (h.freeAll l).2.Exact ∧ (h.freeAll l).1.length + (h.freeAll l).2.live = h.live := by
  induction l generalizing h with
  | nil => exact ⟨hx, Nat.zero_add _⟩
  | cons a rest ih =>
    cases hf : h.free? a with
    | none =>
      rw [freeAll_cons_of_none hf]
      exact ih hx
    | some r =>
      obtain ⟨e, h'⟩ := r
      obtain ⟨hrest, hcount⟩ := ih (hx.free hf)
      rw [freeAll_cons_of_some hf]
      refine ⟨hrest, ?_⟩
      rw [List.length_cons, Nat.add_right_comm, hcount, hx.live_free hf]

/-- **A sweep counts**: what it frees and what it leaves is what there was. -/
theorem Exact.length_sweep (hx : h.Exact) (marked : List ObjectId) :
    (h.sweep marked).1.length + (h.sweep marked).2.live = h.live :=
  (hx.freeAll _).2

theorem nodup_spread (h : Heap) (r : Retention) (rounds : Nat) (marked candidates : List ObjectId)
    (hn : marked.Nodup) : (h.spread r rounds marked candidates).Nodup := by
  induction rounds generalizing marked candidates with
  | zero => exact hn
  | succ rounds ih =>
    rw [spread]
    split
    · exact hn
    · exact ih _ _ (h.nodup_append_unmarked candidates hn)

theorem countP_range {α : Type} (p : α → Bool) (l : List α) :
    ((List.range l.length).countP fun i => l[i]?.any p) = l.countP p := by
  induction l using List.reverseRecOn with
  | nil => rfl
  | append_singleton l a ih =>
    have hbefore : ∀ i ∈ List.range l.length, ((l ++ [a])[i]?.any p) = l[i]?.any p := by
      intro i hi
      rw [List.getElem?_append_left (List.mem_range.1 hi)]
    rw [List.length_append, List.length_singleton, List.range_succ, List.countP_append,
      List.countP_append, List.countP_congr fun i hi => by rw [hbefore i hi], ih]
    simp [List.countP_cons]

/-- A name is listed for every object that is counted. -/
theorem Exact.length_ids (hx : h.Exact) : h.ids.length = h.live := by
  have hslot : ∀ i, (h.idAt i).isSome = h.slots.toList[i]?.any (·.entry.isSome) := by
    intro i
    rw [Array.getElem?_toList, idAt]
    cases h.slots[i]? with
    | none => rfl
    | some slot => cases hentry : slot.entry <;> simp [hentry]
  rw [hx.live, ← Array.countP_toList, ← countP_range, ids, List.length_filterMap_eq_countP]
  simp only [hslot, Array.length_toList]

theorem size_slots_freeAll (h : Heap) (l : List ObjectId) :
    (h.freeAll l).2.slots.size = h.slots.size :=
  freeAll_induction (P := fun h' => h'.slots.size = h.slots.size) (fun hf hsize => by
    obtain ⟨-, rfl⟩ := free?_eq_some hf
    rwa [Array.size_modify]) l h rfl

theorem Addressable.sweep (ha : h.Addressable) (marked : List ObjectId) :
    (h.sweep marked).2.Addressable := by
  rwa [Addressable, Heap.sweep, size_slots_freeAll]

/-- **What is marked is what is left.** -/
theorem Exact.length_mark (hx : h.Exact) (roots : Roots) (r : Retention) (ha : h.Addressable) :
    (h.mark roots r).length = (h.sweep (h.mark roots r)).2.live := by
  have hx' : (h.sweep (h.mark roots r)).2.Exact := (hx.freeAll _).1
  have ha' := ha.sweep (h.mark roots r)
  have hleft : ∀ id, id ∈ h.mark roots r ↔ id ∈ (h.sweep (h.mark roots r)).2.ids := by
    intro id
    rw [ha'.mem_ids_iff, contains, get?_sweep]
    by_cases hm : id ∈ h.mark roots r
    · rw [if_pos hm]
      exact iff_of_true hm ((h.mem_mark_iff r roots id).1 hm).contains
    · simp [hm]
  have hnodup : (h.mark roots r).Nodup := h.nodup_spread r _ _ _ List.nodup_nil
  have hnodup' : (h.sweep (h.mark roots r)).2.ids.Nodup :=
    ha'.pairwise_ids.imp fun hlt heq => by simp [heq] at hlt
  rw [((List.perm_ext_iff_of_nodup hnodup hnodup').2 hleft).length_eq, hx'.length_ids]

end ScriptBridge.Heap
