import ScriptBridge.Host.Engine
import ScriptBridge.Proofs.Host.Naming
import ScriptBridge.Proofs.Host.Slots
import ScriptBridge.Proofs.Sequences

/-! # Marking finds what is reached

`Heap.Reached` is the least set of live objects that holds the live roots and is closed under the
steps of `Heap.successors`. Marking computes it (`Heap.mem_mark_iff`): the objects marked so far are
reached, and what they lead to is marked or still a candidate. There are enough rounds, since every
round but the last marks an object and marked objects have slots of their own.

`Engine.get?_collect_of_reached` and `Engine.mem_collect_iff` are what this comes to for a
collection: what is reached stays as it is, and what was alive and is not reached is swept.
-/

namespace ScriptBridge
set_option autoImplicit false

namespace Heap

theorem mem_references_iff (h : Heap) (p id : ObjectId) :
    id ∈ h.references p ↔ ∃ e, h.get? p = some e ∧
      ((∃ name v, e.properties.find? name = some v ∧ v.Names id) ∨
        ∃ v ∈ e.object.captures, v.Names id) := by
  unfold references
  cases h.get? p with
  | none => simp
  | some e =>
    simp only [LiveObject.references, List.mem_flatMap, List.mem_append, Table.mem_values_iff,
      Script.Value.mem_objects_iff, Option.some.injEq, exists_eq_left']
    grind

/-- Live, and reached from the roots along live objects. -/
inductive Reached (h : Heap) (r : Retention) (roots : List ObjectId) : ObjectId → Prop where
  | root {id : ObjectId} : id ∈ roots → h.contains id → Reached h r roots id
  | step {p id : ObjectId} :
      Reached h r roots p → id ∈ h.successors r p → h.contains id → Reached h r roots id

theorem Reached.contains {h : Heap} {r : Retention} {roots : List ObjectId} {id : ObjectId}
    (hr : h.Reached r roots id) : h.contains id := by
  cases hr <;> assumption

section
variable (h : Heap) (r : Retention)

theorem mem_unmarked_iff (marked candidates : List ObjectId) (id : ObjectId) :
    id ∈ h.unmarked marked candidates ↔ id ∈ candidates ∧ h.contains id ∧ id ∉ marked := by
  simp [unmarked, List.mem_eraseDups]

theorem nodup_append_unmarked {marked : List ObjectId} (candidates : List ObjectId)
    (hn : marked.Nodup) : (marked ++ h.unmarked marked candidates).Nodup := by
  refine List.nodup_append.2 ⟨hn, nodup_eraseDups _, fun a ha b hb hab => ?_⟩
  exact ((h.mem_unmarked_iff marked candidates b).1 hb).2.2 (hab ▸ ha)

/-- Nothing but reached objects is marked. -/
theorem reached_of_mem_spread {roots : List ObjectId} {id : ObjectId} (rounds : Nat)
    (marked candidates : List ObjectId) (hm : ∀ a ∈ marked, h.Reached r roots a)
    (hc : ∀ a ∈ candidates, h.contains a → h.Reached r roots a)
    (hid : id ∈ h.spread r rounds marked candidates) : h.Reached r roots id := by
  induction rounds generalizing marked candidates with
  | zero => exact hm id hid
  | succ rounds ih =>
    have hfresh : ∀ a ∈ h.unmarked marked candidates, h.Reached r roots a := by
      intro a ha
      obtain ⟨hac, hlive, -⟩ := (h.mem_unmarked_iff marked candidates a).1 ha
      exact hc a hac hlive
    rw [spread] at hid
    split at hid
    · exact hm id hid
    · refine ih _ _ (fun a ha => ?_) (fun a ha hlive => ?_) hid
      · exact (List.mem_append.1 ha).elim (hm a) (hfresh a)
      · obtain ⟨p, hp, hap⟩ := List.mem_flatMap.1 ha
        exact .step (hfresh p hp) hap hlive

/-- Marking goes on until every live candidate is marked, and so is what marked objects lead to. -/
theorem mem_spread_of_reached {roots : List ObjectId} (rounds : Nat)
    (marked candidates : List ObjectId) (hn : marked.Nodup) (hlive : ∀ a ∈ marked, h.contains a)
    (hrounds : h.slots.size ≤ rounds + marked.length)
    (hroots : ∀ a ∈ roots, h.contains a → a ∈ marked ∨ a ∈ candidates)
    (hsteps : ∀ p ∈ marked, ∀ a ∈ h.successors r p, h.contains a → a ∈ marked ∨ a ∈ candidates)
    {id : ObjectId} (hid : h.Reached r roots id) : id ∈ h.spread r rounds marked candidates := by
  -- By `hrounds` there are never more slots left than rounds: a round that goes on marks something.
  induction rounds generalizing marked candidates with
  | zero =>
    -- All slots are taken by marked objects, so there is no live object left.
    rw [spread]
    by_contra hnew
    have hle := length_le_of_contains (List.nodup_cons.2 ⟨hnew, hn⟩) fun a ha => by
      rcases List.mem_cons.1 ha with rfl | ha
      · exact hid.contains
      · exact hlive a ha
    rw [List.length_cons] at hle
    omega
  | succ rounds ih =>
    rw [spread]
    split
    next hempty =>
      have hall : ∀ a ∈ candidates, h.contains a → a ∈ marked := by
        intro a ha hc
        by_contra hnew
        have := (h.mem_unmarked_iff marked candidates a).2 ⟨ha, hc, hnew⟩
        rw [List.isEmpty_iff.1 hempty] at this
        cases this
      -- Nothing new, so the marked objects are closed under the steps that reach `id`.
      clear ih
      induction hid with
      | root ha hc => exact (hroots _ ha hc).elim (fun hm => hm) fun ha => hall _ ha hc
      | step _ ha hc ihp => exact (hsteps _ ihp _ ha hc).elim (fun hm => hm) fun ha => hall _ ha hc
    next hsome =>
      have hpos : 0 < (h.unmarked marked candidates).length := by
        refine List.length_pos_of_ne_nil fun hnil => hsome ?_
        rw [hnil, List.isEmpty_nil]
      refine ih _ _ (h.nodup_append_unmarked candidates hn) (fun a ha => ?_) ?_ (fun a ha hc => ?_)
        (fun p hp a ha hc => ?_)
      · rcases List.mem_append.1 ha with ha | ha
        · exact hlive a ha
        · exact ((h.mem_unmarked_iff marked candidates a).1 ha).2.1
      · rw [List.length_append]
        omega
      · left
        by_cases hm : a ∈ marked
        · exact List.mem_append_left _ hm
        · refine List.mem_append_right _ ((h.mem_unmarked_iff marked candidates a).2 ⟨?_, hc, hm⟩)
          exact (hroots a ha hc).resolve_left hm
      · rcases List.mem_append.1 hp with hp | hp
        · left
          by_cases hm : a ∈ marked
          · exact List.mem_append_left _ hm
          · refine List.mem_append_right _ ((h.mem_unmarked_iff marked candidates a).2 ⟨?_, hc, hm⟩)
            exact (hsteps p hp a ha hc).resolve_left hm
        · exact .inr (List.mem_flatMap.2 ⟨p, hp, ha⟩)

/-- **Marking is exact.** -/
theorem mem_mark_iff (roots : Roots) (id : ObjectId) :
    id ∈ h.mark roots r ↔ h.Reached r (roots.objects ++ r.roots) id := by
  constructor
  · exact h.reached_of_mem_spread r _ _ _ (by simp) fun a ha hlive => .root ha hlive
  · exact h.mem_spread_of_reached r _ _ _ List.nodup_nil (by simp) (by simp)
      (fun a ha _ => .inr ha) (by simp)

/-! ## Sweeping -/

theorem get?_sweep (marked : List ObjectId) (id : ObjectId) :
    (h.sweep marked).2.get? id = if id ∈ marked then h.get? id else none := by
  rw [sweep, get?_freeAll]
  by_cases hm : id ∈ marked
  · simp [hm]
  · cases he : h.get? id with
    | none => simp
    | some e => simp [hm, mem_ids_of_contains (contains_of_get? he)]

/-- What is swept are the live objects that are not marked. -/
theorem mem_sweep_iff (marked : List ObjectId) (id : ObjectId) :
    id ∈ (h.sweep marked).1.map Prod.fst ↔ h.contains id ∧ id ∉ marked := by
  rw [sweep, mem_freeAll]
  constructor
  · rintro ⟨hid, hc⟩
    exact ⟨hc, by simpa using (List.mem_filter.1 hid).2⟩
  · rintro ⟨hc, hm⟩
    exact ⟨List.mem_filter.2 ⟨mem_ids_of_contains hc, by simpa using hm⟩, hc⟩

end

end Heap

namespace Engine

variable (e : Engine) (r : Retention)

/-- The objects that a collection with a retention finds from the roots of the engine. -/
abbrev Reached (id : ObjectId) : Prop := e.heap.Reached r (e.roots.objects ++ r.roots) id

theorem mem_mark_iff (id : ObjectId) : id ∈ e.heap.mark e.roots r ↔ e.Reached r id :=
  e.heap.mem_mark_iff r e.roots id

theorem heap_collect : (e.collect r).2.heap = (e.heap.sweep (e.heap.mark e.roots r)).2 := rfl

/-- A collection leaves the reached objects as they are and no others. -/
theorem get?_collect_of_reached {id : ObjectId} (hr : e.Reached r id) :
    (e.collect r).2.heap.get? id = e.heap.get? id := by
  rw [heap_collect, Heap.get?_sweep, if_pos ((e.mem_mark_iff r id).2 hr)]

theorem isAlive_collect_iff (id : ObjectId) : (e.collect r).2.isAlive id ↔ e.Reached r id := by
  rw [isAlive, Heap.contains, heap_collect, Heap.get?_sweep, ← e.mem_mark_iff r id]
  by_cases hm : id ∈ e.heap.mark e.roots r
  · have hc := ((e.mem_mark_iff r id).1 hm).contains
    simp only [hm, if_true, iff_true]
    exact hc
  · simp [hm]

theorem mem_collect_iff (id : ObjectId) :
    id ∈ (e.collect r).1 ↔ e.isAlive id ∧ ¬ e.Reached r id := by
  rw [← e.mem_mark_iff r id]
  exact e.heap.mem_sweep_iff _ id

theorem nodup_collect : (e.collect r).1.Nodup := Heap.nodup_freeAll _ _

/-- If everything is reached, a collection frees nothing. -/
theorem collect_of_reached (hall : ∀ id, e.isAlive id → e.Reached r id) :
    (e.collect r).1 = [] ∧ (e.collect r).2.heap = e.heap := by
  have hswept : (e.collect r).1 = [] := by
    apply List.eq_nil_iff_forall_not_mem.2
    intro id hid
    obtain ⟨halive, hnot⟩ := (e.mem_collect_iff r id).1 hid
    exact hnot (hall id halive)
  have hfreed : (e.heap.sweep (e.heap.mark e.roots r)).1 = [] := List.map_eq_nil_iff.1 hswept
  exact ⟨hswept, Heap.freeAll_of_nil _ _ hfreed⟩

end Engine
end ScriptBridge
