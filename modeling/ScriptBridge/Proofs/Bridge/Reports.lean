import ScriptBridge.Proofs.Bridge.Collecting
import ScriptBridge.Proofs.Bridge.EdgeHistory
import ScriptBridge.Proofs.Host.Recycling
import ScriptBridge.Proofs.OwnershipCalls

/-! # What a collection reports

A collection counts the edges that it detaches, one swept object after another. A release drops the
edges that enter its object too, and does not count them. So an edge is counted if its parent was
swept, except when its child was swept before the parent.

* `Bridge.SweptBefore` is the order of the sweep, which is that of the slots.
* `Bridge.detached_releaseAll` counts the edges that a list of releases detaches.
* `Bridge.collect_counts` is the report of a collection, and `Bridge.detached_depends_on_slots` one
  that leaves an edge out.
-/

namespace ScriptBridge
set_option autoImplicit false

/-! ## Pairs in a list -/

section
variable {α : Type} {x y : α} {l : List α}

theorem pair_sublist_cons_iff {a : α} :
    [x, y].Sublist (a :: l) ↔ [x, y].Sublist l ∨ x = a ∧ y ∈ l := by
  rw [List.cons_sublist_cons', List.singleton_sublist]

/-- Of two members of a list one stands before the other. -/
theorem pair_sublist_or (hx : x ∈ l) (hy : y ∈ l) (hne : x ≠ y) :
    [x, y].Sublist l ∨ [y, x].Sublist l := by
  induction l with
  | nil => cases hx
  | cons a rest ih =>
    rcases List.mem_cons.1 hx with hxa | hx <;> rcases List.mem_cons.1 hy with hya | hy
    · exact absurd (hxa.trans hya.symm) hne
    · exact .inl (pair_sublist_cons_iff.2 (.inr ⟨hxa, hy⟩))
    · exact .inr (pair_sublist_cons_iff.2 (.inr ⟨hya, hx⟩))
    · exact (ih hx hy).imp (.cons a) (.cons a)

/-- In an ordered list the order tells which member stands before which. -/
theorem pair_sublist_iff_of_pairwise {r : α → α → Prop} (hl : l.Pairwise r)
    (hasymm : ∀ a b, r a b → ¬ r b a) : [x, y].Sublist l ↔ x ∈ l ∧ y ∈ l ∧ r x y := by
  constructor
  · intro h
    exact ⟨h.subset (by simp), h.subset (by simp), List.pairwise_iff_forall_sublist.1 hl h⟩
  · rintro ⟨hx, hy, hr⟩
    have hne : x ≠ y := by
      rintro rfl
      exact hasymm x x hr hr
    refine (pair_sublist_or hx hy hne).resolve_right fun h => ?_
    exact hasymm x y hr (List.pairwise_iff_forall_sublist.1 hl h)

end

/-! ## The order of a sweep -/

namespace Bridge

variable {b : Bridge}

theorem nodup_swept (b : Bridge) : b.swept.Nodup := b.engine.nodup_collect b.retention

/-- The first object is swept before the second, in one collection. -/
def SweptBefore (b : Bridge) (x y : ObjectId) : Prop := [x, y].Sublist b.swept

instance (b : Bridge) (x y : ObjectId) : Decidable (b.SweptBefore x y) :=
  inferInstanceAs (Decidable ([x, y].Sublist b.swept))

/-- Objects are swept in the order of their slots. -/
theorem sweptBefore_iff (ha : b.engine.heap.Addressable) (x y : ObjectId) :
    b.SweptBefore x y ↔ x ∈ b.swept ∧ y ∈ b.swept ∧ x.index < y.index := by
  have hsub : b.swept.Sublist b.engine.heap.ids :=
    (Heap.sublist_freeAll _ _).trans List.filter_sublist
  exact pair_sublist_iff_of_pairwise (ha.pairwise_ids.sublist hsub) fun _ _ => UInt32.lt_asymm

/-! ## Releases one after another -/

theorem finalized_release (b : Bridge) (id : ObjectId) :
    (b.release [] id).1.2 = b.registry.contains id := by
  unfold release
  cases hb : b.registry.binding? id with
  | none => simp [Registry.retire?, Registry.contains, hb]
  | some binding => simp [Registry.retire?, Registry.contains, hb]

theorem detached_release (b : Bridge) (id : ObjectId) :
    (b.release [] id).1.1 = (b.edges.children id).length := by
  unfold release
  cases hr : b.registry.retire? id <;> simp only [hr] <;> rfl

/-- Every registered object of the list is finalized. -/
theorem finalized_releaseAll {l : List ObjectId} (hl : l.Nodup) (report : CollectionReport)
    (b : Bridge) : (b.releaseAll report l).1.finalized =
      report.finalized + (l.filter b.registry.contains).length := by
  induction l generalizing report b with
  | nil => rfl
  | cons id rest ih =>
    obtain ⟨hid, hrest⟩ := List.nodup_cons.1 hl
    have hlater : rest.filter (b.release [] id).2.registry.contains =
        rest.filter b.registry.contains := by
      refine List.filter_congr fun a ha => ?_
      have hne : a ≠ id := fun heq => hid (heq ▸ ha)
      rw [registry_release, Registry.contains, Registry.binding?_without, if_neg hne]
      rfl
    rw [releaseAll, ih hrest, hlater, List.filter_cons]
    dsimp only
    rw [finalized_release]
    split <;> simp [Nat.add_assoc, Nat.add_comm]

/-- An edge whose parent is in the list and whose child does not stand before the parent. -/
def Detaches (l : List ObjectId) (e : ObjectId × ObjectId) : Prop :=
  e.1 ∈ l ∧ ¬ [e.2, e.1].Sublist l

instance (l : List ObjectId) : DecidablePred (Detaches l) :=
  fun e => inferInstanceAs (Decidable (e.1 ∈ l ∧ ¬ [e.2, e.1].Sublist l))

/-- The first release detaches the edges that leave its object, and takes those that enter it from
the later ones. -/
theorem detaches_cons_iff {id : ObjectId} {rest : List ObjectId} (hid : id ∉ rest)
    (e : ObjectId × ObjectId) : Detaches (id :: rest) e ↔
      e.1 = id ∨ (e.1 ≠ id ∧ e.2 ≠ id) ∧ Detaches rest e := by
  unfold Detaches
  rw [pair_sublist_cons_iff, List.mem_cons]
  by_cases hp : e.1 = id
  · have hnot : ¬ [e.2, e.1].Sublist rest := fun h => hid (hp ▸ h.subset (by simp))
    simp [hp, hid, hp ▸ hnot]
  · simp only [hp, false_or, ne_eq, not_false_eq_true, true_and, not_or, not_and]
    tauto

theorem detached_releaseAll {l : List ObjectId} (hl : l.Nodup) (report : CollectionReport)
    {b : Bridge} (hm : b.edges.Mirrored) : (b.releaseAll report l).1.detached =
      report.detached + (b.edges.edgeSet.filter (Detaches l)).card := by
  induction l generalizing report b with
  | nil => simp [releaseAll, Detaches]
  | cons id rest ih =>
    obtain ⟨hid, hrest⟩ := List.nodup_cons.1 hl
    have hm' : (b.release [] id).2.edges.Mirrored := by
      rw [edges_release]
      exact hm.without id
    have hset : (b.release [] id).2.edges.edgeSet =
        b.edges.edgeSet.filter fun e => e.1 ≠ id ∧ e.2 ≠ id := by
      rw [edges_release, Ownership.without, (hm.detach id).edgeSet_purge, Ownership.edgeSet_detach,
        Finset.filter_filter]
    -- The edges that the list detaches leave its first object or are left to the rest.
    have hsplit : (b.edges.edgeSet.filter (Detaches (id :: rest))).card =
        (b.edges.edgeSet.filter fun e => e.1 = id).card +
          ((b.release [] id).2.edges.edgeSet.filter (Detaches rest)).card := by
      rw [hset, Finset.filter_filter, ← Finset.card_union_of_disjoint, ← Finset.filter_or]
      · exact congrArg Finset.card (Finset.filter_congr fun e _ => detaches_cons_iff hid e)
      · refine Finset.disjoint_filter.2 fun e _ hleaves hlater => hlater.1.1 hleaves
    rw [releaseAll, ih hrest _ hm', hsplit, hm.card_leaving]
    dsimp only
    rw [detached_release, Nat.add_assoc]

/-! ## The report -/

theorem Reachable.mirrored (h : b.Reachable) : b.edges.Mirrored := by
  obtain ⟨options, hrun⟩ := h
  obtain ⟨uses, rfl⟩ := run_iff_useAll.1 hrun
  exact (tells_useAll _ uses Ownership.mirrored_empty).1

theorem finalized_collect (b : Bridge) :
    b.collect.1.finalized = (b.swept.filter b.registry.contains).length := by
  rw [collect_eq, finalized_releaseAll b.nodup_swept]
  exact Nat.zero_add _

theorem detached_collect (hm : b.edges.Mirrored) : b.collect.1.detached =
    (b.edges.edgeSet.filter fun e => e.1 ∈ b.swept ∧ ¬ b.SweptBefore e.2 e.1).card := by
  have hm' : (b.onEngine (·.collect b.retention)).2.edges.Mirrored := hm
  rw [collect_eq, detached_releaseAll b.nodup_swept _ hm']
  exact Nat.zero_add _

/-- **What a collection reports.** It reports as finalized the swept objects that were registered.
The edges that it reports as detached are those that were there before and whose parent was swept,
except for those whose child was swept before the parent, which go uncounted. So the number is that
of the edges of swept parents exactly if there are none of these; and which object is swept before
which is a matter of the slots they are in. -/
theorem collect_counts (b : Bridge) (h : b.Reachable) :
    let report := b.collect.1
    let edges := b.edges.edgeSet
    (b.swept.Nodup ∧ ∀ id, id ∈ b.swept ↔ b.isAlive id ∧ ¬ b.collect.2.isAlive id) ∧
    report.finalized = (b.swept.filter b.registry.contains).length ∧
    report.detached + (edges.filter fun e => b.SweptBefore e.2 e.1).card =
      (edges.filter fun e => e.1 ∈ b.swept).card ∧
    (report.detached = (edges.filter fun e => e.1 ∈ b.swept).card ↔
      ∀ p c, b.edges.contains p c → ¬ b.SweptBefore c p) ∧
    (b.engine.heap.Addressable → ∀ x y, b.SweptBefore x y ↔
      x ∈ b.swept ∧ y ∈ b.swept ∧ x.index < y.index) := by
  intro report edges
  have hcount : report.detached + (edges.filter fun e => b.SweptBefore e.2 e.1).card =
      (edges.filter fun e => e.1 ∈ b.swept).card := by
    have hsplit := Finset.card_filter_add_card_filter_not
      (s := edges.filter fun e => e.1 ∈ b.swept) (fun e => b.SweptBefore e.2 e.1)
    rw [Finset.filter_filter, Finset.filter_filter, ← detached_collect h.mirrored] at hsplit
    have hbefore : edges.filter (fun e => e.1 ∈ b.swept ∧ b.SweptBefore e.2 e.1) =
        edges.filter fun e => b.SweptBefore e.2 e.1 := by
      refine Finset.filter_congr fun e _ => and_iff_right_of_imp fun hbefore => ?_
      exact hbefore.subset (by simp)
    rw [hbefore, Nat.add_comm] at hsplit
    exact hsplit
  refine ⟨⟨b.nodup_swept, fun id => ?_⟩, b.finalized_collect, hcount, ?_,
    sweptBefore_iff⟩
  · rw [isAlive_collect_iff, ← reached_iff_reaches]
    exact b.engine.mem_collect_iff b.retention id
  · rw [← hcount, Nat.left_eq_add, Finset.card_eq_zero, Finset.filter_eq_empty_iff]
    constructor
    · intro hnone p c hc
      exact hnone (Ownership.mem_edgeSet.2 hc)
    · intro hnone e he
      exact hnone e.1 e.2 (Ownership.mem_edgeSet.1 he)

/-- Two nodes, the first in a lower slot, wrapped in a scope that has closed, with an edge between
them. -/
def linked (parent child : ObjectId) : Bridge :=
  let (first, b) := ({} : Bridge).openScope.create "Node" .view
  let (second, b) := b.create "Node" .view
  (((b.wrap first).2.wrap second).2.addEdge parent child).2.closeScope

theorem reachable_linked (parent child : ObjectId) : (linked parent child).Reachable := by
  refine ⟨{}, ?_⟩
  have start : Run ({} : Bridge) {} := Relation.ReflTransGen.refl
  have made := ((start.tail ⟨0, .ask .openScope⟩).tail ⟨0, .ask (.create "Node" .view)⟩).tail
    ⟨0, .ask (.create "Node" .view)⟩
  exact (((made.tail ⟨0, .ask (.wrap ⟨"Node", ⟨0⟩⟩)⟩).tail ⟨0, .ask (.wrap ⟨"Node", ⟨1⟩⟩)⟩).tail
    ⟨0, .ask (.addEdge parent child)⟩).tail ⟨0, .ask .closeScope⟩

/-- A parent in the lower slot is swept first, and its edge is counted. -/
theorem collect_counts_of_linked :
    let b := linked ⟨0, 0⟩ ⟨1, 0⟩
    b.Reachable ∧ b.swept = [⟨0, 0⟩, ⟨1, 0⟩] ∧
      b.collect.1.finalized = 2 ∧ b.collect.1.detached = 1 := by
  intro b
  have hb : b.Reachable := reachable_linked _ _
  have hswept : b.swept = [⟨0, 0⟩, ⟨1, 0⟩] := by decide
  obtain ⟨-, hfinalized, -, hdetached, -⟩ := collect_counts b hb
  refine ⟨hb, hswept, hfinalized.trans (by decide), (hdetached.2 ?_).trans (by decide)⟩
  intro p c hc
  have hedge : (p, c) ∈ b.edges.edgeSet := Ownership.mem_edgeSet.2 hc
  rw [show b.edges.edgeSet = {(⟨0, 0⟩, ⟨1, 0⟩)} by decide, Finset.mem_singleton] at hedge
  cases hedge
  decide

/-- In the higher slot it is swept last, and no edge is left to be counted. -/
theorem detached_depends_on_slots :
    let b := linked ⟨1, 0⟩ ⟨0, 0⟩
    b.Reachable ∧ b.collect.1.finalized = 2 ∧
      (b.edges.edgeSet.filter fun e => e.1 ∈ b.swept).card = 1 ∧ b.collect.1.detached = 0 :=
  ⟨reachable_linked _ _, by decide, by decide, by decide⟩

end Bridge
end ScriptBridge
