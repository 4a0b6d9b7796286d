import ScriptBridge.Proofs.OwnershipTable
import Mathlib.Data.Finset.Card

/-! # Edge tables under any calls

A table of edges stands for one finite set of ordered pairs, `Ownership.edgeSet`, and every call is
the operation on sets that `EdgeCall.on` describes.

* `Ownership.Compact` is the invariant that carries this: the two directions are mirrored, and
  neither keeps an object without partners.
* `Ownership.Mirrored.call_on` is the step. `Ownership.callAll_observes_edges` says what can be seen of a
  table after any calls.
-/

namespace ScriptBridge
set_option autoImplicit false

/-- Pairs of a parent and a child. -/
abbrev EdgeSet := Finset (ObjectId × ObjectId)

inductive EdgeCall where
  | add (parent child : ObjectId)
  | remove (parent child : ObjectId)
  | detach (parent : ObjectId)
  | purge (child : ObjectId)

inductive EdgeAnswer where
  /-- Whether an edge came or went. -/
  | changed (b : Bool)
  /-- How many edges went. -/
  | dropped (n : Nat)
  | done
deriving DecidableEq

/-- A call on a set of pairs. -/
def EdgeCall.on (E : EdgeSet) : EdgeCall → EdgeAnswer × EdgeSet
  | .add p c => (.changed (decide ((p, c) ∉ E)), insert (p, c) E)
  | .remove p c => (.changed (decide ((p, c) ∈ E)), E.erase (p, c))
  | .detach p => (.dropped (E.filter fun e => e.1 = p).card, E.filter fun e => e.1 ≠ p)
  | .purge c => (.done, E.filter fun e => e.2 ≠ c)

def EdgeCall.onAll (E : EdgeSet) : List EdgeCall → List EdgeAnswer × EdgeSet
  | [] => ([], E)
  | c :: rest =>
    let (answer, E) := c.on E
    let (answers, E) := onAll E rest
    (answer :: answers, E)

/-! ## No object without partners -/

namespace Adjacency

/-- Every object in the table has partners. -/
def Compact (t : Adjacency) : Prop := ∀ a, t.find? a ≠ some []

theorem Compact.link {t : Adjacency} (h : Compact t) (a b : ObjectId) : Compact (link t a b) := by
  intro x
  unfold Adjacency.link
  split
  · exact h x
  · rw [Table.find?_insert]
    split
    · simp
    · exact h x

theorem Compact.erase {t : Adjacency} (h : Compact t) (a : ObjectId) : Compact (t.erase a) := by
  intro x
  rw [Table.find?_erase]
  split
  · simp
  · exact h x

theorem Compact.unlink {t : Adjacency} (h : Compact t) (a b : ObjectId) :
    Compact (unlink t a b) := by
  unfold Adjacency.unlink
  split
  · exact h
  dsimp only
  split
  · exact h.erase a
  next hrest =>
    intro x
    rw [Table.find?_insert]
    split
    · simpa using hrest
    · exact h x

theorem Compact.foldl_unlink (l : List ObjectId) {t : Adjacency} (h : Compact t) (a : ObjectId) :
    Compact (l.foldl (fun t y => Adjacency.unlink t y a) t) := by
  induction l generalizing t with
  | nil => exact h
  | cons y rest ih => exact ih (h.unlink y a)

theorem Compact.isEmpty_iff {t : Adjacency} (h : Compact t) :
    t.isEmpty ↔ ∀ a, partners t a = [] := by
  constructor
  · intro hempty a
    rw [Table.isEmpty, List.isEmpty_iff] at hempty
    simp [partners, Table.find?, hempty, Table.findIn]
  · intro hnone
    rw [Table.isEmpty, List.isEmpty_iff, List.eq_nil_iff_forall_not_mem]
    rintro ⟨a, bs⟩ hmem
    have hfind := (t.mem_entries_iff a bs).1 hmem
    have hbs : bs = [] := by simpa [partners, hfind] using hnone a
    exact h a (hbs ▸ hfind)

theorem values_eq (t : Adjacency) : t.values = t.keys.map (partners t) := by
  rw [Table.values, Table.keys, List.map_map]
  refine List.map_congr_left fun e he => ?_
  rw [Function.comp_apply, partners, (t.mem_entries_iff e.1 e.2).1 he, Option.getD_some]

end Adjacency

namespace Ownership

variable {t : Ownership} {p c : ObjectId}

/-! ## The set of edges -/

/-- The edges as a set. -/
def edgeSet (t : Ownership) : EdgeSet := t.pairs.toFinset

theorem mem_pairs : (p, c) ∈ t.pairs ↔ c ∈ t.children p := by
  constructor
  · intro hmem
    obtain ⟨p', -, hpair⟩ := List.mem_flatMap.1 hmem
    obtain ⟨c', hc', heq⟩ := List.mem_map.1 hpair
    cases heq
    exact hc'
  · intro hmem
    cases hfind : t.outgoing.find? p with
    | none => simp [children, Adjacency.partners, hfind] at hmem
    | some cs =>
      exact List.mem_flatMap.2
        ⟨p, Table.mem_keys_of_find? hfind, List.mem_map.2 ⟨c, hmem, rfl⟩⟩

theorem mem_edgeSet : (p, c) ∈ t.edgeSet ↔ t.contains p c := by
  rw [edgeSet, List.mem_toFinset, mem_pairs, contains_iff]

theorem Mirrored.nodup_pairs (h : t.Mirrored) : t.pairs.Nodup := by
  refine List.nodup_flatMap.2 ⟨fun p _ => ?_, ?_⟩
  · exact (h.children p).map (Prod.mk_right_injective p)
  · refine (show t.outgoing.keys.Nodup from t.outgoing.distinct).imp fun {p p'} hne => ?_
    intro e he he'
    obtain ⟨c, -, rfl⟩ := List.mem_map.1 he
    obtain ⟨c', -, heq⟩ := List.mem_map.1 he'
    exact hne (congrArg Prod.fst heq).symm

theorem length_pairs (t : Ownership) : t.pairs.length = t.size := by
  have hchildren : t.pairs.map Prod.snd = t.outgoing.values.flatten := by
    rw [pairs, List.map_flatMap, Adjacency.values_eq, ← List.flatMap_def]
    simp only [List.map_map, Function.comp_def, List.map_id', children]
  rw [size, Adjacency.pairCount, ← hchildren, List.length_map]

theorem Mirrored.size_eq_card (h : t.Mirrored) : t.size = t.edgeSet.card := by
  rw [edgeSet, List.toFinset_card_of_nodup h.nodup_pairs, length_pairs]

/-- The edges that leave an object are as many as its children. -/
theorem Mirrored.card_leaving (h : t.Mirrored) (p : ObjectId) :
    (t.edgeSet.filter fun e => e.1 = p).card = (t.children p).length := by
  have hnodup : ((t.children p).map (p, ·)).Nodup :=
    (h.children p).map (Prod.mk_right_injective p)
  have hset : t.edgeSet.filter (fun e => e.1 = p) = ((t.children p).map (p, ·)).toFinset := by
    ext ⟨p', c⟩
    rw [Finset.mem_filter, mem_edgeSet, contains_iff, List.mem_toFinset, List.mem_map]
    constructor
    · rintro ⟨hc, rfl⟩
      exact ⟨c, hc, rfl⟩
    · rintro ⟨c', hc, heq⟩
      cases heq
      exact ⟨hc, rfl⟩
  rw [hset, List.toFinset_card_of_nodup hnodup, List.length_map]

theorem add_fst (t : Ownership) (p c : ObjectId) : (t.add p c).1 = !t.contains p c := by
  unfold add
  split <;> simp [*]

theorem remove_fst (t : Ownership) (p c : ObjectId) : (t.remove p c).1 = t.contains p c := by
  unfold remove
  split <;> simp [*]

theorem edgeSet_add (t : Ownership) (p c : ObjectId) :
    (t.add p c).2.edgeSet = insert (p, c) t.edgeSet := by
  ext ⟨p', c'⟩
  rw [mem_edgeSet, contains_add_iff, Finset.mem_insert, mem_edgeSet, Prod.mk.injEq]

theorem Mirrored.edgeSet_remove (h : t.Mirrored) (p c : ObjectId) :
    (t.remove p c).2.edgeSet = t.edgeSet.erase (p, c) := by
  ext ⟨p', c'⟩
  rw [mem_edgeSet, contains_remove_iff h, Finset.mem_erase, mem_edgeSet, Ne, Prod.mk.injEq]

theorem edgeSet_detach (t : Ownership) (p : ObjectId) :
    (t.detach p).2.edgeSet = t.edgeSet.filter fun e => e.1 ≠ p := by
  ext ⟨p', c'⟩
  have hchildren : (t.detach p).2.children p' = if p' = p then [] else t.children p' :=
    Adjacency.partners_erase t.outgoing p p'
  rw [mem_edgeSet, contains_iff, hchildren, Finset.mem_filter, mem_edgeSet, contains_iff]
  by_cases hp : p' = p <;> simp [hp]

theorem Mirrored.edgeSet_purge (h : t.Mirrored) (c : ObjectId) :
    (t.purge c).edgeSet = t.edgeSet.filter fun e => e.2 ≠ c := by
  ext ⟨p', c'⟩
  rw [mem_edgeSet, contains_iff, mem_children_purge h, Finset.mem_filter, mem_edgeSet, contains_iff,
    and_comm]

/-! ## One call -/

/-- Both directions say the same, and neither has an object without partners. -/
structure Compact (t : Ownership) : Prop where
  mirrored : t.Mirrored
  outgoing : Adjacency.Compact t.outgoing
  incoming : Adjacency.Compact t.incoming

theorem compact_empty : Compact {} where
  mirrored := mirrored_empty
  outgoing _ := nofun
  incoming _ := nofun

def call (t : Ownership) : EdgeCall → EdgeAnswer × Ownership
  | .add p c => (.changed (t.add p c).1, (t.add p c).2)
  | .remove p c => (.changed (t.remove p c).1, (t.remove p c).2)
  | .detach p => (.dropped (t.detach p).1, (t.detach p).2)
  | .purge c => (.done, t.purge c)

def callAll (t : Ownership) : List EdgeCall → List EdgeAnswer × Ownership
  | [] => ([], t)
  | c :: rest =>
    let (answer, t) := t.call c
    let (answers, t) := t.callAll rest
    (answer :: answers, t)

theorem Compact.add (h : t.Compact) (p c : ObjectId) : (t.add p c).2.Compact := by
  refine ⟨h.mirrored.add p c, ?_, ?_⟩ <;> unfold Ownership.add <;> split
  · exact h.outgoing
  · exact h.outgoing.link p c
  · exact h.incoming
  · exact h.incoming.link c p

theorem Compact.remove (h : t.Compact) (p c : ObjectId) : (t.remove p c).2.Compact := by
  refine ⟨h.mirrored.remove p c, ?_, ?_⟩ <;> unfold Ownership.remove <;> split
  · exact h.outgoing.unlink p c
  · exact h.outgoing
  · exact h.incoming.unlink c p
  · exact h.incoming

theorem Compact.call (h : t.Compact) (k : EdgeCall) : (t.call k).2.Compact := by
  cases k with
  | add p c => exact h.add p c
  | remove p c => exact h.remove p c
  | detach p =>
    exact ⟨h.mirrored.detach p, h.outgoing.erase p, .foldl_unlink (t.children p) h.incoming p⟩
  | purge c =>
    exact ⟨h.mirrored.purge c, .foldl_unlink (t.parents c) h.outgoing c, h.incoming.erase c⟩

/-- A call answers as the operation on sets does, and leaves its set. -/
theorem Mirrored.call_on (h : t.Mirrored) (k : EdgeCall) :
    ((t.call k).1, (t.call k).2.edgeSet) = k.on t.edgeSet := by
  cases k with
  | add p c =>
    refine Prod.ext (congrArg EdgeAnswer.changed ?_) (edgeSet_add t p c)
    rw [add_fst, Bool.eq_iff_iff, decide_eq_true_iff, mem_edgeSet, Bool.not_iff_not]
  | remove p c =>
    refine Prod.ext (congrArg EdgeAnswer.changed ?_) (h.edgeSet_remove p c)
    rw [remove_fst, Bool.eq_iff_iff, decide_eq_true_iff, mem_edgeSet]
  | detach p =>
    exact Prod.ext (congrArg EdgeAnswer.dropped (h.card_leaving p).symm) (edgeSet_detach t p)
  | purge c => exact Prod.ext rfl (h.edgeSet_purge c)

/-! ## Any number of calls -/

theorem Compact.callAll (h : t.Compact) (calls : List EdgeCall) : (t.callAll calls).2.Compact := by
  induction calls generalizing t with
  | nil => exact h
  | cons k rest ih => exact ih (h.call k)

theorem Compact.callAll_onAll (h : t.Compact) (calls : List EdgeCall) :
    ((t.callAll calls).1, (t.callAll calls).2.edgeSet) = EdgeCall.onAll t.edgeSet calls := by
  induction calls generalizing t with
  | nil => rfl
  | cons k rest ih =>
    have hcall := h.mirrored.call_on k
    have hrest := ih (h.call k)
    simp only [Ownership.callAll, EdgeCall.onAll, ← hcall, ← hrest]

/-- **An edge table is a set of pairs.** After any calls with any names, on an object itself too,
every call has answered as the operation on sets does, and everything that can be read from the
table is read from that set: children and parents, each once, are the two ends of its pairs, so the
directions are transposes; an object without partners has no entry; the size is the number of the
pairs; and the table is empty if the set is. -/
theorem callAll_observes_edges (calls : List EdgeCall) :
    let (answers, t) := ({} : Ownership).callAll calls
    let (answersOfSet, E) := EdgeCall.onAll ∅ calls
    answers = answersOfSet ∧ (∀ p c, t.contains p c = decide ((p, c) ∈ E)) ∧
    (∀ p, (t.children p).Nodup ∧ ∀ c, c ∈ t.children p ↔ (p, c) ∈ E) ∧
    (∀ c, (t.parents c).Nodup ∧ ∀ p, p ∈ t.parents c ↔ (p, c) ∈ E) ∧
    (∀ a, t.outgoing.find? a ≠ some [] ∧ t.incoming.find? a ≠ some []) ∧
    t.size = E.card ∧ (t.isEmpty ↔ E = ∅) := by
  have hcompact := compact_empty.callAll calls
  have hset := compact_empty.callAll_onAll calls
  rw [show edgeSet {} = ∅ from rfl] at hset
  generalize ({} : Ownership).callAll calls = r at hcompact hset
  generalize EdgeCall.onAll ∅ calls = s at hset
  obtain ⟨answers, t⟩ := r
  obtain ⟨answersOfSet, E⟩ := s
  obtain ⟨rfl, rfl⟩ := Prod.mk.inj hset
  have hmirrored : t.Mirrored := hcompact.mirrored
  have hchild : ∀ p c, c ∈ t.children p ↔ (p, c) ∈ t.edgeSet := fun p c => by
    rw [mem_edgeSet, contains_iff]
  refine ⟨rfl, fun p c => ?_, fun p => ⟨hmirrored.children p, hchild p⟩,
    fun c => ⟨hmirrored.parents c, fun p => (hmirrored.mirror p c).symm.trans (hchild p c)⟩,
    fun a => ⟨hcompact.outgoing a, hcompact.incoming a⟩, hmirrored.size_eq_card, ?_⟩
  · rw [Bool.eq_iff_iff, decide_eq_true_iff, mem_edgeSet]
  · refine hcompact.outgoing.isEmpty_iff.trans ?_
    rw [Finset.eq_empty_iff_forall_notMem]
    constructor
    · rintro hnone ⟨p, c⟩ hmem
      have hc : c ∈ Adjacency.partners t.outgoing p := (hchild p c).2 hmem
      rw [hnone p] at hc
      cases hc
    · intro hnone p
      exact List.eq_nil_iff_forall_not_mem.2 fun c hc => hnone (p, c) ((hchild p c).1 hc)

end Ownership
end ScriptBridge
