import ScriptBridge.Ownership
import ScriptBridge.Proofs.TableEntries
import Mathlib.Data.List.Count
import Mathlib.Data.Prod.Basic

/-! # Edges one by one

* `Ownership.contains_add` and `Ownership.children_remove` say which children an object has when an
  edge was added or removed.
* `Ownership.pairs` lists the edges, so that they can be counted.
-/

namespace ScriptBridge
set_option autoImplicit false

/-! ## Links -/

theorem Adjacency.partners_link (t : Adjacency) (a b a' : ObjectId) :
    partners (link t a b) a' =
      if a' = a ∧ b ∉ partners t a then partners t a ++ [b] else partners t a' := by
  unfold link
  split
  next hmem => rw [if_neg fun hand => hand.2 hmem]
  next hnot =>
    by_cases ha : a' = a
    · rw [if_pos ⟨ha, hnot⟩]
      simp [partners, Table.find?_insert, ha]
    · rw [if_neg fun hand => ha hand.1]
      simp [partners, Table.find?_insert, ha]

theorem Adjacency.partners_unlink (t : Adjacency) (a b a' : ObjectId) :
    partners (unlink t a b) a' = if a' = a then (partners t a').erase b else partners t a' := by
  unfold unlink
  cases hfind : t.find? a with
  | none =>
    by_cases ha : a' = a
    · simp [ha, partners, hfind]
    · simp [ha]
  | some bs =>
    dsimp only
    split
    next hempty =>
      rw [List.isEmpty_iff] at hempty
      by_cases ha : a' = a <;> simp [partners, Table.find?_erase, ha, hfind, hempty]
    next => by_cases ha : a' = a <;> simp [partners, Table.find?_insert, ha, hfind]

namespace Ownership

/-! ## Edges -/

theorem contains_add (t : Ownership) (p c : ObjectId) : (t.add p c).2.contains p c := by
  unfold add
  split
  next h => exact h
  next h =>
    have hnot : c ∉ Adjacency.partners t.outgoing p := fun hmem => h (List.contains_iff_mem.2 hmem)
    rw [contains, children, Adjacency.partners_link, if_pos ⟨rfl, hnot⟩]
    simp

theorem children_remove (t : Ownership) (p c p' : ObjectId) :
    (t.remove p c).2.children p' = if p' = p then (t.children p').erase c else t.children p' := by
  unfold remove
  split
  · exact Adjacency.partners_unlink t.outgoing p c p'
  next hnot =>
    by_cases hp : p' = p
    · rw [if_pos hp, hp, List.erase_of_not_mem fun hmem => hnot (List.contains_iff_mem.2 hmem)]
    · rw [if_neg hp]

/-- Every edge, as a parent with a child. -/
def pairs (t : Ownership) : List (ObjectId × ObjectId) :=
  t.outgoing.keys.flatMap fun p => (t.children p).map (p, ·)

theorem count_le_count_pairs (t : Ownership) (p c : ObjectId) :
    (t.children p).count c ≤ t.pairs.count (p, c) := by
  by_cases hp : p ∈ t.outgoing.keys
  · have hsub : ((t.children p).map (p, ·)).Sublist t.pairs := by
      rw [pairs, List.flatMap_def]
      exact List.sublist_flatten_of_mem (List.mem_map.2 ⟨p, hp, rfl⟩)
    have hle := hsub.count_le (p, c)
    rwa [List.count_map_of_injective _ _ (Prod.mk_right_injective p)] at hle
  · have hnone : t.outgoing.find? p = none := by
      cases hfind : t.outgoing.find? p with
      | none => rfl
      | some cs => exact absurd (Table.mem_keys_of_find? hfind) hp
    simp [children, Adjacency.partners, hnone]

end Ownership
end ScriptBridge
