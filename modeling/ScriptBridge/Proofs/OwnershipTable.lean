import ScriptBridge.Proofs.Bridge.Releasing
import ScriptBridge.Proofs.OwnershipEdges

/-! # The edges as a set of pairs

The two directions of an edge table say the same, and neither says anything twice, which is
`Ownership.Mirrored`. Every operation keeps this, and under it the table is told through
`Ownership.contains` alone.

* `Ownership.contains_add_iff`, `Ownership.contains_remove_iff` and `Ownership.contains_without_iff`
  say which edges there are after an operation.
* `Ownership.contains_without_of_ne` needs no condition: a release takes no edge that ends
  elsewhere.
-/

namespace ScriptBridge
set_option autoImplicit false

namespace Adjacency

/-! ## Many partners unlinked -/

theorem mem_foldl_unlink_of_ne (l : List ObjectId) (t : Adjacency) {a b x : ObjectId} (hb : b ≠ a) :
    b ∈ partners (l.foldl (fun t y => unlink t y a) t) x ↔ b ∈ partners t x := by
  induction l generalizing t with
  | nil => rfl
  | cons y rest ih =>
    rw [List.foldl_cons, ih, partners_unlink]
    split
    · exact List.mem_erase_of_ne hb
    · rfl

theorem mem_of_foldl_unlink (l : List ObjectId) (t : Adjacency) {a b x : ObjectId}
    (h : b ∈ partners (l.foldl (fun t y => unlink t y a) t) x) : b ∈ partners t x := by
  induction l generalizing t with
  | nil => exact h
  | cons y rest ih =>
    have hrest := ih (unlink t y a) h
    rw [partners_unlink] at hrest
    split at hrest
    · exact List.mem_of_mem_erase hrest
    · exact hrest

theorem nodup_unlink {t : Adjacency} (h : ∀ x, (partners t x).Nodup) (y a x : ObjectId) :
    (partners (unlink t y a) x).Nodup := by
  rw [partners_unlink]
  split
  · exact (h x).erase a
  · exact h x

theorem nodup_foldl_unlink (l : List ObjectId) {t : Adjacency} (h : ∀ x, (partners t x).Nodup)
    (a x : ObjectId) : (partners (l.foldl (fun t y => unlink t y a) t) x).Nodup := by
  induction l generalizing t with
  | nil => exact h x
  | cons y rest ih =>
    rw [List.foldl_cons]
    exact ih (nodup_unlink h y a)

theorem mem_foldl_unlink (l : List ObjectId) {t : Adjacency} (h : ∀ x, (partners t x).Nodup)
    (a x : ObjectId) : a ∈ partners (l.foldl (fun t y => unlink t y a) t) x ↔
      a ∈ partners t x ∧ x ∉ l := by
  induction l generalizing t with
  | nil => simp
  | cons y rest ih =>
    have hmem : a ∈ partners (unlink t y a) x ↔ a ∈ partners t x ∧ x ≠ y := by
      rw [partners_unlink]
      by_cases hx : x = y
      · subst hx
        have hgone : a ∉ (partners t x).erase a := (h x).not_mem_erase
        simp [hgone]
      · simp [hx]
    rw [List.foldl_cons, ih (nodup_unlink h y a), hmem, List.mem_cons, not_or, and_assoc]

theorem nodup_link {t : Adjacency} (h : ∀ x, (partners t x).Nodup) (a b x : ObjectId) :
    (partners (link t a b) x).Nodup := by
  rw [partners_link]
  split
  next hand =>
    rw [← List.concat_eq_append]
    exact (h a).concat hand.2
  · exact h x

theorem mem_link (t : Adjacency) (a b x y : ObjectId) :
    y ∈ partners (link t a b) x ↔ (x = a ∧ y = b) ∨ y ∈ partners t x := by
  rw [partners_link]
  by_cases hx : x = a
  · subst hx
    by_cases hb : b ∈ partners t x
    · simp only [hb, not_true_eq_false, and_false, if_false, true_and, iff_or_self]
      rintro rfl
      exact hb
    · simp [hb, or_comm]
  · simp [hx]

theorem mem_unlink {t : Adjacency} (h : ∀ x, (partners t x).Nodup) (a b x y : ObjectId) :
    y ∈ partners (unlink t a b) x ↔ ¬ (x = a ∧ y = b) ∧ y ∈ partners t x := by
  rw [partners_unlink]
  by_cases hx : x = a
  · rw [if_pos hx, (h x).mem_erase_iff]
    simp [hx]
  · simp [hx]

theorem partners_erase (t : Adjacency) (a x : ObjectId) :
    partners (t.erase a) x = if x = a then [] else partners t x := by
  by_cases hx : x = a <;> simp [partners, Table.find?_erase, hx]

end Adjacency

namespace Ownership

/-! ## Both directions -/

/-- A child lists its parents exactly as they list it, and no partner is listed twice. -/
structure Mirrored (t : Ownership) : Prop where
  mirror : ∀ p c, c ∈ t.children p ↔ p ∈ t.parents c
  children : ∀ p, (t.children p).Nodup
  parents : ∀ c, (t.parents c).Nodup

theorem mirrored_empty : Mirrored {} where
  mirror _ _ := ⟨nofun, nofun⟩
  children _ := List.nodup_nil
  parents _ := List.nodup_nil

theorem contains_iff {t : Ownership} {p c : ObjectId} : t.contains p c ↔ c ∈ t.children p :=
  List.contains_iff_mem

variable {t : Ownership} {p c : ObjectId}

theorem Mirrored.add (h : t.Mirrored) (p c : ObjectId) : (t.add p c).2.Mirrored := by
  unfold Ownership.add
  split
  · exact h
  refine ⟨fun p' c' => ?_, Adjacency.nodup_link h.children p c, Adjacency.nodup_link h.parents c p⟩
  have hout := Adjacency.mem_link t.outgoing p c p' c'
  have hin := Adjacency.mem_link t.incoming c p c' p'
  have hold : c' ∈ Adjacency.partners t.outgoing p' ↔ p' ∈ Adjacency.partners t.incoming c' :=
    h.mirror p' c'
  exact hout.trans (by rw [hold, and_comm (a := p' = p)]; exact hin.symm)

theorem Mirrored.remove (h : t.Mirrored) (p c : ObjectId) : (t.remove p c).2.Mirrored := by
  unfold Ownership.remove
  split
  · refine ⟨fun p' c' => ?_, Adjacency.nodup_unlink h.children p c,
      Adjacency.nodup_unlink h.parents c p⟩
    have hout := Adjacency.mem_unlink (t := t.outgoing) h.children p c p' c'
    have hin := Adjacency.mem_unlink (t := t.incoming) h.parents c p c' p'
    have hold : c' ∈ Adjacency.partners t.outgoing p' ↔ p' ∈ Adjacency.partners t.incoming c' :=
      h.mirror p' c'
    exact hout.trans (by rw [hold, and_comm (a := p' = p)]; exact hin.symm)
  · exact h

theorem mem_parents_detach (h : t.Mirrored) (id p c : ObjectId) :
    p ∈ (t.detach id).2.parents c ↔ p ≠ id ∧ p ∈ t.parents c := by
  have hparents : (t.detach id).2.parents c = Adjacency.partners
      ((t.children id).foldl (fun i y => Adjacency.unlink i y id) t.incoming) c := rfl
  rw [hparents]
  by_cases hp : p = id
  · subst hp
    rw [Adjacency.mem_foldl_unlink _ h.parents, h.mirror]
    simp [Ownership.parents]
  · rw [Adjacency.mem_foldl_unlink_of_ne _ _ hp]
    simp [hp, Ownership.parents]

theorem Mirrored.detach (h : t.Mirrored) (id : ObjectId) : (t.detach id).2.Mirrored := by
  have hchildren : ∀ p, (t.detach id).2.children p = if p = id then [] else t.children p :=
    Adjacency.partners_erase t.outgoing id
  refine ⟨fun p c => ?_, fun p => ?_, Adjacency.nodup_foldl_unlink _ h.parents id⟩
  · rw [mem_parents_detach h, hchildren, ← h.mirror]
    by_cases hp : p = id <;> simp [hp]
  · rw [hchildren]
    split
    · exact List.nodup_nil
    · exact h.children p

theorem mem_children_purge (h : t.Mirrored) (id p c : ObjectId) :
    c ∈ (t.purge id).children p ↔ c ≠ id ∧ c ∈ t.children p := by
  have hchildren : (t.purge id).children p = Adjacency.partners
      ((t.parents id).foldl (fun o y => Adjacency.unlink o y id) t.outgoing) p := rfl
  rw [hchildren]
  by_cases hc : c = id
  · subst hc
    rw [Adjacency.mem_foldl_unlink _ h.children, ← h.mirror]
    simp [Ownership.children]
  · rw [Adjacency.mem_foldl_unlink_of_ne _ _ hc]
    simp [hc, Ownership.children]

theorem Mirrored.purge (h : t.Mirrored) (id : ObjectId) : (t.purge id).Mirrored := by
  have hparents : ∀ c, (t.purge id).parents c = if c = id then [] else t.parents c :=
    Adjacency.partners_erase t.incoming id
  refine ⟨fun p c => ?_, Adjacency.nodup_foldl_unlink _ h.children id, fun c => ?_⟩
  · rw [mem_children_purge h, hparents, h.mirror]
    by_cases hc : c = id <;> simp [hc]
  · rw [hparents]
    split
    · exact List.nodup_nil
    · exact h.parents c

theorem Mirrored.without (h : t.Mirrored) (id : ObjectId) : (t.without id).Mirrored :=
  (h.detach id).purge id

/-! ## Edges -/

theorem contains_add_iff (t : Ownership) (p c p' c' : ObjectId) :
    (t.add p c).2.contains p' c' ↔ (p' = p ∧ c' = c) ∨ t.contains p' c' := by
  unfold add
  split
  next hold =>
    simp only [iff_or_self]
    rintro ⟨rfl, rfl⟩
    exact hold
  next =>
    rw [contains_iff, contains_iff]
    exact Adjacency.mem_link t.outgoing p c p' c'

theorem contains_remove_iff (h : t.Mirrored) (p c p' c' : ObjectId) :
    (t.remove p c).2.contains p' c' ↔ ¬ (p' = p ∧ c' = c) ∧ t.contains p' c' := by
  unfold remove
  split
  next =>
    rw [contains_iff, contains_iff]
    exact Adjacency.mem_unlink (t := t.outgoing) h.children p c p' c'
  next hnot =>
    refine ⟨fun hc => ⟨?_, hc⟩, fun hc => hc.2⟩
    rintro ⟨rfl, rfl⟩
    exact hnot hc

theorem contains_without_iff (h : t.Mirrored) (id p c : ObjectId) :
    (t.without id).contains p c ↔ p ≠ id ∧ c ≠ id ∧ t.contains p c := by
  have hdetach : (t.detach id).2.children p = if p = id then [] else t.children p :=
    Adjacency.partners_erase t.outgoing id p
  rw [contains_iff, contains_iff, without, mem_children_purge (h.detach id), hdetach]
  by_cases hp : p = id <;> simp [hp]

theorem contains_without_of_ne (t : Ownership) {id : ObjectId} (hp : p ≠ id) (hc : c ≠ id) :
    (t.without id).contains p c ↔ t.contains p c := by
  have hpurge : ∀ t : Ownership, c ∈ (t.purge id).children p ↔ c ∈ t.children p := fun t =>
    Adjacency.mem_foldl_unlink_of_ne (t.parents id) t.outgoing hc
  have hdetach : (t.detach id).2.children p = t.children p :=
    (Adjacency.partners_erase t.outgoing id p).trans (if_neg hp)
  rw [contains_iff, contains_iff, without, hpurge, hdetach]

theorem not_contains_without_left (t : Ownership) : ¬ (t.without p).contains p c := by
  have hpurge : ∀ t : Ownership, c ∈ (t.purge p).children p → c ∈ t.children p := fun t =>
    Adjacency.mem_of_foldl_unlink (t.parents p) t.outgoing
  have hdetach : (t.detach p).2.children p = [] :=
    (Adjacency.partners_erase t.outgoing p p).trans (if_pos rfl)
  intro hc
  have hmem := hpurge _ (contains_iff.1 hc)
  rw [hdetach] at hmem
  cases hmem

theorem contains_of_without {id : ObjectId} (h : (t.without id).contains p c) :
    t.contains p c := by
  have hmem := Adjacency.mem_of_foldl_unlink _ _ (contains_iff.1 h)
  have hdetach : (t.detach id).2.children p = if p = id then [] else t.children p :=
    Adjacency.partners_erase t.outgoing id p
  change c ∈ (t.detach id).2.children p at hmem
  rw [hdetach] at hmem
  split at hmem
  · cases hmem
  · exact contains_iff.2 hmem

end Ownership
end ScriptBridge
