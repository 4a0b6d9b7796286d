import ScriptBridge.Host.Collector
import Mathlib.Data.List.Nodup

/-! # Slots and names

What the operations of the heap do to the objects that names find.

* `Heap.WellFormed`: the vacant list holds empty slots, each once. Every operation keeps it.
* `Heap.WellFormed.get?_allocate_of_ne`, `Heap.get?_update`, `Heap.get?_freeAll` say which object a
  name finds afterwards.
* `Heap.NamesLast`: the names have not run out. Then the name of a new object is not `Issued` yet,
  and it finds that object: `Heap.WellFormed.not_issued_allocate`,
  `Heap.WellFormed.get?_allocate_self`.
* `Heap.Grows`: slots and their counts of frees are never taken back.
-/

namespace ScriptBridge.Heap
set_option autoImplicit false

/-! ## Finding -/

theorem get?_eq_some_iff {h : Heap} {id : ObjectId} {e : LiveObject} :
    h.get? id = some e ↔ ∃ slot, h.slots[id.index.toNat]? = some slot ∧
      slot.generation = id.generation ∧ slot.entry = some e := by
  unfold get?
  cases h.slots[id.index.toNat]? with
  | none => simp
  | some slot => by_cases hg : slot.generation = id.generation <;> simp [hg]

theorem contains_iff {h : Heap} {id : ObjectId} : h.contains id ↔ ∃ e, h.get? id = some e :=
  Option.isSome_iff_exists

theorem contains_of_get? {h : Heap} {id : ObjectId} {e : LiveObject} (he : h.get? id = some e) :
    h.contains id :=
  contains_iff.2 ⟨e, he⟩

theorem generation_ne {slot : Slot} {a b : ObjectId} (hg : slot.generation = a.generation)
    (hi : a.index = b.index) (hne : b ≠ a) : slot.generation ≠ b.generation := by
  intro hg'
  apply hne
  cases a
  cases b
  simp_all

/-- A slot holds one object at most. -/
theorem eq_of_index_eq {h : Heap} {a b : ObjectId} (ha : h.contains a) (hb : h.contains b)
    (hi : a.index = b.index) : a = b := by
  obtain ⟨e, he⟩ := contains_iff.1 ha
  obtain ⟨f, hf⟩ := contains_iff.1 hb
  obtain ⟨slot, hs, hg, -⟩ := get?_eq_some_iff.1 he
  obtain ⟨slot', hs', hg', -⟩ := get?_eq_some_iff.1 hf
  rw [← hi, hs] at hs'
  obtain rfl := Option.some.inj hs'
  by_contra hne
  exact generation_ne hg hi (Ne.symm hne) hg'

theorem mem_ids_of_contains {h : Heap} {id : ObjectId} (hc : h.contains id) : id ∈ h.ids := by
  obtain ⟨e, he⟩ := contains_iff.1 hc
  obtain ⟨slot, hs, hg, hentry⟩ := get?_eq_some_iff.1 he
  refine List.mem_filterMap.2 ⟨id.index.toNat, ?_, ?_⟩
  · exact List.mem_range.2 (Array.getElem?_eq_some_iff.1 hs).1
  · simp [idAt, hs, hentry, hg]

/-- There are no more objects than slots. -/
theorem length_le_of_contains {h : Heap} {l : List ObjectId} (hn : l.Nodup)
    (hl : ∀ id ∈ l, h.contains id) : l.length ≤ h.slots.size := by
  have hmap : (l.map fun id => id.index.toNat).Nodup := by
    refine List.Nodup.map_on (fun a ha b hb hab => ?_) hn
    exact eq_of_index_eq (hl a ha) (hl b hb) (UInt32.toNat_inj.1 hab)
  have hsub : (l.map fun id => id.index.toNat) ⊆ List.range h.slots.size := by
    intro i hi
    obtain ⟨id, hid, rfl⟩ := List.mem_map.1 hi
    obtain ⟨e, he⟩ := contains_iff.1 (hl id hid)
    obtain ⟨slot, hs, -⟩ := get?_eq_some_iff.1 he
    exact List.mem_range.2 (Array.getElem?_eq_some_iff.1 hs).1
  simpa using List.Nodup.length_le_of_subset hmap hsub

/-! ## Well-formed heaps -/

/-- The vacant list names empty slots, each once. -/
structure WellFormed (h : Heap) : Prop where
  empty : ∀ i ∈ h.vacant, ∃ slot, h.slots[i.toNat]? = some slot ∧ slot.entry = none
  nodup : h.vacant.Nodup

theorem wellFormed_empty : WellFormed {} := ⟨by simp, List.nodup_nil⟩

/-- No slot goes away, and no count of frees goes back. -/
structure Grows (h h' : Heap) : Prop where
  size_le : h.slots.size ≤ h'.slots.size
  freed_le : ∀ (i : Nat) (slot : Slot), h.slots[i]? = some slot →
    ∃ slot' : Slot, h'.slots[i]? = some slot' ∧ slot.freed ≤ slot'.freed

theorem Grows.refl (h : Heap) : h.Grows h :=
  ⟨Nat.le_refl _, fun _ slot hs => ⟨slot, hs, Nat.le_refl _⟩⟩

theorem Grows.trans {h₁ h₂ h₃ : Heap} (h : h₁.Grows h₂) (h' : h₂.Grows h₃) : h₁.Grows h₃ := by
  refine ⟨Nat.le_trans h.size_le h'.size_le, fun i slot hs => ?_⟩
  obtain ⟨slot₂, hs₂, hle⟩ := h.freed_le i slot hs
  obtain ⟨slot₃, hs₃, hle'⟩ := h'.freed_le i slot₂ hs₂
  exact ⟨slot₃, hs₃, Nat.le_trans hle hle'⟩

/-- The number of every slot has 32 bits. -/
def Addressable (h : Heap) : Prop := h.slots.size ≤ UInt32.size

theorem Addressable.of_grows {h h' : Heap} (ha : h'.Addressable) (hg : h.Grows h') :
    h.Addressable :=
  Nat.le_trans hg.size_le ha

theorem Addressable.size_lt {h : Heap} {slot : Slot} {vacant : List UInt32} {live : Nat}
    (ha : Addressable ⟨h.slots.push slot, vacant, live⟩) : h.slots.size < UInt32.size := by
  have hsize : (h.slots.push slot).size ≤ UInt32.size := ha
  rw [Array.size_push] at hsize
  exact hsize

/-- The names have not run out: the number of every slot has 32 bits, and no slot was freed 2^32
times. -/
structure NamesLast (h : Heap) : Prop where
  slots : h.slots.size ≤ UInt32.size
  frees : ∀ slot ∈ h.slots, slot.freed < UInt32.size

theorem NamesLast.of_grows {h h' : Heap} (hl : h'.NamesLast) (hg : h.Grows h') : h.NamesLast := by
  refine ⟨Nat.le_trans hg.size_le hl.slots, fun slot hslot => ?_⟩
  obtain ⟨i, hi⟩ := Array.mem_iff_getElem?.1 hslot
  obtain ⟨slot', hs', hle⟩ := hg.freed_le i slot hi
  exact Nat.lt_of_le_of_lt hle (hl.frees slot' (Array.mem_iff_getElem?.2 ⟨i, hs'⟩))

theorem NamesLast.toNat_generation {h : Heap} (hl : h.NamesLast) {i : Nat} {slot : Slot}
    (hs : h.slots[i]? = some slot) : slot.generation.toNat = slot.freed :=
  Nat.mod_eq_of_lt (hl.frees slot (Array.mem_iff_getElem?.2 ⟨i, hs⟩))

theorem NamesLast.addressable {h : Heap} (hl : h.NamesLast) : h.Addressable := hl.slots

/-- The name was given to an object at some time, as far as counting tells. -/
def Issued (h : Heap) (id : ObjectId) : Prop :=
  ∃ slot, h.slots[id.index.toNat]? = some slot ∧
    (id.generation.toNat < slot.freed ∨
      id.generation.toNat = slot.freed ∧ slot.entry.isSome)

theorem NamesLast.issued {h : Heap} (hl : h.NamesLast) {id : ObjectId} (hc : h.contains id) :
    h.Issued id := by
  obtain ⟨e, he⟩ := contains_iff.1 hc
  obtain ⟨slot, hs, hg, hentry⟩ := get?_eq_some_iff.1 he
  exact ⟨slot, hs, .inr ⟨by rw [← hg, hl.toNat_generation hs], by simp [hentry]⟩⟩

/-! ## Allocating -/

variable {h : Heap}

/-- What allocation does to the slots: it fills an empty one, whose number is the one in the new
name, or adds one. -/
theorem WellFormed.allocate_cases (hw : h.WellFormed) (object : HeapObject) :
    (∃ i rest slot, h.vacant = i :: rest ∧ h.slots[i.toNat]? = some slot ∧ slot.entry = none ∧
      h.allocate object = (⟨i, slot.generation⟩,
        { slots := h.slots.modify i.toNat fun slot => { slot with entry := some { object } }
          vacant := rest
          live := h.live + 1 })) ∨
    (h.vacant = [] ∧ h.allocate object = (⟨UInt32.ofNat h.slots.size, 0⟩,
      { slots := h.slots.push ⟨0, some { object }⟩, vacant := [], live := h.live + 1 })) := by
  cases hv : h.vacant with
  | nil => exact .inr ⟨rfl, by simp [allocate, hv]⟩
  | cons i rest =>
    obtain ⟨slot, hs, he⟩ := hw.empty i (by simp [hv])
    exact .inl ⟨i, rest, slot, rfl, hs, he, by simp [allocate, hv, hs]⟩

theorem WellFormed.allocate (hw : h.WellFormed) (object : HeapObject) :
    (h.allocate object).2.WellFormed := by
  rcases hw.allocate_cases object with ⟨i, rest, slot, hv, hs, he, heq⟩ | ⟨hv, heq⟩ <;> rw [heq]
  · have hn := hw.nodup
    rw [hv, List.nodup_cons] at hn
    refine ⟨fun j hj => ?_, hn.2⟩
    obtain ⟨slot', hs', he'⟩ := hw.empty j (by simp [hv, hj])
    have hij : i.toNat ≠ j.toNat := fun heq => hn.1 (UInt32.toNat_inj.1 heq ▸ hj)
    exact ⟨slot', by simpa [Array.getElem?_modify, hij] using hs', he'⟩
  · exact ⟨by simp, List.nodup_nil⟩

theorem WellFormed.grows_allocate (hw : h.WellFormed) (object : HeapObject) :
    h.Grows (h.allocate object).2 := by
  rcases hw.allocate_cases object with ⟨i, rest, slot, hv, hs, he, heq⟩ | ⟨hv, heq⟩ <;> rw [heq]
  · refine ⟨by simp, fun j slot' hs' => ?_⟩
    by_cases hij : i.toNat = j <;> simp [Array.getElem?_modify, hij, hs']
  · refine ⟨by simp, fun j slot' hs' => ⟨slot', ?_, Nat.le_refl _⟩⟩
    have hj : j < h.slots.size := (Array.getElem?_eq_some_iff.1 hs').1
    simp [Array.getElem?_push, hs', Nat.ne_of_lt hj]

/-- Allocation takes no object away. -/
theorem WellFormed.get?_allocate_of_some (hw : h.WellFormed) (object : HeapObject) {id : ObjectId}
    {e : LiveObject} (hid : h.get? id = some e) : (h.allocate object).2.get? id = some e := by
  obtain ⟨slot', hs', hg, hentry⟩ := get?_eq_some_iff.1 hid
  rcases hw.allocate_cases object with ⟨i, rest, slot, hv, hs, he, heq⟩ | ⟨hv, heq⟩ <;> rw [heq]
  · have hij : i.toNat ≠ id.index.toNat := by
      intro hij
      rw [hij, hs'] at hs
      obtain rfl := Option.some.inj hs
      simp [he] at hentry
    exact get?_eq_some_iff.2 ⟨slot', by simpa [Array.getElem?_modify, hij] using hs', hg, hentry⟩
  · have hj : id.index.toNat < h.slots.size := (Array.getElem?_eq_some_iff.1 hs').1
    have hpush : (h.slots.push ⟨0, some ⟨object, {}, []⟩⟩)[id.index.toNat]? = some slot' := by
      simp [Array.getElem?_push, hs', Nat.ne_of_lt hj]
    exact get?_eq_some_iff.2 ⟨slot', hpush, hg, hentry⟩

/-- Nothing but the new name comes to find an object. -/
theorem WellFormed.get?_allocate_of_ne (hw : h.WellFormed) (object : HeapObject)
    {id : ObjectId} (hid : id ≠ (h.allocate object).1) :
    (h.allocate object).2.get? id = h.get? id := by
  rcases hw.allocate_cases object with ⟨i, rest, slot, hv, hs, he, heq⟩ | ⟨hv, heq⟩ <;>
    rw [heq] at hid ⊢
  · by_cases hij : i.toNat = id.index.toNat
    · have hg : slot.generation ≠ id.generation :=
        generation_ne rfl (UInt32.toNat_inj.1 hij) hid
      rw [hij] at hs
      have hg' : ({ slot with entry := some { object } } : Slot).generation ≠ id.generation := hg
      simp [get?, Array.getElem?_modify, hij, hs, hg, hg']
    · simp [get?, Array.getElem?_modify, hij]
  · by_cases hj : id.index.toNat = h.slots.size
    · have hg : id.generation ≠ 0 := by
        intro hg
        apply hid
        rw [← hj, UInt32.ofNat_toNat, ← hg]
      simp [get?, hj, Slot.generation, hg.symm]
    · simp [get?, Array.getElem?_push, hj]

/-- What is found after an allocation was there, or it is the new object, where nothing was. -/
theorem WellFormed.get?_allocate_cases (hw : h.WellFormed) {object : HeapObject} {id : ObjectId}
    {e : LiveObject} (hid : (h.allocate object).2.get? id = some e) :
    h.get? id = some e ∨ h.get? id = none ∧ e = { object } := by
  obtain ⟨slot', hs', hg, hentry⟩ := get?_eq_some_iff.1 hid
  rcases hw.allocate_cases object with ⟨i, rest, slot, hv, hs, he, heq⟩ | ⟨hv, heq⟩ <;>
    rw [heq] at hs'
  · by_cases hij : i.toNat = id.index.toNat
    · rw [hij] at hs
      simp only [Array.getElem?_modify, hij, hs, if_true, Option.map_some, Option.some.injEq] at hs'
      subst hs'
      exact .inr ⟨by simp [get?, hs, he], (Option.some.inj hentry).symm⟩
    · simp only [Array.getElem?_modify, hij, if_false] at hs'
      exact .inl (get?_eq_some_iff.2 ⟨slot', hs', hg, hentry⟩)
  · by_cases hj : id.index.toNat = h.slots.size
    · simp only [Array.getElem?_push, hj, if_true, Option.some.injEq] at hs'
      subst hs'
      exact .inr ⟨by simp [get?, hj], (Option.some.inj hentry).symm⟩
    · simp only [Array.getElem?_push, hj, if_false] at hs'
      exact .inl (get?_eq_some_iff.2 ⟨slot', hs', hg, hentry⟩)

theorem WellFormed.get?_allocate_self (hw : h.WellFormed) (object : HeapObject)
    (ha : (h.allocate object).2.Addressable) :
    (h.allocate object).2.get? (h.allocate object).1 = some { object } := by
  rcases hw.allocate_cases object with ⟨i, rest, slot, hv, hs, he, heq⟩ | ⟨hv, heq⟩ <;>
    rw [heq] at ha ⊢
  · simp [get?, Array.getElem?_modify, hs, Slot.generation]
  · have hlt : h.slots.size < UInt32.size := Addressable.size_lt ha
    simp only [get?, UInt32.toNat_ofNat_of_lt' hlt, Array.getElem?_push_size]
    rfl

/-- A new object gets the name of no object that is there. -/
theorem WellFormed.get?_allocate_new (hw : h.WellFormed) (object : HeapObject)
    (ha : (h.allocate object).2.Addressable) : h.get? (h.allocate object).1 = none := by
  rcases hw.allocate_cases object with ⟨i, rest, slot, hv, hs, he, heq⟩ | ⟨hv, heq⟩ <;>
    rw [heq] at ha ⊢
  · simp [get?, hs, he]
  · have hlt : h.slots.size < UInt32.size := Addressable.size_lt ha
    simp [get?, UInt32.toNat_ofNat_of_lt' hlt]

/-- As long as names last, a new object gets a name that no object had before. -/
theorem WellFormed.not_issued_allocate (hw : h.WellFormed) (object : HeapObject)
    (hl : (h.allocate object).2.NamesLast) : ¬ h.Issued (h.allocate object).1 := by
  have hl' : h.NamesLast := hl.of_grows (hw.grows_allocate object)
  rintro ⟨slot', hs', hissued⟩
  rcases hw.allocate_cases object with ⟨i, rest, slot, hv, hs, he, heq⟩ | ⟨hv, heq⟩ <;>
    rw [heq] at hs' hissued hl
  · rw [hs] at hs'
    obtain rfl := Option.some.inj hs'
    rw [hl'.toNat_generation hs, he] at hissued
    simp at hissued
  · have hlt : h.slots.size < UInt32.size := hl.addressable.size_lt
    rw [UInt32.toNat_ofNat_of_lt' hlt, Array.getElem?_eq_none (Nat.le_refl _)] at hs'
    cases hs'

theorem WellFormed.ne_allocate (hw : h.WellFormed) (object : HeapObject)
    (hl : (h.allocate object).2.NamesLast) {id : ObjectId} (hc : h.contains id) :
    id ≠ (h.allocate object).1 := by
  rintro rfl
  exact hw.not_issued_allocate object hl ((hl.of_grows (hw.grows_allocate object)).issued hc)

theorem WellFormed.issued_allocate (hw : h.WellFormed) (object : HeapObject) {id : ObjectId}
    (hi : h.Issued id) : (h.allocate object).2.Issued id := by
  obtain ⟨slot', hs', hissued⟩ := hi
  rcases hw.allocate_cases object with ⟨i, rest, slot, hv, hs, he, heq⟩ | ⟨hv, heq⟩ <;> rw [heq]
  · by_cases hij : i.toNat = id.index.toNat
    · exact ⟨{ slot' with entry := some { object } }, by simp [Array.getElem?_modify, hij, hs'],
        hissued.imp_right fun hold => ⟨hold.1, rfl⟩⟩
    · exact ⟨slot', by simp [Array.getElem?_modify, hij, hs'], hissued⟩
  · have hj : id.index.toNat < h.slots.size := (Array.getElem?_eq_some_iff.1 hs').1
    exact ⟨slot', by simp [Array.getElem?_push, hs', Nat.ne_of_lt hj], hissued⟩

/-! ## Changing in place -/

theorem update_eq_ok {h' : Heap} {id : ObjectId} {f : LiveObject → LiveObject}
    (hu : h.update id f = .ok h') : h.contains id ∧
      h' = { h with slots := h.slots.modify id.index.toNat fun slot =>
        { slot with entry := slot.entry.map f } } := by
  unfold update at hu
  split at hu
  · exact ⟨‹_›, (Except.ok.inj hu).symm⟩
  · cases hu

theorem get?_update {h' : Heap} {id : ObjectId} {f : LiveObject → LiveObject}
    (hu : h.update id f = .ok h') (id' : ObjectId) :
    h'.get? id' = if id' = id then (h.get? id').map f else h.get? id' := by
  obtain ⟨hc, rfl⟩ := update_eq_ok hu
  obtain ⟨e, he⟩ := contains_iff.1 hc
  obtain ⟨slot, hs, hg, hentry⟩ := get?_eq_some_iff.1 he
  by_cases hij : id.index.toNat = id'.index.toNat
  · rw [hij] at hs
    by_cases hid : id' = id
    · subst hid
      simp [get?, Array.getElem?_modify, hs, Slot.generation] at hg ⊢
      simp [hg]
    · have hg' := generation_ne hg (UInt32.toNat_inj.1 hij) hid
      simp only [Slot.generation] at hg'
      simp [get?, Array.getElem?_modify, hij, hs, hg', hid, Slot.generation]
  · have hid : id' ≠ id := fun heq => hij (heq ▸ rfl)
    simp [get?, Array.getElem?_modify, hij, hid]

theorem contains_update {h' : Heap} {id : ObjectId} {f : LiveObject → LiveObject}
    (hu : h.update id f = .ok h') (id' : ObjectId) : h'.contains id' = h.contains id' := by
  rw [contains, contains, get?_update hu]
  split
  · exact Option.isSome_map
  · rfl

theorem WellFormed.update {h' : Heap} (hw : h.WellFormed) {id : ObjectId}
    {f : LiveObject → LiveObject} (hu : h.update id f = .ok h') : h'.WellFormed := by
  obtain ⟨-, rfl⟩ := update_eq_ok hu
  refine ⟨fun i hi => ?_, hw.nodup⟩
  obtain ⟨slot, hs, he⟩ := hw.empty i hi
  by_cases hij : id.index.toNat = i.toNat <;> simp [Array.getElem?_modify, hij, hs, he]

theorem grows_update {h' : Heap} {id : ObjectId} {f : LiveObject → LiveObject}
    (hu : h.update id f = .ok h') : h.Grows h' := by
  obtain ⟨-, rfl⟩ := update_eq_ok hu
  refine ⟨by simp, fun i slot hs => ?_⟩
  by_cases hij : id.index.toNat = i <;> simp [Array.getElem?_modify, hij, hs]

theorem issued_update {h' : Heap} {id id' : ObjectId} {f : LiveObject → LiveObject}
    (hu : h.update id f = .ok h') (hi : h.Issued id') : h'.Issued id' := by
  obtain ⟨-, rfl⟩ := update_eq_ok hu
  obtain ⟨slot, hs, hissued⟩ := hi
  by_cases hij : id.index.toNat = id'.index.toNat
  · exact ⟨{ slot with entry := slot.entry.map f }, by simp [Array.getElem?_modify, hij, hs],
      by simpa using hissued⟩
  · exact ⟨slot, by simp [Array.getElem?_modify, hij, hs], hissued⟩

/-! ## Freeing -/

theorem free?_eq_some {h' : Heap} {id : ObjectId} {e : LiveObject}
    (hf : h.free? id = some (e, h')) : h.get? id = some e ∧
      h' = { slots := h.slots.modify id.index.toNat fun slot => ⟨slot.freed + 1, none⟩
             vacant := id.index :: h.vacant
             live := h.live - 1 } := by
  unfold free? at hf
  obtain ⟨e', he', heq⟩ := Option.map_eq_some_iff.1 hf
  obtain ⟨rfl, rfl⟩ := Prod.mk.inj heq
  exact ⟨he', rfl⟩

theorem get?_free {h' : Heap} {id : ObjectId} {e : LiveObject} (hf : h.free? id = some (e, h'))
    (id' : ObjectId) : h'.get? id' = if id' = id then none else h.get? id' := by
  obtain ⟨he, rfl⟩ := free?_eq_some hf
  obtain ⟨slot, hs, hg, hentry⟩ := get?_eq_some_iff.1 he
  by_cases hij : id.index.toNat = id'.index.toNat
  · rw [hij] at hs
    by_cases hid : id' = id
    · simp [get?, Array.getElem?_modify, hij, hs, hid]
    · have hg' := generation_ne hg (UInt32.toNat_inj.1 hij) hid
      simp [get?, Array.getElem?_modify, hij, hs, hg', hid]
  · have hid : id' ≠ id := fun heq => hij (heq ▸ rfl)
    simp [get?, Array.getElem?_modify, hij, hid]

theorem WellFormed.free {h' : Heap} (hw : h.WellFormed) {id : ObjectId} {e : LiveObject}
    (hf : h.free? id = some (e, h')) : h'.WellFormed := by
  obtain ⟨he, rfl⟩ := free?_eq_some hf
  obtain ⟨slot, hs, -, hentry⟩ := get?_eq_some_iff.1 he
  have hfresh : id.index ∉ h.vacant := by
    intro hmem
    obtain ⟨slot', hs', he'⟩ := hw.empty _ hmem
    simp_all
  refine ⟨fun i hi => ?_, List.nodup_cons.2 ⟨hfresh, hw.nodup⟩⟩
  rcases List.mem_cons.1 hi with rfl | hi
  · exact ⟨⟨slot.freed + 1, none⟩, by simp [Array.getElem?_modify, hs], rfl⟩
  · obtain ⟨slot', hs', he'⟩ := hw.empty i hi
    have hij : id.index.toNat ≠ i.toNat := fun heq => hfresh (UInt32.toNat_inj.1 heq ▸ hi)
    exact ⟨slot', by simp [Array.getElem?_modify, hij, hs'], he'⟩

theorem grows_free {h' : Heap} {id : ObjectId} {e : LiveObject} (hf : h.free? id = some (e, h')) :
    h.Grows h' := by
  obtain ⟨-, rfl⟩ := free?_eq_some hf
  refine ⟨by simp, fun i slot hs => ?_⟩
  by_cases hij : id.index.toNat = i <;> simp [Array.getElem?_modify, hij, hs]

theorem issued_free {h' : Heap} {id id' : ObjectId} {e : LiveObject}
    (hf : h.free? id = some (e, h')) (hi : h.Issued id') : h'.Issued id' := by
  obtain ⟨-, rfl⟩ := free?_eq_some hf
  obtain ⟨slot, hs, hissued⟩ := hi
  by_cases hij : id.index.toNat = id'.index.toNat
  · exact ⟨⟨slot.freed + 1, none⟩, by simp [Array.getElem?_modify, hij, hs], .inl (by grind)⟩
  · exact ⟨slot, by simp [Array.getElem?_modify, hij, hs], hissued⟩

/-! ## Freeing many -/

theorem freeAll_nil (h : Heap) : h.freeAll [] = ([], h) := rfl

theorem freeAll_cons_of_none {id : ObjectId} {rest : List ObjectId} (hf : h.free? id = none) :
    h.freeAll (id :: rest) = h.freeAll rest := by
  simp [freeAll, hf]

theorem freeAll_cons_of_some {h' : Heap} {id : ObjectId} {rest : List ObjectId} {e : LiveObject}
    (hf : h.free? id = some (e, h')) :
    h.freeAll (id :: rest) = ((id, e) :: (h'.freeAll rest).1, (h'.freeAll rest).2) := by
  simp [freeAll, hf]

theorem free?_eq_none_iff {id : ObjectId} : h.free? id = none ↔ h.get? id = none := by
  simp [free?]

theorem get?_freeAll (h : Heap) (l : List ObjectId) (id : ObjectId) :
    (h.freeAll l).2.get? id = if id ∈ l then none else h.get? id := by
  induction l generalizing h with
  | nil => simp [freeAll_nil]
  | cons a rest ih =>
    cases hf : h.free? a with
    | none =>
      rw [freeAll_cons_of_none hf, ih]
      have ha := free?_eq_none_iff.1 hf
      by_cases hid : id = a <;> simp [hid, ha]
    | some r =>
      obtain ⟨e, h'⟩ := r
      rw [freeAll_cons_of_some hf, ih, get?_free hf]
      by_cases hid : id = a <;> simp [hid]

/-- What is handed out keeps the order of the list. -/
theorem sublist_freeAll (h : Heap) (l : List ObjectId) :
    ((h.freeAll l).1.map Prod.fst).Sublist l := by
  induction l generalizing h with
  | nil => exact List.nil_sublist []
  | cons id rest ih =>
    cases hf : h.free? id with
    | none =>
      rw [freeAll_cons_of_none hf]
      exact (ih h).cons id
    | some r =>
      rw [freeAll_cons_of_some (e := r.1) hf]
      exact (ih r.2).cons_cons id

/-- What is handed out are the objects of the list that were live, each once. -/
theorem mem_freeAll (h : Heap) (l : List ObjectId) (id : ObjectId) :
    id ∈ (h.freeAll l).1.map Prod.fst ↔ id ∈ l ∧ h.contains id := by
  induction l generalizing h with
  | nil => simp [freeAll_nil]
  | cons a rest ih =>
    cases hf : h.free? a with
    | none =>
      rw [freeAll_cons_of_none hf, ih]
      have ha := free?_eq_none_iff.1 hf
      by_cases hid : id = a <;> simp [hid, ha, contains]
    | some r =>
      obtain ⟨e, h'⟩ := r
      rw [freeAll_cons_of_some hf, List.map_cons, List.mem_cons, ih, contains, get?_free hf]
      have ha := (free?_eq_some hf).1
      by_cases hid : id = a <;> simp [hid, ha, contains]

theorem nodup_freeAll (h : Heap) (l : List ObjectId) : ((h.freeAll l).1.map Prod.fst).Nodup := by
  induction l generalizing h with
  | nil => simp [freeAll_nil]
  | cons a rest ih =>
    cases hf : h.free? a with
    | none =>
      rw [freeAll_cons_of_none hf]
      exact ih h
    | some r =>
      obtain ⟨e, h'⟩ := r
      rw [freeAll_cons_of_some hf, List.map_cons, List.nodup_cons, mem_freeAll, contains,
        get?_free hf]
      exact ⟨by simp, ih h'⟩

/-- If nothing was live, nothing has changed. -/
theorem freeAll_of_nil (h : Heap) (l : List ObjectId) (hnil : (h.freeAll l).1 = []) :
    (h.freeAll l).2 = h := by
  induction l with
  | nil => rfl
  | cons a rest ih =>
    cases hf : h.free? a with
    | none =>
      rw [freeAll_cons_of_none hf] at hnil ⊢
      exact ih hnil
    | some r =>
      obtain ⟨e, h'⟩ := r
      rw [freeAll_cons_of_some hf] at hnil
      cases hnil

/-- What one free keeps and every free keeps holds after freeing many. -/
theorem freeAll_induction {P : Heap → Prop} (hP : ∀ {h h' : Heap} {id : ObjectId} {e : LiveObject},
    h.free? id = some (e, h') → P h → P h') (l : List ObjectId) (h : Heap) (hh : P h) :
    P (h.freeAll l).2 := by
  induction l generalizing h with
  | nil => exact hh
  | cons a rest ih =>
    cases hf : h.free? a with
    | none =>
      rw [freeAll_cons_of_none hf]
      exact ih h hh
    | some r =>
      obtain ⟨e, h'⟩ := r
      rw [freeAll_cons_of_some hf]
      exact ih h' (hP hf hh)

theorem WellFormed.freeAll (hw : h.WellFormed) (l : List ObjectId) : (h.freeAll l).2.WellFormed :=
  freeAll_induction (fun hf hw => hw.free hf) l h hw

theorem grows_freeAll (h : Heap) (l : List ObjectId) : h.Grows (h.freeAll l).2 :=
  freeAll_induction (fun hf hg => hg.trans (grows_free hf)) l h (.refl h)

theorem issued_freeAll {id : ObjectId} (hi : h.Issued id) (l : List ObjectId) :
    (h.freeAll l).2.Issued id :=
  freeAll_induction (fun hf hi => issued_free hf hi) l h hi

end ScriptBridge.Heap
