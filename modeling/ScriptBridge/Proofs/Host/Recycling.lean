import ScriptBridge.Proofs.Host.Slots
import Mathlib.Data.Nat.ModEq

/-! # Slots that are used again

A heap that is used for long gives one slot to many objects. What a call comes to is a `HeapEvent`,
and the log of all events tells what every slot went through, without a look at the heap.

* `SlotRecord` counts how often a slot was given to an object and how often it was freed, and has
  the object that is in it.
* `Heap.Exact` says that the vacant list and the count of live objects are right, `Heap.Recorded`
  that the slots and the names are what the log says. Every call keeps both.
* `Heap.names_count_allocations` is what follows after any calls: the generation in a name is the
  number of the allocation, as far as 32 bits go, and a name finds its object as long as it is that
  of the last allocation in its slot.
-/

namespace ScriptBridge
set_option autoImplicit false

/-- A call that changes a heap. -/
inductive HeapCall where
  | allocate (object : HeapObject)
  | free (id : ObjectId)
  | update (id : ObjectId) (f : LiveObject → LiveObject)

/-- A call that was not refused, with the name of the object that it was about. -/
inductive HeapEvent where
  | allocated (id : ObjectId) (object : HeapObject)
  | freed (id : ObjectId)
  | updated (id : ObjectId) (f : LiveObject → LiveObject)

namespace HeapEvent

def id : HeapEvent → ObjectId
  | allocated id _ => id
  | freed id => id
  | updated id _ => id

/-- The number of the slot in which the event happened. -/
def slot (e : HeapEvent) : Nat := e.id.index.toNat

/-- The name that a new object was given. -/
def given? : HeapEvent → Option ObjectId
  | allocated id _ => some id
  | _ => none

end HeapEvent

/-! ## The log -/

/-- What a slot went through. -/
structure SlotRecord where
  /-- How many objects were put into it. -/
  allocations : Nat := 0
  frees : Nat := 0
  /-- The object that is in it, as it has become. -/
  entry : Option LiveObject := none

def SlotRecord.next (r : SlotRecord) : HeapEvent → SlotRecord
  | .allocated _ object => { r with allocations := r.allocations + 1, entry := some { object } }
  | .freed _ => { r with frees := r.frees + 1, entry := none }
  | .updated _ f => { r with entry := r.entry.map f }

/-- What the slot of a number went through according to a log. -/
def slotRecord (log : List HeapEvent) (i : Nat) : SlotRecord :=
  log.foldl (fun r e => if e.slot = i then r.next e else r) {}

/-- The names that were given, the oldest first. -/
def namesGiven (log : List HeapEvent) : List ObjectId := log.filterMap HeapEvent.given?

theorem slotRecord_concat (log : List HeapEvent) (e : HeapEvent) (i : Nat) :
    slotRecord (log ++ [e]) i =
      if e.slot = i then (slotRecord log i).next e else slotRecord log i := by
  simp [slotRecord]

theorem slotRecord_concat_self (log : List HeapEvent) {e : HeapEvent} {i : Nat} (hi : e.slot = i) :
    slotRecord (log ++ [e]) i = (slotRecord log i).next e := by
  rw [slotRecord_concat, if_pos hi]

/-- No count of a slot goes back. -/
theorem slotRecord_le_concat (log : List HeapEvent) (e : HeapEvent) (i : Nat) :
    (slotRecord log i).allocations ≤ (slotRecord (log ++ [e]) i).allocations ∧
      (slotRecord log i).frees ≤ (slotRecord (log ++ [e]) i).frees := by
  rw [slotRecord_concat]
  split
  · cases e <;> simp [SlotRecord.next]
  · exact ⟨Nat.le_refl _, Nat.le_refl _⟩

theorem namesGiven_concat (log : List HeapEvent) (e : HeapEvent) :
    namesGiven (log ++ [e]) = namesGiven log ++ e.given?.toList := by
  cases h : e.given? <;> simp [namesGiven, h]

namespace Heap

/-- What a call makes of a heap; nothing, if it is refused. -/
def call (h : Heap) : HeapCall → Heap
  | .allocate object => (h.allocate object).2
  | .free id => match h.free? id with
    | some (_, h) => h
    | none => h
  | .update id f => match h.update id f with
    | .ok h => h
    | .error _ => h

def answer (h : Heap) : HeapCall → Option HeapEvent
  | .allocate object => some (.allocated (h.allocate object).1 object)
  | .free id => (h.free? id).map fun _ => .freed id
  | .update id f => match h.update id f with
    | .ok _ => some (.updated id f)
    | .error _ => none

def callAll (h : Heap) : List HeapCall → Heap
  | [] => h
  | c :: rest => (h.call c).callAll rest

/-- The object in the slot of a number. -/
def entryAt? (h : Heap) (i : Nat) : Option LiveObject := h.slots[i]?.bind (·.entry)

/-- The events of some calls, the oldest first. -/
def log (h : Heap) : List HeapCall → List HeapEvent
  | [] => []
  | c :: rest => (h.answer c).toList ++ (h.call c).log rest

/-! ## One call -/

variable {h h' : Heap} {c : HeapCall}

/-- What a call does: it allocates, frees or updates, or it changes nothing. -/
theorem call_cases (h : Heap) (c : HeapCall) :
    (∃ object, c = .allocate object ∧ h.call c = (h.allocate object).2 ∧
      h.answer c = some (.allocated (h.allocate object).1 object)) ∨
    (∃ id e, h.free? id = some (e, h.call c) ∧ h.answer c = some (.freed id)) ∨
    (∃ id f, h.update id f = .ok (h.call c) ∧ h.answer c = some (.updated id f)) ∨
    h.call c = h ∧ h.answer c = none := by
  cases c with
  | allocate object => exact .inl ⟨object, rfl, rfl, rfl⟩
  | free id =>
    cases hf : h.free? id with
    | none => exact .inr (.inr (.inr ⟨by simp [call, hf], by simp [answer, hf]⟩))
    | some r => exact .inr (.inl ⟨id, r.1, by simp [call, hf], by simp [answer, hf]⟩)
  | update id f =>
    cases hu : h.update id f with
    | ok h' => exact .inr (.inr (.inl ⟨id, f, by simp [call, hu], by simp [answer, hu]⟩))
    | error err => exact .inr (.inr (.inr ⟨by simp [call, hu], by simp [answer, hu]⟩))

theorem WellFormed.call (hw : h.WellFormed) (c : HeapCall) : (h.call c).WellFormed := by
  rcases h.call_cases c with ⟨object, -, hcall, -⟩ | ⟨id, e, hf, -⟩ | ⟨id, f, hu, -⟩ | ⟨hcall, -⟩
  · rw [hcall]
    exact hw.allocate object
  · exact hw.free hf
  · exact hw.update hu
  · rwa [hcall]

theorem WellFormed.grows_call (hw : h.WellFormed) (c : HeapCall) : h.Grows (h.call c) := by
  rcases h.call_cases c with ⟨object, -, hcall, -⟩ | ⟨id, e, hf, -⟩ | ⟨id, f, hu, -⟩ | ⟨hcall, -⟩
  · rw [hcall]
    exact hw.grows_allocate object
  · exact grows_free hf
  · exact grows_update hu
  · rw [hcall]
    exact .refl h

theorem WellFormed.grows_callAll (hw : h.WellFormed) (calls : List HeapCall) :
    h.Grows (h.callAll calls) := by
  induction calls generalizing h with
  | nil => exact .refl h
  | cons c rest ih => exact (hw.grows_call c).trans (ih (hw.call c))

/-! ## The vacant list and the count -/

theorem countP_modify {α : Type} (p : α → Bool) {xs : Array α} {i : Nat} {a : α}
    (hi : xs[i]? = some a) (f : α → α) :
    (xs.modify i f).countP p + (if p a then 1 else 0) =
      xs.countP p + if p (f a) then 1 else 0 := by
  have hlist : ∀ (l : List α) (i : Nat), l[i]? = some a →
      (l.modify i f).countP p + (if p a then 1 else 0) =
        l.countP p + if p (f a) then 1 else 0 := by
    intro l
    induction l with
    | nil => simp
    | cons b rest ih =>
      intro i hi
      cases i with
      | zero =>
        obtain rfl : b = a := by simpa using hi
        simp only [List.modify_zero_cons, List.countP_cons]
        omega
      | succ i =>
        have hrest := ih i (by simpa using hi)
        simp only [List.modify_succ_cons, List.countP_cons]
        omega
  have hxs := hlist xs.toList i (by simpa using hi)
  rwa [← Array.toList_modify, Array.countP_toList, Array.countP_toList] at hxs

/-- The vacant list has exactly the empty slots, each once, and the live objects are counted. -/
structure Exact (h : Heap) : Prop where
  wellFormed : h.WellFormed
  vacant : ∀ (i : UInt32) slot, h.slots[i.toNat]? = some slot → slot.entry = none → i ∈ h.vacant
  live : h.live = h.slots.countP (·.entry.isSome)

theorem exact_empty : Exact {} where
  wellFormed := wellFormed_empty
  vacant _ _ h := by simp at h
  live := rfl

theorem Exact.allocate (hx : h.Exact) (object : HeapObject) : (h.allocate object).2.Exact := by
  have hw := hx.wellFormed.allocate object
  rcases hx.wellFormed.allocate_cases object with
    ⟨i, rest, slot, hv, hs, he, heq⟩ | ⟨hv, heq⟩ <;> rw [heq] at hw ⊢
  · refine ⟨hw, fun j slot' hj hempty => ?_, ?_⟩
    · by_cases hij : i.toNat = j.toNat
      · simp only [Array.getElem?_modify, hij, if_true] at hj
        obtain ⟨slot, -, rfl⟩ := Option.map_eq_some_iff.1 hj
        cases hempty
      · simp only [Array.getElem?_modify, hij, if_false] at hj
        have hmem := hx.vacant j slot' hj hempty
        rw [hv] at hmem
        exact (List.mem_cons.1 hmem).resolve_left fun heq => hij (heq ▸ rfl)
    · have hcount := countP_modify (·.entry.isSome) hs
        fun slot => { slot with entry := some { object } }
      simp only [he, Option.isSome_none, Option.isSome_some, if_true, Bool.false_eq_true, if_false,
        Nat.add_zero] at hcount
      exact (congrArg (· + 1) hx.live).trans hcount.symm
  · refine ⟨hw, fun j slot' hj hempty => ?_, ?_⟩
    · simp only [Array.getElem?_push] at hj
      split at hj
      · obtain rfl := Option.some.inj hj
        cases hempty
      · have hmem := hx.vacant j slot' hj hempty
        rwa [hv] at hmem
    · simp [hx.live]

theorem Exact.free (hx : h.Exact) {id : ObjectId} {e : LiveObject}
    (hf : h.free? id = some (e, h')) : h'.Exact := by
  have hw := hx.wellFormed.free hf
  obtain ⟨he, rfl⟩ := free?_eq_some hf
  obtain ⟨slot, hs, -, hentry⟩ := get?_eq_some_iff.1 he
  refine ⟨hw, fun j slot' hj hempty => ?_, ?_⟩
  · by_cases hij : id.index.toNat = j.toNat
    · rw [UInt32.toNat_inj.1 hij]
      exact List.mem_cons_self
    · simp only [Array.getElem?_modify, hij, if_false] at hj
      exact List.mem_cons_of_mem _ (hx.vacant j slot' hj hempty)
  · have hcount := countP_modify (·.entry.isSome) hs fun slot => ⟨slot.freed + 1, none⟩
    simp only [hentry, Option.isSome_none, Option.isSome_some, if_true, Bool.false_eq_true,
      if_false, Nat.add_zero] at hcount
    exact Nat.sub_eq_of_eq_add (hx.live.trans hcount.symm)

theorem Exact.update (hx : h.Exact) {id : ObjectId} {f : LiveObject → LiveObject}
    (hu : h.update id f = .ok h') : h'.Exact := by
  have hw := hx.wellFormed.update hu
  obtain ⟨hc, rfl⟩ := update_eq_ok hu
  obtain ⟨e, he⟩ := contains_iff.1 hc
  obtain ⟨slot, hs, -, -⟩ := get?_eq_some_iff.1 he
  refine ⟨hw, fun j slot' hj hempty => ?_, ?_⟩
  · by_cases hij : id.index.toNat = j.toNat
    · simp only [Array.getElem?_modify, hij, if_true] at hj
      obtain ⟨slot, hs, rfl⟩ := Option.map_eq_some_iff.1 hj
      exact hx.vacant j slot hs (Option.map_eq_none_iff.1 hempty)
    · simp only [Array.getElem?_modify, hij, if_false] at hj
      exact hx.vacant j slot' hj hempty
  · have hcount := countP_modify (·.entry.isSome) hs
      fun slot => { slot with entry := slot.entry.map f }
    simp only [Option.isSome_map] at hcount
    exact hx.live.trans (Nat.add_right_cancel hcount).symm

theorem Exact.call (hx : h.Exact) (c : HeapCall) : (h.call c).Exact := by
  rcases h.call_cases c with ⟨object, -, hcall, -⟩ | ⟨id, e, hf, -⟩ | ⟨id, f, hu, -⟩ | ⟨hcall, -⟩
  · rw [hcall]
    exact hx.allocate object
  · exact hx.free hf
  · exact hx.update hu
  · rwa [hcall]

theorem Exact.callAll (hx : h.Exact) (calls : List HeapCall) : (h.callAll calls).Exact := by
  induction calls generalizing h with
  | nil => exact hx
  | cons c rest ih => exact ih (hx.call c)

/-! ## Slots and their records -/

/-- What a slot of the heap shows of what it went through. -/
def recordAt (h : Heap) (i : Nat) : SlotRecord :=
  match h.slots[i]? with
  | some slot =>
    { allocations := slot.freed + if slot.entry.isSome then 1 else 0
      frees := slot.freed
      entry := slot.entry }
  | none => {}

theorem recordAt_of_some {i : Nat} {slot : Slot} (hs : h.slots[i]? = some slot) :
    h.recordAt i =
      ⟨slot.freed + if slot.entry.isSome then 1 else 0, slot.freed, slot.entry⟩ := by
  simp only [recordAt, hs]

/-- The heap after a call whose event is `e`, one slot at a time. -/
def Follows (h h' : Heap) (e : HeapEvent) : Prop :=
  ∀ i, h'.recordAt i = if e.slot = i then (h.recordAt i).next e else h.recordAt i

theorem follows_modify {slot : Slot} {e : HeapEvent} {f : Slot → Slot} {vacant : List UInt32}
    {live : Nat} (hs : h.slots[e.slot]? = some slot)
    (hf : (h.recordAt e.slot).next e =
      ⟨(f slot).freed + if (f slot).entry.isSome then 1 else 0, (f slot).freed, (f slot).entry⟩) :
    h.Follows ⟨h.slots.modify e.slot f, vacant, live⟩ e := by
  intro i
  split
  next hi =>
    subst hi
    have hnew : (h.slots.modify e.slot f)[e.slot]? = some (f slot) := by
      simp [Array.getElem?_modify, hs]
    rw [hf, recordAt_of_some hnew]
  next hi => simp only [recordAt, Array.getElem?_modify, hi, if_false]

theorem Exact.follows_allocate (hx : h.Exact) (object : HeapObject)
    (ha : (h.allocate object).2.Addressable) :
    h.Follows (h.allocate object).2 (.allocated (h.allocate object).1 object) := by
  rcases hx.wellFormed.allocate_cases object with
    ⟨i, rest, slot, hv, hs, he, heq⟩ | ⟨hv, heq⟩ <;> rw [heq] at ha ⊢
  · refine follows_modify (e := .allocated ⟨i, slot.generation⟩ object) hs ?_
    have hrecord := recordAt_of_some hs
    rw [HeapEvent.slot, HeapEvent.id, hrecord]
    simp [SlotRecord.next, he]
  · have hlt : h.slots.size < UInt32.size := Addressable.size_lt ha
    intro i
    simp only [HeapEvent.slot, HeapEvent.id, UInt32.toNat_ofNat_of_lt' hlt]
    split
    next hi => subst hi; simp [recordAt, SlotRecord.next]
    next hi => simp [recordAt, Array.getElem?_push, Ne.symm hi]

theorem follows_free {id : ObjectId} {e : LiveObject} (hf : h.free? id = some (e, h')) :
    h.Follows h' (.freed id) := by
  obtain ⟨he, rfl⟩ := free?_eq_some hf
  obtain ⟨slot, hs, -, hentry⟩ := get?_eq_some_iff.1 he
  refine follows_modify (e := .freed id) hs ?_
  rw [HeapEvent.slot, HeapEvent.id, recordAt_of_some hs]
  simp [SlotRecord.next, hentry]

theorem follows_update {id : ObjectId} {f : LiveObject → LiveObject}
    (hu : h.update id f = .ok h') : h.Follows h' (.updated id f) := by
  obtain ⟨hc, rfl⟩ := update_eq_ok hu
  obtain ⟨e, he⟩ := contains_iff.1 hc
  obtain ⟨slot, hs, -, hentry⟩ := get?_eq_some_iff.1 he
  refine follows_modify (e := .updated id f) hs ?_
  rw [HeapEvent.slot, HeapEvent.id, recordAt_of_some hs]
  simp [SlotRecord.next, hentry]

/-! ## Names and their numbers -/

theorem ofNat_eq_iff {k : Nat} {g : UInt32} :
    UInt32.ofNat k = g ↔ k ≡ g.toNat [MOD UInt32.size] := by
  rw [← UInt32.toNat_inj, UInt32.toNat_ofNat', Nat.ModEq, Nat.mod_eq_of_lt g.toNat_lt]

theorem allocations_recordAt (h : Heap) (i : Nat) : (h.recordAt i).allocations =
    (h.recordAt i).frees + if (h.recordAt i).entry.isSome then 1 else 0 := by
  unfold recordAt
  split <;> rfl

/-- A name finds the object in its slot if it has the number of the last allocation. -/
theorem get?_eq_some_iff_recordAt {id : ObjectId} {e : LiveObject} :
    h.get? id = some e ↔ (h.recordAt id.index.toNat).entry = some e ∧
      UInt32.ofNat (h.recordAt id.index.toNat).frees = id.generation := by
  rw [get?_eq_some_iff]
  cases hs : h.slots[id.index.toNat]? with
  | none => simp [recordAt, hs]
  | some slot => simp [recordAt, hs, Slot.generation, and_comm]

theorem Exact.allocate_name (hx : h.Exact) (object : HeapObject)
    (ha : (h.allocate object).2.Addressable) :
    let id := (h.allocate object).1
    (h.recordAt id.index.toNat).entry = none ∧
      id.generation = UInt32.ofNat (h.recordAt id.index.toNat).allocations := by
  rcases hx.wellFormed.allocate_cases object with
    ⟨i, rest, slot, hv, hs, he, heq⟩ | ⟨hv, heq⟩ <;> rw [heq] at ha ⊢
  · simp [recordAt_of_some hs, he, Slot.generation]
  · have hlt : h.slots.size < UInt32.size := Addressable.size_lt ha
    simp [recordAt, UInt32.toNat_ofNat_of_lt' hlt]

/-- The heap is what the log says. -/
structure Recorded (h : Heap) (events : List HeapEvent) : Prop where
  slots : ∀ i, slotRecord events i = h.recordAt i
  /-- A name has the number of an allocation of its slot. -/
  given : ∀ id ∈ namesGiven events, ∃ k < (slotRecord events id.index.toNat).allocations,
    id.generation = UInt32.ofNat k
  /-- The name of an object that was freed has the number of one that was freed. -/
  freed : ∀ id, .freed id ∈ events → ∃ k < (slotRecord events id.index.toNat).frees,
    id.generation = UInt32.ofNat k
  once : ∀ id, (slotRecord events id.index.toNat).frees < UInt32.size →
    (namesGiven events).count id ≤ 1

theorem recorded_empty : Recorded {} [] where
  slots _ := rfl
  given _ h := by cases h
  freed _ h := by cases h
  once _ _ := by simp [namesGiven]

variable {events : List HeapEvent}

/-- A new name has the number of the next allocation, and is given when the slot is empty. -/
theorem Recorded.not_given (hr : h.Recorded events) {id : ObjectId}
    (hempty : (h.recordAt id.index.toNat).entry = none)
    (hname : id.generation = UInt32.ofNat (h.recordAt id.index.toNat).allocations)
    (hlast : (h.recordAt id.index.toNat).frees < UInt32.size) : id ∉ namesGiven events := by
  intro hmem
  obtain ⟨k, hk, hgeneration⟩ := hr.given id hmem
  rw [hr.slots] at hk
  have hfrees : (h.recordAt id.index.toNat).allocations = (h.recordAt id.index.toNat).frees := by
    rw [allocations_recordAt, hempty]
    rfl
  -- Both numbers have 32 bits, so the names would be told apart.
  have hsame := congrArg UInt32.toNat (hgeneration.symm.trans hname)
  rw [UInt32.toNat_ofNat_of_lt' (by omega), UInt32.toNat_ofNat_of_lt' (by omega)] at hsame
  omega

theorem Recorded.next (hr : h.Recorded events) {e : HeapEvent} (hf : h.Follows h' e)
    (hallocated : ∀ id object, e = .allocated id object →
      (h.recordAt id.index.toNat).entry = none ∧
        id.generation = UInt32.ofNat (h.recordAt id.index.toNat).allocations)
    (hfreed : ∀ id, e = .freed id →
      id.generation = UInt32.ofNat (h.recordAt id.index.toNat).frees) :
    h'.Recorded (events ++ [e]) where
  slots i := by rw [slotRecord_concat, hr.slots, hf]
  given id hid := by
    rw [namesGiven_concat, List.mem_append] at hid
    rcases hid with hold | hnew
    · obtain ⟨k, hk, hgeneration⟩ := hr.given id hold
      exact ⟨k, Nat.lt_of_lt_of_le hk (slotRecord_le_concat events e _).1, hgeneration⟩
    · cases e with
      | allocated id' object =>
        obtain rfl : id = id' := by simpa [HeapEvent.given?] using hnew
        have hself := slotRecord_concat_self events (e := .allocated id object) rfl
        refine ⟨_, ?_, (hallocated id object rfl).2⟩
        rw [HeapEvent.slot, HeapEvent.id, hr.slots] at hself
        rw [hself]
        exact Nat.lt_succ_self _
      | _ => cases hnew
  freed id hid := by
    rcases List.mem_append.1 hid with hold | hnew
    · obtain ⟨k, hk, hgeneration⟩ := hr.freed id hold
      exact ⟨k, Nat.lt_of_lt_of_le hk (slotRecord_le_concat events e _).2, hgeneration⟩
    · obtain rfl := List.mem_singleton.1 hnew
      have hself := slotRecord_concat_self events (e := .freed id) rfl
      refine ⟨_, ?_, hfreed id rfl⟩
      rw [HeapEvent.slot, HeapEvent.id, hr.slots] at hself
      rw [hself]
      exact Nat.lt_succ_self _
  once id hlast := by
    have hlast' := Nat.lt_of_le_of_lt (slotRecord_le_concat events e id.index.toNat).2 hlast
    have hold := hr.once id hlast'
    rw [namesGiven_concat, List.count_append]
    cases e with
    | allocated id' object =>
      by_cases hid : id' = id
      · subst hid
        rw [hr.slots] at hlast'
        obtain ⟨hempty, hname⟩ := hallocated id' object rfl
        have hnew := hr.not_given hempty hname hlast'
        simp [HeapEvent.given?, List.count_eq_zero.2 hnew]
      · simpa [HeapEvent.given?, List.count_singleton, hid] using hold
    | _ => simpa [HeapEvent.given?] using hold

theorem Recorded.call (hr : h.Recorded events) (hx : h.Exact) (c : HeapCall)
    (ha : (h.call c).Addressable) : (h.call c).Recorded (events ++ (h.answer c).toList) := by
  rcases h.call_cases c with
    ⟨object, -, hcall, hanswer⟩ | ⟨id, e, hf, hanswer⟩ | ⟨id, f, hu, hanswer⟩ | ⟨hcall, hanswer⟩ <;>
    rw [hanswer]
  · rw [hcall] at ha ⊢
    refine hr.next (hx.follows_allocate object ha) (fun id object' he => ?_) (fun id he => ?_)
    · cases he
      exact hx.allocate_name object ha
    · cases he
  · refine hr.next (follows_free hf) (fun id object he => by cases he) (fun id' he => ?_)
    cases he
    exact (get?_eq_some_iff_recordAt.1 (free?_eq_some hf).1).2.symm
  · exact hr.next (follows_update hu) (fun id object he => by cases he) (fun id' he => by cases he)
  · rw [hcall]
    simpa using hr

theorem Recorded.callAll (hr : h.Recorded events) (hx : h.Exact) (calls : List HeapCall)
    (ha : (h.callAll calls).Addressable) : (h.callAll calls).Recorded (events ++ h.log calls) := by
  induction calls generalizing h events with
  | nil => simpa [Heap.log, Heap.callAll] using hr
  | cons c rest ih =>
    have hx' := hx.call c
    have ha' := ha.of_grows (hx'.wellFormed.grows_callAll rest)
    have hrest := ih (hr.call hx c ha') hx' ha
    rwa [List.append_assoc] at hrest

/-! ## What is read from the heap -/

/-- The name of an object that was freed finds nothing, as long as 32 bits tell the numbers of its
slot apart. -/
theorem Recorded.get?_eq_none (hr : h.Recorded events) {id : ObjectId} (hfreed : .freed id ∈ events)
    (hlast : (slotRecord events id.index.toNat).frees < UInt32.size) : h.get? id = none := by
  obtain ⟨k, hk, hgeneration⟩ := hr.freed id hfreed
  refine Option.eq_none_iff_forall_ne_some.2 fun e he => ?_
  obtain ⟨-, hlive⟩ := get?_eq_some_iff_recordAt.1 he
  rw [← hr.slots, hgeneration] at hlive
  have hsame := congrArg UInt32.toNat hlive
  rw [UInt32.toNat_ofNat_of_lt' hlast, UInt32.toNat_ofNat_of_lt' (Nat.lt_trans hk hlast)] at hsame
  exact absurd hsame.symm (Nat.ne_of_lt hk)

theorem entry_recordAt (h : Heap) (i : Nat) : (h.recordAt i).entry = h.entryAt? i := by
  unfold recordAt entryAt?
  cases h.slots[i]? <;> rfl

/-- An allocation fills one slot. -/
theorem Exact.entryAt?_allocate (hx : h.Exact) (object : HeapObject)
    (ha : (h.allocate object).2.Addressable) (i : Nat) :
    (h.allocate object).2.entryAt? i =
      if i = (h.allocate object).1.index.toNat then some { object } else h.entryAt? i := by
  rw [← entry_recordAt, ← entry_recordAt, hx.follows_allocate object ha i, HeapEvent.slot,
    HeapEvent.id]
  by_cases hi : i = (h.allocate object).1.index.toNat
  · rw [if_pos hi, if_pos hi.symm]
    rfl
  · rw [if_neg hi, if_neg (Ne.symm hi)]

theorem Exact.mem_vacant_iff (hx : h.Exact) (i : UInt32) :
    i ∈ h.vacant ↔ i.toNat < h.slotCount ∧ h.entryAt? i.toNat = none := by
  unfold entryAt? slotCount
  constructor
  · intro hi
    obtain ⟨slot, hs, hempty⟩ := hx.wellFormed.empty i hi
    exact ⟨(Array.getElem?_eq_some_iff.1 hs).1, by rw [hs]; exact hempty⟩
  · rintro ⟨hlt, hempty⟩
    rw [Array.getElem?_eq_getElem hlt] at hempty
    exact hx.vacant i _ (Array.getElem?_eq_getElem hlt) hempty

theorem idAt_eq_some {i : Nat} {id : ObjectId} (hid : h.idAt i = some id) :
    i < h.slots.size ∧ id.index = UInt32.ofNat i ∧ ∃ slot, h.slots[i]? = some slot ∧
      slot.generation = id.generation ∧ slot.entry.isSome := by
  unfold idAt at hid
  split at hid
  next slot hs =>
    split at hid
    next hsome =>
      obtain rfl := Option.some.inj hid
      exact ⟨(Array.getElem?_eq_some_iff.1 hs).1, rfl, slot, hs, rfl, hsome⟩
    · cases hid
  · cases hid

theorem Addressable.mem_ids_iff (ha : h.Addressable) (id : ObjectId) :
    id ∈ h.ids ↔ h.contains id := by
  refine ⟨fun hid => ?_, mem_ids_of_contains⟩
  obtain ⟨i, -, hi⟩ := List.mem_filterMap.1 hid
  obtain ⟨hlt, hindex, slot, hs, hg, hsome⟩ := idAt_eq_some hi
  obtain ⟨e, he⟩ := Option.isSome_iff_exists.1 hsome
  refine contains_of_get? (get?_eq_some_iff.2 ⟨slot, ?_, hg, he⟩)
  rwa [hindex, UInt32.toNat_ofNat_of_lt' (Nat.lt_of_lt_of_le hlt ha)]

theorem Addressable.pairwise_ids (ha : h.Addressable) :
    h.ids.Pairwise fun a b => a.index < b.index := by
  refine List.Pairwise.filterMap h.idAt (fun i j hij a hi b hj => ?_) List.pairwise_lt_range
  obtain ⟨hlt, hindex, -⟩ := idAt_eq_some hi
  obtain ⟨hlt', hindex', -⟩ := idAt_eq_some hj
  rw [hindex, hindex', UInt32.lt_iff_toNat_lt,
    UInt32.toNat_ofNat_of_lt' (Nat.lt_of_lt_of_le hlt ha),
    UInt32.toNat_ofNat_of_lt' (Nat.lt_of_lt_of_le hlt' ha)]
  exact hij

/-! ## Any number of calls -/

/-- **A name is a slot and the number of an allocation in it.** After any calls of a heap with at
most 2^32 slots, the next object goes into one empty slot, whose number its name has, together with
the number of this allocation as far as 32 bits go. A name finds what is in its slot exactly if the
last allocation there has its number, again as far as 32 bits go, and the operations on a name are
refused otherwise. So as long as a slot was freed fewer than 2^32 times, a name that was freed in it
finds nothing, and no name in it was given twice. The vacant list has the empty slots, each once;
the objects are counted; and they are listed in the order of their slots. -/
theorem names_count_allocations (calls : List HeapCall)
    (ha : (({} : Heap).callAll calls).Addressable) :
    let h := ({} : Heap).callAll calls
    let events := ({} : Heap).log calls
    let record := fun id : ObjectId => slotRecord events id.index.toNat
    (∀ i, h.entryAt? i = (slotRecord events i).entry) ∧
    (∀ object, (h.allocate object).2.Addressable →
      let (id, after) := h.allocate object
      id.generation.toNat = (record id).allocations % UInt32.size ∧ (record id).entry = none ∧
        ∀ i, after.entryAt? i = if i = id.index.toNat then some { object } else h.entryAt? i) ∧
    (∀ id e, h.get? id = some e ↔ (record id).entry = some e ∧
      ∃ k, (record id).allocations = k + 1 ∧ k ≡ id.generation.toNat [MOD UInt32.size]) ∧
    (∀ id, h.contains id = (h.get? id).isSome ∧ (h.free? id).isSome = h.contains id ∧
      ∀ f, (h.update id f).isOk = h.contains id) ∧
    (∀ id, (record id).frees < UInt32.size →
      (.freed id ∈ events → h.get? id = none ∧ h.free? id = none ∧ h.call (.free id) = h) ∧
        (namesGiven events).count id ≤ 1) ∧
    ((∀ i : UInt32, i ∈ h.vacant ↔
        i.toNat < h.slotCount ∧ (slotRecord events i.toNat).entry = none) ∧ h.vacant.Nodup) ∧
    h.size = h.slots.countP (·.entry.isSome) ∧
    (∀ id, id ∈ h.ids ↔ h.contains id) ∧ h.ids.Pairwise fun a b => a.index < b.index := by
  intro h events record
  have hx : h.Exact := exact_empty.callAll calls
  have hr : h.Recorded events := recorded_empty.callAll exact_empty calls ha
  have hrecord : ∀ id : ObjectId, record id = h.recordAt id.index.toNat := fun id => hr.slots _
  have hfind : ∀ id e, h.get? id = some e ↔ (record id).entry = some e ∧
      ∃ k, (record id).allocations = k + 1 ∧ k ≡ id.generation.toNat [MOD UInt32.size] := by
    intro id e
    rw [get?_eq_some_iff_recordAt, hrecord, allocations_recordAt, ofNat_eq_iff]
    refine and_congr_right fun hentry => ?_
    simp [hentry]
  refine ⟨fun i => ?_, fun object hobject => ?_, hfind, fun id => ⟨rfl, ?_, fun f => ?_⟩,
    fun id hlast => ⟨fun hfreed => ?_, hr.once id hlast⟩, ⟨fun i => ?_, hx.wellFormed.nodup⟩,
    hx.live, ha.mem_ids_iff, ha.pairwise_ids⟩
  · rw [hr.slots, entry_recordAt]
  · obtain ⟨hempty, hname⟩ := hx.allocate_name object hobject
    have hentries := hx.entryAt?_allocate object hobject
    generalize h.allocate object = r at hempty hname hentries
    obtain ⟨id, after⟩ := r
    simp only at hempty hname hentries ⊢
    rw [hrecord]
    refine ⟨?_, hempty, hentries⟩
    rw [hname]
    exact UInt32.toNat_ofNat'
  · simp [free?, contains]
  · unfold update
    cases h.contains id <;> rfl
  · have hnone : h.get? id = none := hr.get?_eq_none hfreed hlast
    have hfree : h.free? id = none := free?_eq_none_iff.2 hnone
    exact ⟨hnone, hfree, by simp [call, hfree]⟩
  · rw [hr.slots, entry_recordAt]
    exact hx.mem_vacant_iff i

/-- A slot is used again after its object was freed twice, the second time in vain. -/
def recycled : List HeapCall :=
  [.allocate (.wrapper "Leaf"), .allocate (.wrapper "Tree"), .free ⟨0, 0⟩, .free ⟨0, 0⟩,
    .allocate (.wrapper "Bark")]

theorem names_count_allocations_recycled :
    (({} : Heap).callAll recycled).Addressable ∧
      (({} : Heap).callAll recycled).get? ⟨0, 0⟩ = none ∧
      (({} : Heap).callAll recycled).contains ⟨0, 1⟩ = true := by
  have ha : (({} : Heap).callAll recycled).Addressable := by
    show 2 ≤ UInt32.size
    decide
  obtain ⟨-, -, -, hoperations, hfreed, -⟩ := names_count_allocations recycled ha
  refine ⟨ha, ((hfreed ⟨0, 0⟩ ?_).1 ?_).1, (hoperations ⟨0, 1⟩).1.trans rfl⟩
  · show 1 < UInt32.size
    decide
  · show HeapEvent.freed ⟨0, 0⟩ ∈ [_, _, HeapEvent.freed ⟨0, 0⟩, _]
    simp

end Heap
end ScriptBridge
