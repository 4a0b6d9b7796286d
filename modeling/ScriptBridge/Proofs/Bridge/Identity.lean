import ScriptBridge.Proofs.Bridge.Runs

/-! # One wrapper for each instance

An instance keeps one wrapper as long as that is alive, and no two instances share one.

* `Bridge.Sound` is the invariant: the tables of the registry are inverse to each other, and the
  wrappers in them are names that the heap has issued. So the name of a new object is never bound
  already, unless the names have run out.
* `Bridge.Bound` says that the wrapper of an instance is alive. Wrapping makes it so
  (`Bridge.bound_wrap`), and only a collection can end it (`Bridge.Bound.moves`).
* `Bridge.one_wrapper` is what holds of every run.
-/

namespace ScriptBridge.Bridge
set_option autoImplicit false

variable {d : Nat} {b b' : Bridge} {o : InstanceHandle} {w : ObjectId}

/-! ## The invariant -/

/-- The tables of the registry are inverse to each other, and every registered wrapper has a name
that was given out already, so that a fresh name is not among them. -/
structure Sound (b : Bridge) : Prop where
  wellFormed : b.engine.heap.WellFormed
  inverse : b.registry.Inverse
  issued : ∀ w, b.registry.contains w → b.engine.heap.Issued w

theorem Sound.contains_of_wrapper? (h : b.Sound) (hw : b.registry.wrapper? o = some w) :
    b.registry.contains w := by
  obtain ⟨o', ho', -⟩ := (h.inverse o.identity w).1 hw
  exact Registry.contains_iff.2 ⟨o', ho'⟩

theorem Sound.wrapFresh (h : b.Sound) (o : InstanceHandle)
    (hl : (b.wrapFresh o).2.engine.heap.NamesLast) : (b.wrapFresh o).2.Sound := by
  rw [wrapFresh_eq] at hl ⊢
  have hself := h.wellFormed.get?_allocate_self (.wrapper o.className) hl.addressable
  have hnew := h.wellFormed.not_issued_allocate (.wrapper o.className) hl
  refine ⟨h.wellFormed.allocate _, h.inverse.bind o fun hc => hnew (h.issued _ hc), ?_⟩
  intro w hw
  rcases Registry.contains_bind hw with rfl | hw
  · exact hl.issued (Heap.contains_of_get? hself)
  · exact h.wellFormed.issued_allocate _ (h.issued w hw)

theorem Sound.release (h : b.Sound) (inFlight : List InstanceId) (id : ObjectId) :
    (b.release inFlight id).2.Sound := by
  obtain ⟨instances, journal, heq⟩ := b.release_eq inFlight id
  rw [heq]
  exact ⟨h.wellFormed, h.inverse.without id, fun w hc => h.issued w (Registry.contains_without hc)⟩

theorem Sound.move (h : b.Sound) (hm : Move b b') (hl : b'.engine.heap.NamesLast) : b'.Sound := by
  have hw := hm.wellFormed h.wellFormed
  have hissued := fun w hc => hm.issued h.wellFormed (h.issued w hc)
  cases hm with
  | setMode wrapper mode =>
    refine ⟨hw, h.inverse.setMode wrapper mode, fun w hc => h.issued w ?_⟩
    change (b.registry.setMode wrapper mode).2.contains w at hc
    rwa [Registry.contains_iff, Registry.native?_setMode, ← Registry.contains_iff] at hc
  | wrapFresh o => exact h.wrapFresh o hl
  | release inFlight => exact h.release inFlight _
  | _ => exact ⟨hw, h.inverse, hissued⟩

theorem Sound.moves (h : b.Sound) (hm : Moves d b b') (hl : b'.engine.heap.NamesLast) :
    b'.Sound := by
  induction hm with
  | refl => exact h
  | tail hprev hstep ih =>
    have hw := Moves.wellFormed hprev h.wellFormed
    exact (ih (hl.of_grows (hstep.1.grows hw))).move hstep.1 hl

theorem Reachable.sound (h : b.Reachable) (hl : b.engine.heap.NamesLast) : b.Sound := by
  obtain ⟨options, hrun⟩ := h
  refine Sound.moves ⟨Heap.wellFormed_empty, Registry.inverse_empty, fun w hc => ?_⟩ hrun.moves hl
  cases hc

/-! ## Living wrappers -/

/-- The wrapper of an instance is alive. -/
structure Bound (b : Bridge) (o : InstanceHandle) (w : ObjectId) : Prop where
  wrapper : b.registry.wrapper? o = some w
  alive : b.isAlive w

theorem wrap_of_bound (h : b.Bound o w) : b.wrap o = (w, b) := by
  simp only [wrap, h.wrapper, h.alive, if_true]

theorem bound_wrapFresh (hw : b.engine.heap.WellFormed) (hnone : b.registry.wrapper? o = none)
    (hl : (b.wrapFresh o).2.engine.heap.NamesLast) :
    (b.wrapFresh o).2.Bound o (b.wrapFresh o).1 := by
  rw [wrapFresh_eq] at hl ⊢
  have hself := hw.get?_allocate_self (.wrapper o.className) hl.addressable
  simp only [Registry.bind_of_none hnone]
  refine ⟨?_, Heap.contains_of_get? hself⟩
  rw [Registry.wrapper?, Table.find?_insert, if_pos rfl]

theorem Sound.wrapper?_release (h : b.Sound) (inFlight : List InstanceId) (id : ObjectId)
    (o : InstanceHandle) : (b.release inFlight id).2.registry.wrapper? o =
      if b.registry.wrapper? o = some id then none else b.registry.wrapper? o := by
  obtain ⟨instances, journal, heq⟩ := b.release_eq inFlight id
  rw [heq]
  exact h.inverse.byNative_without id o.identity

/-- An instance has a living wrapper already, or else it gets a fresh one on a bridge that has none
for it. That bridge has the same objects and roots and no other wrappers. -/
theorem Sound.wrap_cases (h : b.Sound) (o : InstanceHandle) :
    (∃ w, b.Bound o w ∧ b.wrap o = (w, b)) ∨
      ∃ c : Bridge, c.engine.heap = b.engine.heap ∧ c.engine.roots = b.engine.roots ∧
        (∀ o' w, c.registry.wrapper? o' = some w → b.registry.wrapper? o' = some w) ∧ c.Sound ∧
        c.registry.wrapper? o = none ∧ b.wrap o = c.wrapFresh o := by
  cases hw : b.registry.wrapper? o with
  | none => exact .inr ⟨b, rfl, rfl, fun _ _ h => h, h, hw, by simp only [wrap, hw]⟩
  | some id =>
    by_cases halive : b.isAlive id
    · exact .inl ⟨id, ⟨hw, halive⟩, wrap_of_bound ⟨hw, halive⟩⟩
    · refine .inr ⟨(b.release [o.identity] id).2, heap_release _ _ _, roots_release _ _ _,
        fun o' w hw' => ?_, h.release _ id, ?_, by simp only [wrap, hw, if_neg halive]⟩
      · rw [h.wrapper?_release] at hw'
        split at hw'
        · cases hw'
        · exact hw'
      · rw [h.wrapper?_release, if_pos hw]

theorem bound_wrap (h : b.Sound) (hl : (b.wrap o).2.engine.heap.NamesLast) :
    (b.wrap o).2.Bound o (b.wrap o).1 := by
  rcases h.wrap_cases o with ⟨w, hbound, heq⟩ | ⟨c, -, -, -, hc, hnone, heq⟩
  · rw [heq]
    exact hbound
  · rw [heq] at hl ⊢
    exact bound_wrapFresh hc.wellFormed hnone hl

/-- How many collections there have been. -/
abbrev collections (b : Bridge) : Nat := b.engine.stats.collections

theorem Move.collections_le (h : Move b b') : b.collections ≤ b'.collections := by
  cases h with
  | closeScope => exact Nat.le_of_eq (congrArg CollectorStats.collections b.stats_closeScope.symm)
  | release => exact Nat.le_of_eq (congrArg CollectorStats.collections (b.stats_release _ _).symm)
  | collect r => exact Nat.le_succ _
  | _ => exact Nat.le_refl _

theorem Moves.collections_le (h : Moves d b b') : b.collections ≤ b'.collections := by
  induction h with
  | refl => exact Nat.le_refl _
  | tail _ hstep ih => exact Nat.le_trans ih hstep.1.collections_le

/-- While nothing is collected, what is alive stays so. -/
theorem Move.isAlive (hm : Move b b') (hw : b.engine.heap.WellFormed)
    (hc : b'.collections = b.collections) {id : ObjectId} (h : b.isAlive id) : b'.isAlive id := by
  obtain ⟨e, he⟩ := Heap.contains_iff.1 h
  rcases hm.get?_cases hw he with ⟨e', he', -⟩ | ⟨r, rfl, -⟩
  · exact Heap.contains_of_get? he'
  · change b.collections + 1 = b.collections at hc
    omega

theorem Bound.move (h : b.Bound o w) (hm : Move b b') (hw : b.engine.heap.WellFormed)
    (hc : b'.collections = b.collections) : b'.Bound o w := by
  refine ⟨?_, hm.isAlive hw hc h.alive⟩
  cases hm with
  | wrapFresh o' =>
    exact Registry.wrapper?_bind h.wrapper o' _
  | @release inFlight id hdead =>
    obtain ⟨instances, journal, heq⟩ := b.release_eq inFlight id
    rw [heq]
    refine Registry.wrapper?_without h.wrapper ?_
    rintro rfl
    exact absurd h.alive (by simp [hdead])
  | _ => exact h.wrapper

theorem collections_wrap (b : Bridge) (o : InstanceHandle) :
    (b.wrap o).2.collections = b.collections := by
  refine wrap_induction (P := fun c => c.collections = b.collections) o (fun c w _ hc => ?_)
    (fun _ hc => hc) rfl
  exact (congrArg CollectorStats.collections (c.stats_release [o.identity] w)).trans hc

theorem Bound.moves (h : b.Bound o w) (hm : Moves d b b') (hw : b.engine.heap.WellFormed)
    (hc : b'.collections = b.collections) : b'.Bound o w := by
  induction hm with
  | refl => exact h
  | tail hprev hstep ih =>
    have hle := Moves.collections_le hprev
    have hle' := hstep.1.collections_le
    exact (ih (by omega)).move hstep.1 (Moves.wellFormed hprev hw) (by omega)

theorem Bound.wrap (h : b.Bound o w) (hw : b.engine.heap.WellFormed) (o' : InstanceHandle) :
    (b.wrap o').2.Bound o w :=
  h.moves (moves_wrap (Nat.zero_le _) o') hw (b.collections_wrap o')

theorem Bound.unique {w' : ObjectId} (h : b.Bound o w) (h' : b.Bound o w') : w = w' :=
  Option.some.inj (h.wrapper.symm.trans h'.wrapper)

/-! ## Every run -/

theorem Reachable.run (h : b.Reachable) (hrun : Run b b') : b'.Reachable := by
  obtain ⟨options, hstart⟩ := h
  exact ⟨options, hstart.trans hrun⟩

/-- **One wrapper for each instance.** As long as the names last, the tables of the registry are
inverse to each other in every run, so that bindings pair instances with wrappers one to one. The
wrapper of an instance is alive and bound to that instance when it is handed out, and it is handed
out again until there has been a collection. -/
theorem one_wrapper (b : Bridge) (h : b.Reachable) (hl : b.engine.heap.NamesLast) :
    (∀ i w, b.registry.byNative.find? i = some w ↔
      ∃ o, b.registry.native? w = some o ∧ o.identity = i) ∧
    (∀ w w' o o', b.registry.native? w = some o → b.registry.native? w' = some o' →
      (w = w' ↔ o.identity = o'.identity)) ∧
    ∀ o, (b.wrap o).2.engine.heap.NamesLast →
      (b.wrap o).2.isAlive (b.wrap o).1 ∧
      (∃ o', (b.wrap o).2.registry.native? (b.wrap o).1 = some o' ∧ o'.identity = o.identity) ∧
      ∀ later, Run (b.wrap o).2 later → later.collections = (b.wrap o).2.collections →
        (later.wrap o).1 = (b.wrap o).1 := by
  have hsound := h.sound hl
  refine ⟨hsound.inverse, fun w w' o o' hw hw' => ⟨?_, fun hid => ?_⟩, fun o hl' => ?_⟩
  · rintro rfl
    rw [Option.some.inj (hw.symm.trans hw')]
  · have hi := (hsound.inverse o.identity w).2 ⟨o, hw, rfl⟩
    have hi' := (hsound.inverse o.identity w').2 ⟨o', hw', hid.symm⟩
    exact Option.some.inj (hi.symm.trans hi')
  · have hbound := bound_wrap hsound hl'
    have hafter := hsound.moves (moves_wrap (Nat.zero_le _) o) hl'
    refine ⟨hbound.alive, (hafter.inverse _ _).1 hbound.wrapper, fun later hrun hc => ?_⟩
    rw [wrap_of_bound (hbound.moves hrun.moves hafter.wellFormed hc)]

/-- The first view of all is wrapped twice, under the first name both times. -/
theorem one_wrapper_of_first :
    let made := ({} : Bridge).create "View" .view
    let b := (made.2.wrap made.1).2
    b.Reachable ∧ b.engine.heap.NamesLast ∧ (b.wrap made.1).2.engine.heap.NamesLast ∧
      (b.wrap made.1).1 = ⟨0, 0⟩ ∧ (b.wrap made.1).2.isAlive ⟨0, 0⟩ ∧
      (b.registry.byNative.find? ⟨0⟩ = some ⟨0, 0⟩ ↔
        ∃ o, b.registry.native? ⟨0, 0⟩ = some o ∧ o.identity = ⟨0⟩) := by
  intro made b
  have hmade : Run ({} : Bridge) made.2 :=
    Relation.ReflTransGen.single ⟨0, .ask (.create "View" .view)⟩
  have hb : b.Reachable := ⟨{}, hmade.tail ⟨0, .ask (.wrap made.1)⟩⟩
  have hl : b.engine.heap.NamesLast := ⟨by decide, by decide⟩
  have hl' : (b.wrap made.1).2.engine.heap.NamesLast := ⟨by decide, by decide⟩
  obtain ⟨hinverse, -, hwrap⟩ := one_wrapper b hb hl
  exact ⟨hb, hl, hl', rfl, (hwrap made.1 hl').1, hinverse ⟨0⟩ ⟨0, 0⟩⟩

end ScriptBridge.Bridge
