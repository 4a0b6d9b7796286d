import ScriptBridge.Proofs.Bridge.Releasing
import ScriptBridge.Proofs.Host.Marking
import Mathlib.Logic.Relation

/-! # The moves of a bridge

Whatever is done to a bridge comes down to a few kinds of change, the `Move`s: an object is
allocated or changed in place, a scope opens or closes, an instance gets a new wrapper, a dead
wrapper is released, a collection runs. What holds of a bridge however it is used is proved of
the moves, once for each.

* `Moves d` are moves one after another in which the depth of the scopes never falls below `d`.
* `Move.get?_cases` is why an object goes: a collection did not reach it, and nothing else.
* `Moves.wellFormed`, `Moves.grows` and `Moves.issued` carry the heap along.
-/

namespace ScriptBridge
set_option autoImplicit false

namespace Bridge

/-- How many handle scopes are open. -/
abbrev depth (b : Bridge) : Nat := b.engine.roots.depth

/-- One change of a bridge, taken by itself. -/
inductive Move : Bridge → Bridge → Prop where
  /-- Nothing that the collector or the registry looks at is changed. -/
  | aside (b : Bridge) (classes : Hierarchy) (modules : Table String Module)
      (instances : Instances) (held : List InstanceId) (dropsMayPanic : Bool)
      (journal : List Event) : Move b
        { b with
          classes, modules, instances, held, dropsMayPanic, engine := { b.engine with journal } }
  | openScope (b : Bridge) : Move b b.openScope
  | closeScope (b : Bridge) : Move b b.closeScope
  | pin (b : Bridge) (v : Script.Value) : Move b (b.pin v)
  | globals (b : Bridge) (globals : Table String Script.Value) :
      Move b (b.mapEngine fun e => { e with roots := { e.roots with globals } })
  | allocate (b : Bridge) (object : HeapObject) :
      Move b (b.mapEngine fun e => { e with heap := (e.heap.allocate object).2 })
  | update (b : Bridge) {id : ObjectId} {f : LiveObject → LiveObject} {heap : Heap} :
      (∀ e, (f e).object = e.object) → b.engine.heap.update id f = .ok heap →
        Move b (b.mapEngine fun e => { e with heap })
  | edges (b : Bridge) (edges : Ownership) : Move b { b with edges }
  | setMode (b : Bridge) (wrapper : ObjectId) (mode : RetentionMode) :
      Move b (b.setMode wrapper mode).2
  | wrapFresh (b : Bridge) (o : InstanceHandle) : Move b (b.wrapFresh o).2
  | release (b : Bridge) (inFlight : List InstanceId) {id : ObjectId} :
      b.isAlive id = false → Move b (b.release inFlight id).2
  | collect (b : Bridge) (r : Retention) : Move b (b.onEngine (·.collect r)).2

/-! ## Depth -/

theorem depth_openScope (b : Bridge) : b.openScope.depth = b.depth + 1 := rfl

@[simp] theorem depth_pin (b : Bridge) (v : Script.Value) : (b.pin v).depth = b.depth := by
  simp only [depth, pin, mapEngine, Engine.pin, Roots.pin, Roots.depth]
  split
  · rfl
  · split <;> simp_all

theorem depth_pinAll (b : Bridge) (vs : List Script.Value) :
    (b.mapEngine (·.pinAll vs)).depth = b.depth := by
  induction vs generalizing b with
  | nil => rfl
  | cons v rest ih => exact (ih (b.pin v)).trans (b.depth_pin v)

theorem heap_pinAll (b : Bridge) (vs : List Script.Value) :
    (b.mapEngine (·.pinAll vs)).engine.heap = b.engine.heap := by
  induction vs generalizing b with
  | nil => rfl
  | cons v rest ih => exact ih (b.pin v)

theorem roots_closeScope (b : Bridge) :
    b.closeScope.engine.roots = b.engine.roots.closeScope.2 := by
  simp only [closeScope, mapEngine, Engine.closeScope]
  split <;> rfl

theorem heap_closeScope (b : Bridge) : b.closeScope.engine.heap = b.engine.heap := by
  simp only [closeScope, mapEngine, Engine.closeScope]
  split <;> rfl

theorem stats_closeScope (b : Bridge) : b.closeScope.engine.stats = b.engine.stats := by
  simp only [closeScope, mapEngine, Engine.closeScope]
  split <;> rfl

/-- The outermost scope stays open. -/
theorem depth_closeScope (b : Bridge) : b.closeScope.depth = max 1 (b.depth - 1) := by
  rw [depth, roots_closeScope, Roots.closeScope]
  cases hi : b.engine.roots.inner with
  | nil => simp [Roots.depth, hi]
  | cons scope rest => simp [depth, Roots.depth, hi]

/-! ## Moves in a row -/

/-- Moves one after another, with at least `d` scopes open after each. -/
def Moves (d : Nat) : Bridge → Bridge → Prop :=
  Relation.ReflTransGen fun b b' => Move b b' ∧ d ≤ b'.depth

variable {d : Nat} {b b' b'' : Bridge}

theorem Moves.refl (d : Nat) (b : Bridge) : Moves d b b := Relation.ReflTransGen.refl

theorem Moves.trans (h : Moves d b b') (h' : Moves d b' b'') : Moves d b b'' :=
  Relation.ReflTransGen.trans h h'

theorem Move.moves (h : Move b b') (hd : d ≤ b'.depth) : Moves d b b' :=
  Relation.ReflTransGen.single ⟨h, hd⟩

theorem Moves.tail (h : Moves d b b') (h' : Move b' b'') (hd : d ≤ b''.depth) : Moves d b b'' :=
  h.trans (h'.moves hd)

theorem Moves.mono {d' : Nat} (h : Moves d' b b') (hd : d ≤ d') : Moves d b b' :=
  h.lift id fun _ _ hstep => ⟨hstep.1, Nat.le_trans hd hstep.2⟩

theorem Moves.le_depth (h : Moves d b b') (hd : d ≤ b.depth) : d ≤ b'.depth := by
  cases h with
  | refl => exact hd
  | tail _ hstep => exact hstep.2

/-- What every move keeps is kept by moves in a row. -/
theorem Moves.invariant {P : Bridge → Prop} (hP : ∀ {x y : Bridge}, Move x y → P x → P y)
    (h : Moves d b b') (hb : P b) : P b' := by
  induction h with
  | refl => exact hb
  | tail _ hstep ih => exact hP hstep.1 ih

/-! ## What becomes of the heap -/

theorem Move.wellFormed (h : Move b b') (hw : b.engine.heap.WellFormed) :
    b'.engine.heap.WellFormed := by
  cases h with
  | closeScope => rw [heap_closeScope]; exact hw
  | allocate object => exact hw.allocate object
  | update _ hu => exact hw.update hu
  | wrapFresh o => exact hw.allocate (.wrapper o.className)
  | release => rw [heap_release]; exact hw
  | collect r => exact hw.freeAll _
  | _ => exact hw

theorem Move.grows (h : Move b b') (hw : b.engine.heap.WellFormed) :
    b.engine.heap.Grows b'.engine.heap := by
  cases h with
  | closeScope => rw [heap_closeScope]; exact .refl _
  | allocate object => exact hw.grows_allocate object
  | update _ hu => exact Heap.grows_update hu
  | wrapFresh o => exact hw.grows_allocate (.wrapper o.className)
  | release => rw [heap_release]; exact .refl _
  | collect r => exact Heap.grows_freeAll _ _
  | _ => exact .refl _

/-- A name that was given out stays one. -/
theorem Move.issued (h : Move b b') (hw : b.engine.heap.WellFormed) {id : ObjectId}
    (hi : b.engine.heap.Issued id) : b'.engine.heap.Issued id := by
  cases h with
  | closeScope => rw [heap_closeScope]; exact hi
  | allocate object => exact hw.issued_allocate object hi
  | update _ hu => exact Heap.issued_update hu hi
  | wrapFresh o => exact hw.issued_allocate (.wrapper o.className) hi
  | release => rw [heap_release]; exact hi
  | collect r => exact Heap.issued_freeAll hi _
  | _ => exact hi

/-- An object keeps its captures, and it goes only in a collection that does not reach it. -/
theorem Move.get?_cases (h : Move b b') (hw : b.engine.heap.WellFormed) {id : ObjectId}
    {e : LiveObject} (he : b.engine.heap.get? id = some e) :
    (∃ e', b'.engine.heap.get? id = some e' ∧ e'.object = e.object) ∨
      ∃ r, b' = (b.onEngine (·.collect r)).2 ∧ ¬ b.engine.Reached r id := by
  cases h with
  | closeScope => exact .inl ⟨e, by rw [heap_closeScope, he], rfl⟩
  | allocate object => exact .inl ⟨e, hw.get?_allocate_of_some object he, rfl⟩
  | @update id' f heap hf hu =>
    left
    change ∃ e', heap.get? id = some e' ∧ _
    rw [Heap.get?_update hu, he]
    by_cases hid : id = id'
    · exact ⟨f e, by simp [hid], hf e⟩
    · exact ⟨e, by simp [hid], rfl⟩
  | wrapFresh o => exact .inl ⟨e, hw.get?_allocate_of_some _ he, rfl⟩
  | release => exact .inl ⟨e, by rw [heap_release, he], rfl⟩
  | collect r =>
    by_cases hr : b.engine.Reached r id
    · exact .inl ⟨e, (b.engine.get?_collect_of_reached r hr).trans he, rfl⟩
    · exact .inr ⟨r, rfl, hr⟩
  | _ => exact .inl ⟨e, he, rfl⟩

theorem Moves.wellFormed (h : Moves d b b') (hw : b.engine.heap.WellFormed) :
    b'.engine.heap.WellFormed :=
  h.invariant (P := fun b => b.engine.heap.WellFormed) Move.wellFormed hw

theorem Moves.grows (h : Moves d b b') (hw : b.engine.heap.WellFormed) :
    b.engine.heap.Grows b'.engine.heap := by
  induction h with
  | refl => exact .refl _
  | tail hprev hstep ih => exact ih.trans (hstep.1.grows (Moves.wellFormed hprev hw))

theorem Moves.issued (h : Moves d b b') (hw : b.engine.heap.WellFormed) {id : ObjectId}
    (hi : b.engine.heap.Issued id) : b'.engine.heap.Issued id := by
  induction h with
  | refl => exact hi
  | tail hprev hstep ih => exact hstep.1.issued (Moves.wellFormed hprev hw) ih

end Bridge
end ScriptBridge
