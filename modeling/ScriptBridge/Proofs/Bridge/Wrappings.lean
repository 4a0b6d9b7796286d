import ScriptBridge.Proofs.Bridge.Lifetimes
import ScriptBridge.Proofs.Bridge.Reports
import ScriptBridge.Proofs.Bridge.Rooting
import ScriptBridge.Proofs.Host.Scopes
import ScriptBridge.Proofs.Sequences

/-! # What wrapping changes

A conversion to script wraps instances, and that is all it does. An instance with a living wrapper
keeps it. Any other gets a fresh one, and if it had a wrapper that died behind the bridge's back, the
record of that one goes, together with the edges at it.

* `Bridge.Frame` is what is never touched, even when names run out: `Bridge.frame_wrapAll`.
* `Bridge.Gains` is one instance that gets a fresh wrapper: `Bridge.Sound.gains_wrap`.
* `Bridge.Grown` is any number of instances wrapped one after another, by induction:
  `Bridge.Sound.exists_grown`.
* `Bridge.toScript_changes` puts the two together for a conversion.
* `Bridge.exists_record_overwritten` is why the names have to last for that.
-/

namespace ScriptBridge
set_option autoImplicit false

namespace Bridge

variable {b c d : Bridge} {o : InstanceHandle} {os : List InstanceHandle} {id w : ObjectId}

/-- The instance has a living wrapper. -/
def isWrapped (b : Bridge) (o : InstanceHandle) : Bool := (b.registry.wrapper? o).any b.isAlive

theorem isWrapped_iff : b.isWrapped o ↔ ∃ w, b.Bound o w := by
  rw [isWrapped, Option.any_eq_true]
  exact exists_congr fun w => ⟨fun h => ⟨h.1, h.2⟩, fun h => ⟨h.wrapper, h.alive⟩⟩

theorem isWrapped_congr {o' : InstanceHandle} (h : o'.identity = o.identity) :
    b.isWrapped o' = b.isWrapped o := by
  rw [isWrapped, isWrapped, Registry.wrapper?, Registry.wrapper?, h]

/-- The instances among `os` that have no living wrapper, in the order in which these come. -/
def unwrapped (b : Bridge) (os : List InstanceHandle) : List InstanceId :=
  (os.filter fun o => !b.isWrapped o).map (·.identity)

theorem unwrapped_concat (b : Bridge) (os : List InstanceHandle) (o : InstanceHandle) :
    b.unwrapped (os ++ [o]) =
      if b.isWrapped o then b.unwrapped os else b.unwrapped os ++ [o.identity] := by
  rw [unwrapped, List.filter_append, List.map_append]
  cases ho : b.isWrapped o <;> simp [ho, unwrapped]

theorem isWrapped_of_mem_unwrapped (h : o.identity ∈ b.unwrapped os) : b.isWrapped o = false := by
  obtain ⟨o', ho', heq⟩ := List.mem_map.1 h
  rw [← isWrapped_congr heq]
  simpa using (List.mem_filter.1 ho').2

/-! ## What is never touched

This half needs no names to last. -/

/-- What a bridge keeps of an earlier one: objects and living wrappers, global bindings and outer
scopes stay, the innermost scope at most grows, and no edge is added. -/
structure Frame (b c : Bridge) : Prop where
  objects : ∀ id e, b.engine.heap.get? id = some e → c.engine.heap.get? id = some e
  bound : ∀ o w, b.Bound o w → c.Bound o w
  globals : c.engine.roots.globals = b.engine.roots.globals
  outer : c.engine.roots.outer = b.engine.roots.outer
  innermost : b.engine.roots.innermost <+: c.engine.roots.innermost
  edges : ∀ p q, c.edges.contains p q → b.edges.contains p q
  aside : c = { b with
    engine := { b.engine with
      heap := c.engine.heap, roots := c.engine.roots, journal := c.engine.journal }
    registry := c.registry
    edges := c.edges
    instances := c.instances
    milestones := c.milestones }

theorem Frame.refl (b : Bridge) : b.Frame b where
  objects := fun _ _ h => h
  bound := fun _ _ h => h
  globals := rfl
  outer := rfl
  innermost := List.prefix_refl _
  edges := fun _ _ h => h
  aside := rfl

theorem Frame.trans (h : b.Frame c) (h' : c.Frame d) : b.Frame d where
  objects := fun id e he => h'.objects id e (h.objects id e he)
  bound := fun o w hw => h'.bound o w (h.bound o w hw)
  globals := h'.globals.trans h.globals
  outer := h'.outer.trans h.outer
  innermost := h.innermost.trans h'.innermost
  edges := fun p q hc => h.edges p q (h'.edges p q hc)
  aside := by
    rw [h'.aside, h.aside]

theorem innermost_wrapFresh (b : Bridge) (o : InstanceHandle) :
    (b.wrapFresh o).2.engine.roots.innermost = b.engine.roots.innermost ++
      [.wrapper (b.engine.heap.allocate (.wrapper o.className)).1] :=
  (Roots.innermost_pin _ _).trans (if_neg nofun)

theorem frame_wrapFresh (hw : b.engine.heap.WellFormed) (o : InstanceHandle) :
    b.Frame (b.wrapFresh o).2 := by
  have hobjects : ∀ id e, b.engine.heap.get? id = some e →
      (b.wrapFresh o).2.engine.heap.get? id = some e :=
    fun _ _ he => hw.get?_allocate_of_some _ he
  constructor
  case objects => exact hobjects
  case bound =>
    intro o' w hbound
    obtain ⟨e, he⟩ := Heap.contains_iff.1 hbound.alive
    exact ⟨Registry.wrapper?_bind hbound.wrapper o _, Heap.contains_of_get? (hobjects w e he)⟩
  case globals => exact Roots.globals_pin _ _
  case outer => exact Roots.outer_pin _ _
  case innermost =>
    rw [innermost_wrapFresh]
    exact List.prefix_append _ _
  case edges => exact fun _ _ h => h
  case aside => rfl

/-- A release takes nothing but the records of the wrapper, which is dead. -/
theorem frame_release (hdead : b.isAlive w = false) (inFlight : List InstanceId) :
    b.Frame (b.release inFlight w).2 := by
  have hheap := b.heap_release inFlight w
  have hroots := b.roots_release inFlight w
  constructor
  case objects =>
    intro id e he
    rw [hheap, he]
  case bound =>
    intro o w' hbound
    have hne : w' ≠ w := by
      rintro rfl
      cases hdead.symm.trans hbound.alive
    refine ⟨?_, ?_⟩
    · rw [registry_release]
      exact Registry.wrapper?_without hbound.wrapper hne
    · rw [isAlive, Engine.isAlive, hheap]
      exact hbound.alive
  case globals => rw [hroots]
  case outer => rw [hroots]
  case innermost => rw [hroots]
  case edges =>
    intro p q hc
    rw [edges_release] at hc
    exact Ownership.contains_of_without hc
  case aside =>
    obtain ⟨instances, journal, heq⟩ := b.release_eq inFlight w
    rw [heq]
    rfl

theorem frame_wrap (hw : b.engine.heap.WellFormed) (o : InstanceHandle) :
    b.Frame (b.wrap o).2 := by
  have hboth : (b.wrap o).2.engine.heap.WellFormed ∧ b.Frame (b.wrap o).2 := by
    refine wrap_induction (P := fun c => c.engine.heap.WellFormed ∧ b.Frame c) o
      (fun c w hdead ⟨hwc, hc⟩ => ⟨?_, hc.trans (frame_release hdead [o.identity])⟩)
      (fun c ⟨hwc, hc⟩ => ⟨hwc.allocate _, hc.trans (frame_wrapFresh hwc o)⟩) ⟨hw, .refl b⟩
    rw [heap_release]
    exact hwc
  exact hboth.2

theorem frame_wrapAll (hw : b.engine.heap.WellFormed) (os : List InstanceHandle) :
    b.Frame (b.wrapAll os).2 := by
  induction os generalizing b with
  | nil => exact .refl b
  | cons o rest ih =>
    exact (frame_wrap hw o).trans (ih ((moves_wrap (Nat.zero_le _) o).wellFormed hw))

/-! ## One instance -/

/-- A bridge before and after an instance got a fresh wrapper. -/
structure Gains (b c : Bridge) (o : InstanceHandle) (id : ObjectId) : Prop where
  fresh : b.engine.heap.get? id = none
  unissued : ¬ b.engine.heap.Issued id
  get? : ∀ id', c.engine.heap.get? id' =
    if id' = id then some { object := .wrapper o.className } else b.engine.heap.get? id'
  innermost : c.engine.roots.innermost = b.engine.roots.innermost ++ [.wrapper id]
  wrapper? : ∀ o', c.registry.wrapper? o' =
    if o'.identity = o.identity then some id else b.registry.wrapper? o'
  binding? : ∀ w, c.registry.binding? w =
    if w = id then some ⟨o, .weak⟩
    else if b.registry.wrapper? o = some w then none else b.registry.binding? w
  edges : ∀ p q, c.edges.contains p q ↔
    b.edges.contains p q ∧ b.registry.wrapper? o ≠ some p ∧ b.registry.wrapper? o ≠ some q
  instances : ∀ i, (i = o.identity → b.registry.wrapper? o = none) →
    c.instances.get? i = b.instances.get? i

theorem Gains.isAlive_of_ne (h : b.Gains c o id) (hne : w ≠ id) : c.isAlive w = b.isAlive w :=
  congrArg Option.isSome ((h.get? w).trans (if_neg hne))

theorem Sound.gains_wrapFresh (h : b.Sound) (hnone : b.registry.wrapper? o = none)
    (hl : (b.wrapFresh o).2.engine.heap.NamesLast) :
    b.Gains (b.wrapFresh o).2 o (b.engine.heap.allocate (.wrapper o.className)).1 := by
  have hheap : (b.wrapFresh o).2.engine.heap =
      (b.engine.heap.allocate (.wrapper o.className)).2 := rfl
  have hregistry : (b.wrapFresh o).2.registry =
      (b.registry.bind o (b.engine.heap.allocate (.wrapper o.className)).1).2 := rfl
  rw [hheap] at hl
  constructor
  case fresh => exact h.wellFormed.get?_allocate_new _ hl.addressable
  case unissued => exact h.wellFormed.not_issued_allocate _ hl
  case get? =>
    intro id
    rw [hheap]
    by_cases hid : id = (b.engine.heap.allocate (.wrapper o.className)).1
    · rw [if_pos hid, hid, h.wellFormed.get?_allocate_self _ hl.addressable]
    · rw [if_neg hid, h.wellFormed.get?_allocate_of_ne _ hid]
  case innermost => exact b.innermost_wrapFresh o
  case wrapper? =>
    rw [hregistry]
    exact fun o' => Registry.byNative_bind hnone o'.identity
  case binding? =>
    intro w
    rw [hregistry, Registry.bind_of_none hnone, Registry.binding?, Table.find?_insert, hnone,
      if_neg (Option.some_ne_none w).symm, Registry.binding?]
  case edges =>
    intro p q
    rw [hnone]
    exact ⟨fun hc => ⟨hc, (Option.some_ne_none p).symm, (Option.some_ne_none q).symm⟩, And.left⟩
  case instances => exact fun _ _ => rfl

/-- The record of a dead wrapper is cleared before a fresh one is made. -/
theorem Gains.of_release (hs : b.Sound) (hm : b.edges.Mirrored)
    (hw : b.registry.wrapper? o = some w)
    (h : (b.release [o.identity] w).2.Gains c o id) : b.Gains c o id := by
  have hheap := b.heap_release [o.identity] w
  have hwrapper := hs.wrapper?_release [o.identity] w
  have hnone : (b.release [o.identity] w).2.registry.wrapper? o = none := by
    rw [hwrapper, if_pos hw]
  constructor
  case fresh => exact hheap ▸ h.fresh
  case unissued => exact hheap ▸ h.unissued
  case get? => exact hheap ▸ h.get?
  case innermost => exact b.roots_release [o.identity] w ▸ h.innermost
  case wrapper? =>
    intro o'
    rw [h.wrapper?, hwrapper]
    by_cases ho : o'.identity = o.identity
    · rw [if_pos ho, if_pos ho]
    · rw [if_neg ho, if_neg ho, if_neg]
      -- Only the instance itself had that wrapper.
      exact fun hw' => ho (hs.inverse.eq_of_find? hw' hw)
  case binding? =>
    intro w'
    rw [h.binding?, hnone, if_neg (Option.some_ne_none w').symm, registry_release,
      Registry.binding?_without, hw]
    by_cases hww : w' = w
    · rw [if_pos hww, if_pos (congrArg some hww.symm)]
    · rw [if_neg hww, if_neg fun heq => hww (Option.some.inj heq).symm]
  case edges =>
    intro p q
    rw [h.edges, hnone, edges_release, Ownership.contains_without_iff hm, hw]
    simp only [ne_eq, Option.some_inj, reduceCtorEq, not_false_eq_true, and_true, eq_comm]
    rw [and_rotate, and_rotate]
  case instances =>
    intro i hi
    rw [h.instances i fun _ => hnone]
    refine b.get?_instances_release [o.identity] fun o' ho' heq => ?_
    have hsame : o'.identity = o.identity :=
      hs.inverse.eq_of_find? ((hs.inverse _ w).2 ⟨o', ho', rfl⟩) hw
    cases hw.symm.trans (hi (heq.trans hsame))

/-- An instance without a living wrapper gets a fresh one. -/
theorem Sound.gains_wrap (h : b.Sound) (hm : b.edges.Mirrored) (hunwrapped : b.isWrapped o = false)
    (hl : (b.wrap o).2.engine.heap.NamesLast) : ∃ id, b.Gains (b.wrap o).2 o id := by
  cases hw : b.registry.wrapper? o with
  | none =>
    have heq : b.wrap o = b.wrapFresh o := by simp only [wrap, hw]
    rw [heq] at hl ⊢
    exact ⟨_, h.gains_wrapFresh hw hl⟩
  | some w =>
    have hdead : b.isAlive w = false := by
      rw [isWrapped, hw] at hunwrapped
      exact hunwrapped
    have heq : b.wrap o = (b.release [o.identity] w).2.wrapFresh o := by
      simp only [wrap, hw, hdead, Bool.false_eq_true, if_false]
    have hnone : (b.release [o.identity] w).2.registry.wrapper? o = none := by
      rw [h.wrapper?_release, if_pos hw]
    rw [heq] at hl ⊢
    exact ⟨_, .of_release h hm hw ((h.release [o.identity] w).gains_wrapFresh hnone hl)⟩

theorem wrap_of_isWrapped (h : b.isWrapped o) : (b.wrap o).2 = b := by
  obtain ⟨w, hw⟩ := isWrapped_iff.1 h
  rw [wrap_of_bound hw]

/-! ## Any number of instances -/

/-- The wrapper was recorded for one of the instances that were given another. -/
def Replaced (b : Bridge) (made : List (InstanceHandle × ObjectId)) (w : ObjectId) : Prop :=
  ∃ p ∈ made, b.registry.wrapper? p.1 = some w

theorem replaced_concat {made : List (InstanceHandle × ObjectId)} :
    b.Replaced (made ++ [(o, id)]) w ↔ b.Replaced made w ∨ b.registry.wrapper? o = some w := by
  simp only [Replaced, List.mem_append, List.mem_singleton, or_and_right, exists_or, exists_eq_left]

/-- A bridge before and after the instances `os` were wrapped, and the wrappers that were `made`: one
for each instance that had no living wrapper, in the order in which these came first. Dead wrappers
of these instances are replaced. -/
structure Grown (b c : Bridge) (os : List InstanceHandle)
    (made : List (InstanceHandle × ObjectId)) : Prop where
  handles : (made.map (·.1)).Sublist os
  identities : made.map (·.1.identity) = (b.unwrapped os).eraseDups
  names : (made.map (·.2)).Nodup
  fresh : ∀ p ∈ made, b.engine.heap.get? p.2 = none ∧ b.registry.binding? p.2 = none
  bound : ∀ p ∈ made, c.engine.heap.get? p.2 = some { object := .wrapper p.1.className } ∧
    c.registry.wrapper? p.1 = some p.2 ∧ c.registry.binding? p.2 = some ⟨p.1, .weak⟩
  objects : ∀ id, id ∉ made.map (·.2) → c.engine.heap.get? id = b.engine.heap.get? id
  innermost : c.engine.roots.innermost =
    b.engine.roots.innermost ++ made.map fun p => .wrapper p.2
  wrappers : ∀ o, o.identity ∉ made.map (·.1.identity) →
    c.registry.wrapper? o = b.registry.wrapper? o
  bindings : ∀ w, w ∉ made.map (·.2) → ¬ b.Replaced made w →
    c.registry.binding? w = b.registry.binding? w
  retired : ∀ w, b.Replaced made w →
    b.isAlive w = false ∧ c.isAlive w = false ∧ c.registry.binding? w = none
  edges : ∀ p q, c.edges.contains p q ↔
    b.edges.contains p q ∧ ¬ b.Replaced made p ∧ ¬ b.Replaced made q
  instances : ∀ i, (∀ p ∈ made, p.1.identity = i → b.registry.wrapper? p.1 = none) →
    c.instances.get? i = b.instances.get? i

namespace Grown

variable {made : List (InstanceHandle × ObjectId)}

theorem refl (b : Bridge) : b.Grown b [] [] where
  handles := .slnil
  identities := rfl
  names := .nil
  fresh := nofun
  bound := nofun
  objects := fun _ _ => rfl
  innermost := (List.append_nil _).symm
  wrappers := fun _ _ => rfl
  bindings := fun _ _ _ => rfl
  retired := fun _ h => by
    obtain ⟨p, hp, -⟩ := h
    cases hp
  edges := by simp [Replaced]
  instances := fun _ _ => rfl

theorem isAlive_of_not_mem (h : b.Grown c os made) (hw : w ∉ made.map (·.2)) :
    c.isAlive w = b.isAlive w :=
  congrArg Option.isSome (h.objects w hw)

/-- The instances that were given wrappers had none that was alive. -/
theorem isWrapped_eq_false (h : b.Grown c os made) (ho : o.identity ∈ made.map (·.1.identity)) :
    b.isWrapped o = false := by
  rw [h.identities, List.mem_eraseDups] at ho
  exact isWrapped_of_mem_unwrapped ho

theorem isWrapped_of_mem (h : b.Grown c os made) (ho : o.identity ∈ made.map (·.1.identity)) :
    c.isWrapped o := by
  obtain ⟨p, hp, heq⟩ := List.mem_map.1 ho
  obtain ⟨hobject, hwrapper, -⟩ := h.bound p hp
  rw [← isWrapped_congr heq]
  exact isWrapped_iff.2 ⟨p.2, hwrapper, Heap.contains_of_get? hobject⟩

/-- No wrapper that was recorded before is among the new ones. -/
theorem not_mem_of_wrapper? (hs : b.Sound) (h : b.Grown c os made)
    (hw : b.registry.wrapper? o = some w) : w ∉ made.map (·.2) := by
  intro hmem
  obtain ⟨p, hp, rfl⟩ := List.mem_map.1 hmem
  have hrecorded := hs.contains_of_wrapper? hw
  rw [Registry.contains, (h.fresh p hp).2] at hrecorded
  cases hrecorded

/-- An instance has a living wrapper afterwards if it had one or was given one. -/
theorem isWrapped_iff (hs : b.Sound) (h : b.Grown c os made) :
    c.isWrapped o ↔ b.isWrapped o ∨ o.identity ∈ made.map (·.1.identity) := by
  by_cases ho : o.identity ∈ made.map (·.1.identity)
  · exact iff_of_true (h.isWrapped_of_mem ho) (.inr ho)
  · rw [or_iff_left ho, isWrapped, isWrapped, h.wrappers o ho]
    cases hw : b.registry.wrapper? o with
    | none => exact Iff.rfl
    | some w =>
      rw [Option.any_some, Option.any_some, h.isAlive_of_not_mem (h.not_mem_of_wrapper? hs hw)]

/-- The next instance has a living wrapper: nothing changes. -/
theorem wrapped (hs : b.Sound) (h : b.Grown c os made) (ho : c.isWrapped o) :
    b.Grown c (os ++ [o]) made := by
  refine { h with handles := h.handles.trans (List.sublist_append_left os [o]), identities := ?_ }
  rw [h.identities, unwrapped_concat]
  split
  · rfl
  next hunwrapped =>
    have hmem := ((h.isWrapped_iff hs).1 ho).resolve_left hunwrapped
    rw [h.identities, List.mem_eraseDups] at hmem
    rw [eraseDups_concat, if_pos hmem]

/-- An instance that has no living wrapper afterwards was given none, and had none. -/
theorem isWrapped_before (hs : b.Sound) (h : b.Grown c os made) (ho : c.isWrapped o = false) :
    o.identity ∉ made.map (·.1.identity) ∧ b.isWrapped o = false := by
  rw [← Bool.not_eq_true, h.isWrapped_iff hs, not_or] at ho
  exact ⟨ho.2, Bool.eq_false_iff.2 ho.1⟩

/-! What the fresh wrapper `id` of the next instance `o` has to do with what was there before. -/

theorem id_not_mem (h : b.Grown c os made) (hg : c.Gains d o id) : id ∉ made.map (·.2) := by
  intro hmem
  obtain ⟨p, hp, rfl⟩ := List.mem_map.1 hmem
  cases hg.fresh.symm.trans (h.bound p hp).1

/-- Every recorded wrapper was issued, so that a fresh one is not on record. -/
theorem not_contains_id (hs : b.Sound)
    (hissued : ∀ id, b.engine.heap.Issued id → c.engine.heap.Issued id) (hg : c.Gains d o id) :
    ¬ b.registry.contains id :=
  fun hrecorded => hg.unissued (hissued id (hs.issued id hrecorded))

theorem fresh_id (h : b.Grown c os made) (hg : c.Gains d o id)
    (hunrecorded : ¬ b.registry.contains id) :
    b.engine.heap.get? id = none ∧ b.registry.binding? id = none := by
  rw [Registry.contains, Option.isSome_iff_ne_none, not_not] at hunrecorded
  exact ⟨(h.objects id (h.id_not_mem hg)).symm.trans hg.fresh, hunrecorded⟩

/-- The wrappers made before stay what they are. -/
theorem bound_before (h : b.Grown c os made) (ho : c.isWrapped o = false) (hg : c.Gains d o id)
    (hnew : o.identity ∉ made.map (·.1.identity)) {p : InstanceHandle × ObjectId} (hp : p ∈ made) :
    d.engine.heap.get? p.2 = some { object := .wrapper p.1.className } ∧
      d.registry.wrapper? p.1 = some p.2 ∧ d.registry.binding? p.2 = some ⟨p.1, .weak⟩ := by
  obtain ⟨hobject, hbound, hbinding⟩ := h.bound p hp
  have hpid : p.2 ≠ id := fun heq => h.id_not_mem hg (heq ▸ List.mem_map_of_mem hp)
  have hpo : p.1.identity ≠ o.identity := fun heq => hnew (heq ▸ List.mem_map_of_mem hp)
  have hpw : c.registry.wrapper? o ≠ some p.2 := by
    intro hw
    rw [Bridge.isWrapped_iff.2 ⟨p.2, hw, Heap.contains_of_get? hobject⟩] at ho
    cases ho
  rw [hg.get?, if_neg hpid, hg.wrapper?, if_neg hpo, hg.binding?, if_neg hpid, if_neg hpw]
  exact ⟨hobject, hbound, hbinding⟩

/-- The fresh wrapper is bound to its instance. -/
theorem bound_id (hg : c.Gains d o id) :
    d.engine.heap.get? id = some { object := .wrapper o.className } ∧
      d.registry.wrapper? o = some id ∧ d.registry.binding? id = some ⟨o, .weak⟩ := by
  rw [hg.get?, if_pos rfl, hg.wrapper?, if_pos rfl, hg.binding?, if_pos rfl]
  exact ⟨rfl, rfl, rfl⟩

/-- A wrapper that was replaced before stays without a record. -/
theorem retired_before (h : b.Grown c os made) (hg : c.Gains d o id)
    (hunrecorded : ¬ b.registry.contains id) (hs : b.Sound) (hw : b.Replaced made w) :
    b.isAlive w = false ∧ d.isAlive w = false ∧ d.registry.binding? w = none := by
  obtain ⟨hdead, hgone, hcleared⟩ := h.retired w hw
  have hne : w ≠ id := by
    obtain ⟨p, -, hp⟩ := hw
    rintro rfl
    exact hunrecorded (hs.contains_of_wrapper? hp)
  rw [hg.isAlive_of_ne hne, hg.binding?, if_neg hne, hcleared, ite_self]
  exact ⟨hdead, hgone, rfl⟩

/-- A dead wrapper of the next instance loses its record. -/
theorem retired_next (h : b.Grown c os made) (hg : c.Gains d o id)
    (hunrecorded : ¬ b.registry.contains id) (hs : b.Sound) (hunwrapped : b.isWrapped o = false)
    (hkept : c.registry.wrapper? o = b.registry.wrapper? o)
    (hw : b.registry.wrapper? o = some w) :
    b.isAlive w = false ∧ d.isAlive w = false ∧ d.registry.binding? w = none := by
  have hdead : b.isAlive w = false := by
    rw [isWrapped, hw] at hunwrapped
    exact hunwrapped
  have hne : w ≠ id := by
    rintro rfl
    exact hunrecorded (hs.contains_of_wrapper? hw)
  rw [hg.isAlive_of_ne hne, h.isAlive_of_not_mem (h.not_mem_of_wrapper? hs hw), hg.binding?,
    if_neg hne, hkept, if_pos hw]
  exact ⟨hdead, hdead, rfl⟩

theorem identities_concat (h : b.Grown c os made) (hunwrapped : b.isWrapped o = false)
    (hnew : o.identity ∉ made.map (·.1.identity)) :
    (made ++ [(o, id)]).map (·.1.identity) = (b.unwrapped (os ++ [o])).eraseDups := by
  rw [h.identities, List.mem_eraseDups] at hnew
  rw [List.map_append, h.identities, unwrapped_concat, hunwrapped, if_neg Bool.false_ne_true,
    eraseDups_concat, if_neg hnew]
  rfl

/-- The next instance has no living wrapper, and is given one. -/
theorem gains (hs : b.Sound) (hissued : ∀ id, b.engine.heap.Issued id → c.engine.heap.Issued id)
    (h : b.Grown c os made) (ho : c.isWrapped o = false) (hg : c.Gains d o id) :
    b.Grown d (os ++ [o]) (made ++ [(o, id)]) := by
  obtain ⟨hnew, hunwrapped⟩ := h.isWrapped_before hs ho
  have hkept : c.registry.wrapper? o = b.registry.wrapper? o := h.wrappers o hnew
  have hunrecorded : ¬ b.registry.contains id := not_contains_id hs hissued hg
  constructor
  case handles =>
    rw [List.map_append]
    exact h.handles.append (.refl [o])
  case identities => exact h.identities_concat hunwrapped hnew
  case names =>
    rw [List.map_append, List.map_singleton, ← List.concat_eq_append]
    exact h.names.concat (h.id_not_mem hg)
  case fresh =>
    exact List.forall_mem_append.2
      ⟨h.fresh, List.forall_mem_singleton.2 (h.fresh_id hg hunrecorded)⟩
  case bound =>
    exact List.forall_mem_append.2
      ⟨fun _ => h.bound_before ho hg hnew, List.forall_mem_singleton.2 (bound_id hg)⟩
  case objects =>
    intro id' hid'
    obtain ⟨hold, hother⟩ := not_mem_map_concat.1 hid'
    rw [hg.get?, if_neg hother, h.objects id' hold]
  case innermost =>
    rw [hg.innermost, h.innermost, List.map_append, List.append_assoc]
    rfl
  case wrappers =>
    intro o' ho'
    obtain ⟨hold, hother⟩ := not_mem_map_concat.1 ho'
    rw [hg.wrapper?, if_neg hother, h.wrappers o' hold]
  case bindings =>
    intro w hw hstays
    obtain ⟨hold, hother⟩ := not_mem_map_concat.1 hw
    rw [replaced_concat, not_or] at hstays
    rw [hg.binding?, if_neg hother, hkept, if_neg hstays.2, h.bindings w hold hstays.1]
  case retired =>
    intro w hw
    rcases replaced_concat.1 hw with hold | hold
    · exact h.retired_before hg hunrecorded hs hold
    · exact h.retired_next hg hunrecorded hs hunwrapped hkept hold
  case edges =>
    intro p q
    rw [hg.edges, h.edges, hkept, replaced_concat, replaced_concat]
    tauto
  case instances =>
    intro i hi
    rw [hg.instances i, h.instances i]
    · exact fun p hp => hi p (List.mem_append_left _ hp)
    · intro heq
      rw [hkept]
      exact hi (o, id) (List.mem_append_right _ (List.mem_singleton_self _)) heq.symm

/-- The record of an instance that was given no wrapper is as it was, mode and all. -/
theorem kept (hs : b.Sound) (h : b.Grown c os made) (ho : o.identity ∉ made.map (·.1.identity)) :
    c.registry.wrapper? o = b.registry.wrapper? o ∧
      ∀ w, b.registry.wrapper? o = some w → c.registry.binding? w = b.registry.binding? w := by
  refine ⟨h.wrappers o ho, fun w hw => ?_⟩
  refine h.bindings w (h.not_mem_of_wrapper? hs hw) ?_
  rintro ⟨p, hp, hpw⟩
  have hsame : p.1.identity = o.identity := hs.inverse.eq_of_find? hpw hw
  exact ho (hsame ▸ List.mem_map_of_mem hp)

end Grown

/-- However many instances are wrapped, each that had no living wrapper gets one. -/
theorem Sound.exists_grown (h : b.Sound) (hm : b.edges.Mirrored) (os : List InstanceHandle)
    (hl : (b.wrapAll os).2.engine.heap.NamesLast) : ∃ made, b.Grown (b.wrapAll os).2 os made := by
  induction os using List.reverseRecOn with
  | nil => exact ⟨[], .refl b⟩
  | append_singleton os o ih =>
    have hlast : (b.wrapAll (os ++ [o])).2 = ((b.wrapAll os).2.wrap o).2 := by
      rw [wrapAll_append]
      rfl
    rw [hlast] at hl ⊢
    have hmoves : Moves 0 b (b.wrapAll os).2 := moves_wrapAll os (Nat.zero_le _)
    have hw := hmoves.wellFormed h.wellFormed
    have hlmid := hl.of_grows ((moves_wrap (Nat.zero_le _) o).grows hw)
    obtain ⟨made, hmade⟩ := ih hlmid
    cases ho : (b.wrapAll os).2.isWrapped o with
    | true =>
      rw [wrap_of_isWrapped ho]
      exact ⟨made, hmade.wrapped h ho⟩
    | false =>
      obtain ⟨id, hgains⟩ :=
        (h.moves hmoves hlmid).gains_wrap (b.tells_wrapAll os hm).1 ho hl
      exact ⟨made ++ [(o, id)],
        hmade.gains h (fun _ => hmoves.issued h.wellFormed) ho hgains⟩

/-! ## Conversions -/

/-- **What a conversion to script changes.** Whether it succeeds or stops midway, it visits the first
of the instances in the value, or all of them if it succeeds, and what it changes is that these are
wrapped. As long as the names last, each that had no living wrapper gets one fresh weak wrapper,
pinned in the innermost scope, however often it occurs, and the edges that go are those at its dead
wrapper. An instance with a living wrapper, or one that is not in the value, keeps its record. Once a
slot was freed 2^32 times, a fresh wrapper may get a name that is still on record, and an instance
that is not in the value loses its record to it: `exists_record_overwritten`. -/
theorem toScript_changes (b : Bridge) (h : b.Reachable) (n : Native.Value) :
    let after := (b.toScript n).2
    let visited := (n.trail b.options.maxDepth).handles
    visited <+: n.handles ∧ ((b.toScript n).1.isOk → visited = n.handles) ∧ b.Frame after ∧
      (after.engine.heap.NamesLast →
        (∃ made, b.Grown after visited made) ∧
        ∀ o, (b.isWrapped o ∨ ∀ o' ∈ n.handles, o'.identity ≠ o.identity) →
          after.registry.wrapper? o = b.registry.wrapper? o ∧
          ∀ w, b.registry.wrapper? o = some w →
            after.registry.binding? w = b.registry.binding? w) := by
  intro after visited
  obtain ⟨hstate, hok⟩ := Native.Value.toScript_follows n b
  have halong := n.along_trail b.options.maxDepth
  have hafter : after = (b.wrapAll visited).2 := hstate
  refine ⟨halong.isPrefix, fun hsuccess => ?_, ?_, fun hl => ?_⟩
  · apply halong.eq_of_complete
    rw [← hok]
    exact hsuccess
  · rw [hafter]
    exact frame_wrapAll h.wellFormed visited
  have hs : b.Sound := h.sound_before (moves_toScript (Nat.zero_le _) n) hl
  rw [hafter] at hl ⊢
  obtain ⟨made, hgrown⟩ := hs.exists_grown h.mirrored visited hl
  refine ⟨⟨made, hgrown⟩, fun o ho => hgrown.kept hs fun hmem => ?_⟩
  rcases ho with hwrapped | habsent
  · rw [hgrown.isWrapped_eq_false hmem] at hwrapped
    cases hwrapped
  · obtain ⟨p, hp, heq⟩ := List.mem_map.1 hmem
    have hvisited : p.1 ∈ visited := hgrown.handles.subset (List.mem_map_of_mem hp)
    exact habsent p.1 (halong.isPrefix.subset hvisited) heq

/-- The host took both leaves by itself. A conversion wraps the first one again, once for the two
places where it stands, with which its edge goes. It stops at a key without a name, before the second
leaf, whose dead wrapper stays on record. -/
theorem toScript_changes_of_twoLeaves :
    let first : InstanceHandle := ⟨"Leaf", ⟨0⟩⟩
    let swept := ((twoLeaves.addEdge ⟨0, 0⟩ ⟨1, 0⟩).2.onEngine (·.collect {})).2
    let n : Native.Value := .list
      [.object first, .object first, .map [(.list [], .null)], .object ⟨"Leaf", ⟨1⟩⟩]
    let after := (swept.wrap first).2
    swept.Reachable ∧ after.engine.heap.NamesLast ∧
      (swept.toScript n).1.isOk = false ∧ (swept.toScript n).2 = after ∧
      (∃ made, swept.Grown after [first, first] made ∧ made.map (·.1.identity) = [⟨0⟩]) ∧
      swept.edges.contains ⟨0, 0⟩ ⟨1, 0⟩ ∧ ¬ after.edges.contains ⟨0, 0⟩ ⟨1, 0⟩ ∧
      swept.isAlive ⟨1, 0⟩ = false ∧ after.registry.wrapper? ⟨"Leaf", ⟨1⟩⟩ = some ⟨1, 0⟩ := by
  intro first swept n after
  have hreach : swept.Reachable := reachable_twoLeaves.run
    ((Relation.ReflTransGen.single ⟨0, .ask (.addEdge ⟨0, 0⟩ ⟨1, 0⟩)⟩).tail
      ⟨0, .ask (.hostCollect {})⟩)
  have hl : after.engine.heap.NamesLast := ⟨by decide, by decide⟩
  have htrail : n.trail swept.options.maxDepth = ⟨[first, first], false⟩ := by decide
  have hagain : after.isWrapped first := by decide
  have hfollows := Native.Value.toScript_follows n swept
  simp only [htrail, wrapAll] at hfollows
  have hstate : (swept.toScript n).2 = after := by
    rw [← wrap_of_isWrapped hagain]
    exact hfollows.1
  obtain ⟨-, -, -, hchanges⟩ := toScript_changes swept hreach n
  rw [htrail, hstate] at hchanges
  obtain ⟨⟨made, hgrown⟩, -⟩ := hchanges hl
  have hmade : made.map (·.1.identity) = [⟨0⟩] := hgrown.identities.trans (by decide)
  have hedge : ¬ after.edges.contains ⟨0, 0⟩ ⟨1, 0⟩ := by
    obtain ⟨p, hp, heq⟩ : ∃ p ∈ made, p.1.identity = ⟨0⟩ := by
      apply List.mem_map.1
      rw [hmade]
      exact List.mem_singleton_self _
    have hold : swept.registry.wrapper? p.1 = some ⟨0, 0⟩ := by
      rw [Registry.wrapper?, heq]
      decide
    exact fun hc => ((hgrown.edges _ _).1 hc).2.1 ⟨p, hp, hold⟩
  exact ⟨hreach, hl, hfollows.2, hstate, ⟨made, hgrown, hmade⟩, by decide, hedge, by decide,
    by decide⟩

/-! ## When the names run out -/

/-- A name that is given out while it is on record for another instance is taken from that one: it
then has the wrapper of the instance that was wrapped. -/
theorem binding?_wrap_of_recorded (hw : b.engine.heap.WellFormed) {o' : InstanceHandle}
    (hnone : b.registry.wrapper? o = none) (hrecord : b.registry.wrapper? o' =
      some (b.engine.heap.allocate (.wrapper o.className)).1)
    (ha : (b.engine.heap.allocate (.wrapper o.className)).2.Addressable) :
    (b.wrap o).2.registry.binding? (b.engine.heap.allocate (.wrapper o.className)).1 =
        some ⟨o, .weak⟩ ∧
      (b.wrap o).2.Bound o' (b.engine.heap.allocate (.wrapper o.className)).1 := by
  have hwrap : b.wrap o = b.wrapFresh o := by simp only [wrap, hnone]
  have hregistry : (b.wrapFresh o).2.registry =
      (b.registry.bind o (b.engine.heap.allocate (.wrapper o.className)).1).2 := rfl
  rw [hwrap]
  refine ⟨?_, Registry.wrapper?_bind hrecord o _,
    Heap.contains_of_get? (hw.get?_allocate_self _ ha)⟩
  rw [hregistry, Registry.bind_of_none hnone, Registry.binding?, Table.find?_insert, if_pos rfl]

/-- The first of two leaves has a record of a wrapper that the host took by itself. -/
def strayed : Bridge :=
  let b := (({} : Bridge).defineClass { name := "Leaf" }).2.openScope
  let (first, b) := b.create "Leaf" (.word 1)
  let (_, b) := b.create "Leaf" (.word 2)
  ((b.wrap first).2.closeScope.onEngine (·.collect {})).2

/-- The one slot was freed so many times, and the record of the first leaf stands since the first. -/
structure Strayed (b : Bridge) (frees : Nat) : Prop where
  reachable : b.Reachable
  heap : b.engine.heap = { slots := #[⟨frees, none⟩], vacant := [0] }
  roots : b.engine.roots = {}
  registry : b.registry = strayed.registry

theorem strayed_one : strayed.Strayed 1 where
  reachable := by
    refine ⟨{}, ?_⟩
    have start : Run ({} : Bridge) {} := Relation.ReflTransGen.refl
    have opened := (start.tail ⟨0, .defineClass { name := "Leaf" }⟩).tail ⟨0, .ask .openScope⟩
    have made := (opened.tail ⟨0, .ask (.create "Leaf" (.word 1))⟩).tail
      ⟨0, .ask (.create "Leaf" (.word 2))⟩
    exact ((made.tail ⟨0, .ask (.wrap ⟨"Leaf", ⟨0⟩⟩)⟩).tail ⟨0, .ask .closeScope⟩).tail
      ⟨0, .ask (.hostCollect {})⟩
  heap := rfl
  roots := rfl
  registry := rfl

theorem sweep_one_slot (frees : Nat) (e : LiveObject) :
    (Heap.sweep { slots := #[⟨frees, some e⟩], live := 1 } []).2 =
      { slots := #[⟨frees + 1, none⟩], vacant := [0] } := by
  have hids : Heap.ids { slots := #[⟨frees, some e⟩], live := 1 } = [⟨0, UInt32.ofNat frees⟩] :=
    rfl
  have hget : Heap.get? { slots := #[⟨frees, some e⟩], live := 1 } ⟨0, UInt32.ofNat frees⟩ =
      some e := if_pos rfl
  rw [Heap.sweep, hids]
  change (Heap.freeAll _ [⟨0, UInt32.ofNat frees⟩]).2 = _
  rw [Heap.freeAll, Heap.free?, hget]
  rfl

/-- A function that nothing holds takes the slot and leaves it. -/
theorem Strayed.next {frees : Nat} (h : b.Strayed frees) : ∃ c : Bridge, c.Strayed (frees + 1) := by
  let body : HostFunction := fun _ => ⟨[], .ok .undefined⟩
  let used := (b.openScope.createFunction "" body).2.closeScope
  have hheap : used.engine.heap = (b.engine.heap.allocate (.function "" [] body)).2 :=
    heap_closeScope _
  have hroots : used.engine.roots = {} := by
    have hpinned : (b.openScope.createFunction "" body).2.engine.roots =
        b.engine.roots.openScope.pin
          (.function (b.engine.heap.allocate (.function "" [] body)).1) := rfl
    rw [roots_closeScope, hpinned, h.roots]
    rfl
  refine ⟨(used.onEngine (·.collect {})).2, ⟨?_, ?_, hroots, h.registry⟩⟩
  · have opened : Run b b.openScope := Relation.ReflTransGen.single ⟨0, .ask .openScope⟩
    exact h.reachable.run (((opened.tail ⟨0, .ask (.createFunction "" body)⟩).tail
      ⟨0, .ask .closeScope⟩).tail ⟨0, .ask (.hostCollect {})⟩)
  · change (used.engine.heap.sweep (used.engine.heap.mark used.engine.roots {})).2 = _
    rw [hroots, hheap, h.heap]
    exact sweep_one_slot frees _

theorem exists_strayed (frees : Nat) : ∃ b : Bridge, b.Strayed (frees + 1) := by
  induction frees with
  | zero => exact ⟨strayed, strayed_one⟩
  | succ frees ih =>
    obtain ⟨b, hb⟩ := ih
    exact hb.next

/-- Why the names have to last: a slot that was freed 2^32 times gives out its first name again. If
that name is still on record, a conversion overwrites the record of an instance that is not in the
value, and that instance then has the wrapper of another one. -/
theorem exists_record_overwritten : ∃ b : Bridge, b.Reachable ∧
    ∃ (o o' : InstanceHandle) (w : ObjectId), o'.identity ≠ o.identity ∧
      b.registry.binding? w = some ⟨o', .weak⟩ ∧ b.isAlive w = false ∧
      let after := (b.toScript (.object o)).2
      after.registry.binding? w = some ⟨o, .weak⟩ ∧ after.Bound o' w := by
  obtain ⟨b, hb⟩ := exists_strayed (UInt32.size - 1)
  let first : InstanceHandle := ⟨"Leaf", ⟨0⟩⟩
  let second : InstanceHandle := ⟨"Leaf", ⟨1⟩⟩
  have hname : (b.engine.heap.allocate (.wrapper "Leaf")).1 = ⟨0, 0⟩ := by
    rw [hb.heap]
    rfl
  have ha : (b.engine.heap.allocate (.wrapper "Leaf")).2.Addressable := by
    rw [hb.heap]
    change 1 ≤ UInt32.size
    decide
  have hnone : b.registry.wrapper? second = none := by
    rw [hb.registry]
    rfl
  have hrecord : b.registry.wrapper? first = some ⟨0, 0⟩ := by
    rw [hb.registry]
    rfl
  have hbinding : b.registry.binding? ⟨0, 0⟩ = some ⟨first, .weak⟩ := by
    rw [hb.registry]
    rfl
  have hdead : b.isAlive ⟨0, 0⟩ = false := by
    rw [isAlive, Engine.isAlive, hb.heap]
    rfl
  have hstate : (b.toScript (.object second)).2 = (b.wrap second).2 := by
    have htrail : Native.Value.trail b.options.maxDepth (.object second) = ⟨[second], true⟩ := by
      rw [Native.Value.trail, Native.Value.trailAt, Trail.within, if_neg (Nat.not_lt_zero _)]
    have hfollows : (b.toScript (.object second)).2 =
        (b.wrapAll (Native.Value.trail b.options.maxDepth (.object second)).handles).2 :=
      (Native.Value.toScript_follows (.object second) b).1
    rw [hfollows, htrail]
    rfl
  have hoverwritten :=
    binding?_wrap_of_recorded hb.reachable.wellFormed hnone (hname ▸ hrecord) ha
  rw [hname, ← hstate] at hoverwritten
  exact ⟨b, hb.reachable, second, first, ⟨0, 0⟩, by decide, hbinding, hdead, hoverwritten⟩

end Bridge
end ScriptBridge
