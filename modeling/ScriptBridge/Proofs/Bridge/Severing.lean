import ScriptBridge.Proofs.Bridge.Anchors
import ScriptBridge.Proofs.Bridge.Collecting
import ScriptBridge.Proofs.OwnershipEdges

/-! # Severing what is not anchored

Everything but an anchor can be taken away from an object with a few operations, and then the next
collection takes the object too.

* `Bridge.severing` lists the operations for a bridge: every edge and every global is removed, every
  binding made weak, every property overwritten.
* `Bridge.bare_severing`: nothing is left but pins and captures.
* `Bridge.not_isAlive_collect_severing`: an object that is not anchored is gone after the next
  collection.
-/

namespace ScriptBridge
set_option autoImplicit false

namespace Bridge

/-! ## Losing reasons -/

/-- The anchors are the same, and the second bridge has no reason to keep an object that the first
does not have. -/
structure Loses (b b' : Bridge) : Prop extends SameAnchors b b' where
  edges : ∀ p c, c ∈ b'.edges.children p → c ∈ b.edges.children p
  globals : ∀ name v, b'.engine.global? name = some v → b.engine.global? name = some v
  modes : ∀ w, b'.registry.mode? w = some .strong → b.registry.mode? w = some .strong
  properties : ∀ id name v, b'.engine.property? id name = some v →
    v = .undefined ∨ b.engine.property? id name = some v

/-- A bridge that has no reason to keep an object but anchors. -/
structure Bare (b : Bridge) : Prop where
  edges : ∀ p c, c ∉ b.edges.children p
  globals : ∀ name, b.engine.global? name = none
  modes : ∀ w, b.registry.mode? w ≠ some .strong
  properties : ∀ id name v, b.engine.property? id name = some v → v = .undefined

variable {nesting : Nat} {b b' b'' : Bridge} {op : Operation} {ops : List Operation} {id : ObjectId}

theorem Loses.refl (b : Bridge) : Loses b b where
  scopes := rfl
  objects _ := rfl
  edges _ _ := fun h => h
  globals _ _ := fun h => h
  modes _ := fun h => h
  properties _ _ _ := .inr

theorem Loses.trans (h : Loses b b') (h' : Loses b' b'') : Loses b b'' where
  scopes := h'.scopes.trans h.scopes
  objects id := (h'.objects id).trans (h.objects id)
  edges p c := fun hc => h.edges p c (h'.edges p c hc)
  globals name v := fun hv => h.globals name v (h'.globals name v hv)
  modes w := fun hw => h.modes w (h'.modes w hw)
  properties id name v := fun hv => (h'.properties id name v hv).elim .inl (h.properties id name v)

theorem Bare.anchored (hb : b.Bare) (hr : b.Reaches id) : b.Anchored id := by
  induction hr with
  | @pinned scope v id hs hv hn hc =>
    obtain ⟨i, hi⟩ := List.mem_iff_getElem?.1 hs
    have hlt := (List.getElem?_eq_some_iff.1 hi).1
    rw [Roots.length_scopes] at hlt
    exact .pinned ⟨i, scope, hlt, hi, hv⟩ hn hc
  | global hg _ _ => cases (hb.globals _).symm.trans hg
  | strong hm _ => exact absurd hm (hb.modes _)
  | property _ hp hn _ _ =>
    rw [hb.properties _ _ _ hp] at hn
    cases hn
  | capture _ he hv hn hc ih => exact .captured ih he hv hn hc
  | owned _ hown _ _ => exact absurd (List.contains_iff_mem.1 hown) (hb.edges _ _)

/-! ## What severing operations do -/

section
variable (nesting) (b)

theorem state_removeEdge (parent child : ObjectId) :
    (server nesting (.removeEdge parent child) b).2 =
      { b with edges := (b.edges.remove parent child).2 } := by
  cases nesting <;> rfl

theorem state_removeGlobal (name : String) :
    (server nesting (.removeGlobal name) b).2 = b.mapEngine fun e =>
      { e with roots := { e.roots with globals := e.roots.globals.erase name } } := by
  cases nesting <;> rfl

theorem state_weaken (wrapper : ObjectId) :
    (server nesting (.setMode wrapper .weak) b).2 = (b.setMode wrapper .weak).2 := by
  cases nesting <;> rfl

theorem state_blank (id : ObjectId) (name : String) :
    (server nesting (.setHostProperty id name .undefined) b).2 =
      (b.onEngine (·.setProperty id name .undefined)).2 := by
  cases nesting <;> rfl

end

theorem loses_removeEdge (b : Bridge) (parent child : ObjectId) :
    Loses b { b with edges := (b.edges.remove parent child).2 } where
  __ := Loses.refl b
  edges p c := by
    intro hc
    change c ∈ (b.edges.remove parent child).2.children p at hc
    rw [Ownership.children_remove] at hc
    split at hc
    · exact List.mem_of_mem_erase hc
    · exact hc

theorem loses_removeGlobal (b : Bridge) (name : String) :
    Loses b (b.mapEngine fun e =>
      { e with roots := { e.roots with globals := e.roots.globals.erase name } }) where
  __ := Loses.refl b
  globals name' v := by
    intro hv
    change (b.engine.roots.globals.erase name).find? name' = some v at hv
    rw [Table.find?_erase] at hv
    split at hv
    · cases hv
    · exact hv

theorem loses_weaken (b : Bridge) (wrapper : ObjectId) :
    Loses b (b.setMode wrapper .weak).2 where
  __ := Loses.refl b
  modes w := by
    intro hw
    change (b.registry.setMode wrapper .weak).2.mode? w = _ at hw
    rw [Registry.mode?_setMode] at hw
    split at hw
    · obtain ⟨_, _, h⟩ := Option.map_eq_some_iff.1 hw
      cases h
    · exact hw

/-- Assigning a property changes the heap, and on it the properties of that object only. -/
theorem setProperty_eq (b : Bridge) (id : ObjectId) (name : String) (v : Script.Value) :
    ∃ heap : Heap, (b.onEngine (·.setProperty id name v)).2 =
        b.mapEngine (fun e => { e with heap }) ∧
      ∀ id', heap.get? id' =
        if id' = id then
          (b.engine.heap.get? id').map fun e => { e with properties := e.properties.insert name v }
        else b.engine.heap.get? id' := by
  simp only [onEngine, Engine.setProperty, Engine.update]
  cases hu : b.engine.heap.update id fun e =>
      { e with properties := e.properties.insert name v } with
  | ok heap => exact ⟨heap, rfl, Heap.get?_update hu⟩
  | error err =>
    have hnone : b.engine.heap.get? id = none := by
      unfold Heap.update at hu
      split at hu
      · cases hu
      next hnot => simpa [Heap.contains] using hnot
    refine ⟨b.engine.heap, rfl, fun id' => ?_⟩
    by_cases hid : id' = id
    · simp [hid, hnone]
    · simp [hid]

theorem property?_setProperty (b : Bridge) (id : ObjectId) (name : String) (v : Script.Value)
    {id' : ObjectId} {name' : String} {v' : Script.Value}
    (h : (b.onEngine (·.setProperty id name v)).2.engine.property? id' name' = some v') :
    if id' = id ∧ name' = name then v' = v else b.engine.property? id' name' = some v' := by
  obtain ⟨heap, heq, hget⟩ := b.setProperty_eq id name v
  rw [heq] at h
  obtain ⟨e, he, hfind⟩ := Option.bind_eq_some_iff.1 h
  change heap.get? id' = some e at he
  rw [hget] at he
  split at he
  next hid =>
    obtain ⟨e', he', rfl⟩ := Option.map_eq_some_iff.1 he
    rw [Table.find?_insert] at hfind
    by_cases hname : name' = name
    · simp_all
    · rw [if_neg hname] at hfind
      rw [if_neg fun hand => hname hand.2]
      exact Option.bind_eq_some_iff.2 ⟨e', he', hfind⟩
  next hid =>
    rw [if_neg fun hand => hid hand.1]
    exact Option.bind_eq_some_iff.2 ⟨e, he, hfind⟩

theorem loses_blank (b : Bridge) (id : ObjectId) (name : String) :
    Loses b (b.onEngine (·.setProperty id name .undefined)).2 := by
  obtain ⟨heap, heq, hget⟩ := b.setProperty_eq id name .undefined
  have hproperty := @property?_setProperty b id name .undefined
  rw [heq] at hproperty ⊢
  refine { Loses.refl b with objects := fun id' => ?_, properties := fun id' name' v hv => ?_ }
  · change (heap.get? id').map _ = _
    rw [hget]
    split
    · rw [Option.map_map]
      rfl
    · rfl
  · have := hproperty hv
    split at this
    · exact .inl this
    · exact .inr this

end Bridge

/-- The operation takes away a reason to keep an object, and no anchor. -/
inductive Operation.Severs : Operation → Prop where
  | edge (parent child : ObjectId) : Severs (.removeEdge parent child)
  | global (name : String) : Severs (.removeGlobal name)
  | mode (wrapper : ObjectId) : Severs (.setMode wrapper .weak)
  | property (id : ObjectId) (name : String) : Severs (.setHostProperty id name .undefined)

theorem Operation.Severs.loses {op : Operation} (h : op.Severs) (nesting : Nat) (b : Bridge) :
    b.Loses (Bridge.server nesting op b).2 := by
  cases h with
  | edge parent child =>
    rw [Bridge.state_removeEdge]
    exact b.loses_removeEdge parent child
  | global name =>
    rw [Bridge.state_removeGlobal]
    exact b.loses_removeGlobal name
  | mode wrapper =>
    rw [Bridge.state_weaken]
    exact b.loses_weaken wrapper
  | property id name =>
    rw [Bridge.state_blank]
    exact b.loses_blank id name

namespace Bridge

/-! ## Operations in a row -/

/-- The bridge after operations one after another. -/
def performAll (nesting : Nat) (b : Bridge) (ops : List Operation) : Bridge :=
  ops.foldl (fun b op => (server nesting op b).2) b

variable {nesting : Nat} {b b' : Bridge} {op : Operation} {ops : List Operation} {id : ObjectId}

theorem performAll_append (nesting : Nat) (b : Bridge) (ops ops' : List Operation) :
    performAll nesting b (ops ++ ops') = performAll nesting (performAll nesting b ops) ops' :=
  List.foldl_append

theorem loses_performAll (nesting : Nat) (b : Bridge) (hops : ∀ op ∈ ops, op.Severs) :
    Loses b (performAll nesting b ops) := by
  induction ops generalizing b with
  | nil => exact .refl b
  | cons op rest ih =>
    have hfirst := (hops op List.mem_cons_self).loses nesting b
    exact hfirst.trans (ih _ fun a ha => hops a (List.mem_cons_of_mem op ha))

/-- What one of the operations brings about is so in the end, if it cannot be lost. -/
theorem performAll_of_mem {P : Bridge → Prop} (hP : ∀ {b b' : Bridge}, Loses b b' → P b → P b')
    (hops : ∀ op ∈ ops, op.Severs) (hmem : op ∈ ops) (hop : ∀ b, P (server nesting op b).2) :
    P (performAll nesting b ops) := by
  obtain ⟨before, after, rfl⟩ := List.append_of_mem hmem
  rw [performAll_append]
  have hafter : ∀ a ∈ after, a.Severs := fun a ha => hops a (by simp [ha])
  exact hP (loses_performAll nesting (server nesting op _).2 hafter) (hop _)

theorem count_children_performAll (nesting : Nat) (b : Bridge)
    (pairs : List (ObjectId × ObjectId)) (p c : ObjectId) :
    ((performAll nesting b (pairs.map fun e => .removeEdge e.1 e.2)).edges.children p).count c =
      (b.edges.children p).count c - pairs.count (p, c) := by
  -- Counted, because nothing says here that a child stands in the table only once.
  induction pairs generalizing b with
  | nil => rfl
  | cons e rest ih =>
    change ((performAll nesting (server nesting (.removeEdge e.1 e.2) b).2
      _).edges.children p).count c = _
    rw [ih, state_removeEdge]
    change ((b.edges.remove e.1 e.2).2.children p).count c - _ = _
    rw [Ownership.children_remove, List.count_cons]
    by_cases hp : p = e.1
    · rw [if_pos hp, List.count_erase]
      grind
    · grind

/-! ## Severing everything -/

/-- The operations that take away from a bridge all there is to take. -/
def severing (b : Bridge) : List Operation :=
  b.edges.pairs.map (fun e => .removeEdge e.1 e.2) ++
    (b.engine.roots.globals.keys.map .removeGlobal ++
      (b.registry.bindings.keys.map (.setMode · .weak) ++
        b.engine.heap.ids.flatMap fun id =>
          (((b.engine.heap.get? id).map (·.properties.keys)).getD []).map
            (.setHostProperty id · .undefined)))

theorem severs_severing (b : Bridge) : ∀ op ∈ b.severing, op.Severs := by
  intro op h
  simp only [severing, List.mem_append, List.mem_flatMap, List.mem_map] at h
  rcases h with ⟨e, -, rfl⟩ | ⟨name, -, rfl⟩ | ⟨w, -, rfl⟩ | ⟨id, -, name, -, rfl⟩
  · exact .edge e.1 e.2
  · exact .global name
  · exact .mode w
  · exact .property id name

theorem loses_severing (nesting : Nat) (b : Bridge) : Loses b (performAll nesting b b.severing) :=
  loses_performAll nesting b b.severs_severing

/-- Every edge is removed as often as it is there. -/
theorem children_severing (nesting : Nat) (b : Bridge) (p c : ObjectId) :
    c ∉ (performAll nesting b b.severing).edges.children p := by
  have hedges : c ∉ (performAll nesting b
      (b.edges.pairs.map fun e => .removeEdge e.1 e.2)).edges.children p := by
    rw [← List.count_eq_zero, count_children_performAll]
    exact Nat.sub_eq_zero_of_le (b.edges.count_le_count_pairs p c)
  have hsevers := b.severs_severing
  unfold severing at hsevers ⊢
  rw [performAll_append]
  have hlater := loses_performAll nesting (performAll nesting b
    (b.edges.pairs.map fun e => .removeEdge e.1 e.2))
      fun op hop => hsevers op (List.mem_append_right _ hop)
  exact fun hmem => hedges (hlater.edges p c hmem)

theorem global?_severing (nesting : Nat) (b : Bridge) (name : String) :
    (performAll nesting b b.severing).engine.global? name = none := by
  have hkeep : ∀ {b b' : Bridge}, Loses b b' → b.engine.global? name = none →
      b'.engine.global? name = none := by
    intro b b' h hb
    refine Option.eq_none_iff_forall_ne_some.2 fun v hv => ?_
    cases hb.symm.trans (h.globals name v hv)
  have hsevers := b.severs_severing
  by_cases hname : name ∈ b.engine.roots.globals.keys
  · have hmem : .removeGlobal name ∈ b.severing := by simp [severing, hname]
    refine performAll_of_mem hkeep hsevers hmem fun b => ?_
    rw [state_removeGlobal]
    exact (Table.find?_erase _ _ _).trans (if_pos rfl)
  · refine hkeep (loses_severing nesting b) ?_
    refine Option.eq_none_iff_forall_ne_some.2 fun v hv => ?_
    exact hname (Table.mem_keys_of_find? hv)

theorem mode?_severing (nesting : Nat) (b : Bridge) (w : ObjectId) :
    (performAll nesting b b.severing).registry.mode? w ≠ some .strong := by
  have hkeep : ∀ {b b' : Bridge}, Loses b b' → b.registry.mode? w ≠ some .strong →
      b'.registry.mode? w ≠ some .strong := fun h hb hw => hb (h.modes w hw)
  have hsevers := b.severs_severing
  by_cases hw : w ∈ b.registry.bindings.keys
  · have hmem : .setMode w .weak ∈ b.severing := by simp [severing, hw]
    refine performAll_of_mem hkeep hsevers hmem fun b => ?_
    rw [state_weaken]
    change (b.registry.setMode w .weak).2.mode? w ≠ _
    rw [Registry.mode?_setMode, if_pos rfl]
    simp
  · refine hkeep (loses_severing nesting b) fun hstrong => hw ?_
    obtain ⟨binding, hbinding, -⟩ := Option.map_eq_some_iff.1 hstrong
    exact Table.mem_keys_of_find? hbinding

theorem property?_severing (nesting : Nat) (b : Bridge) (id : ObjectId) (name : String)
    (v : Script.Value) (hv : (performAll nesting b b.severing).engine.property? id name = some v) :
    v = .undefined := by
  have hsevers := b.severs_severing
  rcases (loses_severing nesting b).properties id name v hv with hundef | hold
  · exact hundef
  · obtain ⟨e, he, hfind⟩ := Option.bind_eq_some_iff.1 hold
    have hid := Heap.mem_ids_of_contains (Heap.contains_of_get? he)
    have hmem : .setHostProperty id name .undefined ∈ b.severing := by
      simp only [severing, List.mem_append, List.mem_flatMap, List.mem_map]
      refine .inr (.inr (.inr ⟨id, hid, name, ?_, rfl⟩))
      rw [he]
      exact Table.mem_keys_of_find? hfind
    have hkeep : ∀ {b b' : Bridge}, Loses b b' →
        (∀ v, b.engine.property? id name = some v → v = .undefined) →
        ∀ v, b'.engine.property? id name = some v → v = .undefined :=
      fun h hb v hv => (h.properties id name v hv).elim (fun h => h) (hb v)
    refine performAll_of_mem hkeep hsevers hmem (fun b v hv => ?_) v hv
    rw [state_blank] at hv
    simpa using property?_setProperty b id name .undefined hv

theorem bare_severing (nesting : Nat) (b : Bridge) : (performAll nesting b b.severing).Bare where
  edges := children_severing nesting b
  globals := global?_severing nesting b
  modes := mode?_severing nesting b
  properties := property?_severing nesting b

/-! ## The end of what is not anchored -/

theorem isAlive_severing (nesting : Nat) (b : Bridge) (halive : b.isAlive id) :
    (performAll nesting b b.severing).isAlive id :=
  (loses_severing nesting b).isAlive halive

/-- **Without an anchor nothing lasts.** -/
theorem not_isAlive_collect_severing (nesting : Nat) (b : Bridge) (h : ¬ b.Anchored id) :
    ¬ (performAll nesting b b.severing).collect.2.isAlive id := by
  rw [isAlive_collect_iff]
  intro hr
  exact h ((loses_severing nesting b).symm.anchored ((bare_severing nesting b).anchored hr))

theorem later_performAll {d : Nat} (hops : ∀ op ∈ ops, op.Severs) (hd : d ≤ b.depth) :
    Later d b (performAll 0 b ops) := by
  induction ops generalizing b with
  | nil => exact .refl d b
  | cons op rest ih =>
    have hdepth : d ≤ (server 0 op b).2.depth := by
      rw [((hops op List.mem_cons_self).loses 0 b).depth]
      exact hd
    exact (later_ask op hdepth).trans (ih (fun a ha => hops a (List.mem_cons_of_mem op ha)) hdepth)

theorem later_severing (b : Bridge) : Later b.depth b (performAll 0 b b.severing) :=
  later_performAll b.severs_severing (Nat.le_refl _)

end Bridge
end ScriptBridge
