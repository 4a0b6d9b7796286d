import ScriptBridge.Proofs.Bridge.Lifetimes
import ScriptBridge.Proofs.Bridge.Collecting
import ScriptBridge.Proofs.OwnershipTable

/-! # One collection is enough

A collection releases the wrappers that it swept, and so takes edges and bindings away from under
the next one. They are edges and bindings of what is gone: no survivor was kept by any of them.
So every survivor is reached again, and a second collection finds nothing to do.

* `Bridge.Settled` says that everything alive is reached. A collection leaves a settled bridge
  (`Bridge.settled_collect`), and does nothing to one (`Bridge.Settled.collect_eq`).
* `Bridge.Forsaken` says of a set of objects that nothing outside it keeps one of them: a chain or a
  cycle of owners that is dropped as a whole.
* `Bridge.collect_settles` is what follows for two collections, and for a collection until a
  condition holds.
-/

namespace ScriptBridge.Bridge
set_option autoImplicit false

variable {b : Bridge} {w p c id : ObjectId} {o : InstanceHandle}

/-! ## What the releases after a sweep leave -/

theorem mode?_releaseAll {l : List ObjectId} (hw : w ∉ l) (report : CollectionReport)
    (b : Bridge) : (b.releaseAll report l).2.registry.mode? w = b.registry.mode? w := by
  rw [Registry.mode?, binding?_releaseAll, if_neg hw, Registry.mode?]

/-- An edge between two objects that stay is left alone. -/
theorem contains_releaseAll {l : List ObjectId} (hp : p ∉ l) (hc : c ∉ l)
    (report : CollectionReport) (b : Bridge) :
    (b.releaseAll report l).2.edges.contains p c ↔ b.edges.contains p c := by
  refine releaseAll_induction (P := fun x => x.edges.contains p c ↔ b.edges.contains p c) l
    (fun x id hid hx => ?_) report b Iff.rfl
  have hp' : p ≠ id := fun heq => hp (heq ▸ hid)
  have hc' : c ≠ id := fun heq => hc (heq ▸ hid)
  rw [edges_release, Ownership.contains_without_of_ne _ hp' hc', hx]

/-- No edge leaves an object that was released. -/
theorem not_contains_releaseAll {l : List ObjectId} (hp : p ∈ l) (report : CollectionReport)
    (b : Bridge) : ¬ (b.releaseAll report l).2.edges.contains p c := by
  induction l generalizing report b with
  | nil => cases hp
  | cons id rest ih =>
    by_cases hmem : p ∈ rest
    · exact ih hmem _ _
    have hid : p = id := (List.mem_cons.1 hp).resolve_right hmem
    subst hid
    have hfirst : ¬ (b.release [] p).2.edges.contains p c := by
      rw [edges_release]
      exact Ownership.not_contains_without_left b.edges
    refine releaseAll_induction (P := fun x => ¬ x.edges.contains p c) rest
      (fun x id' hid' hx => ?_) _ (b.release [] p).2 hfirst
    intro hcontains
    rw [edges_release] at hcontains
    exact hx (Ownership.contains_of_without hcontains)

/-! ## Settled bridges -/

/-- Every object that is alive is reached. -/
def Settled (b : Bridge) : Prop := ∀ id, b.isAlive id → b.Reaches id

/-- What a collection keeps is reached afterwards for the same reason as before. -/
theorem Reaches.collect (h : b.Reaches id) : b.collect.2.Reaches id := by
  have halive : ∀ {id}, b.Reaches id → b.collect.2.isAlive id := fun h =>
    (isAlive_collect_iff _).2 h
  induction h with
  | pinned hs hv hn hc =>
    have hroots := b.roots_collect
    exact .pinned (by rw [hroots]; exact hs) hv hn (halive (.pinned hs hv hn hc))
  | global hg hn hc =>
    have hglobal : b.collect.2.engine.global? = b.engine.global? := by
      funext name
      rw [Engine.global?, roots_collect, Engine.global?]
    exact .global (by rw [hglobal]; exact hg) hn (halive (.global hg hn hc))
  | @strong id hm hc =>
    have hkept := not_mem_swept (.strong hm hc)
    have hmode : b.collect.2.registry.mode? id = some .strong := by
      rw [collect_eq, mode?_releaseAll hkept]
      exact hm
    exact .strong hmode (halive (.strong hm hc))
  | @property p id name v hp hv hn hc ih =>
    have hproperty : b.collect.2.engine.property? p name = some v := by
      rw [Engine.property?, get?_collect_of_reaches hp]
      exact hv
    exact .property ih hproperty hn (halive (.property hp hv hn hc))
  | capture hp he hv hn hc ih =>
    have hobject := (get?_collect_of_reaches hp).trans he
    exact .capture ih hobject hv hn (halive (.capture hp he hv hn hc))
  | @owned p id hp hown hc ih =>
    have hreached := Reaches.owned hp hown hc
    have hedge : b.collect.2.edges.contains p id := by
      rw [collect_eq, contains_releaseAll (not_mem_swept hp) (not_mem_swept hreached)]
      exact hown
    exact .owned ih hedge (halive hreached)

/-- **A collection leaves a settled bridge.** -/
theorem settled_collect (b : Bridge) : b.collect.2.Settled := by
  intro id hc
  have hreached := (isAlive_collect_iff id).1 hc
  exact hreached.collect

/-- The two bridges have the same objects, roots, bindings and edges. -/
structure SameStore (b b' : Bridge) : Prop where
  heap : b'.engine.heap = b.engine.heap
  roots : b'.engine.roots = b.engine.roots
  registry : b'.registry = b.registry
  edges : b'.edges = b.edges

theorem Settled.swept_eq (h : b.Settled) : b.swept = [] := by
  have hall : ∀ id, b.engine.isAlive id → b.engine.Reached b.retention id := fun id hc =>
    (h id hc).reached
  exact (b.engine.collect_of_reached b.retention hall).1

/-- **A collection does nothing to a settled bridge.** -/
theorem Settled.collect_eq (h : b.Settled) : b.collect.1 = {} ∧ b.SameStore b.collect.2 := by
  have hall : ∀ id, b.engine.isAlive id → b.engine.Reached b.retention id := fun id hc =>
    (h id hc).reached
  have hheap := (b.engine.collect_of_reached b.retention hall).2
  have hcollect : b.collect = ({}, (b.onEngine (·.collect b.retention)).2) := by
    rw [b.collect_eq, h.swept_eq]
    rfl
  rw [hcollect]
  exact ⟨rfl, hheap, rfl, rfl, rfl⟩

/-! ## Forsaken sets -/

/-- Nothing outside a set of objects is a reason to keep one of them. -/
structure Forsaken (b : Bridge) (S : ObjectId → Prop) : Prop where
  pins : ∀ scope ∈ b.engine.roots.scopes, ∀ v ∈ scope, ∀ id, v.Names id → ¬ S id
  globals : ∀ name v id, b.engine.global? name = some v → v.Names id → ¬ S id
  modes : ∀ id, S id → b.registry.mode? id ≠ some .strong
  properties : ∀ p name v id, b.engine.property? p name = some v → v.Names id → S id → S p
  captures : ∀ p e v id, b.engine.heap.get? p = some e → v ∈ e.object.captures → v.Names id →
    S id → S p
  edges : ∀ p c, b.edges.contains p c → S c → S p

theorem Forsaken.not_reaches {S : ObjectId → Prop} (h : b.Forsaken S) (hid : S id) :
    ¬ b.Reaches id := by
  intro hr
  induction hr with
  | pinned hs hv hn _ => exact h.pins _ hs _ hv _ hn hid
  | global hg hn _ => exact h.globals _ _ _ hg hn hid
  | strong hm _ => exact h.modes _ hid hm
  | property _ hp hn _ ih => exact ih (h.properties _ _ _ _ hp hn hid)
  | capture _ he hv hn _ ih => exact ih (h.captures _ _ _ _ he hv hn hid)
  | owned _ hown _ ih => exact ih (h.edges _ _ hown hid)

/-! ## Two collections -/

/-- A condition that looks at nothing but objects, roots, bindings and edges. -/
abbrev StoreCondition := Heap → Roots → Registry → Ownership → Bool

def Meets (b : Bridge) (holds : StoreCondition) : Bool :=
  holds b.engine.heap b.engine.roots b.registry b.edges

theorem SameStore.meets {b' : Bridge} (h : b.SameStore b') (holds : StoreCondition) :
    b'.Meets holds = b.Meets holds := by
  rw [Meets, h.heap, h.roots, h.registry, h.edges, Meets]

/-- On a settled bridge a condition stays as it is, however often it is asked for. -/
theorem Settled.held_pursue (h : b.Settled) (holds : StoreCondition) (asked passes : Nat) :
    (b.pursue (fun _ x => x.Meets holds) asked passes).1.held = b.Meets holds := by
  induction passes generalizing b asked with
  | zero => rfl
  | succ passes ih =>
    rw [pursue]
    cases hmeets : b.Meets holds with
    | true => rfl
    | false =>
      have hnext := ih b.settled_collect (asked + 1)
      rw [h.collect_eq.2.meets, hmeets] at hnext
      exact hnext

/-- **One collection is enough.** A second collection reports that it did nothing, and leaves the
objects, the roots, the bindings and the edges as they are. So a set of objects that nothing outside
it keeps, such as a chain or a cycle of owners, goes in one pass, however long it is: its wrappers
lose their bindings and their edges and are finalized. And a condition on objects, roots, bindings
and edges is met by a collection until it holds if it is met right away or after one pass, and
otherwise never. -/
theorem collect_settles (b : Bridge) :
    (b.collect.2.collect.1 = {} ∧ b.collect.2.SameStore b.collect.2.collect.2) ∧
    (∀ S : ObjectId → Prop, b.Forsaken S → ∀ w, S w → b.isAlive w →
      b.collect.2.isAlive w = false ∧ (∀ c, ¬ b.collect.2.edges.contains w c) ∧
      ∀ o, b.registry.native? w = some o → b.collect.2.registry.contains w = false ∧
        b.collect.2.life w = b.life w ++ .retired w o false b.classes ::
          (b.classes.finalizer? o.className).toList.map (.finalizing w o)) ∧
    ∀ holds : StoreCondition, 1 ≤ b.options.maxPasses →
      (b.collectUntil fun _ x => x.Meets holds).1.held =
        if b.Meets holds then true else b.collect.2.Meets holds := by
  refine ⟨b.settled_collect.collect_eq, fun S hS w hw halive => ?_, fun holds hpasses => ?_⟩
  · have hnot := hS.not_reaches hw
    have hdead : b.collect.2.isAlive w = false := by
      apply Bool.eq_false_iff.2
      intro hc
      exact hnot ((isAlive_collect_iff w).1 hc)
    refine ⟨hdead, fun c => ?_, fun o ho => ?_⟩
    · rw [b.collect_eq]
      exact not_contains_releaseAll (mem_swept halive hnot) _ _
    · obtain ⟨hnone, hlife⟩ := collect_ends ho halive hdead
      exact ⟨Registry.contains_eq_false_iff.2 hnone, hlife⟩
  · obtain ⟨passes, hmax⟩ : ∃ passes, b.options.maxPasses = passes + 1 :=
      ⟨b.options.maxPasses - 1, by omega⟩
    rw [collectUntil, hmax, pursue]
    split
    · rfl
    · exact b.settled_collect.held_pursue holds 1 passes

/-- The two leaves own each other, and nothing else keeps them. -/
def leafCycle : Bridge :=
  ((twoLeaves.addEdge ⟨0, 0⟩ ⟨1, 0⟩).2.addEdge ⟨1, 0⟩ ⟨0, 0⟩).2

theorem forsaken_leafCycle : leafCycle.Forsaken (· ∈ [⟨0, 0⟩, ⟨1, 0⟩]) := by
  have hids : leafCycle.engine.heap.ids = [⟨0, 0⟩, ⟨1, 0⟩] := by decide
  have hall : ∀ p e, leafCycle.engine.heap.get? p = some e → p ∈ [⟨0, 0⟩, ⟨1, 0⟩] := by
    intro p e he
    rw [← hids]
    exact Heap.mem_ids_of_contains (Heap.contains_of_get? he)
  refine ⟨?_, ?_, by decide, ?_, ?_, ?_⟩
  · intro scope hs v hv
    obtain rfl : scope = [] := List.mem_singleton.1 hs
    cases hv
  · intro name v id h
    cases h
  · intro p name v id h _ _
    obtain ⟨e, he, -⟩ := Option.bind_eq_some_iff.1 h
    exact hall p e he
  · intro p e v id he _ _ _
    exact hall p e he
  · intro p c h hc
    have hmirror : leafCycle.edges.Mirrored :=
      (Ownership.mirrored_empty.add ⟨0, 0⟩ ⟨1, 0⟩).add ⟨1, 0⟩ ⟨0, 0⟩
    have hparent : p ∈ leafCycle.edges.parents c :=
      (hmirror.mirror p c).1 (Ownership.contains_iff.1 h)
    rcases List.mem_pair.1 hc with rfl | rfl
    · exact List.mem_cons_of_mem _ hparent
    · exact List.mem_cons.2 (.inl (List.mem_singleton.1 hparent))

/-- One collection takes both, and with that the heap is empty. -/
theorem collect_settles_leafCycle :
    leafCycle.Reachable ∧ leafCycle.edges.contains ⟨0, 0⟩ ⟨1, 0⟩ ∧
      leafCycle.edges.contains ⟨1, 0⟩ ⟨0, 0⟩ ∧
      leafCycle.collect.2.isAlive ⟨0, 0⟩ = false ∧
      leafCycle.collect.2.registry.contains ⟨1, 0⟩ = false ∧
      leafCycle.Meets (fun heap _ _ _ => heap.isEmpty) = false ∧
      (leafCycle.collectUntil fun _ x => x.Meets fun heap _ _ _ => heap.isEmpty).1.held := by
  obtain ⟨-, hforsaken, huntil⟩ := collect_settles leafCycle
  have hgone := hforsaken _ forsaken_leafCycle
  have hfirst := hgone ⟨0, 0⟩ (by decide) (by decide)
  have hsecond := hgone ⟨1, 0⟩ (by decide) (by decide)
  have hheld := huntil (fun heap _ _ _ => heap.isEmpty) (by decide)
  refine ⟨?_, by decide, by decide, hfirst.1, (hsecond.2.2 ⟨"Leaf", ⟨1⟩⟩ rfl).1, by decide, ?_⟩
  · obtain ⟨options, hrun⟩ := reachable_twoLeaves
    exact ⟨options, (hrun.tail ⟨0, .ask (.addEdge ⟨0, 0⟩ ⟨1, 0⟩)⟩).tail
      ⟨0, .ask (.addEdge ⟨1, 0⟩ ⟨0, 0⟩)⟩⟩
  · rw [hheld]
    decide

end ScriptBridge.Bridge
