import ScriptBridge.Proofs.Bridge.Releasing
import ScriptBridge.Proofs.Host.Marking

/-! # A collection keeps what is reached

`Bridge.Reaches` says for what reasons a bridge keeps an object: a root names it, its binding is
strong, an object that is kept refers to it or owns it. Every reason asks for an object that is
alive, so names that outlived their objects count for nothing.

* `Bridge.reached_iff_reaches`: these are the objects that the host's collector reaches when it is
  given the retention of the bridge.
* `Bridge.collect_exact`: one collection keeps these objects, as they are, and frees all others.
-/

namespace ScriptBridge
set_option autoImplicit false

namespace Registry

theorem mem_strongWrappers_iff (r : Registry) (id : ObjectId) :
    id ∈ r.strongWrappers ↔ r.mode? id = some .strong := by
  simp only [strongWrappers, mode?, binding?, List.mem_map, List.mem_filter, Prod.exists,
    Table.mem_entries_iff, decide_eq_true_eq, Option.map_eq_some_iff]
  grind

end Registry

namespace Bridge

variable (b : Bridge)

/-- A live object that the bridge has a reason to keep. -/
inductive Reaches : ObjectId → Prop where
  | pinned {scope : HandleScope} {v : Script.Value} {id : ObjectId} :
      scope ∈ b.engine.roots.scopes → v ∈ scope → v.Names id → b.isAlive id → Reaches id
  | global {name : String} {v : Script.Value} {id : ObjectId} :
      b.engine.global? name = some v → v.Names id → b.isAlive id → Reaches id
  | strong {id : ObjectId} : b.registry.mode? id = some .strong → b.isAlive id → Reaches id
  | property {p id : ObjectId} {name : String} {v : Script.Value} :
      Reaches p → b.engine.property? p name = some v → v.Names id → b.isAlive id → Reaches id
  | capture {p id : ObjectId} {e : LiveObject} {v : Script.Value} :
      Reaches p → b.engine.heap.get? p = some e → v ∈ e.object.captures → v.Names id →
        b.isAlive id → Reaches id
  | owned {p id : ObjectId} : Reaches p → b.edges.contains p id → b.isAlive id → Reaches id

variable {b}

theorem Reaches.reached {id : ObjectId} (hr : b.Reaches id) :
    b.engine.Reached b.retention id := by
  induction hr with
  | pinned hs hv hn hc =>
    refine .root (List.mem_append_left _ ?_) hc
    exact (Roots.mem_objects_iff _ _).2 (.inl ⟨_, hs, _, hv, hn⟩)
  | global hg hn hc =>
    refine .root (List.mem_append_left _ ?_) hc
    exact (Roots.mem_objects_iff _ _).2 (.inr ⟨_, _, hg, hn⟩)
  | strong hm hc =>
    exact .root (List.mem_append_right _ ((Registry.mem_strongWrappers_iff _ _).2 hm)) hc
  | property _ hp hn hc ih =>
    obtain ⟨e, he, hfind⟩ := Option.bind_eq_some_iff.1 hp
    refine .step ih (List.mem_append_left _ ?_) hc
    exact (Heap.mem_references_iff _ _ _).2 ⟨e, he, .inl ⟨_, _, hfind, hn⟩⟩
  | capture _ he hv hn hc ih =>
    refine .step ih (List.mem_append_left _ ?_) hc
    exact (Heap.mem_references_iff _ _ _).2 ⟨_, he, .inr ⟨_, hv, hn⟩⟩
  | owned _ hown hc ih =>
    exact .step ih (List.mem_append_right _ (List.contains_iff_mem.1 hown)) hc

theorem reaches_of_reached {id : ObjectId} (hr : b.engine.Reached b.retention id) :
    b.Reaches id := by
  induction hr with
  | root hmem hc =>
    rcases List.mem_append.1 hmem with hroot | hstrong
    · rcases (Roots.mem_objects_iff _ _).1 hroot with ⟨_, hs, _, hv, hn⟩ | ⟨_, _, hg, hn⟩
      · exact .pinned hs hv hn hc
      · exact .global hg hn hc
    · exact .strong ((Registry.mem_strongWrappers_iff _ _).1 hstrong) hc
  | step _ hmem hc ih =>
    rcases List.mem_append.1 hmem with href | hchild
    · obtain ⟨e, he, ⟨name, v, hfind, hn⟩ | ⟨v, hv, hn⟩⟩ := (Heap.mem_references_iff _ _ _).1 href
      · exact .property ih (Option.bind_eq_some_iff.2 ⟨e, he, hfind⟩) hn hc
      · exact .capture ih he hv hn hc
    · exact .owned ih (List.contains_iff_mem.2 hchild) hc

/-- The collector of the host finds the objects that the bridge has a reason to keep. -/
theorem reached_iff_reaches (id : ObjectId) :
    b.engine.Reached b.retention id ↔ b.Reaches id :=
  ⟨reaches_of_reached, Reaches.reached⟩

theorem not_mem_swept {id : ObjectId} (h : b.Reaches id) : id ∉ b.swept := by
  intro hid
  exact ((b.engine.mem_collect_iff b.retention id).1 hid).2 h.reached

theorem mem_swept {id : ObjectId} (halive : b.isAlive id) (h : ¬ b.Reaches id) : id ∈ b.swept :=
  (b.engine.mem_collect_iff b.retention id).2 ⟨halive, fun hr => h (reaches_of_reached hr)⟩

/-- What is alive and not swept was reached. -/
theorem reaches_of_not_mem_swept {id : ObjectId} (halive : b.isAlive id) (h : id ∉ b.swept) :
    b.Reaches id := by
  by_contra hnot
  exact h (mem_swept halive hnot)

theorem isAlive_collect_iff (id : ObjectId) : b.collect.2.isAlive id ↔ b.Reaches id := by
  rw [isAlive, Engine.isAlive, heap_collect, ← reached_iff_reaches]
  exact b.engine.isAlive_collect_iff b.retention id

theorem get?_collect_of_reaches {id : ObjectId} (hr : b.Reaches id) :
    b.collect.2.engine.heap.get? id = b.engine.heap.get? id := by
  rw [heap_collect]
  exact b.engine.get?_collect_of_reached b.retention hr.reached

variable (b)

/-- **One collection is exact.** The objects that are there after it are those that were reached,
each as it was, and it reports how many it freed. -/
theorem collect_exact :
    (∀ id, b.collect.2.isAlive id ↔ b.Reaches id) ∧
    (∀ id e, b.collect.2.engine.heap.get? id = some e ↔
      b.Reaches id ∧ b.engine.heap.get? id = some e) ∧
    ∃ freed : List ObjectId, freed.Nodup ∧
      (∀ id, id ∈ freed ↔ b.isAlive id ∧ ¬ b.collect.2.isAlive id) ∧
      b.collect.1.swept = freed.length := by
  refine ⟨isAlive_collect_iff, fun id e => ⟨fun he => ?_, fun ⟨hr, he⟩ => ?_⟩,
    (b.engine.collect b.retention).1, b.engine.nodup_collect b.retention, fun id => ?_,
    b.swept_collect⟩
  · have hr := (isAlive_collect_iff id).1 (Heap.contains_of_get? he)
    exact ⟨hr, (get?_collect_of_reaches hr).symm.trans he⟩
  · exact (get?_collect_of_reaches hr).trans he
  · rw [isAlive_collect_iff, ← reached_iff_reaches]
    exact b.engine.mem_collect_iff b.retention id

end Bridge
end ScriptBridge
