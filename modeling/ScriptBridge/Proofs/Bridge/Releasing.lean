import ScriptBridge.Bridge.Collection
import ScriptBridge.Proofs.Host.Slots
import ScriptBridge.Proofs.RegistryTables

/-! # What a release leaves alone

A release drops edges and a binding. Beyond that it runs native code, and native code changes
instances and writes to the journal. So the heap, the roots and the statistics come out of any
number of releases as they were.

* `Bridge.finalization` is what the run of a finalizer reports and puts into its instance, and
  `Bridge.release_of_native?` a release with this run in it.
* `Bridge.release_eq` is a release without the native code in it, with the milestones it passes.
* `Bridge.wrapFresh_eq` is a fresh wrapping without the layers of the engine.
* `Bridge.heap_releaseAll` and its neighbours are what is kept when many wrappers are released.
-/

namespace ScriptBridge
set_option autoImplicit false

/-- The edges without those that leave or enter an object. -/
def Ownership.without (t : Ownership) (id : ObjectId) : Ownership := (t.detach id).2.purge id

/-- The invocation of the nearest finalizer, if there is one. -/
def Hierarchy.finalizing (classes : Hierarchy) (id : ObjectId) (o : InstanceHandle) :
    List Milestone :=
  (classes.finalizer? o.className).toList.map (.finalizing id o)

theorem Instances.get?_update (t : Instances) (id i : InstanceId) (f : Instance → Instance) :
    (t.update id f).get? i = if i = id then (t.get? i).map f else t.get? i := by
  rw [update, get?, get?, List.getElem?_modify]
  by_cases hi : i = id
  · simp [hi]
  · have hne : id.index ≠ i.index := fun heq => hi (by cases i; cases id; simp_all)
    simp [hi, hne]

/-- The payload of an instance replaced by others, one after another. -/
def Instances.setPayloads (t : Instances) (o : InstanceHandle) (payloads : List Payload) :
    Instances :=
  payloads.foldl (·.setPayload o ·) t

theorem Instances.get?_setPayload (t : Instances) (o : InstanceHandle) (p : Payload)
    (i : InstanceId) : (t.setPayload o p).get? i =
      if i = o.identity then (t.get? i).map fun c => { c with payload := p } else t.get? i :=
  t.get?_update o.identity i _

theorem Instances.get?_setPayloads_of_ne {o : InstanceHandle} {i : InstanceId}
    (hi : i ≠ o.identity) (t : Instances) (payloads : List Payload) :
    (t.setPayloads o payloads).get? i = t.get? i := by
  induction payloads generalizing t with
  | nil => rfl
  | cons p rest ih =>
    exact (ih (t.setPayload o p)).trans ((t.get?_setPayload o p i).trans (if_neg hi))

/-- What becomes of an instance has nothing to do with the others. -/
theorem Instances.get?_setPayloads_congr {t t' : Instances} {o : InstanceHandle}
    (h : t.get? o.identity = t'.get? o.identity) (payloads : List Payload) :
    (t.setPayloads o payloads).get? o.identity = (t'.setPayloads o payloads).get? o.identity := by
  induction payloads generalizing t t' with
  | nil => exact h
  | cons p rest ih =>
    apply ih
    rw [get?_setPayload, get?_setPayload, if_pos rfl, if_pos rfl, h]

theorem Instances.take_congr {t t' : Instances} {o : InstanceHandle}
    (h : t.get? o.identity = t'.get? o.identity) (names : KindNames) (k : Kind) :
    t.take names o k = t'.take names o k := by
  rw [take, take, open?, open?, h]

namespace Bridge

/-! ## Native code -/

/-- The bridge with what native code can change. -/
def withNative (b : Bridge) (instances : Instances) (journal : List Event) : Bridge :=
  { b with instances, engine := { b.engine with journal } }

section
variable (b : Bridge) (instances : Instances) (journal : List Event)

@[simp] theorem heap_withNative : (b.withNative instances journal).engine.heap = b.engine.heap :=
  rfl

@[simp] theorem roots_withNative :
    (b.withNative instances journal).engine.roots = b.engine.roots := rfl

@[simp] theorem stats_withNative :
    (b.withNative instances journal).engine.stats = b.engine.stats := rfl

@[simp] theorem registry_withNative : (b.withNative instances journal).registry = b.registry := rfl

@[simp] theorem edges_withNative : (b.withNative instances journal).edges = b.edges := rfl

end

theorem replaceContents_eq (b : Bridge) (inFlight : List InstanceId) (o : InstanceHandle)
    (kind : Kind) (contents : List kind.Carrier) : ∃ put, put <+: contents ∧
      ((b.replaceContents inFlight o kind contents).1 = false → put = contents) ∧
      (b.replaceContents inFlight o kind contents).2 =
        b.withNative (b.instances.setPayloads o (put.map (Payload.mk kind))) b.engine.journal := by
  induction contents generalizing b with
  | nil => exact ⟨[], List.nil_prefix, fun _ => rfl, rfl⟩
  | cons content rest ih =>
    rw [replaceContents]
    split
    · exact ⟨[content], List.prefix_append _ _, nofun, rfl⟩
    · obtain ⟨put, hpre, hall, hrest⟩ :=
        ih { b with instances := b.instances.setPayload o ⟨kind, content⟩ }
      exact ⟨content :: put, (List.prefix_cons_inj content).2 hpre,
        fun hdone => congrArg (content :: ·) (hall hdone), hrest⟩

/-- What a run of the nearest finalizer reports and puts into its instance: the run is on the
content of the instance, unless that is lent out or of another kind, and then there is none. -/
def finalization (b : Bridge) (o : InstanceHandle) : List Event × List Payload :=
  match b.classes.finalizer? o.className with
  | none => ([], [])
  | some f =>
    match b.instances.take b.options.kindNames o f.kind with
    | .error _ => ([], [])
    | .ok content => ((f.run content).events, (f.run content).contents.map (Payload.mk f.kind))

theorem finalization_of_take {o : InstanceHandle} {f : ClassFinalizer} {content : f.kind.Carrier}
    (b : Bridge) (hf : b.classes.finalizer? o.className = some f)
    (ht : b.instances.take b.options.kindNames o f.kind = .ok content) : b.finalization o =
      ((f.run content).events, (f.run content).contents.map (Payload.mk f.kind)) := by
  simp only [finalization, hf, ht]

theorem finalization_congr {b b' : Bridge} {o : InstanceHandle} (hclasses : b'.classes = b.classes)
    (hoptions : b'.options = b.options)
    (hget : b'.instances.get? o.identity = b.instances.get? o.identity) :
    b'.finalization o = b.finalization o := by
  simp only [finalization, hclasses, hoptions, Instances.take_congr hget]

/-- The invocation that is recorded is a run: what it reports is in the journal, and its contents
are in the instance, all of them unless a panic came between. -/
theorem runFinalizer_eq (b : Bridge) (inFlight : List InstanceId) (id : ObjectId)
    (o : InstanceHandle) : ∃ put, put <+: (b.finalization o).2 ∧
      (put = (b.finalization o).2 ∨ (b.runFinalizer inFlight id o).1 = .panicked) ∧
      (b.runFinalizer inFlight id o).2 = (b.pass (b.classes.finalizing id o)).withNative
        (b.instances.setPayloads o put) (b.engine.journal ++ (b.finalization o).1) := by
  unfold runFinalizer finalization Hierarchy.finalizing
  cases b.classes.finalizer? o.className with
  | none => exact ⟨[], List.nil_prefix, .inl rfl, by simp [pass, withNative, Instances.setPayloads]⟩
  | some f =>
    dsimp only [Option.toList_some, List.map_cons, List.map_nil]
    have htake : (b.pass [.finalizing id o f]).instances = b.instances := rfl
    have hnames : (b.pass [.finalizing id o f]).options = b.options := rfl
    rw [htake, hnames]
    cases b.instances.take b.options.kindNames o f.kind with
    | error err =>
      exact ⟨[], List.nil_prefix, .inl rfl, by simp [pass, withNative, Instances.setPayloads]⟩
    | ok content =>
      obtain ⟨put, hpre, hall, hcontents⟩ := replaceContents_eq
        ((b.pass [.finalizing id o f]).note (f.run content).events) inFlight o f.kind
        (f.run content).contents
      dsimp only
      split <;> rename_i hrun <;> rw [hrun] at hall hcontents
      · exact ⟨_, hpre.map _, .inr rfl, hcontents⟩
      · exact ⟨_, hpre.map _, .inl (congrArg _ (hall rfl)), hcontents⟩

/-- What came of the run of a finalizer: the payloads that were put into the instance, and the
warnings after what the run reports. Only a panic keeps a payload out. -/
structure Ran (b : Bridge) (id : ObjectId) (o : InstanceHandle) (put : List Payload)
    (warnings : List Warning) : Prop where
  isPrefix : put <+: (b.finalization o).2
  complete : put = (b.finalization o).2 ∨ .finalizerPanicked o.className id ∈ warnings

theorem finalizeNative_eq (b : Bridge) (inFlight : List InstanceId) (id : ObjectId)
    (o : InstanceHandle) : ∃ put warnings, b.Ran id o put warnings ∧
      b.finalizeNative inFlight id o = (b.pass (b.classes.finalizing id o)).withNative
        (b.instances.setPayloads o put)
        (b.engine.journal ++ ((b.finalization o).1 ++ warnings.map .warned)) := by
  obtain ⟨put, hpre, hall, hrun⟩ := b.runFinalizer_eq (o.identity :: inFlight) id o
  obtain ⟨warnings, hverdict, hpanicked⟩ : ∃ warnings : List Warning,
      (b.runFinalizer (o.identity :: inFlight) id o).1.events o.className id =
        warnings.map .warned ∧
      ((b.runFinalizer (o.identity :: inFlight) id o).1 = .panicked →
        .finalizerPanicked o.className id ∈ warnings) := by
    cases (b.runFinalizer (o.identity :: inFlight) id o).1 with
    | succeeded => exact ⟨[], rfl, nofun⟩
    | failed err => exact ⟨[.finalizerFailed o.className id err], rfl, nofun⟩
    | panicked =>
      exact ⟨[.finalizerPanicked o.className id], rfl, fun _ => List.mem_singleton_self _⟩
  have hran : b.Ran id o put warnings := ⟨hpre, hall.imp_right hpanicked⟩
  unfold finalizeNative
  simp only [hrun, hverdict]
  split
  · refine ⟨put, warnings ++ [.dropPanicked o.className id],
      ⟨hpre, hran.complete.imp_right (List.mem_append_left _)⟩, ?_⟩
    simp [withNative, note, Engine.note]
  · refine ⟨put, warnings, hran, ?_⟩
    simp [withNative, note, Engine.note]

/-! ## Releasing and wrapping -/

/-- The milestones in the release of a wrapper: its binding ends, if there is one, and the nearest
finalizer is invoked. -/
def releaseMilestones (b : Bridge) (id : ObjectId) : List Milestone :=
  match b.registry.native? id with
  | none => []
  | some o => .retired id o (b.isAlive id) b.classes :: b.classes.finalizing id o

theorem release_of_unbound {b : Bridge} {id : ObjectId} (hn : b.registry.native? id = none)
    (inFlight : List InstanceId) : (b.release inFlight id).2 =
      { b with edges := b.edges.without id, registry := b.registry.without id } := by
  have hb : b.registry.binding? id = none := Option.map_eq_none_iff.1 hn
  have hr : b.registry.retire? id = none := by rw [Registry.retire?, hb, Option.map_none]
  unfold release Registry.without
  simp only [hr]
  rfl

/-- A release with the run of the finalizer in it. -/
theorem release_of_native? {b : Bridge} {id : ObjectId} {o : InstanceHandle}
    (hn : b.registry.native? id = some o) (inFlight : List InstanceId) :
    ∃ put warnings, b.Ran id o put warnings ∧ (b.release inFlight id).2 =
      ({ b with
        edges := b.edges.without id
        registry := b.registry.without id
        milestones := b.milestones ++ b.releaseMilestones id } : Bridge).withNative
          (b.instances.setPayloads o put)
          (b.engine.journal ++ ((b.finalization o).1 ++ warnings.map .warned)) := by
  obtain ⟨binding, hb, rfl⟩ := Option.map_eq_some_iff.1 hn
  obtain ⟨registry, hr⟩ : ∃ registry, b.registry.retire? id = some (binding, registry) :=
    ⟨_, by rw [Registry.retire?, hb]; rfl⟩
  obtain ⟨put, warnings, hran, hfinal⟩ :=
    (({ b with edges := b.edges.without id, registry } : Bridge).pass
      [.retired id binding.native (b.isAlive id) b.classes]).finalizeNative_eq inFlight id
        binding.native
  refine ⟨put, warnings, ⟨hran.isPrefix, hran.complete⟩, ?_⟩
  unfold release Registry.without releaseMilestones
  simp only [hr, hn]
  refine hfinal.trans ?_
  simp only [pass, withNative, List.append_assoc, List.singleton_append]
  rfl

theorem release_eq (b : Bridge) (inFlight : List InstanceId) (id : ObjectId) :
    ∃ instances journal, (b.release inFlight id).2 =
      ({ b with
        edges := b.edges.without id
        registry := b.registry.without id
        milestones := b.milestones ++ b.releaseMilestones id } :
          Bridge).withNative instances journal := by
  cases hn : b.registry.native? id with
  | none =>
    refine ⟨b.instances, b.engine.journal, (release_of_unbound hn inFlight).trans ?_⟩
    simp only [releaseMilestones, hn, List.append_nil]
    rfl
  | some o =>
    obtain ⟨put, warnings, -, heq⟩ := release_of_native? hn inFlight
    exact ⟨_, _, heq⟩

theorem wrapFresh_eq (b : Bridge) (o : InstanceHandle) :
    b.wrapFresh o =
      let a := b.engine.heap.allocate (.wrapper o.className)
      let bound := b.registry.bind o a.1
      (bound.1,
        { b with
          engine := { b.engine with heap := a.2, roots := b.engine.roots.pin (.wrapper a.1) }
          registry := bound.2
          milestones := b.milestones ++
            if b.registry.wrapper? o = none then [.bound a.1 o] else [] }) := rfl

/-- What the release of a dead wrapper and a fresh wrapping keep is kept when an instance is wrapped.
-/
theorem wrap_induction {P : Bridge → Prop} (o : InstanceHandle)
    (hrelease : ∀ c w, c.isAlive w = false → P c → P (c.release [o.identity] w).2)
    (hfresh : ∀ c, P c → P (c.wrapFresh o).2) {b : Bridge} (hb : P b) : P (b.wrap o).2 := by
  unfold wrap
  split
  · exact hfresh b hb
  next w _ =>
    split
    · exact hb
    next hdead => exact hfresh _ (hrelease b w (Bool.eq_false_iff.2 hdead) hb)

/-! ## Releasing many -/

/-- What every release of a list keeps, whatever native code does in it, is kept by all of them. -/
theorem releaseAll_induction {P : Bridge → Prop} (l : List ObjectId)
    (hP : ∀ b, ∀ id ∈ l, P b → P (b.release [] id).2) (report : CollectionReport) (b : Bridge)
    (hb : P b) : P (b.releaseAll report l).2 := by
  induction l generalizing report b with
  | nil => exact hb
  | cons id rest ih =>
    have hfirst := hP b id List.mem_cons_self hb
    exact ih (fun b id hid => hP b id (List.mem_cons_of_mem _ hid)) _ _ hfirst

theorem edges_release (b : Bridge) (inFlight : List InstanceId) (id : ObjectId) :
    (b.release inFlight id).2.edges = b.edges.without id := by
  obtain ⟨instances, journal, heq⟩ := b.release_eq inFlight id
  rw [heq, edges_withNative]

theorem registry_release (b : Bridge) (inFlight : List InstanceId) (id : ObjectId) :
    (b.release inFlight id).2.registry = b.registry.without id := by
  obtain ⟨instances, journal, heq⟩ := b.release_eq inFlight id
  rw [heq, registry_withNative]

theorem heap_release (b : Bridge) (inFlight : List InstanceId) (id : ObjectId) :
    (b.release inFlight id).2.engine.heap = b.engine.heap := by
  obtain ⟨instances, journal, heq⟩ := b.release_eq inFlight id
  rw [heq, heap_withNative]

theorem roots_release (b : Bridge) (inFlight : List InstanceId) (id : ObjectId) :
    (b.release inFlight id).2.engine.roots = b.engine.roots := by
  obtain ⟨instances, journal, heq⟩ := b.release_eq inFlight id
  rw [heq, roots_withNative]

theorem stats_release (b : Bridge) (inFlight : List InstanceId) (id : ObjectId) :
    (b.release inFlight id).2.engine.stats = b.engine.stats := by
  obtain ⟨instances, journal, heq⟩ := b.release_eq inFlight id
  rw [heq, stats_withNative]

theorem classes_release (b : Bridge) (inFlight : List InstanceId) (id : ObjectId) :
    (b.release inFlight id).2.classes = b.classes := by
  obtain ⟨instances, journal, heq⟩ := b.release_eq inFlight id
  rw [heq]
  rfl

theorem modules_release (b : Bridge) (inFlight : List InstanceId) (id : ObjectId) :
    (b.release inFlight id).2.modules = b.modules := by
  obtain ⟨instances, journal, heq⟩ := b.release_eq inFlight id
  rw [heq]
  rfl

/-- A finalizer changes the instance that it is run on and no other. -/
theorem get?_instances_release (b : Bridge) (inFlight : List InstanceId) {id : ObjectId}
    {i : InstanceId} (hi : ∀ o, b.registry.native? id = some o → i ≠ o.identity) :
    (b.release inFlight id).2.instances.get? i = b.instances.get? i := by
  cases hn : b.registry.native? id with
  | none => rw [release_of_unbound hn]
  | some o =>
    obtain ⟨put, warnings, -, heq⟩ := release_of_native? hn inFlight
    rw [heq]
    exact Instances.get?_setPayloads_of_ne (hi o hn) _ _

theorem heap_releaseAll (b : Bridge) (report : CollectionReport) (l : List ObjectId) :
    (b.releaseAll report l).2.engine.heap = b.engine.heap :=
  releaseAll_induction (P := fun c => c.engine.heap = b.engine.heap) l
    (fun c id _ hc => (c.heap_release [] id).trans hc) report b rfl

theorem roots_releaseAll (b : Bridge) (report : CollectionReport) (l : List ObjectId) :
    (b.releaseAll report l).2.engine.roots = b.engine.roots :=
  releaseAll_induction (P := fun c => c.engine.roots = b.engine.roots) l
    (fun c id _ hc => (c.roots_release [] id).trans hc) report b rfl

theorem swept_releaseAll (b : Bridge) (report : CollectionReport) (l : List ObjectId) :
    (b.releaseAll report l).1.swept = report.swept := by
  induction l generalizing report b with
  | nil => rfl
  | cons id rest ih => exact ih _ _

/-- The bindings of the objects that are released go, and no others. -/
theorem binding?_releaseAll (b : Bridge) (report : CollectionReport) (l : List ObjectId)
    (w : ObjectId) : (b.releaseAll report l).2.registry.binding? w =
      if w ∈ l then none else b.registry.binding? w := by
  induction l generalizing report b with
  | nil => rfl
  | cons id rest ih =>
    rw [releaseAll, ih, registry_release, Registry.binding?_without]
    by_cases hw : w = id <;> by_cases hrest : w ∈ rest <;> simp [hw, hrest]

/-! ## One collection -/

/-- The objects that a collection frees. -/
def swept (b : Bridge) : List ObjectId := (b.engine.collect b.retention).1

theorem collect_eq (b : Bridge) : b.collect =
    (b.onEngine (·.collect b.retention)).2.releaseAll { swept := b.swept.length } b.swept := rfl

theorem heap_collect (b : Bridge) :
    b.collect.2.engine.heap = (b.engine.collect b.retention).2.heap := by
  rw [collect]
  exact heap_releaseAll _ _ _

theorem roots_collect (b : Bridge) : b.collect.2.engine.roots = b.engine.roots := by
  rw [collect]
  exact roots_releaseAll _ _ _

theorem swept_collect (b : Bridge) :
    b.collect.1.swept = (b.engine.collect b.retention).1.length := by
  rw [collect]
  exact swept_releaseAll _ _ _

end Bridge
end ScriptBridge
