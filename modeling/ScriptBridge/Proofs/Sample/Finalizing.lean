import ScriptBridge.Proofs.Sample.Views

/-! # The end of views

When the wrapper of a view is released, the finalizer of the class takes the children from the view.
So a collection leaves the children of views in step with their edges.

* `Bridge.Viewed.releaseAll` is what becomes of the views when wrappers are released.
* `Bridge.Aligned.collect` is a collection.
-/

namespace ScriptBridge
set_option autoImplicit false

def View.emptied (v : View) : View := { v with children := [], listeners := [] }

namespace Bridge

variable {b : Bridge} {o : InstanceHandle} {id : ObjectId} {v : View}

theorem AllViews.setPayload (h : b.AllViews) (o : InstanceHandle) (v : View) :
    AllViews { b with instances := b.instances.setPayload o (.view v) } := by
  intro i c hc
  change (b.instances.setPayload o (.view v)).get? i = some c at hc
  rw [Instances.setPayload, Instances.get?_update] at hc
  split at hc
  · obtain ⟨c', hc', rfl⟩ := Option.map_eq_some_iff.1 hc
    obtain ⟨v', rfl⟩ := h i c' hc'
    exact ⟨v, rfl⟩
  · exact h i c hc

theorem AllViews.isFragile_eq_false (h : b.AllViews) (i : InstanceId) :
    b.instances.isFragile i = false := by
  unfold Instances.isFragile
  cases hc : b.instances.get? i with
  | none => rfl
  | some c =>
    obtain ⟨v, rfl⟩ := h i c hc
    rfl

theorem dropPanics_eq_false {later : Bridge} (h : later.AllViews)
    (inFlight laterInFlight : List InstanceId) :
    b.dropPanics inFlight later laterInFlight = false := by
  have hnone : ((later.dropped laterInFlight).any fun id =>
      later.instances.isFragile id && !(b.dropped inFlight).contains id) = false := by
    refine List.any_eq_false.2 fun i _ => ?_
    rw [h.isFragile_eq_false i]
    simp
  rw [dropPanics, hnone, Bool.and_false]

/-- No content of a view panics when it goes. -/
theorem replaceContents_view (hviews : b.AllViews) (inFlight : List InstanceId)
    (o : InstanceHandle) (contents : List View) : b.replaceContents inFlight o .view contents =
      (false, { b with
        instances := contents.foldl (fun t v => t.setPayload o (.view v)) b.instances }) := by
  induction contents generalizing b with
  | nil => rfl
  | cons v rest ih =>
    let next : Bridge := { b with instances := b.instances.setPayload o (.view v) }
    have hnext : next.AllViews := hviews.setPayload o v
    have hpanics : b.dropPanics inFlight next inFlight = false :=
      dropPanics_eq_false hnext inFlight inFlight
    change (if b.dropPanics inFlight next inFlight then (true, next)
      else next.replaceContents inFlight o .view rest) = _
    rw [hpanics, ih hnext]
    rfl

/-- The finalizer takes the children first and the listeners after them. -/
theorem instances_finalizeNative (hclasses : b.classes = View.hierarchy)
    (hviews : b.AllViews) (hclass : o.className = View.className)
    (hv : b.IsView o.identity v) (inFlight : List InstanceId) (id : ObjectId) :
    (b.finalizeNative inFlight id o).instances =
      (b.instances.setPayload o (.view { v with children := [] })).setPayload o
        (.view v.emptied) := by
  have hfinalizer : b.classes.finalizer? o.className = some ⟨.view, View.finalize⟩ := by
    rw [hclasses, hclass]
    rfl
  let passed : Bridge := b.pass [.finalizing id o ⟨.view, View.finalize⟩]
  have htake : passed.instances.take passed.options.kindNames o .view = .ok v :=
    take_of_isView (b := passed) hv _
  have hrun : b.runFinalizer (o.identity :: inFlight) id o = (.succeeded, { passed.note [] with
      instances := (b.instances.setPayload o (.view { v with children := [] })).setPayload o
        (.view v.emptied) }) := by
    have hreplace := replaceContents_view (b := passed.note []) hviews (o.identity :: inFlight) o
      (View.finalize v).contents
    unfold runFinalizer
    rw [hfinalizer]
    dsimp only
    rw [htake]
    dsimp only
    rw [show (passed.note (View.finalize v).events).replaceContents _ o .view _ = _ from hreplace]
    rfl
  rw [finalizeNative, hrun]
  dsimp only
  split <;> rfl

/-! ## Releases -/

/-- What a release needs to know: there are only views, and a bound handle is one of a view. -/
structure Viewed (b : Bridge) : Prop where
  classes : b.classes = View.hierarchy
  views : b.AllViews
  natives : ∀ w o, b.registry.native? w = some o → b.Knows o
  inverse : b.registry.Inverse

theorem instances_release_of_none (hnone : b.registry.native? id = none) :
    (b.release [] id).2.instances = b.instances := by
  have hbinding : b.registry.binding? id = none := Option.map_eq_none_iff.1 hnone
  have hretire : b.registry.retire? id = none := by
    rw [Registry.retire?, hbinding]
    rfl
  simp only [Bridge.release, hretire]

theorem Viewed.instances_release (h : b.Viewed) (ho : b.registry.native? id = some o)
    (hv : b.IsView o.identity v) : (b.release [] id).2.instances =
      (b.instances.setPayload o (.view { v with children := [] })).setPayload o
        (.view v.emptied) := by
  obtain ⟨binding, hbinding, rfl⟩ := Option.map_eq_some_iff.1 ho
  obtain ⟨registry, hretire⟩ : ∃ registry, b.registry.retire? id = some (binding, registry) :=
    ⟨_, by rw [Registry.retire?, hbinding]; rfl⟩
  simp only [Bridge.release, hretire]
  let passed := ({ b with edges := (b.edges.detach id).2.purge id, registry } : Bridge).pass
    [.retired id binding.native (b.isAlive id) b.classes]
  exact instances_finalizeNative (b := passed) h.classes h.views (h.natives id _ ho).1 hv [] id

/-- A release takes the children from the view of the wrapper, and leaves the others alone. -/
theorem Viewed.isView_release (h : b.Viewed) (id : ObjectId) {i : InstanceId}
    (hv : b.IsView i v) : (b.release [] id).2.IsView i
      (if b.registry.byNative.find? i = some id then v.emptied else v) := by
  cases ho : b.registry.native? id with
  | none =>
    have hunbound : b.registry.byNative.find? i ≠ some id := by
      intro hi
      obtain ⟨o, ho', -⟩ := (h.inverse i id).1 hi
      cases ho.symm.trans ho'
    rw [if_neg hunbound, IsView, instances_release_of_none ho]
    exact hv
  | some o =>
    obtain ⟨u, hu⟩ := (h.natives id o ho).exists_view h.views
    have hbound : b.registry.byNative.find? i = some id ↔ o.identity = i := by
      rw [h.inverse i id, ho]
      simp
    rw [IsView, h.instances_release ho hu, Instances.setPayload, Instances.setPayload,
      Instances.get?_update, Instances.get?_update]
    by_cases hi : i = o.identity
    · subst hi
      obtain rfl := isView_unique hv hu
      rw [if_pos rfl, if_pos rfl, if_pos (hbound.2 rfl),
        show b.instances.get? o.identity = _ from hv]
      rfl
    · rw [if_neg hi, if_neg hi, if_neg fun hbind => hi (hbound.1 hbind).symm]
      exact hv

theorem Viewed.length_release (h : b.Viewed) (id : ObjectId) :
    (b.release [] id).2.instances.cells.length = b.instances.cells.length := by
  cases ho : b.registry.native? id with
  | none => rw [instances_release_of_none ho]
  | some o =>
    obtain ⟨v, hv⟩ := (h.natives id o ho).exists_view h.views
    rw [h.instances_release ho hv]
    simp only [Instances.setPayload, Instances.update, List.length_modify]

theorem Viewed.release (h : b.Viewed) (id : ObjectId) : (b.release [] id).2.Viewed := by
  have hregistry := b.registry_release [] id
  refine ⟨?_, ?_, fun w o ho => ?_, ?_⟩
  · rw [classes_release]
    exact h.classes
  · cases ho : b.registry.native? id with
    | none =>
      rw [AllViews, instances_release_of_none ho]
      exact h.views
    | some o =>
      obtain ⟨v, hv⟩ := (h.natives id o ho).exists_view h.views
      rw [AllViews, h.instances_release ho hv]
      exact (h.views.setPayload o { v with children := [] }).setPayload o v.emptied
  · rw [hregistry, Registry.native?_without] at ho
    split at ho
    · cases ho
    · rw [Knows, h.length_release]
      exact h.natives w o ho
  · rw [hregistry]
    exact h.inverse.without id

/-- Releases take the children from the views of the wrappers, and leave the others alone. -/
theorem Viewed.releaseAll (h : b.Viewed) (report : CollectionReport) (l : List ObjectId) :
    (b.releaseAll report l).2.Viewed ∧
      (b.releaseAll report l).2.instances.cells.length = b.instances.cells.length ∧
      ∀ i v, b.IsView i v → (b.releaseAll report l).2.IsView i
        (if ∃ w ∈ l, b.registry.byNative.find? i = some w then v.emptied else v) := by
  induction l generalizing report b with
  | nil => exact ⟨h, rfl, fun i v hv => by simpa [Bridge.releaseAll] using hv⟩
  | cons id rest ih =>
    -- The registry forgets a wrapper with its release, so a view is emptied once at most.
    rw [Bridge.releaseAll]
    obtain ⟨hviewed, hlength, hviews⟩ := ih (h.release id) _
    refine ⟨hviewed, hlength.trans (h.length_release id), fun i v hv => ?_⟩
    have hrest := hviews i _ (h.isView_release id hv)
    rw [registry_release, h.inverse.byNative_without] at hrest
    by_cases hid : b.registry.byNative.find? i = some id
    · have hnone : ¬ ∃ w ∈ rest, (none : Option ObjectId) = some w := by simp
      rw [if_pos hid, if_pos hid, if_neg hnone] at hrest
      rw [if_pos ⟨id, List.mem_cons_self, hid⟩]
      exact hrest
    · rw [if_neg hid, if_neg hid] at hrest
      simp only [List.mem_cons, exists_eq_or_imp, hid, false_or]
      exact hrest

/-! ## Collections -/

theorem native?_collect_iff : b.collect.2.registry.native? id = some o ↔
    id ∉ b.swept ∧ b.registry.native? id = some o := by
  rw [Registry.native?, binding?_collect, Registry.native?]
  by_cases hid : id ∈ b.swept <;> simp [hid]

theorem Tidy.byNative_collect_iff (h : b.Tidy) {i : InstanceId} :
    b.collect.2.registry.byNative.find? i = some id ↔
      id ∉ b.swept ∧ b.registry.byNative.find? i = some id := by
  rw [h.collect.inverse i id, h.inverse i id]
  simp only [native?_collect_iff, and_assoc, exists_and_left]

/-- A view keeps its children, or has lost them with its wrapper. -/
theorem Aligned.isView_of_collect (h : b.Aligned) (hinverse : b.registry.Inverse) {i : InstanceId}
    (hv : b.collect.2.IsView i v) :
    (v.childIds = [] ∧ ∃ w ∈ b.swept, b.registry.byNative.find? i = some w) ∨
      b.IsView i v ∧ ∀ w ∈ b.swept, b.registry.byNative.find? i ≠ some w := by
  let shrunk : Bridge := (b.onEngine (·.collect b.retention)).2
  have hviewed : shrunk.Viewed := ⟨h.classes, h.views, h.natives, hinverse⟩
  obtain ⟨-, hlength, hafter⟩ := hviewed.releaseAll { swept := b.swept.length } b.swept
  obtain ⟨hlt, -⟩ := List.getElem?_eq_some_iff.1 hv
  rw [collect_eq, hlength] at hlt
  obtain ⟨u, hu⟩ : ∃ u, b.IsView i u :=
    Knows.exists_view (o := ⟨View.className, i⟩) ⟨rfl, hlt⟩ h.views
  have hold := isView_unique hv (hafter i u hu)
  split at hold
  next hlost =>
    rw [hold]
    exact .inl ⟨rfl, hlost⟩
  next hkept =>
    rw [hold]
    exact .inr ⟨hu, fun w hw heq => hkept ⟨w, hw, heq⟩⟩

/-- **A collection leaves children and edges in step.** -/
theorem Aligned.collect (h : b.Aligned) (htidy : b.Tidy) : b.Advances b.collect.2 := by
  have hshrunk : (b.onEngine (·.collect b.retention)).2.Viewed :=
    ⟨h.classes, h.views, h.natives, htidy.inverse⟩
  obtain ⟨hviewed, hlength, -⟩ := hshrunk.releaseAll { swept := b.swept.length } b.swept
  rw [← collect_eq] at hviewed hlength
  -- The wrapper of a child of a view that stays is reached through the edge.
  have hchild : ∀ {p o v c}, p ∉ b.swept → b.registry.native? p = some o → b.IsView o.identity v →
      (∃ j ∈ v.childIds, b.registry.byNative.find? j = some c) → c ∉ b.swept := by
    intro p o v c hp ho hv hc
    have hedge := (h.edges p o v ho hv c).2 hc
    obtain ⟨hparent, hchild⟩ := htidy.ends p c hedge
    have hreached := reaches_of_not_mem_swept (htidy.registered p hparent) hp
    exact not_mem_swept (.owned hreached hedge (htidy.registered c hchild))
  refine ⟨⟨hviewed.classes, ?_, hviewed.views, hviewed.natives, ?_, ?_, ?_, ?_, ?_⟩,
    fun o ho => ho.of_length (Nat.le_of_eq hlength.symm)⟩
  · rw [modules_collect]
    exact h.modules
  · intro i v hv hnone
    obtain ⟨hempty, -⟩ | ⟨hold, hkept⟩ := h.isView_of_collect htidy.inverse hv
    · exact hempty
    refine h.unbound i v hold (Option.eq_none_iff_forall_not_mem.2 fun w hw => ?_)
    have hw' : w ∉ b.swept := fun hswept => hkept w hswept hw
    cases (htidy.byNative_collect_iff.2 ⟨hw', hw⟩).symm.trans hnone
  · intro i v hv
    obtain ⟨hempty, -⟩ | ⟨hold, -⟩ := h.isView_of_collect htidy.inverse hv
    · rw [hempty]
      exact List.nodup_nil
    · exact h.nodup i v hold
  · intro i v hv j hj
    obtain ⟨hempty, -⟩ | ⟨hold, hkept⟩ := h.isView_of_collect htidy.inverse hv
    · rw [hempty] at hj
      cases hj
    obtain ⟨c, hc⟩ := h.children i v hold j hj
    obtain ⟨p, hp⟩ : ∃ p, b.registry.byNative.find? i = some p := by
      refine Option.ne_none_iff_exists'.1 fun hnone => ?_
      rw [h.unbound i v hold hnone] at hj
      cases hj
    obtain ⟨o, ho, rfl⟩ := (htidy.inverse i p).1 hp
    have hp' : p ∉ b.swept := fun hswept => hkept p hswept hp
    exact ⟨c, htidy.byNative_collect_iff.2 ⟨hchild hp' ho hold ⟨j, hj, hc⟩, hc⟩⟩
  · intro p o v hp hv c
    obtain ⟨hp, ho⟩ := native?_collect_iff.1 hp
    rw [contains_collect_iff htidy.mirrored]
    obtain ⟨-, w, hw, hwrapper⟩ | ⟨hold, -⟩ := h.isView_of_collect htidy.inverse hv
    · have hbound : b.registry.byNative.find? o.identity = some p :=
        (htidy.inverse o.identity p).2 ⟨o, ho, rfl⟩
      obtain rfl := Option.some.inj (hwrapper.symm.trans hbound)
      exact absurd hw hp
    · rw [h.edges p o v ho hold c]
      constructor
      · rintro ⟨⟨j, hj, hc⟩, -, hc'⟩
        exact ⟨j, hj, htidy.byNative_collect_iff.2 ⟨hc', hc⟩⟩
      · rintro ⟨j, hj, hc⟩
        obtain ⟨hc', hc⟩ := htidy.byNative_collect_iff.1 hc
        exact ⟨⟨j, hj, hc⟩, hp, hc'⟩
  · intro id e className he hc
    have hreached : b.Reaches id := (isAlive_collect_iff id).1 (Heap.contains_of_get? he)
    rw [get?_collect_of_reaches hreached] at he
    obtain ⟨o, ho⟩ := Registry.contains_iff.1 (h.wrappers id e className he hc)
    exact Registry.contains_iff.2 ⟨o, native?_collect_iff.2 ⟨not_mem_swept hreached, ho⟩⟩

end Bridge
end ScriptBridge
