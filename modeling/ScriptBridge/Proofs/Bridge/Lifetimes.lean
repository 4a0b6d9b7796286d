import ScriptBridge.Proofs.Bridge.Identity

/-! # The life of a wrapper

A wrapper is bound once. Its binding ends once, when the host no longer holds it, and then the
finalizer that its class has at that moment is invoked once, whatever becomes of the invocation.

* `Bridge.life` are the milestones of one wrapper, and `Bridge.Stage` says how far it is: unused,
  bound, or ended. Every move of a bridge takes a stage to a stage: `Bridge.Stage.move`.
* `Bridge.milestones_releaseAll` are the milestones that a collection passes, one release for each
  wrapper that is swept; `Bridge.collect_ends` says so of the wrappers themselves, and
  `Bridge.collect_runs` what the finalizers do whose invocation is recorded.
* `Bridge.finalized_once` is what holds of every run.
-/

namespace ScriptBridge
set_option autoImplicit false

namespace Heap

variable {h : Heap} {id : ObjectId}

/-- The name was given to an object, and the object is gone. -/
structure Spent (h : Heap) (id : ObjectId) : Prop where
  issued : h.Issued id
  gone : h.contains id = false

theorem Spent.allocate (hs : h.Spent id) (hw : h.WellFormed) (object : HeapObject)
    (hl : (h.allocate object).2.NamesLast) : (h.allocate object).2.Spent id := by
  have hne : id ≠ (h.allocate object).1 := by
    rintro rfl
    exact hw.not_issued_allocate object hl hs.issued
  refine ⟨hw.issued_allocate object hs.issued, ?_⟩
  rw [contains, hw.get?_allocate_of_ne object hne]
  exact hs.gone

theorem Spent.update {h' : Heap} {id' : ObjectId} {f : LiveObject → LiveObject} (hs : h.Spent id)
    (hu : h.update id' f = .ok h') : h'.Spent id := by
  have hnone : h.get? id = none := by simpa [contains] using hs.gone
  refine ⟨issued_update hu hs.issued, ?_⟩
  rw [contains, get?_update hu, hnone]
  split <;> rfl

theorem Spent.freeAll (hs : h.Spent id) (l : List ObjectId) : (h.freeAll l).2.Spent id := by
  have hnone : h.get? id = none := by simpa [contains] using hs.gone
  refine ⟨issued_freeAll hs.issued l, ?_⟩
  rw [contains, get?_freeAll, hnone]
  split <;> rfl

end Heap

namespace Bridge

variable {d : Nat} {b b' : Bridge} {w : ObjectId} {o : InstanceHandle}

theorem Move.spent (h : Move b b') (hw : b.engine.heap.WellFormed)
    (hl : b'.engine.heap.NamesLast) (hs : b.engine.heap.Spent w) : b'.engine.heap.Spent w := by
  cases h with
  | closeScope => rw [heap_closeScope]; exact hs
  | allocate object => exact hs.allocate hw object hl
  | update _ hu => exact hs.update hu
  | wrapFresh o => exact hs.allocate hw (.wrapper o.className) hl
  | release => rw [heap_release]; exact hs
  | collect r => exact hs.freeAll _
  | _ => exact hs

/-! ## Milestones of one wrapper -/

/-- What a wrapper went through, the oldest first. -/
def life (b : Bridge) (w : ObjectId) : List Milestone := b.milestones.filter (·.wrapper = w)

theorem life_append {ms : List Milestone} (h : b'.milestones = b.milestones ++ ms) :
    b'.life w = b.life w ++ ms.filter (·.wrapper = w) := by
  rw [life, h, List.filter_append]
  rfl

theorem wrapper_of_mem_releaseMilestones {id : ObjectId} {m : Milestone}
    (h : m ∈ b.releaseMilestones id) : m.wrapper = id := by
  unfold releaseMilestones at h
  split at h
  · cases h
  · rcases List.mem_cons.1 h with rfl | hm
    · rfl
    · obtain ⟨f, -, rfl⟩ := List.mem_map.1 hm
      rfl

theorem releaseMilestones_of_unbound (hn : b.registry.native? w = none) :
    b.releaseMilestones w = [] := by
  rw [releaseMilestones, hn]

theorem releaseMilestones_of_dead (hn : b.registry.native? w = some o)
    (hdead : b.isAlive w = false) :
    b.releaseMilestones w = .retired w o false b.classes :: b.classes.finalizing w o := by
  rw [releaseMilestones, hn, hdead]

theorem filter_releaseMilestones (b : Bridge) (id w : ObjectId) :
    (b.releaseMilestones id).filter (·.wrapper = w) =
      if id = w then b.releaseMilestones id else [] := by
  split
  next hid =>
    refine List.filter_eq_self.2 fun m hm => ?_
    simpa [hid] using wrapper_of_mem_releaseMilestones hm
  next hid =>
    refine List.filter_eq_nil_iff.2 fun m hm => ?_
    simpa [wrapper_of_mem_releaseMilestones hm] using hid

theorem life_release (b : Bridge) (inFlight : List InstanceId) (id w : ObjectId) :
    (b.release inFlight id).2.life w =
      b.life w ++ if id = w then b.releaseMilestones id else [] := by
  obtain ⟨instances, journal, heq⟩ := b.release_eq inFlight id
  rw [← filter_releaseMilestones]
  refine life_append ?_
  rw [heq]
  rfl

theorem native?_release (b : Bridge) (inFlight : List InstanceId) (id w : ObjectId) :
    (b.release inFlight id).2.registry.native? w =
      if w = id then none else b.registry.native? w := by
  rw [registry_release]
  exact Registry.native?_without id w

theorem life_wrapFresh (b : Bridge) (o : InstanceHandle) (w : ObjectId) :
    (b.wrapFresh o).2.life w = b.life w ++
      if b.registry.wrapper? o = none ∧ (b.engine.heap.allocate (.wrapper o.className)).1 = w then
        [.bound w o] else [] := by
  rw [wrapFresh_eq]
  refine (life_append rfl).trans ?_
  congr 1
  by_cases hnone : b.registry.wrapper? o = none
  · by_cases hw : (b.engine.heap.allocate (.wrapper o.className)).1 = w
    · simp [hnone, hw, Milestone.wrapper]
    · simp [hnone, hw, Milestone.wrapper]
  · simp [hnone]

theorem native?_wrapFresh (hnone : b.registry.wrapper? o = none) (w : ObjectId) :
    (b.wrapFresh o).2.registry.native? w =
      if w = (b.engine.heap.allocate (.wrapper o.className)).1 then some o
      else b.registry.native? w := by
  rw [wrapFresh_eq]
  exact Registry.native?_bind hnone w

/-! ## Stages -/

/-- How far a wrapper is. What its release calls for is settled by the classes of that moment. -/
inductive Stage (b : Bridge) (w : ObjectId) : Prop where
  | unused : b.life w = [] → b.registry.native? w = none → Stage b w
  | bound (o : InstanceHandle) :
      b.life w = [.bound w o] → b.registry.native? w = some o → Stage b w
  | ended (o : InstanceHandle) (classes : Hierarchy) :
      b.life w = .bound w o :: .retired w o false classes :: classes.finalizing w o →
        b.registry.native? w = none → b.engine.heap.Spent w → Stage b w

/-- Nothing but the binding has happened to a wrapper that is bound. -/
theorem Stage.life_of_native? (h : b.Stage w) (hn : b.registry.native? w = some o) :
    b.life w = [.bound w o] := by
  cases h with
  | unused _ hn' => cases hn.symm.trans hn'
  | bound o' hone hn' =>
    obtain rfl := Option.some.inj (hn.symm.trans hn')
    exact hone
  | ended _ _ _ hn' _ => cases hn.symm.trans hn'

theorem Stage.of_eq (h : b.Stage w) (hlife : b'.life w = b.life w)
    (hnative : b'.registry.native? w = b.registry.native? w)
    (hspent : b.engine.heap.Spent w → b'.engine.heap.Spent w) : b'.Stage w := by
  cases h with
  | unused hl hn => exact .unused (hlife.trans hl) (hnative.trans hn)
  | bound o hl hn => exact .bound o (hlife.trans hl) (hnative.trans hn)
  | ended o classes hl hn hs =>
    exact .ended o classes (hlife.trans hl) (hnative.trans hn) (hspent hs)

theorem Stage.release (h : b.Stage w) (hsound : b.Sound) (inFlight : List InstanceId)
    {id : ObjectId} (hdead : b.isAlive id = false) : (b.release inFlight id).2.Stage w := by
  have hlife := b.life_release inFlight id w
  have hnative := b.native?_release inFlight id w
  have hheap := b.heap_release inFlight id
  by_cases hid : id = w
  · subst hid
    rw [if_pos rfl] at hlife hnative
    cases h with
    | unused hl hn =>
      exact .unused (by rw [hlife, hl, releaseMilestones_of_unbound hn, List.nil_append]) hnative
    | bound o hl hn =>
      have hissued := hsound.issued id (Registry.contains_iff.2 ⟨o, hn⟩)
      refine .ended o b.classes ?_ hnative ?_
      · rw [hlife, hl, releaseMilestones_of_dead hn hdead, List.singleton_append]
      · rw [hheap]
        exact ⟨hissued, hdead⟩
    | ended o classes hl hn hs =>
      -- There is no binding left to retire, so a second release passes no milestone.
      refine .ended o classes ?_ hnative (by rw [hheap]; exact hs)
      rw [hlife, hl, releaseMilestones_of_unbound hn, List.append_nil]
  · rw [if_neg hid, List.append_nil] at hlife
    rw [if_neg (Ne.symm hid)] at hnative
    exact h.of_eq hlife hnative fun hs => by rw [hheap]; exact hs

theorem Stage.wrapFresh (h : b.Stage w) (hsound : b.Sound) (o : InstanceHandle)
    (hl : (b.wrapFresh o).2.engine.heap.NamesLast) : (b.wrapFresh o).2.Stage w := by
  have hlife := b.life_wrapFresh o w
  have hspent := (Move.wrapFresh b o).spent hsound.wellFormed hl (w := w)
  cases hnone : b.registry.wrapper? o with
  | some bound =>
    have hregistry : (b.wrapFresh o).2.registry = b.registry := by
      rw [wrapFresh_eq]
      simp only [Registry.bind_of_some hnone]
    exact h.of_eq (by simpa [hnone] using hlife) (by rw [hregistry]) hspent
  | none =>
    have hnative := native?_wrapFresh hnone w
    by_cases hw : (b.engine.heap.allocate (.wrapper o.className)).1 = w
    · -- The name is fresh, so the wrapper can only have been unused.
      have hnew : ¬ b.engine.heap.Issued w := by
        rw [← hw]
        exact hsound.wellFormed.not_issued_allocate (.wrapper o.className) hl
      rw [if_pos hw.symm] at hnative
      cases h with
      | unused hempty _ => exact .bound o (by simp [hlife, hempty, hnone, hw]) hnative
      | bound o' _ hn => exact absurd (hsound.issued w (Registry.contains_iff.2 ⟨o', hn⟩)) hnew
      | ended _ _ _ _ hs => exact absurd hs.issued hnew
    · rw [if_neg (Ne.symm hw)] at hnative
      exact h.of_eq (by simpa [hw] using hlife) hnative hspent

/-- **Every move takes a stage to a stage.** -/
theorem Stage.move (h : b.Stage w) (hm : Move b b') (hsound : b.Sound)
    (hl : b'.engine.heap.NamesLast) : b'.Stage w := by
  have hspent := hm.spent hsound.wellFormed hl (w := w)
  cases hm with
  | wrapFresh o => exact h.wrapFresh hsound o hl
  | release inFlight hdead => exact h.release hsound inFlight hdead
  | setMode wrapper mode => exact h.of_eq rfl (Registry.native?_setMode wrapper mode w) hspent
  | _ => exact h.of_eq rfl rfl hspent

theorem Stage.moves (h : b.Stage w) (hm : Moves d b b') (hsound : b.Sound)
    (hl : b'.engine.heap.NamesLast) : b'.Stage w := by
  induction hm with
  | refl => exact h
  | tail hprev hstep ih =>
    have hw := Moves.wellFormed hprev hsound.wellFormed
    have hl' := hl.of_grows (hstep.1.grows hw)
    exact (ih hl').move hstep.1 (hsound.moves hprev hl') hl

theorem Reachable.stage (h : b.Reachable) (hl : b.engine.heap.NamesLast) (w : ObjectId) :
    b.Stage w := by
  obtain ⟨options, hrun⟩ := h
  have hstart : ({ options } : Bridge).Sound :=
    ⟨Heap.wellFormed_empty, Registry.inverse_empty, fun w hc => by cases hc⟩
  exact Stage.moves (.unused rfl rfl) hrun.moves hstart hl

/-! ## One pass -/

/-- A release has no part in the milestones of another. -/
theorem releaseMilestones_release (b : Bridge) (inFlight : List InstanceId) {id id' : ObjectId}
    (hne : id' ≠ id) :
    (b.release inFlight id).2.releaseMilestones id' = b.releaseMilestones id' := by
  have halive : (b.release inFlight id).2.isAlive id' = b.isAlive id' := by
    rw [isAlive, Engine.isAlive, heap_release]
    rfl
  simp only [releaseMilestones, native?_release, if_neg hne, halive, classes_release]

theorem milestones_releaseAll (l : List ObjectId) (hl : l.Nodup) (report : CollectionReport)
    (b : Bridge) :
    (b.releaseAll report l).2.milestones = b.milestones ++ l.flatMap b.releaseMilestones := by
  induction l generalizing report b with
  | nil => simp [releaseAll]
  | cons id rest ih =>
    obtain ⟨hid, hrest⟩ := List.nodup_cons.1 hl
    have hothers : rest.flatMap (b.release [] id).2.releaseMilestones =
        rest.flatMap b.releaseMilestones := by
      refine List.flatMap_congr fun id' hid' => ?_
      exact b.releaseMilestones_release [] (ne_of_mem_of_not_mem hid' hid)
    have hfirst : (b.release [] id).2.milestones = b.milestones ++ b.releaseMilestones id := by
      obtain ⟨instances, journal, heq⟩ := b.release_eq [] id
      rw [heq]
      rfl
    calc (b.releaseAll report (id :: rest)).2.milestones
      _ = (b.release [] id).2.milestones ++ rest.flatMap (b.release [] id).2.releaseMilestones :=
          ih hrest _ _
      _ = b.milestones ++ (id :: rest).flatMap b.releaseMilestones := by
          rw [hothers, hfirst, List.flatMap_cons, List.append_assoc]

theorem filter_flatMap_releaseMilestones (b : Bridge) {l : List ObjectId} (hl : l.Nodup)
    (hw : w ∈ l) :
    (l.flatMap b.releaseMilestones).filter (·.wrapper = w) = b.releaseMilestones w := by
  induction l with
  | nil => cases hw
  | cons id rest ih =>
    obtain ⟨hid, hrest⟩ := List.nodup_cons.1 hl
    rw [List.flatMap_cons, List.filter_append, filter_releaseMilestones]
    by_cases hidw : id = w
    · subst hidw
      have hnone : (rest.flatMap b.releaseMilestones).filter (·.wrapper = id) = [] := by
        refine List.filter_eq_nil_iff.2 fun m hm => ?_
        obtain ⟨id', hid', hm⟩ := List.mem_flatMap.1 hm
        rw [wrapper_of_mem_releaseMilestones hm]
        simpa using ne_of_mem_of_not_mem hid' hid
      rw [if_pos rfl, hnone, List.append_nil]
    · rw [if_neg hidw, List.nil_append]
      exact ih hrest ((List.mem_cons.1 hw).resolve_left (Ne.symm hidw))

theorem native?_releaseAll {l : List ObjectId} (hw : w ∈ l) (report : CollectionReport)
    (b : Bridge) : (b.releaseAll report l).2.registry.native? w = none := by
  rw [Registry.native?, binding?_releaseAll, if_pos hw]
  rfl

/-- A collection ends the binding of a wrapper that it sweeps. -/
theorem collect_ends (hn : b.registry.native? w = some o) (halive : b.isAlive w)
    (hswept : b.collect.2.isAlive w = false) :
    b.collect.2.registry.native? w = none ∧
      b.collect.2.life w =
        b.life w ++ .retired w o false b.classes :: b.classes.finalizing w o := by
  have hdead : (b.engine.collect b.retention).2.isAlive w = false := by
    rw [isAlive, Engine.isAlive, b.heap_collect] at hswept
    exact hswept
  have hmem : w ∈ (b.engine.collect b.retention).1 := by
    refine (b.engine.mem_collect_iff b.retention w).2 ⟨halive, fun hreached => ?_⟩
    rw [(b.engine.isAlive_collect_iff b.retention w).2 hreached] at hdead
    cases hdead
  have hnodup := b.engine.nodup_collect b.retention
  have hmilestones := milestones_releaseAll _ hnodup
    { swept := (b.engine.collect b.retention).1.length } (b.onEngine (·.collect b.retention)).2
  have hfinal : (b.onEngine (·.collect b.retention)).2.releaseMilestones w =
      .retired w o false b.classes :: b.classes.finalizing w o :=
    releaseMilestones_of_dead hn hdead
  have hlife := life_append (w := w) hmilestones
  rw [filter_flatMap_releaseMilestones _ hnodup hmem, hfinal] at hlife
  exact ⟨native?_releaseAll hmem _ _, hlife⟩

/-! ### What is invoked runs -/

/-- What the run of the finalizer reports in the release of a wrapper. -/
def releaseReports (b : Bridge) (w : ObjectId) : List Event :=
  (b.registry.native? w).elim [] fun o => (b.finalization o).1

theorem release_runs (b : Bridge) (inFlight : List InstanceId) (w : ObjectId) :
    ∃ warnings : List Warning, (b.release inFlight w).2.engine.journal =
        b.engine.journal ++ (b.releaseReports w ++ warnings.map .warned) ∧
      ∀ o, b.registry.native? w = some o → ∃ put, b.Ran w o put warnings ∧
        (b.release inFlight w).2.instances = b.instances.setPayloads o put := by
  unfold releaseReports
  cases hn : b.registry.native? w with
  | none =>
    rw [release_of_unbound hn]
    exact ⟨[], (List.append_nil _).symm, nofun⟩
  | some o =>
    obtain ⟨put, warnings, hran, heq⟩ := release_of_native? hn inFlight
    rw [heq]
    refine ⟨warnings, rfl, fun o' ho' => ?_⟩
    obtain rfl := Option.some.inj ho'
    exact ⟨put, hran, rfl⟩

/-- A release leaves the instances of other wrappers, and so the runs to come, as they are. -/
theorem get?_release_of_ne (hinv : b.registry.Inverse) (inFlight : List InstanceId) {id : ObjectId}
    (hn : b.registry.native? w = some o) (hne : w ≠ id) :
    (b.release inFlight id).2.instances.get? o.identity = b.instances.get? o.identity :=
  b.get?_instances_release inFlight fun _ ho' => hinv.identity_ne hn ho' hne

theorem finalization_release_of_ne (hinv : b.registry.Inverse) (inFlight : List InstanceId)
    {id : ObjectId} (hn : b.registry.native? w = some o) (hne : w ≠ id) :
    (b.release inFlight id).2.finalization o = b.finalization o := by
  refine finalization_congr (b.classes_release inFlight id) ?_ (get?_release_of_ne hinv _ hn hne)
  obtain ⟨instances, journal, heq⟩ := b.release_eq inFlight id
  rw [heq]
  rfl

theorem releaseReports_release_of_ne (hinv : b.registry.Inverse) (inFlight : List InstanceId)
    {id : ObjectId} (hne : w ≠ id) :
    (b.release inFlight id).2.releaseReports w = b.releaseReports w := by
  rw [releaseReports, releaseReports, native?_release, if_neg hne]
  cases hn : b.registry.native? w with
  | none => rfl
  | some o => exact congrArg Prod.fst (finalization_release_of_ne hinv inFlight hn hne)

theorem get?_instances_releaseAll {l : List ObjectId} {i : InstanceId}
    (hi : ∀ w ∈ l, ∀ o, b.registry.native? w = some o → i ≠ o.identity)
    (report : CollectionReport) :
    (b.releaseAll report l).2.instances.get? i = b.instances.get? i := by
  induction l generalizing report b with
  | nil => rfl
  | cons id rest ih =>
    have hlater : ∀ w ∈ rest, ∀ o, (b.release [] id).2.registry.native? w = some o →
        i ≠ o.identity := by
      intro w hw o hn
      rw [native?_release] at hn
      split at hn
      · cases hn
      · exact hi w (List.mem_cons_of_mem id hw) o hn
    exact (ih hlater _).trans (b.get?_instances_release [] (hi id List.mem_cons_self))

/-- Each invocation that `milestones_releaseAll` lists is a run, in the same order: what it reports is
in the journal, followed by nothing but warnings, and the contents it leaves are in its instance. -/
theorem releaseAll_runs (l : List ObjectId) (hl : l.Nodup) (report : CollectionReport) (b : Bridge)
    (hinv : b.registry.Inverse) : ∃ warnings : ObjectId → List Warning,
      (b.releaseAll report l).2.engine.journal = b.engine.journal ++
        l.flatMap (fun w => b.releaseReports w ++ (warnings w).map .warned) ∧
      ∀ w ∈ l, ∀ o, b.registry.native? w = some o → ∃ put, b.Ran w o put (warnings w) ∧
        (b.releaseAll report l).2.instances.get? o.identity =
          (b.instances.setPayloads o put).get? o.identity := by
  induction l generalizing report b with
  | nil => exact ⟨fun _ => [], (List.append_nil _).symm, nofun⟩
  | cons id rest ih =>
    obtain ⟨hid, hrest⟩ := List.nodup_cons.1 hl
    have hinv' : (b.release [] id).2.registry.Inverse := by
      rw [registry_release]
      exact hinv.without id
    obtain ⟨first, hfirst, hran⟩ := b.release_runs [] id
    obtain ⟨warnings, hjournal, hruns⟩ := ih hrest _ (b.release [] id).2 hinv'
    have hne : ∀ w ∈ rest, w ≠ id := fun w hw => ne_of_mem_of_not_mem hw hid
    have hnative : ∀ w ∈ rest,
        (b.release [] id).2.registry.native? w = b.registry.native? w := fun w hw => by
      rw [native?_release, if_neg (hne w hw)]
    refine ⟨Function.update warnings id first, ?_, ?_⟩
    · have hothers : (rest.flatMap fun w => (b.release [] id).2.releaseReports w ++
            (warnings w).map .warned) =
          rest.flatMap fun w => b.releaseReports w ++
            (Function.update warnings id first w).map .warned := by
        refine List.flatMap_congr fun w hw => ?_
        rw [Function.update_of_ne (hne w hw), releaseReports_release_of_ne hinv [] (hne w hw)]
      refine hjournal.trans ?_
      rw [hothers, hfirst, List.flatMap_cons, Function.update_self, List.append_assoc]
    · intro w hw o hn
      rcases List.mem_cons.1 hw with rfl | hw
      · obtain ⟨put, hput, hinstances⟩ := hran o hn
        rw [Function.update_self]
        have hlater : ∀ w' ∈ rest, ∀ o', (b.release [] w).2.registry.native? w' = some o' →
            o.identity ≠ o'.identity := fun w' hw' o' hn' =>
          hinv.identity_ne hn ((hnative w' hw').symm.trans hn') (hne w' hw').symm
        refine ⟨put, hput, ?_⟩
        rw [← hinstances]
        exact get?_instances_releaseAll hlater _
      · obtain ⟨put, hput, hget⟩ := hruns w hw o ((hnative w hw).trans hn)
        have hfinal := finalization_release_of_ne hinv [] hn (hne w hw)
        rw [Function.update_of_ne (hne w hw)]
        refine ⟨put, ⟨hfinal ▸ hput.isPrefix, hfinal ▸ hput.complete⟩, hget.trans ?_⟩
        exact Instances.get?_setPayloads_congr (get?_release_of_ne hinv [] hn (hne w hw)) put

/-- **An invocation is a run.** After what the finalizers of the host write, a collection writes for
each swept wrapper, in the order in which the invocations are recorded, what the run of the finalizer
on the content of the instance reports, and then nothing but warnings. The contents that the run
leaves are put into the instance, all of them unless there was a panic. -/
theorem collect_runs (hinv : b.registry.Inverse) : ∃ warnings : ObjectId → List Warning,
    b.collect.2.milestones = b.milestones ++
      b.swept.flatMap (b.onEngine (·.collect b.retention)).2.releaseMilestones ∧
    b.collect.2.engine.journal = (b.engine.collect b.retention).2.journal ++
      b.swept.flatMap (fun w => b.releaseReports w ++ (warnings w).map .warned) ∧
    ∀ w ∈ b.swept, ∀ o f content, b.registry.native? w = some o →
      b.classes.finalizer? o.className = some f →
      b.instances.take b.options.kindNames o f.kind = .ok content →
      b.releaseReports w = (f.run content).events ∧
      ∃ put, put <+: (f.run content).contents.map (Payload.mk f.kind) ∧
        (put = (f.run content).contents.map (Payload.mk f.kind) ∨
          .finalizerPanicked o.className w ∈ warnings w) ∧
        b.collect.2.instances.get? o.identity =
          (b.instances.setPayloads o put).get? o.identity := by
  have hnodup : b.swept.Nodup := b.engine.nodup_collect b.retention
  obtain ⟨warnings, hjournal, hruns⟩ := releaseAll_runs b.swept hnodup
    { swept := b.swept.length } (b.onEngine (·.collect b.retention)).2 hinv
  refine ⟨warnings, milestones_releaseAll b.swept hnodup _ _, hjournal,
    fun w hw o f content hn hf ht => ?_⟩
  have hfinal := b.finalization_of_take hf ht
  have hleft : (b.finalization o).2 = (f.run content).contents.map (Payload.mk f.kind) :=
    congrArg Prod.snd hfinal
  obtain ⟨put, hput, hget⟩ := hruns w hw o hn
  have hran : b.Ran w o put (warnings w) := ⟨hput.isPrefix, hput.complete⟩
  refine ⟨?_, put, hleft ▸ hran.isPrefix, hleft ▸ hran.complete, hget⟩
  rw [releaseReports, hn, Option.elim_some, hfinal]

/-- Wrapping an instance again ends the binding of its dead wrapper. -/
theorem rewrap_ends (hsound : b.Sound) {o' : InstanceHandle} (hn : b.registry.native? w = some o)
    (hdead : b.isAlive w = false) (ho : o'.identity = o.identity)
    (hl : (b.wrap o').2.engine.heap.NamesLast) :
    (b.wrap o').2.registry.native? w = none ∧
      (b.wrap o').2.life w =
        b.life w ++ .retired w o false b.classes :: b.classes.finalizing w o := by
  have hwrapper : b.registry.wrapper? o' = some w := (hsound.inverse _ _).2 ⟨o, hn, ho.symm⟩
  have hwrap : b.wrap o' = (b.release [o'.identity] w).2.wrapFresh o' := by
    simp only [wrap, hwrapper, hdead, Bool.false_eq_true, if_false]
  rw [hwrap] at hl ⊢
  have hreleased := hsound.release [o'.identity] w
  have hnone : (b.release [o'.identity] w).2.registry.wrapper? o' = none := by
    rw [hsound.wrapper?_release, if_pos hwrapper]
  have hissued : (b.release [o'.identity] w).2.engine.heap.Issued w := by
    rw [heap_release]
    exact hsound.issued w (Registry.contains_iff.2 ⟨o, hn⟩)
  have hne :
      ((b.release [o'.identity] w).2.engine.heap.allocate (.wrapper o'.className)).1 ≠ w := by
    intro heq
    have hnew := hreleased.wellFormed.not_issued_allocate (.wrapper o'.className) hl
    rw [heq] at hnew
    exact hnew hissued
  constructor
  · rw [native?_wrapFresh hnone, if_neg (Ne.symm hne), native?_release, if_pos rfl]
  · rw [life_wrapFresh, if_neg fun h => hne h.2, List.append_nil, life_release, if_pos rfl,
      releaseMilestones_of_dead hn hdead]

/-! ## Every run -/

/-- **Finalized exactly once.** In every run in which the names last, a wrapper that was ever bound
to an instance is still bound to it, and nothing else has happened to it; or its binding has ended,
once, when the host did not hold it, and the finalizer that was the nearest one of the class of the
instance at that moment, if there was any, has been invoked for it, once. Nothing is bound without a
milestone. A collection ends the binding of every wrapper that it sweeps, and wrapping an instance
again that of its dead wrapper, with the finalizer of that moment; how invocations end, for these or
for others, does not matter. -/
theorem finalized_once (b : Bridge) (h : b.Reachable) (hl : b.engine.heap.NamesLast) :
    (∀ w o, .bound w o ∈ b.milestones →
      (b.registry.native? w = some o ∧ b.life w = [.bound w o]) ∨
      (b.registry.contains w = false ∧ b.isAlive w = false ∧ ∃ classes : Hierarchy,
        b.life w = .bound w o :: .retired w o false classes ::
          (classes.finalizer? o.className).toList.map (.finalizing w o))) ∧
    ∀ w o, b.registry.native? w = some o → .bound w o ∈ b.milestones ∧
      (b.isAlive w → b.collect.2.isAlive w = false →
        b.collect.2.registry.contains w = false ∧
        b.collect.2.life w = .bound w o :: .retired w o false b.classes ::
          (b.classes.finalizer? o.className).toList.map (.finalizing w o)) ∧
      (b.isAlive w = false → ∀ o', o'.identity = o.identity →
        (b.wrap o').2.engine.heap.NamesLast →
        (b.wrap o').2.registry.contains w = false ∧
        (b.wrap o').2.life w = .bound w o :: .retired w o false b.classes ::
          (b.classes.finalizer? o.className).toList.map (.finalizing w o)) := by
  refine ⟨fun w o hbound => ?_, fun w o hn => ?_⟩
  · have hlife : .bound w o ∈ b.life w := List.mem_filter.2 ⟨hbound, by simp [Milestone.wrapper]⟩
    cases h.stage hl w with
    | unused hempty _ =>
      rw [hempty] at hlife
      cases hlife
    | bound o' hone hn =>
      rw [hone, List.mem_singleton] at hlife
      obtain ⟨-, rfl⟩ := Milestone.bound.inj hlife
      exact .inl ⟨hn, hone⟩
    | ended o' classes hall hn hspent =>
      have ho : o = o' := by
        rw [hall] at hlife
        simpa [Hierarchy.finalizing] using hlife
      exact .inr ⟨Registry.contains_eq_false_iff.2 hn, hspent.gone, classes, by rw [hall, ho]; rfl⟩
  · have hone := (h.stage hl w).life_of_native? hn
    have hbound : .bound w o ∈ b.life w := by rw [hone]; exact List.mem_singleton_self _
    refine ⟨(List.mem_filter.1 hbound).1, fun halive hswept => ?_, fun hdead o' ho hl' => ?_⟩
    · obtain ⟨hnone, hlife⟩ := collect_ends hn halive hswept
      exact ⟨Registry.contains_eq_false_iff.2 hnone, by rw [hlife, hone]; rfl⟩
    · obtain ⟨hnone, hlife⟩ := rewrap_ends (h.sound hl) hn hdead ho hl'
      exact ⟨Registry.contains_eq_false_iff.2 hnone, by rw [hlife, hone]; rfl⟩

/-- A finalizer that panics. -/
def panicking : ClassFinalizer := ⟨.word, fun _ => { verdict := .panicked }⟩

/-- Two instances of a class that inherits its finalizer, wrapped in a scope that has closed. -/
def twoLeaves : Bridge :=
  let b := (({} : Bridge).defineClass { name := "Node", finalizer? := some panicking }).2
  let b := (b.defineClass { name := "Leaf", base? := some "Node" }).2.openScope
  let (first, b) := b.create "Leaf" (.word 1)
  let (second, b) := b.create "Leaf" (.word 2)
  ((b.wrap first).2.wrap second).2.closeScope

theorem reachable_twoLeaves : twoLeaves.Reachable := by
  refine ⟨{}, ?_⟩
  have start : Run ({} : Bridge) {} := Relation.ReflTransGen.refl
  have base := start.tail ⟨0, .defineClass { name := "Node", finalizer? := some panicking }⟩
  have classes := base.tail ⟨0, .defineClass { name := "Leaf", base? := some "Node" }⟩
  have made := ((classes.tail ⟨0, .ask .openScope⟩).tail
    ⟨0, .ask (.create "Leaf" (.word 1))⟩).tail ⟨0, .ask (.create "Leaf" (.word 2))⟩
  exact ((made.tail ⟨0, .ask (.wrap ⟨"Leaf", ⟨0⟩⟩)⟩).tail ⟨0, .ask (.wrap ⟨"Leaf", ⟨1⟩⟩)⟩).tail
    ⟨0, .ask .closeScope⟩

/-- A collection takes both, and the panic for the first keeps nothing from the second. When the
host takes them by itself, wrapping the first instance again does for that one. -/
theorem finalized_once_of_twoLeaves :
    let first : InstanceHandle := ⟨"Leaf", ⟨0⟩⟩
    let second : InstanceHandle := ⟨"Leaf", ⟨1⟩⟩
    let swept := (twoLeaves.onEngine (·.collect {})).2
    twoLeaves.Reachable ∧ twoLeaves.engine.heap.NamesLast ∧
      twoLeaves.life ⟨0, 0⟩ = [.bound ⟨0, 0⟩ first] ∧
      twoLeaves.collect.2.life ⟨0, 0⟩ = [.bound ⟨0, 0⟩ first,
        .retired ⟨0, 0⟩ first false twoLeaves.classes, .finalizing ⟨0, 0⟩ first panicking] ∧
      twoLeaves.collect.2.life ⟨1, 0⟩ = [.bound ⟨1, 0⟩ second,
        .retired ⟨1, 0⟩ second false twoLeaves.classes, .finalizing ⟨1, 0⟩ second panicking] ∧
      swept.life ⟨0, 0⟩ = [.bound ⟨0, 0⟩ first] ∧
      (swept.wrap first).2.life ⟨0, 0⟩ = [.bound ⟨0, 0⟩ first,
        .retired ⟨0, 0⟩ first false swept.classes, .finalizing ⟨0, 0⟩ first panicking] := by
  intro first second swept
  have hreach := reachable_twoLeaves
  have hl : twoLeaves.engine.heap.NamesLast := ⟨by decide, by decide⟩
  obtain ⟨hlives, hends⟩ := finalized_once twoLeaves hreach hl
  obtain ⟨hbound, hfirst, -⟩ := hends ⟨0, 0⟩ first rfl
  obtain ⟨-, hsecond, -⟩ := hends ⟨1, 0⟩ second rfl
  have hreach' : swept.Reachable :=
    hreach.run (Relation.ReflTransGen.single ⟨0, .ask (.hostCollect {})⟩)
  have hl' : swept.engine.heap.NamesLast := ⟨by decide, by decide⟩
  have hl'' : (swept.wrap first).2.engine.heap.NamesLast := ⟨by decide, by decide⟩
  obtain ⟨hlives', hends'⟩ := finalized_once swept hreach' hl'
  obtain ⟨hbound', -, hagain⟩ := hends' ⟨0, 0⟩ first rfl
  refine ⟨hreach, hl, ?_, (hfirst (by decide) (by decide)).2, (hsecond (by decide) (by decide)).2,
    ?_, (hagain (by decide) first rfl hl'').2⟩
  · rcases hlives _ _ hbound with ⟨-, hlife⟩ | ⟨hnot, -⟩
    · exact hlife
    · exact absurd hnot (by decide)
  · rcases hlives' _ _ hbound' with ⟨-, hlife⟩ | ⟨hnot, -⟩
    · exact hlife
    · exact absurd hnot (by decide)

end Bridge
end ScriptBridge
