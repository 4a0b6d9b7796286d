import ScriptBridge.Proofs.Bridge.Tidiness
import ScriptBridge.Proofs.Sample.Bodies

/-! # Children and edges of views

A view keeps its children as handles of instances, and the bridge keeps edges between their
wrappers. The two are changed by different code: the bodies of the view class and its finalizer on
one side, the policies of calls and the release of wrappers on the other. As long as script works
with views through their class, the two tell the same.

* `Bridge.Aligned` says so, and `Bridge.Advances` that something leaves it so.
* `Bridge.Aligned.change` is one view changed together with the edges of its wrapper.
* `Bridge.Aligned.create` and `Bridge.Aligned.wrapAll` are new views and new wrappers.
-/

namespace ScriptBridge
set_option autoImplicit false

namespace View

/-- The view class and no other. -/
def hierarchy : Hierarchy := ⟨Table.empty.insert className nativeClass⟩

/-! ## Children -/

def childIds (v : View) : List InstanceId := v.children.map (·.identity)

variable (v : View) (child : InstanceHandle)

theorem childIds_addChild : (v.addChild child).childIds =
    if child.identity ∈ v.childIds then v.childIds else v.childIds ++ [child.identity] := by
  have hany : (v.children.any fun c => c.identity = child.identity) ↔
      child.identity ∈ v.childIds := by
    simp [childIds]
  by_cases hmem : child.identity ∈ v.childIds
  · rw [if_pos hmem, addChild, if_pos (hany.2 hmem)]
  · rw [if_neg hmem, addChild, if_neg fun h => hmem (hany.1 h), childIds, List.map_append]
    rfl

theorem mem_childIds_addChild (i : InstanceId) :
    i ∈ (v.addChild child).childIds ↔ i ∈ v.childIds ∨ i = child.identity := by
  rw [childIds_addChild]
  split
  next hmem =>
    refine ⟨.inl, fun hi => hi.elim id ?_⟩
    rintro rfl
    exact hmem
  · simp

theorem nodup_childIds_addChild (h : v.childIds.Nodup) : (v.addChild child).childIds.Nodup := by
  rw [childIds_addChild]
  split
  · exact h
  next hnew =>
    rw [← List.concat_eq_append]
    exact h.concat hnew

theorem mem_childIds_removeChild (i : InstanceId) :
    i ∈ (v.removeChild child).childIds ↔ i ∈ v.childIds ∧ i ≠ child.identity := by
  simp only [childIds, removeChild, List.mem_map, List.mem_filter, decide_eq_true_eq]
  constructor
  · rintro ⟨x, ⟨hx, hne⟩, rfl⟩
    exact ⟨⟨x, hx, rfl⟩, hne⟩
  · rintro ⟨⟨x, hx, rfl⟩, hne⟩
    exact ⟨x, ⟨hx, hne⟩, rfl⟩

theorem nodup_childIds_removeChild (h : v.childIds.Nodup) : (v.removeChild child).childIds.Nodup :=
  h.sublist (List.filter_sublist.map _)

end View

namespace Bridge

variable {b b' : Bridge} {o : InstanceHandle} {w p c : ObjectId} {v : View}

/-! ## Views in the bridge -/

/-- There is nothing but views, none of them lent out. -/
def AllViews (b : Bridge) : Prop :=
  ∀ i c, b.instances.get? i = some c → ∃ v, c = ⟨.view v, .free⟩

/-- A handle of a view that was made. -/
def Knows (b : Bridge) (o : InstanceHandle) : Prop :=
  o.className = View.className ∧ o.identity.index < b.instances.cells.length

/-- The children of views and the edges of their wrappers tell the same. -/
structure Aligned (b : Bridge) : Prop where
  classes : b.classes = View.hierarchy
  modules : ∀ name m, b.modules.find? name = some m → ∃ symbol, m = TypesModule.exports symbol
  views : b.AllViews
  natives : ∀ w o, b.registry.native? w = some o → b.Knows o
  /-- A view without a wrapper has no children. -/
  unbound : ∀ i v, b.IsView i v → b.registry.byNative.find? i = none → v.childIds = []
  nodup : ∀ i v, b.IsView i v → v.childIds.Nodup
  children : ∀ i v, b.IsView i v → ∀ j ∈ v.childIds, ∃ c, b.registry.byNative.find? j = some c
  edges : ∀ p o v, b.registry.native? p = some o → b.IsView o.identity v → ∀ c,
    b.edges.contains p c ↔ ∃ j ∈ v.childIds, b.registry.byNative.find? j = some c
  wrappers : ∀ id e className, b.engine.heap.get? id = some e → e.object = .wrapper className →
    b.registry.contains id

/-- The bridge is aligned, and handles of views have stayed such. -/
def Advances (b b' : Bridge) : Prop := b'.Aligned ∧ ∀ o, b.Knows o → b'.Knows o

theorem Advances.trans {b'' : Bridge} (h : b.Advances b') (h' : b'.Advances b'') :
    b.Advances b'' :=
  ⟨h'.1, fun o ho => h'.2 o (h.2 o ho)⟩

theorem Knows.of_length (ho : b.Knows o)
    (hlength : b.instances.cells.length ≤ b'.instances.cells.length) : b'.Knows o :=
  ⟨ho.1, Nat.lt_of_lt_of_le ho.2 hlength⟩

theorem Knows.exists_view (ho : b.Knows o) (hviews : b.AllViews) : ∃ v, b.IsView o.identity v := by
  obtain ⟨cell, hcell⟩ : ∃ cell, b.instances.get? o.identity = some cell :=
    ⟨_, List.getElem?_eq_getElem ho.2⟩
  obtain ⟨v, rfl⟩ := hviews _ _ hcell
  exact ⟨v, hcell⟩

theorem isView_unique {i : InstanceId} {v v' : View} (h : b.IsView i v) (h' : b.IsView i v') :
    v = v' := by
  rw [IsView, h] at h'
  simpa [Payload.view] using h'

theorem Aligned.quiet (h : b.Aligned) (hq : b.Quiet b') : b'.Aligned := by
  have hview : ∀ i v, b'.IsView i v ↔ b.IsView i v := by
    intro i v
    rw [IsView, hq.instances, IsView]
  refine ⟨hq.classes.trans h.classes, ?_, ?_, ?_, ?_, ?_, ?_, ?_, ?_⟩
  · rw [hq.modules]
    exact h.modules
  · rw [AllViews, hq.instances]
    exact h.views
  · intro w o ho
    rw [hq.registry] at ho
    rw [Knows, hq.instances]
    exact h.natives w o ho
  · intro i v hv
    rw [hq.registry]
    exact h.unbound i v ((hview i v).1 hv)
  · exact fun i v hv => h.nodup i v ((hview i v).1 hv)
  · intro i v hv
    rw [hq.registry]
    exact h.children i v ((hview i v).1 hv)
  · intro p o v hp hv
    rw [hq.registry] at hp ⊢
    rw [hq.edges]
    exact h.edges p o v hp ((hview _ v).1 hv)
  · intro id e className he hc
    obtain ⟨e', he', hc'⟩ := hq.wrappers id e className he hc
    rw [hq.registry]
    exact h.wrappers id e' className he' hc'

theorem Quiet.advances (hq : b.Quiet b') (h : b.Aligned) : b.Advances b' := by
  refine ⟨h.quiet hq, fun o ho => ho.of_length (Nat.le_of_eq ?_)⟩
  rw [hq.instances]

theorem Aligned.setMode (h : b.Aligned) (w : ObjectId) (mode : RetentionMode) :
    (b.setMode w mode).2.Aligned where
  classes := h.classes
  modules := h.modules
  views := h.views
  natives w' o ho := h.natives w' o ((Registry.native?_setMode w mode w').symm.trans ho)
  unbound := h.unbound
  nodup := h.nodup
  children := h.children
  edges p o v hp := h.edges p o v ((Registry.native?_setMode w mode p).symm.trans hp)
  wrappers id e className he hc := by
    have hold := h.wrappers id e className he hc
    rw [Registry.contains_iff] at hold ⊢
    simp only [Bridge.setMode, Registry.native?_setMode]
    exact hold

/-! ## A view changed with its edges -/

/-- A view and the edges of its wrapper changed together. -/
theorem Aligned.change (h : b.Aligned) (hinverse : b.registry.Inverse)
    (hp : b.registry.native? p = some o) (hv : b.IsView o.identity v) {v' : View}
    {edges : Ownership} (hq : Quiet { b.withView o.identity v' with edges } b')
    (hnodup : v'.childIds.Nodup)
    (hchildren : ∀ j ∈ v'.childIds, ∃ c, b.registry.byNative.find? j = some c)
    (hothers : ∀ p' c, p' ≠ p → (edges.contains p' c ↔ b.edges.contains p' c))
    (hedges : ∀ c, edges.contains p c ↔
      ∃ j ∈ v'.childIds, b.registry.byNative.find? j = some c) : b'.Aligned := by
  refine Aligned.quiet ?_ hq
  -- There is the changed view, and there are the others as they were.
  have hget : ∀ i cell, (b.withView o.identity v').instances.get? i = some cell →
      i = o.identity ∧ cell = ⟨.view v', .free⟩ ∨
        i ≠ o.identity ∧ b.instances.get? i = some cell := by
    intro i cell hi
    rw [withView, Instances.get?_update] at hi
    split at hi
    next hio =>
      rw [hio, show b.instances.get? o.identity = _ from hv] at hi
      exact .inl ⟨hio, (Option.some.inj hi).symm⟩
    next hio => exact .inr ⟨hio, hi⟩
  have hview : ∀ {i u}, (b.withView o.identity v').IsView i u →
      i = o.identity ∧ u = v' ∨ i ≠ o.identity ∧ b.IsView i u := by
    intro i u hu
    rcases hget i _ hu with ⟨hi, heq⟩ | ⟨hi, hold⟩
    · exact .inl ⟨hi, by simpa [Payload.view] using heq⟩
    · exact .inr ⟨hi, hold⟩
  have hwrapper : b.registry.byNative.find? o.identity = some p := (hinverse _ p).2 ⟨o, hp, rfl⟩
  refine ⟨h.classes, h.modules, ?_, ?_, ?_, ?_, ?_, ?_, h.wrappers⟩
  · intro i cell hi
    rcases hget i cell hi with ⟨-, rfl⟩ | ⟨-, hold⟩
    · exact ⟨v', rfl⟩
    · exact h.views i cell hold
  · intro w o' ho'
    have hlength : (b.withView o.identity v').instances.cells.length = b.instances.cells.length :=
      List.length_modify ..
    obtain ⟨hclass, hlt⟩ := h.natives w o' ho'
    exact ⟨hclass, hlength ▸ hlt⟩
  · intro i u hu hnone
    rcases hview hu with ⟨rfl, -⟩ | ⟨-, hold⟩
    · cases hwrapper.symm.trans hnone
    · exact h.unbound i u hold hnone
  · intro i u hu
    rcases hview hu with ⟨-, rfl⟩ | ⟨-, hold⟩
    · exact hnodup
    · exact h.nodup i u hold
  · intro i u hu
    rcases hview hu with ⟨-, rfl⟩ | ⟨-, hold⟩
    · exact hchildren
    · exact h.children i u hold
  · intro p' o' u hp' hu c
    rcases hview hu with ⟨hi, rfl⟩ | ⟨hi, hold⟩
    · have hpp : p' = p := by
        have hwrapper' := (hinverse o'.identity p').2 ⟨o', hp', rfl⟩
        rw [hi, hwrapper] at hwrapper'
        exact (Option.some.inj hwrapper').symm
      rw [hpp]
      exact hedges c
    · have hpp : p' ≠ p := by
        rintro rfl
        obtain rfl := Option.some.inj (hp.symm.trans hp')
        exact hi rfl
      exact (hothers p' c hpp).trans (h.edges p' o' u hp' hold c)

/-- A child is added with its edge. -/
theorem Aligned.addChild (h : b.Aligned) (htidy : b.Tidy) (hp : b.registry.native? p = some o)
    (hv : b.IsView o.identity v) {child : InstanceHandle}
    (hc : b.registry.native? c = some child)
    (hq : Quiet { b.withView o.identity (v.addChild child) with edges := (b.edges.add p c).2 } b') :
    b'.Aligned := by
  have hwrapper : b.registry.byNative.find? child.identity = some c :=
    (htidy.inverse child.identity c).2 ⟨child, hc, rfl⟩
  refine h.change htidy.inverse hp hv hq (v.nodup_childIds_addChild child (h.nodup _ v hv))
    (fun j hj => ?_) (fun p' c' hne => ?_) fun c' => ?_
  · rcases (v.mem_childIds_addChild child j).1 hj with hold | rfl
    · exact h.children _ v hv j hold
    · exact ⟨c, hwrapper⟩
  · rw [Ownership.contains_add_iff]
    simp [hne]
  · rw [Ownership.contains_add_iff, h.edges p o v hp hv c']
    simp only [View.mem_childIds_addChild, or_and_right, exists_or, exists_eq_left, hwrapper,
      Option.some.injEq, true_and]
    exact or_comm.trans (or_congr_right eq_comm)

theorem Aligned.removeChild (h : b.Aligned) (htidy : b.Tidy) (hp : b.registry.native? p = some o)
    (hv : b.IsView o.identity v) {child : InstanceHandle}
    (hc : b.registry.native? c = some child)
    (hq : Quiet { b.withView o.identity (v.removeChild child) with
      edges := (b.edges.remove p c).2 } b') : b'.Aligned := by
  have hwrapper : b.registry.byNative.find? child.identity = some c :=
    (htidy.inverse child.identity c).2 ⟨child, hc, rfl⟩
  refine h.change htidy.inverse hp hv hq (v.nodup_childIds_removeChild child (h.nodup _ v hv))
    (fun j hj => ?_) (fun p' c' hne => ?_) fun c' => ?_
  · exact h.children _ v hv j ((v.mem_childIds_removeChild child j).1 hj).1
  · rw [Ownership.contains_remove_iff htidy.mirrored]
    simp [hne]
  · rw [Ownership.contains_remove_iff htidy.mirrored, h.edges p o v hp hv c']
    simp only [View.mem_childIds_removeChild, true_and]
    constructor
    · rintro ⟨hne, j, hj, hjc⟩
      refine ⟨j, ⟨hj, fun heq => hne ?_⟩, hjc⟩
      rw [heq] at hjc
      exact Option.some.inj (hjc.symm.trans hwrapper)
    · rintro ⟨j, ⟨hj, hne⟩, hjc⟩
      refine ⟨?_, j, hj, hjc⟩
      rintro rfl
      exact hne (htidy.inverse.eq_of_find? hjc hwrapper)

theorem Aligned.sameChildren (h : b.Aligned) (htidy : b.Tidy)
    (hp : b.registry.native? p = some o) (hv : b.IsView o.identity v) {v' : View}
    (hchildren : v'.children = v.children) (hq : Quiet (b.withView o.identity v') b') :
    b'.Aligned := by
  have hids : v'.childIds = v.childIds := congrArg (List.map InstanceHandle.identity) hchildren
  have hunchanged : ∀ p' c, p' ≠ p → (b.edges.contains p' c ↔ b.edges.contains p' c) :=
    fun _ _ _ => Iff.rfl
  refine h.change htidy.inverse hp hv hq ?_ ?_ hunchanged ?_
  · rw [hids]
    exact h.nodup _ v hv
  · rw [hids]
    exact h.children _ v hv
  · rw [hids]
    exact h.edges p o v hp hv

/-! ## New views and wrappers -/

theorem Aligned.create (h : b.Aligned) :
    b.Advances (b.create View.className .view).2 ∧
      (b.create View.className .view).2.Knows (b.create View.className .view).1 := by
  have hlength : (b.create View.className .view).2.instances.cells.length =
      b.instances.cells.length + 1 := List.length_append
  have hget : ∀ i cell, (b.create View.className .view).2.instances.get? i = some cell →
      b.instances.get? i = some cell ∨
        i.index = b.instances.cells.length ∧ ∃ serial, cell = ⟨.view { serial }, .free⟩ := by
    intro i cell hi
    change (b.instances.cells ++ [⟨b.instances.payloadOf .view, .free⟩])[i.index]? = _ at hi
    rw [List.getElem?_append] at hi
    split at hi
    · exact .inl hi
    next hge =>
      obtain ⟨hlt, hcell⟩ := List.getElem?_eq_some_iff.1 hi
      have hindex : i.index = b.instances.cells.length := by
        have : i.index - b.instances.cells.length < 1 := hlt
        omega
      refine .inr ⟨hindex, b.instances.nextSerial .view, ?_⟩
      rw [← hcell]
      simp only [hindex, Nat.sub_self]
      rfl
  have hview : ∀ {i u}, (b.create View.className .view).2.IsView i u →
      b.IsView i u ∨ i.index = b.instances.cells.length ∧ u.childIds = [] := by
    intro i u hu
    rcases hget i _ hu with hold | ⟨hi, serial, heq⟩
    · exact .inl hold
    · have hu' : u = { serial } := by simpa [Payload.view] using heq
      exact .inr ⟨hi, by rw [hu', View.childIds, List.map_nil]⟩
  refine ⟨⟨⟨h.classes, h.modules, ?_, ?_, ?_, ?_, ?_, ?_, h.wrappers⟩, ?_⟩, rfl, ?_⟩
  · intro i cell hi
    rcases hget i cell hi with hold | ⟨-, serial, rfl⟩
    · exact h.views i cell hold
    · exact ⟨_, rfl⟩
  · intro w o ho
    obtain ⟨hclass, hlt⟩ := h.natives w o ho
    exact ⟨hclass, by rw [hlength]; omega⟩
  · intro i u hu hnone
    rcases hview hu with hold | ⟨-, hempty⟩
    · exact h.unbound i u hold hnone
    · exact hempty
  · intro i u hu
    rcases hview hu with hold | ⟨-, hempty⟩
    · exact h.nodup i u hold
    · simp [hempty]
  · intro i u hu
    rcases hview hu with hold | ⟨-, hempty⟩
    · exact h.children i u hold
    · simp [hempty]
  · intro p o u hp hu c
    rcases hview hu with hold | ⟨hi, -⟩
    · exact h.edges p o u hp hold c
    · have hlt := (h.natives p o hp).2
      omega
  · exact fun o ho => ho.of_length (hlength ▸ Nat.le_succ _)
  · rw [hlength]
    exact Nat.lt_succ_self _

/-- A fresh wrapper of a view: neither has it edges nor the view children. -/
theorem Aligned.wrapFresh (h : b.Aligned) (hw : b.engine.heap.WellFormed) (htidy : b.Tidy)
    (hnone : b.registry.wrapper? o = none) (ho : b.Knows o)
    (ha : (b.wrapFresh o).2.engine.heap.Addressable) : (b.wrapFresh o).2.Aligned := by
  let fresh := (b.engine.heap.allocate (.wrapper o.className)).1
  have hunused : b.registry.native? fresh = none := by
    have hfresh := htidy.not_contains_allocate hw ha
    exact Registry.contains_eq_false_iff.1 (Bool.eq_false_iff.2 hfresh)
  have hnative : ∀ w, (b.wrapFresh o).2.registry.native? w =
      if w = fresh then some o else b.registry.native? w := Registry.native?_bind hnone
  have hbyNative : ∀ i, (b.wrapFresh o).2.registry.byNative.find? i =
      if i = o.identity then some fresh else b.registry.byNative.find? i :=
    Registry.byNative_bind hnone
  -- A child has had a wrapper all along.
  have hchild : ∀ i u, b.IsView i u → ∀ j ∈ u.childIds,
      (b.wrapFresh o).2.registry.byNative.find? j = b.registry.byNative.find? j := by
    intro i u hu j hj
    refine (hbyNative j).trans (if_neg ?_)
    rintro rfl
    obtain ⟨c, hc⟩ := h.children i u hu _ hj
    cases hc.symm.trans hnone
  refine ⟨h.classes, h.modules, h.views, ?_, ?_, h.nodup, ?_, ?_, ?_⟩
  · intro w o' ho'
    rw [hnative] at ho'
    split at ho'
    · obtain rfl := Option.some.inj ho'
      exact ho
    · exact h.natives w o' ho'
  · intro i u hu hfree
    rw [hbyNative] at hfree
    split at hfree
    · cases hfree
    · exact h.unbound i u hu hfree
  · intro i u hu j hj
    rw [hchild i u hu j hj]
    exact h.children i u hu j hj
  · intro p o' u hp hu c
    rw [hnative] at hp
    split at hp
    next hpw =>
      obtain rfl := Option.some.inj hp
      rw [h.unbound _ u hu hnone]
      constructor
      · intro hc
        obtain ⟨o', ho'⟩ := Registry.contains_iff.1 (htidy.ends p c hc).1
        rw [hpw] at ho'
        cases hunused.symm.trans ho'
      · rintro ⟨j, hj, -⟩
        cases hj
    · refine (h.edges p o' u hp hu c).trans ?_
      refine exists_congr fun j => and_congr_right fun hj => ?_
      rw [hchild _ u hu j hj]
  · intro id e className he hc
    rw [Registry.contains_iff, hnative]
    by_cases hid : id = fresh
    · exact ⟨o, if_pos hid⟩
    · rw [if_neg hid]
      have hold : b.engine.heap.get? id = some e :=
        (hw.get?_allocate_of_ne (.wrapper o.className) hid).symm.trans he
      exact Registry.contains_iff.1 (h.wrappers id e className hold hc)

theorem Aligned.wrap (h : b.Aligned) (hw : b.engine.heap.WellFormed) (htidy : b.Tidy)
    (ho : b.Knows o) (ha : (b.wrap o).2.engine.heap.Addressable) : b.Advances (b.wrap o).2 := by
  rw [htidy.wrap_eq] at ha ⊢
  cases hwrapper : b.registry.wrapper? o with
  | none =>
    rw [hwrapper] at ha
    exact ⟨h.wrapFresh hw htidy hwrapper ho ha, fun _ hknown => hknown⟩
  | some id => exact ⟨h, fun _ hknown => hknown⟩

theorem Aligned.wrapAll (h : b.Aligned) (hw : b.engine.heap.WellFormed) (htidy : b.Tidy)
    (os : List InstanceHandle) (hos : ∀ o ∈ os, b.Knows o)
    (ha : (b.wrapAll os).2.engine.heap.Addressable) : b.Advances (b.wrapAll os).2 := by
  induction os generalizing b with
  | nil => exact ⟨h, fun _ ho => ho⟩
  | cons o rest ih =>
    have hkeeps := b.keeps_wrap o
    have hw' : (b.wrap o).2.engine.heap.WellFormed := hkeeps.1.wellFormed hw
    have ha' : (b.wrap o).2.engine.heap.Addressable :=
      ha.of_grows ((keeps_wrapAll rest (b.wrap o).2).1.grows hw')
    have hfirst := h.wrap hw htidy (hos o List.mem_cons_self) ha'
    refine hfirst.trans (ih hfirst.1 hw' (hkeeps.2 ha' hw htidy).1 (fun o' ho' => ?_) ha)
    exact hfirst.2 o' (hos o' (List.mem_cons_of_mem _ ho'))

end Bridge
end ScriptBridge
