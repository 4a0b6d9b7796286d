import ScriptBridge.Proofs.Sample.ViewCalls

/-! # Views in the hands of script

When script has nothing but the view class and the module of types, the children of a view are told
twice: by the view, and by the edges that leave its wrapper. They stay the same, whatever script
does.

* `Operation.IsScript` are the operations that script has, given the handles that it knows.
* `Bridge.ScriptRun` are the runs of the samples in which nothing else is done.
* `Bridge.children_are_edges` is what holds of every view that is alive.
-/

namespace ScriptBridge
set_option autoImplicit false

/-- Everything but what works on instances, on edges, on classes and modules, or on the heap behind
the back of the bridge. Only handles that are known are wrapped. -/
def Operation.IsScript (known : List InstanceHandle) : Operation → Prop
  | .wrap o => o ∈ known
  | .toScript n => ∀ o ∈ n.handles, o ∈ known
  | .create .. | .lend .. | .giveBack .. | .addEdge .. | .removeEdge .. | .defineClass ..
  | .loadModule .. | .allocateWrapper _ | .hostCollect _ => False
  | _ => True

/-- No class is defined and no module loaded, and all that is asked for is for script. -/
def Use.IsScript (known : List InstanceHandle) : Use → Prop
  | .ask op => op.IsScript known
  | .defineClass _ | .loadModule _ => False
  | _ => True

namespace Bridge

variable {b b' : Bridge} {known : List InstanceHandle}

/-! ## Operations without calls -/

theorem quiet_update (b : Bridge) (id : ObjectId) {f : LiveObject → LiveObject}
    (hf : ∀ e, (f e).object = e.object) : b.Quiet (b.onEngine (·.update id f)).2 := by
  refine ⟨rfl, rfl, rfl, rfl, rfl, fun w e className he hc => ?_⟩
  simp only [onEngine, Engine.update] at he
  cases hu : b.engine.heap.update id f with
  | error err =>
    rw [hu] at he
    exact ⟨e, he, hc⟩
  | ok heap =>
    rw [hu] at he
    rw [show heap.get? w = _ from Heap.get?_update hu w] at he
    split at he
    · obtain ⟨e', he', rfl⟩ := Option.map_eq_some_iff.1 he
      exact ⟨e', he', (hf e').symm.trans hc⟩
    · exact ⟨e, he, hc⟩

theorem quiet_allocate (hw : b.engine.heap.WellFormed) (name : String)
    (captures : List Script.Value) (body : HostFunction)
    (ha : (b.engine.heap.allocate (.function name captures body)).2.Addressable) :
    b.Quiet (b.mapEngine fun e =>
      { e with heap := (e.heap.allocate (.function name captures body)).2 }) := by
  refine ⟨rfl, rfl, rfl, rfl, rfl, fun w e className he hc => ?_⟩
  by_cases hid : w = (b.engine.heap.allocate (.function name captures body)).1
  · rw [hid] at he
    obtain rfl := Option.some.inj ((hw.get?_allocate_self _ ha).symm.trans he)
    cases hc
  · exact ⟨e, (hw.get?_allocate_of_ne _ hid).symm.trans he, hc⟩

theorem holder_eq_ok {v : Script.Value} {name : String} {w : ObjectId} {o : InstanceHandle}
    {a : Accessor} (h : b.holder v name = .ok (w, some (o, a))) :
    b.registry.native? w = some o ∧ b.classes.accessor? o.className name = some a := by
  cases v with
  | wrapper id =>
    obtain ⟨⟨w', o'⟩, hreceiver, hpure⟩ := bind_eq_ok_iff.1 h
    obtain ⟨rfl, ha⟩ := Prod.mk.inj (pure_eq_ok_iff.1 hpure)
    obtain ⟨a', ha', hpair⟩ := Option.map_eq_some_iff.1 ha
    obtain ⟨rfl, rfl⟩ := Prod.mk.inj hpair
    exact ⟨(receiver_eq_ok hreceiver).2.2, ha'⟩
  | function id => cases h
  | _ => cases h

/-- The properties of views are numbers, and are not assigned. -/
theorem Aligned.accessor_cases (h : b.Aligned) {v : Script.Value} {name : String} {w : ObjectId}
    {o : InstanceHandle} {a : Accessor} (hv : b.holder v name = .ok (w, some (o, a))) :
    a.set? = none ∧ ∀ content, (a.get content).handles = [] := by
  obtain ⟨ho, ha⟩ := holder_eq_ok hv
  rw [h.classes, (h.natives w o ho).1] at ha
  obtain ⟨n, c, hc, ha⟩ := Hierarchy.exists_of_findSome?_ancestry ha
  obtain ⟨-, rfl⟩ := View.hierarchy_find?_eq_some hc
  have hvalue : a ∈ View.nativeClass.accessors.values := (Table.mem_values_iff _ _).2 ⟨name, ha⟩
  rcases List.mem_pair.1 hvalue with rfl | rfl
  · exact ⟨rfl, fun _ => rfl⟩
  · exact ⟨rfl, fun _ => rfl⟩

theorem Aligned.quiet_getProperty (h : b.Aligned) (v : Script.Value) (name : String) :
    b.Quiet (b.getProperty v name).2 := by
  unfold getProperty
  split
  · exact .refl b
  next hv =>
    split
    next content _ =>
      rw [toScript_of_handles_eq_nil ((h.accessor_cases hv).2 content)]
      exact .refl b
    · exact .refl b
  · split <;> exact .refl b

theorem Aligned.quiet_setProperty (h : b.Aligned) (receiver : Script.Value) (name : String)
    (v : Script.Value) : b.Quiet (b.setProperty receiver name v).2 := by
  unfold setProperty
  split
  · exact .refl b
  next hv =>
    rw [assign, (h.accessor_cases hv).1]
    exact .refl b
  next id _ => exact b.quiet_update id fun _ => rfl

theorem Aligned.collectUntil (h : b.Aligned) (htidy : b.Tidy) (holds : Nat → Bridge → Bool) :
    b.Advances (b.collectUntil holds).2 := by
  have hboth : b.Advances (b.collectUntil holds).2 ∧ (b.collectUntil holds).2.Tidy := by
    refine pursue_induction (P := fun x => b.Advances x ∧ x.Tidy) (fun x hx => ?_) holds 0 _
      ⟨(Quiet.refl b).advances h, htidy⟩
    exact ⟨hx.1.trans (hx.1.1.collect hx.2), hx.2.collect⟩
  exact hboth.1

theorem Aligned.answer (h : b.Aligned) (hw : b.engine.heap.WellFormed) (htidy : b.Tidy)
    (hknown : ∀ o ∈ known, b.Knows o) {op : Operation} (hop : op.IsScript known)
    (ha : (answer none op b).2.engine.heap.Addressable) : b.Advances (answer none op b).2 := by
  cases op with
  | create | lend | giveBack | addEdge | removeEdge | defineClass | loadModule | allocateWrapper
  | hostCollect =>
    exact hop.elim
  | wrap o => exact h.wrap hw htidy (hknown o hop) ha
  | toScript n =>
    obtain ⟨done, rest, hhandles, hstate, -⟩ := n.toScript_wraps b
    change b.Advances (b.toScript n).2
    change (b.toScript n).2.engine.heap.Addressable at ha
    rw [hstate] at ha ⊢
    refine h.wrapAll hw htidy done (fun o ho => hknown o (hop o ?_)) ha
    rw [hhandles]
    exact List.mem_append_left rest ho
  | collect => exact h.collect htidy
  | collectUntil holds => exact h.collectUntil htidy (seenBy holds)
  | setMode w mode => exact ⟨h.setMode w mode, fun _ ho => ho⟩
  | getProperty receiver name => exact (h.quiet_getProperty receiver name).advances h
  | setProperty receiver name v => exact (h.quiet_setProperty receiver name v).advances h
  | setHostProperty id name v => exact Quiet.advances (b.quiet_update id fun _ => rfl) h
  | addFinalizer id f => exact Quiet.advances (b.quiet_update id fun _ => rfl) h
  | createFunction name body =>
    exact ((quiet_allocate hw name [] body ha).trans (quiet_pin _ _)).advances h
  | allocateFunction name captures body =>
    exact (quiet_allocate hw name captures body ha).advances h
  | invoke id args => exact (b.quiet_invoke id args).advances h
  | callScript function args =>
    cases function with
    | function id => exact (b.quiet_invoke id args).advances h
    | _ => exact (Quiet.refl b).advances h
  | closeScope => exact b.quiet_closeScope.advances h
  | _ =>
    refine Quiet.advances ?_ h
    exact .of_heap rfl rfl rfl rfl rfl rfl

/-- What script asks for is to collect, or is orderly. -/
theorem Operation.isScript_cases {op : Operation} (hop : op.IsScript known) (b : Bridge) :
    op = .collect ∨ (∃ holds, op = .collectUntil holds) ∨ Orderly op b := by
  cases op with
  | collect => exact .inl rfl
  | collectUntil holds => exact .inr (.inl ⟨holds, rfl⟩)
  | hostCollect | addEdge | defineClass => exact hop.elim
  | _ => exact .inr (.inr trivial)

/-- **What script does leaves children and edges in step.** -/
theorem Aligned.use (h : b.Aligned) (hw : b.engine.heap.WellFormed) (htidy : b.Tidy)
    (hknown : ∀ o ∈ known, b.Knows o) {u : Use} (hu : u.IsScript known) {nesting : Nat}
    (ha : (b.use nesting u).engine.heap.Addressable) :
    (b.use nesting u).Tidy ∧ b.Advances (b.use nesting u) := by
  have horderly : b.OrderlyUse nesting u := by
    cases u with
    | ask op =>
      obtain rfl | ⟨holds, rfl⟩ | ho := Operation.isScript_cases hu b
      · exact .collect
      · exact .pursue holds
      · exact .ask (h.throughout ho nesting)
    | defineClass | loadModule => exact hu.elim
    | collectUntil holds => exact .collectUntil holds
    | hold o => exact .hold o
    | letGo o => exact .letGo o
    | dropsMayPanic dropsMayPanic => exact .dropsMayPanic dropsMayPanic
  refine ⟨horderly.tidy ha hw htidy, ?_⟩
  -- A call has lemmas of its own; every other operation does the same at any nesting.
  cases u with
  | ask op =>
    cases nesting with
    | zero => exact h.answer hw htidy hknown hu ha
    | succ nesting =>
      rw [Bridge.use, server, state_answer_some] at ha ⊢
      cases hcall : b.call? op with
      | none =>
        rw [hcall] at ha
        exact h.answer hw htidy hknown hu ha
      | some c =>
        rw [hcall] at ha
        exact h.call hw htidy hcall nesting ha
  | defineClass | loadModule => exact hu.elim
  | collectUntil holds => exact h.collectUntil htidy holds
  | hold | letGo | dropsMayPanic =>
    refine Quiet.advances ?_ h
    exact .of_heap rfl rfl rfl rfl rfl rfl

/-! ## Runs -/

/-- The view class and the module of types installed in a new bridge. -/
def samples (options : Options) (symbol : Symbol) : Bridge :=
  (({ options } : Bridge).installSamples symbol).2

/-- The handles that script knows, and what has become of the samples. -/
inductive ScriptRun (options : Options) (symbol : Symbol) :
    List InstanceHandle → Bridge → Prop where
  | start : ScriptRun options symbol [] (samples options symbol)
  | use {known : List InstanceHandle} {b : Bridge} (nesting : Nat) {u : Use} :
      ScriptRun options symbol known b → u.IsScript known →
        ScriptRun options symbol known (b.use nesting u)
  | nativeOf {known : List InstanceHandle} {b : Bridge} {v : Script.Value} {o : InstanceHandle} :
      ScriptRun options symbol known b → b.nativeOf v = some o →
        ScriptRun options symbol (o :: known) b

/-- Nothing is there but a class and perhaps a module: the exported values are converted without an
object. -/
theorem samples_eq (options : Options) (symbol : Symbol) :
    ∃ engine modules, samples options symbol =
      { options, engine, classes := View.hierarchy, modules } ∧ engine.heap = {} ∧
        ∀ name m, modules.find? name = some m → ∃ symbol, m = TypesModule.exports symbol := by
  let m := TypesModule.exports symbol
  let b : Bridge := { options, classes := View.hierarchy }
  have hloaded : samples options symbol = (b.loadModule m).2 := by
    have hview : ({ options } : Bridge).installView = (.ok (), b) := rfl
    unfold samples installSamples
    rw [hview]
    dsimp only
    split
    next hload => rw [hload]
    next hload => rw [hload]
  have hstate : ((convertExports m.values).run b.openScope).2 = b.openScope := by
    obtain ⟨done, rest, hhandles, hstate, -⟩ := wraps_convertExports m.values b.openScope
    have hnone : m.values.flatMap (fun e => e.2.handles) = [] := rfl
    rw [hnone] at hhandles
    rw [hstate, (List.nil_eq_append_iff.1 hhandles).1]
    rfl
  rw [hloaded]
  simp only [loadModule, withScope]
  rw [hstate]
  split
  · exact ⟨_, _, rfl, b.openScope.heap_closeScope, fun _ _ hm => by cases hm⟩
  next entries _ =>
    refine ⟨_, _, rfl, b.openScope.heap_closeScope, fun name m' hm => ?_⟩
    have hentry : (name, m') ∈ [(m.name, m)] := (Table.mem_entries_iff _ _ _).2 hm
    obtain ⟨-, rfl⟩ := Prod.mk.inj (List.mem_singleton.1 hentry)
    exact ⟨symbol, rfl⟩

theorem aligned_samples (options : Options) (symbol : Symbol) :
    (samples options symbol).Aligned := by
  obtain ⟨engine, modules, heq, hheap, hmodules⟩ := samples_eq options symbol
  rw [heq]
  have hget : ∀ id, engine.heap.get? id = none := by
    intro id
    rw [hheap]
    rfl
  refine ⟨rfl, hmodules, ?_, ?_, ?_, ?_, ?_, ?_, ?_⟩
  · exact fun i c hc => by cases hc
  · exact fun w o ho => by cases ho
  · exact fun i v hv _ => by cases hv
  · exact fun i v hv => by cases hv
  · exact fun i v hv => by cases hv
  · exact fun p o v hp => by cases hp
  · exact fun id e className he => by cases (hget id).symm.trans he

theorem tidy_samples (options : Options) (symbol : Symbol) : (samples options symbol).Tidy := by
  obtain ⟨engine, modules, heq, -, -⟩ := samples_eq options symbol
  rw [heq]
  refine ⟨Registry.inverse_empty, ?_, Ownership.mirrored_empty, ?_, fun name c hc => ?_⟩
  · exact fun w hw => by cases hw
  · exact fun p c hc => by cases hc
  · obtain ⟨-, rfl⟩ := View.hierarchy_find?_eq_some hc
    exact View.retainsObjects_nativeClass

variable {options : Options} {symbol : Symbol}

theorem ScriptRun.moves (h : ScriptRun options symbol known b) :
    Moves 0 (samples options symbol) b := by
  induction h with
  | start => exact .refl 0 _
  | use nesting _ _ ih => exact ih.trans (moves_use _ nesting _)
  | nativeOf _ _ ih => exact ih

theorem ScriptRun.useAll (h : ScriptRun options symbol known b) {uses : List (Nat × Use)}
    (huses : ∀ u ∈ uses, u.2.IsScript known) : ScriptRun options symbol known (b.useAll uses) := by
  induction uses generalizing b with
  | nil => exact h
  | cons u rest ih =>
    have hfirst := ScriptRun.use u.1 h (huses u List.mem_cons_self)
    exact ih hfirst fun u' hu' => huses u' (List.mem_cons_of_mem u hu')

theorem ScriptRun.wellFormed (h : ScriptRun options symbol known b) :
    b.engine.heap.WellFormed := by
  refine h.moves.wellFormed ?_
  obtain ⟨engine, modules, heq, hheap, -⟩ := samples_eq options symbol
  rw [heq]
  rw [show engine.heap = {} from hheap]
  exact Heap.wellFormed_empty

theorem ScriptRun.aligned (h : ScriptRun options symbol known b)
    (ha : b.engine.heap.Addressable) : b.Tidy ∧ b.Aligned ∧ ∀ o ∈ known, b.Knows o := by
  -- The heap never shrinks, so its slots had numbers of their own all along.
  induction h with
  | start =>
    exact ⟨tidy_samples options symbol, aligned_samples options symbol, fun o ho => by cases ho⟩
  | use nesting hrun hu ih =>
    have hw := hrun.wellFormed
    obtain ⟨htidy, haligned, hknown⟩ := ih (ha.of_grows ((moves_use _ nesting _).grows hw))
    obtain ⟨htidy', hadvances⟩ := haligned.use hw htidy hknown hu ha
    exact ⟨htidy', hadvances.1, fun o ho => hadvances.2 o (hknown o ho)⟩
  | @nativeOf known b v o hrun ho ih =>
    obtain ⟨htidy, haligned, hknown⟩ := ih ha
    refine ⟨htidy, haligned, fun o' ho' => ?_⟩
    rcases List.mem_cons.1 ho' with rfl | ho'
    · cases v with
      | wrapper w => exact haligned.natives w o' (nativeOf_eq_some_iff.1 ho).2
      | _ => cases ho
    · exact hknown o' ho'

/-! ## What script finds -/

/-- The object is alive, and a wrapper of the view class. -/
def isViewWrapper (b : Bridge) (p : ObjectId) : Bool :=
  match (b.engine.heap.get? p).map LiveObject.object with
  | some (.wrapper className) => className = View.className
  | _ => false

theorem isViewWrapper_iff {p : ObjectId} : b.isViewWrapper p ↔
    ∃ e, b.engine.heap.get? p = some e ∧ e.object = .wrapper View.className := by
  unfold isViewWrapper
  cases b.engine.heap.get? p with
  | none => simp
  | some e => cases he : e.object <;> simp [he]

theorem childCount_eq (hclasses : b.classes = View.hierarchy) {p : ObjectId} {o : InstanceHandle}
    {v : View} (ho : b.nativeOf (.wrapper p) = some o) (hclass : o.className = View.className)
    (hv : b.IsView o.identity v) : (b.getProperty (.wrapper p) "childCount").1 =
      .ok (.int (Int64.ofNat v.children.length)) := by
  let count : Accessor :=
    ⟨"childCount", .any, .view, fun v => .integer (Int64.ofNat v.children.length), none⟩
  have hholder : b.holder (.wrapper p) "childCount" = .ok (p, some (o, count)) := by
    have haccessor : b.classes.accessor? o.className "childCount" = some count := by
      rw [hclasses, hclass]
      rfl
    have hreceiver : b.receiver (.wrapper p) = .ok (p, o) := by
      simp only [Bridge.receiver, ho]
    rw [holder, hreceiver]
    change Except.ok (p, (b.classes.accessor? o.className "childCount").map fun a => (o, a)) = _
    rw [haccessor]
    rfl
  have hread : b.read o .view = .ok v := by
    rw [read, Instances.read, open?_of_isView hv]
    rfl
  rw [getProperty, hholder]
  dsimp only [count]
  rw [hread]
  rfl

/-- The edges that leave the wrapper of a view, one for every child. -/
theorem Aligned.perm_children (h : b.Aligned) (htidy : b.Tidy) {p : ObjectId}
    {o : InstanceHandle} {v : View} (hp : b.registry.native? p = some o)
    (hv : b.IsView o.identity v) :
    ((b.edges.children p).map some).Perm (v.childIds.map b.registry.byNative.find?) := by
  have hleft : ((b.edges.children p).map some).Nodup :=
    (htidy.mirrored.children p).map fun _ _ => Option.some.inj
  have hright : (v.childIds.map b.registry.byNative.find?).Nodup := by
    refine (h.nodup _ v hv).map_on fun i hi j _ heq => ?_
    obtain ⟨c, hc⟩ := h.children _ v hv i hi
    exact htidy.inverse.eq_of_find? hc (heq.symm.trans hc)
  refine (List.perm_ext_iff_of_nodup hleft hright).2 fun wrapper => ?_
  simp only [List.mem_map]
  constructor
  · rintro ⟨c, hc, rfl⟩
    exact (h.edges p o v hp hv c).1 (Ownership.contains_iff.2 hc)
  · rintro ⟨j, hj, rfl⟩
    obtain ⟨c, hc⟩ := h.children _ v hv j hj
    exact ⟨c, Ownership.contains_iff.1 ((h.edges p o v hp hv c).2 ⟨j, hj, hc⟩), hc.symm⟩

/-- **Children and edges tell the same.** Of every view that is alive, as long as every slot of the
heap has a number of its own: it has no child twice, every child has a wrapper that is alive, the
edges that leave the wrapper of the view lead to the wrappers of its children, and there are as many
of them as script is told. -/
theorem children_are_edges (h : ScriptRun options symbol known b)
    (ha : b.engine.heap.Addressable) {p : ObjectId} (hp : b.isViewWrapper p) :
    ∃ o v, b.nativeOf (.wrapper p) = some o ∧ b.instances.get? o.identity = some ⟨.view v, .free⟩ ∧
      (v.children.map (·.identity)).Nodup ∧
      (∀ child ∈ v.children, ∃ c, b.registry.wrapper? child = some c ∧ b.isAlive c) ∧
      (∀ c, c ∈ b.edges.children p ↔ ∃ child ∈ v.children, b.registry.wrapper? child = some c) ∧
      (b.edges.children p).Nodup ∧ (b.edges.children p).length = v.children.length ∧
      (b.getProperty (.wrapper p) "childCount").1 =
        .ok (.int (Int64.ofNat (b.edges.children p).length)) := by
  obtain ⟨htidy, haligned, -⟩ := h.aligned ha
  obtain ⟨e, he, hobject⟩ := isViewWrapper_iff.1 hp
  obtain ⟨o, ho⟩ := Registry.contains_iff.1 (haligned.wrappers p e _ he hobject)
  have hknown := haligned.natives p o ho
  obtain ⟨v, hv⟩ := hknown.exists_view haligned.views
  have hnative : b.nativeOf (.wrapper p) = some o :=
    nativeOf_eq_some_iff.2 ⟨Heap.contains_of_get? he, ho⟩
  have hlength : (b.edges.children p).length = v.children.length := by
    simpa [View.childIds] using (haligned.perm_children htidy ho hv).length_eq
  refine ⟨o, v, hnative, hv, haligned.nodup _ v hv, fun child hchild => ?_, fun c => ?_,
    htidy.mirrored.children p, hlength, ?_⟩
  · obtain ⟨c, hc⟩ := haligned.children _ v hv _ (List.mem_map_of_mem hchild)
    obtain ⟨o', ho', -⟩ := (htidy.inverse child.identity c).1 hc
    exact ⟨c, hc, htidy.registered c (Registry.contains_iff.2 ⟨o', ho'⟩)⟩
  · rw [← Ownership.contains_iff, haligned.edges p o v ho hv c]
    simp [View.childIds, Registry.wrapper?]
  · rw [hlength]
    exact childCount_eq haligned.classes hnative hknown.1 hv

/-- A view that is given another one twice and itself once. -/
def family : Bridge :=
  let add (child : ObjectId) : Operation :=
    .callMethod (.wrapper ⟨0, 0⟩) "addChildView" [.wrapper child]
  (samples {} ⟨0, TypesModule.symbolDescription⟩).useAll [
    (1, .ask (.construct "View" [])), (1, .ask (.construct "View" [])),
    (1, .ask (add ⟨1, 0⟩)), (1, .ask (add ⟨1, 0⟩)), (1, .ask (add ⟨0, 0⟩))]

theorem scriptRun_family : ScriptRun {} ⟨0, TypesModule.symbolDescription⟩ [] family := by
  refine ScriptRun.start.useAll fun u hu => ?_
  simp only [List.mem_cons, List.not_mem_nil, or_false] at hu
  obtain rfl | rfl | rfl | rfl | rfl := hu
  all_goals trivial

theorem children_are_edges_of_family :
    ScriptRun {} ⟨0, TypesModule.symbolDescription⟩ [] family ∧ family.engine.heap.Addressable ∧
      family.isViewWrapper ⟨0, 0⟩ ∧ family.edges.children ⟨0, 0⟩ = [⟨1, 0⟩, ⟨0, 0⟩] ∧
      (family.getProperty (.wrapper ⟨0, 0⟩) "childCount").1 = .ok (.int 2) := by
  have ha : family.engine.heap.Addressable := by
    unfold Heap.Addressable
    decide +kernel
  have hp : family.isViewWrapper ⟨0, 0⟩ := by decide +kernel
  have hedges : family.edges.children ⟨0, 0⟩ = [⟨1, 0⟩, ⟨0, 0⟩] := by decide +kernel
  obtain ⟨o, v, -, -, -, -, -, -, -, hcount⟩ := children_are_edges scriptRun_family ha hp
  rw [hedges] at hcount
  exact ⟨scriptRun_family, ha, hp, hedges, hcount⟩

end Bridge
end ScriptBridge
