import ScriptBridge.Proofs.Bridge.Collecting
import ScriptBridge.Proofs.Bridge.EdgeHistory
import ScriptBridge.Proofs.Class.Ancestry
import ScriptBridge.Proofs.Conversion.Reading

/-! # The heap, the registry and the edges together

Three tables know of a wrapper: the heap while it is alive, the registry while it is bound, the
edges while it owns or is owned. In an orderly run they agree. Orderly means that nothing is
collected inside a native body, that edges are asked for between live wrappers, and that what a
method retains is declared as an object.

* `Bridge.Neat` is the agreement, and `Bridge.Tidy` is the invariant that carries it.
* `Bridge.Keeps` is what everything does to a tidy bridge that happens inside a body:
  `Bridge.keeps_server` is any orderly operation.
* `Bridge.Tidy.collect` is a collection, and `Bridge.tables_agree_of_orderlyRun` are whole runs.
-/

namespace ScriptBridge
set_option autoImplicit false

/-- What a method of the class retains is declared as an object, or as one that may be missing. -/
def NativeClass.RetainsObjects (c : NativeClass) : Prop :=
  ∀ name m index, c.methods.find? name = some m → m.policy = .retain index →
    ∃ className, m.params[index]? = some (.object className) ∨
      m.params[index]? = some (.optional (.object className))

namespace Bridge

variable {b b' b'' : Bridge} {w p c : ObjectId} {o : InstanceHandle}

/-! ## Tidy bridges -/

def IsLiveWrapper (b : Bridge) (w : ObjectId) : Prop := b.registry.contains w ∧ b.isAlive w

/-- Registered wrappers are alive, and edges connect registered wrappers. -/
structure Neat (b : Bridge) : Prop where
  registered : ∀ w, b.registry.contains w → b.isAlive w
  edges : ∀ p c, b.edges.contains p c → b.IsLiveWrapper p ∧ b.IsLiveWrapper c

/-- A neat bridge whose tables are sound. -/
structure Tidy (b : Bridge) : Prop where
  inverse : b.registry.Inverse
  registered : ∀ w, b.registry.contains w → b.isAlive w
  mirrored : b.edges.Mirrored
  ends : ∀ p c, b.edges.contains p c → b.registry.contains p ∧ b.registry.contains c
  classes : ∀ name c, b.classes.find? name = some c → c.RetainsObjects

theorem Tidy.neat (h : b.Tidy) : b.Neat where
  registered := h.registered
  edges p c hc := by
    obtain ⟨hp, hc⟩ := h.ends p c hc
    exact ⟨⟨hp, h.registered p hp⟩, ⟨hc, h.registered c hc⟩⟩

theorem tidy_empty (options : Options) : Tidy { options } where
  inverse := Registry.inverse_empty
  registered _ h := by cases h
  mirrored := Ownership.mirrored_empty
  ends _ _ h := by cases h
  classes _ _ h := by cases h

theorem nativeOf_eq_some_iff : b.nativeOf (.wrapper w) = some o ↔
    b.isAlive w ∧ b.registry.native? w = some o := by
  cases hc : b.isAlive w <;> simp [nativeOf, hc]

theorem receiver_eq_ok {v : Script.Value} (h : b.receiver v = .ok (w, o)) :
    v = .wrapper w ∧ b.isAlive w ∧ b.registry.native? w = some o := by
  unfold Bridge.receiver at h
  split at h
  · split at h
    next o' ho' =>
      obtain ⟨rfl, rfl⟩ := Prod.mk.inj (Except.ok.inj h)
      exact ⟨rfl, nativeOf_eq_some_iff.1 ho'⟩
    · cases h
  · cases h

/-- What is done to a bridge keeps it tidy and takes no wrapper from the registry. -/
def Keeps (b b' : Bridge) : Prop :=
  Moves 0 b b' ∧ (b'.engine.heap.Addressable → b.engine.heap.WellFormed → b.Tidy →
    b'.Tidy ∧ ∀ w, b.registry.contains w → b'.registry.contains w)

namespace Keeps

theorem refl (b : Bridge) : b.Keeps b := ⟨.refl 0 b, fun _ _ h => ⟨h, fun _ hw => hw⟩⟩

theorem trans (h : b.Keeps b') (h' : b'.Keeps b'') : b.Keeps b'' := by
  refine ⟨h.1.trans h'.1, fun ha hw htidy => ?_⟩
  have hw' : b'.engine.heap.WellFormed := h.1.wellFormed hw
  obtain ⟨htidy', hfirst⟩ := h.2 (ha.of_grows (h'.1.grows hw')) hw htidy
  obtain ⟨htidy'', hsecond⟩ := h'.2 ha hw' htidy'
  exact ⟨htidy'', fun w hw => hsecond w (hfirst w hw)⟩

/-- Nothing happens to the tables, and no object goes. -/
theorem of_tables (hm : Moves 0 b b') (hregistry : b'.registry = b.registry)
    (hedges : b'.edges = b.edges) (hclasses : b'.classes = b.classes)
    (halive : b.engine.heap.WellFormed → ∀ id, b.isAlive id → b'.isAlive id) : b.Keeps b' := by
  refine ⟨hm, fun _ hw h => ⟨⟨?_, fun w hc => ?_, ?_, ?_, ?_⟩, fun w hc => ?_⟩⟩
  · rw [hregistry]
    exact h.inverse
  · rw [hregistry] at hc
    exact halive hw w (h.registered w hc)
  · rw [hedges]
    exact h.mirrored
  · rw [hedges, hregistry]
    exact h.ends
  · rw [hclasses]
    exact h.classes
  · rw [hregistry]
    exact hc

end Keeps

/-! ## Operations without calls -/

theorem keeps_note (b : Bridge) (instances : Instances) (held : List InstanceId)
    (dropsMayPanic : Bool) (modules : Table String Module) :
    b.Keeps { b with instances, held, dropsMayPanic, modules } :=
  .of_tables ((Move.aside b b.classes modules instances held dropsMayPanic b.engine.journal).moves
    (Nat.zero_le _)) rfl rfl rfl fun _ _ h => h

theorem keeps_update (b : Bridge) (id : ObjectId) {f : LiveObject → LiveObject}
    (hf : ∀ e, (f e).object = e.object) : b.Keeps (b.onEngine (·.update id f)).2 := by
  refine .of_tables (moves_update (Nat.zero_le _) id hf) rfl rfl rfl fun _ w hc => ?_
  simp only [onEngine, Engine.update, isAlive, Engine.isAlive] at hc ⊢
  cases hu : b.engine.heap.update id f with
  | error err => exact hc
  | ok heap =>
    obtain ⟨e, he⟩ := Heap.contains_iff.1 hc
    refine Heap.contains_iff.2 ?_
    rw [Heap.get?_update hu, he]
    by_cases hw : w = id
    · exact ⟨f e, by simp [hw]⟩
    · exact ⟨e, by simp [hw]⟩

theorem isAlive_allocate (hw : b.engine.heap.WellFormed) (object : HeapObject) {id : ObjectId}
    (hc : b.isAlive id) : (b.engine.heap.allocate object).2.contains id := by
  obtain ⟨e, he⟩ := Heap.contains_iff.1 hc
  exact Heap.contains_of_get? (hw.get?_allocate_of_some object he)

/-- The name that a new wrapper gets is registered to nothing. -/
theorem Tidy.not_contains_allocate (h : b.Tidy) (hw : b.engine.heap.WellFormed)
    (ha : (b.wrapFresh o).2.engine.heap.Addressable) :
    ¬ b.registry.contains (b.engine.heap.allocate (.wrapper o.className)).1 := by
  intro hc
  obtain ⟨e, he⟩ := Heap.contains_iff.1 (h.registered _ hc)
  rw [hw.get?_allocate_new (.wrapper o.className) ha] at he
  cases he

theorem keeps_wrapFresh (hnone : b.registry.wrapper? o = none) : b.Keeps (b.wrapFresh o).2 := by
  refine ⟨(Move.wrapFresh b o).moves (Nat.zero_le _), fun ha hw h => ?_⟩
  have hself := hw.get?_allocate_self (.wrapper o.className) ha
  have hfresh := h.not_contains_allocate hw ha
  have hgrows : ∀ w, b.registry.contains w → (b.wrapFresh o).2.registry.contains w := by
    intro w hc
    obtain ⟨o', ho'⟩ := Registry.contains_iff.1 hc
    refine Registry.contains_iff.2 ⟨o', ?_⟩
    rw [wrapFresh_eq, Registry.native?_bind hnone, if_neg, ho']
    rintro rfl
    exact hfresh hc
  refine ⟨⟨h.inverse.bind o hfresh, fun w hc => ?_, h.mirrored, fun p c hc => ?_, h.classes⟩,
    hgrows⟩
  · rcases Registry.contains_bind hc with rfl | hold
    · exact Heap.contains_of_get? hself
    · exact isAlive_allocate hw _ (h.registered w hold)
  · obtain ⟨hp, hc⟩ := h.ends p c hc
    exact ⟨hgrows p hp, hgrows c hc⟩

/-- An instance whose wrapper is registered has one that is alive, so none is ever released. -/
theorem Tidy.wrap_eq (h : b.Tidy) (o : InstanceHandle) :
    b.wrap o = match b.registry.wrapper? o with
      | none => b.wrapFresh o
      | some id => (id, b) := by
  unfold wrap
  cases hwrapper : b.registry.wrapper? o with
  | none => rfl
  | some id =>
    obtain ⟨o', ho', -⟩ := (h.inverse o.identity id).1 hwrapper
    have halive : b.isAlive id := h.registered id (Registry.contains_iff.2 ⟨o', ho'⟩)
    simp only [halive, if_true]

theorem keeps_wrap (b : Bridge) (o : InstanceHandle) : b.Keeps (b.wrap o).2 := by
  refine ⟨moves_wrap (Nat.zero_le _) o, fun ha hw h => ?_⟩
  rw [h.wrap_eq] at ha ⊢
  cases hwrapper : b.registry.wrapper? o with
  | none =>
    rw [hwrapper] at ha
    exact (keeps_wrapFresh hwrapper).2 ha hw h
  | some id => exact ⟨h, fun _ hc => hc⟩

theorem keeps_wrapAll (os : List InstanceHandle) (b : Bridge) : b.Keeps (b.wrapAll os).2 :=
  wrapAll_induction (P := b.Keeps) (fun c o hc => hc.trans (c.keeps_wrap o)) os (.refl b)

theorem keeps_toScript (b : Bridge) (n : Native.Value) : b.Keeps (b.toScript n).2 := by
  obtain ⟨done, -, -, hstate, -⟩ := n.toScript_wraps b
  rw [hstate]
  exact keeps_wrapAll done b

theorem keeps_getProperty (b : Bridge) (v : Script.Value) (name : String) :
    b.Keeps (b.getProperty v name).2 := by
  unfold getProperty
  split
  · exact .refl b
  · split
    · exact b.keeps_toScript _
    · exact .refl b
  · split <;> exact .refl b

theorem keeps_setProperty (b : Bridge) (receiver : Script.Value) (name : String)
    (v : Script.Value) : b.Keeps (b.setProperty receiver name v).2 := by
  unfold setProperty
  split
  · exact .refl b
  · unfold assign
    repeat' split
    all_goals first | exact .refl b | exact b.keeps_note _ b.held b.dropsMayPanic b.modules
  next id _ => exact b.keeps_update id fun _ => rfl

/-- An edge between wrappers that were registered at some time before and have stayed so. -/
theorem Keeps.addEdge (h : b.Keeps b')
    (hends : b.Tidy → b.registry.contains p ∧ b.registry.contains c) :
    b.Keeps (b'.addEdge p c).2 := by
  refine ⟨h.1.tail (Move.edges b' _) (Nat.zero_le _), fun ha hw htidy => ?_⟩
  obtain ⟨htidy', hgrows⟩ := h.2 ha hw htidy
  obtain ⟨hp, hc⟩ := hends htidy
  refine ⟨⟨htidy'.inverse, htidy'.registered, htidy'.mirrored.add p c, fun p' c' hc' => ?_,
    htidy'.classes⟩, hgrows⟩
  rcases (Ownership.contains_add_iff _ p c p' c').1 hc' with ⟨rfl, rfl⟩ | hold
  · exact ⟨hgrows p' hp, hgrows c' hc⟩
  · exact htidy'.ends p' c' hold

theorem keeps_removeEdge (b : Bridge) (p c : ObjectId) : b.Keeps (b.removeEdge p c).2 := by
  refine ⟨(Move.edges b _).moves (Nat.zero_le _), fun _ _ h => ⟨⟨h.inverse, h.registered,
    h.mirrored.remove p c, fun p' c' hc => ?_, h.classes⟩, fun _ hw => hw⟩⟩
  exact h.ends p' c' ((Ownership.contains_remove_iff h.mirrored p c p' c').1 hc).2

theorem keeps_setMode (b : Bridge) (w : ObjectId) (mode : RetentionMode) :
    b.Keeps (b.setMode w mode).2 := by
  have hsame : ∀ w', (b.registry.setMode w mode).2.contains w' ↔ b.registry.contains w' := by
    intro w'
    rw [Registry.contains_iff, Registry.contains_iff, Registry.native?_setMode]
  refine ⟨(Move.setMode b w mode).moves (Nat.zero_le _), fun _ _ h => ⟨⟨h.inverse.setMode w mode,
    fun w' hc => h.registered w' ((hsame w').1 hc), h.mirrored, fun p c hc => ?_, h.classes⟩,
    fun w' hc => (hsame w').2 hc⟩⟩
  obtain ⟨hp, hc⟩ := h.ends p c hc
  exact ⟨(hsame p).2 hp, (hsame c).2 hc⟩

/-- Nothing is collected, an edge is asked for between live wrappers only, and what the methods of
a class retain are objects. -/
def Orderly (op : Operation) (b : Bridge) : Prop :=
  match op with
  | .collect | .collectUntil _ | .hostCollect _ => False
  | .addEdge parent child => b.IsLiveWrapper parent ∧ b.IsLiveWrapper child
  | .defineClass name captured => (b.options.nativeClass name captured).RetainsObjects
  | _ => True

theorem keeps_invoke (b : Bridge) (id : ObjectId) (args : List Script.Value) :
    b.Keeps (b.onEngine (·.invoke id args)).2 := by
  refine .of_tables (moves_invoke (Nat.zero_le _) id args) rfl rfl rfl fun _ w hc => ?_
  rw [invoke_eq]
  cases b.engine.body id with
  | error err => exact hc
  | ok body =>
    have hheap := heap_pinAll b.openScope args
    rw [isAlive, Engine.isAlive, heap_closeScope, note, Engine.note, hheap]
    exact hc

theorem keeps_closeScope (b : Bridge) : b.Keeps b.closeScope := by
  refine .of_tables ((Move.closeScope b).moves (Nat.zero_le _)) rfl rfl rfl fun _ w hc => ?_
  rw [isAlive, Engine.isAlive, heap_closeScope]
  exact hc

theorem keeps_loadModule (b : Bridge) (m : Module) : b.Keeps (b.loadModule m).2 := by
  have hopen : b.Keeps b.openScope :=
    .of_tables (moves_openScope (Nat.zero_le _)) rfl rfl rfl fun _ _ hc => hc
  have hconverted : b.openScope.Keeps ((convertExports m.values).run b.openScope).2 := by
    rw [(convertExports_follows m.values b.openScope).1]
    exact keeps_wrapAll _ _
  have hscope := (hopen.trans hconverted).trans (keeps_closeScope _)
  simp only [loadModule, withScope]
  generalize ((convertExports m.values).run b.openScope).2.closeScope = c at hscope ⊢
  split
  · exact hscope
  next entries _ =>
    have hglobal : c.Keeps (c.mapEngine (·.setGlobal m.name (.map entries))) :=
      .of_tables ((Move.globals c _).moves (Nat.zero_le _)) rfl rfl rfl fun _ _ hc => hc
    exact (hscope.trans hglobal).trans (keeps_note _ _ _ _ _)

theorem Tidy.defineClass (h : b.Tidy) {c : NativeClass} (hc : c.RetainsObjects) :
    (b.defineClass c).2.Tidy := by
  unfold Bridge.defineClass
  cases hdefine : b.classes.define c with
  | error err => exact h
  | ok classes =>
    obtain ⟨-, rfl⟩ := Hierarchy.define_eq_ok_iff.1 hdefine
    refine ⟨h.inverse, h.registered, h.mirrored, h.ends, fun name d hd => ?_⟩
    rw [Hierarchy.find?_insert] at hd
    split at hd
    · obtain rfl := Option.some.inj hd
      exact hc
    · exact h.classes name d hd

theorem keeps_defineClass (b : Bridge) {c : NativeClass} (hc : c.RetainsObjects) :
    b.Keeps (b.defineClass c).2 := by
  have hregistry : (b.defineClass c).2.registry = b.registry := by
    unfold Bridge.defineClass
    split <;> rfl
  refine ⟨moves_defineClass (Nat.zero_le _) c, fun _ _ h => ⟨h.defineClass hc, fun w hw => ?_⟩⟩
  rw [hregistry]
  exact hw

theorem keeps_answer {op : Operation} (ho : Orderly op b) : b.Keeps (answer none op b).2 := by
  have hm : Moves 0 b (answer none op b).2 := moves_answer op (Nat.zero_le _) (Nat.zero_le _)
  cases op with
  | collect | collectUntil | hostCollect => exact ho.elim
  | defineClass name captured => exact b.keeps_defineClass ho
  | loadModule name captured => exact b.keeps_loadModule _
  | addEdge parent child => exact (Keeps.refl b).addEdge fun _ => ⟨ho.1.1, ho.2.1⟩
  | removeEdge parent child => exact b.keeps_removeEdge parent child
  | setMode wrapper mode => exact b.keeps_setMode wrapper mode
  | wrap o => exact b.keeps_wrap o
  | toScript n => exact b.keeps_toScript n
  | getProperty receiver name => exact b.keeps_getProperty receiver name
  | setProperty receiver name v => exact b.keeps_setProperty receiver name v
  | setHostProperty id name v => exact b.keeps_update id fun _ => rfl
  | addFinalizer id f => exact b.keeps_update id fun _ => rfl
  | invoke id args => exact b.keeps_invoke id args
  | callScript function args =>
    cases function with
    | function id => exact b.keeps_invoke id args
    | _ => exact .refl b
  | closeScope => exact b.keeps_closeScope
  | createFunction name body =>
    exact .of_tables hm rfl rfl rfl fun hw id hc => isAlive_allocate hw (.function name [] body) hc
  | allocateWrapper className =>
    exact .of_tables hm rfl rfl rfl fun hw id hc => isAlive_allocate hw (.wrapper className) hc
  | allocateFunction name captures body =>
    exact .of_tables hm rfl rfl rfl fun hw id hc =>
      isAlive_allocate hw (.function name captures body) hc
  | _ => exact .of_tables hm rfl rfl rfl fun _ _ hc => hc

/-! ## Calls -/

theorem keeps_program {α : Type} {serve : Server} {P : Operation → Bridge → Prop}
    (hserve : ∀ op b, P op b → b.Keeps (serve op b).2) (p : Program α) {b : Bridge}
    (h : p.Along serve P b) : b.Keeps (p.run serve b).2 := by
  induction p generalizing b with
  | done a => exact .refl b
  | ask op next ih => exact (hserve op b h.1).trans (ih _ h.2)

theorem keeps_entered (c : Call) (b : Bridge) : b.Keeps (c.entered b) := by
  refine .of_tables ((later_entered c (Nat.zero_le _)).moves (Nat.zero_le _)) rfl rfl rfl
    fun _ w hw => ?_
  rw [isAlive, Engine.isAlive, Call.entered, heap_pinAll]
  exact hw

theorem keeps_begun (c : Call) (b : Bridge) : b.Keeps (c.begun b) := by
  refine (keeps_entered c b).trans ?_
  unfold Call.begun beforeBody
  split
  · split
    · exact keeps_removeEdge _ _ _
    · exact .refl _
  · exact .refl _

/-- A wrapper among the arguments that is converted as an object is registered. -/
theorem contains_of_handed? {c : Call} {handed : List Native.Value} {index : Nat}
    {child : ObjectId} (hhanded : c.handed? b = .ok handed)
    (hchild : c.args[index]? = some (.wrapper child))
    (hparams : ∃ className, c.params[index]? = some (.object className) ∨
      c.params[index]? = some (.optional (.object className))) : b.registry.contains child := by
  obtain ⟨converted, hconverted, -⟩ := map_eq_ok_iff.1 hhanded
  have hobject : ∀ {className n}, (c.entered b).fromScript (.wrapper child) (.object className)
      index = .ok n → b.registry.contains child := by
    intro className n hn
    obtain ⟨-, o, ho, -⟩ := fromScriptAt_object_iff.1 hn
    exact Registry.contains_iff.2 ⟨o, (nativeOf_eq_some_iff.1 ho).2⟩
  obtain ⟨className, htype | htype⟩ := hparams
  all_goals
    obtain ⟨n, -, hn⟩ := converted_argument hconverted htype
    rw [Nat.zero_add, hchild, Option.getD_some] at hn
  · exact hobject hn
  · obtain ⟨-, ⟨hno, -⟩ | ⟨hno, -⟩ | ⟨-, hinner⟩⟩ := fromScriptAt_optional_iff.1 hn
    · cases hno
    · cases hno
    · exact hobject hinner

/-- A call has the policy of a method, or none. -/
theorem call?_cases {op : Operation} {c : Call} (h : b.call? op = some c) :
    c.policy = .none ∨ ∃ receiver name args, b.methodCall? receiver name args = some c := by
  have hfunction : ∀ {moduleName name args}, b.functionCall? moduleName name args = some c →
      c.policy = .none := by
    intro moduleName name args h
    unfold functionCall? at h
    simp only [Option.bind_eq_bind, Option.bind_eq_some_iff] at h
    obtain ⟨m, -, f, -, hc⟩ := h
    obtain rfl := Option.some.inj hc
    rfl
  cases op with
  | construct className args =>
    simp only [call?, constructCall?, Option.bind_eq_bind, Option.bind_eq_some_iff] at h
    obtain ⟨d, -, ctor, -, hc⟩ := h
    obtain rfl := Option.some.inj hc
    exact .inl rfl
  | callMethod receiver name args => exact .inr ⟨receiver, name, args, h⟩
  | callFunction moduleName name args => exact .inl (hfunction h)
  | callSymbol symbol args =>
    simp only [call?, Option.bind_eq_bind, Option.bind_eq_some_iff] at h
    obtain ⟨r, -, hr⟩ := h
    exact .inl (hfunction hr)
  | _ => cases h

/-- The ends of an edge that a call leaves are registered when it starts. -/
theorem Tidy.ends_of_retain (htidy : b.Tidy) {op : Operation} {c : Call}
    {handed : List Native.Value} {index : Nat} {parent child : ObjectId}
    (hcall : b.call? op = some c) (hhanded : c.handed? b = .ok handed)
    (hpolicy : c.policy = .retain index)
    (hedge : policyEdge? c.this c.args index = some (parent, child)) :
    b.registry.contains parent ∧ b.registry.contains child := by
  obtain hnone | ⟨receiver, name, args, hmethod⟩ := call?_cases hcall
  · rw [hpolicy] at hnone
    cases hnone
  obtain ⟨this, o, m, hreceiver, hm, rfl⟩ := b.methodCall?_eq_some hmethod
  have hthis : b.registry.contains this :=
    Registry.contains_iff.2 ⟨o, (receiver_eq_ok hreceiver).2.2⟩
  obtain ⟨n, d, hd, hmd⟩ := Hierarchy.exists_of_findSome?_ancestry hm
  have hparams := htidy.classes n d hd name m index hmd hpolicy
  cases hargument : wrapperArgument? args index with
  | none => simp [policyEdge?, hargument] at hedge
  | some id =>
    obtain ⟨rfl, rfl⟩ : this = parent ∧ id = child := by simpa [policyEdge?, hargument] using hedge
    have hraw : args[index]? = some (.wrapper id) := by
      unfold wrapperArgument? at hargument
      split at hargument
      next hraw =>
        rw [hraw, Option.some.inj hargument]
      · cases hargument
    exact ⟨hthis, contains_of_handed? hhanded hraw hparams⟩

theorem keeps_finish (c : Call) (n : Native.Value) {after : Bridge}
    (h : b.Keeps (after.afterBody c.this c.policy c.args)) : b.Keeps (c.finish n after).2 := by
  have hconverted := h.trans (keeps_toScript _ n)
  unfold Call.finish
  generalize (after.afterBody c.this c.policy c.args).toScript n = result at hconverted ⊢
  obtain ⟨err | v, final⟩ := result
  · exact hconverted.trans final.keeps_closeScope
  · have hclosed := hconverted.trans final.keeps_closeScope
    exact hclosed.trans (.of_tables (moves_pin (Nat.zero_le _) v) rfl rfl rfl fun _ _ h => h)

theorem keeps_call {c : Call} {op : Operation} {serve : Server} {P : Operation → Bridge → Prop}
    (hserve : ∀ op b, P op b → b.Keeps (serve op b).2) (hcall : b.call? op = some c)
    (hbody : ∀ handed, c.handed? b = .ok handed →
      (c.body handed).outcome.Along serve P (c.begun b)) : b.Keeps (c.run serve b).2 := by
  rw [c.run_eq]
  cases hhanded : c.handed? b with
  | error err => exact (keeps_entered c b).trans (keeps_closeScope _)
  | ok handed =>
    have hrun := (keeps_begun c b).trans (keeps_program hserve _ (hbody handed hhanded))
    change b.Keeps (((c.body handed).run serve).run (c.begun b)).2 at hrun
    dsimp only
    generalize ((c.body handed).run serve).run (c.begun b) = result at hrun ⊢
    obtain ⟨err | n, after⟩ := result
    · exact hrun.trans after.keeps_closeScope
    have hafter : b.Keeps (after.afterBody c.this c.policy c.args) := by
      unfold afterBody
      split
      next index hpolicy =>
        split
        next parent child hedge =>
          exact hrun.addEdge fun htidy => htidy.ends_of_retain hcall hhanded hpolicy hedge
        · exact hrun
      · exact hrun
    exact keeps_finish c n hafter

/-- **An orderly operation keeps a bridge tidy.** -/
theorem keeps_server (nesting : Nat) {op : Operation} (ho : Throughout Orderly nesting op b) :
    b.Keeps (server nesting op b).2 := by
  -- On how deep calls may nest: what a body asks for is served one level further down.
  induction nesting generalizing op b with
  | zero => exact keeps_answer ho
  | succ nesting ih =>
    rw [server, state_answer_some]
    cases hcall : b.call? op with
    | none => exact keeps_answer ho.1
    | some c => exact keeps_call (fun _ _ => ih) hcall (ho.2 c hcall)

/-! ## Collections -/

theorem classes_collect (b : Bridge) : b.collect.2.classes = b.classes := by
  rw [collect_eq]
  exact releaseAll_induction (P := fun x => x.classes = b.classes) _
    (fun x id _ hx => (x.classes_release [] id).trans hx) _ _ rfl

theorem modules_collect (b : Bridge) : b.collect.2.modules = b.modules := by
  rw [collect_eq]
  exact releaseAll_induction (P := fun x => x.modules = b.modules) _
    (fun x id _ hx => (x.modules_release [] id).trans hx) _ _ rfl

theorem binding?_collect (b : Bridge) (w : ObjectId) : b.collect.2.registry.binding? w =
    if w ∈ b.swept then none else b.registry.binding? w := by
  rw [collect_eq, binding?_releaseAll]
  rfl

theorem contains_collect_iff (hm : b.edges.Mirrored) (p c : ObjectId) :
    b.collect.2.edges.contains p c ↔ b.edges.contains p c ∧ p ∉ b.swept ∧ c ∉ b.swept :=
  ((b.tells_collect hm).2 p c).trans (EdgeEvent.after_released b.swept)

/-- **A collection keeps a bridge tidy.** -/
theorem Tidy.collect (h : b.Tidy) : b.collect.2.Tidy where
  inverse := by
    rw [collect_eq]
    refine releaseAll_induction (P := fun x => x.registry.Inverse) _ (fun x id _ hx => ?_) _ _
      h.inverse
    rw [registry_release]
    exact hx.without id
  registered w hc := by
    rw [Registry.contains, binding?_collect] at hc
    split at hc
    · cases hc
    next hw => exact (isAlive_collect_iff w).2 (reaches_of_not_mem_swept (h.registered w hc) hw)
  mirrored := (b.tells_collect h.mirrored).1
  ends p c hc := by
    obtain ⟨hold, hp, hc⟩ := (contains_collect_iff h.mirrored p c).1 hc
    rw [Registry.contains, Registry.contains, binding?_collect, binding?_collect, if_neg hp,
      if_neg hc]
    exact h.ends p c hold
  classes := by
    rw [classes_collect]
    exact h.classes

theorem pursue_induction {P : Bridge → Prop} (hP : ∀ b, P b → P b.collect.2)
    (holds : Nat → Bridge → Bool) (asked passes : Nat) (hb : P b) :
    P (b.pursue holds asked passes).2 := by
  induction passes generalizing asked b with
  | zero => exact hb
  | succ passes ih =>
    rw [Bridge.pursue]
    split
    · exact hb
    · exact ih _ (hP b hb)

/-! ## Orderly runs -/

/-- The embedding program collects between its operations, and asks for orderly ones. -/
inductive OrderlyUse (b : Bridge) (nesting : Nat) : Use → Prop where
  | ask {op : Operation} : Throughout Orderly nesting op b → OrderlyUse b nesting (.ask op)
  | collect : OrderlyUse b nesting (.ask .collect)
  | pursue (holds : Nat → Engine → Registry → Ownership → Instances → Bool) :
    OrderlyUse b nesting (.ask (.collectUntil holds))
  | collectUntil (holds : Nat → Bridge → Bool) : OrderlyUse b nesting (.collectUntil holds)
  | defineClass {c : NativeClass} : c.RetainsObjects → OrderlyUse b nesting (.defineClass c)
  | loadModule (m : Module) : OrderlyUse b nesting (.loadModule m)
  | hold (o : InstanceHandle) : OrderlyUse b nesting (.hold o)
  | letGo (o : InstanceHandle) : OrderlyUse b nesting (.letGo o)
  | dropsMayPanic (dropsMayPanic : Bool) : OrderlyUse b nesting (.dropsMayPanic dropsMayPanic)

def OrderlyRun : Bridge → Bridge → Prop :=
  Relation.ReflTransGen fun b b' => ∃ nesting u, b.OrderlyUse nesting u ∧ b' = b.use nesting u

theorem moves_use (b : Bridge) (nesting : Nat) (u : Use) : Moves 0 b (b.use nesting u) :=
  (step_iff_use.2 ⟨u, rfl⟩ : Step nesting b (b.use nesting u)).later.moves (Nat.zero_le _)

theorem OrderlyUse.tidy {nesting : Nat} {u : Use} (h : b.OrderlyUse nesting u)
    (ha : (b.use nesting u).engine.heap.Addressable) (hw : b.engine.heap.WellFormed)
    (htidy : b.Tidy) : (b.use nesting u).Tidy := by
  have hkeeps : ∀ {b'}, b.Keeps b' → b'.engine.heap.Addressable → b'.Tidy := fun hk ha' =>
    (hk.2 ha' hw htidy).1
  cases h with
  | ask ho => exact hkeeps (keeps_server nesting ho) ha
  | collect =>
    rw [use, b.state_server_of_none rfl]
    exact htidy.collect
  | pursue holds =>
    rw [use, b.state_server_of_none rfl]
    exact pursue_induction (fun _ => Tidy.collect) (seenBy holds) 0 _ htidy
  | collectUntil holds => exact pursue_induction (fun _ => Tidy.collect) holds 0 _ htidy
  | defineClass hc => exact htidy.defineClass hc
  | loadModule m => exact hkeeps (b.keeps_loadModule m) ha
  | hold o => exact hkeeps (b.keeps_note b.instances _ b.dropsMayPanic b.modules) ha
  | letGo o => exact hkeeps (b.keeps_note b.instances _ b.dropsMayPanic b.modules) ha
  | dropsMayPanic dropsMayPanic =>
    exact hkeeps (b.keeps_note b.instances b.held dropsMayPanic b.modules) ha

theorem OrderlyRun.moves (h : OrderlyRun b b') : Moves 0 b b' := by
  induction h with
  | refl => exact .refl 0 b
  | tail _ hstep ih =>
    obtain ⟨nesting, u, -, rfl⟩ := hstep
    exact ih.trans (moves_use _ nesting u)

theorem OrderlyRun.wellFormed {options : Options} (h : OrderlyRun { options } b) :
    b.engine.heap.WellFormed :=
  h.moves.wellFormed Heap.wellFormed_empty

theorem OrderlyRun.tidy {options : Options} (h : OrderlyRun { options } b)
    (ha : b.engine.heap.Addressable) : b.Tidy := by
  induction h with
  | refl => exact tidy_empty options
  | tail hprev hstep ih =>
    obtain ⟨nesting, u, huse, rfl⟩ := hstep
    have hw := OrderlyRun.wellFormed hprev
    exact huse.tidy ha hw (ih (ha.of_grows ((moves_use _ nesting u).grows hw)))

/-- What a body finds is tidy as well. -/
theorem Tidy.along {α : Type} {serve : Server} {P Q : Operation → Bridge → Prop}
    (hserve : ∀ op b, P op b → b.Keeps (serve op b).2)
    (hinside : ∀ op b, P op b → b.engine.heap.WellFormed →
      (b.engine.heap.Addressable → b.Tidy) → Q op b)
    (p : Program α) (h : p.Along serve P b) (hw : b.engine.heap.WellFormed)
    (htidy : b.engine.heap.Addressable → b.Tidy) : p.Along serve Q b := by
  induction p generalizing b with
  | done a => trivial
  | ask op next ih =>
    have hkeeps := hserve op b h.1
    refine ⟨hinside op b h.1 hw htidy, ih _ h.2 (hkeeps.1.wellFormed hw) fun ha => ?_⟩
    exact (hkeeps.2 ha hw (htidy (ha.of_grows (hkeeps.1.grows hw)))).1

theorem Tidy.throughout {nesting : Nat} {op : Operation} (ho : Throughout Orderly nesting op b)
    (hw : b.engine.heap.WellFormed) (htidy : b.engine.heap.Addressable → b.Tidy) :
    Throughout (fun _ x => x.engine.heap.Addressable → x.Neat) nesting op b := by
  induction nesting generalizing op b with
  | zero => exact fun ha => (htidy ha).neat
  | succ nesting ih =>
    refine ⟨fun ha => (htidy ha).neat, fun c hc handed hhanded => ?_⟩
    have hbegun := keeps_begun c b
    refine Tidy.along (fun _ _ => keeps_server nesting) (fun op b => ih) _
      (ho.2 c hc handed hhanded) (hbegun.1.wellFormed hw) fun ha => ?_
    exact (hbegun.2 ha hw (htidy (ha.of_grows (hbegun.1.grows hw)))).1

/-- **In an orderly run the tables agree.** As long as every slot of the heap has a number of its
own, registered wrappers are alive and edges connect registered wrappers that are alive, after every
use of the bridge, and whenever a body asks for something. And a collection leaves neither an edge
nor a strong record of what it collects. -/
theorem tables_agree_of_orderlyRun {options : Options} (h : OrderlyRun { options } b)
    (ha : b.engine.heap.Addressable) :
    b.Neat ∧
      (∀ nesting op, Throughout Orderly nesting op b →
        Throughout (fun _ x => x.engine.heap.Addressable → x.Neat) nesting op b) ∧
      ∀ id, b.isAlive id → b.collect.2.isAlive id = false →
        b.collect.2.registry.mode? id = none ∧
          ∀ x, ¬ b.collect.2.edges.contains id x ∧ ¬ b.collect.2.edges.contains x id := by
  have htidy := h.tidy ha
  refine ⟨htidy.neat, fun nesting op ho => Tidy.throughout ho h.wellFormed fun _ => htidy,
    fun id halive hdead => ?_⟩
  have hswept : id ∈ b.swept := by
    by_contra hnot
    have hkept := (isAlive_collect_iff id).2 (reaches_of_not_mem_swept halive hnot)
    cases hkept.symm.trans hdead
  refine ⟨?_, fun x => ⟨fun hc => ?_, fun hc => ?_⟩⟩
  · rw [Registry.mode?, binding?_collect, if_pos hswept]
    rfl
  · exact ((contains_collect_iff htidy.mirrored id x).1 hc).2.1 hswept
  · exact ((contains_collect_iff htidy.mirrored x id).1 hc).2.2 hswept

theorem retainsObjects_boxClass : boxClass.RetainsObjects := by
  intro name m index hm hpolicy
  have hentry := (Table.mem_entries_iff _ _ _).2 hm
  rcases List.mem_pair.1 hentry with hkeep | hdrop
  · obtain ⟨-, rfl⟩ := Prod.mk.inj hkeep
    obtain rfl := CallPolicy.retain.inj hpolicy
    exact ⟨"Box", .inl rfl⟩
  · obtain ⟨-, rfl⟩ := Prod.mk.inj hdrop
    cases hpolicy

/-- A box that keeps another one, when the scope that held them has closed. -/
def keptBox : Bridge :=
  let keep : Operation := .callMethod (.wrapper ⟨0, 0⟩) "keep" [.wrapper ⟨1, 0⟩]
  useAll {} [(0, .defineClass boxClass), (0, .ask .openScope),
    (0, .ask (.create "Box" (.word 1))), (0, .ask (.create "Box" (.word 2))),
    (0, .ask (.wrap ⟨"Box", ⟨0⟩⟩)), (0, .ask (.wrap ⟨"Box", ⟨1⟩⟩)), (1, .ask keep),
    (0, .ask .closeScope)]

theorem orderlyRun_keptBox : OrderlyRun {} keptBox := by
  have start : OrderlyRun {} {} := Relation.ReflTransGen.refl
  have defined := start.tail ⟨0, _, .defineClass retainsObjects_boxClass, rfl⟩
  have opened := defined.tail ⟨0, .ask .openScope, .ask trivial, rfl⟩
  have made := (opened.tail ⟨0, .ask (.create "Box" (.word 1)), .ask trivial, rfl⟩).tail
    ⟨0, .ask (.create "Box" (.word 2)), .ask trivial, rfl⟩
  have wrapped := (made.tail ⟨0, .ask (.wrap ⟨"Box", ⟨0⟩⟩), .ask trivial, rfl⟩).tail
    ⟨0, .ask (.wrap ⟨"Box", ⟨1⟩⟩), .ask trivial, rfl⟩
  have kept := wrapped.tail
    ⟨1, .ask (.callMethod (.wrapper ⟨0, 0⟩) "keep" [.wrapper ⟨1, 0⟩]), .ask ⟨trivial, ?_⟩, rfl⟩
  · exact kept.tail ⟨0, .ask .closeScope, .ask trivial, rfl⟩
  · intro c hc handed _
    obtain rfl := Option.some.inj hc
    trivial

/-- The kept box goes with the other one, and nothing is left of the edge between them. -/
theorem tables_agree_of_keptBox :
    OrderlyRun {} keptBox ∧ keptBox.engine.heap.Addressable ∧
      keptBox.edges.contains ⟨0, 0⟩ ⟨1, 0⟩ ∧ keptBox.IsLiveWrapper ⟨1, 0⟩ ∧
      keptBox.collect.2.isAlive ⟨1, 0⟩ = false ∧
      keptBox.collect.2.registry.mode? ⟨1, 0⟩ = none ∧
      ¬ keptBox.collect.2.edges.contains ⟨0, 0⟩ ⟨1, 0⟩ := by
  have ha : keptBox.engine.heap.Addressable := by
    unfold Heap.Addressable
    decide
  obtain ⟨hneat, -, hcollect⟩ := tables_agree_of_orderlyRun orderlyRun_keptBox ha
  have hedge : keptBox.edges.contains ⟨0, 0⟩ ⟨1, 0⟩ := by decide
  have hlive := (hneat.edges _ _ hedge).2
  have hdead : keptBox.collect.2.isAlive ⟨1, 0⟩ = false := by decide
  obtain ⟨hmode, hnone⟩ := hcollect ⟨1, 0⟩ hlive.2 hdead
  exact ⟨orderlyRun_keptBox, ha, hedge, hlive, hdead, hmode, (hnone ⟨0, 0⟩).2⟩

end Bridge
end ScriptBridge
