import ScriptBridge.Bridge.Call
import ScriptBridge.Bridge.Loading
import ScriptBridge.Proofs.Bridge.Moves
import ScriptBridge.Proofs.Conversion.Wrapping

/-! # Operations as moves

Every operation that calls no native body is a few moves in a row.

* `Bridge.moves_wrapAll`, `Bridge.moves_toScript` and `Bridge.moves_collect` are the operations that
  may release wrappers. They release those that are dead.
* `Bridge.moves_defineClass` and `Bridge.moves_loadModule` are definitions and loadings, and
  `Bridge.moves_answer` is any operation.
-/

namespace ScriptBridge.Bridge
set_option autoImplicit false

variable {d : Nat}

/-! ## Releasing and wrapping -/

theorem moves_release {b : Bridge} {id : ObjectId} (hd : d ≤ b.depth)
    (hdead : b.isAlive id = false) (inFlight : List InstanceId) :
    Moves d b (b.release inFlight id).2 := by
  refine (Move.release b inFlight hdead).moves ?_
  rw [depth, roots_release]
  exact hd

theorem moves_releaseAll (l : List ObjectId) (report : CollectionReport) {b : Bridge}
    (hd : d ≤ b.depth) (hdead : ∀ id ∈ l, b.isAlive id = false) :
    Moves d b (b.releaseAll report l).2 := by
  induction l generalizing report b with
  | nil => exact .refl d b
  | cons id rest ih =>
    have hfirst := moves_release hd (hdead id List.mem_cons_self) []
    refine hfirst.trans (ih _ (hfirst.le_depth hd) fun a ha => ?_)
    rw [isAlive, Engine.isAlive, heap_release]
    exact hdead a (List.mem_cons_of_mem id ha)

theorem moves_wrap {b : Bridge} (hd : d ≤ b.depth) (o : InstanceHandle) :
    Moves d b (b.wrap o).2 := by
  refine wrap_induction (P := Moves d b) o (fun c w hdead hc => ?_) (fun c hc => ?_) (.refl d b)
  · exact hc.trans (moves_release (hc.le_depth hd) hdead [o.identity])
  · have hdepth : d ≤ (c.wrapFresh o).2.depth :=
      Nat.le_trans (hc.le_depth hd) (Nat.le_of_eq (c.depth_pin _).symm)
    exact hc.tail (.wrapFresh c o) hdepth

theorem moves_wrapAll (os : List InstanceHandle) {b : Bridge} (hd : d ≤ b.depth) :
    Moves d b (b.wrapAll os).2 :=
  wrapAll_induction (P := Moves d b) (fun _ o hc => hc.trans (moves_wrap (hc.le_depth hd) o)) os
    (.refl d b)

theorem moves_toScript {b : Bridge} (hd : d ≤ b.depth) (v : Native.Value) :
    Moves d b (b.toScript v).2 := by
  obtain ⟨done, -, -, hstate, -⟩ := Native.Value.toScript_wraps b v
  rw [hstate]
  exact moves_wrapAll done hd

/-! ## Collecting -/

theorem moves_collect {b : Bridge} (hd : d ≤ b.depth) : Moves d b b.collect.2 := by
  have hsweep : Moves d b (b.onEngine (·.collect b.retention)).2 :=
    (Move.collect b b.retention).moves hd
  refine hsweep.trans (moves_releaseAll _ _ hd fun id hid => ?_)
  obtain ⟨-, hnot⟩ := (b.engine.mem_collect_iff b.retention id).1 hid
  exact Bool.eq_false_iff.2 fun hc => hnot ((b.engine.isAlive_collect_iff b.retention id).1 hc)

theorem moves_pursue (holds : Nat → Bridge → Bool) (passes asked : Nat) {b : Bridge}
    (hd : d ≤ b.depth) : Moves d b (b.pursue holds asked passes).2 := by
  induction passes generalizing asked b with
  | zero => exact .refl d b
  | succ passes ih =>
    rw [pursue]
    split
    · exact .refl d b
    · have hfirst := moves_collect hd
      exact hfirst.trans (ih _ (hfirst.le_depth hd))

/-! ## Scopes -/

theorem moves_openScope {b : Bridge} (hd : d ≤ b.depth) : Moves d b b.openScope :=
  (Move.openScope b).moves (Nat.le_succ_of_le hd)

theorem moves_pin {b : Bridge} (hd : d ≤ b.depth) (v : Script.Value) : Moves d b (b.pin v) :=
  (Move.pin b v).moves (by rw [depth_pin]; exact hd)

theorem moves_pinAll (vs : List Script.Value) {b : Bridge} (hd : d ≤ b.depth) :
    Moves d b (b.mapEngine (·.pinAll vs)) := by
  induction vs generalizing b with
  | nil => exact .refl d b
  | cons v rest ih =>
    have hfirst := moves_pin hd v
    exact hfirst.trans (ih (hfirst.le_depth hd))

theorem moves_closeScope {b : Bridge} (hd : d < b.depth) : Moves d b b.closeScope := by
  refine (Move.closeScope b).moves ?_
  rw [depth_closeScope]
  omega

/-- What happens in a scope of its own leaves the scopes around it open. -/
theorem Moves.inScope {b c : Bridge} (hd : d ≤ b.depth) (h : Moves (d + 1) b.openScope c) :
    Moves d b c.closeScope := by
  have hin : d + 1 ≤ c.depth := h.le_depth (Nat.succ_le_succ hd)
  exact ((moves_openScope hd).trans (h.mono (Nat.le_succ d))).trans (moves_closeScope hin)

theorem moves_note {b : Bridge} (hd : d ≤ b.depth) (events : List Event) :
    Moves d b (b.note events) :=
  (Move.aside b b.classes b.modules b.instances b.held b.dropsMayPanic _).moves hd

/-! ## The other operations -/

theorem moves_update {b : Bridge} (hd : d ≤ b.depth) (id : ObjectId) {f : LiveObject → LiveObject}
    (hf : ∀ e, (f e).object = e.object) : Moves d b (b.onEngine (·.update id f)).2 := by
  simp only [onEngine, Engine.update]
  cases hu : b.engine.heap.update id f with
  | ok heap => exact (Move.update b hf hu).moves hd
  | error err => exact .refl d b

theorem moves_allocate {b : Bridge} (hd : d ≤ b.depth) (object : HeapObject) :
    Moves d b (b.mapEngine fun e => { e with heap := (e.heap.allocate object).2 }) :=
  (Move.allocate b object).moves hd

theorem moves_createFunction {b : Bridge} (hd : d ≤ b.depth) (name : String)
    (body : HostFunction) : Moves d b (b.createFunction name body).2 :=
  Moves.trans (moves_allocate hd (.function name [] body)) (moves_pin (b := b.mapEngine _) hd _)

theorem invoke_eq (b : Bridge) (id : ObjectId) (args : List Script.Value) :
    (b.onEngine (·.invoke id args)).2 =
      match b.engine.body id with
      | .error _ => b
      | .ok body =>
        ((b.openScope.mapEngine (·.pinAll args)).note (body args).events).closeScope := by
  simp only [onEngine, Engine.invoke]
  cases b.engine.body id <;> rfl

theorem moves_invoke {b : Bridge} (hd : d ≤ b.depth) (id : ObjectId) (args : List Script.Value) :
    Moves d b (b.onEngine (·.invoke id args)).2 := by
  rw [invoke_eq]
  cases b.engine.body id with
  | error err => exact .refl d b
  | ok body =>
    have hopen : d + 1 ≤ b.openScope.depth := Nat.succ_le_succ hd
    have hpins := moves_pinAll args hopen
    exact (hpins.trans (moves_note (hpins.le_depth hopen) _)).inScope hd

theorem moves_getProperty {b : Bridge} (hd : d ≤ b.depth) (v : Script.Value) (name : String) :
    Moves d b (b.getProperty v name).2 := by
  unfold getProperty
  split
  · exact .refl d b
  · split
    · exact moves_toScript hd _
    · exact .refl d b
  · split <;> exact .refl d b

theorem moves_aside {b : Bridge} (hd : d ≤ b.depth) (instances : Instances) :
    Moves d b { b with instances } :=
  (Move.aside b b.classes b.modules instances b.held b.dropsMayPanic b.engine.journal).moves hd

theorem moves_setProperty {b : Bridge} (hd : d ≤ b.depth) (receiver : Script.Value)
    (name : String) (v : Script.Value) : Moves d b (b.setProperty receiver name v).2 := by
  unfold setProperty
  split
  · exact .refl d b
  next o a _ =>
    unfold assign
    split
    · exact .refl d b
    · split
      · exact .refl d b
      · split
        · exact .refl d b
        · exact moves_aside hd _
  next id _ => exact moves_update hd id fun _ => rfl

/-! ## Classes and modules -/

theorem moves_defineClass {b : Bridge} (hd : d ≤ b.depth) (c : NativeClass) :
    Moves d b (b.defineClass c).2 := by
  unfold defineClass
  split
  · exact (Move.aside b _ b.modules b.instances b.held b.dropsMayPanic b.engine.journal).moves hd
  · exact .refl d b

theorem wraps_convertExports (values : List (String × Native.Value)) :
    (convertExports values).Wraps (values.flatMap fun e => e.2.handles) fun _ _ => True := by
  induction values with
  | nil => exact .pure trivial
  | cons e rest ih =>
    refine .bind (Native.Value.wraps_toScriptAt 0 e.2) fun v ids _ => ?_
    exact .map ih fun _ _ _ => trivial

theorem moves_loadModule {b : Bridge} (hd : d ≤ b.depth) (m : Module) :
    Moves d b (b.loadModule m).2 := by
  obtain ⟨done, -, -, hstate, -⟩ := wraps_convertExports m.values b.openScope
  have hopen : d + 1 ≤ b.openScope.depth := Nat.succ_le_succ hd
  have hscope := (moves_wrapAll done hopen).inScope hd
  rw [← hstate] at hscope
  simp only [loadModule, withScope]
  generalize ((convertExports m.values).run b.openScope).2.closeScope = c at hscope ⊢
  split
  · exact hscope
  next entries _ =>
    have hdepth := hscope.le_depth hd
    have hglobal := hscope.tail
      (Move.globals c (c.engine.roots.globals.insert m.name (.map entries))) hdepth
    exact hglobal.tail (Move.aside _ c.classes (c.modules.insert m.name m) c.instances c.held
      c.dropsMayPanic c.engine.journal) hdepth

/-! ## Any operation -/

/-- **Every operation that calls no native body is moves in a row.** -/
theorem moves_answer {b : Bridge} (op : Operation) (hd : d ≤ b.depth)
    (hd' : d ≤ (answer none op b).2.depth) : Moves d b (answer none op b).2 := by
  cases op with
  | construct | callMethod | callFunction | callSymbol => exact .refl d b
  | fromScript | nativeOf | read | isAlive | global | hostProperty => exact .refl d b
  | getProperty receiver name => exact moves_getProperty hd receiver name
  | setProperty receiver name v => exact moves_setProperty hd receiver name v
  | createFunction name body => exact moves_createFunction hd name body
  | callScript function args =>
    cases function with
    | function id => exact moves_invoke hd id args
    | _ => exact .refl d b
  | toScript v => exact moves_toScript hd v
  | wrap o => exact moves_wrap hd o
  | create className seed => exact moves_aside hd _
  | lend o kind => exact moves_aside hd _
  | giveBack o payload => exact moves_aside hd _
  | addEdge parent child => exact (Move.edges b _).moves hd
  | removeEdge parent child => exact (Move.edges b _).moves hd
  | setMode wrapper mode => exact (Move.setMode b wrapper mode).moves hd
  | collect => exact moves_collect hd
  | collectUntil holds => exact moves_pursue (seenBy holds) _ 0 hd
  | defineClass name captured => exact moves_defineClass hd _
  | loadModule name captured => exact moves_loadModule hd _
  | invoke id args => exact moves_invoke hd id args
  | openScope => exact moves_openScope hd
  | closeScope => exact (Move.closeScope b).moves hd'
  | pin v => exact moves_pin hd v
  | setGlobal name v => exact (Move.globals b _).moves hd
  | removeGlobal name => exact (Move.globals b _).moves hd
  | setHostProperty id name v => exact moves_update hd id fun _ => rfl
  | addFinalizer id f => exact moves_update hd id fun _ => rfl
  | allocateWrapper className => exact moves_allocate hd _
  | allocateFunction name captures body => exact moves_allocate hd _
  | hostCollect r => exact (Move.collect b r).moves hd

end ScriptBridge.Bridge
