import ScriptBridge.Proofs.Sample.Finalizing

/-! # Calls on views

What a call from script makes of the views and of the edges, when there is nothing to call but the
view class and the module of types.

* `Bridge.run_call_lending` is a call of a method that has a view lent to it, from the conversion of
  the arguments to that of the result.
* `View.exists_change` are the methods of the view class, each by what it does to the children.
* `Bridge.Aligned.call` is any call, and `Bridge.Aligned.yields_call` is what its body asks for.
-/

namespace ScriptBridge
set_option autoImplicit false

namespace Bridge

variable {b b' : Bridge}

/-! ## The ways into a call and out of it -/

theorem Quiet.withView (h : b.Quiet b') (i : InstanceId) (v : View) :
    (b.withView i v).Quiet (b'.withView i v) where
  registry := h.registry
  edges := h.edges
  classes := h.classes
  modules := h.modules
  instances := by rw [Bridge.withView, h.instances, Bridge.withView]
  wrappers := h.wrappers

theorem Quiet.withEdges (h : b.Quiet b') {edges edges' : Ownership} (he : edges' = edges) :
    Quiet { b with edges } { b' with edges := edges' } where
  registry := h.registry
  edges := he
  classes := h.classes
  modules := h.modules
  instances := h.instances
  wrappers := h.wrappers

theorem Quiet.beforeBody (h : b.Quiet b') (this : Option ObjectId) (policy : CallPolicy)
    (args : List Script.Value) :
    (b.beforeBody this policy args).Quiet (b'.beforeBody this policy args) := by
  unfold Bridge.beforeBody
  split
  · split
    next parent child _ =>
      have hedges : (b'.edges.remove parent child).2 = (b.edges.remove parent child).2 := by
        rw [h.edges]
      exact h.withEdges hedges
    · exact h
  · exact h

theorem Quiet.afterBody (h : b.Quiet b') (this : Option ObjectId) (policy : CallPolicy)
    (args : List Script.Value) :
    (b.afterBody this policy args).Quiet (b'.afterBody this policy args) := by
  unfold Bridge.afterBody
  split
  · split
    next parent child _ =>
      have hedges : (b'.edges.add parent child).2 = (b.edges.add parent child).2 := by
        rw [h.edges]
      exact h.withEdges hedges
    · exact h
  · exact h

theorem instances_beforeBody (b : Bridge) (this : Option ObjectId) (policy : CallPolicy)
    (args : List Script.Value) : (b.beforeBody this policy args).instances = b.instances := by
  unfold beforeBody
  split
  · split <;> rfl
  · rfl

/-- A call that has a view lent to it, if its arguments are converted. The edges change with its
policy, the view changes as the body says, and nothing else does. -/
theorem run_call_lending {c : Call} {o : InstanceHandle} {v : View} (ho : b.IsView o.identity v)
    {handed : List Native.Value} (hhanded : c.handed? b = .ok handed)
    {f : View → Program (View × Except BridgeError Native.Value)}
    (hbody : c.body handed = Body.lending o .view f)
    {Q : View × Except BridgeError Native.Value → Prop}
    (hf : (f v).Yields Operation.IsQuiet Q)
    (hplain : ∀ v' n, Q (v', .ok n) → n.handles = []) (nesting : Nat) :
    let before := b.beforeBody c.this c.policy c.args
    (∃ v' err, Q (v', .error err) ∧
      (before.withView o.identity v').Quiet (c.run (server nesting) b).2) ∨
    ∃ v' n, Q (v', .ok n) ∧ ((before.withView o.identity v').afterBody c.this c.policy c.args).Quiet
      (c.run (server nesting) b).2 := by
  have hbegun : (b.beforeBody c.this c.policy c.args).Quiet (c.begun b) :=
    (quiet_entered c b).beforeBody c.this c.policy c.args
  have hview : (c.begun b).IsView o.identity v := by
    rw [IsView, hbegun.instances, instances_beforeBody]
    exact ho
  obtain ⟨v', r, after, hQ, hrun, hafter⟩ := run_lending hview hf nesting
  have hleft := (hbegun.withView o.identity v').trans hafter
  rw [c.run_eq, hhanded]
  dsimp only
  rw [hbody, hrun]
  cases r with
  | error err => exact .inl ⟨v', err, hQ, hleft.trans after.quiet_closeScope⟩
  | ok n =>
    have hfinish := quiet_finish c (hplain v' n hQ) after
    exact .inr ⟨v', n, hQ, (hleft.afterBody c.this c.policy c.args).trans hfinish⟩

end Bridge

/-! ## The methods of views -/

namespace View

/-- A method that has its view lent to it and does not look at its wrapper. -/
def lending (name : String) (params : List DeclaredType) (policy : CallPolicy)
    (f : View → List Native.Value → Program (View × Except BridgeError Native.Value)) : Method :=
  ⟨name, params, policy, fun _ receiver args => Body.lending receiver .view fun v => f v args⟩

theorem hierarchy_find?_eq_some {name : String} {c : NativeClass}
    (h : hierarchy.find? name = some c) : name = className ∧ c = nativeClass := by
  have hentry : (name, c) ∈ [(className, nativeClass)] := (Table.mem_entries_iff _ _ _).2 h
  simpa using hentry

theorem mem_methods {name : String} {m : Method} (h : nativeClass.methods.find? name = some m) :
    m ∈ [
      lending "addChildView" [.object className] (.retain 0) (changeWith .object addChild),
      lending "removeChildView" [.object className] (.release 0) (changeWith .object removeChild),
      lending "addEventListener" [.function] (.weakCallback 0)
        (changeWith .weak fun v h => { v with listeners := v.listeners ++ [h] }),
      lending "doNothingWithView" [.object className] .none fun v _ => return (v, .ok .undefined),
      lending "dispatchEvent" [.any] .none dispatch] := by
  have hvalue : m ∈ nativeClass.methods.values := (Table.mem_values_iff _ _).2 ⟨name, h⟩
  exact hvalue

theorem retainsObjects_nativeClass : nativeClass.RetainsObjects := by
  intro name m index hm hpolicy
  have hmem := mem_methods hm
  simp only [List.mem_cons, List.not_mem_nil, or_false] at hmem
  obtain rfl | rfl | rfl | rfl | rfl := hmem
  · obtain rfl := CallPolicy.retain.inj hpolicy
    exact ⟨className, .inl rfl⟩
  all_goals cases hpolicy

/-- What a method call makes of the view: it adds the child whose wrapper is the argument, or
removes it, or does nothing to the children. -/
inductive Change (b : Bridge) (args : List Script.Value) :
    CallPolicy → (View → View × Except BridgeError Native.Value → Prop) → Prop where
  | adds {w : ObjectId} {child : InstanceHandle} : args[0]? = some (.wrapper w) →
      b.registry.native? w = some child →
        Change b args (.retain 0) fun v p => p = (v.addChild child, .ok .undefined)
  | removes {w : ObjectId} {child : InstanceHandle} : args[0]? = some (.wrapper w) →
      b.registry.native? w = some child →
        Change b args (.release 0) fun v p => p = (v.removeChild child, .ok .undefined)
  | keeps {policy : CallPolicy} : policy = .none ∨ policy = .weakCallback 0 →
      Change b args policy fun v p =>
        p.1.children = v.children ∧ ∀ n, p.2 = .ok n → n.handles = []

theorem Change.handles {b : Bridge} {args : List Script.Value} {policy : CallPolicy}
    {Q : View → View × Except BridgeError Native.Value → Prop} (h : Change b args policy Q)
    {v v' : View} {n : Native.Value} (hQ : Q v (v', .ok n)) : n.handles = [] := by
  cases h with
  | keeps => exact hQ.2 n rfl
  | _ =>
    obtain ⟨-, hn⟩ := Prod.mk.inj hQ
    obtain rfl := Except.ok.inj hn
    rfl

end View

namespace Bridge

variable {b b' : Bridge}

theorem handed?_eq_ok {c : Call} {t : DeclaredType} {handed : List Native.Value}
    (hparams : c.params = [t]) (h : c.handed? b = .ok handed) :
    ∃ n, (c.entered b).fromScript (c.args[0]?.getD .undefined) t 0 = .ok n ∧
      handed = c.policy.hand [n] := by
  obtain ⟨converted, hconverted, rfl⟩ := map_eq_ok_iff.1 h
  rw [hparams] at hconverted
  simp only [convertArguments, bind_eq_ok_iff, pure_eq_ok_iff] at hconverted
  obtain ⟨n, hn, rest, rfl, rfl⟩ := hconverted
  exact ⟨n, hn, rfl⟩

/-- An argument that is converted as an object is a wrapper. -/
theorem wrapper_of_fromScript_object {args : List Script.Value} {className : String} {k : Nat}
    {n : Native.Value}
    (h : b.fromScript (args[k]?.getD .undefined) (.object className) k = .ok n) :
    ∃ w child, args[k]? = some (.wrapper w) ∧ b.registry.native? w = some child ∧
      n = .object child := by
  obtain ⟨-, child, hchild, -, rfl⟩ := fromScriptAt_object_iff.1 h
  cases harg : args[k]? with
  | none =>
    rw [harg] at hchild
    cases hchild
  | some v =>
    rw [harg] at hchild
    cases v with
    | wrapper w => exact ⟨w, child, rfl, (nativeOf_eq_some_iff.1 hchild).2, rfl⟩
    | _ => cases hchild

end Bridge

namespace View

theorem exists_change {b : Bridge} {name : String} {m : Method}
    (hm : hierarchy.method? className name = some m) {this : Option ObjectId}
    {args : List Script.Value} {body : List Native.Value → Body Native.Value}
    {handed : List Native.Value}
    (hhanded : (⟨this, m.params, m.policy, args, body⟩ : Call).handed? b = .ok handed) :
    ∃ (f : View → List Native.Value → Program (View × Except BridgeError Native.Value)) (Q : _),
      (∀ this o args, m.body this o args = Body.lending o .view fun v => f v args) ∧
      Change b args m.policy Q ∧ ∀ v, (f v handed).Yields Operation.IsQuiet (Q v) := by
  obtain ⟨_, c, hc, hm⟩ := Hierarchy.exists_of_findSome?_ancestry hm
  obtain ⟨-, rfl⟩ := hierarchy_find?_eq_some hc
  have hmem := mem_methods hm
  simp only [List.mem_cons, List.not_mem_nil, or_false] at hmem
  obtain rfl | rfl | rfl | rfl | rfl := hmem
  -- The first two get a child, and the three after them let the children be.
  · obtain ⟨n, hn, rfl⟩ := Bridge.handed?_eq_ok rfl hhanded
    obtain ⟨w, child, harg, hchild, rfl⟩ := Bridge.wrapper_of_fromScript_object hn
    exact ⟨_, _, fun _ _ _ => rfl, .adds harg hchild, fun v => rfl⟩
  · obtain ⟨n, hn, rfl⟩ := Bridge.handed?_eq_ok rfl hhanded
    obtain ⟨w, child, harg, hchild, rfl⟩ := Bridge.wrapper_of_fromScript_object hn
    exact ⟨_, _, fun _ _ _ => rfl, .removes harg hchild, fun v => rfl⟩
  · refine ⟨_, _, fun _ _ _ => rfl, .keeps (.inr rfl), fun v => ?_⟩
    refine (yields_changeWith _ _ v handed).mono (fun _ => id) ?_
    rintro _ (⟨a, -, rfl⟩ | ⟨err, -, rfl⟩)
    · exact ⟨rfl, fun n hn => by obtain rfl := Except.ok.inj hn; rfl⟩
    · exact ⟨rfl, fun n hn => by cases hn⟩
  · refine ⟨_, _, fun _ _ _ => rfl, .keeps (.inl rfl), fun v => ⟨rfl, fun n hn => ?_⟩⟩
    obtain rfl := Except.ok.inj hn
    rfl
  · obtain ⟨n, hn, rfl⟩ := Bridge.handed?_eq_ok rfl hhanded
    obtain ⟨-, rfl⟩ := Bridge.fromScriptAt_any_iff.1 hn
    exact ⟨dispatch, _, fun _ _ _ => rfl, .keeps (.inl rfl), fun v => yields_dispatch v rfl⟩

end View

namespace Bridge

variable {b b' : Bridge}

/-! ## Calls -/

theorem Quiet.knows {edges : Ownership} {i : InstanceId} {v : View} {o : InstanceHandle}
    (hq : Quiet { b.withView i v with edges } b') (ho : b.Knows o) : b'.Knows o := by
  refine ho.of_length (Nat.le_of_eq ?_)
  rw [hq.instances]
  exact (List.length_modify ..).symm

theorem policyEdge?_eq_some {args : List Script.Value} {index : Nat} {this w : ObjectId}
    (harg : args[index]? = some (.wrapper w)) :
    policyEdge? (some this) args index = some (this, w) := by
  simp [policyEdge?, wrapperArgument?, harg]

/-- **A method of a view leaves children and edges in step.** -/
theorem Aligned.callMethod (h : b.Aligned) (htidy : b.Tidy) {receiver : Script.Value}
    {name : String} {args : List Script.Value} {c : Call}
    (hc : b.methodCall? receiver name args = some c) (nesting : Nat) :
    b.Advances (c.run (server nesting) b).2 := by
  obtain ⟨this, o, m, hreceiver, hm, rfl⟩ := b.methodCall?_eq_some hc
  obtain ⟨-, -, hp⟩ := receiver_eq_ok hreceiver
  have ho := h.natives this o hp
  obtain ⟨v, hv⟩ := ho.exists_view h.views
  rw [h.classes, ho.1] at hm
  cases hhanded : (⟨some this, m.params, m.policy, args, m.body this o⟩ : Call).handed? b with
  | error err =>
    rw [Call.run_eq, hhanded]
    exact ((quiet_entered _ b).trans (quiet_closeScope _)).advances h
  | ok handed =>
    obtain ⟨f, Q, hbody, hchange, hf⟩ := View.exists_change hm hhanded
    have hrun := run_call_lending hv hhanded (hbody this o handed) (hf v)
      (fun v' n => hchange.handles) nesting
    -- What became of the call is in `hrun`; the policy decides which edges it changed.
    generalize Call.run _ (server nesting) b = final at hrun ⊢
    clear hhanded
    dsimp only at hrun
    generalize m.policy = policy at hrun hchange
    cases hchange with
    | @adds w child harg hchild =>
      simp only [beforeBody, Bridge.afterBody, policyEdge?_eq_some harg] at hrun
      obtain ⟨v', err, hQ, -⟩ | ⟨v', n, hQ, hquiet⟩ := hrun
      · cases hQ
      · obtain ⟨rfl, -⟩ := Prod.mk.inj hQ
        exact ⟨h.addChild htidy hp hv hchild hquiet, fun _ => hquiet.knows⟩
    | @removes w child harg hchild =>
      simp only [Bridge.beforeBody, afterBody, policyEdge?_eq_some harg] at hrun
      obtain ⟨v', err, hQ, -⟩ | ⟨v', n, hQ, hquiet⟩ := hrun
      · cases hQ
      · obtain ⟨rfl, -⟩ := Prod.mk.inj hQ
        exact ⟨h.removeChild htidy hp hv hchild hquiet, fun _ => hquiet.knows⟩
    | keeps hpolicy =>
      have hedges : ∀ x : Bridge, x.beforeBody (some this) policy args = x ∧
          x.afterBody (some this) policy args = x := by
        intro x
        obtain hnone | hweak := hpolicy
        · simp only [Bridge.beforeBody, Bridge.afterBody, hnone, and_self]
        · simp only [Bridge.beforeBody, Bridge.afterBody, hweak, and_self]
      simp only [(hedges _).1, (hedges _).2] at hrun
      obtain ⟨v', err, hQ, hquiet⟩ | ⟨v', n, hQ, hquiet⟩ := hrun
      · exact ⟨h.sameChildren htidy hp hv hQ.1 hquiet, fun _ => hquiet.knows⟩
      · exact ⟨h.sameChildren htidy hp hv hQ.1 hquiet, fun _ => hquiet.knows⟩

/-- A new view, and its wrapper. -/
theorem run_constructCall (h : b.Aligned) {className : String} {args : List Script.Value}
    {c : Call} (hc : b.constructCall? className args = some c) (nesting : Nat) :
    ∃ made o, (c.entered b).create View.className .view = (o, made) ∧
      (c.run (server nesting) b).2 =
        (made.wrap o).2.closeScope.pin (.wrapper (made.wrap o).1) := by
  simp only [constructCall?, Option.bind_eq_bind, Option.bind_eq_some_iff] at hc
  obtain ⟨d, hd, ctor, hctor, hc⟩ := hc
  rw [h.classes] at hd
  obtain ⟨rfl, rfl⟩ := View.hierarchy_find?_eq_some hd
  obtain rfl := Option.some.inj hctor
  obtain rfl := Option.some.inj hc
  refine ⟨_, _, rfl, ?_⟩
  rw [Call.run_eq]
  cases nesting <;> rfl

theorem Aligned.construct (h : b.Aligned) (hw : b.engine.heap.WellFormed) (htidy : b.Tidy)
    {className : String} {args : List Script.Value} {c : Call}
    (hc : b.constructCall? className args = some c) (nesting : Nat)
    (ha : (c.run (server nesting) b).2.engine.heap.Addressable) :
    b.Advances (c.run (server nesting) b).2 := by
  obtain ⟨made, o, hmade, hrun⟩ := run_constructCall h hc nesting
  rw [hrun] at ha ⊢
  have hcreated : made = ((c.entered b).create View.className .view).2 := by rw [hmade]
  have hentered := (quiet_entered c b).advances h
  have hstart : b.Advances made ∧ made.Knows o := by
    obtain ⟨hadvances, hknown⟩ := hentered.1.create
    rw [hmade] at hadvances hknown
    exact ⟨hentered.trans hadvances, hknown⟩
  have hkeeps : b.Keeps made := by
    rw [hcreated]
    exact (keeps_entered c b).trans (keeps_note _ _ _ _ _)
  have hwm : made.engine.heap.WellFormed := hkeeps.1.wellFormed hw
  have hwrapped : (made.wrap o).2.engine.heap.Addressable := by
    rw [← heap_closeScope]
    exact ha
  have hmadeTidy : made.Tidy :=
    (hkeeps.2 (hwrapped.of_grows ((made.keeps_wrap o).1.grows hwm)) hw htidy).1
  have hwrap := hstart.1.1.wrap hwm hmadeTidy hstart.2 hwrapped
  have hquiet := (made.wrap o).2.quiet_closeScope.trans (quiet_pin _ (.wrapper (made.wrap o).1))
  exact (hstart.1.trans hwrap).trans (hquiet.advances hwrap.1)

theorem Aligned.callFunction (h : b.Aligned) {moduleName name : String}
    {args : List Script.Value} {c : Call} (hc : b.functionCall? moduleName name args = some c)
    (nesting : Nat) : b.Advances (c.run (server nesting) b).2 := by
  simp only [functionCall?, Option.bind_eq_bind, Option.bind_eq_some_iff] at hc
  obtain ⟨m, hm, f, hf, hc⟩ := hc
  obtain rfl := Option.some.inj hc
  obtain ⟨symbol, rfl⟩ := h.modules moduleName m hm
  refine (quiet_call rfl nesting fun handed hhanded => ?_).advances h
  obtain ⟨converted, hconverted, rfl⟩ := map_eq_ok_iff.1 hhanded
  exact TypesModule.yields_function hf hconverted

/-- **Any call leaves children and edges in step.** -/
theorem Aligned.call (h : b.Aligned) (hw : b.engine.heap.WellFormed) (htidy : b.Tidy)
    {op : Operation} {c : Call} (hc : b.call? op = some c) (nesting : Nat)
    (ha : (c.run (server nesting) b).2.engine.heap.Addressable) :
    b.Advances (c.run (server nesting) b).2 := by
  cases op with
  | construct className args => exact h.construct hw htidy hc nesting ha
  | callMethod receiver name args => exact h.callMethod htidy hc nesting
  | callFunction moduleName name args => exact h.callFunction hc nesting
  | callSymbol symbol args =>
    simp only [call?, Option.bind_eq_bind, Option.bind_eq_some_iff] at hc
    obtain ⟨r, -, hc⟩ := hc
    exact h.callFunction hc nesting
  | _ => cases hc

/-! ## What calls ask for -/

end Bridge

/-- An operation that leaves the tables of the bridge alone and calls no native body. -/
def Operation.IsMild : Operation → Prop
  | .toScript _ | .invoke .. | .isAlive _ | .create .. | .lend .. | .giveBack .. => True
  | _ => False

theorem Operation.IsQuiet.mild {op : Operation} (h : op.IsQuiet) : op.IsMild := by
  cases op with
  | toScript | invoke | isAlive => trivial
  | _ => exact h.elim

namespace Bridge

open Operation (IsMild)

variable {b : Bridge}

theorem throughout_of_mild {op : Operation} (h : op.IsMild) (nesting : Nat) (b : Bridge) :
    Throughout Orderly nesting op b := by
  have horderly : Orderly op b := by
    cases op with
    | toScript | invoke | isAlive | create | lend | giveBack => trivial
    | _ => exact h.elim
  have hcall : b.call? op = none := by
    cases op with
    | toScript | invoke | isAlive | create | lend | giveBack => rfl
    | _ => exact h.elim
  cases nesting with
  | zero => exact horderly
  | succ nesting => exact ⟨horderly, fun c hc => by cases hcall.symm.trans hc⟩

theorem yields_lending (o : InstanceHandle)
    {f : View → Program (View × Except BridgeError Native.Value)}
    (hf : ∀ v, (f v).Yields IsMild fun _ => True) :
    (Body.lending o .view f).outcome.Yields IsMild fun _ => True := by
  unfold Body.lending
  have hlend : (Body.ofProgram (Program.perform (.lend o .view))).outcome.Yields IsMild
      fun r => ∀ a, r = .ok a → True := ⟨trivial, fun _ _ _ => trivial⟩
  refine Body.yields_bind hlend (fun v _ => ?_) fun _ => trivial
  have hrun : (Body.outcome (ExceptT.lift (f v))).Yields IsMild fun r => ∀ a, r = .ok a → True :=
    (hf v).bind fun _ _ _ _ => trivial
  refine Body.yields_bind hrun (fun p _ => ?_) fun _ => trivial
  exact ⟨trivial, fun _ => trivial⟩

/-- The bodies that there are to call do nothing disorderly. -/
theorem Aligned.yields_call (h : b.Aligned) {op : Operation} {c : Call}
    (hc : b.call? op = some c) {handed : List Native.Value} (hhanded : c.handed? b = .ok handed) :
    (c.body handed).outcome.Yields IsMild fun _ => True := by
  have hfunction : ∀ {moduleName name args}, b.functionCall? moduleName name args = some c →
      (c.body handed).outcome.Yields IsMild fun _ => True := by
    intro moduleName name args hc
    simp only [functionCall?, Option.bind_eq_bind, Option.bind_eq_some_iff] at hc
    obtain ⟨m, hm, f, hf, hc⟩ := hc
    obtain rfl := Option.some.inj hc
    obtain ⟨symbol, rfl⟩ := h.modules moduleName m hm
    obtain ⟨converted, hconverted, rfl⟩ := map_eq_ok_iff.1 hhanded
    exact (TypesModule.yields_function hf hconverted).mono (fun _ => (·.mild)) fun _ _ => trivial
  cases op with
  | construct className args =>
    simp only [call?, constructCall?, Option.bind_eq_bind, Option.bind_eq_some_iff] at hc
    obtain ⟨d, hd, ctor, hctor, hc⟩ := hc
    rw [h.classes] at hd
    obtain ⟨-, rfl⟩ := View.hierarchy_find?_eq_some hd
    obtain rfl := Option.some.inj hctor
    obtain rfl := Option.some.inj hc
    exact ⟨trivial, fun _ => trivial⟩
  | callMethod receiver name args =>
    obtain ⟨this, o, m, hreceiver, hm, rfl⟩ := b.methodCall?_eq_some hc
    rw [h.classes, (h.natives this o (receiver_eq_ok hreceiver).2.2).1] at hm
    obtain ⟨f, Q, hbody, -, hf⟩ := View.exists_change hm hhanded
    dsimp only
    rw [hbody this o handed]
    exact yields_lending o fun v => (hf v).mono (fun _ => (·.mild)) fun _ _ => trivial
  | callFunction moduleName name args => exact hfunction hc
  | callSymbol symbol args =>
    simp only [call?, Option.bind_eq_bind, Option.bind_eq_some_iff] at hc
    obtain ⟨r, -, hc⟩ := hc
    exact hfunction hc
  | _ => cases hc

theorem Aligned.throughout (h : b.Aligned) {op : Operation} (ho : Orderly op b) (nesting : Nat) :
    Throughout Orderly nesting op b := by
  cases nesting with
  | zero => exact ho
  | succ nesting =>
    refine ⟨ho, fun c hc handed hhanded => ?_⟩
    exact (h.yields_call hc hhanded).along (fun op b hmild => throughout_of_mild hmild nesting b) _

end Bridge
end ScriptBridge
