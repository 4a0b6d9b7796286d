import ScriptBridge.Proofs.Bridge.Uses
import ScriptBridge.Proofs.Conversion.Reading
import ScriptBridge.Sample.Types

/-! # The bodies of the samples

What the bodies of the view class and of the module of types do, each by itself and whatever the
bridge answers.

* `Operation.IsQuiet` are the operations that they ask for. `Bridge.Quiet` says that the tables, the
  instances and the wrappers on the heap are as they were.
* `Bridge.run_lending` is a body that has a view lent to it: the view is what the body leaves, and
  all else is as it was.
* `View.yields_dispatch`, `View.yields_changeWith` and `TypesModule.yields_echo` are single bodies.
-/

namespace ScriptBridge
set_option autoImplicit false

/-- Calling a script function, looking whether an object is alive, and converting a value without
handles. -/
def Operation.IsQuiet : Operation → Prop
  | .toScript n => n.handles = []
  | .invoke .. | .isAlive _ => True
  | _ => False

namespace Bridge

variable {b b' b'' : Bridge}

/-! ## Quiet operations -/

/-- Nothing is changed but roots, the journal, and objects that are not wrappers. -/
structure Quiet (b b' : Bridge) : Prop where
  registry : b'.registry = b.registry
  edges : b'.edges = b.edges
  classes : b'.classes = b.classes
  modules : b'.modules = b.modules
  instances : b'.instances = b.instances
  wrappers : ∀ id e className, b'.engine.heap.get? id = some e → e.object = .wrapper className →
    ∃ e', b.engine.heap.get? id = some e' ∧ e'.object = .wrapper className

theorem Quiet.refl (b : Bridge) : b.Quiet b :=
  ⟨rfl, rfl, rfl, rfl, rfl, fun _ e _ he hc => ⟨e, he, hc⟩⟩

theorem Quiet.trans (h : b.Quiet b') (h' : b'.Quiet b'') : b.Quiet b'' where
  registry := h'.registry.trans h.registry
  edges := h'.edges.trans h.edges
  classes := h'.classes.trans h.classes
  modules := h'.modules.trans h.modules
  instances := h'.instances.trans h.instances
  wrappers id e className he hc := by
    obtain ⟨e', he', hc'⟩ := h'.wrappers id e className he hc
    exact h.wrappers id e' className he' hc'

theorem Quiet.of_heap (hheap : b'.engine.heap = b.engine.heap)
    (hregistry : b'.registry = b.registry) (hedges : b'.edges = b.edges) (hclasses : b'.classes = b.classes)
    (hmodules : b'.modules = b.modules) (hinstances : b'.instances = b.instances) :
    b.Quiet b' where
  registry := hregistry
  edges := hedges
  classes := hclasses
  modules := hmodules
  instances := hinstances
  wrappers id e className he hc := by
    rw [hheap] at he
    exact ⟨e, he, hc⟩

theorem quiet_closeScope (b : Bridge) : b.Quiet b.closeScope :=
  .of_heap b.heap_closeScope rfl rfl rfl rfl rfl

theorem quiet_pin (b : Bridge) (v : Script.Value) : b.Quiet (b.pin v) :=
  .of_heap rfl rfl rfl rfl rfl rfl

theorem quiet_entered (c : Call) (b : Bridge) : b.Quiet (c.entered b) :=
  .of_heap (heap_pinAll b.openScope c.args) rfl rfl rfl rfl rfl

theorem quiet_invoke (b : Bridge) (id : ObjectId) (args : List Script.Value) :
    b.Quiet (b.onEngine (·.invoke id args)).2 := by
  refine .of_heap ?_ rfl rfl rfl rfl rfl
  rw [invoke_eq]
  cases b.engine.body id with
  | error err => rfl
  | ok body =>
    have hheap := heap_pinAll b.openScope args
    rw [heap_closeScope, note, Engine.note, hheap]
    rfl

theorem toScript_of_handles_eq_nil {n : Native.Value} (hn : n.handles = []) (b : Bridge) :
    (b.toScript n).2 = b := by
  obtain ⟨done, rest, hhandles, hstate, -⟩ := n.toScript_wraps b
  rw [hn] at hhandles
  rw [hstate, (List.nil_eq_append_iff.1 hhandles).1]
  rfl

theorem quiet_server {op : Operation} (h : op.IsQuiet) (nesting : Nat) (b : Bridge) :
    b.Quiet (server nesting op b).2 := by
  cases op with
  | toScript n =>
    rw [state_server_of_none _ rfl]
    change b.Quiet (b.toScript n).2
    rw [toScript_of_handles_eq_nil h]
    exact .refl b
  | invoke id args =>
    rw [state_server_of_none _ rfl]
    exact b.quiet_invoke id args
  | isAlive id =>
    rw [state_server_of_none _ rfl]
    exact .refl b
  | _ => exact h.elim

theorem quiet_program {α : Type} {Q : α → Prop} {p : Program α}
    (h : p.Yields Operation.IsQuiet Q) (nesting : Nat) (b : Bridge) :
    Q (p.run (server nesting) b).1 ∧ b.Quiet (p.run (server nesting) b).2 :=
  h.run Quiet.refl Quiet.trans (fun _ b hop => quiet_server hop nesting b) b

/-! ## Loans -/

end Bridge

namespace Instances

theorem update_update_const (t : Instances) (i : InstanceId) (f : Instance → Instance)
    (c : Instance) : (t.update i f).update i (fun _ => c) = t.update i fun _ => c := by
  simp only [update, mk.injEq]
  refine List.ext_getElem? fun n => ?_
  simp only [List.getElem?_modify]
  by_cases hn : i.index = n
  · cases t.cells[n]? <;> simp [hn]
  · simp [hn]

end Instances

namespace Bridge

variable {b b' : Bridge}

/-- The instance is a view that is not lent out. -/
def IsView (b : Bridge) (i : InstanceId) (v : View) : Prop :=
  b.instances.get? i = some ⟨.view v, .free⟩

/-- The bridge with a view put in the place of an instance. -/
def withView (b : Bridge) (i : InstanceId) (v : View) : Bridge :=
  { b with instances := b.instances.update i fun _ => ⟨.view v, .free⟩ }

theorem open?_of_isView {o : InstanceHandle} {v : View} (ho : b.IsView o.identity v)
    (names : KindNames) : b.instances.open? names o .view = .ok (.free, v) := by
  unfold Instances.open?
  rw [show b.instances.get? o.identity = _ from ho]
  rfl

theorem take_of_isView {o : InstanceHandle} {v : View} (ho : b.IsView o.identity v)
    (names : KindNames) : b.instances.take names o .view = .ok v := by
  rw [Instances.take, open?_of_isView ho]
  rfl

theorem lend_of_isView {o : InstanceHandle} {v : View} (ho : b.IsView o.identity v) :
    b.lend o .view =
      (.ok v, { b with instances := b.instances.setLoan o .exclusive }) := by
  rw [lend, Instances.lend, take_of_isView ho]

/-- A body that has a view lent to it, by what it does with the view. -/
theorem run_lending_eq {o : InstanceHandle} {v v' : View} (ho : b.IsView o.identity v)
    {f : View → Program (View × Except BridgeError Native.Value)}
    {r : Except BridgeError Native.Value} {done : Bridge} {nesting : Nat}
    (hrun : (f v).run (server nesting) { b with instances := b.instances.setLoan o .exclusive } =
      ((v', r), done)) :
    ((Body.lending o .view f).run (server nesting)).run b = (r, done.giveBack o ⟨.view, v'⟩) := by
  change (Body.lending o .view f).outcome.run (server nesting) b = _
  have hlend : (Body.ofProgram (Program.perform (.lend o .view))).outcome.run (server nesting) b =
      (.ok v, { b with instances := b.instances.setLoan o .exclusive }) := by
    cases nesting <;> exact lend_of_isView ho
  have hgive : (Body.perform (.giveBack o ⟨.view, v'⟩)).outcome.run (server nesting) done =
      (.ok (), done.giveBack o ⟨.view, v'⟩) := by
    cases nesting <;> rfl
  unfold Body.lending
  rw [Body.run_bind, hlend]
  dsimp only
  rw [Body.run_bind, Body.run_lift, hrun]
  dsimp only
  rw [Body.run_bind, hgive]
  rfl

/-- **A body that has a view lent to it** leaves the view as it says, and all else alone. -/
theorem run_lending {o : InstanceHandle} {v : View} (ho : b.IsView o.identity v)
    {f : View → Program (View × Except BridgeError Native.Value)}
    {Q : View × Except BridgeError Native.Value → Prop}
    (hf : (f v).Yields Operation.IsQuiet Q) (nesting : Nat) : ∃ v' r after, Q (v', r) ∧
      ((Body.lending o .view f).run (server nesting)).run b = (r, after) ∧
        (b.withView o.identity v').Quiet after := by
  let lent : Bridge := { b with instances := b.instances.setLoan o .exclusive }
  obtain ⟨hQ, hquiet⟩ := quiet_program hf nesting lent
  rcases hrun : (f v).run (server nesting) lent with ⟨⟨v', r⟩, done⟩
  rw [hrun] at hQ hquiet
  refine ⟨v', r, done.giveBack o ⟨.view, v'⟩, hQ, run_lending_eq ho hrun, ?_⟩
  have hinstances : done.instances.giveBack o ⟨.view, v'⟩ =
      b.instances.update o.identity fun _ => ⟨.view v', .free⟩ := by
    rw [hquiet.instances]
    exact b.instances.update_update_const o.identity _ _
  exact ⟨hquiet.registry, hquiet.edges, hquiet.classes, hquiet.modules, hinstances,
    hquiet.wrappers⟩

/-! ## Calls without a trace -/

theorem quiet_finish (c : Call) {n : Native.Value} (hn : n.handles = []) (after : Bridge) :
    (after.afterBody c.this c.policy c.args).Quiet (c.finish n after).2 := by
  have hstate := toScript_of_handles_eq_nil hn (after.afterBody c.this c.policy c.args)
  unfold Call.finish
  generalize (after.afterBody c.this c.policy c.args).toScript n = result at hstate ⊢
  obtain ⟨err | v, final⟩ := result
  · rw [← hstate]
    exact final.quiet_closeScope
  · rw [← hstate]
    exact final.quiet_closeScope.trans (quiet_pin _ v)

/-- A call without a policy, of a body that asks for quiet operations and ends with no handle. -/
theorem quiet_call {c : Call} (hpolicy : c.policy = .none) (nesting : Nat)
    (hbody : ∀ handed, c.handed? b = .ok handed →
      (c.body handed).outcome.Yields Operation.IsQuiet fun r => ∀ n, r = .ok n → n.handles = []) :
    b.Quiet (c.run (server nesting) b).2 := by
  have hentered := quiet_entered c b
  have hbegun : c.begun b = c.entered b := by
    simp only [Call.begun, beforeBody, hpolicy]
  rw [c.run_eq, hbegun]
  cases hhanded : c.handed? b with
  | error err => exact hentered.trans (quiet_closeScope _)
  | ok handed =>
    have hrun := quiet_program (hbody handed hhanded) nesting (c.entered b)
    change (∀ n, (((c.body handed).run (server nesting)).run (c.entered b)).1 = .ok n →
      n.handles = []) ∧ (c.entered b).Quiet
        (((c.body handed).run (server nesting)).run (c.entered b)).2 at hrun
    dsimp only
    generalize ((c.body handed).run (server nesting)).run (c.entered b) = result at hrun ⊢
    obtain ⟨err | n, after⟩ := result
    · exact (hentered.trans hrun.2).trans after.quiet_closeScope
    · have hafter : after.afterBody c.this c.policy c.args = after := by
        simp only [afterBody, hpolicy]
      have hfinish := quiet_finish c (hrun.1 n rfl) after
      rw [hafter] at hfinish
      exact (hentered.trans hrun.2).trans hfinish

end Bridge

/-! ## Values without handles -/

namespace Shape

/-- No value of the shape holds a handle, keys aside. -/
def isPlain : Shape → Bool
  | object | native => false
  | option inner | list inner | set inner => inner.isPlain
  | pair first second => first.isPlain && second.isPlain
  | triple first second third => first.isPlain && second.isPlain && third.isPlain
  | map _ value => value.isPlain
  | _ => true

open Native.Value in
theorem handles_toNative {s : Shape} (hs : s.isPlain) (a : s.Carrier) :
    (s.toNative a).handles = [] := by
  have hparts : ∀ items : List Native.Value, (∀ n ∈ items, n.handles = []) →
      (leavesOfItems items).filterMap handle? = [] := by
    intro items hitems
    induction items with
    | nil => rfl
    | cons n rest ih =>
      rw [leavesOfItems, List.filterMap_append,
        ih fun n hn => hitems n (List.mem_cons_of_mem _ hn), List.append_nil]
      exact hitems n List.mem_cons_self
  induction s with
  | object | native => cases hs
  | option inner ih =>
    cases a with
    | none => rfl
    | some a => exact ih hs a
  | list inner ih | set inner ih =>
    refine hparts (a.map inner.toNative) fun n hn => ?_
    obtain ⟨x, -, rfl⟩ := List.mem_map.1 hn
    exact ih hs x
  | pair first second ih ih' =>
    obtain ⟨hfirst, hsecond⟩ := Bool.and_eq_true_iff.1 hs
    exact hparts [first.toNative a.1, second.toNative a.2] (by simp [ih hfirst, ih' hsecond])
  | triple first second third ih ih' ih'' =>
    obtain ⟨hrest, hthird⟩ := Bool.and_eq_true_iff.1 hs
    obtain ⟨hfirst, hsecond⟩ := Bool.and_eq_true_iff.1 hrest
    exact hparts [first.toNative a.1, second.toNative a.2.1, third.toNative a.2.2]
      (by simp [ih hfirst, ih' hsecond, ih'' hthird])
  | map key value ih ih' =>
    have hentries : ∀ es : List (key.Carrier × value.Carrier), (leavesOfEntries
        (es.map fun e => (key.toNative e.1, value.toNative e.2))).filterMap handle? = [] := by
      intro es
      induction es with
      | nil => rfl
      | cons e rest ihes =>
        rw [List.map_cons, leavesOfEntries, List.filterMap_append, ihes]
        exact (List.append_nil _).trans (ih' hs e.2)
    exact hentries a
  | uint64 =>
    rw [toNative]
    split <;> rfl
  | _ => rfl

end Shape

/-! ## The bodies of views -/

namespace View

open Operation (IsQuiet)

theorem yields_changeWith (s : Shape) (change : View → s.Carrier → View) (v : View)
    (args : List Native.Value) : (changeWith s change v args).Yields IsQuiet fun p =>
      (∃ a, s.argument args 0 = .ok a ∧ p = (change v a, .ok .undefined)) ∨
        ∃ err, s.argument args 0 = .error err ∧ p = (v, .error err) := by
  unfold changeWith
  cases harg : s.argument args 0 with
  | ok a => exact .inl ⟨a, rfl, rfl⟩
  | error err => exact .inr ⟨err, rfl, rfl⟩

theorem yields_callWeak (h : WeakHandle) {n : Native.Value} (hn : n.handles = []) :
    (Body.callWeak h [n]).outcome.Yields IsQuiet fun _ => True := by
  refine ⟨trivial, fun alive => ?_⟩
  cases alive with
  | false => trivial
  | true =>
    refine ⟨hn, fun converted => ?_⟩
    cases converted with
    | error err => trivial
    | ok v => exact ⟨trivial, fun result => by cases result <;> trivial⟩

theorem yields_notify {event : Native.Value} (hevent : event.handles = []) (count : Int64)
    (listeners : List WeakHandle) :
    (notify event count listeners).outcome.Yields IsQuiet fun _ => True := by
  induction listeners generalizing count with
  | nil => trivial
  | cons h rest ih =>
    have hcall : (Body.callWeak h [event]).outcome.Yields IsQuiet fun r => ∀ a, r = .ok a → True :=
      (yields_callWeak h hevent).mono (fun _ => id) fun _ _ _ _ => trivial
    refine Body.yields_bind hcall (fun result _ => ?_) fun _ => trivial
    cases result with
    | none => exact ih count
    | some v => exact ih (count + 1)

theorem yields_living (listeners : List WeakHandle) :
    (living listeners).Yields IsQuiet fun _ => True := by
  induction listeners with
  | nil => trivial
  | cons h rest ih => exact ⟨trivial, fun alive => ih.bind fun _ _ => trivial⟩

/-- Telling the listeners of an event changes no child. -/
theorem yields_dispatch (v : View) {args : List Native.Value}
    (hargs : (args.head?.getD .undefined).handles = []) :
    (dispatch v args).Yields IsQuiet fun p =>
      p.1.children = v.children ∧ ∀ n, p.2 = .ok n → n.handles = [] := by
  refine (yields_notify hargs 0 v.listeners).bind fun result _ => ?_
  cases result with
  | error err => exact ⟨rfl, fun n hn => by cases hn⟩
  | ok count =>
    refine (yields_living v.listeners).bind fun listeners _ => ⟨rfl, fun n hn => ?_⟩
    obtain rfl := Except.ok.inj hn
    rfl

end View

/-! ## The functions of the module of types -/

namespace TypesModule

theorem yields_echo {s : Shape} (hs : s.isPlain) (args : List Native.Value) :
    (echo s args).outcome.Yields Operation.IsQuiet fun r => ∀ n, r = .ok n → n.handles = [] := by
  have harg : (echo s args).outcome = .done ((s.argument args 0).map s.toNative) := by
    unfold echo Body.argument
    cases s.argument args 0 <;> rfl
  rw [harg]
  intro n hn
  obtain ⟨a, -, rfl⟩ := map_eq_ok_iff.1 hn
  exact Shape.handles_toNative hs a

theorem handles_of_stringOrNumber {b : Bridge} {index depth : Nat} {v : Script.Value}
    {n : Native.Value} (h : b.fromScriptAt index stringOrNumber depth v = .ok n) :
    n.handles = [] := by
  obtain ⟨-, k, t, n', rfl, ht, hn'⟩ := Bridge.fromScriptAt_variant h
  rcases List.mem_pair.1 (List.mem_of_getElem? ht) with rfl | rfl
  · obtain ⟨-, s, -, text, -, rfl⟩ := Bridge.fromScriptAt_string_iff.1 hn'
    rfl
  · obtain ⟨-, x, -, rfl⟩ := Bridge.fromScriptAt_number_iff.1 hn'
    rfl

/-- The functions of the module ask for nothing, and what they hand back holds no handle. -/
theorem yields_function {symbol : Symbol} {functionName : String} {f : ModuleFunction}
    (hf : (exports symbol).functions.find? functionName = some f) {b : Bridge}
    {args : List Script.Value} {converted : List Native.Value}
    (hconverted : b.convertArguments args 0 f.params = .ok converted) :
    (f.body converted).outcome.Yields Operation.IsQuiet fun r =>
      ∀ n, r = .ok n → n.handles = [] := by
  have hentry : (functionName, f) ∈ [
      ("passTuple", ⟨"passTuple", integers.declared?.toList, echo integers⟩),
      ("passPair", ⟨"passPair", integers.declared?.toList, echo integers⟩),
      ("passVariant", ⟨"passVariant", [stringOrNumber], last⟩),
      ("passSet", ⟨"passSet", (Shape.set .int64).declared?.toList, echo (.set .int64)⟩),
      ("passByte", ⟨"passByte", (Shape.int .u8).declared?.toList, echo (.int .u8)⟩),
      ("passMap", ⟨"passMap", (Shape.map .string .int64).declared?.toList,
        echo (.map .string .int64)⟩)] := (Table.mem_entries_iff _ _ _).2 hf
  simp only [List.mem_cons, List.not_mem_nil, or_false, Prod.mk.injEq] at hentry
  obtain ⟨-, rfl⟩ | ⟨-, rfl⟩ | ⟨-, rfl⟩ | ⟨-, rfl⟩ | ⟨-, rfl⟩ | ⟨-, rfl⟩ := hentry
  case inr.inr.inl =>
    simp only [Bridge.convertArguments, bind_eq_ok_iff, pure_eq_ok_iff] at hconverted
    obtain ⟨n, hn, rest, hrest, rfl⟩ := hconverted
    obtain rfl := hrest
    intro n' hn'
    obtain rfl := Except.ok.inj hn'
    exact handles_of_stringOrNumber hn
  all_goals exact yields_echo rfl converted

end TypesModule
end ScriptBridge
