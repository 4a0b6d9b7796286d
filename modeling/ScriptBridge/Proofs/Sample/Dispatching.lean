import ScriptBridge.Proofs.Conversion.Writing
import ScriptBridge.Proofs.Host.Scopes
import ScriptBridge.Proofs.Sample.ViewRuns
import ScriptBridge.Sample.Routine

/-! # Telling the listeners

A view tells its listeners of an event one after another, up to the first that fails. Only script
functions run meanwhile, so that whoever is alive at first is alive all along.

* `View.run_callWeak_living` and `View.run_callWeak_dead` are one listener.
* `View.run_notify_of_ok` and `View.run_notify_of_error` are all of them, by their replies.
* `Bridge.run_lent` is the call of a method that has a view lent to it and does nothing but call
  functions: only the view and the journal change.
-/

namespace ScriptBridge
set_option autoImplicit false

namespace Reply

def Succeeds (r : Reply) : Prop := ∃ v, r.result = .ok v

theorem all_succeed_or_first_fails (rs : List Reply) : (∀ r ∈ rs, r.Succeeds) ∨
    ∃ before r rest err, rs = before ++ r :: rest ∧ (∀ r ∈ before, r.Succeeds) ∧
      r.result = .error err := by
  induction rs with
  | nil => exact .inl nofun
  | cons r rest ih =>
    cases hresult : r.result with
    | error err => exact .inr ⟨[], r, rest, err, rfl, nofun, hresult⟩
    | ok v =>
      obtain hall | ⟨before, r', rest, err, rfl, hbefore, herr⟩ := ih
      · exact .inl (List.forall_mem_cons.2 ⟨⟨v, hresult⟩, hall⟩)
      · exact .inr ⟨r :: before, r', rest, err, rfl,
          List.forall_mem_cons.2 ⟨⟨v, hresult⟩, hbefore⟩, herr⟩

end Reply

namespace View

variable {b : Bridge} {h : WeakHandle} {v : Script.Value} {nesting : Nat}

/-! ## One listener -/

theorem run_callWeak_dead (hdead : b.isAlive h.id = false) (n : Native.Value) :
    (Body.callWeak h [n]).outcome.run (Bridge.server nesting) b = (.ok none, b) := by
  have halive : (Body.isAlive h.id).outcome.run (Bridge.server nesting) b = (.ok false, b) := by
    rw [← hdead]
    cases nesting <;> rfl
  unfold Body.callWeak
  rw [Body.run_bind, halive]
  rfl

/-- A living listener gets the event as its only argument. -/
theorem run_callWeak_living (hliving : b.isAlive h.id = true) :
    (Body.callWeak h [.script v]).outcome.run (Bridge.server nesting) b =
      ((b.engine.reply h.id [v]).result.map some, b.note (b.engine.reply h.id [v]).events) := by
  have halive : (Body.isAlive h.id).outcome.run (Bridge.server nesting) b = (.ok true, b) := by
    rw [← hliving]
    cases nesting <;> rfl
  have hconverted : b.toScript (.script v) = (.ok v, b) :=
    Native.Value.becomes_script (Nat.zero_le _) v
  have hargs : ([Native.Value.script v].mapM Body.toScript).outcome.run (Bridge.server nesting) b =
      (.ok [v], b) := by
    have hserve : Bridge.server nesting (.toScript (.script v)) b = (.ok v, b) := by
      cases nesting <;> exact hconverted
    have hone : (Body.toScript (.script v)).outcome.run (Bridge.server nesting) b = (.ok v, b) :=
      hserve
    change (Body.toScript (.script v) >>= fun a => pure [a] : Body _).outcome.run _ b = _
    rw [Body.run_bind, hone]
    rfl
  have hinvoke : Bridge.server nesting (.invoke h.id [v]) b =
      ((b.engine.reply h.id [v]).result, b.note (b.engine.reply h.id [v]).events) := by
    have honEngine : b.onEngine (·.invoke h.id [v]) =
        ((b.engine.reply h.id [v]).result, b.note (b.engine.reply h.id [v]).events) := by
      rw [Bridge.onEngine, Engine.invoke_eq_reply]
      rfl
    cases nesting <;> exact honEngine
  have hcall : (Body.call h.id [.script v]).outcome.run (Bridge.server nesting) b =
      ((b.engine.reply h.id [v]).result, b.note (b.engine.reply h.id [v]).events) := by
    unfold Body.call
    rw [Body.run_bind, hargs]
    exact hinvoke
  unfold Body.callWeak
  rw [Body.run_bind, halive]
  dsimp only
  rw [if_pos rfl, Body.run_bind, hcall]
  cases (b.engine.reply h.id [v]).result <;> rfl

/-! ## All listeners -/

/-- What the living ones among some listeners answer to an event. -/
def replies (b : Bridge) (v : Script.Value) (listeners : List WeakHandle) : List Reply :=
  (listeners.filter fun h => b.isAlive h.id).map fun h => b.engine.reply h.id [v]

/-- Who is alive, and what they answer, is told by the heap. -/
theorem living_congr {b' : Bridge} (hheap : b'.engine.heap = b.engine.heap)
    (listeners : List WeakHandle) : (listeners.filter fun h => b'.isAlive h.id) =
      listeners.filter fun h => b.isAlive h.id := by
  simp only [Bridge.isAlive, Engine.isAlive, hheap]

theorem replies_congr {b' : Bridge} (hheap : b'.engine.heap = b.engine.heap)
    (listeners : List WeakHandle) : replies b' v listeners = replies b v listeners := by
  simp only [replies, living_congr hheap, Engine.reply, Engine.body, hheap]

theorem replies_cons_dead (hdead : b.isAlive h.id = false) (rest : List WeakHandle) :
    replies b v (h :: rest) = replies b v rest := by
  simp [replies, hdead]

theorem replies_cons_living (hliving : b.isAlive h.id = true) (rest : List WeakHandle) :
    replies b v (h :: rest) = b.engine.reply h.id [v] :: replies b v rest := by
  simp [replies, hliving]

theorem note_nil (b : Bridge) : b.note [] = b := by
  simp [Bridge.note, Engine.note]

theorem note_note (b : Bridge) (first second : List Event) :
    (b.note first).note second = b.note (first ++ second) := by
  simp [Bridge.note, Engine.note]

/-- If no living listener fails, they are counted. -/
theorem run_notify_of_ok {listeners : List WeakHandle}
    (hok : ∀ r ∈ replies b v listeners, r.Succeeds) (count : Int64) :
    (notify (.script v) count listeners).outcome.run (Bridge.server nesting) b =
      (.ok (count + Int64.ofNat (replies b v listeners).length),
        b.note ((replies b v listeners).flatMap Reply.events)) := by
  induction listeners generalizing b count with
  | nil =>
    change (Except.ok count, b) = _
    rw [replies, List.filter_nil, List.map_nil, List.flatMap_nil, note_nil]
    simp
  | cons h rest ih =>
    rw [notify, Body.run_bind]
    cases hliving : b.isAlive h.id with
    | false =>
      rw [replies_cons_dead hliving] at hok ⊢
      rw [run_callWeak_dead hliving]
      exact ih hok count
    | true =>
      rw [replies_cons_living hliving] at hok ⊢
      obtain ⟨u, hu⟩ := hok _ List.mem_cons_self
      rw [run_callWeak_living hliving, hu]
      have hlater := ih (b := b.note (b.engine.reply h.id [v]).events)
        (fun r hr => hok r (List.mem_cons_of_mem _ hr)) (count + 1)
      refine hlater.trans ?_
      rw [note_note, List.length_cons, Nat.add_comm _ 1, Int64.ofNat_add, ← Int64.add_assoc]
      rfl

/-- The first living listener that fails is the last one called. -/
theorem run_notify_of_error {listeners : List WeakHandle} {before rest : List Reply} {r : Reply}
    {err : BridgeError} (hreplies : replies b v listeners = before ++ r :: rest)
    (hok : ∀ r ∈ before, r.Succeeds) (herr : r.result = .error err) (count : Int64) :
    (notify (.script v) count listeners).outcome.run (Bridge.server nesting) b =
      (.error err, b.note ((before ++ [r]).flatMap Reply.events)) := by
  induction listeners generalizing b before count with
  | nil => cases before <;> cases hreplies
  | cons h rest ih =>
    rw [notify, Body.run_bind]
    cases hliving : b.isAlive h.id with
    | false =>
      rw [replies_cons_dead hliving] at hreplies
      rw [run_callWeak_dead hliving]
      exact ih hreplies hok count
    | true =>
      rw [replies_cons_living hliving] at hreplies
      rw [run_callWeak_living hliving]
      cases before with
      | nil =>
        obtain ⟨rfl, -⟩ := List.cons.inj hreplies
        rw [herr]
        simp [Except.map]
      | cons first before =>
        obtain ⟨rfl, hrest⟩ := List.cons.inj hreplies
        obtain ⟨u, hu⟩ := hok _ List.mem_cons_self
        rw [hu]
        have hlater := ih (b := b.note (b.engine.reply h.id [v]).events) hrest
          (fun r hr => hok r (List.mem_cons_of_mem _ hr)) (count + 1)
        refine hlater.trans ?_
        rw [note_note]
        rfl

theorem run_living (listeners : List WeakHandle) (b : Bridge) :
    (living listeners).run (Bridge.server nesting) b =
      (listeners.filter fun h => b.isAlive h.id, b) := by
  induction listeners with
  | nil => rfl
  | cons h rest ih =>
    have halive : (Program.perform (.isAlive h.id)).run (Bridge.server nesting) b =
        (b.isAlive h.id, b) := by
      cases nesting <;> rfl
    rw [living, Program.run_bind, halive, Program.run_bind, ih, List.filter_cons]
    rfl

/-! ## An event -/

theorem run_dispatch_of_ok {view : View} (hok : ∀ r ∈ replies b v view.listeners, r.Succeeds) :
    (dispatch view [.script v]).run (Bridge.server nesting) b =
      (({ view with listeners := view.listeners.filter fun h => b.isAlive h.id },
        .ok (.integer (Int64.ofNat (replies b v view.listeners).length))),
        b.note ((replies b v view.listeners).flatMap Reply.events)) := by
  have hnotify : (notify (.script v) 0 view.listeners).outcome.run (Bridge.server nesting) b = _ :=
    run_notify_of_ok hok 0
  unfold dispatch
  rw [Program.run_bind, List.head?_cons, Option.getD_some, hnotify, Int64.zero_add]
  dsimp only
  rw [Program.run_bind, run_living]
  rfl

theorem run_dispatch_of_error {view : View} {before rest : List Reply} {r : Reply}
    {err : BridgeError} (hreplies : replies b v view.listeners = before ++ r :: rest)
    (hok : ∀ r ∈ before, r.Succeeds) (herr : r.result = .error err) :
    (dispatch view [.script v]).run (Bridge.server nesting) b =
      ((view, .error err), b.note ((before ++ [r]).flatMap Reply.events)) := by
  have hnotify : (notify (.script v) 0 view.listeners).outcome.run (Bridge.server nesting) b = _ :=
    run_notify_of_error hreplies hok herr 0
  unfold dispatch
  rw [Program.run_bind, List.head?_cons, Option.getD_some, hnotify]
  rfl

end View

namespace Bridge

variable {b : Bridge} {o : InstanceHandle} {v : View} {nesting : Nat}

/-- A call opens a scope of its own, and that is all until its body begins. -/
theorem exists_entered (c : Call) (b : Bridge) : ∃ scope, c.entered b = { b with
    engine := { b.engine with
      roots := { b.engine.roots with inner := scope :: b.engine.roots.inner } } } := by
  obtain ⟨scope, hscope⟩ := b.engine.exists_openScope_pinAll c.args
  exact ⟨scope, congrArg (fun engine => { b with engine }) hscope⟩

/-- A view that is put in its own place changes nothing. -/
theorem withView_self (hv : b.IsView o.identity v) : b.withView o.identity v = b := by
  have hcells : b.instances.cells.modify o.identity.index (fun _ => ⟨.view v, .free⟩) =
      b.instances.cells := by
    refine List.ext_getElem? fun i => ?_
    rw [List.getElem?_modify]
    by_cases hi : o.identity.index = i
    · subst hi
      rw [show b.instances.cells[o.identity.index]? = _ from hv]
      simp
    · simp [hi]
  rw [withView, Instances.update, hcells]

/-- A method without a policy that has a view lent to it, does nothing but report, and ends with a
number or a failure. -/
theorem run_lent {c : Call} (hpolicy : c.policy = .none) (hv : b.IsView o.identity v)
    {handed : List Native.Value} (hhanded : c.handed? b = .ok handed)
    {f : View → Program (View × Except BridgeError Native.Value)}
    (hbody : c.body handed = Body.lending o .view f) {v' : View} {r : Except BridgeError Int64}
    {events : List Event}
    (hrun : ∀ b' : Bridge, b'.engine.heap = b.engine.heap →
      (f v).run (server nesting) b' = ((v', r.map .integer), b'.note events)) :
    c.run (server nesting) b = (r.map .int, (b.withView o.identity v').note events) := by
  obtain ⟨scope, hscope⟩ := exists_entered c b
  have hbegun : c.begun b = c.entered b := by
    simp only [Call.begun, beforeBody, hpolicy]
  have hview : (c.entered b).IsView o.identity v := by
    rw [hscope]
    exact hv
  have hheap : (c.entered b).engine.heap = b.engine.heap := by rw [hscope]
  have hlent := run_lending_eq hview (hrun { c.entered b with
    instances := (c.entered b).instances.setLoan o .exclusive } hheap)
  have hinstances : (b.instances.setLoan o .exclusive).giveBack o ⟨.view, v'⟩ =
      b.instances.update o.identity fun _ => ⟨.view v', .free⟩ :=
    b.instances.update_update_const o.identity _ _
  rw [hscope] at hlent
  -- With the scope goes all that the call had pinned.
  have hclosed : ((({ b with
      engine := { b.engine with
        roots := { b.engine.roots with inner := scope :: b.engine.roots.inner } }
      instances := b.instances.setLoan o .exclusive } : Bridge).note events).giveBack o
        ⟨.view, v'⟩).closeScope = (b.withView o.identity v').note events := by
    unfold withView
    rw [← hinstances]
    rfl
  rw [c.run_eq, hhanded, hbegun]
  dsimp only
  rw [hbody, hscope, hlent]
  cases r with
  | error err => exact congrArg (Prod.mk _) hclosed
  | ok i =>
    have hconverted : ∀ b' : Bridge, b'.toScript (.integer i) = (.ok (.int i), b') :=
      fun b' => Native.Value.becomes_integer (Nat.zero_le _) i
    have hafter : ∀ b' : Bridge, b'.afterBody c.this c.policy c.args = b' := by
      intro b'
      simp only [afterBody, hpolicy]
    dsimp only [Except.map, Call.finish]
    rw [hafter, hconverted]
    dsimp only
    rw [hclosed]
    rfl

/-- **An event goes to the listeners that are alive**, one call for every registration and in their
order, with the event as the only argument. If none of them fails, the answer is how many there are,
and the view keeps them and forgets the others. Otherwise the first failure is the answer, nobody is
called after it, and the view stays as it is. Nothing changes besides, but that the listeners called
have reported. -/
theorem dispatch_tells_living {receiver : Script.Value} {w : ObjectId}
    (hreceiver : b.receiver receiver = .ok (w, o))
    (hmethod : b.classes.method? o.className "dispatchEvent" =
      View.nativeClass.methods.find? "dispatchEvent")
    (hv : b.IsView o.identity v) (args : List Script.Value) (nesting : Nat) :
    let event := args.head?.getD .undefined
    let living := v.listeners.filter fun h => b.isAlive h.id
    let replies := living.map fun h => b.engine.reply h.id [event]
    let call := b.callMethodBy (server nesting) receiver "dispatchEvent" args
    ((∀ r ∈ replies, r.Succeeds) ∧ call.1 = .ok (.int (Int64.ofNat living.length)) ∧
        call.2 = (b.withView o.identity { v with listeners := living }).note
          (replies.flatMap Reply.events) ∨
      ∃ before r rest err, replies = before ++ r :: rest ∧ (∀ r ∈ before, r.Succeeds) ∧
        r.result = .error err ∧ call.1 = .error err ∧
        call.2 = b.note ((before ++ [r]).flatMap Reply.events)) ∧
    call.2.edges = b.edges ∧ call.2.registry = b.registry := by
  intro event living replies call
  have hfind : View.nativeClass.methods.find? "dispatchEvent" =
    some (View.lending "dispatchEvent" [.any] .none View.dispatch) := rfl
  let c : Call := ⟨some w, [.any], .none, args, fun args =>
    Body.lending o .view fun v => View.dispatch v args⟩
  have hcall : call = c.run (server nesting) b := by
    change b.callMethodBy (server nesting) receiver "dispatchEvent" args = _
    rw [callMethodBy, hreceiver]
    dsimp only
    rw [hmethod, hfind]
    rfl
  have hhanded : c.handed? b = .ok [.script event] := by
    have hany : ∀ u, (c.entered b).fromScript u .any 0 = .ok (.script u) :=
      fun u => fromScriptAt_any_iff.2 ⟨Nat.zero_le _, rfl⟩
    change ((c.entered b).convertArguments args 0 [.any]).map CallPolicy.none.hand = _
    simp only [convertArguments, hany, event, List.head?_eq_getElem?]
    rfl
  have hrun : ∀ v' (r : Except BridgeError Int64) events,
      (∀ b' : Bridge, b'.engine.heap = b.engine.heap →
        (View.dispatch v [.script event]).run (server nesting) b' =
          ((v', r.map .integer), b'.note events)) →
      c.run (server nesting) b = (r.map .int, (b.withView o.identity v').note events) :=
    fun v' r events => run_lent rfl hv hhanded rfl
  rw [hcall]
  obtain hok | ⟨before, r, rest, err, heq, hbefore, herr⟩ := Reply.all_succeed_or_first_fails replies
  · rw [hrun _ (.ok (Int64.ofNat living.length)) (replies.flatMap Reply.events) fun b' hb' => ?_]
    · exact ⟨.inl ⟨hok, rfl, rfl⟩, rfl, rfl⟩
    · have hdispatch : (View.dispatch v [.script event]).run (server nesting) b' = _ :=
        View.run_dispatch_of_ok (by rwa [View.replies_congr hb'])
      rw [View.replies_congr hb', View.living_congr hb'] at hdispatch
      rw [hdispatch]
      simp only [View.replies, List.length_map]
      rfl
  · rw [hrun v (.error err) ((before ++ [r]).flatMap Reply.events) fun b' hb' => ?_]
    · rw [withView_self hv]
      exact ⟨.inr ⟨before, r, rest, err, heq, hbefore, herr, rfl, rfl⟩, rfl, rfl⟩
    · exact View.run_dispatch_of_error ((View.replies_congr hb' _).trans heq) hbefore herr

/-- One function listens twice. Another one listened in between and was collected, and a third one
has its slot. -/
def listenedTwice : Bridge :=
  let add (function : ObjectId) : Operation :=
    .callMethod (.wrapper ⟨0, 0⟩) "addEventListener" [.function function]
  (samples {} ⟨0, TypesModule.symbolDescription⟩).useAll [
    (1, .ask (.construct "View" [])),
    (1, .ask (.createFunction "kept" (HostRoutine.log "kept").body)), (1, .ask .openScope),
    (1, .ask (.createFunction "lost" (HostRoutine.log "lost").body)),
    (1, .ask (add ⟨1, 0⟩)), (1, .ask (add ⟨2, 0⟩)), (1, .ask (add ⟨1, 0⟩)),
    (1, .ask .closeScope), (1, .ask .collect),
    (1, .ask (.createFunction "late" (HostRoutine.fail "late").body))]

set_option maxRecDepth 2000 in
theorem dispatch_tells_living_listenedTwice :
    let receiver := Script.Value.wrapper ⟨0, 0⟩
    let kept : WeakHandle := ⟨.function, ⟨1, 0⟩⟩
    let view : View := { serial := 1, listeners := [kept, ⟨.function, ⟨2, 0⟩⟩, kept] }
    listenedTwice.receiver receiver = .ok (⟨0, 0⟩, ⟨"View", ⟨0⟩⟩) ∧
      listenedTwice.classes.method? "View" "dispatchEvent" =
        View.nativeClass.methods.find? "dispatchEvent" ∧
      listenedTwice.IsView ⟨0⟩ view ∧ listenedTwice.isAlive ⟨2, 1⟩ ∧
      let call := listenedTwice.callMethodBy (server 0) receiver "dispatchEvent" [.null]
      call.1 = .ok (.int 2) ∧ call.2 = (listenedTwice.withView ⟨0⟩
        { serial := 1, listeners := [kept, kept] }).note
          [.called "kept" ["null"], .called "kept" ["null"]] := by
  intro receiver kept view
  have hreceiver : listenedTwice.receiver receiver = .ok (⟨0, 0⟩, ⟨"View", ⟨0⟩⟩) := rfl
  have hmethod : listenedTwice.classes.method? "View" "dispatchEvent" =
    View.nativeClass.methods.find? "dispatchEvent" := rfl
  have hv : listenedTwice.IsView ⟨0⟩ view := rfl
  have hliving : (view.listeners.filter fun h => listenedTwice.isAlive h.id) = [kept, kept] := rfl
  have hreply : listenedTwice.engine.reply kept.id [.null] =
      { events := [.called "kept" ["null"]], result := .ok .undefined } := rfl
  refine ⟨hreceiver, hmethod, hv, rfl, ?_⟩
  obtain ⟨houtcome, -⟩ := dispatch_tells_living hreceiver hmethod hv [.null] 0
  simp only [List.head?_cons, Option.getD_some, hliving, List.map_cons, List.map_nil, hreply]
    at houtcome
  obtain ⟨-, hanswer, hafter⟩ | ⟨before, r, rest, err, hreplies, -, herr, -⟩ := houtcome
  · exact ⟨hanswer, hafter⟩
  · have hmem : r ∈ before ++ r :: rest := List.mem_append_right _ List.mem_cons_self
    rw [← hreplies] at hmem
    obtain rfl | rfl := List.mem_pair.1 hmem <;> cases herr

end Bridge
end ScriptBridge
