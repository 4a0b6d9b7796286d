import ScriptBridge.Proofs.Bridge.Uses
import ScriptBridge.Proofs.Conversion.Trails
import ScriptBridge.Proofs.OwnershipTable
import Mathlib.Data.List.Induction

/-! # The history of the edges

An ownership edge comes from an `EdgeEvent` and goes with one. `Bridge.history` lists the events of
a run. It is computed from what is asked for, from what calls come to and from what collections
sweep, never by looking whether the edge is there.

* An edge is added when it is asked for, and by a call that retains its argument, once the body has
  succeeded. It is removed when that is asked for, by a call that lets go of its argument, before
  the body, and with the release of an object at one of its ends.
* `Call.history` are the events of a call with those in its body between its own.
* `Bridge.tells_server` says that the events of an operation account for the edges after it, and
  `Bridge.contains_iff_addedLast` that the latest event for an edge decides.
-/

namespace ScriptBridge
set_option autoImplicit false

inductive EdgeEvent where
  /-- The edge was asked for. -/
  | added (parent child : ObjectId)
  /-- A call has made its receiver the owner of an argument. -/
  | retained (parent child : ObjectId)
  /-- The end of the edge was asked for. -/
  | removed (parent child : ObjectId)
  /-- A call has made its receiver let go of an argument. -/
  | letGo (parent child : ObjectId)
  /-- The object was released, and with it every edge that left or entered it. -/
  | released (id : ObjectId)
deriving DecidableEq, Repr

namespace EdgeEvent

def Adds (e : EdgeEvent) (p c : ObjectId) : Prop := e = .added p c ∨ e = .retained p c

def Removes (e : EdgeEvent) (p c : ObjectId) : Prop :=
  e = .removed p c ∨ e = .letGo p c ∨ e = .released p ∨ e = .released c

end EdgeEvent

/-- The edge was added, and no event after that removed it. -/
def AddedLast (p c : ObjectId) (events : List EdgeEvent) : Prop :=
  ∃ earlier e later, events = earlier ++ e :: later ∧ e.Adds p c ∧ ∀ e' ∈ later, ¬ e'.Removes p c

/-! ## Events of operations -/

namespace Bridge

/-- The wrapper that is released before an instance is wrapped: the one it had, if that is dead. -/
def stale? (b : Bridge) (o : InstanceHandle) : Option ObjectId :=
  (b.registry.wrapper? o).filter fun id => !b.isAlive id

def staleAll (b : Bridge) : List InstanceHandle → List ObjectId
  | [] => []
  | o :: rest => (b.stale? o).toList ++ (b.wrap o).2.staleAll rest

/-- The events of what a conversion wraps. -/
def trailHistory (b : Bridge) (t : Nat → Trail) : List EdgeEvent :=
  (b.staleAll (t b.options.maxDepth).handles).map .released

/-- The events of a collection until a condition holds. -/
def pursuitHistory (b : Bridge) (holds : Nat → Bridge → Bool) (asked : Nat) : Nat → List EdgeEvent
  | 0 => []
  | passes + 1 =>
    if holds asked b then []
    else b.swept.map .released ++ b.collect.2.pursuitHistory holds (asked + 1) passes

/-- The events of the loading of a module. -/
def loadHistory (b : Bridge) (m : Module) : List EdgeEvent :=
  b.openScope.trailHistory (Module.trailOf · m.values)

/-- The events of an operation that calls no native body. -/
def plainHistory (b : Bridge) : Operation → List EdgeEvent
  | .addEdge parent child => [.added parent child]
  | .removeEdge parent child => [.removed parent child]
  | .collect => b.swept.map .released
  | .collectUntil holds => b.pursuitHistory (seenBy holds) 0 b.options.maxPasses
  | .loadModule name captured => b.loadHistory (b.options.nativeModule name captured)
  | .wrap o => (b.stale? o).toList.map .released
  | .toScript v => b.trailHistory v.trail
  | .getProperty v name => match b.holder v name with
    | .ok (_, some (o, a)) => match b.read o a.kind with
      | .ok content => b.trailHistory (a.get content).trail
      | .error _ => []
    | _ => []
  | _ => []

end Bridge

/-- The events of a program one operation after another, those of each by `inside`. -/
def Program.history {α : Type} (serve : Server) (inside : Operation → Bridge → List EdgeEvent) :
    Program α → Bridge → List EdgeEvent
  | .done _, _ => []
  | .ask op next, b =>
    inside op b ++ (next (serve op b).1).history serve inside (serve op b).2

namespace Call

/-- What the policy does before the body. -/
def lettingGo (c : Call) : List EdgeEvent :=
  match c.policy with
  | .release index =>
    (Bridge.policyEdge? c.this c.args index).toList.map fun e => .letGo e.1 e.2
  | _ => []

/-- What the policy does after a body that succeeded. -/
def retaining (c : Call) : List EdgeEvent :=
  match c.policy with
  | .retain index =>
    (Bridge.policyEdge? c.this c.args index).toList.map fun e => .retained e.1 e.2
  | _ => []

/-- The events of a call: none if an argument is not converted. -/
def history (c : Call) (serve : Server) (inside : Operation → Bridge → List EdgeEvent)
    (b : Bridge) : List EdgeEvent :=
  match c.handed? b with
  | .error _ => []
  | .ok handed =>
    c.lettingGo ++ (c.body handed).outcome.history serve inside (c.begun b) ++
      match ((c.body handed).run serve).run (c.begun b) with
      | (.error _, _) => []
      | (.ok n, after) =>
        c.retaining ++ (after.afterBody c.this c.policy c.args).trailHistory n.trail

end Call

namespace Bridge

/-- The events of an operation, calls of native bodies nested at most so deep. -/
def operationHistory : Nat → Operation → Bridge → List EdgeEvent
  | 0, op, b => b.plainHistory op
  | nesting + 1, op, b => match b.call? op with
    | some c => c.history (server nesting) (operationHistory nesting) b
    | none => b.plainHistory op

def useHistory (b : Bridge) (nesting : Nat) : Use → List EdgeEvent
  | .ask op => operationHistory nesting op b
  | .loadModule m => b.loadHistory m
  | .collectUntil holds => b.pursuitHistory holds 0 b.options.maxPasses
  | _ => []

/-- The events of a run, the oldest first. -/
def history (b : Bridge) : List (Nat × Use) → List EdgeEvent
  | [] => []
  | (nesting, u) :: rest => b.useHistory nesting u ++ (b.use nesting u).history rest

end Bridge

/-! ## Events and edges -/

/-- Whether an edge is there after some events, when `before` says whether it was there. -/
def EdgeEvent.after (p c : ObjectId) (before : Prop) (events : List EdgeEvent) : Prop :=
  events.foldl (fun present e => e.Adds p c ∨ present ∧ ¬ e.Removes p c) before

/-- The events account for what became of the edges. -/
def Tells (events : List EdgeEvent) (t t' : Ownership) : Prop :=
  t.Mirrored → t'.Mirrored ∧
    ∀ p c, t'.contains p c ↔ EdgeEvent.after p c (t.contains p c) events

namespace EdgeEvent

variable {p c : ObjectId} {before : Prop} {events events' : List EdgeEvent}

theorem after_append : after p c before (events ++ events') =
    after p c (after p c before events) events' := List.foldl_append

theorem addedLast_concat {e : EdgeEvent} : AddedLast p c (events ++ [e]) ↔
    e.Adds p c ∨ AddedLast p c events ∧ ¬ e.Removes p c := by
  constructor
  · rintro ⟨earlier, e', later, heq, hadds, hlater⟩
    rcases List.eq_nil_or_concat later with rfl | ⟨later, last, rfl⟩
    · obtain ⟨-, heq⟩ := List.append_inj' heq rfl
      obtain rfl := List.singleton_inj.1 heq
      exact .inl hadds
    · rw [List.concat_eq_append] at heq hlater
      have hsplit : events ++ [e] = (earlier ++ e' :: later) ++ [last] := by
        rw [heq, List.append_assoc, List.cons_append]
      obtain ⟨rfl, hlast⟩ := List.append_inj' hsplit rfl
      obtain rfl := List.singleton_inj.1 hlast
      have hrest : ∀ x ∈ later, ¬ x.Removes p c := fun x hx =>
        hlater x (List.mem_append_left _ hx)
      exact .inr ⟨⟨earlier, e', later, rfl, hadds, hrest⟩, hlater e (by simp)⟩
  · rintro (hadds | ⟨⟨earlier, e', later, rfl, hadds, hlater⟩, hnot⟩)
    · exact ⟨events, e, [], rfl, hadds, fun _ h => absurd h List.not_mem_nil⟩
    · refine ⟨earlier, e', later ++ [e], by simp, hadds, fun x hx => ?_⟩
      rcases List.mem_append.1 hx with hx | hx
      · exact hlater x hx
      · obtain rfl := List.mem_singleton.1 hx
        exact hnot

theorem after_iff : after p c before events ↔
    AddedLast p c events ∨ before ∧ ∀ e ∈ events, ¬ e.Removes p c := by
  -- From the end: the last event adds the edge, removes it, or leaves it to those before.
  induction events using List.reverseRecOn with
  | nil => simp [after, AddedLast]
  | append_singleton events e ih =>
    have hlast : after p c before (events ++ [e]) ↔
        e.Adds p c ∨ after p c before events ∧ ¬ e.Removes p c := by
      rw [after_append]
      rfl
    rw [hlast, ih, addedLast_concat]
    simp only [List.mem_append, List.mem_singleton]
    grind

theorem after_released (l : List ObjectId) :
    after p c before (l.map .released) ↔ before ∧ p ∉ l ∧ c ∉ l := by
  induction l generalizing before with
  | nil => simp [after]
  | cons id rest ih =>
    have hfirst : after p c before ((id :: rest).map .released) =
      after p c (EdgeEvent.Adds (.released id) p c ∨
        before ∧ ¬ EdgeEvent.Removes (.released id) p c) (rest.map .released) := rfl
    rw [hfirst, ih]
    simp only [Adds, Removes, reduceCtorEq, released.injEq, List.mem_cons]
    grind

end EdgeEvent

namespace Tells

variable {events events' : List EdgeEvent} {t t' t'' : Ownership}

theorem refl (t : Ownership) : Tells [] t t := fun h => ⟨h, fun _ _ => Iff.rfl⟩

theorem of_eq (h : t' = t) : Tells [] t t' := h ▸ refl t

theorem trans (h : Tells events t t') (h' : Tells events' t' t'') :
    Tells (events ++ events') t t'' := by
  intro hm
  obtain ⟨hm', hfirst⟩ := h hm
  obtain ⟨hm'', hsecond⟩ := h' hm'
  refine ⟨hm'', fun p c => ?_⟩
  rw [hsecond, propext (hfirst p c), ← EdgeEvent.after_append]

theorem add (t : Ownership) (p c : ObjectId) {e : EdgeEvent} (he : ∀ p' c',
    (e.Adds p' c' ↔ p' = p ∧ c' = c) ∧ ¬ e.Removes p' c') : Tells [e] t (t.add p c).2 := by
  intro hm
  refine ⟨hm.add p c, fun p' c' => ?_⟩
  obtain ⟨hadds, hnot⟩ := he p' c'
  have hafter : EdgeEvent.after p' c' (t.contains p' c') [e] ↔
      e.Adds p' c' ∨ t.contains p' c' ∧ ¬ e.Removes p' c' := Iff.rfl
  rw [hafter, hadds, Ownership.contains_add_iff]
  simp [hnot]

theorem remove (t : Ownership) (p c : ObjectId) {e : EdgeEvent} (he : ∀ p' c',
    (e.Removes p' c' ↔ p' = p ∧ c' = c) ∧ ¬ e.Adds p' c') : Tells [e] t (t.remove p c).2 := by
  intro hm
  refine ⟨hm.remove p c, fun p' c' => ?_⟩
  obtain ⟨hremoves, hnot⟩ := he p' c'
  have hafter : EdgeEvent.after p' c' (t.contains p' c') [e] ↔
      e.Adds p' c' ∨ t.contains p' c' ∧ ¬ e.Removes p' c' := Iff.rfl
  rw [hafter, hremoves, Ownership.contains_remove_iff hm]
  simp [hnot, and_comm]

theorem released (t : Ownership) (id : ObjectId) : Tells [.released id] t (t.without id) := by
  intro hm
  refine ⟨hm.without id, fun p c => ?_⟩
  rw [Ownership.contains_without_iff hm]
  refine Iff.trans ?_ (EdgeEvent.after_released [id]).symm
  simp only [List.mem_singleton]
  grind

end Tells

/-! ## What operations do to the edges -/

namespace Bridge

theorem tells_releaseAll (l : List ObjectId) (report : CollectionReport) (b : Bridge) :
    Tells (l.map .released) b.edges (b.releaseAll report l).2.edges := by
  induction l generalizing report b with
  | nil => exact .refl _
  | cons id rest ih =>
    have hfirst : Tells [.released id] b.edges (b.release [] id).2.edges := by
      rw [edges_release]
      exact .released _ id
    exact hfirst.trans (ih _ (b.release [] id).2)

theorem tells_collect (b : Bridge) : Tells (b.swept.map .released) b.edges b.collect.2.edges := by
  rw [collect_eq]
  exact tells_releaseAll b.swept _ (b.onEngine (·.collect b.retention)).2

theorem tells_pursue (holds : Nat → Bridge → Bool) (passes asked : Nat) (b : Bridge) :
    Tells (b.pursuitHistory holds asked passes) b.edges (b.pursue holds asked passes).2.edges := by
  induction passes generalizing asked b with
  | zero => exact .refl _
  | succ passes ih =>
    rw [pursue, pursuitHistory]
    split
    · exact .refl _
    · exact b.tells_collect.trans (ih _ _)

theorem tells_wrap (b : Bridge) (o : InstanceHandle) :
    Tells ((b.stale? o).toList.map .released) b.edges (b.wrap o).2.edges := by
  unfold wrap stale?
  cases b.registry.wrapper? o with
  | none => exact .refl _
  | some id =>
    cases halive : b.isAlive id with
    | true =>
      simp only [Option.filter_some, halive]
      exact .refl _
    | false =>
      simp only [Option.filter_some, halive]
      have hrelease : ((b.release [o.identity] id).2.wrapFresh o).2.edges = b.edges.without id :=
        b.edges_release [o.identity] id
      dsimp
      rw [hrelease]
      exact .released _ id

theorem tells_wrapAll (os : List InstanceHandle) (b : Bridge) :
    Tells ((b.staleAll os).map .released) b.edges (b.wrapAll os).2.edges := by
  induction os generalizing b with
  | nil => exact .refl _
  | cons o rest ih =>
    rw [staleAll, List.map_append]
    exact (b.tells_wrap o).trans (ih (b.wrap o).2)

theorem tells_follows {α : Type} {x : Action α} {t : Nat → Trail} (hx : x.Follows t)
    (b : Bridge) : Tells (b.trailHistory t) b.edges (x.run b).2.edges := by
  rw [(hx b).1]
  exact tells_wrapAll _ b

theorem tells_toScript (b : Bridge) (v : Native.Value) :
    Tells (b.trailHistory v.trail) b.edges (b.toScript v).2.edges :=
  tells_follows (Native.Value.toScript_follows v) b

theorem tells_getProperty (b : Bridge) (v : Script.Value) (name : String) :
    Tells (b.plainHistory (.getProperty v name)) b.edges (b.getProperty v name).2.edges := by
  simp only [getProperty, plainHistory]
  cases b.holder v name with
  | error err => exact .refl _
  | ok r =>
    rcases r with ⟨id, _ | ⟨o, a⟩⟩
    · dsimp only
      split <;> exact .refl _
    · dsimp only
      cases b.read o a.kind with
      | error err => exact .refl _
      | ok content => exact b.tells_toScript _

theorem edges_setProperty (b : Bridge) (receiver : Script.Value) (name : String)
    (v : Script.Value) : (b.setProperty receiver name v).2.edges = b.edges := by
  unfold setProperty assign
  repeat' split
  all_goals rfl

theorem edges_callScript (b : Bridge) (function : Script.Value) (args : List Script.Value) :
    (b.callScript function args).2.edges = b.edges := by
  unfold callScript
  split <;> rfl

theorem edges_defineClass (b : Bridge) (c : NativeClass) :
    (b.defineClass c).2.edges = b.edges := by
  unfold defineClass
  split <;> rfl

theorem tells_loadModule (b : Bridge) (m : Module) :
    Tells (b.loadHistory m) b.edges (b.loadModule m).2.edges := by
  have hconverted := tells_follows (convertExports_follows m.values) b.openScope
  simp only [loadModule, withScope]
  generalize (convertExports m.values).run b.openScope = result at hconverted ⊢
  obtain ⟨err | entries, after⟩ := result
  · exact hconverted
  · exact hconverted

/-- The events of an operation that calls no native body account for the edges after it. -/
theorem tells_answer (op : Operation) (b : Bridge) :
    Tells (b.plainHistory op) b.edges (answer none op b).2.edges := by
  cases op with
  | addEdge parent child =>
    exact .add _ parent child fun p c => by
      simp [EdgeEvent.Adds, EdgeEvent.Removes, eq_comm]
  | removeEdge parent child =>
    exact .remove _ parent child fun p c => by
      simp [EdgeEvent.Adds, EdgeEvent.Removes, eq_comm]
  | collect => exact b.tells_collect
  | collectUntil holds => exact tells_pursue (seenBy holds) _ 0 b
  | defineClass name captured => exact .of_eq (b.edges_defineClass _)
  | loadModule name captured => exact b.tells_loadModule _
  | wrap o => exact b.tells_wrap o
  | toScript v => exact b.tells_toScript v
  | getProperty v name => exact b.tells_getProperty v name
  | setProperty receiver name v => exact .of_eq (b.edges_setProperty receiver name v)
  | callScript function args => exact .of_eq (b.edges_callScript function args)
  | _ => exact .refl _

/-! ## Calls -/

theorem tells_program {α : Type} {serve : Server} {inside : Operation → Bridge → List EdgeEvent}
    (hserve : ∀ op b, Tells (inside op b) b.edges (serve op b).2.edges) (p : Program α)
    (b : Bridge) : Tells (p.history serve inside b) b.edges (p.run serve b).2.edges := by
  induction p generalizing b with
  | done a => exact .refl _
  | ask op next ih => exact (hserve op b).trans (ih _ _)

theorem tells_beforeBody (c : Call) (b : Bridge) :
    Tells c.lettingGo b.edges (b.beforeBody c.this c.policy c.args).edges := by
  unfold beforeBody Call.lettingGo
  cases c.policy with
  | release index =>
    dsimp only
    rcases policyEdge? c.this c.args index with _ | ⟨parent, child⟩
    · exact .refl _
    · exact .remove (e := .letGo parent child) _ parent child fun p c => by
        simp [EdgeEvent.Adds, EdgeEvent.Removes, eq_comm]
  | _ => exact .refl _

theorem tells_afterBody (c : Call) (b : Bridge) :
    Tells c.retaining b.edges (b.afterBody c.this c.policy c.args).edges := by
  unfold afterBody Call.retaining
  cases c.policy with
  | retain index =>
    dsimp only
    rcases policyEdge? c.this c.args index with _ | ⟨parent, child⟩
    · exact .refl _
    · exact .add (e := .retained parent child) _ parent child fun p c => by
        simp [EdgeEvent.Adds, EdgeEvent.Removes, eq_comm]
  | _ => exact .refl _

theorem tells_begun (c : Call) (b : Bridge) : Tells c.lettingGo b.edges (c.begun b).edges :=
  tells_beforeBody c (c.entered b)

theorem tells_finish (c : Call) (n : Native.Value) (after : Bridge) :
    Tells (c.retaining ++ (after.afterBody c.this c.policy c.args).trailHistory n.trail)
      after.edges (c.finish n after).2.edges := by
  have hconverted := (tells_afterBody c after).trans
    ((after.afterBody c.this c.policy c.args).tells_toScript n)
  unfold Call.finish
  split
  next hrun =>
    rw [hrun] at hconverted
    exact hconverted
  next hrun =>
    rw [hrun] at hconverted
    exact hconverted

theorem tells_call (c : Call) {serve : Server} {inside : Operation → Bridge → List EdgeEvent}
    (hserve : ∀ op b, Tells (inside op b) b.edges (serve op b).2.edges) (b : Bridge) :
    Tells (c.history serve inside b) b.edges (c.run serve b).2.edges := by
  rw [c.run_eq, Call.history]
  cases c.handed? b with
  | error err => exact .refl _
  | ok handed =>
    have hbody := (tells_begun c b).trans
      (tells_program hserve (c.body handed).outcome (c.begun b))
    change Tells _ b.edges (((c.body handed).run serve).run (c.begun b)).2.edges at hbody
    dsimp only
    generalize ((c.body handed).run serve).run (c.begun b) = result at hbody ⊢
    obtain ⟨err | n, after⟩ := result
    · rw [List.append_nil]
      exact hbody
    · exact hbody.trans (tells_finish c n after)

/-- **The events of an operation account for the edges after it.** -/
theorem tells_server (nesting : Nat) (op : Operation) (b : Bridge) :
    Tells (operationHistory nesting op b) b.edges (server nesting op b).2.edges := by
  -- On how deep calls may nest: what a body asks for is served one level further down.
  induction nesting generalizing op b with
  | zero => exact tells_answer op b
  | succ nesting ih =>
    rw [server, state_answer_some, operationHistory]
    cases b.call? op with
    | none => exact tells_answer op b
    | some c => exact tells_call c ih b

/-! ## Runs -/

theorem tells_use (b : Bridge) (nesting : Nat) (u : Use) :
    Tells (b.useHistory nesting u) b.edges (b.use nesting u).edges := by
  cases u with
  | ask op => exact tells_server nesting op b
  | defineClass c => exact .of_eq (b.edges_defineClass c)
  | loadModule m => exact b.tells_loadModule m
  | collectUntil holds => exact tells_pursue holds _ 0 b
  | _ => exact .refl _

theorem tells_useAll (b : Bridge) (uses : List (Nat × Use)) :
    Tells (b.history uses) b.edges (b.useAll uses).edges := by
  induction uses generalizing b with
  | nil => exact .refl _
  | cons use rest ih => exact (b.tells_use use.1 use.2).trans (ih _)

/-- **The latest event for an edge decides.** After any run of an empty bridge an edge is there
exactly if an event added it and none has removed it since. So asking once for its end ends it,
however often it was added; and a use in whose history the edge does not occur leaves it as it is.
-/
theorem contains_iff_addedLast (options : Options) (uses : List (Nat × Use)) (p c : ObjectId) :
    let start : Bridge := { options }
    let b := start.useAll uses
    (b.edges.contains p c ↔ AddedLast p c (start.history uses)) ∧
      ¬ (b.removeEdge p c).2.edges.contains p c ∧
      ∀ nesting u, (∀ e ∈ b.useHistory nesting u, ¬ e.Adds p c ∧ ¬ e.Removes p c) →
        ((b.use nesting u).edges.contains p c ↔ b.edges.contains p c) := by
  intro start b
  obtain ⟨hmirrored, hcontains⟩ := start.tells_useAll uses Ownership.mirrored_empty
  refine ⟨?_, ?_, fun nesting u hu => ?_⟩
  · have hempty : ¬ start.edges.contains p c := nofun
    rw [hcontains, EdgeEvent.after_iff]
    simp [hempty]
  · intro hc
    exact ((Ownership.contains_remove_iff hmirrored p c p c).1 hc).1 ⟨rfl, rfl⟩
  · have huse := (b.tells_use nesting u hmirrored).2 p c
    have hnone : ¬ AddedLast p c (b.useHistory nesting u) := by
      rintro ⟨earlier, e, later, heq, hadds, -⟩
      exact (hu e (by rw [heq]; simp)).1 hadds
    rw [huse, EdgeEvent.after_iff]
    exact ⟨fun h => (h.resolve_left hnone).1, fun h => .inr ⟨h, fun e he => (hu e he).2⟩⟩

/-- A class whose methods keep and drop their argument. -/
def boxClass : NativeClass :=
  let box := DeclaredType.object "Box"
  { name := "Box" : NativeClass }
    |>.method "keep" [box] (.retain 0) (fun _ _ _ => return .undefined)
    |>.method "drop" [box] (.release 0) (fun _ _ _ => throw (.native "dropped"))

/-- Two boxes, of which the first keeps the second twice. -/
def keptTwice : List (Nat × Use) :=
  let keep : Operation := .callMethod (.wrapper ⟨0, 0⟩) "keep" [.wrapper ⟨1, 0⟩]
  [(0, .defineClass boxClass), (0, .ask (.create "Box" (.word 1))),
    (0, .ask (.create "Box" (.word 2))), (0, .ask (.wrap ⟨"Box", ⟨0⟩⟩)),
    (0, .ask (.wrap ⟨"Box", ⟨1⟩⟩)), (1, .ask keep), (1, .ask keep)]

/-- It is enough that the first lets go of the second once, though the body fails. -/
theorem contains_iff_addedLast_keptTwice :
    let start : Bridge := {}
    let drop : Operation := .callMethod (.wrapper ⟨0, 0⟩) "drop" [.wrapper ⟨1, 0⟩]
    let dropped := keptTwice ++ [(1, .ask drop)]
    start.history keptTwice = [.retained ⟨0, 0⟩ ⟨1, 0⟩, .retained ⟨0, 0⟩ ⟨1, 0⟩] ∧
      start.history dropped = start.history keptTwice ++ [.letGo ⟨0, 0⟩ ⟨1, 0⟩] ∧
      (start.useAll keptTwice).edges.contains ⟨0, 0⟩ ⟨1, 0⟩ ∧
      ((start.useAll keptTwice).use 1 (.ask .collect)).edges.contains ⟨0, 0⟩ ⟨1, 0⟩ ∧
      ¬ (start.useAll dropped).edges.contains ⟨0, 0⟩ ⟨1, 0⟩ := by
  intro start drop dropped
  have hkept : start.history keptTwice = [.retained ⟨0, 0⟩ ⟨1, 0⟩, .retained ⟨0, 0⟩ ⟨1, 0⟩] := by
    decide
  have hdropped : start.history dropped = start.history keptTwice ++ [.letGo ⟨0, 0⟩ ⟨1, 0⟩] := by
    decide
  obtain ⟨hiff, -, hother⟩ := contains_iff_addedLast {} keptTwice ⟨0, 0⟩ ⟨1, 0⟩
  have hcontains : (start.useAll keptTwice).edges.contains ⟨0, 0⟩ ⟨1, 0⟩ := by
    refine hiff.2 ⟨[.retained ⟨0, 0⟩ ⟨1, 0⟩], .retained ⟨0, 0⟩ ⟨1, 0⟩, [], hkept, .inr rfl, ?_⟩
    intro e he
    cases he
  refine ⟨hkept, hdropped, hcontains, ?_, ?_⟩
  · refine (hother 1 (.ask .collect) fun e he => ?_).2 hcontains
    have hnone : (start.useAll keptTwice).useHistory 1 (.ask .collect) = [] := by decide
    rw [hnone] at he
    cases he
  · have hlast := (contains_iff_addedLast {} dropped ⟨0, 0⟩ ⟨1, 0⟩).1
    rw [hlast, hdropped, EdgeEvent.addedLast_concat]
    rintro (hadds | ⟨-, hnot⟩)
    · simp [EdgeEvent.Adds] at hadds
    · exact hnot (.inr (.inl rfl))

end Bridge
end ScriptBridge
