import ScriptBridge.Proofs.Bridge.Identity
import ScriptBridge.Proofs.Bridge.Severing

/-! # What survives the body of a call

The arguments of a call are pinned in its scope, so they are alive when the body is done, whatever
the body did inside that scope. The receiver is not pinned. It survives every body exactly if it is
anchored when the body starts: by a scope of a caller, or because an argument holds it.

* `Call.Succeeds` says that the body of a call succeeds and closes no scope that it did not open.
* `Call.Succeeds.isAlive`: what is anchored when the body starts is alive when it has succeeded.
* `Call.exists_succeeds_not_isAlive`: for everything else there is a body that gets it collected.
* `Bridge.receiver_survives_iff` is what follows for a call of a method, and for the edge that it
  leaves if its policy retains an argument.
-/

namespace ScriptBridge
set_option autoImplicit false

/-! ## Operations in turn -/

/-- Operations one after another, whatever their responses, and then an end. -/
def Program.inTurn {α : Type} (a : α) : List Operation → Program α
  | [] => .done a
  | op :: rest => .ask op fun _ => inTurn a rest

section
variable {α : Type} {d nesting : Nat} {b : Bridge} {ops : List Operation}

theorem Program.run_inTurn (nesting : Nat) (a : α) (ops : List Operation) (b : Bridge) :
    (inTurn a ops).run (Bridge.server nesting) b = (a, Bridge.performAll nesting b ops) := by
  induction ops generalizing b with
  | nil => rfl
  | cons op rest ih => exact ih _

theorem Program.keepsOpen_inTurn (a : α) (hd : d ≤ b.depth)
    (hops : ∀ op ∈ ops, ∀ b : Bridge,
      b.call? op = none ∧ (Bridge.server nesting op b).2.depth = b.depth) :
    (inTurn a ops).KeepsOpen d (Bridge.server nesting) (Bridge.KeepsOpen d nesting) b := by
  induction ops generalizing b with
  | nil => trivial
  | cons op rest ih =>
    obtain ⟨hcall, hdepth⟩ := hops op List.mem_cons_self b
    have hd' : d ≤ (Bridge.server nesting op b).2.depth := by rw [hdepth]; exact hd
    refine ⟨?_, hd', ih hd' fun a ha => hops a (List.mem_cons_of_mem op ha)⟩
    cases nesting with
    | zero => trivial
    | succ nesting =>
      intro c hc
      rw [hcall] at hc
      cases hc

end

theorem Operation.Severs.call?_eq_none {op : Operation} (h : op.Severs) (b : Bridge) :
    b.call? op = none := by
  cases h <;> rfl

namespace Bridge

theorem state_collect (nesting : Nat) (b : Bridge) :
    (server nesting .collect b).2 = b.collect.2 := by
  cases nesting <;> rfl

/-- A body that takes away from a bridge all there is to take, and collects. -/
def ruin (b : Bridge) : Body Native.Value :=
  Body.ofProgram (.inTurn (.ok .undefined) (b.severing ++ [.collect]))

theorem run_ruin (nesting : Nat) (b : Bridge) : (b.ruin.run (server nesting)).run b =
    (.ok .undefined, (performAll nesting b b.severing).collect.2) := by
  rw [← state_collect nesting]
  have hrun := Program.run_inTurn nesting (.ok .undefined : Except BridgeError Native.Value)
    (b.severing ++ [.collect]) b
  rw [performAll_append] at hrun
  exact hrun

theorem keepsOpen_ruin {d : Nat} (nesting : Nat) {b : Bridge} (hd : d ≤ b.depth) :
    b.ruin.outcome.KeepsOpen d (server nesting) (KeepsOpen d nesting) b := by
  refine Program.keepsOpen_inTurn _ hd fun op hop b' => ?_
  rcases List.mem_append.1 hop with hsevering | hcollect
  · have hsevers := b.severs_severing op hsevering
    exact ⟨hsevers.call?_eq_none b', (hsevers.loses nesting b').depth⟩
  · obtain rfl := List.mem_singleton.1 hcollect
    refine ⟨rfl, ?_⟩
    rw [state_collect, depth, roots_collect, depth]

end Bridge

/-! ## Anchors of a call -/

namespace Bridge

variable {b : Bridge} {v : Script.Value} {id : ObjectId}

theorem anchored_pin (hn : v.Names id) (hc : b.isAlive id) : (b.pin v).Anchored id := by
  rw [Anchored, depth_pin]
  exact .pinned (b.engine.roots.pinsBelow_pin hn) hn hc

theorem anchored_pinAll (hw : b.engine.heap.WellFormed) {vs : List Script.Value}
    (hv : v ∈ vs) (hn : v.Names id) (hc : b.isAlive id) :
    (b.mapEngine (·.pinAll vs)).Anchored id := by
  induction vs generalizing b with
  | nil => cases hv
  | cons v' rest ih =>
    change ((b.pin v').mapEngine (·.pinAll rest)).Anchored id
    rcases List.mem_cons.1 hv with rfl | hrest
    · rw [Anchored, depth_pinAll]
      exact AnchoredBelow.moves (anchored_pin hn hc) (moves_pinAll rest (Nat.le_refl _)) hw
    · exact ih hw hrest hc

theorem Anchored.beforeBody (h : b.Anchored id) (hw : b.engine.heap.WellFormed)
    (this : Option ObjectId) (policy : CallPolicy) (args : List Script.Value) :
    (b.beforeBody this policy args).Anchored id := by
  have hlater := later_beforeBody (Nat.le_refl b.depth) this policy args
  rw [Anchored, depth_beforeBody]
  exact AnchoredBelow.moves h (hlater.moves (Nat.le_refl _)) hw

/-- Every argument is anchored when the body starts. -/
theorem anchored_begun_of_argument (c : Call) (hw : b.engine.heap.WellFormed) (hv : v ∈ c.args)
    (hn : v.Names id) (hc : b.isAlive id) : (c.begun b).Anchored id := by
  have hentered : (c.entered b).Anchored id := anchored_pinAll (b := b.openScope) hw hv hn hc
  have hw' : (c.entered b).engine.heap.WellFormed :=
    ((later_entered c (Nat.zero_le _)).moves (Nat.zero_le _)).wellFormed hw
  exact hentered.beforeBody hw' c.this c.policy c.args

/-- What the scopes of the caller anchor is anchored when the body starts. -/
theorem Anchored.begun (h : b.Anchored id) (hw : b.engine.heap.WellFormed) (c : Call) :
    (c.begun b).Anchored id := by
  have hmoves := (later_begun c (Nat.le_refl b.depth)).moves (Nat.le_refl _)
  refine (AnchoredBelow.moves h hmoves hw).mono ?_
  rw [depth_begun]
  exact Nat.le_succ _

end Bridge

/-! ## The end of a body -/

namespace Call

/-- The body of the call succeeds with `n` and leaves the bridge `after`. Neither it nor a body that
runs inside it closes a scope that was open when it started. -/
def Succeeds (c : Call) (nesting : Nat) (b : Bridge) (n : Native.Value) (after : Bridge) : Prop :=
  ∃ handed, c.handed? b = .ok handed ∧
    (c.body handed).outcome.KeepsOpen (c.begun b).depth (Bridge.server nesting)
      (Bridge.KeepsOpen (c.begun b).depth nesting) (c.begun b) ∧
    ((c.body handed).run (Bridge.server nesting)).run (c.begun b) = (.ok n, after)

variable {c : Call} {nesting : Nat} {b after : Bridge} {n : Native.Value} {id : ObjectId}

/-- What the call does after its body. -/
theorem Succeeds.run_eq (h : c.Succeeds nesting b n after) :
    c.run (Bridge.server nesting) b = c.finish n after := by
  obtain ⟨handed, hhanded, -, hrun⟩ := h
  simp only [c.run_eq, hhanded, hrun]

theorem Succeeds.later (h : c.Succeeds nesting b n after) :
    Bridge.Later (c.begun b).depth (c.begun b) after := by
  obtain ⟨handed, -, hkeeps, hrun⟩ := h
  have hlater := Bridge.later_body
    (fun op b hd hd' => Bridge.later_server nesting op b hd hd') (c.body handed) (Nat.le_refl _)
    hkeeps
  rwa [hrun] at hlater

theorem wellFormed_begun (c : Call) (hw : b.engine.heap.WellFormed) :
    (c.begun b).engine.heap.WellFormed :=
  ((Bridge.later_begun c (Nat.zero_le _)).moves (Nat.zero_le _)).wellFormed hw

/-- **What is anchored when the body starts survives it.** -/
theorem Succeeds.isAlive (h : c.Succeeds nesting b n after) (hw : b.engine.heap.WellFormed)
    (hanch : (c.begun b).Anchored id) : after.isAlive id := by
  have hmoves := h.later.moves (Nat.le_refl _)
  exact (Bridge.AnchoredBelow.moves hanch hmoves (c.wellFormed_begun hw)).isAlive

/-- What is not anchored does not survive the body that takes everything away. -/
theorem exists_succeeds_not_isAlive (c : Call) (nesting : Nat) {handed : List Native.Value}
    (hhanded : c.handed? b = .ok handed) (hnot : ¬ (c.begun b).Anchored id) :
    ∃ body n after, { c with body }.Succeeds nesting b n after ∧ ¬ after.isAlive id :=
  ⟨fun _ => (c.begun b).ruin, _, _,
    ⟨handed, hhanded, Bridge.keepsOpen_ruin nesting (Nat.le_refl _), Bridge.run_ruin nesting _⟩,
    Bridge.not_isAlive_collect_severing nesting _ hnot⟩

/-- What survives every body is what is anchored when it starts. -/
theorem forall_succeeds_isAlive_iff (c : Call) (nesting : Nat) (id : ObjectId)
    (hw : b.engine.heap.WellFormed) {handed : List Native.Value}
    (hhanded : c.handed? b = .ok handed) :
    (∀ body n after, { c with body }.Succeeds nesting b n after → after.isAlive id) ↔
      (c.begun b).Anchored id := by
  refine ⟨fun hall => ?_, fun hanch body n after hs => hs.isAlive hw hanch⟩
  by_contra hnot
  obtain ⟨body, n, after, hs, hdead⟩ := c.exists_succeeds_not_isAlive nesting hhanded hnot
  exact hdead (hall body n after hs)

/-! ## The half of a policy after the body -/

/-- The bridge after the second half of the policy, when the body has left the bridge `b`. -/
def settled (c : Call) (b : Bridge) : Bridge := b.afterBody c.this c.policy c.args

theorem isAlive_settled (c : Call) (b : Bridge) (id : ObjectId) :
    (c.settled b).isAlive id = b.isAlive id := by
  unfold settled Bridge.afterBody
  split
  · split <;> rfl
  · rfl

theorem contains_settled {index : Nat} {parent child : ObjectId} (b : Bridge)
    (hpolicy : c.policy = .retain index) (hthis : c.this = some parent)
    (hchild : c.args[index]? = some (.wrapper child)) :
    (c.settled b).edges.contains parent child := by
  have hedge : Bridge.policyEdge? c.this c.args index = some (parent, child) := by
    simp [Bridge.policyEdge?, Bridge.wrapperArgument?, hthis, hchild]
  simp only [settled, Bridge.afterBody, hpolicy, hedge]
  exact b.edges.contains_add parent child

end Call

namespace Bridge

/-- **What survives the body of a call.** When the body of a method succeeds and closes no scope
that it did not open, the second half of the policy finds every object that an argument named alive,
if it was alive at the start. It finds the receiver alive, whatever the body, exactly if the
receiver was anchored when the body started; and the same goes for both ends of the edge that a
retaining policy leaves. -/
theorem receiver_survives_iff (b : Bridge) (h : b.Reachable) (nesting : Nat)
    (receiver : Script.Value) (name : String) (args : List Script.Value) (c : Call)
    (hcall : b.methodCall? receiver name args = some c) :
    (∀ n after, c.Succeeds nesting b n after →
      b.callMethodBy (server nesting) receiver name args = c.finish n after ∧
      ∀ v ∈ args, ∀ id, v.Names id → b.isAlive id → after.isAlive id) ∧
    ∃ this o, b.receiver receiver = .ok (this, o) ∧ ∀ handed, c.handed? b = .ok handed →
      ((∀ body n after, { c with body }.Succeeds nesting b n after → after.isAlive this) ↔
        (c.begun b).Anchored this) ∧
      ∀ index child, c.policy = .retain index → args[index]? = some (.wrapper child) →
        b.isAlive child →
        ((∀ body n after, { c with body }.Succeeds nesting b n after →
          (c.settled after).edges.contains this child ∧ (c.settled after).isAlive this ∧
            (c.settled after).isAlive child) ↔ (c.begun b).Anchored this) := by
  have hw := h.wellFormed
  have hrun := b.callMethodBy_of_methodCall? (server nesting) hcall
  obtain ⟨this, o, m, hr, -, rfl⟩ := b.methodCall?_eq_some hcall
  refine ⟨fun n after hs => ⟨hrun.trans hs.run_eq, fun v hv id hn hc => ?_⟩, this, o, hr,
    fun handed hhanded => ?_⟩
  · exact hs.isAlive hw (anchored_begun_of_argument _ hw hv hn hc)
  · have hiff := Call.forall_succeeds_isAlive_iff _ nesting this hw hhanded
    refine ⟨hiff, fun index child hpolicy hchild halive => Iff.trans ?_ hiff⟩
    refine ⟨fun hall body n after hs => ?_, fun hall body n after hs => ⟨?_, ?_, ?_⟩⟩
    · rw [← Call.isAlive_settled]
      exact (hall body n after hs).2.1
    · exact Call.contains_settled after hpolicy rfl hchild
    · rw [Call.isAlive_settled]
      exact hall body n after hs
    · rw [Call.isAlive_settled]
      exact hs.isAlive hw
        (anchored_begun_of_argument _ hw (List.mem_of_getElem? hchild) (.wrapper child) halive)

/-! ## Two nodes -/

def collecting : Body Native.Value := do
  let _ ← Body.perform .collect
  return .undefined

/-- A node adopts another one, and collects before the edge is there. -/
def adopter : NativeClass :=
  ({ name := "Node" } : NativeClass).method "adopt" [.object "Node"] (.retain 0)
    fun _ _ _ => collecting

/-- The call by which the first node adopts the second. -/
def adoption : Call where
  this := some ⟨0, 0⟩
  params := [.object "Node"]
  policy := .retain 0
  args := [.wrapper ⟨1, 0⟩]
  body := fun _ => collecting

/-- A bridge with one more node, wrapped in its innermost scope. -/
def withNode (b : Bridge) : Bridge :=
  let (o, b) := b.create "Node" .view
  (b.wrap o).2

/-- The parent is wrapped in a scope of its own. -/
def parentInScope : Bridge := (({} : Bridge).defineClass adopter).2.openScope.withNode

theorem Reachable.withNode {b : Bridge} (h : b.Reachable) : b.withNode.Reachable := by
  have hmade : Run b (b.create "Node" .view).2 :=
    Relation.ReflTransGen.single ⟨0, .ask (.create "Node" .view)⟩
  exact h.run (hmade.tail ⟨0, .ask (.wrap (b.create "Node" .view).1)⟩)

theorem reachable_parentInScope : parentInScope.Reachable := by
  have hdefined : Run ({} : Bridge) (({} : Bridge).defineClass adopter).2 :=
    Relation.ReflTransGen.single ⟨0, .defineClass adopter⟩
  exact Reachable.withNode ⟨{}, hdefined.tail ⟨0, .ask .openScope⟩⟩

/-- A parent that adopts in the scope in which it was wrapped survives every body. -/
theorem receiver_survives_in_scope :
    let b := parentInScope.withNode
    b.Reachable ∧ b.methodCall? (.wrapper ⟨0, 0⟩) "adopt" [.wrapper ⟨1, 0⟩] = some adoption ∧
      ∀ body n after, { adoption with body }.Succeeds 1 b n after →
        (adoption.settled after).edges.contains ⟨0, 0⟩ ⟨1, 0⟩ ∧
          (adoption.settled after).isAlive ⟨0, 0⟩ ∧ (adoption.settled after).isAlive ⟨1, 0⟩ := by
  intro b
  have hb : b.Reachable := reachable_parentInScope.withNode
  have hcall : b.methodCall? (.wrapper ⟨0, 0⟩) "adopt" [.wrapper ⟨1, 0⟩] = some adoption := rfl
  have hhanded : adoption.handed? b = .ok [.object ⟨"Node", ⟨1⟩⟩] := rfl
  have hanch : b.Anchored ⟨0, 0⟩ :=
    .pinned ⟨1, [.wrapper ⟨0, 0⟩, .wrapper ⟨1, 0⟩], by decide, rfl, List.mem_cons_self⟩
      (.wrapper _) (by decide)
  obtain ⟨-, this, o, hr, hiff⟩ := receiver_survives_iff b hb 1 _ _ _ adoption hcall
  cases hr
  obtain ⟨-, hedge⟩ := hiff _ hhanded
  exact ⟨hb, hcall, (hedge 0 ⟨1, 0⟩ rfl rfl (by decide)).2 (hanch.begun hb.wellFormed adoption)⟩

/-- A parent that adopts when that scope has closed does not survive the collection in the body. -/
theorem receiver_perishes :
    let b := parentInScope.closeScope.withNode
    b.Reachable ∧ b.isAlive ⟨0, 0⟩ ∧ b.isAlive ⟨1, 0⟩ ∧
      b.methodCall? (.wrapper ⟨0, 0⟩) "adopt" [.wrapper ⟨1, 0⟩] = some adoption ∧
      ∃ n after, adoption.Succeeds b.options.maxCallNesting b n after ∧ ¬ after.isAlive ⟨0, 0⟩ ∧
        (adoption.settled after).edges.contains ⟨0, 0⟩ ⟨1, 0⟩ ∧
        ¬ (adoption.settled after).isAlive ⟨0, 0⟩ := by
  intro b
  have hb : b.Reachable := by
    refine Reachable.withNode (reachable_parentInScope.run ?_)
    exact Relation.ReflTransGen.single ⟨0, .ask .closeScope⟩
  have hkeeps : ∀ nesting, KeepsOpen 2 nesting .collect (adoption.begun b)
    | 0 => trivial
    | _ + 1 => fun _ hcall => nomatch hcall
  have hs : adoption.Succeeds b.options.maxCallNesting b .undefined (adoption.begun b).collect.2 :=
    ⟨[.object ⟨"Node", ⟨1⟩⟩], rfl, ⟨hkeeps _, by decide, trivial⟩, rfl⟩
  exact ⟨hb, by decide, by decide, rfl, _, _, hs, by decide, by decide, by decide⟩

end Bridge
end ScriptBridge
