import ScriptBridge.Proofs.Bridge.Rooting
import ScriptBridge.Proofs.Bridge.Surviving

/-! # What a call does to the scopes

A call runs in a scope of its own and closes it on every way out, so a body that leaves the scopes
as it finds them leaves the caller with what was pinned before, and with the result.

* Pins, conversions and policies leave the scopes around the innermost one alone.
* `Call.LeavesScopes` says that the body of a call closes what it opens;
  `Call.leavesScopes_of_keepsOpen` is a way to see it, with calls inside of calls.
* `Bridge.KeepsScopes` is what a caller can rely on, and `Bridge.calls_keep_scopes` that every call
  gives it.
-/

namespace ScriptBridge
set_option autoImplicit false

namespace Bridge

variable {d : Nat} {b b' : Bridge}

/-! ## Scopes further out -/

theorem Move.take_scopes (h : Move b b') (hd : d < b.depth) (hd' : d < b'.depth) :
    b'.engine.roots.scopes.take d = b.engine.roots.scopes.take d := by
  cases h with
  | openScope =>
    have hopen : b.openScope.engine.roots.outer = b.engine.roots.scopes := Roots.outer_openScope _
    have hlen := b.engine.roots.length_scopes
    rw [Roots.scopes_eq, hopen, List.take_append_of_le_length (Nat.le_of_lt (hlen ▸ hd))]
  | closeScope =>
    rw [depth, roots_closeScope] at hd'
    rw [roots_closeScope]
    exact Roots.take_scopes_closeScope (Nat.le_of_lt hd')
  | pin v => exact Roots.take_scopes_of_outer (b.engine.roots.outer_pin v) hd
  | wrapFresh o => exact Roots.take_scopes_of_outer (b.engine.roots.outer_pin _) hd
  | release => rw [roots_release]
  | _ => rfl

/-- Scopes that do not close keep their pins, and get no new ones while there is one further in. -/
theorem Moves.take_scopes (h : Moves (d + 1) b b') (hd : d < b.depth) :
    b'.engine.roots.scopes.take d = b.engine.roots.scopes.take d := by
  induction h with
  | refl => rfl
  | tail hprev hstep ih =>
    exact (hstep.1.take_scopes (Moves.le_depth hprev hd) hstep.2).trans ih

end Bridge

/-! ## Bodies that leave the scopes -/

namespace Call

variable {c : Call} {nesting : Nat} {b : Bridge}

/-- The body of the call, if it runs, leaves the scopes as it finds them, except for what is pinned
in the innermost one. -/
def LeavesScopes (c : Call) (nesting : Nat) (b : Bridge) : Prop :=
  ∀ handed, c.handed? b = .ok handed →
    (((c.body handed).run (Bridge.server nesting)).run (c.begun b)).2.engine.roots.outer =
      (c.begun b).engine.roots.outer

/-- A body leaves the scopes if it closes none that it did not open, in calls inside of it neither,
and has closed in the end what it opened. -/
theorem leavesScopes_of_keepsOpen (h : ∀ handed, c.handed? b = .ok handed →
    (c.body handed).outcome.KeepsOpen (c.begun b).depth (Bridge.server nesting)
      (Bridge.KeepsOpen (c.begun b).depth nesting) (c.begun b) ∧
    (((c.body handed).run (Bridge.server nesting)).run (c.begun b)).2.depth = (c.begun b).depth) :
    c.LeavesScopes nesting b := by
  intro handed hhanded
  obtain ⟨hkeeps, hdepth⟩ := h handed hhanded
  have hlater := Bridge.later_body
    (fun op b hd hd' => Bridge.later_server nesting op b hd hd') (c.body handed) (Nat.le_refl _)
    hkeeps
  have hmoves := hlater.moves (Nat.le_refl _)
  rw [Bridge.depth_begun] at hmoves
  have htake := hmoves.take_scopes (Bridge.depth_begun c b ▸ Nat.lt_succ_self _)
  have hbegun : (c.begun b).engine.roots.depth = b.depth + 1 := Bridge.depth_begun c b
  rw [Roots.outer_eq_take, Roots.outer_eq_take, hbegun,
    show Roots.depth _ = b.depth + 1 from hdepth.trans hbegun]
  exact htake

end Call

namespace Bridge

variable {b after final : Bridge}

/-! ## Around the body -/

theorem outer_entered (c : Call) (b : Bridge) :
    (c.entered b).engine.roots.outer = b.engine.roots.scopes :=
  b.engine.outer_openScope_pinAll c.args

theorem outer_begun (c : Call) (b : Bridge) :
    (c.begun b).engine.roots.outer = b.engine.roots.scopes := by
  refine Eq.trans ?_ (outer_entered c b)
  unfold Call.begun beforeBody
  repeat' split
  all_goals rfl

theorem outer_afterBody (b : Bridge) (this : Option ObjectId) (policy : CallPolicy)
    (args : List Script.Value) :
    (b.afterBody this policy args).engine.roots.outer = b.engine.roots.outer := by
  unfold afterBody
  repeat' split
  all_goals rfl

theorem outer_wrap (b : Bridge) (o : InstanceHandle) :
    (b.wrap o).2.engine.roots.outer = b.engine.roots.outer := by
  refine wrap_induction (P := fun c => c.engine.roots.outer = b.engine.roots.outer) o
    (fun c w _ hc => ?_) (fun c hc => ?_) rfl
  · rw [roots_release, hc]
  · exact (c.engine.roots.outer_pin _).trans hc

/-- Conversions pin in the innermost scope. -/
theorem outer_toScript (b : Bridge) (n : Native.Value) :
    (b.toScript n).2.engine.roots.outer = b.engine.roots.outer := by
  obtain ⟨done, rest, -, hstate, -⟩ := Native.Value.toScript_wraps b n
  rw [hstate]
  exact wrapAll_induction (P := fun c => c.engine.roots.outer = b.engine.roots.outer)
    (fun c o hc => (c.outer_wrap o).trans hc) done rfl

theorem scopes_closeScope (h : after.engine.roots.outer = b.engine.roots.scopes) :
    after.closeScope.engine.roots.scopes = b.engine.roots.scopes := by
  rw [roots_closeScope]
  exact Roots.scopes_closeScope_of_outer h

/-! ## Calls -/

/-- What a call with this outcome has done to the scopes. A failed one leaves every scope with its
pins. One that succeeds adds its result to the innermost scope, if the result names an object, and
what it names lasts until that scope closes. -/
structure KeepsScopes (b : Bridge) (outcome : Except BridgeError Script.Value × Bridge) :
    Prop where
  depth : outcome.2.depth = b.depth
  failed : ∀ err, outcome.1 = .error err →
    outcome.2.engine.roots.scopes = b.engine.roots.scopes
  succeeded : ∀ v, outcome.1 = .ok v →
    outcome.2.engine.roots.outer = b.engine.roots.outer ∧
      outcome.2.engine.roots.innermost = if v.objects = [] then b.engine.roots.innermost
        else b.engine.roots.innermost ++ [v]
  lasts : ∀ v, outcome.1 = .ok v → ∀ id, v.Names id → outcome.2.isAlive id →
    outcome.2.Lasts b.depth id

theorem keepsScopes_error (h : final.engine.roots.scopes = b.engine.roots.scopes)
    (err : BridgeError) : b.KeepsScopes (.error err, final) where
  depth := depth_of_scopes h
  failed _ _ := h
  succeeded _ hok := nomatch hok
  lasts _ hok := nomatch hok

theorem keepsScopes_pin (h : final.engine.roots.scopes = b.engine.roots.scopes)
    (hw : final.engine.heap.WellFormed) (v : Script.Value) :
    b.KeepsScopes (.ok v, final.pin v) where
  depth := (final.depth_pin v).trans (depth_of_scopes h)
  failed _ herr := nomatch herr
  succeeded v' hok := by
    cases hok
    have hsplit := h
    rw [Roots.scopes_eq, Roots.scopes_eq] at hsplit
    obtain ⟨houter, hinnermost⟩ := List.append_inj' hsplit rfl
    refine ⟨(Roots.outer_pin _ v).trans houter, (Roots.innermost_pin _ v).trans ?_⟩
    rw [List.singleton_inj.1 hinnermost]
  lasts v' hok id hn hc := by
    cases hok
    have hlasts := (anchored_pin (b := final) hn hc).lasts hw
    rwa [depth_pin, depth_of_scopes h] at hlasts

theorem wellFormed_run (c : Call) (nesting : Nat) (hw : b.engine.heap.WellFormed) :
    (c.run (server nesting) b).2.engine.heap.WellFormed := by
  have hlater := later_run (b := b) c (fun op b hd hd' => later_server nesting op b hd hd')
    (Nat.zero_le _) (Nat.zero_le _) fun handed _ =>
      program_keepsOpen_zero (keepsOpen_zero nesting) _ _
  exact (hlater.moves (Nat.zero_le _)).wellFormed hw

end Bridge

/-- A call whose body leaves the scopes, on every way out. -/
theorem Call.LeavesScopes.keepsScopes {c : Call} {nesting : Nat} {b : Bridge}
    (h : c.LeavesScopes nesting b) (hw : b.engine.heap.WellFormed) :
    b.KeepsScopes (c.run (Bridge.server nesting) b) := by
  have hw' := Bridge.wellFormed_run c nesting hw
  rw [c.run_eq] at hw' ⊢
  cases hhanded : c.handed? b with
  | error err =>
    exact Bridge.keepsScopes_error (Bridge.scopes_closeScope (Bridge.outer_entered c b)) err
  | ok handed =>
    have hbody := (h handed hhanded).trans (Bridge.outer_begun c b)
    rw [hhanded] at hw'
    dsimp only at hw' ⊢
    generalize ((c.body handed).run (Bridge.server nesting)).run (c.begun b) = result
      at hw' hbody ⊢
    obtain ⟨err | n, after⟩ := result
    · exact Bridge.keepsScopes_error (Bridge.scopes_closeScope hbody) err
    · have hafter := (after.outer_afterBody c.this c.policy c.args).trans hbody
      have hconverted := (Bridge.outer_toScript _ n).trans hafter
      dsimp only [Call.finish] at hw' ⊢
      generalize (after.afterBody c.this c.policy c.args).toScript n = result at hw' hconverted ⊢
      obtain ⟨err | v, final⟩ := result
      · exact Bridge.keepsScopes_error (Bridge.scopes_closeScope hconverted) err
      · exact Bridge.keepsScopes_pin (Bridge.scopes_closeScope hconverted) hw' v

namespace Bridge

variable {nesting : Nat} {b : Bridge}

/-- What is a call whose body leaves the scopes, or is refused, keeps them. -/
theorem ComesTo.keepsScopes {outcome : Server → Except BridgeError Script.Value × Bridge}
    {call? : Option Call} (h : b.ComesTo outcome call?) (hw : b.engine.heap.WellFormed)
    (hbody : ∀ c ∈ call?, c.LeavesScopes nesting b) :
    b.KeepsScopes (outcome (server nesting)) := by
  cases call? with
  | some c =>
    rw [h]
    exact (hbody c rfl).keepsScopes hw
  | none =>
    obtain ⟨err, herr⟩ := h
    rw [herr]
    exact keepsScopes_error rfl err

/-- **Every call keeps the scopes.** A construction, a method or a function whose body leaves the
scopes as it finds them, pins in the innermost one apart, leaves its caller as many scopes, with
what was pinned in them, on every way out: if nothing is found to call, if an argument cannot be
converted, if the body fails, if its result cannot be converted, and if all goes well. Only in the
last case there is one more pin, that of the result in the innermost scope, if it names an object;
and what it names and is alive then survives every use of the bridge until that scope closes. A call
of a host function leaves all scopes alone. -/
theorem calls_keep_scopes (b : Bridge) (hw : b.engine.heap.WellFormed) (nesting : Nat) :
    (∀ className args, (∀ c ∈ b.constructCall? className args, c.LeavesScopes nesting b) →
      b.KeepsScopes (b.constructBy (server nesting) className args)) ∧
    (∀ receiver name args, (∀ c ∈ b.methodCall? receiver name args, c.LeavesScopes nesting b) →
      b.KeepsScopes (b.callMethodBy (server nesting) receiver name args)) ∧
    (∀ moduleName name args,
      (∀ c ∈ b.functionCall? moduleName name args, c.LeavesScopes nesting b) →
      b.KeepsScopes (b.callFunctionBy (server nesting) moduleName name args)) ∧
    ∀ id args, (b.engine.invoke id args).2.roots.scopes = b.engine.roots.scopes :=
  ⟨fun className args => (b.constructBy_comesTo className args).keepsScopes hw,
    fun receiver name args => (b.callMethodBy_comesTo receiver name args).keepsScopes hw,
    fun moduleName name args => (b.callFunctionBy_comesTo moduleName name args).keepsScopes hw,
    b.engine.scopes_invoke⟩

/-! ## A tree and its leaf -/

def leafClass : NativeClass :=
  ({ name := "Leaf" } : NativeClass).withConstructor [] fun _ => return .view

/-- Makes a leaf before the tree is there itself. -/
def makesLeaf : Body Seed := do
  let _ ← Body.ofProgram (Program.perform (.construct "Leaf" []))
  return .view

def treeClass : NativeClass :=
  ({ name := "Tree" } : NativeClass).withConstructor [] fun _ => makesLeaf

def woods : Bridge := ((({} : Bridge).defineClass leafClass).2.defineClass treeClass).2.openScope

def planting : Call where
  this := none
  params := []
  policy := .none
  args := []
  body := fun _ => do
    let seed ← makesLeaf
    return .object (← Body.perform (.create "Tree" seed))

theorem leavesScopes_planting : planting.LeavesScopes 1 woods := by
  refine Call.leavesScopes_of_keepsOpen fun handed hhanded => ?_
  cases hhanded
  have hleaf : KeepsOpen 3 1 (.construct "Leaf" []) (planting.begun woods) := by
    intro c hc handed hhanded
    cases hc
    cases hhanded
    exact ⟨trivial, by decide, trivial⟩
  have hmade : (server 1 (.construct "Leaf" []) (planting.begun woods)).1 =
      .ok (.wrapper ⟨0, 0⟩) := rfl
  refine ⟨⟨hleaf, by decide, ?_⟩, by decide⟩
  rw [hmade]
  have hcreate : ∀ b, KeepsOpen 3 1 (.create "Tree" .view) b := fun _ _ hc => nomatch hc
  exact ⟨hcreate _, by decide, trivial⟩

/-- Of a tree and the leaf that its constructor makes, the caller finds the tree pinned. -/
theorem calls_keep_scopes_of_planting :
    let (outcome, after) := woods.constructBy (server 1) "Tree" []
    woods.engine.heap.WellFormed ∧
      (∀ c ∈ woods.constructCall? "Tree" [], c.LeavesScopes 1 woods) ∧
      outcome = .ok (.wrapper ⟨1, 0⟩) ∧ after.engine.roots.innermost = [.wrapper ⟨1, 0⟩] ∧
      after.Lasts 2 ⟨1, 0⟩ := by
  have hw : woods.engine.heap.WellFormed := Heap.wellFormed_empty
  have hbody : ∀ c ∈ woods.constructCall? "Tree" [], c.LeavesScopes 1 woods := by
    intro c hc
    have hcall : woods.constructCall? "Tree" [] = some planting := rfl
    rw [hcall] at hc
    cases hc
    exact leavesScopes_planting
  have hkeeps := (calls_keep_scopes woods hw 1).1 "Tree" [] hbody
  have hok : (woods.constructBy (server 1) "Tree" []).1 = .ok (.wrapper ⟨1, 0⟩) := rfl
  exact ⟨hw, hbody, hok, (hkeeps.succeeded _ hok).2,
    hkeeps.lasts _ hok ⟨1, 0⟩ (.wrapper _) (by decide)⟩

end Bridge
end ScriptBridge
