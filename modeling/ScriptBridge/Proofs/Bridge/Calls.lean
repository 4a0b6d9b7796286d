import ScriptBridge.Bridge.Call
import ScriptBridge.Proofs.Conversion.Wrapping
import ScriptBridge.Proofs.Sequences

/-! # The stages of a call

A call of a native body, once its target is found, is a `Call`: a receiver, declared parameters, a
policy, arguments and a body. It goes through bridges that have names here: the one `Call.entered`,
on which the arguments are converted, and the one `Call.begun`, which the body finds.

* `Bridge.call?` finds the call that an operation asks for.
* `Call.run_eq` tells what a call does from what its stages do.
-/

namespace ScriptBridge
set_option autoImplicit false

/-- A call of a native body. -/
structure Call where
  /-- The wrapper of the receiver. -/
  this : Option ObjectId
  params : List DeclaredType
  policy : CallPolicy
  args : List Script.Value
  body : List Native.Value → Body Native.Value

namespace Call

variable (c : Call) (serve : Server) (b : Bridge)

def run : Except BridgeError Script.Value × Bridge :=
  b.dispatch serve c.this c.params c.policy c.args c.body

/-- The scope of the call is open and the arguments are pinned in it. -/
def entered : Bridge := b.openScope.mapEngine (·.pinAll c.args)

/-- What the body gets. -/
def handed? : Except BridgeError (List Native.Value) :=
  ((c.entered b).convertArguments c.args 0 c.params).map c.policy.hand

/-- The half of the policy before the body is done. -/
def begun : Bridge := (c.entered b).beforeBody c.this c.policy c.args

/-- What is left to do when the body has succeeded. -/
def finish (n : Native.Value) (after : Bridge) : Except BridgeError Script.Value × Bridge :=
  match (after.afterBody c.this c.policy c.args).toScript n with
  | (.ok v, final) => (.ok v, final.closeScope.pin v)
  | (.error err, final) => (.error err, final.closeScope)

theorem run_callInScope :
    (Bridge.callInScope serve c.this c.params c.policy c.args c.body).run b =
      match b.convertArguments c.args 0 c.params with
      | .error err => (.error err, b)
      | .ok converted => match ((c.body (c.policy.hand converted)).run serve).run
            (b.beforeBody c.this c.policy c.args) with
        | (.error err, after) => (.error err, after)
        | (.ok n, after) => (after.afterBody c.this c.policy c.args).toScript n := by
  unfold Bridge.callInScope
  change (Action.ofExcept (b.convertArguments c.args 0 c.params) >>= _ : Action _).run b = _
  rw [Action.run_bind]
  cases b.convertArguments c.args 0 c.params with
  | error err => rfl
  | ok converted =>
    change ((c.body (c.policy.hand converted)).run serve >>= _ : Action _).run
      (b.beforeBody c.this c.policy c.args) = _
    rw [Action.run_bind]
    dsimp only
    split
    next hrun =>
      rw [hrun]
      rfl
    next hrun => rw [hrun]

/-- **A call by its stages.** -/
theorem run_eq :
    c.run serve b = match c.handed? b with
      | .error err => (.error err, (c.entered b).closeScope)
      | .ok handed => match ((c.body handed).run serve).run (c.begun b) with
        | (.error err, after) => (.error err, after.closeScope)
        | (.ok n, after) => c.finish n after := by
  unfold run Bridge.dispatch handed?
  dsimp only
  rw [← entered, run_callInScope, ← begun]
  cases (c.entered b).convertArguments c.args 0 c.params with
  | error err => rfl
  | ok converted =>
    dsimp only [Except.map]
    rcases ((c.body (c.policy.hand converted)).run serve).run (c.begun b) with ⟨_ | n, after⟩
    · rfl
    · unfold finish
      dsimp only
      rcases (after.afterBody c.this c.policy c.args).toScript n with ⟨_ | v, final⟩ <;> rfl

end Call

namespace Bridge

/-- An argument is converted under the type of its place, and is undefined if it is missing. -/
theorem converted_argument {b : Bridge} {args : List Script.Value} {params : List DeclaredType}
    {converted : List Native.Value} {first : Nat}
    (h : b.convertArguments args first params = .ok converted) {k : Nat} {t : DeclaredType}
    (ht : params[k]? = some t) : ∃ n, converted[k]? = some n ∧
      b.fromScript (args[first + k]?.getD .undefined) t (first + k) = .ok n := by
  induction params generalizing first converted k with
  | nil => cases ht
  | cons type types ih =>
    simp only [convertArguments, bind_eq_ok_iff, pure_eq_ok_iff] at h
    obtain ⟨n, hn, ns, hns, rfl⟩ := h
    cases k with
    | zero =>
      obtain rfl := Option.some.inj ht
      exact ⟨n, rfl, hn⟩
    | succ k =>
      obtain ⟨n', hn', hv⟩ := ih hns ht
      exact ⟨n', hn', by rwa [Nat.add_assoc, Nat.add_comm 1] at hv⟩

/-! ## Finding the call -/

def constructCall? (b : Bridge) (className : String) (args : List Script.Value) : Option Call := do
  let c ← b.classes.find? className
  let ctor ← c.constructor?
  return {
    this := none, params := ctor.params, policy := .none, args
    body := fun args => do
      let seed ← ctor.body args
      return .object (← Body.perform (.create c.name seed)) }

def methodCall? (b : Bridge) (receiver : Script.Value) (name : String)
    (args : List Script.Value) : Option Call := do
  let (id, o) ← (b.receiver receiver).toOption
  let m ← b.classes.method? o.className name
  return { this := some id, params := m.params, policy := m.policy, args, body := m.body id o }

def functionCall? (b : Bridge) (moduleName name : String) (args : List Script.Value) :
    Option Call := do
  let m ← b.modules.find? moduleName
  let f ← m.functions.find? name
  return { this := none, params := f.params, policy := .none, args, body := f.body }

/-- The call of a native body that an operation asks for, if its target is found. -/
def call? (b : Bridge) : Operation → Option Call
  | .construct className args => b.constructCall? className args
  | .callMethod receiver name args => b.methodCall? receiver name args
  | .callFunction moduleName name args => b.functionCall? moduleName name args
  | .callSymbol symbol args => do
    let (moduleName, name) ← splitSymbol? symbol
    b.functionCall? moduleName name args
  | _ => none

/-! ## What is asked for is a call -/

/-- What is asked for is a call if its target is found. If not, it is refused, with the bridge as it
was. -/
def ComesTo (b : Bridge) (outcome : Server → Except BridgeError Script.Value × Bridge) :
    Option Call → Prop
  | some c => ∀ serve, outcome serve = c.run serve b
  | none => ∃ err, ∀ serve, outcome serve = (.error err, b)

namespace ComesTo

variable {b : Bridge} {outcome : Server → Except BridgeError Script.Value × Bridge}
  {call? : Option Call}

theorem state (h : b.ComesTo outcome call?) (serve : Server) :
    (outcome serve).2 = (call?.map fun c => (c.run serve b).2).getD b := by
  cases call? with
  | some c => exact congrArg Prod.snd (h serve)
  | none =>
    obtain ⟨err, herr⟩ := h
    exact congrArg Prod.snd (herr serve)

/-- The way in which bodies are served tells by the call only. -/
theorem congr (h : b.ComesTo outcome call?) {serve serve' : Server}
    (hcall : ∀ c, call? = some c → c.run serve' b = c.run serve b) :
    outcome serve' = outcome serve := by
  cases call? with
  | some c => rw [h, h, hcall c rfl]
  | none =>
    obtain ⟨err, herr⟩ := h
    rw [herr, herr]

end ComesTo

section
variable (b : Bridge)

theorem constructBy_comesTo (className : String) (args : List Script.Value) :
    b.ComesTo (b.constructBy · className args) (b.constructCall? className args) := by
  unfold constructBy constructCall?
  cases b.classes.find? className with
  | none => exact ⟨_, fun _ => rfl⟩
  | some c =>
    cases hc : c.constructor? with
    | none =>
      simp only [hc, Option.bind_eq_bind, Option.bind_some, Option.bind_none]
      exact ⟨_, fun _ => rfl⟩
    | some ctor =>
      simp only [hc, Option.bind_eq_bind, Option.bind_some]
      exact fun _ => rfl

theorem callMethodBy_comesTo (receiver : Script.Value) (name : String)
    (args : List Script.Value) :
    b.ComesTo (b.callMethodBy · receiver name args) (b.methodCall? receiver name args) := by
  unfold callMethodBy methodCall?
  cases b.receiver receiver with
  | error err => exact ⟨_, fun _ => rfl⟩
  | ok r =>
    cases hm : b.classes.method? r.2.className name with
    | none =>
      simp only [hm, Except.toOption, Option.bind_eq_bind, Option.bind_some, Option.bind_none]
      exact ⟨_, fun _ => rfl⟩
    | some m =>
      simp only [hm, Except.toOption, Option.bind_eq_bind, Option.bind_some]
      exact fun _ => rfl

theorem callFunctionBy_comesTo (moduleName name : String) (args : List Script.Value) :
    b.ComesTo (b.callFunctionBy · moduleName name args) (b.functionCall? moduleName name args) := by
  unfold callFunctionBy functionCall?
  cases b.modules.find? moduleName with
  | none => exact ⟨_, fun _ => rfl⟩
  | some m =>
    cases hf : m.functions.find? name with
    | none =>
      simp only [hf, Option.bind_eq_bind, Option.bind_some, Option.bind_none]
      exact ⟨_, fun _ => rfl⟩
    | some f =>
      simp only [hf, Option.bind_eq_bind, Option.bind_some]
      exact fun _ => rfl

theorem callSymbolBy_comesTo (symbol : String) (args : List Script.Value) :
    b.ComesTo (b.callSymbolBy · symbol args) (b.call? (.callSymbol symbol args)) := by
  unfold callSymbolBy
  simp only [call?]
  cases splitSymbol? symbol with
  | none => exact ⟨_, fun _ => rfl⟩
  | some r => exact b.callFunctionBy_comesTo r.1 r.2 args

end

section
variable (serve : Server) (b : Bridge)

theorem methodCall?_eq_some {receiver : Script.Value} {name : String} {args : List Script.Value}
    {c : Call} (h : b.methodCall? receiver name args = some c) :
    ∃ this o m, b.receiver receiver = .ok (this, o) ∧ b.classes.method? o.className name = some m ∧
      c = ⟨some this, m.params, m.policy, args, m.body this o⟩ := by
  unfold methodCall? at h
  cases hr : b.receiver receiver with
  | error err => simp [hr, Except.toOption] at h
  | ok r =>
    cases hm : b.classes.method? r.2.className name with
    | none => simp [hr, hm, Except.toOption] at h
    | some m =>
      refine ⟨r.1, r.2, m, rfl, hm, ?_⟩
      simpa [hr, hm, Except.toOption] using h.symm

theorem callMethodBy_of_methodCall? {receiver : Script.Value} {name : String}
    {args : List Script.Value} {c : Call} (h : b.methodCall? receiver name args = some c) :
    b.callMethodBy serve receiver name args = c.run serve b := by
  have hcomes := b.callMethodBy_comesTo receiver name args
  rw [h] at hcomes
  exact hcomes serve

/-- An operation does what its call does, and nothing if the target of the call is not found. -/
theorem state_answer_some (op : Operation) :
    (answer (some serve) op b).2 =
      ((b.call? op).map fun c => (c.run serve b).2).getD (answer none op b).2 := by
  cases op with
  | construct className args => exact (b.constructBy_comesTo className args).state serve
  | callMethod receiver name args => exact (b.callMethodBy_comesTo receiver name args).state serve
  | callFunction moduleName name args =>
    exact (b.callFunctionBy_comesTo moduleName name args).state serve
  | callSymbol symbol args => exact (b.callSymbolBy_comesTo symbol args).state serve
  | _ => rfl

/-- How deep calls may nest is nothing to an operation without a call. -/
theorem state_server_of_none {op : Operation} (h : b.call? op = none) (nesting : Nat) :
    (server nesting op b).2 = (answer none op b).2 := by
  cases nesting with
  | zero => rfl
  | succ nesting =>
    rw [server, state_answer_some, h]
    rfl

end

end Bridge
end ScriptBridge
