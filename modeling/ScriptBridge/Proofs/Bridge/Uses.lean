import ScriptBridge.Proofs.Bridge.Runs

/-! # Uses as data

A `Use` is one thing that the embedding program can do with a bridge, and a run is a list of uses,
each with how deep native bodies may call one another in it. So what happens in a run can be told by
recursion.

* `Bridge.step_iff_use` and `Bridge.run_iff_useAll` say that these are the steps and the runs.
* `Program.Along` says something of every operation that a program asks for, in the state in which
  it asks; `Bridge.Throughout` says it of an operation and of all that is asked for in its call.
* `Program.Yields` says what a program asks for and ends with, whatever the answers are.
-/

namespace ScriptBridge
set_option autoImplicit false

inductive Use where
  | ask (op : Operation)
  | defineClass (c : NativeClass)
  | loadModule (m : Module)
  | collectUntil (holds : Nat → Bridge → Bool)
  | hold (o : InstanceHandle)
  | letGo (o : InstanceHandle)
  | dropsMayPanic (dropsMayPanic : Bool)

namespace Bridge

/-- What a use makes of a bridge, calls of native bodies nested at most `nesting` deep. -/
def use (b : Bridge) (nesting : Nat) : Use → Bridge
  | .ask op => (server nesting op b).2
  | .defineClass c => (b.defineClass c).2
  | .loadModule m => (b.loadModule m).2
  | .collectUntil holds => (b.collectUntil holds).2
  | .hold o => b.hold o
  | .letGo o => b.letGo o
  | .dropsMayPanic dropsMayPanic => { b with dropsMayPanic }

def useAll (b : Bridge) : List (Nat × Use) → Bridge
  | [] => b
  | (nesting, u) :: rest => (b.use nesting u).useAll rest

variable {b b' : Bridge}

theorem step_iff_use {nesting : Nat} : Step nesting b b' ↔ ∃ u, b' = b.use nesting u := by
  constructor
  · intro h
    cases h with
    | ask op => exact ⟨.ask op, rfl⟩
    | defineClass c => exact ⟨.defineClass c, rfl⟩
    | loadModule m => exact ⟨.loadModule m, rfl⟩
    | collectUntil holds => exact ⟨.collectUntil holds, rfl⟩
    | hold o => exact ⟨.hold o, rfl⟩
    | letGo o => exact ⟨.letGo o, rfl⟩
    | dropsMayPanic dropsMayPanic => exact ⟨.dropsMayPanic dropsMayPanic, rfl⟩
  · rintro ⟨u, rfl⟩
    cases u with
    | ask op => exact .ask op
    | defineClass c => exact .defineClass c
    | loadModule m => exact .loadModule m
    | collectUntil holds => exact .collectUntil holds
    | hold o => exact .hold o
    | letGo o => exact .letGo o
    | dropsMayPanic dropsMayPanic => exact .dropsMayPanic dropsMayPanic

theorem run_iff_useAll : Run b b' ↔ ∃ uses, b' = b.useAll uses := by
  constructor
  · intro h
    induction h using Relation.ReflTransGen.head_induction_on with
    | refl => exact ⟨[], rfl⟩
    | head hstep _ ih =>
      obtain ⟨nesting, hstep⟩ := hstep
      obtain ⟨u, rfl⟩ := step_iff_use.1 hstep
      obtain ⟨uses, rfl⟩ := ih
      exact ⟨(nesting, u) :: uses, rfl⟩
  · rintro ⟨uses, rfl⟩
    induction uses generalizing b with
    | nil => exact Relation.ReflTransGen.refl
    | cons use rest ih =>
      have hstep : Step use.1 b (b.use use.1 use.2) := step_iff_use.2 ⟨use.2, rfl⟩
      exact Relation.ReflTransGen.head ⟨use.1, hstep⟩ ih

end Bridge

/-! ## What bodies ask for -/

namespace Program

variable {α β : Type}

/-- `P` holds of every operation that a run of the program asks for, in the state in which it asks.
-/
def Along (serve : Server) (P : Operation → Bridge → Prop) : Program α → Bridge → Prop
  | .done _, _ => True
  | .ask op next, b => P op b ∧ (next (serve op b).1).Along serve P (serve op b).2

/-- The program asks for operations of which `P` holds and ends with a value of which `Q` holds,
whatever the answers are. -/
def Yields (P : Operation → Prop) (Q : α → Prop) : Program α → Prop
  | .done a => Q a
  | .ask op next => P op ∧ ∀ r, (next r).Yields P Q

section
variable {P : Operation → Prop} {Q : α → Prop} {serve : Server} {p : Program α}

theorem Yields.bind {R : β → Prop} {f : α → Program β} (h : p.Yields P Q)
    (hf : ∀ a, Q a → (f a).Yields P R) : (p >>= f).Yields P R := by
  induction p with
  | done a => exact hf a h
  | ask op next ih => exact ⟨h.1, fun r => ih r (h.2 r)⟩

theorem Yields.mono {P' : Operation → Prop} {Q' : α → Prop} (h : p.Yields P Q)
    (hP : ∀ op, P op → P' op) (hQ : ∀ a, Q a → Q' a) : p.Yields P' Q' := by
  induction p with
  | done a => exact hQ a h
  | ask op next ih => exact ⟨hP op h.1, fun r => ih r (h.2 r)⟩

theorem Yields.along {P' : Operation → Bridge → Prop} (hP : ∀ op b, P op → P' op b)
    (h : p.Yields P Q) (b : Bridge) : p.Along serve P' b := by
  induction p generalizing b with
  | done a => trivial
  | ask op next ih => exact ⟨hP op b h.1, ih _ (h.2 _) _⟩

/-- What relates two bridges across every operation relates them across the program. -/
theorem Yields.run {R : Bridge → Bridge → Prop} (hrefl : ∀ b, R b b)
    (htrans : ∀ {b b' b''}, R b b' → R b' b'' → R b b'')
    (hserve : ∀ op b, P op → R b (serve op b).2) (h : p.Yields P Q) (b : Bridge) :
    Q (p.run serve b).1 ∧ R b (p.run serve b).2 := by
  induction p generalizing b with
  | done a => exact ⟨h, hrefl b⟩
  | ask op next ih =>
    obtain ⟨hq, hr⟩ := ih _ (h.2 (serve op b).1) (serve op b).2
    exact ⟨hq, htrans (hserve op b h.1) hr⟩

end

theorem run_bind (serve : Server) (p : Program α) (f : α → Program β) (b : Bridge) :
    (p >>= f).run serve b = (f (p.run serve b).1).run serve (p.run serve b).2 := by
  induction p generalizing b with
  | done a => rfl
  | ask op next ih => exact ih _ _

end Program

namespace Body

variable {α β : Type}

theorem run_bind (serve : Server) (x : Body α) (f : α → Body β) (b : Bridge) :
    (x >>= f).outcome.run serve b = match x.outcome.run serve b with
      | (.ok a, b) => (f a).outcome.run serve b
      | (.error err, b) => (.error err, b) := by
  have hbind := Program.run_bind serve x.outcome (ExceptT.bindCont f) b
  refine Eq.trans hbind ?_
  rcases x.outcome.run serve b with ⟨_ | _, b'⟩ <;> rfl

theorem run_lift (serve : Server) (p : Program α) (b : Bridge) :
    (outcome (ExceptT.lift p)).run serve b = (.ok (p.run serve b).1, (p.run serve b).2) :=
  Program.run_bind serve p (fun a => .done (.ok a : Except BridgeError α)) b

theorem yields_bind {P : Operation → Prop} {Q : α → Prop} {R : Except BridgeError β → Prop}
    {x : Body α} {f : α → Body β} (hx : x.outcome.Yields P fun r => ∀ a, r = .ok a → Q a)
    (hf : ∀ a, Q a → (f a).outcome.Yields P R) (herror : ∀ err, R (.error err)) :
    (x >>= f).outcome.Yields P R := by
  refine Program.Yields.bind hx fun r hr => ?_
  cases r with
  | ok a => exact hf a (hr a rfl)
  | error err => exact herror err

end Body

namespace Bridge

/-- `P` holds of the operation and, if it calls a native body, of every operation that is asked for
in the call. -/
def Throughout (P : Operation → Bridge → Prop) : Nat → Operation → Bridge → Prop
  | 0, op, b => P op b
  | nesting + 1, op, b => P op b ∧ ∀ c, b.call? op = some c → ∀ handed, c.handed? b = .ok handed →
      (c.body handed).outcome.Along (server nesting) (Throughout P nesting) (c.begun b)

end Bridge
end ScriptBridge
