import ScriptBridge.Proofs.Bridge.Calls
import ScriptBridge.Proofs.Bridge.Operations

/-! # Runs

What can become of a bridge that is used in whatever way.

* `Bridge.Step` is one use of a bridge: an operation, among them calls of native bodies and
  collections of the host with any retention; a definition of a class; the loading of a module; and
  so on. `Bridge.Run` is any number of uses, and a bridge is `Bridge.Reachable` if it comes from a
  run of an empty one.
* `Bridge.Later d` is a run without calls of native bodies that leaves at least `d` scopes open.
* `Bridge.KeepsOpen d` says of an operation that the bodies that run in it never leave fewer than
  `d` scopes open, and `Bridge.Used d` is a run of such operations. Their calls come down to a run
  without calls: `Bridge.later_server`.
* `Bridge.Run.moves` is any run as moves in a row.
-/

namespace ScriptBridge
set_option autoImplicit false

namespace Bridge

/-! ## Uses of a bridge -/

/-- What one use can make of a bridge, calls of native bodies nested at most `nesting` deep. -/
inductive Step (nesting : Nat) (b : Bridge) : Bridge → Prop where
  | ask (op : Operation) : Step nesting b (server nesting op b).2
  | defineClass (c : NativeClass) : Step nesting b (b.defineClass c).2
  | loadModule (m : Module) : Step nesting b (b.loadModule m).2
  | collectUntil (holds : Nat → Bridge → Bool) : Step nesting b (b.collectUntil holds).2
  | hold (o : InstanceHandle) : Step nesting b (b.hold o)
  | letGo (o : InstanceHandle) : Step nesting b (b.letGo o)
  | dropsMayPanic (dropsMayPanic : Bool) : Step nesting b { b with dropsMayPanic }

/-- Any number of uses one after another. -/
def Run : Bridge → Bridge → Prop := Relation.ReflTransGen fun b b' => ∃ nesting, Step nesting b b'

/-- A bridge that comes from an empty one by being used. -/
def Reachable (b : Bridge) : Prop := ∃ options : Options, Run { options } b

/-- Uses without calls of native bodies one after another, with at least `d` scopes open after
each. -/
def Later (d : Nat) : Bridge → Bridge → Prop :=
  Relation.ReflTransGen fun b b' => Step 0 b b' ∧ d ≤ b'.depth

variable {d : Nat} {b b' b'' : Bridge}

theorem Later.refl (d : Nat) (b : Bridge) : Later d b b := Relation.ReflTransGen.refl

theorem Later.trans (h : Later d b b') (h' : Later d b' b'') : Later d b b'' :=
  Relation.ReflTransGen.trans h h'

theorem Later.le_depth (h : Later d b b') (hd : d ≤ b.depth) : d ≤ b'.depth := by
  cases h with
  | refl => exact hd
  | tail _ hstep => exact hstep.2

theorem Step.moves (h : Step 0 b b') (hd : d ≤ b.depth) (hd' : d ≤ b'.depth) : Moves d b b' := by
  cases h with
  | ask op => exact moves_answer op hd hd'
  | defineClass c => exact moves_defineClass hd c
  | loadModule m => exact moves_loadModule hd m
  | collectUntil holds => exact moves_pursue holds _ 0 hd
  | hold o =>
    exact (Move.aside b b.classes b.modules b.instances _ b.dropsMayPanic b.engine.journal).moves hd
  | letGo o =>
    exact (Move.aside b b.classes b.modules b.instances _ b.dropsMayPanic b.engine.journal).moves hd
  | dropsMayPanic dropsMayPanic =>
    exact (Move.aside b b.classes b.modules b.instances b.held _ b.engine.journal).moves hd

theorem Later.moves (h : Later d b b') (hd : d ≤ b.depth) : Moves d b b' := by
  induction h with
  | refl => exact .refl d b
  | tail _ hstep ih => exact ih.trans (hstep.1.moves (ih.le_depth hd) hstep.2)

/-! ## Bodies that leave scopes open -/

end Bridge

/-- In no operation of a program, nor after one, are there fewer than `d` scopes open; `inside` says
so for what happens inside an operation. -/
def Program.KeepsOpen {α : Type} (d : Nat) (serve : Server) (inside : Operation → Bridge → Prop) :
    Program α → Bridge → Prop
  | .done _, _ => True
  | .ask op next, b =>
    inside op b ∧ d ≤ (serve op b).2.depth ∧
      (next (serve op b).1).KeepsOpen d serve inside (serve op b).2

namespace Bridge

/-- The body of a call that an operation asks for never leaves fewer than `d` scopes open, and
neither do those of the calls in it. -/
def KeepsOpen (d : Nat) : Nat → Operation → Bridge → Prop
  | 0, _, _ => True
  | nesting + 1, op, b => ∀ c, b.call? op = some c → ∀ handed, c.handed? b = .ok handed →
      (c.body handed).outcome.KeepsOpen d (server nesting) (KeepsOpen d nesting) (c.begun b)

variable {d : Nat} {b b' b'' : Bridge}

/-- Any number of scopes is at least none. -/
theorem program_keepsOpen_zero {α : Type} {serve : Server} {inside : Operation → Bridge → Prop}
    (hinside : ∀ op b, inside op b) (p : Program α) (b : Bridge) :
    p.KeepsOpen 0 serve inside b := by
  induction p generalizing b with
  | done a => trivial
  | ask op next ih => exact ⟨hinside op b, Nat.zero_le _, ih _ _⟩

theorem keepsOpen_zero (nesting : Nat) (op : Operation) (b : Bridge) :
    KeepsOpen 0 nesting op b := by
  induction nesting generalizing op b with
  | zero => trivial
  | succ nesting ih => exact fun c _ handed _ => program_keepsOpen_zero ih _ _

/-! ## Calls as runs without calls -/

theorem later_ask (op : Operation) (hd : d ≤ (answer none op b).2.depth) :
    Later d b (answer none op b).2 :=
  Relation.ReflTransGen.single ⟨.ask op, hd⟩

theorem later_pin (hd : d ≤ b.depth) (v : Script.Value) : Later d b (b.pin v) :=
  later_ask (.pin v) (by rw [← b.depth_pin v] at hd; exact hd)

theorem later_pinAll (vs : List Script.Value) (hd : d ≤ b.depth) :
    Later d b (b.mapEngine (·.pinAll vs)) := by
  induction vs generalizing b with
  | nil => exact .refl d b
  | cons v rest ih => exact (later_pin hd v).trans (ih (by rw [depth_pin]; exact hd))

theorem later_entered (c : Call) (hd : d ≤ b.depth) : Later d b (c.entered b) := by
  have hopen : Later d b b.openScope := later_ask .openScope (Nat.le_succ_of_le hd)
  exact hopen.trans (later_pinAll c.args (Nat.le_succ_of_le hd))

theorem depth_beforeBody (b : Bridge) (this : Option ObjectId) (policy : CallPolicy)
    (args : List Script.Value) : (b.beforeBody this policy args).depth = b.depth := by
  unfold beforeBody
  repeat' split
  all_goals rfl

theorem depth_begun (c : Call) (b : Bridge) : (c.begun b).depth = b.depth + 1 := by
  rw [Call.begun, depth_beforeBody, Call.entered, depth_pinAll, depth_openScope]

theorem later_beforeBody (hd : d ≤ b.depth) (this : Option ObjectId) (policy : CallPolicy)
    (args : List Script.Value) : Later d b (b.beforeBody this policy args) := by
  unfold beforeBody
  split
  · split
    next parent child _ => exact later_ask (.removeEdge parent child) hd
    · exact .refl d b
  · exact .refl d b

theorem later_begun (c : Call) (hd : d ≤ b.depth) : Later d b (c.begun b) := by
  have hentered := later_entered c hd
  exact hentered.trans (later_beforeBody (hentered.le_depth hd) c.this c.policy c.args)

theorem later_afterBody (hd : d ≤ b.depth) (this : Option ObjectId) (policy : CallPolicy)
    (args : List Script.Value) : Later d b (b.afterBody this policy args) := by
  unfold afterBody
  split
  · split
    next parent child _ => exact later_ask (.addEdge parent child) hd
    · exact .refl d b
  · exact .refl d b

theorem later_toScript (hd : d ≤ b.depth) (n : Native.Value) : Later d b (b.toScript n).2 :=
  later_ask (.toScript n) ((moves_toScript hd n).le_depth hd)

theorem later_program {α : Type} {serve : Server} {inside : Operation → Bridge → Prop}
    (hserve : ∀ op b, d ≤ b.depth → d ≤ (serve op b).2.depth → inside op b →
      Later d b (serve op b).2)
    (p : Program α) (hd : d ≤ b.depth) (hkeeps : p.KeepsOpen d serve inside b) :
    Later d b (p.run serve b).2 := by
  induction p generalizing b with
  | done a => exact .refl d b
  | ask op next ih =>
    obtain ⟨hinside, hdepth, hnext⟩ := hkeeps
    exact (hserve op b hd hdepth hinside).trans (ih _ hdepth hnext)

theorem later_body {α : Type} {serve : Server} {inside : Operation → Bridge → Prop}
    (hserve : ∀ op b, d ≤ b.depth → d ≤ (serve op b).2.depth → inside op b →
      Later d b (serve op b).2)
    (body : Body α) (hd : d ≤ b.depth) (hkeeps : body.outcome.KeepsOpen d serve inside b) :
    Later d b ((body.run serve).run b).2 :=
  later_program hserve body.outcome hd hkeeps

/-- What is done in the body of a call and around it. -/
theorem later_run (c : Call) {nesting : Nat}
    (hserve : ∀ op b, d ≤ b.depth → d ≤ (server nesting op b).2.depth → KeepsOpen d nesting op b →
      Later d b (server nesting op b).2)
    (hd : d ≤ b.depth) (hd' : d ≤ (c.run (server nesting) b).2.depth)
    (hkeeps : ∀ handed, c.handed? b = .ok handed →
      (c.body handed).outcome.KeepsOpen d (server nesting) (KeepsOpen d nesting) (c.begun b)) :
    Later d b (c.run (server nesting) b).2 := by
  have hentered := later_entered c hd
  rw [c.run_eq] at hd' ⊢
  cases hhanded : c.handed? b with
  | error err =>
    rw [hhanded] at hd'
    exact hentered.trans (later_ask .closeScope hd')
  | ok handed =>
    rw [hhanded] at hd'
    have hbegun := later_begun c hd
    have hbody := hbegun.trans
      (later_body hserve (c.body handed) (hbegun.le_depth hd) (hkeeps handed hhanded))
    dsimp only at hd' ⊢
    generalize ((c.body handed).run (server nesting)).run (c.begun b) = result at hd' hbody ⊢
    obtain ⟨_ | n, after⟩ := result
    · exact hbody.trans (later_ask .closeScope hd')
    · have hafter := hbody.trans (later_afterBody (hbody.le_depth hd) c.this c.policy c.args)
      have hconverted := hafter.trans (later_toScript (hafter.le_depth hd) n)
      dsimp only [Call.finish] at hd' ⊢
      generalize (after.afterBody c.this c.policy c.args).toScript n = result at hd' hconverted ⊢
      obtain ⟨_ | v, final⟩ := result
      · exact hconverted.trans (later_ask .closeScope hd')
      · have hclosed : d ≤ final.closeScope.depth := by
          rw [← final.closeScope.depth_pin v]
          exact hd'
        exact (hconverted.trans (later_ask .closeScope hclosed)).trans (later_pin hclosed v)

/-- **Calls come down to a run without calls.** -/
theorem later_server (nesting : Nat) (op : Operation) (b : Bridge) (hd : d ≤ b.depth)
    (hd' : d ≤ (server nesting op b).2.depth) (hkeeps : KeepsOpen d nesting op b) :
    Later d b (server nesting op b).2 := by
  -- On how deep calls may nest: what a body asks for is served one level further down.
  induction nesting generalizing op b with
  | zero => exact later_ask op hd'
  | succ nesting ih =>
    rw [server, state_answer_some] at hd' ⊢
    cases hcall : b.call? op with
    | none =>
      rw [hcall] at hd'
      exact later_ask op hd'
    | some c =>
      rw [hcall] at hd'
      exact later_run c ih hd hd' (hkeeps c hcall)

/-- Uses one after another that leave at least `d` scopes open, also in the bodies of calls. -/
def Used (d : Nat) : Bridge → Bridge → Prop :=
  Relation.ReflTransGen fun b b' => d ≤ b'.depth ∧ (Step 0 b b' ∨
    ∃ nesting op, KeepsOpen d nesting op b ∧ b' = (server nesting op b).2)

theorem Later.used (h : Later d b b') : Used d b b' := by
  induction h with
  | refl => exact Relation.ReflTransGen.refl
  | tail _ hstep ih => exact ih.tail ⟨hstep.2, .inl hstep.1⟩

theorem Used.later (h : Used d b b') (hd : d ≤ b.depth) : Later d b b' := by
  induction h with
  | refl => exact .refl d b
  | tail _ hstep ih =>
    obtain ⟨hd', hflat | ⟨nesting, op, hkeeps, rfl⟩⟩ := hstep
    · exact ih.tail ⟨hflat, hd'⟩
    · exact ih.trans (later_server nesting op _ (ih.le_depth hd) hd' hkeeps)

/-- Every use of a bridge comes down to a run without calls. -/
theorem Step.later {nesting : Nat} (h : Step nesting b b') : Later 0 b b' := by
  have hflat : ∀ {c : Bridge}, Step 0 b c → Later 0 b c := fun h =>
    Relation.ReflTransGen.single ⟨h, Nat.zero_le _⟩
  cases h with
  | ask op => exact later_server nesting op b (Nat.zero_le _) (Nat.zero_le _) (keepsOpen_zero _ _ _)
  | defineClass c => exact hflat (.defineClass c)
  | loadModule m => exact hflat (.loadModule m)
  | collectUntil holds => exact hflat (.collectUntil holds)
  | hold o => exact hflat (.hold o)
  | letGo o => exact hflat (.letGo o)
  | dropsMayPanic dropsMayPanic => exact hflat (.dropsMayPanic dropsMayPanic)

/-- A run comes down to a run without calls. -/
theorem Run.later (h : Run b b') : Later 0 b b' := by
  induction h with
  | refl => exact .refl 0 b
  | tail _ hstep ih =>
    obtain ⟨nesting, hstep⟩ := hstep
    exact ih.trans hstep.later

theorem Run.moves (h : Run b b') : Moves 0 b b' := h.later.moves (Nat.zero_le _)

/-- What holds of an empty bridge and is kept by every move holds of every reachable bridge. -/
theorem Reachable.invariant {P : Bridge → Prop} (hP : ∀ {x y : Bridge}, Move x y → P x → P y)
    (hstart : ∀ options : Options, P { options }) (h : b.Reachable) : P b := by
  obtain ⟨options, hrun⟩ := h
  exact hrun.moves.invariant hP (hstart options)

theorem Reachable.wellFormed (h : b.Reachable) : b.engine.heap.WellFormed :=
  h.invariant (P := fun b => b.engine.heap.WellFormed) Move.wellFormed
    fun _ => Heap.wellFormed_empty

end Bridge
end ScriptBridge
