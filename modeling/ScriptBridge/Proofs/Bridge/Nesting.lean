import ScriptBridge.Proofs.Bridge.Uses
import Mathlib.Order.Nat

/-! # How deep calls nest

Bodies are served to a depth, and that is fuel: a call that gets along with some of it does the same
with more.

* `Bridge.Fits` says of an operation that the calls in it nest at most so deep.
* `Bridge.server_of_fits`: any more fuel than that makes no difference.
-/

namespace ScriptBridge
set_option autoImplicit false

/-- Whether an operation is a call, found or not. -/
def Operation.IsCall : Operation → Prop
  | .construct .. | .callMethod .. | .callFunction .. | .callSymbol .. => True
  | _ => False

namespace Bridge

/-- The calls that an operation leads to nest at most so deep. -/
def Fits : Nat → Operation → Bridge → Prop
  | 0, op, _ => ¬ op.IsCall
  | nesting + 1, op, b => ∀ c, b.call? op = some c → ∀ handed, c.handed? b = .ok handed →
      (c.body handed).outcome.Along (server nesting) (Fits nesting) (c.begun b)

variable {serve serve' : Server} {b : Bridge} {op : Operation}

/-! ## Calls served in two ways -/

section
variable {P P' : Operation → Bridge → Prop}
  (hserve : ∀ op b, P op b → serve' op b = serve op b ∧ P' op b)
include hserve

theorem program_congr {α : Type} (p : Program α) (h : p.Along serve P b) :
    p.run serve' b = p.run serve b ∧ p.Along serve' P' b := by
  induction p generalizing b with
  | done a => exact ⟨rfl, trivial⟩
  | ask op next ih =>
    obtain ⟨hsame, hinside⟩ := hserve op b h.1
    obtain ⟨hrun, hnext⟩ := ih (serve op b).1 h.2
    rw [← hsame] at hrun hnext
    refine ⟨Eq.trans hrun ?_, hinside, hnext⟩
    rw [hsame]
    rfl

theorem run_congr (c : Call) (h : ∀ handed, c.handed? b = .ok handed →
      (c.body handed).outcome.Along serve P (c.begun b)) :
    c.run serve' b = c.run serve b ∧ ∀ handed, c.handed? b = .ok handed →
      (c.body handed).outcome.Along serve' P' (c.begun b) := by
  have hbody := fun handed hhanded => program_congr hserve _ (h handed hhanded)
  refine ⟨?_, fun handed hhanded => (hbody handed hhanded).2⟩
  rw [c.run_eq, c.run_eq]
  cases hhanded : c.handed? b with
  | error err => rfl
  | ok handed =>
    have hrun : ((c.body handed).run serve').run (c.begun b) =
        ((c.body handed).run serve).run (c.begun b) := (hbody handed hhanded).1
    dsimp only
    rw [hrun]

end

theorem answer_congr (h : ∀ c, b.call? op = some c → c.run serve' b = c.run serve b) :
    answer (some serve') op b = answer (some serve) op b := by
  cases op with
  | construct className args => exact (b.constructBy_comesTo className args).congr h
  | callMethod receiver name args => exact (b.callMethodBy_comesTo receiver name args).congr h
  | callFunction moduleName name args =>
    exact (b.callFunctionBy_comesTo moduleName name args).congr h
  | callSymbol symbol args => exact (b.callSymbolBy_comesTo symbol args).congr h
  | _ => rfl

/-! ## More fuel -/

theorem server_succ_of_fits {nesting : Nat} (h : Fits nesting op b) :
    server (nesting + 1) op b = server nesting op b ∧ Fits (nesting + 1) op b := by
  -- On the fuel: what a body asks for fits with one less.
  induction nesting generalizing op b with
  | zero =>
    cases op with
    | construct | callMethod | callFunction | callSymbol => exact absurd trivial h
    | _ => exact ⟨rfl, nofun⟩
  | succ nesting ih =>
    have hcall := fun c hc => run_congr (fun op b => ih) c (h c hc)
    exact ⟨answer_congr fun c hc => (hcall c hc).1, fun c hc => (hcall c hc).2⟩

/-- **Fuel that is enough is as good as any more.** -/
theorem server_of_fits {nesting nesting' : Nat} (h : Fits nesting op b)
    (hle : nesting ≤ nesting') : server nesting' op b = server nesting op b := by
  have hboth : server nesting' op b = server nesting op b ∧ Fits nesting' op b := by
    induction nesting', hle using Nat.le_induction with
    | base => exact ⟨rfl, h⟩
    | succ more _ ih =>
      obtain ⟨hsame, hfits⟩ := server_succ_of_fits ih.2
      exact ⟨hsame.trans ih.1, hfits⟩
  exact hboth.1

end Bridge
end ScriptBridge
