import ScriptBridge.Host.Engine
import ScriptBridge.Proofs.Host.Naming

/-! # The innermost scope and those around it

What is pinned goes to the innermost scope, and a scope that opens becomes the innermost one.

* `Roots.outer` and `Roots.innermost` split the open scopes: `Roots.scopes_eq`.
* `Roots.outer_pin`, `Roots.innermost_pin` and `Roots.scopes_closeScope` say what the operations do
  to the two parts.
* `Engine.scopes_invoke`: a host function leaves its caller every scope as it was.
* `Engine.invoke_eq_reply`: nothing is left of a call but what the function reported.
-/

namespace ScriptBridge
set_option autoImplicit false

namespace Roots

/-- The scopes around the innermost one, the outermost first. -/
def outer (r : Roots) : List HandleScope :=
  match r.inner with
  | [] => []
  | _ :: rest => r.outermost :: rest.reverse

def innermost (r : Roots) : HandleScope := r.inner.headD r.outermost

variable {r r' : Roots}

theorem length_scopes (r : Roots) : r.scopes.length = r.depth := by simp [scopes, depth]

theorem scopes_eq (r : Roots) : r.scopes = r.outer ++ [r.innermost] := by
  cases hinner : r.inner <;> simp [outer, innermost, scopes, hinner]

theorem length_outer (r : Roots) : r.outer.length + 1 = r.depth := by
  rw [← length_scopes, scopes_eq, List.length_append, List.length_singleton]

theorem outer_openScope (r : Roots) : r.openScope.outer = r.scopes := rfl

theorem outer_pin (r : Roots) (v : Script.Value) : (r.pin v).outer = r.outer := by
  unfold pin
  split
  · rfl
  · cases hinner : r.inner <;> simp [outer, hinner]

/-- A pin goes to the end of the innermost scope, if the value names an object. -/
theorem innermost_pin (r : Roots) (v : Script.Value) :
    (r.pin v).innermost = if v.objects = [] then r.innermost else r.innermost ++ [v] := by
  unfold pin
  by_cases hnone : v.objects = []
  · simp [hnone]
  · cases hinner : r.inner <;> simp [innermost, hinner, hnone]

theorem globals_pin (r : Roots) (v : Script.Value) : (r.pin v).globals = r.globals := by
  unfold pin
  split
  · rfl
  · cases r.inner <;> rfl

/-- There is a scope to close when there are scopes around it. -/
theorem scopes_closeScope (h : r.outer ≠ []) : r.closeScope.2.scopes = r.outer := by
  unfold Roots.closeScope
  cases hinner : r.inner with
  | nil => simp [outer, hinner] at h
  | cons scope rest => simp [outer, scopes, hinner]

/-- A scope is closed that was opened when the scopes were those of `r`. -/
theorem scopes_closeScope_of_outer (h : r'.outer = r.scopes) :
    r'.closeScope.2.scopes = r.scopes := by
  have hsome : r.scopes ≠ [] := by simp [scopes]
  rw [scopes_closeScope (h ▸ hsome), h]

theorem outer_eq_take (r : Roots) : r.outer = r.scopes.take (r.depth - 1) := by
  have hlen := r.length_outer
  rw [scopes_eq, List.take_append_of_le_length (by omega), List.take_of_length_le (by omega)]

/-- Closing a scope changes nothing further out. -/
theorem take_scopes_closeScope {d : Nat} (hd : d ≤ r.closeScope.2.depth) :
    r.closeScope.2.scopes.take d = r.scopes.take d := by
  by_cases hnone : r.outer = []
  · cases hinner : r.inner <;> simp [outer, Roots.closeScope, hinner] at hnone ⊢
  · rw [← length_scopes, scopes_closeScope hnone] at hd
    rw [scopes_closeScope hnone, scopes_eq r, List.take_append_of_le_length hd]

/-- The scopes further out are told apart by those around the innermost one. -/
theorem take_scopes_of_outer {d : Nat} (h : r'.outer = r.outer) (hd : d < r.depth) :
    r'.scopes.take d = r.scopes.take d := by
  have hlen := r.length_outer
  rw [scopes_eq r', scopes_eq r, h, List.take_append_of_le_length (by omega),
    List.take_append_of_le_length (by omega)]

end Roots

namespace Engine

theorem outer_pinAll (e : Engine) (vs : List Script.Value) :
    (e.pinAll vs).roots.outer = e.roots.outer := by
  induction vs generalizing e with
  | nil => rfl
  | cons v rest ih => exact (ih (e.pin v)).trans (e.roots.outer_pin v)

/-- A call opens a scope and pins its arguments in it. -/
theorem outer_openScope_pinAll (e : Engine) (vs : List Script.Value) :
    (e.openScope.pinAll vs).roots.outer = e.roots.scopes :=
  (e.openScope.outer_pinAll vs).trans e.roots.outer_openScope

/-- A host function runs in a scope of its own, whatever it ends with. -/
theorem scopes_invoke (e : Engine) (id : ObjectId) (args : List Script.Value) :
    (e.invoke id args).2.roots.scopes = e.roots.scopes := by
  unfold invoke
  cases e.body id with
  | error err => rfl
  | ok body =>
    have hclosed := Roots.scopes_closeScope_of_outer (e.outer_openScope_pinAll args)
    dsimp only [Engine.closeScope, note]
    split <;> exact hclosed

/-! ## Replies -/

/-- What an object answers to a call, and what it reports on the way. One that is no function, or
not there, answers with the failure. -/
def reply (e : Engine) (id : ObjectId) (args : List Script.Value) : Reply :=
  match e.body id with
  | .ok body => body args
  | .error err => { result := .error err.toBridgeError }

/-- The arguments of a call are pinned in its own scope and nowhere else. -/
theorem exists_openScope_pinAll (e : Engine) (vs : List Script.Value) : ∃ scope,
    e.openScope.pinAll vs = { e with roots := { e.roots with inner := scope :: e.roots.inner } } := by
  have hpin : ∀ scope v, ∃ scope', ({ e with
      roots := { e.roots with inner := scope :: e.roots.inner } } : Engine).pin v =
        { e with roots := { e.roots with inner := scope' :: e.roots.inner } } := by
    intro scope v
    unfold Engine.pin Roots.pin
    split
    · exact ⟨scope, rfl⟩
    · exact ⟨scope ++ [v], rfl⟩
  have hall : ∀ scope, ∃ scope', ({ e with
      roots := { e.roots with inner := scope :: e.roots.inner } } : Engine).pinAll vs =
        { e with roots := { e.roots with inner := scope' :: e.roots.inner } } := by
    induction vs with
    | nil => exact fun scope => ⟨scope, rfl⟩
    | cons v rest ih =>
      intro scope
      obtain ⟨scope', hscope'⟩ := hpin scope v
      rw [pinAll, List.foldl_cons, hscope']
      exact ih scope'
  exact hall []

/-- **A call of a function leaves nothing behind but its report.** -/
theorem invoke_eq_reply (e : Engine) (id : ObjectId) (args : List Script.Value) :
    e.invoke id args = ((e.reply id args).result, e.note (e.reply id args).events) := by
  unfold invoke reply
  cases e.body id with
  | error err => simp [note]
  | ok body =>
    obtain ⟨scope, hscope⟩ := e.exists_openScope_pinAll args
    dsimp only
    rw [hscope]
    rfl

end Engine
end ScriptBridge
