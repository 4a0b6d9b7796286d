import ScriptBridge.Event
import ScriptBridge.Script.Value
import ScriptBridge.Table

/-! # Roots

The roots of a collection are the values pinned in open handle scopes and the global bindings.
Scopes nest; the outermost one is permanent and never closes.

* `Roots.pin` keeps a value in the innermost scope, if it names an object at all.
* `Roots.objects` lists every object a root names.
-/

namespace ScriptBridge
set_option autoImplicit false

/-- The values pinned in one handle scope, the oldest first. -/
abbrev HandleScope := List Script.Value

structure Roots where
  /-- The scopes that can be closed, the innermost first. -/
  inner : List HandleScope := []
  outermost : HandleScope := []
  globals : Table String Script.Value := .empty
deriving Inhabited

namespace Roots

/-! ## Scopes -/

def openScope (r : Roots) : Roots := { r with inner := [] :: r.inner }

/-- The innermost scope closed, and whether there was one to close. -/
def closeScope (r : Roots) : Bool × Roots :=
  match r.inner with
  | [] => (false, r)
  | _ :: rest => (true, { r with inner := rest })

def depth (r : Roots) : Nat := r.inner.length + 1

/-- A value that names no object needs no pin. -/
def pin (r : Roots) (v : Script.Value) : Roots :=
  if v.objects.isEmpty then r
  else match r.inner with
    | [] => { r with outermost := r.outermost ++ [v] }
    | scope :: rest => { r with inner := (scope ++ [v]) :: rest }

/-! ## Globals -/

def setGlobal (r : Roots) (name : String) (v : Script.Value) : Roots :=
  { r with globals := r.globals.insert name v }

def global? (r : Roots) (name : String) : Option Script.Value := r.globals.find? name

def removeGlobal (r : Roots) (name : String) : Option Script.Value × Roots :=
  (r.global? name, { r with globals := r.globals.erase name })

/-! ## Reading -/

def values (r : Roots) : List Script.Value := r.outermost ++ r.inner.flatten ++ r.globals.values

/-- Every object a root names, repetitions kept. -/
def objects (r : Roots) : List ObjectId := r.values.flatMap Script.Value.objects

def size (r : Roots) : Nat := r.values.length

def isEmpty (r : Roots) : Bool := r.size == 0

end Roots
end ScriptBridge
