import ScriptBridge.Native.Value
import ScriptBridge.Table

/-! # The handle registry

The registry binds every native instance that script has seen to the wrapper it is seen as. It keeps
two tables, from the instance to its wrapper and from the wrapper to a binding of the instance;
neither keeps a wrapper alive, unless the binding has been switched to strong mode.

* `Registry.bind` binds an instance to a new wrapper; a wrapper that is bound already stays.
* `Registry.retire?` takes out the binding of a wrapper that the host no longer holds.
-/

namespace ScriptBridge
set_option autoImplicit false

inductive RetentionMode where
  /-- Reachable through script references and ownership edges only. -/
  | weak
  /-- A root of every collection. -/
  | strong
deriving DecidableEq, Repr, Inhabited

def RetentionMode.diagnostic : RetentionMode → String
  | weak => "Weak"
  | strong => "Strong"

structure Binding where
  native : InstanceHandle
  mode : RetentionMode
deriving DecidableEq, Repr, Inhabited

structure Registry where
  byNative : Table InstanceId ObjectId := .empty
  bindings : Table ObjectId Binding := .empty
deriving Inhabited

namespace Registry

/-! ## Reading -/

/-- The wrapper bound to the instance of a handle. -/
def wrapper? (r : Registry) (o : InstanceHandle) : Option ObjectId := r.byNative.find? o.identity

def binding? (r : Registry) (wrapper : ObjectId) : Option Binding := r.bindings.find? wrapper

def native? (r : Registry) (wrapper : ObjectId) : Option InstanceHandle :=
  (r.binding? wrapper).map (·.native)

def mode? (r : Registry) (wrapper : ObjectId) : Option RetentionMode :=
  (r.binding? wrapper).map (·.mode)

def contains (r : Registry) (wrapper : ObjectId) : Bool := (r.binding? wrapper).isSome

def strongWrappers (r : Registry) : List ObjectId :=
  (r.bindings.entries.filter fun (_, binding) => binding.mode = .strong).map (·.1)

def size (r : Registry) : Nat := r.bindings.size

def isEmpty (r : Registry) : Bool := r.bindings.isEmpty

/-! ## Changing -/

/-- The instance bound to `wrapper`, unless it has a wrapper already; the wrapper it ends up with.
-/
def bind (r : Registry) (o : InstanceHandle) (wrapper : ObjectId) : ObjectId × Registry :=
  match r.wrapper? o with
  | some bound => (bound, r)
  | none =>
    (wrapper,
      { byNative := r.byNative.insert o.identity wrapper
        bindings := r.bindings.insert wrapper ⟨o, .weak⟩ })

/-- The mode of a binding switched, and whether there is one. -/
def setMode (r : Registry) (wrapper : ObjectId) (mode : RetentionMode) : Bool × Registry :=
  (r.contains wrapper,
    { r with bindings := r.bindings.adjust wrapper fun binding => { binding with mode } })

/-- The binding of `wrapper` taken out. The instance loses its wrapper too, if that is the one. -/
def retire? (r : Registry) (wrapper : ObjectId) : Option (Binding × Registry) :=
  (r.binding? wrapper).map fun binding =>
    let identity := binding.native.identity
    (binding,
      { byNative :=
          if r.byNative.find? identity = some wrapper then r.byNative.erase identity
          else r.byNative
        bindings := r.bindings.erase wrapper })

end Registry
end ScriptBridge
