import ScriptBridge.Class.Hierarchy

/-! # Milestones

A wrapper is bound to an instance; it is retired, which ends the binding; and the finalizer of the
class is invoked on the instance. A bridge keeps these milestones of its wrappers in the order in
which they are passed. No operation reads them, so they change nothing of what a bridge does.
-/

namespace ScriptBridge
set_option autoImplicit false

inductive Milestone where
  /-- The instance got the wrapper. -/
  | bound (wrapper : ObjectId) (native : InstanceHandle)
  /-- The binding left the registry; whether the host held the wrapper then, and the classes of
  that moment. -/
  | retired (wrapper : ObjectId) (native : InstanceHandle) (held : Bool) (classes : Hierarchy)
  /-- The finalizer was invoked on the instance. -/
  | finalizing (wrapper : ObjectId) (native : InstanceHandle) (finalizer : ClassFinalizer)

/-- The wrapper that a milestone is about. -/
def Milestone.wrapper : Milestone → ObjectId
  | bound wrapper _ | retired wrapper .. | finalizing wrapper .. => wrapper

end ScriptBridge
