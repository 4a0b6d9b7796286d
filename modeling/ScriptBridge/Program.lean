import ScriptBridge.Host.Engine
import ScriptBridge.Instance
import ScriptBridge.Native.DeclaredType
import ScriptBridge.Ownership
import ScriptBridge.Registry

/-! # Programs over a bridge

An `Operation` is one thing that native code can ask of a bridge, and `Operation.Response` what it
gets back. A `Program` asks operations one after another, each chosen by the answers so far, and
ends with a value. Native bodies are programs, so that what a body does to the bridge is open to
inspection, and any body can be quantified over.

* `Program.run` carries a program out on a state, given what every operation does.
* `Body` is a program that may fail.

Classes and modules have bodies in them, so a body does not hand over one of its own making. It
names one of those that the bridge has in store for bodies, and what is captured in it.
-/

namespace ScriptBridge
set_option autoImplicit false

inductive Operation where
  -- Calls that run a native body.
  | construct (className : String) (args : List Script.Value)
  | callMethod (receiver : Script.Value) (name : String) (args : List Script.Value)
  | callFunction (moduleName name : String) (args : List Script.Value)
  | callSymbol (symbol : String) (args : List Script.Value)
  -- Properties and script functions.
  | getProperty (receiver : Script.Value) (name : String)
  | setProperty (receiver : Script.Value) (name : String) (value : Script.Value)
  | createFunction (name : String) (body : HostFunction)
  | callScript (function : Script.Value) (args : List Script.Value)
  -- Conversion and identity.
  | toScript (value : Native.Value)
  | fromScript (value : Script.Value) (type : DeclaredType) (index : Nat)
  | wrap (object : InstanceHandle)
  | nativeOf (value : Script.Value)
  -- Instances.
  | create (className : String) (seed : Seed)
  | read (object : InstanceHandle) (kind : Kind)
  | lend (object : InstanceHandle) (kind : Kind)
  | giveBack (object : InstanceHandle) (payload : Payload)
  -- Ownership.
  | addEdge (parent child : ObjectId)
  | removeEdge (parent child : ObjectId)
  | setMode (wrapper : ObjectId) (mode : RetentionMode)
  | collect
  | collectUntil (holds : Nat → Engine → Registry → Ownership → Instances → Bool)
  -- Classes and modules.
  | defineClass (name : String) (captured : List Native.Value)
  | loadModule (name : String) (captured : List Native.Value)
  -- The host itself.
  | isAlive (id : ObjectId)
  | invoke (function : ObjectId) (args : List Script.Value)
  | openScope
  | closeScope
  | pin (value : Script.Value)
  | setGlobal (name : String) (value : Script.Value)
  | global (name : String)
  | removeGlobal (name : String)
  | hostProperty (id : ObjectId) (name : String)
  | setHostProperty (id : ObjectId) (name : String) (value : Script.Value)
  | addFinalizer (id : ObjectId) (finalizer : HostFinalizer)
  | allocateWrapper (className : String)
  | allocateFunction (name : String) (captures : List Script.Value) (body : HostFunction)
  | hostCollect (retention : Retention)

structure CollectionReport where
  swept : Nat := 0
  /-- Wrappers whose natives were finalized. -/
  finalized : Nat := 0
  /-- Ownership edges dropped with their parents. -/
  detached : Nat := 0
deriving DecidableEq, Repr, Inhabited

abbrev Operation.Response : Operation → Type
  | construct .. | callMethod .. | callFunction .. | callSymbol ..
  | getProperty .. | callScript .. | toScript _ | loadModule .. | invoke .. =>
    Except BridgeError Script.Value
  | setProperty .. | defineClass .. | setHostProperty .. | addFinalizer .. =>
    Except BridgeError Unit
  | createFunction .. => Script.Value
  | fromScript .. => Except BridgeError Native.Value
  | wrap _ | allocateWrapper _ | allocateFunction .. => ObjectId
  | nativeOf _ => Option InstanceHandle
  | create .. => InstanceHandle
  | read _ kind | lend _ kind => Except BridgeError kind.Carrier
  | giveBack .. | openScope | closeScope | pin _ | setGlobal .. => Unit
  | addEdge .. | removeEdge .. | setMode .. | collectUntil _ | isAlive _ => Bool
  | collect => CollectionReport
  | global _ | removeGlobal _ | hostProperty .. => Option Script.Value
  | hostCollect _ => List ObjectId

/-! ## Programs -/

inductive Program (α : Type) where
  | done (a : α)
  | ask (op : Operation) (next : op.Response → Program α)

namespace Program

variable {α β : Type}

def bind : Program α → (α → Program β) → Program β
  | done a, f => f a
  | ask op next, f => ask op fun r => (next r).bind f

instance : Monad Program where
  pure := done
  bind := bind

/-- One operation, and its response as the end. -/
def perform (op : Operation) : Program op.Response := ask op done

/-- A program carried out on a state, each operation by `serve`. -/
def run {σ : Type} (serve : (op : Operation) → StateM σ op.Response) : Program α → StateM σ α
  | done a => pure a
  | ask op next => do
    let r ← serve op
    (next r).run serve

end Program

/-! ## Bodies -/

abbrev Body (α : Type) := ExceptT BridgeError Program α

namespace Body

variable {α : Type}

def perform (op : Operation) : Body op.Response := ExceptT.lift (Program.perform op)

/-- A program that ends with a success or a failure, as a body. -/
def ofProgram (p : Program (Except BridgeError α)) : Body α := ExceptT.mk p

def outcome (b : Body α) : Program (Except BridgeError α) := ExceptT.run b

def ofExcept (r : Except BridgeError α) : Body α := ExceptT.mk (pure r)

def toScript (v : Native.Value) : Body Script.Value := ofProgram (Program.perform (.toScript v))

def isAlive (id : ObjectId) : Body Bool := perform (.isAlive id)

/-- The arguments converted in order, then the function called. -/
def call (function : ObjectId) (args : List Native.Value) : Body Script.Value := do
  let args ← args.mapM toScript
  ofProgram (Program.perform (.invoke function args))

/-- A call through a weak handle; nothing is called, or converted, if the target has been collected.
-/
def callWeak (h : WeakHandle) (args : List Native.Value) : Body (Option Script.Value) := do
  if ← isAlive h.id then
    return some (← call h.id args)
  else
    return none

/-- Runs `f` on the content of an instance that stays lent out meanwhile. Whatever `f` ends with,
the instance is given back with the content that `f` leaves. -/
def lending (object : InstanceHandle) (kind : Kind)
    (f : kind.Carrier → Program (kind.Carrier × Except BridgeError α)) : Body α := do
  let content ← ofProgram (Program.perform (.lend object kind))
  let (content, r) ← ExceptT.lift (f content)
  perform (.giveBack object ⟨kind, content⟩)
  ofExcept r

end Body
end ScriptBridge
