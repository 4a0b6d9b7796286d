import ScriptBridge.Bridge.Milestone
import ScriptBridge.Ownership
import ScriptBridge.Module
import ScriptBridge.Registry

/-! # The bridge

A `Bridge` is a host engine with everything that is known at the boundary: the registry of handles,
the ownership edges, the classes and modules, and the native instances.

* `Action` is a computation on a bridge that may fail. What it changed before it failed stays
  changed.
* `Bridge.owners` are the instances that something other than an instance holds on to.
-/

namespace ScriptBridge
set_option autoImplicit false

structure Options where
  /-- How deep a value may be nested for a conversion. -/
  maxDepth : Nat := 128
  /-- How many passes a collection until a condition makes. -/
  maxPasses : Nat := 10
  /-- How deep native bodies may call one another. Calls have no such limit: it is fuel, by which
  the recursion through bodies ends, and what is said of calls is said for any amount of it. -/
  maxCallNesting : Nat := 64
  /-- The classes that native bodies define, by a name and what is captured in them. -/
  nativeClass : String → List Native.Value → NativeClass := fun name _ => { name }
  /-- The modules that native bodies load. -/
  nativeModule : String → List Native.Value → Module := fun name _ => { name }
  kindNames : KindNames := fun
    | .view => "View"
    | .record => "Record"
    | .word => "UInt32"
deriving Inhabited

structure Bridge where
  engine : Engine := {}
  registry : Registry := {}
  edges : Ownership := {}
  classes : Hierarchy := {}
  modules : Table String Module := .empty
  instances : Instances := {}
  /-- The instances that the embedding program holds handles to. -/
  held : List InstanceId := []
  /-- Whether dropping a fragile record panics; the embedding program may rule it out for a while.
  -/
  dropsMayPanic : Bool := true
  options : Options := {}
  /-- What the wrappers went through, the oldest first. -/
  milestones : List Milestone := []
deriving Inhabited

/-- A computation on a bridge that may fail. -/
abbrev Action (α : Type) := ExceptT BridgeError (StateM Bridge) α

def Action.run {α : Type} (x : Action α) (b : Bridge) : Except BridgeError α × Bridge :=
  ExceptT.run x b

namespace Action

variable {α : Type}

def ofExcept (r : Except BridgeError α) : Action α := ExceptT.mk (pure r)

/-- A step of the bridge that cannot fail. -/
def step (f : Bridge → α × Bridge) : Action α := ExceptT.lift f

end Action

namespace Bridge

/-! ## The host -/

def isAlive (b : Bridge) (id : ObjectId) : Bool := b.engine.isAlive id

def note (b : Bridge) (events : List Event) : Bridge := { b with engine := b.engine.note events }

def onEngine {α : Type} (b : Bridge) (f : Engine → α × Engine) : α × Bridge :=
  let (a, engine) := f b.engine
  (a, { b with engine })

def mapEngine (b : Bridge) (f : Engine → Engine) : Bridge := { b with engine := f b.engine }

def openScope (b : Bridge) : Bridge := b.mapEngine .openScope

def closeScope (b : Bridge) : Bridge := b.mapEngine .closeScope

def pin (b : Bridge) (v : Script.Value) : Bridge := b.mapEngine (·.pin v)

def pass (b : Bridge) (ms : List Milestone) : Bridge := { b with milestones := b.milestones ++ ms }

/-! ## Instances -/

/-- The handle behind a wrapper that is alive. -/
def nativeOf (b : Bridge) : Script.Value → Option InstanceHandle
  | .wrapper id => if b.isAlive id then b.registry.native? id else none
  | _ => none

/-- A new instance of a class, not yet known to script. -/
def create (b : Bridge) (className : String) (seed : Seed) : InstanceHandle × Bridge :=
  let (o, instances) := b.instances.create className seed
  (o, { b with instances })

def read (b : Bridge) (o : InstanceHandle) (k : Kind) : Except BridgeError k.Carrier :=
  b.instances.read b.options.kindNames o k

def lend (b : Bridge) (o : InstanceHandle) (k : Kind) : Except BridgeError k.Carrier × Bridge :=
  let (content, instances) := b.instances.lend b.options.kindNames o k
  (content, { b with instances })

def giveBack (b : Bridge) (o : InstanceHandle) (payload : Payload) : Bridge :=
  { b with instances := b.instances.giveBack o payload }

def hold (b : Bridge) (o : InstanceHandle) : Bridge := { b with held := o.identity :: b.held }

def letGo (b : Bridge) (o : InstanceHandle) : Bridge := { b with held := b.held.erase o.identity }

/-- The instances held by bindings, by modules and by the embedding program, and those in flight. -/
def owners (b : Bridge) (inFlight : List InstanceId) : List InstanceId :=
  inFlight ++ b.held ++ b.registry.bindings.values.map (·.native.identity)
    ++ b.modules.values.flatMap Module.instances

/-- The instances that nobody holds any longer, while those in flight are held. -/
def dropped (b : Bridge) (inFlight : List InstanceId) : List InstanceId :=
  b.instances.dropped (b.owners inFlight)

/-! ## Ownership and weak handles -/

def addEdge (b : Bridge) (parent child : ObjectId) : Bool × Bridge :=
  let (added, edges) := b.edges.add parent child
  (added, { b with edges })

def removeEdge (b : Bridge) (parent child : ObjectId) : Bool × Bridge :=
  let (removed, edges) := b.edges.remove parent child
  (removed, { b with edges })

def setMode (b : Bridge) (wrapper : ObjectId) (mode : RetentionMode) : Bool × Bridge :=
  let (found, registry) := b.registry.setMode wrapper mode
  (found, { b with registry })

/-- A weak handle to the live object that a value names. -/
def weaken (b : Bridge) (v : Script.Value) : Option WeakHandle :=
  match v.object? with
  | some (kind, id) => if b.isAlive id then some ⟨kind, id⟩ else none
  | none => none

/-- The value behind a weak handle, while its target is alive. -/
def resolve (b : Bridge) (h : WeakHandle) : Option Script.Value :=
  if b.isAlive h.id then some h.toValue else none

/-! ## Functions and finalizers -/

/-- A new script function, pinned in the innermost scope. -/
def createFunction (b : Bridge) (name : String) (body : HostFunction) : Script.Value × Bridge :=
  let (id, b) := b.onEngine (·.createFunction name [] body)
  (.function id, b.pin (.function id))

def callScript (b : Bridge) (function : Script.Value) (args : List Script.Value) :
    Except BridgeError Script.Value × Bridge :=
  match function with
  | .function id => b.onEngine (·.invoke id args)
  | other => (.error (.notCallable other.typeName), b)

def addFinalizer (b : Bridge) (v : Script.Value) (f : HostFinalizer) :
    Except BridgeError Unit × Bridge :=
  match v.objectId? with
  | some id => b.onEngine (·.addFinalizer id f)
  | none => (.error (.host s!"cannot finalize a {v.typeName}"), b)

def defineClass (b : Bridge) (c : NativeClass) : Except BridgeError Unit × Bridge :=
  match b.classes.define c with
  | .ok classes => (.ok (), { b with classes })
  | .error err => (.error err, b)

end Bridge
end ScriptBridge
