import ScriptBridge.Bridge.State

/-! # Releasing dead wrappers

When the host no longer holds a wrapper, the bridge drops the edges at both its ends, retires its
binding, runs the finalizer of the class on the native instance and lets go of the instance. No
failure of native code on the way is passed on: it is written to the journal, and the release goes
on.

* `Bridge.release` does all of this for one wrapper.
* `Bridge.wrap` is the wrapper of an instance, made when there is none that is alive. It releases
  one that died behind the bridge's back.
-/

namespace ScriptBridge
set_option autoImplicit false

/-- What the verdict on the finalizer of a wrapper writes to the journal. -/
def Verdict.events (className : String) (id : ObjectId) : Verdict → List Event
  | succeeded => []
  | failed error => [.warned (.finalizerFailed className id error)]
  | panicked => [.warned (.finalizerPanicked className id)]

namespace Bridge

/-- Whether an instance is dropped, and panics at it, on the way from a bridge with some instances
in flight to a later one with others. -/
def dropPanics (b : Bridge) (inFlight : List InstanceId) (later : Bridge)
    (laterInFlight : List InstanceId) : Bool :=
  b.dropsMayPanic && (later.dropped laterInFlight).any fun id =>
    later.instances.isFragile id && !(b.dropped inFlight).contains id

/-- Puts contents in the place of that of an instance one after another, up to the first that drops
an instance with a panic; whether there was one. -/
def replaceContents (b : Bridge) (inFlight : List InstanceId) (o : InstanceHandle) (kind : Kind) :
    List kind.Carrier → Bool × Bridge
  | [] => (false, b)
  | content :: rest =>
    let next := { b with instances := b.instances.setPayload o ⟨kind, content⟩ }
    if b.dropPanics inFlight next inFlight then (true, next)
    else next.replaceContents inFlight o kind rest

/-- Runs the nearest finalizer of the class on the instance of a wrapper. One that is lent out
cannot be finalized. -/
def runFinalizer (b : Bridge) (inFlight : List InstanceId) (id : ObjectId) (o : InstanceHandle) :
    Verdict × Bridge :=
  match b.classes.finalizer? o.className with
  | none => (.succeeded, b)
  | some f =>
    let b := b.pass [.finalizing id o f]
    match b.instances.take b.options.kindNames o f.kind with
    | .error err => (.failed err, b)
    | .ok content =>
      let r := f.run content
      match (b.note r.events).replaceContents inFlight o f.kind r.contents with
      | (true, b) => (.panicked, b)
      | (false, b) => (r.verdict, b)

/-- Finalizes the instance of a retired binding and lets go of it. -/
def finalizeNative (b : Bridge) (inFlight : List InstanceId) (id : ObjectId) (o : InstanceHandle) :
    Bridge :=
  let held := o.identity :: inFlight
  let (verdict, b) := b.runFinalizer held id o
  let b := b.note (verdict.events o.className id)
  if b.dropPanics held b inFlight then b.note [.warned (.dropPanicked o.className id)] else b

/-- Releases a wrapper that the host no longer holds, while the instances in flight are held. The
number of edges that left it, and whether there was an instance to finalize. -/
def release (b : Bridge) (inFlight : List InstanceId) (id : ObjectId) : (Nat × Bool) × Bridge :=
  let (detached, edges) := b.edges.detach id
  let b := { b with edges := edges.purge id }
  match b.registry.retire? id with
  | none => ((detached, false), b)
  | some (binding, registry) =>
    let b := { b with registry }.pass [.retired id binding.native (b.isAlive id) b.classes]
    ((detached, true), b.finalizeNative inFlight id binding.native)

/-! ## Wrapping -/

/-- A new wrapper for an instance, pinned in the innermost scope. -/
def wrapFresh (b : Bridge) (o : InstanceHandle) : ObjectId × Bridge :=
  let (id, b) := b.onEngine (·.allocateWrapper o.className)
  let b := b.pin (.wrapper id)
  -- An instance that has a wrapper in the registry keeps it.
  let b := b.pass (if b.registry.wrapper? o = none then [.bound id o] else [])
  let (id, registry) := b.registry.bind o id
  (id, { b with registry })

/-- The wrapper of an instance, the same as long as it is alive. -/
def wrap (b : Bridge) (o : InstanceHandle) : ObjectId × Bridge :=
  match b.registry.wrapper? o with
  | none => b.wrapFresh o
  | some id => if b.isAlive id then (id, b) else (b.release [o.identity] id).2.wrapFresh o

end Bridge
end ScriptBridge
