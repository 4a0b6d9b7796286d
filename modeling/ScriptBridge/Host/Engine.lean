import ScriptBridge.Host.Collector

/-! # The host engine

An `Engine` is a heap with its roots, the statistics of its collections and the journal. It collects
only when told to.

* `Engine.collect` marks, sweeps, and then runs the host finalizers of what was swept.
* `Engine.invoke` runs a function object in a scope of its own, with its arguments pinned.
-/

namespace ScriptBridge
set_option autoImplicit false

structure CollectorStats where
  collections : Nat := 0
  objectsFreed : Nat := 0
  lastMarked : Nat := 0
  lastFreed : Nat := 0
  liveObjects : Nat := 0
  finalizerPanics : Nat := 0
deriving DecidableEq, Repr, Inhabited

structure Engine where
  heap : Heap := {}
  roots : Roots := {}
  stats : CollectorStats := {}
  journal : List Event := []
deriving Inhabited

namespace Engine

def note (e : Engine) (events : List Event) : Engine := { e with journal := e.journal ++ events }

/-! ## Objects -/

def allocateWrapper (e : Engine) (className : String) : ObjectId × Engine :=
  let (id, heap) := e.heap.allocate (.wrapper className)
  (id, { e with heap })

def createFunction (e : Engine) (name : String) (captures : List Script.Value)
    (body : HostFunction) : ObjectId × Engine :=
  let (id, heap) := e.heap.allocate (.function name captures body)
  (id, { e with heap })

def isAlive (e : Engine) (id : ObjectId) : Bool := e.heap.contains id

def property? (e : Engine) (id : ObjectId) (name : String) : Option Script.Value :=
  (e.heap.get? id).bind (·.properties.find? name)

def update (e : Engine) (id : ObjectId) (f : LiveObject → LiveObject) :
    Except BridgeError Unit × Engine :=
  match e.heap.update id f with
  | .ok heap => (.ok (), { e with heap })
  | .error err => (.error err.toBridgeError, e)

def setProperty (e : Engine) (id : ObjectId) (name : String) (v : Script.Value) :
    Except BridgeError Unit × Engine :=
  e.update id fun entry => { entry with properties := entry.properties.insert name v }

def addFinalizer (e : Engine) (id : ObjectId) (f : HostFinalizer) :
    Except BridgeError Unit × Engine :=
  e.update id fun entry => { entry with finalizers := entry.finalizers ++ [f] }

/-! ## Roots -/

def openScope (e : Engine) : Engine := { e with roots := e.roots.openScope }

/-- Closing the outermost scope is refused with a warning. -/
def closeScope (e : Engine) : Engine :=
  let (closed, roots) := e.roots.closeScope
  let e := { e with roots }
  if closed then e else e.note [.warned .unmatchedClose]

def pin (e : Engine) (v : Script.Value) : Engine := { e with roots := e.roots.pin v }

def pinAll (e : Engine) (vs : List Script.Value) : Engine := vs.foldl pin e

def setGlobal (e : Engine) (name : String) (v : Script.Value) : Engine :=
  { e with roots := e.roots.setGlobal name v }

def global? (e : Engine) (name : String) : Option Script.Value := e.roots.global? name

def removeGlobal (e : Engine) (name : String) : Option Script.Value × Engine :=
  let (v, roots) := e.roots.removeGlobal name
  (v, { e with roots })

/-! ## Calls -/

def body (e : Engine) (id : ObjectId) : Except HeapError HostFunction :=
  match (e.heap.get? id).map LiveObject.object with
  | none => .error (.stale id)
  | some (.wrapper _) => .error (.notCallable id)
  | some (.function _ _ body) => .ok body

def invoke (e : Engine) (id : ObjectId) (args : List Script.Value) :
    Except BridgeError Script.Value × Engine :=
  match e.body id with
  | .error err => (.error err.toBridgeError, e)
  | .ok body =>
    let reply := body args
    (reply.result, ((e.openScope.pinAll args).note reply.events).closeScope)

/-! ## Collection -/

/-- One full collection; the names of what was swept, in slot order. -/
def collect (e : Engine) (r : Retention) : List ObjectId × Engine :=
  let marked := e.heap.mark e.roots r
  let (swept, heap) := e.heap.sweep marked
  let e := { e with heap }.note (finalizerEvents swept)
  (swept.map (·.1),
    { e with
      stats :=
        { collections := e.stats.collections + 1
          objectsFreed := e.stats.objectsFreed + swept.length
          lastMarked := marked.length
          lastFreed := swept.length
          liveObjects := heap.size
          finalizerPanics := e.stats.finalizerPanics + finalizerPanics swept } })

end Engine
end ScriptBridge
