import ScriptBridge.Bridge.Collection
import ScriptBridge.Bridge.Loading
import ScriptBridge.Bridge.Property

/-! # Calls into native code

Every call from script goes the same way. In a handle scope of its own, with the arguments pinned,
the arguments are converted to their declared types, the missing ones as undefined; the policy has
its first half; the body runs; the policy has its second half; and the result is converted. The
scope is closed on every way out, and a result is pinned in the scope of the caller.

* `Bridge.dispatch` is that way, for any body.
* `construct`, `callMethod`, `callFunction` and `callSymbol` find the body and dispatch it.
* A `Server` carries out the operations that bodies ask for; `Bridge.server` is the one that lets
  bodies call one another to a depth, which is its fuel.
-/

namespace ScriptBridge
set_option autoImplicit false

/-- Carries out the operations of a body. -/
abbrev Server := (op : Operation) → StateM Bridge op.Response

def Body.run {α : Type} (serve : Server) (body : Body α) : Action α :=
  ExceptT.mk (body.outcome.run serve)

namespace Bridge

/-! ## The way of a call -/

/-- The arguments under their declared types, from `index` on. -/
def convertArguments (b : Bridge) (args : List Script.Value) :
    Nat → List DeclaredType → Except BridgeError (List Native.Value)
  | _, [] => return []
  | index, type :: types => do
    let n ← b.fromScript (args[index]?.getD .undefined) type index
    return n :: (← b.convertArguments args (index + 1) types)

def wrapperArgument? (args : List Script.Value) (index : Nat) : Option ObjectId :=
  match args[index]? with
  | some (.wrapper id) => some id
  | _ => none

/-- The edge between the receiver and the argument that a policy is about. -/
def policyEdge? (this : Option ObjectId) (args : List Script.Value) (index : Nat) :
    Option (ObjectId × ObjectId) :=
  match this, wrapperArgument? args index with
  | some parent, some child => some (parent, child)
  | _, _ => none

/-- The half of a policy before the body. -/
def beforeBody (b : Bridge) (this : Option ObjectId) (policy : CallPolicy)
    (args : List Script.Value) : Bridge :=
  match policy with
  | .release index => match policyEdge? this args index with
    | some (parent, child) => (b.removeEdge parent child).2
    | none => b
  | _ => b

/-- The half of a policy after a body that succeeded. -/
def afterBody (b : Bridge) (this : Option ObjectId) (policy : CallPolicy)
    (args : List Script.Value) : Bridge :=
  match policy with
  | .retain index => match policyEdge? this args index with
    | some (parent, child) => (b.addEdge parent child).2
    | none => b
  | _ => b

/-- A call inside its scope. -/
def callInScope (serve : Server) (this : Option ObjectId) (params : List DeclaredType)
    (policy : CallPolicy) (args : List Script.Value)
    (body : List Native.Value → Body Native.Value) : Action Script.Value := do
  let converted ← Action.ofExcept ((← get).convertArguments args 0 params)
  modify (·.beforeBody this policy args)
  let result ← (body (policy.hand converted)).run serve
  modify (·.afterBody this policy args)
  result.toScript

def dispatch (serve : Server) (this : Option ObjectId) (params : List DeclaredType)
    (policy : CallPolicy) (args : List Script.Value)
    (body : List Native.Value → Body Native.Value) (b : Bridge) :
    Except BridgeError Script.Value × Bridge :=
  let b := b.openScope.mapEngine (·.pinAll args)
  let (result, b) := (callInScope serve this params policy args body).run b
  let b := b.closeScope
  match result with
  | .ok v => (.ok v, b.pin v)
  | .error err => (.error err, b)

/-! ## What can be called -/

def constructBy (serve : Server) (b : Bridge) (className : String) (args : List Script.Value) :
    Except BridgeError Script.Value × Bridge :=
  match b.classes.find? className with
  | none => (.error (.unknownClass className), b)
  | some c =>
    match c.constructor? with
    | none => (.error (.noConstructor className), b)
    | some ctor =>
      b.dispatch serve none ctor.params .none args fun args => do
        let seed ← ctor.body args
        return .object (← Body.perform (.create c.name seed))

def callMethodBy (serve : Server) (b : Bridge) (receiver : Script.Value) (name : String)
    (args : List Script.Value) : Except BridgeError Script.Value × Bridge :=
  match b.receiver receiver with
  | .error err => (.error err, b)
  | .ok (id, o) =>
    match b.classes.method? o.className name with
    | none => (.error (.unknownMethod o.className name), b)
    | some m => b.dispatch serve (some id) m.params m.policy args (m.body id o)

def callFunctionBy (serve : Server) (b : Bridge) (moduleName name : String)
    (args : List Script.Value) : Except BridgeError Script.Value × Bridge :=
  match b.modules.find? moduleName with
  | none => (.error (.unknownModule moduleName), b)
  | some m =>
    match m.functions.find? name with
    | none => (.error (.unknownFunction moduleName name), b)
    | some f => b.dispatch serve none f.params .none args f.body

def callSymbolBy (serve : Server) (b : Bridge) (symbol : String) (args : List Script.Value) :
    Except BridgeError Script.Value × Bridge :=
  match splitSymbol? symbol with
  | none => (.error (.unknownFunction "" symbol), b)
  | some (moduleName, name) => b.callFunctionBy serve moduleName name args

/-! ## Serving bodies -/

/-- A call from a body, refused when calls may not nest any deeper. -/
def nested (inner : Option Server)
    (call : Server → Bridge → Except BridgeError Script.Value × Bridge) :
    StateM Bridge (Except BridgeError Script.Value) :=
  match inner with
  | some serve => call serve
  | none => return .error .callNesting

/-- A condition on what a collection changes, as one on bridges. -/
def seenBy (holds : Nat → Engine → Registry → Ownership → Instances → Bool) (asked : Nat)
    (b : Bridge) : Bool :=
  holds asked b.engine b.registry b.edges b.instances

/-- Carries out an operation; the calls among them are served by `inner`. -/
def answer (inner : Option Server) : Server
  | .construct className args => nested inner fun serve b => b.constructBy serve className args
  | .callMethod receiver name args =>
    nested inner fun serve b => b.callMethodBy serve receiver name args
  | .callFunction moduleName name args =>
    nested inner fun serve b => b.callFunctionBy serve moduleName name args
  | .callSymbol symbol args => nested inner fun serve b => b.callSymbolBy serve symbol args
  | .getProperty receiver name => fun b => b.getProperty receiver name
  | .setProperty receiver name v => fun b => b.setProperty receiver name v
  | .createFunction name body => fun b => b.createFunction name body
  | .callScript function args => fun b => b.callScript function args
  | .toScript v => fun b => b.toScript v
  | .fromScript v type index => fun b => (b.fromScript v type index, b)
  | .wrap o => fun b => b.wrap o
  | .nativeOf v => fun b => (b.nativeOf v, b)
  | .create className seed => fun b => b.create className seed
  | .read o kind => fun b => (b.read o kind, b)
  | .lend o kind => fun b => b.lend o kind
  | .giveBack o payload => fun b => ((), b.giveBack o payload)
  | .addEdge parent child => fun b => b.addEdge parent child
  | .removeEdge parent child => fun b => b.removeEdge parent child
  | .setMode wrapper mode => fun b => b.setMode wrapper mode
  | .collect => fun b => b.collect
  | .collectUntil holds => fun b =>
    let (pursuit, b) := b.collectUntil (seenBy holds)
    (pursuit.held, b)
  | .defineClass name captured => fun b => b.defineClass (b.options.nativeClass name captured)
  | .loadModule name captured => fun b => b.loadModule (b.options.nativeModule name captured)
  | .isAlive id => fun b => (b.isAlive id, b)
  | .invoke id args => fun b => b.onEngine (·.invoke id args)
  | .openScope => fun b => ((), b.openScope)
  | .closeScope => fun b => ((), b.closeScope)
  | .pin v => fun b => ((), b.pin v)
  | .setGlobal name v => fun b => ((), b.mapEngine (·.setGlobal name v))
  | .global name => fun b => (b.engine.global? name, b)
  | .removeGlobal name => fun b => b.onEngine (·.removeGlobal name)
  | .hostProperty id name => fun b => (b.engine.property? id name, b)
  | .setHostProperty id name v => fun b => b.onEngine (·.setProperty id name v)
  | .addFinalizer id f => fun b => b.onEngine (·.addFinalizer id f)
  | .allocateWrapper className => fun b => b.onEngine (·.allocateWrapper className)
  | .allocateFunction name captures body =>
    fun b => b.onEngine (·.createFunction name captures body)
  | .hostCollect r => fun b => b.onEngine (·.collect r)

/-- Serves bodies that may call one another to a depth. -/
def server : Nat → Server
  | 0 => answer none
  | depth + 1 => answer (some (server depth))

/-- One operation, as the embedding program asks for it. -/
def perform (b : Bridge) (op : Operation) : op.Response × Bridge :=
  server (b.options.maxCallNesting + 1) op b

def construct (b : Bridge) (className : String) (args : List Script.Value) :
    Except BridgeError Script.Value × Bridge :=
  b.constructBy (server b.options.maxCallNesting) className args

def callMethod (b : Bridge) (receiver : Script.Value) (name : String) (args : List Script.Value) :
    Except BridgeError Script.Value × Bridge :=
  b.callMethodBy (server b.options.maxCallNesting) receiver name args

def callFunction (b : Bridge) (moduleName name : String) (args : List Script.Value) :
    Except BridgeError Script.Value × Bridge :=
  b.callFunctionBy (server b.options.maxCallNesting) moduleName name args

def callSymbol (b : Bridge) (symbol : String) (args : List Script.Value) :
    Except BridgeError Script.Value × Bridge :=
  b.callSymbolBy (server b.options.maxCallNesting) symbol args

end Bridge
end ScriptBridge
