import ScriptBridge.Sample.View
import ScriptBridge.Script.Printer

/-! # Routines

A small vocabulary of bodies from which classes over records, modules and script functions are put
together.

* `Routine.answer` is what a native body built from a routine answers, and `Routine.change` what it
  makes of the record of its receiver.
* `Routine.onReceiver` has the receiver lent to it; `Routine.onScratch` works on an empty record and
  leaves the receiver alone.
* `HostRoutine.body` is the body of a script function.
-/

namespace ScriptBridge
set_option autoImplicit false

inductive Routine where
  | undefined
  | args
  | first
  /-- The names of the types of the arguments, with and without their variant layers. -/
  | kinds
  | fail (text : String)
  /-- Appends the arguments to the slots and answers how many slots there are. -/
  | store
  | slots
  | clear
  /-- Calls the first argument with the others. -/
  | call
  /-- Calls every weak handle in the slots with the arguments. -/
  | emit
  /-- Whether the targets of the weak handles in the slots are alive. -/
  | alive
  | this
  | hasThis
  | property (name : String)
  /-- A new instance of a class, made here. -/
  | make (className : String)
  /-- A new instance of a class, made by its constructor. -/
  | construct (className : String)
  /-- Collects and answers how many objects were swept. -/
  | collect
  /-- The first argument, converted to script. -/
  | toScript
  /-- A map whose key has no name. -/
  | badKey
  | deep (layers : Nat)
  /-- An argument read as a value of a shape and handed back. -/
  | extract (shape : Shape) (index : Nat)
deriving Repr, Inhabited

namespace Routine

def count {α : Type} (as : List α) : Native.Value := .integer (Int64.ofNat as.length)

def firstOf (args : List Native.Value) : Native.Value := args.head?.getD .undefined

/-- The wrapper of the receiver, which a function does not have. -/
def receiver (this : Option ObjectId) : Body ObjectId :=
  match this with
  | some id => return id
  | none => throw (.invalidReceiver "wrapper" "no receiver")

/-- The result of a weak call; null if the target has been collected. -/
def ofWeakCall (r : Option Script.Value) : Native.Value := (r.map .script).getD .null

def callFirst (args : List Native.Value) : Body Native.Value :=
  match (firstOf args).inner with
  | .function id => return .script (← Body.call id args.tail)
  | .weakFunction h => return ofWeakCall (← Body.callWeak h args.tail)
  | other => throw (other.mismatch "Function")

/-- The weak handle under the variant layers of a value. -/
def handle? (v : Native.Value) : Option WeakHandle :=
  match v.inner with
  | .weakFunction h => some h
  | _ => none

def isAlive (v : Native.Value) : Body Native.Value :=
  match handle? v with
  | some h => return .bool (← Body.isAlive h.id)
  | none => return .null

def nest : Nat → Native.Value
  | 0 => .null
  | layers + 1 => .list [nest layers]

def answer (this : Option ObjectId) (r : Record) (args : List Native.Value) :
    Routine → Body Native.Value
  | .undefined => return .undefined
  | .args => return .tuple args
  | .first => return firstOf args
  | .kinds => return .list (args.map fun v => .string (v.typeName ++ "/" ++ v.inner.typeName))
  | .fail text => throw (.native text)
  | .store => return count (r.slots ++ args)
  | .slots => return .list r.slots
  | .clear => return .null
  | .call => callFirst args
  | .emit => do
    let results ← (r.slots.filterMap handle?).mapM fun h => Body.callWeak h args
    return .list (results.map ofWeakCall)
  | .alive => return .list (← r.slots.mapM isAlive)
  | .this => return .script (.wrapper (← receiver this))
  | .hasThis => return .bool this.isSome
  | .property name => do
    let id ← receiver this
    return .script (← Body.ofProgram (Program.perform (.getProperty (.wrapper id) name)))
  | .make className => do
    let o ← Body.perform (.create className (.record [] false))
    return .script (.wrapper (← Body.perform (.wrap o)))
  | .construct className =>
    return .script (← Body.ofProgram (Program.perform (.construct className [])))
  | .collect => return .integer (Int64.ofNat (← Body.perform .collect).swept)
  | .toScript => return .script (← Body.toScript (firstOf args))
  | .badKey => return .map [(.list [], .null)]
  | .deep layers => return nest layers
  | .extract shape index => return shape.toNative (← Body.argument shape args index)

def change (r : Record) (args : List Native.Value) : Routine → Record
  | .store => { r with slots := r.slots ++ args }
  | .clear => { r with slots := [] }
  | _ => r

/-- A body that has the record of the receiver lent to it. -/
def onReceiver (routine : Routine) (this : ObjectId) (r : Record) (args : List Native.Value) :
    Program (Record × Except BridgeError Native.Value) := do
  let result ← (routine.answer (some this) r args).outcome
  return (routine.change r args, result)

/-- A body that works on an empty record. -/
def onScratch (routine : Routine) (this : Option ObjectId) (args : List Native.Value) :
    Body Native.Value :=
  routine.answer this { serial := 0 } args

end Routine

/-! ## Script functions -/

inductive HostRoutine where
  | undefined
  | count
  | first
  | array
  | constant (v : Script.Value)
  /-- Reports the texts of the arguments. -/
  | log (text : String)
  /-- Twice an integer, modulo its width; zero for anything else. -/
  | double
  | fail (text : String)
deriving Repr, Inhabited

def HostRoutine.body : HostRoutine → HostFunction
  | undefined, _ => { result := .ok .undefined }
  | count, args => { result := .ok (.int (Int64.ofNat args.length)) }
  | first, args => { result := .ok (args.head?.getD .undefined) }
  | array, args => { result := .ok (.array args) }
  | constant v, _ => { result := .ok v }
  | log text, args =>
    { events := [.called text (args.map Script.Value.display)], result := .ok .undefined }
  | double, args => match args with
    | .int i :: _ => { result := .ok (.int (i + i)) }
    | _ => { result := .ok (.int 0) }
  | fail text, _ => { result := .error (.native text) }

end ScriptBridge
