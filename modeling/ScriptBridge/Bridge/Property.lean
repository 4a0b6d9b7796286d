import ScriptBridge.Conversion.FromScript
import ScriptBridge.Conversion.ToScript

/-! # Properties

A property of a wrapper is first looked for among the accessors of the class; a function, and a
wrapper whose class has no such accessor, has ordinary properties on the heap.
-/

namespace ScriptBridge.Bridge
set_option autoImplicit false

/-- The wrapper and the handle behind a value, if it is a live wrapper that is registered. -/
def receiver (b : Bridge) (v : Script.Value) : Except BridgeError (ObjectId × InstanceHandle) :=
  match v with
  | .wrapper id => match b.nativeOf v with
    | some o => .ok (id, o)
    | none => .error (.invalidReceiver "wrapper" "collected wrapper")
  | _ => .error (.invalidReceiver "wrapper" v.typeName)

/-- The wrapper behind a wrapper value with its accessor of a name, or the object behind a function
value. -/
def holder (b : Bridge) (v : Script.Value) (name : String) :
    Except BridgeError (ObjectId × Option (InstanceHandle × Accessor)) :=
  match v with
  | .wrapper _ => do
    let (id, o) ← b.receiver v
    return (id, (b.classes.accessor? o.className name).map fun a => (o, a))
  | .function id => return (id, none)
  | _ => throw (.invalidReceiver "object" v.typeName)

/-- The value of a property; undefined if there is none. -/
def getProperty (b : Bridge) (v : Script.Value) (name : String) :
    Except BridgeError Script.Value × Bridge :=
  match b.holder v name with
  | .error err => (.error err, b)
  | .ok (_, some (o, a)) =>
    match b.read o a.kind with
    | .ok content => b.toScript (a.get content)
    | .error err => (.error err, b)
  | .ok (id, none) =>
    if b.isAlive id then (.ok ((b.engine.property? id name).getD .undefined), b)
    else (.error (.invalidReceiver "object" "collected object"), b)

/-- The setter of an accessor applied to a converted value. -/
def assign (b : Bridge) (o : InstanceHandle) (a : Accessor) (v : Script.Value) :
    Except BridgeError Unit × Bridge :=
  match a.set? with
  | none => (.error (.readOnlyProperty o.className a.name), b)
  | some set =>
    match b.fromScript v a.type 0 with
    | .error err => (.error err, b)
    | .ok n =>
      match b.instances.take b.options.kindNames o a.kind with
      | .error err => (.error err, b)
      | .ok content =>
        let (content, r) := set content n
        (r, { b with instances := b.instances.setPayload o ⟨a.kind, content⟩ })

def setProperty (b : Bridge) (receiver : Script.Value) (name : String) (v : Script.Value) :
    Except BridgeError Unit × Bridge :=
  match b.holder receiver name with
  | .error err => (.error err, b)
  | .ok (_, some (o, a)) => b.assign o a v
  | .ok (id, none) => b.onEngine (·.setProperty id name v)

end ScriptBridge.Bridge
