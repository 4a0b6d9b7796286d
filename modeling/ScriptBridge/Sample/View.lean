import ScriptBridge.Bridge.Call
import ScriptBridge.Typed.Extraction

/-! # The view class

A class over `View` whose methods use every policy. A view owns the child views it is given, by an
edge from its wrapper to theirs, and keeps its listeners as weak handles.

* `View.addChild` and `View.removeChild` keep the children free of repetition.
* `View.dispatch` calls the listeners that are alive, and then forgets those that are not.
* `View.finalize` lets go of the children first and of the listeners after them.
-/

namespace ScriptBridge
set_option autoImplicit false

/-- An argument of a shape. -/
def Body.argument (s : Shape) (args : List Native.Value) (index : Nat) : Body s.Carrier :=
  Body.ofExcept (s.argument args index)

namespace View

def className : String := "View"

/-- A child is added once, however often it is given. -/
def addChild (v : View) (child : InstanceHandle) : View :=
  if v.children.any fun c => c.identity = child.identity then v
  else { v with children := v.children ++ [child] }

def removeChild (v : View) (child : InstanceHandle) : View :=
  { v with children := v.children.filter fun c => c.identity ≠ child.identity }

/-- Changes a view with an argument of a shape. -/
def changeWith (s : Shape) (change : View → s.Carrier → View) (v : View)
    (args : List Native.Value) : Program (View × Except BridgeError Native.Value) :=
  match s.argument args 0 with
  | .ok a => return (change v a, .ok .undefined)
  | .error err => return (v, .error err)

/-- Calls the listeners of a list that are alive with one argument, up to the first failure, and
counts them. -/
def notify (event : Native.Value) (count : Int64) : List WeakHandle → Body Int64
  | [] => return count
  | h :: rest => do
    match ← Body.callWeak h [event] with
    | some _ => notify event (count + 1) rest
    | none => notify event count rest

/-- The handles of a list whose targets are alive. -/
def living : List WeakHandle → Program (List WeakHandle)
  | [] => return []
  | h :: rest => do
    let alive ← Program.perform (.isAlive h.id)
    let rest ← living rest
    return if alive then h :: rest else rest

/-- Tells the listeners of an event. The answer is how many were called; if one fails, none is
forgotten. -/
def dispatch (v : View) (args : List Native.Value) :
    Program (View × Except BridgeError Native.Value) := do
  match ← (notify (args.head?.getD .undefined) 0 v.listeners).outcome with
  | .error err => return (v, .error err)
  | .ok count => return ({ v with listeners := ← living v.listeners }, .ok (.integer count))

/-- At the end of its wrapper a view lets go of its children, and then of its listeners. -/
def finalize (v : View) : Finalization .view where
  contents := [{ v with children := [] }, { v with children := [], listeners := [] }]

def nativeClass : NativeClass :=
  let view := DeclaredType.object className
  { name := className : NativeClass }
    |>.withConstructor [] (fun _ => return .view)
    |>.instanceMethod .view "addChildView" [view] (.retain 0)
      (fun _ => changeWith .object addChild)
    |>.instanceMethod .view "removeChildView" [view] (.release 0)
      (fun _ => changeWith .object removeChild)
    |>.instanceMethod .view "addEventListener" [.function] (.weakCallback 0)
      (fun _ => changeWith .weak fun v h => { v with listeners := v.listeners ++ [h] })
    |>.instanceMethod .view "doNothingWithView" [view] .none
      (fun _ v _ => return (v, .ok .undefined))
    |>.instanceMethod .view "dispatchEvent" [.any] .none (fun _ => dispatch)
    |>.getter .view "childCount" (fun v => .integer (Int64.ofNat v.children.length))
    |>.getter .view "id" (fun v => .integer (Int64.ofNat v.serial))
    |>.withFinalizer .view finalize

end View

def Bridge.installView (b : Bridge) : Except BridgeError Unit × Bridge :=
  b.defineClass View.nativeClass

end ScriptBridge
