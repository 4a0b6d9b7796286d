import ScriptBridge.Program

/-! # Class definitions

A class is a named table of methods and accessors with an optional base, constructor and finalizer.
Every method declares the types of its parameters and the `CallPolicy` that a call applies around
its body.

* `NativeClass.instanceMethod` is a method whose receiver is lent to its body, of a kind of payload.
* `NativeClass.getter` and `NativeClass.accessor` are properties over a kind of payload.
-/

namespace ScriptBridge
set_option autoImplicit false

/-- What a call does about ownership, and to which argument. -/
inductive CallPolicy where
  | none
  /-- After the body succeeded, the receiver owns the argument. -/
  | retain (index : Nat)
  /-- Before the body, the receiver lets go of the argument. -/
  | release (index : Nat)
  /-- The body gets the function argument as a weak handle. -/
  | weakCallback (index : Nat)
deriving DecidableEq, Repr, Inhabited

namespace CallPolicy

def argument? : CallPolicy → Option Nat
  | none => .none
  | retain index | release index | weakCallback index => some index

def diagnostic : CallPolicy → String
  | none => "None"
  | retain index => s!"RetainArgument({index})"
  | release index => s!"ReleaseArgument({index})"
  | weakCallback index => s!"WeakCallback({index})"

/-- What the body gets for the converted arguments. -/
def hand (policy : CallPolicy) (converted : List Native.Value) : List Native.Value :=
  match policy with
  | weakCallback index => converted.modify index Native.Value.demote
  | _ => converted

end CallPolicy

/-- The body of a method, given the receiver's wrapper, the receiver and the converted arguments. -/
abbrev MethodBody := ObjectId → InstanceHandle → List Native.Value → Body Native.Value

structure Method where
  name : String
  params : List DeclaredType
  policy : CallPolicy
  body : MethodBody

/-- A property backed by native code; it can be assigned if it has a setter. -/
structure Accessor where
  name : String
  type : DeclaredType
  kind : Kind
  get : kind.Carrier → Native.Value
  set? : Option (kind.Carrier → Native.Value → kind.Carrier × Except BridgeError Unit)

def Accessor.isWritable (a : Accessor) : Bool := a.set?.isSome

/-- The body decides what the new instance is made from. -/
structure Constructor where
  params : List DeclaredType
  body : List Native.Value → Body Seed

inductive Verdict where
  | succeeded
  | failed (error : BridgeError)
  | panicked

/-- What a finalizer does: it reports, it puts other contents in the place of the one it found, and
it ends somehow. -/
structure Finalization (kind : Kind) where
  events : List Event := []
  /-- What the content becomes, one after another. -/
  contents : List kind.Carrier := []
  verdict : Verdict := .succeeded

structure ClassFinalizer where
  kind : Kind
  run : kind.Carrier → Finalization kind

structure NativeClass where
  name : String
  base? : Option String := none
  constructor? : Option Constructor := none
  methods : Table String Method := .empty
  accessors : Table String Accessor := .empty
  finalizer? : Option ClassFinalizer := none

namespace NativeClass

/-! ## Building -/

def inherits (c : NativeClass) (base : String) : NativeClass := { c with base? := some base }

def withConstructor (c : NativeClass) (params : List DeclaredType)
    (body : List Native.Value → Body Seed) : NativeClass :=
  { c with constructor? := some ⟨params, body⟩ }

/-- A later method of a name replaces the earlier. -/
def method (c : NativeClass) (name : String) (params : List DeclaredType) (policy : CallPolicy)
    (body : MethodBody) : NativeClass :=
  { c with methods := c.methods.insert name ⟨name, params, policy, body⟩ }

def instanceMethod (c : NativeClass) (kind : Kind) (name : String) (params : List DeclaredType)
    (policy : CallPolicy) (body : ObjectId → kind.Carrier → List Native.Value →
      Program (kind.Carrier × Except BridgeError Native.Value)) : NativeClass :=
  c.method name params policy fun this receiver args =>
    Body.lending receiver kind fun content => body this content args

def getter (c : NativeClass) (kind : Kind) (name : String) (get : kind.Carrier → Native.Value) :
    NativeClass :=
  { c with accessors := c.accessors.insert name ⟨name, .any, kind, get, none⟩ }

def accessor (c : NativeClass) (kind : Kind) (name : String) (type : DeclaredType)
    (get : kind.Carrier → Native.Value)
    (set : kind.Carrier → Native.Value → kind.Carrier × Except BridgeError Unit) : NativeClass :=
  { c with accessors := c.accessors.insert name ⟨name, type, kind, get, some set⟩ }

def withFinalizer (c : NativeClass) (kind : Kind) (run : kind.Carrier → Finalization kind) :
    NativeClass :=
  { c with finalizer? := some ⟨kind, run⟩ }

/-! ## Reading -/

def isConstructible (c : NativeClass) : Bool := c.constructor?.isSome

def methodNames (c : NativeClass) : List String := c.methods.keys.mergeSort (· ≤ ·)

end NativeClass
end ScriptBridge
