import ScriptBridge.Native.DeclaredType
import ScriptBridge.Object
import ScriptBridge.Text.Quoted

/-! # What can go wrong

`BridgeError` holds the causes for which a conversion, a call or an operation on the heap fails. A
conversion failure carries the position of the outermost argument, even when it happened deep inside
a container.

* `BridgeError.message` is the wording of each.
* `BridgeError.argumentIndex?` is that position, for the failures that have one.
-/

namespace ScriptBridge
set_option autoImplicit false

inductive BridgeError where
  /-- The value, described by `actual`, does not have the declared type. -/
  | conversion (index : Nat) (expected : DeclaredType) (actual : String)
  /-- An array is not as long as the declared tuple. -/
  | arity (index expected actual : Nat)
  /-- A key of a map could not be converted. -/
  | lookup (index : Nat) (key : String)
  /-- A value is nested deeper than the limit. -/
  | depth (index limit : Nat)
  /-- A native value or instance is not of the type it is read as. -/
  | typeMismatch (expected got : String)
  | unknownClass (name : String)
  | unknownModule (name : String)
  | unknownMethod (className name : String)
  | unknownFunction (moduleName name : String)
  | noConstructor (className : String)
  | readOnlyProperty (className name : String)
  /-- A method or property was used on something that has none. -/
  | invalidReceiver (expected actual : String)
  | deadObject (id : ObjectId)
  | notCallable (what : String)
  | native (text : String)
  | host (text : String)
  /-- The fuel for calls inside of calls has run out. This is not a way for a call to fail: one that
  comes to an end does so when there is enough fuel. -/
  | callNesting
deriving Repr, Inhabited

namespace BridgeError

def label : BridgeError → String
  | conversion .. => "Conversion"
  | arity .. => "Arity"
  | lookup .. => "Lookup"
  | depth .. => "Depth"
  | typeMismatch .. => "TypeMismatch"
  | unknownClass _ => "UnknownClass"
  | unknownModule _ => "UnknownModule"
  | unknownMethod .. => "UnknownMethod"
  | unknownFunction .. => "UnknownFunction"
  | noConstructor _ => "NoConstructor"
  | readOnlyProperty .. => "ReadOnlyProperty"
  | invalidReceiver .. => "InvalidReceiver"
  | deadObject _ => "DeadObject"
  | notCallable _ => "NotCallable"
  | native _ => "Native"
  | host _ => "Host"
  | callNesting => "CallNesting"

/-- The position of the argument whose conversion failed. -/
def argumentIndex? : BridgeError → Option Nat
  | conversion index _ _ => some index
  | arity index _ _ => some index
  | lookup index _ => some index
  | depth index _ => some index
  | _ => none

def isConversionFailure (e : BridgeError) : Bool := e.argumentIndex?.isSome

def processing (index : Nat) : String := s!"Error processing argument at index {index}, "

def message : BridgeError → String
  | conversion index expected actual =>
    processing index ++ s!"conversion failure from {actual} to " ++ expected.display
  | arity index expected actual =>
    processing index ++ s!"expected {expected} elements but got {actual}"
  | lookup index key => processing index ++ "unconvertible map key " ++ Text.Quoted.encode key
  | depth index limit => processing index ++ s!"value nested deeper than {limit} levels"
  | typeMismatch expected got => s!"Type mismatch: expected {expected}, got {got}"
  | unknownClass name => s!"Unknown class: {name}"
  | unknownModule name => s!"Unknown module: {name}"
  | unknownMethod className name => s!"{className} has no method named {name}"
  | unknownFunction moduleName name => s!"{moduleName} has no function named {name}"
  | noConstructor _ => "There is no constructor defined."
  | readOnlyProperty className name => s!"Property {name} of {className} is read-only"
  | invalidReceiver expected actual =>
    s!"Illegal invocation: expected {expected} receiver, got {actual}"
  | deadObject id => s!"Object {id.toText} has been collected"
  | notCallable what => s!"{what} is not a function"
  | native text => text
  | host text => s!"Host error: {text}"
  | callNesting => "Calls are nested too deeply"

end BridgeError
end ScriptBridge
