import ScriptBridge.Script.Value

/-! # Native values

`Native.Value` is what native code sees of the values that cross the boundary. A `InstanceHandle` is
a handle to a native instance: the class it was registered under and the identity of the instance,
which every copy of the handle shares.

* `Native.Value.inner` strips the variant layers from a value.
* `Native.Value.instances` lists the instances a value holds handles to.
-/

namespace ScriptBridge
set_option autoImplicit false

/-- Which instance this is; no two share an identity. -/
structure InstanceId where
  index : Nat
deriving DecidableEq, Repr, Inhabited

/-- A shared handle to a native instance. -/
structure InstanceHandle where
  className : String
  identity : InstanceId
deriving DecidableEq, Repr, Inhabited

namespace Native

inductive Value where
  | undefined
  | null
  | bool (b : Bool)
  | integer (i : Int64)
  | number (x : Binary64)
  | string (s : String)
  | u16string (s : Utf16)
  | symbol (s : Symbol)
  | tuple (items : List Value)
  /-- The alternative at `index`, in the order in which they were declared. -/
  | variant (index : Nat) (value : Value)
  | list (items : List Value)
  | map (entries : List (Value × Value))
  | set (items : List Value)
  | object (o : InstanceHandle)
  /-- A function that is good for the duration of a call. -/
  | function (id : ObjectId)
  | weakFunction (h : WeakHandle)
  /-- A script value passed through as it is. -/
  | script (v : Script.Value)
deriving Repr, Inhabited

namespace Value

def typeName : Value → String
  | undefined => "Undefined"
  | null => "Null"
  | bool _ => "Boolean"
  | integer _ => "Integer"
  | number _ => "Number"
  | string _ | u16string _ => "String"
  | symbol _ => "Symbol"
  | tuple _ => "Tuple"
  | variant .. => "Variant"
  | list _ => "Array"
  | map _ => "Object"
  | set _ => "Set"
  | object _ => "NativeObject"
  | function _ => "Function"
  | weakFunction _ => "WeakFunction"
  | script _ => "Value"

/-- The value held under all variant layers. -/
def inner : Value → Value
  | variant _ value => value.inner
  | value => value

/-- A function reference, under any variant layers, turned into a weak handle. -/
def demote : Value → Value
  | function id => weakFunction ⟨.function, id⟩
  | variant index value => variant index value.demote
  | value => value

mutual

/-- The instances a value holds, repetitions kept. -/
def instances : Value → List InstanceId
  | object o => [o.identity]
  | tuple items => instancesOfItems items
  | list items => instancesOfItems items
  | set items => instancesOfItems items
  | variant _ value => value.instances
  | map entries => instancesOfEntries entries
  | _ => []

def instancesOfItems : List Value → List InstanceId
  | [] => []
  | v :: rest => v.instances ++ instancesOfItems rest

def instancesOfEntries : List (Value × Value) → List InstanceId
  | [] => []
  | (k, v) :: rest => k.instances ++ v.instances ++ instancesOfEntries rest

end

end Value
end Native
end ScriptBridge
