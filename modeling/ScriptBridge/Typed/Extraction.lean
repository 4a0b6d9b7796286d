import ScriptBridge.Error
import ScriptBridge.Typed.Shape

/-! # Typed values and native values

* `Shape.toNative` is the native value of a typed one.
* `Shape.extract` reads a typed value out of a native one, through any variant layers, or reports
  the mismatch.
* `Shape.argument` extracts an argument by its index, a missing one as undefined.
-/

namespace ScriptBridge
set_option autoImplicit false

namespace Native.Value

/-- What is reported for a value that is not of the expected type. -/
def mismatch (v : Value) (expected : String) : BridgeError := .typeMismatch expected v.typeName

def tupleItems (v : Value) (arity : Nat) : Except BridgeError (List Value) :=
  match v.inner with
  | tuple items =>
    if items.length = arity then .ok items
    else .error (.typeMismatch s!"Tuple of {arity}" s!"Tuple of {items.length}")
  | other => .error (other.mismatch s!"Tuple of {arity}")

end Native.Value

namespace Shape

/-- An unsigned integer beyond the signed ones becomes the nearest number. -/
def toNative : (s : Shape) → s.Carrier → Native.Value
  | int _, i => .integer i.val
  | int64, i => .integer i
  | uint64, n => match Number.toInt64? n.toNat with
    | some i => .integer i
    | none => .number (.ofInt n.toNat)
  | float32, x => .number x
  | float64, x => .number x
  | bool, b => .bool b
  | string, s => .string s
  | u16string, s => .u16string s
  | symbol, s => .symbol s
  | script, v => .script v
  | object, o => .object o
  | native, v => v
  | weak, h => .weakFunction h
  | option _, none => .null
  | option inner, some a => inner.toNative a
  | list element, as => .list (as.map element.toNative)
  | pair first second, (a, b) => .tuple [first.toNative a, second.toNative b]
  | triple first second third, (a, b, c) =>
    .tuple [first.toNative a, second.toNative b, third.toNative c]
  | map key value, entries => .map (entries.map fun (k, v) => (key.toNative k, value.toNative v))
  | set element, as => .set (as.map element.toNative)

/-- What is got instead of an integer in range. -/
def outOfRange (expected : String) (i : Int64) : BridgeError :=
  .typeMismatch expected s!"Integer {i.toInt}"

/-- The typed value that a native value holds. -/
def extract : (s : Shape) → Native.Value → Except BridgeError s.Carrier
  | int w, v => match v.inner with
    | .integer i => if h : w.holds i then .ok ⟨i, h⟩ else .error (outOfRange w.name i)
    | other => .error (other.mismatch w.name)
  | int64, v => match v.inner with
    | .integer i => .ok i
    | other => .error (other.mismatch "i64")
  | uint64, v => match v.inner with
    | .integer i => if 0 ≤ i then .ok (UInt64.ofNat i.toInt.toNat) else .error (outOfRange "u64" i)
    | other => .error (other.mismatch "u64")
  | float32, v => match v.inner with
    | .number x => .ok x.toSingle
    | .integer i => .ok (Binary64.ofInt i.toInt).toSingle
    | other => .error (other.mismatch "f64")
  | float64, v => match v.inner with
    | .number x => .ok x
    | .integer i => .ok (.ofInt i.toInt)
    | other => .error (other.mismatch "f64")
  | bool, v => match v.inner with
    | .bool b => .ok b
    | other => .error (other.mismatch "bool")
  | string, v => match v.inner with
    | .string s => .ok s
    | .u16string s => match s.toString? with
      | some text => .ok text
      | none => .error (.typeMismatch "String" "ill-formed UTF-16")
    | other => .error (other.mismatch "String")
  | u16string, v => match v.inner with
    | .u16string s => .ok s
    | .string s => .ok (.ofString s)
    | other => .error (other.mismatch "U16String")
  | symbol, v => match v.inner with
    | .symbol s => .ok s
    | other => .error (other.mismatch "Symbol")
  | script, v => match v.inner with
    | .script v => .ok v
    | other => .error (other.mismatch "Value")
  | object, v => match v.inner with
    | .object o => .ok o
    | other => .error (other.mismatch "NativeObject")
  | native, v => .ok v
  | weak, v => match v.inner with
    | .weakFunction h => .ok h
    | other => .error (other.mismatch "WeakFunction")
  | option inner, v => match v.inner with
    | .undefined => .ok none
    | .null => .ok none
    | other => (inner.extract other).map some
  | list element, v => match v.inner with
    | .list items => items.mapM element.extract
    | other => .error (other.mismatch "Array")
  | pair first second, v => do
    match ← v.tupleItems 2 with
    | [a, b] => return (← first.extract a, ← second.extract b)
    | _ => throw (.native "tuple arity changed")
  | triple first second third, v => do
    match ← v.tupleItems 3 with
    | [a, b, c] => return (← first.extract a, ← second.extract b, ← third.extract c)
    | _ => throw (.native "tuple arity changed")
  | map key value, v => match v.inner with
    | .map entries => do
      let extracted ← entries.mapM fun (k, n) => do return (← key.extract k, ← value.extract n)
      return orderDistinct (fun a b => key.compare a.1 b.1) extracted
    | other => .error (other.mismatch "Object")
  | set element, v => match v.inner with
    | .set items => (items.mapM element.extract).map (orderDistinct element.compare)
    | .list items => (items.mapM element.extract).map (orderDistinct element.compare)
    | other => .error (other.mismatch "Set")

/-- The argument of an index; a missing one is undefined. -/
def argument (s : Shape) (args : List Native.Value) (index : Nat) : Except BridgeError s.Carrier :=
  s.extract (args[index]?.getD .undefined)

end Shape
end ScriptBridge
