import ScriptBridge.Bridge.State
import ScriptBridge.Conversion.Key
import ScriptBridge.Script.Equality

/-! # From script to native

Conversion from script is driven by a declared type and changes nothing. Every failure reports the
index of the outermost argument.

* Every container and every variant adds a layer to the depth; an optional adds none.
* A variant takes the first alternative that accepts the value, and gives up at once on a value that
  is nested too deep.
* A set leaves out an element equal to an earlier one before it is converted.
-/

namespace ScriptBridge
set_option autoImplicit false

namespace Script.Value

/-- The integer held by a number, if it has one of 64 bits. -/
def integer? : Value → Option Int64
  | int i => some i
  | float x => x.toInt?.bind Number.toInt64?
  | _ => none

end Script.Value

namespace Conversion

variable (convert : Script.Value → Except BridgeError Native.Value)

/-- Converts the items that equal no earlier one. -/
def distinctItems (seen : List Script.Value) :
    List Script.Value → Except BridgeError (List Native.Value)
  | [] => return []
  | item :: rest => do
    if seen.any fun v => v == item then distinctItems seen rest
    else
      let n ← convert item
      return n :: (← distinctItems (seen ++ [item]) rest)

/-- Converts the entries in order, of each the key first. -/
def entries (index : Nat) (key : DeclaredType) :
    List (Utf16 × Script.Value) → Except BridgeError (List (Native.Value × Native.Value))
  | [] => return []
  | (name, item) :: rest => do
    match key.readKey? name with
    | none => throw (.lookup index name.lossy)
    | some k =>
      let n ← convert item
      return (k, n) :: (← entries index key rest)

end Conversion

namespace Bridge

/-- What a failure calls a string that no text decodes to. -/
def illFormed : String := "ill-formed string"

/-- A step of a conversion at a depth, refused past the limit. -/
def within (b : Bridge) (index depth : Nat) (x : Except BridgeError Native.Value) :
    Except BridgeError Native.Value :=
  if b.options.maxDepth < depth then throw (.depth index b.options.maxDepth) else x

mutual

/-- The native value of a script value found at a depth of argument `index`. -/
def fromScriptAt (b : Bridge) (index : Nat) :
    DeclaredType → Nat → Script.Value → Except BridgeError Native.Value
  | .any, depth, v => b.within index depth (return .script v)
  | .null, depth, v => b.within index depth <|
    if v.isNullish then return .null else throw (.conversion index .null v.typeName)
  | .bool, depth, v => b.within index depth <|
    match v.bool? with
    | some x => return .bool x
    | none => throw (.conversion index .bool v.typeName)
  | .integer, depth, v => b.within index depth <|
    match v.integer? with
    | some i => return .integer i
    | none => throw (.conversion index .integer v.typeName)
  | .bounded name min max, depth, v => b.within index depth <|
    match v.integer?.filter fun i => min ≤ i && i ≤ max with
    | some i => return .integer i
    | none => throw (.conversion index (.bounded name min max) v.typeName)
  | .number, depth, v => b.within index depth <|
    match v.number? with
    | some x => return .number x
    | none => throw (.conversion index .number v.typeName)
  | .string, depth, v => b.within index depth <|
    match v with
    | .string s => match s.toString? with
      | some text => return .string text
      | none => throw (.conversion index .string illFormed)
    | _ => throw (.conversion index .string v.typeName)
  | .u16string, depth, v => b.within index depth <|
    match v with
    | .string s => return .u16string s
    | _ => throw (.conversion index .u16string v.typeName)
  | .symbol, depth, v => b.within index depth <|
    match v with
    | .symbol s => return .symbol s
    | _ => throw (.conversion index .symbol v.typeName)
  | .tuple types, depth, v => b.within index depth <|
    match v with
    | .array items => do
      if items.length = types.length then
        return .tuple (← b.componentsFromScript index types (depth + 1) items)
      else throw (.arity index types.length items.length)
    | _ => throw (.conversion index (.tuple types) v.typeName)
  | .variant alternatives, depth, v => b.within index depth <|
    b.alternativeFromScript index alternatives 0
      (.conversion index (.variant alternatives) v.typeName) (depth + 1) v
  | .list element, depth, v => b.within index depth <|
    match v with
    | .array items => do
      return .list (← items.mapM fun item => b.fromScriptAt index element (depth + 1) item)
    | _ => throw (.conversion index (.list element) v.typeName)
  | .set element, depth, v => b.within index depth <|
    match v with
    | .array items => do
      return .set (← Conversion.distinctItems (b.fromScriptAt index element (depth + 1)) [] items)
    | _ => throw (.conversion index (.set element) v.typeName)
  | .map key value, depth, v => b.within index depth <|
    match v with
    | .map entries => do
      return .map (← Conversion.entries (b.fromScriptAt index value (depth + 1)) index key entries)
    | _ => throw (.conversion index (.map key value) v.typeName)
  | .optional inner, depth, v => b.within index depth <|
    match v with
    | .undefined => return .undefined
    | .null => return .null
    | v => b.fromScriptAt index inner depth v
  | .object className, depth, v => b.within index depth <|
    match b.nativeOf v with
    | some o =>
      if b.classes.isA o.className className then return .object o
      else throw (.conversion index (.object className) o.className)
    | none => throw (.conversion index (.object className) v.typeName)
  | .function, depth, v => b.within index depth <|
    match v with
    | .function id => return .function id
    | _ => throw (.conversion index .function v.typeName)

/-- Each item under the type of its place. -/
def componentsFromScript (b : Bridge) (index : Nat) :
    List DeclaredType → Nat → List Script.Value → Except BridgeError (List Native.Value)
  | type :: types, depth, item :: items => do
    let n ← b.fromScriptAt index type depth item
    return n :: (← b.componentsFromScript index types depth items)
  | _, _, _ => return []

/-- The value under the first alternative that accepts it, `fail` if none does; the alternatives are
numbered from `number`. -/
def alternativeFromScript (b : Bridge) (index : Nat) :
    List DeclaredType → Nat → BridgeError → Nat → Script.Value → Except BridgeError Native.Value
  | [], _, fail, _, _ => throw fail
  | type :: types, number, fail, depth, v =>
    match b.fromScriptAt index type depth v with
    | .ok n => return .variant number n
    | .error (.depth i limit) => throw (.depth i limit)
    | .error _ => b.alternativeFromScript index types (number + 1) fail depth v

end

/-- The native value of argument `index` under its declared type. -/
def fromScript (b : Bridge) (v : Script.Value) (type : DeclaredType) (index : Nat) :
    Except BridgeError Native.Value :=
  b.fromScriptAt index type 0 v

end Bridge
end ScriptBridge
