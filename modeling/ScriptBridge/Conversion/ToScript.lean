import ScriptBridge.Bridge.Release
import ScriptBridge.Conversion.Key
import ScriptBridge.Native.Printer
import ScriptBridge.Script.Equality

/-! # From native to script

Every native value has a script value, except that a map key must have a name and nothing may be
nested too deep. Instances become their wrappers, so that the conversion changes the bridge.

* A set drops the elements whose conversion equals an earlier one.
* A map keeps the place of the first entry of a name and the value of the last.
-/

namespace ScriptBridge
set_option autoImplicit false

/-- The index that a failure to convert a result reports. -/
def resultIndex : Nat := 0

/-- A list of script values with one more, unless an equal one is there. -/
def addDistinct (vs : List Script.Value) (v : Script.Value) : List Script.Value :=
  if vs.any fun w => w == v then vs else vs ++ [v]

/-- A list of entries with the value of a name set, in the place of an entry of that name or at the
end. -/
def setEntry (key : Utf16) (value : Script.Value) :
    List (Utf16 × Script.Value) → List (Utf16 × Script.Value)
  | [] => [(key, value)]
  | (k, v) :: rest => if k = key then (k, value) :: rest else (k, v) :: setEntry key value rest

/-- A step of a conversion at a depth, refused past the limit. -/
def Action.within {α : Type} (depth : Nat) (x : Action α) : Action α := do
  let limit := (← get).options.maxDepth
  if limit < depth then throw (.depth resultIndex limit) else x

namespace Native.Value

mutual

/-- The script value of a native value found at a depth. Variants are transparent to the depth. -/
def toScriptAt (depth : Nat) : Value → Action Script.Value
  | undefined => Action.within depth (return .undefined)
  | null => Action.within depth (return .null)
  | bool b => Action.within depth (return .bool b)
  | integer i => Action.within depth (return .int i)
  | number x => Action.within depth (return .float x)
  | string s => Action.within depth (return .text s)
  | u16string s => Action.within depth (return .string s)
  | symbol s => Action.within depth (return .symbol s)
  | variant _ value => Action.within depth (value.toScriptAt depth)
  | tuple items => Action.within depth do return .array (← itemsToScript (depth + 1) items)
  | list items => Action.within depth do return .array (← itemsToScript (depth + 1) items)
  | set items => Action.within depth do return .array (← elementsToScript (depth + 1) [] items)
  | map entries => Action.within depth do return .map (← entriesToScript (depth + 1) [] entries)
  | object o => Action.within depth do return .wrapper (← Action.step (·.wrap o))
  | function id => Action.within depth (return .function id)
  | weakFunction h => Action.within depth do return ((← get).resolve h).getD .undefined
  | script v => Action.within depth (return v)

def itemsToScript (depth : Nat) : List Value → Action (List Script.Value)
  | [] => return []
  | item :: rest => do
    let v ← item.toScriptAt depth
    return v :: (← itemsToScript depth rest)

/-- The elements after the distinct ones that were converted already. -/
def elementsToScript (depth : Nat) (converted : List Script.Value) :
    List Value → Action (List Script.Value)
  | [] => return converted
  | item :: rest => do
    let v ← item.toScriptAt depth
    elementsToScript depth (addDistinct converted v) rest

def entriesToScript (depth : Nat) (converted : List (Utf16 × Script.Value)) :
    List (Value × Value) → Action (List (Utf16 × Script.Value))
  | [] => return converted
  | (key, value) :: rest => do
    match key.propertyName? with
    | none => throw (.lookup resultIndex key.diagnostic)
    | some name =>
      let v ← value.toScriptAt depth
      entriesToScript depth (setEntry name v converted) rest

end

def toScript (v : Value) : Action Script.Value := v.toScriptAt 0

end Native.Value

/-- The script value of a native value, and the bridge with the wrappers it needs. -/
def Bridge.toScript (b : Bridge) (v : Native.Value) : Except BridgeError Script.Value × Bridge :=
  v.toScript.run b

end ScriptBridge
