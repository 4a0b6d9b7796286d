import ScriptBridge.Number.Binary64
import ScriptBridge.Object
import ScriptBridge.Text.Utf16

/-! # Script values

`Script.Value` is what script code sees: scalars, UTF-16 strings, arrays, maps with their entries in
order, and the names of wrappers and functions on the heap.

* `Script.Value.objects` lists every heap object a value names, however deep, left to right.
* `Script.Value.object?` is the object a value itself names.
-/

namespace ScriptBridge.Script
set_option autoImplicit false

inductive Value where
  | undefined
  | null
  | bool (b : Bool)
  | int (i : Int64)
  | float (x : Binary64)
  | string (s : Utf16)
  | symbol (s : Symbol)
  | array (items : List Value)
  | map (entries : List (Utf16 × Value))
  | wrapper (id : ObjectId)
  | function (id : ObjectId)
deriving Repr, Inhabited

namespace Value

/-- A string of well-formed text. -/
def text (s : String) : Value := .string (.ofString s)

def typeName : Value → String
  | undefined => "undefined"
  | null => "null"
  | bool _ => "boolean"
  | int _ => "integer"
  | float _ => "number"
  | string _ => "string"
  | symbol _ => "symbol"
  | array _ => "array"
  | map _ => "object"
  | wrapper _ => "wrapper"
  | function _ => "function"

def isNullish : Value → Bool
  | undefined | null => true
  | _ => false

/-! ## Heap objects -/

def object? : Value → Option (ObjectKind × ObjectId)
  | wrapper id => some (.wrapper, id)
  | function id => some (.function, id)
  | _ => none

def objectId? (v : Value) : Option ObjectId := v.object?.map (·.2)

mutual

/-- The objects named in a value, through arrays and maps, repetitions kept. -/
def objects : Value → List ObjectId
  | wrapper id => [id]
  | function id => [id]
  | array items => objectsOfItems items
  | map entries => objectsOfEntries entries
  | _ => []

def objectsOfItems : List Value → List ObjectId
  | [] => []
  | v :: rest => v.objects ++ objectsOfItems rest

def objectsOfEntries : List (Utf16 × Value) → List ObjectId
  | [] => []
  | (_, v) :: rest => v.objects ++ objectsOfEntries rest

end

/-! ## Extraction -/

def bool? : Value → Option Bool
  | bool b => some b
  | _ => none

def int? : Value → Option Int64
  | int i => some i
  | _ => none

/-- The number of a numeric value; an integer is rounded to the nearest one. -/
def number? : Value → Option Binary64
  | int i => some (.ofInt i.toInt)
  | float x => some x
  | _ => none

/-- The text of a string, with U+FFFD for what is ill formed. -/
def text? : Value → Option String
  | string s => some s.lossy
  | _ => none

/-- The value of the first entry of a map whose key spells `key`. -/
def get? (v : Value) (key : String) : Option Value :=
  match v with
  | map entries => (entries.find? fun (k, _) => k.spells key).map (·.2)
  | _ => none

end Value

/-- The value that names an object of a kind. -/
def Value.ofObject : ObjectKind → ObjectId → Value
  | .wrapper, id => .wrapper id
  | .function, id => .function id

end ScriptBridge.Script

namespace ScriptBridge.WeakHandle
set_option autoImplicit false

def toValue (h : WeakHandle) : Script.Value := .ofObject h.kind h.id

end ScriptBridge.WeakHandle
