import ScriptBridge.Event
import ScriptBridge.Script.Value
import ScriptBridge.Table

/-! # The object heap

Objects live in slots. Freeing a slot advances its generation before the slot may be used again, so
a name taken before the free never finds what is allocated there later. Freed slots are used again
last in, first out.

* `Heap.get?` finds the live object of a name, and `Heap.ids` lists the names of all live ones in
  slot order.
* `Heap.allocate` and `Heap.free?` are the only operations that make and end a name.
-/

namespace ScriptBridge
set_option autoImplicit false

/-- What a script function answers, and what it reports on the way. -/
structure Reply where
  events : List Event := []
  result : Except BridgeError Script.Value

abbrev HostFunction := List Script.Value → Reply

/-- Runs once, when its object is collected: it reports `text` and may then panic. -/
structure HostFinalizer where
  text : String
  panics : Bool := false
deriving DecidableEq, Repr

inductive HeapObject where
  /-- The script handle of a native instance. -/
  | wrapper (className : String)
  /-- A script function with the values it closes over. -/
  | function (name : String) (captures : List Script.Value) (body : HostFunction)

def HeapObject.kind : HeapObject → ObjectKind
  | wrapper _ => .wrapper
  | function .. => .function

def HeapObject.captures : HeapObject → List Script.Value
  | wrapper _ => []
  | function _ captures _ => captures

/-- A live object with its properties and the finalizers that wait for its end. -/
structure LiveObject where
  object : HeapObject
  properties : Table String Script.Value := .empty
  finalizers : List HostFinalizer := []

namespace LiveObject

def kind (e : LiveObject) : ObjectKind := e.object.kind

/-- The objects that an object names directly, in properties and captures. -/
def references (e : LiveObject) : List ObjectId :=
  (e.properties.values ++ e.object.captures).flatMap Script.Value.objects

end LiveObject

structure Slot where
  /-- How often an object was freed from the slot. -/
  freed : Nat
  entry : Option LiveObject

/-- The count of frees as names show it: it wraps around. -/
def Slot.generation (slot : Slot) : UInt32 := UInt32.ofNat slot.freed

structure Heap where
  slots : Array Slot := #[]
  /-- The slots that can be used again, the next one first. -/
  vacant : List UInt32 := []
  live : Nat := 0
deriving Inhabited

/-- An operation was given a name that no longer finds its object, or finds one of the wrong kind.
-/
inductive HeapError where
  | stale (id : ObjectId)
  | notCallable (id : ObjectId)
deriving DecidableEq, Repr

def HeapError.message : HeapError → String
  | stale id => s!"stale object handle {id.toText}"
  | notCallable id => s!"object {id.toText} is not a function"

def HeapError.toBridgeError : HeapError → BridgeError
  | stale id => .deadObject id
  | notCallable id => .notCallable id.toText

namespace Heap

/-! ## Reading -/

def get? (h : Heap) (id : ObjectId) : Option LiveObject :=
  match h.slots[id.index.toNat]? with
  | some slot => if slot.generation = id.generation then slot.entry else none
  | none => none

def contains (h : Heap) (id : ObjectId) : Bool := (h.get? id).isSome

def idAt (h : Heap) (index : Nat) : Option ObjectId :=
  match h.slots[index]? with
  | some slot => if slot.entry.isSome then some ⟨UInt32.ofNat index, slot.generation⟩ else none
  | none => none

def ids (h : Heap) : List ObjectId := (List.range h.slots.size).filterMap h.idAt

/-- The objects that the object of a name names directly; none if it is not live. -/
def references (h : Heap) (id : ObjectId) : List ObjectId :=
  match h.get? id with
  | some e => e.references
  | none => []

def size (h : Heap) : Nat := h.live

def slotCount (h : Heap) : Nat := h.slots.size

def isEmpty (h : Heap) : Bool := h.live == 0

def diagnostic (h : Heap) : String :=
  "ObjectHeap \x7b live: " ++ toString h.live ++ ", slot_count: " ++ toString h.slots.size
    ++ ", free_count: " ++ toString h.vacant.length ++ " \x7d"

/-! ## Changing -/

/-- A new object in a vacant slot, or in a new one if there is none. -/
def allocate (h : Heap) (object : HeapObject) : ObjectId × Heap :=
  match h.vacant with
  | index :: rest =>
    let generation := ((h.slots[index.toNat]?).map (·.generation)).getD 0
    (⟨index, generation⟩,
      { slots := h.slots.modify index.toNat fun slot => { slot with entry := some { object } }
        vacant := rest
        live := h.live + 1 })
  | [] =>
    (⟨UInt32.ofNat h.slots.size, 0⟩,
      { slots := h.slots.push ⟨0, some { object }⟩
        vacant := []
        live := h.live + 1 })

/-- A live object taken out of its slot, whose generation advances. -/
def free? (h : Heap) (id : ObjectId) : Option (LiveObject × Heap) :=
  (h.get? id).map fun e =>
    (e,
      { slots := h.slots.modify id.index.toNat fun slot => ⟨slot.freed + 1, none⟩
        vacant := id.index :: h.vacant
        live := h.live - 1 })

/-- A live object changed in place. -/
def update (h : Heap) (id : ObjectId) (f : LiveObject → LiveObject) : Except HeapError Heap :=
  if h.contains id then
    let slots := h.slots.modify id.index.toNat fun slot => { slot with entry := slot.entry.map f }
    .ok { h with slots }
  else .error (.stale id)

end Heap
end ScriptBridge
