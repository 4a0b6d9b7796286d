/-! # Heap objects by name

Script values never hold a heap object; they name it by an `ObjectId`. The generation tells the
objects apart that have used one slot after another, so a name outlives its object without ever
coming to mean the next one. A `WeakHandle` is such a name together with the kind of object it was
taken from.
-/

namespace ScriptBridge
set_option autoImplicit false

/-- A slot of the heap and how often it had been freed when the object was allocated. -/
structure ObjectId where
  index : UInt32
  generation : UInt32
deriving DecidableEq, Repr, Inhabited

namespace ObjectId

def toText (id : ObjectId) : String := s!"#{id.index}v{id.generation}"

/-- By slot, then by generation. -/
instance : Ord ObjectId :=
  ⟨fun a b => (compare a.index b.index).then (compare a.generation b.generation)⟩

end ObjectId

inductive ObjectKind where
  | wrapper
  | function
deriving DecidableEq, Repr, Inhabited

/-- Names an object without keeping it alive. -/
structure WeakHandle where
  kind : ObjectKind
  id : ObjectId
deriving DecidableEq, Repr

/-- Two symbols are the same when they were made by the same act, whatever their descriptions. -/
structure Symbol where
  serial : Nat
  description : String
deriving DecidableEq, Repr, Inhabited

instance : BEq Symbol := ⟨fun a b => a.serial == b.serial⟩

end ScriptBridge
