import ScriptBridge.Native.DeclaredType
import ScriptBridge.Native.Value
import ScriptBridge.Number.Reader

/-! # Shapes of typed values

A `Shape` is a type that native code works with directly, and `Shape.Carrier` is the type of its
values. Maps and sets are kept as lists in the order of their keys, without repetition.

* `Shape.declared?` is the declared type under which a value of the shape comes from script; handles
  have none.
* `Shape.compare` orders the values of the shapes that can be keys.
-/

namespace ScriptBridge
set_option autoImplicit false

/-- The integers that fit 64 bits with room to spare. -/
inductive Width where
  | i8 | i16 | i32 | u8 | u16 | u32
deriving DecidableEq, Repr, Inhabited

namespace Width

def name : Width → String
  | i8 => "i8"
  | i16 => "i16"
  | i32 => "i32"
  | u8 => "u8"
  | u16 => "u16"
  | u32 => "u32"

def bits : Width → Nat
  | i8 | u8 => 8
  | i16 | u16 => 16
  | i32 | u32 => 32

def isSigned : Width → Bool
  | i8 | i16 | i32 => true
  | _ => false

def min (w : Width) : Int64 := if w.isSigned then Int64.ofInt (-Int.pow 2 (w.bits - 1)) else 0

def max (w : Width) : Int64 := Int64.ofInt (Int.pow 2 (if w.isSigned then w.bits - 1 else w.bits) - 1)

def holds (w : Width) (i : Int64) : Bool := w.min ≤ i && i ≤ w.max

end Width

inductive Shape where
  | int (w : Width)
  | int64
  | uint64
  | float32
  | float64
  | bool
  | string
  | u16string
  | symbol
  | script
  | object
  | native
  | weak
  | option (inner : Shape)
  | list (element : Shape)
  | pair (first second : Shape)
  | triple (first second third : Shape)
  | map (key value : Shape)
  | set (element : Shape)
deriving DecidableEq, Repr, Inhabited

namespace Shape

abbrev Carrier : Shape → Type
  | int w => { i : Int64 // w.holds i }
  | int64 => Int64
  | uint64 => UInt64
  | float32 => Binary64
  | float64 => Binary64
  | bool => Bool
  | string => String
  | u16string => Utf16
  | symbol => Symbol
  | script => Script.Value
  | object => InstanceHandle
  | native => Native.Value
  | weak => WeakHandle
  | option inner => Option inner.Carrier
  | list element => List element.Carrier
  | pair first second => first.Carrier × second.Carrier
  | triple first second third => first.Carrier × second.Carrier × third.Carrier
  | map key value => List (key.Carrier × value.Carrier)
  | set element => List element.Carrier

def declared? : Shape → Option DeclaredType
  | int w => some (.bounded w.name w.min w.max)
  | int64 => some .integer
  | uint64 => some (.bounded "u64" 0 (Int64.ofInt Number.maxInt64))
  | float32 | float64 => some .number
  | bool => some .bool
  | string => some .string
  | u16string => some .u16string
  | symbol => some .symbol
  | script => some .any
  | object | native | weak => none
  | option inner => inner.declared?.map .optional
  | list element => element.declared?.map .list
  | pair first second => do return .tuple [← first.declared?, ← second.declared?]
  | triple first second third =>
    do return .tuple [← first.declared?, ← second.declared?, ← third.declared?]
  | map key value => do return .map (← key.declared?) (← value.declared?)
  | set element => element.declared?.map .set

/-! ## Order -/

/-- Lexicographic, a shorter list first. -/
def compareLists {α : Type} (cmp : α → α → Ordering) : List α → List α → Ordering
  | [], [] => .eq
  | [], _ :: _ => .lt
  | _ :: _, [] => .gt
  | a :: as, b :: bs => (cmp a b).then (compareLists cmp as bs)

/-- The order of the values of a shape: numbers by size, false before true, strings by code point,
absence first, and sequences lexicographically. Shapes that are no keys leave their values
unordered. -/
def compare : (s : Shape) → s.Carrier → s.Carrier → Ordering
  | int _, a, b => Ord.compare a.val b.val
  | int64, a, b => Ord.compare a b
  | uint64, a, b => Ord.compare a b
  | bool, a, b => Ord.compare a b
  | string, a, b => Ord.compare a b
  | option _, none, none => .eq
  | option _, none, some _ => .lt
  | option _, some _, none => .gt
  | option inner, some a, some b => inner.compare a b
  | list element, a, b => compareLists element.compare a b
  | set element, a, b => compareLists element.compare a b
  | pair first second, a, b => (first.compare a.1 b.1).then (second.compare a.2 b.2)
  | triple first second third, a, b =>
    (first.compare a.1 b.1).then ((second.compare a.2.1 b.2.1).then (third.compare a.2.2 b.2.2))
  | map key value, a, b =>
    compareLists (fun x y => (key.compare x.1 y.1).then (value.compare x.2 y.2)) a b
  | _, _, _ => .eq

end Shape

/-- An ordered list with an element put at its place, where it takes over from an equal one. -/
def insertOrdered {α : Type} (cmp : α → α → Ordering) (a : α) : List α → List α
  | [] => [a]
  | b :: rest =>
    match cmp a b with
    | .lt => a :: b :: rest
    | .eq => a :: rest
    | .gt => b :: insertOrdered cmp a rest

/-- The elements of a list in order, of equal ones the last. -/
def orderDistinct {α : Type} (cmp : α → α → Ordering) (as : List α) : List α :=
  as.foldl (fun ordered a => insertOrdered cmp a ordered) []

end ScriptBridge
