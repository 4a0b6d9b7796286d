import ScriptBridge.Class.Definition

/-! # The class hierarchy

The registered classes, with look-ups along the chain of bases.

* `Hierarchy.ancestry` is a class and its bases, nearest first. A class can be replaced by one with
  another base, so the chain may close on itself; the walk stops after as many steps as there are
  classes.
* `Hierarchy.isA` is derivation, and the other look-ups answer with the first class of the ancestry
  that has what they look for.
-/

namespace ScriptBridge
set_option autoImplicit false

structure Hierarchy where
  classes : Table String NativeClass := .empty
deriving Inhabited

namespace Hierarchy

def find? (t : Hierarchy) (name : String) : Option NativeClass := t.classes.find? name

def size (t : Hierarchy) : Nat := t.classes.size

def isEmpty (t : Hierarchy) : Bool := t.classes.isEmpty

/-- A class registered, in the place of one of its name. Its base must be registered already. -/
def define (t : Hierarchy) (c : NativeClass) : Except BridgeError Hierarchy :=
  match c.base? with
  | some base =>
    if t.classes.contains base then .ok ⟨t.classes.insert c.name c⟩ else .error (.unknownClass base)
  | none => .ok ⟨t.classes.insert c.name c⟩

/-! ## Ancestry -/

/-- The classes met on the way from `name` along the bases, in at most so many steps. -/
def chain (t : Hierarchy) : Nat → Option String → List NativeClass
  | 0, _ => []
  | _ + 1, none => []
  | steps + 1, some name =>
    match t.find? name with
    | none => []
    | some c => c :: t.chain steps c.base?

def ancestry (t : Hierarchy) (name : String) : List NativeClass := t.chain t.size (some name)

/-- Whether `name` is `ancestor` or derives from it. -/
def isA (t : Hierarchy) (name ancestor : String) : Bool :=
  name == ancestor || (t.ancestry name).any fun c => c.name == ancestor

def method? (t : Hierarchy) (className name : String) : Option Method :=
  (t.ancestry className).findSome? fun c => c.methods.find? name

def accessor? (t : Hierarchy) (className name : String) : Option Accessor :=
  (t.ancestry className).findSome? fun c => c.accessors.find? name

def finalizer? (t : Hierarchy) (className : String) : Option ClassFinalizer :=
  (t.ancestry className).findSome? fun c => c.finalizer?

end Hierarchy
end ScriptBridge
