import ScriptBridge.Object
import ScriptBridge.Table

/-! # Ownership edges

An edge from a parent to a child tells the collector that the child is reachable whenever the parent
is. The table keeps both directions, so that the edges leaving an object and those entering it are
found without a search.

* `Ownership.add` and `Ownership.remove` change one edge and say whether they did.
* `Ownership.detach` drops the edges that leave an object, `Ownership.purge` those that enter it.
-/

namespace ScriptBridge
set_option autoImplicit false

/-- One direction of a relation between objects: the partners of every object that has any. -/
abbrev Adjacency := Table ObjectId (List ObjectId)

namespace Adjacency

def partners (t : Adjacency) (a : ObjectId) : List ObjectId := (t.find? a).getD []

def link (t : Adjacency) (a b : ObjectId) : Adjacency :=
  if b ∈ partners t a then t else t.insert a (partners t a ++ [b])

/-- An object left without partners leaves the table. -/
def unlink (t : Adjacency) (a b : ObjectId) : Adjacency :=
  match t.find? a with
  | none => t
  | some bs =>
    let rest := bs.erase b
    if rest.isEmpty then t.erase a else t.insert a rest

def pairCount (t : Adjacency) : Nat := t.values.flatten.length

end Adjacency

structure Ownership where
  outgoing : Adjacency := .empty
  incoming : Adjacency := .empty
deriving Inhabited

namespace Ownership

/-! ## Reading -/

def children (t : Ownership) (parent : ObjectId) : List ObjectId :=
  Adjacency.partners t.outgoing parent

def parents (t : Ownership) (child : ObjectId) : List ObjectId :=
  Adjacency.partners t.incoming child

def contains (t : Ownership) (parent child : ObjectId) : Bool := (t.children parent).contains child

def size (t : Ownership) : Nat := Adjacency.pairCount t.outgoing

def isEmpty (t : Ownership) : Bool := t.outgoing.isEmpty

/-! ## Changing -/

/-- The edge added, and whether it was missing. -/
def add (t : Ownership) (parent child : ObjectId) : Bool × Ownership :=
  if t.contains parent child then (false, t)
  else (true, ⟨Adjacency.link t.outgoing parent child, Adjacency.link t.incoming child parent⟩)

/-- The edge removed, and whether it was there. -/
def remove (t : Ownership) (parent child : ObjectId) : Bool × Ownership :=
  if t.contains parent child then
    (true, ⟨Adjacency.unlink t.outgoing parent child, Adjacency.unlink t.incoming child parent⟩)
  else (false, t)

/-- Every edge leaving `parent` dropped, and how many there were. -/
def detach (t : Ownership) (parent : ObjectId) : Nat × Ownership :=
  let children := t.children parent
  (children.length,
    { outgoing := t.outgoing.erase parent
      incoming :=
        children.foldl (fun incoming child => Adjacency.unlink incoming child parent) t.incoming })

/-- Every edge entering `child` dropped. -/
def purge (t : Ownership) (child : ObjectId) : Ownership :=
  { outgoing :=
      (t.parents child).foldl (fun outgoing parent => Adjacency.unlink outgoing parent child)
        t.outgoing
    incoming := t.incoming.erase child }

end Ownership
end ScriptBridge
