import ScriptBridge.Host.Heap
import ScriptBridge.Host.Roots

/-! # Mark and sweep

A collection keeps the objects that can be reached from the roots and frees all others. `Retention`
is what a bridge adds to it: more roots, and references that no object holds.

* `Heap.mark` lists the live objects that are reached. It goes out from the roots in rounds, each
  from the objects first met in the round before, and stops at the first round that meets none.
* `Heap.sweep` frees the others in slot order.
-/

namespace ScriptBridge
set_option autoImplicit false

structure Retention where
  roots : List ObjectId := []
  retained : ObjectId → List ObjectId := fun _ => []

namespace Heap

def successors (h : Heap) (r : Retention) (id : ObjectId) : List ObjectId :=
  h.references id ++ r.retained id

/-- The live objects of a list that are not marked, each once. -/
def unmarked (h : Heap) (marked candidates : List ObjectId) : List ObjectId :=
  (candidates.filter fun id => h.contains id && !marked.contains id).eraseDups

/-- Marks the candidates and what can be reached from them, in at most `rounds` rounds. -/
def spread (h : Heap) (r : Retention) : Nat → List ObjectId → List ObjectId → List ObjectId
  | 0, marked, _ => marked
  | rounds + 1, marked, candidates =>
    let fresh := h.unmarked marked candidates
    if fresh.isEmpty then marked
    else h.spread r rounds (marked ++ fresh) (fresh.flatMap (h.successors r))

/-- The live objects that the roots reach. Every round but the last marks an object, so there are at
most as many rounds as slots. -/
def mark (h : Heap) (roots : Roots) (r : Retention) : List ObjectId :=
  h.spread r h.slots.size [] (roots.objects ++ r.roots)

/-- Every object of a list freed, in order; those that were live are handed out. -/
def freeAll (h : Heap) : List ObjectId → List (ObjectId × LiveObject) × Heap
  | [] => ([], h)
  | id :: rest =>
    match h.free? id with
    | none => h.freeAll rest
    | some (e, h) =>
      let (freed, h) := h.freeAll rest
      ((id, e) :: freed, h)

/-- The live objects that are not marked, freed in slot order. -/
def sweep (h : Heap) (marked : List ObjectId) : List (ObjectId × LiveObject) × Heap :=
  h.freeAll (h.ids.filter fun id => !marked.contains id)

end Heap

/-! ## Finalizers -/

namespace HostFinalizer

def events (f : HostFinalizer) (id : ObjectId) : List Event :=
  .collected f.text :: if f.panics then [.warned (.hostFinalizerPanicked id)] else []

end HostFinalizer

/-- What the finalizers of swept objects write, object by object and each in the order of
registration. -/
def finalizerEvents (swept : List (ObjectId × LiveObject)) : List Event :=
  swept.flatMap fun (id, e) => e.finalizers.flatMap fun f => f.events id

def finalizerPanics (swept : List (ObjectId × LiveObject)) : Nat :=
  (swept.flatMap fun (_, e) => e.finalizers).countP (·.panics)

end ScriptBridge
