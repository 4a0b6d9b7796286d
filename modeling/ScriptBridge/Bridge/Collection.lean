import ScriptBridge.Bridge.Release

/-! # Collecting garbage

One collection runs the host's collector with the bridge's retention and then releases every wrapper
it swept. Children that were held only by an edge of a swept parent were swept with it, so nothing
is left for a second pass.
-/

namespace ScriptBridge.Bridge
set_option autoImplicit false

/-- Strong wrappers are roots, and an edge makes its child reachable from its parent. -/
def retention (b : Bridge) : Retention where
  roots := b.registry.strongWrappers
  retained := b.edges.children

/-- Releases swept objects in order and adds up what was done. -/
def releaseAll (b : Bridge) (report : CollectionReport) : List ObjectId → CollectionReport × Bridge
  | [] => (report, b)
  | id :: rest =>
    let ((detached, finalized), b) := b.release [] id
    b.releaseAll
      { report with
        detached := report.detached + detached
        finalized := report.finalized + if finalized then 1 else 0 } rest

def collect (b : Bridge) : CollectionReport × Bridge :=
  let (swept, b) := b.onEngine (·.collect b.retention)
  b.releaseAll { swept := swept.length } swept

/-- How a collection until a condition ended. -/
structure Pursuit where
  /-- Whether the condition held in the end. -/
  held : Bool
  /-- How often it was asked for. -/
  asked : Nat
deriving DecidableEq, Repr

/-- Collects until `holds`, in at most so many passes. The condition is asked for before every pass
and once more at the end; it is told how often it was asked for before. -/
def pursue (b : Bridge) (holds : Nat → Bridge → Bool) (asked : Nat) : Nat → Pursuit × Bridge
  | 0 => (⟨holds asked b, asked + 1⟩, b)
  | passes + 1 =>
    if holds asked b then (⟨true, asked + 1⟩, b)
    else b.collect.2.pursue holds (asked + 1) passes

def collectUntil (b : Bridge) (holds : Nat → Bridge → Bool) : Pursuit × Bridge :=
  b.pursue holds 0 b.options.maxPasses

end ScriptBridge.Bridge
