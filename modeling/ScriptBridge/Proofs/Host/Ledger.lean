import ScriptBridge.Proofs.Host.Scopes
import ScriptBridge.Proofs.Host.Sweeping

/-! # Every finalizer runs once

What happens to finalizers is told by a ledger that is kept beside an engine. It is written from the
answers of the calls alone, and gives every registration a number.

* `Ledger.due` is what a collection has to run, from the names of the swept objects.
* `Ledger.Matches.collect_eq` takes a collection apart: first all objects are freed, then the finalizers run
  one after another, at last the statistics are brought up to date.
* `Ledger.Matches` says that an engine has done what its ledger says. Every call keeps it.
* `Engine.finalizers_run_once` is what follows after any calls.
-/

namespace ScriptBridge
set_option autoImplicit false

/-- A call that may change an engine. -/
inductive EngineCall where
  | allocateWrapper (className : String)
  | createFunction (name : String) (captures : List Script.Value) (body : HostFunction)
  | setProperty (id : ObjectId) (name : String) (v : Script.Value)
  | addFinalizer (id : ObjectId) (f : HostFinalizer)
  | invoke (id : ObjectId) (args : List Script.Value)
  | openScope
  | closeScope
  | pin (v : Script.Value)
  | setGlobal (name : String) (v : Script.Value)
  | removeGlobal (name : String)
  | collect (r : Retention)

/-- What a call comes to, as far as objects and finalizers go. -/
inductive EngineEvent where
  | allocated
  | registered (id : ObjectId) (f : HostFinalizer)
  | collected (swept : List ObjectId)
  /-- Nothing but what was written to the journal on the way. -/
  | reported (events : List Event)

/-! ## The ledger -/

/-- A finalizer that was added to an object. -/
structure Registration where
  /-- How many finalizers were added before, to any object. -/
  number : Nat
  object : ObjectId
  finalizer : HostFinalizer
deriving DecidableEq

/-- What the finalizer writes to the journal when it runs. -/
def Registration.events (x : Registration) : List Event := x.finalizer.events x.object

structure Ledger where
  allocations : Nat := 0
  /-- All finalizers that were added, the oldest first. -/
  registered : List Registration := []
  /-- Those that have not run. -/
  waiting : List Registration := []
  /-- Those that have run, in the order in which they did. -/
  ran : List Registration := []
  journal : List Event := []

namespace Ledger

/-- The finalizers that wait for the end of some objects, object by object. -/
def due (l : Ledger) (swept : List ObjectId) : List Registration :=
  swept.flatMap fun id => l.waiting.filter (·.object = id)

def next (l : Ledger) : EngineEvent → Ledger
  | .allocated => { l with allocations := l.allocations + 1 }
  | .registered id f =>
    let x : Registration := ⟨l.registered.length, id, f⟩
    { l with registered := l.registered ++ [x], waiting := l.waiting ++ [x] }
  | .collected swept =>
    { l with
      waiting := l.waiting.filter (·.object ∉ swept)
      ran := l.ran ++ l.due swept
      journal := l.journal ++ (l.due swept).flatMap Registration.events }
  | .reported events => { l with journal := l.journal ++ events }

/-- The ledger after some events, the oldest first. -/
def after (log : List EngineEvent) : Ledger := log.foldl next {}

end Ledger

namespace Engine

/-! ## Calls -/

def call (e : Engine) : EngineCall → Engine
  | .allocateWrapper className => (e.allocateWrapper className).2
  | .createFunction name captures body => (e.createFunction name captures body).2
  | .setProperty id name v => (e.setProperty id name v).2
  | .addFinalizer id f => (e.addFinalizer id f).2
  | .invoke id args => (e.invoke id args).2
  | .openScope => e.openScope
  | .closeScope => e.closeScope
  | .pin v => e.pin v
  | .setGlobal name v => e.setGlobal name v
  | .removeGlobal name => (e.removeGlobal name).2
  | .collect r => (e.collect r).2

/-- A finalizer counts as registered only if the engine took it. -/
def answer (e : Engine) : EngineCall → EngineEvent
  | .allocateWrapper _ | .createFunction .. => .allocated
  | .addFinalizer id f => if (e.addFinalizer id f).1.isOk then .registered id f else .reported []
  | .invoke id args => .reported (e.reply id args).events
  | .closeScope => .reported (if e.roots.closeScope.1 then [] else [.warned .unmatchedClose])
  | .collect r => .collected (e.collect r).1
  | _ => .reported []

def callAll (e : Engine) : List EngineCall → Engine
  | [] => e
  | c :: rest => (e.call c).callAll rest

/-- The events of some calls, the oldest first. -/
def log (e : Engine) : List EngineCall → List EngineEvent
  | [] => []
  | c :: rest => e.answer c :: (e.call c).log rest

/-! ## A collection step by step -/

/-- The engine when everything was freed that is not reached, and no finalizer has run. -/
def freed (e : Engine) (r : Retention) : Engine :=
  { e with heap := (e.heap.sweep (e.heap.mark e.roots r)).2 }

/-- The run of one finalizer. A panic ends there and is counted. -/
def finalize (e : Engine) (x : Registration) : Engine :=
  let panics := e.stats.finalizerPanics + if x.finalizer.panics then 1 else 0
  { e.note x.events with stats := { e.stats with finalizerPanics := panics } }

def finalizeAll (e : Engine) (due : List Registration) : Engine := due.foldl finalize e

/-- The statistics brought up to date at the end of a collection. -/
def account (e : Engine) (marked freed : Nat) : Engine :=
  { e with
    stats :=
      { e.stats with
        collections := e.stats.collections + 1
        objectsFreed := e.stats.objectsFreed + freed
        lastMarked := marked
        lastFreed := freed
        liveObjects := e.heap.size } }

theorem finalizeAll_eq (e : Engine) (due : List Registration) :
    e.finalizeAll due =
      { e with
        journal := e.journal ++ due.flatMap Registration.events
        stats :=
          { e.stats with
            finalizerPanics := e.stats.finalizerPanics + due.countP (·.finalizer.panics) } } := by
  induction due generalizing e with
  | nil => simp [finalizeAll]
  | cons x rest ih =>
    rw [finalizeAll, List.foldl_cons, ← finalizeAll, ih]
    simp [finalize, note, List.countP_cons, Nat.add_assoc, Nat.add_comm]

theorem isAlive_finalizeAll (e : Engine) (due : List Registration) (id : ObjectId) :
    (e.finalizeAll due).isAlive id = e.isAlive id := by
  rw [finalizeAll_eq]
  rfl

end Engine

/-! ## What is due -/

namespace Ledger

variable {l : Ledger} {swept : List ObjectId}

theorem mem_due_iff {x : Registration} :
    x ∈ l.due swept ↔ x ∈ l.waiting ∧ x.object ∈ swept := by
  simp [due, and_comm]

/-- What is due comes by slots, and for one object as it was registered. -/
theorem pairwise_due (hslots : swept.Pairwise fun a b => a.index < b.index)
    (hnumbers : l.waiting.Pairwise fun x y => x.number < y.number) :
    (l.due swept).Pairwise fun x y =>
      x.object.index < y.object.index ∨ x.object = y.object ∧ x.number < y.number := by
  refine List.pairwise_flatMap.2 ⟨fun id _ => ?_, hslots.imp fun hlt x hx y hy => ?_⟩
  · refine (hnumbers.filter _).imp_of_mem fun hx hy hlt => .inr ⟨?_, hlt⟩
    rw [of_decide_eq_true (List.mem_filter.1 hx).2, of_decide_eq_true (List.mem_filter.1 hy).2]
  · left
    rwa [of_decide_eq_true (List.mem_filter.1 hx).2, of_decide_eq_true (List.mem_filter.1 hy).2]

/-- What is due and what goes on waiting is what waited. -/
theorem perm_due (hslots : swept.Pairwise fun a b => a.index < b.index)
    (hnumbers : l.waiting.Pairwise fun x y => x.number < y.number) :
    (l.due swept ++ l.waiting.filter (·.object ∉ swept)).Perm l.waiting := by
  have hdue : (l.due swept).Nodup := (pairwise_due hslots hnumbers).imp fun hlt heq => by
    simp [heq] at hlt
  have hwaiting : l.waiting.Nodup := hnumbers.imp fun hlt heq => by simp [heq] at hlt
  have hswept : (l.due swept).Perm (l.waiting.filter (·.object ∈ swept)) := by
    refine (List.perm_ext_iff_of_nodup hdue (hwaiting.filter _)).2 fun x => ?_
    rw [mem_due_iff, List.mem_filter, decide_eq_true_iff]
  have hsplit := List.filter_append_perm
    (fun x : Registration => decide (x.object ∈ swept)) l.waiting
  simp only [← decide_not] at hsplit
  exact (hswept.append_right _).trans hsplit

/-- If freed objects have the finalizers that wait for them, these are due. -/
theorem map_due {freed : List (ObjectId × LiveObject)}
    (h : ∀ id o, (id, o) ∈ freed →
      o.finalizers = (l.waiting.filter (·.object = id)).map (·.finalizer)) :
    (l.due (freed.map Prod.fst)).map (fun x => (x.object, x.finalizer)) =
      freed.flatMap fun p => p.2.finalizers.map fun f => (p.1, f) := by
  rw [due, List.flatMap_map, List.map_flatMap]
  refine List.flatMap_congr fun p hp => ?_
  rw [h p.1 p.2 hp, List.map_map]
  refine List.map_congr_left fun x hx => ?_
  rw [of_decide_eq_true (List.mem_filter.1 hx).2]
  rfl

/-- The engine has done what the ledger says, and nothing else. -/
structure Matches (l : Ledger) (e : Engine) : Prop where
  exact : e.heap.Exact
  /-- An object has the finalizers that wait for its end, as they were registered. -/
  finalizers : ∀ id o, e.heap.get? id = some o →
    o.finalizers = (l.waiting.filter (·.object = id)).map (·.finalizer)
  alive : ∀ x ∈ l.waiting, e.isAlive x.object
  once : (l.ran ++ l.waiting).Perm l.registered
  ordered : l.waiting.Sublist l.registered
  numbers : l.registered.map (·.number) = List.range l.registered.length
  journal : e.journal = l.journal
  allocations : e.stats.objectsFreed + e.heap.size = l.allocations
  panics : e.stats.finalizerPanics = l.ran.countP (·.finalizer.panics)

theorem matches_empty : Matches {} {} where
  exact := Heap.exact_empty
  finalizers id o h := by simp [Heap.get?] at h
  alive x h := by cases h
  once := .nil
  ordered := .refl _
  numbers := rfl
  journal := rfl
  allocations := rfl
  panics := rfl

namespace Matches

variable {e e' : Engine}

theorem pairwise_waiting (hm : l.Matches e) :
    l.waiting.Pairwise fun x y => x.number < y.number := by
  refine List.Pairwise.sublist hm.ordered (List.pairwise_map.1 ?_)
  rw [hm.numbers]
  exact List.pairwise_lt_range

/-- Calls that leave objects and statistics alone may still report. -/
theorem report (hm : l.Matches e) (events : List Event) (hheap : e'.heap = e.heap)
    (hstats : e'.stats = e.stats) (hjournal : e'.journal = e.journal ++ events) :
    (l.next (.reported events)).Matches e' where
  exact := hheap ▸ hm.exact
  finalizers := hheap ▸ hm.finalizers
  alive x hx := by
    rw [Engine.isAlive, hheap]
    exact hm.alive x hx
  once := hm.once
  ordered := hm.ordered
  numbers := hm.numbers
  journal := by
    rw [hjournal, hm.journal]
    rfl
  allocations := by
    rw [hstats, hheap]
    exact hm.allocations
  panics := hstats ▸ hm.panics

theorem allocate (hm : l.Matches e) (object : HeapObject) :
    (l.next .allocated).Matches { e with heap := (e.heap.allocate object).2 } where
  exact := hm.exact.allocate object
  finalizers id o h := by
    rcases hm.exact.wellFormed.get?_allocate_cases h with hold | ⟨hdead, rfl⟩
    · exact hm.finalizers id o hold
    · -- A finalizer waits for living objects only, also where the name was used before.
      have hnone : l.waiting.filter (·.object = id) = [] := by
        refine List.filter_eq_nil_iff.2 fun x hx hid => ?_
        obtain ⟨o, ho⟩ := Heap.contains_iff.1 (hm.alive x hx)
        rw [of_decide_eq_true hid, hdead] at ho
        cases ho
      change [] = (l.waiting.filter (·.object = id)).map (·.finalizer)
      rw [hnone]
      rfl
  alive x hx := by
    obtain ⟨o, ho⟩ := Heap.contains_iff.1 (hm.alive x hx)
    exact Heap.contains_of_get? (hm.exact.wellFormed.get?_allocate_of_some object ho)
  once := hm.once
  ordered := hm.ordered
  numbers := hm.numbers
  journal := hm.journal
  allocations := by
    have hsize : (e.heap.allocate object).2.size = e.heap.size + 1 := e.heap.live_allocate object
    change e.stats.objectsFreed + (e.heap.allocate object).2.size = l.allocations + 1
    rw [hsize, ← Nat.add_assoc, hm.allocations]
  panics := hm.panics

/-- An object may change as long as its finalizers do not. -/
theorem update (hm : l.Matches e) {id : ObjectId} {f : LiveObject → LiveObject} {heap : Heap}
    (hu : e.heap.update id f = .ok heap) (hf : ∀ o, (f o).finalizers = o.finalizers) :
    (l.next (.reported [])).Matches { e with heap } where
  exact := hm.exact.update hu
  finalizers id' o h := by
    rw [Heap.get?_update hu] at h
    split at h
    · obtain ⟨o, ho, rfl⟩ := Option.map_eq_some_iff.1 h
      exact (hf o).trans (hm.finalizers id' o ho)
    · exact hm.finalizers id' o h
  alive x hx := (Heap.contains_update hu x.object).trans (hm.alive x hx)
  once := hm.once
  ordered := hm.ordered
  numbers := hm.numbers
  journal := hm.journal.trans (List.append_nil _).symm
  allocations := (congrArg (e.stats.objectsFreed + ·) (Heap.live_update hu)).trans hm.allocations
  panics := hm.panics

theorem register (hm : l.Matches e) {id : ObjectId} {f : HostFinalizer} {heap : Heap}
    (hu : e.heap.update id (fun o => { o with finalizers := o.finalizers ++ [f] }) = .ok heap) :
    (l.next (.registered id f)).Matches { e with heap } where
  exact := hm.exact.update hu
  finalizers id' o h := by
    let x : Registration := ⟨l.registered.length, id, f⟩
    change _ = ((l.waiting ++ [x]).filter (·.object = id')).map _
    rw [Heap.get?_update hu] at h
    rw [List.filter_append, List.map_append]
    split at h
    next hid =>
      obtain ⟨o, ho, rfl⟩ := Option.map_eq_some_iff.1 h
      simp [hm.finalizers id' o ho, hid, x]
    next hid => simp [hm.finalizers id' o h, Ne.symm hid, x]
  alive x hx := by
    refine (Heap.contains_update hu x.object).trans ?_
    rcases List.mem_append.1 hx with hold | hnew
    · exact hm.alive x hold
    · obtain rfl := List.mem_singleton.1 hnew
      exact (Heap.update_eq_ok hu).1
  once := by
    change (l.ran ++ (l.waiting ++ [_])).Perm (l.registered ++ [_])
    rw [← List.append_assoc]
    exact hm.once.append_right _
  ordered := hm.ordered.append (.refl _)
  numbers := by
    change (l.registered ++ [_]).map _ = List.range (l.registered ++ [_]).length
    rw [List.map_append, hm.numbers, List.length_append, List.length_singleton, List.range_succ]
    rfl
  journal := hm.journal
  allocations := (congrArg (e.stats.objectsFreed + ·) (Heap.live_update hu)).trans hm.allocations
  panics := hm.panics

/-! ### A collection -/

theorem map_due_collect (hm : l.Matches e) (r : Retention) :
    (l.due (e.collect r).1).map (fun x => (x.object, x.finalizer)) =
      (e.heap.sweep (e.heap.mark e.roots r)).1.flatMap fun p =>
        p.2.finalizers.map fun f => (p.1, f) :=
  map_due fun id o hmem => hm.finalizers id o (Heap.get?_of_mem_freeAll hmem)

theorem finalizerEvents_collect (hm : l.Matches e) (r : Retention) :
    finalizerEvents (e.heap.sweep (e.heap.mark e.roots r)).1 =
      (l.due (e.collect r).1).flatMap Registration.events := by
  have hruns := congrArg (List.flatMap fun p : ObjectId × HostFinalizer => p.2.events p.1)
    (hm.map_due_collect r)
  rw [List.flatMap_map, List.flatMap_assoc] at hruns
  simp only [List.flatMap_map] at hruns
  exact hruns.symm

theorem finalizerPanics_collect (hm : l.Matches e) (r : Retention) :
    finalizerPanics (e.heap.sweep (e.heap.mark e.roots r)).1 =
      (l.due (e.collect r).1).countP (·.finalizer.panics) := by
  have hruns := congrArg (List.map Prod.snd) (hm.map_due_collect r)
  simp only [List.map_map, List.map_flatMap, Function.comp_def, List.map_id'] at hruns
  rw [finalizerPanics, ← hruns, List.countP_map]
  rfl

/-- **A collection runs what is due**, one finalizer after another, when everything was freed. -/
theorem collect_eq (hm : l.Matches e) (r : Retention) :
    (e.collect r).2 = ((e.freed r).finalizeAll (l.due (e.collect r).1)).account
      (e.heap.mark e.roots r).length (e.collect r).1.length := by
  rw [Engine.finalizeAll_eq, ← hm.finalizerEvents_collect, ← hm.finalizerPanics_collect]
  simp only [Engine.account, Engine.collect, Engine.note, Engine.freed, List.length_map]

theorem collect (hm : l.Matches e) (r : Retention) :
    (l.next (.collected (e.collect r).1)).Matches (e.collect r).2 where
  exact := (hm.exact.freeAll _).1
  finalizers id o h := by
    -- What is left was not swept, so that nothing that waits for it was due.
    have hr : e.Reached r id := (e.isAlive_collect_iff r id).1 (Heap.contains_of_get? h)
    have hleft : id ∉ (e.collect r).1 := fun hid => ((e.mem_collect_iff r id).1 hid).2 hr
    rw [e.get?_collect_of_reached r hr] at h
    change _ = ((l.waiting.filter (·.object ∉ (e.collect r).1)).filter (·.object = id)).map _
    rw [hm.finalizers id o h, List.filter_filter]
    congr 1
    refine List.filter_congr fun x _ => ?_
    by_cases hid : x.object = id <;> simp [hid, hleft]
  alive x hx := by
    obtain ⟨hwaits, hleft⟩ := List.mem_filter.1 hx
    have hleft := of_decide_eq_true hleft
    rw [e.mem_collect_iff r, not_and, not_not] at hleft
    exact (e.isAlive_collect_iff r _).2 (hleft (hm.alive x hwaits))
  once := by
    change (l.ran ++ l.due (e.collect r).1 ++ l.waiting.filter _).Perm l.registered
    rw [List.append_assoc]
    refine (List.Perm.append_left _ ?_).trans hm.once
    exact perm_due (e.heap.pairwise_sweep _) hm.pairwise_waiting
  ordered := List.filter_sublist.trans hm.ordered
  numbers := hm.numbers
  journal := by
    rw [hm.collect_eq, Engine.finalizeAll_eq]
    exact congrArg (· ++ _) hm.journal
  allocations := by
    have hcount := hm.exact.length_sweep (e.heap.mark e.roots r)
    have hallocations := hm.allocations
    change e.stats.objectsFreed + (e.heap.sweep (e.heap.mark e.roots r)).1.length +
      (e.heap.sweep (e.heap.mark e.roots r)).2.live = l.allocations
    rw [Heap.size] at hallocations
    omega
  panics := by
    change e.stats.finalizerPanics + finalizerPanics (e.heap.sweep (e.heap.mark e.roots r)).1 =
      (l.ran ++ l.due (e.collect r).1).countP _
    rw [List.countP_append, hm.panics, ← hm.finalizerPanics_collect]

/-! ### Any call -/

theorem call (hm : l.Matches e) (c : EngineCall) : (l.next (e.answer c)).Matches (e.call c) := by
  have hquiet : ∀ roots : Roots, (l.next (.reported [])).Matches { e with roots } := fun roots =>
    hm.report [] rfl rfl (List.append_nil _).symm
  cases c with
  | allocateWrapper className => exact hm.allocate (.wrapper className)
  | createFunction name captures body => exact hm.allocate (.function name captures body)
  | setProperty id name v =>
    change (l.next (.reported [])).Matches (e.setProperty id name v).2
    rw [Engine.setProperty, Engine.update]
    cases hu : e.heap.update id fun o => { o with properties := o.properties.insert name v } with
    | ok heap => exact hm.update hu fun o => rfl
    | error err => exact hquiet e.roots
  | addFinalizer id f =>
    rw [Engine.call, Engine.answer, Engine.addFinalizer, Engine.update]
    cases hu : e.heap.update id fun o => { o with finalizers := o.finalizers ++ [f] } with
    | ok heap => exact hm.register hu
    | error err => exact hquiet e.roots
  | invoke id args =>
    rw [Engine.call, Engine.answer, Engine.invoke_eq_reply]
    exact hm.report _ rfl rfl rfl
  | openScope => exact hquiet _
  | closeScope =>
    rw [Engine.call, Engine.answer, Engine.closeScope]
    rcases e.roots.closeScope with ⟨closed, roots⟩
    cases closed with
    | true => exact hquiet roots
    | false => exact hm.report _ rfl rfl rfl
  | pin v => exact hquiet _
  | setGlobal name v => exact hquiet _
  | removeGlobal name => exact hquiet _
  | collect r => exact hm.collect r

theorem callAll (hm : l.Matches e) (calls : List EngineCall) :
    ((e.log calls).foldl next l).Matches (e.callAll calls) := by
  induction calls generalizing l e with
  | nil => exact hm
  | cons c rest ih => exact ih (hm.call c)

end Matches

end Ledger

namespace Engine

/-- **Every finalizer runs once**, when its object is collected. After any calls every finalizer that
was registered has run or waits, and not both; those that wait have a living object; and the journal
has what functions reported and what finalizers wrote as they ran, and nothing else. What was freed
and what is left are all objects that were allocated, and the panics are those of finalizers that
have run.

The next collection, whatever it retains, runs the finalizers that wait for an object that it sweeps:
object by object in the order of the slots, those of one object as they were registered, and each
when all swept objects are gone already. A panic of one does not keep the next from running. Then
the statistics have the number of swept objects and the number of living ones, which is also that of
marked ones, as long as the heap has at most 2^32 slots. -/
theorem finalizers_run_once (calls : List EngineCall) :
    let e := ({} : Engine).callAll calls
    let l := Ledger.after (({} : Engine).log calls)
    (l.ran ++ l.waiting).Perm l.registered ∧
    l.registered.map (·.number) = List.range l.registered.length ∧
    (∀ x ∈ l.waiting, e.isAlive x.object) ∧
    e.journal = l.journal ∧
    e.stats.objectsFreed + e.heap.size = l.allocations ∧
    e.stats.finalizerPanics = l.ran.countP (·.finalizer.panics) ∧
    ∀ r : Retention,
      let swept := (e.collect r).1
      let after := (e.collect r).2
      let due := l.due swept
      (∀ id, id ∈ swept ↔ e.isAlive id ∧ ¬ after.isAlive id) ∧
      (swept.Pairwise fun a b => a.index < b.index) ∧
      (∀ x, x ∈ due ↔ x ∈ l.waiting ∧ x.object ∈ swept) ∧
      (due.Pairwise fun x y =>
        x.object.index < y.object.index ∨ x.object = y.object ∧ x.number < y.number) ∧
      (∀ n, ∀ id ∈ swept, ¬ ((e.freed r).finalizeAll (due.take n)).isAlive id) ∧
      after = ((e.freed r).finalizeAll due).account (e.heap.mark e.roots r).length swept.length ∧
      after.journal = e.journal ++ due.flatMap Registration.events ∧
      after.stats.liveObjects = after.heap.size ∧
      after.stats.lastFreed = swept.length ∧
      (e.heap.Addressable → after.stats.lastMarked = after.heap.size) := by
  intro e l
  have hm : l.Matches e := Ledger.matches_empty.callAll calls
  refine ⟨hm.once, hm.numbers, hm.alive, hm.journal, hm.allocations, hm.panics, fun r => ?_⟩
  intro swept after due
  have hswept : ∀ id, id ∈ swept ↔ e.isAlive id ∧ ¬ after.isAlive id := fun id => by
    rw [e.mem_collect_iff r, ← e.isAlive_collect_iff r]
  have hslots : swept.Pairwise fun a b => a.index < b.index := e.heap.pairwise_sweep _
  have hafter : after = ((e.freed r).finalizeAll due).account (e.heap.mark e.roots r).length
    swept.length := hm.collect_eq r
  refine ⟨hswept, hslots, fun x => Ledger.mem_due_iff,
    Ledger.pairwise_due hslots hm.pairwise_waiting, fun n id hid => ?_, hafter, ?_, rfl,
    (List.length_map ..).symm, fun ha => ?_⟩
  · rw [isAlive_finalizeAll]
    exact ((hswept id).1 hid).2
  · rw [hafter, finalizeAll_eq]
    rfl
  · exact hm.exact.length_mark e.roots r ha

/-- One finalizer panics before the other of the same object, and the slot is used again. -/
def panicking : List EngineCall :=
  [.allocateWrapper "Leaf", .allocateWrapper "Tree", .setGlobal "kept" (.wrapper ⟨1, 0⟩),
    .addFinalizer ⟨0, 0⟩ ⟨"first", true⟩, .addFinalizer ⟨1, 0⟩ ⟨"second", false⟩,
    .addFinalizer ⟨0, 0⟩ ⟨"third", false⟩, .collect {}, .allocateWrapper "Bark",
    .addFinalizer ⟨0, 0⟩ ⟨"late", false⟩, .addFinalizer ⟨0, 1⟩ ⟨"fourth", true⟩,
    .addFinalizer ⟨0, 1⟩ ⟨"fifth", false⟩]

/-- The first collection runs the two finalizers of its object as they were registered, the panic of
the one between them; the second collection those of the object that has the slot now. What waits
for an object that lives, or was registered for one that is gone, is in neither. -/
theorem finalizers_run_once_panicking :
    let e := ({} : Engine).callAll panicking
    let after := (e.collect {}).2
    e.heap.Addressable ∧ (e.collect {}).1 = [⟨0, 1⟩] ∧ after.stats.lastMarked = 1 ∧
      after.stats.finalizerPanics = 2 ∧
      e.journal = [.collected "first", .warned (.hostFinalizerPanicked ⟨0, 0⟩),
        .collected "third"] ∧
      after.journal = e.journal ++ [.collected "fourth", .warned (.hostFinalizerPanicked ⟨0, 1⟩),
        .collected "fifth"] := by
  have hswept : ((({} : Engine).callAll panicking).collect {}).1 = [⟨0, 1⟩] := rfl
  have hsize : ((({} : Engine).callAll panicking).collect {}).2.heap.size = 1 := rfl
  have hpanics : ((({} : Engine).callAll panicking).collect {}).2.stats.finalizerPanics = 2 := rfl
  have ha : (({} : Engine).callAll panicking).heap.Addressable := by
    show 2 ≤ UInt32.size
    decide
  obtain ⟨-, -, -, hjournal, -, -, hcollect⟩ := finalizers_run_once panicking
  obtain ⟨-, -, -, -, -, -, hafter, -, -, hmarked⟩ := hcollect {}
  exact ⟨ha, hswept, (hmarked ha).trans hsize, hpanics, hjournal, hafter⟩

end Engine
end ScriptBridge
