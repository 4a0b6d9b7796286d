import ScriptBridge.Bridge.Loading
import ScriptBridge.Proofs.Bridge.Releasing
import ScriptBridge.Proofs.Conversion.Wrapping

/-! # How far a conversion to script comes

A conversion stops at a value that is nested too deep and at a key without a name. Where that is can
be told from the value and the limit alone, and so can what it has wrapped by then.

* `Native.Value.trail` are the handles that a conversion wraps, and whether it comes to its end. They
  are the first of the handles in the value, and all of them at its end: `Native.Value.along_trail`.
* `Native.Value.toScript_follows` says so of conversions, and `Bridge.convertExports_follows` of the
  values of a module.
-/

namespace ScriptBridge
set_option autoImplicit false

/-- The handles that a conversion wraps, in order, and whether it comes to its end. -/
structure Trail where
  handles : List InstanceHandle := []
  complete : Bool := true
deriving DecidableEq, Repr

namespace Trail

def stopped : Trail := ⟨[], false⟩

/-- A conversion, and another one after it if it comes to its end. -/
def andThen (x y : Trail) : Trail :=
  if x.complete then ⟨x.handles ++ y.handles, y.complete⟩ else x

def within (limit depth : Nat) (x : Trail) : Trail := if limit < depth then stopped else x

end Trail

namespace Native.Value

mutual

/-- The trail of a value found at a depth. -/
def trailAt (limit depth : Nat) : Value → Trail
  | variant _ value => .within limit depth (value.trailAt limit depth)
  | tuple items => .within limit depth (trailOfItems limit (depth + 1) items)
  | list items => .within limit depth (trailOfItems limit (depth + 1) items)
  | set items => .within limit depth (trailOfItems limit (depth + 1) items)
  | map entries => .within limit depth (trailOfEntries limit (depth + 1) entries)
  | object o => .within limit depth ⟨[o], true⟩
  | _ => .within limit depth {}

def trailOfItems (limit depth : Nat) : List Value → Trail
  | [] => {}
  | item :: rest => (item.trailAt limit depth).andThen (trailOfItems limit depth rest)

def trailOfEntries (limit depth : Nat) : List (Value × Value) → Trail
  | [] => {}
  | (key, value) :: rest =>
    match key.propertyName? with
    | none => .stopped
    | some _ => (value.trailAt limit depth).andThen (trailOfEntries limit depth rest)

end

def trail (limit : Nat) (v : Value) : Trail := v.trailAt limit 0

end Native.Value

/-! ## Trails and handles -/

namespace Trail

variable {limit : Nat} {x y : Trail} {os os' : List InstanceHandle}

/-- The trail goes along the list of handles, and to its end if it is complete. -/
structure Along (t : Trail) (os : List InstanceHandle) : Prop where
  isPrefix : t.handles <+: os
  eq_of_complete : t.complete → t.handles = os

theorem Along.refl (os : List InstanceHandle) : (Trail.mk os true).Along os :=
  ⟨List.prefix_refl os, fun _ => rfl⟩

theorem Along.stopped (os : List InstanceHandle) : Trail.stopped.Along os := by
  refine ⟨?_, nofun⟩
  exact List.nil_prefix

theorem Along.andThen (hx : x.Along os) (hy : y.Along os') : (x.andThen y).Along (os ++ os') := by
  unfold Trail.andThen
  split
  next hcomplete =>
    rw [hx.eq_of_complete hcomplete]
    refine ⟨(List.prefix_append_right_inj os).2 hy.isPrefix, fun hcomplete' => ?_⟩
    exact congrArg (os ++ ·) (hy.eq_of_complete hcomplete')
  next hstopped =>
    exact ⟨hx.isPrefix.trans (List.prefix_append os os'), fun h => absurd h hstopped⟩

theorem Along.within (h : x.Along os) (limit depth : Nat) : (Trail.within limit depth x).Along os := by
  unfold Trail.within
  split
  · exact .stopped os
  · exact h

end Trail

namespace Native.Value

mutual

theorem along_trailAt (limit depth : Nat) : ∀ v : Value, (v.trailAt limit depth).Along v.handles
  | .variant _ value => (along_trailAt limit depth value).within limit depth
  | .tuple items | .list items | .set items =>
    (along_trailOfItems limit (depth + 1) items).within limit depth
  | .map entries => (along_trailOfEntries limit (depth + 1) entries).within limit depth
  | .object _ | .undefined | .null | .bool _ | .integer _ | .number _ | .string _ | .u16string _
  | .symbol _ | .function _ | .weakFunction _ | .script _ =>
    (Trail.Along.refl _).within limit depth

theorem along_trailOfItems (limit depth : Nat) : ∀ items : List Value,
    (trailOfItems limit depth items).Along ((leavesOfItems items).filterMap handle?)
  | [] => .refl []
  | item :: rest => by
    rw [leavesOfItems, List.filterMap_append]
    exact (along_trailAt limit depth item).andThen (along_trailOfItems limit depth rest)

theorem along_trailOfEntries (limit depth : Nat) : ∀ entries : List (Value × Value),
    (trailOfEntries limit depth entries).Along ((leavesOfEntries entries).filterMap handle?)
  | [] => .refl []
  | (key, value) :: rest => by
    rw [leavesOfEntries, List.filterMap_append, trailOfEntries]
    split
    · exact .stopped _
    · exact (along_trailAt limit depth value).andThen (along_trailOfEntries limit depth rest)

end

theorem along_trail (limit : Nat) (v : Value) : (v.trail limit).Along v.handles :=
  along_trailAt limit 0 v

end Native.Value

/-! ## Steps of a conversion -/

namespace Bridge

theorem options_release (b : Bridge) (inFlight : List InstanceId) (id : ObjectId) :
    (b.release inFlight id).2.options = b.options := by
  obtain ⟨instances, journal, heq⟩ := b.release_eq inFlight id
  rw [heq]
  rfl

theorem options_wrap (b : Bridge) (o : InstanceHandle) : (b.wrap o).2.options = b.options :=
  wrap_induction (P := fun c => c.options = b.options) o
    (fun c w _ hc => (c.options_release [o.identity] w).trans hc) (fun _ hc => hc) rfl

theorem options_wrapAll (b : Bridge) (os : List InstanceHandle) :
    (b.wrapAll os).2.options = b.options :=
  wrapAll_induction (P := fun c => c.options = b.options) (fun c o hc => (c.options_wrap o).trans hc)
    os rfl

end Bridge

namespace Action

variable {α β : Type} {x : Action α}

/-- The action wraps the handles of a trail, which depends on the limit only, and does nothing else;
it succeeds if the trail comes to its end. -/
def Follows (x : Action α) (t : Nat → Trail) : Prop :=
  ∀ b : Bridge, (x.run b).2 = (b.wrapAll (t b.options.maxDepth).handles).2 ∧
    (x.run b).1.isOk = (t b.options.maxDepth).complete

variable {t t' : Nat → Trail}

theorem Follows.pure (a : α) : Follows (Pure.pure a) fun _ => {} := fun _ => ⟨rfl, rfl⟩

theorem Follows.throw (err : BridgeError) : Follows (throw err : Action α) fun _ => .stopped :=
  fun _ => ⟨rfl, rfl⟩

theorem Follows.bind {f : α → Action β} (hx : Follows x t) (hf : ∀ a, Follows (f a) t') :
    Follows (x >>= f) fun limit => (t limit).andThen (t' limit) := by
  intro b
  obtain ⟨hstate, hok⟩ := hx b
  dsimp only
  rw [run_bind]
  rcases hrun : x.run b with ⟨err | a, after⟩ <;> rw [hrun] at hstate hok
  · have hstop : (t b.options.maxDepth).complete = false := hok.symm
    rw [Trail.andThen, hstop]
    exact ⟨hstate, hok⟩
  · have hend : (t b.options.maxDepth).complete = true := hok.symm
    obtain ⟨hstate', hok'⟩ := hf a after
    have hlimit : after.options = b.options := by
      change after = _ at hstate
      rw [hstate, b.options_wrapAll]
    rw [hlimit] at hstate' hok'
    rw [Trail.andThen, if_pos hend, b.wrapAll_append, ← hstate]
    exact ⟨hstate', hok'⟩

theorem Follows.map {g : α → β} (hx : Follows x t) :
    Follows (x >>= fun a => Pure.pure (g a)) t := by
  intro b
  obtain ⟨hstate, hok⟩ := hx b
  rw [run_bind]
  rcases hrun : x.run b with ⟨err | a, after⟩ <;> rw [hrun] at hstate hok
  · exact ⟨hstate, hok⟩
  · exact ⟨hstate, hok⟩

theorem Follows.within (hx : Follows x t) (depth : Nat) :
    Follows (Action.within depth x) fun limit => .within limit depth (t limit) := by
  intro b
  have hrun : (Action.within depth x).run b =
      (if b.options.maxDepth < depth then
        (MonadExcept.throw (.depth resultIndex b.options.maxDepth) : Action α) else x).run b := rfl
  rw [hrun]
  dsimp only [Trail.within]
  split
  · exact Follows.throw _ b
  · exact hx b

theorem Follows.wrap (o : InstanceHandle) :
    Follows (Action.step (·.wrap o)) fun _ => ⟨[o], true⟩ := fun _ => ⟨rfl, rfl⟩

end Action

/-! ## Conversions -/

namespace Native.Value

open ScriptBridge.Action (Follows)

mutual

theorem follows_toScriptAt (depth : Nat) :
    ∀ v : Value, Follows (v.toScriptAt depth) fun limit => v.trailAt limit depth
  | .undefined | .null | .bool _ | .integer _ | .number _ | .string _ | .u16string _
  | .symbol _ | .function _ | .script _ => .within (.pure _) depth
  | .weakFunction _ => .within (fun _ => ⟨rfl, rfl⟩) depth
  | .object o => .within (.map (.wrap o)) depth
  | .variant _ value => .within (follows_toScriptAt depth value) depth
  | .tuple items | .list items => .within (.map (follows_itemsToScript (depth + 1) items)) depth
  | .set items => .within (.map (follows_elementsToScript (depth + 1) [] items)) depth
  | .map entries => .within (.map (follows_entriesToScript (depth + 1) [] entries)) depth

theorem follows_itemsToScript (depth : Nat) : ∀ items : List Value,
    Follows (itemsToScript depth items) fun limit => trailOfItems limit depth items
  | [] => .pure _
  | item :: rest =>
    .bind (follows_toScriptAt depth item) fun _ => .map (follows_itemsToScript depth rest)

theorem follows_elementsToScript (depth : Nat) (converted : List Script.Value) :
    ∀ items : List Value, Follows (elementsToScript depth converted items)
      fun limit => trailOfItems limit depth items
  | [] => .pure _
  | item :: rest =>
    .bind (follows_toScriptAt depth item) fun s =>
      follows_elementsToScript depth (addDistinct converted s) rest

theorem follows_entriesToScript (depth : Nat) (converted : List (Utf16 × Script.Value)) :
    ∀ entries : List (Value × Value), Follows (entriesToScript depth converted entries)
      fun limit => trailOfEntries limit depth entries
  | [] => .pure _
  | (key, value) :: rest => by
    simp only [entriesToScript, trailOfEntries]
    cases key.propertyName? with
    | none => exact .throw _
    | some name =>
      exact .bind (follows_toScriptAt depth value) fun s =>
        follows_entriesToScript depth (setEntry name s converted) rest

end

/-- **A conversion follows the trail of its value.** -/
theorem toScript_follows (v : Value) : Follows v.toScript v.trail := follows_toScriptAt 0 v

end Native.Value

/-! ## Modules -/

/-- The trail of the values of a module. -/
def Module.trailOf (limit : Nat) : List (String × Native.Value) → Trail
  | [] => {}
  | (_, v) :: rest => (v.trail limit).andThen (trailOf limit rest)

namespace Bridge

open ScriptBridge.Action (Follows)

theorem convertExports_follows (values : List (String × Native.Value)) :
    Follows (convertExports values) (Module.trailOf · values) := by
  induction values with
  | nil => exact .pure _
  | cons e rest ih => exact .bind (Native.Value.toScript_follows e.2) fun _ => .map ih

end Bridge
end ScriptBridge
