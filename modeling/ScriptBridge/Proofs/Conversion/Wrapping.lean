import ScriptBridge.Conversion.ToScript
import ScriptBridge.Proofs.Host.Naming

/-! # What a conversion to script does to the bridge

A conversion wraps the handles in the value, in order, and does nothing else to the bridge. If it
fails, it has wrapped the first of them.

* `Native.Value.handles` are the handles in a value, `Native.Value.passed` the heap objects it
  names by itself.
* `Action.Wraps` says it of any step of a conversion; steps are put together by `Action.Wraps.bind`.
* `toScript_wraps` is the conversion as a whole. What its outcome names are the wrappers and what
  was passed through.
-/

namespace ScriptBridge
set_option autoImplicit false

namespace Native.Value

mutual

/-- The values in a value that hold no others, left to right. Keys of maps do not count. -/
def leaves : Value → List Value
  | tuple items => leavesOfItems items
  | list items => leavesOfItems items
  | set items => leavesOfItems items
  | map entries => leavesOfEntries entries
  | variant _ value => value.leaves
  | v => [v]

def leavesOfItems : List Value → List Value
  | [] => []
  | v :: rest => v.leaves ++ leavesOfItems rest

def leavesOfEntries : List (Value × Value) → List Value
  | [] => []
  | (_, v) :: rest => v.leaves ++ leavesOfEntries rest

end

def handle? : Value → Option InstanceHandle
  | object o => some o
  | _ => none

/-- The heap objects that a value without parts names. -/
def named : Value → List ObjectId
  | function id => [id]
  | weakFunction h => [h.id]
  | script v => v.objects
  | _ => []

/-- The handles in a value, repetitions kept. -/
def handles (v : Value) : List InstanceHandle := v.leaves.filterMap handle?

/-- The heap objects that a conversion to script passes through. -/
def passed (v : Value) : List ObjectId := v.leaves.flatMap named

end Native.Value

/-- Several instances wrapped one after another, with their wrappers. -/
def Bridge.wrapAll (b : Bridge) : List InstanceHandle → List ObjectId × Bridge
  | [] => ([], b)
  | o :: rest =>
    let (id, b) := b.wrap o
    let (ids, b) := b.wrapAll rest
    (id :: ids, b)

/-- What every wrapping keeps, any number of them keep. -/
theorem Bridge.wrapAll_induction {P : Bridge → Prop} (hwrap : ∀ c o, P c → P (c.wrap o).2)
    (os : List InstanceHandle) {b : Bridge} (hb : P b) : P (b.wrapAll os).2 := by
  induction os generalizing b with
  | nil => exact hb
  | cons o rest ih => exact ih (hwrap b o hb)

theorem Bridge.wrapAll_append (b : Bridge) (os os' : List InstanceHandle) :
    b.wrapAll (os ++ os') =
      ((b.wrapAll os).1 ++ ((b.wrapAll os).2.wrapAll os').1, ((b.wrapAll os).2.wrapAll os').2) := by
  induction os generalizing b with
  | nil => rfl
  | cons o rest ih => simp only [List.cons_append, wrapAll, ih]

/-! ## Steps of a conversion -/

namespace Action

variable {α β : Type} {os os' : List InstanceHandle}

theorem run_bind (x : Action α) (f : α → Action β) (b : Bridge) :
    (x >>= f).run b = match x.run b with
      | (.ok a, b) => (f a).run b
      | (.error err, b) => (.error err, b) := by
  change (match ExceptT.run x b with | (r, b') => ExceptT.bindCont f r b') = _
  unfold Action.run
  rcases ExceptT.run x b with ⟨_ | _, b'⟩ <;> rfl

theorem run_within (depth : Nat) (x : Action α) (b : Bridge) :
    (Action.within depth x).run b =
      if b.options.maxDepth < depth then
        (.error (.depth resultIndex b.options.maxDepth), b)
      else x.run b := by
  change (if b.options.maxDepth < depth then
    (MonadExcept.throw (.depth resultIndex b.options.maxDepth) : Action α) else x).run b = _
  split <;> rfl

/-- The action wraps the first of the handles, in order, and leaves the bridge alone otherwise. If
it succeeds, it has wrapped them all, and `Q` holds of the wrappers and of its outcome. -/
def Wraps (x : Action α) (os : List InstanceHandle) (Q : List ObjectId → α → Prop) : Prop :=
  ∀ b : Bridge, ∃ done rest, os = done ++ rest ∧ (x.run b).2 = (b.wrapAll done).2 ∧
    ∀ a, (x.run b).1 = .ok a → rest = [] ∧ Q (b.wrapAll done).1 a

variable {Q : List ObjectId → α → Prop} {R : List ObjectId → β → Prop}

theorem Wraps.pure {a : α} (h : Q [] a) : Wraps (Pure.pure a) [] Q := by
  intro b
  refine ⟨[], [], rfl, rfl, fun a' ha => ⟨rfl, ?_⟩⟩
  obtain rfl := Except.ok.inj ha
  exact h

theorem Wraps.throw (err : BridgeError) : Wraps (throw err : Action α) os Q := by
  intro b
  exact ⟨[], os, rfl, rfl, fun a ha => by cases ha⟩

theorem Wraps.bind {x : Action α} {f : α → Action β} (hx : Wraps x os Q)
    (hf : ∀ a ids, Q ids a → Wraps (f a) os' fun ids' c => R (ids ++ ids') c) :
    Wraps (x >>= f) (os ++ os') R := by
  intro b
  obtain ⟨done, rest, hos, hstate, hresult⟩ := hx b
  rw [run_bind]
  rcases hrun : x.run b with ⟨_ | a, after⟩ <;> rw [hrun] at hstate hresult
  · exact ⟨done, rest ++ os', by rw [hos, List.append_assoc], hstate, fun a ha => by cases ha⟩
  · obtain ⟨rfl, hq⟩ := hresult a rfl
    obtain ⟨done', rest', hos', hstate', hresult'⟩ := hf a _ hq after
    refine ⟨done ++ done', rest', by rw [hos, hos', List.append_nil, List.append_assoc], ?_, ?_⟩
    · rw [hstate', b.wrapAll_append, ← hstate]
    · intro c hc
      rw [b.wrapAll_append, ← hstate]
      exact hresult' c hc

theorem Wraps.map {x : Action α} {g : α → β} (hx : Wraps x os Q)
    (hg : ∀ a ids, Q ids a → R ids (g a)) : Wraps (x >>= fun a => Pure.pure (g a)) os R := by
  rw [← List.append_nil os]
  exact hx.bind fun a ids hq => .pure (by rw [List.append_nil]; exact hg a ids hq)

theorem Wraps.mono {Q' : List ObjectId → α → Prop} {x : Action α} (hx : Wraps x os Q)
    (hq : ∀ a ids, Q ids a → Q' ids a) : Wraps x os Q' := by
  intro b
  obtain ⟨done, rest, hos, hstate, hresult⟩ := hx b
  exact ⟨done, rest, hos, hstate, fun a ha => (hresult a ha).imp_right (hq a _)⟩

/-- Reading the bridge wraps nothing. -/
theorem Wraps.get {f : Bridge → Action α} (hf : ∀ c, Wraps (f c) os Q) :
    Wraps (MonadState.get >>= f) os Q :=
  fun b => hf b b

theorem Wraps.within {x : Action α} (hx : Wraps x os Q) (depth : Nat) :
    Wraps (Action.within depth x) os Q := by
  refine .get fun c => ?_
  dsimp only
  split
  · exact .throw _
  · exact hx

theorem Wraps.wrap (o : InstanceHandle) :
    Wraps (Action.step (·.wrap o)) [o] fun ids id => ids = [id] := by
  intro b
  refine ⟨[o], [], rfl, rfl, fun a ha => ⟨rfl, ?_⟩⟩
  obtain rfl := Except.ok.inj ha
  rfl

end Action

/-! ## Conversions -/

namespace Native.Value

open ScriptBridge.Action (Wraps)

theorem objects_addDistinct (vs : List Script.Value) (v : Script.Value) {id : ObjectId}
    (h : id ∈ (addDistinct vs v).flatMap Script.Value.objects) :
    id ∈ vs.flatMap Script.Value.objects ∨ id ∈ v.objects := by
  unfold addDistinct at h
  split at h
  · exact .inl h
  · simpa using h

theorem objects_setEntry (key : Utf16) (v : Script.Value) {id : ObjectId}
    (entries : List (Utf16 × Script.Value))
    (h : id ∈ (setEntry key v entries).flatMap fun e => e.2.objects) :
    id ∈ (entries.flatMap fun e => e.2.objects) ∨ id ∈ v.objects := by
  induction entries with
  | nil => exact .inr (by simpa [setEntry] using h)
  | cons e rest ih =>
    unfold setEntry at h
    split at h <;> simp only [List.flatMap_cons, List.mem_append] at h ⊢ <;> grind

/-- Every object of the list is one of the wrappers or passed through by one of the values. -/
def Accounted (vs : List Value) (ids l : List ObjectId) : Prop :=
  ∀ id ∈ l, id ∈ ids ∨ id ∈ vs.flatMap named

mutual

theorem wraps_toScriptAt (depth : Nat) : ∀ v : Value,
    Wraps (v.toScriptAt depth) v.handles fun ids s => Accounted v.leaves ids s.objects
  | .undefined | .null | .bool _ | .integer _ | .number _ | .string _ | .u16string _
  | .symbol _ =>
    .within (.pure (by simp [Accounted, Script.Value.text, Script.Value.objects])) depth
  | .function id =>
    .within (.pure (by simp [Accounted, leaves, named, Script.Value.objects])) depth
  | .script v => .within (.pure (by simp [Accounted, leaves, named])) depth
  | .weakFunction ⟨kind, id⟩ => by
    refine .within (.get fun c => .pure ?_) depth
    unfold Bridge.resolve
    split
    · cases kind <;> simp [Accounted, leaves, named, Script.Value.objects, WeakHandle.toValue,
        Script.Value.ofObject]
    · simp [Accounted, Script.Value.objects]
  | .object o => .within (.map (.wrap o) (by simp [Accounted, Script.Value.objects])) depth
  | .variant _ value => .within (wraps_toScriptAt depth value) depth
  | .tuple items | .list items => by
    refine .within (.map (wraps_itemsToScript (depth + 1) items) fun vs ids h => ?_) depth
    rw [Script.Value.objects, Script.Value.objectsOfItems_eq]
    exact h
  | .set items => by
    refine .within (.map (wraps_elementsToScript (depth + 1) [] items) fun vs ids h => ?_) depth
    rw [Script.Value.objects, Script.Value.objectsOfItems_eq]
    exact fun id hid => (h id hid).resolve_left (by simp)
  | .map entries => by
    refine .within (.map (wraps_entriesToScript (depth + 1) [] entries) fun es ids h => ?_) depth
    rw [Script.Value.objects, Script.Value.objectsOfEntries_eq]
    exact fun id hid => (h id hid).resolve_left (by simp)

theorem wraps_itemsToScript (depth : Nat) : ∀ items : List Value,
    Wraps (itemsToScript depth items) ((leavesOfItems items).filterMap handle?) fun ids vs =>
      Accounted (leavesOfItems items) ids (vs.flatMap Script.Value.objects)
  | [] => .pure (by simp [Accounted])
  | item :: rest => by
    rw [leavesOfItems, List.filterMap_append]
    refine .bind (wraps_toScriptAt depth item) fun s ids hs =>
      .map (wraps_itemsToScript depth rest) fun vs ids' hvs id hid => ?_
    have := hs id
    have := hvs id
    grind

/-- What was converted before may be named as well. -/
theorem wraps_elementsToScript (depth : Nat) (converted : List Script.Value) :
    ∀ items : List Value, Wraps (elementsToScript depth converted items)
      ((leavesOfItems items).filterMap handle?) fun ids vs =>
        ∀ id ∈ vs.flatMap Script.Value.objects, id ∈ converted.flatMap Script.Value.objects ∨
          id ∈ ids ∨ id ∈ (leavesOfItems items).flatMap named
  | [] => .pure fun id hid => .inl hid
  | item :: rest => by
    rw [leavesOfItems, List.filterMap_append]
    refine .bind (wraps_toScriptAt depth item) fun s ids hs =>
      .mono (wraps_elementsToScript depth (addDistinct converted s) rest)
        fun vs ids' hvs id hid => ?_
    have := hs id
    have := hvs id hid
    have := @objects_addDistinct converted s id
    grind

theorem wraps_entriesToScript (depth : Nat) (converted : List (Utf16 × Script.Value)) :
    ∀ entries : List (Value × Value), Wraps (entriesToScript depth converted entries)
      ((leavesOfEntries entries).filterMap handle?) fun ids es =>
        ∀ id ∈ es.flatMap fun e => e.2.objects, id ∈ (converted.flatMap fun e => e.2.objects) ∨
          id ∈ ids ∨ id ∈ (leavesOfEntries entries).flatMap named
  | [] => .pure fun id hid => .inl hid
  | (key, value) :: rest => by
    rw [leavesOfEntries, List.filterMap_append, entriesToScript]
    cases key.propertyName? with
    | none => exact .throw _
    | some name =>
      refine .bind (wraps_toScriptAt depth value) fun s ids hs =>
        .mono (wraps_entriesToScript depth (setEntry name s converted) rest)
          fun vs ids' hvs id hid => ?_
      have := hs id
      have := hvs id hid
      have := @objects_setEntry name s id converted
      grind

end

/-- **A conversion to script wraps.** It wraps the handles in the value, in order, up to where it
fails, and its outcome names wrappers and what was passed through. -/
theorem toScript_wraps (b : Bridge) (v : Value) : ∃ done rest, v.handles = done ++ rest ∧
    (b.toScript v).2 = (b.wrapAll done).2 ∧ ∀ s, (b.toScript v).1 = .ok s → rest = [] ∧
      ∀ id, s.Names id → id ∈ (b.wrapAll done).1 ∨ id ∈ v.passed := by
  obtain ⟨done, rest, hos, hstate, hresult⟩ := wraps_toScriptAt 0 v b
  refine ⟨done, rest, hos, hstate, fun s hs => ?_⟩
  obtain ⟨hrest, hnames⟩ := hresult s hs
  exact ⟨hrest, fun id hid => hnames id hid.mem_objects⟩

end Native.Value
end ScriptBridge
