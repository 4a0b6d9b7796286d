import ScriptBridge.Proofs.Conversion.Trails
import ScriptBridge.Proofs.Conversion.Failures

/-! # The limit on the depth

A limit does nothing but cut off. A conversion that comes to its end under a limit, or fails for any
other reason than the depth, does the very same under a higher one; in particular no alternative of
a variant is passed over because of the limit.

* `Agree` compares two computations of which only the first may stop because of the depth.
* `Bridge.agree_fromScriptAt` goes through the types once, `Native.Value.persists_toScriptAt` through
  the native values.
* `Bridge.conversion_under_higher_limit` is the result, for both directions.
-/

namespace ScriptBridge
set_option autoImplicit false

/-! ## Stopped because of the depth -/

section
variable {α β : Type} {x y : Except BridgeError α}

def TooDeep (x : Except BridgeError α) : Prop := ∃ index limit, x = .error (.depth index limit)

/-- The second computation does what the first one does, unless that one stops because of the depth.
-/
def Agree (x y : Except BridgeError α) : Prop := TooDeep x ∨ y = x

theorem TooDeep.bind (h : TooDeep x) (f : α → Except BridgeError β) : TooDeep (x >>= f) := by
  obtain ⟨index, limit, rfl⟩ := h
  exact ⟨index, limit, rfl⟩

theorem Agree.refl (x : Except BridgeError α) : Agree x x := .inr rfl

theorem Agree.bind {f g : α → Except BridgeError β} (h : Agree x y) (hfg : ∀ a, Agree (f a) (g a)) :
    Agree (x >>= f) (y >>= g) := by
  rcases h with hdeep | rfl
  · exact .inl (hdeep.bind f)
  · cases y with
    | error err => exact .refl _
    | ok a => exact hfg a

theorem Agree.mapM {f g : β → Except BridgeError α} {as : List β}
    (h : ∀ a ∈ as, Agree (f a) (g a)) : Agree (as.mapM f) (as.mapM g) := by
  induction as with
  | nil => exact .refl _
  | cons a rest ih =>
    obtain ⟨ha, hrest⟩ := List.forall_mem_cons.1 h
    rw [List.mapM_cons, List.mapM_cons]
    exact ha.bind fun b => (ih hrest).bind fun bs => .refl _

end

/-- The same bridge with another limit. -/
def Bridge.limitedTo (b : Bridge) (limit : Nat) : Bridge :=
  { b with options := { b.options with maxDepth := limit } }

/-! ## From script -/

namespace Bridge

section
variable {b : Bridge} {limit index depth : Nat} {v : Script.Value}
  {f g : Script.Value → Except BridgeError Native.Value}

theorem agree_within {x y : Except BridgeError Native.Value} (hle : b.options.maxDepth ≤ limit)
    (h : Agree x y) : Agree (b.within index depth x) ((b.limitedTo limit).within index depth y) := by
  unfold within
  by_cases hdepth : b.options.maxDepth < depth
  · rw [if_pos hdepth]
    exact .inl ⟨index, b.options.maxDepth, rfl⟩
  · have hdepth' : ¬ (b.limitedTo limit).options.maxDepth < depth :=
      Nat.not_lt.2 (Nat.le_trans (Nat.not_lt.1 hdepth) hle)
    rw [if_neg hdepth, if_neg hdepth']
    exact h

theorem agree_distinctItems (h : ∀ v, Agree (f v) (g v)) (seen items : List Script.Value) :
    Agree (Conversion.distinctItems f seen items) (Conversion.distinctItems g seen items) := by
  induction items generalizing seen with
  | nil => exact .refl _
  | cons item rest ih =>
    unfold Conversion.distinctItems
    split
    · exact ih seen
    · exact (h item).bind fun n => (ih _).bind fun ns => .refl _

theorem agree_entries (h : ∀ v, Agree (f v) (g v)) (key : DeclaredType)
    (es : List (Utf16 × Script.Value)) :
    Agree (Conversion.entries f index key es) (Conversion.entries g index key es) := by
  induction es with
  | nil => exact .refl _
  | cons e rest ih =>
    unfold Conversion.entries
    split
    · exact .refl _
    · exact (h e.2).bind fun n => ih.bind fun ps => .refl _

theorem agree_componentsFromScript {types : List DeclaredType}
    (h : ∀ t ∈ types, ∀ v, Agree (b.fromScriptAt index t depth v)
      ((b.limitedTo limit).fromScriptAt index t depth v)) (items : List Script.Value) :
    Agree (b.componentsFromScript index types depth items)
      ((b.limitedTo limit).componentsFromScript index types depth items) := by
  induction types generalizing items with
  | nil => exact .refl _
  | cons t types ih =>
    cases items with
    | nil => exact .refl _
    | cons item items =>
      obtain ⟨ht, htypes⟩ := List.forall_mem_cons.1 h
      exact (ht item).bind fun n => (ih htypes items).bind fun ns => .refl _

/-- An alternative that stops because of the depth stops the variant, so that no later one is tried
in its place. -/
theorem agree_alternativeFromScript {types : List DeclaredType}
    (h : ∀ t ∈ types, Agree (b.fromScriptAt index t depth v)
      ((b.limitedTo limit).fromScriptAt index t depth v)) (number : Nat) (fail : BridgeError) :
    Agree (b.alternativeFromScript index types number fail depth v)
      ((b.limitedTo limit).alternativeFromScript index types number fail depth v) := by
  induction types generalizing number with
  | nil => exact .refl _
  | cons t types ih =>
    obtain ⟨ht, htypes⟩ := List.forall_mem_cons.1 h
    unfold alternativeFromScript
    rcases ht with ⟨i, l, hdeep⟩ | heq
    · rw [hdeep]
      exact .inl ⟨i, l, rfl⟩
    · rw [heq]
      split
      · exact .refl _
      · exact .refl _
      · exact ih htypes _

/-- **A higher limit changes a conversion from script only where it was cut off**, by induction on
the type. -/
theorem agree_fromScriptAt (hle : b.options.maxDepth ≤ limit) (index : Nat) (t : DeclaredType)
    (depth : Nat) (v : Script.Value) : Agree (b.fromScriptAt index t depth v)
      ((b.limitedTo limit).fromScriptAt index t depth v) := by
  induction t using DeclaredType.inductionOn generalizing depth v with
  | tuple types ih =>
    refine agree_within hle ?_
    split
    next items =>
      split
      · refine .bind (agree_componentsFromScript (fun t ht v => ?_) items) fun ns => .refl _
        exact ih t ht (depth + 1) v
      · exact .refl _
    · exact .refl _
  | variant alternatives ih =>
    exact agree_within hle (agree_alternativeFromScript (fun t ht => ih t ht (depth + 1) v) _ _)
  | list element ih =>
    refine agree_within hle ?_
    split
    · exact .bind (.mapM fun item _ => ih (depth + 1) item) fun ns => .refl _
    · exact .refl _
  | set element ih =>
    refine agree_within hle ?_
    split
    · exact .bind (agree_distinctItems (ih (depth + 1)) _ _) fun ns => .refl _
    · exact .refl _
  | map key value ih =>
    refine agree_within hle ?_
    split
    · exact .bind (agree_entries (ih (depth + 1)) key _) fun ps => .refl _
    · exact .refl _
  | optional inner ih =>
    refine agree_within hle ?_
    split
    · exact .refl _
    · exact .refl _
    · exact ih depth _
  | _ => exact agree_within hle (.refl _)

end

/-! ## Wrapping under another limit

A wrapper that died is released first. That runs native code, and none of it looks at the limit.
-/

section
variable (b : Bridge) (limit : Nat)

@[simp] theorem classes_limitedTo : (b.limitedTo limit).classes = b.classes := rfl

@[simp] theorem instances_limitedTo : (b.limitedTo limit).instances = b.instances := rfl

@[simp] theorem registry_limitedTo : (b.limitedTo limit).registry = b.registry := rfl

@[simp] theorem isAlive_limitedTo (id : ObjectId) :
    (b.limitedTo limit).isAlive id = b.isAlive id := rfl

@[simp] theorem kindNames_limitedTo :
    (b.limitedTo limit).options.kindNames = b.options.kindNames := rfl

@[simp] theorem pass_limitedTo (ms : List Milestone) :
    (b.limitedTo limit).pass ms = (b.pass ms).limitedTo limit := rfl

@[simp] theorem note_limitedTo (events : List Event) :
    (b.limitedTo limit).note events = (b.note events).limitedTo limit := rfl

@[simp] theorem dropPanics_limitedTo (later : Bridge) (inFlight laterInFlight : List InstanceId) :
    (b.limitedTo limit).dropPanics inFlight (later.limitedTo limit) laterInFlight =
      b.dropPanics inFlight later laterInFlight := rfl

theorem replaceContents_limitedTo (inFlight : List InstanceId) (o : InstanceHandle) (kind : Kind)
    (contents : List kind.Carrier) :
    (b.limitedTo limit).replaceContents inFlight o kind contents =
      ((b.replaceContents inFlight o kind contents).1,
        (b.replaceContents inFlight o kind contents).2.limitedTo limit) := by
  induction contents generalizing b with
  | nil => rfl
  | cons content rest ih =>
    let next := { b with instances := b.instances.setPayload o ⟨kind, content⟩ }
    change (if b.dropPanics inFlight next inFlight then (true, next.limitedTo limit)
      else (next.limitedTo limit).replaceContents inFlight o kind rest) = _
    rw [replaceContents, ih next]
    split <;> rfl

theorem runFinalizer_limitedTo (inFlight : List InstanceId) (id : ObjectId) (o : InstanceHandle) :
    (b.limitedTo limit).runFinalizer inFlight id o =
      ((b.runFinalizer inFlight id o).1, (b.runFinalizer inFlight id o).2.limitedTo limit) := by
  unfold runFinalizer
  rw [classes_limitedTo]
  cases b.classes.finalizer? o.className with
  | none => rfl
  | some f =>
    simp only [pass_limitedTo, instances_limitedTo, kindNames_limitedTo]
    split
    · rfl
    next content _ =>
      rw [note_limitedTo, replaceContents_limitedTo]
      rcases ((b.pass [.finalizing id o f]).note (f.run content).events).replaceContents inFlight o
        f.kind (f.run content).contents with ⟨_ | _, after⟩ <;> rfl

theorem finalizeNative_limitedTo (inFlight : List InstanceId) (id : ObjectId)
    (o : InstanceHandle) : (b.limitedTo limit).finalizeNative inFlight id o =
      (b.finalizeNative inFlight id o).limitedTo limit := by
  unfold finalizeNative
  simp only [runFinalizer_limitedTo, note_limitedTo, dropPanics_limitedTo]
  split <;> rfl

theorem release_limitedTo (inFlight : List InstanceId) (id : ObjectId) :
    (b.limitedTo limit).release inFlight id =
      ((b.release inFlight id).1, (b.release inFlight id).2.limitedTo limit) := by
  unfold release
  simp only [registry_limitedTo]
  cases b.registry.retire? id with
  | none => rfl
  | some retired =>
    let retiring : Bridge :=
      { b with edges := (b.edges.detach id).2.purge id, registry := retired.2 }
    have hfinal := finalizeNative_limitedTo
      (retiring.pass [.retired id retired.1.native (b.isAlive id) b.classes]) limit inFlight id
      retired.1.native
    exact congrArg (Prod.mk _) hfinal

theorem wrap_limitedTo (o : InstanceHandle) :
    (b.limitedTo limit).wrap o = ((b.wrap o).1, (b.wrap o).2.limitedTo limit) := by
  unfold wrap
  simp only [registry_limitedTo, isAlive_limitedTo, release_limitedTo]
  cases b.registry.wrapper? o with
  | none => rfl
  | some id =>
    dsimp only
    split <;> rfl

end

end Bridge

/-! ## To script -/

namespace Action

variable {α β : Type} {x : Action α}

/-- The action leaves the limit as it is, and under a higher one it does the same, unless it stops
because of the depth. -/
def Persists (x : Action α) : Prop := ∀ (b : Bridge) (limit : Nat), b.options.maxDepth ≤ limit →
  (x.run b).2.options = b.options ∧ (TooDeep (x.run b).1 ∨
    x.run (b.limitedTo limit) = ((x.run b).1, (x.run b).2.limitedTo limit))

theorem Persists.pure (a : α) : Persists (Pure.pure a) := fun _ _ _ => ⟨rfl, .inr rfl⟩

theorem Persists.throw (err : BridgeError) : Persists (throw err : Action α) :=
  fun _ _ _ => ⟨rfl, .inr rfl⟩

theorem Persists.bind {f : α → Action β} (hx : Persists x) (hf : ∀ a, Persists (f a)) :
    Persists (x >>= f) := by
  intro b limit hle
  obtain ⟨hoptions, hsame⟩ := hx b limit hle
  rw [run_bind, run_bind]
  rcases hrun : x.run b with ⟨err | a, after⟩ <;> rw [hrun] at hoptions hsame
  · refine ⟨hoptions, hsame.imp ?_ fun heq => ?_⟩
    · rintro ⟨index, limit', heq⟩
      cases heq
      exact ⟨index, limit', rfl⟩
    · rw [heq]
  · obtain ⟨hoptions', hsame'⟩ := hf a after limit (by rw [hoptions]; exact hle)
    refine ⟨hoptions'.trans hoptions, hsame'.imp_right fun heq' => ?_⟩
    rcases hsame with ⟨_, _, hdeep⟩ | heq
    · cases hdeep
    · rw [heq]
      exact heq'

theorem Persists.map {g : α → β} (hx : Persists x) :
    Persists (x >>= fun a => Pure.pure (g a)) := hx.bind fun _ => .pure _

theorem Persists.within (hx : Persists x) (depth : Nat) : Persists (Action.within depth x) := by
  intro b limit hle
  rw [run_within, run_within]
  by_cases hdepth : b.options.maxDepth < depth
  · rw [if_pos hdepth]
    exact ⟨rfl, .inl ⟨resultIndex, b.options.maxDepth, rfl⟩⟩
  · have hdepth' : ¬ (b.limitedTo limit).options.maxDepth < depth :=
      Nat.not_lt.2 (Nat.le_trans (Nat.not_lt.1 hdepth) hle)
    rw [if_neg hdepth, if_neg hdepth']
    exact hx b limit hle

theorem Persists.wrap (o : InstanceHandle) : Persists (Action.step (·.wrap o)) := by
  intro b limit _
  refine ⟨b.options_wrap o, .inr ?_⟩
  exact congrArg (fun r => (Except.ok r.1, r.2)) (b.wrap_limitedTo limit o)

end Action

namespace Native.Value

open ScriptBridge.Action (Persists)

mutual

theorem persists_toScriptAt (depth : Nat) : ∀ v : Value, Persists (v.toScriptAt depth)
  | .undefined | .null | .bool _ | .integer _ | .number _ | .string _ | .u16string _
  | .symbol _ | .function _ | .script _ => .within (.pure _) depth
  | .weakFunction _ => .within (fun _ _ _ => ⟨rfl, .inr rfl⟩) depth
  | .object o => .within (.map (.wrap o)) depth
  | .variant _ value => .within (persists_toScriptAt depth value) depth
  | .tuple items | .list items => .within (.map (persists_itemsToScript (depth + 1) items)) depth
  | .set items => .within (.map (persists_elementsToScript (depth + 1) [] items)) depth
  | .map entries => .within (.map (persists_entriesToScript (depth + 1) [] entries)) depth

theorem persists_itemsToScript (depth : Nat) :
    ∀ items : List Value, Persists (itemsToScript depth items)
  | [] => .pure _
  | item :: rest =>
    .bind (persists_toScriptAt depth item) fun _ => .map (persists_itemsToScript depth rest)

theorem persists_elementsToScript (depth : Nat) (converted : List Script.Value) :
    ∀ items : List Value, Persists (elementsToScript depth converted items)
  | [] => .pure _
  | item :: rest =>
    .bind (persists_toScriptAt depth item) fun s =>
      persists_elementsToScript depth (addDistinct converted s) rest

theorem persists_entriesToScript (depth : Nat) (converted : List (Utf16 × Script.Value)) :
    ∀ entries : List (Value × Value), Persists (entriesToScript depth converted entries)
  | [] => .pure _
  | (key, value) :: rest => by
    unfold entriesToScript
    cases key.propertyName? with
    | none => exact .throw _
    | some name =>
      exact .bind (persists_toScriptAt depth value) fun s =>
        persists_entriesToScript depth (setEntry name s converted) rest

end

end Native.Value

/-! ## Both directions -/

namespace Bridge

/-- **A limit on the depth does nothing but cut off.** What is not cut off under a limit is the same
under every higher one: in either direction the outcome, and in the direction to script the bridge
as well, with all that was wrapped and released. From script, nothing is cut off by a limit that
the nesting of the type does not exceed. -/
theorem conversion_under_higher_limit (b : Bridge) {limit limit' : Nat} (hle : limit ≤ limit') :
    (∀ v t index,
      (∀ i l, (b.limitedTo limit).fromScript v t index ≠ .error (.depth i l)) →
        (b.limitedTo limit').fromScript v t index = (b.limitedTo limit).fromScript v t index) ∧
    (∀ n, (∀ i l, ((b.limitedTo limit).toScript n).1 ≠ .error (.depth i l)) →
      ((b.limitedTo limit').toScript n).1 = ((b.limitedTo limit).toScript n).1 ∧
        ((b.limitedTo limit').toScript n).2 =
          ((b.limitedTo limit).toScript n).2.limitedTo limit') ∧
    ∀ v t index, t.nesting ≤ limit →
      ∀ i l, (b.limitedTo limit).fromScript v t index ≠ .error (.depth i l) := by
  refine ⟨fun v t index hnot => ?_, fun n hnot => ?_, fun v t index hnesting => ?_⟩
  · rcases agree_fromScriptAt (b := b.limitedTo limit) hle index t 0 v with ⟨i, l, hdeep⟩ | heq
    · exact absurd hdeep (hnot i l)
    · exact heq
  · obtain ⟨-, ⟨i, l, hdeep⟩ | heq⟩ := n.persists_toScriptAt 0 (b.limitedTo limit) limit' hle
    · exact absurd hdeep (hnot i l)
    · change (b.limitedTo limit').toScript n = _ at heq
      rw [heq]
      exact ⟨rfl, rfl⟩
  · refine fromScriptAt_ne_depth ?_
    rw [Nat.zero_add]
    exact hnesting

/-- A boolean that only the second alternative takes, and an instance that is wrapped, once. A list in
a list is cut off by the lower limit, and the second alternative is not tried in its place. -/
theorem conversion_under_higher_limit_alternative :
    let t : DeclaredType := .variant [.list (.list .integer), .any]
    let made := ({} : Bridge).create "Node" .view
    let twice : Native.Value := .set [.object made.1, .object made.1]
    let b := made.2
    (b.limitedTo 2).fromScript (.bool true) t 0 = .ok (.variant 1 (.script (.bool true))) ∧
      ((b.limitedTo 2).toScript twice).1 = .ok (.array [.wrapper ⟨0, 0⟩]) ∧
      ((b.limitedTo 2).toScript twice).2 = ((b.limitedTo 1).toScript twice).2.limitedTo 2 ∧
      (∀ i l, (b.limitedTo 1).fromScript (.array [.null]) (.list .integer) 0 ≠
        .error (.depth i l)) ∧
      (b.limitedTo 1).fromScript (.array [.array []]) t 0 = .error (.depth 0 1) := by
  intro t made twice b
  obtain ⟨hfrom, hto, hnesting⟩ := conversion_under_higher_limit b (Nat.le_succ 1)
  have hbool := hfrom (.bool true) t 0 fun _ _ => nofun
  obtain ⟨hvalue, hbridge⟩ := hto twice fun _ _ => nofun
  exact ⟨hbool.trans rfl, hvalue.trans rfl, hbridge, hnesting _ _ 0 (Nat.le_refl 1), rfl⟩

end Bridge
end ScriptBridge
