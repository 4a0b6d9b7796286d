import ScriptBridge.Proofs.Conversion.Trails

/-! # What stops a conversion to script

Two things stop a conversion of a native value: a value nested deeper than the limit, and a key of a
map that has no name. Variants add nothing to the depth, and neither do keys.

* `Native.Value.Holds` says under how many containers a value lies in another one, and
  `Native.Value.HasKey` which keys the maps in a value have.
* `Native.Value.obstacles` lists what stops a conversion, in the order in which it would be met;
  `Native.Value.mem_obstacles_iff` tells it by the values and the keys.
* `Native.Value.halts_toScriptAt`: the first obstacle is what the conversion fails with, and without
  one it succeeds.
* `Bridge.toScript_obstacles` is the result.
-/

namespace ScriptBridge
set_option autoImplicit false

namespace Native.Value

/-! ## Inside a value -/

/-- The values directly in a container. -/
def contents : Value → List Value
  | tuple items | list items | set items => items
  | map entries => entries.map (·.2)
  | _ => []

/-- `n.Holds d m`: `m` is `n` or lies in it, with `d` containers around it. -/
inductive Holds : Value → Nat → Value → Prop where
  | self (n : Value) : Holds n 0 n
  | variant {index d : Nat} {n m : Value} : Holds n d m → Holds (.variant index n) d m
  | inside {d : Nat} {n part m : Value} : part ∈ n.contents → Holds part d m → Holds n (d + 1) m

/-- The key is one of a map in the value. -/
def HasKey (n key : Value) : Prop :=
  ∃ d entries, n.Holds d (.map entries) ∧ ∃ p ∈ entries, p.1 = key

/-- A property of native values that a value has if all directly in it have it. The keys of maps are
not asked for. -/
@[elab_as_elim]
theorem inductionOn {motive : Value → Prop} (n : Value)
    (variant : ∀ index n, motive n → motive (.variant index n))
    (other : ∀ n, (∀ index m, n ≠ .variant index m) → (∀ m ∈ n.contents, motive m) → motive n) :
    motive n := by
  have plain : ∀ n : Value, (∀ index m, n ≠ .variant index m) → n.contents = [] → motive n := by
    intro n hn hnone
    refine other n hn fun m hm => ?_
    rw [hnone] at hm
    cases hm
  have hcons : ∀ (n : Value) (items : List Value), motive n → (∀ m ∈ items, motive m) →
      ∀ m ∈ n :: items, motive m :=
    fun n items hn hitems => List.forall_mem_cons.2 ⟨hn, hitems⟩
  have hmap : ∀ entries : List (Value × Value), (∀ p ∈ entries, motive p.2) →
      motive (.map entries) := by
    intro entries h
    refine other _ nofun fun m hm => ?_
    obtain ⟨p, hp, rfl⟩ := List.mem_map.1 hm
    exact h p hp
  exact @Value.rec motive (fun items => ∀ m ∈ items, motive m)
    (fun entries => ∀ p ∈ entries, motive p.2) (fun p => motive p.2)
    (plain _ nofun rfl) (plain _ nofun rfl) (fun _ => plain _ nofun rfl)
    (fun _ => plain _ nofun rfl) (fun _ => plain _ nofun rfl) (fun _ => plain _ nofun rfl)
    (fun _ => plain _ nofun rfl) (fun _ => plain _ nofun rfl) (fun items => other (.tuple items) nofun)
    variant (fun items => other (.list items) nofun) hmap (fun items => other (.set items) nofun)
    (fun _ => plain _ nofun rfl)
    (fun _ => plain _ nofun rfl) (fun _ => plain _ nofun rfl) (fun _ => plain _ nofun rfl)
    (fun _ h => nomatch h) hcons (fun _ h => nomatch h)
    (fun p entries hp hrest => List.forall_mem_cons.2 ⟨hp, hrest⟩) (fun _ _ _ h => h) n

/-! ## Obstacles -/

/-- A value at the depth is past the limit. -/
def tooDeep (limit depth : Nat) : List BridgeError :=
  if limit < depth then [.depth resultIndex limit] else []

/-- The key has no name. -/
def nameless (key : Value) : List BridgeError :=
  if key.propertyName? = none then [.lookup resultIndex key.diagnostic] else []

mutual

/-- What stops a conversion of a value found at a depth, in the order in which it would be met. -/
def obstacles (limit depth : Nat) : Value → List BridgeError
  | tuple items | list items | set items =>
    tooDeep limit depth ++ obstaclesOfItems limit (depth + 1) items
  | map entries => tooDeep limit depth ++ obstaclesOfEntries limit (depth + 1) entries
  | variant _ value => tooDeep limit depth ++ value.obstacles limit depth
  | _ => tooDeep limit depth

def obstaclesOfItems (limit depth : Nat) : List Value → List BridgeError
  | [] => []
  | v :: rest => v.obstacles limit depth ++ obstaclesOfItems limit depth rest

def obstaclesOfEntries (limit depth : Nat) : List (Value × Value) → List BridgeError
  | [] => []
  | (k, v) :: rest => nameless k ++ (v.obstacles limit depth ++ obstaclesOfEntries limit depth rest)

end

variable {limit depth d : Nat} {n m key : Value} {err : BridgeError}

theorem mem_tooDeep_iff :
    err ∈ tooDeep limit depth ↔ limit < depth ∧ err = .depth resultIndex limit := by
  unfold tooDeep
  split
  next hlt => simp [hlt]
  next hle => simp [hle]

theorem mem_nameless_iff : err ∈ nameless key ↔
    key.propertyName? = none ∧ err = .lookup resultIndex key.diagnostic := by
  unfold nameless
  split
  next hnone => simp [hnone]
  next hsome => simp [hsome]

theorem mem_obstaclesOfItems_iff {items : List Value} :
    err ∈ obstaclesOfItems limit depth items ↔ ∃ m ∈ items, err ∈ m.obstacles limit depth := by
  induction items with
  | nil => simp [obstaclesOfItems]
  | cons m rest ih => simp [obstaclesOfItems, ih]

theorem mem_obstaclesOfEntries_iff {entries : List (Value × Value)} :
    err ∈ obstaclesOfEntries limit depth entries ↔
      (∃ p ∈ entries, err ∈ nameless p.1) ∨ ∃ p ∈ entries, err ∈ p.2.obstacles limit depth := by
  induction entries with
  | nil => simp [obstaclesOfEntries]
  | cons p rest ih =>
    obtain ⟨key, m⟩ := p
    simp only [obstaclesOfEntries, List.mem_append, ih, List.mem_cons, exists_eq_or_imp, or_assoc,
      or_left_comm]

theorem tooDeep_subset_obstacles (limit depth : Nat) (n : Value) :
    tooDeep limit depth ⊆ n.obstacles limit depth := by
  cases n <;> simp [obstacles]

/-- A container meets the obstacles of what is in it, one layer further down. -/
theorem obstacles_subset_of_mem_contents (h : m ∈ n.contents) :
    m.obstacles limit (depth + 1) ⊆ n.obstacles limit depth := by
  intro err herr
  cases n with
  | tuple items | list items | set items =>
    exact List.mem_append_right _ (mem_obstaclesOfItems_iff.2 ⟨m, h, herr⟩)
  | map entries =>
    obtain ⟨p, hp, rfl⟩ := List.mem_map.1 h
    exact List.mem_append_right _ (mem_obstaclesOfEntries_iff.2 (.inr ⟨p, hp, herr⟩))
  | _ => cases h

theorem Holds.obstacles_subset (h : n.Holds d m) :
    m.obstacles limit (depth + d) ⊆ n.obstacles limit depth := by
  induction h generalizing depth with
  | self n => exact List.Subset.refl _
  | variant _ ih => exact List.Subset.trans ih (List.subset_append_right _ _)
  | @inside d n part m hpart _ ih =>
    rw [Nat.add_comm d 1, ← Nat.add_assoc]
    exact List.Subset.trans ih (obstacles_subset_of_mem_contents hpart)

/-- The depth or a key stops a conversion, at the places where it does. -/
def StoppedBy (n : Value) (limit depth : Nat) (err : BridgeError) : Prop :=
  (err = .depth resultIndex limit ∧ ∃ d m, n.Holds d m ∧ limit < depth + d) ∨
    ∃ key, n.HasKey key ∧ key.propertyName? = none ∧ err = .lookup resultIndex key.diagnostic

theorem StoppedBy.variant {index : Nat} (h : n.StoppedBy limit depth err) :
    (Value.variant index n).StoppedBy limit depth err := by
  refine h.imp ?_ ?_
  · rintro ⟨rfl, d, m, hm, hlt⟩
    exact ⟨rfl, d, m, .variant hm, hlt⟩
  · rintro ⟨key, ⟨d, entries, hm, hp⟩, hnone, rfl⟩
    exact ⟨key, ⟨d, entries, .variant hm, hp⟩, hnone, rfl⟩

theorem StoppedBy.inside (hm : m ∈ n.contents) (h : m.StoppedBy limit (depth + 1) err) :
    n.StoppedBy limit depth err := by
  refine h.imp ?_ ?_
  · rintro ⟨rfl, d, m', hm', hlt⟩
    exact ⟨rfl, d + 1, m', .inside hm hm', by omega⟩
  · rintro ⟨key, ⟨d, entries, hm', hp⟩, hnone, rfl⟩
    exact ⟨key, ⟨d + 1, entries, .inside hm hm', hp⟩, hnone, rfl⟩

theorem StoppedBy.of_tooDeep (h : err ∈ tooDeep limit depth) : n.StoppedBy limit depth err := by
  obtain ⟨hlt, rfl⟩ := mem_tooDeep_iff.1 h
  exact .inl ⟨rfl, 0, n, .self n, hlt⟩

/-- What stops a value stops it further down as well. -/
theorem StoppedBy.mono {depth' : Nat} (h : n.StoppedBy limit depth err) (hle : depth ≤ depth') :
    n.StoppedBy limit depth' err := by
  refine h.imp_left ?_
  rintro ⟨rfl, d, m, hm, hlt⟩
  exact ⟨rfl, d, m, hm, by omega⟩

/-- **The obstacles are the values past the limit and the keys without a name.** -/
theorem mem_obstacles_iff : err ∈ n.obstacles limit depth ↔ n.StoppedBy limit depth err := by
  constructor
  · intro h
    induction n using inductionOn generalizing depth with
    | variant index n ih =>
      rcases List.mem_append.1 h with h | h
      · exact .of_tooDeep h
      · exact (ih h).variant
    | other n hvariant ih =>
      have hinside : ∀ m ∈ n.contents, err ∈ m.obstacles limit (depth + 1) →
          n.StoppedBy limit depth err := fun m hm herr => .inside hm (ih m hm herr)
      cases n with
      | tuple items | list items | set items =>
        rcases List.mem_append.1 h with h | h
        · exact .of_tooDeep h
        · obtain ⟨m, hm, herr⟩ := mem_obstaclesOfItems_iff.1 h
          exact hinside m hm herr
      | map entries =>
        rcases List.mem_append.1 h with h | h
        · exact .of_tooDeep h
        · rcases mem_obstaclesOfEntries_iff.1 h with ⟨p, hp, herr⟩ | ⟨p, hp, herr⟩
          · obtain ⟨hnone, rfl⟩ := mem_nameless_iff.1 herr
            exact .inr ⟨p.1, ⟨0, entries, .self _, p, hp, rfl⟩, hnone, rfl⟩
          · exact hinside p.2 (List.mem_map_of_mem hp) herr
      | variant index m => exact absurd rfl (hvariant index m)
      | _ => exact .of_tooDeep h
  · rintro (⟨rfl, d, m, hm, hlt⟩ | ⟨key, ⟨d, entries, hm, p, hp, rfl⟩, hnone, rfl⟩)
    · exact hm.obstacles_subset (tooDeep_subset_obstacles _ _ m (mem_tooDeep_iff.2 ⟨hlt, rfl⟩))
    · refine hm.obstacles_subset (List.mem_append_right _ ?_)
      exact mem_obstaclesOfEntries_iff.2 (.inl ⟨p, hp, mem_nameless_iff.2 ⟨hnone, rfl⟩⟩)

end Native.Value

/-! ## The first obstacle -/

namespace Action

variable {α β : Type} {x : Action α} {limit : Nat} {obstacles obstacles' : List BridgeError}

/-- Under the limit, which it leaves as it is, the action fails with the first of the obstacles, and
succeeds if there are none. -/
def Halts (x : Action α) (limit : Nat) (obstacles : List BridgeError) : Prop :=
  ∀ b : Bridge, b.options.maxDepth = limit → (x.run b).2.options = b.options ∧
    ∀ err, (x.run b).1 = .error err ↔ obstacles.head? = some err

theorem Halts.pure (a : α) (limit : Nat) : Halts (Pure.pure a) limit [] :=
  fun _ _ => ⟨rfl, fun _ => ⟨nofun, nofun⟩⟩

theorem Halts.throw (err : BridgeError) (limit : Nat) (rest : List BridgeError) :
    Halts (throw err : Action α) limit (err :: rest) :=
  fun _ _ => ⟨rfl, fun _ => Except.error.injEq err _ ▸ Option.some.injEq err _ ▸ Iff.rfl⟩

theorem Halts.bind {f : α → Action β} (hx : Halts x limit obstacles)
    (hf : ∀ a, Halts (f a) limit obstacles') : Halts (x >>= f) limit (obstacles ++ obstacles') := by
  intro b hb
  obtain ⟨hoptions, herror⟩ := hx b hb
  rw [run_bind, List.head?_append]
  rcases hrun : x.run b with ⟨err | a, after⟩ <;> rw [hrun] at hoptions herror
  · have hfirst : obstacles.head? = some err := (herror err).1 rfl
    refine ⟨hoptions, fun err' => ?_⟩
    rw [hfirst, Option.some_or, Option.some.injEq]
    exact ⟨Except.error.inj, congrArg _⟩
  · have hnone : obstacles.head? = none := by
      cases hhead : obstacles.head? with
      | none => rfl
      | some err => exact absurd ((herror err).2 hhead) nofun
    obtain ⟨hoptions', herror'⟩ := hf a after (hoptions ▸ hb)
    exact ⟨hoptions'.trans hoptions, hnone ▸ herror'⟩

theorem Halts.map {g : α → β} (hx : Halts x limit obstacles) :
    Halts (x >>= fun a => Pure.pure (g a)) limit obstacles := by
  rw [← List.append_nil obstacles]
  exact hx.bind fun a => .pure (g a) limit

theorem Halts.within (hx : Halts x limit obstacles) (depth : Nat) :
    Halts (Action.within depth x) limit (Native.Value.tooDeep limit depth ++ obstacles) := by
  intro b hb
  rw [run_within, hb]
  unfold Native.Value.tooDeep
  split
  · exact Halts.throw (α := α) _ limit _ b hb
  · exact hx b hb

theorem Halts.atDepth (hx : Halts x limit []) (depth : Nat) :
    Halts (Action.within depth x) limit (Native.Value.tooDeep limit depth) := by
  rw [← List.append_nil (Native.Value.tooDeep limit depth)]
  exact hx.within depth

/-- Reading the bridge stops nothing. -/
theorem Halts.get {f : Bridge → Action α} (hf : ∀ c, Halts (f c) limit obstacles) :
    Halts (MonadState.get >>= f) limit obstacles :=
  fun b => hf b b

theorem Halts.wrap (o : InstanceHandle) (limit : Nat) : Halts (Action.step (·.wrap o)) limit [] :=
  fun b _ => ⟨b.options_wrap o, fun _ => ⟨nofun, nofun⟩⟩

end Action

namespace Native.Value

open ScriptBridge.Action (Halts)

mutual

theorem halts_toScriptAt (limit depth : Nat) : ∀ v : Value,
    Halts (v.toScriptAt depth) limit (v.obstacles limit depth)
  | .undefined | .null | .bool _ | .integer _ | .number _ | .string _ | .u16string _
  | .symbol _ | .function _ | .script _ => .atDepth (.pure _ limit) depth
  | .weakFunction _ => .atDepth (.get fun _ => .pure _ limit) depth
  | .object o => .atDepth (.map (.wrap o limit)) depth
  | .variant _ value => .within (halts_toScriptAt limit depth value) depth
  | .tuple items | .list items =>
    .within (.map (halts_itemsToScript limit (depth + 1) items)) depth
  | .set items => .within (.map (halts_elementsToScript limit (depth + 1) [] items)) depth
  | .map entries => .within (.map (halts_entriesToScript limit (depth + 1) [] entries)) depth

theorem halts_itemsToScript (limit depth : Nat) : ∀ items : List Value,
    Halts (itemsToScript depth items) limit (obstaclesOfItems limit depth items)
  | [] => .pure _ limit
  | item :: rest =>
    .bind (halts_toScriptAt limit depth item) fun _ => .map (halts_itemsToScript limit depth rest)

theorem halts_elementsToScript (limit depth : Nat) (converted : List Script.Value) :
    ∀ items : List Value,
      Halts (elementsToScript depth converted items) limit (obstaclesOfItems limit depth items)
  | [] => .pure _ limit
  | item :: rest =>
    .bind (halts_toScriptAt limit depth item) fun s =>
      halts_elementsToScript limit depth (addDistinct converted s) rest

theorem halts_entriesToScript (limit depth : Nat) (converted : List (Utf16 × Script.Value)) :
    ∀ entries : List (Value × Value), Halts (entriesToScript depth converted entries) limit
      (obstaclesOfEntries limit depth entries)
  | [] => .pure _ limit
  | (key, value) :: rest => by
    unfold entriesToScript obstaclesOfEntries nameless
    cases key.propertyName? with
    | none =>
      rw [if_pos rfl]
      exact .throw _ limit _
    | some name =>
      rw [if_neg nofun, List.nil_append]
      exact .bind (halts_toScriptAt limit depth value) fun s =>
        halts_entriesToScript limit depth (setEntry name s converted) rest

end

end Native.Value

/-! ## Conversions -/

namespace Native.Value

/-- All in the value lies under at most `limit` containers. -/
def Shallow (n : Value) (limit : Nat) : Prop := ∀ d m, n.Holds d m → d ≤ limit

/-- All keys of the maps in the value have names. -/
def Named (n : Value) : Prop := ∀ key, n.HasKey key → ∃ name, key.propertyName? = some name

variable {n : Value} {limit : Nat} {err : BridgeError}

theorem StoppedBy.eq_depth (h : n.StoppedBy limit 0 err) (hnamed : n.Named) :
    err = .depth resultIndex limit := by
  rcases h with ⟨rfl, -⟩ | ⟨key, hkey, hnone, -⟩
  · rfl
  · obtain ⟨name, hname⟩ := hnamed key hkey
    cases hnone.symm.trans hname

theorem StoppedBy.exists_key (h : n.StoppedBy limit 0 err) (hshallow : n.Shallow limit) :
    ∃ key, n.HasKey key ∧ key.propertyName? = none ∧ err = .lookup resultIndex key.diagnostic := by
  rcases h with ⟨-, d, m, hm, hlt⟩ | h
  · have hle : d ≤ limit := hshallow d m hm
    omega
  · exact h

/-- Nothing stops a conversion of what is shallow and has its keys named. -/
theorem obstacles_eq_nil_iff : n.obstacles limit 0 = [] ↔ n.Shallow limit ∧ n.Named := by
  rw [List.eq_nil_iff_forall_not_mem]
  simp only [mem_obstacles_iff]
  constructor
  · intro hfree
    refine ⟨fun d m hm => ?_, fun key hkey => ?_⟩
    · by_contra hlt
      exact hfree _ (.inl ⟨rfl, d, m, hm, by omega⟩)
    · cases hname : key.propertyName? with
      | some name => exact ⟨name, rfl⟩
      | none => exact absurd (.inr ⟨key, hkey, hname, rfl⟩) (hfree _)
  · rintro ⟨hshallow, hnamed⟩ err herr
    obtain ⟨key, hkey, hnone, -⟩ := herr.exists_key hshallow
    obtain ⟨name, hname⟩ := hnamed key hkey
    cases hnone.symm.trans hname

end Native.Value

namespace Bridge

variable {b : Bridge} {n : Native.Value}

theorem toScript_eq_error_iff {err : BridgeError} :
    (b.toScript n).1 = .error err ↔ (n.obstacles b.options.maxDepth 0).head? = some err :=
  (n.halts_toScriptAt b.options.maxDepth 0 b rfl).2 err

/-- A conversion that fails was stopped by the depth or by a key. -/
theorem stoppedBy_of_toScript_error {err : BridgeError} (h : (b.toScript n).1 = .error err) :
    n.StoppedBy b.options.maxDepth 0 err :=
  Native.Value.mem_obstacles_iff.1 (List.mem_of_mem_head? (toScript_eq_error_iff.1 h))

theorem exists_toScript_iff_obstacles :
    (∃ v, (b.toScript n).1 = .ok v) ↔ n.obstacles b.options.maxDepth 0 = [] := by
  rw [← List.head?_eq_none_iff, Option.eq_none_iff_forall_ne_some]
  constructor
  · rintro ⟨v, hv⟩ err herr
    cases hv.symm.trans (toScript_eq_error_iff.2 herr)
  · intro hfree
    cases houtcome : (b.toScript n).1 with
    | ok v => exact ⟨v, rfl⟩
    | error err => exact absurd (toScript_eq_error_iff.1 houtcome) (hfree err)

theorem exists_toScript_iff :
    (∃ v, (b.toScript n).1 = .ok v) ↔ n.Shallow b.options.maxDepth ∧ n.Named :=
  exists_toScript_iff_obstacles.trans Native.Value.obstacles_eq_nil_iff

theorem exists_toScript_error (h : ¬ (n.Shallow b.options.maxDepth ∧ n.Named)) :
    ∃ err, (b.toScript n).1 = .error err := by
  cases houtcome : (b.toScript n).1 with
  | ok v => exact absurd (exists_toScript_iff.1 ⟨v, houtcome⟩) h
  | error err => exact ⟨err, rfl⟩

/-- **A conversion to script fails for its depth or for a key, and for nothing else.** Where all keys
have names, the depth decides, and where nothing is too deep, the keys do. -/
theorem toScript_obstacles (b : Bridge) (n : Native.Value) :
    (n.Named →
      (n.Shallow b.options.maxDepth → ∃ v, (b.toScript n).1 = .ok v) ∧
      (¬ n.Shallow b.options.maxDepth →
        (b.toScript n).1 = .error (.depth 0 b.options.maxDepth))) ∧
    (n.Shallow b.options.maxDepth →
      (n.Named → ∃ v, (b.toScript n).1 = .ok v) ∧
      (¬ n.Named → ∃ key, n.HasKey key ∧ key.propertyName? = none ∧
        (b.toScript n).1 = .error (.lookup 0 key.diagnostic))) ∧
    ∀ err, (b.toScript n).1 = .error err →
      (err = .depth 0 b.options.maxDepth ∧ ¬ n.Shallow b.options.maxDepth) ∨
        ∃ key, n.HasKey key ∧ key.propertyName? = none ∧ err = .lookup 0 key.diagnostic := by
  refine ⟨fun hnamed => ⟨fun hshallow => exists_toScript_iff.2 ⟨hshallow, hnamed⟩, fun hdeep => ?_⟩,
    fun hshallow => ⟨fun hnamed => exists_toScript_iff.2 ⟨hshallow, hnamed⟩, fun hnameless => ?_⟩,
    fun err herr => ?_⟩
  · obtain ⟨err, herr⟩ := exists_toScript_error fun h => hdeep h.1
    obtain rfl := (stoppedBy_of_toScript_error herr).eq_depth hnamed
    exact herr
  · obtain ⟨err, herr⟩ := exists_toScript_error fun h => hnameless h.2
    obtain ⟨key, hkey, hnone, rfl⟩ := (stoppedBy_of_toScript_error herr).exists_key hshallow
    exact ⟨key, hkey, hnone, herr⟩
  · refine (stoppedBy_of_toScript_error herr).imp_left ?_
    rintro ⟨rfl, d, m, hm, hlt⟩
    refine ⟨rfl, fun hshallow => ?_⟩
    have hle : d ≤ b.options.maxDepth := hshallow d m hm
    omega

/-- A map in a list, with a variant around the map and one around its key. -/
def variantsInList : Native.Value :=
  .list [.variant 0 (.map [(.variant 1 (.bool true), .list [])])]

/-- The innermost list lies under two containers, so that two is the least limit that lets it
through. -/
theorem toScript_obstacles_variantsInList :
    (∃ v, (({ options := { maxDepth := 2 } } : Bridge).toScript variantsInList).1 = .ok v) ∧
      (({ options := { maxDepth := 1 } } : Bridge).toScript variantsInList).1 =
        .error (.depth 0 1) := by
  have hfree : variantsInList.Shallow 2 ∧ variantsInList.Named :=
    Native.Value.obstacles_eq_nil_iff.1 rfl
  have hdeep : ¬ variantsInList.Shallow 1 := by
    intro hshallow
    have hinner : variantsInList.Holds 2 (.list []) :=
      .inside List.mem_cons_self (.variant (.inside List.mem_cons_self (.self _)))
    have hle : 2 ≤ 1 := hshallow 2 _ hinner
    omega
  exact ⟨((toScript_obstacles { options := { maxDepth := 2 } } variantsInList).1 hfree.2).1 hfree.1,
    ((toScript_obstacles { options := { maxDepth := 1 } } variantsInList).1 hfree.2).2 hdeep⟩

end Bridge
end ScriptBridge
