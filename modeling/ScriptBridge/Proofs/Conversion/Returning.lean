import ScriptBridge.Proofs.Conversion.Failures
import ScriptBridge.Proofs.Conversion.Keys
import ScriptBridge.Proofs.Conversion.Writing
import ScriptBridge.Proofs.Number.Integral
import ScriptBridge.Proofs.Script.Symmetry

/-! # Script values that come back

A script value that is converted to a native one and back is equal to what it was, and the bridge is
as it was, as long as the type has no sets and no numbers as keys and the value is `Restorable`:
`Bridge.toScript_fromScript`.

* `Bridge.Supplies` says which part of a value stands at which part of a type.
* `Bridge.Returns` is coming back, for a value found at a depth. The depth may only fall on the way
  back, where variants do not count.
-/

namespace ScriptBridge
set_option autoImplicit false

namespace Bridge

variable {b b' : Bridge} {index depth : Nat} {v : Script.Value} {n : Native.Value}
  {t key value inner : DeclaredType} {types : List DeclaredType}

/-! ## The wrapper of an instance -/

theorem Move.faithful (hm : Move b b') (h : b.registry.Faithful) : b'.registry.Faithful := by
  cases hm with
  | setMode wrapper mode => exact h.setMode wrapper mode
  | wrapFresh o =>
    rw [wrapFresh_eq]
    exact h.bind o _
  | @release inFlight id _ =>
    obtain ⟨instances, journal, heq⟩ := b.release_eq inFlight id
    rw [heq]
    exact h.without id
  | _ => exact h

theorem Reachable.faithful (h : b.Reachable) : b.registry.Faithful :=
  h.invariant (P := fun b => b.registry.Faithful) Move.faithful fun _ => Registry.faithful_empty

/-- A handle behind a wrapper becomes that wrapper again. -/
theorem bound_of_nativeOf {o : InstanceHandle} (h : b.registry.Faithful)
    (ho : b.nativeOf v = some o) : ∃ w, v = .wrapper w ∧ b.Bound o w := by
  unfold nativeOf at ho
  split at ho
  next w =>
    split at ho
    next halive => exact ⟨w, rfl, h w o ho, halive⟩
    · cases ho
  · cases ho

/-! ## Positions -/

/-- `Supplies b t v t' v'`: when `v` is converted under `t`, then `v'` is what it has at the place
of `t'`. Under a variant that is the place in the alternative that takes the value. -/
inductive Supplies (b : Bridge) :
    DeclaredType → Script.Value → DeclaredType → Script.Value → Prop where
  | self (t : DeclaredType) (v : Script.Value) : Supplies b t v t v
  | component {types : List DeclaredType} {items : List Script.Value} {k : Nat}
      {t t' : DeclaredType} {item v' : Script.Value} : types[k]? = some t → items[k]? = some item →
        Supplies b t item t' v' → Supplies b (.tuple types) (.array items) t' v'
  | element {t t' : DeclaredType} {items : List Script.Value} {item v' : Script.Value} :
      item ∈ items → Supplies b t item t' v' → Supplies b (.list t) (.array items) t' v'
  | member {t t' : DeclaredType} {items : List Script.Value} {item v' : Script.Value} :
      item ∈ items → Supplies b t item t' v' → Supplies b (.set t) (.array items) t' v'
  | entry {key t t' : DeclaredType} {es : List (Utf16 × Script.Value)}
      {e : Utf16 × Script.Value} {v' : Script.Value} :
      e ∈ es → Supplies b t e.2 t' v' → Supplies b (.map key t) (.map es) t' v'
  | optional {t t' : DeclaredType} {v v' : Script.Value} :
      Supplies b t v t' v' → Supplies b (.optional t) v t' v'
  | alternative {types : List DeclaredType} {index depth k : Nat} {t t' : DeclaredType}
      {v v' : Script.Value} {n : Native.Value} : types[k]? = some t →
        b.fromScriptAt index (.variant types) depth v = .ok (.variant k n) →
        Supplies b t v t' v' → Supplies b (.variant types) v t' v'

/-- What a type and a value need for the value to come back. -/
structure Restorable (b : Bridge) (t : DeclaredType) (v : Script.Value) : Prop where
  noSet : ∀ element, .set element ∉ t.parts
  noNumberKey : ∀ key value, .map key value ∈ t.parts → .number ∉ key.parts
  noNaN : ∀ x, .float x ∈ v.parts → x.isNaN = false
  distinctKeys : ∀ key value es, b.Supplies t v (.map key value) (.map es) → (es.map (·.1)).Nodup
  nullish : .null ∉ t.parts ∨ .undefined ∉ v.parts

theorem Restorable.of_part {t' : DeclaredType} {v' : Script.Value} (h : b.Restorable t v)
    (ht : t'.parts ⊆ t.parts) (hv : v'.parts ⊆ v.parts)
    (hs : ∀ t'' v'', b.Supplies t' v' t'' v'' → b.Supplies t v t'' v'') : b.Restorable t' v' where
  noSet element hmem := h.noSet element (ht hmem)
  noNumberKey key value hmem := h.noNumberKey key value (ht hmem)
  noNaN x hx := h.noNaN x (hv hx)
  distinctKeys key value es hes := h.distinctKeys key value es (hs _ _ hes)
  nullish := h.nullish.imp (fun hn hmem => hn (ht hmem)) fun hu hmem => hu (hv hmem)

section
variable {items : List Script.Value} {item : Script.Value}

theorem Restorable.component {k : Nat} (h : b.Restorable (.tuple types) (.array items))
    (ht : types[k]? = some t) (hitem : items[k]? = some item) : b.Restorable t item := by
  refine h.of_part (fun t' ht' => ?_) (fun v' hv' => ?_) fun t' v' => .component ht hitem
  · exact List.mem_cons_of_mem _
      (DeclaredType.parts_subset_of_mem (List.mem_of_getElem? ht) ht')
  · exact Script.Value.parts_subset_array (List.mem_of_getElem? hitem) hv'

theorem Restorable.element (h : b.Restorable (.list t) (.array items)) (hitem : item ∈ items) :
    b.Restorable t item := by
  refine h.of_part (fun t' => List.mem_cons_of_mem _) (fun v' hv' => ?_) fun t' v' => .element hitem
  exact Script.Value.parts_subset_array hitem hv'

theorem Restorable.entry {es : List (Utf16 × Script.Value)} {e : Utf16 × Script.Value}
    (h : b.Restorable (.map key value) (.map es)) (he : e ∈ es) : b.Restorable value e.2 := by
  refine h.of_part (fun t' ht' => ?_) (fun v' hv' => ?_) fun t' v' => .entry he
  · exact List.mem_cons_of_mem _ (List.mem_append_right _ ht')
  · exact Script.Value.parts_subset_map he hv'

end

theorem Restorable.optional (h : b.Restorable (.optional inner) v) : b.Restorable inner v :=
  h.of_part (fun _ => List.mem_cons_of_mem _) (fun _ => id) fun _ _ => .optional

theorem Restorable.alternative {k : Nat} (h : b.Restorable (.variant types) v)
    (ht : types[k]? = some t)
    (hn : b.fromScriptAt index (.variant types) depth v = .ok (.variant k n)) :
    b.Restorable t v := by
  refine h.of_part (fun t' ht' => ?_) (fun _ => id) fun _ _ => .alternative ht hn
  exact List.mem_cons_of_mem _ (DeclaredType.parts_subset_of_mem (List.mem_of_getElem? ht) ht')

/-! ## Coming back -/

/-- At any depth up to the given one, `n` is converted to a value equal to `v`, and the bridge is
left as it is. -/
def Returns (b : Bridge) (depth : Nat) (v : Script.Value) (n : Native.Value) : Prop :=
  ∀ d ≤ depth, ∃ v', n.Becomes b d v' ∧ v'.same v

theorem Returns.of_becomes {v' : Script.Value}
    (h : ∀ d, d ≤ b.options.maxDepth → n.Becomes b d v') (hsame : v'.same v)
    (hdepth : depth ≤ b.options.maxDepth) : b.Returns depth v n :=
  fun d hd => ⟨v', h d (hd.trans hdepth), hsame⟩

theorem Returns.variant (h : b.Returns (depth + 1) v n) (hdepth : depth ≤ b.options.maxDepth)
    (k : Nat) : b.Returns depth v (.variant k n) := by
  intro d hd
  obtain ⟨v', hv', hsame⟩ := h d (by omega)
  exact ⟨v', Native.Value.becomes_variant (hd.trans hdepth) hv' k, hsame⟩

theorem exists_becomes_items {items : List Script.Value} {ns : List Native.Value}
    (h : List.Forall₂ (b.Returns (depth + 1)) items ns) {d : Nat} (hd : d ≤ depth) :
    ∃ vs, List.Forall₂ (Native.Value.Becomes b (d + 1)) ns vs ∧
      (Script.Value.array vs).same (.array items) := by
  have hparts := h.imp fun item n hn => hn (d + 1) (by omega)
  obtain ⟨vs, hbecome, hsame⟩ := exists_forall₂_of_exists hparts
  exact ⟨vs, hbecome, Script.Value.same_array_iff.2 hsame⟩

theorem Returns.list {items : List Script.Value} {ns : List Native.Value}
    (h : List.Forall₂ (b.Returns (depth + 1)) items ns) (hdepth : depth ≤ b.options.maxDepth) :
    b.Returns depth (.array items) (.list ns) := by
  intro d hd
  obtain ⟨vs, hbecome, hsame⟩ := exists_becomes_items h hd
  exact ⟨.array vs, Native.Value.becomes_list (hd.trans hdepth) hbecome, hsame⟩

theorem Returns.tuple {items : List Script.Value} {ns : List Native.Value}
    (h : List.Forall₂ (b.Returns (depth + 1)) items ns) (hdepth : depth ≤ b.options.maxDepth) :
    b.Returns depth (.array items) (.tuple ns) := by
  intro d hd
  obtain ⟨vs, hbecome, hsame⟩ := exists_becomes_items h hd
  exact ⟨.array vs, Native.Value.becomes_tuple (hd.trans hdepth) hbecome, hsame⟩

theorem Returns.map {es : List (Utf16 × Script.Value)} {ps : List (Native.Value × Native.Value)}
    (h : List.Forall₂ (fun e p => p.1.propertyName? = some e.1 ∧ b.Returns (depth + 1) e.2 p.2)
      es ps) (hdistinct : (es.map (·.1)).Nodup) (hdepth : depth ≤ b.options.maxDepth) :
    b.Returns depth (.map es) (.map ps) := by
  intro d hd
  have hparts : List.Forall₂ (fun e p => ∃ e' : Utf16 × Script.Value,
      (p.1.propertyName? = some e'.1 ∧ p.2.Becomes b (d + 1) e'.2) ∧
        (e'.1 = e.1 ∧ e'.2.same e.2 = true)) es ps := by
    refine h.imp fun e p hep => ?_
    obtain ⟨v', hv', hsame⟩ := hep.2 (d + 1) (by omega)
    exact ⟨(e.1, v'), ⟨hep.1, hv'⟩, rfl, hsame⟩
  obtain ⟨es', hbecome, hsame⟩ := exists_forall₂_of_exists hparts
  have hnames : es'.map (·.1) = es.map (·.1) := by
    rw [← List.forall₂_eq_eq_eq, List.forall₂_map_left_iff, List.forall₂_map_right_iff]
    exact hsame.imp fun e' e h => h.1
  refine ⟨.map es', Native.Value.becomes_map (hd.trans hdepth) hbecome (hnames ▸ hdistinct), ?_⟩
  exact Script.Value.same_map_of_forall₂ hsame

/-- An integer read from a number is the number. -/
theorem same_of_integer? {i : Int64} (h : v.integer? = some i) : (Script.Value.int i).same v := by
  rcases Script.Value.integer?_eq_some_iff.1 h with rfl | ⟨x, z, rfl, hz, hi⟩
  · rw [Script.Value.same_int, beq_self_eq_true]
  · change (Binary64.ofInt i.toInt).equal x
    rw [Number.toInt64?_eq_some_iff.1 hi]
    exact Binary64.equal_ofInt_of_toInt? hz

theorem same_of_number? {x : Binary64} (h : v.number? = some x)
    (hnan : ∀ y, .float y ∈ v.parts → y.isNaN = false) : (Script.Value.float x).same v := by
  rcases Script.Value.number?_eq_some_iff.1 h with ⟨i, rfl, rfl⟩ | rfl
  · exact Script.Value.equal_self (Binary64.isNaN_ofInt _)
  · exact Script.Value.equal_self (hnan x (List.mem_singleton_self _))

/-- What a value comes back as that was read under a type not built of others. -/
inductive GivesBack (t : DeclaredType) (v : Script.Value) : Script.Value → Prop where
  | same : GivesBack t v v
  | null : t = .null → v.isNullish → GivesBack t v .null
  | integer {i : Int64} : v.integer? = some i → GivesBack t v (.int i)
  | number {x : Binary64} : t = .number → v.number? = some x → GivesBack t v (.float x)

/-- It comes back at any depth, and the bridge is left as it is. -/
theorem Reads.givesBack (hf : b.registry.Faithful) (h : b.Reads t v n) :
    ∃ v', GivesBack t v v' ∧ ∀ d ≤ b.options.maxDepth, n.Becomes b d v' := by
  cases h with
  | any v => exact ⟨v, .same, fun d hd => Native.Value.becomes_script hd v⟩
  | null hv => exact ⟨.null, .null rfl hv, fun d hd => Native.Value.becomes_null hd⟩
  | bool x => exact ⟨_, .same, fun d hd => Native.Value.becomes_bool hd x⟩
  | integer hi | bounded _ hi _ =>
    exact ⟨_, .integer hi, fun d hd => Native.Value.becomes_integer hd _⟩
  | number hx => exact ⟨_, .number rfl hx, fun d hd => Native.Value.becomes_number hd _⟩
  | @string s text htext =>
    obtain rfl := Utf16.toString?_eq_some_iff.1 htext
    exact ⟨_, .same, fun d hd => Native.Value.becomes_string hd text⟩
  | u16string s => exact ⟨_, .same, fun d hd => Native.Value.becomes_u16string hd s⟩
  | symbol s => exact ⟨_, .same, fun d hd => Native.Value.becomes_symbol hd s⟩
  | object ho _ =>
    obtain ⟨w, rfl, hbound⟩ := bound_of_nativeOf hf ho
    exact ⟨_, .same, fun d hd => Native.Value.becomes_object hd hbound⟩
  | function id => exact ⟨_, .same, fun d hd => Native.Value.becomes_function hd id⟩

theorem GivesBack.same_of_restorable {v' : Script.Value} (hback : GivesBack t v v')
    (h : b.Restorable t v) : v'.same v := by
  cases hback with
  | same => exact Script.Value.same_self v h.noNaN
  | null ht hv =>
    obtain rfl := ht
    -- Undefined would be accepted as well, but null comes back.
    have hundefined := h.nullish.resolve_left fun hno => hno (List.mem_singleton_self _)
    cases v with
    | null => rfl
    | undefined => exact absurd (List.mem_singleton_self _) hundefined
    | _ => cases hv
  | integer hi => exact same_of_integer? hi
  | number _ hx => exact same_of_number? hx h.noNaN

/-- **A restorable value comes back**, by induction on the type it is converted under. -/
theorem returns_of_fromScriptAt (hf : b.registry.Faithful) (t : DeclaredType)
    (h : b.Restorable t v) (hn : b.fromScriptAt index t depth v = .ok n) :
    b.Returns depth v n := by
  induction t using DeclaredType.layersOn generalizing depth v n with
  | scalar t ht =>
    obtain ⟨hdepth, hreads⟩ := reads_of_fromScriptAt ht hn
    obtain ⟨v', hback, hv'⟩ := hreads.givesBack hf
    exact .of_becomes hv' (hback.same_of_restorable h) hdepth
  | tuple types ih =>
    obtain ⟨hdepth, items, ns, rfl, hlen, hns, rfl⟩ := fromScriptAt_tuple_iff.1 hn
    refine .tuple (forall₂_of_componentsFromScript hlen hns ?_) hdepth
    intro k t item n ht hitem hn
    exact ih t (List.mem_of_getElem? ht) (h.component ht hitem) hn
  | variant types ih =>
    obtain ⟨hdepth, k, t, n, rfl, ht, hn'⟩ := fromScriptAt_variant hn
    -- The alternative was taken one layer down; on the way back the variant is no layer.
    exact .variant (ih t (List.mem_of_getElem? ht) (h.alternative ht hn) hn') hdepth k
  | list element ih =>
    obtain ⟨hdepth, items, ns, rfl, hns, rfl⟩ := fromScriptAt_list_iff.1 hn
    exact .list (forall₂_imp_of_mem hns fun item hitem n hn => ih (h.element hitem) hn) hdepth
  | map key value ih =>
    obtain ⟨hdepth, es, ps, rfl, hps, rfl⟩ := fromScriptAt_map_iff.1 hn
    have hdistinct := h.distinctKeys key value es (.self _ _)
    have hkey := h.noNumberKey key value List.mem_cons_self
    refine .map (forall₂_imp_of_mem hps fun e he p hp => ?_) hdistinct hdepth
    exact ⟨DeclaredType.propertyName?_of_readKey? key hkey hp.1, ih (h.entry he) hp.2⟩
  | set element ih => exact absurd List.mem_cons_self (h.noSet element)
  | optional inner ih =>
    obtain ⟨hdepth, ⟨rfl, rfl⟩ | ⟨rfl, rfl⟩ | ⟨-, hn⟩⟩ := fromScriptAt_optional_iff.1 hn
    · exact .of_becomes (fun d hd => Native.Value.becomes_undefined hd) rfl hdepth
    · exact .of_becomes (fun d hd => Native.Value.becomes_null hd) rfl hdepth
    · exact ih h.optional hn

/-- **Converting to native and back.** A restorable value that a reachable bridge converts comes
back equal to what it was, and the bridge is what it was. -/
theorem toScript_fromScript (b : Bridge) (hb : b.Reachable) (v : Script.Value) (t : DeclaredType)
    (index : Nat) (n : Native.Value) (h : b.Restorable t v)
    (hn : b.fromScript v t index = .ok n) :
    ∃ v', b.toScript n = (.ok v', b) ∧ (v' == v) = true :=
  returns_of_fromScriptAt hb.faithful t h hn 0 (Nat.zero_le _)

/-- A bridge on which one instance has a wrapper. -/
def oneNode : Bridge :=
  let b := (({} : Bridge).defineClass { name := "Node" }).2
  let (o, b) := b.create "Node" (.word 1)
  (b.wrap o).2

theorem reachable_oneNode : oneNode.Reachable := by
  refine ⟨{}, ?_⟩
  have start : Run ({} : Bridge) {} := Relation.ReflTransGen.refl
  have made := (start.tail ⟨0, .defineClass { name := "Node" }⟩).tail
    ⟨0, .ask (.create "Node" (.word 1))⟩
  exact made.tail ⟨0, .ask (.wrap ⟨"Node", ⟨0⟩⟩)⟩

/-- A wrapper under an integer and a double under a boolean. -/
theorem toScript_fromScript_map :
    let nodes : Script.Value :=
      .map [(.ofString "7", .wrapper ⟨0, 0⟩), (.ofString "true", .float (.ofInt 2))]
    let type : DeclaredType :=
      .map (.variant [.integer, .bool]) (.variant [.object "Node", .integer])
    let converted : Native.Value :=
      .map [(.variant 0 (.integer 7), .variant 0 (.object ⟨"Node", ⟨0⟩⟩)),
        (.variant 1 (.bool true), .variant 1 (.integer 2))]
    oneNode.Reachable ∧ oneNode.Restorable type nodes ∧
      oneNode.fromScript nodes type 0 = .ok converted ∧
      ∃ v, oneNode.toScript converted = (.ok v, oneNode) ∧ (v == nodes) = true := by
  intro nodes type converted
  have hrestorable : oneNode.Restorable type nodes := by
    constructor
    · simp [type, DeclaredType.parts, DeclaredType.partsOfItems]
    · simp [type, DeclaredType.parts, DeclaredType.partsOfItems]
    · simp [nodes, Script.Value.parts, Script.Value.partsOfEntries, Binary64.isNaN_ofInt]
    · intro key value es hes
      simp only [type, nodes] at hes
      cases hes with
      | self => decide
      | entry he hes =>
        cases hes with
        | @alternative _ _ _ k _ _ _ _ _ ht _ hes =>
          rcases k with _ | _ | k
          · obtain rfl := Option.some.inj ht
            cases hes
          · obtain rfl := Option.some.inj ht
            cases hes
          · cases ht
    · exact .inl (by simp [type, DeclaredType.parts, DeclaredType.partsOfItems])
  have hconverted : oneNode.fromScript nodes type 0 = .ok converted := rfl
  exact ⟨reachable_oneNode, hrestorable, hconverted,
    toScript_fromScript oneNode reachable_oneNode nodes type 0 converted hrestorable hconverted⟩

end Bridge
end ScriptBridge
