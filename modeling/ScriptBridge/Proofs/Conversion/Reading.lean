import ScriptBridge.Conversion.FromScript
import ScriptBridge.Proofs.Sequences

/-! # What a conversion from script answers

For every type, when a value is converted under it and to what, told by the conversions of the
parts. What follows about conversions looks at these facts and never into the conversion itself.
-/

namespace ScriptBridge
set_option autoImplicit false

/-! ## Scalars -/

/-- The type is not built of others. -/
def DeclaredType.isScalar : DeclaredType → Bool
  | tuple _ | variant _ | list _ | map _ _ | set _ | optional _ => false
  | _ => true

namespace Script.Value

/-- A number holds an integer as the integer or as a double of that value. -/
theorem integer?_eq_some_iff {v : Value} {i : Int64} : v.integer? = some i ↔
    v = .int i ∨ ∃ x z, v = .float x ∧ x.toInt? = some z ∧ Number.toInt64? z = some i := by
  cases v <;> simp [integer?, Option.bind_eq_some_iff]

theorem number?_eq_some_iff {v : Value} {x : Binary64} : v.number? = some x ↔
    (∃ i, v = .int i ∧ Binary64.ofInt i.toInt = x) ∨ v = .float x := by
  cases v <;> simp [number?]

end Script.Value

namespace Bridge

variable {b : Bridge} {index depth : Nat} {v : Script.Value} {n : Native.Value}
  {t key value element inner : DeclaredType} {types alternatives : List DeclaredType}

theorem within_eq_ok_iff {x : Except BridgeError Native.Value} :
    b.within index depth x = .ok n ↔ depth ≤ b.options.maxDepth ∧ x = .ok n := by
  unfold within
  split
  · simp only [throw_ne_ok, false_iff, not_and]
    omega
  · simp only [iff_and_self]
    omega

/-! ## Types without parts -/

theorem fromScriptAt_any_iff : b.fromScriptAt index .any depth v = .ok n ↔
    depth ≤ b.options.maxDepth ∧ .script v = n :=
  within_eq_ok_iff.trans (and_congr_right fun _ => pure_eq_ok_iff)

theorem fromScriptAt_null_iff : b.fromScriptAt index .null depth v = .ok n ↔
    depth ≤ b.options.maxDepth ∧ v.isNullish ∧ .null = n := by
  refine within_eq_ok_iff.trans (and_congr_right fun _ => ?_)
  cases v.isNullish <;> simp [pure_eq_ok_iff, throw_ne_ok]

theorem fromScriptAt_bool_iff : b.fromScriptAt index .bool depth v = .ok n ↔
    depth ≤ b.options.maxDepth ∧ ∃ x, v = .bool x ∧ .bool x = n := by
  refine within_eq_ok_iff.trans (and_congr_right fun _ => ?_)
  cases v <;> simp [Script.Value.bool?, pure_eq_ok_iff, throw_ne_ok]

theorem fromScriptAt_integer_iff : b.fromScriptAt index .integer depth v = .ok n ↔
    depth ≤ b.options.maxDepth ∧ ∃ i, v.integer? = some i ∧ .integer i = n := by
  refine within_eq_ok_iff.trans (and_congr_right fun _ => ?_)
  cases v.integer? <;> simp [pure_eq_ok_iff, throw_ne_ok]

theorem fromScriptAt_bounded_iff {name : String} {min max : Int64} :
    b.fromScriptAt index (.bounded name min max) depth v = .ok n ↔
      depth ≤ b.options.maxDepth ∧
        ∃ i, v.integer? = some i ∧ (min ≤ i ∧ i ≤ max) ∧ .integer i = n := by
  refine within_eq_ok_iff.trans (and_congr_right fun _ => ?_)
  cases v.integer? with
  | none => simp [throw_ne_ok]
  | some i =>
    by_cases hi : min ≤ i ∧ i ≤ max <;> simp [Option.filter, pure_eq_ok_iff, throw_ne_ok, hi]

theorem fromScriptAt_number_iff : b.fromScriptAt index .number depth v = .ok n ↔
    depth ≤ b.options.maxDepth ∧ ∃ x, v.number? = some x ∧ .number x = n := by
  refine within_eq_ok_iff.trans (and_congr_right fun _ => ?_)
  cases v.number? <;> simp [pure_eq_ok_iff, throw_ne_ok]

theorem fromScriptAt_string_iff : b.fromScriptAt index .string depth v = .ok n ↔
    depth ≤ b.options.maxDepth ∧
      ∃ s text, v = .string s ∧ s.toString? = some text ∧ .string text = n := by
  refine within_eq_ok_iff.trans (and_congr_right fun _ => ?_)
  cases v with
  | string s => cases htext : s.toString? <;> simp [pure_eq_ok_iff, throw_ne_ok, htext]
  | _ => simp [throw_ne_ok]

theorem fromScriptAt_u16string_iff : b.fromScriptAt index .u16string depth v = .ok n ↔
    depth ≤ b.options.maxDepth ∧ ∃ s, v = .string s ∧ .u16string s = n := by
  refine within_eq_ok_iff.trans (and_congr_right fun _ => ?_)
  cases v <;> simp [pure_eq_ok_iff, throw_ne_ok]

theorem fromScriptAt_symbol_iff : b.fromScriptAt index .symbol depth v = .ok n ↔
    depth ≤ b.options.maxDepth ∧ ∃ s, v = .symbol s ∧ .symbol s = n := by
  refine within_eq_ok_iff.trans (and_congr_right fun _ => ?_)
  cases v <;> simp [pure_eq_ok_iff, throw_ne_ok]

theorem fromScriptAt_object_iff {className : String} :
    b.fromScriptAt index (.object className) depth v = .ok n ↔
      depth ≤ b.options.maxDepth ∧
        ∃ o, b.nativeOf v = some o ∧ b.classes.isA o.className className ∧ .object o = n := by
  refine within_eq_ok_iff.trans (and_congr_right fun _ => ?_)
  cases b.nativeOf v with
  | none => simp [throw_ne_ok]
  | some o =>
    by_cases ho : b.classes.isA o.className className <;> simp [pure_eq_ok_iff, throw_ne_ok, ho]

theorem fromScriptAt_function_iff : b.fromScriptAt index .function depth v = .ok n ↔
    depth ≤ b.options.maxDepth ∧ ∃ id, v = .function id ∧ .function id = n := by
  refine within_eq_ok_iff.trans (and_congr_right fun _ => ?_)
  cases v <;> simp [pure_eq_ok_iff, throw_ne_ok]

/-- How a value is read under a type that is not built of others. -/
inductive Reads (b : Bridge) : DeclaredType → Script.Value → Native.Value → Prop where
  | any (v : Script.Value) : Reads b .any v (.script v)
  | null {v : Script.Value} : v.isNullish → Reads b .null v .null
  | bool (x : Bool) : Reads b .bool (.bool x) (.bool x)
  | integer {v : Script.Value} {i : Int64} : v.integer? = some i → Reads b .integer v (.integer i)
  | bounded {v : Script.Value} {i : Int64} (name : String) {min max : Int64} :
      v.integer? = some i → min ≤ i ∧ i ≤ max → Reads b (.bounded name min max) v (.integer i)
  | number {v : Script.Value} {x : Binary64} : v.number? = some x → Reads b .number v (.number x)
  | string {s : Utf16} {text : String} :
      s.toString? = some text → Reads b .string (.string s) (.string text)
  | u16string (s : Utf16) : Reads b .u16string (.string s) (.u16string s)
  | symbol (s : Symbol) : Reads b .symbol (.symbol s) (.symbol s)
  | object {v : Script.Value} {o : InstanceHandle} {className : String} : b.nativeOf v = some o →
      b.classes.isA o.className className → Reads b (.object className) v (.object o)
  | function (id : ObjectId) : Reads b .function (.function id) (.function id)

theorem reads_of_fromScriptAt (ht : t.isScalar) (hn : b.fromScriptAt index t depth v = .ok n) :
    depth ≤ b.options.maxDepth ∧ b.Reads t v n := by
  cases t with
  | any =>
    obtain ⟨hdepth, rfl⟩ := fromScriptAt_any_iff.1 hn
    exact ⟨hdepth, .any v⟩
  | null =>
    obtain ⟨hdepth, hv, rfl⟩ := fromScriptAt_null_iff.1 hn
    exact ⟨hdepth, .null hv⟩
  | bool =>
    obtain ⟨hdepth, x, rfl, rfl⟩ := fromScriptAt_bool_iff.1 hn
    exact ⟨hdepth, .bool x⟩
  | integer =>
    obtain ⟨hdepth, i, hi, rfl⟩ := fromScriptAt_integer_iff.1 hn
    exact ⟨hdepth, .integer hi⟩
  | bounded name min max =>
    obtain ⟨hdepth, i, hi, hbounds, rfl⟩ := fromScriptAt_bounded_iff.1 hn
    exact ⟨hdepth, .bounded name hi hbounds⟩
  | number =>
    obtain ⟨hdepth, x, hx, rfl⟩ := fromScriptAt_number_iff.1 hn
    exact ⟨hdepth, .number hx⟩
  | string =>
    obtain ⟨hdepth, s, text, rfl, htext, rfl⟩ := fromScriptAt_string_iff.1 hn
    exact ⟨hdepth, .string htext⟩
  | u16string =>
    obtain ⟨hdepth, s, rfl, rfl⟩ := fromScriptAt_u16string_iff.1 hn
    exact ⟨hdepth, .u16string s⟩
  | symbol =>
    obtain ⟨hdepth, s, rfl, rfl⟩ := fromScriptAt_symbol_iff.1 hn
    exact ⟨hdepth, .symbol s⟩
  | object className =>
    obtain ⟨hdepth, o, ho, hclass, rfl⟩ := fromScriptAt_object_iff.1 hn
    exact ⟨hdepth, .object ho hclass⟩
  | function =>
    obtain ⟨hdepth, id, rfl, rfl⟩ := fromScriptAt_function_iff.1 hn
    exact ⟨hdepth, .function id⟩
  | tuple | variant | list | map | set | optional => cases ht

/-! ## Containers -/

theorem fromScriptAt_list_iff : b.fromScriptAt index (.list element) depth v = .ok n ↔
    depth ≤ b.options.maxDepth ∧ ∃ items ns, v = .array items ∧
      List.Forall₂ (fun item n => b.fromScriptAt index element (depth + 1) item = .ok n)
        items ns ∧ .list ns = n := by
  refine within_eq_ok_iff.trans (and_congr_right fun _ => ?_)
  cases v <;> simp [map_eq_ok_iff, throw_ne_ok, mapM_eq_ok_iff]

theorem fromScriptAt_set_iff : b.fromScriptAt index (.set element) depth v = .ok n ↔
    depth ≤ b.options.maxDepth ∧ ∃ items ns, v = .array items ∧
      Conversion.distinctItems (b.fromScriptAt index element (depth + 1)) [] items = .ok ns ∧
        .set ns = n := by
  refine within_eq_ok_iff.trans (and_congr_right fun _ => ?_)
  cases v <;> simp [map_eq_ok_iff, throw_ne_ok]

theorem exists_of_mem_distinctItems {convert : Script.Value → Except BridgeError Native.Value}
    {seen items : List Script.Value} {ns : List Native.Value}
    (h : Conversion.distinctItems convert seen items = .ok ns) :
    ∀ n ∈ ns, ∃ item ∈ items, convert item = .ok n := by
  induction items generalizing seen ns with
  | nil =>
    obtain rfl := pure_eq_ok_iff.1 h
    simp
  | cons item rest ih =>
    unfold Conversion.distinctItems at h
    split at h
    · intro n hn
      obtain ⟨item', hitem', hn'⟩ := ih h n hn
      exact ⟨item', List.mem_cons_of_mem item hitem', hn'⟩
    · simp only [bind_eq_ok_iff, pure_eq_ok_iff] at h
      obtain ⟨n₀, hn₀, ns', hns', rfl⟩ := h
      intro n hn
      rcases List.mem_cons.1 hn with rfl | hn
      · exact ⟨item, List.mem_cons_self, hn₀⟩
      · obtain ⟨item', hitem', hn'⟩ := ih hns' n hn
        exact ⟨item', List.mem_cons_of_mem item hitem', hn'⟩

theorem distinctItems_of_pairwise {convert : Script.Value → Except BridgeError Native.Value}
    {seen items : List Script.Value} {ns : List Native.Value}
    (hdistinct : (seen ++ items).Pairwise fun v w => v.same w = false)
    (h : List.Forall₂ (fun item n => convert item = .ok n) items ns) :
    Conversion.distinctItems convert seen items = .ok ns := by
  induction h generalizing seen with
  | nil => rfl
  | @cons item n items ns hn _ ih =>
    have hnew : ¬ (seen.any fun v => v == item) := by
      simp only [List.any_eq_true, not_exists, not_and, Bool.not_eq_true]
      intro v hv
      exact (List.pairwise_append.1 hdistinct).2.2 v hv item List.mem_cons_self
    rw [List.append_cons seen item items] at hdistinct
    unfold Conversion.distinctItems
    rw [if_neg hnew]
    exact bind_eq_ok_iff.2 ⟨n, hn, bind_eq_ok_iff.2 ⟨ns, ih hdistinct, rfl⟩⟩

theorem entries_eq_ok_iff {convert : Script.Value → Except BridgeError Native.Value}
    {es : List (Utf16 × Script.Value)} {ps : List (Native.Value × Native.Value)} :
    Conversion.entries convert index key es = .ok ps ↔
      List.Forall₂ (fun e p => key.readKey? e.1 = some p.1 ∧ convert e.2 = .ok p.2) es ps := by
  induction es generalizing ps with
  | nil => cases ps <;> simp [Conversion.entries, pure_eq_ok_iff]
  | cons e rest ih =>
    unfold Conversion.entries
    cases hk : key.readKey? e.1 with
    | none => cases ps <;> simp [throw_ne_ok, hk]
    | some k =>
      cases ps with
      | nil => simp [bind_eq_ok_iff, map_eq_ok_iff]
      | cons p ps =>
        obtain ⟨k', n⟩ := p
        simp only [bind_eq_ok_iff, pure_eq_ok_iff, List.forall₂_cons, ← ih, hk]
        constructor
        · rintro ⟨n', hn, ps', hps, heq⟩
          cases heq
          exact ⟨⟨rfl, hn⟩, hps⟩
        · rintro ⟨⟨hk', hn⟩, hps⟩
          obtain rfl := Option.some.inj hk'
          exact ⟨n, hn, ps, hps, rfl⟩

theorem fromScriptAt_map_iff : b.fromScriptAt index (.map key value) depth v = .ok n ↔
    depth ≤ b.options.maxDepth ∧ ∃ es ps, v = .map es ∧
      List.Forall₂ (fun e p => key.readKey? e.1 = some p.1 ∧
        b.fromScriptAt index value (depth + 1) e.2 = .ok p.2) es ps ∧ .map ps = n := by
  refine within_eq_ok_iff.trans (and_congr_right fun _ => ?_)
  cases v <;> simp [map_eq_ok_iff, throw_ne_ok, entries_eq_ok_iff]

theorem fromScriptAt_tuple_iff : b.fromScriptAt index (.tuple types) depth v = .ok n ↔
    depth ≤ b.options.maxDepth ∧ ∃ items ns, v = .array items ∧ items.length = types.length ∧
      b.componentsFromScript index types (depth + 1) items = .ok ns ∧ .tuple ns = n := by
  refine within_eq_ok_iff.trans (and_congr_right fun _ => ?_)
  cases v with
  | array items =>
    by_cases hlen : items.length = types.length <;> simp [map_eq_ok_iff, throw_ne_ok, hlen]
  | _ => simp [throw_ne_ok]

theorem componentsFromScript_cons_iff {item : Script.Value} {items : List Script.Value}
    {ns : List Native.Value} :
    b.componentsFromScript index (t :: types) depth (item :: items) = .ok ns ↔
      ∃ n ns', b.fromScriptAt index t depth item = .ok n ∧
        b.componentsFromScript index types depth items = .ok ns' ∧ n :: ns' = ns := by
  refine bind_eq_ok_iff.trans (exists_congr fun n => ?_)
  simp [map_eq_ok_iff]

theorem forall₂_of_componentsFromScript {items : List Script.Value} {ns : List Native.Value}
    (hlen : items.length = types.length)
    (h : b.componentsFromScript index types depth items = .ok ns)
    {R : Script.Value → Native.Value → Prop}
    (hR : ∀ (k : Nat) t item n, types[k]? = some t → items[k]? = some item →
      b.fromScriptAt index t depth item = .ok n → R item n) : List.Forall₂ R items ns := by
  induction types generalizing items ns with
  | nil =>
    obtain rfl := List.eq_nil_of_length_eq_zero hlen
    obtain rfl := pure_eq_ok_iff.1 h
    exact .nil
  | cons t types ih =>
    obtain ⟨item, items, rfl⟩ := List.exists_cons_of_length_eq_add_one hlen
    obtain ⟨n, ns, hn, hns, rfl⟩ := componentsFromScript_cons_iff.1 h
    refine .cons (hR 0 t item n rfl rfl hn) (ih (Nat.succ.inj hlen) hns ?_)
    exact fun k t' item' n' ht' hitem' => hR (k + 1) t' item' n' ht' hitem'

/-! ## Optionals and variants -/

theorem fromScriptAt_optional_iff : b.fromScriptAt index (.optional inner) depth v = .ok n ↔
    depth ≤ b.options.maxDepth ∧ (v = .undefined ∧ .undefined = n ∨ v = .null ∧ .null = n ∨
      v.isNullish = false ∧ b.fromScriptAt index inner depth v = .ok n) := by
  refine within_eq_ok_iff.trans (and_congr_right fun _ => ?_)
  cases v <;> simp [pure_eq_ok_iff, Script.Value.isNullish]

theorem alternativeFromScript_eq_ok {number : Nat} {fail : BridgeError}
    (h : b.alternativeFromScript index alternatives number fail depth v = .ok n) :
    ∃ k t n', n = .variant (number + k) n' ∧ alternatives[k]? = some t ∧
      b.fromScriptAt index t depth v = .ok n' := by
  induction alternatives generalizing number with
  | nil => cases h
  | cons t rest ih =>
    unfold alternativeFromScript at h
    split at h
    next n' hn' =>
      rw [pure_eq_ok_iff] at h
      exact ⟨0, t, n', h.symm, rfl, hn'⟩
    · cases h
    · obtain ⟨k, t', n', hn, ht', hn'⟩ := ih h
      exact ⟨k + 1, t', n', by rw [hn, Nat.add_assoc, Nat.add_comm 1], ht', hn'⟩

/-- A variant takes the value as one of its alternatives does. -/
theorem fromScriptAt_variant (h : b.fromScriptAt index (.variant alternatives) depth v = .ok n) :
    depth ≤ b.options.maxDepth ∧ ∃ k t n', n = .variant k n' ∧ alternatives[k]? = some t ∧
      b.fromScriptAt index t (depth + 1) v = .ok n' := by
  obtain ⟨hdepth, h⟩ := within_eq_ok_iff.1 h
  obtain ⟨k, t, n', hn, ht, hn'⟩ := alternativeFromScript_eq_ok h
  exact ⟨hdepth, k, t, n', by rw [hn, Nat.zero_add], ht, hn'⟩

end Bridge
end ScriptBridge
