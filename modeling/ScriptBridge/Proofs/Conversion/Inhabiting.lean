import Mathlib.Order.Bounds.Defs
import ScriptBridge.Proofs.Bridge.Definitions
import ScriptBridge.Proofs.Bridge.Lifetimes
import ScriptBridge.Proofs.Conversion.Failures
import ScriptBridge.Proofs.Conversion.Forms
import ScriptBridge.Proofs.Conversion.Numbers
import ScriptBridge.Proofs.Conversion.Repeats
import ScriptBridge.Proofs.Number.Values

/-! # The values of a type

Which script values a declared type has is told by recursion on the type, with no word about how they
are converted: `Bridge.Inhabits`. Conversion accepts these values and no others, as long as the type
is not nested deeper than the limit, and a variant takes the first alternative that has the value.

* `Bridge.exists_fromScriptAt_iff` goes through the types once.
* `Bridge.variant_isLeast` is the alternative that a variant takes, and `Conversion.Part` leads to
  the variants further down.
* `Bridge.fromScript_iff_inhabits` is the result.
-/

namespace ScriptBridge
set_option autoImplicit false

/-- The value is a number that is the integer: the integer itself, or a double of its value. -/
def Script.Value.IsInteger (v : Script.Value) (i : Int64) : Prop :=
  v = .int i ∨ ∃ x, v = .float x ∧ x.isFinite ∧ x.value = i.toInt

theorem Script.Value.integer?_iff_isInteger {v : Script.Value} {i : Int64} :
    v.integer? = some i ↔ v.IsInteger i := by
  simp only [integer?_eq_some_iff, IsInteger, Binary64.toInt?_eq_some_iff,
    Number.toInt64?_eq_some_iff]
  refine or_congr_right ⟨?_, ?_⟩
  · rintro ⟨x, _, rfl, ⟨hfinite, hvalue⟩, rfl⟩
    exact ⟨x, rfl, hfinite, hvalue⟩
  · rintro ⟨x, rfl, hfinite, hvalue⟩
    exact ⟨x, _, rfl, ⟨hfinite, hvalue⟩, rfl⟩

namespace Bridge

/-- The value is a wrapper that is alive, and the instance that is registered for it is of the
class. -/
def IsInstance (b : Bridge) (className : String) (v : Script.Value) : Prop :=
  ∃ w o, v = .wrapper w ∧ b.isAlive w ∧ b.registry.native? w = some o ∧
    b.classes.Derives o.className className

mutual

/-- The value is one of the type. -/
def Inhabits (b : Bridge) : DeclaredType → Script.Value → Prop
  | .any, _ => True
  | .null, v => v = .undefined ∨ v = .null
  | .bool, v => ∃ x, v = .bool x
  | .integer, v => ∃ i, v.IsInteger i
  | .bounded _ min max, v => ∃ i, v.IsInteger i ∧ min ≤ i ∧ i ≤ max
  | .number, v => (∃ i, v = .int i) ∨ ∃ x, v = .float x
  | .string, v => ∃ text, v = .text text
  | .u16string, v => ∃ s, v = .string s
  | .symbol, v => ∃ s, v = .symbol s
  | .tuple types, v => ∃ items, v = .array items ∧ b.InhabitEach types items
  | .variant alternatives, v => b.InhabitsSome alternatives v
  | .list element, v => ∃ items, v = .array items ∧ ∀ item ∈ items, b.Inhabits element item
  | .map key value, v => ∃ es, v = .map es ∧ ∀ e ∈ es, key.HasKey e.1 ∧ b.Inhabits value e.2
  -- An item equal to one that was kept before it is left out.
  | .set element, v =>
    ∃ items, v = .array items ∧ ∀ item ∈ Script.Value.fresh [] items, b.Inhabits element item
  | .optional inner, v => v = .undefined ∨ v = .null ∨ b.Inhabits inner v
  | .object className, v => b.IsInstance className v
  | .function, v => ∃ id, v = .function id

/-- As many values as types, each of the type in its place. -/
def InhabitEach (b : Bridge) : List DeclaredType → List Script.Value → Prop
  | [], [] => True
  | t :: types, item :: items => b.Inhabits t item ∧ b.InhabitEach types items
  | _, _ => False

def InhabitsSome (b : Bridge) : List DeclaredType → Script.Value → Prop
  | [], _ => False
  | t :: rest, v => b.Inhabits t v ∨ b.InhabitsSome rest v

end

variable {b : Bridge} {index depth : Nat} {v : Script.Value} {n : Native.Value}
  {t : DeclaredType} {types alternatives : List DeclaredType}

theorem inhabitEach_iff {items : List Script.Value} :
    b.InhabitEach types items ↔ List.Forall₂ b.Inhabits types items := by
  induction types generalizing items with
  | nil => cases items <;> simp [InhabitEach]
  | cons t types ih => cases items <;> simp [InhabitEach, ih]

theorem inhabitsSome_iff :
    b.InhabitsSome alternatives v ↔ ∃ t ∈ alternatives, b.Inhabits t v := by
  induction alternatives with
  | nil => simp [InhabitsSome]
  | cons t rest ih => simp [InhabitsSome, ih]

/-! ## Scalars and instances -/

theorem exists_nativeOf_iff (h : b.classes.Sound) {className : String} :
    (∃ o, b.nativeOf v = some o ∧ b.classes.isA o.className className) ↔
      b.IsInstance className v := by
  simp only [h.isA_iff, IsInstance]
  cases v with
  | wrapper w => simp [nativeOf_eq_some_iff, and_assoc]
  | _ => simp [nativeOf]

/-! ## Containers and variants -/

theorem exists_componentsFromScript_iff {items : List Script.Value}
    (hlen : items.length = types.length)
    (h : ∀ t ∈ types, ∀ v, (∃ n, b.fromScriptAt index t depth v = .ok n) ↔ b.Inhabits t v) :
    (∃ ns, b.componentsFromScript index types depth items = .ok ns) ↔ b.InhabitEach types items := by
  induction types generalizing items with
  | nil =>
    obtain rfl := List.eq_nil_of_length_eq_zero hlen
    exact iff_of_true ⟨[], rfl⟩ trivial
  | cons t types ih =>
    obtain ⟨item, items, rfl⟩ := List.exists_cons_of_length_eq_add_one hlen
    obtain ⟨ht, htypes⟩ := List.forall_mem_cons.1 h
    rw [InhabitEach, ← ht, ← ih (Nat.succ.inj hlen) htypes]
    simp only [componentsFromScript_cons_iff]
    constructor
    · rintro ⟨_, n, ns, hn, hns, -⟩
      exact ⟨⟨n, hn⟩, ns, hns⟩
    · rintro ⟨⟨n, hn⟩, ns, hns⟩
      exact ⟨n :: ns, n, ns, hn, hns, rfl⟩

/-- An array is converted if every item of it that is kept is. -/
theorem exists_array_iff {R : Script.Value → Native.Value → Prop}
    {kept : List Script.Value → List Script.Value} {build : List Native.Value → Native.Value} :
    (∃ n items ns, v = .array items ∧ List.Forall₂ R (kept items) ns ∧ build ns = n) ↔
      ∃ items, v = .array items ∧ ∀ item ∈ kept items, ∃ n, R item n := by
  constructor
  · rintro ⟨_, items, ns, rfl, hns, -⟩
    exact ⟨items, rfl, exists_forall₂_iff.1 ⟨ns, hns⟩⟩
  · rintro ⟨items, rfl, hitems⟩
    obtain ⟨ns, hns⟩ := exists_forall₂_iff.2 hitems
    exact ⟨_, items, ns, rfl, hns, rfl⟩

/-- One alternative that takes a value is the first of those that do. -/
theorem exists_variant_iff (hdepth : depth ≤ b.options.maxDepth)
    (hbelow : ∀ t ∈ alternatives, ∀ i limit,
      b.fromScriptAt index t (depth + 1) v ≠ .error (.depth i limit)) :
    (∃ n, b.fromScriptAt index (.variant alternatives) depth v = .ok n) ↔
      ∃ t ∈ alternatives, ∃ n, b.fromScriptAt index t (depth + 1) v = .ok n := by
  simp only [fromScriptAt_variant_iff, hdepth, true_and]
  constructor
  · rintro ⟨_, before, t, after, n, rfl, -, hn, -⟩
    exact ⟨t, List.mem_append_right before List.mem_cons_self, n, hn⟩
  · rintro ⟨t, ht, hn⟩
    classical
    let takes (t : DeclaredType) : Bool := ∃ n, b.fromScriptAt index t (depth + 1) v = .ok n
    have hsome : (alternatives.find? takes).isSome :=
      List.find?_isSome.2 ⟨t, ht, decide_eq_true hn⟩
    obtain ⟨t, hfirst⟩ := Option.isSome_iff_exists.1 hsome
    obtain ⟨hn, before, after, rfl, hbefore⟩ := List.find?_eq_some_iff_append.1 hfirst
    obtain ⟨n, hn⟩ := of_decide_eq_true hn
    refine ⟨_, before, t, after, n, rfl, rfl, hn, fun t' ht' => ?_⟩
    have hnot : ∀ n, b.fromScriptAt index t' (depth + 1) v ≠ .ok n := by
      simpa [takes] using hbefore t' ht'
    cases herr : b.fromScriptAt index t' (depth + 1) v with
    | ok n' => exact absurd herr (hnot n')
    | error err =>
      refine ⟨err, herr, ?_⟩
      rintro i limit rfl
      exact hbelow t' (List.mem_append_left _ ht') i limit herr

theorem below {n : Nat} (h : depth + (n + 1) ≤ b.options.maxDepth) :
    depth + 1 + n ≤ b.options.maxDepth := by
  rw [Nat.add_right_comm]
  exact h

theorem below_of_mem (h : depth + (DeclaredType.nestingOfItems types + 1) ≤ b.options.maxDepth)
    (ht : t ∈ types) : depth + 1 + t.nesting ≤ b.options.maxDepth :=
  Nat.le_trans (Nat.add_le_add_left (DeclaredType.nesting_le_of_mem ht) _) (below h)

/-- **Conversion accepts the values of a type and no others**, by induction on the type. -/
theorem exists_fromScriptAt_iff (hsound : b.classes.Sound) (index : Nat) (t : DeclaredType)
    {depth : Nat} (hdepth : depth + t.nesting ≤ b.options.maxDepth) (v : Script.Value) :
    (∃ n, b.fromScriptAt index t depth v = .ok n) ↔ b.Inhabits t v := by
  have hwithin {depth n : Nat} (h : depth + n ≤ b.options.maxDepth) :
      depth ≤ b.options.maxDepth := Nat.le_of_add_right_le h
  induction t using DeclaredType.inductionOn generalizing depth v with
  | any => simp [fromScriptAt_any_iff, hwithin hdepth, Inhabits]
  | null =>
    cases v <;> simp [fromScriptAt_null_iff, hwithin hdepth, Inhabits, Script.Value.isNullish]
  | bool => cases v <;> simp [fromScriptAt_bool_iff, hwithin hdepth, Inhabits]
  | integer =>
    simp [fromScriptAt_integer_iff, hwithin hdepth, Inhabits,
      Script.Value.integer?_iff_isInteger]
  | bounded name min max =>
    simp [fromScriptAt_bounded_iff, hwithin hdepth, Inhabits,
      Script.Value.integer?_iff_isInteger]
  | number =>
    cases v <;> simp [fromScriptAt_number_iff, hwithin hdepth, Inhabits, Script.Value.number?]
  | string =>
    simp only [fromScriptAt_string_iff, hwithin hdepth, true_and, Inhabits,
      Utf16.toString?_eq_some_iff]
    constructor
    · rintro ⟨_, _, text, rfl, rfl, -⟩
      exact ⟨text, rfl⟩
    · rintro ⟨text, rfl⟩
      exact ⟨_, _, text, rfl, rfl, rfl⟩
  | u16string => simp [fromScriptAt_u16string_iff, hwithin hdepth, Inhabits]
  | symbol => simp [fromScriptAt_symbol_iff, hwithin hdepth, Inhabits]
  | function => simp [fromScriptAt_function_iff, hwithin hdepth, Inhabits]
  | object className =>
    rw [Inhabits, ← exists_nativeOf_iff hsound]
    simp [fromScriptAt_object_iff, hwithin hdepth]
  | tuple types ih =>
    have hcomponents := fun t ht v => ih t ht (below_of_mem hdepth ht) v
    simp only [fromScriptAt_tuple_iff, hwithin hdepth, true_and, Inhabits]
    constructor
    · rintro ⟨_, items, ns, rfl, hlen, hns, -⟩
      exact ⟨items, rfl, (exists_componentsFromScript_iff hlen hcomponents).1 ⟨ns, hns⟩⟩
    · rintro ⟨items, rfl, heach⟩
      have hlen : items.length = types.length := (inhabitEach_iff.1 heach).length_eq.symm
      obtain ⟨ns, hns⟩ := (exists_componentsFromScript_iff hlen hcomponents).2 heach
      exact ⟨_, items, ns, rfl, hlen, hns, rfl⟩
  | variant alternatives ih =>
    rw [Inhabits, inhabitsSome_iff, exists_variant_iff (hwithin hdepth)
      fun t ht => fromScriptAt_ne_depth (below_of_mem hdepth ht)]
    exact exists_congr fun t => and_congr_right fun ht => ih t ht (below_of_mem hdepth ht) v
  | list element ih =>
    simp only [fromScriptAt_list_iff, hwithin hdepth, true_and, Inhabits, ← ih (below hdepth)]
    exact exists_array_iff
  | set element ih =>
    simp only [fromScriptAt_set_iff_fresh, hwithin hdepth, true_and, Inhabits,
      ← ih (below hdepth)]
    exact exists_array_iff
  | map key value ih =>
    simp only [fromScriptAt_map_iff, hwithin hdepth, true_and, Inhabits, ← ih (below hdepth),
      ← DeclaredType.exists_readKey?_iff]
    constructor
    · rintro ⟨_, es, ps, rfl, hps, -⟩
      refine ⟨es, rfl, fun e he => ?_⟩
      obtain ⟨p, hk, hn⟩ := exists_forall₂_iff.1 ⟨ps, hps⟩ e he
      exact ⟨⟨p.1, hk⟩, p.2, hn⟩
    · rintro ⟨es, rfl, hes⟩
      have hpairs : ∀ e ∈ es, ∃ p : Native.Value × Native.Value, key.readKey? e.1 = some p.1 ∧
          b.fromScriptAt index value (depth + 1) e.2 = .ok p.2 := by
        intro e he
        obtain ⟨⟨k, hk⟩, n, hn⟩ := hes e he
        exact ⟨(k, n), hk, hn⟩
      obtain ⟨ps, hps⟩ := exists_forall₂_iff.2 hpairs
      exact ⟨_, es, ps, rfl, hps, rfl⟩
  | optional inner ih =>
    simp only [fromScriptAt_optional_iff, hwithin hdepth, true_and, Inhabits, ← ih hdepth]
    cases v <;> simp [Script.Value.isNullish]

/-! ## The alternative of a variant -/

/-- **A variant carries the least index whose alternative the value inhabits.** -/
theorem variant_isLeast (hsound : b.classes.Sound)
    (hdepth : depth + (DeclaredType.variant alternatives).nesting ≤ b.options.maxDepth)
    (h : b.fromScriptAt index (.variant alternatives) depth v = .ok n) :
    ∃ k n', n = .variant k n' ∧
      IsLeast {k | ∃ t, alternatives[k]? = some t ∧ b.Inhabits t v} k := by
  obtain ⟨-, before, t, after, n', rfl, rfl, hn', hbefore⟩ := fromScriptAt_variant_iff.1 h
  have htakes : ∀ t' ∈ before ++ t :: after,
      (∃ n, b.fromScriptAt index t' (depth + 1) v = .ok n) ↔ b.Inhabits t' v :=
    fun t' ht' => exists_fromScriptAt_iff hsound index t' (below_of_mem hdepth ht') v
  refine ⟨before.length, n', rfl, ⟨t, by simp, ?_⟩, ?_⟩
  · exact (htakes t (by simp)).1 ⟨n', hn'⟩
  · rintro k ⟨t', ht', hinhabits⟩
    by_contra hlt
    rw [List.getElem?_append_left (Nat.not_le.1 hlt)] at ht'
    have hmem := List.mem_of_getElem? ht'
    obtain ⟨n'', hn''⟩ := (htakes t' (List.mem_append_left _ hmem)).2 hinhabits
    obtain ⟨err, herr, -⟩ := hbefore t' hmem
    rw [hn''] at herr
    cases herr

end Bridge

/-- `Part t v n t' v' n'`: where `v` is converted under `t` to `n`, there `v'`, at some place in
`v`, is converted under `t'` to `n'`. -/
inductive Conversion.Part : DeclaredType → Script.Value → Native.Value →
    DeclaredType → Script.Value → Native.Value → Prop where
  | self (t : DeclaredType) (v : Script.Value) (n : Native.Value) : Part t v n t v n
  | component {types : List DeclaredType} {items : List Script.Value} {ns : List Native.Value}
      {t t' : DeclaredType} {item v' : Script.Value} {n n' : Native.Value} :
      (t, item, n) ∈ types.zip (items.zip ns) → Part t item n t' v' n' →
        Part (.tuple types) (.array items) (.tuple ns) t' v' n'
  | element {items : List Script.Value} {ns : List Native.Value} {t t' : DeclaredType}
      {item v' : Script.Value} {n n' : Native.Value} :
      (item, n) ∈ items.zip ns → Part t item n t' v' n' →
        Part (.list t) (.array items) (.list ns) t' v' n'
  | member {items : List Script.Value} {ns : List Native.Value} {t t' : DeclaredType}
      {item v' : Script.Value} {n n' : Native.Value} :
      (item, n) ∈ (Script.Value.fresh [] items).zip ns → Part t item n t' v' n' →
        Part (.set t) (.array items) (.set ns) t' v' n'
  | entry {es : List (Utf16 × Script.Value)} {ps : List (Native.Value × Native.Value)}
      {e : Utf16 × Script.Value} {p : Native.Value × Native.Value} {key t t' : DeclaredType}
      {v' : Script.Value} {n' : Native.Value} :
      (e, p) ∈ es.zip ps → Part t e.2 p.2 t' v' n' →
        Part (.map key t) (.map es) (.map ps) t' v' n'
  | optional {t t' : DeclaredType} {v v' : Script.Value} {n n' : Native.Value} :
      v.isNullish = false → Part t v n t' v' n' → Part (.optional t) v n t' v' n'
  | alternative {types : List DeclaredType} {k : Nat} {t t' : DeclaredType} {v v' : Script.Value}
      {n n' : Native.Value} : types[k]? = some t → Part t v n t' v' n' →
        Part (.variant types) v (.variant k n) t' v' n'

namespace Bridge

open Conversion (Part)

variable {b : Bridge} {index depth : Nat} {v v' : Script.Value} {n n' : Native.Value}
  {t t' : DeclaredType} {types alternatives : List DeclaredType}

theorem componentsFromScript_of_mem_zip {items : List Script.Value} {ns : List Native.Value}
    {item : Script.Value} (hlen : items.length = types.length)
    (h : b.componentsFromScript index types depth items = .ok ns)
    (hmem : (t, item, n) ∈ types.zip (items.zip ns)) :
    b.fromScriptAt index t depth item = .ok n := by
  induction types generalizing items ns with
  | nil => cases hmem
  | cons t₀ types ih =>
    obtain ⟨item₀, items, rfl⟩ := List.exists_cons_of_length_eq_add_one hlen
    obtain ⟨n₀, ns, hn, hns, rfl⟩ := componentsFromScript_cons_iff.1 h
    rcases List.mem_cons.1 hmem with heq | hmem
    · cases heq
      exact hn
    · exact ih (Nat.succ.inj hlen) hns hmem

/-- What is converted at a place is a conversion of its own, and the type there keeps it within the
limit. -/
theorem exists_fromScriptAt_of_part (h : Part t v n t' v' n')
    (hn : b.fromScriptAt index t depth v = .ok n)
    (hdepth : depth + t.nesting ≤ b.options.maxDepth) :
    ∃ depth', depth' + t'.nesting ≤ b.options.maxDepth ∧
      b.fromScriptAt index t' depth' v' = .ok n' := by
  induction h generalizing depth with
  | self t v n => exact ⟨depth, hdepth, hn⟩
  | component hmem _ ih =>
    obtain ⟨-, _, _, hitems, hlen, hns, heq⟩ := fromScriptAt_tuple_iff.1 hn
    cases hitems
    cases heq
    have ht := (List.of_mem_zip hmem).1
    exact ih (componentsFromScript_of_mem_zip hlen hns hmem) (below_of_mem hdepth ht)
  | element hmem _ ih =>
    obtain ⟨-, _, _, hitems, hns, heq⟩ := fromScriptAt_list_iff.1 hn
    cases hitems
    cases heq
    exact ih (List.forall₂_zip hns hmem) (below hdepth)
  | member hmem _ ih =>
    obtain ⟨-, _, _, hitems, hns, heq⟩ := fromScriptAt_set_iff_fresh.1 hn
    cases hitems
    cases heq
    exact ih (List.forall₂_zip hns hmem) (below hdepth)
  | entry hmem _ ih =>
    obtain ⟨-, _, _, hentries, hps, heq⟩ := fromScriptAt_map_iff.1 hn
    cases hentries
    cases heq
    exact ih (List.forall₂_zip hps hmem).2 (below hdepth)
  | optional hnullish _ ih =>
    obtain ⟨-, ⟨rfl, -⟩ | ⟨rfl, -⟩ | ⟨-, hn⟩⟩ := fromScriptAt_optional_iff.1 hn
    · cases hnullish
    · cases hnullish
    · exact ih hn hdepth
  | alternative ht _ ih =>
    obtain ⟨-, k, t₀, n₀, heq, ht₀, hn⟩ := fromScriptAt_variant hn
    cases heq
    obtain rfl := Option.some.inj (ht.symm.trans ht₀)
    exact ih hn (below_of_mem hdepth (List.mem_of_getElem? ht))

/-! ## The grammar of a type -/

/-- **A value is converted under a type exactly if it inhabits the type**, as long as the type is not
nested deeper than the limit. And wherever in the value a variant stands in the type, the outcome
has there the least index whose alternative the value at that place inhabits. -/
theorem fromScript_iff_inhabits (b : Bridge) (hb : b.Reachable) (t : DeclaredType)
    (hdepth : t.nesting ≤ b.options.maxDepth) (v : Script.Value) (index : Nat) :
    ((∃ n, b.fromScript v t index = .ok n) ↔ b.Inhabits t v) ∧
    ∀ n, b.fromScript v t index = .ok n →
      ∀ alternatives v' n', Part t v n (.variant alternatives) v' n' →
        ∃ k n'', n' = .variant k n'' ∧
          IsLeast {k | ∃ t', alternatives[k]? = some t' ∧ b.Inhabits t' v'} k := by
  have hstart : 0 + t.nesting ≤ b.options.maxDepth := by rwa [Nat.zero_add]
  refine ⟨exists_fromScriptAt_iff hb.sound_classes index t hstart v, ?_⟩
  intro n hn alternatives v' n' hpart
  obtain ⟨depth', hdepth', hn'⟩ := exists_fromScriptAt_of_part hpart hn hstart
  exact variant_isLeast hb.sound_classes hdepth' hn'

/-- A map from numbers to nodes, one of them missing, in an array. The alternative before the one
that takes it asks for leaves in every place, the one after it would take anything. -/
theorem fromScript_iff_inhabits_of_twoLeaves :
    let alternatives : List DeclaredType :=
      [.map .number (.object "Leaf"), .map .number (.optional (.object "Node")), .any]
    let v := Script.Value.map
      [(.ofString "-15e-1", .wrapper ⟨0, 0⟩), (.ofString ".5", .null)]
    twoLeaves.Reachable ∧ twoLeaves.Inhabits (.list (.variant alternatives)) (.array [v]) ∧
      (DeclaredType.list (.variant alternatives)).nesting ≤ twoLeaves.options.maxDepth ∧
      IsLeast {k | ∃ t, alternatives[k]? = some t ∧ twoLeaves.Inhabits t v} 1 := by
  intro alternatives v
  have hdepth : (DeclaredType.list (.variant alternatives)).nesting ≤
    twoLeaves.options.maxDepth := by decide
  obtain ⟨hinhabits, hleast⟩ := fromScript_iff_inhabits twoLeaves reachable_twoLeaves
    (.list (.variant alternatives)) hdepth (.array [v]) 0
  obtain ⟨n, hn⟩ : ∃ n, twoLeaves.fromScript (.array [v]) (.list (.variant alternatives)) 0 =
    .ok (.list [.variant 1 n]) := ⟨_, rfl⟩
  have hpart : Part (.list (.variant alternatives)) (.array [v]) (.list [.variant 1 n])
      (.variant alternatives) v (.variant 1 n) := .element List.mem_cons_self (.self _ _ _)
  obtain ⟨k, n', heq, hk⟩ := hleast _ hn _ _ _ hpart
  cases heq
  exact ⟨reachable_twoLeaves, hinhabits.1 ⟨_, hn⟩, hdepth, hk⟩

end Bridge
end ScriptBridge
