import ScriptBridge.Proofs.Bridge.Calls
import ScriptBridge.Proofs.Conversion.Reading
import ScriptBridge.Proofs.Number.Decimal
import ScriptBridge.Typed.Extraction

/-! # Extraction after conversion

A value that was converted under the declared type of a shape can be extracted as that shape, so
that a body finds its arguments to be of their types: `Shape.extract_of_converted`.
-/

namespace ScriptBridge
set_option autoImplicit false

namespace Native.Value

@[simp] theorem inner_inner (n : Value) : n.inner.inner = n.inner := by
  fun_induction inner n with
  | case1 index value ih => exact ih
  | case2 n hn => cases n <;> first | rfl | exact absurd rfl (hn _ _)

theorem inner_demote (n : Value) : n.demote.inner = n.inner.demote := by
  fun_induction inner n with
  | case1 index value ih => exact ih
  | case2 n hn => cases n <;> first | rfl | exact absurd rfl (hn _ _)

/-- Only function references are demoted. -/
theorem demote_inner_cases (n : Value) :
    (∃ id, n.inner = .function id) ∨ n.inner.demote = n.inner := by
  fun_induction inner n with
  | case1 index value ih => exact ih
  | case2 n hn => cases n <;> first | exact absurd rfl (hn _ _) | simp [demote]

end Native.Value

namespace Shape

variable {s : Shape} {t : DeclaredType} {n : Native.Value} {b : Bridge} {index depth : Nat}
  {v : Script.Value}

/-! ## Declared types -/

theorem declared?_pair {first second : Shape} (h : (pair first second).declared? = some t) :
    ∃ t₁ t₂, first.declared? = some t₁ ∧ second.declared? = some t₂ ∧ .tuple [t₁, t₂] = t := by
  obtain ⟨t₁, h₁, h⟩ := Option.bind_eq_some_iff.1 h
  obtain ⟨t₂, h₂, h⟩ := Option.bind_eq_some_iff.1 h
  exact ⟨t₁, t₂, h₁, h₂, Option.some.inj h⟩

theorem declared?_triple {first second third : Shape}
    (h : (triple first second third).declared? = some t) :
    ∃ t₁ t₂ t₃, first.declared? = some t₁ ∧ second.declared? = some t₂ ∧
      third.declared? = some t₃ ∧ .tuple [t₁, t₂, t₃] = t := by
  obtain ⟨t₁, h₁, h⟩ := Option.bind_eq_some_iff.1 h
  obtain ⟨t₂, h₂, h⟩ := Option.bind_eq_some_iff.1 h
  obtain ⟨t₃, h₃, h⟩ := Option.bind_eq_some_iff.1 h
  exact ⟨t₁, t₂, t₃, h₁, h₂, h₃, Option.some.inj h⟩

theorem declared?_map {key value : Shape} (h : (map key value).declared? = some t) :
    ∃ tk tv, key.declared? = some tk ∧ value.declared? = some tv ∧ .map tk tv = t := by
  obtain ⟨tk, hk, h⟩ := Option.bind_eq_some_iff.1 h
  obtain ⟨tv, hv, h⟩ := Option.bind_eq_some_iff.1 h
  exact ⟨tk, tv, hk, hv, Option.some.inj h⟩

/-! ## Layers and references -/

/-- The value can be extracted as the shape. -/
def Takes (s : Shape) (n : Native.Value) : Prop := ∃ x, s.extract n = .ok x

/-- Variant layers do not matter to a shape that has a declared type. -/
theorem extract_inner (hs : s.declared? = some t) (n : Native.Value) :
    s.extract n.inner = s.extract n := by
  cases s with
  | native => cases hs
  | _ => simp only [extract, Native.Value.tupleItems, Native.Value.inner_inner]

theorem Takes.option (hs : s.declared? = some t) (h : s.Takes n) : s.option.Takes n := by
  obtain ⟨x, hx⟩ := h
  unfold Takes extract
  split
  · exact ⟨none, rfl⟩
  · exact ⟨none, rfl⟩
  · rw [extract_inner hs, hx]
    exact ⟨some x, rfl⟩

theorem not_takes_function (hs : s.declared? = some t) (id : ObjectId) :
    ¬ s.Takes (.function id) := by
  rintro ⟨x, hx⟩
  induction s generalizing t with
  | option inner ih =>
    obtain ⟨t', ht', -⟩ := Option.map_eq_some_iff.1 hs
    obtain ⟨x', hx', -⟩ := map_eq_ok_iff.1 hx
    exact ih ht' x' hx'
  | native => cases hs
  | _ => cases hx

theorem Takes.demote (hs : s.declared? = some t) (h : s.Takes n) : s.Takes n.demote := by
  have hinner : s.Takes n.inner := by
    obtain ⟨x, hx⟩ := h
    exact ⟨x, (extract_inner hs n).trans hx⟩
  have hdemoted : s.Takes n.inner.demote := by
    rcases n.demote_inner_cases with ⟨id, hid⟩ | heq
    · rw [hid] at hinner
      exact absurd hinner (not_takes_function hs id)
    · rw [heq]
      exact hinner
  rw [← n.inner_demote] at hdemoted
  obtain ⟨x, hx⟩ := hdemoted
  exact ⟨x, (extract_inner hs n.demote).symm.trans hx⟩

/-! ## Containers -/

theorem Takes.list {element : Shape} {ns : List Native.Value} (h : ∀ n ∈ ns, element.Takes n) :
    element.list.Takes (.list ns) :=
  exists_mapM_eq_ok h

theorem Takes.set {element : Shape} {ns : List Native.Value} (h : ∀ n ∈ ns, element.Takes n) :
    element.set.Takes (.set ns) := by
  obtain ⟨xs, hxs⟩ := exists_mapM_eq_ok h
  exact ⟨orderDistinct element.compare xs, congrArg (Except.map _) hxs⟩

theorem Takes.map {key value : Shape} {ps : List (Native.Value × Native.Value)}
    (h : ∀ p ∈ ps, key.Takes p.1 ∧ value.Takes p.2) : (map key value).Takes (.map ps) := by
  have hentry : ∀ p ∈ ps, ∃ x : key.Carrier × value.Carrier,
      (do return (← key.extract p.1, ← value.extract p.2)) = Except.ok x := by
    intro p hp
    obtain ⟨⟨k, hk⟩, x, hx⟩ := h p hp
    exact ⟨(k, x), by simp [hk, hx, bind, Except.bind, pure, Except.pure]⟩
  obtain ⟨xs, hxs⟩ := exists_mapM_eq_ok hentry
  exact ⟨orderDistinct (fun a b => key.compare a.1 b.1) xs, bind_eq_ok_iff.2 ⟨xs, hxs, rfl⟩⟩

theorem extract_pair_tuple (first second : Shape) (n₁ n₂ : Native.Value) :
    (pair first second).extract (.tuple [n₁, n₂]) =
      (do return (← first.extract n₁, ← second.extract n₂)) := rfl

theorem extract_triple_tuple (first second third : Shape) (n₁ n₂ n₃ : Native.Value) :
    (triple first second third).extract (.tuple [n₁, n₂, n₃]) =
      (do return (← first.extract n₁, ← second.extract n₂, ← third.extract n₃)) := rfl

theorem Takes.pair {first second : Shape} {n₁ n₂ : Native.Value} (h₁ : first.Takes n₁)
    (h₂ : second.Takes n₂) : (pair first second).Takes (.tuple [n₁, n₂]) := by
  obtain ⟨x₁, hx₁⟩ := h₁
  obtain ⟨x₂, hx₂⟩ := h₂
  refine ⟨(x₁, x₂), ?_⟩
  rw [extract_pair_tuple, hx₁, hx₂]
  rfl

theorem Takes.triple {first second third : Shape} {n₁ n₂ n₃ : Native.Value} (h₁ : first.Takes n₁)
    (h₂ : second.Takes n₂) (h₃ : third.Takes n₃) :
    (triple first second third).Takes (.tuple [n₁, n₂, n₃]) := by
  obtain ⟨x₁, hx₁⟩ := h₁
  obtain ⟨x₂, hx₂⟩ := h₂
  obtain ⟨x₃, hx₃⟩ := h₃
  refine ⟨(x₁, x₂, x₃), ?_⟩
  rw [extract_triple_tuple, hx₁, hx₂, hx₃]
  rfl

/-! ## Converted values -/

theorem takes_int {w : Width} {i : Int64} (h : w.min ≤ i ∧ i ≤ w.max) :
    (int w).Takes (.integer i) := by
  have hholds : w.holds i := by simpa [Width.holds] using h
  exact ⟨⟨i, hholds⟩, dif_pos hholds⟩

theorem takes_uint64 {i : Int64} (h : 0 ≤ i) : uint64.Takes (.integer i) :=
  ⟨_, if_pos h⟩

theorem takes_of_readKey? {name : Utf16} (hs : s.declared? = some t)
    (hn : t.readKey? name = some n) : s.Takes n := by
  induction s generalizing t with
  | option inner ih =>
    obtain ⟨t', ht', rfl⟩ := Option.map_eq_some_iff.1 hs
    exact (ih ht' hn).option ht'
  | int w =>
    obtain rfl := Option.some.inj hs
    obtain ⟨i, hi, rfl⟩ := Option.map_eq_some_iff.1 hn
    exact takes_int (by simpa using (Option.filter_eq_some_iff.1 hi).2)
  | uint64 =>
    obtain rfl := Option.some.inj hs
    obtain ⟨i, hi, rfl⟩ := Option.map_eq_some_iff.1 hn
    have hbounds := (Option.filter_eq_some_iff.1 hi).2
    rw [Bool.and_eq_true, decide_eq_true_eq] at hbounds
    exact takes_uint64 hbounds.1
  | bool =>
    obtain rfl := Option.some.inj hs
    unfold DeclaredType.readKey? at hn
    split at hn
    · obtain rfl := Option.some.inj hn
      exact ⟨true, rfl⟩
    · split at hn
      · obtain rfl := Option.some.inj hn
        exact ⟨false, rfl⟩
      · cases hn
  | u16string | script =>
    obtain rfl := Option.some.inj hs
    obtain rfl := Option.some.inj hn
    exact ⟨_, rfl⟩
  | int64 | float32 | float64 | string =>
    obtain rfl := Option.some.inj hs
    obtain ⟨x, -, rfl⟩ := Option.map_eq_some_iff.1 hn
    exact ⟨_, rfl⟩
  | pair first second =>
    obtain ⟨t₁, t₂, -, -, rfl⟩ := declared?_pair hs
    cases hn
  | triple first second third =>
    obtain ⟨t₁, t₂, t₃, -, -, -, rfl⟩ := declared?_triple hs
    cases hn
  | map key value =>
    obtain ⟨tk, tv, -, -, rfl⟩ := declared?_map hs
    cases hn
  | list element | set element =>
    obtain ⟨t', -, rfl⟩ := Option.map_eq_some_iff.1 hs
    cases hn
  | symbol =>
    obtain rfl := Option.some.inj hs
    cases hn
  | object | native | weak => cases hs

theorem takes_of_fromScriptAt (hs : s.declared? = some t)
    (hn : b.fromScriptAt index t depth v = .ok n) : s.Takes n := by
  induction s generalizing t depth v n with
  | option inner ih =>
    obtain ⟨t', ht', rfl⟩ := Option.map_eq_some_iff.1 hs
    obtain ⟨-, ⟨-, rfl⟩ | ⟨-, rfl⟩ | ⟨-, hn⟩⟩ := Bridge.fromScriptAt_optional_iff.1 hn
    · exact ⟨none, rfl⟩
    · exact ⟨none, rfl⟩
    · exact (ih ht' hn).option ht'
  | list element ih =>
    obtain ⟨t', ht', rfl⟩ := Option.map_eq_some_iff.1 hs
    obtain ⟨-, items, ns, -, hns, rfl⟩ := Bridge.fromScriptAt_list_iff.1 hn
    refine .list fun n hn => ?_
    obtain ⟨item, -, hitem⟩ := exists_of_mem_right hns hn
    exact ih ht' hitem
  | set element ih =>
    obtain ⟨t', ht', rfl⟩ := Option.map_eq_some_iff.1 hs
    obtain ⟨-, items, ns, -, hns, rfl⟩ := Bridge.fromScriptAt_set_iff.1 hn
    refine .set fun n hn => ?_
    obtain ⟨item, -, hitem⟩ := Bridge.exists_of_mem_distinctItems hns n hn
    exact ih ht' hitem
  | map key value _ ih =>
    obtain ⟨tk, tv, htk, htv, rfl⟩ := declared?_map hs
    obtain ⟨-, es, ps, -, hps, rfl⟩ := Bridge.fromScriptAt_map_iff.1 hn
    refine .map fun p hp => ?_
    obtain ⟨e, -, hkey, hvalue⟩ := exists_of_mem_right hps hp
    exact ⟨takes_of_readKey? htk hkey, ih htv hvalue⟩
  | pair first second ih₁ ih₂ =>
    obtain ⟨t₁, t₂, ht₁, ht₂, rfl⟩ := declared?_pair hs
    obtain ⟨-, items, ns, -, hlen, hns, rfl⟩ := Bridge.fromScriptAt_tuple_iff.1 hn
    obtain ⟨v₁, v₂, rfl⟩ := List.length_eq_two.1 hlen
    obtain ⟨n₁, _, hn₁, hrest, rfl⟩ := Bridge.componentsFromScript_cons_iff.1 hns
    obtain ⟨n₂, _, hn₂, hnil, rfl⟩ := Bridge.componentsFromScript_cons_iff.1 hrest
    obtain rfl := pure_eq_ok_iff.1 hnil
    exact .pair (ih₁ ht₁ hn₁) (ih₂ ht₂ hn₂)
  | triple first second third ih₁ ih₂ ih₃ =>
    obtain ⟨t₁, t₂, t₃, ht₁, ht₂, ht₃, rfl⟩ := declared?_triple hs
    obtain ⟨-, items, ns, -, hlen, hns, rfl⟩ := Bridge.fromScriptAt_tuple_iff.1 hn
    obtain ⟨v₁, v₂, v₃, rfl⟩ := List.length_eq_three.1 hlen
    obtain ⟨n₁, _, hn₁, hrest₁, rfl⟩ := Bridge.componentsFromScript_cons_iff.1 hns
    obtain ⟨n₂, _, hn₂, hrest₂, rfl⟩ := Bridge.componentsFromScript_cons_iff.1 hrest₁
    obtain ⟨n₃, _, hn₃, hnil, rfl⟩ := Bridge.componentsFromScript_cons_iff.1 hrest₂
    obtain rfl := pure_eq_ok_iff.1 hnil
    exact .triple (ih₁ ht₁ hn₁) (ih₂ ht₂ hn₂) (ih₃ ht₃ hn₃)
  | int w =>
    obtain rfl := Option.some.inj hs
    obtain ⟨-, i, -, hi, rfl⟩ := Bridge.fromScriptAt_bounded_iff.1 hn
    exact takes_int hi
  | uint64 =>
    obtain rfl := Option.some.inj hs
    obtain ⟨-, i, -, hi, rfl⟩ := Bridge.fromScriptAt_bounded_iff.1 hn
    exact takes_uint64 hi.1
  | int64 =>
    obtain rfl := Option.some.inj hs
    obtain ⟨-, i, -, rfl⟩ := Bridge.fromScriptAt_integer_iff.1 hn
    exact ⟨i, rfl⟩
  | float32 | float64 =>
    obtain rfl := Option.some.inj hs
    obtain ⟨-, x, -, rfl⟩ := Bridge.fromScriptAt_number_iff.1 hn
    exact ⟨_, rfl⟩
  | bool =>
    obtain rfl := Option.some.inj hs
    obtain ⟨-, x, -, rfl⟩ := Bridge.fromScriptAt_bool_iff.1 hn
    exact ⟨x, rfl⟩
  | string =>
    obtain rfl := Option.some.inj hs
    obtain ⟨-, _, text, -, -, rfl⟩ := Bridge.fromScriptAt_string_iff.1 hn
    exact ⟨text, rfl⟩
  | u16string =>
    obtain rfl := Option.some.inj hs
    obtain ⟨-, text, -, rfl⟩ := Bridge.fromScriptAt_u16string_iff.1 hn
    exact ⟨text, rfl⟩
  | symbol =>
    obtain rfl := Option.some.inj hs
    obtain ⟨-, symbol, -, rfl⟩ := Bridge.fromScriptAt_symbol_iff.1 hn
    exact ⟨symbol, rfl⟩
  | script =>
    obtain rfl := Option.some.inj hs
    obtain ⟨-, rfl⟩ := Bridge.fromScriptAt_any_iff.1 hn
    exact ⟨v, rfl⟩
  | object | native | weak => cases hs

/-! ## Arguments -/

theorem exists_argument {args : List Script.Value} {params : List DeclaredType}
    {converted : List Native.Value} {first : Nat}
    (h : b.convertArguments args first params = .ok converted) {k : Nat}
    (ht : params[k]? = some t) :
    ∃ v n, converted[k]? = some n ∧ b.fromScript v t (first + k) = .ok n := by
  obtain ⟨n, hk, hn⟩ := Bridge.converted_argument h ht
  exact ⟨_, n, hk, hn⟩

/-- The policy of a call turns no argument into one of another shape. -/
theorem takes_hand (hs : s.declared? = some t) (policy : CallPolicy)
    {converted : List Native.Value} {k : Nat} (hn : converted[k]? = some n) (h : s.Takes n) :
    ∃ n', (policy.hand converted)[k]? = some n' ∧ s.Takes n' := by
  cases policy with
  | weakCallback index =>
    by_cases hk : index = k
    · exact ⟨n.demote, by simp [CallPolicy.hand, hk, hn], h.demote hs⟩
    · exact ⟨n, by simp [CallPolicy.hand, hk, hn], h⟩
  | _ => exact ⟨n, hn, h⟩

/-- **What is converted can be extracted.** A value converted under the declared type of a shape can
be extracted as that shape, on every bridge. So whatever the policy of a call does to the converted
arguments, the body finds each of them to be of the shape it was declared by. -/
theorem extract_of_converted (b : Bridge) (s : Shape) (t : DeclaredType)
    (hs : s.declared? = some t) :
    (∀ v index n, b.fromScript v t index = .ok n → ∃ x, s.extract n = .ok x) ∧
    ∀ (c : Call) (handed : List Native.Value) (k : Nat), c.handed? b = .ok handed →
      c.params[k]? = some t → ∃ x, s.argument handed k = .ok x := by
  refine ⟨fun v index n hn => takes_of_fromScriptAt hs hn, fun c handed k hhanded ht => ?_⟩
  obtain ⟨converted, hconverted, rfl⟩ := map_eq_ok_iff.1 hhanded
  obtain ⟨v, n, hk, hn⟩ := exists_argument hconverted ht
  obtain ⟨n', hk', x, hx⟩ := takes_hand hs c.policy hk (takes_of_fromScriptAt hs hn)
  exact ⟨x, by rw [argument, hk', Option.getD_some, hx]⟩

/-- Sets of bytes as arguments, the second of them left out. -/
theorem extract_of_converted_bytes :
    let bytes := option (set (int .u8))
    let type : DeclaredType := .optional (.set (.bounded "u8" 0 255))
    let given : Script.Value := .array [.int 7, .float (.ofInt 255), .float (.ofInt 7)]
    let call : Call := ⟨none, [type, type], .weakCallback 1, [given], fun _ => pure .null⟩
    let converted : Native.Value := .set [.integer 7, .integer 255]
    bytes.declared? = some type ∧
      ({} : Bridge).fromScript given type 0 = .ok converted ∧
      (∃ x, bytes.extract converted = .ok x) ∧
      call.handed? {} = .ok [converted, .undefined] ∧
      (∃ x, bytes.argument [converted, .undefined] 0 = .ok x) ∧
      ∃ x, bytes.argument [converted, .undefined] 1 = .ok x := by
  intro bytes type given call converted
  obtain ⟨hvalue, hcall⟩ := extract_of_converted {} bytes type rfl
  have hconverted : ({} : Bridge).fromScript given type 0 = .ok converted := rfl
  have hhanded : call.handed? {} = .ok [converted, .undefined] := rfl
  exact ⟨rfl, hconverted, hvalue given 0 converted hconverted, hhanded,
    hcall call _ 0 hhanded rfl, hcall call _ 1 hhanded rfl⟩

end Shape
end ScriptBridge
