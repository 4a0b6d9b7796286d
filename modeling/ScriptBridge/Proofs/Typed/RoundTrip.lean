import ScriptBridge.Proofs.Conversion.Failures
import ScriptBridge.Proofs.Conversion.Repeats
import ScriptBridge.Proofs.Typed.Regular

/-! # Typed values that come back

A typed value that goes to script and comes back under the declared type of its shape is the same
value, for every `Shape.Regular` shape: `Shape.typed_round_trip`.

No element of a set is dropped on the way, since different values become different script values,
and no entry of a map, since different keys have different names.
-/

namespace ScriptBridge
set_option autoImplicit false

namespace Shape

variable {s : Shape} {t : DeclaredType} {b : Bridge} {index depth : Nat}

/-! ## What stays apart -/

/-- Elements in strict order become different script values. -/
theorem Regular.pairwise_image {element : Shape} (hr : element.Regular) (ho : element.Ordered)
    {as : List element.Carrier} (has : StrictlyOrdered element.compare as)
    (hvalid : ∀ a ∈ as, element.Valid a) :
    (as.map element.image).Pairwise fun v w => v.same w = false := by
  have hnodup : as.Nodup := has.nodup element.compare_swap
  rw [List.pairwise_map]
  refine hnodup.imp_of_mem fun {a b} ha hb hne => Bool.eq_false_iff.2 fun hsame => ?_
  exact hne (hr.eq_of_same_image ho (hvalid a ha) (hvalid b hb) hsame)

theorem Key.nodup_names {key : Shape} (hk : key.Key) {ks : List key.Carrier}
    (hks : StrictlyOrdered key.compare ks) (hvalid : ∀ k ∈ ks, key.Valid k) :
    (ks.map key.keyName).Nodup := by
  have hnodup : ks.Nodup := hks.nodup key.compare_swap
  exact hnodup.map_on fun k hk₁ l hl₁ h => hk.keyName_inj (hvalid k hk₁) (hvalid l hl₁) h

/-! ## To script -/

theorem Key.becomes_image (hs : s.Key) (hdepth : depth ≤ b.options.maxDepth) (x : s.Carrier)
    (hx : s.Valid x) : (s.toNative x).Becomes b depth (s.image x) := by
  cases hs with
  | int w => exact Native.Value.becomes_integer hdepth x.val
  | int64 => exact Native.Value.becomes_integer hdepth x
  | uint64 =>
    obtain ⟨i, hnative, himage, -⟩ := exists_signed hx
    rw [hnative, himage]
    exact Native.Value.becomes_integer hdepth i
  | bool => exact Native.Value.becomes_bool hdepth x
  | string => exact Native.Value.becomes_string hdepth x

/-- A value becomes its image where its declared type is not nested too deep. -/
theorem Regular.becomes_image (hs : s.Regular) (ht : s.declared? = some t) (x : s.Carrier)
    (hx : s.Valid x) (hdepth : depth + t.nesting ≤ b.options.maxDepth) :
    (s.toNative x).Becomes b depth (s.image x) := by
  induction hs generalizing t depth with
  | key hk => exact hk.becomes_image (Nat.le_of_add_right_le hdepth) x hx
  | float64 => exact Native.Value.becomes_number (Nat.le_of_add_right_le hdepth) x
  | u16string => exact Native.Value.becomes_u16string (Nat.le_of_add_right_le hdepth) x
  | symbol => exact Native.Value.becomes_symbol (Nat.le_of_add_right_le hdepth) x
  | option _ _ ih =>
    obtain ⟨t', ht', rfl⟩ := Option.map_eq_some_iff.1 ht
    cases x with
    | none => exact Native.Value.becomes_null (Nat.le_of_add_right_le hdepth)
    | some a => exact ih ht' a (hx a rfl) hdepth
  | @list element _ ih =>
    obtain ⟨t', ht', rfl⟩ := Option.map_eq_some_iff.1 ht
    have hinner : depth + 1 + t'.nesting ≤ b.options.maxDepth := by rwa [Nat.add_right_comm]
    refine Native.Value.becomes_list (Nat.le_of_add_right_le hdepth) ?_
    exact forall₂_map_of_mem fun a ha => ih ht' a (hx a ha) hinner
  | @set element hr ho ih =>
    obtain ⟨t', ht', rfl⟩ := Option.map_eq_some_iff.1 ht
    have hinner : depth + 1 + t'.nesting ≤ b.options.maxDepth := by rwa [Nat.add_right_comm]
    refine Native.Value.becomes_set (Nat.le_of_add_right_le hdepth) ?_
      (hr.pairwise_image ho hx.1 hx.2)
    exact forall₂_map_of_mem fun a ha => ih ht' a (hx.2 a ha) hinner
  | @pair first second _ _ ih₁ ih₂ =>
    obtain ⟨t₁, t₂, ht₁, ht₂, rfl⟩ := declared?_pair ht
    simp only [DeclaredType.nesting_tuple, DeclaredType.nestingOfItems_cons] at hdepth
    have hfirst : (first.toNative x.1).Becomes b (depth + 1) (first.image x.1) :=
      ih₁ ht₁ x.1 hx.1 (by omega)
    have hsecond : (second.toNative x.2).Becomes b (depth + 1) (second.image x.2) :=
      ih₂ ht₂ x.2 hx.2 (by omega)
    refine Native.Value.becomes_tuple (Nat.le_of_add_right_le hdepth) ?_
    exact .cons hfirst (.cons hsecond .nil)
  | @triple first second third _ _ _ ih₁ ih₂ ih₃ =>
    obtain ⟨t₁, t₂, t₃, ht₁, ht₂, ht₃, rfl⟩ := declared?_triple ht
    simp only [DeclaredType.nesting_tuple, DeclaredType.nestingOfItems_cons] at hdepth
    have hfirst : (first.toNative x.1).Becomes b (depth + 1) (first.image x.1) :=
      ih₁ ht₁ x.1 hx.1 (by omega)
    have hsecond : (second.toNative x.2.1).Becomes b (depth + 1) (second.image x.2.1) :=
      ih₂ ht₂ x.2.1 hx.2.1 (by omega)
    have hthird : (third.toNative x.2.2).Becomes b (depth + 1) (third.image x.2.2) :=
      ih₃ ht₃ x.2.2 hx.2.2 (by omega)
    refine Native.Value.becomes_tuple (Nat.le_of_add_right_le hdepth) ?_
    exact .cons hfirst (.cons hsecond (.cons hthird .nil))
  | @map key value hk _ ih =>
    obtain ⟨tk, tv, -, htv, rfl⟩ := declared?_map ht
    have hinner : depth + 1 + tv.nesting ≤ b.options.maxDepth := by rwa [Nat.add_right_comm]
    have hnames : ((x.map (·.1)).map key.keyName).Nodup := by
      refine hk.nodup_names (List.pairwise_map.2 hx.1) fun k hkmem => ?_
      obtain ⟨e, he, rfl⟩ := List.mem_map.1 hkmem
      exact (hx.2 e he).1
    refine Native.Value.becomes_map (Nat.le_of_add_right_le hdepth) ?_ ?_
    · exact forall₂_map_of_mem fun e he => ⟨hk.propertyName?_toNative e.1 (hx.2 e he).1,
        ih htv e.2 (hx.2 e he).2 hinner⟩
    · rw [List.map_map] at hnames ⊢
      exact hnames

/-! ## From script -/

theorem Key.fromScriptAt_image (hs : s.Key) (ht : s.declared? = some t) (x : s.Carrier)
    (hx : s.Valid x) (hdepth : depth ≤ b.options.maxDepth) :
    b.fromScriptAt index t depth (s.image x) = .ok (s.toNative x) := by
  cases hs with
  | int w =>
    obtain rfl := Option.some.inj ht
    have hbounds : w.min ≤ x.val ∧ x.val ≤ w.max := by simpa [Width.holds] using x.property
    exact Bridge.fromScriptAt_bounded_iff.2 ⟨hdepth, x.val, rfl, hbounds, rfl⟩
  | int64 =>
    obtain rfl := Option.some.inj ht
    exact Bridge.fromScriptAt_integer_iff.2 ⟨hdepth, x, rfl, rfl⟩
  | uint64 =>
    obtain rfl := Option.some.inj ht
    obtain ⟨i, hnative, himage, -, hmin, hmax⟩ := exists_signed hx
    rw [hnative, himage]
    exact Bridge.fromScriptAt_bounded_iff.2 ⟨hdepth, i, rfl, ⟨hmin, hmax⟩, rfl⟩
  | bool =>
    obtain rfl := Option.some.inj ht
    exact Bridge.fromScriptAt_bool_iff.2 ⟨hdepth, x, rfl, rfl⟩
  | string =>
    obtain rfl := Option.some.inj ht
    exact Bridge.fromScriptAt_string_iff.2
      ⟨hdepth, _, x, rfl, Utf16.toString?_ofString x, rfl⟩

/-- The image of a value is read as the native value that it is the image of. -/
theorem Regular.fromScriptAt_image (hs : s.Regular) (ht : s.declared? = some t) (x : s.Carrier)
    (hx : s.Valid x) (hdepth : depth + t.nesting ≤ b.options.maxDepth) :
    b.fromScriptAt index t depth (s.image x) = .ok (s.toNative x) := by
  induction hs generalizing t depth with
  | key hk => exact hk.fromScriptAt_image ht x hx (Nat.le_of_add_right_le hdepth)
  | float64 =>
    obtain rfl := Option.some.inj ht
    exact Bridge.fromScriptAt_number_iff.2 ⟨hdepth, x, rfl, rfl⟩
  | u16string =>
    obtain rfl := Option.some.inj ht
    exact Bridge.fromScriptAt_u16string_iff.2 ⟨hdepth, x, rfl, rfl⟩
  | symbol =>
    obtain rfl := Option.some.inj ht
    exact Bridge.fromScriptAt_symbol_iff.2 ⟨hdepth, x, rfl, rfl⟩
  | @option inner hr hno ih =>
    obtain ⟨t', ht', rfl⟩ := Option.map_eq_some_iff.1 ht
    refine Bridge.fromScriptAt_optional_iff.2 ⟨Nat.le_of_add_right_le hdepth, ?_⟩
    cases x with
    | none => exact .inr (.inl ⟨rfl, rfl⟩)
    | some a => exact .inr (.inr ⟨(hr.present hno a).2.2, ih ht' a (hx a rfl) hdepth⟩)
  | @list element _ ih =>
    obtain ⟨t', ht', rfl⟩ := Option.map_eq_some_iff.1 ht
    have hinner : depth + 1 + t'.nesting ≤ b.options.maxDepth := by rwa [Nat.add_right_comm]
    refine Bridge.fromScriptAt_list_iff.2 ⟨Nat.le_of_add_right_le hdepth, _, _, rfl, ?_, rfl⟩
    exact forall₂_map_of_mem fun a ha => ih ht' a (hx a ha) hinner
  | @set element hr ho ih =>
    obtain ⟨t', ht', rfl⟩ := Option.map_eq_some_iff.1 ht
    have hinner : depth + 1 + t'.nesting ≤ b.options.maxDepth := by rwa [Nat.add_right_comm]
    refine Bridge.fromScriptAt_set_iff.2 ⟨Nat.le_of_add_right_le hdepth, _, _, rfl, ?_, rfl⟩
    -- The items are told apart as script values, before they are converted.
    refine Bridge.distinctItems_of_pairwise (hr.pairwise_image ho hx.1 hx.2) ?_
    exact forall₂_map_of_mem fun a ha => ih ht' a (hx.2 a ha) hinner
  | @pair first second _ _ ih₁ ih₂ =>
    obtain ⟨t₁, t₂, ht₁, ht₂, rfl⟩ := declared?_pair ht
    simp only [DeclaredType.nesting_tuple, DeclaredType.nestingOfItems_cons] at hdepth
    refine Bridge.fromScriptAt_tuple_iff.2
      ⟨Nat.le_of_add_right_le hdepth, _, _, rfl, rfl, ?_, rfl⟩
    refine Bridge.componentsFromScript_cons_iff.2 ⟨_, _, ih₁ ht₁ x.1 hx.1 (by omega), ?_, rfl⟩
    exact Bridge.componentsFromScript_cons_iff.2 ⟨_, _, ih₂ ht₂ x.2 hx.2 (by omega), rfl, rfl⟩
  | @triple first second third _ _ _ ih₁ ih₂ ih₃ =>
    obtain ⟨t₁, t₂, t₃, ht₁, ht₂, ht₃, rfl⟩ := declared?_triple ht
    simp only [DeclaredType.nesting_tuple, DeclaredType.nestingOfItems_cons] at hdepth
    refine Bridge.fromScriptAt_tuple_iff.2
      ⟨Nat.le_of_add_right_le hdepth, _, _, rfl, rfl, ?_, rfl⟩
    refine Bridge.componentsFromScript_cons_iff.2 ⟨_, _, ih₁ ht₁ x.1 hx.1 (by omega), ?_, rfl⟩
    refine Bridge.componentsFromScript_cons_iff.2 ⟨_, _, ih₂ ht₂ x.2.1 hx.2.1 (by omega), ?_, rfl⟩
    exact Bridge.componentsFromScript_cons_iff.2
      ⟨_, _, ih₃ ht₃ x.2.2 hx.2.2 (by omega), rfl, rfl⟩
  | @map key value hk _ ih =>
    obtain ⟨tk, tv, htk, htv, rfl⟩ := declared?_map ht
    have hinner : depth + 1 + tv.nesting ≤ b.options.maxDepth := by rwa [Nat.add_right_comm]
    refine Bridge.fromScriptAt_map_iff.2 ⟨Nat.le_of_add_right_le hdepth, _, _, rfl, ?_, rfl⟩
    exact forall₂_map_of_mem fun e he => ⟨hk.readKey?_keyName htk e.1 (hx.2 e he).1,
      ih htv e.2 (hx.2 e he).2 hinner⟩

/-! ## There and back -/

/-- **A typed value comes back from script as it was.** Every regular shape has a declared type. On
a bridge whose depth limit is not below the nesting of that type, the native value of a typed one
goes to script without changing the bridge, comes back under the declared type, and the typed value
that is extracted from it is the one that was sent. -/
theorem typed_round_trip (b : Bridge) (s : Shape) (hs : s.Regular) (x : s.Carrier)
    (hx : s.Valid x) (index : Nat) :
    ∃ t, s.declared? = some t ∧ (t.nesting ≤ b.options.maxDepth →
      ∃ v, b.toScript (s.toNative x) = (.ok v, b) ∧
        ∃ n, b.fromScript v t index = .ok n ∧ s.extract n = .ok x) := by
  obtain ⟨t, ht⟩ := hs.declared
  refine ⟨t, ht, fun hdepth => ?_⟩
  have hnesting : 0 + t.nesting ≤ b.options.maxDepth := by rwa [Nat.zero_add]
  refine ⟨s.image x, hs.becomes_image ht x hx hnesting, s.toNative x, ?_, ?_⟩
  · exact hs.fromScriptAt_image ht x hx hnesting
  · exact hs.extract_toNative x hx

/-- Bytes with the pairs kept under them, absence included. -/
theorem typed_round_trip_pairs :
    let shape := map (int .i8) (option (set (pair uint64 bool)))
    let x : shape.Carrier := [(⟨-1, rfl⟩, none), (⟨2, rfl⟩, some [(0, true), (7, false)])]
    let t : DeclaredType :=
      .map (.bounded "i8" (-128) 127)
        (.optional (.set (.tuple [.bounded "u64" 0 Int64.maxValue, .bool])))
    shape.Regular ∧ shape.Valid x ∧ shape.declared? = some t ∧
      t.nesting ≤ ({} : Bridge).options.maxDepth ∧
      ∃ v, ({} : Bridge).toScript (shape.toNative x) = (.ok v, {}) ∧
        ∃ n, ({} : Bridge).fromScript v t 0 = .ok n ∧ shape.extract n = .ok x := by
  intro shape x t
  have hregular : shape.Regular :=
    .map (.int .i8) (.option (.set (.pair (.key .uint64) (.key .bool)) ⟨trivial, trivial⟩) nofun)
  have hpairs : (set (pair uint64 bool)).Valid [(0, true), (7, false)] := by
    refine ⟨List.pairwise_pair.2 rfl, fun p hp => ?_⟩
    have hfirst : (p.1.toNat : Int) ≤ Number.maxInt64 := by
      rcases List.mem_pair.1 hp with rfl | rfl <;> decide
    exact ⟨hfirst, trivial⟩
  have hvalid : shape.Valid x := by
    refine ⟨List.pairwise_pair.2 rfl, fun e he => ?_⟩
    rcases List.mem_pair.1 he with rfl | rfl
    · exact ⟨trivial, nofun⟩
    · exact ⟨trivial, fun a ha => Option.some.inj ha ▸ hpairs⟩
  have hdepth : t.nesting ≤ ({} : Bridge).options.maxDepth := by decide
  obtain ⟨t', ht', hround⟩ := typed_round_trip {} shape hregular x hvalid 0
  obtain rfl : t = t' := Option.some.inj ht'
  exact ⟨hregular, hvalid, rfl, hdepth, hround hdepth⟩

end Shape
end ScriptBridge
