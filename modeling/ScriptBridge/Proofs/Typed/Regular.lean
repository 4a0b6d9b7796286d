import Mathlib.Data.List.Perm.Subperm
import ScriptBridge.Proofs.Conversion.Keys
import ScriptBridge.Proofs.Script.Entries
import ScriptBridge.Proofs.Typed.Extracting
import ScriptBridge.Proofs.Typed.Order

/-! # Regular shapes

The typed values that stay what they are on the way through a native and a script value.

* `Shape.Regular` are their shapes, and `Shape.Valid` says which values of a shape are meant.
* `Shape.image` is the script value of a typed one. Values in order have equal images only if they
  are the same: `Shape.Regular.eq_of_same_image`.
* `Shape.Regular.extract_toNative` and `Shape.Key.readKey?_keyName` take a value back out of the
  native value and a key out of its name.
-/

namespace ScriptBridge
set_option autoImplicit false

namespace Shape

/-! ## Regular shapes -/

/-- The shapes of keys that a name stands for. -/
inductive Key : Shape → Prop where
  | int (w : Width) : Key (.int w)
  | int64 : Key .int64
  | uint64 : Key .uint64
  | bool : Key .bool
  | string : Key .string

/-- The shapes whose values are in order. -/
def Ordered : Shape → Prop
  | int _ | int64 | uint64 | bool | string => True
  | option inner | list inner | set inner => inner.Ordered
  | pair first second => first.Ordered ∧ second.Ordered
  | triple first second third => first.Ordered ∧ second.Ordered ∧ third.Ordered
  | map key value => key.Ordered ∧ value.Ordered
  | _ => False

/-- The shapes of values that come back from script as they were. -/
inductive Regular : Shape → Prop where
  | key {s : Shape} : s.Key → Regular s
  | float64 : Regular .float64
  | u16string : Regular .u16string
  | symbol : Regular .symbol
  | option {inner : Shape} : inner.Regular → (∀ s, inner ≠ .option s) → Regular (.option inner)
  | list {element : Shape} : element.Regular → Regular (.list element)
  | set {element : Shape} : element.Regular → element.Ordered → Regular (.set element)
  | pair {first second : Shape} : first.Regular → second.Regular → Regular (.pair first second)
  | triple {first second third : Shape} : first.Regular → second.Regular → third.Regular →
      Regular (.triple first second third)
  | map {key value : Shape} : key.Key → value.Regular → Regular (.map key value)

/-- Maps and sets are in strict order, and unsigned integers do not exceed the signed ones. -/
def Valid : (s : Shape) → s.Carrier → Prop
  | uint64, n => (n.toNat : Int) ≤ Number.maxInt64
  | option inner, x => ∀ a ∈ x, inner.Valid a
  | list element, as => ∀ a ∈ as, element.Valid a
  | set element, as => StrictlyOrdered element.compare as ∧ ∀ a ∈ as, element.Valid a
  | pair first second, x => first.Valid x.1 ∧ second.Valid x.2
  | triple first second third, x => first.Valid x.1 ∧ second.Valid x.2.1 ∧ third.Valid x.2.2
  | map key value, es =>
    StrictlyOrdered (fun x y => key.compare x.1 y.1) es ∧
      ∀ e ∈ es, key.Valid e.1 ∧ value.Valid e.2
  | _, _ => True

/-- The name of a value that is a key. -/
def keyName (s : Shape) (k : s.Carrier) : Utf16 := (s.toNative k).propertyName?.getD ⟨[]⟩

/-- The script value of a typed one. -/
def image : (s : Shape) → s.Carrier → Script.Value
  | int _, i => .int i.val
  | int64, i => .int i
  | uint64, n => match Number.toInt64? n.toNat with
    | some i => .int i
    | none => .float (.ofInt n.toNat)
  | float64, x => .float x
  | bool, b => .bool b
  | string, s => .text s
  | u16string, s => .string s
  | symbol, s => .symbol s
  | option _, none => .null
  | option inner, some a => inner.image a
  | list element, as => .array (as.map element.image)
  | set element, as => .array (as.map element.image)
  | pair first second, (a, b) => .array [first.image a, second.image b]
  | triple first second third, (a, b, c) =>
    .array [first.image a, second.image b, third.image c]
  | map key value, es => .map (es.map fun (k, a) => (key.keyName k, value.image a))
  | _, _ => .undefined

variable {s : Shape} {t : DeclaredType}

theorem Key.declared (hs : s.Key) : ∃ t, s.declared? = some t := by
  cases hs <;> exact ⟨_, rfl⟩

theorem Regular.declared (hs : s.Regular) : ∃ t, s.declared? = some t := by
  induction hs with
  | key hk => exact hk.declared
  | float64 | u16string | symbol => exact ⟨_, rfl⟩
  | option _ _ ih =>
    obtain ⟨t, ht⟩ := ih
    exact ⟨.optional t, congrArg (Option.map DeclaredType.optional) ht⟩
  | list _ ih =>
    obtain ⟨t, ht⟩ := ih
    exact ⟨.list t, congrArg (Option.map DeclaredType.list) ht⟩
  | set _ _ ih =>
    obtain ⟨t, ht⟩ := ih
    exact ⟨.set t, congrArg (Option.map DeclaredType.set) ht⟩
  | pair _ _ ih₁ ih₂ =>
    obtain ⟨t₁, ht₁⟩ := ih₁
    obtain ⟨t₂, ht₂⟩ := ih₂
    exact ⟨.tuple [t₁, t₂], by simp [declared?, ht₁, ht₂]⟩
  | triple _ _ _ ih₁ ih₂ ih₃ =>
    obtain ⟨t₁, ht₁⟩ := ih₁
    obtain ⟨t₂, ht₂⟩ := ih₂
    obtain ⟨t₃, ht₃⟩ := ih₃
    exact ⟨.tuple [t₁, t₂, t₃], by simp [declared?, ht₁, ht₂, ht₃]⟩
  | map hk _ ih =>
    obtain ⟨tk, htk⟩ := hk.declared
    obtain ⟨tv, htv⟩ := ih
    exact ⟨.map tk tv, by simp [declared?, htk, htv]⟩

/-- An unsigned integer that does not exceed the signed ones is one of them. -/
theorem exists_signed {n : UInt64} (hn : uint64.Valid n) :
    ∃ i : Int64, uint64.toNative n = .integer i ∧ uint64.image n = .int i ∧ i.toInt = n.toNat ∧
      0 ≤ i ∧ i ≤ Int64.ofInt Number.maxInt64 := by
  have hmax : (n.toNat : Int) ≤ Number.maxInt64 := hn
  have hmin : Number.minInt64 ≤ n.toNat := Int.le_trans (by decide) (Int.natCast_nonneg _)
  have hint : Number.toInt64? n.toNat = some (Int64.ofInt n.toNat) := if_pos ⟨hmin, hmax⟩
  have hi := Number.toInt64?_eq_some_iff.1 hint
  refine ⟨Int64.ofInt n.toNat, ?_, ?_, hi, ?_, ?_⟩
  · change (match Number.toInt64? n.toNat with
      | some i => Native.Value.integer i
      | none => .number (.ofInt n.toNat)) = _
    rw [hint]
  · change (match Number.toInt64? n.toNat with
      | some i => Script.Value.int i
      | none => .float (.ofInt n.toNat)) = _
    rw [hint]
  · rw [Int64.le_iff_toInt_le, hi]
    exact Int.natCast_nonneg _
  · rw [Int64.le_iff_toInt_le, hi]
    exact hmax

/-! ## Extraction -/

/-- What is no option is never absent. -/
theorem Regular.present (hs : s.Regular) (ho : ∀ inner, s ≠ .option inner) (x : s.Carrier) :
    (s.toNative x).inner ≠ .undefined ∧ (s.toNative x).inner ≠ .null ∧
      (s.image x).isNullish = false := by
  cases hs with
  | key hk =>
    cases hk with
    | uint64 =>
      unfold toNative image
      cases Number.toInt64? (UInt64.toNat x) <;>
        simp [Native.Value.inner, Script.Value.isNullish]
    | _ => refine ⟨fun h => ?_, fun h => ?_, rfl⟩ <;> cases h
  | option _ _ => exact absurd rfl (ho _)
  | _ => refine ⟨fun h => ?_, fun h => ?_, rfl⟩ <;> cases h

theorem extract_option {inner : Shape} (ht : inner.declared? = some t) {n : Native.Value}
    (hundefined : n.inner ≠ .undefined) (hnull : n.inner ≠ .null) :
    (option inner).extract n = (inner.extract n).map some := by
  rw [← extract_inner ht]
  simp only [extract]

theorem Key.extract_toNative (hs : s.Key) (x : s.Carrier) (hx : s.Valid x) :
    s.extract (s.toNative x) = .ok x := by
  cases hs with
  | uint64 =>
    obtain ⟨i, hnative, -, hi, hpos, -⟩ := exists_signed hx
    rw [hnative]
    refine (if_pos hpos).trans ?_
    rw [hi, Int.toNat_natCast, UInt64.ofNat_toNat]
  | int w => exact dif_pos x.property
  | _ => rfl

theorem Regular.extract_toNative (hs : s.Regular) (x : s.Carrier) (hx : s.Valid x) :
    s.extract (s.toNative x) = .ok x := by
  induction hs with
  | key hk => exact hk.extract_toNative x hx
  | float64 | u16string | symbol => rfl
  | @option inner hs ho ih =>
    cases x with
    | none => rfl
    | some a =>
      obtain ⟨t, ht⟩ := hs.declared
      obtain ⟨hundefined, hnull, -⟩ := hs.present ho a
      change (Shape.option inner).extract (inner.toNative a) = _
      rw [extract_option ht hundefined hnull, ih a (hx a rfl)]
      rfl
  | list _ ih => exact mapM_map_eq_ok fun a ha => ih a (hx a ha)
  | @set element _ _ ih =>
    have hitems : (List.map element.toNative x).mapM element.extract = .ok x :=
      mapM_map_eq_ok fun a ha => ih a (hx.2 a ha)
    change Except.map (orderDistinct element.compare) _ = _
    rw [hitems]
    exact congrArg Except.ok (orderDistinct_of_strictlyOrdered element.compare_swap hx.1)
  | pair _ _ ih₁ ih₂ =>
    refine (extract_pair_tuple _ _ _ _).trans ?_
    rw [ih₁ _ hx.1, ih₂ _ hx.2]
    rfl
  | triple _ _ _ ih₁ ih₂ ih₃ =>
    refine (extract_triple_tuple _ _ _ _ _ _).trans ?_
    rw [ih₁ _ hx.1, ih₂ _ hx.2.1, ih₃ _ hx.2.2]
    rfl
  | @map key value hk _ ih =>
    have hentries : (List.map (fun e => (key.toNative e.1, value.toNative e.2)) x).mapM
        (fun p => do return (← key.extract p.1, ← value.extract p.2)) = .ok x := by
      refine mapM_map_eq_ok fun e he => ?_
      obtain ⟨hkey, hvalue⟩ := hx.2 e he
      simp [hk.extract_toNative e.1 hkey, ih e.2 hvalue, bind, Except.bind, pure, Except.pure]
    refine bind_eq_ok_iff.2 ⟨x, hentries, congrArg Except.ok ?_⟩
    exact orderDistinct_of_strictlyOrdered (fun a b => key.compare_swap a.1 b.1) hx.1

/-! ## Names of keys -/

theorem Key.propertyName?_toNative (hs : s.Key) (x : s.Carrier) (hx : s.Valid x) :
    (s.toNative x).propertyName? = some (s.keyName x) := by
  cases hs with
  | uint64 =>
    obtain ⟨i, hnative, -⟩ := exists_signed hx
    rw [keyName, hnative]
    rfl
  | _ => rfl

/-- The name of a key is read back as the key. -/
theorem Key.readKey?_keyName (hs : s.Key) (ht : s.declared? = some t) (x : s.Carrier)
    (hx : s.Valid x) : t.readKey? (s.keyName x) = some (s.toNative x) := by
  have hinteger : ∀ i : Int64, DeclaredType.integerKey? (.ofString (toString i.toInt)) = some i :=
    fun i => DeclaredType.integerKey?_eq_some_iff.2 rfl
  have hbounded : ∀ (name : String) (min max i : Int64), min ≤ i → i ≤ max →
      (DeclaredType.bounded name min max).readKey? (.ofString (toString i.toInt)) =
        some (.integer i) := by
    intro name min max i hmin hmax
    unfold DeclaredType.readKey?
    rw [hinteger i]
    simp [Option.filter, hmin, hmax]
  cases hs with
  | int w =>
    obtain rfl := Option.some.inj ht
    obtain ⟨hmin, hmax⟩ : w.min ≤ x.val ∧ x.val ≤ w.max := by
      simpa [Width.holds] using x.property
    exact hbounded _ _ _ x.val hmin hmax
  | int64 =>
    obtain rfl := Option.some.inj ht
    exact Option.map_eq_some_iff.2 ⟨x, hinteger x, rfl⟩
  | uint64 =>
    obtain rfl := Option.some.inj ht
    obtain ⟨i, hnative, -, -, hmin, hmax⟩ := exists_signed hx
    rw [keyName, hnative]
    exact hbounded _ _ _ i hmin hmax
  | bool =>
    obtain rfl := Option.some.inj ht
    change Bool at x
    cases x <;> rfl
  | string =>
    obtain rfl := Option.some.inj ht
    exact Option.map_eq_some_iff.2 ⟨x, Utf16.toString?_ofString x, rfl⟩

theorem Key.keyName_inj (hs : s.Key) {x y : s.Carrier} (hx : s.Valid x) (hy : s.Valid y)
    (h : s.keyName x = s.keyName y) : x = y := by
  obtain ⟨t, ht⟩ := hs.declared
  have hnative : s.toNative x = s.toNative y := by
    have hread := hs.readKey?_keyName ht x hx
    rw [h, hs.readKey?_keyName ht y hy] at hread
    exact (Option.some.inj hread).symm
  have hextract := hs.extract_toNative x hx
  rw [hnative, hs.extract_toNative y hy] at hextract
  exact (Except.ok.inj hextract).symm

/-! ## Images -/

theorem Key.eq_of_same_image (hs : s.Key) {x y : s.Carrier} (hx : s.Valid x) (hy : s.Valid y)
    (h : (s.image x).same (s.image y)) : x = y := by
  cases hs with
  | int w => exact Subtype.ext (eq_of_beq h)
  | int64 | bool => exact eq_of_beq h
  | uint64 =>
    obtain ⟨i, -, himage, hi, -⟩ := exists_signed hx
    obtain ⟨j, -, himage', hj, -⟩ := exists_signed hy
    rw [himage, himage'] at h
    rw [eq_of_beq h, hj] at hi
    exact (UInt64.toNat_inj.1 (Int.ofNat.inj hi)).symm
  | string =>
    have hunits : Utf16.ofString x = Utf16.ofString y := eq_of_beq h
    have htext := Utf16.toString?_ofString x
    rw [hunits, Utf16.toString?_ofString] at htext
    exact (Option.some.inj htext).symm

theorem eq_of_same_items {element : Shape} {as bs : List element.Carrier}
    (h : List.Forall₂ (fun v w => Script.Value.same v w = true) (as.map element.image)
      (bs.map element.image))
    (hinj : ∀ a ∈ as, ∀ b ∈ bs, (element.image a).same (element.image b) → a = b) : as = bs := by
  rw [List.forall₂_map_left_iff, List.forall₂_map_right_iff] at h
  induction h with
  | nil => rfl
  | cons hab _ ih =>
    have hhead := hinj _ List.mem_cons_self _ List.mem_cons_self hab
    have htail := ih fun a ha b hb =>
      hinj a (List.mem_cons_of_mem _ ha) b (List.mem_cons_of_mem _ hb)
    rw [hhead, htail]

theorem eq_of_same_entries {key value : Shape} (hk : key.Key) {x y : (map key value).Carrier}
    (hx : (map key value).Valid x) (hy : (map key value).Valid y)
    (h : ((map key value).image x).same ((map key value).image y))
    (hinj : ∀ e ∈ x, ∀ e' ∈ y, (value.image e.2).same (value.image e'.2) → e.2 = e'.2) :
    x = y := by
  have hmatched := Script.Value.matched_of_same h
  have hlength : x.length = y.length := by simpa using hmatched.length_eq
  -- Entries are equal as pairs, so that one map is contained in the other and as long.
  have hsub : x ⊆ y := by
    intro e he
    obtain ⟨_, hmem, hname, hvalues⟩ := hmatched.exists_of_mem (List.mem_map_of_mem he)
    obtain ⟨e', he', rfl⟩ := List.mem_map.1 hmem
    have hkey : e.1 = e'.1 := hk.keyName_inj (hx.2 e he).1 (hy.2 e' he').1 hname
    have hvalue : e.2 = e'.2 := hinj e he e' he' hvalues
    rwa [Prod.ext hkey hvalue]
  have hswap := fun a b : key.Carrier × value.Carrier => key.compare_swap a.1 b.1
  have hperm : x.Perm y :=
    ((hx.1.nodup hswap).subperm hsub).perm_of_length_le (Nat.le_of_eq hlength.symm)
  exact hx.1.eq_of_perm hswap hy.1 hperm

/-- **Equal images are images of the same value**, for values in order. -/
theorem Regular.eq_of_same_image (hs : s.Regular) (ho : s.Ordered) {x y : s.Carrier}
    (hx : s.Valid x) (hy : s.Valid y) (h : (s.image x).same (s.image y)) : x = y := by
  induction hs with
  | key hk => exact hk.eq_of_same_image hx hy h
  | float64 | u16string | symbol => exact ho.elim
  | @option inner hr hno ih =>
    have hpresent : ∀ a, (inner.image a).isNullish = false := fun a => (hr.present hno a).2.2
    cases x with
    | none =>
      cases y with
      | none => rfl
      | some b => cases h.symm.trans (Script.Value.same_null_left (hpresent b))
    | some a =>
      cases y with
      | none => cases h.symm.trans (Script.Value.same_null_right (hpresent a))
      | some b => rw [ih ho (hx a rfl) (hy b rfl) h]
  | list _ ih =>
    refine eq_of_same_items (Script.Value.same_array_iff.1 h) fun a ha b hb hab => ?_
    exact ih ho (hx a ha) (hy b hb) hab
  | set _ _ ih =>
    refine eq_of_same_items (Script.Value.same_array_iff.1 h) fun a ha b hb hab => ?_
    exact ih ho (hx.2 a ha) (hy.2 b hb) hab
  | pair _ _ ih₁ ih₂ =>
    have hitems := Script.Value.same_array_iff.1 h
    simp only [List.forall₂_cons] at hitems
    have hfirst := ih₁ ho.1 hx.1 hy.1 hitems.1
    have hsecond := ih₂ ho.2 hx.2 hy.2 hitems.2.1
    exact Prod.ext hfirst hsecond
  | triple _ _ _ ih₁ ih₂ ih₃ =>
    have hitems := Script.Value.same_array_iff.1 h
    simp only [List.forall₂_cons] at hitems
    have hfirst := ih₁ ho.1 hx.1 hy.1 hitems.1
    have hsecond := ih₂ ho.2.1 hx.2.1 hy.2.1 hitems.2.1
    have hthird := ih₃ ho.2.2 hx.2.2 hy.2.2 hitems.2.2.1
    exact Prod.ext hfirst (Prod.ext hsecond hthird)
  | map hk _ ih =>
    refine eq_of_same_entries hk hx hy h fun e he e' he' hvalues => ?_
    exact ih ho.2 (hx.2 e he).2 (hy.2 e' he').2 hvalues

end Shape
end ScriptBridge
