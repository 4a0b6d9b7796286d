import ScriptBridge.Proofs.Number.Integral
import ScriptBridge.Proofs.Script.Entries

/-! # Values that compare alike

Equality of script values is not transitive: a double may be equal to two integers that differ, both
of which are rounded to it. Where every double that is equal to an integer holds it, and no map
repeats a name, values that are equal compare alike with all others: `Exact.interchangeable`.
-/

namespace ScriptBridge.Script.Value
set_option autoImplicit false

/-! ## Values that can stand in for one another -/

variable {I : Int64 → Prop} {v w : Value} {vs ws : List Value} {es fs : List (Utf16 × Value)}

/-- What is asked of a part of a value, whatever else is in the value. -/
def Fits (I : Int64 → Prop) : Value → Prop
  | float x => x.isNaN = false
  | int i => I i
  | map es => (es.map (·.1)).Nodup
  | _ => True

/-- A value with integers of a kind, without a NaN and without maps that repeat a name. -/
def Drawn (I : Int64 → Prop) (v : Value) : Prop := ∀ p ∈ v.parts, p.Fits I

theorem Drawn.fits (h : v.Drawn I) : v.Fits I := h v (self_mem_parts v)

theorem Drawn.item (h : (array vs).Drawn I) (hv : v ∈ vs) : v.Drawn I :=
  fun p hp => h p (parts_subset_array hv hp)

theorem Drawn.entry {e : Utf16 × Value} (h : (map es).Drawn I) (he : e ∈ es) : e.2.Drawn I :=
  fun p hp => h p (parts_subset_map he hp)

theorem Drawn.array (h : ∀ v ∈ vs, v.Drawn I) : (Value.array vs).Drawn I := by
  intro p hp
  rcases mem_parts_array.1 hp with rfl | ⟨v, hv, hp⟩
  · trivial
  · exact h v hv p hp

theorem Drawn.map (h : ∀ e ∈ es, e.2.Drawn I) (hnames : (es.map (·.1)).Nodup) :
    (Value.map es).Drawn I := by
  intro p hp
  rcases mem_parts_map.1 hp with rfl | ⟨e, he, hp⟩
  · exact hnames
  · exact h e he p hp

theorem Drawn.scalar (hparts : v.parts = [v]) (h : v.Fits I) : v.Drawn I := by
  rw [Drawn, hparts]
  exact List.forall_mem_singleton.2 h

theorem Drawn.same_self (h : v.Drawn I) : v.same v := Value.same_self v fun x hx => h (.float x) hx

/-- Among values with integers of a kind, the two compare alike with every other one. -/
structure Interchangeable (I : Int64 → Prop) (v w : Value) : Prop where
  left : v.Drawn I
  right : w.Drawn I
  same_left : ∀ z : Value, z.Drawn I → v.same z = w.same z
  same_right : ∀ z : Value, z.Drawn I → z.same v = z.same w

namespace Interchangeable

theorem refl (h : v.Drawn I) : Interchangeable I v v := ⟨h, h, fun _ _ => rfl, fun _ _ => rfl⟩

theorem symm (h : Interchangeable I v w) : Interchangeable I w v :=
  ⟨h.right, h.left, fun z hz => (h.same_left z hz).symm, fun z hz => (h.same_right z hz).symm⟩

theorem same (h : Interchangeable I v w) : v.same w := by
  rw [← h.same_right v h.left]
  exact h.left.same_self

theorem same_congr {v' w' : Value} (h : Interchangeable I v w) (h' : Interchangeable I v' w') :
    v.same v' = w.same w' := (h.same_left v' h'.left).trans (h'.same_right w h.right)

/-! ### Arrays and maps -/

theorem array (h : List.Forall₂ (Interchangeable I) vs ws) :
    Interchangeable I (.array vs) (.array ws) where
  left := .array fun v hv => by
    obtain ⟨w, -, hvw⟩ := exists_of_mem_right h.flip hv
    exact hvw.left
  right := .array fun w hw => by
    obtain ⟨v, -, hvw⟩ := exists_of_mem_right h hw
    exact hvw.right
  same_left z hz := by
    cases z with
    | array zs =>
      rw [Bool.eq_iff_iff, same_array_iff, same_array_iff]
      refine ⟨fun hzs => forall₂_trans h.flip hzs fun w _ v z hmem hvw hvz => ?_,
        fun hzs => forall₂_trans h hzs fun v _ w z hmem hvw hwz => ?_⟩
      · exact (hvw.same_left z (hz.item hmem)).symm.trans hvz
      · exact (hvw.same_left z (hz.item hmem)).trans hwz
    | _ => rfl
  same_right z hz := by
    cases z with
    | array zs =>
      rw [Bool.eq_iff_iff, same_array_iff, same_array_iff]
      refine ⟨fun hzs => forall₂_trans hzs h fun z hmem v w _ hzv hvw => ?_,
        fun hzs => forall₂_trans hzs h.flip fun z hmem w v _ hzw hvw => ?_⟩
      · exact (hvw.same_right z (hz.item hmem)).symm.trans hzv
      · exact (hvw.same_right z (hz.item hmem)).trans hzw
    | _ => rfl

theorem map (h : Matched (Entrywise (Interchangeable I)) es fs) (hes : (es.map (·.1)).Nodup)
    (hfs : (fs.map (·.1)).Nodup) : Interchangeable I (.map es) (.map fs) where
  left := by
    refine .map (fun e he => ?_) hes
    obtain ⟨f, -, hef⟩ := h.exists_of_mem he
    exact hef.2.left
  right := by
    refine .map (fun f hf => ?_) hfs
    obtain ⟨e, -, hef⟩ := h.symm.exists_of_mem hf
    exact hef.2.right
  same_left z hz := by
    cases z with
    | map gs =>
      have hgs : (gs.map (·.1)).Nodup := hz.fits
      rw [Bool.eq_iff_iff, same_map_iff hgs, same_map_iff hgs]
      refine ⟨fun hg => h.symm.trans hg fun f _ e g hmem hef heg => ⟨?_, ?_⟩,
        fun hg => h.trans hg fun e _ f g hmem hef hfg => ⟨hef.1.trans hfg.1, ?_⟩⟩
      · exact hef.1.symm.trans heg.1
      · exact (hef.2.same_left g.2 (hz.entry hmem)).symm.trans heg.2
      · exact (hef.2.same_left g.2 (hz.entry hmem)).trans hfg.2
    | _ => rfl
  same_right z hz := by
    cases z with
    | map gs =>
      rw [Bool.eq_iff_iff, same_map_iff hes, same_map_iff hfs]
      refine ⟨fun hg => hg.trans h fun g hmem e f _ hge hef => ⟨hge.1.trans hef.1, ?_⟩,
        fun hg => hg.trans h.symm fun g hmem f e _ hgf hef => ⟨?_, ?_⟩⟩
      · exact (hef.2.same_right g.2 (hz.entry hmem)).symm.trans hge.2
      · exact hgf.1.trans hef.1.symm
      · exact (hef.2.same_right g.2 (hz.entry hmem)).trans hgf.2
    | _ => rfl

/-! ### Numbers -/

theorem float {x y : Binary64} (h : x.equal y) : Interchangeable I (.float x) (.float y) where
  left := .scalar rfl (Binary64.equal_iff.1 h).1
  right := .scalar rfl (Binary64.equal_iff.1 h).2.1
  same_left z hz := by
    cases z with
    | int j => exact Binary64.equal_congr_right h _
    | float y => exact Binary64.equal_congr_left h y
    | _ => rfl
  same_right z hz := by
    cases z with
    | int j => exact Binary64.equal_congr_right h _
    | float y => exact Binary64.equal_congr_right h y
    | _ => rfl

/-- An integer and a double that is equal to no other one of the integers. -/
theorem int_float {i : Int64} {x : Binary64} (hi : I i) (h : (Binary64.ofInt i.toInt).equal x)
    (honly : ∀ j, I j → (Binary64.ofInt j.toInt).equal x → j = i) :
    Interchangeable I (.int i) (.float x) where
  left := .scalar rfl hi
  right := .scalar rfl (Binary64.equal_iff.1 h).2.1
  same_left z hz := by
    cases z with
    | int j =>
      have hj : I j := hz.fits
      rw [Bool.eq_iff_iff, same_int, beq_iff_eq]
      refine ⟨?_, fun hjx => (honly j hj hjx).symm⟩
      rintro rfl
      exact h
    | float y => exact Binary64.equal_congr_left h y
    | _ => rfl
  same_right z hz := by
    cases z with
    | int j =>
      have hj : I j := hz.fits
      rw [Bool.eq_iff_iff, same_int, beq_iff_eq]
      refine ⟨?_, honly j hj⟩
      rintro rfl
      exact h
    | float y =>
      rw [Bool.eq_iff_iff]
      refine ⟨fun hy => Binary64.equal_symm (Binary64.equal_trans (Binary64.equal_symm h) hy), ?_⟩
      exact fun hy => Binary64.equal_trans h (Binary64.equal_symm hy)
    | _ => rfl

theorem symbol {s s' : Symbol} (h : s == s') : Interchangeable I (.symbol s) (.symbol s') where
  left := .scalar rfl trivial
  right := .scalar rfl trivial
  same_left z hz := by
    cases z with
    | symbol z => exact congrArg (· == z.serial) (beq_iff_eq.1 h)
    | _ => rfl
  same_right z hz := by
    cases z with
    | symbol z => exact congrArg (z.serial == ·) (beq_iff_eq.1 h)
    | _ => rfl

end Interchangeable

/-! ## Exact values -/

/-- Among these values, a double is equal to an integer only if it holds it, and there are no NaNs
and no maps that repeat a name. -/
structure Exact (ps : List Value) : Prop where
  noNaN : ∀ x, .float x ∈ ps → x.isNaN = false
  distinctNames : ∀ es, .map es ∈ ps → (es.map (·.1)).Nodup
  holds : ∀ i x, .int i ∈ ps → .float x ∈ ps → (Binary64.ofInt i.toInt).equal x →
    x.toInt? = some i.toInt

theorem Exact.of_subset {ps qs : List Value} (h : Exact ps) (hqs : qs ⊆ ps) : Exact qs where
  noNaN x hx := h.noNaN x (hqs hx)
  distinctNames es hes := h.distinctNames es (hqs hes)
  holds i x hi hx := h.holds i x (hqs hi) (hqs hx)

/-- The integer is one of these values, or one of them holds it. -/
def Held (ps : List Value) (i : Int64) : Prop :=
  .int i ∈ ps ∨ ∃ x, .float x ∈ ps ∧ x.toInt? = some i.toInt

namespace Exact

variable {ps : List Value} (h : Exact ps)
include h

theorem drawn (hv : v.parts ⊆ ps) : v.Drawn (Held ps) := by
  intro p hp
  cases p with
  | float x => exact h.noNaN x (hv hp)
  | int i => exact .inl (hv hp)
  | map es => exact h.distinctNames es (hv hp)
  | _ => trivial

theorem toInt?_of_equal {i : Int64} {x : Binary64} (hi : Held ps i) (hx : .float x ∈ ps)
    (heq : (Binary64.ofInt i.toInt).equal x) : x.toInt? = some i.toInt := by
  rcases hi with hi | ⟨y, -, hyi⟩
  · exact h.holds i x hi hx heq
  · have hyx : y.equal x :=
      Binary64.equal_trans (Binary64.equal_symm (Binary64.equal_ofInt_of_toInt? hyi)) heq
    rw [← Binary64.toInt?_congr hyx, hyi]

theorem int_float {i : Int64} {x : Binary64} (hi : .int i ∈ ps) (hx : .float x ∈ ps)
    (heq : (Binary64.ofInt i.toInt).equal x) :
    Interchangeable (Held ps) (.int i) (.float x) := by
  refine .int_float (.inl hi) heq fun j hj hjx => ?_
  have hboth := (h.toInt?_of_equal hj hx hjx).symm.trans (h.toInt?_of_equal (.inl hi) hx heq)
  exact Int64.toInt_inj.1 (Option.some.inj hboth)

/-- **Equal values compare alike with all others.** -/
theorem interchangeable (hv : v.parts ⊆ ps) (hw : w.parts ⊆ ps) (hsame : v.same w) :
    Interchangeable (Held ps) v w := by
  induction v using inductionOn generalizing w with
  | array vs ih =>
    cases w with
    | array ws =>
      have hitems : List.Forall₂ (fun v w => v.same w = true) vs ws := same_array_iff.1 hsame
      refine .array (forall₂_imp_of_mem₂ hitems fun v hmem w hmem' hvw => ?_)
      exact ih v hmem (forall_items_parts_subset hv v hmem) (forall_items_parts_subset hw w hmem')
        hvw
    | _ => cases hsame
  | map es ih =>
    cases w with
    | map fs =>
      have hes := h.distinctNames es (hv (self_mem_parts _))
      have hfs := h.distinctNames fs (hw (self_mem_parts _))
      refine .map ((matched_of_same hsame).imp fun e hmem f hmem' hef => ⟨hef.1, ?_⟩) hes hfs
      exact ih e hmem (forall_entries_parts_subset hv e hmem)
        (forall_entries_parts_subset hw f hmem') hef.2
    | _ => cases hsame
  | int i =>
    cases w with
    | int j =>
      obtain rfl : i = j := beq_iff_eq.1 hsame
      exact .refl (h.drawn hv)
    | float x => exact h.int_float (hv (self_mem_parts _)) (hw (self_mem_parts _)) hsame
    | _ => cases hsame
  | float x =>
    cases w with
    | int j => exact (h.int_float (hw (self_mem_parts _)) (hv (self_mem_parts _)) hsame).symm
    | float y => exact .float hsame
    | _ => cases hsame
  | symbol s =>
    cases w with
    | symbol s' => exact .symbol hsame
    | _ => cases hsame
  | undefined | null | bool | string | wrapper | function =>
    obtain rfl := eq_of_same rfl hsame
    exact .refl (h.drawn hv)

end Exact

end ScriptBridge.Script.Value
