import ScriptBridge.Proofs.Text.Transcoding

/-! # Unpaired surrogates

Which units of a sequence are surrogates without a partner is told by their places alone, without
reading the sequence from the left: `Utf16.isUnpaired`. The two decoders agree with that.

* `Utf16.repair` puts U+FFFD into the places of unpaired surrogates. What is decoded lossily is what
  has these units: `Utf16.units_ofString_lossy`.
* Strict decoding fails exactly where there is something to repair:
  `Utf16.toString?_eq_none_iff`.
-/

namespace ScriptBridge.Utf16
set_option autoImplicit false

/-! ## Places -/

/-- Whether the unit at a place is a surrogate without a partner: a high one that no low one follows,
or a low one that follows no high one. -/
def isUnpaired (us : List UInt16) (i : Nat) : Bool :=
  us[i]?.any isHigh && !us[i + 1]?.any isLow ||
    us[i]?.any isLow && !(us.take i).getLast?.any isHigh

/-- The unit U+FFFD in the place of every unpaired surrogate, and the other units as they are. -/
def repair (us : List UInt16) : List UInt16 :=
  us.mapIdx fun i u => if isUnpaired us i then 0xfffd else u

theorem not_isLow_of_isHigh {u : UInt16} (hu : isHigh u) : isLow u = false := by
  simp only [isHigh, isLow, Bool.and_eq_true, Bool.and_eq_false_iff, decide_eq_true_eq,
    decide_eq_false_iff_not] at hu ⊢
  omega

/-- The unit between what comes before it and what comes after it. -/
theorem isUnpaired_append (before : List UInt16) (u : UInt16) (after : List UInt16) :
    isUnpaired (before ++ u :: after) before.length =
      (isHigh u && !after.head?.any isLow || isLow u && !before.getLast?.any isHigh) := by
  have hnext : (before ++ u :: after)[before.length + 1]? = after.head? := by
    rw [List.getElem?_append_right (Nat.le_add_right _ 1), Nat.add_sub_cancel_left,
      List.getElem?_cons_succ, List.head?_eq_getElem?]
  simp only [isUnpaired, hnext, List.take_left, List.getElem?_append_right (Nat.le_refl _),
    Nat.sub_self, List.getElem?_cons_zero, Option.any_some]

/-- An unpaired surrogate is a surrogate. -/
theorem exists_of_isUnpaired {us : List UInt16} {i : Nat} (h : isUnpaired us i) :
    ∃ u, us[i]? = some u ∧ isSurrogate u := by
  unfold isUnpaired at h
  cases hu : us[i]? with
  | none => simp [hu] at h
  | some u =>
    refine ⟨u, rfl, ?_⟩
    simp only [hu, Option.any_some, Bool.or_eq_true, Bool.and_eq_true] at h
    rw [isSurrogate, Bool.or_eq_true]
    exact h.imp And.left And.left

/-! ## Repairing -/

/-- The part of a repaired sequence that comes after some units. -/
def repairAfter (before us : List UInt16) : List UInt16 :=
  us.mapIdx fun i u => if isUnpaired (before ++ us) (before.length + i) then 0xfffd else u

theorem repairAfter_nil (us : List UInt16) : repairAfter [] us = repair us := by
  simp [repairAfter, repair]

theorem repairAfter_cons (before : List UInt16) (u : UInt16) (us : List UInt16) :
    repairAfter before (u :: us) =
      (if isHigh u && !us.head?.any isLow || isLow u && !before.getLast?.any isHigh
        then 0xfffd else u) :: repairAfter (before ++ [u]) us := by
  rw [repairAfter, List.mapIdx_cons, Nat.add_zero, isUnpaired_append, repairAfter,
    List.append_assoc, List.singleton_append, List.length_append, List.length_singleton]
  simp only [Nat.add_assoc, Nat.add_comm 1]

/-- No pair is torn between two parts of a sequence. -/
def Whole (before us : List UInt16) : Prop :=
  before.getLast?.any isHigh → us.head?.any isLow = false

theorem encodeChar_single (u : UInt16) :
    encodeChar ((single u).getD replacement) = [if isSurrogate u then 0xfffd else u] := by
  by_cases hu : isSurrogate u
  · rw [single, if_pos hu, if_pos hu]
    rfl
  · have hsingle : single u = some (Char.ofNat u.toNat) := by rw [single, if_neg hu]
    rw [hsingle, if_neg hu]
    exact encodeChar_of_single hsingle

/-- A unit that belongs to no pair is repaired if it is a surrogate. -/
theorem repairAfter_cons_of_whole {before us : List UInt16} {u : UInt16}
    (hbefore : Whole before (u :: us)) (hafter : Whole (before ++ [u]) us) :
    repairAfter before (u :: us) =
      encodeChar ((single u).getD replacement) ++ repairAfter (before ++ [u]) us := by
  have hplace : (isHigh u && !us.head?.any isLow || isLow u && !before.getLast?.any isHigh) =
      isSurrogate u := by
    simp only [Whole, List.head?_cons, Option.any_some, List.getLast?_append_cons,
      List.getLast?_singleton] at hbefore hafter
    rw [isSurrogate]
    cases hhigh : isHigh u <;> cases hlow : isLow u <;> simp_all
  rw [repairAfter_cons, hplace, encodeChar_single, List.singleton_append]

/-- What the scan makes of the rest of a sequence, if no pair is torn at its beginning. -/
theorem flatMap_scan (before us : List UInt16) (hwhole : Whole before us) :
    ((scan us).map (·.getD replacement)).flatMap encodeChar = repairAfter before us := by
  -- The cases are those of the scan; only in the third one a pair begins.
  induction us using scan.induct generalizing before with
  | case1 => rfl
  | case2 u =>
    rw [repairAfter_cons_of_whole hwhole fun _ => rfl]
    rfl
  | case3 u v rest hpair ih =>
    rw [Bool.and_eq_true] at hpair
    have hrest : Whole (before ++ [u] ++ [v]) rest := by
      intro hhigh
      rw [List.getLast?_append_cons, List.getLast?_singleton, Option.any_some] at hhigh
      rw [not_isLow_of_isHigh hhigh] at hpair
      cases hpair.2
    have hv : isHigh v = false := by
      cases hhigh : isHigh v with
      | false => rfl
      | true => cases (not_isLow_of_isHigh hhigh).symm.trans hpair.2
    rw [repairAfter_cons, repairAfter_cons, scan, if_pos (Bool.and_eq_true_iff.2 hpair),
      List.map_cons, List.flatMap_cons, ih _ hrest, Option.getD_some,
      encodeChar_pairChar hpair.1 hpair.2]
    simp [hpair.1, hpair.2, hv, not_isLow_of_isHigh hpair.1]
  | case4 u v rest hpair ih =>
    have hnext : Whole (before ++ [u]) (v :: rest) := by
      intro hhigh
      rw [List.getLast?_append_cons, List.getLast?_singleton, Option.any_some] at hhigh
      rw [hhigh, Bool.true_and] at hpair
      exact Bool.eq_false_iff.2 hpair
    rw [repairAfter_cons_of_whole hwhole hnext, scan, if_neg hpair, List.map_cons,
      List.flatMap_cons, ih _ hnext]

/-- **Lossy decoding keeps all but the unpaired surrogates**, and puts U+FFFD for each of them. -/
theorem units_ofString_lossy (s : Utf16) : (ofString s.lossy).units = repair s.units := by
  rw [← repairAfter_nil, ← flatMap_scan [] s.units nofun, ofString, lossy, String.toList_ofList]

theorem repair_eq_self_iff {us : List UInt16} :
    repair us = us ↔ ∀ i, isUnpaired us i = false := by
  constructor
  · intro h i
    by_contra hi
    rw [Bool.not_eq_false] at hi
    obtain ⟨u, hu, hsurrogate⟩ := exists_of_isUnpaired hi
    have hsame := congrArg (·[i]?) h
    simp only [repair, List.getElem?_mapIdx, hu, hi, Option.map_some, if_true,
      Option.some.injEq] at hsame
    rw [← hsame] at hsurrogate
    exact absurd hsurrogate (by decide)
  · intro h
    refine List.ext_getElem? fun i => ?_
    simp [repair, h i]

/-! ## Decoding -/

theorem lossy_of_toString? {s : Utf16} {text : String} (h : s.toString? = some text) :
    s.lossy = text := by
  obtain rfl := toString?_eq_some_iff.1 h
  rw [lossy, ofString, scan_flatMap_encodeChar]
  simp [Function.comp_def]

/-- **Strict decoding refuses unpaired surrogates** and nothing else. -/
theorem toString?_eq_none_iff {s : Utf16} :
    s.toString? = none ↔ ∃ i, isUnpaired s.units i = true := by
  rw [← not_iff_not, ← ne_eq, Option.ne_none_iff_exists', not_exists]
  simp only [Bool.not_eq_true]
  rw [← repair_eq_self_iff, ← units_ofString_lossy]
  constructor
  · rintro ⟨text, h⟩
    rw [lossy_of_toString? h, toString?_eq_some_iff.1 h]
  · intro h
    exact ⟨s.lossy, toString?_eq_some_iff.2 (congrArg Utf16.mk h)⟩

theorem spells_iff {s : Utf16} {text : String} : s.spells text ↔ s.toString? = some text := by
  rw [toString?_eq_some_iff, spells, beq_iff_eq, eq_comm]
  exact ⟨congrArg Utf16.mk, congrArg Utf16.units⟩

/-- **Transcoding is lossless and strict.** A text comes back from its units. A sequence of units is
decoded to the text that has these units, and refused exactly if one of them is an unpaired
surrogate. Lossy decoding gives the same text if there is one, and in any case the text whose units
are the given ones with U+FFFD for every unpaired surrogate. A sequence spells the texts that it is
decoded to. -/
theorem transcoding_lossless_strict (s : Utf16) (text : String) :
    (ofString text).toString? = some text ∧
    (s.toString? = some text ↔ (ofString text).units = s.units) ∧
    (s.toString? = none ↔ ∃ i, isUnpaired s.units i = true) ∧
    (∀ t ∈ s.toString?, s.lossy = t) ∧
    (ofString s.lossy).units =
      s.units.mapIdx (fun i u => if isUnpaired s.units i then 0xfffd else u) ∧
    (s.spells text = true ↔ s.toString? = some text) := by
  refine ⟨toString?_ofString text, ?_, toString?_eq_none_iff, fun t => lossy_of_toString?,
    s.units_ofString_lossy, spells_iff⟩
  rw [toString?_eq_some_iff]
  exact ⟨congrArg Utf16.units, congrArg Utf16.mk⟩

/-- A pair reversed and a pair cut short are three unpaired surrogates. -/
example : repair [0xdc00, 0xd83d, 0x41, 0xd83d, 0xde00, 0xd83d] =
    [0xfffd, 0xfffd, 0x41, 0xd83d, 0xde00, 0xfffd] := by decide

end ScriptBridge.Utf16
