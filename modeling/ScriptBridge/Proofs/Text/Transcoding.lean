import ScriptBridge.Proofs.Sequences
import ScriptBridge.Text.Utf16

/-! # Encoding and decoding

Encoding a text and decoding strictly are inverse to one another: `Utf16.toString?_eq_some_iff`. In
both directions the units are followed from the left, one character at a time.
-/

namespace ScriptBridge.Utf16
set_option autoImplicit false

/-! ## One character -/

theorem toNat_pairChar {u v : UInt16} (hu : isHigh u) (hv : isLow v) :
    (pairChar u v).toNat = 0x10000 + (u.toNat - 0xd800) * 0x400 + (v.toNat - 0xdc00) := by
  simp only [isHigh, isLow, Bool.and_eq_true, decide_eq_true_eq] at hu hv
  have hvalid : (0x10000 + (u.toNat - 0xd800) * 0x400 + (v.toNat - 0xdc00)).isValidChar :=
    .inr ⟨by omega, by omega⟩
  rw [pairChar, Char.ofNat, dif_pos hvalid]
  rfl

theorem encodeChar_pairChar {u v : UInt16} (hu : isHigh u) (hv : isLow v) :
    encodeChar (pairChar u v) = [u, v] := by
  have hn := toNat_pairChar hu hv
  simp only [isHigh, isLow, Bool.and_eq_true, decide_eq_true_eq] at hu hv
  have hbig : ¬ (pairChar u v).toNat < 0x10000 := by omega
  have hfirst : 0xd800 + ((pairChar u v).toNat - 0x10000) / 0x400 = u.toNat := by omega
  have hsecond : 0xdc00 + ((pairChar u v).toNat - 0x10000) % 0x400 = v.toNat := by omega
  simp only [encodeChar, if_neg hbig, hfirst, hsecond, UInt16.ofNat_toNat]

theorem encodeChar_of_single {u : UInt16} {c : Char} (h : single u = some c) :
    encodeChar c = [u] := by
  unfold single at h
  split at h
  · cases h
  next hu =>
    obtain rfl := Option.some.inj h
    simp only [isSurrogate, isHigh, isLow, Bool.or_eq_true, Bool.and_eq_true, decide_eq_true_eq]
      at hu
    have hlt := u.toNat_lt
    have hvalid : u.toNat.isValidChar := by
      unfold Nat.isValidChar
      omega
    have hn : (Char.ofNat u.toNat).toNat = u.toNat := by
      rw [Char.ofNat, dif_pos hvalid]
      rfl
    rw [encodeChar, hn, if_pos hlt, UInt16.ofNat_toNat]

/-- A unit that is no high surrogate pairs with nothing after it. -/
theorem scan_cons_of_not_high {u : UInt16} (hu : isHigh u = false) (us : List UInt16) :
    scan (u :: us) = single u :: scan us := by
  cases us with
  | nil => rfl
  | cons v rest => simp [scan, hu]

/-- The units of a character: one that is no surrogate, or a pair. -/
theorem encodeChar_cases (c : Char) :
    (∃ u, encodeChar c = [u] ∧ isHigh u = false ∧ single u = some c) ∨
    (∃ u v, encodeChar c = [u, v] ∧ isHigh u ∧ isLow v ∧ pairChar u v = c) := by
  have hvalid := c.valid
  change c.toNat.isValidChar at hvalid
  unfold Nat.isValidChar at hvalid
  by_cases hsmall : c.toNat < 0x10000
  · obtain ⟨u, hu⟩ : ∃ u, u = UInt16.ofNat c.toNat := ⟨_, rfl⟩
    have hn : u.toNat = c.toNat := by rw [hu, UInt16.toNat_ofNat_of_lt' hsmall]
    have hhigh : isHigh u = false := by
      simp only [isHigh, hn, Bool.and_eq_false_iff, decide_eq_false_iff_not]
      omega
    have hlow : isLow u = false := by
      simp only [isLow, hn, Bool.and_eq_false_iff, decide_eq_false_iff_not]
      omega
    refine .inl ⟨u, by rw [encodeChar, if_pos hsmall, hu], hhigh, ?_⟩
    simp [single, isSurrogate, hhigh, hlow, hn]
  · obtain ⟨u, hu⟩ : ∃ u, u = UInt16.ofNat (0xd800 + (c.toNat - 0x10000) / 0x400) := ⟨_, rfl⟩
    obtain ⟨v, hv⟩ : ∃ v, v = UInt16.ofNat (0xdc00 + (c.toNat - 0x10000) % 0x400) := ⟨_, rfl⟩
    have hun : u.toNat = 0xd800 + (c.toNat - 0x10000) / 0x400 := by
      rw [hu, UInt16.toNat_ofNat_of_lt' (show _ < 65536 by omega)]
    have hvn : v.toNat = 0xdc00 + (c.toNat - 0x10000) % 0x400 := by
      rw [hv, UInt16.toNat_ofNat_of_lt' (show _ < 65536 by omega)]
    have hhigh : isHigh u := by
      simp only [isHigh, hun, Bool.and_eq_true, decide_eq_true_eq]
      omega
    have hlow : isLow v := by
      simp only [isLow, hvn, Bool.and_eq_true, decide_eq_true_eq]
      omega
    refine .inr ⟨u, v, by rw [encodeChar, if_neg hsmall, hu, hv], hhigh, hlow, ?_⟩
    rw [← Char.toNat_inj, toNat_pairChar hhigh hlow]
    omega

theorem scan_encodeChar (c : Char) (us : List UInt16) :
    scan (encodeChar c ++ us) = some c :: scan us := by
  rcases encodeChar_cases c with ⟨u, hunits, hhigh, hsingle⟩ | ⟨u, v, hunits, hhigh, hlow, hpair⟩
  · rw [hunits, List.singleton_append, scan_cons_of_not_high hhigh, hsingle]
  · rw [hunits]
    simp [scan, hhigh, hlow, hpair]

/-! ## Whole texts -/

theorem scan_flatMap_encodeChar (cs : List Char) : scan (cs.flatMap encodeChar) = cs.map some := by
  induction cs with
  | nil => rfl
  | cons c rest ih => rw [List.flatMap_cons, scan_encodeChar, ih, List.map_cons]

theorem flatMap_encodeChar_of_scan (us : List UInt16) {cs : List Char}
    (h : scan us = cs.map some) : cs.flatMap encodeChar = us := by
  -- The cases are those of the scan: the end, a last unit, a pair, and a unit without a partner.
  induction us using scan.induct generalizing cs with
  | case1 =>
    rw [scan, eq_comm, List.map_eq_nil_iff] at h
    rw [h]
    rfl
  | case2 u =>
    rw [scan, eq_comm, List.map_eq_singleton_iff] at h
    obtain ⟨c, rfl, hc⟩ := h
    simpa using encodeChar_of_single hc.symm
  | case3 u v rest hpair ih =>
    rw [scan, if_pos hpair, eq_comm, List.map_eq_cons_iff] at h
    obtain ⟨c, cs, rfl, hc, hrest⟩ := h
    rw [Bool.and_eq_true] at hpair
    rw [List.flatMap_cons, Option.some.inj hc, encodeChar_pairChar hpair.1 hpair.2, ih hrest.symm]
    rfl
  | case4 u v rest hpair ih =>
    rw [scan, if_neg hpair, eq_comm, List.map_eq_cons_iff] at h
    obtain ⟨c, cs, rfl, hc, hrest⟩ := h
    rw [List.flatMap_cons, encodeChar_of_single hc.symm, ih hrest.symm]
    rfl

/-- **Strict decoding inverts encoding**, and only what is an encoding is decoded. -/
theorem toString?_eq_some_iff {s : Utf16} {text : String} :
    s.toString? = some text ↔ ofString text = s := by
  have hmapM : ∀ cs : List Char, (scan s.units).mapM id = some cs ↔ scan s.units = cs.map some := by
    intro cs
    rw [mapM_eq_some_iff, ← List.forall₂_eq_eq_eq, List.forall₂_map_right_iff]
    rfl
  constructor
  · intro h
    obtain ⟨cs, hcs, rfl⟩ := Option.map_eq_some_iff.1 h
    have hunits := flatMap_encodeChar_of_scan s.units ((hmapM cs).1 hcs)
    rw [ofString, String.toList_ofList, hunits]
  · rintro rfl
    have hcs := (hmapM text.toList).2 (scan_flatMap_encodeChar text.toList)
    rw [toString?, hcs, Option.map_some, String.ofList_toList]

@[simp]
theorem toString?_ofString (text : String) : (ofString text).toString? = some text :=
  toString?_eq_some_iff.2 rfl

end ScriptBridge.Utf16
