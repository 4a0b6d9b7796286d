import ScriptBridge.Proofs.Conversion.Answering
import ScriptBridge.Proofs.Conversion.Twins

/-! # What a set drops

An array that converts to a list converts to a set, whose items are among those of the list. The
converse needs that the elements which the set drops, unconverted, are like those that it keeps:
`Bridge.set_keeps_items`. Elements that are equal but not the same are so if they are `Comparable`.
-/

namespace ScriptBridge
set_option autoImplicit false

open Script.Value (fresh Exact)

namespace Bridge

variable {b : Bridge} {index : Nat} {t : DeclaredType} {items : List Script.Value}
  {v w : Script.Value} {n m : Native.Value} {ns ms : List Native.Value}

/-- What two equal values need for the type to take them alike. -/
structure Comparable (b : Bridge) (t : DeclaredType) (v w : Script.Value) : Prop where
  exact : Exact (v.parts ++ w.parts)
  keepsNames : t.KeepsNames (v.parts ++ w.parts)
  nesting : t.nesting < b.options.maxDepth

/-- The elements of an array that are equal are the same, or else comparable. -/
def Uniform (b : Bridge) (t : DeclaredType) (items : List Script.Value) : Prop :=
  ∀ v ∈ items, ∀ w ∈ items, v.same w → v ≠ w → b.Comparable t v w

theorem Uniform.of_exact (hexact : Exact (Script.Value.array items).parts)
    (hkeeps : t.KeepsNames (Script.Value.array items).parts)
    (hnesting : t.nesting < b.options.maxDepth) : b.Uniform t items := by
  intro v hv w hw _ _
  have hparts : v.parts ++ w.parts ⊆ (Script.Value.array items).parts :=
    List.append_subset.2
      ⟨Script.Value.parts_subset_array hv, Script.Value.parts_subset_array hw⟩
  exact ⟨hexact.of_subset hparts, hkeeps.of_subset hparts, hnesting⟩

/-! ## Arrays that are accepted -/

theorem fromScript_list_iff : b.fromScript (.array items) (.list t) index = .ok n ↔
    ∃ ns, List.Forall₂ (fun v n => b.fromScriptAt index t 1 v = .ok n) items ns ∧
      .list ns = n := by
  refine fromScriptAt_list_iff.trans ⟨?_, ?_⟩
  · rintro ⟨-, _, ns, heq, hns, rfl⟩
    cases heq
    exact ⟨ns, hns, rfl⟩
  · rintro ⟨ns, hns, rfl⟩
    exact ⟨Nat.zero_le _, items, ns, rfl, hns, rfl⟩

theorem exists_list_iff : (∃ n, b.fromScript (.array items) (.list t) index = .ok n) ↔
    ∀ v ∈ items, ∃ n, b.fromScriptAt index t 1 v = .ok n := by
  rw [← exists_forall₂_iff]
  simp only [fromScript_list_iff]
  exact ⟨fun ⟨_, ns, hns, _⟩ => ⟨ns, hns⟩, fun ⟨ns, hns⟩ => ⟨_, ns, hns, rfl⟩⟩

theorem exists_set_iff : (∃ n, b.fromScript (.array items) (.set t) index = .ok n) ↔
    ∀ v ∈ fresh [] items, ∃ n, b.fromScriptAt index t 1 v = .ok n := by
  rw [← exists_forall₂_iff]
  simp only [fromScript_set_iff]
  exact ⟨fun ⟨_, ns, hns, _⟩ => ⟨ns, hns⟩, fun ⟨ns, hns⟩ => ⟨_, ns, hns, rfl⟩⟩

/-- A set keeps its elements in the order of the list. -/
theorem exists_sublist_set (hlist : b.fromScript (.array items) (.list t) index = .ok (.list ns)) :
    ∃ ms, b.fromScript (.array items) (.set t) index = .ok (.set ms) ∧ ms.Sublist ns := by
  obtain ⟨_, hns, heq⟩ := fromScript_list_iff.1 hlist
  cases heq
  obtain ⟨ms, hms, hsub⟩ := exists_sublist_forall₂ hns (Script.Value.fresh_sublist [] items)
  exact ⟨ms, fromScript_set_iff.2 ⟨ms, hms, rfl⟩, hsub⟩

/-! ## Elements that are dropped -/

/-- The two come back as equal values, and the bridge is left as it is. -/
def ComeBackEqual (b : Bridge) (m n : Native.Value) : Prop :=
  ∃ w v, b.toScript m = (.ok w, b) ∧ b.toScript n = (.ok v, b) ∧ w == v

section
variable (hf : b.registry.Faithful)
  (hnan : ∀ x, .float x ∈ (Script.Value.array items).parts → x.isNaN = false)
  (huniform : b.Uniform t items)
include hf hnan huniform

/-- Of two equal elements, what one is converted to stands for what the other is converted to. -/
theorem exists_of_same (hv : v ∈ items) (hw : w ∈ items) (hsame : v.same w)
    (hn : b.fromScriptAt index t 1 v = .ok n) :
    ∃ m, b.fromScriptAt index t 1 w = .ok m ∧ b.ComeBackEqual n m := by
  by_cases heq : v = w
  · subst heq
    have hparts := Script.Value.parts_subset_array hv
    obtain ⟨v', hself, hv'⟩ := answers_of_fromScriptAt hf t (fun x hx => hnan x (hparts hx)) hn
    exact ⟨n, hn, v', v', hv' 0 (Nat.zero_le _), hv' 0 (Nat.zero_le _), hself⟩
  · have hc := huniform v hv w hw hsame heq
    have hnesting := hc.nesting
    obtain ⟨m, hm, htwins⟩ := carries hf hc.exact t hc.keepsNames 1 v w n (by omega)
      (List.subset_append_left _ _) (List.subset_append_right _ _) hsame hn
    obtain ⟨v', w', hv', hw', halike⟩ := htwins 0 (Nat.zero_le _)
    exact ⟨m, hm, v', w', hv', hw', halike.same⟩

theorem exists_set_iff_list : (∃ m, b.fromScript (.array items) (.set t) index = .ok m) ↔
    ∃ n, b.fromScript (.array items) (.list t) index = .ok n := by
  rw [exists_set_iff, exists_list_iff]
  refine ⟨fun h v hv => ?_, fun h v hv => h v ((Script.Value.fresh_sublist [] items).subset hv)⟩
  rcases Script.Value.exists_fresh_same [] hv with hfresh | ⟨u, hu, hsame⟩
  · exact h v hfresh
  · obtain ⟨m, hm⟩ := h u hu
    have humem := (Script.Value.fresh_sublist [] items).subset hu
    obtain ⟨n, hn, -⟩ := exists_of_same hf hnan huniform humem hv hsame hm
    exact ⟨n, hn⟩

/-- Every item of the list has one of the set that stands for it. -/
theorem exists_item_of_list
    (hlist : b.fromScript (.array items) (.list t) index = .ok (.list ns))
    (hset : b.fromScript (.array items) (.set t) index = .ok (.set ms)) :
    ∀ n ∈ ns, ∃ m ∈ ms, b.ComeBackEqual m n := by
  obtain ⟨_, hns, heq⟩ := fromScript_list_iff.1 hlist
  cases heq
  obtain ⟨_, hms, heq⟩ := fromScript_set_iff.1 hset
  cases heq
  intro n hn
  obtain ⟨v, hv, hvn⟩ := exists_of_mem_right hns hn
  -- A kept element is equal to itself, as it has no NaN in it.
  obtain ⟨u, hu, hsame⟩ : ∃ u ∈ fresh [] items, u.same v := by
    have hself := Script.Value.same_self v fun x hx =>
      hnan x (Script.Value.parts_subset_array hv hx)
    exact (Script.Value.exists_fresh_same [] hv).elim (fun hv => ⟨v, hv, hself⟩) fun hu => hu
  obtain ⟨m, hm, hum⟩ := exists_of_mem_right hms.flip hu
  have humem := (Script.Value.fresh_sublist [] items).subset hu
  obtain ⟨n', hn', hback⟩ := exists_of_same hf hnan huniform humem hv hsame hum
  cases hvn.symm.trans hn'
  exact ⟨m, hm, hback⟩

end

/-- **What becomes of the elements that a set drops.** An array that converts to a list converts to
a set, of some of the items of the list. If there is no NaN in the array, and equal elements of it
that are not the same are comparable, then the array converts to a set only if it converts to a
list, in whatever order its elements are; and every item of the list comes back equal to an item of
the set. -/
theorem set_keeps_items (b : Bridge) (hb : b.Reachable) (t : DeclaredType) (index : Nat)
    (items : List Script.Value) :
    (∀ ns, b.fromScript (.array items) (.list t) index = .ok (.list ns) →
      ∃ ms, b.fromScript (.array items) (.set t) index = .ok (.set ms) ∧ ms.Sublist ns) ∧
    ((∀ x, .float x ∈ (Script.Value.array items).parts → x.isNaN = false) →
      b.Uniform t items →
      ((∃ m, b.fromScript (.array items) (.set t) index = .ok m) ↔
        ∃ n, b.fromScript (.array items) (.list t) index = .ok n) ∧
      (∀ ns ms, b.fromScript (.array items) (.list t) index = .ok (.list ns) →
        b.fromScript (.array items) (.set t) index = .ok (.set ms) →
        ms ⊆ ns ∧ ∀ n ∈ ns, ∃ m ∈ ms, b.ComeBackEqual m n) ∧
      ∀ items', items'.Perm items →
        ((∃ m, b.fromScript (.array items') (.set t) index = .ok m) ↔
          ∃ m, b.fromScript (.array items) (.set t) index = .ok m)) := by
  refine ⟨fun ns => exists_sublist_set, fun hnan huniform => ?_⟩
  have hf := hb.faithful
  refine ⟨exists_set_iff_list hf hnan huniform, fun ns ms hlist hset => ⟨?_, ?_⟩,
    fun items' hperm => ?_⟩
  · obtain ⟨ms', hset', hsub⟩ := exists_sublist_set hlist
    cases hset.symm.trans hset'
    exact hsub.subset
  · exact exists_item_of_list hf hnan huniform hlist hset
  · have hnan' : ∀ x, .float x ∈ (Script.Value.array items').parts → x.isNaN = false := by
      intro x hx
      obtain ⟨v, hv, hx⟩ := (Script.Value.mem_parts_array.1 hx).resolve_left nofun
      exact hnan x (Script.Value.parts_subset_array (hperm.subset hv) hx)
    have huniform' : b.Uniform t items' :=
      fun v hv w hw => huniform v (hperm.subset hv) w (hperm.subset hw)
    rw [exists_set_iff_list hf hnan' huniform', exists_set_iff_list hf hnan huniform,
      exists_list_iff, exists_list_iff]
    exact ⟨fun h v hv => h v (hperm.symm.subset hv), fun h v hv => h v (hperm.subset hv)⟩

/-- Two maps with the same numbers, in another order and as the other kind of number. -/
def swapped : List Script.Value :=
  [.map [(.ofString "a", .int 1), (.ofString "b", .float (.ofInt 2))],
    .map [(.ofString "b", .int 2), (.ofString "a", .float (.ofInt 1))]]

theorem exact_swapped : Exact (Script.Value.array swapped).parts := by
  constructor
  · intro x hx
    simp only [swapped, Script.Value.parts, Script.Value.partsOfItems, Script.Value.partsOfEntries]
      at hx
    obtain rfl | rfl : x = .ofInt 2 ∨ x = .ofInt 1 := by simpa using hx
    · exact Binary64.isNaN_ofInt 2
    · exact Binary64.isNaN_ofInt 1
  · intro es hes
    simp only [swapped, Script.Value.parts, Script.Value.partsOfItems, Script.Value.partsOfEntries]
      at hes
    have hnames : es.map (·.1) = [.ofString "a", .ofString "b"] ∨
        es.map (·.1) = [.ofString "b", .ofString "a"] := by
      simp at hes
      rcases hes with rfl | rfl <;> simp
    rcases hnames with heq | heq <;> rw [heq] <;> decide
  · intro i x hi hx hequal
    simp only [swapped, Script.Value.parts, Script.Value.partsOfItems, Script.Value.partsOfEntries]
      at hi hx
    obtain rfl | rfl : i = 1 ∨ i = 2 := by simpa using hi
    all_goals
      obtain rfl | rfl : x = .ofInt 2 ∨ x = .ofInt 1 := by simpa using hx
      all_goals
        revert hequal
        decide

/-- Of the two maps the set drops one, and both items of the list come back equal to the other. -/
theorem set_keeps_items_swapped :
    let t := DeclaredType.map .string .integer
    let first : Native.Value := .map [(.string "a", .integer 1), (.string "b", .integer 2)]
    let second : Native.Value := .map [(.string "b", .integer 2), (.string "a", .integer 1)]
    let b : Bridge := {}
    b.Reachable ∧ (∀ x, .float x ∈ (Script.Value.array swapped).parts → x.isNaN = false) ∧
      b.Uniform t swapped ∧
      b.fromScript (.array swapped) (.list t) 0 = .ok (.list [first, second]) ∧
      b.fromScript (.array swapped) (.set t) 0 = .ok (.set [first]) ∧
      ∀ n ∈ [first, second], ∃ m ∈ [first], b.ComeBackEqual m n := by
  intro t first second b
  have hb : b.Reachable := ⟨{}, .refl⟩
  have huniform : b.Uniform t swapped := by
    refine .of_exact exact_swapped (.of_noNumber (fun key value hmap => ?_) exact_swapped) ?_
    · obtain ⟨rfl, rfl⟩ : key = .string ∧ value = .integer := by
        simpa [t, DeclaredType.parts] using hmap
      simp [DeclaredType.parts]
    · decide
  have hlist : b.fromScript (.array swapped) (.list t) 0 = .ok (.list [first, second]) := rfl
  have hset : b.fromScript (.array swapped) (.set t) 0 = .ok (.set [first]) := rfl
  obtain ⟨-, hkeeps⟩ := set_keeps_items b hb t 0 swapped
  obtain ⟨-, hitems, -⟩ := hkeeps exact_swapped.noNaN huniform
  exact ⟨hb, exact_swapped.noNaN, huniform, hlist, hset, (hitems _ _ hlist hset).2⟩

/-- The greatest integer and the double that it is rounded to: as a set the array is accepted, as a
list it is not, and with its elements in the other order it is not accepted as a set either. -/
theorem set_drops_unvalidated :
    let items : List Script.Value := [.int Int64.maxValue, .float ⟨0x43e0000000000000⟩]
    let b : Bridge := {}
    b.Reachable ∧ (∀ x, .float x ∈ (Script.Value.array items).parts → x.isNaN = false) ∧
      b.fromScript (.array items) (.set .integer) 0 = .ok (.set [.integer Int64.maxValue]) ∧
      b.fromScript (.array items) (.list .integer) 0 = .error (.conversion 0 .integer "number") ∧
      b.fromScript (.array items.reverse) (.set .integer) 0 =
        .error (.conversion 0 .integer "number") := by
  refine ⟨⟨{}, .refl⟩, fun x hx => ?_, rfl, rfl, rfl⟩
  obtain rfl : x = ⟨0x43e0000000000000⟩ := by
    simpa [Script.Value.parts, Script.Value.partsOfItems] using hx
  decide

end Bridge
end ScriptBridge
