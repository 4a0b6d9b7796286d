import ScriptBridge.Proofs.Script.Entries

/-! # Maps as multisets of entries

Two maps are meant to be equal if their entries can be paired, in any order, each with an equal one.
Equal maps always can be paired so, but greedy matching finds a pairing for sure only where the
entries are coherent: `map_beq_iff_matched`.

* `Sharp` says of values that no double among them is equal to two integers among them. Among sharp
  values equality is transitive, at any depth, and entries are coherent.
* `matched_not_beq`: an integer that a double is rounded to, taken by that double.
-/

namespace ScriptBridge.Script.Value
set_option autoImplicit false

variable {es fs : List (Utf16 × Value)} {ps : List Value} {u v w : Value}

/-! ## Coherent entries -/

/-- Entries are coherent exactly if greedy matching finds a pairing, where there is one, for whatever
maps are made of some of them. -/
theorem coherent_iff : Coherent (Entrywise fun v w => v.same w) es fs ↔
    ∀ es' fs', es'.Subperm es → fs'.Subperm fs →
      ((map es').same (.map fs') ↔ Matched (Entrywise fun v w => v.same w) es' fs') := by
  constructor
  · intro h es' fs' hes hfs
    exact same_map_iff_of_coherent (h.of_subset hes.subset hfs.subset)
  · intro h e he e' he' f hf f' hf' hef he'f he'f'
    by_contra hnot
    have hne : e' ≠ e := by
      rintro rfl
      exact hnot he'f'
    have hne' : f ≠ f' := by
      rintro rfl
      exact hnot hef
    have hes : [e', e].Subperm es := List.subperm_of_subset (by simp [hne]) (by simp [he, he'])
    have hfs : [f, f'].Subperm fs := List.subperm_of_subset (by simp [hne']) (by simp [hf, hf'])
    have hmatched : Matched (Entrywise fun v w => v.same w) [e', e] [f, f'] :=
      ⟨[f', f], .cons he'f' (.cons hef .nil), .swap f f' []⟩
    have hsame := (h _ _ hes hfs).2 hmatched
    rw [same_map_eq_eachTakes, Bool.and_eq_true] at hsame
    rw [entrywise_same_eq] at he'f hnot
    -- The first entry takes what the second one needs.
    have htaken : removeFirst? (fun g : Utf16 × Value => g.1 == e'.1 && e'.2.same g.2) [f, f'] =
        some [f'] := if_pos he'f
    rw [eachTakes_cons_of_some htaken] at hsame
    have hleft := matched_of_eachTakes hsame.2 rfl
    obtain ⟨g, hg, heg⟩ := hleft.exists_of_mem List.mem_cons_self
    obtain rfl := List.mem_singleton.1 hg
    exact hnot heg

/-! ## Transitivity -/

/-- The value is equal to what its equals are equal to, among values that are made of `ps`. -/
def TransitiveFrom (ps : List Value) (u : Value) : Prop :=
  ∀ v w : Value, v.parts ⊆ ps → w.parts ⊆ ps → u.same v → v.same w → u.same w

/-- From an entry to a fourth one by way of two others that are equal in turn. -/
theorem coherent_of_trans (hes : ∀ e ∈ es, e.2.parts ⊆ ps) (hfs : ∀ f ∈ fs, f.2.parts ⊆ ps)
    (htrans : ∀ e ∈ es, TransitiveFrom ps e.2) :
    Coherent (Entrywise fun v w => v.same w) es fs := by
  intro e he e' he' f hf f' hf' hef he'f he'f'
  have hfe' : f.2.same e'.2 := by rw [same_comm, he'f.2]
  have hee' := htrans e he f.2 e'.2 (hfs f hf) (hes e' he') hef.2 hfe'
  exact ⟨hef.1.trans (he'f.1.symm.trans he'f'.1),
    htrans e he e'.2 f'.2 (hes e' he') (hfs f' hf') hee' he'f'.2⟩

theorem TransitiveFrom.array {us : List Value} (h : ∀ u ∈ us, TransitiveFrom ps u) :
    TransitiveFrom ps (.array us) := by
  intro v w hv hw huv hvw
  cases v with
  | array vs =>
    cases w with
    | array ws =>
      have hsame : List.Forall₂ (fun u v => u.same v = true ∧ v.parts ⊆ ps) us vs :=
        forall₂_imp_of_mem₂ (same_array_iff.1 huv) fun _ _ v hmem hsame =>
          ⟨hsame, forall_items_parts_subset hv v hmem⟩
      refine same_array_iff.2 (forall₂_trans hsame (same_array_iff.1 hvw) ?_)
      intro u hmem v w hmem' hsame hsame'
      exact h u hmem v w hsame.2 (forall_items_parts_subset hw w hmem') hsame.1 hsame'
    | _ => cases hvw
  | _ => cases huv

/-- The pairings of two maps in turn make one, and greedy matching finds it. -/
theorem TransitiveFrom.map (hu : (map es).parts ⊆ ps) (h : ∀ e ∈ es, TransitiveFrom ps e.2) :
    TransitiveFrom ps (.map es) := by
  intro v w hv hw huv hvw
  cases v with
  | map fs =>
    cases w with
    | map gs =>
      have hes := forall_entries_parts_subset hu
      have hgs := forall_entries_parts_subset hw
      have hsame : Matched (Entrywise fun v w => v.same w ∧ w.parts ⊆ ps) es fs :=
        (matched_of_same huv).imp fun _ _ f hf hef =>
          ⟨hef.1, hef.2, forall_entries_parts_subset hv f hf⟩
      have hmatched : Matched (Entrywise fun v w => v.same w) es gs :=
        hsame.trans (matched_of_same hvw) fun e he f g hg hef hfg =>
          ⟨hef.1.trans hfg.1, h e he f.2 g.2 hef.2.2 (hgs g hg) hef.2.1 hfg.2⟩
      exact (same_map_iff_of_coherent (coherent_of_trans hes hgs h)).2 hmatched
    | _ => cases hvw
  | _ => cases huv

theorem transitiveFrom_float (x : Binary64) : TransitiveFrom ps (.float x) := by
  intro v w _ _ huv hvw
  cases v with
  | int j =>
    cases w with
    | int k =>
      obtain rfl : j = k := beq_iff_eq.1 hvw
      exact huv
    | float y => exact Binary64.equal_trans (Binary64.equal_symm huv) hvw
    | _ => cases hvw
  | float y =>
    cases w with
    | int k => exact Binary64.equal_trans hvw (Binary64.equal_symm huv)
    | float z => exact Binary64.equal_trans huv hvw
    | _ => cases hvw
  | _ => cases huv

theorem transitiveFrom_symbol (s : Symbol) : TransitiveFrom ps (.symbol s) := by
  intro v w _ _ huv hvw
  cases v with
  | symbol t =>
    cases w with
    | symbol r =>
      have hst : s.serial = t.serial := beq_iff_eq.1 huv
      change (s.serial == r.serial) = true
      rw [hst]
      exact hvw
    | _ => cases hvw
  | _ => cases huv

/-! ## Sharp values -/

/-- No double among these values is equal to two different integers among them. -/
def Sharp (ps : List Value) : Prop := ∀ i j x, .int i ∈ ps → .int j ∈ ps → .float x ∈ ps →
  (Binary64.ofInt i.toInt).equal x → (Binary64.ofInt j.toInt).equal x → i = j

/-- This is where a double that two integers are rounded to would come between them. -/
theorem Sharp.transitiveFrom_int (h : Sharp ps) {i : Int64} (hi : .int i ∈ ps) :
    TransitiveFrom ps (.int i) := by
  intro v w hv hw huv hvw
  cases v with
  | int j =>
    obtain rfl : i = j := beq_iff_eq.1 huv
    exact hvw
  | float x =>
    cases w with
    | int k =>
      exact beq_iff_eq.2 (h i k x hi (hw (self_mem_parts _)) (hv (self_mem_parts _)) huv hvw)
    | float y => exact Binary64.equal_trans huv hvw
    | _ => cases hvw
  | _ => cases huv

/-- **Among sharp values equality is transitive**, by induction on the first value. -/
theorem Sharp.same_trans (h : Sharp ps) (hu : u.parts ⊆ ps) : TransitiveFrom ps u := by
  induction u using inductionOn with
  | array us ih => exact .array fun u hmem => ih u hmem (forall_items_parts_subset hu u hmem)
  | map es ih => exact .map hu fun e he => ih e he (forall_entries_parts_subset hu e he)
  | int i => exact h.transitiveFrom_int (hu (self_mem_parts _))
  | float x => exact transitiveFrom_float x
  | symbol s => exact transitiveFrom_symbol s
  | undefined | null | bool | string | wrapper | function =>
    intro v w _ _ huv hvw
    obtain rfl := eq_of_same rfl huv
    exact hvw

theorem Sharp.coherent (h : Sharp ((map es).parts ++ (map fs).parts)) :
    Coherent (Entrywise fun v w => v.same w) es fs := by
  have hes : ∀ e ∈ es, e.2.parts ⊆ (map es).parts ++ (map fs).parts :=
    forall_entries_parts_subset (List.subset_append_left _ _)
  have hfs : ∀ f ∈ fs, f.2.parts ⊆ (map es).parts ++ (map fs).parts :=
    forall_entries_parts_subset (List.subset_append_right _ _)
  exact coherent_of_trans hes hfs fun e he => h.same_trans (hes e he)

/-! ## Maps -/

/-- **Equal maps are maps whose entries can be paired**, each with an equal one. Equal maps always
can. Maps that can be paired are equal if the entries are coherent, and then in whatever order the
entries stand; if they are not, then some of the entries make maps that can be paired and are not
equal. Entries are coherent if no double in the maps is equal to two integers in them. -/
theorem map_beq_iff_matched (es fs : List (Utf16 × Value)) :
    (map es == map fs → Matched (Entrywise fun v w => v == w) es fs) ∧
    (Coherent (Entrywise fun v w => v == w) es fs ↔
      ∀ es' fs', es'.Subperm es → fs'.Subperm fs →
        (map es' == map fs' ↔ Matched (Entrywise fun v w => v == w) es' fs')) ∧
    (Coherent (Entrywise fun v w => v == w) es fs → ∀ es' fs', es'.Perm es → fs'.Perm fs →
      (map es' == map fs' ↔ map es == map fs)) ∧
    (Sharp ((map es).parts ++ (map fs).parts) →
      Coherent (Entrywise fun v w => v == w) es fs) := by
  refine ⟨matched_of_same, coherent_iff, fun h es' fs' hes hfs => ?_, Sharp.coherent⟩
  have hfound := coherent_iff.1 h
  refine (hfound es' fs' hes.subperm hfs.subperm).trans ?_
  refine Iff.trans ⟨fun hm => ?_, fun hm => ?_⟩ (hfound es fs (.refl es) (.refl fs)).symm
  · exact (hm.perm_left hes).perm_right hfs
  · exact (hm.perm_left hes.symm).perm_right hfs.symm

/-- A name that stands for an integer, for the double that holds it and for a map of such entries,
in two orders. -/
theorem map_beq_iff_matched_shuffled :
    let x := Utf16.ofString "x"
    let es := [(x, .int 1), (x, .float (.ofInt 1)), (x, map [(x, .int 1), (x, .float (.ofInt 1))])]
    let fs := [(x, map [(x, .float (.ofInt 1)), (x, .int 1)]), (x, .float (.ofInt 1)), (x, .int 1)]
    Sharp ((map es).parts ++ (map fs).parts) ∧ map es == map fs ∧ map es.reverse == map fs := by
  intro x es fs
  have hsharp : Sharp ((map es).parts ++ (map fs).parts) := by
    intro i j _ hi hj _ _ _
    obtain rfl : i = 1 := by simpa [es, fs, parts, partsOfEntries] using hi
    obtain rfl : j = 1 := by simpa [es, fs, parts, partsOfEntries] using hj
    rfl
  obtain ⟨-, -, hreorder, hcoherent⟩ := map_beq_iff_matched es fs
  have hsame : map es == map fs := by decide
  have hreverse := hreorder (hcoherent hsharp) es.reverse fs es.reverse_perm (.refl fs)
  exact ⟨hsharp, hsame, hreverse.2 hsame⟩

/-- Two integers that are rounded to one double, and that double beside one of them. It takes the
integer that is there on both sides, and the other one is left over. -/
theorem matched_not_beq :
    let x := Utf16.ofString "x"
    let es := [(x, .float ⟨0x4340000000000000⟩), (x, .int 9007199254740992)]
    let fs := [(x, .int 9007199254740992), (x, .int 9007199254740993)]
    (∀ y, .float y ∈ (map es).parts ++ (map fs).parts → y.isNaN = false) ∧
      Matched (Entrywise fun v w => v == w) es fs ∧ (map es == map fs) = false ∧
      map es.reverse == map fs := by
  intro x es fs
  refine ⟨fun y hy => ?_, ⟨fs.reverse, ?_, fs.reverse_perm⟩, by decide, by decide⟩
  · obtain rfl : y = ⟨0x4340000000000000⟩ := by
      simpa [es, fs, parts, partsOfEntries] using hy
    decide
  · exact .cons ⟨rfl, by decide⟩ (.cons ⟨rfl, by decide⟩ .nil)

end ScriptBridge.Script.Value
