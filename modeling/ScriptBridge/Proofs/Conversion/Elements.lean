import ScriptBridge.Proofs.Conversion.Answering
import ScriptBridge.Proofs.Conversion.Numbers

/-! # The elements of a set, converted back

The elements of an array that a set keeps differ as script values. What they come back as may be
equal nevertheless: null and undefined both come back as null, integers under the type of numbers as
the doubles they are rounded to, names of maps as the texts of numbers. Where values are `Apart`,
none of this makes equal what differs.

* `Script.Value.ComesBack` is all that may become of a value on its way there and back.
* `Script.Value.same_of_comesBack`: what comes back equal was equal.
* `Bridge.set_items_distinct` is what follows for sets.
-/

namespace ScriptBridge
set_option autoImplicit false

open Script.Value (fresh Entrywise)

/-- The name comes back as this one from a map that the type is built of. -/
def DeclaredType.Renames (t : DeclaredType) (name name' : Utf16) : Prop :=
  name = name' ∨ ∃ key value, .map key value ∈ t.parts ∧ key.rename? name = some name'

/-- Values that a type does not make equal by what it takes for the same. -/
structure DeclaredType.Apart (t : DeclaredType) (ps : List Script.Value) : Prop where
  nullish : .null ∈ t.parts → .null ∈ ps → .undefined ∉ ps
  integers : .number ∈ t.parts → ∀ i j, .int i ∈ ps → .int j ∈ ps →
    (Binary64.ofInt i.toInt).equal (.ofInt j.toInt) → i = j
  names : ∀ es fs, .map es ∈ ps → .map fs ∈ ps → ∀ e ∈ es, ∀ f ∈ fs, ∀ name,
    t.Renames e.1 name → t.Renames f.1 name → e.1 = f.1

namespace Script.Value

/-- What a value may come back as, when it was converted under a part of the type. -/
inductive ComesBack (t : DeclaredType) : Value → Value → Prop where
  | same (v : Value) : ComesBack t v v
  | null {v : Value} : .null ∈ t.parts → v.isNullish → ComesBack t v .null
  | integer {v : Value} {i : Int64} : v.integer? = some i → ComesBack t v (.int i)
  | number {v : Value} {x : Binary64} : .number ∈ t.parts → v.number? = some x →
      ComesBack t v (.float x)
  | array {vs vs' : List Value} : List.Forall₂ (ComesBack t) vs vs' →
      ComesBack t (.array vs) (.array vs')
  | map {es es' : List (Utf16 × Value)} : (es.map (·.1)).Nodup →
      List.Forall₂ (fun e e' => t.Renames e.1 e'.1) es es' →
      List.Forall₂ (fun e e' => ComesBack t e.2 e'.2) es es' → ComesBack t (.map es) (.map es')

variable {t : DeclaredType} {ps : List Value} {v v' w w' : Value}

namespace ComesBack

theorem exists_of_array {vs' : List Value} (h : ComesBack t v (.array vs')) :
    ∃ vs, v = .array vs ∧ List.Forall₂ (ComesBack t) vs vs' := by
  cases h with
  | same => exact ⟨vs', rfl, List.forall₂_same.2 fun v _ => .same v⟩
  | array h => exact ⟨_, rfl, h⟩

/-- A map that is not passed through has no repeated names. -/
theorem exists_of_map {es' : List (Utf16 × Value)} (h : ComesBack t v (.map es')) :
    ∃ es, v = .map es ∧ (v = .map es' ∨ (es.map (·.1)).Nodup) ∧
      List.Forall₂ (fun e e' => t.Renames e.1 e'.1 ∧ ComesBack t e.2 e'.2) es es' := by
  cases h with
  | same => exact ⟨es', rfl, .inl rfl, List.forall₂_same.2 fun e _ => ⟨.inl rfl, .same e.2⟩⟩
  | map hes hnames hvalues => exact ⟨_, rfl, .inr hes, forall₂_and hnames hvalues⟩

theorem eq_of_plain (h : ComesBack t v v') (hplain : v'.isPlain) (hnull : v' ≠ .null) : v = v' := by
  cases h with
  | same => rfl
  | null => exact absurd rfl hnull
  | _ => cases hplain

theorem nullish_of_null (h : ComesBack t v .null) : v.isNullish ∧ (v ≠ .null → .null ∈ t.parts) := by
  cases h with
  | same => exact ⟨rfl, fun hne => absurd rfl hne⟩
  | null ht hv => exact ⟨hv, fun _ => ht⟩

/-- A number comes back as a number that is read as an equal double. -/
theorem exists_number? (h : ComesBack t v v') {x' : Binary64} (hx' : v'.number? = some x')
    (hnan : x'.isNaN = false) : ∃ x, v.number? = some x ∧ x.equal x' := by
  cases h with
  | same => exact ⟨x', hx', equal_self hnan⟩
  | integer hi =>
    cases hx'
    cases v with
    | int j =>
      cases hi
      exact ⟨_, rfl, equal_self hnan⟩
    | float x =>
      have hx := Binary64.equal_ofInt_of_toInt? (integer?_float_iff.1 hi)
      exact ⟨x, rfl, Binary64.equal_symm hx⟩
    | _ => cases hi
  | number _ hx =>
    cases hx'
    exact ⟨_, hx, equal_self hnan⟩
  | _ => cases hx'

/-- Without the type of numbers an integer comes back as it was. -/
theorem eq_of_int {i : Int64} (h : ComesBack t (.int i) v') (ht : .number ∉ t.parts) :
    v' = .int i := by
  cases h with
  | same => rfl
  | null _ hv => cases hv
  | integer hi =>
    cases hi
    rfl
  | number hnumber _ => exact absurd hnumber ht

end ComesBack

/-! ## What comes back equal -/

section
variable (hapart : t.Apart ps)
include hapart

theorem same_of_comesBack_number (hv : v ∈ ps) (hw : w ∈ ps) (h : ComesBack t v v')
    (h' : ComesBack t w w') (hsame : v'.same w') {x' : Binary64} (hx' : v'.number? = some x') :
    v.same w := by
  obtain ⟨y', hy', hequal'⟩ := exists_number?_of_same hsame hx'
  obtain ⟨hnan, hnan', -⟩ := Binary64.equal_iff.1 hequal'
  obtain ⟨x, hx, hxx⟩ := h.exists_number? hx' hnan
  obtain ⟨y, hy, hyy⟩ := h'.exists_number? hy' hnan'
  have hequal := Binary64.equal_trans (Binary64.equal_trans hxx hequal') (Binary64.equal_symm hyy)
  refine same_of_equal hx hy hequal ?_
  rintro i j rfl rfl
  by_cases ht : .number ∈ t.parts
  · cases hx
    cases hy
    exact hapart.integers ht i j hv hw hequal
  · rw [h.eq_of_int ht, h'.eq_of_int ht] at hsame
    exact beq_iff_eq.1 hsame

theorem same_of_comesBack_null (hv : v ∈ ps) (hw : w ∈ ps) (h : ComesBack t v .null)
    (h' : ComesBack t w .null) : v.same w := by
  obtain ⟨hnullish, ht⟩ := h.nullish_of_null
  obtain ⟨hnullish', ht'⟩ := h'.nullish_of_null
  cases v with
  | undefined =>
    cases w with
    | undefined => rfl
    | null => exact absurd hv (hapart.nullish (ht nofun) hw)
    | _ => cases hnullish'
  | null =>
    cases w with
    | undefined => exact absurd hw (hapart.nullish (ht' nofun) hv)
    | null => rfl
    | _ => cases hnullish'
  | _ => cases hnullish

/-- **What comes back equal was equal.** -/
theorem same_of_comesBack (hv : v.parts ⊆ ps) (hw : w.parts ⊆ ps) (h : ComesBack t v v')
    (h' : ComesBack t w w') (hsame : v'.same w') : v.same w := by
  induction v' using inductionOn generalizing v w w' with
  | null =>
    obtain rfl := eq_of_same rfl hsame
    exact same_of_comesBack_null hapart (hv (self_mem_parts v)) (hw (self_mem_parts w)) h h'
  | int | float =>
    exact same_of_comesBack_number hapart (hv (self_mem_parts v)) (hw (self_mem_parts w)) h h'
      hsame rfl
  | undefined | bool | string | wrapper | function =>
    obtain rfl := eq_of_same rfl hsame
    rw [h.eq_of_plain rfl nofun, h'.eq_of_plain rfl nofun]
    exact hsame
  | symbol s =>
    cases w' with
    | symbol s' =>
      cases h
      cases h'
      exact hsame
    | _ => cases hsame
  | array vs' ih =>
    cases w' with
    | array ws' =>
      obtain ⟨vs, rfl, hvs⟩ := h.exists_of_array
      obtain ⟨ws, rfl, hws⟩ := h'.exists_of_array
      have hmiddle : List.Forall₂ (fun v' w => v' ∈ vs' ∧ ∃ w', ComesBack t w w' ∧ v'.same w')
          vs' ws :=
        forall₂_trans (same_array_iff.1 hsame) hws.flip fun v' hv' w' w _ hsame hback =>
          ⟨hv', w', hback, hsame⟩
      refine same_array_iff.2 (forall₂_trans hvs hmiddle fun v hmem v' w hmem' hback hw' => ?_)
      obtain ⟨hv', w', hback', hsame⟩ := hw'
      exact ih v' hv' (forall_items_parts_subset hv v hmem) (forall_items_parts_subset hw w hmem')
        hback hback' hsame
    | _ => cases hsame
  | map es' ih =>
    cases w' with
    | map fs' =>
      obtain ⟨es, rfl, hes, hentries⟩ := h.exists_of_map
      obtain ⟨fs, rfl, hfs, hentries'⟩ := h'.exists_of_map
      have hmiddle : Matched (fun e' f => e' ∈ es' ∧ ∃ f', t.Renames f.1 f'.1 ∧
          ComesBack t f.2 f'.2 ∧ Entrywise (fun v w => v.same w = true) e' f') es' fs :=
        (matched_of_same hsame).trans (.of_forall₂ hentries'.flip)
          fun e' he' f' f _ hsame hback => ⟨he', f', hback.1, hback.2, hsame⟩
      have hmatched : Matched (Entrywise fun v w => v.same w = true) es fs := by
        refine (Matched.of_forall₂ hentries).trans hmiddle fun e hmem e' f hmem' hback hf' => ?_
        obtain ⟨he', f', hrename, hback', hname, hsame⟩ := hf'
        refine ⟨hapart.names es fs (hv (self_mem_parts _)) (hw (self_mem_parts _)) e hmem f hmem'
          f'.1 (hname ▸ hback.1) hrename, ?_⟩
        exact ih e' he' (forall_entries_parts_subset hv e hmem)
          (forall_entries_parts_subset hw f hmem') hback.2 hback' hsame
      have hperm := hmatched.map_perm fun e f hef => hef.1
      -- Only maps that are passed through may repeat a name.
      rcases hes with hraw | hes
      · rcases hfs with hraw' | hfs
        · rw [hraw, hraw']
          exact hsame
        · exact (same_map_iff hfs).2 hmatched
      · exact (same_map_iff (hperm.nodup_iff.1 hes)).2 hmatched
    | _ => cases hsame

/-- What differs comes back different. -/
theorem pairwise_of_comesBack {vs vs' : List Value} (hvs : ∀ v ∈ vs, v.parts ⊆ ps)
    (h : List.Forall₂ (ComesBack t) vs vs') (hdistinct : vs.Pairwise fun v w => v.same w = false) :
    vs'.Pairwise fun v w => v.same w = false := by
  refine pairwise_of_forall₂ h (fun v hv w hw v' w' hback hback' hne => ?_) hdistinct
  rw [← Bool.not_eq_true]
  intro hsame
  rw [same_of_comesBack hapart (hvs v hv) (hvs w hw) hback hback' hsame] at hne
  cases hne

theorem nodup_of_renames {es es' : List (Utf16 × Value)} (hes : .map es ∈ ps)
    (h : List.Forall₂ (fun e e' => t.Renames e.1 e'.1) es es') (hdistinct : (es.map (·.1)).Nodup) :
    (es'.map (·.1)).Nodup := by
  rw [List.Nodup, List.pairwise_map] at *
  refine pairwise_of_forall₂ h (fun e he f hf e' f' hrename hrename' hne heq => hne ?_) hdistinct
  exact hapart.names es es hes hes e he f hf f'.1 (heq ▸ hrename) hrename'

end

end Script.Value

namespace Bridge

variable {b : Bridge} {index depth : Nat} {root t key value element inner : DeclaredType}
  {types : List DeclaredType} {v : Script.Value} {n : Native.Value}
  {items : List Script.Value} {ns : List Native.Value} {ps : List Script.Value}

/-! ## Values without repetitions -/

/-- The maps and the sets that a value supplies have no entry and no element twice. -/
structure Unrepeated (b : Bridge) (t : DeclaredType) (v : Script.Value) : Prop where
  entries : ∀ key value es, b.Supplies t v (.map key value) (.map es) → (es.map (·.1)).Nodup
  elements : ∀ element items, b.Supplies t v (.set element) (.array items) →
    items.Pairwise fun v w => v.same w = false

theorem Unrepeated.of_supplies {t' : DeclaredType} {v' : Script.Value} (h : b.Unrepeated t v)
    (hs : ∀ t'' v'', b.Supplies t' v' t'' v'' → b.Supplies t v t'' v'') : b.Unrepeated t' v' where
  entries key value es hes := h.entries key value es (hs _ _ hes)
  elements element items hitems := h.elements element items (hs _ _ hitems)

/-! ## Coming back as something -/

/-- At any depth up to the given one, `n` is converted to one value that `v` may come back as, and
the bridge is left as it is. -/
def Reappears (b : Bridge) (root : DeclaredType) (depth : Nat) (v : Script.Value)
    (n : Native.Value) : Prop :=
  ∃ v', Script.Value.ComesBack root v v' ∧ ∀ d ≤ depth, n.Becomes b d v'

theorem Reappears.of_becomes {v' : Script.Value}
    (h : ∀ d, d ≤ b.options.maxDepth → n.Becomes b d v') (hback : Script.Value.ComesBack root v v')
    (hdepth : depth ≤ b.options.maxDepth) : b.Reappears root depth v n :=
  ⟨v', hback, fun d hd => h d (Nat.le_trans hd hdepth)⟩

theorem Reappears.variant (h : b.Reappears root (depth + 1) v n)
    (hdepth : depth ≤ b.options.maxDepth) (k : Nat) :
    b.Reappears root depth v (.variant k n) := by
  obtain ⟨v', hback, hv'⟩ := h
  refine ⟨v', hback, fun d hd => ?_⟩
  exact Native.Value.becomes_variant (Nat.le_trans hd hdepth) (hv' d (Nat.le_succ_of_le hd)) k

theorem exists_becomes_reappears (h : List.Forall₂ (b.Reappears root depth) items ns) :
    ∃ vs, List.Forall₂ (Script.Value.ComesBack root) items vs ∧
      ∀ d ≤ depth, List.Forall₂ (Native.Value.Becomes b d) ns vs := by
  obtain ⟨vs, hvs, hbacks⟩ := exists_forall₂_of_exists (h.imp fun _ _ => (fun ⟨v, hback, hv⟩ => ⟨v, hv, hback⟩))
  exact ⟨vs, hbacks.flip, fun d hd => hvs.imp fun n v hv => hv d hd⟩

section
variable (h : List.Forall₂ (b.Reappears root (depth + 1)) items ns)
  (hdepth : depth ≤ b.options.maxDepth)
include h hdepth

theorem Reappears.list : b.Reappears root depth (.array items) (.list ns) := by
  obtain ⟨vs, hbacks, hvs⟩ := exists_becomes_reappears h
  refine ⟨.array vs, .array hbacks, fun d hd => ?_⟩
  exact Native.Value.becomes_list (Nat.le_trans hd hdepth) (hvs (d + 1) (Nat.succ_le_succ hd))

theorem Reappears.tuple : b.Reappears root depth (.array items) (.tuple ns) := by
  obtain ⟨vs, hbacks, hvs⟩ := exists_becomes_reappears h
  refine ⟨.array vs, .array hbacks, fun d hd => ?_⟩
  exact Native.Value.becomes_tuple (Nat.le_trans hd hdepth) (hvs (d + 1) (Nat.succ_le_succ hd))

theorem Reappears.set (hapart : root.Apart ps) (hparts : (Script.Value.array items).parts ⊆ ps)
    (hdistinct : items.Pairwise fun v w => v.same w = false) :
    b.Reappears root depth (.array items) (.set ns) := by
  obtain ⟨vs, hbacks, hvs⟩ := exists_becomes_reappears h
  have hdistinct' := Script.Value.pairwise_of_comesBack hapart
    (Script.Value.forall_items_parts_subset hparts) hbacks hdistinct
  refine ⟨.array vs, .array hbacks, fun d hd => ?_⟩
  exact Native.Value.becomes_set (Nat.le_trans hd hdepth) (hvs (d + 1) (Nat.succ_le_succ hd))
    hdistinct'

end

theorem Reappears.map {es : List (Utf16 × Script.Value)}
    {kps : List (Native.Value × Native.Value)} (hapart : root.Apart ps)
    (hmap : .map key value ∈ root.parts) (hes : .map es ∈ ps) (hdistinct : (es.map (·.1)).Nodup)
    (h : List.Forall₂ (fun e p => key.readKey? e.1 = some p.1 ∧
      b.Reappears root (depth + 1) e.2 p.2) es kps) (hdepth : depth ≤ b.options.maxDepth) :
    b.Reappears root depth (.map es) (.map kps) := by
  have hentries : List.Forall₂ (fun e p => ∃ e' : Utf16 × Script.Value,
      (∀ d ≤ depth + 1, p.1.propertyName? = some e'.1 ∧ p.2.Becomes b d e'.2) ∧
      root.Renames e.1 e'.1 ∧ Script.Value.ComesBack root e.2 e'.2) es kps := by
    refine h.imp fun e p ⟨hkey, v', hback, hv'⟩ => ?_
    obtain ⟨name, hname, hrename⟩ := DeclaredType.exists_rename? hkey
    exact ⟨(name, v'), fun d hd => ⟨hname, hv' d hd⟩, .inr ⟨key, value, hmap, hrename⟩, hback⟩
  obtain ⟨es', hes', hflip⟩ := exists_forall₂_of_exists hentries
  have hnames : List.Forall₂ (fun e e' => root.Renames e.1 e'.1) es es' :=
    hflip.flip.imp fun _ _ hback => hback.1
  have hbacks : List.Forall₂ (fun e e' => Script.Value.ComesBack root e.2 e'.2) es es' :=
    hflip.flip.imp fun _ _ hback => hback.2
  have hdistinct' := Script.Value.nodup_of_renames hapart hes hnames hdistinct
  refine ⟨.map es', .map hdistinct hnames hbacks, fun d hd => ?_⟩
  exact Native.Value.becomes_map (Nat.le_trans hd hdepth)
    (hes'.imp fun _ _ hp => hp (d + 1) (Nat.succ_le_succ hd)) hdistinct'

theorem GivesBack.comesBack {v' : Script.Value} (h : GivesBack t v v') (ht : t ∈ root.parts) :
    Script.Value.ComesBack root v v' := by
  cases h with
  | same => exact .same v
  | null heq hv => exact .null (heq ▸ ht) hv
  | integer hi => exact .integer hi
  | number heq hx => exact .number (heq ▸ ht) hx

/-- **A value without repetitions comes back as something it may come back as**, by induction on the
type. -/
theorem reappears_of_fromScriptAt (hf : b.registry.Faithful) (hapart : root.Apart ps)
    (t : DeclaredType) (ht : t.parts ⊆ root.parts) (hv : v.parts ⊆ ps) (honce : b.Unrepeated t v)
    (hn : b.fromScriptAt index t depth v = .ok n) : b.Reappears root depth v n := by
  induction t using DeclaredType.layersOn generalizing depth v n with
  | scalar t hscalar =>
    obtain ⟨hdepth, hreads⟩ := reads_of_fromScriptAt hscalar hn
    obtain ⟨v', hback, hv'⟩ := hreads.givesBack hf
    exact .of_becomes hv' (hback.comesBack (ht t.self_mem_parts)) hdepth
  | tuple types ih =>
    obtain ⟨hdepth, items, ns, rfl, hlen, hns, rfl⟩ := fromScriptAt_tuple_iff.1 hn
    refine .tuple (forall₂_of_componentsFromScript hlen hns ?_) hdepth
    intro k t item n htk hitem hn
    have hmem := List.mem_of_getElem? htk
    refine ih t hmem (fun t' ht' => ht ?_)
      (Script.Value.forall_items_parts_subset hv item (List.mem_of_getElem? hitem))
      (honce.of_supplies fun _ _ => .component htk hitem) hn
    exact List.mem_cons_of_mem _ (DeclaredType.parts_subset_of_mem hmem ht')
  | variant types ih =>
    obtain ⟨hdepth, k, t, n', rfl, htk, hn'⟩ := fromScriptAt_variant hn
    have hmem := List.mem_of_getElem? htk
    refine .variant (ih t hmem (fun t' ht' => ht ?_) hv
      (honce.of_supplies fun _ _ => .alternative htk hn) hn') hdepth k
    exact List.mem_cons_of_mem _ (DeclaredType.parts_subset_of_mem hmem ht')
  | list element ih =>
    obtain ⟨hdepth, items, ns, rfl, hns, rfl⟩ := fromScriptAt_list_iff.1 hn
    refine .list (forall₂_imp_of_mem hns fun item hitem n hn => ?_) hdepth
    exact ih (fun _ ht' => ht (List.mem_cons_of_mem _ ht'))
      (Script.Value.forall_items_parts_subset hv item hitem)
      (honce.of_supplies fun _ _ => .element hitem) hn
  | set element ih =>
    obtain ⟨hdepth, items, ns, rfl, hns, rfl⟩ := fromScriptAt_set_iff_fresh.1 hn
    have hdistinct := honce.elements element items (.self _ _)
    have hkept : fresh [] items = items := Script.Value.fresh_of_pairwise hdistinct
    rw [hkept] at hns
    refine .set (forall₂_imp_of_mem hns fun item hitem n hn => ?_) hdepth hapart hv hdistinct
    exact ih (fun _ ht' => ht (List.mem_cons_of_mem _ ht'))
      (Script.Value.forall_items_parts_subset hv item hitem)
      (honce.of_supplies fun _ _ => .member hitem) hn
  | map key value ih =>
    obtain ⟨hdepth, es, kps, rfl, hkps, rfl⟩ := fromScriptAt_map_iff.1 hn
    have hdistinct := honce.entries key value es (.self _ _)
    refine .map hapart (ht List.mem_cons_self) (hv (Script.Value.self_mem_parts _)) hdistinct
      (forall₂_imp_of_mem hkps fun e he p hp => ⟨hp.1, ?_⟩) hdepth
    exact ih (fun _ ht' => ht (List.mem_cons_of_mem _ (List.mem_append_right _ ht')))
      (Script.Value.forall_entries_parts_subset hv e he)
      (honce.of_supplies fun _ _ => .entry he) hp.2
  | optional inner ih =>
    obtain ⟨hdepth, ⟨rfl, rfl⟩ | ⟨rfl, rfl⟩ | ⟨-, hn⟩⟩ := fromScriptAt_optional_iff.1 hn
    · exact .of_becomes (fun d hd => Native.Value.becomes_undefined hd) (.same _) hdepth
    · exact .of_becomes (fun d hd => Native.Value.becomes_null hd) (.same _) hdepth
    · exact ih (fun _ ht' => ht (List.mem_cons_of_mem _ ht')) hv
        (honce.of_supplies fun _ _ => .optional) hn

/-! ## Sets -/

theorem length_fresh_iff {vs : List Script.Value} :
    (fresh [] vs).length = vs.length ↔ vs.Pairwise fun v w => v.same w = false := by
  constructor
  · intro h
    have hkept : fresh [] vs = vs := (Script.Value.fresh_sublist [] vs).eq_of_length h
    have hdistinct := Script.Value.fresh_pairwise List.Pairwise.nil vs
    rw [List.nil_append, hkept] at hdistinct
    exact hdistinct
  · intro h
    have hkept : fresh [] vs = vs := Script.Value.fresh_of_pairwise h
    rw [hkept]

/-- **Sets whose elements come back different.** Each item of a set that an array without a NaN was
converted to can be converted back, and so can the set, to as many elements as it has items exactly
if the items come back as values that differ. They do if the parts of the array are apart for the
type and no element supplies an entry or an element twice. -/
theorem set_items_distinct (b : Bridge) (hb : b.Reachable) (t : DeclaredType) (index : Nat)
    (items : List Script.Value)
    (hnan : ∀ x, .float x ∈ (Script.Value.array items).parts → x.isNaN = false)
    (ns : List Native.Value)
    (hn : b.fromScript (.array items) (.set t) index = .ok (.set ns)) :
    ∃ vs, List.Forall₂ (fun n v => b.toScript n = (.ok v, b)) ns vs ∧
      b.toScript (.set ns) = (.ok (.array (fresh [] vs)), b) ∧
      ((fresh [] vs).length = ns.length ↔ vs.Pairwise fun v w => v.same w = false) ∧
      (t.Apart (Script.Value.array items).parts → (∀ v ∈ items, b.Unrepeated t v) →
        vs.Pairwise fun v w => v.same w = false) := by
  obtain ⟨_, hns, heq⟩ := fromScript_set_iff.1 hn
  cases heq
  have hsub := (Script.Value.fresh_sublist [] items).subset
  obtain ⟨vs, -, hvs⟩ : ∃ vs, (∀ v ∈ vs, v.same v) ∧
      ∀ d ≤ 1, List.Forall₂ (Native.Value.Becomes b d) ns vs := by
    refine exists_becomes_answers fun n hn => ?_
    obtain ⟨v, hv, hvn⟩ := exists_of_mem_right hns hn
    refine answers_of_fromScriptAt hb.faithful t (fun x hx => hnan x ?_) hvn
    exact Script.Value.parts_subset_array (hsub hv) hx
  have hback := Native.Value.becomes_set_fresh (Nat.zero_le _) (hvs 1 (Nat.le_refl 1))
  refine ⟨vs, hvs 0 (Nat.zero_le _), hback, ?_, fun hapart honce => ?_⟩
  · rw [(hvs 0 (Nat.zero_le _)).length_eq]
    exact length_fresh_iff
  · have hparts : ∀ v ∈ items, v.parts ⊆ (Script.Value.array items).parts :=
      fun v hv => Script.Value.parts_subset_array hv
    obtain ⟨ws, hbacks, hws⟩ := exists_becomes_reappears <|
      forall₂_imp_of_mem hns fun v hv n hn =>
        reappears_of_fromScriptAt hb.faithful hapart t (List.Subset.refl _) (hparts v (hsub hv))
          (honce v (hsub hv)) hn
    obtain rfl : vs = ws := by
      rw [← List.forall₂_eq_eq_eq]
      refine forall₂_trans (hvs 0 (Nat.zero_le _)).flip (hws 0 (Nat.zero_le _)) ?_
      intro v _ n w _ hv hw
      cases hv.symm.trans hw
      rfl
    refine Script.Value.pairwise_of_comesBack hapart (fun v hv => hparts v (hsub hv)) hbacks ?_
    exact Script.Value.fresh_pairwise List.Pairwise.nil items

/-- Null, numbers and sets of integers. -/
def mixed : List Script.Value :=
  [.null, .int 1, .float ⟨0x4004000000000000⟩, .array [.int 1, .int 2], .array [.int 2]]

def mixedType : DeclaredType := .variant [.null, .number, .set .integer]

theorem apart_mixed : mixedType.Apart (Script.Value.array mixed).parts := by
  constructor
  · intro _ _
    simp [mixed, Script.Value.parts, Script.Value.partsOfItems]
  · intro _ i j hi hj hequal
    simp only [mixed, Script.Value.parts, Script.Value.partsOfItems] at hi hj
    obtain rfl | rfl : i = 1 ∨ i = 2 := by
      simp at hi
      omega
    all_goals
      obtain rfl | rfl : j = 1 ∨ j = 2 := by
        simp at hj
        omega
    · rfl
    · exact absurd hequal (by decide)
    · exact absurd hequal (by decide)
    · rfl
  · intro es _ hes
    simp [mixed, Script.Value.parts, Script.Value.partsOfItems] at hes

theorem unrepeated_mixed (b : Bridge) : ∀ v ∈ mixed, b.Unrepeated mixedType v := by
  intro v hv
  constructor
  · intro key value es hes
    cases hes with
    | @alternative _ _ _ k _ _ _ _ _ ht _ hes =>
      rcases k with _ | _ | _ | k
      · cases ht
        cases hes
      · cases ht
        cases hes
      · cases ht
        cases hes with
        | member _ hes => cases hes
      · cases ht
  · intro element items hitems
    cases hitems with
    | @alternative _ _ _ k _ _ _ _ _ ht _ hitems =>
      rcases k with _ | _ | _ | k
      · cases ht
        cases hitems
      · cases ht
        cases hitems
      · cases ht
        cases hitems with
        | self =>
          obtain rfl | rfl : items = [.int 1, .int 2] ∨ items = [.int 2] := by
            simpa [mixed] using hv
          all_goals decide
        | member _ hitems => cases hitems
      · cases ht

/-- The set keeps all five elements, and five come back. -/
theorem set_items_distinct_mixed :
    let b : Bridge := {}
    let ns : List Native.Value :=
      [.variant 0 .null, .variant 1 (.number (.ofInt 1)), .variant 1 (.number ⟨0x4004000000000000⟩),
        .variant 2 (.set [.integer 1, .integer 2]), .variant 2 (.set [.integer 2])]
    b.Reachable ∧ (∀ x, .float x ∈ (Script.Value.array mixed).parts → x.isNaN = false) ∧
      b.fromScript (.array mixed) (.set mixedType) 0 = .ok (.set ns) ∧
      mixedType.Apart (Script.Value.array mixed).parts ∧
      (∀ v ∈ mixed, b.Unrepeated mixedType v) ∧
      ∃ vs, vs.length = 5 ∧ vs.Pairwise (fun v w => v.same w = false) ∧
        b.toScript (.set ns) = (.ok (.array vs), b) := by
  intro b ns
  have hb : b.Reachable := ⟨{}, .refl⟩
  have hnan : ∀ x, .float x ∈ (Script.Value.array mixed).parts → x.isNaN = false := by
    intro x hx
    obtain rfl : x = ⟨0x4004000000000000⟩ := by
      simpa [mixed, Script.Value.parts, Script.Value.partsOfItems] using hx
    decide
  have hset : b.fromScript (.array mixed) (.set mixedType) 0 = .ok (.set ns) := rfl
  obtain ⟨vs, hvs, hback, -, hdistinct⟩ :=
    set_items_distinct b hb mixedType 0 mixed hnan ns hset
  have hpairwise := hdistinct apart_mixed (unrepeated_mixed b)
  have hkept : fresh [] vs = vs := Script.Value.fresh_of_pairwise hpairwise
  rw [hkept] at hback
  exact ⟨hb, hnan, hset, apart_mixed, unrepeated_mixed b, vs, hvs.length_eq.symm, hpairwise, hback⟩

/-- Null and undefined are kept both by a set of nulls, and one null comes back. -/
theorem set_keeps_null_twice :
    let items : List Script.Value := [.null, .undefined]
    let b : Bridge := {}
    b.Reachable ∧ (∀ x, .float x ∈ (Script.Value.array items).parts → x.isNaN = false) ∧
      b.fromScript (.array items) (.set .null) 0 = .ok (.set [.null, .null]) ∧
      b.toScript .null = (.ok .null, b) ∧ Script.Value.null.same .null ∧
      b.toScript (.set [.null, .null]) = (.ok (.array [.null]), b) := by
  refine ⟨⟨{}, .refl⟩, fun x hx => ?_, rfl, rfl, rfl, rfl⟩
  simp [Script.Value.parts, Script.Value.partsOfItems] at hx

end Bridge
end ScriptBridge
