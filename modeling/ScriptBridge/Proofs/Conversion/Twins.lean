import ScriptBridge.Proofs.Conversion.Failures
import ScriptBridge.Proofs.Conversion.Numbers
import ScriptBridge.Proofs.Conversion.Repeats
import ScriptBridge.Proofs.Conversion.Returning

/-! # What equal values are converted to

Two equal values, among values that are `Exact`, are taken by the same types, and what they are
converted to comes back as values that compare alike: `Bridge.carries`. The types are gone through
once, on pairs of values.

* `Bridge.Twins` says of two native values that they come back so.
* `Bridge.Carries` says of a type that it makes twins of equal values.
-/

namespace ScriptBridge
set_option autoImplicit false

open Script.Value (fresh Exact Held Interchangeable Entrywise)

variable {ps : List Script.Value}

/-! ## Twins -/

namespace Bridge

variable {b : Bridge} {index depth : Nat} {I : Int64 → Prop} {n m : Native.Value}
  {ns ms : List Native.Value} {v w : Script.Value}

/-- At any depth up to the given one, the two are converted to values that compare alike, and the
bridge is left as it is. -/
def Twins (b : Bridge) (I : Int64 → Prop) (depth : Nat) (n m : Native.Value) : Prop :=
  ∀ d ≤ depth, ∃ v w, n.Becomes b d v ∧ m.Becomes b d w ∧ Interchangeable I v w

theorem Twins.of_becomes (hn : ∀ d, d ≤ b.options.maxDepth → n.Becomes b d v)
    (hm : ∀ d, d ≤ b.options.maxDepth → m.Becomes b d w) (h : Interchangeable I v w)
    (hdepth : depth ≤ b.options.maxDepth) : b.Twins I depth n m := by
  intro d hd
  have hle := Nat.le_trans hd hdepth
  exact ⟨v, w, hn d hle, hm d hle, h⟩

theorem Twins.variant (h : b.Twins I (depth + 1) n m) (hdepth : depth ≤ b.options.maxDepth)
    (k : Nat) : b.Twins I depth (.variant k n) (.variant k m) := by
  intro d hd
  have hle := Nat.le_trans hd hdepth
  obtain ⟨v, w, hv, hw, hvw⟩ := h d (Nat.le_succ_of_le hd)
  exact ⟨v, w, Native.Value.becomes_variant hle hv k, Native.Value.becomes_variant hle hw k, hvw⟩

theorem exists_becomes_twins (h : List.Forall₂ (b.Twins I depth) ns ms) {d : Nat}
    (hd : d ≤ depth) :
    ∃ vs ws, List.Forall₂ (Native.Value.Becomes b d) ns vs ∧
      List.Forall₂ (Native.Value.Becomes b d) ms ws ∧
      List.Forall₂ (Interchangeable I) vs ws := by
  induction h with
  | nil => exact ⟨[], [], .nil, .nil, .nil⟩
  | cons hnm _ ih =>
    obtain ⟨v, w, hv, hw, hvw⟩ := hnm d hd
    obtain ⟨vs, ws, hvs, hws, hvws⟩ := ih
    exact ⟨v :: vs, w :: ws, .cons hv hvs, .cons hw hws, .cons hvw hvws⟩

section
variable (h : List.Forall₂ (b.Twins I (depth + 1)) ns ms) (hdepth : depth ≤ b.options.maxDepth)
include h hdepth

theorem Twins.list : b.Twins I depth (.list ns) (.list ms) := by
  intro d hd
  have hle := Nat.le_trans hd hdepth
  obtain ⟨vs, ws, hvs, hws, hvws⟩ := exists_becomes_twins h (Nat.succ_le_succ hd)
  exact ⟨_, _, Native.Value.becomes_list hle hvs, Native.Value.becomes_list hle hws, .array hvws⟩

theorem Twins.tuple : b.Twins I depth (.tuple ns) (.tuple ms) := by
  intro d hd
  have hle := Nat.le_trans hd hdepth
  obtain ⟨vs, ws, hvs, hws, hvws⟩ := exists_becomes_twins h (Nat.succ_le_succ hd)
  exact ⟨_, _, Native.Value.becomes_tuple hle hvs, Native.Value.becomes_tuple hle hws, .array hvws⟩

/-- What comes back of two sets is kept in the same places. -/
theorem Twins.set : b.Twins I depth (.set ns) (.set ms) := by
  intro d hd
  have hle := Nat.le_trans hd hdepth
  obtain ⟨vs, ws, hvs, hws, hvws⟩ := exists_becomes_twins h (Nat.succ_le_succ hd)
  have hkept : List.Forall₂ (Interchangeable I) (fresh [] vs) (fresh [] ws) :=
    Script.Value.fresh_congr (fun _ _ _ _ hv hw => hv.same_congr hw) .nil hvws
  exact ⟨_, _, Native.Value.becomes_set_fresh hle hvs, Native.Value.becomes_set_fresh hle hws,
    .array hkept⟩

end

/-! ## Entries -/

/-- The keys have one name, and the values are twins. -/
def EntryTwins (b : Bridge) (I : Int64 → Prop) (depth : Nat)
    (p q : Native.Value × Native.Value) : Prop :=
  (∃ name, p.1.propertyName? = some name ∧ q.1.propertyName? = some name) ∧
    b.Twins I depth p.2 q.2

/-- The entry of a native map that becomes this one. -/
def EntryBecomes (b : Bridge) (depth : Nat) (p : Native.Value × Native.Value)
    (e : Utf16 × Script.Value) : Prop :=
  p.1.propertyName? = some e.1 ∧ p.2.Becomes b depth e.2

/-- The key that the name of an entry is read as, and what the value is converted to. -/
def ReadsEntry (b : Bridge) (index : Nat) (key value : DeclaredType) (depth : Nat)
    (e : Utf16 × Script.Value) (p : Native.Value × Native.Value) : Prop :=
  key.readKey? e.1 = some p.1 ∧ b.fromScriptAt index value depth e.2 = .ok p.2

variable {kps kqs : List (Native.Value × Native.Value)} {es fs : List (Utf16 × Script.Value)}
  {key value : DeclaredType}

theorem names_of_becomes (h : List.Forall₂ (b.EntryBecomes depth) kps es) :
    es.map (·.1) = kps.filterMap (·.1.propertyName?) := by
  induction h with
  | nil => rfl
  | cons hp _ ih => simp [hp.1, ih]

theorem names_of_reads (h : List.Forall₂ (b.ReadsEntry index key value depth) es kps) :
    kps.filterMap (·.1.propertyName?) = es.filterMap fun e => key.rename? e.1 := by
  induction h with
  | nil => rfl
  | cons he _ ih =>
    obtain ⟨name, hp, hname⟩ := DeclaredType.exists_rename? he.1
    simp [hp, hname, ih]

theorem exists_becomes_entryTwins (h : List.Forall₂ (b.EntryTwins I depth) kps kqs) {d : Nat}
    (hd : d ≤ depth) :
    ∃ es fs, List.Forall₂ (b.EntryBecomes d) kps es ∧ List.Forall₂ (b.EntryBecomes d) kqs fs ∧
      List.Forall₂ (Entrywise (Interchangeable I)) es fs := by
  induction h with
  | nil => exact ⟨[], [], .nil, .nil, .nil⟩
  | cons hpq _ ih =>
    obtain ⟨⟨name, hp, hq⟩, htwins⟩ := hpq
    obtain ⟨v, w, hv, hw, hvw⟩ := htwins d hd
    obtain ⟨es, fs, hes, hfs, hentries⟩ := ih
    exact ⟨(name, v) :: es, (name, w) :: fs, .cons ⟨hp, hv⟩ hes, .cons ⟨hq, hw⟩ hfs,
      .cons ⟨rfl, hvw⟩ hentries⟩

/-- The entries of two maps come in different orders, and each keeps its own on the way back. -/
theorem Twins.map (h : Matched (b.EntryTwins I (depth + 1)) kps kqs)
    (hkps : (kps.filterMap (·.1.propertyName?)).Nodup)
    (hkqs : (kqs.filterMap (·.1.propertyName?)).Nodup) (hdepth : depth ≤ b.options.maxDepth) :
    b.Twins I depth (.map kps) (.map kqs) := by
  intro d hd
  have hle := Nat.le_trans hd hdepth
  obtain ⟨kqs', htwins, hperm⟩ := h
  obtain ⟨es, gs, hes, hgs, hentries⟩ := exists_becomes_entryTwins htwins (Nat.succ_le_succ hd)
  obtain ⟨fs, hfs, hperm'⟩ := List.perm_comp_forall₂ hperm.symm hgs
  rw [← names_of_becomes hes] at hkps
  rw [← names_of_becomes hfs] at hkqs
  exact ⟨_, _, Native.Value.becomes_map hle hes hkps, Native.Value.becomes_map hle hfs hkqs,
    .map ⟨gs, hentries, hperm'.symm⟩ hkps hkqs⟩

end Bridge

/-! ## Types that make twins -/

/-- No two names of a map are read as keys of one name. -/
def DeclaredType.KeepsNames (t : DeclaredType) (ps : List Script.Value) : Prop :=
  ∀ key value es, .map key value ∈ t.parts → .map es ∈ ps →
    (es.filterMap fun e => key.rename? e.1).Nodup

theorem DeclaredType.KeepsNames.of_parts {t t' : DeclaredType} (h : t.KeepsNames ps)
    (ht : t'.parts ⊆ t.parts) : t'.KeepsNames ps :=
  fun key value es hmap => h key value es (ht hmap)

theorem DeclaredType.KeepsNames.of_subset {t : DeclaredType} {qs : List Script.Value}
    (h : t.KeepsNames ps) (hqs : qs ⊆ ps) : t.KeepsNames qs :=
  fun key value es hmap hes => h key value es hmap (hqs hes)

theorem DeclaredType.KeepsNames.of_noNumber {t : DeclaredType}
    (hkeys : ∀ key value, .map key value ∈ t.parts → .number ∉ key.parts) (hps : Exact ps) :
    t.KeepsNames ps := by
  intro key value es hmap hes
  have hsub : (es.filterMap fun e => key.rename? e.1).Sublist (es.map (·.1)) := by
    clear hes
    induction es with
    | nil => exact .slnil
    | cons e es ih =>
      cases hname : key.rename? e.1 with
      | none =>
        simp only [List.filterMap_cons, hname]
        exact ih.cons e.1
      | some name =>
        obtain rfl := DeclaredType.eq_of_rename? (hkeys key value hmap) hname
        simp only [List.filterMap_cons, hname]
        exact ih.cons_cons e.1
  exact (hps.distinctNames es hes).sublist hsub

namespace Bridge

variable {b : Bridge} {index depth : Nat} {n : Native.Value} {v w : Script.Value}
  {ns : List Native.Value} {vs ws : List Script.Value} {t key value element inner : DeclaredType}
  {types : List DeclaredType}

/-- Of two equal values among these, the type takes the second if it takes the first, and makes
twins of them. -/
def Carries (b : Bridge) (index : Nat) (ps : List Script.Value) (t : DeclaredType) : Prop :=
  ∀ depth v w n, depth + t.nesting ≤ b.options.maxDepth → v.parts ⊆ ps → w.parts ⊆ ps → v.same w →
    b.fromScriptAt index t depth v = .ok n →
    ∃ m, b.fromScriptAt index t depth w = .ok m ∧ b.Twins (Held ps) depth n m

/-! ### Scalars -/

/-- Values that are equal only if they are the same are converted to the same. -/
theorem Carries.of_plain (hplain : ∀ depth v n, b.fromScriptAt index t depth v = .ok n →
    depth ≤ b.options.maxDepth ∧ v.isPlain ∧ ∃ v', Script.Value.Drawn (Held ps) v' ∧
      ∀ d, d ≤ b.options.maxDepth → n.Becomes b d v') : b.Carries index ps t := by
  intro depth v w n _ _ _ hsame hn
  obtain ⟨hdepth, hplain, v', hv', hback⟩ := hplain depth v n hn
  obtain rfl := Script.Value.eq_of_same hplain hsame
  exact ⟨n, hn, .of_becomes hback hback (.refl hv') hdepth⟩

theorem carries_null : b.Carries index ps .null := by
  refine .of_plain fun depth v n hn => ?_
  obtain ⟨hdepth, hv, rfl⟩ := fromScriptAt_null_iff.1 hn
  refine ⟨hdepth, ?_, .null, .scalar rfl trivial, fun d hd => Native.Value.becomes_null hd⟩
  cases v <;> first | rfl | cases hv

theorem carries_bool : b.Carries index ps .bool := by
  refine .of_plain fun depth v n hn => ?_
  obtain ⟨hdepth, x, rfl, rfl⟩ := fromScriptAt_bool_iff.1 hn
  exact ⟨hdepth, rfl, .bool x, .scalar rfl trivial, fun d hd => Native.Value.becomes_bool hd x⟩

theorem carries_string : b.Carries index ps .string := by
  refine .of_plain fun depth v n hn => ?_
  obtain ⟨hdepth, s, text, rfl, -, rfl⟩ := fromScriptAt_string_iff.1 hn
  exact ⟨hdepth, rfl, .text text, .scalar rfl trivial,
    fun d hd => Native.Value.becomes_string hd text⟩

theorem carries_u16string : b.Carries index ps .u16string := by
  refine .of_plain fun depth v n hn => ?_
  obtain ⟨hdepth, s, rfl, rfl⟩ := fromScriptAt_u16string_iff.1 hn
  exact ⟨hdepth, rfl, .string s, .scalar rfl trivial,
    fun d hd => Native.Value.becomes_u16string hd s⟩

theorem carries_function : b.Carries index ps .function := by
  refine .of_plain fun depth v n hn => ?_
  obtain ⟨hdepth, id, rfl, rfl⟩ := fromScriptAt_function_iff.1 hn
  exact ⟨hdepth, rfl, .function id, .scalar rfl trivial,
    fun d hd => Native.Value.becomes_function hd id⟩

theorem carries_object (hf : b.registry.Faithful) (className : String) :
    b.Carries index ps (.object className) := by
  refine .of_plain fun depth v n hn => ?_
  obtain ⟨hdepth, o, ho, -, rfl⟩ := fromScriptAt_object_iff.1 hn
  obtain ⟨w, rfl, hbound⟩ := bound_of_nativeOf hf ho
  exact ⟨hdepth, rfl, .wrapper w, .scalar rfl trivial,
    fun d hd => Native.Value.becomes_object hd hbound⟩

theorem carries_symbol : b.Carries index ps .symbol := by
  intro depth v w n _ _ _ hsame hn
  obtain ⟨hdepth, s, rfl, rfl⟩ := fromScriptAt_symbol_iff.1 hn
  cases w with
  | symbol s' =>
    refine ⟨.symbol s', fromScriptAt_symbol_iff.2 ⟨hdepth, s', rfl, rfl⟩, ?_⟩
    exact .of_becomes (fun d hd => Native.Value.becomes_symbol hd s)
      (fun d hd => Native.Value.becomes_symbol hd s') (.symbol hsame) hdepth
  | _ => cases hsame

theorem carries_any (hps : Exact ps) : b.Carries index ps .any := by
  intro depth v w n _ hv hw hsame hn
  obtain ⟨hdepth, rfl⟩ := fromScriptAt_any_iff.1 hn
  refine ⟨.script w, fromScriptAt_any_iff.2 ⟨hdepth, rfl⟩, ?_⟩
  exact .of_becomes (fun d hd => Native.Value.becomes_script hd v)
    (fun d hd => Native.Value.becomes_script hd w) (hps.interchangeable hv hw hsame) hdepth

theorem carries_number : b.Carries index ps .number := by
  intro depth v w n _ _ _ hsame hn
  obtain ⟨hdepth, x, hx, rfl⟩ := fromScriptAt_number_iff.1 hn
  obtain ⟨y, hy, hxy⟩ := Script.Value.exists_number?_of_same hsame hx
  refine ⟨.number y, fromScriptAt_number_iff.2 ⟨hdepth, y, hy, rfl⟩, ?_⟩
  exact .of_becomes (fun d hd => Native.Value.becomes_number hd x)
    (fun d hd => Native.Value.becomes_number hd y) (.float hxy) hdepth

/-- The types of integers take what holds an integer that is in range. -/
theorem Carries.of_integers (hps : Exact ps) (inRange : Int64 → Prop)
    (hiff : ∀ depth v n, b.fromScriptAt index t depth v = .ok n ↔
      depth ≤ b.options.maxDepth ∧ ∃ i, v.integer? = some i ∧ inRange i ∧ .integer i = n) :
    b.Carries index ps t := by
  intro depth v w n _ hv hw hsame hn
  have hv := hv (Script.Value.self_mem_parts v)
  have hw := hw (Script.Value.self_mem_parts w)
  obtain ⟨hdepth, i, hi, hrange, rfl⟩ := (hiff depth v n).1 hn
  have hi' := hps.integer?_of_same hv hw hsame hi
  refine ⟨.integer i, (hiff depth w _).2 ⟨hdepth, i, hi', hrange, rfl⟩, ?_⟩
  have hback : ∀ d, d ≤ b.options.maxDepth → (Native.Value.integer i).Becomes b d (.int i) :=
    fun d hd => Native.Value.becomes_integer hd i
  have hheld := Script.Value.held_of_integer? hv hi
  exact .of_becomes hback hback (.refl (.scalar rfl hheld)) hdepth

theorem carries_integer (hps : Exact ps) : b.Carries index ps .integer :=
  .of_integers hps (fun _ => True) fun depth v n => by simpa using fromScriptAt_integer_iff

theorem carries_bounded (hps : Exact ps) (name : String) (min max : Int64) :
    b.Carries index ps (.bounded name min max) :=
  .of_integers hps _ fun _ _ _ => fromScriptAt_bounded_iff

/-! ### Containers -/

/-- Under a type that makes twins, lists of equal values are converted to lists of twins. -/
theorem Carries.items (h : b.Carries index ps t) (hnesting : depth + t.nesting ≤ b.options.maxDepth)
    (hvs : ∀ v ∈ vs, v.parts ⊆ ps) (hws : ∀ w ∈ ws, w.parts ⊆ ps)
    (hsame : List.Forall₂ (fun v w => v.same w = true) vs ws)
    (hns : List.Forall₂ (fun v n => b.fromScriptAt index t depth v = .ok n) vs ns) :
    ∃ ms, List.Forall₂ (fun w m => b.fromScriptAt index t depth w = .ok m) ws ms ∧
      List.Forall₂ (b.Twins (Held ps) depth) ns ms := by
  induction hns generalizing ws with
  | nil =>
    cases hsame
    exact ⟨[], .nil, .nil⟩
  | cons hn _ ih =>
    cases hsame with
    | cons hvw hsame =>
      obtain ⟨hv, hvs⟩ := List.forall_mem_cons.1 hvs
      obtain ⟨hw, hws⟩ := List.forall_mem_cons.1 hws
      obtain ⟨m, hm, htwins⟩ := h depth _ _ _ hnesting hv hw hvw hn
      obtain ⟨ms, hms, hrest⟩ := ih hvs hws hsame
      exact ⟨m :: ms, .cons hm hms, .cons htwins hrest⟩

theorem carries_list (h : b.Carries index ps element) : b.Carries index ps (.list element) := by
  intro depth v w n hnesting hv hw hsame hn
  obtain ⟨hdepth, vs, ns, rfl, hns, rfl⟩ := fromScriptAt_list_iff.1 hn
  rw [DeclaredType.nesting_list] at hnesting
  cases w with
  | array ws =>
    obtain ⟨ms, hms, htwins⟩ := h.items (by omega)
      (Script.Value.forall_items_parts_subset hv) (Script.Value.forall_items_parts_subset hw)
      (Script.Value.same_array_iff.1 hsame) hns
    exact ⟨.list ms, fromScriptAt_list_iff.2 ⟨hdepth, ws, ms, rfl, hms, rfl⟩,
      .list htwins hdepth⟩
  | _ => cases hsame

/-- The elements of two equal arrays are dropped in the same places. -/
theorem carries_set (hps : Exact ps) (h : b.Carries index ps element) :
    b.Carries index ps (.set element) := by
  intro depth v w n hnesting hv hw hsame hn
  obtain ⟨hdepth, vs, ns, rfl, hns, rfl⟩ := fromScriptAt_set_iff_fresh.1 hn
  rw [DeclaredType.nesting_set] at hnesting
  cases w with
  | array ws =>
    have hvs := Script.Value.forall_items_parts_subset hv
    have hws := Script.Value.forall_items_parts_subset hw
    have halike : List.Forall₂ (Interchangeable (Held ps)) vs ws :=
      forall₂_imp_of_mem₂ (Script.Value.same_array_iff.1 hsame) fun v hv w hw =>
        hps.interchangeable (hvs v hv) (hws w hw)
    have hkept : List.Forall₂ (Interchangeable (Held ps)) (fresh [] vs) (fresh [] ws) :=
      Script.Value.fresh_congr (fun _ _ _ _ hv hw => hv.same_congr hw) .nil halike
    obtain ⟨ms, hms, htwins⟩ := h.items (by omega)
      (fun v hv => hvs v ((Script.Value.fresh_sublist [] vs).subset hv))
      (fun w hw => hws w ((Script.Value.fresh_sublist [] ws).subset hw))
      (hkept.imp fun v w hvw => hvw.same) hns
    exact ⟨.set ms, fromScriptAt_set_iff_fresh.2 ⟨hdepth, ws, ms, rfl, hms, rfl⟩,
      .set htwins hdepth⟩
  | _ => cases hsame

theorem exists_twins_components (h : ∀ t ∈ types, b.Carries index ps t)
    (hnesting : depth + DeclaredType.nestingOfItems types ≤ b.options.maxDepth)
    (hvs : ∀ v ∈ vs, v.parts ⊆ ps) (hws : ∀ w ∈ ws, w.parts ⊆ ps)
    (hsame : List.Forall₂ (fun v w => v.same w = true) vs ws)
    (hns : b.componentsFromScript index types depth vs = .ok ns) :
    ∃ ms, b.componentsFromScript index types depth ws = .ok ms ∧
      List.Forall₂ (b.Twins (Held ps) depth) ns ms := by
  induction types generalizing vs ws ns with
  | nil =>
    obtain rfl := pure_eq_ok_iff.1 hns
    exact ⟨[], rfl, .nil⟩
  | cons t types ih =>
    rw [DeclaredType.nestingOfItems_cons] at hnesting
    cases hsame with
    | nil =>
      obtain rfl := pure_eq_ok_iff.1 hns
      exact ⟨[], rfl, .nil⟩
    | cons hvw hsame =>
      obtain ⟨n, ns, hn, hns', rfl⟩ := componentsFromScript_cons_iff.1 hns
      obtain ⟨ht, htypes⟩ := List.forall_mem_cons.1 h
      obtain ⟨hv, hvs⟩ := List.forall_mem_cons.1 hvs
      obtain ⟨hw, hws⟩ := List.forall_mem_cons.1 hws
      obtain ⟨m, hm, htwins⟩ := ht depth _ _ _ (by omega) hv hw hvw hn
      obtain ⟨ms, hms, hrest⟩ := ih htypes (by omega) hvs hws hsame hns'
      exact ⟨m :: ms, componentsFromScript_cons_iff.2 ⟨m, ms, hm, hms, rfl⟩, .cons htwins hrest⟩

theorem carries_tuple (h : ∀ t ∈ types, b.Carries index ps t) :
    b.Carries index ps (.tuple types) := by
  intro depth v w n hnesting hv hw hsame hn
  obtain ⟨hdepth, vs, ns, rfl, hlen, hns, rfl⟩ := fromScriptAt_tuple_iff.1 hn
  rw [DeclaredType.nesting_tuple] at hnesting
  cases w with
  | array ws =>
    have hitems := Script.Value.same_array_iff.1 hsame
    obtain ⟨ms, hms, htwins⟩ := exists_twins_components h (by omega)
      (Script.Value.forall_items_parts_subset hv) (Script.Value.forall_items_parts_subset hw)
      hitems hns
    refine ⟨.tuple ms, fromScriptAt_tuple_iff.2 ⟨hdepth, ws, ms, rfl, ?_, hms, rfl⟩,
      .tuple htwins hdepth⟩
    rw [← hitems.length_eq, hlen]
  | _ => cases hsame

theorem carries_map (hkeeps : (DeclaredType.map key value).KeepsNames ps)
    (h : b.Carries index ps value) : b.Carries index ps (.map key value) := by
  intro depth v w n hnesting hv hw hsame hn
  obtain ⟨hdepth, es, kps, rfl, hkps, rfl⟩ := fromScriptAt_map_iff.1 hn
  rw [DeclaredType.nesting_map] at hnesting
  cases w with
  | map fs =>
    have hvs := Script.Value.forall_entries_parts_subset hv
    have hws := Script.Value.forall_entries_parts_subset hw
    obtain ⟨gs, hgs, hperm⟩ := Script.Value.matched_of_same hsame
    have hpairs : List.Forall₂ (fun p g => ∃ q, b.ReadsEntry index key value (depth + 1) g q ∧
        b.EntryTwins (Held ps) (depth + 1) p q) kps gs := by
      have hparts : List.Forall₂ (fun e g => Entrywise (fun v w => v.same w = true) e g ∧
          e.2.parts ⊆ ps ∧ g.2.parts ⊆ ps) es gs :=
        forall₂_imp_of_mem₂ hgs fun e he g hg heg => ⟨heg, hvs e he, hws g (hperm.subset hg)⟩
      refine forall₂_trans hkps.flip hparts fun p _ e g _ hp heg => ?_
      obtain ⟨⟨hname, hsame⟩, he, hg⟩ := heg
      obtain ⟨m, hm, htwins⟩ := h (depth + 1) _ _ _ (by omega) he hg hsame hp.2
      obtain ⟨name, hkey, -⟩ := DeclaredType.exists_rename? hp.1
      exact ⟨(p.1, m), ⟨hname ▸ hp.1, hm⟩, ⟨name, hkey, hkey⟩, htwins⟩
    obtain ⟨kqs', hkqs', htwins⟩ := exists_forall₂_of_exists hpairs
    obtain ⟨kqs, hkqs, hperm'⟩ := List.perm_comp_forall₂ hperm.symm hkqs'
    have hes : (kps.filterMap (·.1.propertyName?)).Nodup := by
      rw [names_of_reads hkps]
      exact hkeeps key value es List.mem_cons_self (hv (Script.Value.self_mem_parts _))
    have hfs : (kqs.filterMap (·.1.propertyName?)).Nodup := by
      rw [names_of_reads hkqs]
      exact hkeeps key value fs List.mem_cons_self (hw (Script.Value.self_mem_parts _))
    exact ⟨.map kqs, fromScriptAt_map_iff.2 ⟨hdepth, fs, kqs, rfl, hkqs, rfl⟩,
      .map ⟨kqs', htwins.flip, hperm'.symm⟩ hes hfs hdepth⟩
  | _ => cases hsame

/-! ### Optionals and variants -/

theorem carries_optional (h : b.Carries index ps inner) :
    b.Carries index ps (.optional inner) := by
  intro depth v w n hnesting hv hw hsame hn
  rw [DeclaredType.nesting_optional] at hnesting
  obtain ⟨hdepth, ⟨rfl, rfl⟩ | ⟨rfl, rfl⟩ | ⟨hnullish, hn'⟩⟩ := fromScriptAt_optional_iff.1 hn
  · obtain rfl := Script.Value.eq_of_same rfl hsame
    have hback : ∀ d, d ≤ b.options.maxDepth → Native.Value.undefined.Becomes b d .undefined :=
      fun d hd => Native.Value.becomes_undefined hd
    exact ⟨_, hn, .of_becomes hback hback (.refl (.scalar rfl trivial)) hdepth⟩
  · obtain rfl := Script.Value.eq_of_same rfl hsame
    have hback : ∀ d, d ≤ b.options.maxDepth → Native.Value.null.Becomes b d .null :=
      fun d hd => Native.Value.becomes_null hd
    exact ⟨_, hn, .of_becomes hback hback (.refl (.scalar rfl trivial)) hdepth⟩
  · obtain ⟨m, hm, htwins⟩ := h depth v w n hnesting hv hw hsame hn'
    have hnullish' := (Script.Value.isNullish_of_same hsame).trans hnullish
    exact ⟨m, fromScriptAt_optional_iff.2 ⟨hdepth, .inr (.inr ⟨hnullish', hm⟩)⟩, htwins⟩

/-- An alternative that refuses one of two equal values refuses the other. -/
theorem carries_variant (hps : Exact ps) (h : ∀ t ∈ types, b.Carries index ps t) :
    b.Carries index ps (.variant types) := by
  intro depth v w n hnesting hv hw hsame hn
  rw [DeclaredType.nesting_variant] at hnesting
  obtain ⟨hdepth, before, t, after, n', rfl, rfl, hn', hbefore⟩ := fromScriptAt_variant_iff.1 hn
  have hwithin : ∀ t' ∈ before ++ t :: after, depth + 1 + t'.nesting ≤ b.options.maxDepth := by
    intro t' ht'
    have hle := DeclaredType.nesting_le_of_mem ht'
    omega
  have ht : t ∈ before ++ t :: after := List.mem_append_right _ List.mem_cons_self
  obtain ⟨m, hm, htwins⟩ := h t ht (depth + 1) v w n' (hwithin t ht) hv hw hsame hn'
  have hrefuses : ∀ t' ∈ before, b.Refuses index t' (depth + 1) w := by
    intro t' ht'
    have hmem := List.mem_append_left (t :: after) ht'
    cases hw' : b.fromScriptAt index t' (depth + 1) w with
    | ok m' =>
      have hsymm : w.same v := (hps.interchangeable hv hw hsame).symm.same
      obtain ⟨n'', hv', -⟩ := h t' hmem (depth + 1) w v m' (hwithin t' hmem) hw hv hsymm hw'
      obtain ⟨err, herr, -⟩ := hbefore t' ht'
      cases hv'.symm.trans herr
    | error err =>
      refine ⟨err, hw', fun i limit hlimit => ?_⟩
      rw [hlimit] at hw'
      exact fromScriptAt_ne_depth (hwithin t' hmem) i limit hw'
  exact ⟨.variant before.length m,
    fromScriptAt_variant_iff.2 ⟨hdepth, before, t, after, m, rfl, rfl, hm, hrefuses⟩,
    .variant htwins hdepth _⟩

/-- **Equal values are converted to twins.** -/
theorem carries (hf : b.registry.Faithful) (hps : Exact ps) (t : DeclaredType)
    (hkeeps : t.KeepsNames ps) : b.Carries index ps t := by
  induction t using DeclaredType.inductionOn with
  | any => exact carries_any hps
  | null => exact carries_null
  | bool => exact carries_bool
  | integer => exact carries_integer hps
  | bounded name min max => exact carries_bounded hps name min max
  | number => exact carries_number
  | string => exact carries_string
  | u16string => exact carries_u16string
  | symbol => exact carries_symbol
  | object className => exact carries_object hf className
  | function => exact carries_function
  | tuple types ih =>
    exact carries_tuple fun t ht => ih t ht (hkeeps.of_parts fun _ hpart =>
      List.mem_cons_of_mem _ (DeclaredType.parts_subset_of_mem ht hpart))
  | variant types ih =>
    exact carries_variant hps fun t ht => ih t ht (hkeeps.of_parts fun _ hpart =>
      List.mem_cons_of_mem _ (DeclaredType.parts_subset_of_mem ht hpart))
  | list element ih =>
    exact carries_list (ih (hkeeps.of_parts fun _ => List.mem_cons_of_mem _))
  | set element ih =>
    exact carries_set hps (ih (hkeeps.of_parts fun _ => List.mem_cons_of_mem _))
  | map key value ih =>
    exact carries_map hkeeps (ih (hkeeps.of_parts fun _ hpart =>
      List.mem_cons_of_mem _ (List.mem_append_right _ hpart)))
  | optional inner ih =>
    exact carries_optional (ih (hkeeps.of_parts fun _ => List.mem_cons_of_mem _))

end Bridge
end ScriptBridge
