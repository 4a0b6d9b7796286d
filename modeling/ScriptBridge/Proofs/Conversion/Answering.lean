import ScriptBridge.Proofs.Conversion.Failures
import ScriptBridge.Proofs.Conversion.Repeats
import ScriptBridge.Proofs.Conversion.Returning
import ScriptBridge.Proofs.Script.Entries

/-! # Whatever was converted is converted back

What a value was converted to can be converted back, and the bridge is left as it is. Not every
value comes back as it was, but what comes back of a value without a NaN is equal to itself:
`Bridge.answers_of_fromScriptAt`.
-/

namespace ScriptBridge
set_option autoImplicit false

open Script.Value (fresh)

theorem mem_setEntry {name : Utf16} {v : Script.Value} {es : List (Utf16 × Script.Value)}
    {e : Utf16 × Script.Value} (h : e ∈ setEntry name v es) : e.2 = v ∨ e ∈ es := by
  induction es with
  | nil =>
    obtain rfl := List.mem_singleton.1 h
    exact .inl rfl
  | cons e' rest ih =>
    unfold setEntry at h
    split at h
    · refine (List.mem_cons.1 h).imp ?_ (List.mem_cons_of_mem _)
      rintro rfl
      rfl
    · rcases List.mem_cons.1 h with rfl | h
      · exact .inr List.mem_cons_self
      · exact (ih h).imp_right (List.mem_cons_of_mem _)

namespace Bridge

variable {b : Bridge} {index depth : Nat} {n : Native.Value} {ns : List Native.Value}
  {v : Script.Value} {t key value element inner : DeclaredType} {types : List DeclaredType}

/-- At any depth up to the given one, `n` is converted to one value that is equal to itself, and the
bridge is left as it is. -/
def Answers (b : Bridge) (depth : Nat) (n : Native.Value) : Prop :=
  ∃ v, v.same v ∧ ∀ d ≤ depth, n.Becomes b d v

theorem Answers.of_becomes (h : ∀ d, d ≤ b.options.maxDepth → n.Becomes b d v) (hv : v.same v)
    (hdepth : depth ≤ b.options.maxDepth) : b.Answers depth n :=
  ⟨v, hv, fun d hd => h d (Nat.le_trans hd hdepth)⟩

theorem Answers.variant (h : b.Answers (depth + 1) n) (hdepth : depth ≤ b.options.maxDepth)
    (k : Nat) : b.Answers depth (.variant k n) := by
  obtain ⟨v, hsame, hv⟩ := h
  refine ⟨v, hsame, fun d hd => ?_⟩
  exact Native.Value.becomes_variant (Nat.le_trans hd hdepth) (hv d (Nat.le_succ_of_le hd)) k

theorem exists_becomes_answers (h : ∀ n ∈ ns, b.Answers depth n) :
    ∃ vs, (∀ v ∈ vs, v.same v) ∧ ∀ d ≤ depth, List.Forall₂ (Native.Value.Becomes b d) ns vs := by
  induction ns with
  | nil => exact ⟨[], fun _ hv => (nomatch hv), fun _ _ => .nil⟩
  | cons n ns ih =>
    obtain ⟨⟨v, hsame, hv⟩, hns⟩ := List.forall_mem_cons.1 h
    obtain ⟨vs, hsames, hvs⟩ := ih hns
    exact ⟨v :: vs, List.forall_mem_cons.2 ⟨hsame, hsames⟩, fun d hd => .cons (hv d hd) (hvs d hd)⟩

theorem same_array_self {vs : List Script.Value} (h : ∀ v ∈ vs, v.same v) :
    (Script.Value.array vs).same (.array vs) :=
  Script.Value.same_array_iff.2 (List.forall₂_same.2 h)

section
variable (h : ∀ n ∈ ns, b.Answers (depth + 1) n) (hdepth : depth ≤ b.options.maxDepth)
include h hdepth

theorem Answers.list : b.Answers depth (.list ns) := by
  obtain ⟨vs, hsame, hvs⟩ := exists_becomes_answers h
  refine ⟨_, same_array_self hsame, fun d hd => ?_⟩
  exact Native.Value.becomes_list (Nat.le_trans hd hdepth) (hvs (d + 1) (Nat.succ_le_succ hd))

theorem Answers.tuple : b.Answers depth (.tuple ns) := by
  obtain ⟨vs, hsame, hvs⟩ := exists_becomes_answers h
  refine ⟨_, same_array_self hsame, fun d hd => ?_⟩
  exact Native.Value.becomes_tuple (Nat.le_trans hd hdepth) (hvs (d + 1) (Nat.succ_le_succ hd))

theorem Answers.set : b.Answers depth (.set ns) := by
  obtain ⟨vs, hsame, hvs⟩ := exists_becomes_answers h
  have hkept : ∀ v ∈ fresh [] vs, v.same v :=
    fun v hv => hsame v ((Script.Value.fresh_sublist [] vs).subset hv)
  refine ⟨_, same_array_self hkept, fun d hd => ?_⟩
  exact Native.Value.becomes_set_fresh (Nat.le_trans hd hdepth) (hvs (d + 1) (Nat.succ_le_succ hd))

end

/-- Entries of one name become one entry, with the value of the last. -/
theorem exists_run_entriesToScript {kps : List (Native.Value × Native.Value)}
    (h : ∀ p ∈ kps, (∃ name, p.1.propertyName? = some name) ∧ b.Answers depth p.2)
    {converted : List (Utf16 × Script.Value)} (hconverted : ∀ e ∈ converted, e.2.same e.2) :
    ∃ es, (∀ e ∈ es, e.2.same e.2) ∧
      ∀ d ≤ depth, (Native.Value.entriesToScript d converted kps).run b = (.ok es, b) := by
  induction kps generalizing converted with
  | nil => exact ⟨converted, hconverted, fun _ _ => rfl⟩
  | cons p kps ih =>
    obtain ⟨⟨⟨name, hname⟩, v, hsame, hv⟩, hrest⟩ := List.forall_mem_cons.1 h
    have hset : ∀ e ∈ setEntry name v converted, e.2.same e.2 := by
      intro e he
      rcases mem_setEntry he with heq | he
      · rw [heq]
        exact hsame
      · exact hconverted e he
    obtain ⟨es, hsames, hes⟩ := ih hrest hset
    refine ⟨es, hsames, fun d hd => ?_⟩
    unfold Native.Value.entriesToScript
    rw [hname]
    exact (Native.Value.run_bind_of_ok (hv d hd) _).trans (hes d hd)

theorem Answers.map {kps : List (Native.Value × Native.Value)}
    (h : ∀ p ∈ kps, (∃ name, p.1.propertyName? = some name) ∧ b.Answers (depth + 1) p.2)
    (hdepth : depth ≤ b.options.maxDepth) : b.Answers depth (.map kps) := by
  have hnone : ∀ e ∈ ([] : List (Utf16 × Script.Value)), e.2.same e.2 := fun _ he => nomatch he
  obtain ⟨es, hsame, hes⟩ := exists_run_entriesToScript h hnone
  refine ⟨.map es, ?_, fun d hd => ?_⟩
  · exact Script.Value.same_map_of_forall₂ (List.forall₂_same.2 fun e he => ⟨rfl, hsame e he⟩)
  · exact Native.Value.run_map_within (Nat.le_trans hd hdepth) (hes (d + 1) (Nat.succ_le_succ hd)) _

theorem GivesBack.same_self {v' : Script.Value} (h : GivesBack t v v')
    (hnan : ∀ x, .float x ∈ v.parts → x.isNaN = false) : v'.same v' := by
  cases h with
  | same => exact Script.Value.same_self v hnan
  | null => rfl
  | integer _ => exact beq_self_eq_true _
  | number _ hx =>
    rcases Script.Value.number?_eq_some_iff.1 hx with ⟨i, rfl, rfl⟩ | rfl
    · exact Script.Value.equal_self (Binary64.isNaN_ofInt _)
    · exact Script.Value.equal_self (hnan _ (List.mem_singleton_self _))

/-- **What was converted can be converted back**, by induction on the type. -/
theorem answers_of_fromScriptAt (hf : b.registry.Faithful) (t : DeclaredType)
    (hnan : ∀ x, .float x ∈ v.parts → x.isNaN = false)
    (hn : b.fromScriptAt index t depth v = .ok n) : b.Answers depth n := by
  induction t using DeclaredType.layersOn generalizing depth v n with
  | scalar t ht =>
    obtain ⟨hdepth, hreads⟩ := reads_of_fromScriptAt ht hn
    obtain ⟨v', hback, hv'⟩ := hreads.givesBack hf
    exact .of_becomes hv' (hback.same_self hnan) hdepth
  | tuple types ih =>
    obtain ⟨hdepth, items, ns, rfl, hlen, hns, rfl⟩ := fromScriptAt_tuple_iff.1 hn
    have hanswers : List.Forall₂ (fun _ n => b.Answers (depth + 1) n) items ns := by
      refine forall₂_of_componentsFromScript hlen hns fun k t item n ht hitem hn => ?_
      have hparts := Script.Value.parts_subset_array (List.mem_of_getElem? hitem)
      exact ih t (List.mem_of_getElem? ht) (fun x hx => hnan x (hparts hx)) hn
    refine .tuple (fun n hn => ?_) hdepth
    obtain ⟨_, -, h⟩ := exists_of_mem_right hanswers hn
    exact h
  | variant types ih =>
    obtain ⟨hdepth, k, t, n', rfl, ht, hn'⟩ := fromScriptAt_variant hn
    exact .variant (ih t (List.mem_of_getElem? ht) hnan hn') hdepth k
  | list element ih =>
    obtain ⟨hdepth, items, ns, rfl, hns, rfl⟩ := fromScriptAt_list_iff.1 hn
    refine .list (fun n hn => ?_) hdepth
    obtain ⟨item, hitem, hn⟩ := exists_of_mem_right hns hn
    exact ih (fun x hx => hnan x (Script.Value.parts_subset_array hitem hx)) hn
  | set element ih =>
    obtain ⟨hdepth, items, ns, rfl, hns, rfl⟩ := fromScriptAt_set_iff_fresh.1 hn
    refine .set (fun n hn => ?_) hdepth
    obtain ⟨item, hitem, hn⟩ := exists_of_mem_right hns hn
    have hparts := Script.Value.parts_subset_array
      ((Script.Value.fresh_sublist [] items).subset hitem)
    exact ih (fun x hx => hnan x (hparts hx)) hn
  | map key value ih =>
    obtain ⟨hdepth, es, kps, rfl, hkps, rfl⟩ := fromScriptAt_map_iff.1 hn
    refine .map (fun p hp => ?_) hdepth
    obtain ⟨e, he, hkey, hn⟩ := exists_of_mem_right hkps hp
    refine ⟨DeclaredType.exists_propertyName?_of_readKey? key hkey, ?_⟩
    exact ih (fun x hx => hnan x (Script.Value.parts_subset_map he hx)) hn
  | optional inner ih =>
    obtain ⟨hdepth, ⟨rfl, rfl⟩ | ⟨rfl, rfl⟩ | ⟨-, hn⟩⟩ := fromScriptAt_optional_iff.1 hn
    · exact .of_becomes (fun d hd => Native.Value.becomes_undefined hd) rfl hdepth
    · exact .of_becomes (fun d hd => Native.Value.becomes_null hd) rfl hdepth
    · exact ih hnan hn

end Bridge
end ScriptBridge
