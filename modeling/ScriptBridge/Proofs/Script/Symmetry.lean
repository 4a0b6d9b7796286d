import ScriptBridge.Proofs.Number.Integral
import ScriptBridge.Proofs.Script.Equality
import ScriptBridge.Proofs.Sequences

/-! # Equality from either side

Equality of script values is symmetric, although it is not transitive and maps are compared by
greedy matching from the left: the matching is the same from the right, `eachTakes_flip`. Only a NaN
keeps a value from being equal to itself: `beq_symm_and_refl`.
-/

namespace ScriptBridge.Script.Value
set_option autoImplicit false

/-! ## Symmetry -/

variable {vs : List Value} {es : List (Utf16 × Value)}

theorem same_array_comm (h : ∀ v ∈ vs, ∀ w : Value, v.same w = w.same v) (ws : List Value) :
    (array vs).same (.array ws) = (array ws).same (.array vs) := by
  rw [Bool.eq_iff_iff, same_array_iff, same_array_iff]
  constructor
  · intro hsame
    exact (forall₂_imp_of_mem hsame fun v hv w hvw => (h v hv w).symm.trans hvw).flip
  · intro hsame
    exact forall₂_imp_of_mem hsame.flip fun v hv w hwv => (h v hv w).trans hwv

theorem same_map_comm (h : ∀ e ∈ es, ∀ w : Value, e.2.same w = w.same e.2)
    (fs : List (Utf16 × Value)) : (map es).same (.map fs) = (map fs).same (.map es) := by
  rw [same_map_eq, same_map_eq]
  by_cases hlen : es.length = fs.length
  · rw [eachTakes_flip hlen, hlen]
    refine congrArg _ (eachTakes_congr fun f _ e he => ?_)
    rw [flip, h e he f.2, BEq.comm]
  · rw [beq_false_of_ne hlen, beq_false_of_ne (Ne.symm hlen), Bool.false_and, Bool.false_and]

/-- **Equality is symmetric**, by induction on the left value. -/
theorem same_comm (v w : Value) : v.same w = w.same v := by
  induction v using inductionOn generalizing w with
  | array vs ih =>
    cases w with
    | array ws => exact same_array_comm ih ws
    | _ => rfl
  | map es ih =>
    cases w with
    | map fs => exact same_map_comm ih fs
    | _ => rfl
  | float x =>
    cases w with
    | float y => exact Bool.eq_iff_iff.2 ⟨Binary64.equal_symm, Binary64.equal_symm⟩
    | _ => rfl
  | symbol s =>
    cases w with
    | symbol t => exact BEq.comm (a := s.serial)
    | _ => rfl
  | undefined | null | bool | int | string | wrapper | function =>
    cases w <;> first
      | rfl
      | simp only [same_bool, same_int, same_string, same_wrapper, same_function, BEq.comm]

/-! ## Reflexivity -/

/-- Entries that agree one by one make equal maps. -/
theorem same_map_of_forall₂ {es fs : List (Utf16 × Value)}
    (h : List.Forall₂ (fun e f => e.1 = f.1 ∧ e.2.same f.2 = true) es fs) :
    (map es).same (.map fs) := by
  rw [same_map_eq, h.length_eq, beq_self_eq_true, Bool.true_and]
  induction h with
  | nil => rfl
  | @cons e f es fs hef _ ih =>
    have hpass : (f.1 == e.1 && f.2.same e.2) = true := by
      rw [hef.1, beq_self_eq_true, same_comm, hef.2, Bool.and_self]
    have htaken : removeFirst? (fun f : Utf16 × Value => f.1 == e.1 && f.2.same e.2) (f :: fs) =
        some fs := if_pos hpass
    rw [eachTakes_cons_of_some htaken]
    exact ih

theorem symbol_beq_self (s : Symbol) : (s == s) = true := beq_self_eq_true s.serial

theorem equal_self {x : Binary64} (h : x.isNaN = false) : x.equal x := by simp [Binary64.equal, h]

mutual

/-- **A value without a NaN is equal to itself.** -/
theorem same_self : ∀ v : Value, (∀ x, .float x ∈ v.parts → x.isNaN = false) → same v v
  | .undefined, _ | .null, _ => rfl
  | .bool _, _ | .int _, _ | .string _, _ | .symbol _, _ | .wrapper _, _ | .function _, _ => by
    simp only [same_bool, same_int, same_string, same_symbol, same_wrapper, same_function,
      beq_self_eq_true, symbol_beq_self]
  | .float x, h => equal_self (h x (List.mem_singleton_self _))
  | .array items, h => by
    rw [same_array_iff, List.forall₂_same]
    exact same_items_self items fun x hx => h x (List.mem_cons_of_mem _ hx)
  | .map entries, h => by
    refine same_map_of_forall₂ (List.forall₂_same.2 fun e he => ⟨rfl, ?_⟩)
    exact same_entries_self entries (fun x hx => h x (List.mem_cons_of_mem _ hx)) e he

theorem same_items_self : ∀ items : List Value,
    (∀ x, .float x ∈ partsOfItems items → x.isNaN = false) → ∀ v ∈ items, same v v
  | [], _ => by simp
  | v :: rest, h => by
    refine List.forall_mem_cons.2 ⟨same_self v fun x hx => h x (List.mem_append_left _ hx), ?_⟩
    exact same_items_self rest fun x hx => h x (List.mem_append_right _ hx)

theorem same_entries_self : ∀ entries : List (Utf16 × Value),
    (∀ x, .float x ∈ partsOfEntries entries → x.isNaN = false) → ∀ e ∈ entries, same e.2 e.2
  | [], _ => by simp
  | (name, v) :: rest, h => by
    refine List.forall_mem_cons.2 ⟨same_self v fun x hx => h x (List.mem_append_left _ hx), ?_⟩
    exact same_entries_self rest fun x hx => h x (List.mem_append_right _ hx)

end

/-- **Values are equal from the one side as from the other**, and a value in which there is no NaN
is equal to itself. -/
theorem beq_symm_and_refl : (∀ v w : Value, v == w ↔ w == v) ∧
    ∀ v : Value, (∀ x, .float x ∈ v.parts → x.isNaN = false) → v == v := by
  refine ⟨fun v w => ?_, same_self⟩
  change v.same w = true ↔ w.same v = true
  rw [same_comm]

/-- Two maps that repeat a name, with a double that is equal to two integers: it is taken for either
of them. -/
theorem beq_symm_and_refl_rounded :
    let name := Utf16.ofString "x"
    let v := map [(name, .float ⟨0x4340000000000000⟩), (name, .int 9007199254740992)]
    let w := map [(name, .int 9007199254740993), (name, .int 9007199254740992)]
    v == w ∧ w == v ∧ (∀ x, .float x ∈ v.parts → x.isNaN = false) ∧ v == v := by
  intro name v w
  have hvw : v == w := by decide
  have hnan : ∀ x, .float x ∈ v.parts → x.isNaN = false := by
    intro x hx
    obtain rfl : x = ⟨0x4340000000000000⟩ := by simpa [v, parts, partsOfEntries] using hx
    decide
  exact ⟨hvw, (beq_symm_and_refl.1 v w).1 hvw, hnan, beq_symm_and_refl.2 v hnan⟩

end ScriptBridge.Script.Value
