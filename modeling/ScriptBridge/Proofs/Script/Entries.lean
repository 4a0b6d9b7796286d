import Mathlib.Data.List.Nodup
import ScriptBridge.Proofs.Script.Symmetry

/-! # Equal maps

Maps are compared by greedy matching: every entry of the left map takes the first entry of the right
one that is equal to it. Where the entries are coherent, as they are where no name is repeated, that
finds a matching whenever there is one: `same_map_iff_of_coherent`, `same_map_iff`.
-/

namespace ScriptBridge.Script.Value
set_option autoImplicit false

/-! ## Values without parts -/

/-- Values of these kinds are equal only if they are the same. -/
def isPlain : Value → Bool
  | undefined | null | bool _ | string _ | wrapper _ | function _ => true
  | _ => false

theorem eq_of_same {v w : Value} (hv : v.isPlain) (h : v.same w) : v = w := by
  cases v with
  | undefined | null => cases w <;> first | rfl | cases h
  | bool | string | wrapper | function =>
    cases w <;> first | exact congrArg _ (eq_of_beq h) | cases h
  | _ => cases hv

theorem isNullish_of_same {v w : Value} (h : v.same w) : w.isNullish = v.isNullish := by
  cases v <;> cases w <;> first | rfl | cases h

/-! ## Entries -/

/-- Two entries have one name, and their values are related. -/
def Entrywise (R : Value → Value → Prop) (e f : Utf16 × Value) : Prop := e.1 = f.1 ∧ R e.2 f.2

theorem same_map_eq_eachTakes (es fs : List (Utf16 × Value)) : (map es).same (.map fs) =
    (es.length == fs.length && eachTakes (fun e f => f.1 == e.1 && e.2.same f.2) es fs) := by
  rw [same_map_eq]
  exact congrArg _ (eachTakes_congr fun e _ f _ => by rw [same_comm])

theorem entrywise_same_eq : (Entrywise fun v w => v.same w) =
    fun e f : Utf16 × Value => (f.1 == e.1 && e.2.same f.2) = true := by
  funext e f
  rw [Entrywise, Bool.and_eq_true, beq_iff_eq, eq_comm (a := f.1)]

theorem matched_of_same {es fs : List (Utf16 × Value)} (h : (map es).same (.map fs)) :
    Matched (Entrywise fun v w => v.same w) es fs := by
  rw [same_map_eq_eachTakes, Bool.and_eq_true, beq_iff_eq] at h
  rw [entrywise_same_eq]
  exact matched_of_eachTakes h.2 h.1

/-- **Maps are equal if their entries can be paired**, when the entries are coherent. -/
theorem same_map_iff_of_coherent {es fs : List (Utf16 × Value)}
    (hcoherent : Coherent (Entrywise fun v w => v.same w) es fs) :
    (map es).same (.map fs) ↔ Matched (Entrywise fun v w => v.same w) es fs := by
  refine ⟨matched_of_same, fun h => ?_⟩
  rw [same_map_eq_eachTakes, Bool.and_eq_true, beq_iff_eq]
  rw [entrywise_same_eq] at h hcoherent
  exact ⟨h.length_eq, eachTakes_of_matched h hcoherent⟩

/-- No entry can take another one than its own where no name is repeated. -/
theorem coherent_of_nodup {es fs : List (Utf16 × Value)} (hnames : (fs.map (·.1)).Nodup) :
    Coherent (Entrywise fun v w => v.same w) es fs := by
  intro e _ e' _ f hf f' hf' hef he'f he'f'
  obtain rfl : f = f' :=
    List.inj_on_of_nodup_map hnames hf hf' (he'f.1.symm.trans he'f'.1)
  exact hef

/-- **Maps without repeated names are equal if their entries can be paired.** -/
theorem same_map_iff {es fs : List (Utf16 × Value)} (hnames : (fs.map (·.1)).Nodup) :
    (map es).same (.map fs) ↔ Matched (Entrywise fun v w => v.same w) es fs :=
  same_map_iff_of_coherent (coherent_of_nodup hnames)

end ScriptBridge.Script.Value
