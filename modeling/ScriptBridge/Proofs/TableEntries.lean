import ScriptBridge.Table
import Mathlib.Data.List.Nodup

/-! # Entries of a table

The entries, the keys and the values of a table, told through its view `Table.find?`. Keys are
distinct, so an entry stands in the list exactly when the view finds it.
-/

namespace ScriptBridge.Table
set_option autoImplicit false

universe u v

variable {κ : Type u} {α : Type v} [DecidableEq κ]

theorem findIn_eq_some_iff {entries : List (κ × α)} (h : (entries.map Prod.fst).Nodup) (k : κ)
    (a : α) : findIn k entries = some a ↔ (k, a) ∈ entries := by
  induction entries with
  | nil => simp [findIn]
  | cons e rest ih =>
    obtain ⟨k', a'⟩ := e
    rw [List.map_cons, List.nodup_cons] at h
    by_cases hk : k' = k
    · subst hk
      have hfresh : (k', a) ∉ rest := fun hmem =>
        h.1 (List.mem_map.2 ⟨(k', a), hmem, rfl⟩)
      simp [findIn, hfresh, eq_comm]
    · have hne : (k, a) ≠ (k', a') := fun he => hk (congrArg Prod.fst he).symm
      simp [findIn, hk, ih h.2, hne]

theorem mem_entries_iff (t : Table κ α) (k : κ) (a : α) :
    (k, a) ∈ t.entries ↔ t.find? k = some a :=
  (findIn_eq_some_iff t.distinct k a).symm

theorem mem_values_iff (t : Table κ α) (a : α) : a ∈ t.values ↔ ∃ k, t.find? k = some a := by
  simp only [values, List.mem_map, Prod.exists, exists_eq_right, mem_entries_iff]

theorem mem_keys_of_find? {t : Table κ α} {k : κ} {a : α} (h : t.find? k = some a) : k ∈ t.keys :=
  List.mem_map.2 ⟨(k, a), (t.mem_entries_iff k a).2 h, rfl⟩

end ScriptBridge.Table
