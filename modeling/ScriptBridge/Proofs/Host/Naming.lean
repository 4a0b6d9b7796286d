import ScriptBridge.Host.Roots
import ScriptBridge.Proofs.TableEntries

/-! # Which objects a value names

`Script.Value.Names` says that a value names an object, itself or in an array or a map at any depth.
It is what the computed list `Script.Value.objects` stands for.
-/

namespace ScriptBridge
set_option autoImplicit false

namespace Script.Value

/-- The value names the object, possibly from inside arrays and maps. -/
inductive Names : Value → ObjectId → Prop where
  | wrapper (id : ObjectId) : Names (.wrapper id) id
  | function (id : ObjectId) : Names (.function id) id
  | item {items : List Value} {v : Value} {id : ObjectId} :
      v ∈ items → Names v id → Names (.array items) id
  | entry {entries : List (Utf16 × Value)} {key : Utf16} {v : Value} {id : ObjectId} :
      (key, v) ∈ entries → Names v id → Names (.map entries) id

theorem objectsOfItems_eq (items : List Value) : objectsOfItems items = items.flatMap objects := by
  induction items with
  | nil => rfl
  | cons v rest ih => rw [objectsOfItems, ih, List.flatMap_cons]

theorem objectsOfEntries_eq (entries : List (Utf16 × Value)) :
    objectsOfEntries entries = entries.flatMap fun e => e.2.objects := by
  induction entries with
  | nil => rfl
  | cons e rest ih => rw [objectsOfEntries, ih, List.flatMap_cons]

theorem Names.mem_objects {v : Value} {id : ObjectId} (h : v.Names id) : id ∈ v.objects := by
  induction h with
  | wrapper id => simp [objects]
  | function id => simp [objects]
  | item hmem _ ih =>
    rw [objects, objectsOfItems_eq]
    exact List.mem_flatMap.2 ⟨_, hmem, ih⟩
  | entry hmem _ ih =>
    rw [objects, objectsOfEntries_eq]
    exact List.mem_flatMap.2 ⟨_, hmem, ih⟩

mutual

theorem names_of_mem_objects {id : ObjectId} : ∀ v : Value, id ∈ v.objects → v.Names id
  | .wrapper _, h | .function _, h => by
    obtain rfl := List.mem_singleton.1 h
    constructor
  | .array items, h => by
    obtain ⟨v, hmem, hv⟩ := names_of_mem_items items h
    exact .item hmem hv
  | .map entries, h => by
    obtain ⟨key, v, hmem, hv⟩ := names_of_mem_entries entries h
    exact .entry hmem hv
  | .undefined, h | .null, h | .bool _, h | .int _, h | .float _, h | .string _, h
  | .symbol _, h => by simp [objects] at h

theorem names_of_mem_items {id : ObjectId} :
    ∀ items : List Value, id ∈ objectsOfItems items → ∃ v ∈ items, v.Names id
  | [], h => by simp [objectsOfItems] at h
  | v :: rest, h => by
    rcases List.mem_append.1 h with hv | hrest
    · exact ⟨v, List.mem_cons_self, names_of_mem_objects v hv⟩
    · obtain ⟨w, hmem, hw⟩ := names_of_mem_items rest hrest
      exact ⟨w, List.mem_cons_of_mem _ hmem, hw⟩

theorem names_of_mem_entries {id : ObjectId} :
    ∀ entries : List (Utf16 × Value), id ∈ objectsOfEntries entries →
      ∃ key v, (key, v) ∈ entries ∧ v.Names id
  | [], h => by simp [objectsOfEntries] at h
  | (key, v) :: rest, h => by
    rcases List.mem_append.1 h with hv | hrest
    · exact ⟨key, v, List.mem_cons_self, names_of_mem_objects v hv⟩
    · obtain ⟨key', w, hmem, hw⟩ := names_of_mem_entries rest hrest
      exact ⟨key', w, List.mem_cons_of_mem _ hmem, hw⟩

end

theorem mem_objects_iff (v : Value) (id : ObjectId) : id ∈ v.objects ↔ v.Names id :=
  ⟨names_of_mem_objects v, Names.mem_objects⟩

end Script.Value

namespace Roots

/-- The open scopes, the outermost first. -/
def scopes (r : Roots) : List HandleScope := r.outermost :: r.inner.reverse

theorem mem_objects_iff (r : Roots) (id : ObjectId) :
    id ∈ r.objects ↔
      (∃ scope ∈ r.scopes, ∃ v ∈ scope, v.Names id) ∨
        ∃ name v, r.global? name = some v ∧ v.Names id := by
  simp only [objects, values, List.mem_flatMap, List.mem_append, Table.mem_values_iff,
    List.mem_flatten, Script.Value.mem_objects_iff, scopes, global?, List.mem_cons,
    List.mem_reverse]
  grind

end Roots
end ScriptBridge
