import Mathlib.Data.List.Forall2
import ScriptBridge.Proofs.Script.Greedy

/-! # When script values are equal

Arrays are equal item by item, maps by greedy matching of their entries: `same_array_iff`,
`same_map_eq`. It does not matter on which side of the comparison the recursion is: `sameOn_swap`.
-/

namespace ScriptBridge.Script.Value
set_option autoImplicit false

/-! ## Values, part by part -/

mutual

/-- The value and all that is held in it, however deep. -/
def parts : Value → List Value
  | array items => .array items :: partsOfItems items
  | map entries => .map entries :: partsOfEntries entries
  | v => [v]

def partsOfItems : List Value → List Value
  | [] => []
  | v :: rest => v.parts ++ partsOfItems rest

def partsOfEntries : List (Utf16 × Value) → List Value
  | [] => []
  | (_, v) :: rest => v.parts ++ partsOfEntries rest

end

theorem partsOfItems_eq (items : List Value) : partsOfItems items = items.flatMap parts := by
  induction items with
  | nil => rfl
  | cons v rest ih => rw [partsOfItems, ih, List.flatMap_cons]

theorem partsOfEntries_eq (entries : List (Utf16 × Value)) :
    partsOfEntries entries = entries.flatMap fun e => e.2.parts := by
  induction entries with
  | nil => rfl
  | cons e rest ih => rw [partsOfEntries, ih, List.flatMap_cons]

/-- A property of the values that holds of an array or a map if it holds of what it holds. -/
@[elab_as_elim]
theorem inductionOn {motive : Value → Prop} (v : Value) (undefined : motive .undefined)
    (null : motive .null) (bool : ∀ x, motive (.bool x)) (int : ∀ i, motive (.int i))
    (float : ∀ x, motive (.float x)) (string : ∀ s, motive (.string s))
    (symbol : ∀ s, motive (.symbol s))
    (array : ∀ items, (∀ v ∈ items, motive v) → motive (.array items))
    (map : ∀ entries, (∀ e ∈ entries, motive e.2) → motive (.map entries))
    (wrapper : ∀ id, motive (.wrapper id)) (function : ∀ id, motive (.function id)) : motive v := by
  refine @Value.rec motive (fun items => ∀ v ∈ items, motive v)
    (fun entries => ∀ e ∈ entries, motive e.2) (fun e => motive e.2)
    undefined null bool int float string symbol array map wrapper function (fun _ h => nomatch h)
    ?_ (fun _ h => nomatch h) ?_ (fun _ _ h => h) v
  · exact fun v items hv hitems => List.forall_mem_cons.2 ⟨hv, hitems⟩
  · exact fun e entries he hentries => List.forall_mem_cons.2 ⟨he, hentries⟩

theorem self_mem_parts (v : Value) : v ∈ v.parts := by
  cases v with
  | array | map => exact List.mem_cons_self
  | _ => exact List.mem_singleton_self _

theorem parts_array (items : List Value) :
    (array items).parts = .array items :: items.flatMap parts :=
  congrArg _ (partsOfItems_eq items)

theorem parts_map (entries : List (Utf16 × Value)) :
    (map entries).parts = .map entries :: entries.flatMap fun e => e.2.parts :=
  congrArg _ (partsOfEntries_eq entries)

theorem mem_parts_array {v : Value} {items : List Value} :
    v ∈ (array items).parts ↔ v = .array items ∨ ∃ item ∈ items, v ∈ item.parts := by
  rw [parts_array, List.mem_cons, List.mem_flatMap]

theorem mem_parts_map {v : Value} {entries : List (Utf16 × Value)} :
    v ∈ (map entries).parts ↔ v = .map entries ∨ ∃ e ∈ entries, v ∈ e.2.parts := by
  rw [parts_map, List.mem_cons, List.mem_flatMap]

theorem parts_subset_array {item : Value} {items : List Value} (h : item ∈ items) :
    item.parts ⊆ (array items).parts := fun _ hv => mem_parts_array.2 (.inr ⟨item, h, hv⟩)

theorem parts_subset_map {e : Utf16 × Value} {entries : List (Utf16 × Value)} (h : e ∈ entries) :
    e.2.parts ⊆ (map entries).parts := fun _ hv => mem_parts_map.2 (.inr ⟨e, h, hv⟩)

theorem forall_items_parts_subset {ps items : List Value} (h : (array items).parts ⊆ ps) :
    ∀ item ∈ items, item.parts ⊆ ps :=
  fun _ hitem => List.Subset.trans (parts_subset_array hitem) h

theorem forall_entries_parts_subset {ps : List Value} {entries : List (Utf16 × Value)}
    (h : (map entries).parts ⊆ ps) : ∀ e ∈ entries, e.2.parts ⊆ ps :=
  fun _ he => List.Subset.trans (parts_subset_map he) h

/-! ## The sides of a comparison -/

variable {s s' : Side} {vs : List Value} {es : List (Utf16 × Value)}

theorem entriesOn_eq (s : Side) (es : List (Utf16 × Value)) :
    entriesOn s es = es.map fun e => (e.1, sameOn s e.2) := by
  induction es with
  | nil => rfl
  | cons e rest ih => rw [entriesOn, ih, List.map_cons]

theorem sameOn_left_map (es fs : List (Utf16 × Value)) :
    sameOn .left (map es) (map fs) = (es.length == fs.length &&
      eachTakes (fun e f => f.1 == e.1 && sameOn .right e.2 f.2) es fs) := by
  have hmap := eachTakes_map_left
    (fun (e : Utf16 × (Value → Bool)) (f : Utf16 × Value) => f.1 == e.1 && e.2 f.2)
    (fun e => (e.1, sameOn .right e.2)) es fs
  rw [← entriesOn_eq] at hmap
  exact congrArg (es.length == fs.length && ·) hmap

theorem sameOn_right_map (es fs : List (Utf16 × Value)) :
    sameOn .right (map fs) (map es) = (es.length == fs.length &&
      eachTakes (fun e f => f.1 == e.1 && sameOn .left f.2 e.2) es fs) := by
  have hmap := eachTakes_map_right
    (fun (e : Utf16 × Value) (f : Utf16 × (Value → Bool)) => f.1 == e.1 && f.2 e.2)
    (fun f => (f.1, sameOn .left f.2)) es fs
  rw [← entriesOn_eq] at hmap
  exact congrArg (es.length == fs.length && ·) hmap

theorem sameItemsOn_swap (h : ∀ v ∈ vs, ∀ w, sameOn s v w = sameOn s' w v) (ws : List Value) :
    sameItemsOn s vs ws = sameItemsOn s' ws vs := by
  induction vs generalizing ws with
  | nil => cases ws <;> rfl
  | cons v vs ih =>
    obtain ⟨hv, hvs⟩ := List.forall_mem_cons.1 h
    cases ws with
    | nil => rfl
    | cons w ws => exact congrArg₂ and (hv w) (ih hvs ws)

/-- **The side of the recursion does not matter**, by induction on the value that it is on. In a map
the entries change sides, so both sides are gone through at once. -/
theorem sameOn_swap (v : Value) : (∀ w, sameOn .left v w = sameOn .right w v) ∧
    ∀ w, sameOn .right v w = sameOn .left w v := by
  induction v using inductionOn with
  | array vs ih =>
    refine ⟨fun w => ?_, fun w => ?_⟩
    · cases w with
      | array ws => exact sameItemsOn_swap (fun v hv => (ih v hv).1) ws
      | _ => rfl
    · cases w with
      | array ws => exact sameItemsOn_swap (fun v hv => (ih v hv).2) ws
      | _ => rfl
  | map es ih =>
    refine ⟨fun w => ?_, fun w => ?_⟩
    · cases w with
      | map fs =>
        rw [sameOn_left_map, sameOn_right_map]
        exact congrArg _ (eachTakes_congr fun e he f _ => by rw [(ih e he).2])
      | _ => rfl
    · cases w with
      | map fs =>
        rw [sameOn_left_map, sameOn_right_map]
        exact congrArg _ (eachTakes_congr fun f _ e he => by rw [(ih e he).1])
      | _ => rfl
  | _ => exact ⟨fun w => by cases w <;> rfl, fun w => by cases w <;> rfl⟩

/-! ## Kinds of values -/

theorem same_null_left {v : Value} (h : v.isNullish = false) : same .null v = false := by
  cases v with
  | undefined | null => cases h
  | _ => rfl

theorem same_null_right {v : Value} (h : v.isNullish = false) : same v .null = false := by
  cases v with
  | undefined | null => cases h
  | _ => rfl

theorem same_bool (x y : Bool) : (bool x).same (.bool y) = (x == y) := rfl

theorem same_int (i j : Int64) : (int i).same (.int j) = (i == j) := rfl

theorem same_string (s t : Utf16) : (string s).same (.string t) = (s == t) := rfl

theorem same_symbol (s t : Symbol) : (symbol s).same (.symbol t) = (s == t) := rfl

theorem same_wrapper (a b : ObjectId) : (wrapper a).same (.wrapper b) = (a == b) := rfl

theorem same_function (a b : ObjectId) : (function a).same (.function b) = (a == b) := rfl

theorem same_array_iff {vs ws : List Value} : (array vs).same (.array ws) ↔
    List.Forall₂ (fun v w => v.same w = true) vs ws := by
  change sameItemsOn .left vs ws ↔ _
  induction vs generalizing ws with
  | nil =>
    cases ws with
    | nil => exact iff_of_true rfl .nil
    | cons w ws => exact iff_of_false (fun h => by cases h) fun h => by cases h
  | cons v vs ih =>
    cases ws with
    | nil => exact iff_of_false (fun h => by cases h) fun h => by cases h
    | cons w ws =>
      change (v.same w && sameItemsOn .left vs ws) = true ↔ _
      rw [Bool.and_eq_true, ih, List.forall₂_cons]

/-- **Maps are compared greedily**: every entry of the left map takes the first entry of the right
one that has its name and a value equal to its own. -/
theorem same_map_eq (es fs : List (Utf16 × Value)) : (map es).same (.map fs) =
    (es.length == fs.length && eachTakes (fun e f => f.1 == e.1 && f.2.same e.2) es fs) := by
  rw [same, sameOn_left_map]
  exact congrArg _ (eachTakes_congr fun e _ f _ => by rw [(sameOn_swap e.2).2, same])

end ScriptBridge.Script.Value
