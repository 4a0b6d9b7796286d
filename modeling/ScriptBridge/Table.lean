/-! # Finite tables

A `Table κ α` is a list of entries with distinct keys, in the order in which the keys were first
inserted.

* `Table.find?` is the view by which the other operations are told apart: `find?_insert`,
  `find?_erase` and `find?_adjust` say what each does to it.
* `Table.insert` replaces the value of a present key where it stands.
-/

namespace ScriptBridge
set_option autoImplicit false

universe u v

structure Table (κ : Type u) (α : Type v) where
  entries : List (κ × α) := []
  distinct : (entries.map Prod.fst).Nodup := by simp

namespace Table

variable {κ : Type u} {α : Type v}

def empty : Table κ α := {}

instance : Inhabited (Table κ α) := ⟨empty⟩

def keys (t : Table κ α) : List κ := t.entries.map Prod.fst

def values (t : Table κ α) : List α := t.entries.map Prod.snd

def size (t : Table κ α) : Nat := t.entries.length

def isEmpty (t : Table κ α) : Bool := t.entries.isEmpty

variable [DecidableEq κ]

/-- The value beside the first entry of key `k`. -/
def findIn (k : κ) : List (κ × α) → Option α
  | [] => none
  | (a, b) :: rest => if a = k then some b else findIn k rest

def find? (t : Table κ α) (k : κ) : Option α := findIn k t.entries

def contains (t : Table κ α) (k : κ) : Bool := (t.find? k).isSome

/-! ## Changing a table -/

/-- The value of `k` changed by `f`, if there is one. -/
def adjust (t : Table κ α) (k : κ) (f : α → α) : Table κ α where
  entries := t.entries.map fun e => if e.1 = k then (e.1, f e.2) else e
  distinct := by
    have h : ∀ e : κ × α, (if e.1 = k then (e.1, f e.2) else e).1 = e.1 := by
      intro e; split <;> rfl
    simpa [Function.comp_def, h] using t.distinct

theorem findIn_eq_none_iff (k : κ) (entries : List (κ × α)) :
    findIn k entries = none ↔ k ∉ entries.map Prod.fst := by
  induction entries with
  | nil => simp [findIn]
  | cons e rest ih =>
    by_cases h : e.1 = k
    · simp [findIn, h]
    · simp [findIn, h, ih, Ne.symm h]

theorem findIn_append (k : κ) (xs ys : List (κ × α)) :
    findIn k (xs ++ ys) = (findIn k xs).or (findIn k ys) := by
  induction xs with
  | nil => simp [findIn]
  | cons e rest ih => by_cases h : e.1 = k <;> simp [findIn, h, ih]

/-- The entry `k ↦ a`, in the place of an entry of that key or at the end. -/
def insert (t : Table κ α) (k : κ) (a : α) : Table κ α :=
  if h : t.find? k = none then
    { entries := t.entries ++ [(k, a)]
      distinct := by
        have fresh := (findIn_eq_none_iff k t.entries).1 h
        rw [List.map_append, List.nodup_append]
        refine ⟨t.distinct, by simp, fun a ha b hb => ?_⟩
        obtain rfl : b = k := by simpa using hb
        exact fun heq => fresh (heq ▸ ha) }
  else t.adjust k fun _ => a

def erase (t : Table κ α) (k : κ) : Table κ α where
  entries := t.entries.filter fun e => e.1 ≠ k
  distinct := by
    refine List.Nodup.sublist ?_ t.distinct
    exact List.filter_sublist.map Prod.fst

/-! ## What the operations do to the view -/

theorem find?_adjust (t : Table κ α) (k : κ) (f : α → α) (k' : κ) :
    (t.adjust k f).find? k' = if k' = k then (t.find? k').map f else t.find? k' := by
  simp only [find?, adjust]
  induction t.entries with
  | nil => simp [findIn]
  | cons e rest ih => by_cases hk : e.1 = k <;> by_cases hk' : e.1 = k' <;> grind [findIn]

theorem find?_insert (t : Table κ α) (k : κ) (a : α) (k' : κ) :
    (t.insert k a).find? k' = if k' = k then some a else t.find? k' := by
  unfold insert
  split
  next h =>
    simp only [find?, findIn_append]
    by_cases hk : k' = k
    · subst hk
      simp [show findIn k' t.entries = none from h, findIn]
    · simp [hk, findIn, Ne.symm hk]
  next h =>
    rw [find?_adjust]
    by_cases hk : k' = k
    · subst hk
      obtain ⟨b, hb⟩ := Option.ne_none_iff_exists'.1 h
      simp [hb]
    · simp [hk]

theorem find?_erase (t : Table κ α) (k k' : κ) :
    (t.erase k).find? k' = if k' = k then none else t.find? k' := by
  simp only [find?, erase]
  induction t.entries with
  | nil => simp [findIn]
  | cons e rest ih => by_cases hk : e.1 = k <;> by_cases hk' : e.1 = k' <;> grind [findIn]

end Table
end ScriptBridge
