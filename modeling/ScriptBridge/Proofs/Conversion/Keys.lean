import ScriptBridge.Conversion.Key
import ScriptBridge.Proofs.Number.Decimal
import ScriptBridge.Proofs.Text.Transcoding

/-! # Keys and their names

A key that was read from a name stands for that name again, unless it was read as a number: the text
of a number is one of many (`DeclaredType.readKey?_cases`). `DeclaredType.parts` are the types that a
type is built of, and `DeclaredType.rename?` is what becomes of a name.
-/

namespace ScriptBridge
set_option autoImplicit false

namespace DeclaredType

mutual

/-- The type and all that it is built of, key types included. -/
def parts : DeclaredType → List DeclaredType
  | tuple items => .tuple items :: partsOfItems items
  | variant alternatives => .variant alternatives :: partsOfItems alternatives
  | list element => .list element :: element.parts
  | map key value => .map key value :: (key.parts ++ value.parts)
  | set element => .set element :: element.parts
  | optional inner => .optional inner :: inner.parts
  | t => [t]

def partsOfItems : List DeclaredType → List DeclaredType
  | [] => []
  | t :: rest => t.parts ++ partsOfItems rest

end

theorem self_mem_parts (t : DeclaredType) : t ∈ t.parts := by
  cases t <;> exact List.mem_cons_self

theorem parts_subset_of_mem {t : DeclaredType} {types : List DeclaredType} (h : t ∈ types) :
    t.parts ⊆ partsOfItems types := by
  induction types with
  | nil => cases h
  | cons t' rest ih =>
    rw [partsOfItems]
    rcases List.mem_cons.1 h with rfl | h
    · exact List.subset_append_left _ _
    · exact List.Subset.trans (ih h) (List.subset_append_right _ _)

/-! ## Reading a name -/

theorem integerKey?_eq_some_iff {name : Utf16} {i : Int64} :
    integerKey? name = some i ↔ Utf16.ofString (toString i.toInt) = name := by
  constructor
  · intro h
    obtain ⟨text, htext, h⟩ := Option.bind_eq_some_iff.1 h
    rw [Number.readInt64?_eq_some_iff.1 h, Utf16.toString?_eq_some_iff.1 htext]
  · rintro rfl
    rw [integerKey?, Utf16.toString?_ofString]
    exact Number.readInt64?_eq_some_iff.2 rfl

mutual

/-- A key stands for the name it was read from, unless it was read as a number. -/
theorem readKey?_cases {name : Utf16} {k : Native.Value} : ∀ t : DeclaredType,
    t.readKey? name = some k → k.propertyName? = some name ∨
      (.number ∈ t.parts ∧ ∃ x : Binary64, x.isFinite ∧ k.inner = .number x)
  | .any, h | .u16string, h => by
    obtain rfl := Option.some.inj h
    exact .inl rfl
  | .string, h => by
    obtain ⟨text, htext, rfl⟩ := Option.map_eq_some_iff.1 h
    exact .inl (congrArg some (Utf16.toString?_eq_some_iff.1 htext))
  | .integer, h => by
    obtain ⟨i, hi, rfl⟩ := Option.map_eq_some_iff.1 h
    exact .inl (congrArg some (integerKey?_eq_some_iff.1 hi))
  | .bounded _ min max, h => by
    obtain ⟨i, hi, rfl⟩ := Option.map_eq_some_iff.1 h
    exact .inl (congrArg some (integerKey?_eq_some_iff.1 (Option.filter_eq_some_iff.1 hi).1))
  | .number, h => by
    obtain ⟨x, hx, rfl⟩ := Option.map_eq_some_iff.1 h
    exact .inr ⟨List.mem_singleton_self _, x, (Option.filter_eq_some_iff.1 hx).2, rfl⟩
  | .bool, h => by
    unfold readKey? at h
    split at h
    next htext =>
      obtain rfl := Option.some.inj h
      exact .inl (congrArg some (Utf16.toString?_eq_some_iff.1 htext))
    · split at h
      next htext =>
        obtain rfl := Option.some.inj h
        exact .inl (congrArg some (Utf16.toString?_eq_some_iff.1 htext))
      · cases h
  | .optional inner, h =>
    (readKey?_cases inner h).imp_right fun h => ⟨List.mem_cons_of_mem _ h.1, h.2⟩
  | .variant alternatives, h =>
    (readKeyAs?_cases alternatives h).imp_right fun h => ⟨List.mem_cons_of_mem _ h.1, h.2⟩
  | .null, h | .symbol, h | .tuple _, h | .list _, h | .map _ _, h | .set _, h | .object _, h
  | .function, h => by cases h

theorem readKeyAs?_cases {name : Utf16} {k : Native.Value} {index : Nat} :
    ∀ alternatives : List DeclaredType, readKeyAs? name index alternatives = some k →
      k.propertyName? = some name ∨
        (.number ∈ partsOfItems alternatives ∧ ∃ x : Binary64, x.isFinite ∧ k.inner = .number x)
  | [], h => by cases h
  | t :: rest, h => by
    unfold readKeyAs? at h
    split at h
    next k' hk =>
      obtain rfl := Option.some.inj h
      change k'.propertyName? = some name ∨ _ ∧ ∃ x : Binary64, x.isFinite ∧ k'.inner = .number x
      exact (readKey?_cases t hk).imp_right fun h => ⟨List.mem_append_left _ h.1, h.2⟩
    · exact (readKeyAs?_cases rest h).imp_right fun h => ⟨List.mem_append_right _ h.1, h.2⟩

end

/-! ## Names of keys -/

variable {name : Utf16} {k : Native.Value}

/-- A key is named by what it holds under its variants. -/
theorem propertyName?_inner : ∀ k : Native.Value, k.inner.propertyName? = k.propertyName?
  | .variant _ k => propertyName?_inner k
  | .undefined | .null | .bool _ | .integer _ | .number _ | .string _ | .u16string _ | .symbol _
  | .tuple _ | .list _ | .map _ | .set _ | .object _ | .function _ | .weakFunction _
  | .script _ => rfl

theorem propertyName?_of_inner_number {x : Binary64} (h : k.inner = .number x) :
    k.propertyName? = if x.isFinite then some (.ofString x.display) else none := by
  rw [← propertyName?_inner, h]
  rfl

/-- **A key stands for the name it was read from.** -/
theorem propertyName?_of_readKey? (t : DeclaredType) (hnumber : .number ∉ t.parts)
    (h : t.readKey? name = some k) : k.propertyName? = some name :=
  (readKey?_cases t h).resolve_right fun h => hnumber h.1

theorem exists_propertyName?_of_readKey? (t : DeclaredType) (h : t.readKey? name = some k) :
    ∃ name', k.propertyName? = some name' := by
  rcases readKey?_cases t h with hname | ⟨-, x, hx, hinner⟩
  · exact ⟨name, hname⟩
  · exact ⟨_, (propertyName?_of_inner_number hinner).trans (if_pos hx)⟩

/-- The name that stands for the key that a name was read as. -/
def rename? (key : DeclaredType) (name : Utf16) : Option Utf16 :=
  (key.readKey? name).bind Native.Value.propertyName?

/-- A name is read as a key that has a name as well. -/
theorem exists_rename? {key : DeclaredType} {name : Utf16} {k : Native.Value}
    (h : key.readKey? name = some k) :
    ∃ name', k.propertyName? = some name' ∧ key.rename? name = some name' := by
  obtain ⟨name', hname'⟩ := exists_propertyName?_of_readKey? key h
  exact ⟨name', hname', by rw [rename?, h, Option.bind_some, hname']⟩

/-- A name is kept as it is unless it is read as a number and is not how that number prints. -/
theorem rename?_eq_self_iff {key : DeclaredType} (h : key.readKey? name = some k) :
    key.rename? name = some name ↔ ∀ x, k.inner = .number x → name = .ofString x.display := by
  rw [rename?, h, Option.bind_some]
  constructor
  · intro hname x hx
    rw [propertyName?_of_inner_number hx] at hname
    split at hname
    · exact (Option.some.inj hname).symm
    · cases hname
  · intro hprinted
    rcases readKey?_cases key h with hname | ⟨-, x, hx, hinner⟩
    · exact hname
    · rw [propertyName?_of_inner_number hinner, if_pos hx, hprinted x hinner]

/-- Names that are not read as numbers are kept as they are. -/
theorem eq_of_rename? {key : DeclaredType} {name name' : Utf16} (hnumber : .number ∉ key.parts)
    (h : key.rename? name = some name') : name' = name := by
  obtain ⟨k, hk, hkname⟩ := Option.bind_eq_some_iff.1 h
  exact Option.some.inj (hkname.symm.trans (propertyName?_of_readKey? key hnumber hk))

end DeclaredType
end ScriptBridge
