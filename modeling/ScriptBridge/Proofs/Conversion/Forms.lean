import ScriptBridge.Proofs.Conversion.Keys
import ScriptBridge.Proofs.Number.Literals

/-! # The form of a key

Which names have the form of a key type, told without reading them: `DeclaredType.HasKey`. A name is
read as a key of the type exactly if it has that form, `DeclaredType.exists_readKey?_iff`. A type of
keys is one of a few kinds, and no name has the form of any other type.
-/

namespace ScriptBridge.DeclaredType
set_option autoImplicit false

variable {name : Utf16}

/-- The name is the canonical text of the integer. -/
def IsIntegerName (name : Utf16) (i : Int64) : Prop :=
  .ofString (toString i.toInt) = name

/-- The name is the text of a decimal literal, whose nearest double is finite. -/
def IsNumberName (name : Utf16) : Prop :=
  ∃ text l, .ofString text = name ∧ Number.Spells text.toList l ∧ l.round.isFinite

mutual

/-- The name has the form of a key of the type. -/
def HasKey (name : Utf16) : DeclaredType → Prop
  | any | u16string => True
  | string => ∃ text, .ofString text = name
  | integer => ∃ i, IsIntegerName name i
  | bounded _ min max => ∃ i, IsIntegerName name i ∧ min ≤ i ∧ i ≤ max
  | number => IsNumberName name
  | bool => .ofString "true" = name ∨ .ofString "false" = name
  | optional inner => HasKey name inner
  | variant alternatives => HasSomeKey name alternatives
  | _ => False

def HasSomeKey (name : Utf16) : List DeclaredType → Prop
  | [] => False
  | t :: rest => HasKey name t ∨ HasSomeKey name rest

end

/-! ## Reading -/

theorem isNumberName_iff : IsNumberName name ↔
    ∃ x, (name.toString?.bind Number.readBinary64?).filter Binary64.isFinite = some x := by
  simp only [Option.filter_eq_some_iff, Option.bind_eq_some_iff, Number.readBinary64?,
    Option.map_eq_some_iff, Number.readLiteral?_eq_some_iff, Utf16.toString?_eq_some_iff]
  constructor
  · rintro ⟨text, l, hname, hspells, hfinite⟩
    exact ⟨l.round, ⟨text, hname, l, hspells, rfl⟩, hfinite⟩
  · rintro ⟨x, ⟨text, hname, l, hspells, rfl⟩, hfinite⟩
    exact ⟨text, l, hname, hspells, hfinite⟩

mutual

/-- **A name is read as a key exactly if it has the form of one.** -/
theorem exists_readKey?_iff : ∀ t : DeclaredType, (∃ k, t.readKey? name = some k) ↔ t.HasKey name
  | .any | .u16string => by simp [readKey?, HasKey]
  | .string => by simp [readKey?, HasKey, Option.map_eq_some_iff, Utf16.toString?_eq_some_iff]
  | .integer => by
    simp [readKey?, HasKey, Option.map_eq_some_iff, integerKey?_eq_some_iff, IsIntegerName]
  | .bounded _ min max => by
    simp [readKey?, HasKey, Option.map_eq_some_iff, Option.filter_eq_some_iff,
      integerKey?_eq_some_iff, IsIntegerName]
  | .number => by
    rw [HasKey, isNumberName_iff]
    simp [readKey?, Option.map_eq_some_iff]
  | .bool => by
    unfold readKey? HasKey
    simp only [Utf16.toString?_eq_some_iff]
    split
    · simp_all
    · split <;> simp_all
  | .optional inner => exists_readKey?_iff inner
  | .variant alternatives => exists_readKeyAs?_iff 0 alternatives
  | .null | .symbol | .tuple _ | .list _ | .map _ _ | .set _ | .object _ | .function => by
    simp [readKey?, HasKey]

theorem exists_readKeyAs?_iff (index : Nat) : ∀ alternatives : List DeclaredType,
    (∃ k, readKeyAs? name index alternatives = some k) ↔ HasSomeKey name alternatives
  | [] => by simp [readKeyAs?, HasSomeKey]
  | t :: rest => by
    have ht := exists_readKey?_iff t
    have hrest := exists_readKeyAs?_iff (index + 1) rest
    unfold readKeyAs? HasSomeKey
    rw [← ht, ← hrest]
    cases t.readKey? name with
    | some k => simp
    | none => simp

end

end ScriptBridge.DeclaredType
