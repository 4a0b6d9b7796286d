import Mathlib.Data.List.Basic
import Mathlib.Data.List.TakeWhile
import ScriptBridge.Number.Reader

/-! # The grammar of decimal literals

Which texts are literals, and which literals they are, with no word about how they are read. The
reader accepts these texts and no others: `readLiteral?_eq_some_iff`.

* `SpellsSign`, `SpellsDigits` and `SpellsExponent` are the three parts of a literal, and `Spells`
  puts them together.
* A part ends where the next one begins, since no part begins with what the one before it is made
  of: `readSign_append`, `takeWhile_isDigit` and `dropWhile_isDigit`.
-/

namespace ScriptBridge.Number
set_option autoImplicit false

variable {sign digits text rest whole fraction : List Char} {negative : Bool} {exponent : Int}
  {l : Literal}

/-! ## Parts of a literal -/

def IsDigits (cs : List Char) : Prop := ∀ c ∈ cs, c.isDigit = true

inductive SpellsSign : List Char → Bool → Prop
  | none : SpellsSign [] false
  | plus : SpellsSign ['+'] false
  | minus : SpellsSign ['-'] true

/-- Digits before and behind a point, some on one side of it at least. The point may be missing where
no digit stands behind it. -/
inductive SpellsDigits : List Char → List Char → List Char → Prop
  | whole {whole : List Char} : IsDigits whole → whole ≠ [] → SpellsDigits whole whole []
  | point {whole fraction : List Char} : IsDigits whole → IsDigits fraction →
      whole ++ fraction ≠ [] → SpellsDigits (whole ++ '.' :: fraction) whole fraction

/-- The integer of a sign and digits. -/
def signedInt (negative : Bool) (digits : List Char) : Int :=
  if negative then -(Nat.ofDigitChars 10 digits 0 : Int) else Nat.ofDigitChars 10 digits 0

inductive SpellsExponent : List Char → Int → Prop
  | none : SpellsExponent [] 0
  | some {c : Char} {sign digits : List Char} {negative : Bool} : c = 'e' ∨ c = 'E' →
      SpellsSign sign negative → IsDigits digits → digits ≠ [] →
      SpellsExponent (c :: (sign ++ digits)) (signedInt negative digits)

/-- A sign, digits and an exponent. -/
inductive Spells : List Char → Literal → Prop
  | intro {sign digits whole fraction mark : List Char} {negative : Bool} {exponent : Int} :
      SpellsSign sign negative → SpellsDigits digits whole fraction →
      SpellsExponent mark exponent →
      Spells (sign ++ (digits ++ mark)) ⟨negative, whole ++ fraction, exponent - fraction.length⟩

/-! ## Where a part ends -/

theorem all_isDigit_iff : digits.all Char.isDigit ↔ IsDigits digits := List.all_eq_true

theorem takeWhile_isDigit (h : IsDigits digits) (hrest : ∀ c ∈ rest.head?, c.isDigit = false) :
    (digits ++ rest).takeWhile Char.isDigit = digits := by
  rw [List.takeWhile_append_of_pos h]
  cases rest with
  | nil => simp
  | cons c rest => simp [hrest c rfl]

theorem dropWhile_isDigit (h : IsDigits digits) (hrest : ∀ c ∈ rest.head?, c.isDigit = false) :
    (digits ++ rest).dropWhile Char.isDigit = rest := by
  rw [List.dropWhile_append_of_pos h]
  cases rest with
  | nil => rfl
  | cons c rest => simp [hrest c rfl]

theorem isDigits_takeWhile (text : List Char) : IsDigits (text.takeWhile Char.isDigit) :=
  fun _ hc => List.mem_takeWhile_imp hc

theorem readSign_append (hsign : SpellsSign sign negative)
    (hrest : ∀ c ∈ rest.head?, c ≠ '-' ∧ c ≠ '+') : readSign (sign ++ rest) = (negative, rest) := by
  cases hsign with
  | plus | minus => rfl
  | none =>
    cases rest with
    | nil => rfl
    | cons c rest =>
      obtain ⟨hminus, hplus⟩ := hrest c rfl
      simp [readSign, hminus, hplus]

theorem spellsSign_readSign (text : List Char) :
    ∃ sign, SpellsSign sign (readSign text).1 ∧ sign ++ (readSign text).2 = text := by
  unfold readSign
  split
  · exact ⟨_, .minus, rfl⟩
  · exact ⟨_, .plus, rfl⟩
  · exact ⟨_, .none, rfl⟩

/-- A digit is no sign. -/
theorem ne_sign_of_isDigit {c : Char} (h : c.isDigit) : c ≠ '-' ∧ c ≠ '+' := by
  constructor <;> rintro rfl <;> cases h

/-! ## Exponents -/

theorem readExponent?_eq_some_iff :
    readExponent? text = some exponent ↔ SpellsExponent text exponent := by
  constructor
  · intro h
    unfold readExponent? at h
    split at h
    · obtain rfl := Option.some.inj h
      exact .none
    next c rest =>
      split at h
      next hmark =>
        obtain ⟨sign, hsign, htext⟩ := spellsSign_readSign rest
        rw [← htext]
        dsimp only at h
        split at h
        · cases h
        next hdigits =>
          obtain rfl := Option.some.inj h
          simp only [Bool.or_eq_true, List.isEmpty_iff, Bool.not_eq_true', Bool.not_eq_false,
            not_or] at hdigits
          exact .some hmark hsign (all_isDigit_iff.1 hdigits.2) hdigits.1
      · cases h
  · rintro (_ | ⟨hmark, hsign, hdigits, hne⟩)
    · rfl
    next c sign digits negative =>
      have hrest : ∀ c ∈ digits.head?, c ≠ '-' ∧ c ≠ '+' := fun c hc =>
        ne_sign_of_isDigit (hdigits c (List.mem_of_mem_head? hc))
      have hall : digits.all Char.isDigit = true := all_isDigit_iff.2 hdigits
      simp [readExponent?, hmark, readSign_append hsign hrest, hne, hall, signedInt]

/-- An exponent begins with neither a digit nor a point. -/
theorem SpellsExponent.head (h : SpellsExponent text exponent) :
    ∀ c ∈ text.head?, c.isDigit = false ∧ c ≠ '.' := by
  cases h with
  | none => exact fun _ hc => nomatch hc
  | some hmark =>
    rintro c hc
    obtain rfl := Option.some.inj hc
    rcases hmark with rfl | rfl <;> exact ⟨rfl, by decide⟩

/-! ## Digits and a point -/

/-- The digits before and behind a point, and what follows them. -/
def splitDigits (text : List Char) : List Char × List Char × List Char :=
  let rest := text.dropWhile Char.isDigit
  let (fraction, rest) := match rest with
    | '.' :: rest => (rest.takeWhile Char.isDigit, rest.dropWhile Char.isDigit)
    | _ => ([], rest)
  (text.takeWhile Char.isDigit, fraction, rest)

theorem readLiteral?_eq (text : List Char) : readLiteral? text = (do
    let (negative, rest) := readSign text
    let (whole, fraction, rest) := splitDigits rest
    if whole.isEmpty && fraction.isEmpty then none
    let exponent ← readExponent? rest
    some ⟨negative, whole ++ fraction, exponent - fraction.length⟩) := rfl

theorem splitDigits_append (h : SpellsDigits digits whole fraction)
    (hrest : ∀ c ∈ rest.head?, c.isDigit = false ∧ c ≠ '.') :
    splitDigits (digits ++ rest) = (whole, fraction, rest) := by
  have hend : ∀ c ∈ rest.head?, c.isDigit = false := fun c hc => (hrest c hc).1
  unfold splitDigits
  cases h with
  | whole hwhole =>
    rw [dropWhile_isDigit hwhole hend, takeWhile_isDigit hwhole hend]
    dsimp only
    split
    · exact absurd rfl (hrest '.' rfl).2
    · rfl
  | point hwhole hfraction =>
    have hpoint : ∀ c ∈ ('.' :: (fraction ++ rest)).head?, c.isDigit = false := by
      rintro c hc
      obtain rfl := Option.some.inj hc
      rfl
    rw [List.append_assoc, List.cons_append, dropWhile_isDigit hwhole hpoint,
      takeWhile_isDigit hwhole hpoint]
    change (whole, (fraction ++ rest).takeWhile Char.isDigit,
      (fraction ++ rest).dropWhile Char.isDigit) = _
    rw [dropWhile_isDigit hfraction hend, takeWhile_isDigit hfraction hend]

theorem spellsDigits_of_splitDigits (h : splitDigits text = (whole, fraction, rest))
    (hne : whole ++ fraction ≠ []) :
    ∃ digits, SpellsDigits digits whole fraction ∧ digits ++ rest = text := by
  have hsplit := text.takeWhile_append_dropWhile (p := Char.isDigit)
  unfold splitDigits at h
  dsimp only at h
  split at h
  next rest' hdrop =>
    cases h
    refine ⟨_, .point (isDigits_takeWhile _) (isDigits_takeWhile _) hne, ?_⟩
    rw [List.append_assoc, List.cons_append, List.takeWhile_append_dropWhile, ← hdrop, hsplit]
  · cases h
    rw [List.append_nil] at hne
    exact ⟨_, .whole (isDigits_takeWhile _) hne, hsplit⟩

/-- Neither digits nor a point before them are a sign. -/
theorem SpellsDigits.head (h : SpellsDigits digits whole fraction) (rest : List Char) :
    ∀ c ∈ (digits ++ rest).head?, c ≠ '-' ∧ c ≠ '+' := by
  intro c hc
  cases h with
  | whole hwhole hne =>
    rw [List.head?_append_of_ne_nil _ hne] at hc
    exact ne_sign_of_isDigit (hwhole c (List.mem_of_mem_head? hc))
  | point hwhole =>
    cases whole with
    | nil =>
      obtain rfl := Option.some.inj hc
      decide
    | cons c' whole =>
      obtain rfl := Option.some.inj hc
      exact ne_sign_of_isDigit (hwhole c' List.mem_cons_self)

theorem SpellsDigits.ne_nil (h : SpellsDigits digits whole fraction) : whole ++ fraction ≠ [] := by
  cases h with
  | whole _ hne => rwa [List.append_nil]
  | point _ _ hne => exact hne

/-! ## Literals -/

/-- **The reader reads the literals, and nothing else.** -/
theorem readLiteral?_eq_some_iff : readLiteral? text = some l ↔ Spells text l := by
  rw [readLiteral?_eq]
  constructor
  · intro h
    obtain ⟨sign, hsign, htext⟩ := spellsSign_readSign text
    rcases hread : readSign text with ⟨negative, rest⟩
    rcases hsplit : splitDigits rest with ⟨whole, fraction, mark⟩
    rw [hread] at h hsign htext
    simp only [hsplit] at h
    split at h
    · cases h
    next hne =>
      rw [Bool.and_eq_true, List.isEmpty_iff, List.isEmpty_iff, ← List.append_eq_nil_iff] at hne
      obtain ⟨exponent, hexponent, heq⟩ := Option.bind_eq_some_iff.1 h
      obtain rfl := Option.some.inj heq
      obtain ⟨digits, hdigits, hrest⟩ := spellsDigits_of_splitDigits hsplit hne
      rw [← htext, ← hrest]
      exact .intro hsign hdigits (readExponent?_eq_some_iff.1 hexponent)
  · rintro ⟨hsign, hdigits, hexponent⟩
    next sign digits whole fraction mark negative exponent =>
      rw [readSign_append hsign (hdigits.head mark)]
      simp only [splitDigits_append hdigits hexponent.head]
      rw [if_neg, readExponent?_eq_some_iff.2 hexponent]
      · rfl
      · rw [Bool.and_eq_true, List.isEmpty_iff, List.isEmpty_iff, ← List.append_eq_nil_iff]
        exact hdigits.ne_nil

end ScriptBridge.Number
