/-! # Text as UTF-16 code units

A `Utf16` is any sequence of 16-bit units, so it may hold surrogates that pair with nothing.

* `Utf16.ofString` encodes a text; it never leaves a surrogate unpaired.
* `Utf16.scan` reads the units from the left and answers, for every character or unpaired
  surrogate met, the character or `none`. The two decoders are readings of it.
* `Utf16.toString?` decodes strictly and `Utf16.lossy` puts U+FFFD for each unpaired surrogate.
-/

namespace ScriptBridge
set_option autoImplicit false

/-- A sequence of UTF-16 code units, well formed or not. -/
structure Utf16 where
  units : List UInt16
deriving DecidableEq, Repr, Inhabited

namespace Utf16

/-! ## Encoding -/

/-- One unit up to U+FFFF, a high and a low surrogate beyond. -/
def encodeChar (c : Char) : List UInt16 :=
  if c.toNat < 0x10000 then [UInt16.ofNat c.toNat]
  else
    let rest := c.toNat - 0x10000
    [UInt16.ofNat (0xd800 + rest / 0x400), UInt16.ofNat (0xdc00 + rest % 0x400)]

def ofString (text : String) : Utf16 := ⟨text.toList.flatMap encodeChar⟩

/-! ## Decoding -/

def isHigh (u : UInt16) : Bool := 0xd800 ≤ u.toNat && u.toNat < 0xdc00

def isLow (u : UInt16) : Bool := 0xdc00 ≤ u.toNat && u.toNat < 0xe000

def isSurrogate (u : UInt16) : Bool := isHigh u || isLow u

/-- The character a high and a low surrogate stand for together. -/
def pairChar (high low : UInt16) : Char :=
  Char.ofNat (0x10000 + (high.toNat - 0xd800) * 0x400 + (low.toNat - 0xdc00))

/-- What a unit that pairs with nothing stands for. -/
def single (u : UInt16) : Option Char :=
  if isSurrogate u then none else some (Char.ofNat u.toNat)

/-- The characters of a unit sequence, with `none` in the place of an unpaired surrogate. A high
surrogate that no low one follows stands alone, and the unit after it is read afresh. -/
def scan : List UInt16 → List (Option Char)
  | [] => []
  | [u] => [single u]
  | u :: v :: rest =>
    if isHigh u && isLow v then some (pairChar u v) :: scan rest else single u :: scan (v :: rest)

/-- Strict decoding, which refuses an unpaired surrogate. -/
def toString? (s : Utf16) : Option String := ((scan s.units).mapM id).map String.ofList

/-- The character that lossy decoding puts for an unpaired surrogate. -/
def replacement : Char := '\ufffd'

def lossy (s : Utf16) : String :=
  String.ofList ((scan s.units).map (·.getD replacement))

def isWellFormed (s : Utf16) : Bool := s.toString?.isSome

/-! ## Length and order -/

def length (s : Utf16) : Nat := s.units.length

def isEmpty (s : Utf16) : Bool := s.units.isEmpty

/-- Whether the units are those of `text`. -/
def spells (s : Utf16) (text : String) : Bool := s.units == (ofString text).units

/-- Lexicographic, by code unit. -/
def compareUnits : List UInt16 → List UInt16 → Ordering
  | [], [] => .eq
  | [], _ :: _ => .lt
  | _ :: _, [] => .gt
  | a :: as, b :: bs => (compare a.toNat b.toNat).then (compareUnits as bs)

instance : Ord Utf16 := ⟨fun a b => compareUnits a.units b.units⟩

end Utf16
end ScriptBridge
