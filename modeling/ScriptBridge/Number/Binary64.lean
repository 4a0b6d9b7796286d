/-! # Double-precision numbers

A `Binary64` is its 64 bits: sign, eleven bits of exponent, fifty-two of fraction. A finite one is
`± significand · 2 ^ exponent` with both read off exactly, so that every operation below is integer
arithmetic.

* `Binary64.equal` is numeric equality: the two zeros are equal and a NaN equals nothing.
* `Binary64.ofRatio` rounds a positive ratio to the nearest number, a tie to the even significand;
  `ofInt` and `toSingle` are instances of the same rounding.
* `Binary64.toInt?` is the integer a number holds, if it holds one.
-/

namespace ScriptBridge
set_option autoImplicit false

structure Binary64 where
  bits : UInt64
deriving DecidableEq, Repr, Inhabited

/-- A binary format: the bits of a full significand and the exponents a finite number may have. -/
structure BinaryFormat where
  precision : Nat
  minExponent : Int
  maxExponent : Int

namespace BinaryFormat

def double : BinaryFormat := ⟨53, -1074, 971⟩

def single : BinaryFormat := ⟨24, -149, 104⟩

end BinaryFormat

namespace Binary64

/-! ## Fields -/

def isNegative (x : Binary64) : Bool := Nat.pow 2 63 ≤ x.bits.toNat

def exponentField (x : Binary64) : Nat := x.bits.toNat / Nat.pow 2 52 % Nat.pow 2 11

def fractionField (x : Binary64) : Nat := x.bits.toNat % Nat.pow 2 52

def isNaN (x : Binary64) : Bool := x.exponentField == 2047 && x.fractionField != 0

def isInfinite (x : Binary64) : Bool := x.exponentField == 2047 && x.fractionField == 0

def isFinite (x : Binary64) : Bool := x.exponentField != 2047

def isZero (x : Binary64) : Bool := x.exponentField == 0 && x.fractionField == 0

/-- Below the least normal number the leading bit of the significand is missing. -/
def significand (x : Binary64) : Nat :=
  if x.exponentField = 0 then x.fractionField else Nat.pow 2 52 + x.fractionField

def exponent (x : Binary64) : Int :=
  if x.exponentField = 0 then -1074 else (x.exponentField : Int) - 1075

/-! ## Building -/

def ofFields (negative : Bool) (exponentField fractionField : Nat) : Binary64 :=
  let sign := if negative then Nat.pow 2 63 else 0
  ⟨UInt64.ofNat (sign + exponentField * Nat.pow 2 52 + fractionField)⟩

def infinity (negative : Bool) : Binary64 := ofFields negative 2047 0

def zero (negative : Bool) : Binary64 := ofFields negative 0 0

/-- The number `± significand · 2 ^ exponent`, for a significand below `2 ^ 53` that has its leading
bit set unless the exponent is the least. -/
def ofParts (negative : Bool) (significand : Nat) (exponent : Int) : Binary64 :=
  if significand < Nat.pow 2 52 then ofFields negative 0 significand
  else ofFields negative (exponent + 1075).toNat (significand - Nat.pow 2 52)

/-! ## Rounding -/

/-- The integer nearest to `num / den`, the even one of two that are equally near. -/
def roundHalfEven (num den : Nat) : Nat :=
  let q := num / den
  let twice := 2 * (num % den)
  if twice < den then q
  else if den < twice then q + 1
  else q + q % 2

/-- The exponent at which `num / den` has a full significand in `format`, or the least exponent. -/
def ratioExponent (format : BinaryFormat) (num den : Nat) : Int :=
  let guess : Int := (num.log2 : Int) - den.log2 - format.precision
  -- The ratio lies between `2 ^ (guess + precision - 1)` and `2 ^ (guess + precision + 1)`.
  let reached : Bool :=
    let high := guess + format.precision
    if 0 ≤ high then den * Nat.pow 2 high.toNat ≤ num else den ≤ num * Nat.pow 2 (-high).toNat
  max format.minExponent (if reached then guess + 1 else guess)

/-- The number of `format` nearest to `± num / den`, ties to the even significand; past the greatest
finite one it is infinite. -/
def ofRatio (format : BinaryFormat) (negative : Bool) (num den : Nat) : Binary64 :=
  if num = 0 then zero negative
  else
    let e := ratioExponent format num den
    let m := if 0 ≤ e then roundHalfEven num (den * Nat.pow 2 e.toNat)
      else roundHalfEven (num * Nat.pow 2 (-e).toNat) den
    -- Rounding up may carry into one more bit.
    let (m, e) := if m = Nat.pow 2 format.precision then (m / 2, e + 1) else (m, e)
    if format.maxExponent < e then infinity negative
    else
      -- Widen a shorter significand to the full one of a double.
      let shift := min (52 - m.log2) (e + 1074).toNat
      ofParts negative (m * Nat.pow 2 shift) (e - shift)

/-- The double nearest to an integer. -/
def ofInt (i : Int) : Binary64 := ofRatio .double (i < 0) i.natAbs 1

/-- The nearest single-precision number, as a double. -/
def toSingle (x : Binary64) : Binary64 :=
  if x.isFinite then
    let m := x.significand
    if 0 ≤ x.exponent then ofRatio .single x.isNegative (m * Nat.pow 2 x.exponent.toNat) 1
    else ofRatio .single x.isNegative m (Nat.pow 2 (-x.exponent).toNat)
  else x

/-! ## Comparing and reading -/

def equal (x y : Binary64) : Bool :=
  !x.isNaN && !y.isNaN && (x.bits == y.bits || (x.isZero && y.isZero))

/-- The integer that a finite integral number is. -/
def toInt? (x : Binary64) : Option Int :=
  let signed (n : Nat) : Int := if x.isNegative then -n else n
  if !x.isFinite then none
  else if 0 ≤ x.exponent then some (signed (x.significand * Nat.pow 2 x.exponent.toNat))
  else
    let unit := Nat.pow 2 (-x.exponent).toNat
    if x.significand % unit = 0 then some (signed (x.significand / unit)) else none

end Binary64
end ScriptBridge
