import ScriptBridge.Number.Binary64

/-! # Numbers read from text

* `Number.readInt64?` accepts the canonical decimal text of a 64-bit integer and no other spelling
  of it.
* `Number.readBinary64?` accepts a decimal literal: an optional sign, digits with at most one point
  among or around them, and an optional exponent. It answers the nearest double.
-/

namespace ScriptBridge
set_option autoImplicit false

namespace Number

/-! ## Integers -/

/-- An optional minus sign and at least one digit. -/
def readInt? (text : List Char) : Option Int :=
  let digits := match text with
    | '-' :: rest => rest
    | _ => text
  if digits.isEmpty || !digits.all Char.isDigit then none
  else
    let n : Int := Nat.ofDigitChars 10 digits 0
    some (if text.head? = some '-' then -n else n)

def minInt64 : Int := Int64.minValue.toInt

def maxInt64 : Int := Int64.maxValue.toInt

/-- The 64-bit integer of a value in range. -/
def toInt64? (i : Int) : Option Int64 :=
  if minInt64 ≤ i ∧ i ≤ maxInt64 then some (Int64.ofInt i) else none

/-- The integer whose decimal text this is. -/
def readInt64? (text : String) : Option Int64 := do
  let i ← readInt? text.toList
  if toString i = text then toInt64? i else none

/-! ## Decimal literals -/

/-- A literal `± digits · 10 ^ exponent`. -/
structure Literal where
  negative : Bool
  digits : List Char
  exponent : Int

/-- A sign, if one stands there, and the rest. -/
def readSign : List Char → Bool × List Char
  | '-' :: rest => (true, rest)
  | '+' :: rest => (false, rest)
  | text => (false, text)

/-- Nothing, or a whole exponent part. -/
def readExponent? : List Char → Option Int
  | [] => some 0
  | c :: rest =>
    if c = 'e' ∨ c = 'E' then
      let (negative, digits) := readSign rest
      if digits.isEmpty || !digits.all Char.isDigit then none
      else
        let n : Int := Nat.ofDigitChars 10 digits 0
        some (if negative then -n else n)
    else none

def readLiteral? (text : List Char) : Option Literal := do
  let (negative, rest) := readSign text
  let whole := rest.takeWhile Char.isDigit
  let rest := rest.dropWhile Char.isDigit
  let (fraction, rest) := match rest with
    | '.' :: rest => (rest.takeWhile Char.isDigit, rest.dropWhile Char.isDigit)
    | _ => ([], rest)
  if whole.isEmpty && fraction.isEmpty then none
  let exponent ← readExponent? rest
  some ⟨negative, whole ++ fraction, exponent - fraction.length⟩

/-- Past these powers of ten a literal is infinite or zero, whatever its digits. -/
def maxMagnitude : Int := 400

def Literal.round (l : Literal) : Binary64 :=
  let n := Nat.ofDigitChars 10 l.digits 0
  let magnitude := l.exponent + (Nat.toDigits 10 n).length
  if n = 0 then .zero l.negative
  else if maxMagnitude < magnitude then .infinity l.negative
  else if magnitude < -maxMagnitude then .zero l.negative
  else .ofRatio .double l.negative (n * Nat.pow 10 l.exponent.toNat) (Nat.pow 10 (-l.exponent).toNat)

/-- The double nearest to a decimal literal. -/
def readBinary64? (text : String) : Option Binary64 := (readLiteral? text.toList).map Literal.round

end Number
end ScriptBridge
