import ScriptBridge.Number.Binary64

/-! # The shortest decimal of a double

`Binary64.shortest` picks, among the decimals that read back as a given positive number, those with
the fewest digits, and of them the nearest to the number, the greater on a tie. For one, two, …
digits it tests the two neighbours of the number on the grid of decimals with so many digits; the
first grid with a neighbour that reads back wins.
-/

namespace ScriptBridge
set_option autoImplicit false

/-- The decimal `digits · 10 ^ exponent`. -/
structure Decimal where
  digits : Nat
  exponent : Int
deriving DecidableEq, Repr

namespace Decimal

def digitCount (n : Nat) : Nat := (Nat.toDigits 10 n).length

/-- The exponent `k` with `10 ^ (k - 1) ≤ num / den < 10 ^ k`. -/
def ratioMagnitude (num den : Nat) : Int :=
  if den ≤ num then digitCount (num / den)
  else
    let count := digitCount (den / num)
    if num * Nat.pow 10 (count - 1) = den then 2 - (count : Int) else 1 - (count : Int)

/-- Trailing zeros moved into the exponent. -/
def strip (fuel : Nat) (d : Decimal) : Decimal :=
  match fuel with
  | 0 => d
  | fuel + 1 =>
    if d.digits ≠ 0 ∧ d.digits % 10 = 0 then strip fuel ⟨d.digits / 10, d.exponent + 1⟩ else d

end Decimal

namespace Binary64

/-- The reals that round to a number, and the number itself, as numerators over one denominator. The
ends belong to the interval when the significand is even. -/
structure Interval where
  low : Nat
  value : Nat
  high : Nat
  den : Nat
  closed : Bool

/-- The rounding interval of a finite non-zero number, its sign left out. Below a power of two the
spacing is half of that above it. -/
def interval (x : Binary64) : Interval :=
  let m := x.significand
  let below := if x.fractionField = 0 ∧ 1 < x.exponentField then 1 else 2
  let e := x.exponent - 2
  let scale := Nat.pow 2 e.toNat
  { low := (4 * m - below) * scale
    value := 4 * m * scale
    high := (4 * m + 2) * scale
    den := Nat.pow 2 (-e).toNat
    closed := m % 2 = 0 }

/-- Whether `num / den` rounds to the number of the interval. -/
def Interval.holds (i : Interval) (num den : Nat) : Bool :=
  if i.closed then i.low * den ≤ num * i.den && num * i.den ≤ i.high * den
  else i.low * den < num * i.den && num * i.den < i.high * den

/-- The neighbour of the value that reads back, on the grid of step `10 ^ step`; the nearer one if
both do, the upper on a tie. -/
def Interval.onGrid (i : Interval) (step : Int) : Option Decimal :=
  let up := Nat.pow 10 step.toNat
  let down := Nat.pow 10 (-step).toNat
  let floor := i.value * down / (i.den * up)
  let reads (n : Nat) : Bool := i.holds (n * up) down
  -- Twice the distance from the lower neighbour, against the step.
  let upperNearer : Bool := i.den * up ≤ 2 * (i.value * down % (i.den * up))
  match reads floor, reads (floor + 1) with
  | true, true => some ⟨if upperNearer then floor + 1 else floor, step⟩
  | true, false => some ⟨floor, step⟩
  | false, true => some ⟨floor + 1, step⟩
  | false, false => none

/-- Seventeen digits tell any two doubles apart. -/
def maxDigits : Nat := 17

/-- The shortest decimal of a finite number, its sign left out. -/
def shortest (x : Binary64) : Decimal :=
  if x.isZero then ⟨0, 0⟩
  else
    let i := x.interval
    let magnitude := Decimal.ratioMagnitude i.value i.den
    let found := (List.range maxDigits).findSome? fun n => i.onGrid (magnitude - (n + 1 : Nat))
    (found.getD ⟨i.value / i.den, 0⟩).strip maxDigits

end Binary64
end ScriptBridge
