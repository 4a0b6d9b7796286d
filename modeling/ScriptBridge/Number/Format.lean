import ScriptBridge.Number.Shortest

/-! # The text of a number

A number is written with its shortest decimal. `NumberFormat` holds the choices that are left: where
the positional notation ends, and whether an integral number keeps a fraction.

* `Binary64.display` is the plain text, positional throughout.
* `Binary64.diagnostic` is the text inside diagnostics: a point is always there, and very large and
  very small numbers carry an exponent.
-/

namespace ScriptBridge
set_option autoImplicit false

structure NumberFormat where
  /-- Positional notation is for decimals `0.d…d · 10 ^ k` with `k` between these two, ends
  included. -/
  positional : Option (Int × Int)
  /-- Digits after the point of an integral number. -/
  fractionDigits : Nat

namespace NumberFormat

def plain : NumberFormat := ⟨none, 0⟩

/-- From `0.0001` up to, but without, `10 ^ 16`. -/
def diagnostic : NumberFormat := ⟨some (-3, 16), 1⟩

end NumberFormat

namespace Decimal

def zeros (n : Nat) : List Char := List.replicate n '0'

/-- The digits around a decimal point that stands after the first `point` of them. -/
def positional (digits : List Char) (point : Int) (fractionDigits : Nat) : List Char :=
  let pad (fraction : List Char) : List Char :=
    let fraction := fraction ++ zeros (fractionDigits - fraction.length)
    if fraction.isEmpty then [] else '.' :: fraction
  if point ≤ 0 then '0' :: pad (zeros (-point).toNat ++ digits)
  else
    let p := point.toNat
    if digits.length ≤ p then digits ++ zeros (p - digits.length) ++ pad []
    else digits.take p ++ pad (digits.drop p)

/-- One digit before the point and an exponent behind. -/
def scientific (digits : List Char) (point : Int) : List Char :=
  let fraction := digits.drop 1
  digits.take 1 ++ (if fraction.isEmpty then [] else '.' :: fraction)
    ++ 'e' :: (toString (point - 1)).toList

end Decimal

namespace Binary64

def render (format : NumberFormat) (x : Binary64) : String :=
  if x.isNaN then "NaN"
  else
    let sign := if x.isNegative then "-" else ""
    if x.isInfinite then sign ++ "inf"
    else
      let d := x.shortest
      let digits := Nat.toDigits 10 d.digits
      let point := d.exponent + digits.length
      let inside := match format.positional with
        | none => true
        | some (low, high) => low ≤ point && point ≤ high
      let text :=
        if d.digits = 0 then Decimal.positional ['0'] 1 format.fractionDigits
        else if inside then Decimal.positional digits point format.fractionDigits
        else Decimal.scientific digits point
      sign ++ String.ofList text

def display (x : Binary64) : String := x.render .plain

def diagnostic (x : Binary64) : String := x.render .diagnostic

end Binary64
end ScriptBridge
