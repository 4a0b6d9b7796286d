import ScriptBridge.Script.Value

/-! # Equality of script values

`Script.Value.same` compares numbers across their two representations, arrays in order and maps as
multisets of entries: each entry of the left map takes the first entry of the right one that is
equal to it and not yet taken. That entry is then on the left of the comparison, so that the values
change sides with every map on the way down. `Script.Value.sameOn` recurs on one value, on whichever
side it stands.
-/

namespace ScriptBridge.Script.Value
set_option autoImplicit false

/-- The list without its first element that passes a test, if there is one. -/
def removeFirst? {α : Type} (test : α → Bool) : List α → Option (List α)
  | [] => none
  | a :: rest => if test a then some rest else (removeFirst? test rest).map (a :: ·)

/-- Every item of the left list takes the first item of the right one that passes and is left. -/
def eachTakes {α β : Type} (test : α → β → Bool) : List α → List β → Bool
  | [], _ => true
  | a :: as, bs =>
    match removeFirst? (test a) bs with
    | some bs => eachTakes test as bs
    | none => false

/-- Equality of values that hold no others. -/
def sameScalar : Value → Value → Bool
  | undefined, undefined => true
  | null, null => true
  | bool a, bool b => a == b
  | int i, int j => i == j
  | float x, float y => x.equal y
  | int i, float y => (Binary64.ofInt i.toInt).equal y
  | float x, int j => (Binary64.ofInt j.toInt).equal x
  | string s, string t => s == t
  | symbol s, symbol t => s == t
  | wrapper a, wrapper b => a == b
  | function a, function b => a == b
  | _, _ => false

/-- Where a value stands in a comparison. -/
inductive Side where
  | left
  | right

mutual

/-- Equality of a value that stands on a side and another one on the other side. -/
def sameOn : Side → Value → Value → Bool
  | side, array as, array bs => sameItemsOn side as bs
  | .left, map as, map bs =>
    as.length == bs.length && eachTakes (fun a b => b.1 == a.1 && a.2 b.2) (entriesOn .right as) bs
  | .right, map bs, map as =>
    as.length == bs.length && eachTakes (fun a b => b.1 == a.1 && b.2 a.2) as (entriesOn .left bs)
  | .left, a, b => sameScalar a b
  | .right, b, a => sameScalar a b

def sameItemsOn : Side → List Value → List Value → Bool
  | _, [], [] => true
  | side, a :: as, b :: bs => sameOn side a b && sameItemsOn side as bs
  | _, _, _ => false

/-- The names, with the equality of each value that stands on a side. -/
def entriesOn : Side → List (Utf16 × Value) → List (Utf16 × (Value → Bool))
  | _, [] => []
  | side, (name, value) :: rest => (name, sameOn side value) :: entriesOn side rest

end

def same (a b : Value) : Bool := sameOn .left a b

instance : BEq Value := ⟨same⟩

end ScriptBridge.Script.Value
