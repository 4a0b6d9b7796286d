import Mathlib.Data.List.Basic
import ScriptBridge.Typed.Shape

/-! # Typed values in order

Comparing two typed values the other way round swaps the outcome. So a list that is in strict order
is left as it is when its elements are put in order one after another.
-/

namespace ScriptBridge
set_option autoImplicit false

variable {α : Type} {cmp : α → α → Ordering}

/-! ## Swapping -/

theorem ord_swap [Ord α] [Std.OrientedOrd α] (a b : α) :
    Ord.compare b a = (Ord.compare a b).swap :=
  Std.OrientedCmp.eq_swap

theorem Shape.compareLists_swap (h : ∀ a b, cmp b a = (cmp a b).swap) (as bs : List α) :
    compareLists cmp bs as = (compareLists cmp as bs).swap := by
  induction as generalizing bs with
  | nil => cases bs <;> rfl
  | cons a rest ih =>
    cases bs with
    | nil => rfl
    | cons b bs => rw [compareLists, compareLists, Ordering.swap_then, h a b, ih bs]

theorem Shape.compare_swap (s : Shape) (a b : s.Carrier) :
    s.compare b a = (s.compare a b).swap := by
  induction s with
  | int w => exact ord_swap a.val b.val
  | int64 | uint64 | bool | string => exact ord_swap _ _
  | option inner ih =>
    cases a <;> cases b
    · rfl
    · rfl
    · rfl
    · exact ih _ _
  | list element ih | set element ih => exact compareLists_swap ih a b
  | pair first second ih₁ ih₂ =>
    change (first.compare b.1 a.1).then _ = ((first.compare a.1 b.1).then _).swap
    rw [Ordering.swap_then, ih₁ a.1 b.1, ih₂ a.2 b.2]
  | triple first second third ih₁ ih₂ ih₃ =>
    change (first.compare b.1 a.1).then _ = ((first.compare a.1 b.1).then _).swap
    rw [Ordering.swap_then, Ordering.swap_then, ih₁ a.1 b.1, ih₂ a.2.1 b.2.1, ih₃ a.2.2 b.2.2]
  | map key value ihk ihv =>
    refine compareLists_swap (fun x y => ?_) a b
    rw [Ordering.swap_then, ihk x.1 y.1, ihv x.2 y.2]
  | _ => rfl

/-! ## Strict order -/

/-- Every element comes before all that follow it. -/
def StrictlyOrdered (cmp : α → α → Ordering) (as : List α) : Prop :=
  as.Pairwise fun a b => cmp a b = .lt

theorem insertOrdered_of_last {a : α} {as : List α} (h : ∀ b ∈ as, cmp a b = .gt) :
    insertOrdered cmp a as = as ++ [a] := by
  induction as with
  | nil => rfl
  | cons b rest ih =>
    have hrest := ih fun c hc => h c (List.mem_cons_of_mem b hc)
    simp [insertOrdered, h b List.mem_cons_self, hrest]

theorem orderDistinct_of_strictlyOrdered (hswap : ∀ a b, cmp b a = (cmp a b).swap) {as : List α}
    (h : StrictlyOrdered cmp as) : orderDistinct cmp as = as := by
  have hfold : ∀ (as done : List α), StrictlyOrdered cmp (done ++ as) →
      as.foldl (fun ordered a => insertOrdered cmp a ordered) done = done ++ as := by
    intro as
    induction as with
    | nil => simp
    | cons a rest ih =>
      intro done hordered
      have hlast : insertOrdered cmp a done = done ++ [a] := by
        refine insertOrdered_of_last fun b hb => ?_
        rw [hswap b a, (List.pairwise_append.1 hordered).2.2 b hb a List.mem_cons_self]
        rfl
      rw [List.foldl_cons, hlast]
      rw [List.append_cons done a rest] at hordered ⊢
      exact ih _ hordered
  exact hfold as [] h

theorem StrictlyOrdered.nodup (hswap : ∀ a b, cmp b a = (cmp a b).swap) {as : List α}
    (h : StrictlyOrdered cmp as) : as.Nodup := by
  refine h.imp fun {a b} hab heq => ?_
  have hself := hswap a a
  subst heq
  rw [hab] at hself
  cases hself

/-- Lists in strict order with the same elements are the same. -/
theorem StrictlyOrdered.eq_of_perm (hswap : ∀ a b, cmp b a = (cmp a b).swap) {as bs : List α}
    (ha : StrictlyOrdered cmp as) (hb : StrictlyOrdered cmp bs) (hperm : as.Perm bs) : as = bs := by
  refine hperm.eq_of_pairwise (fun a b _ _ hab hba => ?_) ha hb
  rw [hswap a b, hab] at hba
  cases hba

end ScriptBridge
