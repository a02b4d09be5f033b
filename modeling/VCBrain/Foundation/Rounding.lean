import Mathlib.Algebra.Order.Field.Basic
import Mathlib.Algebra.Order.Ring.Cast
import Mathlib.Data.Int.ConditionallyCompleteOrder
import Mathlib.Tactic.Linarith

set_option relaxedAutoImplicit false
set_option autoImplicit false

/-!
# Rounding to the nearest

What every rule that rounds a number to a nearest integer has in common, however it breaks ties:
it is monotone, it keeps the integers, and it separates numbers that are more than one apart.

## Main definitions

* `RoundsToNearest` — a rule that errs by at most one half.

## Main results

* `RoundsToNearest.mono` — such a rule is monotone.
* `RoundsToNearest.intCast` — such a rule keeps the integers.
-/

/-- The rule rounds every number to a nearest integer. -/
def RoundsToNearest {α : Type*} [Field α] [LinearOrder α] [IsStrictOrderedRing α] (n : α → ℤ) :
    Prop :=
  ∀ x, |(n x : α) - x| ≤ 1 / 2

namespace RoundsToNearest

variable {α : Type*} [Field α] [LinearOrder α] [IsStrictOrderedRing α] {n : α → ℤ}

lemma sub_half_le (h : RoundsToNearest n) (x : α) : x - 1 / 2 ≤ n x := by
  have herr := (abs_le.mp (h x)).1
  linarith

lemma le_add_half (h : RoundsToNearest n) (x : α) : (n x : α) ≤ x + 1 / 2 := by
  have herr := (abs_le.mp (h x)).2
  linarith

/-- Numbers more than one apart are rounded to different integers. -/
lemma lt_of_one_lt_sub (h : RoundsToNearest n) {x y : α} (hxy : 1 < y - x) : n x < n y := by
  have hx := h.le_add_half x
  have hy := h.sub_half_le y
  have hlt : (n x : α) < n y := by linarith
  exact_mod_cast hlt

/-- **Monotone.** Rounding to a nearest integer keeps the order.

**Proof sketch.** If the larger number were rounded lower, the two integers would be at least one
apart; the errors of one half allow this only if the numbers are equal. -/
theorem mono (h : RoundsToNearest n) : Monotone n := by
  intro x y hxy
  by_contra hlt
  have hstep : n y + 1 ≤ n x := not_le.mp hlt
  have hcast : (n y : α) + 1 ≤ n x := by exact_mod_cast hstep
  have hx := h.le_add_half x
  have hy := h.sub_half_le y
  obtain rfl : x = y := le_antisymm hxy (by linarith)
  exact hlt le_rfl

/-- An integer is kept. -/
theorem intCast (h : RoundsToNearest n) (k : ℤ) : n (k : α) = k := by
  have hlow := h.sub_half_le (k : α)
  have hhigh := h.le_add_half (k : α)
  have hlt : (k : α) < n k + 1 := by linarith
  have hgt : (n k : α) < k + 1 := by linarith
  have hle : k ≤ n k := Int.lt_add_one_iff.mp (by exact_mod_cast hlt)
  have hge : n k ≤ k := Int.lt_add_one_iff.mp (by exact_mod_cast hgt)
  exact le_antisymm hge hle

end RoundsToNearest
