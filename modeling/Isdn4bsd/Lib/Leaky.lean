import Mathlib.Order.Monotone.Basic
import Mathlib.Algebra.Order.Ring.Int
import Mathlib.Tactic.Ring

/-!
# A leaky accumulator

One part in `d` of a value leaks out, cut towards zero, and an input is added.  The value follows the sum of
the inputs, but it cannot run away.

* `leak_mono` : a larger value leaves more.
* `step_mem` : **one step** keeps `d` times the bounds of the input.
* `step_fixed` : **the bounds are exact**: where they are reached, the input that is at its bound keeps them.

With a division that is cut towards zero the function is not linear, and what leaks out of a value close to zero
is nothing at all.  But it still is monotone: of two values that are one apart the quotients are at most one
apart.  So the extreme values are at the ends of the range, where the division is exact.
-/

set_option autoImplicit false

namespace Isdn4bsd
namespace Leaky

variable {d a b lo hi x : ℤ}

/-- What is left of a value. -/
def leak (d a : ℤ) : ℤ := a - a.tdiv d

/-- A value, one input later. -/
def step (d a x : ℤ) : ℤ := leak d a + x

/-- Of two values that are one apart, the quotients are at most one apart. -/
theorem tdiv_succ_le (hd : 0 < d) (a : ℤ) : (a + 1).tdiv d ≤ a.tdiv d + 1 := by
  have ha := Int.mul_tdiv_add_tmod a d
  have hb := Int.mul_tdiv_add_tmod (a + 1) d
  have hlt := Int.tmod_lt_of_pos a hd
  have hgt := Int.lt_tmod_of_pos (a + 1) hd
  by_contra hcon
  have htwo : a.tdiv d + 2 ≤ (a + 1).tdiv d := by omega
  have hmul := Int.mul_le_mul_of_nonneg_left htwo hd.le
  rw [Int.mul_add] at hmul
  omega

/-- **A larger value leaves more.** -/
theorem leak_mono (hd : 0 < d) (h : a ≤ b) : leak d a ≤ leak d b := by
  have hmono : Monotone (leak d) := by
    refine monotone_int_of_le_succ fun a => ?_
    have := tdiv_succ_le hd a
    rw [leak, leak]
    omega
  exact hmono h

theorem leak_mul (hd : 0 < d) (b : ℤ) : leak d (d * b) = d * b - b := by
  rw [leak, Int.mul_tdiv_cancel_left b hd.ne']

/-- **The bounds are exact.** -/
theorem step_fixed (hd : 0 < d) (b : ℤ) : step d (d * b) b = d * b := by
  rw [step, leak_mul hd]
  ring

/-- **One step.** -/
theorem step_mem (hd : 0 < d) (ha : d * lo ≤ a ∧ a ≤ d * hi) (hx : lo ≤ x ∧ x ≤ hi) :
    d * lo ≤ step d a x ∧ step d a x ≤ d * hi := by
  constructor
  · calc d * lo = leak d (d * lo) + lo := (step_fixed hd lo).symm
      _ ≤ step d a x := Int.add_le_add (leak_mono hd ha.1) hx.1
  · calc step d a x ≤ leak d (d * hi) + hi := Int.add_le_add (leak_mono hd ha.2) hx.2
      _ = d * hi := step_fixed hd hi

/-- What leaks out is within the bounds of the input. -/
theorem tdiv_mem (hd : 0 < d) (ha : d * lo ≤ a ∧ a ≤ d * hi) : lo ≤ a.tdiv d ∧ a.tdiv d ≤ hi := by
  have hlow := Int.tdiv_le_tdiv hd ha.1
  have hhigh := Int.tdiv_le_tdiv hd ha.2
  rw [Int.mul_tdiv_cancel_left _ hd.ne'] at hlow hhigh
  exact ⟨hlow, hhigh⟩

end Leaky
end Isdn4bsd
