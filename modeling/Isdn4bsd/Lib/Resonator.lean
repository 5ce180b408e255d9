import Mathlib.Algebra.Order.Field.Basic
import Mathlib.Algebra.BigOperators.Group.Finset.Basic
import Mathlib.Algebra.Order.BigOperators.Group.Finset
import Mathlib.Tactic.Ring
import Mathlib.Tactic.Linarith
import Mathlib.Tactic.FieldSimp

/-!
# A resonator with a bounded input

A second order recursion takes two values `(x, y)` to `(y, c * y - x + u)`.  Where `|c| ≤ 2` it swings, and
an input that is bounded may add up.

* `impulse` : what one unit of input becomes.
* `Driven` : the pairs that so many inputs of at most `U` can reach from rest.
* `Driven.abs_le` : **the values** are at most `U` times the sum of the impulse response.
* `Driven.form_le` : **the energy** is at most the square of `U` times the number of inputs.
* `gain_mul_pow`, `mul_gain_le` : the sum of the impulse response, by integers.

The recursion is linear, so a value is the sum of what each input has become of it.  Instead of summing over the
inputs, `Driven.abs_impulse_le` looks ahead: what a pair becomes after `k` more steps without an input is bounded by
the inputs so far, for all `k` at once, which goes through by induction on the number of inputs.

Without an input the recursion keeps the form `x ^ 2 - c * x * y + y ^ 2`, which is positive for `|c| ≤ 2`.  An
input changes it by its own square and a mixed term, so its root grows by no more than the input: `form_step_le` is
this triangle inequality, and the energy after `n` inputs is at most that of `n` inputs in phase.

For a coefficient `k / q` the impulse response is a fraction with a power of `q` below, and its sum can be computed
with integers.  This is how a bound for a given table is proved by evaluation.
-/

set_option autoImplicit false

namespace Isdn4bsd
namespace Resonator

section Ring

variable {R : Type*} [CommRing R]

/-- The answer to one unit of input, so many steps later. -/
def impulse (c : R) : ℕ → R
  | 0 => 0
  | 1 => 1
  | n + 2 => c * impulse c (n + 1) - impulse c n

/-- What the recursion would keep without an input. -/
def form (c x y : R) : R := x ^ 2 + y ^ 2 - c * x * y

/-- An input changes the energy by what the value was ahead. -/
theorem form_step (c x y u : R) :
    form c y (c * y - x + u) = form c x y + u * (c * y - 2 * x) + u ^ 2 := by
  rw [form, form]
  ring

theorem four_mul_form (c x y : R) :
    4 * form c x y = (c * y - 2 * x) ^ 2 + (4 - c ^ 2) * y ^ 2 := by
  rw [form]
  ring

/-- The parallelogram law. -/
theorem form_add_form (c x y e f : R) :
    form c (x + e) (y + f) + form c (x - e) (y - f) = 2 * form c x y + 2 * form c e f := by
  rw [form, form, form, form]
  ring

theorem form_smul (c r x y : R) : form c (r * x) (r * y) = r ^ 2 * form c x y := by
  rw [form, form]
  ring

end Ring

section Ordered

variable {R : Type*} [Field R] [LinearOrder R] [IsStrictOrderedRing R]

/-- The pairs that `n` inputs of at most `U` can reach from rest. -/
inductive Driven (c U : R) : ℕ → R → R → Prop
  | rest : Driven c U 0 0 0
  | step {n : ℕ} {x y z : R} (h : Driven c U n x y) (hz : |z - (c * y - x)| ≤ U) :
      Driven c U (n + 1) y z

/-- The sum of the impulse response over so many steps. -/
def gain (c : R) (n : ℕ) : R := ∑ j ∈ Finset.range n, |impulse c (j + 1)|

omit [IsStrictOrderedRing R] in
theorem gain_succ (c : R) (n : ℕ) : gain c (n + 1) = gain c n + |impulse c (n + 1)| :=
  Finset.sum_range_succ _ _

theorem gain_mono (c : R) {m n : ℕ} (h : m ≤ n) : gain c m ≤ gain c n :=
  Finset.sum_le_sum_of_subset_of_nonneg (Finset.range_mono h) fun _ _ _ => abs_nonneg _

/-- What a pair becomes without further input, against what the inputs so far can add up to. -/
theorem Driven.abs_impulse_le {c U : R} {n : ℕ} {x y : R} (h : Driven c U n x y) (k : ℕ) :
    |impulse c (k + 1) * y - impulse c k * x| ≤ U * (gain c (k + n) - gain c k) := by
  induction h generalizing k with
  | rest => simp
  | @step n x y z h hz ih =>
    have hsplit : impulse c (k + 1) * z - impulse c k * y =
        (impulse c (k + 2) * y - impulse c (k + 1) * x) +
          impulse c (k + 1) * (z - (c * y - x)) := by
      rw [impulse]
      ring
    have hinput : |impulse c (k + 1) * (z - (c * y - x))| ≤ U * |impulse c (k + 1)| := by
      rw [abs_mul, mul_comm]
      exact mul_le_mul_of_nonneg_right hz (abs_nonneg _)
    have hn : k + 1 + n = k + (n + 1) := by omega
    calc |impulse c (k + 1) * z - impulse c k * y|
        ≤ |impulse c (k + 2) * y - impulse c (k + 1) * x| +
          |impulse c (k + 1) * (z - (c * y - x))| := by
          rw [hsplit]
          exact abs_add_le _ _
      _ ≤ U * (gain c (k + 1 + n) - gain c (k + 1)) + U * |impulse c (k + 1)| :=
          add_le_add (ih (k + 1)) hinput
      _ = U * (gain c (k + (n + 1)) - gain c k) := by
          rw [hn, gain_succ]
          ring

/-- **The values are bounded.** -/
theorem Driven.abs_le {c U : R} {n : ℕ} {x y : R} (h : Driven c U n x y) : |y| ≤ U * gain c n := by
  have h0 := h.abs_impulse_le 0
  have hg : gain c 0 = 0 := Finset.sum_range_zero _
  rwa [impulse, impulse, one_mul, zero_mul, sub_zero, hg, sub_zero, Nat.zero_add] at h0

theorem Driven.abs_left_le {c U : R} {n : ℕ} {x y : R} (hU : 0 ≤ U) (h : Driven c U n x y) :
    |x| ≤ U * gain c n := by
  cases h with
  | rest => simp [gain]
  | step h _ => exact h.abs_le.trans (mul_le_mul_of_nonneg_left (gain_mono c (Nat.le_succ _)) hU)

/-- The energy is positive. -/
theorem form_nonneg {c : R} (hc : c ^ 2 ≤ 4) (x y : R) : 0 ≤ form c x y := by
  have h := four_mul_form c x y
  have h1 : 0 ≤ (c * y - 2 * x) ^ 2 := sq_nonneg _
  have h2 : 0 ≤ (4 - c ^ 2) * y ^ 2 := mul_nonneg (sub_nonneg.mpr hc) (sq_nonneg y)
  linarith

/-- One input adds at most itself to the root of the energy. -/
theorem form_step_le {c U B x y z : R} (hc : c ^ 2 ≤ 4) (hB : 0 ≤ B) (h : form c x y ≤ B ^ 2)
    (hz : |z - (c * y - x)| ≤ U) : form c y z ≤ (B + U) ^ 2 := by
  have hU : 0 ≤ U := (abs_nonneg _).trans hz
  have hlead : |c * y - 2 * x| ≤ 2 * B := by
    refine abs_le_of_sq_le_sq ?_ (by positivity)
    have h2 : 0 ≤ (4 - c ^ 2) * y ^ 2 := mul_nonneg (sub_nonneg.mpr hc) (sq_nonneg y)
    have h4 := four_mul_form c x y
    have hsq : (2 * B) ^ 2 = 4 * B ^ 2 := by ring
    linarith
  have hcross : (z - (c * y - x)) * (c * y - 2 * x) ≤ U * (2 * B) :=
    (le_abs_self _).trans ((abs_mul _ _).trans_le
      (mul_le_mul hz hlead (abs_nonneg _) hU))
  have hsq : (z - (c * y - x)) ^ 2 ≤ U ^ 2 := sq_le_sq' (abs_le.mp hz).1 (abs_le.mp hz).2
  have heq : form c y z = form c x y + (z - (c * y - x)) * (c * y - 2 * x) +
      (z - (c * y - x)) ^ 2 := by
    rw [← form_step, add_sub_cancel]
  have hexp : (B + U) ^ 2 = B ^ 2 + U * (2 * B) + U ^ 2 := by ring
  linarith

/-- **The energy is bounded.** -/
theorem Driven.form_le {c U : R} (hc : c ^ 2 ≤ 4) {n : ℕ} {x y : R} (h : Driven c U n x y) :
    form c x y ≤ (n * U) ^ 2 := by
  induction h with
  | rest => simp [form]
  | @step n x y z h hz ih =>
    have hU : 0 ≤ U := (abs_nonneg _).trans hz
    have hstep := form_step_le hc (mul_nonneg (Nat.cast_nonneg n) hU) ih hz
    rwa [Nat.cast_succ, add_mul, one_mul]

/-- The energy of a pair that is off by a little. -/
theorem form_add_le {c : R} (hc : c ^ 2 ≤ 4) (x y e f : R) :
    form c (x + e) (y + f) ≤ 2 * form c x y + 2 * form c e f := by
  have h := form_add_form c x y e f
  have h0 := form_nonneg hc (x - e) (y - f)
  linarith

/-! ## By integers -/

/-- For `c = k / q`: the impulse response, and its sum, each multiplied by a power of `q`. -/
def scaled (k q : ℤ) : ℕ → ℤ × ℤ × ℤ
  | 0 => (0, 1, 0)
  | n + 1 =>
    let s := scaled k q n
    (s.2.1, k * s.2.1 - q ^ 2 * s.1, q * s.2.2 + |s.2.1|)

omit [LinearOrder R] [IsStrictOrderedRing R] in
theorem impulse_mul_pow {k q : ℤ} (hq : (q : R) ≠ 0) (n : ℕ) :
    (impulse (k / q : R) n) * q ^ n = q * (scaled k q n).1 ∧
      impulse (k / q : R) (n + 1) * q ^ n = (scaled k q n).2.1 := by
  induction n with
  | zero => simp [impulse, scaled]
  | succ n ih =>
    obtain ⟨h0, h1⟩ := ih
    constructor
    · rw [scaled, pow_succ, ← mul_assoc, h1, mul_comm]
    · have hnext : impulse (k / q : R) (n + 1 + 1) * q ^ (n + 1) =
          k * (impulse (k / q : R) (n + 1) * q ^ n) - q * (impulse (k / q : R) n * q ^ n) := by
        rw [impulse]
        field_simp
        ring
      rw [hnext, h0, h1, scaled]
      push_cast
      ring

/-- **The sum of the impulse response**, by integers. -/
theorem gain_mul_pow {k q : ℤ} (hq : 0 < q) (n : ℕ) :
    gain (k / q : R) (n + 1) * q ^ n = (scaled k q (n + 1)).2.2 := by
  have hq0 : (q : R) ≠ 0 := Int.cast_ne_zero.mpr hq.ne'
  have hterm : ∀ m, |impulse (k / q : R) (m + 1)| * q ^ m = ((|(scaled k q m).2.1| : ℤ) : R) := by
    intro m
    have hpow : (0 : R) ≤ (q : R) ^ m := pow_nonneg (Int.cast_nonneg hq.le) m
    rw [Int.cast_abs, ← (impulse_mul_pow hq0 m).2, abs_mul, abs_of_nonneg hpow]
  induction n with
  | zero =>
    have h := hterm 0
    rw [gain_succ, add_mul, h]
    simp [gain, scaled]
  | succ n ih =>
    have hs : (scaled k q (n + 1 + 1)).2.2 =
        q * (scaled k q (n + 1)).2.2 + |(scaled k q (n + 1)).2.1| := rfl
    rw [gain_succ, add_mul, hterm, pow_succ, ← mul_assoc, ih, hs, Int.cast_add, Int.cast_mul, mul_comm]

/-- A bound on the sum, by integers. -/
theorem mul_gain_le {k q a b : ℤ} (hq : 0 < q) {n : ℕ} (h : a * (scaled k q (n + 1)).2.2 ≤ b * q ^ n) :
    a * gain (k / q : R) (n + 1) ≤ b := by
  have hpos : (0 : R) < (q : R) ^ n := pow_pos (Int.cast_pos.mpr hq) n
  have hcast : (a : R) * ((scaled k q (n + 1)).2.2 : ℤ) ≤ b * (q : R) ^ n := by exact_mod_cast h
  rw [← gain_mul_pow hq, ← mul_assoc] at hcast
  exact le_of_mul_le_mul_right hcast hpos

end Ordered

end Resonator
end Isdn4bsd
