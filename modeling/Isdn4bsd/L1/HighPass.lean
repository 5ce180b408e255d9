import Mathlib.Data.Int.Init
import Mathlib.Algebra.Order.Group.Unbundled.Abs
import Mathlib.Tactic.Linarith
import Isdn4bsd.Lib.Leaky

/-!
# The filters of the echo canceller

What goes to the speaker and what comes from the line may have an offset, and two filters take it away.  Each
has an accumulator that follows 65536 times the mean of its input.  That is almost all that 32 bits hold.

Each operation has a result only if it fits.

* `highPass_held` : **one sample** has a result, and keeps the accumulator within its bounds.
* `filters_held` : **any samples**, in any order through both filters, from the start.

The accumulator is one of `Lib.Leaky`: a part of it leaks out with each sample, cut towards zero, and the sample is
added, scaled.  So it stays between multiples of the smallest and the largest sample that ever came in, which is the
bound of 32 bits if the samples have 16 bits and one of the two ends is left out (`lowest`, `highest`).  The bounds
are reached by the loudest samples there are, so nothing is to spare.

The difference of a sample and the mean has 17 bits, and is cut to what leaves room for noise (`subtractSafe_some`).
-/

set_option autoImplicit false

namespace Isdn4bsd
namespace L1

/-- The result of a signed operation of so many bits, if it fits. -/
def signed (w : ℕ) (x : ℤ) : Option ℤ :=
  if -2 ^ (w - 1) ≤ x ∧ x < 2 ^ (w - 1) then some x else none

/-- `I4B_ECHO_CANCEL_SAMPLE_MAX`. -/
def sampleMax : ℤ := 0x7FC0

/-- `i4b_subtract_safe`. -/
def subtractSafe (a b : ℤ) : Option ℤ := do
  let temp ← signed 32 (a - b)
  let temp :=
    if temp < -sampleMax then -sampleMax else if temp > sampleMax then sampleMax else temp
  signed 16 temp

/-- A filter with its accumulator: what it is afterwards, and the output. -/
def highPass (lowPass input : ℤ) : Option (ℤ × ℤ) := do
  let gained ← signed 32 (input * 256)
  let leaked ← signed 32 (lowPass.tdiv 256)
  let change ← signed 32 (gained - leaked)
  let lowPass ← signed 32 (lowPass + change)
  let mean ← signed 16 (lowPass.tdiv 65536)
  let output ← subtractSafe input mean
  return (lowPass, output)

/-- The accumulators of `struct i4b_echo_cancel`. -/
structure LowPass where
  lowPass1 : ℤ
  lowPass2 : ℤ

/-- What `i4b_echo_cancel_init` leaves in them. -/
def LowPass.zero : LowPass where
  lowPass1 := 0
  lowPass2 := 0

/-- `i4b_echo_cancel_hp_f1`. -/
def hpF1 (ec : LowPass) (input : Int16) : Option (LowPass × ℤ) := do
  let (lowPass1, output) ← highPass ec.lowPass1 input.toInt
  return ({ ec with lowPass1 := lowPass1 }, output)

/-- `i4b_echo_cancel_hp_f2`. -/
def hpF2 (ec : LowPass) (input : Int16) : Option (LowPass × ℤ) := do
  let (lowPass2, output) ← highPass ec.lowPass2 input.toInt
  return ({ ec with lowPass2 := lowPass2 }, output)

/-- One of the two filters. -/
inductive HpFilter
  | f1
  | f2
  deriving DecidableEq, Repr

def HpFilter.apply (ec : LowPass) (input : Int16) : HpFilter → Option (LowPass × ℤ)
  | .f1 => hpF1 ec input
  | .f2 => hpF2 ec input

def HpFilter.lowPass (ec : LowPass) : HpFilter → ℤ
  | .f1 => ec.lowPass1
  | .f2 => ec.lowPass2

/-- Samples, each through one of the filters: what the accumulators are after each of them, and the
outputs. -/
def filterAll : LowPass → List (HpFilter × Int16) → Option (List (LowPass × ℤ))
  | _, [] => some []
  | ec, (filter, input) :: samples => do
    let (ec, output) ← filter.apply ec input
    let rest ← filterAll ec samples
    return (ec, output) :: rest

/-! ## Bounds -/

theorem signed_eq {w : ℕ} {x : ℤ} (h : -2 ^ (w - 1) ≤ x ∧ x < 2 ^ (w - 1)) : signed w x = some x :=
  if_pos h

/-- **The difference is cut** to what leaves room for noise. -/
theorem subtractSafe_some {a b : ℤ} (ha : -32768 ≤ a ∧ a ≤ 32767) (hb : -32768 ≤ b ∧ b ≤ 32767) :
    ∃ output, subtractSafe a b = some output ∧ |output| ≤ sampleMax := by
  have hdiff : signed 32 (a - b) = some (a - b) := signed_eq (by norm_num; omega)
  rw [subtractSafe, hdiff]
  have hcut : ∀ x : ℤ, |if x < -sampleMax then -sampleMax else if x > sampleMax then sampleMax else x| ≤
      sampleMax := by
    intro x
    rw [sampleMax, abs_le]
    split_ifs <;> omega
  have hfit := abs_le.mp (hcut (a - b))
  refine ⟨_, signed_eq ?_, hcut (a - b)⟩
  rw [sampleMax] at hfit ⊢
  norm_num
  omega

/-- The least that a sample of 16 bits adds, if none is further from zero than `M`. -/
def lowest (M : ℤ) : ℤ := 256 * max (-M) (-32768)

def highest (M : ℤ) : ℤ := 256 * min M 32767

/-- An accumulator within its bounds. -/
def Held (M lowPass : ℤ) : Prop := 256 * lowest M ≤ lowPass ∧ lowPass ≤ 256 * highest M

theorem held_zero {M : ℤ} (hM : 0 ≤ M) : Held M 0 := by
  rw [Held, lowest, highest]
  omega

theorem Held.abs_lowPass_le {M lowPass : ℤ} (h : Held M lowPass) : |lowPass| ≤ 65536 * M := by
  rw [Held, lowest, highest] at h
  exact abs_le.mpr (by omega)

/-- **One sample.** -/
theorem highPass_held {M lowPass : ℤ} (h : Held M lowPass) {input : Int16} (hin : |input.toInt| ≤ M) :
    ∃ lowPass' output, highPass lowPass input.toInt = some (lowPass', output) ∧ Held M lowPass' ∧
      |output| ≤ sampleMax := by
  have hlo := Int16.le_toInt input
  have hhi := Int16.toInt_lt input
  rw [highPass]
  generalize input.toInt = x at *
  have hx := abs_le.mp hin
  have hM : lowest M ≤ x * 256 ∧ x * 256 ≤ highest M := by
    rw [lowest, highest]
    omega
  have hrange : -8388608 ≤ lowest M ∧ highest M ≤ 8388352 := by
    rw [lowest, highest]
    omega
  have hleak := Leaky.tdiv_mem (by decide) h
  have hnext := Leaky.step_mem (by decide) h hM
  have hsum : lowPass + (x * 256 - lowPass.tdiv 256) = Leaky.step 256 lowPass (x * 256) := by
    rw [Leaky.step, Leaky.leak]
    ring
  have hmean : -32768 ≤ (Leaky.step 256 lowPass (x * 256)).tdiv 65536 ∧
      (Leaky.step 256 lowPass (x * 256)).tdiv 65536 ≤ 32767 :=
    Leaky.tdiv_mem (by decide) (by omega)
  obtain ⟨output, hout, hle⟩ := subtractSafe_some ⟨hlo, by omega⟩ hmean
  refine ⟨_, output, ?_, hnext, hle⟩
  rw [signed_eq (by norm_num; omega), Option.bind_eq_bind, Option.bind_some,
    signed_eq (by norm_num; omega), Option.bind_some, signed_eq (by norm_num; omega), Option.bind_some,
    hsum, signed_eq (by norm_num; omega), Option.bind_some, signed_eq (by norm_num; omega),
    Option.bind_some, hout]
  rfl

/-! ## Any samples -/

/-- **One sample, through either filter**: the other accumulator stays. -/
theorem apply_held {M : HpFilter → ℤ} {ec : LowPass} (h : ∀ filter, Held (M filter) (filter.lowPass ec))
    (filter : HpFilter) {input : Int16} (hin : |input.toInt| ≤ M filter) :
    ∃ ec' output, filter.apply ec input = some (ec', output) ∧
      (∀ filter, Held (M filter) (filter.lowPass ec')) ∧ |output| ≤ sampleMax := by
  obtain ⟨lowPass, output, heq, hheld, hout⟩ := highPass_held (h filter) hin
  cases filter with
  | f1 =>
    refine ⟨{ ec with lowPass1 := lowPass }, output, ?_, ?_, hout⟩
    · rw [HpFilter.apply, hpF1, show highPass ec.lowPass1 input.toInt = _ from heq]
      rfl
    · intro filter
      cases filter
      · exact hheld
      · exact h .f2
  | f2 =>
    refine ⟨{ ec with lowPass2 := lowPass }, output, ?_, ?_, hout⟩
    · rw [HpFilter.apply, hpF2, show highPass ec.lowPass2 input.toInt = _ from heq]
      rfl
    · intro filter
      cases filter
      · exact h .f1
      · exact hheld

theorem filterAll_held {M : HpFilter → ℤ} {samples : List (HpFilter × Int16)}
    (hs : ∀ s ∈ samples, |s.2.toInt| ≤ M s.1) {ec : LowPass}
    (h : ∀ filter, Held (M filter) (filter.lowPass ec)) :
    ∃ outs, filterAll ec samples = some outs ∧ outs.length = samples.length ∧
      ∀ out ∈ outs, (∀ filter, Held (M filter) (filter.lowPass out.1)) ∧ |out.2| ≤ sampleMax := by
  induction samples generalizing ec with
  | nil => exact ⟨[], rfl, rfl, by simp⟩
  | cons s samples ih =>
    obtain ⟨filter, input⟩ := s
    obtain ⟨ec', output, heq, hheld, hout⟩ := apply_held h filter (hs _ List.mem_cons_self)
    obtain ⟨outs, hrest, hlen, hall⟩ := ih (fun s hs' => hs s (List.mem_cons_of_mem _ hs')) hheld
    refine ⟨(ec', output) :: outs, ?_, congrArg Nat.succ hlen,
      List.forall_mem_cons.mpr ⟨⟨hheld, hout⟩, hall⟩⟩
    rw [filterAll, heq]
    change (filterAll ec' samples).bind _ = _
    rw [hrest]
    rfl

/-- **The filters do not overflow**, whatever they are fed with, and in any order.  With samples up to `M`,
one bound for each filter, its accumulator stays within `65536 * M`, and the output within the maximum. -/
theorem filters_held (M : HpFilter → ℕ) (samples : List (HpFilter × Int16))
    (hs : ∀ s ∈ samples, |s.2.toInt| ≤ M s.1) :
    ∃ outs, filterAll .zero samples = some outs ∧ outs.length = samples.length ∧
      ∀ out ∈ outs, (∀ filter : HpFilter, |filter.lowPass out.1| ≤ 65536 * M filter) ∧
        |out.2| ≤ sampleMax := by
  have hzero : ∀ filter : HpFilter, Held (M filter) (filter.lowPass .zero) := by
    intro filter
    cases filter <;> exact held_zero (Int.natCast_nonneg _)
  obtain ⟨outs, heq, hlen, hall⟩ := filterAll_held hs hzero
  exact ⟨outs, heq, hlen, fun out hout =>
    ⟨fun filter => ((hall out hout).1 filter).abs_lowPass_le, (hall out hout).2⟩⟩

/-- The loudest samples there are. -/
theorem filters_held_loudest :
    ∃ outs, filterAll .zero [(.f1, -32768), (.f2, 32767), (.f1, -32768)] = some outs ∧
      outs.length = 3 ∧
      ∀ out ∈ outs, (∀ filter : HpFilter, |filter.lowPass out.1| ≤ 65536 * 32768) ∧
        |out.2| ≤ sampleMax :=
  filters_held (fun _ => 32768) _ (by decide)

end L1
end Isdn4bsd
