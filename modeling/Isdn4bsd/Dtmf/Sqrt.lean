import Mathlib.Tactic

/-!
# DTMF: the square root

`i4b_sqrt_32` finds the root bit by bit.  One word holds the bits that were found, moved to the left, and
the bit that is tried, and both are moved to the right by what looks like bit fiddling.

* `packed` : what the word and the mask are, with so many bits to go.
* `packed_taken`, `packed_left` : **the bit fiddling**, if the bit is taken, and if it is not.
* `sqrt_floor` : **the loop ends after sixteen rounds, with the root rounded down.**

The method is the usual one: with `q` for the bits that were found, the next bit `2 ^ m` belongs to the root if
`(q + 2 ^ m) ^ 2` is no more than the number, which is a comparison of what is left of the number with
`2 * q * 2 ^ m + 4 ^ m`.  The source does not have `q`, it has this sum, in one word (`packed`): since `q` has no bit
below `2 ^ (m + 1)`, the two summands do not overlap, and the step from one round to the next is an exclusive or, a
disjunction and two shifts.

The loop of the source ends when the mask has become zero, by shifts of two.  `sqrtLoop` has a number of rounds, and
`sqrtLoop_root` shows that sixteen are enough for 32 bits.
-/

set_option autoImplicit false

namespace Isdn4bsd
namespace Dtmf

/-- The loop of `i4b_sqrt_32`, for at most so many rounds. -/
def sqrtLoop : Nat → UInt32 → UInt32 → UInt32 → Option UInt16
  | 0, _, _, _ => none
  | fuel + 1, a, b, x =>
    if a ≥ b then
      let a := a - b
      if b &&& 1 ≠ 0 then some (b >>> 1 ||| x).toUInt16
      else
        let b := b >>> 1 ||| x
        let x := x >>> 1
        let b := b ^^^ x
        let x := x >>> 1
        let b := b ^^^ x
        sqrtLoop fuel a b x
    else if b &&& 1 ≠ 0 then some (b >>> 1).toUInt16
    else
      let b := b >>> 1
      let x := x >>> 1
      let b := b ^^^ x
      let x := x >>> 1
      let b := b ^^^ x
      sqrtLoop fuel a b x

/-- `i4b_sqrt_32`. -/
def i4bSqrt32 (fuel : Nat) (a : UInt32) : Option UInt16 := sqrtLoop fuel a 0x40000000 0x40000000

/-! ## Bits -/

/-- The low bits of a number are changed, and others stay. -/
theorem mul_add_xor {k q c d : ℕ} (hc : c < 2 ^ k) (hd : d < 2 ^ k) :
    (2 ^ k * q + c) ^^^ d = 2 ^ k * q + (c ^^^ d) := by
  have hdiv : ((2 ^ k * q + c) ^^^ d) / 2 ^ k = q := by
    rw [Nat.xor_div_two_pow, Nat.mul_add_div (Nat.two_pow_pos k), Nat.div_eq_of_lt hc,
      Nat.div_eq_of_lt hd]
    simp
  have hmod : ((2 ^ k * q + c) ^^^ d) % 2 ^ k = c ^^^ d := by
    rw [Nat.xor_mod_two_pow, Nat.mul_add_mod, Nat.mod_eq_of_lt hc, Nat.mod_eq_of_lt hd]
  rw [← Nat.div_add_mod ((2 ^ k * q + c) ^^^ d) (2 ^ k), hdiv, hmod]

theorem mul_add_or {k q c d : ℕ} (hc : c < 2 ^ k) (hd : d < 2 ^ k) :
    (2 ^ k * q + c) ||| d = 2 ^ k * q + (c ||| d) := by
  rw [Nat.two_pow_add_eq_or_of_lt hc, Nat.or_assoc, ← Nat.two_pow_add_eq_or_of_lt (Nat.or_lt_two_pow hc hd)]

theorem two_pow_mul_xor (k a b : ℕ) : (2 ^ k * a) ^^^ (2 ^ k * b) = 2 ^ k * (a ^^^ b) := by
  rw [Nat.mul_comm, Nat.mul_comm _ b, Nat.mul_comm _ (a ^^^ b), ← Nat.shiftLeft_eq, ← Nat.shiftLeft_eq,
    ← Nat.shiftLeft_eq, Nat.shiftLeft_xor_distrib]

theorem two_pow_mul_or (k a b : ℕ) : (2 ^ k * a) ||| (2 ^ k * b) = 2 ^ k * (a ||| b) := by
  rw [Nat.mul_comm, Nat.mul_comm _ b, Nat.mul_comm _ (a ||| b), ← Nat.shiftLeft_eq, ← Nat.shiftLeft_eq,
    ← Nat.shiftLeft_eq, Nat.shiftLeft_or_distrib]

/-! ## One round -/

/-- With `m + 1` bits to go, the bits that were found are `q`, and this is the word. -/
def packed (m q : ℕ) : ℕ := 4 ^ m * (4 * q + 1)

theorem packed_eq (m q : ℕ) : packed m q = 2 ^ (2 * m) * (4 * q + 1) := by
  rw [packed, show (4 : ℕ) = 2 ^ 2 from rfl, ← Nat.pow_mul]

theorem packed_odd {m q : ℕ} : packed m q % 2 = 1 ↔ m = 0 := by
  cases m with
  | zero => simp [packed]; omega
  | succ m =>
    rw [packed, Nat.pow_succ, Nat.mul_right_comm]
    omega

/-- What is tried is whether the number with the next bit is small enough. -/
theorem packed_add_sq (m q : ℕ) :
    packed m q + (2 ^ (m + 1) * q) ^ 2 = (2 ^ m * (2 * q + 1)) ^ 2 := by
  have h4 : (4 : ℕ) ^ m = (2 ^ m) ^ 2 := by rw [← Nat.pow_mul, Nat.mul_comm, Nat.pow_mul]
  rw [packed, h4]
  ring

theorem packed_shiftRight (j q : ℕ) : packed (j + 1) q >>> 1 = 2 ^ (2 * j) * (2 ^ 3 * q + 2) := by
  have h : packed (j + 1) q = 2 ^ (2 * j) * (2 ^ 3 * q + 2) * 2 ^ 1 := by
    rw [packed_eq, show 2 * (j + 1) = 2 * j + 2 from rfl, Nat.pow_add]
    ring
  rw [Nat.shiftRight_eq_div_pow, h, Nat.mul_div_cancel _ (by decide)]

theorem mask_shiftRight (j : ℕ) : (4 ^ (j + 1)) >>> 1 = 2 ^ (2 * j) * 2 := by
  have h : (4 : ℕ) ^ (j + 1) = 2 ^ (2 * j) * 2 * 2 ^ 1 := by
    rw [show (4 : ℕ) = 2 ^ 2 from rfl, ← Nat.pow_mul]
    ring
  rw [Nat.shiftRight_eq_div_pow, h, Nat.mul_div_cancel _ (by decide)]

theorem mask_shiftRight_two (j : ℕ) : (4 ^ (j + 1)) >>> 1 >>> 1 = 4 ^ j := by
  rw [← Nat.shiftRight_add, Nat.shiftRight_eq_div_pow, Nat.pow_succ]
  exact Nat.mul_div_cancel _ (by decide)

/-- **The bit is taken.** -/
theorem packed_taken (j q : ℕ) :
    ((packed (j + 1) q >>> 1 ||| 4 ^ (j + 1)) ^^^ (4 ^ (j + 1)) >>> 1) ^^^ (4 ^ (j + 1)) >>> 1 >>> 1
      = packed j (2 * q + 1) := by
  have h4 : (4 : ℕ) ^ (j + 1) = 2 ^ (2 * j) * 4 := by
    rw [show (4 : ℕ) = 2 ^ 2 from rfl, ← Nat.pow_mul]
    ring
  have h1 : (4 : ℕ) ^ j = 2 ^ (2 * j) * 1 := by
    rw [show (4 : ℕ) = 2 ^ 2 from rfl, ← Nat.pow_mul, Nat.mul_one]
  rw [mask_shiftRight_two, mask_shiftRight, packed_shiftRight, h4, h1, two_pow_mul_or, two_pow_mul_xor,
    two_pow_mul_xor, mul_add_or (by decide) (by decide), mul_add_xor (by decide) (by decide),
    mul_add_xor (by decide) (by decide), packed_eq]
  congr 1
  have hc : ((2 ||| 4) ^^^ 2) ^^^ 1 = 5 := by decide
  omega

/-- **The bit is left out.** -/
theorem packed_left (j q : ℕ) :
    (packed (j + 1) q >>> 1 ^^^ (4 ^ (j + 1)) >>> 1) ^^^ (4 ^ (j + 1)) >>> 1 >>> 1
      = packed j (2 * q) := by
  have h1 : (4 : ℕ) ^ j = 2 ^ (2 * j) * 1 := by
    rw [show (4 : ℕ) = 2 ^ 2 from rfl, ← Nat.pow_mul, Nat.mul_one]
  rw [mask_shiftRight_two, mask_shiftRight, packed_shiftRight, h1, two_pow_mul_xor,
    two_pow_mul_xor, mul_add_xor (by decide) (by decide),
    mul_add_xor (by decide) (by decide), packed_eq]
  congr 1
  have hc : (2 ^^^ 2) ^^^ 1 = 1 := by decide
  omega

/-! ## The loop -/

/-- The root, rounded down. -/
def IsRoot (a r : ℕ) : Prop := r ^ 2 ≤ a ∧ a < (r + 1) ^ 2

theorem and_one_ne_zero (b : UInt32) : b &&& 1 ≠ 0 ↔ b.toNat % 2 = 1 := by
  rw [ne_eq, ← UInt32.toNat_inj, UInt32.toNat_and]
  have h1 : (1 : UInt32).toNat = 1 := rfl
  have h0 : (0 : UInt32).toNat = 0 := rfl
  rw [h1, h0, Nat.and_one_is_mod]
  omega

theorem toNat_shiftRight_one (b : UInt32) : (b >>> 1).toNat = b.toNat >>> 1 := by
  rw [UInt32.toNat_shiftRight]
  rfl

/-- **So many rounds find the root**, from the bits that were found on. -/
theorem sqrtLoop_root {m q a0 : ℕ} {a b x : UInt32} (hx : x.toNat = 4 ^ m) (hb : b.toNat = packed m q)
    (ha : a.toNat + (2 ^ (m + 1) * q) ^ 2 = a0) (hlt : a0 < (2 ^ (m + 1) * (q + 1)) ^ 2)
    (hq : 2 ^ (m + 1) * (q + 1) ≤ 2 ^ 16) :
    ∃ r : UInt16, (∀ fuel ≥ m + 1, sqrtLoop fuel a b x = some r) ∧ IsRoot a0 r.toNat := by
  have htry := packed_add_sq m q
  induction m generalizing q a b x with
  | zero =>
    have hodd : b &&& 1 ≠ 0 := (and_one_ne_zero b).mpr (hb ▸ packed_odd.mpr rfl)
    have hb' : b.toNat = 4 * q + 1 := by rw [hb, packed, Nat.pow_zero, Nat.one_mul]
    have hshift : (b >>> 1).toNat = 2 * q := by
      rw [toNat_shiftRight_one, hb', Nat.shiftRight_eq_div_pow]
      omega
    have hfuel : ∀ fuel ≥ 1, ∃ k, fuel = k + 1 := fun fuel hf => ⟨fuel - 1, by omega⟩
    by_cases hge : a ≥ b
    · have hr : (b >>> 1 ||| x).toUInt16.toNat = 2 * q + 1 := by
        have hor : 2 ^ 1 * q ||| 1 = 2 ^ 1 * q + 1 := (Nat.two_pow_add_eq_or_of_lt (by decide) q).symm
        rw [UInt32.toNat_toUInt16, UInt32.toNat_or, hshift, hx]
        rw [Nat.pow_one] at hor
        rw [Nat.pow_zero, hor, Nat.mod_eq_of_lt (by omega)]
      have hle : b.toNat ≤ a.toNat := UInt32.le_iff_toNat_le.mp hge
      refine ⟨(b >>> 1 ||| x).toUInt16, fun fuel hf => ?_, ?_, ?_⟩
      · obtain ⟨k, rfl⟩ := hfuel fuel hf
        rw [sqrtLoop, if_pos hge]
        exact if_pos hodd
      · rw [hr, ← ha]
        rw [← hb, Nat.pow_zero, Nat.one_mul] at htry
        omega
      · rw [hr]
        have h2 : 2 ^ (0 + 1) * (q + 1) = 2 * q + 1 + 1 := by ring
        rwa [h2] at hlt
    · have hr : (b >>> 1).toUInt16.toNat = 2 * q := by
        rw [UInt32.toNat_toUInt16, hshift, Nat.mod_eq_of_lt (by omega)]
      have hgt : a.toNat < b.toNat := Nat.lt_of_not_le fun h => hge (UInt32.le_iff_toNat_le.mpr h)
      refine ⟨(b >>> 1).toUInt16, fun fuel hf => ?_, ?_, ?_⟩
      · obtain ⟨k, rfl⟩ := hfuel fuel hf
        rw [sqrtLoop, if_neg hge]
        exact if_pos hodd
      · rw [hr, ← ha]
        exact Nat.le_add_left _ _
      · rw [hr, ← ha]
        rw [← hb, Nat.pow_zero, Nat.one_mul] at htry
        omega
  | succ j ih =>
    have heven : ¬ b &&& 1 ≠ 0 := fun h => by
      rw [and_one_ne_zero, hb, packed_odd] at h
      exact absurd h (Nat.succ_ne_zero j)
    have hfuel : ∀ fuel ≥ j + 1 + 1, ∃ k, fuel = k + 1 ∧ k ≥ j + 1 :=
      fun fuel hf => ⟨fuel - 1, by omega⟩
    have hx' : (x >>> 1 >>> 1).toNat = 4 ^ j := by
      rw [toNat_shiftRight_one, toNat_shiftRight_one, hx, mask_shiftRight_two]
    have hroot : 2 ^ (j + 1 + 1) * q = 2 ^ (j + 1) * (2 * q) := by ring
    have hroot' : 2 ^ (j + 1 + 1) * (q + 1) = 2 ^ (j + 1) * (2 * q + 1 + 1) := by ring
    by_cases hge : a ≥ b
    · have hle : b.toNat ≤ a.toNat := UInt32.le_iff_toNat_le.mp hge
      have hb' : ((b >>> 1 ||| x) ^^^ x >>> 1 ^^^ x >>> 1 >>> 1).toNat = packed j (2 * q + 1) := by
        simp only [UInt32.toNat_xor, UInt32.toNat_or, toNat_shiftRight_one]
        rw [hb, hx, packed_taken]
      have ha' : (a - b).toNat + (2 ^ (j + 1) * (2 * q + 1)) ^ 2 = a0 := by
        rw [UInt32.toNat_sub_of_le _ _ hge, ← htry, ← ha, hb]
        rw [hb] at hle
        omega
      obtain ⟨r, hr, hroot⟩ := ih hx' hb' ha' (hroot' ▸ hlt) (hroot' ▸ hq) (packed_add_sq _ _)
      refine ⟨r, fun fuel hf => ?_, hroot⟩
      obtain ⟨k, rfl, hk⟩ := hfuel fuel hf
      rw [sqrtLoop, if_pos hge]
      exact (if_neg heven).trans (hr k hk)
    · have hgt : a.toNat < b.toNat := Nat.lt_of_not_le fun h => hge (UInt32.le_iff_toNat_le.mpr h)
      have hb' : (b >>> 1 ^^^ x >>> 1 ^^^ x >>> 1 >>> 1).toNat = packed j (2 * q) := by
        simp only [UInt32.toNat_xor, toNat_shiftRight_one]
        rw [hb, hx, packed_left]
      have hlt' : a0 < (2 ^ (j + 1) * (2 * q + 1)) ^ 2 := by
        rw [← htry, ← ha, ← hb]
        omega
      have hq' : 2 ^ (j + 1) * (2 * q + 1) ≤ 2 ^ 16 :=
        (Nat.mul_le_mul_left _ (by omega)).trans (hroot' ▸ hq)
      obtain ⟨r, hr, hroot⟩ := ih hx' hb' (hroot ▸ ha) hlt' hq' (packed_add_sq _ _)
      refine ⟨r, fun fuel hf => ?_, hroot⟩
      obtain ⟨k, rfl, hk⟩ := hfuel fuel hf
      rw [sqrtLoop, if_neg hge]
      exact (if_neg heven).trans (hr k hk)

theorem i4bSqrt32_root (a : UInt32) :
    ∃ r : UInt16, (∀ fuel ≥ 16, i4bSqrt32 fuel a = some r) ∧ IsRoot a.toNat r.toNat := by
  have hlt : a.toNat < (2 ^ (15 + 1) * (0 + 1)) ^ 2 := a.toNat_lt
  exact sqrtLoop_root (m := 15) (q := 0) (x := 0x40000000) (b := 0x40000000) rfl rfl rfl hlt le_rfl

/-- **The square root.**  The loop ends after sixteen rounds, with the root rounded down. -/
theorem sqrt_floor (a : UInt32) :
    ∃ r : UInt16, (∀ fuel ≥ 16, i4bSqrt32 fuel a = some r) ∧
      r.toNat * r.toNat ≤ a.toNat ∧ a.toNat < (r.toNat + 1) * (r.toNat + 1) := by
  obtain ⟨r, hr, hlo, hhi⟩ := i4bSqrt32_root a
  exact ⟨r, hr, by rwa [← Nat.pow_two], by rwa [← Nat.pow_two]⟩

end Dtmf
end Isdn4bsd
