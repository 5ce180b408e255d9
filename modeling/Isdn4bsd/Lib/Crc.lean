import Isdn4bsd.Lib.Bits

/-!
# Cyclic redundancy checks, one bit at a time

The reference for a table-driven check.  The register is shifted to the right, low bit first, and
the polynomial is added whenever the bit shifted out differs from the bit that comes in.

* `crcBits_bitsOf`: `w` bits may as well be added to the register at once, and shifted through.
* `crcShift_split`: of the register only the `w` low bits take part in that, which is what a table
of `2 ^ w` entries relies on.

## Why a table works

A step does two things, and both of them are linear: it adds the bit that comes in to the lowest bit of the
register, and it shifts, with the polynomial added or not.  So bits that come in later may be added to the
register beforehand, at the place from which they would be shifted down to the lowest bit in time.

Then `w` steps with zeros remain.  In these the upper bits of the register are only moved down by `w`
places, while the lower ones decide how often the polynomial is added, and where.  What they contribute
depends on nothing else, and this is what the entry of a table is.

Nothing here depends on the width of the register or on the polynomial.
-/

set_option autoImplicit false

namespace Isdn4bsd
namespace Crc

open Bits

/-- One bit. -/
def crcBit (poly c : Nat) (b : Bool) : Nat :=
  (c >>> 1) ^^^ (if c.testBit 0 = b then 0 else poly)

/-- A bit string. -/
def crcBits (poly c : Nat) (bs : List Bool) : Nat := bs.foldl (crcBit poly) c

theorem crcBits_append (poly c : Nat) (xs ys : List Bool) :
    crcBits poly c (xs ++ ys) = crcBits poly (crcBits poly c xs) ys := List.foldl_append

/-- `w` zeros. -/
def crcShift (poly : Nat) : Nat → Nat → Nat
  | 0, c => c
  | w + 1, c => crcShift poly w (crcBit poly c false)

/-- A bit that comes in may be added to the register instead. -/
theorem crcBit_xor_toNat (poly c : Nat) (b : Bool) :
    crcBit poly (c ^^^ b.toNat) false = crcBit poly c b := by
  cases b with
  | false => rw [Bool.toNat_false, Nat.xor_zero]
  | true =>
    have hshift : (c ^^^ 1) >>> 1 = c >>> 1 := by
      rw [Nat.shiftRight_xor_distrib]
      exact Nat.xor_zero _
    rw [Bool.toNat_true, crcBit, crcBit, hshift, Nat.testBit_xor]
    cases c.testBit 0 <;> rfl

/-- The other bits of the register are shifted. -/
theorem crcBit_xor_shiftLeft (poly c h : Nat) (b : Bool) :
    crcBit poly (c ^^^ (h <<< 1)) b = crcBit poly c b ^^^ h := by
  have hbit : (c ^^^ (h <<< 1)).testBit 0 = c.testBit 0 := by
    rw [Nat.testBit_xor, Nat.testBit_shiftLeft]
    simp
  have hshift : (c ^^^ (h <<< 1)) >>> 1 = (c >>> 1) ^^^ h := by
    rw [Nat.shiftRight_xor_distrib, Nat.shiftLeft_shiftRight]
  rw [crcBit, crcBit, hbit, hshift, Nat.xor_assoc, Nat.xor_comm h, ← Nat.xor_assoc]

theorem crcShift_split (poly w c h : Nat) :
    crcShift poly w (c ^^^ (h <<< w)) = crcShift poly w c ^^^ h := by
  induction w generalizing c with
  | zero => rfl
  | succ w ih => rw [crcShift, crcShift, Nat.shiftLeft_add h w 1, crcBit_xor_shiftLeft, ih]

/-- **A bit string at once.** -/
theorem crcBits_bitsOf (poly w c v : Nat) (hv : v < 2 ^ w) :
    crcBits poly c (bitsOf w v) = crcShift poly w (c ^^^ v) := by
  induction w generalizing c v with
  | zero =>
    obtain rfl : v = 0 := by omega
    rw [Nat.xor_zero]
    rfl
  | succ w ih =>
    have hsplit : v = (v.testBit 0).toNat ^^^ ((v / 2) <<< 1) := by
      apply Nat.eq_of_testBit_eq
      intro i
      rw [Nat.testBit_xor, Nat.testBit_shiftLeft]
      cases i with
      | zero => cases v.testBit 0 <;> simp
      | succ i =>
        have hlow : (v.testBit 0).toNat.testBit (i + 1) = false := by
          cases v.testBit 0 <;> simp [Nat.testBit_succ]
        rw [hlow, Nat.testBit_succ]
        simp
    have hreg : crcBit poly (c ^^^ v) false = crcBit poly c (v.testBit 0) ^^^ (v / 2) := by
      conv_lhs => rw [hsplit]
      rw [← Nat.xor_assoc, crcBit_xor_shiftLeft, crcBit_xor_toNat]
    rw [crcShift, hreg, ← ih _ _ (by rw [Nat.pow_succ] at hv; omega)]
    rfl

end Crc
end Isdn4bsd
