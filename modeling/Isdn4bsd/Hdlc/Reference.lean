import Isdn4bsd.Lib.Crc
import Isdn4bsd.Hdlc.Encode

/-!
# HDLC frames, bit by bit

The frame of a payload as the standard writes it, with nothing of the byte-wise coder in it: the
bits of the payload, the complement of its CRC-CCITT computed one bit at a time, and a zero after
every run of five ones.

* `fcsStep_eq_crcBits` : the table of `i4b_hdlc.c` is eight steps of the serial check.
* `fcs_table_is_crc` : **so the check sequence of a payload is the serial one.**
* `refFrame_eq` : the frames that the encoder was shown to produce are these.
* `no_six_ones` : there is no flag, and no abort, in them.

The results about the encoder speak of a table, a register of 16 bits and stuffed bytes, and those about the decoder
of the same table; a table that is wrong in the same way for both would not be noticed.  This module is what they
are measured by.  The serial check is `Lib.Crc`: a register that is shifted by one and takes the polynomial when a
one comes out.  A table of 256 entries is right if each entry is what eight such steps make of its index, which is
checked by evaluation, and then a byte that goes through the table is a byte that goes through the register bit by
bit, as the check is linear.
-/

set_option autoImplicit false

namespace Isdn4bsd
namespace Hdlc

open Bits BitStuff Crc

/-- The polynomial of CRC-CCITT, `x^16 + x^12 + x^5 + 1`, low bit first. -/
def ccitt : Nat := 0x8408

/-- The check sequence of a bit string: the complement of the register, which starts with ones. -/
def serialFcs (bs : List Bool) : Nat := crcBits ccitt 0xffff bs ^^^ 0xffff

/-- A frame between two flags. -/
def refFrame (p : Frame) : List Bool :=
  stuff 0 (bytesBits p ++ bitsOf 16 (serialFcs (bytesBits p)))

/-! ## The check sequence -/

theorem fcsTab_eq_crcShift : ∀ i < 256, fcsTab i = crcShift ccitt 8 i := by
  simp only [fcsTab_eq_digit]
  decide +kernel

/-- **The table is the serial check**, for a byte. -/
theorem fcsStep_eq_crcBits {c : Nat} (hc : c < 2 ^ 16) (b : UInt8) :
    fcsStep c b.toNat = crcBits ccitt c (bitsOf 8 b.toNat) := by
  have hb : b.toNat < 2 ^ 8 := b.toNat_lt
  have hhigh : (c ^^^ b.toNat) >>> 8 = lo8 (c >>> 8) := by
    have hzero : b.toNat >>> 8 = 0 := by
      rw [Nat.shiftRight_eq_div_pow]
      exact Nat.div_eq_of_lt hb
    have hlo : c >>> 8 < 256 := by
      rw [Nat.shiftRight_eq_div_pow]
      omega
    rw [Nat.shiftRight_xor_distrib, hzero, Nat.xor_zero, lo8, Nat.mod_eq_of_lt hlo]
  have hsplit : c ^^^ b.toNat = lo8 (c ^^^ b.toNat) ^^^ (lo8 (c >>> 8) <<< 8) := by
    rw [← hhigh]
    apply Nat.eq_of_testBit_eq
    intro i
    rw [Nat.testBit_xor (lo8 _), Nat.testBit_shiftLeft, lo8, show (256 : Nat) = 2 ^ 8 from rfl,
      Nat.testBit_mod_two_pow, Nat.testBit_shiftRight]
    by_cases hi : i < 8
    · simp [hi, show ¬ 8 ≤ i by omega]
    · have hadd : 8 + (i - 8) = i := by omega
      simp [hi, hadd, show 8 ≤ i by omega]
  have hlt : lo8 (c ^^^ b.toNat) < 256 := Nat.mod_lt _ (by decide)
  rw [crcBits_bitsOf _ _ _ _ hb, hsplit, crcShift_split, fcsStep, fcsTab_eq_crcShift _ hlt]

theorem fcsFold_eq_crcBits (p : List UInt8) :
    fcsFold p = crcBits ccitt 0xffff (bytesBits p) := by
  induction p using List.reverseRecOn with
  | nil => rfl
  | append_singleton p b ih =>
    rw [fcsFold_append_singleton, fcsStep_eq_crcBits (fcsFold_lt p), ih, bytesBits_append,
      crcBits_append, bytesBits_singleton]

theorem bytesBits_fcsBytes (p : List UInt8) :
    bytesBits (fcsBytes p) = bitsOf 16 (fcsFold p ^^^ 0xffff) := by
  have hbyte : ∀ x, bitsOf 8 (UInt8.ofNat x).toNat = bitsOf 8 x := by
    intro x
    have hinv := bitsOf_ofBits (bitsOf 8 x)
    rwa [length_bitsOf, ofBits_bitsOf] at hinv
  have htwo : ∀ x, bitsOf 16 x = bitsOf 8 x ++ bitsOf 8 (x >>> 8) := by
    intro x
    rw [Nat.shiftRight_eq_div_pow]
    simp only [bitsOf, Nat.div_div_eq_div_mul, List.cons_append, List.nil_append]
  rw [fcsBytes, bytesBits, List.flatMap_cons, List.flatMap_cons, List.flatMap_nil,
    List.append_nil, hbyte, hbyte, htwo]

/-- **The table is the CRC**, and a payload with its check sequence leaves the residue that the decoder
tests. -/
theorem fcs_table_is_crc (p : List UInt8) :
    p.foldl (fun crc b => fcsStep crc b.toNat) 0xffff = crcBits ccitt 0xffff (bytesBits p) ∧
      fcsFold (p ++ [UInt8.ofNat (fcsFold p ^^^ 0xffff), UInt8.ofNat ((fcsFold p ^^^ 0xffff) >>> 8)])
        = 0xf0b8 :=
  ⟨fcsFold_eq_crcBits p, fcs_residue p⟩

/-- **The encoder's frames are the reference's.** -/
theorem refFrame_eq (p : Frame) : refFrame p = stuff 0 (bytesBits (checked p)) := by
  rw [refFrame, serialFcs, ← fcsFold_eq_crcBits, checked, bytesBits_append, bytesBits_fcsBytes]

/-! ## Runs of ones -/

theorem not_prefix_stuff {c : Nat} (hc : c ≤ 4) (bs : List Bool) :
    ¬ List.replicate (6 - c) true <+: stuff c bs := by
  induction bs generalizing c with
  | nil =>
    rw [stuff, List.prefix_nil, List.replicate_eq_nil_iff]
    omega
  | cons b bs ih =>
    obtain ⟨k, hk⟩ : ∃ k, 6 - c = k + 2 := ⟨4 - c, by omega⟩
    rw [hk, List.replicate_succ]
    cases b with
    | false =>
      rw [stuff, List.cons_prefix_cons]
      exact fun h => absurd h.1 (by decide)
    | true =>
      rw [stuff]
      split
      next h4 =>
        rw [List.cons_prefix_cons, List.replicate_succ, List.cons_prefix_cons]
        exact fun h => absurd h.2.1 (by decide)
      next h4 =>
        rw [List.cons_prefix_cons, show k + 1 = 6 - (c + 1) by omega]
        exact fun h => ih (by omega) h.2

theorem not_infix_stuff {c : Nat} (hc : c ≤ 4) (bs : List Bool) :
    ¬ List.replicate 6 true <:+: stuff c bs := by
  induction bs generalizing c with
  | nil => simp [stuff]
  | cons b bs ih =>
    have hpre : ¬ List.replicate 6 true <+: stuff c (b :: bs) := fun h =>
      not_prefix_stuff hc (b :: bs) (List.IsPrefix.trans
        ⟨List.replicate c true, by rw [List.replicate_append_replicate]; congr 1; omega⟩ h)
    cases b with
    | false =>
      rw [stuff] at hpre ⊢
      rw [List.infix_cons_iff]
      exact fun h => h.elim hpre (ih (by omega))
    | true =>
      rw [stuff] at hpre ⊢
      split at hpre
      next h4 =>
        rw [if_pos h4, List.infix_cons_iff, List.infix_cons_iff]
        rintro (h | h | h)
        · exact hpre h
        · rw [List.replicate_succ, List.cons_prefix_cons] at h
          exact absurd h.1 (by decide)
        · exact ih (by omega) h
      next h4 =>
        rw [if_neg h4, List.infix_cons_iff]
        exact fun h => h.elim hpre (ih (by omega))

/-- **Between two flags** there are no six ones in a row. -/
theorem no_six_ones (p : Frame) : ¬ List.replicate 6 true <:+: refFrame p :=
  not_infix_stuff (by decide) _

end Hdlc
end Isdn4bsd
