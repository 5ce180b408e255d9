import Isdn4bsd.Lib.Bits

/-!
# The tables of the software HDLC coder

`i4b_hdlc.c` holds the two 256-entry tables that `HDLC_ENCODE` and `HDLC_DECODE` share.

* `hdlcFcsTab` is the frame check table: `fcsStep crc b` is the update both macros perform for a
  data byte, `HDLC_FCS_TAB[LO8(crc ^ b)] ^ LO8(crc >> 8)`.
* `hdlcBitTab` describes the runs of set bits in a byte: bits 0 to 3 count the ones at its low
  end, bits 12 to 15 those at its high end, bits 8 to 11 are the low count plus one, and bits 4 to
  7 mark the bytes whose stuffing cannot be read off the two counts.

The one fact about the frame check sequence the coders rely on is `fcs_residue`: running the
complemented check sequence of a frame through its own update always ends in `0xf0b8`, whatever
the frame was.  That the table is that of the standard's polynomial is another matter, in
`Isdn4bsd.Hdlc.Reference`.

The tables are lists, as they are in the source.  Facts about all entries are checked by evaluation, and a list would be
walked down for each of them; so a lookup is also a digit of one large number, which the kernel divides at once
(`getD_eq_digit`).
-/

set_option autoImplicit false

namespace Isdn4bsd
namespace Hdlc

open Bits

/-- `LO8(x)`, the least significant byte. -/
def lo8 (x : Nat) : Nat := x % 256

/-- `HDLC_FCS_TAB`. -/
def hdlcFcsTab : List Nat :=
  [0x0000,
    0x1189, 0x2312, 0x329b, 0x4624, 0x57ad, 0x6536, 0x74bf, 0x8c48,
    0x9dc1, 0xaf5a, 0xbed3, 0xca6c, 0xdbe5, 0xe97e, 0xf8f7, 0x1081,
    0x0108, 0x3393, 0x221a, 0x56a5, 0x472c, 0x75b7, 0x643e, 0x9cc9,
    0x8d40, 0xbfdb, 0xae52, 0xdaed, 0xcb64, 0xf9ff, 0xe876, 0x2102,
    0x308b, 0x0210, 0x1399, 0x6726, 0x76af, 0x4434, 0x55bd, 0xad4a,
    0xbcc3, 0x8e58, 0x9fd1, 0xeb6e, 0xfae7, 0xc87c, 0xd9f5, 0x3183,
    0x200a, 0x1291, 0x0318, 0x77a7, 0x662e, 0x54b5, 0x453c, 0xbdcb,
    0xac42, 0x9ed9, 0x8f50, 0xfbef, 0xea66, 0xd8fd, 0xc974, 0x4204,
    0x538d, 0x6116, 0x709f, 0x0420, 0x15a9, 0x2732, 0x36bb, 0xce4c,
    0xdfc5, 0xed5e, 0xfcd7, 0x8868, 0x99e1, 0xab7a, 0xbaf3, 0x5285,
    0x430c, 0x7197, 0x601e, 0x14a1, 0x0528, 0x37b3, 0x263a, 0xdecd,
    0xcf44, 0xfddf, 0xec56, 0x98e9, 0x8960, 0xbbfb, 0xaa72, 0x6306,
    0x728f, 0x4014, 0x519d, 0x2522, 0x34ab, 0x0630, 0x17b9, 0xef4e,
    0xfec7, 0xcc5c, 0xddd5, 0xa96a, 0xb8e3, 0x8a78, 0x9bf1, 0x7387,
    0x620e, 0x5095, 0x411c, 0x35a3, 0x242a, 0x16b1, 0x0738, 0xffcf,
    0xee46, 0xdcdd, 0xcd54, 0xb9eb, 0xa862, 0x9af9, 0x8b70, 0x8408,
    0x9581, 0xa71a, 0xb693, 0xc22c, 0xd3a5, 0xe13e, 0xf0b7, 0x0840,
    0x19c9, 0x2b52, 0x3adb, 0x4e64, 0x5fed, 0x6d76, 0x7cff, 0x9489,
    0x8500, 0xb79b, 0xa612, 0xd2ad, 0xc324, 0xf1bf, 0xe036, 0x18c1,
    0x0948, 0x3bd3, 0x2a5a, 0x5ee5, 0x4f6c, 0x7df7, 0x6c7e, 0xa50a,
    0xb483, 0x8618, 0x9791, 0xe32e, 0xf2a7, 0xc03c, 0xd1b5, 0x2942,
    0x38cb, 0x0a50, 0x1bd9, 0x6f66, 0x7eef, 0x4c74, 0x5dfd, 0xb58b,
    0xa402, 0x9699, 0x8710, 0xf3af, 0xe226, 0xd0bd, 0xc134, 0x39c3,
    0x284a, 0x1ad1, 0x0b58, 0x7fe7, 0x6e6e, 0x5cf5, 0x4d7c, 0xc60c,
    0xd785, 0xe51e, 0xf497, 0x8028, 0x91a1, 0xa33a, 0xb2b3, 0x4a44,
    0x5bcd, 0x6956, 0x78df, 0x0c60, 0x1de9, 0x2f72, 0x3efb, 0xd68d,
    0xc704, 0xf59f, 0xe416, 0x90a9, 0x8120, 0xb3bb, 0xa232, 0x5ac5,
    0x4b4c, 0x79d7, 0x685e, 0x1ce1, 0x0d68, 0x3ff3, 0x2e7a, 0xe70e,
    0xf687, 0xc41c, 0xd595, 0xa12a, 0xb0a3, 0x8238, 0x93b1, 0x6b46,
    0x7acf, 0x4854, 0x59dd, 0x2d62, 0x3ceb, 0x0e70, 0x1ff9, 0xf78f,
    0xe606, 0xd49d, 0xc514, 0xb1ab, 0xa022, 0x92b9, 0x8330, 0x7bc7,
    0x6a4e, 0x58d5, 0x495c, 0x3de3, 0x2c6a, 0x1ef1, 0x0f78]

/-- `HDLC_BIT_TAB`. -/
def hdlcBitTab : List Nat :=
  [0x0100,
    0x0201, 0x0100, 0x0302, 0x0100, 0x0201, 0x0100, 0x0403, 0x0100,
    0x0201, 0x0100, 0x0302, 0x0100, 0x0201, 0x0100, 0x0504, 0x0100,
    0x0201, 0x0100, 0x0302, 0x0100, 0x0201, 0x0100, 0x0403, 0x0100,
    0x0201, 0x0100, 0x0302, 0x0100, 0x0201, 0x0100, 0x0605, 0x0100,
    0x0201, 0x0100, 0x0302, 0x0100, 0x0201, 0x0100, 0x0403, 0x0100,
    0x0201, 0x0100, 0x0302, 0x0100, 0x0201, 0x0100, 0x0504, 0x0100,
    0x0201, 0x0100, 0x0302, 0x0100, 0x0201, 0x0100, 0x0403, 0x0100,
    0x0201, 0x0100, 0x0302, 0x0100, 0x0201, 0x0160, 0x0706, 0x0100,
    0x0201, 0x0100, 0x0302, 0x0100, 0x0201, 0x0100, 0x0403, 0x0100,
    0x0201, 0x0100, 0x0302, 0x0100, 0x0201, 0x0100, 0x0504, 0x0100,
    0x0201, 0x0100, 0x0302, 0x0100, 0x0201, 0x0100, 0x0403, 0x0100,
    0x0201, 0x0100, 0x0302, 0x0100, 0x0201, 0x0100, 0x0605, 0x0100,
    0x0201, 0x0100, 0x0302, 0x0100, 0x0201, 0x0100, 0x0403, 0x0100,
    0x0201, 0x0100, 0x0302, 0x0100, 0x0201, 0x0100, 0x0504, 0x0100,
    0x0201, 0x0100, 0x0302, 0x0100, 0x0201, 0x0100, 0x0403, 0x0100,
    0x0201, 0x0100, 0x0302, 0x01a0, 0x02a1, 0x0860, 0x0807, 0x1100,
    0x1201, 0x1100, 0x1302, 0x1100, 0x1201, 0x1100, 0x1403, 0x1100,
    0x1201, 0x1100, 0x1302, 0x1100, 0x1201, 0x1100, 0x1504, 0x1100,
    0x1201, 0x1100, 0x1302, 0x1100, 0x1201, 0x1100, 0x1403, 0x1100,
    0x1201, 0x1100, 0x1302, 0x1100, 0x1201, 0x1100, 0x1605, 0x1100,
    0x1201, 0x1100, 0x1302, 0x1100, 0x1201, 0x1100, 0x1403, 0x1100,
    0x1201, 0x1100, 0x1302, 0x1100, 0x1201, 0x1100, 0x1504, 0x1100,
    0x1201, 0x1100, 0x1302, 0x1100, 0x1201, 0x1100, 0x1403, 0x1100,
    0x1201, 0x1100, 0x1302, 0x1100, 0x1201, 0x1160, 0x1706, 0x2100,
    0x2201, 0x2100, 0x2302, 0x2100, 0x2201, 0x2100, 0x2403, 0x2100,
    0x2201, 0x2100, 0x2302, 0x2100, 0x2201, 0x2100, 0x2504, 0x2100,
    0x2201, 0x2100, 0x2302, 0x2100, 0x2201, 0x2100, 0x2403, 0x2100,
    0x2201, 0x2100, 0x2302, 0x2100, 0x2201, 0x2100, 0x2605, 0x3100,
    0x3201, 0x3100, 0x3302, 0x3100, 0x3201, 0x3100, 0x3403, 0x3100,
    0x3201, 0x3100, 0x3302, 0x3100, 0x3201, 0x3100, 0x3504, 0x4100,
    0x4201, 0x4100, 0x4302, 0x4100, 0x4201, 0x4100, 0x4403, 0x5100,
    0x5201, 0x5100, 0x5302, 0x6180, 0x6281, 0x7150, 0x8908]

/-- The table entry of a byte. -/
def fcsTab (b : Nat) : Nat := hdlcFcsTab.getD b 0

/-- The table entry of a byte. -/
def bitTab (b : Nat) : Nat := hdlcBitTab.getD b 0

/-- A lookup is a digit of one number.  The checks over all bytes go through this number: the kernel
divides at once, where it would walk down the list. -/
theorem getD_eq_digit {tab : List Nat} (hlt : ∀ x ∈ tab, x < 65536)
    (hlast : ∀ h : tab ≠ [], tab.getLast h ≠ 0) (b : Nat) :
    tab.getD b 0 = Nat.ofDigits 65536 tab / 65536 ^ b % 65536 := by
  have hdigits : Nat.digits 65536 (Nat.ofDigits 65536 tab) = tab :=
    Nat.digits_ofDigits 65536 (by decide) tab hlt hlast
  rw [← Nat.getD_digits _ _ (by decide), hdigits]

theorem fcsTab_eq_digit (b : Nat) :
    fcsTab b = Nat.ofDigits 65536 hdlcFcsTab / 65536 ^ b % 65536 :=
  getD_eq_digit (by decide +kernel) (by decide +kernel) b

theorem bitTab_eq_digit (b : Nat) :
    bitTab b = Nat.ofDigits 65536 hdlcBitTab / 65536 ^ b % 65536 :=
  getD_eq_digit (by decide +kernel) (by decide +kernel) b

/-! ## The frame check sequence -/

/-- `crc = (HDLC_FCS_TAB[LO8(crc ^ b)] ^ (LO8(crc >> 8)))`. -/
def fcsStep (crc b : Nat) : Nat := fcsTab (lo8 (crc ^^^ b)) ^^^ lo8 (crc >>> 8)

/-- The frame check of a byte string, started from `0xffff` as both macros do. -/
def fcsFold (p : List UInt8) : Nat := p.foldl (fun crc b => fcsStep crc b.toNat) 0xffff

/-- The two check bytes the encoder appends to a frame: the complement, low byte first. -/
def fcsBytes (p : List UInt8) : List UInt8 :=
  [UInt8.ofNat (fcsFold p ^^^ 0xffff), UInt8.ofNat ((fcsFold p ^^^ 0xffff) >>> 8)]

@[simp] theorem length_fcsBytes (p : List UInt8) : (fcsBytes p).length = 2 := rfl

theorem fcsFold_append_singleton (p : List UInt8) (b : UInt8) :
    fcsFold (p ++ [b]) = fcsStep (fcsFold p) b.toNat := by
  rw [fcsFold, List.foldl_append]
  rfl

theorem fcsTab_lt (b : Nat) : fcsTab b < 2 ^ 16 := by
  rw [fcsTab_eq_digit]
  exact Nat.mod_lt _ (by decide)

theorem fcsStep_lt (crc b : Nat) : fcsStep crc b < 2 ^ 16 :=
  Nat.xor_lt_two_pow (fcsTab_lt _) (Nat.lt_of_lt_of_le (Nat.mod_lt _ (by decide)) (by decide))

theorem fcsFold_lt (p : List UInt8) : fcsFold p < 2 ^ 16 := by
  induction p using List.reverseRecOn with
  | nil => decide
  | append_singleton p b _ => rw [fcsFold_append_singleton]; exact fcsStep_lt _ _

/-- **The residue of a good frame.**  The first check byte brings the low half of the register to
`0xff` and the second the other half, so nothing of the frame is left in the result. -/
theorem fcs_residue (p : List UInt8) : fcsFold (p ++ fcsBytes p) = 0xf0b8 := by
  have hc : fcsFold p < 2 ^ 16 := fcsFold_lt p
  generalize hcdef : fcsFold p = c at hc
  have hsplit : p ++ fcsBytes p
      = (p ++ [UInt8.ofNat (c ^^^ 0xffff)]) ++ [UInt8.ofNat ((c ^^^ 0xffff) >>> 8)] := by
    rw [fcsBytes, hcdef, List.append_assoc]
    rfl
  have hlow : lo8 (c ^^^ (UInt8.ofNat (c ^^^ 0xffff)).toNat) = 0xff := by
    rw [UInt8.toNat_ofNat', lo8, show (256 : Nat) = 2 ^ 8 from rfl, Nat.xor_mod_two_pow,
      Nat.mod_mod, Nat.xor_mod_two_pow, ← Nat.xor_assoc, Nat.xor_self]
    rfl
  have hhi : c >>> 8 < 2 ^ 8 := by rw [Nat.shiftRight_eq_div_pow]; omega
  generalize hh : c >>> 8 = h at hhi
  have hb : (UInt8.ofNat ((c ^^^ 0xffff) >>> 8)).toNat = h ^^^ 0xff := by
    rw [UInt8.toNat_ofNat', Nat.shiftRight_xor_distrib, hh]
    exact Nat.mod_eq_of_lt (Nat.xor_lt_two_pow hhi (by decide))
  have hstep : fcsFold (p ++ [UInt8.ofNat (c ^^^ 0xffff)]) = fcsTab 0xff ^^^ h := by
    rw [fcsFold_append_singleton, hcdef, fcsStep, hlow, hh, lo8, show (256 : Nat) = 2 ^ 8 from rfl,
      Nat.mod_eq_of_lt hhi]
  have hidx : lo8 (fcsTab 0xff ^^^ h ^^^ (h ^^^ 0xff)) = lo8 (fcsTab 0xff) ^^^ 0xff := by
    rw [Nat.xor_assoc, ← Nat.xor_assoc h, Nat.xor_self, Nat.zero_xor, lo8, lo8,
      show (256 : Nat) = 2 ^ 8 from rfl, Nat.xor_mod_two_pow]
  have hrest : lo8 ((fcsTab 0xff ^^^ h) >>> 8) = lo8 (fcsTab 0xff >>> 8) := by
    have hz : h >>> 8 = 0 := by rw [Nat.shiftRight_eq_div_pow]; exact Nat.div_eq_of_lt hhi
    rw [Nat.shiftRight_xor_distrib, hz, Nat.xor_zero]
  rw [hsplit, fcsFold_append_singleton, hstep, fcsStep, hb, hidx, hrest]
  decide

end Hdlc
end Isdn4bsd
