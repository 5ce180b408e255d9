import Mathlib.Data.Rat.Cast.Order
import Isdn4bsd.Lib.Resonator
import Isdn4bsd.Dtmf.Sqrt
import Isdn4bsd.Dtmf.Generate

/-!
# DTMF: the detector

`i4b_dtmf_detect` collects 102 samples, and runs them through one filter for each frequency.  All of it is
signed 32-bit arithmetic, so that here each operation has a result only if it fits.

* `Tuned` : what a filter is after so many samples, a resonator with a bounded input.
* `gain_le` : **the coefficients**: none of the filters can leave the range within 102 samples.
* `goertzel_tuned`, `energy_tuned` : **one sample**, and **what the root is taken of**.
* `detect_energies` : **no operation overflows**, and no energy is negative.
* `toneCode`, `jitter`, `putCode` : from the energies of a block to the digits that are put.

## The argument

A filter is a recursion of second order whose poles are on the unit circle: it does not grow by itself, but an input
at its frequency adds up, sample by sample.  How much it can add up to in 102 samples is the sum of its impulse
response (`Lib.Resonator`), and for each of the coefficients in the table this is a number that can be computed
(`gain_le`).  The two divisions of the source cut towards zero; what they cut off counts as part of the input
(`drive`), so that the recursion of the code is the exact one with an input that is a little larger.

The energy is a quadratic form of the two last values.  With exact values it would be positive and bounded by the
energy of the input; the values are divided by 128 and cut before it is computed, and `form_tdiv_le` says how
much that can change.  It also has to be shown that the result is not negative, since its root is that of an
unsigned number.

Before the filters the samples are scaled by an automatic gain, which follows their size and has a range of its
own (`agc_some`, `normalize_some`).
-/

set_option autoImplicit false

namespace Isdn4bsd
namespace Dtmf

open Resonator

/-- `K`. -/
def K : List ℤ :=
  [27980, 26956, 25701, 24219, 19073, 16325, 13085, 9315,
    14739, 11221, 7549, 3032, -10565, -16503, -22318, -27472,
    21281, -2571]

/-- `i4b_ulaw_to_signed`. -/
def i4bUlawToSigned : List ℕ :=
  [0x8284, 0x7d7c, 0xf8a4, 0x075c, 0xe104, 0x1efc, 0xfe8c, 0x0174,
    0xc184, 0x3e7c, 0xfc94, 0x036c, 0xf0c4, 0x0f3c, 0xff88, 0x0078,
    0xa284, 0x5d7c, 0xfaa4, 0x055c, 0xe904, 0x16fc, 0xff0c, 0x00f4,
    0xd184, 0x2e7c, 0xfd94, 0x026c, 0xf4c4, 0x0b3c, 0xffc8, 0x0038,
    0x9284, 0x6d7c, 0xf9a4, 0x065c, 0xe504, 0x1afc, 0xfecc, 0x0134,
    0xc984, 0x367c, 0xfd14, 0x02ec, 0xf2c4, 0x0d3c, 0xffa8, 0x0058,
    0xb284, 0x4d7c, 0xfba4, 0x045c, 0xed04, 0x12fc, 0xff4c, 0x00b4,
    0xd984, 0x267c, 0xfe14, 0x01ec, 0xf6c4, 0x093c, 0xffe8, 0x0018,
    0x8a84, 0x757c, 0xf924, 0x06dc, 0xe304, 0x1cfc, 0xfeac, 0x0154,
    0xc584, 0x3a7c, 0xfcd4, 0x032c, 0xf1c4, 0x0e3c, 0xff98, 0x0068,
    0xaa84, 0x557c, 0xfb24, 0x04dc, 0xeb04, 0x14fc, 0xff2c, 0x00d4,
    0xd584, 0x2a7c, 0xfdd4, 0x022c, 0xf5c4, 0x0a3c, 0xffd8, 0x0028,
    0x9a84, 0x657c, 0xfa24, 0x05dc, 0xe704, 0x18fc, 0xfeec, 0x0114,
    0xcd84, 0x327c, 0xfd54, 0x02ac, 0xf3c4, 0x0c3c, 0xffb8, 0x0048,
    0xba84, 0x457c, 0xfc24, 0x03dc, 0xef04, 0x10fc, 0xff6c, 0x0094,
    0xdd84, 0x227c, 0xfe54, 0x01ac, 0xf7c4, 0x083c, 0xfff8, 0x0008,
    0x8684, 0x797c, 0xf8e4, 0x071c, 0xe204, 0x1dfc, 0xfe9c, 0x0164,
    0xc384, 0x3c7c, 0xfcb4, 0x034c, 0xf144, 0x0ebc, 0xff90, 0x0070,
    0xa684, 0x597c, 0xfae4, 0x051c, 0xea04, 0x15fc, 0xff1c, 0x00e4,
    0xd384, 0x2c7c, 0xfdb4, 0x024c, 0xf544, 0x0abc, 0xffd0, 0x0030,
    0x9684, 0x697c, 0xf9e4, 0x061c, 0xe604, 0x19fc, 0xfedc, 0x0124,
    0xcb84, 0x347c, 0xfd34, 0x02cc, 0xf344, 0x0cbc, 0xffb0, 0x0050,
    0xb684, 0x497c, 0xfbe4, 0x041c, 0xee04, 0x11fc, 0xff5c, 0x00a4,
    0xdb84, 0x247c, 0xfe34, 0x01cc, 0xf744, 0x08bc, 0xfff0, 0x0010,
    0x8e84, 0x717c, 0xf964, 0x069c, 0xe404, 0x1bfc, 0xfebc, 0x0144,
    0xc784, 0x387c, 0xfcf4, 0x030c, 0xf244, 0x0dbc, 0xffa0, 0x0060,
    0xae84, 0x517c, 0xfb64, 0x049c, 0xec04, 0x13fc, 0xff3c, 0x00c4,
    0xd784, 0x287c, 0xfdf4, 0x020c, 0xf644, 0x09bc, 0xffe0, 0x0020,
    0x9e84, 0x617c, 0xfa64, 0x059c, 0xe804, 0x17fc, 0xfefc, 0x0104,
    0xcf84, 0x307c, 0xfd74, 0x028c, 0xf444, 0x0bbc, 0xffc0, 0x0040,
    0xbe84, 0x417c, 0xfc64, 0x039c, 0xf004, 0x0ffc, 0xff7c, 0x0084,
    0xdf84, 0x207c, 0xfe74, 0x018c, 0xf844, 0x07bc, 0x0000, 0x0000]

/-- `i4b_alaw_to_signed`. -/
def i4bAlawToSigned : List ℕ :=
  [0xea80, 0x1580, 0xfea8, 0x0158, 0xaa00, 0x5600, 0xfaa0, 0x0560,
    0xf540, 0x0ac0, 0xffa8, 0x0058, 0xd500, 0x2b00, 0xfd50, 0x02b0,
    0xe280, 0x1d80, 0xfe28, 0x01d8, 0x8a00, 0x7600, 0xf8a0, 0x0760,
    0xf140, 0x0ec0, 0xff28, 0x00d8, 0xc500, 0x3b00, 0xfc50, 0x03b0,
    0xee80, 0x1180, 0xfee8, 0x0118, 0xba00, 0x4600, 0xfba0, 0x0460,
    0xf740, 0x08c0, 0xffe8, 0x0018, 0xdd00, 0x2300, 0xfdd0, 0x0230,
    0xe680, 0x1980, 0xfe68, 0x0198, 0x9a00, 0x6600, 0xf9a0, 0x0660,
    0xf340, 0x0cc0, 0xff68, 0x0098, 0xcd00, 0x3300, 0xfcd0, 0x0330,
    0xe880, 0x1780, 0xfe88, 0x0178, 0xa200, 0x5e00, 0xfa20, 0x05e0,
    0xf440, 0x0bc0, 0xff88, 0x0078, 0xd100, 0x2f00, 0xfd10, 0x02f0,
    0xe080, 0x1f80, 0xfe08, 0x01f8, 0x8200, 0x7e00, 0xf820, 0x07e0,
    0xf040, 0x0fc0, 0xff08, 0x00f8, 0xc100, 0x3f00, 0xfc10, 0x03f0,
    0xec80, 0x1380, 0xfec8, 0x0138, 0xb200, 0x4e00, 0xfb20, 0x04e0,
    0xf640, 0x09c0, 0xffc8, 0x0038, 0xd900, 0x2700, 0xfd90, 0x0270,
    0xe480, 0x1b80, 0xfe48, 0x01b8, 0x9200, 0x6e00, 0xf920, 0x06e0,
    0xf240, 0x0dc0, 0xff48, 0x00b8, 0xc900, 0x3700, 0xfc90, 0x0370,
    0xeb80, 0x1480, 0xfeb8, 0x0148, 0xae00, 0x5200, 0xfae0, 0x0520,
    0xf5c0, 0x0a40, 0xffb8, 0x0048, 0xd700, 0x2900, 0xfd70, 0x0290,
    0xe380, 0x1c80, 0xfe38, 0x01c8, 0x8e00, 0x7200, 0xf8e0, 0x0720,
    0xf1c0, 0x0e40, 0xff38, 0x00c8, 0xc700, 0x3900, 0xfc70, 0x0390,
    0xef80, 0x1080, 0xfef8, 0x0108, 0xbe00, 0x4200, 0xfbe0, 0x0420,
    0xf7c0, 0x0840, 0xfff8, 0x0008, 0xdf00, 0x2100, 0xfdf0, 0x0210,
    0xe780, 0x1880, 0xfe78, 0x0188, 0x9e00, 0x6200, 0xf9e0, 0x0620,
    0xf3c0, 0x0c40, 0xff78, 0x0088, 0xcf00, 0x3100, 0xfcf0, 0x0310,
    0xe980, 0x1680, 0xfe98, 0x0168, 0xa600, 0x5a00, 0xfa60, 0x05a0,
    0xf4c0, 0x0b40, 0xff98, 0x0068, 0xd300, 0x2d00, 0xfd30, 0x02d0,
    0xe180, 0x1e80, 0xfe18, 0x01e8, 0x8600, 0x7a00, 0xf860, 0x07a0,
    0xf0c0, 0x0f40, 0xff18, 0x00e8, 0xc300, 0x3d00, 0xfc30, 0x03d0,
    0xed80, 0x1280, 0xfed8, 0x0128, 0xb600, 0x4a00, 0xfb60, 0x04a0,
    0xf6c0, 0x0940, 0xffd8, 0x0028, 0xdb00, 0x2500, 0xfdb0, 0x0250,
    0xe580, 0x1a80, 0xfe58, 0x01a8, 0x9600, 0x6a00, 0xf960, 0x06a0,
    0xf2c0, 0x0d40, 0xff58, 0x00a8, 0xcb00, 0x3500, 0xfcb0, 0x0350]

/-- A byte of the line, as a sample. -/
def decode (bsubprot : Bsubprot) (byte : UInt8) : ℤ :=
  (Int16.ofNat ((if bsubprot = .g711Alaw then i4bAlawToSigned else i4bUlawToSigned).getD
    byte.toNat 0)).toInt

/-- The result of a signed 32-bit operation, if it fits. -/
def int32 (x : ℤ) : Option ℤ :=
  if -2147483648 ≤ x ∧ x ≤ 2147483647 then some x else none

/-- The gain, one sample later. -/
def agc (maxGain sample : ℤ) : Option ℤ := do
  let sample ← if sample < 0 then int32 (-sample) else some sample
  return if sample > maxGain then (if sample > 0x7FFF then 0x7FFF else sample) else maxGain

/-- A sample, with the gain. -/
def normalize (maxGain sample : ℤ) : Option ℤ := do
  let sample8000 ← int32 (sample * 0x8000)
  let sample7FFF ← int32 (sample8000 - sample)
  let sample ← int32 (sample7FFF.tdiv maxGain)
  return if sample > 0x7FFF then 0x7FFF else if sample < -0x7FFF then -0x7FFF else sample

/-- One of the filters. -/
structure Filter where
  k : ℤ
  w0 : ℤ
  w1 : ℤ

/-- One sample for a filter. -/
def goertzel (sample : ℤ) (f : Filter) : Option Filter := do
  let product ← int32 (f.k * f.w1.tdiv 128)
  let ahead ← int32 (product.tdiv 128 - f.w0)
  let w2 ← int32 (ahead + sample)
  return { f with w0 := f.w1, w1 := w2 }

/-- What the root is taken of. -/
def energy (f : Filter) : Option ℤ := do
  let w0 := f.w0.tdiv 128
  let w1 := f.w1.tdiv 128
  let square0 ← int32 (w0 * w0)
  let square1 ← int32 (w1 * w1)
  let sum ← int32 (square0 + square1)
  let product ← int32 (f.k * w0)
  let cross ← int32 (product.tdiv 128 * w1.tdiv 128)
  int32 (sum - cross)

/-- A block of samples, up to the energies. -/
def energies (bsubprot : Bsubprot) (buffer : List UInt8) : Option (List ℤ) := do
  let samples := buffer.map (decode bsubprot)
  let maxGain ← samples.foldlM agc 0x1000
  let filters ← samples.foldlM (fun filters sample => do
    let sample ← normalize maxGain sample
    filters.mapM (goertzel sample)) (K.map fun k => ⟨k, 0, 0⟩)
  filters.mapM energy

/-! ## What is detected -/

/-- The three highest values. -/
def highest (w2 : List ℕ) : ℕ × ℕ × ℕ :=
  w2.foldl (fun (max0, max1, max2) w =>
    if max0 < w then (w, max0, max1)
    else if max1 < w then (max0, w, max1)
    else if max2 < w then (max0, max1, w)
    else (max0, max1, max2)) (0, 0, 0)

/-- A bit for each of the frequencies that are there. -/
def bitsWhere (p : ℕ → Bool) (w2 : List ℕ) : ℕ :=
  (w2.zipIdx.map fun (w, n) => if p w then 1 <<< n else 0).foldl (· ||| ·) 0

/-- `found`. -/
def found (w2 : List ℕ) : ℕ :=
  let (max0, max1, max2) := highest w2
  if max0 ≥ 5000 ∧ max1 ≥ max0 / 2 ∧ max2 < max0 / 2 then bitsWhere (fun w => w ≥ max1) w2
  else if max0 ≥ 10000 ∧ max1 < max0 / 2 then bitsWhere (fun w => w = max0) w2
  else 0

/-- `code_to_ascii`. -/
def codeToAscii : List UInt8 :=
  [0x31, 0x34, 0x37, 0x2A, 0x32, 0x35, 0x38, 0x30, 0x33, 0x36, 0x39, 0x23, 0x41, 0x42, 0x43, 0x44]

/-- The number of the only bit. -/
def onlyBit : ℕ → Option ℕ
  | 1 => some 0
  | 2 => some 1
  | 4 => some 2
  | 8 => some 3
  | _ => none

/-- The digit of two tones, or `X` and `Y` for the tones of a fax. -/
def toneCode (detectedFaxOrModem : Bool) (found : ℕ) : UInt8 :=
  if found = 1 <<< 16 then (if detectedFaxOrModem then 0 else 0x58)
  else if found = 1 <<< 17 then (if detectedFaxOrModem then 0 else 0x59)
  else
    match onlyBit (found &&& 0xF) with
    | none => 0
    | some low =>
      if found &&& 0xFFFFFF00 ≠ 0 then 0
      else
        match onlyBit ((found >>> 4) &&& 0xF) with
        | none => 0
        | some high => codeToAscii.getD (low ||| high <<< 2) 0

/-- The fields of `struct i4b_dtmf_info_rx` that tell which codes were found. -/
structure DtmfCodes where
  code : UInt8
  codeCount : ℕ
  noCodeCount : ℕ
  detectedFaxOrModem : Bool

/-- A block that had no code is taken for one that had, up to two times. -/
def jitter (rx : DtmfCodes) (code : UInt8) : DtmfCodes × UInt8 :=
  if code = 0 ∧ rx.noCodeCount < 2 then ({ rx with noCodeCount := rx.noCodeCount + 1 }, rx.code)
  else ({ rx with noCodeCount := 0 }, code)

/-- From the code of a block to the codes that are put. -/
def putCode (rx : DtmfCodes) (code : UInt8) : DtmfCodes × List UInt8 :=
  let rx := if code ≠ rx.code then { rx with code := code, codeCount := 0 } else rx
  let next := if rx.codeCount ≠ 255 then rx.codeCount + 1 else rx.codeCount
  if code = 0x58 ∨ code = 0x59 then
    if rx.codeCount = 14 then ({ rx with detectedFaxOrModem := true, codeCount := next }, [code])
    else ({ rx with codeCount := next }, [])
  else if code ≠ 0 then
    ({ rx with codeCount := next }, if rx.codeCount = 1 then [code] else [])
  else (rx, [])

/-! ## Bounds -/

theorem int32_eq {x : ℤ} (h : |x| ≤ 2147483647) : int32 x = some x := by
  have := abs_le.mp h
  exact if_pos ⟨by omega, by omega⟩

theorem abs_decode_le (bsubprot : Bsubprot) (byte : UInt8) : |decode bsubprot byte| ≤ 0x8000 := by
  rw [decode, abs_le]
  have hlo := Int16.le_toInt
    (Int16.ofNat ((if bsubprot = .g711Alaw then i4bAlawToSigned else i4bUlawToSigned).getD
      byte.toNat 0))
  have hhi := Int16.toInt_lt
    (Int16.ofNat ((if bsubprot = .g711Alaw then i4bAlawToSigned else i4bUlawToSigned).getD
      byte.toNat 0))
  omega

/-- A number that is cut towards zero. -/
theorem tdiv_bounds (x : ℤ) {n : ℤ} (hn : 0 < n) :
    |x - n * x.tdiv n| < n ∧ n * |x.tdiv n| ≤ |x| ∧ 0 ≤ x * x.tdiv n := by
  have hsplit := Int.mul_tdiv_add_tmod x n
  refine ⟨?_, ?_, ?_⟩
  · have h : x - n * x.tdiv n = x.tmod n := by omega
    rw [h, abs_lt]
    exact ⟨by have := Int.lt_tmod_of_pos x hn; omega, Int.tmod_lt_of_pos x hn⟩
  · have h : n * |x.tdiv n| = |x| - |x.tmod n| := by
      rw [← abs_of_pos hn, ← abs_mul, abs_of_pos hn]
      rcases le_total 0 x with hx | hx
      · rw [abs_of_nonneg hx, abs_of_nonneg (Int.tmod_nonneg n hx),
          abs_of_nonneg (mul_nonneg hn.le (Int.tdiv_nonneg hx hn.le))]
        omega
      · have hneg : x.tdiv n ≤ 0 := by
          have := Int.tdiv_nonneg (neg_nonneg.mpr hx) hn.le
          rw [Int.neg_tdiv] at this
          omega
        have hmod : x.tmod n ≤ 0 := by
          have := Int.tmod_nonneg n (neg_nonneg.mpr hx)
          rw [Int.neg_tmod] at this
          omega
        rw [abs_of_nonpos hx, abs_of_nonpos hmod,
          abs_of_nonpos (mul_nonpos_of_nonneg_of_nonpos hn.le hneg)]
        omega
    have := abs_nonneg (x.tmod n)
    omega
  · rcases le_total 0 x with hx | hx
    · exact mul_nonneg hx (Int.tdiv_nonneg hx hn.le)
    · have := Int.tdiv_nonneg (neg_nonneg.mpr hx) hn.le
      rw [Int.neg_tdiv] at this
      exact mul_nonneg_of_nonpos_of_nonpos hx (by omega)

theorem agc_some {maxGain sample : ℤ} (hg : 0x1000 ≤ maxGain ∧ maxGain ≤ 0x7FFF)
    (hs : |sample| ≤ 0x8000) :
    ∃ maxGain', agc maxGain sample = some maxGain' ∧ 0x1000 ≤ maxGain' ∧ maxGain' ≤ 0x7FFF := by
  have hneg : int32 (-sample) = some (-sample) := int32_eq (by rw [abs_neg]; omega)
  have habs := abs_le.mp hs
  rw [agc]
  by_cases h0 : sample < 0
  · refine ⟨_, by rw [if_pos h0, hneg]; rfl, ?_⟩
    split_ifs <;> omega
  · refine ⟨_, by rw [if_neg h0]; rfl, ?_⟩
    split_ifs <;> omega

theorem normalize_some {maxGain sample : ℤ} (hg : 0x1000 ≤ maxGain ∧ maxGain ≤ 0x7FFF)
    (hs : |sample| ≤ 0x8000) :
    ∃ sample', normalize maxGain sample = some sample' ∧ |sample'| ≤ 0x7FFF := by
  have habs := abs_le.mp hs
  have h1 : |sample * 0x8000| ≤ 2147483647 := abs_le.mpr ⟨by omega, by omega⟩
  have h2 : |sample * 0x8000 - sample| ≤ 2147483647 := abs_le.mpr ⟨by omega, by omega⟩
  have h3 : |(sample * 0x8000 - sample).tdiv maxGain| ≤ 2147483647 := by
    have hpos : 0 < maxGain := by omega
    have hle := (tdiv_bounds (sample * 0x8000 - sample) hpos).2.1
    have hnn := abs_nonneg ((sample * 0x8000 - sample).tdiv maxGain)
    nlinarith
  rw [normalize, int32_eq h1, Option.bind_eq_bind, Option.bind_some, int32_eq h2, Option.bind_some,
    int32_eq h3]
  refine ⟨_, rfl, ?_⟩
  rw [abs_le]
  split_ifs <;> omega

/-! ## The filters -/

/-- The coefficient as what it stands for. -/
def coefficient (k : ℤ) : ℚ := k / (16384 : ℤ)

/-- The input of a filter: the sample, and what the two divisions cut off. -/
def drive (k : ℤ) : ℚ := 32768 + |(k : ℚ)| / 128

/-- A filter after so many samples. -/
structure Tuned (n : ℕ) (f : Filter) : Prop where
  mem : f.k ∈ K
  driven : Driven (coefficient f.k) (drive f.k) n f.w0 f.w1

theorem drive_nonneg (k : ℤ) : 0 ≤ drive k := by
  rw [drive]
  positivity

theorem abs_K_le {k : ℤ} (hk : k ∈ K) : |k| ≤ 27980 := by
  revert k
  decide

theorem coefficient_sq_le {k : ℤ} (hk : k ∈ K) : coefficient k ^ 2 ≤ 4 := by
  have h := abs_K_le hk
  have hq : |(k : ℚ)| ≤ 27980 := by exact_mod_cast h
  have hc : |coefficient k| ≤ 2 := by
    rw [coefficient, abs_div, abs_of_pos (show (0 : ℚ) < ((16384 : ℤ) : ℚ) by norm_num),
      div_le_iff₀ (by norm_num)]
    push_cast
    linarith
  calc coefficient k ^ 2 ≤ 2 ^ 2 := sq_le_sq' (abs_le.mp hc).1 (abs_le.mp hc).2
    _ = 4 := by norm_num

/-- The sums of the impulse responses, with the powers of the denominator. -/
theorem scaled_le : ∀ k ∈ K,
    (128 * 32768 + |k|) * (scaled k 16384 102).2.2 ≤ 128 * 4194303 * 16384 ^ 101 :=
  List.forall_iff_forall_mem.mp (by decide +kernel)

/-- **The coefficients**: within 102 samples no filter leaves the range. -/
theorem gain_le {k : ℤ} (hk : k ∈ K) : drive k * gain (coefficient k) 102 ≤ 4194303 := by
  have h : ((128 * 32768 + |k| : ℤ) : ℚ) * gain (coefficient k) 102 ≤ ((128 * 4194303 : ℤ) : ℚ) :=
    mul_gain_le (by decide) (scaled_le k hk)
  push_cast at h
  rw [drive]
  linarith

/-- A filter does not leave the range. -/
theorem Tuned.bounds {n : ℕ} {f : Filter} (h : Tuned n f) (hn : n ≤ 102) :
    |f.w0| ≤ 4194303 ∧ |f.w1| ≤ 4194303 := by
  have hg : drive f.k * gain (coefficient f.k) n ≤ 4194303 :=
    (mul_le_mul_of_nonneg_left (gain_mono _ hn) (drive_nonneg _)).trans (gain_le h.mem)
  have h0 := (h.driven.abs_left_le (drive_nonneg _)).trans hg
  have h1 := h.driven.abs_le.trans hg
  exact ⟨by exact_mod_cast h0, by exact_mod_cast h1⟩

theorem abs_mul_le {x y a b : ℤ} (hx : |x| ≤ a) (hy : |y| ≤ b) : |x * y| ≤ a * b := by
  rw [abs_mul]
  exact mul_le_mul hx hy (abs_nonneg y) ((abs_nonneg x).trans hx)

theorem abs_tdiv_le {x n a b : ℤ} (hn : 0 < n) (hx : |x| ≤ a) (hab : a < n * (b + 1)) :
    |x.tdiv n| ≤ b := by
  have h := (tdiv_bounds x hn).2.1
  have hlt : n * |x.tdiv n| < n * (b + 1) := by omega
  have := lt_of_mul_lt_mul_left hlt hn.le
  omega

/-- **One sample for a filter.** -/
theorem goertzel_tuned {n : ℕ} {f : Filter} {sample : ℤ} (h : Tuned n f) (hn : n < 102)
    (hs : |sample| ≤ 0x7FFF) : ∃ f', goertzel sample f = some f' ∧ Tuned (n + 1) f' := by
  obtain ⟨hw0, hw1⟩ := h.bounds hn.le
  have hk := abs_K_le h.mem
  have ht : |f.w1.tdiv 128| ≤ 32767 := abs_tdiv_le (by decide) hw1 (by decide)
  have hproduct : |f.k * f.w1.tdiv 128| ≤ 27980 * 32767 := abs_mul_le hk ht
  have hp : |(f.k * f.w1.tdiv 128).tdiv 128| ≤ 7162661 :=
    abs_tdiv_le (by decide) hproduct (by decide)
  have hp' := abs_le.mp hp
  have hw0' := abs_le.mp hw0
  have hs' := abs_le.mp hs
  have hahead : |(f.k * f.w1.tdiv 128).tdiv 128 - f.w0| ≤ 2147483647 :=
    abs_le.mpr ⟨by omega, by omega⟩
  have hw2 : |(f.k * f.w1.tdiv 128).tdiv 128 - f.w0 + sample| ≤ 2147483647 :=
    abs_le.mpr ⟨by omega, by omega⟩
  refine ⟨{ f with w0 := f.w1, w1 := (f.k * f.w1.tdiv 128).tdiv 128 - f.w0 + sample }, ?_,
    h.mem, h.driven.step ?_⟩
  · rw [goertzel, int32_eq (hproduct.trans (by decide)), Option.bind_eq_bind, Option.bind_some,
      int32_eq hahead, Option.bind_some, int32_eq hw2]
    rfl
  · -- what the divisions cut off, times 16384
    have hcut0 := (tdiv_bounds f.w1 (show (0 : ℤ) < 128 by decide)).1
    have hcut1 := (tdiv_bounds (f.k * f.w1.tdiv 128) (show (0 : ℤ) < 128 by decide)).1
    obtain ⟨r0, hr0⟩ : ∃ r, r = f.w1 - 128 * f.w1.tdiv 128 := ⟨_, rfl⟩
    obtain ⟨r1, hr1⟩ : ∃ r, r = f.k * f.w1.tdiv 128 - 128 * (f.k * f.w1.tdiv 128).tdiv 128 := ⟨_, rfl⟩
    rw [← hr0] at hcut0
    rw [← hr1] at hcut1
    have hkr : |f.k * r0| ≤ |f.k| * 128 := abs_mul_le le_rfl hcut0.le
    have hsplit : 16384 * ((f.k * f.w1.tdiv 128).tdiv 128 - f.w0 + sample) -
        (f.k * f.w1 - 16384 * f.w0) = 16384 * sample - f.k * r0 - 128 * r1 := by
      rw [hr0, hr1]
      ring
    have hint : |16384 * ((f.k * f.w1.tdiv 128).tdiv 128 - f.w0 + sample) -
        (f.k * f.w1 - 16384 * f.w0)| ≤ 16384 * 32768 + 128 * |f.k| := by
      rw [hsplit, abs_le]
      have hkr' := abs_le.mp hkr
      have hcut1' := abs_lt.mp hcut1
      constructor <;> omega
    generalize (f.k * f.w1.tdiv 128).tdiv 128 - f.w0 + sample = w2 at hint
    have hcast : |16384 * (w2 : ℚ) - (f.k * f.w1 - 16384 * f.w0)| ≤ 16384 * 32768 + 128 * |(f.k : ℚ)| := by
      exact_mod_cast hint
    have hscale : (w2 : ℚ) - (coefficient f.k * f.w1 - f.w0) =
        (16384 * (w2 : ℚ) - (f.k * f.w1 - 16384 * f.w0)) / 16384 := by
      rw [coefficient]
      push_cast
      ring
    change |(w2 : ℚ) - (coefficient f.k * f.w1 - f.w0)| ≤ drive f.k
    rw [hscale, abs_div, abs_of_pos (show (0 : ℚ) < 16384 by norm_num), div_le_iff₀ (by norm_num), drive]
    linarith

/-- The energy of a pair, each divided by 128 and cut. -/
theorem form_tdiv_le {n : ℕ} {f : Filter} (h : Tuned n f) (hn : n ≤ 102) :
    form (coefficient f.k) (f.w0.tdiv 128 : ℤ) (f.w1.tdiv 128 : ℤ) ≤ 2147483647 := by
  have hc := coefficient_sq_le h.mem
  have hform := h.driven.form_le hc
  have hdrive : n * drive f.k ≤ 102 * 32987 := by
    have hk : |(f.k : ℚ)| ≤ 27980 := by exact_mod_cast abs_K_le h.mem
    have hn' : (n : ℚ) ≤ 102 := by exact_mod_cast hn
    refine mul_le_mul hn' ?_ (drive_nonneg _) (by norm_num)
    rw [drive]
    linarith
  have hcut : ∀ x : ℤ, ∃ e : ℚ, (x.tdiv 128 : ℤ) = 1 / 128 * (x : ℚ) + e ∧ |e| ≤ 1 := by
    intro x
    have h1 := (tdiv_bounds x (show (0 : ℤ) < 128 by decide)).1
    have h2 : |(x : ℚ) - 128 * (x.tdiv 128 : ℤ)| < 128 := by exact_mod_cast h1
    refine ⟨(x.tdiv 128 : ℤ) - 1 / 128 * (x : ℚ), by ring, ?_⟩
    rw [abs_lt] at h2
    exact abs_le.mpr ⟨by linarith, by linarith⟩
  obtain ⟨e0, he0, hle0⟩ := hcut f.w0
  obtain ⟨e1, he1, hle1⟩ := hcut f.w1
  have hsmall : form (coefficient f.k) e0 e1 ≤ 4 := by
    have h4 := form_add_form (coefficient f.k) e0 e1 e0 (-e1)
    have hlo := form_nonneg hc e0 (-e1)
    have hsq0 : e0 ^ 2 ≤ 1 := (sq_le_one_iff_abs_le_one e0).mpr hle0
    have hsq1 : e1 ^ 2 ≤ 1 := (sq_le_one_iff_abs_le_one e1).mpr hle1
    have hboth : form (coefficient f.k) e0 e1 + form (coefficient f.k) e0 (-e1) =
        2 * e0 ^ 2 + 2 * e1 ^ 2 := by
      rw [form, form]
      ring
    linarith
  have hsq : (n * drive f.k) ^ 2 ≤ (102 * 32987) ^ 2 :=
    pow_le_pow_left₀ (mul_nonneg (Nat.cast_nonneg n) (drive_nonneg _)) hdrive 2
  rw [he0, he1]
  refine (form_add_le hc _ _ _ _).trans ?_
  rw [form_smul]
  have hnum : 2 * ((1 / 128 : ℚ) ^ 2 * (102 * 32987) ^ 2) + 2 * 4 ≤ 2147483647 := by norm_num
  nlinarith

/-- **What the root is taken of** fits, and is not negative. -/
theorem energy_tuned {n : ℕ} {f : Filter} (h : Tuned n f) (hn : n ≤ 102) :
    ∃ e, energy f = some e ∧ 0 ≤ e := by
  obtain ⟨hw0, hw1⟩ := h.bounds hn
  have hk := abs_K_le h.mem
  have hform := form_tdiv_le h hn
  have ha : |f.w0.tdiv 128| ≤ 32767 := abs_tdiv_le (by decide) hw0 (by decide)
  have hb : |f.w1.tdiv 128| ≤ 32767 := abs_tdiv_le (by decide) hw1 (by decide)
  rw [energy]
  generalize f.w0.tdiv 128 = a at ha hform
  generalize f.w1.tdiv 128 = b at hb hform
  have hcut0 := tdiv_bounds (f.k * a) (show (0 : ℤ) < 128 by decide)
  have hcut1 := tdiv_bounds b (show (0 : ℤ) < 128 by decide)
  have haa : |a * a| ≤ 32767 * 32767 := abs_mul_le ha ha
  have hbb : |b * b| ≤ 32767 * 32767 := abs_mul_le hb hb
  have hproduct : |f.k * a| ≤ 27980 * 32767 := abs_mul_le hk ha
  have hp : |(f.k * a).tdiv 128| ≤ 7162661 := abs_tdiv_le (by decide) hproduct (by decide)
  have hq : |b.tdiv 128| ≤ 255 := abs_tdiv_le (by decide) hb (by decide)
  have hcross : |(f.k * a).tdiv 128 * b.tdiv 128| ≤ 7162661 * 255 := abs_mul_le hp hq
  have haa' := abs_le.mp haa
  have hbb' := abs_le.mp hbb
  -- the cross term is at most twice the product of both values
  have hcut : 16384 * |(f.k * a).tdiv 128 * b.tdiv 128| ≤ |f.k * a * b| := by
    have hmul := mul_le_mul hcut0.2.1 hcut1.2.1 (by positivity) (abs_nonneg (f.k * a))
    rw [abs_mul, abs_mul (f.k * a) b]
    linarith
  have hlow : |(f.k * a).tdiv 128 * b.tdiv 128| ≤ 2 * (|a| * |b|) := by
    have hkab : |f.k * a * b| ≤ 27980 * (|a| * |b|) := by
      rw [mul_assoc, abs_mul, abs_mul a b]
      exact mul_le_mul_of_nonneg_right hk (mul_nonneg (abs_nonneg a) (abs_nonneg b))
    have hab : 0 ≤ |a| * |b| := mul_nonneg (abs_nonneg a) (abs_nonneg b)
    omega
  have hsquares : 2 * (|a| * |b|) ≤ a * a + b * b := by
    have h2 := two_mul_le_add_sq |a| |b|
    rw [sq_abs, sq_abs] at h2
    linarith
  have hnonneg : 0 ≤ a * a + b * b - (f.k * a).tdiv 128 * b.tdiv 128 := by
    have := le_abs_self ((f.k * a).tdiv 128 * b.tdiv 128)
    omega
  have hupper : a * a + b * b - (f.k * a).tdiv 128 * b.tdiv 128 ≤ 2147483647 := by
    rcases le_or_gt 0 ((f.k * a).tdiv 128 * b.tdiv 128) with hpos | hneg
    · omega
    · -- the signs of the factors are those of the values they come from
      have hsign : 0 ≤ (f.k * a * b) * ((f.k * a).tdiv 128 * b.tdiv 128) := by
        have := mul_nonneg hcut0.2.2 hcut1.2.2
        linarith
      have hle : f.k * a * b ≤ 0 := nonpos_of_mul_nonneg_left hsign hneg
      rw [abs_of_neg hneg, abs_of_nonpos hle] at hcut
      have hexp : form (coefficient f.k) a b = ((16384 * (a * a + b * b) - f.k * a * b : ℤ) : ℚ) / 16384 := by
        rw [form, coefficient]
        push_cast
        ring
      rw [hexp, div_le_iff₀ (by norm_num)] at hform
      have hint : 16384 * (a * a + b * b) - f.k * a * b ≤ 2147483647 * 16384 := by exact_mod_cast hform
      omega
  refine ⟨a * a + b * b - (f.k * a).tdiv 128 * b.tdiv 128, ?_, hnonneg⟩
  rw [int32_eq (haa.trans (by decide)), Option.bind_eq_bind, Option.bind_some,
    int32_eq (hbb.trans (by decide)), Option.bind_some, int32_eq (abs_le.mpr ⟨by omega, by omega⟩),
    Option.bind_some, int32_eq (hproduct.trans (by decide)), Option.bind_some,
    int32_eq (hcross.trans (by decide)), Option.bind_some]
  exact int32_eq (abs_le.mpr ⟨by omega, hupper⟩)

/-! ## A block -/

/-- A step that succeeds on what has a property succeeds on a list of them. -/
theorem mapM_some {α β : Type*} {g : α → Option β} {P : α → Prop} {Q : β → Prop}
    (h : ∀ x, P x → ∃ y, g x = some y ∧ Q y) {xs : List α} (hxs : ∀ x ∈ xs, P x) :
    ∃ ys, xs.mapM g = some ys ∧ ys.length = xs.length ∧ ∀ y ∈ ys, Q y := by
  induction xs with
  | nil => exact ⟨[], rfl, rfl, by simp⟩
  | cons x xs ih =>
    obtain ⟨y, hy, hQ⟩ := h x (hxs x List.mem_cons_self)
    obtain ⟨ys, hys, hlen, hall⟩ := ih fun x hx => hxs x (List.mem_cons_of_mem _ hx)
    refine ⟨y :: ys, ?_, congrArg Nat.succ hlen, List.forall_mem_cons.mpr ⟨hQ, hall⟩⟩
    rw [List.mapM_cons, hy, hys]
    rfl

theorem foldlM_agc_some {samples : List ℤ} {maxGain : ℤ} (hg : 0x1000 ≤ maxGain ∧ maxGain ≤ 0x7FFF)
    (hs : ∀ s ∈ samples, |s| ≤ 0x8000) :
    ∃ maxGain', samples.foldlM agc maxGain = some maxGain' ∧ 0x1000 ≤ maxGain' ∧ maxGain' ≤ 0x7FFF := by
  induction samples generalizing maxGain with
  | nil => exact ⟨maxGain, rfl, hg⟩
  | cons s samples ih =>
    obtain ⟨next, hnext, hrange⟩ := agc_some hg (hs s List.mem_cons_self)
    rw [List.foldlM_cons, hnext]
    exact ih hrange fun s hs' => hs s (List.mem_cons_of_mem _ hs')

/-- The filters stay tuned. -/
theorem foldlM_goertzel_some {maxGain : ℤ} (hg : 0x1000 ≤ maxGain ∧ maxGain ≤ 0x7FFF)
    {samples : List ℤ} (hs : ∀ s ∈ samples, |s| ≤ 0x8000) {n : ℕ} {filters : List Filter}
    (hn : n + samples.length ≤ 102) (hf : ∀ f ∈ filters, Tuned n f) :
    ∃ filters', samples.foldlM (fun filters sample => do
        let sample ← normalize maxGain sample
        filters.mapM (goertzel sample)) filters = some filters' ∧
      filters'.length = filters.length ∧ ∀ f ∈ filters', Tuned (n + samples.length) f := by
  induction samples generalizing n filters with
  | nil => exact ⟨filters, rfl, rfl, hf⟩
  | cons s samples ih =>
    rw [List.length_cons] at hn
    obtain ⟨s', hs', habs⟩ := normalize_some hg (hs s List.mem_cons_self)
    obtain ⟨next, hnext, hlen, htuned⟩ :=
      mapM_some (fun f hf => goertzel_tuned (n := n) hf (by omega) habs) hf
    obtain ⟨filters', hrun, hlen', htuned'⟩ :=
      ih (fun s hs' => hs s (List.mem_cons_of_mem _ hs')) (by omega) htuned
    refine ⟨filters', ?_, hlen'.trans hlen, ?_⟩
    · rw [List.foldlM_cons, hs']
      change (filters.mapM (goertzel s')).bind _ = _
      rw [hnext]
      exact hrun
    · rwa [List.length_cons, ← Nat.add_assoc, Nat.add_right_comm]

theorem energies_some (bsubprot : Bsubprot) {buffer : List UInt8} (h : buffer.length ≤ 102) :
    ∃ es, energies bsubprot buffer = some es ∧ es.length = K.length ∧ ∀ e ∈ es, 0 ≤ e := by
  have hs : ∀ s ∈ buffer.map (decode bsubprot), |s| ≤ 0x8000 := by
    intro s hs
    obtain ⟨byte, -, rfl⟩ := List.mem_map.mp hs
    exact abs_decode_le bsubprot byte
  obtain ⟨maxGain, hgain, hrange⟩ := foldlM_agc_some ⟨le_rfl, by decide⟩ hs
  have hrest : ∀ f ∈ K.map fun k => (⟨k, 0, 0⟩ : Filter), Tuned 0 f := by
    intro f hf
    obtain ⟨k, hk, rfl⟩ := List.mem_map.mp hf
    exact ⟨hk, by simpa using Driven.rest⟩
  obtain ⟨filters, hfilters, hlen, htuned⟩ := foldlM_goertzel_some hrange hs
    (by rw [List.length_map]; omega) hrest
  obtain ⟨es, hes, hlen', hpos⟩ := mapM_some
    (fun f hf => energy_tuned hf (by rw [List.length_map]; omega)) htuned
  refine ⟨es, ?_, ?_, hpos⟩
  · rw [energies, hgain, Option.bind_eq_bind, Option.bind_some, hfilters]
    exact hes
  · rw [hlen', hlen, List.length_map]

/-- **No operation overflows**, and no root is taken of a negative number. -/
theorem detect_energies (bsubprot : Bsubprot) (buffer : Vector UInt8 102) :
    ∃ es, energies bsubprot buffer.toList = some es ∧ es.length = K.length ∧ ∀ e ∈ es, 0 ≤ e :=
  energies_some bsubprot (by rw [Vector.length_toList])

/-- Every energy has a root. -/
theorem roots_some (es : List ℤ) :
    ∃ w2, (es.mapM fun e => i4bSqrt32 16 (UInt32.ofInt e)) = some w2 := by
  have hroot : ∀ e : ℤ, True → ∃ r, i4bSqrt32 16 (UInt32.ofInt e) = some r ∧ True := by
    intro e _
    obtain ⟨r, hr, -⟩ := i4bSqrt32_root (UInt32.ofInt e)
    exact ⟨r, hr 16 le_rfl, trivial⟩
  obtain ⟨w2, hw2, -, -⟩ := mapM_some hroot fun e (_ : e ∈ es) => trivial
  exact ⟨w2, hw2⟩

end Dtmf
end Isdn4bsd
