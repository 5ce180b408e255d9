import Isdn4bsd.Lib.BitStuff
import Isdn4bsd.Hdlc.Tables

/-!
# The software HDLC decoder

`HDLC_DECODE` of `i4b_hdlc.h` takes a byte from the line at a time.  One table lookup, with the
run of ones carried over from the byte before, tells whether the byte ends a flag, aborts the frame
or carries data, and which inserted zeros have to come out of it (`destuff`).  The data bits go into
a shift register, and when it holds a byte that is stored and run through the frame check.

The reference is the bit-at-a-time receiver `BitStuff.Rx`, and `Decoder.Tracks` says what the
decoder's variables hold after a whole number of bytes in terms of it.

* `destuff_spec` is the table lookup: for every byte and every run of ones it finds the data bits
  and the flags the reference finds.
* `Decoder.Tracks.step` and `Decoder.Tracks.run` are the simulation, a byte and a run.  They need
  the line to be one a receiver may rely on (`Rx.Oks`), and say nothing about aborts.

## The macro as functions

`HDLC_DECODE` is a `switch` with labels in the middle, and commands of the caller are pasted into it.  Each label is a
function here, under a name that says what it does, with the label in its docstring, and what the commands do to
buffers is left to `Isdn4bsd.Hdlc.Safety` and `Isdn4bsd.Hdlc.Chunks`.

`flag` counts the bytes of a frame and says at the same time where in a frame the decoder is; `len` counts down the
room in the buffer, and wraps around in 16 bits.  A frame is longer than what is stored of it by the two bytes of its
check sequence, for which there need be no room.

## The simulation

After a whole number of bytes the reference has some bits of a byte that is not complete: these are in the register.
The bytes it has collected are in the buffer, but for those that do not fit.  And the check register is that of all
bytes so far.  A frame is complete for both at the same flag, since both find it in the bits.
-/

set_option autoImplicit false

namespace Isdn4bsd
namespace Hdlc

open Bits BitStuff

/-- The variables of `HDLC_DECODE` that are suspended between two executions, and the receive
buffer. -/
structure Decoder where
  /-- Where in the frame the decoder is (`uint8_t`): 0 is hunt mode, 1 after a flag. -/
  flag : Nat
  /-- Bits in the shift register (`uint8_t`). -/
  blevel : Nat
  /-- Frame check sequence so far (`uint16_t`). -/
  crc : Nat
  /-- Ones carried over from the byte before (`uint16_t`). -/
  ib : Nat
  /-- The shift register (`uint16_t`). -/
  tmp : Nat
  /-- Bytes that may still be written to `dst` (`uint16_t`). -/
  len : Nat
  /-- `m_len` of the receive buffer. -/
  mlen : Nat
  /-- The bytes written to it. -/
  buf : List UInt8
  deriving DecidableEq, Repr

/-- Zero is the default value of every variable. -/
def Decoder.zero : Decoder := ⟨0, 0, 0, 0, 0, 0, 0, []⟩

/-- The commands of `HDLC_DECODE` that end a frame. -/
inductive Event where
  /-- `cfr`: the frame `m_len - len` bytes long, and `crc`. -/
  | cfr (frame : List UInt8) (crc : Nat)
  /-- `rab`, read abort. -/
  | rab
  /-- `rdo`, read data overflow. -/
  | rdo
  deriving DecidableEq, Repr

/-! ## The table lookup -/

/-- What the decoder finds in a byte: `ib` and `tmp2` with the inserted zeros taken out, and how
often `blevel` was decreased.  `plain` is a byte that needs no further look. -/
inductive Found where
  | plain (ib : Nat)
  | data (ib tmp2 drop : Nat)
  | flag (ib tmp2 : Nat)
  | abort (ib tmp2 drop : Nat)
  deriving DecidableEq, Repr

/-- The tests that follow `ib &= ~0xe0`. -/
def destuffLsb (ib tmp2 drop : Nat) : Found :=
  if lo8 ib = 6 then .flag ib tmp2
  else if 7 ≤ lo8 ib then .abort ib tmp2 drop
  else if lo8 ib = 5 then .data ib ((tmp2 ||| (tmp2 + 1)) &&& 0xfffe) (drop + 1)
  else .data ib tmp2 drop

/-- From the table lookup to the EO-bits test. -/
def destuff (ib tmp2 : Nat) : Found :=
  let ib := (ib + bitTab (lo8 tmp2)) % 2 ^ 16
  if 5 ≤ lo8 ib then
    if ib &&& 0x20 ≠ 0 then
      if lo8 tmp2 = 0x7e then .flag ib tmp2
      else
        let ib := (ib + 0x100) % 2 ^ 16
        let tmp2 := tmp2 + (tmp2 &&& 0x7f)
        destuffLsb (ib &&& 0xff1f) (if ib &&& 0xc ≠ 0 then tmp2 ||| 1 else tmp2) 1
    else destuffLsb (ib &&& 0xff1f) tmp2 0
  else .plain ib

/-! ## The step -/

namespace Decoder

/-- Label `j00`: the frame is complete. -/
def complete (s : Decoder) : Decoder × List Event :=
  let crc := s.crc ^^^ 0xf0b8
  let len := (s.len + ((4 + 2 ^ 8 - s.flag) &&& 3)) % 2 ^ 16
  let n := (s.mlen + 2 ^ 16 - len) % 2 ^ 16
  ({ s with crc := crc, len := 0 }, [.cfr (s.buf.take n) crc])

/-- What follows a flag: the bits after it in the byte are the start of the next frame. -/
def restart (s : Decoder) (ib tmp2 : Nat) : Decoder :=
  let blevel := (ib >>> 8) &&& 0xf
  { s with flag := 1, tmp := lo8 tmp2 >>> blevel, blevel := 8 - blevel, ib := ib >>> 12 }

/-- Label `j0`. -/
def flagSeq (s : Decoder) (ib tmp2 : Nat) : Decoder × List Event :=
  if 2 ≤ s.flag then (s.complete.1.restart ib tmp2, s.complete.2) else (s.restart ib tmp2, [])

/-- The abort branch; a frame may end in a single flag that is followed by ones. -/
def abort (s : Decoder) (ib tmp2 drop : Nat) : Decoder × List Event :=
  let s := { s with blevel := (s.blevel + 2 ^ 8 - drop) % 2 ^ 8 }
  if 2 ≤ s.flag then
    if lo8 ib = 0x16 then (s.complete.1.restart ib tmp2, s.complete.2)
    else ({ s with len := 0, flag := 0, ib := ib >>> 12 }, [.rab])
  else ({ s with flag := 0, ib := ib >>> 12 }, [])

/-- Label `j4`. -/
def check (s : Decoder) : Decoder := { s with crc := fcsStep s.crc s.tmp }

/-- Label `j3`. -/
def write (s : Decoder) : Decoder :=
  { s with buf := s.buf ++ [UInt8.ofNat s.tmp], len := s.len - 1 }.check

/-- `case 2`, with what `nfr` did: a buffer of `m` bytes, or none. -/
def newFrame (s : Decoder) : Option Nat → Decoder
  | some m =>
    let s := { s with flag := 2, mlen := m, len := m, buf := [], crc := 0xffff }
    if s.len = 0 then { s with flag := 3 }.check else s.write
  | none => { s with flag := 0, crc := 0xffff }.check

/-- The register holds a byte: store it, or count it as part of the check sequence. -/
def store (nfr : Option Nat) (s : Decoder) : Decoder × List Event :=
  if s.len ≠ 0 then (s.write, [])
  else if s.flag = 0 then (s, [])
  else
    match (s.flag + 1) % 2 ^ 8 with
    | 2 => (s.newFrame nfr, [])
    | 3 => ({ s with flag := 3 }.check, [])
    | 4 => ({ s with flag := 4 }.check, [])
    | 5 => ({ s with flag := 0 }, [.rdo])
    | f => ({ s with flag := f }, [])

/-- Label `j5`. -/
def shift (s : Decoder) (ib : Nat) : Decoder := { s with ib := ib >>> 12, tmp := s.tmp >>> 8 }

/-- A byte with no zeros to take out, or whose bits fill the register. -/
def full (nfr : Option Nat) (s : Decoder) (ib tmp2 blevel : Nat) : Decoder × List Event :=
  let r := { s with blevel := blevel, tmp := s.tmp ||| (lo8 tmp2 <<< blevel) % 2 ^ 16 }.store nfr
  (r.1.shift ib, r.2)

/-- EO-bits: fewer than eight bits are in the register. -/
def eoBits (s : Decoder) (ib tmp2 blevel : Nat) : Decoder :=
  let blevel := blevel &&& 7
  { s with
    blevel := blevel
    tmp := s.tmp ||| (if blevel &&& 1 ≠ 0 then lo8 tmp2 >>> 1 else lo8 tmp2 >>> 2)
    ib := ib >>> 12 }

end Decoder

/-- `HDLC_DECODE`; `nfr` is the buffer the next frame will get. -/
def hdlcDecode (nfr : Option Nat) (s : Decoder) (b : UInt8) : Decoder × List Event :=
  match destuff s.ib b.toNat with
  | .plain ib => s.full nfr ib b.toNat s.blevel
  | .data ib tmp2 drop =>
    let blevel := (s.blevel + 2 ^ 8 - drop) % 2 ^ 8
    if 7 < blevel then (s.eoBits ib tmp2 blevel, []) else s.full nfr ib tmp2 blevel
  | .flag ib tmp2 => s.flagSeq ib tmp2
  | .abort ib tmp2 drop => s.abort ib tmp2 drop

/-- The loop of `rx_hdlc_emulation`, with receive buffers of `m` bytes. -/
def decodeRun (m : Nat) : Decoder → List UInt8 → Decoder × List Event
  | s, [] => (s, [])
  | s, b :: bs =>
    let r := hdlcDecode (some m) s b
    let q := decodeRun m r.1 bs
    (q.1, r.2 ++ q.2)

/-! ## The lookup finds what the reference finds -/

/-- `tmp2` holds the data bits `pre` above `drop` bits of no meaning.  Those are zero, but for the
one on top: where the byte before ended in a one it may be set, and will coincide with that. -/
def Holds (c tmp2 drop : Nat) (pre : List Bool) : Prop :=
  lo8 tmp2 = 2 ^ drop * ofBits pre ∨
    1 ≤ c ∧ 1 ≤ drop ∧ lo8 tmp2 = 2 ^ (drop - 1) + 2 ^ drop * ofBits pre

instance (c tmp2 drop : Nat) (pre : List Bool) : Decidable (Holds c tmp2 drop pre) :=
  inferInstanceAs (Decidable (_ ∨ _))

/-- The lookup agrees with a scan of the byte's bits. -/
def agrees (c b : Nat) : Found → Scan → Bool
  | .plain ib, .data pre ones => decide (pre = bitsOf 8 b ∧ ib >>> 12 = ones)
  | .data ib tmp2 drop, .data pre ones =>
    decide (drop ≤ 2 ∧ pre.length + drop = 8 ∧ ib >>> 12 = ones ∧ Holds c tmp2 drop pre)
  | .flag ib tmp2, .flag pre post ones =>
    decide (pre.length ≤ 7 ∧ post.length ≤ 7 ∧ (ib >>> 8) &&& 0xf = 8 - post.length ∧
      lo8 tmp2 >>> (8 - post.length) = ofBits post ∧ ib >>> 12 = ones)
  | _, .other => true
  | _, _ => false

/-- **The table lookup is the bit-at-a-time receiver**, for every byte and every run of ones. -/
theorem destuff_spec : ∀ c < 7, ∀ b < 256,
    agrees c b (destuff c b) (scan c [] none (bitsOf 8 b)) = true := by
  intro c hc
  simp only [destuff, bitTab_eq_digit]
  interval_cases c
  all_goals decide +kernel

section Register

variable {c tmp2 drop : Nat} {rest pre : List Bool}

/-- What is or-ed onto the register, brought into place: the data bits above those that are there,
and perhaps the top one of those again. -/
theorem ofBits_lor_holds (hlast : 1 ≤ c → rest ≠ [] → rest.getLast? = some true) {x : Nat}
    (hx : x = 2 ^ rest.length * ofBits pre ∨
      1 ≤ c ∧ rest ≠ [] ∧ x = 2 ^ (rest.length - 1) + 2 ^ rest.length * ofBits pre) :
    ofBits rest ||| x = ofBits (rest ++ pre) := by
  rw [ofBits_append]
  rcases hx with rfl | ⟨hc, hne, rfl⟩
  · have hlor := ofBits_lor_shiftLeft rest (ofBits pre)
    rwa [Nat.shiftLeft_eq, Nat.mul_comm (ofBits pre)] at hlor
  · exact ofBits_lor_overlap (hlast hc hne) _

theorem lor_full (hlast : 1 ≤ c → rest ≠ [] → rest.getLast? = some true)
    (h : Holds c tmp2 drop pre) (hrest : rest.length < 8) (hdrop : drop ≤ rest.length) :
    ofBits rest ||| (lo8 tmp2 <<< (rest.length - drop)) % 2 ^ 16 = ofBits (rest ++ pre) := by
  have hlo : lo8 tmp2 < 2 ^ 8 := Nat.mod_lt _ (by decide)
  have hpow : 2 ^ (rest.length - drop) ≤ 2 ^ 7 := Nat.pow_le_pow_right (by decide) (by omega)
  have hsmall : lo8 tmp2 * 2 ^ (rest.length - drop) < 2 ^ 16 :=
    calc lo8 tmp2 * 2 ^ (rest.length - drop) ≤ 2 ^ 8 * 2 ^ 7 := Nat.mul_le_mul hlo.le hpow
      _ < 2 ^ 16 := by decide
  have hmul : 2 ^ drop * 2 ^ (rest.length - drop) = 2 ^ rest.length := by
    rw [← Nat.pow_add, Nat.add_sub_cancel' hdrop]
  rw [Nat.shiftLeft_eq, Nat.mod_eq_of_lt hsmall]
  apply ofBits_lor_holds hlast
  rcases h with h | ⟨hc, hd, h⟩
  · left
    rw [h, Nat.mul_right_comm, hmul]
  · right
    refine ⟨hc, List.ne_nil_of_length_pos (by omega), ?_⟩
    rw [h, Nat.add_mul, Nat.mul_right_comm, hmul, ← Nat.pow_add]
    congr 2
    omega

theorem lor_eoBits (hlast : 1 ≤ c → rest ≠ [] → rest.getLast? = some true)
    (h : Holds c tmp2 drop pre) (hdrop : rest.length < drop) :
    ofBits rest ||| (lo8 tmp2 >>> (drop - rest.length)) = ofBits (rest ++ pre) := by
  have hmul : 2 ^ drop = 2 ^ (drop - rest.length) * 2 ^ rest.length := by
    rw [← Nat.pow_add, Nat.sub_add_cancel hdrop.le]
  have hpos : 0 < 2 ^ (drop - rest.length) := Nat.two_pow_pos _
  rw [Nat.shiftRight_eq_div_pow]
  apply ofBits_lor_holds hlast
  rcases h with h | ⟨hc, hd, h⟩
  · left
    rw [h, hmul, Nat.mul_assoc, Nat.mul_div_cancel_left _ hpos]
  · rw [h, hmul, Nat.mul_assoc, Nat.add_mul_div_left _ _ hpos]
    by_cases hne : rest = []
    · left
      subst hne
      have hzero : 2 ^ (drop - 1) / 2 ^ (drop - 0) = 0 :=
        Nat.div_eq_of_lt (Nat.pow_lt_pow_right (by decide) (by omega))
      rw [List.length_nil, hzero, Nat.zero_add]
    · right
      have hlen : 0 < rest.length := List.length_pos_iff.mpr hne
      have hsplit : 2 ^ (drop - 1) = 2 ^ (rest.length - 1) * 2 ^ (drop - rest.length) := by
        rw [← Nat.pow_add]
        congr 1
        omega
      refine ⟨hc, hne, ?_⟩
      rw [hsplit, Nat.mul_div_cancel _ hpos]

end Register

/-! ## Storing a byte, and the end of a frame -/

/-- The bytes `out` of a frame have been taken, into a buffer of `m` bytes: those beyond it are
counted in `flag`, since a frame may end with two bytes of check sequence that need no room. -/
structure Decoder.Stored (m : Nat) (d : Decoder) (out : List UInt8) : Prop where
  start : out = [] → d.flag = 1 ∧ d.len = 0
  buffer : out ≠ [] → d.mlen = m ∧ d.buf = out.take m ∧ d.crc = fcsFold out
  count : out ≠ [] →
    (out.length ≤ m ∧ d.flag = 2 ∧ d.len = m - out.length) ∨
    (out.length = m + 1 ∧ d.flag = 3 ∧ d.len = 0) ∨ (out.length = m + 2 ∧ d.flag = 4 ∧ d.len = 0)

/-- The event a frame of the bytes `out` causes.  Two bytes are the check sequence; a frame of a
single byte is handed over with it, since `m_len - len` wraps around. -/
def delivered (out : List UInt8) : List Event :=
  if out = [] then []
  else [.cfr (out.take (if 2 ≤ out.length then out.length - 2 else out.length))
    (fcsFold out ^^^ 0xf0b8)]

theorem fcsStep_lo8 (crc b : Nat) : fcsStep crc (lo8 b) = fcsStep crc b := by
  have hlo : lo8 (crc ^^^ lo8 b) = lo8 (crc ^^^ b) := by
    rw [lo8, lo8, lo8, show (256 : Nat) = 2 ^ 8 from rfl, Nat.xor_mod_two_pow, Nat.mod_mod,
      ← Nat.xor_mod_two_pow]
  rw [fcsStep, fcsStep, hlo]

theorem fcsStep_ofNat (p : List UInt8) (x : Nat) :
    fcsStep (fcsFold p) x = fcsFold (p ++ [UInt8.ofNat x]) := by
  rw [fcsFold_append_singleton, UInt8.toNat_ofNat', ← fcsStep_lo8]
  rfl

namespace Decoder.Stored

variable {m : Nat} {d : Decoder} {out : List UInt8}

theorem write_spec (hlen : out.length < m) (hmlen : d.mlen = m) (hbuf : d.buf = out.take m)
    (hcrc : d.crc = fcsFold out) (hflag : d.flag = 2) (hrem : d.len = m - out.length) :
    d.write.Stored m (out ++ [UInt8.ofNat d.tmp]) := by
  refine ⟨fun h => absurd h (by simp), fun _ => ⟨hmlen, ?_, ?_⟩, fun _ => .inl ⟨?_, hflag, ?_⟩⟩
  · rw [write, check, hbuf, List.take_of_length_le (by omega),
      List.take_of_length_le (by rw [List.length_append, List.length_singleton]; omega)]
  · rw [write, check, hcrc, fcsStep_ofNat]
  · rw [List.length_append, List.length_singleton]
    omega
  · rw [write, check, List.length_append, List.length_singleton]
    simp only
    omega

theorem check_spec (hmlen : d.mlen = m) (hbuf : d.buf = out.take m) (hcrc : d.crc = fcsFold out)
    {f : Nat} (h : m ≤ out.length)
    (hcount : (out.length = m ∧ f = 3 ∧ d.len = 0) ∨ (out.length = m + 1 ∧ f = 4 ∧ d.len = 0)) :
    ({ d with flag := f }.check).Stored m (out ++ [UInt8.ofNat d.tmp]) := by
  refine ⟨fun h => absurd h (by simp), fun _ => ⟨hmlen, ?_, ?_⟩, fun _ => .inr ?_⟩
  · rw [check, hbuf, List.take_append_of_le_length h]
  · rw [check, hcrc, fcsStep_ofNat]
  · rw [List.length_append, List.length_singleton]
    rcases hcount with ⟨hn, hf, hl⟩ | ⟨hn, hf, hl⟩
    · exact .inl ⟨by omega, hf, hl⟩
    · exact .inr ⟨by omega, hf, hl⟩

/-- **A byte is stored**, as long as the frame is not longer than the buffer and its check. -/
theorem store_spec (h : d.Stored m out) (hlen : out.length < m + 2) :
    (d.store (some m)).2 = [] ∧ (d.store (some m)).1.Stored m (out ++ [UInt8.ofNat d.tmp]) := by
  by_cases hout : out = []
  · obtain ⟨hflag, hzero⟩ := h.start hout
    subst hout
    have hstore : d.store (some m) = (d.newFrame (some m), []) := by
      rw [store, hflag, hzero]
      rfl
    rw [hstore]
    refine ⟨rfl, ?_⟩
    by_cases hm : m = 0
    · subst hm
      exact check_spec (d := { d with flag := 2, mlen := 0, len := 0, buf := [], crc := 0xffff })
        rfl rfl rfl (Nat.le_refl 0) (.inl ⟨rfl, rfl, rfl⟩)
    · have hnew : d.newFrame (some m)
          = write { d with flag := 2, mlen := m, len := m, buf := [], crc := 0xffff } := by
        rw [newFrame]
        simp only [if_neg hm]
      rw [hnew]
      exact write_spec (Nat.pos_of_ne_zero hm) rfl List.take_nil.symm rfl rfl rfl
  · obtain ⟨hmlen, hbuf, hcrc⟩ := h.buffer hout
    rcases h.count hout with ⟨hn, hf, hl⟩ | ⟨hn, hf, hl⟩ | ⟨hn, hf, hl⟩
    · by_cases hfull : out.length = m
      · have hzero : d.len = 0 := by omega
        have hstore : d.store (some m) = ({ d with flag := 3 }.check, []) := by
          rw [store, hzero, hf]
          rfl
        rw [hstore]
        exact ⟨rfl, check_spec hmlen hbuf hcrc hfull.ge (.inl ⟨hfull, rfl, hzero⟩)⟩
      · have hne : d.len ≠ 0 := by omega
        rw [store, if_pos hne]
        exact ⟨rfl, write_spec (by omega) hmlen hbuf hcrc hf hl⟩
    · have hstore : d.store (some m) = ({ d with flag := 4 }.check, []) := by
        rw [store, hl, hf]
        rfl
      rw [hstore]
      exact ⟨rfl, check_spec hmlen hbuf hcrc (by omega) (.inr ⟨hn, rfl, hl⟩)⟩
    · omega

/-- **The frame is handed over** without its check sequence. -/
theorem complete_spec (h : d.Stored m out) (hne : out ≠ []) (hm : 1 ≤ m) (hm' : m + 1 < 2 ^ 16) :
    d.complete.2 = delivered out := by
  obtain ⟨hmlen, hbuf, hcrc⟩ := h.buffer hne
  have hpos : 0 < out.length := List.length_pos_iff.mpr hne
  rw [complete, delivered, if_neg hne]
  simp only
  rw [hcrc, hbuf, hmlen, List.take_take]
  congr 2
  rcases h.count hne with ⟨hn, hf, hl⟩ | ⟨hn, hf, hl⟩ | ⟨hn, hf, hl⟩
  · rw [hf, hl, show (4 + 2 ^ 8 - 2) &&& 3 = 2 from rfl]
    split
    next h2 =>
      have hcount : min ((m + 2 ^ 16 - (m - out.length + 2) % 2 ^ 16) % 2 ^ 16) m
          = out.length - 2 := by omega
      rw [hcount]
    next h2 => rw [List.take_of_length_le (by omega), List.take_of_length_le (by omega)]
  · have hcount : min ((m + 2 ^ 16 - (0 + 1) % 2 ^ 16) % 2 ^ 16) m = out.length - 2 := by omega
    rw [hf, hl, show (4 + 2 ^ 8 - 3) &&& 3 = 1 from rfl, if_pos (by omega), hcount]
  · have hcount : min ((m + 2 ^ 16 - (0 + 0) % 2 ^ 16) % 2 ^ 16) m = out.length - 2 := by omega
    rw [hf, hl, show (4 + 2 ^ 8 - 4) &&& 3 = 0 from rfl, if_pos (by omega), hcount]

end Decoder.Stored

/-! ## The simulation -/

/-- In a frame: the bytes taken and the bits in the register are what the reference collected. -/
structure Decoder.InFrame (m : Nat) (d : Decoder) (data : List Bool) (out : List UInt8)
    (rest : List Bool) : Prop where
  data_eq : data = bytesBits out ++ rest
  lt : rest.length < 8
  blevel : d.blevel = rest.length
  tmp : d.tmp = ofBits rest
  stored : d.Stored m out

/-- The decoder after a whole number of bytes, in terms of the bit-at-a-time receiver. -/
structure Decoder.Tracks (m : Nat) (d : Decoder) (s : Rx) : Prop where
  ib : d.ib = s.ones
  hunt : s.synced = false → d.flag = 0 ∧ d.len = 0
  sync : s.synced = true → ∃ out rest, d.InFrame m s.data out rest

theorem Decoder.store_flag_zero {d : Decoder} {nfr : Option Nat} (hlen : d.len = 0)
    (hflag : d.flag = 0) : d.store nfr = (d, []) := by
  rw [store, if_neg (by omega), if_pos hflag]

theorem Decoder.store_keeps (d : Decoder) (nfr : Option Nat) :
    (d.store nfr).1.tmp = d.tmp ∧ (d.store nfr).1.blevel = d.blevel := by
  rw [store]
  split
  · exact ⟨rfl, rfl⟩
  · split
    · exact ⟨rfl, rfl⟩
    · split <;> try exact ⟨rfl, rfl⟩
      cases nfr with
      | none => exact ⟨rfl, rfl⟩
      | some m =>
        simp only [newFrame]
        split <;> exact ⟨rfl, rfl⟩

namespace Decoder.Tracks

variable {m : Nat} {d : Decoder} {s : Rx}

/-- The last bit collected is a one if the run of ones is not empty; it is still in the register
if anything is. -/
theorem last_rest {out : List UInt8} {rest : List Bool} {cap : Nat} (hwf : s.Wf cap)
    (hdata : s.data = bytesBits out ++ rest) :
    1 ≤ s.ones → rest ≠ [] → rest.getLast? = some true := by
  intro hones hne
  have hlast := hwf.last hones
  rw [hdata, List.getLast?_append_of_ne_nil _ hne] at hlast
  exact hlast

/-- Data bits that fill the register. -/
theorem full_spec {tmp2 drop ib ones blevel : Nat} {pre : List Bool} (h : d.Tracks m s)
    (hwf : s.Wf (m + 2)) (hholds : Holds s.ones tmp2 drop pre) (hpre : pre.length + drop = 8)
    (hroom : s.synced = true → (s.data ++ pre).length ≤ 8 * (m + 2) + 7)
    (hdrop : s.synced = true → blevel + drop = d.blevel) (hib : ib >>> 12 = ones) :
    (d.full (some m) ib tmp2 blevel).2 = [] ∧
      (d.full (some m) ib tmp2 blevel).1.Tracks m ⟨ones, s.synced, s.data ++ pre⟩ := by
  cases hs : s.synced with
  | false =>
    obtain ⟨hflag, hlen⟩ := h.hunt hs
    rw [full, store_flag_zero (by exact hlen) (by exact hflag)]
    exact ⟨rfl, hib, fun _ => ⟨hflag, hlen⟩, fun h => absurd h (by simp)⟩
  | true =>
    obtain ⟨out, rest, hdata, hlt, hblevel, htmp, hstored⟩ := h.sync hs
    have hdrop' : drop ≤ rest.length := by have := hdrop hs; omega
    have hsub : blevel = rest.length - drop := by have := hdrop hs; omega
    have hreg := lor_full (last_rest hwf hdata) hholds hlt hdrop'
    have h8 : 8 ≤ (rest ++ pre).length := by rw [List.length_append]; omega
    have hshift := register_shift h8
    have hcount : out.length < m + 2 := by
      have := hroom hs
      rw [hdata, List.length_append, List.length_append, length_bytesBits] at this
      omega
    generalize hd : { d with
      blevel := blevel
      tmp := d.tmp ||| (lo8 tmp2 <<< blevel) % 2 ^ 16 } = d'
    have hd' : d'.tmp = ofBits (rest ++ pre) := by rw [← hd, htmp, hsub, ← hreg]
    have hst : d'.Stored m out := by rw [← hd]; exact ⟨hstored.start, hstored.buffer, hstored.count⟩
    obtain ⟨hev, hst'⟩ := hst.store_spec hcount
    have hkeep : (d'.store (some m)).1.tmp = d'.tmp ∧ (d'.store (some m)).1.blevel = d'.blevel :=
      store_keeps _ _
    rw [full, hd]
    refine ⟨hev, hib, fun h => absurd h (by simp), fun _ => ⟨out ++ [UInt8.ofNat d'.tmp],
      (rest ++ pre).drop 8, ?_, ?_, ?_, ?_, ?_⟩⟩
    · rw [bytesBits_append, bytesBits_singleton, hd', hshift.1, List.append_assoc,
        List.take_append_drop, hdata, List.append_assoc]
    · rw [List.length_drop, List.length_append]
      omega
    · rw [shift, hkeep.2, List.length_drop, List.length_append, ← hd]
      simp only
      omega
    · rw [shift, hkeep.1, hd', hshift.2]
    · exact ⟨hst'.start, hst'.buffer, hst'.count⟩

/-- Data bits that do not. -/
theorem eoBits_spec {tmp2 drop ib ones blevel : Nat} {pre : List Bool} (h : d.Tracks m s)
    (hwf : s.Wf (m + 2)) (hholds : Holds s.ones tmp2 drop pre) (hpre : pre.length + drop = 8)
    (hdrop2 : drop ≤ 2) (hblevel : blevel = (d.blevel + 2 ^ 8 - drop) % 2 ^ 8) (heo : 7 < blevel)
    (hib : ib >>> 12 = ones) :
    (d.eoBits ib tmp2 blevel).Tracks m ⟨ones, s.synced, s.data ++ pre⟩ := by
  refine ⟨hib, fun hs => h.hunt hs, fun hs => ?_⟩
  obtain ⟨out, rest, hdata, hlt, hlevel, htmp, hstored⟩ := h.sync hs
  have hdrop : rest.length < drop := by omega
  have hand : blevel &&& 7 = 8 - (drop - rest.length) := by
    have hk : blevel = 256 - (drop - rest.length) := by omega
    have : drop - rest.length = 1 ∨ drop - rest.length = 2 := by omega
    rcases this with h1 | h2
    · rw [hk, h1]
      rfl
    · rw [hk, h2]
      rfl
  have hshift : (if (blevel &&& 7) &&& 1 ≠ 0 then lo8 tmp2 >>> 1 else lo8 tmp2 >>> 2)
      = lo8 tmp2 >>> (drop - rest.length) := by
    have : drop - rest.length = 1 ∨ drop - rest.length = 2 := by omega
    rcases this with h1 | h2
    · rw [hand, h1]
      rfl
    · rw [hand, h2]
      rfl
  refine ⟨out, rest ++ pre, ?_, ?_, ?_, ?_, ⟨hstored.start, hstored.buffer, hstored.count⟩⟩
  · rw [hdata, List.append_assoc]
  · rw [List.length_append]
    omega
  · rw [eoBits, List.length_append, hand]
    simp only
    omega
  · rw [eoBits, hshift, htmp]
    exact lor_eoBits (last_rest hwf hdata) hholds hdrop

/-- The end of a flag: the frame so far is handed over, and the bits after the flag are in the
register.  The flag may share its first zero with the one before. -/
theorem flagSeq_spec {ib tmp2 ones : Nat} {pre post : List Bool} (h : d.Tracks m s) (hm : 1 ≤ m)
    (hm' : m + 1 < 2 ^ 16) (hpre : pre.length ≤ 7) (hpost : post.length ≤ 7)
    (hframe : s.synced = true → (s.data ++ pre).length = 6 ∨
      7 ≤ (s.data ++ pre).length ∧ ((s.data ++ pre).length - 7) % 8 = 0)
    (hcount : (ib >>> 8) &&& 0xf = 8 - post.length)
    (htmp : lo8 tmp2 >>> (8 - post.length) = ofBits post) (hib : ib >>> 12 = ones) :
    ∃ fss : List (List UInt8),
      (d.flagSeq ib tmp2).1.Tracks m ⟨ones, true, post⟩ ∧
      (if s.synced then [(s.data ++ pre).take ((s.data ++ pre).length - 7)] else [])
        = fss.map bytesBits ∧
      (d.flagSeq ib tmp2).2 = fss.flatMap delivered := by
  have hnew : ∀ d' : Decoder, d'.len = 0 → (d'.restart ib tmp2).Tracks m ⟨ones, true, post⟩ := by
    intro d' hlen
    refine ⟨hib, fun h => absurd h (by simp), fun _ => ⟨[], post, rfl, by omega, ?_, ?_, ?_⟩⟩
    · rw [restart, hcount]
      simp only
      omega
    · rw [restart, hcount, htmp]
    · exact ⟨fun _ => ⟨rfl, hlen⟩, fun h => absurd rfl h, fun h => absurd rfl h⟩
  cases hs : s.synced with
  | false =>
    obtain ⟨hflag, hlen⟩ := h.hunt hs
    rw [flagSeq, if_neg (by omega)]
    exact ⟨[], hnew d hlen, rfl, rfl⟩
  | true =>
    obtain ⟨out, rest, hdata, hlt, hblevel, -, hstored⟩ := h.sync hs
    have htake : (s.data ++ pre).take ((s.data ++ pre).length - 7) = bytesBits out := by
      have hlen : (s.data ++ pre).length = 8 * out.length + (rest.length + pre.length) := by
        rw [hdata, List.append_assoc, List.length_append, List.length_append, length_bytesBits]
      rcases hframe hs with h6 | ⟨h7, hmod⟩
      · have hout : out = [] := List.eq_nil_of_length_eq_zero (by omega)
        rw [h6, hout]
        rfl
      · -- eight bits short of seven, or a byte more, would not be a whole number of bytes
        have hseven : rest.length + pre.length = 7 := by omega
        rw [hdata, List.append_assoc, List.length_append, List.length_append, hseven,
          Nat.add_sub_cancel, List.take_left]
    refine ⟨[out], ?_, by rw [htake]; rfl, ?_⟩
    · rw [flagSeq]
      split
      · exact hnew _ rfl
      next hlt2 =>
        refine hnew d ?_
        by_cases hout : out = []
        · exact (hstored.start hout).2
        · rcases hstored.count hout with ⟨-, hf, -⟩ | ⟨-, hf, -⟩ | ⟨-, hf, -⟩ <;> omega
    · rw [List.flatMap_cons, List.flatMap_nil, List.append_nil, flagSeq]
      by_cases hout : out = []
      · rw [if_neg (by have := (hstored.start hout).1; omega), hout]
        rfl
      · rw [if_pos, hstored.complete_spec hout hm hm']
        rcases hstored.count hout with ⟨-, hf, -⟩ | ⟨-, hf, -⟩ | ⟨-, hf, -⟩ <;> omega

theorem plain_holds {c b : Nat} {pre : List Bool} (hpre : pre = bitsOf 8 b) :
    Holds c b 0 pre := by
  left
  rw [hpre, ofBits_bitsOf, Nat.pow_zero, Nat.one_mul]
  rfl

/-- A byte of data bits. -/
theorem step_data (h : d.Tracks m s) (hwf : s.Wf (m + 2)) (b : UInt8) {pre : List Bool} {ones : Nat}
    (hscan : scan s.ones [] none (bitsOf 8 b.toNat) = .data pre ones)
    (hroom : s.synced = true → (s.data ++ pre).length ≤ 8 * (m + 2) + 7) :
    (hdlcDecode (some m) d b).2 = [] ∧
      (hdlcDecode (some m) d b).1.Tracks m ⟨ones, s.synced, s.data ++ pre⟩ := by
  have hagree := destuff_spec s.ones (by have := hwf.ones_le; omega) b.toNat b.toNat_lt
  rw [hscan] at hagree
  rw [hdlcDecode, h.ib]
  cases hfound : destuff s.ones b.toNat with
  | plain ib =>
    simp only [hfound, agrees, decide_eq_true_eq] at hagree
    obtain ⟨hpre, hib⟩ := hagree
    exact h.full_spec hwf (plain_holds hpre) (by rw [hpre, length_bitsOf]) hroom (fun _ => rfl) hib
  | data ib tmp2 drop =>
    simp only [hfound, agrees, decide_eq_true_eq] at hagree
    obtain ⟨hdrop, hlen, hib, hholds⟩ := hagree
    simp only
    split
    next heo => exact ⟨rfl, h.eoBits_spec hwf hholds hlen hdrop rfl heo hib⟩
    next hfull =>
      have hlevel : s.synced = true → (d.blevel + 2 ^ 8 - drop) % 2 ^ 8 + drop = d.blevel := by
        intro hs
        obtain ⟨out, rest, -, hlt, hblevel, -, -⟩ := h.sync hs
        omega
      exact h.full_spec hwf hholds hlen hroom hlevel hib
  | flag ib tmp2 => simp [hfound, agrees] at hagree
  | abort ib tmp2 drop => simp [hfound, agrees] at hagree

/-- A byte in which a flag ends. -/
theorem step_flag (h : d.Tracks m s) (hm : 1 ≤ m) (hm' : m + 1 < 2 ^ 16) (hones : s.ones ≤ 6)
    (b : UInt8) {pre post : List Bool} {ones : Nat}
    (hscan : scan s.ones [] none (bitsOf 8 b.toNat) = .flag pre post ones)
    (hframe : s.synced = true → (s.data ++ pre).length = 6 ∨
      7 ≤ (s.data ++ pre).length ∧ ((s.data ++ pre).length - 7) % 8 = 0) :
    ∃ fss : List (List UInt8),
      (hdlcDecode (some m) d b).1.Tracks m ⟨ones, true, post⟩ ∧
      (if s.synced then [(s.data ++ pre).take ((s.data ++ pre).length - 7)] else [])
        = fss.map bytesBits ∧
      (hdlcDecode (some m) d b).2 = fss.flatMap delivered := by
  have hagree := destuff_spec s.ones (by omega) b.toNat b.toNat_lt
  rw [hscan] at hagree
  rw [hdlcDecode, h.ib]
  cases hfound : destuff s.ones b.toNat with
  | flag ib tmp2 =>
    simp only [hfound, agrees, decide_eq_true_eq] at hagree
    obtain ⟨hpre, hpost, hcount, htmp, hib⟩ := hagree
    exact h.flagSeq_spec hm hm' hpre hpost hframe hcount htmp hib
  | plain ib => simp [hfound, agrees] at hagree
  | data ib tmp2 drop => simp [hfound, agrees] at hagree
  | abort ib tmp2 drop => simp [hfound, agrees] at hagree

/-- **A byte**: the decoder tracks the reference over it, and the frames the reference hands over
are those it reports. -/
theorem step (h : d.Tracks m s) (hm : 1 ≤ m) (hm' : m + 1 < 2 ^ 16) (hwf : s.Wf (m + 2))
    (b : UInt8) (hok : s.Oks (m + 2) (bitsOf 8 b.toNat)) :
    ∃ fss : List (List UInt8),
      (hdlcDecode (some m) d b).1.Tracks m (s.bits (bitsOf 8 b.toNat)).1 ∧
      (s.bits (bitsOf 8 b.toNat)).2 = fss.map bytesBits ∧
      (hdlcDecode (some m) d b).2 = fss.flatMap delivered := by
  obtain ⟨hother, hbits⟩ := bits_eq_apply_scan (length_bitsOf 8 _) hok
  have hroom := (hwf.bits hok).room
  rw [hbits] at hroom ⊢
  cases hscan : scan s.ones [] none (bitsOf 8 b.toNat) with
  | other => exact absurd hscan hother
  | data pre ones =>
    rw [hscan] at hroom
    obtain ⟨hev, htr⟩ := h.step_data hwf b hscan hroom
    exact ⟨[], htr, rfl, hev⟩
  | flag pre post ones =>
    have hstart : ((Scan.ofParts s.ones [] none).apply s).1 = s := by
      rw [Scan.ofParts, Scan.apply, List.append_nil]
    refine h.step_flag hm hm' hwf.ones_le b hscan fun hs => .inr ?_
    exact scan_flag_of_oks (m + 2) s s.ones [] _ (by rw [hstart]; exact hok) hscan hs

/-- **A run.** -/
theorem run (h : d.Tracks m s) (hm : 1 ≤ m) (hm' : m + 1 < 2 ^ 16) (hwf : s.Wf (m + 2))
    (bs : List UInt8) (hok : s.Oks (m + 2) (bytesBits bs)) :
    ∃ fss : List (List UInt8),
      (decodeRun m d bs).1.Tracks m (s.bits (bytesBits bs)).1 ∧
      (s.bits (bytesBits bs)).2 = fss.map bytesBits ∧
      (decodeRun m d bs).2 = fss.flatMap delivered := by
  induction bs generalizing d s with
  | nil => exact ⟨[], h, rfl, rfl⟩
  | cons b bs ih =>
    have hcons : bytesBits (b :: bs) = bitsOf 8 b.toNat ++ bytesBits bs := rfl
    rw [hcons, Rx.oks_append] at hok
    obtain ⟨fss, htr, hfr, hev⟩ := h.step hm hm' hwf b hok.1
    obtain ⟨gss, htr', hfr', hev'⟩ := ih htr (hwf.bits hok.1) hok.2
    refine ⟨fss ++ gss, ?_, ?_, ?_⟩
    · rw [hcons, Rx.bits_append]
      exact htr'
    · rw [hcons, Rx.bits_append, List.map_append, hfr, hfr']
    · rw [decodeRun, List.flatMap_append, hev, hev']

end Decoder.Tracks

theorem tracks_zero (m : Nat) : Decoder.zero.Tracks m ⟨0, false, []⟩ :=
  ⟨rfl, fun _ => ⟨rfl, rfl⟩, fun h => absurd h (by simp)⟩

theorem wf_zero (cap : Nat) : Rx.Wf cap ⟨0, false, []⟩ :=
  ⟨Nat.zero_le _, fun h => absurd h (by simp), fun h => absurd h (by simp)⟩

end Hdlc
end Isdn4bsd
