import Isdn4bsd.Lib.BitStuff
import Isdn4bsd.Hdlc.Tables

/-!
# The software HDLC encoder

`HDLC_ENCODE` of `i4b_hdlc.h`, in its default (B-channel) variant.  One execution of the macro
appends some bits to the shift register `tmp` and writes the eight low bits of it out; the level of
the register is kept in bits 8 to 15 of `blevel`, and when a whole byte is left over the next
execution only writes that.

The encoder finds the places for the inserted zeros with one table lookup per byte.  It also
postpones a zero: after a byte that ends in five ones it is inserted at the front of what comes
next (a count of five in the top bits of `ib`), so what it has produced at any moment is the bits
written out, the register, and that zero (`Encoder.Produced`).

* `data_spec` is the byte step: for every byte and every count carried over from the byte before,
  the bits appended are those `BitStuff.stuff` asks for.
* `encodeRun_spec` is the whole run: the bytes written, together with what is left in the register,
  are two flags, and then for each answer of `gfr` either a flag (no frame) or the frame with its
  check sequence, stuffed, and a flag.

## The line

What the encoder sends is decided by the answers of `gfrcmd`: a frame, or nothing for now.  `line` is the line after
some answers, as a concatenation of pieces, and a run is at some point of it: `Encoder.Phase` has the answers whose
pieces are complete, and how far the next one is.  One execution goes on along the line by a byte (`Sending.step`),
through one of the three ways it may begin: it writes what was left over, takes the next byte of a frame, or goes
through the `switch`.

Stuffed bits are not bytes, so a byte on the line begins anywhere in the frame, and up to three zeros are inserted
into a byte.  That the register has room for what comes in is `Encoder.Holds`: room for two more bytes.

## Getting to the end

An execution that finds a full byte in the register asks for no frame, so the number of executions is not the number
of bytes of the pieces.  `weight` counts what is left to do twice, and a byte in the register once, and goes down
with each execution that does not ask in vain; so enough executions get past all frames (`exists_idle`).
-/

set_option autoImplicit false

namespace Isdn4bsd
namespace Hdlc

open Bits BitStuff

/-- The variables of `HDLC_ENCODE` that are suspended between two executions, and the bytes `src`
points at. -/
structure Encoder where
  /-- Where in the frame the encoder is (`uint8_t`). -/
  flag : Nat
  /-- Register level in bits 8 to 15, inserted zeros of the last byte in bits 0 to 7 (`uint16_t`). -/
  blevel : Nat
  /-- Frame check sequence so far (`uint16_t`). -/
  crc : Nat
  /-- Ones carried over from the byte before, in bits 12 to 15 (`uint16_t`). -/
  ib : Nat
  /-- The shift register (`uint32_t`). -/
  tmp : Nat
  /-- Bytes that may still be read from `src` (`uint16_t`). -/
  len : Nat
  /-- The bytes at `src`. -/
  src : List UInt8
  deriving DecidableEq, Repr

namespace Encoder

/-- Zero is the default value of every variable. -/
def zero : Encoder := ⟨0, 0, 0, 0, 0, 0, []⟩

/-- `wrdcmd; tmp >>= 8`: the byte goes to `*dst++`. -/
def write (s : Encoder) : Encoder × UInt8 := ({ s with tmp := s.tmp >>> 8 }, UInt8.ofNat s.tmp)

/-- `tmp |= (tmp2 << (LO8(blevel >> 8)))`, label `j3`. -/
def push (s : Encoder) (tmp2 : Nat) : Encoder :=
  { s with tmp := s.tmp ||| (tmp2 <<< lo8 (s.blevel >>> 8)) % 2 ^ 32 }

end Encoder

/-- The first stuffing test, `ib & 0xc0`: bytes whose ones are not at their low end.  The result is
`ib`, `tmp2` and the number of zeros inserted. -/
def stuffMsb (ib tmp2 : Nat) : Nat × Nat × Nat :=
  if ib &&& 0xc0 ≠ 0 then
    (if 0x5000 ≤ ib then ib - 0x5000 else ib,
      if ib &&& 0x80 ≠ 0 then tmp2 + (tmp2 &&& (0xff * 0x80)) else tmp2 + (tmp2 &&& (0xff * 0x40)),
      1)
  else (ib, tmp2, 0)

/-- The second stuffing test: the ones at the low end, with those carried over. -/
def stuffLsb (ib tmp2 n : Nat) : Nat × Nat × Nat :=
  if 5 ≤ lo8 ib then
    let ibTmp := (ib - (ib >>> 8) + 1) &&& 7
    let tmp2 := tmp2 + (tmp2 &&& (0xffffffff - (0x1f >>> ibTmp)))
    let tmp2' := if 10 ≤ lo8 ib then tmp2 + (tmp2 &&& (0xffffffff - (0x7ff >>> ibTmp))) else tmp2
    let n' := if 10 ≤ lo8 ib then n + 2 else n + 1
    -- the whole byte is ones: what is left over after the inserted zeros is carried on
    let ib' :=
      if ib &&& 0x8000 ≠ 0 then (lo8 (ib - if 10 ≤ lo8 ib then 10 else 5) <<< 12) % 2 ^ 16 else ib
    (ib', tmp2', n')
  else (ib, tmp2, n)

/-- Both tests. -/
def stuffByte (ib tmp2 : Nat) : Nat × Nat × Nat :=
  let r := stuffMsb ib tmp2
  stuffLsb (r.1 &&& 0xff0f) r.2.1 r.2.2

namespace Encoder

/-- Label `j2`: a byte of the frame or of its check sequence. -/
def data (s : Encoder) (tmp2 : Nat) : Encoder :=
  let ib := ((s.ib >>> 12) + bitTab (lo8 tmp2)) % 2 ^ 16
  if 5 ≤ lo8 ib then
    let r := stuffByte ib tmp2
    let blevel := (s.blevel &&& 0xff00) + r.2.2
    { s with
      ib := r.1
      tmp := s.tmp ||| (r.2.1 <<< lo8 (blevel >>> 8)) % 2 ^ 32
      blevel := (blevel + (lo8 blevel <<< 8)) % 2 ^ 16 }
  else { s with ib := ib }.push tmp2

/-- Label `j1`: the next byte of the frame. -/
def byte (s : Encoder) : Encoder :=
  let tmp2 := (s.src.headD 0).toNat
  { s with src := s.src.tail, crc := fcsStep s.crc tmp2 }.data tmp2

/-- What `gfrcmd` and `nmbcmd` do with a buffer that is available, and with none. -/
def load (s : Encoder) : Option (List UInt8) → Encoder
  | none => s
  | some m => { s with src := m, len := m.length % 2 ^ 16 }

/-- Cases 1 and 2, a flag sequence; a postponed zero goes in before it. -/
def flagSequence (s : Encoder) : Encoder :=
  let ib := s.ib >>> 12
  { s with
    ib := ib
    blevel := if ib = 5 then (s.blevel + 0x100) % 2 ^ 16 else s.blevel }.push 0x7e

/-- The `switch (++flag)` of the default encoding. -/
def switch {σ : Type} (gfr nmb : σ → Option (List UInt8) × σ) (s : Encoder) (e : σ) :
    Encoder × σ :=
  match (s.flag + 1) % 2 ^ 8 with
  | 1 => ({ s with flag := 1 }.flagSequence, e)
  | 2 => ({ s with flag := 2 }.flagSequence, e)
  | 3 =>
    let r := gfr e
    let s := { s with flag := 3 }.load r.1
    if s.len = 0 then ({ s with flag := 2 }.push 0x7e, r.2)
    else ({ s with len := s.len - 1, crc := 0xffff, ib := 0 }.byte, r.2)
  | 4 =>
    let r := nmb e
    let s := { s with flag := 4 }.load r.1
    if s.len = 0 then ({ s with crc := s.crc ^^^ 0xffff }.data (lo8 (s.crc ^^^ 0xffff)), r.2)
    else ({ s with len := s.len - 1, flag := 3 }.byte, r.2)
  | 5 => ({ s with flag := 1 }.data (lo8 (s.crc >>> 8)), e)
  | f => ({ s with flag := f, tmp := 0, blevel := 0, ib := 0 }.push 0xff, e)

section SwitchCases

variable {σ : Type} {gfr nmb : σ → Option (List UInt8) × σ} {s : Encoder} {e : σ}

theorem switch_first (h : s.flag = 0) :
    s.switch gfr nmb e = ({ s with flag := 1 }.flagSequence, e) := by
  simp [switch, h]

theorem switch_second (h : s.flag = 1) :
    s.switch gfr nmb e = ({ s with flag := 2 }.flagSequence, e) := by
  simp [switch, h]

theorem switch_get_none (h : s.flag = 2) (hlen : s.len = 0) (hgfr : (gfr e).1 = none) :
    s.switch gfr nmb e = ({ s with flag := 2 }.push 0x7e, (gfr e).2) := by
  simp [switch, h, hgfr, load, hlen]

theorem switch_get_some (h : s.flag = 2) {p : List UInt8} (hpos : 1 ≤ p.length)
    (hlt : p.length < 2 ^ 16) (hgfr : (gfr e).1 = some p) :
    s.switch gfr nmb e =
      ({ s with flag := 3, src := p, len := p.length - 1, crc := 0xffff, ib := 0 }.byte,
        (gfr e).2) := by
  have hmod : p.length % 2 ^ 16 = p.length := Nat.mod_eq_of_lt hlt
  have hne : p.length ≠ 0 := by omega
  simp only [switch, h, hgfr, load, hmod, if_neg hne]
  rfl

theorem switch_check (h : s.flag = 3) (hnmb : (nmb e).1 = none) (hlen : s.len = 0) :
    s.switch gfr nmb e =
      ({ s with flag := 4, crc := s.crc ^^^ 0xffff }.data (lo8 (s.crc ^^^ 0xffff)), (nmb e).2) := by
  simp [switch, h, hnmb, load, hlen]

theorem switch_last (h : s.flag = 4) :
    s.switch gfr nmb e = ({ s with flag := 1 }.data (lo8 (s.crc >>> 8)), e) := by
  simp [switch, h]

end SwitchCases

end Encoder

/-- `HDLC_ENCODE`; `e` is what `gfrcmd` and `nmbcmd` take their buffers from. -/
def hdlcEncode {σ : Type} (gfr nmb : σ → Option (List UInt8) × σ) (s : Encoder) (e : σ) :
    Encoder × σ × UInt8 :=
  let r : Encoder × σ :=
    if 0x800 ≤ s.blevel then ({ s with blevel := s.blevel - 0x800 }, e)
    else if s.len = 0 then s.switch gfr nmb e
    else ({ s with len := s.len - 1 }.byte, e)
  (r.1.write.1, r.2, r.1.write.2)

/-! ## The transmit filter -/

/-- A frame, as the bytes of its buffer. -/
abbrev Frame := List UInt8

/-- What `ihfc_i4b_getmbuf` will answer, call by call, and how often it was called after that. -/
structure Feed where
  answers : List (Option Frame)
  idle : Nat
  deriving DecidableEq, Repr

/-- `gfr` of `tx_hdlc_emulation`. -/
def Feed.gfr (e : Feed) : Option Frame × Feed :=
  match e.answers with
  | [] => (none, { e with idle := e.idle + 1 })
  | a :: as => (a, { e with answers := as })

/-- `nmb` of `tx_hdlc_emulation` is empty. -/
def Feed.nmb (e : Feed) : Option Frame × Feed := (none, e)

/-- The body of the loop of `tx_hdlc_emulation`. -/
def encodeStep (s : Encoder) (e : Feed) : Encoder × Feed × UInt8 :=
  hdlcEncode Feed.gfr Feed.nmb s e

/-- `n` executions; the bytes are those written to `dst`. -/
def encodeRun : Nat → Encoder → Feed → Encoder × Feed × List UInt8
  | 0, s, e => (s, e, [])
  | n + 1, s, e =>
    let r := encodeStep s e
    let q := encodeRun n r.1 r.2.1
    (q.1, q.2.1, r.2.2 :: q.2.2)

/-! ## One byte -/

/-- The zero a count carried over stands for. -/
def postponed (c : Nat) : List Bool := if c = 5 then [false] else []

/-- The run of ones it stands for, once that zero is in. -/
def carried (c : Nat) : Nat := if c = 5 then 0 else c

/-- `ib`, `tmp2` and the number of inserted zeros after the byte `b`, with a count of `c`. -/
def stuffed (c b : Nat) : Nat × Nat × Nat :=
  let ib := (c + bitTab (lo8 b)) % 2 ^ 16
  if 5 ≤ lo8 ib then stuffByte ib b else (ib, b, 0)

/-- **The table lookup is zero-bit insertion**, for every byte and every count. -/
theorem stuffed_spec : ∀ c < 6, ∀ b < 256,
    (stuffed c b).2.2 ≤ 2 ∧ (stuffed c b).2.1 < 2 ^ (8 + (stuffed c b).2.2) ∧
      (stuffed c b).1 >>> 12 < 6 ∧
      carried ((stuffed c b).1 >>> 12) = stuffOnes (carried c) (bitsOf 8 b) ∧
      bitsOf (8 + (stuffed c b).2.2) (stuffed c b).2.1 ++ postponed ((stuffed c b).1 >>> 12)
        = postponed c ++ stuff (carried c) (bitsOf 8 b) := by
  intro c hc
  simp only [stuffed, bitTab_eq_digit]
  interval_cases c
  all_goals decide +kernel

/-- The register holds the bits `pend`, with room for two more bytes. -/
structure Encoder.Holds (s : Encoder) (pend : List Bool) : Prop where
  tmp : s.tmp = ofBits pend
  level : s.blevel / 256 = pend.length
  room : pend.length ≤ 9

/-- The register holds `reg`, and eight bits of it have yet to be counted in `blevel`. -/
structure Encoder.Loaded (s : Encoder) (reg : List Bool) : Prop where
  tmp : s.tmp = ofBits reg
  level : s.blevel / 256 + 8 = reg.length
  room : reg.length ≤ 17

theorem Encoder.write_spec {s : Encoder} {reg : List Bool} (h : s.Loaded reg) :
    bitsOf 8 s.write.2.toNat ++ reg.drop 8 = reg ∧ s.write.1.Holds (reg.drop 8) := by
  have h8 : 8 ≤ reg.length := by have := h.level; omega
  have hshift := register_shift h8
  have hlevel := h.level
  have hroom := h.room
  refine ⟨?_, ?_, ?_, ?_⟩
  · rw [write, h.tmp, hshift.1, List.take_append_drop]
  · rw [write, h.tmp, hshift.2]
  · rw [write, List.length_drop]
    simp only
    omega
  · rw [List.length_drop]
    omega

/-- Or-ing bits on above a register that leaves room for them. -/
theorem lor_shl_eq {pend new : List Bool} {v : Nat} (hv : v = ofBits new)
    (hp : pend.length ≤ 8) (hn : new.length ≤ 10) :
    ofBits pend ||| (v <<< lo8 pend.length) % 2 ^ 32 = ofBits (pend ++ new) := by
  have hlo : lo8 pend.length = pend.length := Nat.mod_eq_of_lt (by omega)
  have hnew : ofBits new < 2 ^ 10 :=
    Nat.lt_of_lt_of_le (ofBits_lt new) (Nat.pow_le_pow_right (by decide) hn)
  have hpow : 2 ^ pend.length ≤ 2 ^ 8 := Nat.pow_le_pow_right (by decide) hp
  have hbound : ofBits new * 2 ^ pend.length < 2 ^ 32 :=
    calc ofBits new * 2 ^ pend.length ≤ 2 ^ 10 * 2 ^ 8 := Nat.mul_le_mul hnew.le hpow
      _ < 2 ^ 32 := by decide
  rw [hv, hlo, Nat.shiftLeft_eq, Nat.mod_eq_of_lt hbound, ← Nat.shiftLeft_eq, ofBits_lor_append]

theorem Encoder.Holds.push_spec {s : Encoder} {pend : List Bool} (h : s.Holds pend)
    (hp : pend.length ≤ 8) {v : Nat} {new : List Bool} (hv : v = ofBits new)
    (hn : new.length = 8) : (s.push v).Loaded (pend ++ new) := by
  have hlevel : s.blevel >>> 8 = pend.length := by rw [Nat.shiftRight_eq_div_pow]; exact h.level
  refine ⟨?_, ?_, ?_⟩
  · rw [push, hlevel, h.tmp]
    exact lor_shl_eq hv hp (by omega)
  · rw [push, List.length_append, hn, ← h.level]
  · rw [List.length_append]
    omega

/-- `blevel & 0xff00` is the level of the register, in place. -/
theorem and_ff00 : ∀ q < 8, ∀ r < 256, (256 * q + r) &&& 0xff00 = 256 * q := by decide +kernel

/-- **A byte of the frame**: the bits that enter the register, with the zero that is postponed, are
the zero that was, and the byte stuffed. -/
theorem Encoder.data_spec {s : Encoder} {pend : List Bool} (h : s.Holds pend)
    (hp : pend.length < 8) (hc : s.ib >>> 12 < 6) {b : Nat} (hb : b < 256) :
    ∃ new, (s.data b).Loaded (pend ++ new) ∧ (s.data b).ib >>> 12 < 6 ∧
      carried ((s.data b).ib >>> 12) = stuffOnes (carried (s.ib >>> 12)) (bitsOf 8 b) ∧
      new ++ postponed ((s.data b).ib >>> 12)
        = postponed (s.ib >>> 12) ++ stuff (carried (s.ib >>> 12)) (bitsOf 8 b) := by
  obtain ⟨hn, hv, hc', hones, hbits⟩ := stuffed_spec (s.ib >>> 12) hc b hb
  generalize hr : stuffed (s.ib >>> 12) b = r at hn hv hc' hones hbits
  have hnew : r.2.1 = ofBits (bitsOf (8 + r.2.2) r.2.1) := by
    rw [ofBits_bitsOf, Nat.mod_eq_of_lt hv]
  have hlevel := h.level
  have hand : s.blevel &&& 0xff00 = 256 * pend.length := by
    have hx : s.blevel = 256 * pend.length + s.blevel % 256 := by omega
    rw [hx]
    exact and_ff00 _ hp _ (Nat.mod_lt _ (by decide))
  refine ⟨bitsOf (8 + r.2.2) r.2.1, ?_, ?_⟩
  · simp only [stuffed] at hr
    simp only [data]
    split at hr
    next h5 =>
      rw [if_pos h5, hr, hand]
      have hdiv : (256 * pend.length + r.2.2) >>> 8 = pend.length := by
        rw [Nat.shiftRight_eq_div_pow]; omega
      have hmod : lo8 (256 * pend.length + r.2.2) = r.2.2 := by rw [lo8]; omega
      refine ⟨?_, ?_, ?_⟩
      · simp only
        rw [hdiv, h.tmp]
        exact lor_shl_eq hnew (by omega) (by rw [length_bitsOf]; omega)
      · have hsum : (256 * pend.length + r.2.2 + r.2.2 * 2 ^ 8) % 2 ^ 16
            = 256 * (pend.length + r.2.2) + r.2.2 := by
          rw [Nat.mod_eq_of_lt (by omega)]
          ring
        simp only
        rw [hmod, List.length_append, length_bitsOf, Nat.shiftLeft_eq, hsum]
        omega
      · rw [List.length_append, length_bitsOf]
        omega
    next h5 =>
      rw [if_neg h5]
      subst hr
      have hib : Encoder.Holds { s with ib := (s.ib >>> 12 + bitTab (lo8 b)) % 2 ^ 16 } pend :=
        ⟨h.tmp, h.level, h.room⟩
      exact hib.push_spec (by omega) hnew (length_bitsOf _ _)
  · have hib : (s.data b).ib = r.1 := by
      simp only [stuffed] at hr
      simp only [data]
      split at hr
      next h5 => rw [if_pos h5, hr]
      next h5 => rw [if_neg h5, ← hr, push]
    rw [hib]
    exact ⟨hc', hones, hbits⟩

/-! ## The line -/

/-- A frame and its check sequence. -/
def checked (p : Frame) : Frame := p ++ fcsBytes p

/-- What one answer of `gfr` puts on the line. -/
def piece : Option Frame → List Bool
  | none => BitStuff.flag
  | some p => stuff 0 (bytesBits (checked p)) ++ BitStuff.flag

/-- The line after the answers `done`. -/
def line (done : List (Option Frame)) : List Bool :=
  BitStuff.flag ++ BitStuff.flag ++ done.flatMap piece

theorem line_append_singleton (done : List (Option Frame)) (a : Option Frame) :
    line (done ++ [a]) = line done ++ piece a := by
  rw [line, List.flatMap_append, List.flatMap_cons, List.flatMap_nil, List.append_nil,
    ← List.append_assoc, ← line]

/-- Everything written so far, with the register and the postponed zero. -/
structure Encoder.Produced (s : Encoder) (out : List UInt8) (gen : List Bool) : Prop where
  carry : s.ib >>> 12 < 6
  bits : ∃ pend, s.Holds pend ∧ bytesBits out ++ pend ++ postponed (s.ib >>> 12) = gen

/-- Where in the stream the encoder is: `done` are the answers of `gfr` whose piece is complete, or
in the case of `closing` complete but for the flag, and `gen` is what has been produced. -/
inductive Encoder.Phase (s : Encoder) : List (Option Frame) → List Bool → Prop where
  | start (hflag : s.flag = 0) (hlen : s.len = 0) (hib : s.ib = 0) : Phase s [] []
  | closing (done : List (Option Frame)) (gen : List Bool) (hflag : s.flag = 1) (hlen : s.len = 0)
      (hgen : gen ++ BitStuff.flag = line done) : Phase s done gen
  | idle (done : List (Option Frame)) (hflag : s.flag = 2) (hlen : s.len = 0) (hib : s.ib < 6) :
      Phase s done (line done)
  | body (done : List (Option Frame)) (sent : Frame) (hflag : s.flag = 3)
      (hlen : s.len = s.src.length) (hcrc : s.crc = fcsFold sent)
      (hones : carried (s.ib >>> 12) = stuffOnes 0 (bytesBits sent)) :
      Phase s (done ++ [some (sent ++ s.src)]) (line done ++ stuff 0 (bytesBits sent))
  | check (done : List (Option Frame)) (p : Frame) (hflag : s.flag = 4) (hlen : s.len = 0)
      (hcrc : s.crc = fcsFold p ^^^ 0xffff)
      (hones : carried (s.ib >>> 12)
        = stuffOnes 0 (bytesBits (p ++ [UInt8.ofNat (fcsFold p ^^^ 0xffff)]))) :
      Phase s (done ++ [some p])
        (line done ++ stuff 0 (bytesBits (p ++ [UInt8.ofNat (fcsFold p ^^^ 0xffff)])))

/-- A data byte extends what has been produced by its stuffed bits. -/
theorem Encoder.Produced.data {s : Encoder} {out : List UInt8} {gen : List Bool}
    (h : s.Produced out gen) (hlevel : s.blevel < 0x800) {sent : Frame} {b : UInt8}
    (hones : carried (s.ib >>> 12) = stuffOnes 0 (bytesBits sent)) {t : Encoder}
    (ht : t = s.data b.toNat) {pre : List Bool}
    (hgen : gen = pre ++ stuff 0 (bytesBits sent)) :
    t.write.1.Produced (out ++ [t.write.2]) (pre ++ stuff 0 (bytesBits (sent ++ [b]))) ∧
      carried (t.write.1.ib >>> 12) = stuffOnes 0 (bytesBits (sent ++ [b])) := by
  obtain ⟨hcarry, pend, hholds, hbits⟩ := h
  have hp : pend.length < 8 := by have := hholds.level; omega
  obtain ⟨new, hloaded, hcarry', hones', hnew⟩ := data_spec hholds hp hcarry b.toNat_lt
  rw [← ht] at hloaded hcarry' hones' hnew
  obtain ⟨hout, hrest⟩ := write_spec hloaded
  refine ⟨⟨hcarry', _, hrest, ?_⟩, ?_⟩
  · rw [bytesBits_append, bytesBits_singleton, List.append_assoc (bytesBits out), hout]
    calc bytesBits out ++ (pend ++ new) ++ postponed (t.ib >>> 12)
        = bytesBits out ++ pend ++ (new ++ postponed (t.ib >>> 12)) := by
          simp only [List.append_assoc]
      _ = gen ++ stuff (carried (s.ib >>> 12)) (bitsOf 8 b.toNat) := by
          rw [hnew, ← List.append_assoc, hbits]
      _ = pre ++ stuff 0 (bytesBits (sent ++ [b])) := by
          rw [hgen, hones, bytesBits_append, bytesBits_singleton, stuff_append, List.append_assoc]
  · rw [bytesBits_append, bytesBits_singleton, stuffOnes_append, ← hones]
    exact hones'

/-- Eight bits that are not stuffed extend it as they are; a postponed zero goes in before them. -/
theorem Encoder.Produced.push {s : Encoder} {out : List UInt8} {gen : List Bool}
    (h : s.Produced out gen) (hlevel : s.blevel < 0x800) {v : Nat} {new : List Bool}
    (hv : v = ofBits new) (hn : new.length = 8) {t : Encoder} (hcarry : t.ib >>> 12 = 0)
    {u : Encoder} (ht : t = u.push v) (htmp : u.tmp = s.tmp)
    (hblevel : u.blevel / 256 = s.blevel / 256 + (postponed (s.ib >>> 12)).length) :
    t.write.1.Produced (out ++ [t.write.2]) (gen ++ new) := by
  obtain ⟨-, pend, hholds, hbits⟩ := h
  have hlevel' := hholds.level
  have hpost : ofBits (pend ++ postponed (s.ib >>> 12)) = ofBits pend := by
    rw [ofBits_append, postponed]
    split <;> simp
  have hlen : (pend ++ postponed (s.ib >>> 12)).length ≤ 8 := by
    rw [List.length_append, postponed]
    split <;> simp <;> omega
  have hu : u.Holds (pend ++ postponed (s.ib >>> 12)) :=
    ⟨by rw [htmp, hholds.tmp, hpost], by rw [hblevel, hlevel', List.length_append], by omega⟩
  have hloaded : (u.push v).Loaded (pend ++ postponed (s.ib >>> 12) ++ new) :=
    hu.push_spec hlen hv hn
  rw [← ht] at hloaded
  obtain ⟨hout, hrest⟩ := write_spec hloaded
  refine ⟨by rw [write, hcarry]; decide, _, hrest, ?_⟩
  rw [bytesBits_append, bytesBits_singleton, List.append_assoc (bytesBits out), hout, write, hcarry,
    ← hbits]
  simp [postponed]

theorem Encoder.Produced.flagSequence {s : Encoder} {out : List UInt8} {gen : List Bool}
    (h : s.Produced out gen) (hlevel : s.blevel < 0x800) {f : Nat} {t : Encoder}
    (ht : t = Encoder.flagSequence { s with flag := f }) :
    t.write.1.Produced (out ++ [t.write.2]) (gen ++ BitStuff.flag) ∧ t.ib < 6 := by
  have hib : t.ib = s.ib >>> 12 := by rw [ht]; rfl
  have hcarry : t.ib >>> 12 = 0 := by
    have := h.carry
    rw [hib, Nat.shiftRight_eq_div_pow _ 12]
    omega
  refine ⟨h.push hlevel rfl rfl hcarry ht rfl ?_, by rw [hib]; exact h.carry⟩
  simp only [postponed]
  split
  next h5 => rw [Nat.mod_eq_of_lt (by omega), List.length_singleton]; omega
  next h5 => rw [List.length_nil, Nat.add_zero]

/-- The byte that is written when the register holds one already. -/
theorem Encoder.Produced.spill {s : Encoder} {out : List UInt8} {gen : List Bool}
    (h : s.Produced out gen) (hlevel : 0x800 ≤ s.blevel) {t : Encoder}
    (ht : t = { s with blevel := s.blevel - 0x800 }) :
    t.write.1.Produced (out ++ [t.write.2]) gen := by
  obtain ⟨hcarry, pend, hholds, hbits⟩ := h
  have hlevel' := hholds.level
  have hroom := hholds.room
  have hblevel : t.blevel = s.blevel - 0x800 := by rw [ht]
  have hib : t.write.1.ib = s.ib := by simp only [ht, write]
  have hloaded : t.Loaded pend := ⟨by rw [ht]; exact hholds.tmp, by omega, by omega⟩
  obtain ⟨hout, hrest⟩ := write_spec hloaded
  refine ⟨hib ▸ hcarry, _, hrest, ?_⟩
  rw [bytesBits_append, bytesBits_singleton, List.append_assoc (bytesBits out), hout, hib, hbits]

/-- The run invariant: `answers` are what `gfr` had to give at the start. -/
structure Sending (answers : List (Option Frame)) (s : Encoder) (e : Feed) (out : List UInt8)
    (used : List (Option Frame)) (gen : List Bool) : Prop where
  split : used ++ e.answers = answers
  idle : e.idle ≠ 0 → e.answers = [] ∧ s.flag = 2 ∧ s.blevel < 0x800
  phase : s.Phase (used ++ List.replicate e.idle none) gen
  produced : s.Produced out gen

/-- The frames `gfr` hands out: not empty, and short enough for `len`. -/
def Sendable (answers : List (Option Frame)) : Prop :=
  ∀ p, some p ∈ answers → 1 ≤ p.length ∧ p.length < 2 ^ 16

theorem Encoder.Phase.spill {s : Encoder} {done : List (Option Frame)} {gen : List Bool}
    (h : s.Phase done gen) (tmp blevel : Nat) :
    Encoder.Phase { s with tmp := tmp, blevel := blevel } done gen := by
  cases h with
  | start hflag hlen hib => exact .start hflag hlen hib
  | closing done gen hflag hlen hgen => exact .closing done gen hflag hlen hgen
  | idle done hflag hlen hib => exact .idle done hflag hlen hib
  | body done sent hflag hlen hcrc hones => exact .body done sent hflag hlen hcrc hones
  | check done p hflag hlen hcrc hones => exact .check done p hflag hlen hcrc hones

@[simp] theorem Encoder.data_flag (s : Encoder) (v : Nat) : (s.data v).flag = s.flag := by
  simp only [Encoder.data]
  split <;> rfl

@[simp] theorem Encoder.data_len (s : Encoder) (v : Nat) : (s.data v).len = s.len := by
  simp only [Encoder.data]
  split <;> rfl

@[simp] theorem Encoder.data_src (s : Encoder) (v : Nat) : (s.data v).src = s.src := by
  simp only [Encoder.data]
  split <;> rfl

@[simp] theorem Encoder.data_crc (s : Encoder) (v : Nat) : (s.data v).crc = s.crc := by
  simp only [Encoder.data]
  split <;> rfl

theorem Encoder.Produced.congr {s t : Encoder} {out : List UInt8} {gen : List Bool}
    (h : s.Produced out gen) (hib : t.ib = s.ib) (htmp : t.tmp = s.tmp)
    (hblevel : t.blevel = s.blevel) : t.Produced out gen := by
  obtain ⟨hcarry, pend, hholds, hbits⟩ := h
  refine ⟨hib ▸ hcarry, pend, ⟨htmp ▸ hholds.tmp, hblevel ▸ hholds.level, hholds.room⟩, ?_⟩
  rw [hib, hbits]

/-- A byte of the frame, read from `src`. -/
theorem Encoder.Produced.byte {s : Encoder} {out : List UInt8} {pre : List Bool} {sent : Frame}
    (h : s.Produced out (pre ++ stuff 0 (bytesBits sent))) (hlevel : s.blevel < 0x800)
    (hones : carried (s.ib >>> 12) = stuffOnes 0 (bytesBits sent)) {b : UInt8} {rest : Frame}
    (hsrc : s.src = b :: rest) {t : Encoder} (ht : t = s.byte) :
    t.write.1.Produced (out ++ [t.write.2]) (pre ++ stuff 0 (bytesBits (sent ++ [b]))) ∧
      carried (t.write.1.ib >>> 12) = stuffOnes 0 (bytesBits (sent ++ [b])) ∧
      t.flag = s.flag ∧ t.len = s.len ∧ t.src = rest ∧ t.crc = fcsStep s.crc b.toNat := by
  have hbyte : t = Encoder.data { s with src := rest, crc := fcsStep s.crc b.toNat } b.toNat := by
    rw [ht, Encoder.byte, hsrc]
    rfl
  have hs : Encoder.Produced { s with src := rest, crc := fcsStep s.crc b.toNat } out
      (pre ++ stuff 0 (bytesBits sent)) := h.congr rfl rfl rfl
  obtain ⟨hprod, hcarried⟩ := hs.data hlevel hones hbyte rfl
  refine ⟨hprod, hcarried, ?_, ?_, ?_, ?_⟩ <;> rw [hbyte]
  · exact data_flag _ _
  · exact data_len _ _
  · exact data_src _ _
  · exact data_crc _ _

/-! ## Runs -/

theorem toNat_ofNat_eq_lo8 (x : Nat) : (UInt8.ofNat x).toNat = lo8 x := UInt8.toNat_ofNat'

/-- The three ways an execution of `HDLC_ENCODE` begins. -/
theorem encodeStep_cases (s : Encoder) (e : Feed) :
    (0x800 ≤ s.blevel ∧ ∃ t, t = { s with blevel := s.blevel - 0x800 } ∧
      encodeStep s e = (t.write.1, e, t.write.2)) ∨
    (s.blevel < 0x800 ∧ s.len = 0 ∧ ∃ t, t = s.switch Feed.gfr Feed.nmb e ∧
      encodeStep s e = (t.1.write.1, t.2, t.1.write.2)) ∨
    (s.blevel < 0x800 ∧ s.len ≠ 0 ∧ ∃ t, t = Encoder.byte { s with len := s.len - 1 } ∧
      encodeStep s e = (t.write.1, e, t.write.2)) := by
  by_cases hlevel : 0x800 ≤ s.blevel
  · exact .inl ⟨hlevel, _, rfl, by simp only [encodeStep, hdlcEncode, if_pos hlevel]⟩
  · by_cases hlen : s.len = 0
    · refine .inr (.inl ⟨by omega, hlen, _, rfl, ?_⟩)
      simp only [encodeStep, hdlcEncode, if_neg hlevel, if_pos hlen]
    · refine .inr (.inr ⟨by omega, hlen, _, rfl, ?_⟩)
      simp only [encodeStep, hdlcEncode, if_neg hlevel, if_neg hlen]

namespace Sending

variable {answers used : List (Option Frame)} {s : Encoder} {e : Feed} {out : List UInt8}
  {gen : List Bool}

theorem idle_eq_zero (h : Sending answers s e out used gen) (hflag : s.flag ≠ 2) : e.idle = 0 := by
  by_contra hne
  exact hflag (h.idle hne).2.1

/-- The next byte of a frame that `gfr` has handed out. -/
theorem byte (h : Sending answers s e out used gen) (hlevel : s.blevel < 0x800)
    (hlen : s.len ≠ 0) {t : Encoder} (ht : t = Encoder.byte { s with len := s.len - 1 }) :
    ∃ gen', Sending answers t.write.1 e (out ++ [t.write.2]) used gen' := by
  have hphase := h.phase
  generalize hdone : used ++ List.replicate e.idle none = done at hphase
  cases hphase with
  | start hflag hzero hib => exact absurd hzero hlen
  | closing done gen hflag hzero hgen => exact absurd hzero hlen
  | idle done hflag hzero hib => exact absurd hzero hlen
  | check done p hflag hzero hcrc hones => exact absurd hzero hlen
  | body done sent hflag hlen' hcrc hones =>
    have hidle := h.idle_eq_zero (by omega)
    obtain ⟨b, rest, hsrc⟩ := List.exists_cons_of_length_pos (l := s.src) (by omega)
    have hs : Encoder.Produced { s with len := s.len - 1 } out
        (line done ++ stuff 0 (bytesBits sent)) := h.produced.congr rfl rfl rfl
    obtain ⟨hprod, hcarried, hf, hl, hr, hc⟩ := hs.byte hlevel hones hsrc ht
    refine ⟨_, h.split, fun hne => absurd hidle hne, ?_, hprod⟩
    have hframe : sent ++ s.src = sent ++ [b] ++ t.write.1.src := by
      rw [hsrc, List.append_assoc]
      simp only [Encoder.write, hr, List.singleton_append]
    rw [hdone, hframe]
    refine .body done (sent ++ [b]) (hf.trans hflag) ?_ ?_ hcarried
    · have hcount : s.src.length = rest.length + 1 := by rw [hsrc, List.length_cons]
      simp only [Encoder.write, hl, hr]
      omega
    · simp only [Encoder.write, hc]
      rw [hcrc, fcsFold_append_singleton]

/-- `gfr` with nothing to send: a flag. -/
theorem flagIdle {done : List (Option Frame)} (hprod : s.Produced out (line done))
    (hlevel : s.blevel < 0x800) (hib : s.ib < 6) {t : Encoder}
    (ht : t = Encoder.push { s with flag := 2 } 0x7e) :
    t.write.1.Produced (out ++ [t.write.2]) (line (done ++ [none])) := by
  have hzero : s.ib >>> 12 = 0 := by rw [Nat.shiftRight_eq_div_pow]; omega
  rw [line_append_singleton]
  refine hprod.push hlevel rfl rfl (by rw [ht]; exact hzero) ht rfl ?_
  rw [hzero]
  rfl

/-- The encoder asks `gfr` for a frame. -/
theorem ask (hsend : Sendable answers) (h : Sending answers s e out used gen)
    (hlevel : s.blevel < 0x800) (hflag : s.flag = 2) (hlen : s.len = 0) (hib : s.ib < 6)
    (hgen : gen = line (used ++ List.replicate e.idle none)) {t : Encoder × Feed}
    (ht : t = s.switch Feed.gfr Feed.nmb e) :
    ∃ used' gen', Sending answers t.1.write.1 t.2 (out ++ [t.1.write.2]) used' gen' := by
  have hprod : s.Produced out (line (used ++ List.replicate e.idle none)) := hgen ▸ h.produced
  cases hans : e.answers with
  | nil =>
    have hgfr : e.gfr = (none, { e with idle := e.idle + 1 }) := by rw [Feed.gfr, hans]
    rw [Encoder.switch_get_none hflag hlen (by rw [hgfr]), hgfr] at ht
    subst ht
    refine ⟨used, _, h.split, fun _ => ⟨hans, rfl, hlevel⟩, ?_, flagIdle hprod hlevel hib rfl⟩
    · rw [List.append_assoc, ← List.replicate_succ']
      exact .idle _ rfl hlen hib
  | cons a as =>
    have hidle : e.idle = 0 := by
      by_contra hne
      exact absurd (h.idle hne).1 (by rw [hans]; exact List.cons_ne_nil _ _)
    have hsplit : used ++ [a] ++ as = answers := by
      rw [List.append_assoc, List.singleton_append, ← hans, h.split]
    rw [hidle, List.replicate_zero, List.append_nil] at hprod
    cases a with
    | none =>
      have hgfr : e.gfr = (none, { e with answers := as }) := by rw [Feed.gfr, hans]
      rw [Encoder.switch_get_none hflag hlen (by rw [hgfr]), hgfr] at ht
      subst ht
      refine ⟨used ++ [none], _, hsplit, fun hne => absurd hidle hne, ?_,
        flagIdle hprod hlevel hib rfl⟩
      simp only [hidle, List.replicate_zero, List.append_nil]
      exact .idle _ rfl hlen hib
    | some p =>
      obtain ⟨hpos, hlt⟩ := hsend p (by rw [← hsplit]; simp)
      obtain ⟨b, rest, hp⟩ := List.exists_cons_of_length_pos (l := p) (by omega)
      have hgfr : e.gfr = (some p, { e with answers := as }) := by rw [Feed.gfr, hans]
      rw [Encoder.switch_get_some hflag hpos hlt (by rw [hgfr]), hgfr] at ht
      have hzero : s.ib >>> 12 = 0 := by rw [Nat.shiftRight_eq_div_pow]; omega
      have hs : Encoder.Produced
          { s with flag := 3, src := p, len := p.length - 1, crc := 0xffff, ib := 0 } out
          (line used ++ stuff 0 (bytesBits [])) := by
        obtain ⟨-, pend, hholds, hbits⟩ := hprod
        refine ⟨by simp, pend, ⟨hholds.tmp, hholds.level, hholds.room⟩, ?_⟩
        rw [hzero] at hbits
        rw [bytesBits_nil, stuff, List.append_nil, ← hbits, Nat.zero_shiftRight]
      have hones : carried (0 >>> 12) = stuffOnes 0 (bytesBits []) := by decide
      generalize hu : Encoder.byte
        { s with flag := 3, src := p, len := p.length - 1, crc := 0xffff, ib := 0 } = u at ht
      obtain ⟨hprod', hcarried, hf, hl, hr, hc⟩ := hs.byte hlevel hones hp hu.symm
      have hphase : u.write.1.Phase (used ++ [some ([] ++ [b] ++ u.write.1.src)])
          (line used ++ stuff 0 (bytesBits ([] ++ [b]))) := by
        refine .body used ([] ++ [b]) hf ?_ hc hcarried
        simp only [Encoder.write, hl, hr]
        rw [hp, List.length_cons, Nat.add_sub_cancel]
      have hframe : [] ++ [b] ++ u.write.1.src = p := by
        simp only [Encoder.write, hr]
        rw [hp, List.nil_append, List.singleton_append]
      subst ht
      refine ⟨used ++ [some p], _, hsplit, fun hne => absurd hidle hne, ?_, hprod'⟩
      simp only [hidle, List.replicate_zero, List.append_nil]
      rwa [hframe] at hphase

/-- An execution that runs through the `switch`. -/
theorem switch (hsend : Sendable answers) (h : Sending answers s e out used gen)
    (hlevel : s.blevel < 0x800) (hlen : s.len = 0) {t : Encoder × Feed}
    (ht : t = s.switch Feed.gfr Feed.nmb e) :
    ∃ used' gen', Sending answers t.1.write.1 t.2 (out ++ [t.1.write.2]) used' gen' := by
  have hphase := h.phase
  generalize hdone : used ++ List.replicate e.idle none = done at hphase
  cases hphase with
  | start hflag hlen hib =>
    rw [Encoder.switch_first hflag] at ht
    subst ht
    obtain ⟨hprod, -⟩ := h.produced.flagSequence hlevel rfl
    have hidle := h.idle_eq_zero (by omega)
    refine ⟨used, _, h.split, fun hne => absurd hidle hne, ?_, hprod⟩
    rw [hdone]
    exact .closing _ _ rfl hlen rfl
  | closing done gen hflag hlen hgen =>
    rw [Encoder.switch_second hflag] at ht
    subst ht
    obtain ⟨hprod, hib⟩ := h.produced.flagSequence hlevel rfl
    have hidle := h.idle_eq_zero (by omega)
    refine ⟨used, _, h.split, fun hne => absurd hidle hne, ?_, hgen ▸ hprod⟩
    rw [hdone]
    exact .idle _ rfl hlen hib
  | idle done hflag hlen hib =>
    subst hdone
    exact ask hsend h hlevel hflag hlen hib rfl ht
  | body done sent hflag hlen' hcrc hones =>
    have hidle := h.idle_eq_zero (by omega)
    have hsrc : s.src = [] := List.eq_nil_of_length_eq_zero (hlen'.symm.trans hlen)
    rw [Encoder.switch_check hflag rfl hlen, hcrc, ← toNat_ofNat_eq_lo8] at ht
    have hs : Encoder.Produced { s with flag := 4, crc := fcsFold sent ^^^ 0xffff } out
        (line done ++ stuff 0 (bytesBits sent)) := h.produced.congr rfl rfl rfl
    obtain ⟨hprod, hcarried⟩ := hs.data hlevel hones rfl rfl
    subst ht
    refine ⟨used, _, h.split, fun hne => absurd hidle hne, ?_, hprod⟩
    have hframe : done ++ [some (sent ++ s.src)] = done ++ [some sent] := by
      rw [hsrc, List.append_nil]
    simp only [Feed.nmb]
    rw [hdone, hframe]
    exact .check done sent (Encoder.data_flag _ _) ((Encoder.data_len _ _).trans hlen)
      (Encoder.data_crc _ _) hcarried
  | check done p hflag hlen hcrc hones =>
    have hidle := h.idle_eq_zero (by omega)
    rw [Encoder.switch_last hflag, ← toNat_ofNat_eq_lo8, hcrc] at ht
    have hs : Encoder.Produced { s with flag := 1, crc := fcsFold p ^^^ 0xffff } out _ :=
      h.produced.congr rfl rfl rfl
    obtain ⟨hprod, hcarried⟩ := hs.data hlevel hones rfl rfl
    subst ht
    refine ⟨used, _, h.split, fun hne => absurd hidle hne, ?_, hprod⟩
    rw [hdone]
    refine .closing _ _ (Encoder.data_flag _ _) ((Encoder.data_len _ _).trans hlen) ?_
    rw [line_append_singleton, piece, checked, fcsBytes, List.append_assoc, List.append_assoc]
    rfl

/-- **One execution keeps the invariant.** -/
theorem step (hsend : Sendable answers) (h : Sending answers s e out used gen) :
    ∃ used' gen', Sending answers (encodeStep s e).1 (encodeStep s e).2.1
      (out ++ [(encodeStep s e).2.2]) used' gen' := by
  rcases encodeStep_cases s e with ⟨hlevel, t, ht, heq⟩ | ⟨hlevel, hlen, t, ht, heq⟩ |
    ⟨hlevel, hlen, t, ht, heq⟩ <;> rw [heq]
  · refine ⟨used, gen, h.split, fun hne => ?_, ?_, h.produced.spill hlevel ht⟩
    · have := (h.idle hne).2.2
      omega
    · rw [ht]
      exact h.phase.spill _ _
  · exact h.switch hsend hlevel hlen ht
  · obtain ⟨gen', h'⟩ := h.byte hlevel hlen ht
    exact ⟨used, gen', h'⟩

/-- **So does a run.** -/
theorem run (hsend : Sendable answers) (h : Sending answers s e out used gen) (n : Nat) :
    ∃ used' gen', Sending answers (encodeRun n s e).1 (encodeRun n s e).2.1
      (out ++ (encodeRun n s e).2.2) used' gen' := by
  induction n generalizing s e out used gen with
  | zero => exact ⟨used, gen, by rw [encodeRun, List.append_nil]; exact h⟩
  | succ n ih =>
    obtain ⟨used', gen', h'⟩ := h.step hsend
    obtain ⟨used'', gen'', h''⟩ := ih h'
    refine ⟨used'', gen'', ?_⟩
    rw [List.append_assoc] at h''
    exact h''

end Sending

theorem sending_zero (answers : List (Option Frame)) :
    Sending answers Encoder.zero ⟨answers, 0⟩ [] [] [] :=
  ⟨rfl, fun hne => absurd rfl hne, .start rfl rfl rfl, by decide, [], ⟨rfl, rfl, by decide⟩, rfl⟩

/-- **What is on the line** once `gfr` has run dry and was asked again: all the frames it had, in
order, and flags after them of which the last may be cut short. -/
theorem encodeRun_spec {answers : List (Option Frame)} (hsend : Sendable answers) (n : Nat)
    (hidle : (encodeRun n Encoder.zero ⟨answers, 0⟩).2.1.idle ≠ 0) :
    ∃ rest, rest.length < 8 ∧
      bytesBits (encodeRun n Encoder.zero ⟨answers, 0⟩).2.2 ++ rest
        = line (answers ++
            List.replicate (encodeRun n Encoder.zero ⟨answers, 0⟩).2.1.idle none) := by
  obtain ⟨used, gen, h⟩ := (sending_zero answers).run hsend n
  rw [List.nil_append] at h
  generalize encodeRun n Encoder.zero ⟨answers, 0⟩ = r at h hidle ⊢
  obtain ⟨hdry, hflag, hlevel⟩ := h.idle hidle
  have hused : used = answers := by have := h.split; rwa [hdry, List.append_nil] at this
  have hphase := h.phase
  rw [hused] at hphase
  generalize hdone : answers ++ List.replicate r.2.1.idle none = done at hphase ⊢
  obtain ⟨-, pend, hholds, hbits⟩ := h.produced
  have hpend : pend.length < 8 := by have := hholds.level; omega
  cases hphase with
  | start hf | closing _ _ hf | body _ _ hf | check _ _ hf => exact absurd hf (by omega)
  | idle done hf hlen hib =>
    have hzero : r.1.ib >>> 12 = 0 := by rw [Nat.shiftRight_eq_div_pow]; omega
    rw [hzero] at hbits
    exact ⟨pend, hpend, by simpa [postponed] using hbits⟩

/-! ## The encoder runs dry

Every execution that does not ask `gfr` in vain gets closer to the end: `weight` counts what is left
to do, twice, so that the extra execution which writes a byte left in the register can be counted
once. -/

/-- The executions an answer of `gfr` takes. -/
def pieceCost : Option Frame → Nat
  | none => 1
  | some p => p.length + 3

/-- The executions that are left of the piece the encoder is in. -/
def Encoder.todo (s : Encoder) : Nat :=
  match s.flag with
  | 0 => 2
  | 1 => 1
  | 3 => s.len + 3
  | 4 => 2
  | _ => 0

/-- What is left to do, twice, and the byte left in the register. -/
def weight (s : Encoder) (e : Feed) : Nat :=
  2 * (s.todo + (e.answers.map pieceCost).sum) + if 0x800 ≤ s.blevel then 1 else 0

/-- An execution that takes one off the count makes progress, whatever it leaves in the register. -/
theorem weight_lt {s t : Encoder} {e f : Feed} (hlevel : s.blevel < 0x800)
    (h : t.todo + (f.answers.map pieceCost).sum + 1 = s.todo + (e.answers.map pieceCost).sum) :
    weight t.write.1 f < weight s e := by
  have htodo : t.write.1.todo = t.todo := rfl
  rw [weight, weight, htodo, if_neg (show ¬ 0x800 ≤ s.blevel by omega)]
  split <;> omega

theorem Encoder.todo_of_flag_len {s t : Encoder} (hflag : s.flag = t.flag) (hlen : s.len = t.len) :
    s.todo = t.todo := by
  rw [todo, todo, hflag, hlen]

namespace Sending

variable {answers used : List (Option Frame)} {s : Encoder} {e : Feed} {out : List UInt8}
  {gen : List Bool}

/-- **One execution** asks in vain or makes progress. -/
theorem progress (hsend : Sendable answers) (h : Sending answers s e out used gen) :
    (encodeStep s e).2.1.idle = e.idle + 1 ∨
      (weight (encodeStep s e).1 (encodeStep s e).2.1 < weight s e ∧
        (encodeStep s e).2.1.idle = e.idle) := by
  rcases encodeStep_cases s e with ⟨hlevel, t, ht, heq⟩ | ⟨hlevel, hlen, t, ht, heq⟩ |
    ⟨hlevel, hlen, t, ht, heq⟩ <;> rw [heq]
  · right
    obtain ⟨-, pend, hholds, -⟩ := h.produced
    have hroom := hholds.room
    have hlevel' := hholds.level
    have htodo : t.write.1.todo = s.todo :=
      Encoder.todo_of_flag_len (by simp only [ht, Encoder.write]) (by simp only [ht, Encoder.write])
    have hblevel : t.write.1.blevel = s.blevel - 0x800 := by simp only [ht, Encoder.write]
    refine ⟨?_, rfl⟩
    simp only
    rw [weight, weight, if_pos hlevel, if_neg (by omega), htodo]
    omega
  · have hphase := h.phase
    generalize hdone : used ++ List.replicate e.idle none = done at hphase
    cases hphase with
    | start hflag hlen hib =>
      rw [Encoder.switch_first hflag] at ht
      subst ht
      refine .inr ⟨weight_lt hlevel ?_, rfl⟩
      simp [Encoder.todo, Encoder.flagSequence, Encoder.push, hflag]
      omega
    | closing done gen hflag hlen hgen =>
      rw [Encoder.switch_second hflag] at ht
      subst ht
      refine .inr ⟨weight_lt hlevel ?_, rfl⟩
      simp [Encoder.todo, Encoder.flagSequence, Encoder.push, hflag]
      omega
    | idle done hflag hlen hib =>
      cases hans : e.answers with
      | nil =>
        have hgfr : e.gfr = (none, { e with idle := e.idle + 1 }) := by rw [Feed.gfr, hans]
        rw [Encoder.switch_get_none hflag hlen (by rw [hgfr]), hgfr] at ht
        subst ht
        exact .inl rfl
      | cons a as =>
        have hgfr : e.gfr = (a, { e with answers := as }) := by rw [Feed.gfr, hans]
        cases a with
        | none =>
          rw [Encoder.switch_get_none hflag hlen (by rw [hgfr]), hgfr] at ht
          subst ht
          refine .inr ⟨weight_lt hlevel ?_, rfl⟩
          simp [Encoder.todo, Encoder.push, hflag, hans, pieceCost]
          omega
        | some p =>
          obtain ⟨hpos, hlt⟩ := hsend p (by rw [← h.split, hans]; simp)
          rw [Encoder.switch_get_some hflag hpos hlt (by rw [hgfr]), hgfr] at ht
          subst ht
          refine .inr ⟨weight_lt hlevel ?_, rfl⟩
          simp [Encoder.todo, Encoder.byte, hflag, hans, pieceCost]
          omega
    | body done sent hflag hlen' hcrc hones =>
      rw [Encoder.switch_check hflag rfl hlen] at ht
      subst ht
      refine .inr ⟨weight_lt hlevel ?_, rfl⟩
      simp [Encoder.todo, hflag, hlen, Feed.nmb]
      omega
    | check done p hflag hlen hcrc hones =>
      rw [Encoder.switch_last hflag] at ht
      subst ht
      refine .inr ⟨weight_lt hlevel ?_, rfl⟩
      simp [Encoder.todo, hflag]
      omega
  · have hphase := h.phase
    generalize hdone : used ++ List.replicate e.idle none = done at hphase
    cases hphase with
    | start _ hzero | closing _ _ _ hzero | idle _ _ hzero | check _ _ _ hzero =>
      exact absurd hzero hlen
    | body done sent hflag hlen' hcrc hones =>
      subst ht
      refine .inr ⟨weight_lt hlevel ?_, rfl⟩
      simp [Encoder.todo, Encoder.byte, hflag]
      omega

/-- **Enough executions** ask in vain once more. -/
theorem exists_idle_succ (hsend : Sendable answers) (h : Sending answers s e out used gen) :
    ∃ n, (encodeRun n s e).2.1.idle = e.idle + 1 := by
  generalize hw : weight s e = w
  induction w using Nat.strong_induction_on generalizing s e out used gen with
  | _ w ih =>
    obtain ⟨used', gen', h'⟩ := h.step hsend
    rcases h.progress hsend with hidle | ⟨hlt, hidle⟩
    · exact ⟨1, hidle⟩
    · obtain ⟨n, hn⟩ := ih _ (hw ▸ hlt) h' rfl
      exact ⟨n + 1, by rw [encodeRun]; simp only; rw [hn, hidle]⟩

end Sending

theorem encodeRun_add (n k : Nat) (s : Encoder) (e : Feed) :
    (encodeRun (n + k) s e).2.1
      = (encodeRun k (encodeRun n s e).1 (encodeRun n s e).2.1).2.1 := by
  induction n generalizing s e with
  | zero => rw [Nat.zero_add, encodeRun]
  | succ n ih =>
    rw [Nat.add_right_comm, encodeRun]
    simp only
    rw [ih]
    rfl

/-- **The encoder gets past all its frames**, and on to any number of idle calls. -/
theorem exists_idle {answers : List (Option Frame)} (hsend : Sendable answers) (k : Nat) :
    ∃ n, (encodeRun n Encoder.zero ⟨answers, 0⟩).2.1.idle = k := by
  induction k with
  | zero => exact ⟨0, rfl⟩
  | succ k ih =>
    obtain ⟨n, hn⟩ := ih
    obtain ⟨used, gen, h⟩ := (sending_zero answers).run hsend n
    obtain ⟨j, hj⟩ := h.exists_idle_succ hsend
    exact ⟨n + j, by rw [encodeRun_add, hj, hn]⟩

end Hdlc
end Isdn4bsd
