import Isdn4bsd.Hdlc.Conforming

/-!
# The HDLC encoder on a D-channel

The D-channel variant of `HDLC_ENCODE`, as `tx_hdlc_emulation_dchan` runs it.  Between frames it
sends ones, the opening flag of a frame starts at a byte boundary, and there is a single closing
flag, at whatever bit the frame ends, followed by two idle bytes.  To align the opening flag the
encoder overwrites its shift register, so the ones that were still in there are not sent.

* `dline` : the line, as the answers of `gfr` decide it.
* `Sending.Dchan.step` and `Sending.Dchan.run` : the bytes written and the register are on it.
* `hdlc_round_trip_dchan` : the decoder reports the frames that were sent, and nothing else.

## The overwritten register

On a B-channel the register is never given up, and what was written and what is in it together are the line.  Here the
bits in the register are lost when a frame begins.  In idle they are ones, and so are the bits the encoder sends in
their place up to the boundary of a byte: `Encoder.Produced.opened` is the step in which the line is one in which
they are left out.  How many ones there are between two frames hence depends on the bit at which the last frame
ended, and `opened` computes it.

## After the last frame

A closing flag that ends in the middle of a byte is not complete on the line until the idle byte behind it is sent.
So the receiver has got all frames once both idle bytes were sent (`DDry`), and `exists_dry` is that enough executions
get there.
-/

set_option autoImplicit false

namespace Isdn4bsd
namespace Hdlc

open Bits BitStuff

namespace Encoder

/-- The `switch (++flag)` of the D-channel encoding. -/
def switchDchan {σ : Type} (gfr nmb : σ → Option (List UInt8) × σ) (s : Encoder) (e : σ) :
    Encoder × σ :=
  match (s.flag + 1) % 2 ^ 8 with
  | 3 =>
    let r := gfr e
    let s := { s with flag := 3 }.load r.1
    if s.len = 0 then ({ s with flag := 2 }.push 0xff, r.2)
    -- idle byte #3 and the first flag; no byte of the frame is read yet
    else ({ s with crc := 0xffff, ib := 0, tmp := 0x7eff, blevel := 0x800 }, r.2)
  | 4 =>
    let r := nmb e
    let s := { s with flag := 4 }.load r.1
    if s.len = 0 then ({ s with crc := s.crc ^^^ 0xffff }.data (lo8 (s.crc ^^^ 0xffff)), r.2)
    else ({ s with len := s.len - 1, flag := 3 }.byte, r.2)
  | 5 => ({ s with flag := 5 }.data (lo8 (s.crc >>> 8)), e)
  | 6 => ({ s with flag := 0 }.flagSequence, e)
  | f => ({ s with flag := f }.push 0xff, e)

section SwitchCases

variable {σ : Type} {gfr nmb : σ → Option (List UInt8) × σ} {s : Encoder} {e : σ}

theorem switchDchan_idle (h : s.flag < 2) :
    s.switchDchan gfr nmb e = ({ s with flag := s.flag + 1 }.push 0xff, e) := by
  have hcases : s.flag = 0 ∨ s.flag = 1 := by omega
  rcases hcases with h | h <;> simp [switchDchan, h]

theorem switchDchan_get_none (h : s.flag = 2) (hlen : s.len = 0) (hgfr : (gfr e).1 = none) :
    s.switchDchan gfr nmb e = ({ s with flag := 2 }.push 0xff, (gfr e).2) := by
  simp [switchDchan, h, hgfr, load, hlen]

theorem switchDchan_get_some (h : s.flag = 2) {p : List UInt8} (hpos : 1 ≤ p.length)
    (hlt : p.length < 2 ^ 16) (hgfr : (gfr e).1 = some p) :
    s.switchDchan gfr nmb e =
      ({ s with flag := 3, src := p, len := p.length, crc := 0xffff, ib := 0, tmp := 0x7eff,
                blevel := 0x800 }, (gfr e).2) := by
  have hmod : p.length % 2 ^ 16 = p.length := Nat.mod_eq_of_lt hlt
  have hne : p.length ≠ 0 := by omega
  simp only [switchDchan, h, hgfr, load, hmod, if_neg hne]
  rfl

theorem switchDchan_check (h : s.flag = 3) (hnmb : (nmb e).1 = none) (hlen : s.len = 0) :
    s.switchDchan gfr nmb e =
      ({ s with flag := 4, crc := s.crc ^^^ 0xffff }.data (lo8 (s.crc ^^^ 0xffff)), (nmb e).2) := by
  simp [switchDchan, h, hnmb, load, hlen]

theorem switchDchan_last (h : s.flag = 4) :
    s.switchDchan gfr nmb e = ({ s with flag := 5 }.data (lo8 (s.crc >>> 8)), e) := by
  simp [switchDchan, h]

theorem switchDchan_close (h : s.flag = 5) :
    s.switchDchan gfr nmb e = ({ s with flag := 0 }.flagSequence, e) := by
  simp [switchDchan, h]

end SwitchCases

end Encoder

/-- `HDLC_ENCODE` with `HDLC_ENCODE_TYPE` set to the D-channel encoding. -/
def hdlcEncodeDchan {σ : Type} (gfr nmb : σ → Option (List UInt8) × σ) (s : Encoder) (e : σ) :
    Encoder × σ × UInt8 :=
  let r : Encoder × σ :=
    if 0x800 ≤ s.blevel then ({ s with blevel := s.blevel - 0x800 }, e)
    else if s.len = 0 then s.switchDchan gfr nmb e
    else ({ s with len := s.len - 1 }.byte, e)
  (r.1.write.1, r.2, r.1.write.2)

/-- The body of the loop of `tx_hdlc_emulation_dchan`, with the commands of `tx_hdlc_emulation`. -/
def encodeStepDchan (s : Encoder) (e : Feed) : Encoder × Feed × UInt8 :=
  hdlcEncodeDchan Feed.gfr Feed.nmb s e

/-- `n` executions; the bytes are those written to `dst`. -/
def encodeRunDchan : Nat → Encoder → Feed → Encoder × Feed × List UInt8
  | 0, s, e => (s, e, [])
  | n + 1, s, e =>
    let r := encodeStepDchan s e
    let q := encodeRunDchan n r.1 r.2.1
    (q.1, q.2.1, r.2.2 :: q.2.2)

/-! ## The line -/

/-- Idle. -/
def ones (n : Nat) : List Bool := List.replicate n true

/-- Idle up to the next byte boundary, one bit at least, and the opening flag. -/
def opened (gen : List Bool) : List Bool := gen ++ ones (8 - gen.length % 8) ++ BitStuff.flag

/-- What one answer of `gfr` adds to the line. -/
def dpiece (gen : List Bool) : Option Frame → List Bool
  | none => gen ++ ones 8
  | some p => opened gen ++ refFrame p ++ BitStuff.flag ++ ones 16

/-- The line after the answers `done`. -/
def dline (done : List (Option Frame)) : List Bool := done.foldl dpiece (ones 16)

theorem dline_append_singleton (done : List (Option Frame)) (a : Option Frame) :
    dline (done ++ [a]) = dpiece (dline done) a := by
  rw [dline, List.foldl_append]
  rfl

theorem prefix_dpiece (gen : List Bool) (a : Option Frame) : gen <+: dpiece gen a := by
  cases a with
  | none => exact List.prefix_append _ _
  | some p =>
    rw [dpiece, opened]
    simp only [List.append_assoc]
    exact List.prefix_append _ _

theorem dline_isPrefix (xs ys : List (Option Frame)) : dline xs <+: dline (xs ++ ys) := by
  induction ys using List.reverseRecOn with
  | nil => rw [List.append_nil]
  | append_singleton ys a ih =>
    rw [← List.append_assoc, dline_append_singleton]
    exact ih.trans (prefix_dpiece _ _)

/-- The line is in idle after every answer. -/
theorem dline_suffix (done : List (Option Frame)) : ∃ gen, dline done = gen ++ ones 8 := by
  cases done using List.reverseRecOn with
  | nil => exact ⟨ones 8, rfl⟩
  | append_singleton done a =>
    rw [dline_append_singleton]
    cases a with
    | none => exact ⟨_, rfl⟩
    | some p => exact ⟨_ ++ ones 8, by rw [dpiece, List.append_assoc _ (ones 8)]; rfl⟩

/-! ## Runs -/

/-- Where on the line the encoder is: `done` are the answers of `gfr` so far, the last of them
perhaps not complete, and `gen` is what has been produced. -/
inductive Encoder.DPhase (s : Encoder) : List (Option Frame) → List Bool → Prop where
  | fill (done : List (Option Frame)) (gen : List Bool) (hflag : s.flag ≤ 2) (hlen : s.len = 0)
      (hib : s.ib < 6) (hlevel : 1 ≤ s.flag → s.blevel < 0x800)
      (hgen : gen ++ ones (8 * (2 - s.flag)) = dline done) : DPhase s done gen
  | body (done : List (Option Frame)) (sent : Frame) (hflag : s.flag = 3)
      (hlen : s.len = s.src.length) (hcrc : s.crc = fcsFold sent)
      (hones : carried (s.ib >>> 12) = stuffOnes 0 (bytesBits sent)) :
      DPhase s (done ++ [some (sent ++ s.src)])
        (opened (dline done) ++ stuff 0 (bytesBits sent))
  | check (done : List (Option Frame)) (p : Frame) (hflag : s.flag = 4) (hlen : s.len = 0)
      (hcrc : s.crc = fcsFold p ^^^ 0xffff)
      (hones : carried (s.ib >>> 12)
        = stuffOnes 0 (bytesBits (p ++ [UInt8.ofNat (fcsFold p ^^^ 0xffff)]))) :
      DPhase s (done ++ [some p])
        (opened (dline done) ++ stuff 0 (bytesBits (p ++ [UInt8.ofNat (fcsFold p ^^^ 0xffff)])))
  | close (done : List (Option Frame)) (p : Frame) (hflag : s.flag = 5) (hlen : s.len = 0) :
      DPhase s (done ++ [some p]) (opened (dline done) ++ stuff 0 (bytesBits (checked p)))

theorem dline_some (done : List (Option Frame)) (p : Frame) :
    dline (done ++ [some p])
      = opened (dline done) ++ stuff 0 (bytesBits (checked p)) ++ BitStuff.flag ++ ones 16 := by
  rw [dline_append_singleton, dpiece, refFrame_eq]

theorem stuff_bytes_isPrefix {p q : Frame} (h : p <+: q) :
    stuff 0 (bytesBits p) <+: stuff 0 (bytesBits q) := by
  obtain ⟨r, rfl⟩ := h
  rw [bytesBits_append, stuff_append]
  exact List.prefix_append _ _

/-- What has been produced is on the line. -/
theorem Encoder.DPhase.gen_prefix {s : Encoder} {done : List (Option Frame)} {gen : List Bool}
    (h : s.DPhase done gen) : gen <+: dline done := by
  have hframe : ∀ (done : List (Option Frame)) (p q : Frame), q <+: checked p →
      opened (dline done) ++ stuff 0 (bytesBits q) <+: dline (done ++ [some p]) := by
    intro done p q hq
    rw [dline_some, List.append_assoc, List.append_assoc]
    refine (List.prefix_append_right_inj _).mpr ?_
    exact (stuff_bytes_isPrefix hq).trans (List.prefix_append _ _)
  cases h with
  | fill done gen hflag hlen hib hlevel hgen => exact ⟨_, hgen⟩
  | body done sent hflag hlen hcrc hones =>
    refine hframe done _ _ ?_
    rw [checked, List.append_assoc]
    exact List.prefix_append _ _
  | check done p hflag hlen hcrc hones =>
    refine hframe done _ _ ?_
    rw [checked, fcsBytes]
    exact ⟨[UInt8.ofNat ((fcsFold p ^^^ 0xffff) >>> 8)], by simp⟩
  | close done p hflag hlen => exact hframe done _ _ (List.prefix_refl _)

/-- The run invariant: `answers` are what `gfr` had to give at the start. -/
structure DSending (answers : List (Option Frame)) (s : Encoder) (e : Feed) (out : List UInt8)
    (used : List (Option Frame)) (gen : List Bool) : Prop where
  split : used ++ e.answers = answers
  idle : e.idle ≠ 0 → e.answers = [] ∧ s.flag = 2
  phase : s.DPhase (used ++ List.replicate e.idle none) gen
  produced : s.Produced out gen

/-- The three ways an execution of `HDLC_ENCODE` begins. -/
theorem encodeStepDchan_cases (s : Encoder) (e : Feed) :
    (0x800 ≤ s.blevel ∧ ∃ t, t = { s with blevel := s.blevel - 0x800 } ∧
      encodeStepDchan s e = (t.write.1, e, t.write.2)) ∨
    (s.blevel < 0x800 ∧ s.len = 0 ∧ ∃ t, t = s.switchDchan Feed.gfr Feed.nmb e ∧
      encodeStepDchan s e = (t.1.write.1, t.2, t.1.write.2)) ∨
    (s.blevel < 0x800 ∧ s.len ≠ 0 ∧ ∃ t, t = Encoder.byte { s with len := s.len - 1 } ∧
      encodeStepDchan s e = (t.write.1, e, t.write.2)) := by
  by_cases hlevel : 0x800 ≤ s.blevel
  · exact .inl ⟨hlevel, _, rfl, by simp only [encodeStepDchan, hdlcEncodeDchan, if_pos hlevel]⟩
  · by_cases hlen : s.len = 0
    · refine .inr (.inl ⟨by omega, hlen, _, rfl, ?_⟩)
      simp only [encodeStepDchan, hdlcEncodeDchan, if_neg hlevel, if_pos hlen]
    · refine .inr (.inr ⟨by omega, hlen, _, rfl, ?_⟩)
      simp only [encodeStepDchan, hdlcEncodeDchan, if_neg hlevel, if_neg hlen]

theorem Encoder.DPhase.spill {s : Encoder} {done : List (Option Frame)} {gen : List Bool}
    (h : s.DPhase done gen) (hlevel : 0x800 ≤ s.blevel) (tmp blevel : Nat) :
    Encoder.DPhase { s with tmp := tmp, blevel := blevel } done gen := by
  cases h with
  | fill done gen hflag hlen hib hlevel' hgen =>
    exact .fill done gen hflag hlen hib (fun h1 => absurd (hlevel' h1) (by omega)) hgen
  | body done sent hflag hlen hcrc hones => exact .body done sent hflag hlen hcrc hones
  | check done p hflag hlen hcrc hones => exact .check done p hflag hlen hcrc hones
  | close done p hflag hlen => exact .close done p hflag hlen

/-- An idle byte. -/
theorem Encoder.Produced.idle {s : Encoder} {out : List UInt8} {gen : List Bool}
    (h : s.Produced out gen) (hlevel : s.blevel < 0x800) (hib : s.ib < 6) {f : Nat} {t : Encoder}
    (ht : t = Encoder.push { s with flag := f } 0xff) :
    t.write.1.Produced (out ++ [t.write.2]) (gen ++ ones 8) := by
  have hzero : s.ib >>> 12 = 0 := by rw [Nat.shiftRight_eq_div_pow]; omega
  refine h.push hlevel (by decide) (by decide) (by rw [ht]; exact hzero) ht rfl ?_
  rw [hzero]
  rfl

theorem eq_ones_of_append {xs pend gen : List Bool} (h : xs ++ pend = gen ++ ones 8)
    (hlt : pend.length ≤ 8) : pend = ones pend.length := by
  have hsplit : ones 8 = ones (8 - pend.length) ++ ones pend.length := by
    rw [ones, ones, ones, List.replicate_append_replicate]
    congr 1
    omega
  rw [hsplit, ← List.append_assoc] at h
  exact (List.append_inj' h (by rw [ones, List.length_replicate])).2

/-- In idle the bits left in the register are ones, so they may as well be left out. -/
theorem Encoder.Produced.opened {s : Encoder} {out : List UInt8} {gen : List Bool}
    (h : s.Produced out (gen ++ ones 8)) (hlevel : s.blevel < 0x800) (hib : s.ib < 6) {t : Encoder}
    (hzero : t.ib = 0) (htmp : t.tmp = 0x7eff) (hblevel : t.blevel = 0x800) :
    t.write.1.Produced (out ++ [t.write.2]) (Hdlc.opened (gen ++ ones 8)) := by
  obtain ⟨-, pend, hholds, hbits⟩ := h
  have hcarry : s.ib >>> 12 = 0 := by rw [Nat.shiftRight_eq_div_pow]; omega
  have hlt : pend.length < 8 := by have := hholds.level; omega
  rw [hcarry, show postponed 0 = [] from rfl, List.append_nil] at hbits
  have hpend : pend = ones pend.length := eq_ones_of_append hbits hlt.le
  have hmod : (gen ++ ones 8).length % 8 = pend.length := by
    rw [← hbits, List.length_append, length_bytesBits]
    omega
  have hloaded : t.Loaded (ones 8 ++ BitStuff.flag) := by
    refine ⟨by rw [htmp]; decide, by rw [hblevel]; decide, by decide⟩
  obtain ⟨hout, hrest⟩ := write_spec hloaded
  refine ⟨by rw [write, hzero]; decide, _, hrest, ?_⟩
  rw [bytesBits_append, bytesBits_singleton, List.append_assoc (bytesBits out), hout, write, hzero,
    Hdlc.opened, hmod, ← hbits]
  have hfill : ones 8 = pend ++ ones (8 - pend.length) := by
    rw [hpend, ones, ones, ones, List.length_replicate, List.replicate_append_replicate]
    congr 1
    omega
  rw [hfill]
  simp [postponed]

namespace DSending

variable {answers used : List (Option Frame)} {s : Encoder} {e : Feed} {out : List UInt8}
  {gen : List Bool}

theorem idle_eq_zero (h : DSending answers s e out used gen) (hflag : s.flag ≠ 2) : e.idle = 0 := by
  by_contra hne
  exact hflag (h.idle hne).2

/-- The next byte of a frame that `gfr` has handed out. -/
theorem byte (h : DSending answers s e out used gen) (hlevel : s.blevel < 0x800)
    (hlen : s.len ≠ 0) {t : Encoder} (ht : t = Encoder.byte { s with len := s.len - 1 }) :
    ∃ gen', DSending answers t.write.1 e (out ++ [t.write.2]) used gen' := by
  have hphase := h.phase
  generalize hdone : used ++ List.replicate e.idle none = done at hphase
  cases hphase with
  | fill done gen hflag hzero => exact absurd hzero hlen
  | check done p hflag hzero => exact absurd hzero hlen
  | close done p hflag hzero => exact absurd hzero hlen
  | body done sent hflag hlen' hcrc hones =>
    have hidle := h.idle_eq_zero (by omega)
    obtain ⟨b, rest, hsrc⟩ := List.exists_cons_of_length_pos (l := s.src) (by omega)
    have hs : Encoder.Produced { s with len := s.len - 1 } out
        (opened (dline done) ++ stuff 0 (bytesBits sent)) := h.produced.congr rfl rfl rfl
    obtain ⟨hprod, hcarried, hf, hl, hr, hc⟩ := hs.byte hlevel hones hsrc ht
    refine ⟨_, h.split, fun hne => absurd hidle hne, ?_, hprod⟩
    have hframe : sent ++ s.src = sent ++ [b] ++ t.write.1.src := by
      rw [hsrc, List.append_assoc]
      simp only [Encoder.write, hr, List.singleton_append]
    rw [hdone, hframe]
    refine .body done (sent ++ [b]) (hf.trans hflag) ?_ ?_ hcarried
    · have hcount : s.src.length = rest.length + 1 := by rw [hsrc, List.length_cons]
      simp only [Encoder.write, hl, hr]
      omega
    · simp only [Encoder.write, hc]
      rw [hcrc, fcsFold_append_singleton]

/-- `gfr` with nothing to send: an idle byte. -/
theorem askNone (h : DSending answers s e out used gen) (hlevel : s.blevel < 0x800)
    (hflag : s.flag = 2) (hlen : s.len = 0) (hib : s.ib < 6)
    (hgen : gen = dline (used ++ List.replicate e.idle none)) {e' : Feed}
    {used' : List (Option Frame)} (hgfr : e.gfr = (none, e')) (hsplit : used' ++ e'.answers = answers)
    (hused : used' ++ List.replicate e'.idle none = used ++ List.replicate e.idle none ++ [none])
    (hidle : e'.idle ≠ 0 → e'.answers = []) {t : Encoder × Feed}
    (ht : t = s.switchDchan Feed.gfr Feed.nmb e) :
    DSending answers t.1.write.1 t.2 (out ++ [t.1.write.2]) used' (gen ++ ones 8) := by
  rw [Encoder.switchDchan_get_none hflag hlen (by rw [hgfr]), hgfr] at ht
  subst ht
  refine ⟨hsplit, fun hne => ⟨hidle hne, rfl⟩, ?_, h.produced.idle hlevel hib rfl⟩
  simp only
  rw [hused]
  refine .fill _ _ (Nat.le_refl 2) hlen hib (fun _ => hlevel) ?_
  rw [dline_append_singleton, dpiece, hgen]
  exact List.append_nil _

/-- The encoder asks `gfr` for a frame. -/
theorem ask (hsend : Sendable answers) (h : DSending answers s e out used gen)
    (hlevel : s.blevel < 0x800) (hflag : s.flag = 2) (hlen : s.len = 0) (hib : s.ib < 6)
    (hgen : gen = dline (used ++ List.replicate e.idle none)) {t : Encoder × Feed}
    (ht : t = s.switchDchan Feed.gfr Feed.nmb e) :
    ∃ used' gen', DSending answers t.1.write.1 t.2 (out ++ [t.1.write.2]) used' gen' := by
  cases hans : e.answers with
  | nil =>
    have hgfr : e.gfr = (none, { e with idle := e.idle + 1 }) := by rw [Feed.gfr, hans]
    refine ⟨used, _, h.askNone hlevel hflag hlen hib hgen hgfr h.split ?_ (fun _ => hans) ht⟩
    rw [List.append_assoc, ← List.replicate_succ']
  | cons a as =>
    have hidle : e.idle = 0 := by
      by_contra hne
      exact absurd (h.idle hne).1 (by rw [hans]; exact List.cons_ne_nil _ _)
    have hsplit : used ++ [a] ++ as = answers := by
      rw [List.append_assoc, List.singleton_append, ← hans, h.split]
    cases a with
    | none =>
      have hgfr : e.gfr = (none, { e with answers := as }) := by rw [Feed.gfr, hans]
      refine ⟨used ++ [none], _, h.askNone hlevel hflag hlen hib hgen hgfr hsplit ?_
        (fun hne => absurd hidle hne) ht⟩
      simp only [hidle, List.replicate_zero, List.append_nil]
    | some p =>
      obtain ⟨hpos, hlt⟩ := hsend p (by rw [← hsplit]; simp)
      have hgfr : e.gfr = (some p, { e with answers := as }) := by rw [Feed.gfr, hans]
      rw [Encoder.switchDchan_get_some hflag hpos hlt (by rw [hgfr]), hgfr] at ht
      obtain ⟨pre, hpre⟩ := dline_suffix used
      rw [hidle, List.replicate_zero, List.append_nil] at hgen
      have hprod := h.produced
      rw [hgen, hpre] at hprod
      subst ht
      refine ⟨used ++ [some p], opened (dline used) ++ stuff 0 (bytesBits []), hsplit,
        fun hne => absurd hidle hne, ?_, ?_⟩
      · simp only [hidle, List.replicate_zero, List.append_nil]
        exact .body used [] rfl rfl rfl (show carried (0 >>> 12) = 0 by decide)
      · rw [bytesBits_nil, stuff, List.append_nil, hpre]
        exact hprod.opened hlevel hib rfl rfl rfl

/-- An execution that runs through the `switch`. -/
theorem switch (hsend : Sendable answers) (h : DSending answers s e out used gen)
    (hlevel : s.blevel < 0x800) (hlen : s.len = 0) {t : Encoder × Feed}
    (ht : t = s.switchDchan Feed.gfr Feed.nmb e) :
    ∃ used' gen', DSending answers t.1.write.1 t.2 (out ++ [t.1.write.2]) used' gen' := by
  have hphase := h.phase
  generalize hdone : used ++ List.replicate e.idle none = done at hphase
  cases hphase with
  | fill done gen hflag hlen hib hlevel' hgen =>
    by_cases h2 : s.flag = 2
    · subst hdone
      rw [h2] at hgen
      exact h.ask hsend hlevel h2 hlen hib ((List.append_nil _).symm.trans hgen) ht
    · rw [Encoder.switchDchan_idle (by omega)] at ht
      subst ht
      have hidle := h.idle_eq_zero h2
      refine ⟨used, _, h.split, fun hne => absurd hidle hne, ?_, h.produced.idle hlevel hib rfl⟩
      rw [hdone]
      refine .fill done _ ?_ hlen hib (fun _ => hlevel) ?_
      · simp only [Encoder.write, Encoder.push]
        omega
      · have hsplit : ones 8 ++ ones (8 * (2 - (s.flag + 1))) = ones (8 * (2 - s.flag)) := by
          rw [ones, ones, ones, List.replicate_append_replicate]
          congr 1
          omega
        rw [← hgen, ← hsplit, List.append_assoc]
        rfl
  | body done sent hflag hlen' hcrc hones =>
    have hidle := h.idle_eq_zero (by omega)
    have hsrc : s.src = [] := List.eq_nil_of_length_eq_zero (hlen'.symm.trans hlen)
    rw [Encoder.switchDchan_check hflag rfl hlen, hcrc, ← toNat_ofNat_eq_lo8] at ht
    have hs : Encoder.Produced { s with flag := 4, crc := fcsFold sent ^^^ 0xffff } out
        (opened (dline done) ++ stuff 0 (bytesBits sent)) := h.produced.congr rfl rfl rfl
    obtain ⟨hprod, hcarried⟩ := hs.data hlevel hones rfl rfl
    subst ht
    refine ⟨used, _, h.split, fun hne => absurd hidle hne, ?_, hprod⟩
    have hframe : done ++ [some (sent ++ s.src)] = done ++ [some sent] := by
      rw [hsrc, List.append_nil]
    simp only [Feed.nmb]
    rw [hdone, hframe]
    exact .check done sent (Encoder.data_flag _ _) ((Encoder.data_len _ _).trans hlen)
      (Encoder.data_crc _ _) hcarried
  | check done p hflag hlen hcrc hones =>
    have hidle := h.idle_eq_zero (by omega)
    rw [Encoder.switchDchan_last hflag, ← toNat_ofNat_eq_lo8, hcrc] at ht
    have hs : Encoder.Produced { s with flag := 5, crc := fcsFold p ^^^ 0xffff } out _ :=
      h.produced.congr rfl rfl rfl
    obtain ⟨hprod, -⟩ := hs.data hlevel hones rfl rfl
    subst ht
    rw [List.append_assoc p] at hprod
    refine ⟨used, _, h.split, fun hne => absurd hidle hne, ?_, hprod⟩
    rw [hdone]
    exact .close done p (Encoder.data_flag _ _) ((Encoder.data_len _ _).trans hlen)
  | close done p hflag hlen =>
    have hidle := h.idle_eq_zero (by omega)
    rw [Encoder.switchDchan_close hflag] at ht
    subst ht
    obtain ⟨hprod, hib⟩ := h.produced.flagSequence hlevel rfl
    refine ⟨used, _, h.split, fun hne => absurd hidle hne, ?_, hprod⟩
    rw [hdone]
    refine .fill _ _ (Nat.zero_le 2) hlen hib (fun h1 => absurd (show 1 ≤ 0 from h1) (by decide)) ?_
    rw [dline_some]
    rfl

/-- **One execution keeps the invariant.** -/
theorem step (hsend : Sendable answers) (h : DSending answers s e out used gen) :
    ∃ used' gen', DSending answers (encodeStepDchan s e).1 (encodeStepDchan s e).2.1
      (out ++ [(encodeStepDchan s e).2.2]) used' gen' := by
  rcases encodeStepDchan_cases s e with ⟨hlevel, t, ht, heq⟩ | ⟨hlevel, hlen, t, ht, heq⟩ |
    ⟨hlevel, hlen, t, ht, heq⟩ <;> rw [heq]
  · refine ⟨used, gen, h.split, fun hne => ?_, ?_, h.produced.spill hlevel ht⟩
    · simp only [ht, Encoder.write]
      exact h.idle hne
    · rw [ht]
      exact h.phase.spill hlevel _ _
  · exact h.switch hsend hlevel hlen ht
  · obtain ⟨gen', h'⟩ := h.byte hlevel hlen ht
    exact ⟨used, gen', h'⟩

/-- **So does a run.** -/
theorem run (hsend : Sendable answers) (h : DSending answers s e out used gen) (n : Nat) :
    ∃ used' gen', DSending answers (encodeRunDchan n s e).1 (encodeRunDchan n s e).2.1
      (out ++ (encodeRunDchan n s e).2.2) used' gen' := by
  induction n generalizing s e out used gen with
  | zero => exact ⟨used, gen, by rw [encodeRunDchan, List.append_nil]; exact h⟩
  | succ n ih =>
    obtain ⟨used', gen', h'⟩ := h.step hsend
    obtain ⟨used'', gen'', h''⟩ := ih h'
    refine ⟨used'', gen'', ?_⟩
    rw [List.append_assoc] at h''
    exact h''

end DSending

theorem dsending_zero (answers : List (Option Frame)) :
    DSending answers Encoder.zero ⟨answers, 0⟩ [] [] [] :=
  ⟨rfl, fun hne => absurd rfl hne,
    .fill [] [] (Nat.zero_le 2) rfl (by decide) (fun h1 => absurd h1 (by decide)) rfl,
    by decide, [], ⟨rfl, rfl, by decide⟩, rfl⟩

/-! ## The receiver -/

theorem Hands.of_append_ones {cap n : Nat} {s : Rx} {xs : List Bool} {fs : List Frame}
    (h : Hands cap s (xs ++ Hdlc.ones n) fs) : Hands cap s xs fs := by
  have hframes := h.frames
  rw [Rx.bits_append, Hdlc.ones, Rx.bits_ones_frames, List.append_nil] at hframes
  exact ⟨((Rx.fits_append _ _ _ _).mp h.fits).1, hframes⟩

/-- **The receiver on the line**: it collects the checked frames, and is out of step again after
each of them. -/
theorem hands_dline {cap : Nat} {done : List (Option Frame)}
    (h : ∀ p, some p ∈ done → 1 ≤ p.length ∧ p.length ≤ cap) :
    Hands cap ⟨0, false, []⟩ (dline done) (done.filterMap id) ∧
      (Rx.bits ⟨0, false, []⟩ (dline done)).1.synced = false := by
  induction done using List.reverseRecOn with
  | nil => exact ⟨.ones (Rx.fits_ones_of_hunt rfl 16), Rx.synced_ones_of_hunt rfl 16⟩
  | append_singleton done a ih =>
    obtain ⟨hhands, hs⟩ := ih (fun p hp => h p (by simp [hp]))
    rw [dline_append_singleton, List.filterMap_append]
    generalize dline done = gen at hhands hs
    cases a with
    | none =>
      rw [dpiece, Rx.bits_append]
      exact ⟨hhands.append (.ones (Rx.fits_ones_of_hunt hs 8)), Rx.synced_ones_of_hunt hs 8⟩
    | some p =>
      have hopen : dpiece gen (some p) = gen ++ (ones (8 - gen.length % 8) ++
          (BitStuff.flag ++ (refFrame p ++ BitStuff.flag ++ ones 16))) := by
        rw [dpiece, opened]
        simp only [List.append_assoc]
      have hs' := Rx.synced_ones_of_hunt hs (8 - gen.length % 8)
      obtain ⟨hframe, hend⟩ := Hands.frame (h p (by simp))
      obtain ⟨hidle, hlost⟩ := Rx.Ready.idle (s := ⟨0, true, []⟩) (.inr rfl) (cap + 2)
        (show 7 ≤ 16 by decide)
      have hlast : Hands cap ⟨0, true, []⟩ (refFrame p ++ BitStuff.flag ++ ones 16) [p] :=
        hframe.append (by rw [hend]; exact .ones hidle)
      rw [hopen]
      refine ⟨hhands.append ((Hands.ones (Rx.fits_ones_of_hunt hs _)).append
        (.flag (.inl hs') hlast)), ?_⟩
      have hsync := (Rx.Ready.flag (.inl hs') 0).2.1
      rw [Rx.bits_append, Rx.bits_append, Rx.bits_append, Rx.bits_append]
      simp only [ones] at hsync ⊢
      rw [hsync, hend]
      exact hlost

/-- **What was sent is received**, once both idle bytes after the last frame were sent. -/
theorem decode_dchan {m : Nat} (hm : 1 ≤ m) (hm' : m + 1 < 2 ^ 16) {answers : List (Option Frame)}
    (hsize : ∀ p, some p ∈ answers → 1 ≤ p.length ∧ p.length ≤ m) (n : Nat)
    (hdry : (encodeRunDchan n Encoder.zero ⟨answers, 0⟩).2.1.answers = [])
    (htwo : (encodeRunDchan n Encoder.zero ⟨answers, 0⟩).1.flag = 2) :
    (decodeRun m Decoder.zero (encodeRunDchan n Encoder.zero ⟨answers, 0⟩).2.2).2
      = (answers.filterMap id).map (fun p => Event.cfr p 0) := by
  have hsend : Sendable answers := fun p hp => ⟨(hsize p hp).1, by have := (hsize p hp).2; omega⟩
  obtain ⟨used, gen, h⟩ := (dsending_zero answers).run hsend n
  rw [List.nil_append] at h
  generalize encodeRunDchan n Encoder.zero ⟨answers, 0⟩ = r at h hdry htwo ⊢
  have hused : used = answers := by have := h.split; rwa [hdry, List.append_nil] at this
  have hphase := h.phase
  rw [hused] at hphase
  generalize hdone : answers ++ List.replicate r.2.1.idle none = done at hphase
  obtain ⟨-, pend, hholds, hbits⟩ := h.produced
  cases hphase with
  | body _ _ hf | check _ _ hf | close _ _ hf => exact absurd hf (by omega)
  | fill done gen hf hlen hib hlevel hgen =>
    have hlevel := hlevel (by omega)
    have hzero : r.1.ib >>> 12 = 0 := by rw [Nat.shiftRight_eq_div_pow]; omega
    have hpend : pend.length < 8 := by have := hholds.level; omega
    rw [htwo, show ones (8 * (2 - 2)) = [] from rfl, List.append_nil] at hgen
    rw [hzero, show postponed 0 = [] from rfl, List.append_nil, hgen] at hbits
    obtain ⟨pre, hpre⟩ := dline_suffix done
    have hones := eq_ones_of_append (hbits.trans hpre) hpend.le
    have hcap : ∀ p, some p ∈ done → 1 ≤ p.length ∧ p.length ≤ m := by
      intro p hp
      rw [← hdone, List.mem_append, List.mem_replicate] at hp
      rcases hp with hp | ⟨-, hp⟩
      · exact hsize p hp
      · cases hp
    have hhands := (hands_dline hcap).1
    rw [← hbits, hones] at hhands
    have hframes : done.filterMap id = answers.filterMap id := by
      rw [← hdone, List.filterMap_append]
      simp
    rw [← hframes]
    exact hhands.of_append_ones.decode hm hm'

/-! ## The encoder runs dry

As on a B-channel every execution gets closer to the end, but for those in idle with nothing to
send. -/

/-- The executions an answer of `gfr` takes. -/
def dpieceCost : Option Frame → Nat
  | none => 1
  | some p => p.length + 6

/-- The executions that are left of the piece the encoder is in, with the two idle bytes. -/
def Encoder.dtodo (s : Encoder) : Nat :=
  match s.flag with
  | 0 => 2
  | 1 => 1
  | 3 => s.len + 5
  | 4 => 4
  | 5 => 3
  | _ => 0

/-- What is left to do, twice, and the byte left in the register. -/
def dweight (s : Encoder) (e : Feed) : Nat :=
  2 * (s.dtodo + (e.answers.map dpieceCost).sum) + if 0x800 ≤ s.blevel then 1 else 0

theorem dweight_lt {s t : Encoder} {e f : Feed} (hlevel : s.blevel < 0x800)
    (h : t.dtodo + (f.answers.map dpieceCost).sum + 1 = s.dtodo + (e.answers.map dpieceCost).sum) :
    dweight t.write.1 f < dweight s e := by
  have htodo : t.write.1.dtodo = t.dtodo := rfl
  rw [dweight, dweight, htodo, if_neg (show ¬ 0x800 ≤ s.blevel by omega)]
  split <;> omega

/-- Nothing to send, and the two idle bytes are on the line. -/
structure DDry (s : Encoder) (e : Feed) : Prop where
  answers : e.answers = []
  flag : s.flag = 2

namespace DSending

variable {answers used : List (Option Frame)} {s : Encoder} {e : Feed} {out : List UInt8}
  {gen : List Bool}

/-- **One execution** makes progress, or there is nothing to do. -/
theorem progress (hsend : Sendable answers) (h : DSending answers s e out used gen)
    (hdry : ¬ DDry s e) :
    dweight (encodeStepDchan s e).1 (encodeStepDchan s e).2.1 < dweight s e := by
  rcases encodeStepDchan_cases s e with ⟨hlevel, t, ht, heq⟩ | ⟨hlevel, hlen, t, ht, heq⟩ |
    ⟨hlevel, hlen, t, ht, heq⟩ <;> rw [heq]
  · obtain ⟨-, pend, hholds, -⟩ := h.produced
    have hroom := hholds.room
    have hlevel' := hholds.level
    have htodo : t.write.1.dtodo = s.dtodo := by
      simp only [ht, Encoder.dtodo, Encoder.write]
    have hblevel : t.write.1.blevel = s.blevel - 0x800 := by simp only [ht, Encoder.write]
    simp only
    rw [dweight, dweight, if_pos hlevel, if_neg (by omega), htodo]
    omega
  · have hphase := h.phase
    generalize hdone : used ++ List.replicate e.idle none = done at hphase
    cases hphase with
    | fill done gen hflag hlen hib hlevel' hgen =>
      by_cases h2 : s.flag = 2
      · cases hans : e.answers with
        | nil => exact absurd ⟨hans, h2⟩ hdry
        | cons a as =>
          have hgfr : e.gfr = (a, { e with answers := as }) := by rw [Feed.gfr, hans]
          cases a with
          | none =>
            rw [Encoder.switchDchan_get_none h2 hlen (by rw [hgfr]), hgfr] at ht
            subst ht
            refine dweight_lt hlevel ?_
            simp [Encoder.dtodo, Encoder.push, h2, hans, dpieceCost]
            omega
          | some p =>
            obtain ⟨hpos, hlt⟩ := hsend p (by rw [← h.split, hans]; simp)
            rw [Encoder.switchDchan_get_some h2 hpos hlt (by rw [hgfr]), hgfr] at ht
            subst ht
            refine dweight_lt hlevel ?_
            simp [Encoder.dtodo, h2, hans, dpieceCost]
            omega
      · rw [Encoder.switchDchan_idle (by omega)] at ht
        subst ht
        refine dweight_lt hlevel ?_
        have hcases : s.flag = 0 ∨ s.flag = 1 := by omega
        rcases hcases with h0 | h0
        · simp [Encoder.dtodo, Encoder.push, h0]
          omega
        · simp [Encoder.dtodo, Encoder.push, h0]
          omega
    | body done sent hflag hlen' hcrc hones =>
      rw [Encoder.switchDchan_check hflag rfl hlen] at ht
      subst ht
      refine dweight_lt hlevel ?_
      simp [Encoder.dtodo, hflag, hlen, Feed.nmb]
      omega
    | check done p hflag hlen hcrc hones =>
      rw [Encoder.switchDchan_last hflag] at ht
      subst ht
      refine dweight_lt hlevel ?_
      simp [Encoder.dtodo, hflag]
      omega
    | close done p hflag hlen =>
      rw [Encoder.switchDchan_close hflag] at ht
      subst ht
      refine dweight_lt hlevel ?_
      simp [Encoder.dtodo, Encoder.flagSequence, Encoder.push, hflag]
      omega
  · have hphase := h.phase
    generalize hdone : used ++ List.replicate e.idle none = done at hphase
    cases hphase with
    | fill _ _ _ hzero | check _ _ _ hzero | close _ _ _ hzero => exact absurd hzero hlen
    | body done sent hflag hlen' hcrc hones =>
      subst ht
      refine dweight_lt hlevel ?_
      simp [Encoder.dtodo, Encoder.byte, hflag]
      omega

/-- With nothing to do it stays so. -/
theorem dry_step (h : DSending answers s e out used gen) (hdry : DDry s e) :
    DDry (encodeStepDchan s e).1 (encodeStepDchan s e).2.1 := by
  obtain ⟨hans, hflag⟩ := hdry
  have hphase := h.phase
  generalize hdone : used ++ List.replicate e.idle none = done at hphase
  cases hphase with
  | body _ _ hf | check _ _ hf | close _ _ hf => exact absurd hf (by omega)
  | fill done gen hf hlen hib hlevel hgen =>
    have hlevel := hlevel (by omega)
    rcases encodeStepDchan_cases s e with ⟨hspill, -⟩ | ⟨-, -, t, ht, heq⟩ | ⟨-, hne, -⟩
    · omega
    · have hgfr : e.gfr = (none, { e with idle := e.idle + 1 }) := by rw [Feed.gfr, hans]
      rw [Encoder.switchDchan_get_none hflag hlen (by rw [hgfr]), hgfr] at ht
      rw [heq, ht]
      exact ⟨hans, rfl⟩
    · exact absurd hlen hne

theorem dry_run (hsend : Sendable answers) (h : DSending answers s e out used gen)
    (hdry : DDry s e) (n : Nat) :
    DDry (encodeRunDchan n s e).1 (encodeRunDchan n s e).2.1 := by
  induction n generalizing s e out used gen with
  | zero => exact hdry
  | succ n ih =>
    obtain ⟨used', gen', h'⟩ := h.step hsend
    exact ih h' (h.dry_step hdry)

/-- **Enough executions** get there. -/
theorem exists_dry (hsend : Sendable answers) (h : DSending answers s e out used gen) :
    ∃ n₀, ∀ n, n₀ ≤ n → DDry (encodeRunDchan n s e).1 (encodeRunDchan n s e).2.1 := by
  generalize hw : dweight s e = w
  induction w using Nat.strong_induction_on generalizing s e out used gen with
  | _ w ih =>
    by_cases hdry : DDry s e
    · exact ⟨0, fun n _ => h.dry_run hsend hdry n⟩
    · obtain ⟨used', gen', h'⟩ := h.step hsend
      obtain ⟨n₀, hn₀⟩ := ih _ (hw ▸ h.progress hsend hdry) h' rfl
      refine ⟨n₀ + 1, fun n hn => ?_⟩
      obtain ⟨k, rfl⟩ := Nat.exists_eq_add_of_le' (show 1 ≤ n by omega)
      exact hn₀ k (by omega)

end DSending

/-- **The round trip on a D-channel.**  Frames of 1 to 2048 bytes, with any number of idle calls
before and between them, go through the encoder and, into receive buffers of 2050 bytes, through
the decoder: exactly they are reported, each with a check of zero, as soon as the two idle bytes
after the last frame are out.  The encoder does get there, and stays there. -/
theorem hdlc_round_trip_dchan (answers : List (Option Frame))
    (hsize : ∀ p, some p ∈ answers → 1 ≤ p.length ∧ p.length ≤ 2048) :
    (∃ n₀, ∀ n, n₀ ≤ n → DDry (encodeRunDchan n Encoder.zero ⟨answers, 0⟩).1
      (encodeRunDchan n Encoder.zero ⟨answers, 0⟩).2.1) ∧
      ∀ n, DDry (encodeRunDchan n Encoder.zero ⟨answers, 0⟩).1
          (encodeRunDchan n Encoder.zero ⟨answers, 0⟩).2.1 →
        (decodeRun (2048 + 2) Decoder.zero (encodeRunDchan n Encoder.zero ⟨answers, 0⟩).2.2).2
          = (answers.filterMap id).map (fun p => Event.cfr p 0) := by
  refine ⟨(dsending_zero answers).exists_dry (fun p hp => ?_), fun n hdry => ?_⟩
  · have := hsize p hp
    omega
  · refine decode_dchan (by decide) (by decide) (fun p hp => ?_) n hdry.answers hdry.flag
    have := hsize p hp
    omega

theorem hdlc_round_trip_dchan_instance :
    (decodeRun (2048 + 2) Decoder.zero
      (encodeRunDchan 24 Encoder.zero ⟨[none, some [0x1f, 0xff], some [0x7e]], 0⟩).2.2).2
        = [.cfr [0x1f, 0xff] 0, .cfr [0x7e] 0] := by
  have h := hdlc_round_trip_dchan [none, some [0x1f, 0xff], some [0x7e]] (by simp)
  exact h.2 24 ⟨by decide +kernel, by decide +kernel⟩

end Hdlc
end Isdn4bsd
