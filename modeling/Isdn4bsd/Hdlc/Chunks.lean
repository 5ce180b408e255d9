import Isdn4bsd.Hdlc.Dchannel
import Isdn4bsd.Hdlc.Safety

/-!
# Between two FIFO transfers

The receive and transmit filters work on what a FIFO holds at a time.  In between they keep the
variables of the HDLC coder in the FIFO's softc, some of them in wider fields than they are used
in, and find the place in the buffer again from its length.

* `RxFifo.resume`, `suspend` and `TxFifo.resume`, `suspend` : what is put away and taken back.
* `rx_chunks` : the indications of a line do not depend on how it came.
* `tx_chunks`, `tx_line` : nor do the bytes sent on the sizes of the FIFO, for either encoding,
  up to the first time that there is no frame to send; and that time comes.
* `hdlc_chunks` : **all of it.**

## What may get lost

Three things are not kept as they are.  The widths: a variable is used as a local of one width and kept in a field of
another, so that each has to fit where it is used next (`Decoder.Fits`, `Encoder.Fits`; there is one lemma for each
branch of the coders).  The pointers: `dst` is recomputed from the remaining length of the buffer, `src` and its end
from the buffer that is sent.  And whether there is a buffer: the decoder knows it from its own count, the filter from
`f->mbuf`, and the two have to agree (`RxLocal.Ready`, `TxLocal.Ready`).

If all of it is as it should be, what was put away is what is taken back (`resume_suspend`), and a run that is cut is
a run that is not.

## Running out of frames

A transmit transfer ends when its FIFO is full or when there is no frame to send.  The second ends a run that is not
cut at the same byte, but the transfer before may have asked for a frame in vain earlier than a longer one would
have.  So the sent bytes are compared up to the first time this happens.  That it does happen is a count of what is
left (`left`, `potential`): every byte that is written is one step to the end, with a full register counted as half a
step, since it is written by an execution that does nothing else.
-/

set_option autoImplicit false

namespace Isdn4bsd
namespace Hdlc

/-! ## The receive filter

The filter has local variables for the state of the decoder, which it takes from the FIFO at its start,
and puts away when it returns.
-/

/-- `BCH_MAX_DATALEN` -/
def bchMaxDatalen : Nat := 2048

/-- What `rx_hdlc_emulation` passes on or reports. -/
inductive Indication where
  | frame (data : List UInt8)
  | outOfMbufs
  | badFrame (len : Nat)
  | crcError (crc len : Nat)
  | readAbort
  | dataOverflow
  deriving DecidableEq, Repr

/-- The local variables of `rx_hdlc_emulation`, if there is an `f->mbuf`, and how many buffers were
asked for.  Without a buffer its length and its bytes are empty. -/
structure RxLocal where
  dec : Decoder
  mbuf : Bool
  calls : Nat
  deriving DecidableEq, Repr

/-- The commands of `rx_hdlc_emulation`, as far as they report. -/
def Action.indication (s : Decoder) : Action → List Indication
  | .nfr none => [.outOfMbufs]
  | .cfr len crc =>
    let len := (s.mlen + 2 ^ 16 - len) % 2 ^ 16
    if len = 0 ∨ bchMaxDatalen < len then [.badFrame len]
    else if crc ≠ 0 then [.crcError crc len]
    else [.frame (s.buf.take len)]
  | .rab => [.readAbort]
  | .rdo => [.dataOverflow]
  | _ => []

/-- What a command does to `f->mbuf`. -/
def Action.hasMbuf (mbuf : Bool) : Action → Bool
  | .nfr answer => answer.isSome
  | .cfr _ _ => false
  | .rab => false
  | .rdo => false
  | _ => mbuf

/-- Is it a call of `L5_ALLOC_MBUF`? -/
def Action.isCall : Action → Bool
  | .nfr _ => true
  | _ => false

/-- The body of the loop of `rx_hdlc_emulation`; `alloc` answers the calls of `L5_ALLOC_MBUF`. -/
def rxStep (alloc : Nat → Option UInt16) (s : RxLocal) (b : UInt8) : RxLocal × List Indication :=
  let nfr := alloc s.calls
  let acts := hdlcActions nfr s.dec b
  let d := (hdlcDecode (nfr.map UInt16.toNat) s.dec b).1
  let mbuf := acts.foldl Action.hasMbuf s.mbuf
  (⟨if mbuf then d else { d with mlen := 0, buf := [] }, mbuf, s.calls + acts.countP Action.isCall⟩,
    acts.flatMap (Action.indication s.dec))

/-- The loop. -/
def rxRun (alloc : Nat → Option UInt16) : RxLocal → List UInt8 → RxLocal × List Indication
  | s, [] => (s, [])
  | s, b :: bs =>
    let r := rxStep alloc s b
    let q := rxRun alloc r.1 bs
    (q.1, r.2 ++ q.2)

/-- A receive buffer. -/
structure Mbuf where
  mlen : Nat
  data : List UInt8
  deriving DecidableEq, Repr

/-- `struct hdlc`, `mbuf` and `mbuf_rem_length` of a FIFO. -/
structure RxFifo where
  flag : Nat
  blevel : Nat
  crc : Nat
  ib : Nat
  tmp : Nat
  mbuf : Option Mbuf
  mbufRemLength : Nat
  calls : Nat
  deriving DecidableEq, Repr

namespace RxFifo

/-- At the start everything is zero. -/
def zero : RxFifo := ⟨0, 0, 0, 0, 0, none, 0, 0⟩

/-- The head of `rx_hdlc_emulation`: the variables have the widths of the locals, and `dst` is where
the remaining length says. -/
def resume (f : RxFifo) : RxLocal :=
  match f.mbuf with
  | some m =>
    let len := min f.mbufRemLength m.mlen
    ⟨⟨f.flag, f.blevel % 2 ^ 8, f.crc % 2 ^ 16, f.ib % 2 ^ 16, f.tmp % 2 ^ 16, len, m.mlen,
      m.data.take (m.mlen - len)⟩, true, f.calls⟩
  | none =>
    ⟨⟨f.flag, f.blevel % 2 ^ 8, f.crc % 2 ^ 16, f.ib % 2 ^ 16, f.tmp % 2 ^ 16, 0, 0, []⟩, false,
      f.calls⟩

/-- The tail of `rx_hdlc_emulation`: the variables have the widths of `struct hdlc`. -/
def suspend (s : RxLocal) : RxFifo where
  flag := s.dec.flag % 2 ^ 8
  blevel := s.dec.blevel % 2 ^ 16
  crc := s.dec.crc % 2 ^ 16
  ib := s.dec.ib % 2 ^ 16
  tmp := s.dec.tmp % 2 ^ 32
  mbuf := if s.mbuf then some ⟨s.dec.mlen, s.dec.buf⟩ else none
  mbufRemLength := if s.mbuf then s.dec.len % 2 ^ 16 else 0
  calls := s.calls

/-- One FIFO transfer. -/
def transfer (alloc : Nat → Option UInt16) (f : RxFifo) (bs : List UInt8) :
    RxFifo × List Indication :=
  let r := rxRun alloc f.resume bs
  (suspend r.1, r.2)

/-- One after the other. -/
def transfers (alloc : Nat → Option UInt16) : RxFifo → List (List UInt8) → RxFifo × List Indication
  | f, [] => (f, [])
  | f, bs :: chunks =>
    let r := f.transfer alloc bs
    let q := transfers alloc r.1 chunks
    (q.1, r.2 ++ q.2)

end RxFifo

/-! ## The widths of the decoder's variables

What is put away is as wide as the fields of the FIFO, so the variables must not have more bits than
these.
-/

/-- Every variable fits where it is used. -/
structure Decoder.Fits (d : Decoder) : Prop where
  blevel : d.blevel < 2 ^ 8
  crc : d.crc < 2 ^ 16
  ib : d.ib < 2 ^ 16
  tmp : d.tmp < 2 ^ 16

theorem shiftRight_lt {x n k : Nat} (h : x < 2 ^ n) : x >>> k < 2 ^ n :=
  (Nat.shiftRight_le x k).trans_lt h

theorem lo8_lt (x : Nat) : lo8 x < 2 ^ 8 := Nat.mod_lt _ (by decide)

/-- The count of ones a lookup leaves. -/
def Found.ib : Found → Nat
  | .plain ib => ib
  | .data ib _ _ => ib
  | .flag ib _ => ib
  | .abort ib _ _ => ib

theorem destuffLsb_ib (ib tmp2 drop : Nat) : (destuffLsb ib tmp2 drop).ib = ib := by
  unfold destuffLsb
  split_ifs <;> rfl

theorem destuff_ib_lt (ib tmp2 : Nat) : (destuff ib tmp2).ib < 2 ^ 16 := by
  have hmod : ∀ x, x % 2 ^ 16 < 2 ^ 16 := fun x => Nat.mod_lt _ (by decide)
  have hand : ∀ x, x % 2 ^ 16 &&& 0xff1f < 2 ^ 16 := fun x => Nat.and_le_left.trans_lt (hmod x)
  unfold destuff
  dsimp only
  split
  · split
    · split
      · exact hmod _
      · rw [destuffLsb_ib]
        exact hand _
    · rw [destuffLsb_ib]
      exact hand _
  · exact hmod _

namespace Decoder.Fits

variable {d : Decoder}

/-- `flag`, `len` and the buffer are of no account. -/
theorem congr {e : Decoder} (h : d.Fits) (hblevel : e.blevel = d.blevel) (hcrc : e.crc = d.crc)
    (hib : e.ib = d.ib) (htmp : e.tmp = d.tmp) : e.Fits := by
  obtain ⟨h1, h2, h3, h4⟩ := h
  exact ⟨by rwa [hblevel], by rwa [hcrc], by rwa [hib], by rwa [htmp]⟩

theorem check (h : d.Fits) : d.check.Fits := ⟨h.blevel, fcsStep_lt _ _, h.ib, h.tmp⟩

theorem write (h : d.Fits) : d.write.Fits :=
  check (h.congr rfl rfl rfl rfl)

theorem newFrame (h : d.Fits) (nfr : Option Nat) : (d.newFrame nfr).Fits := by
  cases nfr with
  | none => exact check ⟨h.blevel, show (0xffff : Nat) < 2 ^ 16 by decide, h.ib, h.tmp⟩
  | some m =>
    have hnew : Fits { d with flag := 2, mlen := m, len := m, buf := [], crc := 0xffff } :=
      ⟨h.blevel, show (0xffff : Nat) < 2 ^ 16 by decide, h.ib, h.tmp⟩
    rw [Decoder.newFrame]
    dsimp only
    split
    · exact check (hnew.congr rfl rfl rfl rfl)
    · exact hnew.write

theorem store (h : d.Fits) (nfr : Option Nat) : (d.store nfr).1.Fits := by
  rw [Decoder.store]
  split
  · exact h.write
  · split
    · exact h
    · rcases (d.flag + 1) % 2 ^ 8 with _ | _ | _ | _ | _ | f
      case succ.succ.zero => exact h.newFrame nfr
      case succ.succ.succ.zero => exact check (h.congr rfl rfl rfl rfl)
      case succ.succ.succ.succ.zero => exact check (h.congr rfl rfl rfl rfl)
      case succ.succ.succ.succ.succ => cases f <;> exact h.congr rfl rfl rfl rfl
      all_goals exact h.congr rfl rfl rfl rfl

theorem full (h : d.Fits) (nfr : Option Nat) {ib : Nat} (hib : ib < 2 ^ 16) (tmp2 : Nat)
    {blevel : Nat} (hblevel : blevel < 2 ^ 8) : (d.full nfr ib tmp2 blevel).1.Fits := by
  have hloaded : Fits { d with blevel := blevel, tmp := d.tmp ||| (lo8 tmp2 <<< blevel) % 2 ^ 16 } :=
    ⟨hblevel, h.crc, h.ib, Nat.or_lt_two_pow h.tmp (Nat.mod_lt _ (by decide))⟩
  have hstored := hloaded.store nfr
  exact ⟨hstored.blevel, hstored.crc, shiftRight_lt hib, shiftRight_lt hstored.tmp⟩

theorem restart (h : d.Fits) {ib : Nat} (hib : ib < 2 ^ 16) (tmp2 : Nat) :
    (d.restart ib tmp2).Fits :=
  ⟨(Nat.sub_le 8 _).trans_lt (by decide), h.crc, shiftRight_lt hib,
    shiftRight_lt ((lo8_lt tmp2).trans (by decide))⟩

theorem complete (h : d.Fits) : d.complete.1.Fits :=
  ⟨h.blevel, Nat.xor_lt_two_pow h.crc (by decide), h.ib, h.tmp⟩

theorem flagSeq (h : d.Fits) {ib : Nat} (hib : ib < 2 ^ 16) (tmp2 : Nat) :
    (d.flagSeq ib tmp2).1.Fits := by
  rw [Decoder.flagSeq]
  split
  · exact h.complete.restart hib tmp2
  · exact h.restart hib tmp2

theorem abort (h : d.Fits) {ib : Nat} (hib : ib < 2 ^ 16) (tmp2 drop : Nat) :
    (d.abort ib tmp2 drop).1.Fits := by
  have hlevel : Fits { d with blevel := (d.blevel + 2 ^ 8 - drop) % 2 ^ 8 } :=
    ⟨Nat.mod_lt _ (by decide), h.crc, h.ib, h.tmp⟩
  rw [Decoder.abort]
  dsimp only
  split
  · split
    · exact hlevel.complete.restart hib tmp2
    · exact ⟨hlevel.blevel, h.crc, shiftRight_lt hib, h.tmp⟩
  · exact ⟨hlevel.blevel, h.crc, shiftRight_lt hib, h.tmp⟩

theorem eoBits (h : d.Fits) {ib : Nat} (hib : ib < 2 ^ 16) (tmp2 blevel : Nat) :
    (d.eoBits ib tmp2 blevel).Fits := by
  refine ⟨Nat.and_lt_two_pow _ (by decide), h.crc, shiftRight_lt hib, ?_⟩
  refine Nat.or_lt_two_pow h.tmp ?_
  split <;> exact shiftRight_lt ((lo8_lt tmp2).trans (by decide))

theorem step (h : d.Fits) (nfr : Option Nat) (b : UInt8) : (hdlcDecode nfr d b).1.Fits := by
  have hib := destuff_ib_lt d.ib b.toNat
  rw [hdlcDecode]
  cases hfound : destuff d.ib b.toNat with
  | plain ib =>
    rw [hfound] at hib
    exact h.full nfr hib _ h.blevel
  | data ib tmp2 drop =>
    rw [hfound] at hib
    dsimp only
    split
    · exact h.eoBits hib tmp2 _
    · exact h.full nfr hib tmp2 (Nat.mod_lt _ (by decide))
  | flag ib tmp2 =>
    rw [hfound] at hib
    exact h.flagSeq hib tmp2
  | abort ib tmp2 drop =>
    rw [hfound] at hib
    exact h.abort hib tmp2 drop

end Decoder.Fits

/-! ## Nothing is lost between two receive transfers

To put away and to take back is to do nothing, so two transfers are as good as one.
-/

/-- Between two bytes: the variables fit, the decoder's idea of a buffer in use is right, and there
is nothing where there is none. -/
structure RxLocal.Ready (s : RxLocal) : Prop where
  fits : s.dec.Fits
  room : ∃ o, s.dec.Room o ∧ o.isSome = s.mbuf
  noMbuf : s.mbuf = false → s.dec.mlen = 0 ∧ s.dec.buf = []

/-- `f->mbuf` is the buffer in use. -/
theorem foldl_hasMbuf {ok : Nat → Nat → Nat → Prop} {o : Option InUse} {as : List Action}
    (h : Legal ok o as) : as.foldl Action.hasMbuf o.isSome = (after o as).isSome := by
  induction as generalizing o with
  | nil => rfl
  | cons a as ih =>
    have ha : Action.hasMbuf o.isSome a = (a.track o).isSome := by
      cases a with
      | nfr answer => exact Option.isSome_map.symm
      | store => exact Option.isSome_map.symm
      | check => exact Option.isSome_map.symm
      | cfr len crc => rfl
      | rab => rfl
      | rdo => rfl
    rw [List.foldl_cons, ha, ih h.2]
    rfl

theorem RxLocal.Ready.step {s : RxLocal} (h : s.Ready) (alloc : Nat → Option UInt16) (b : UInt8) :
    (rxStep alloc s b).1.Ready := by
  obtain ⟨o, hroom, hmbuf⟩ := h.room
  obtain ⟨hlegal, hroom'⟩ := hroom.step (alloc s.calls) b
  have hfits := h.fits.step ((alloc s.calls).map UInt16.toNat) b
  have hfold := foldl_hasMbuf hlegal
  rw [hmbuf] at hfold
  rw [rxStep]
  dsimp only
  rw [hfold]
  cases hafter : after o (hdlcActions (alloc s.calls) s.dec b) with
  | some u =>
    rw [hafter] at hroom'
    exact ⟨hfits, ⟨_, hroom', rfl⟩, fun h => absurd h (by simp)⟩
  | none =>
    rw [hafter] at hroom'
    exact ⟨hfits.congr rfl rfl rfl rfl, ⟨none, hroom', rfl⟩, fun _ => ⟨rfl, rfl⟩⟩

theorem RxLocal.Ready.run {s : RxLocal} (h : s.Ready) (alloc : Nat → Option UInt16)
    (bs : List UInt8) : (rxRun alloc s bs).1.Ready := by
  induction bs generalizing s with
  | nil => exact h
  | cons b bs ih => exact ih (h.step alloc b)

theorem ready_zero : RxFifo.zero.resume.Ready where
  fits := ⟨by decide, by decide, by decide, by decide⟩
  room := ⟨none, ⟨Nat.zero_le 1, rfl⟩, rfl⟩
  noMbuf _ := ⟨rfl, rfl⟩

/-- **What was put away is taken back.** -/
theorem RxFifo.resume_suspend {s : RxLocal} (h : s.Ready) : (suspend s).resume = s := by
  obtain ⟨⟨hblevel, hcrc, hib, htmp⟩, ⟨o, hroom, hmbuf⟩, hnone⟩ := h
  have hflag : s.dec.flag % 2 ^ 8 = s.dec.flag :=
    Nat.mod_eq_of_lt (hroom.flag_le.trans_lt (by decide))
  have hblevel' : s.dec.blevel % 2 ^ 16 % 2 ^ 8 = s.dec.blevel := by omega
  have htmp' : s.dec.tmp % 2 ^ 32 % 2 ^ 16 = s.dec.tmp := by omega
  have hcrc' : s.dec.crc % 2 ^ 16 % 2 ^ 16 = s.dec.crc := by omega
  have hib' : s.dec.ib % 2 ^ 16 % 2 ^ 16 = s.dec.ib := by omega
  cases o with
  | none =>
    obtain hm : s.mbuf = false := hmbuf.symm
    obtain ⟨hmlen, hbuf⟩ := hnone hm
    have hlen := hroom.2
    simp only [suspend, resume, hm, Bool.false_eq_true, if_false, hflag, hblevel', hcrc', hib', htmp']
    obtain ⟨⟨flag, blevel, crc, ib, tmp, len, mlen, buf⟩, mbuf, calls⟩ := s
    dsimp only at hm hlen hmlen hbuf
    rw [hm, hlen, hmlen, hbuf]
  | some u =>
    obtain hm : s.mbuf = true := hmbuf.symm
    obtain ⟨hmlen, hlt, hbuf, -, hphase⟩ := hroom
    have hlen : s.dec.len % 2 ^ 16 = s.dec.len := by
      rcases hphase with h | h | h <;> omega
    have hmin : min s.dec.len s.dec.mlen = s.dec.len := by
      rcases hphase with h | h | h <;> omega
    have htake : s.dec.buf.take (s.dec.mlen - s.dec.len) = s.dec.buf := by
      apply List.take_of_length_le
      rcases hphase with h | h | h <;> omega
    simp only [suspend, resume, hm, if_true, hflag, hblevel', hcrc', hib', htmp', hlen, hmin, htake]
    rw [← hm]

theorem rxRun_append (alloc : Nat → Option UInt16) (s : RxLocal) (xs ys : List UInt8) :
    rxRun alloc s (xs ++ ys) =
      ((rxRun alloc (rxRun alloc s xs).1 ys).1,
        (rxRun alloc s xs).2 ++ (rxRun alloc (rxRun alloc s xs).1 ys).2) := by
  induction xs generalizing s with
  | nil => rfl
  | cons x xs ih => simp only [List.cons_append, rxRun, ih, List.append_assoc]

/-- **The indications do not depend on the transfers.** -/
theorem rx_chunks (alloc : Nat → Option UInt16) {f : RxFifo} (h : f.resume.Ready)
    (chunks : List (List UInt8)) :
    (f.transfers alloc chunks).2 = (f.transfer alloc chunks.flatten).2 := by
  induction chunks generalizing f with
  | nil => rfl
  | cons bs chunks ih =>
    have hready := h.run alloc bs
    have hresume := RxFifo.resume_suspend hready
    have hrest := @ih (RxFifo.suspend (rxRun alloc f.resume bs).1) (by rwa [hresume])
    simp only [RxFifo.transfers, RxFifo.transfer, List.flatten_cons, rxRun_append] at hrest ⊢
    rw [hrest, hresume]

/-! ## The transmit filters

The encoder goes on where it was left, so its place is put away with the rest.
-/

/-- The frames of the FIFO's queue, if there is an `f->mbuf`, and if `dst_end` was moved to the byte
after the one that is being written. -/
structure TxEnv where
  ifqueue : List Frame
  mbuf : Bool
  last : Bool
  deriving DecidableEq, Repr

/-- `gfr` of the transmit filters. -/
def TxEnv.gfr (e : TxEnv) : Option Frame × TxEnv :=
  match e.ifqueue with
  | [] => (none, ⟨[], false, true⟩)
  | p :: ps => (some p, { e with ifqueue := ps, mbuf := true })

/-- `nmb` of the transmit filters is empty. -/
def TxEnv.nmb (e : TxEnv) : Option Frame × TxEnv := (none, e)

/-- `HDLC_ENCODE` as a transmit filter uses it. -/
abbrev Coder := Encoder → TxEnv → Encoder × TxEnv × UInt8

/-- The encoding of `tx_hdlc_emulation`. -/
def coder : Coder := hdlcEncode TxEnv.gfr TxEnv.nmb

/-- The encoding of `tx_hdlc_emulation_dchan`. -/
def coderDchan : Coder := hdlcEncodeDchan TxEnv.gfr TxEnv.nmb

/-- The local variables of the transmit filters.  Without a buffer `src` points at nothing. -/
structure TxLocal where
  enc : Encoder
  env : TxEnv
  deriving DecidableEq, Repr

/-- The body of the loop. -/
def txStep (code : Coder) (s : TxLocal) : TxLocal × UInt8 :=
  let r := code s.enc s.env
  (⟨if r.2.1.mbuf then r.1 else { r.1 with src := [] }, r.2.1⟩, r.2.2)

/-- The loop, with room for `n` bytes. -/
def txLoop (code : Coder) : Nat → TxLocal → TxLocal × List UInt8
  | 0, s => (s, [])
  | n + 1, s =>
    let r := txStep code s
    if r.1.env.last then (r.1, [r.2])
    else
      let q := txLoop code n r.1
      (q.1, r.2 :: q.2)

/-- `struct hdlc`, `mbuf` with `m_data` and `m_len`, and the queue of a FIFO. -/
structure TxFifo where
  flag : Nat
  blevel : Nat
  crc : Nat
  ib : Nat
  tmp : Nat
  mbuf : Option (List UInt8 × Nat)
  ifqueue : List Frame
  deriving DecidableEq, Repr

namespace TxFifo

/-- The head of the transmit filters. -/
def resume (f : TxFifo) : TxLocal :=
  ⟨⟨f.flag % 2 ^ 8, f.blevel % 2 ^ 16, f.crc % 2 ^ 16, f.ib % 2 ^ 16, f.tmp % 2 ^ 32,
    (f.mbuf.map fun m => m.2 % 2 ^ 16).getD 0, (f.mbuf.map Prod.fst).getD []⟩,
    ⟨f.ifqueue, f.mbuf.isSome, false⟩⟩

/-- The tail of the transmit filters. -/
def suspend (s : TxLocal) : TxFifo where
  flag := s.enc.flag % 2 ^ 8
  blevel := s.enc.blevel % 2 ^ 16
  crc := s.enc.crc % 2 ^ 16
  ib := s.enc.ib % 2 ^ 16
  tmp := s.enc.tmp % 2 ^ 32
  mbuf := if s.env.mbuf then some (s.enc.src, s.enc.len) else none
  ifqueue := s.env.ifqueue

/-- The transfers of a list of FIFO sizes, up to the one that finds no frame to send: the bytes, and
whether there was such a one. -/
def transfers (code : Coder) : TxFifo → List Nat → List UInt8 × Bool
  | _, [] => ([], false)
  | f, n :: sizes =>
    let r := txLoop code n f.resume
    if r.1.env.last then (r.2, true)
    else
      let q := transfers code (suspend r.1) sizes
      (r.2 ++ q.1, q.2)

end TxFifo

/-! ## The widths of the encoder's variables

The same for the variables of the encoder.
-/

/-- Every variable fits. -/
structure Encoder.Fits (s : Encoder) : Prop where
  flag : s.flag < 2 ^ 8
  blevel : s.blevel < 2 ^ 16
  crc : s.crc < 2 ^ 16
  ib : s.ib < 2 ^ 16
  tmp : s.tmp < 2 ^ 32
  len : s.len < 2 ^ 16

theorem stuffByte_ib_lt (ib tmp2 : Nat) : (stuffByte ib tmp2).1 < 2 ^ 16 := by
  have hand : (stuffMsb ib tmp2).1 &&& 0xff0f < 2 ^ 16 := Nat.and_lt_two_pow _ (by decide)
  rw [stuffByte, stuffLsb]
  split
  · dsimp only
    split
    · exact Nat.mod_lt _ (by decide)
    · exact hand
  · exact hand

/-- At most three zeros go into a byte. -/
theorem stuffByte_count_le (ib tmp2 : Nat) : (stuffByte ib tmp2).2.2 ≤ 3 := by
  have hmsb : (stuffMsb ib tmp2).2.2 ≤ 1 := by
    unfold stuffMsb
    split <;> simp
  rw [stuffByte, stuffLsb]
  split
  · dsimp only
    split <;> omega
  · exact hmsb.trans (by decide)

namespace Encoder.Fits

variable {s : Encoder}

/-- `src` is of no account. -/
theorem congr {t : Encoder} (h : s.Fits) (hflag : t.flag = s.flag) (hblevel : t.blevel = s.blevel)
    (hcrc : t.crc = s.crc) (hib : t.ib = s.ib) (htmp : t.tmp = s.tmp) (hlen : t.len = s.len) :
    t.Fits := by
  obtain ⟨h1, h2, h3, h4, h5, h6⟩ := h
  exact ⟨by rwa [hflag], by rwa [hblevel], by rwa [hcrc], by rwa [hib], by rwa [htmp], by rwa [hlen]⟩

theorem push (h : s.Fits) (tmp2 : Nat) : (s.push tmp2).Fits :=
  ⟨h.flag, h.blevel, h.crc, h.ib, Nat.or_lt_two_pow h.tmp (Nat.mod_lt _ (by decide)), h.len⟩

theorem data (h : s.Fits) (tmp2 : Nat) : (s.data tmp2).Fits := by
  have hib : ((s.ib >>> 12) + bitTab (lo8 tmp2)) % 2 ^ 16 < 2 ^ 16 := Nat.mod_lt _ (by decide)
  rw [Encoder.data]
  dsimp only
  split
  · exact ⟨h.flag, Nat.mod_lt _ (by decide), h.crc, stuffByte_ib_lt _ _,
      Nat.or_lt_two_pow h.tmp (Nat.mod_lt _ (by decide)), h.len⟩
  · have hnew : Fits { s with ib := ((s.ib >>> 12) + bitTab (lo8 tmp2)) % 2 ^ 16 } :=
      ⟨h.flag, h.blevel, h.crc, hib, h.tmp, h.len⟩
    exact hnew.push _

theorem byte (h : s.Fits) : s.byte.Fits := by
  have hnew : Fits { s with
      src := s.src.tail, crc := fcsStep s.crc (s.src.headD 0).toNat } :=
    ⟨h.flag, h.blevel, fcsStep_lt _ _, h.ib, h.tmp, h.len⟩
  exact hnew.data _

theorem load (h : s.Fits) (m : Option (List UInt8)) : (s.load m).Fits := by
  cases m with
  | none => exact h
  | some m => exact ⟨h.flag, h.blevel, h.crc, h.ib, h.tmp, Nat.mod_lt _ (by decide)⟩

theorem withFlag (h : s.Fits) {f : Nat} (hf : f < 2 ^ 8) : Fits { s with flag := f } :=
  ⟨hf, h.blevel, h.crc, h.ib, h.tmp, h.len⟩

/-- The first byte of a frame. -/
theorem first (h : s.Fits) : Fits { s with len := s.len - 1, crc := 0xffff, ib := 0 } :=
  ⟨h.flag, h.blevel, show (0xffff : Nat) < 2 ^ 16 by decide, show (0 : Nat) < 2 ^ 16 by decide, h.tmp,
    (Nat.sub_le _ _).trans_lt h.len⟩

theorem withLen (h : s.Fits) : Fits { s with len := s.len - 1 } :=
  ⟨h.flag, h.blevel, h.crc, h.ib, h.tmp, (Nat.sub_le _ _).trans_lt h.len⟩

theorem flagSequence (h : s.Fits) : s.flagSequence.Fits := by
  have hnew : Fits { s with
      ib := s.ib >>> 12
      blevel := if s.ib >>> 12 = 5 then (s.blevel + 0x100) % 2 ^ 16 else s.blevel } := by
    refine ⟨h.flag, ?_, h.crc, shiftRight_lt h.ib, h.tmp, h.len⟩
    dsimp only
    split
    · exact Nat.mod_lt _ (by decide)
    · exact h.blevel
  exact hnew.push _

theorem abort (h : s.Fits) {f : Nat} (hf : f < 2 ^ 8) :
    Fits { s with flag := f, tmp := 0, blevel := 0, ib := 0 } :=
  ⟨hf, show (0 : Nat) < 2 ^ 16 by decide, h.crc, show (0 : Nat) < 2 ^ 16 by decide,
    show (0 : Nat) < 2 ^ 32 by decide, h.len⟩

theorem invert (h : s.Fits) : Fits { s with crc := s.crc ^^^ 0xffff } :=
  ⟨h.flag, h.blevel, Nat.xor_lt_two_pow h.crc (by decide), h.ib, h.tmp, h.len⟩

theorem write (h : s.Fits) : s.write.1.Fits :=
  ⟨h.flag, h.blevel, h.crc, h.ib, shiftRight_lt h.tmp, h.len⟩

theorem switch {σ : Type} (gfr nmb : σ → Option (List UInt8) × σ) (h : s.Fits) (e : σ) :
    (s.switch gfr nmb e).1.Fits := by
  have hmod : (s.flag + 1) % 2 ^ 8 < 2 ^ 8 := Nat.mod_lt _ (by decide)
  rw [Encoder.switch]
  split
  · exact (h.withFlag (by decide)).flagSequence
  · exact (h.withFlag (by decide)).flagSequence
  · have hload := (h.withFlag (show 3 < 2 ^ 8 by decide)).load (gfr e).1
    dsimp only
    split
    · exact (hload.withFlag (by decide)).push _
    · exact hload.first.byte
  · have hload := (h.withFlag (show 4 < 2 ^ 8 by decide)).load (nmb e).1
    dsimp only
    split
    · exact hload.invert.data _
    · exact (hload.withLen.withFlag (by decide)).byte
  · exact (h.withFlag (by decide)).data _
  · exact (h.abort hmod).push _

theorem switchDchan {σ : Type} (gfr nmb : σ → Option (List UInt8) × σ) (h : s.Fits) (e : σ) :
    (s.switchDchan gfr nmb e).1.Fits := by
  have hmod : (s.flag + 1) % 2 ^ 8 < 2 ^ 8 := Nat.mod_lt _ (by decide)
  rw [Encoder.switchDchan]
  split
  · have hload := (h.withFlag (show 3 < 2 ^ 8 by decide)).load (gfr e).1
    dsimp only
    split
    · exact (hload.withFlag (by decide)).push _
    · exact ⟨hload.flag, show (0x800 : Nat) < 2 ^ 16 by decide,
        show (0xffff : Nat) < 2 ^ 16 by decide, show (0 : Nat) < 2 ^ 16 by decide,
        show (0x7eff : Nat) < 2 ^ 32 by decide, hload.len⟩
  · have hload := (h.withFlag (show 4 < 2 ^ 8 by decide)).load (nmb e).1
    dsimp only
    split
    · exact hload.invert.data _
    · exact (hload.withLen.withFlag (by decide)).byte
  · exact (h.withFlag (by decide)).data _
  · exact (h.withFlag (by decide)).flagSequence
  · exact (h.withFlag hmod).push _

theorem spill (h : s.Fits) : Fits { s with blevel := s.blevel - 0x800 } :=
  ⟨h.flag, (Nat.sub_le _ _).trans_lt h.blevel, h.crc, h.ib, h.tmp, h.len⟩

end Encoder.Fits

/-! ## Nothing is lost between two transmit transfers

A transfer is as long as there is room in the chip, and ends between two bytes.
-/

/-- Between two bytes: the variables fit, and nothing can be read where there is no buffer. -/
structure TxLocal.Ready (s : TxLocal) : Prop where
  fits : s.enc.Fits
  noMbuf : s.env.mbuf = false → s.enc.len = 0 ∧ s.enc.src = []

@[simp] theorem Encoder.write_len (s : Encoder) : s.write.1.len = s.len := rfl

@[simp] theorem Encoder.write_flag (s : Encoder) : s.write.1.flag = s.flag := rfl

@[simp] theorem Encoder.write_blevel (s : Encoder) : s.write.1.blevel = s.blevel := rfl

@[simp] theorem Encoder.push_len (s : Encoder) (v : Nat) : (s.push v).len = s.len := rfl

@[simp] theorem Encoder.flagSequence_len (s : Encoder) : s.flagSequence.len = s.len := rfl

@[simp] theorem Encoder.byte_len (s : Encoder) : s.byte.len = s.len := by
  rw [byte, data_len]

@[simp] theorem TxEnv.nmb_fst (e : TxEnv) : e.nmb.1 = none := rfl

@[simp] theorem TxEnv.nmb_snd (e : TxEnv) : e.nmb.2 = e := rfl

/-- Without a buffer nothing was loaded. -/
theorem TxEnv.gfr_none {e : TxEnv} (h : e.gfr.2.mbuf = false) : e.gfr.1 = none := by
  unfold gfr at h ⊢
  split
  · rfl
  · rename_i hq
    rw [hq] at h
    exact absurd h (by simp)

namespace Encoder

variable {s : Encoder} {e : TxEnv}

theorem switch_noMbuf (hlen : s.len = 0) (h : (s.switch TxEnv.gfr TxEnv.nmb e).2.mbuf = false) :
    (s.switch TxEnv.gfr TxEnv.nmb e).1.len = 0 := by
  match hf : (s.flag + 1) % 2 ^ 8 with
  | 0 | 1 | 2 | 5 =>
    rw [switch, hf]
    simpa using hlen
  | 3 =>
    rw [switch, hf] at h ⊢
    have hgfr : e.gfr.1 = none := by
      apply TxEnv.gfr_none
      by_cases hzero : ({ s with flag := 3 }.load e.gfr.1).len = 0
      · simpa only [hzero, if_true] using h
      · simpa only [hzero, if_false] using h
    simp only [hgfr, load, hlen, if_true, push_len]
  | 4 =>
    rw [switch, hf]
    simp only [TxEnv.nmb_fst, load, hlen, if_true, data_len]
  | f + 6 =>
    rw [switch, hf]
    simpa using hlen

theorem switchDchan_noMbuf (hlen : s.len = 0)
    (h : (s.switchDchan TxEnv.gfr TxEnv.nmb e).2.mbuf = false) :
    (s.switchDchan TxEnv.gfr TxEnv.nmb e).1.len = 0 := by
  match hf : (s.flag + 1) % 2 ^ 8 with
  | 0 | 1 | 2 | 5 | 6 =>
    rw [switchDchan, hf]
    simpa using hlen
  | 3 =>
    rw [switchDchan, hf] at h ⊢
    have hgfr : e.gfr.1 = none := by
      apply TxEnv.gfr_none
      by_cases hzero : ({ s with flag := 3 }.load e.gfr.1).len = 0
      · simpa only [hzero, if_true] using h
      · simpa only [hzero, if_false] using h
    simp only [hgfr, load, hlen, if_true, push_len]
  | 4 =>
    rw [switchDchan, hf]
    simp only [TxEnv.nmb_fst, load, hlen, if_true, data_len]
  | f + 7 =>
    rw [switchDchan, hf]
    simpa using hlen

end Encoder

/-- Both encodings, which differ in their `switch` only. -/
structure Encoding where
  switch : Encoder → TxEnv → Encoder × TxEnv
  fits : ∀ {s : Encoder} (e : TxEnv), s.Fits → (switch s e).1.Fits
  noMbuf : ∀ {s : Encoder} {e : TxEnv}, s.len = 0 → (switch s e).2.mbuf = false →
    (switch s e).1.len = 0

/-- `HDLC_ENCODE` with one of the encodings. -/
def Encoding.coder (k : Encoding) : Coder := fun s e =>
  let r : Encoder × TxEnv :=
    if 0x800 ≤ s.blevel then ({ s with blevel := s.blevel - 0x800 }, e)
    else if s.len = 0 then k.switch s e
    else ({ s with len := s.len - 1 }.byte, e)
  (r.1.write.1, r.2, r.1.write.2)

/-- The default encoding. -/
def encoding : Encoding where
  switch := Encoder.switch TxEnv.gfr TxEnv.nmb
  fits e h := h.switch TxEnv.gfr TxEnv.nmb e
  noMbuf := Encoder.switch_noMbuf

/-- The D-channel encoding. -/
def encodingDchan : Encoding where
  switch := Encoder.switchDchan TxEnv.gfr TxEnv.nmb
  fits e h := h.switchDchan TxEnv.gfr TxEnv.nmb e
  noMbuf := Encoder.switchDchan_noMbuf

theorem coder_eq : coder = encoding.coder := rfl

theorem coderDchan_eq : coderDchan = encodingDchan.coder := rfl

theorem TxLocal.Ready.step {s : TxLocal} (h : s.Ready) (k : Encoding) :
    (txStep k.coder s).1.Ready := by
  have hfits : (k.coder s.enc s.env).1.Fits := by
    rw [Encoding.coder]
    dsimp only
    split
    · exact h.fits.spill.write
    · split
      · exact (k.fits s.env h.fits).write
      · exact h.fits.withLen.byte.write
  have hlen : (k.coder s.enc s.env).2.1.mbuf = false → (k.coder s.enc s.env).1.len = 0 := by
    rw [Encoding.coder]
    dsimp only
    simp only [Encoder.write_len]
    split
    · exact fun hm => (h.noMbuf hm).1
    · split
      · rename_i hzero
        exact k.noMbuf hzero
      · rename_i hne
        exact fun hm => absurd (h.noMbuf hm).1 hne
  rw [txStep]
  dsimp only
  cases hm : (k.coder s.enc s.env).2.1.mbuf with
  | true => exact ⟨hfits, fun h => absurd (hm.symm.trans h) (by simp)⟩
  | false => exact ⟨hfits.congr rfl rfl rfl rfl rfl rfl, fun _ => ⟨hlen hm, rfl⟩⟩

theorem TxLocal.Ready.loop {s : TxLocal} (h : s.Ready) (k : Encoding) (n : Nat) :
    (txLoop k.coder n s).1.Ready := by
  induction n generalizing s with
  | zero => exact h
  | succ n ih =>
    rw [txLoop]
    dsimp only
    split
    · exact h.step k
    · exact ih (h.step k)

/-- Whatever was put away can be worked with. -/
theorem TxFifo.ready (f : TxFifo) : f.resume.Ready where
  fits := by
    refine ⟨Nat.mod_lt _ (by decide), Nat.mod_lt _ (by decide), Nat.mod_lt _ (by decide),
      Nat.mod_lt _ (by decide), Nat.mod_lt _ (by decide), ?_⟩
    cases hm : f.mbuf with
    | none => simp [resume, hm]
    | some m =>
      simp only [resume, hm, Option.map_some, Option.getD_some]
      exact Nat.mod_lt _ (by decide)
  noMbuf h := by
    cases hm : f.mbuf with
    | none => simp [resume, hm]
    | some m => simp [resume, hm] at h

/-- **What was put away is taken back.** -/
theorem TxFifo.resume_suspend {s : TxLocal} (h : s.Ready) (hlast : s.env.last = false) :
    (suspend s).resume = s := by
  obtain ⟨⟨h1, h2, h3, h4, h5, h6⟩, hnone⟩ := h
  obtain ⟨⟨flag, blevel, crc, ib, tmp, len, src⟩, ⟨queue, mbuf, last⟩⟩ := s
  simp only at *
  subst hlast
  cases mbuf with
  | true =>
    simp only [suspend, resume, if_true, Option.map_some, Option.getD_some, Option.isSome_some,
      Nat.mod_eq_of_lt, h1, h2, h3, h4, h5, h6]
  | false =>
    obtain ⟨hlen, hsrc⟩ := hnone rfl
    subst hlen hsrc
    simp only [suspend, resume, Bool.false_eq_true, if_false, Option.map_none, Option.getD_none,
      Option.isSome_none, Nat.mod_eq_of_lt, h1, h2, h3, h4, h5]

/-- A transfer that ends for want of a frame would have ended so with more room. -/
theorem txLoop_add (code : Coder) (n m : Nat) {s : TxLocal} (h : s.env.last = false) :
    txLoop code (n + m) s =
      let r := txLoop code n s
      if r.1.env.last then r
      else ((txLoop code m r.1).1, r.2 ++ (txLoop code m r.1).2) := by
  induction n generalizing s with
  | zero => simp [txLoop, h]
  | succ n ih =>
    rw [Nat.add_right_comm, txLoop, txLoop]
    dsimp only
    by_cases hlast : (txStep code s).1.env.last = true
    · simp only [hlast, if_true]
    · have hfalse : (txStep code s).1.env.last = false := by simpa using hlast
      simp only [hlast]
      rw [ih hfalse]
      dsimp only
      by_cases hr : (txLoop code n (txStep code s).1).1.env.last = true
      · simp only [hr, if_true, Bool.false_eq_true, if_false]
      · simp only [hr, if_false, Bool.false_eq_true, List.cons_append]

/-- **The bytes do not depend on the sizes of the transfers,** only on their sum. -/
theorem tx_chunks (k : Encoding) (f : TxFifo) (sizes : List Nat) :
    f.transfers k.coder sizes =
      ((txLoop k.coder sizes.sum f.resume).2, (txLoop k.coder sizes.sum f.resume).1.env.last) := by
  induction sizes generalizing f with
  | nil => rfl
  | cons n sizes ih =>
    have hadd := txLoop_add k.coder n sizes.sum (show f.resume.env.last = false from rfl)
    rw [TxFifo.transfers, List.sum_cons, hadd]
    dsimp only
    by_cases hlast : (txLoop k.coder n f.resume).1.env.last = true
    · simp only [hlast, if_true]
    · have hfalse : (txLoop k.coder n f.resume).1.env.last = false := by simpa using hlast
      have hready := f.ready.loop k n
      simp only [hlast, Bool.false_eq_true, if_false]
      rw [ih, TxFifo.resume_suspend hready hfalse]

/-- Two runs that both ran out of frames sent the same. -/
theorem txLoop_eq_of_last (code : Coder) {n m : Nat} {s : TxLocal} (h : s.env.last = false)
    (hn : (txLoop code n s).1.env.last = true) (hm : (txLoop code m s).1.env.last = true) :
    txLoop code n s = txLoop code m s := by
  have hle : ∀ {i j}, i ≤ j → (txLoop code i s).1.env.last = true →
      txLoop code i s = txLoop code j s := by
    intro i j hij hi
    obtain ⟨d, rfl⟩ := Nat.exists_eq_add_of_le hij
    rw [txLoop_add code i d h]
    simp only [hi, if_true]
  rcases Nat.le_total n m with h | h
  · exact hle h hn
  · exact (hle h hm).symm

/-! ## The frames run out

Each byte brings the encoder nearer to the end of the frames that it has, so with enough room all of them
are sent.
-/

/-- What is still to be sent: the bytes of the buffer, the steps of the `switch` until it asks for a
frame again, and the frames that wait. -/
def left (cost : Nat → Nat) (s : Encoder) (e : TxEnv) : Nat :=
  s.len + cost s.flag + (e.ifqueue.map fun p => p.length % 2 ^ 16 + 10).sum

/-- Steps of the default `switch` until it asks for a frame. -/
def switchCost (flag : Nat) : Nat :=
  if flag ≤ 2 then 3 - flag else if flag ≤ 4 then 7 - flag else 259 - flag

/-- Steps of the D-channel's `switch` until it asks for a frame. -/
def switchDchanCost (flag : Nat) : Nat :=
  if flag ≤ 2 then 3 - flag else if flag ≤ 5 then 9 - flag else 259 - flag

/-- The level of the register after a byte: at most three bits were inserted. -/
theorem blevel_lt : ∀ blevel < 0x800, ∀ n < 4,
    ((blevel &&& 0xff00) + n + lo8 ((blevel &&& 0xff00) + n) <<< 8) % 2 ^ 16 < 0x1000 := by
  intro blevel hlevel n hn
  have hand : blevel &&& 0xff00 = 256 * (blevel / 256) := by
    have h := and_ff00 (blevel / 256) (by omega) (blevel % 256) (Nat.mod_lt _ (by decide))
    rwa [Nat.div_add_mod] at h
  have hlo : lo8 (256 * (blevel / 256) + n) = n := by
    rw [lo8]
    omega
  rw [hand, hlo, Nat.shiftLeft_eq]
  exact Nat.lt_of_le_of_lt (Nat.mod_le _ _) (by omega)

theorem Encoder.data_blevel_lt (s : Encoder) (v : Nat) (h : s.blevel < 0x800) :
    (s.data v).blevel < 0x1000 := by
  rw [data]
  dsimp only
  split
  · exact blevel_lt _ h _ (Nat.lt_succ_of_le (stuffByte_count_le _ v))
  · exact h.trans (by decide)

theorem Encoder.byte_blevel_lt (s : Encoder) (h : s.blevel < 0x800) : s.byte.blevel < 0x1000 :=
  data_blevel_lt _ _ h

theorem Encoder.flagSequence_blevel_lt (s : Encoder) (h : s.blevel < 0x800) :
    s.flagSequence.blevel < 0x1000 := by
  change (if s.ib >>> 12 = 5 then (s.blevel + 0x100) % 2 ^ 16 else s.blevel) < 0x1000
  split <;> omega

@[simp] theorem Encoder.push_flag (s : Encoder) (v : Nat) : (s.push v).flag = s.flag := rfl

@[simp] theorem Encoder.flagSequence_flag (s : Encoder) : s.flagSequence.flag = s.flag := rfl

@[simp] theorem Encoder.byte_flag (s : Encoder) : s.byte.flag = s.flag := by
  rw [byte, data_flag]

namespace Encoder

variable {s : Encoder} {e : TxEnv} {p : Frame}

theorem switch_loaded (h : s.flag = 2) (hgfr : e.gfr.1 = some p) :
    s.switch TxEnv.gfr TxEnv.nmb e =
      if p.length % 2 ^ 16 = 0 then
        ({ s with flag := 2, src := p, len := p.length % 2 ^ 16 }.push 0x7e, e.gfr.2)
      else
        ({ s with
            flag := 3, src := p, len := p.length % 2 ^ 16 - 1, crc := 0xffff, ib := 0 }.byte,
          e.gfr.2) := by
  simp [switch, h, hgfr, load]

theorem switchDchan_loaded (h : s.flag = 2) (hgfr : e.gfr.1 = some p) :
    s.switchDchan TxEnv.gfr TxEnv.nmb e =
      if p.length % 2 ^ 16 = 0 then
        ({ s with flag := 2, src := p, len := p.length % 2 ^ 16 }.push 0xff, e.gfr.2)
      else
        ({ s with
            flag := 3, src := p, len := p.length % 2 ^ 16, crc := 0xffff, ib := 0, tmp := 0x7eff,
            blevel := 0x800 }, e.gfr.2) := by
  simp [switchDchan, h, hgfr, load]

end Encoder

/-- There is less to be sent than before, or it was the last byte. -/
def Pays (cost : Nat → Nat) (s : Encoder) (e : TxEnv) (r : Encoder × TxEnv) : Prop :=
  r.2.last = true ∨ left cost r.1 r.2 < left cost s e ∧ r.1.blevel < 0x1000

section pays

variable {s : Encoder} (e : TxEnv)

theorem switch_pays (hflag : s.flag < 2 ^ 8) (hlen : s.len = 0) (hlevel : s.blevel < 0x800) :
    Pays switchCost s e (s.switch TxEnv.gfr TxEnv.nmb e) := by
  have hlow : s.blevel < 0x1000 := hlevel.trans (by decide)
  rcases Nat.lt_or_ge s.flag 5 with hlt | hge
  · match hf : s.flag, hlt with
    | 0, _ =>
      rw [Encoder.switch_first hf]
      exact .inr ⟨by simp [left, switchCost, hf], Encoder.flagSequence_blevel_lt _ hlevel⟩
    | 1, _ =>
      rw [Encoder.switch_second hf]
      exact .inr ⟨by simp [left, switchCost, hf], Encoder.flagSequence_blevel_lt _ hlevel⟩
    | 2, _ =>
      cases hq : e.ifqueue with
      | nil => exact .inl (by simp [Encoder.switch, hf, TxEnv.gfr, hq, Encoder.load, hlen])
      | cons p ps =>
        have hgfr : e.gfr = (some p, { e with ifqueue := ps, mbuf := true }) := by
          simp only [TxEnv.gfr, hq]
        right
        rw [Encoder.switch_loaded hf (congrArg Prod.fst hgfr), hgfr]
        split
        · rename_i hzero
          refine ⟨?_, hlow⟩
          simp only [left, hq, hf, hlen, hzero, Encoder.push_len, Encoder.push_flag, List.map_cons,
            List.sum_cons]
          omega
        · refine ⟨?_, Encoder.byte_blevel_lt _ hlevel⟩
          simp only [left, hq, hf, hlen, switchCost, Encoder.byte_len, Encoder.byte_flag,
            List.map_cons, List.sum_cons, Nat.reduceLeDiff, if_true, if_false]
          omega
    | 3, _ =>
      rw [Encoder.switch_check hf rfl hlen]
      exact .inr ⟨by simp [left, switchCost, hf], Encoder.data_blevel_lt _ _ hlevel⟩
    | 4, _ =>
      rw [Encoder.switch_last hf]
      exact .inr ⟨by simp [left, switchCost, hf], Encoder.data_blevel_lt _ _ hlevel⟩
  · right
    have hcost : switchCost ((s.flag + 1) % 2 ^ 8) < switchCost s.flag := by
      simp only [switchCost]
      split_ifs <;> omega
    have hne : (s.flag + 1) % 2 ^ 8 = 0 ∨ 6 ≤ (s.flag + 1) % 2 ^ 8 := by omega
    rw [Encoder.switch]
    generalize (s.flag + 1) % 2 ^ 8 = f at hcost hne
    rcases hne with rfl | hge
    · exact ⟨by simpa [left] using hcost, by simp [Encoder.push]⟩
    · obtain ⟨f, rfl⟩ := Nat.exists_eq_add_of_le' hge
      exact ⟨by simpa [left] using hcost, by simp [Encoder.push]⟩

theorem switchDchan_pays (hflag : s.flag < 2 ^ 8) (hlen : s.len = 0) (hlevel : s.blevel < 0x800) :
    Pays switchDchanCost s e (s.switchDchan TxEnv.gfr TxEnv.nmb e) := by
  have hlow : s.blevel < 0x1000 := hlevel.trans (by decide)
  rcases Nat.lt_or_ge s.flag 6 with hlt | hge
  · match hf : s.flag, hlt with
    | 0, _ | 1, _ =>
      rw [Encoder.switchDchan_idle (by omega)]
      exact .inr ⟨by simp [left, switchDchanCost, hf], hlow⟩
    | 2, _ =>
      cases hq : e.ifqueue with
      | nil => exact .inl (by simp [Encoder.switchDchan, hf, TxEnv.gfr, hq, Encoder.load, hlen])
      | cons p ps =>
        have hgfr : e.gfr = (some p, { e with ifqueue := ps, mbuf := true }) := by
          simp only [TxEnv.gfr, hq]
        right
        rw [Encoder.switchDchan_loaded hf (congrArg Prod.fst hgfr), hgfr]
        split
        · rename_i hzero
          refine ⟨?_, hlow⟩
          simp only [left, hq, hf, hlen, hzero, Encoder.push_len, Encoder.push_flag, List.map_cons,
            List.sum_cons]
          omega
        · refine ⟨?_, show (0x800 : Nat) < 0x1000 by decide⟩
          simp only [left, hq, hf, hlen, switchDchanCost, List.map_cons, List.sum_cons,
            Nat.reduceLeDiff, if_true, if_false]
          omega
    | 3, _ =>
      rw [Encoder.switchDchan_check hf rfl hlen]
      exact .inr ⟨by simp [left, switchDchanCost, hf], Encoder.data_blevel_lt _ _ hlevel⟩
    | 4, _ =>
      rw [Encoder.switchDchan_last hf]
      exact .inr ⟨by simp [left, switchDchanCost, hf], Encoder.data_blevel_lt _ _ hlevel⟩
    | 5, _ =>
      rw [Encoder.switchDchan_close hf]
      exact .inr ⟨by simp [left, switchDchanCost, hf], Encoder.flagSequence_blevel_lt _ hlevel⟩
  · right
    have hcost : switchDchanCost ((s.flag + 1) % 2 ^ 8) < switchDchanCost s.flag := by
      simp only [switchDchanCost]
      split_ifs <;> omega
    have hne : (s.flag + 1) % 2 ^ 8 = 0 ∨ 7 ≤ (s.flag + 1) % 2 ^ 8 := by omega
    rw [Encoder.switchDchan]
    generalize (s.flag + 1) % 2 ^ 8 = f at hcost hne
    rcases hne with rfl | hge
    · exact ⟨by simpa [left] using hcost, hlow⟩
    · obtain ⟨f, rfl⟩ := Nat.exists_eq_add_of_le' hge
      exact ⟨by simpa [left] using hcost, hlow⟩

end pays

/-- What a transfer has to send, a full register counted as a half. -/
def potential (cost : Nat → Nat) (s : Encoder) (e : TxEnv) : Nat :=
  2 * left cost s e + s.blevel / 0x800

theorem potential_write (cost : Nat → Nat) (s : Encoder) (e : TxEnv) :
    potential cost s.write.1 e = potential cost s e := by
  simp only [potential, left, Encoder.write_len, Encoder.write_flag, Encoder.write_blevel]

/-- A byte that is paid for. -/
theorem potential_lt {cost : Nat → Nat} {s t : Encoder} {e f : TxEnv}
    (hleft : left cost t f < left cost s e) (hlevel : t.blevel < 0x1000) :
    potential cost t f < potential cost s e := by
  have hspill : t.blevel / 0x800 ≤ 1 := by omega
  rw [potential, potential]
  omega

/-- **Every byte is a step to the end.** -/
theorem Encoding.progress (k : Encoding) {cost : Nat → Nat}
    (hpays : ∀ {s : Encoder} (e : TxEnv), s.flag < 2 ^ 8 → s.len = 0 → s.blevel < 0x800 →
      Pays cost s e (k.switch s e)) {s : Encoder} (e : TxEnv) (hflag : s.flag < 2 ^ 8) :
    (k.coder s e).2.1.last = true ∨
      potential cost (k.coder s e).1 (k.coder s e).2.1 < potential cost s e := by
  rw [Encoding.coder]
  simp only [potential_write]
  by_cases hlevel : 0x800 ≤ s.blevel
  · rw [if_pos hlevel]
    right
    simp only [potential, left]
    omega
  · rw [if_neg hlevel]
    by_cases hzero : s.len = 0
    · rw [if_pos hzero]
      rcases hpays e hflag hzero (by omega) with hlast | ⟨hleft, hblevel⟩
      · exact .inl hlast
      · exact .inr (potential_lt hleft hblevel)
    · rw [if_neg hzero]
      refine .inr (potential_lt ?_ (Encoder.byte_blevel_lt _ (Nat.lt_of_not_le hlevel)))
      simp only [left, Encoder.byte_len, Encoder.byte_flag]
      omega

theorem TxLocal.Ready.progress {s : TxLocal} (h : s.Ready) (k : Encoding) {cost : Nat → Nat}
    (hpays : ∀ {s : Encoder} (e : TxEnv), s.flag < 2 ^ 8 → s.len = 0 → s.blevel < 0x800 →
      Pays cost s e (k.switch s e)) :
    (txStep k.coder s).1.env.last = true ∨
      potential cost (txStep k.coder s).1.enc (txStep k.coder s).1.env
        < potential cost s.enc s.env := by
  rcases k.progress hpays s.env h.fits.flag with hlast | hlt
  · exact .inl hlast
  · right
    rw [txStep]
    dsimp only
    split
    · exact hlt
    · exact hlt

theorem TxLocal.Ready.runs_out {s : TxLocal} (h : s.Ready) (k : Encoding) {cost : Nat → Nat}
    (hpays : ∀ {s : Encoder} (e : TxEnv), s.flag < 2 ^ 8 → s.len = 0 → s.blevel < 0x800 →
      Pays cost s e (k.switch s e)) : ∃ n, (txLoop k.coder n s).1.env.last = true := by
  induction hp : potential cost s.enc s.env using Nat.strong_induction_on generalizing s with
  | _ p ih =>
    by_cases hlast : (txStep k.coder s).1.env.last = true
    · exact ⟨1, by simp [txLoop, hlast]⟩
    · have hlt := (h.progress k hpays).resolve_left hlast
      obtain ⟨n, hn⟩ := ih _ (hp ▸ hlt) (h.step k) rfl
      refine ⟨n + 1, ?_⟩
      rw [txLoop]
      dsimp only
      rwa [if_neg hlast]

theorem txLoop_length (code : Coder) (n : Nat) (s : TxLocal) :
    (txLoop code n s).2.length ≤ n ∧
      ((txLoop code n s).1.env.last = false → (txLoop code n s).2.length = n) := by
  induction n generalizing s with
  | zero => exact ⟨le_rfl, fun _ => rfl⟩
  | succ n ih =>
    rw [txLoop]
    dsimp only
    split
    · rename_i hlast
      exact ⟨by simp, fun h => absurd (hlast.symm.trans h) (by simp)⟩
    · obtain ⟨hle, heq⟩ := ih (txStep code s).1
      refine ⟨by simpa using hle, fun h => ?_⟩
      rw [List.length_cons, heq h]

/-- A transfer with room for a byte sends one. -/
theorem txLoop_length_pos (code : Coder) {n : Nat} (h : 0 < n) (s : TxLocal) :
    0 < (txLoop code n s).2.length := by
  obtain ⟨m, rfl⟩ := Nat.exists_eq_succ_of_ne_zero h.ne'
  rw [txLoop]
  dsimp only
  split <;> simp

/-- The bytes up to the last one, and what less room makes of them. -/
theorem exists_line (code : Coder) {s : TxLocal} (h : s.env.last = false) {n : Nat}
    (hn : (txLoop code n s).1.env.last = true) (m : Nat) :
    (txLoop code m s).2 = (txLoop code n s).2.take m ∧
      ((txLoop code m s).1.env.last = true ↔ (txLoop code n s).2.length ≤ m) := by
  cases hm : (txLoop code m s).1.env.last with
  | true =>
    rw [txLoop_eq_of_last code h hn hm]
    have hle := (txLoop_length code m s).1
    exact ⟨(List.take_of_length_le hle).symm, fun _ => hle, fun _ => rfl⟩
  | false =>
    have hlt : m < n := by
      by_contra hge
      obtain ⟨d, rfl⟩ := Nat.exists_eq_add_of_le (Nat.le_of_not_lt hge)
      rw [txLoop_add code n d h] at hm
      simp only [hn, if_true] at hm
      exact absurd hm (by simp)
    obtain ⟨d, rfl⟩ := Nat.exists_eq_add_of_le hlt.le
    have hlen := (txLoop_length code m s).2 hm
    have hpos := txLoop_length_pos code (show 0 < d by omega) (txLoop code m s).1
    rw [txLoop_add code m d h]
    simp only [hm, Bool.false_eq_true, if_false, List.length_append, false_iff]
    exact ⟨(List.take_left' hlen).symm, by omega⟩

/-- **The line of a FIFO's frames.**  Whatever the sizes of the transfers, they send it as far as
they go, and run out of frames at its end. -/
theorem tx_line (k : Encoding) {cost : Nat → Nat}
    (hpays : ∀ {s : Encoder} (e : TxEnv), s.flag < 2 ^ 8 → s.len = 0 → s.blevel < 0x800 →
      Pays cost s e (k.switch s e)) (f : TxFifo) :
    ∃ line : List UInt8, ∀ sizes : List Nat,
      f.transfers k.coder sizes = (line.take sizes.sum, decide (line.length ≤ sizes.sum)) := by
  obtain ⟨n, hn⟩ := f.ready.runs_out k hpays
  refine ⟨(txLoop k.coder n f.resume).2, fun sizes => ?_⟩
  obtain ⟨hbytes, hlast⟩ := exists_line k.coder (show f.resume.env.last = false from rfl) hn sizes.sum
  rw [tx_chunks, hbytes]
  congr 1
  rw [Bool.eq_iff_iff, hlast, decide_eq_true_iff]

/-- **The FIFO transfers do not show.**  On the way in, any transfers of a byte stream cause the
indications a single one would; on the way out, any sizes make the same line of the frames that wait,
with either encoding. -/
theorem hdlc_chunks :
    (∀ (alloc : Nat → Option UInt16) (chunks : List (List UInt8)),
      (RxFifo.zero.transfers alloc chunks).2 = (RxFifo.zero.transfer alloc chunks.flatten).2) ∧
    (∀ f : TxFifo, ∃ line : List UInt8, ∀ sizes : List Nat,
      f.transfers coder sizes = (line.take sizes.sum, decide (line.length ≤ sizes.sum))) ∧
    (∀ f : TxFifo, ∃ line : List UInt8, ∀ sizes : List Nat,
      f.transfers coderDchan sizes = (line.take sizes.sum, decide (line.length ≤ sizes.sum))) := by
  refine ⟨fun alloc chunks => rx_chunks alloc ready_zero chunks, ?_, ?_⟩
  · rw [coder_eq]
    exact tx_line encoding switch_pays
  · rw [coderDchan_eq]
    exact tx_line encodingDchan switchDchan_pays

end Hdlc
end Isdn4bsd
