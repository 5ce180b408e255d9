import Isdn4bsd.Lib.BitIdle
import Isdn4bsd.Hdlc.Reference
import Isdn4bsd.Hdlc.RoundTrip

/-!
# The HDLC decoder on any conforming line

The lines that real hardware sends differ from those of `HDLC_ENCODE`: they start at any bit, flags
share a zero, and between frames there may be nothing but ones.  The decoder is followed here by the
same bit-at-a-time receiver, over every line on which aborts come right after a flag (`Rx.Fits`).

* `hunt_spec` and `other_spec` : the table lookup, out of step and at an abort.
* `Decoder.Follows.step` and `Decoder.Follows.run` : the simulation, a byte and a run.
* `FromFlag` and `Conforming` : the lines, as a grammar.
* `decode_conforming` : the decoder reports the frames of such a line, and nothing else.

## Out of step

`Isdn4bsd.Hdlc.Decode` follows the decoder while it is in step: it has seen a flag, and knows where the bytes of a
frame begin.  A line that starts anywhere, or has an idle of ones in it, takes it out of step.  Then it counts ones
and waits for a flag, and of what it has in its variables only the run of ones matters, and that only up to seven
(`Decoder.Hunts`).  `Follows` is the one or the other.

A byte can bring the decoder into step in several ways: a flag that ends in the byte, two flags that share the zero
between them, or a single closing flag with ones behind it.  The table has an answer for each byte and each run of
ones, so the lemmas about a lookup go through all of them by evaluation, and say for each that a receiver
that reads one bit at a time would find the same flag at the same place.

## The grammar

`FromFlag` and `Conforming` are written from what a conforming sender may do, with nothing of the decoder in them, and
the frames of a line are part of the grammar.  The receiver is run over such a line by the rules of `Hands`: fill hands
over nothing, a frame is handed over when its closing flag comes.
-/

set_option autoImplicit false

namespace Isdn4bsd
namespace Hdlc

open Bits BitStuff

/-! ## The lookup -/

/-- The lookup agrees with a receiver that is out of step and has seen `c` ones. -/
def agreesHunt (c : Nat) : Found → Rx × List (List Bool) → Bool
  | .plain ib, r | .data ib _ _, r =>
    decide (c < 7 ∧ r.1.synced = false ∧ ib >>> 12 = min r.1.ones 8 ∧ r.2 = [])
  | .abort ib _ _, r => decide (r.1.synced = false ∧ ib >>> 12 = min r.1.ones 8 ∧ r.2 = [])
  | .flag ib tmp2, r =>
    decide (r.1.synced = true ∧ r.1.data.length ≤ 7 ∧
      (ib >>> 8) &&& 0xf = 8 - r.1.data.length ∧
      lo8 tmp2 >>> (8 - r.1.data.length) = ofBits r.1.data ∧ ib >>> 12 = r.1.ones ∧
      (r.2 = [] ∨ r.2 = [[]]))

/-- **Out of step** the lookup finds the flag the receiver finds. -/
theorem hunt_spec : ∀ c < 9, ∀ b < 256,
    agreesHunt c (destuff c b) (Rx.bits ⟨c, false, []⟩ (bitsOf 8 b)) = true := by
  intro c hc
  simp only [destuff, bitTab_eq_digit]
  interval_cases c
  all_goals decide +kernel

/-- The lookup finds the abort of a receiver that is in step. -/
def agreesAbort : Found → Rx × List (List Bool) → Bool
  | .abort ib _ _, r => decide (r.1.synced = false ∧ ib >>> 12 = min r.1.ones 8 ∧ r.2 = [])
  | _, _ => false

/-- **In step** a byte that a scan gives up on aborts the frame, or it begins with the zero that
ends a flag and has ones up to the end, or it is a flag that shares this zero. -/
theorem other_spec : ∀ c < 7, ∀ b < 256, scan c [] none (bitsOf 8 b) = .other →
    (aborts c (bitsOf 8 b) = true ∧
      agreesAbort (destuff c b) (Rx.bits ⟨c, true, []⟩ (bitsOf 8 b)) = true) ∨
    c = 6 ∧ b = 0xfe ∨ c = 6 ∧ b = 0x7e := by
  intro c hc
  simp only [destuff, bitTab_eq_digit]
  interval_cases c
  all_goals decide +kernel

theorem destuff_single_flag : destuff 6 0xfe = .abort 0x7116 0xfe 0 := by decide

theorem destuff_shared_zero : destuff 6 0x7e = .flag 0x866 0x7e := by decide

/-! ## The simulation -/

/-- The decoder when the receiver is out of step: of the run of ones it knows whether it is longer
than seven, and no frame is open.  After a single closing flag it has not noticed the abort yet. -/
structure Decoder.Hunts (d : Decoder) (s : Rx) : Prop where
  ib : d.ib = min s.ones 8
  len : d.len = 0
  flag : d.flag = 0 ∨ d.flag = 1 ∧ 7 ≤ s.ones

/-- The decoder after a whole number of bytes, in terms of the bit-at-a-time receiver. -/
structure Decoder.Follows (m : Nat) (d : Decoder) (s : Rx) : Prop where
  hunt : s.synced = false → d.Hunts s
  sync : s.synced = true → d.Tracks m s

theorem Decoder.Tracks.follows {m : Nat} {d : Decoder} {s : Rx} (h : d.Tracks m s)
    (hs : s.synced = true) : d.Follows m s :=
  ⟨fun hf => absurd (hs.symm.trans hf) (by simp), fun _ => h⟩

theorem Decoder.Hunts.follows {m : Nat} {d : Decoder} {s : Rx} (h : d.Hunts s)
    (hs : s.synced = false) : d.Follows m s :=
  ⟨fun _ => h, fun ht => absurd (hs.symm.trans ht) (by simp)⟩

namespace Decoder.Hunts

variable {d : Decoder} {s t : Rx}

/-- A byte out of which nothing comes. -/
theorem full_spec (h : d.Hunts s) (hones : s.ones < 7) (nfr : Option Nat) (tmp2 blevel : Nat)
    {ib : Nat} (hib : ib >>> 12 = min t.ones 8) :
    (d.full nfr ib tmp2 blevel).2 = [] ∧ (d.full nfr ib tmp2 blevel).1.Hunts t := by
  have hflag : d.flag = 0 := h.flag.resolve_right (fun h7 => by omega)
  rw [full, store_flag_zero (by exact h.len) (by exact hflag)]
  exact ⟨rfl, hib, h.len, .inl hflag⟩

theorem eoBits_spec (h : d.Hunts s) (hones : s.ones < 7) {ib tmp2 blevel : Nat}
    (hib : ib >>> 12 = min t.ones 8) : (d.eoBits ib tmp2 blevel).Hunts t :=
  ⟨hib, h.len, .inl (h.flag.resolve_right (fun h7 => by omega))⟩

/-- With no frame open an abort only resets the decoder. -/
theorem abort_spec (hlen : d.len = 0) (hflag : d.flag < 2) {ib tmp2 drop : Nat}
    (hib : ib >>> 12 = min t.ones 8) :
    (d.abort ib tmp2 drop).2 = [] ∧ (d.abort ib tmp2 drop).1.Hunts t := by
  rw [abort, if_neg (by exact Nat.not_le.mpr hflag)]
  exact ⟨rfl, hib, hlen, .inl rfl⟩

/-- The first flag brings the decoder into step. -/
theorem flagSeq_spec {m : Nat} (hlen : d.len = 0) (hflag : d.flag < 2) {ib tmp2 : Nat}
    (hdata : t.data.length ≤ 7) (hcount : (ib >>> 8) &&& 0xf = 8 - t.data.length)
    (htmp : lo8 tmp2 >>> (8 - t.data.length) = ofBits t.data) (hib : ib >>> 12 = t.ones)
    (hs : t.synced = true) :
    (d.flagSeq ib tmp2).2 = [] ∧ (d.flagSeq ib tmp2).1.Tracks m t := by
  rw [flagSeq, if_neg (Nat.not_le.mpr hflag)]
  refine ⟨rfl, hib, fun hf => absurd (hs.symm.trans hf) (by simp), fun _ =>
    ⟨[], t.data, rfl, by omega, ?_, ?_, ?_⟩⟩
  · rw [restart, hcount]
    simp only
    omega
  · rw [restart, hcount, htmp]
  · exact ⟨fun _ => ⟨rfl, hlen⟩, fun hne => absurd rfl hne, fun hne => absurd rfl hne⟩

theorem flag_lt (h : d.Hunts s) : d.flag < 2 := by
  rcases h.flag with hf | ⟨hf, -⟩ <;> omega

theorem congr (h : d.Hunts t) (hones : min t.ones 8 = min s.ones 8) : d.Hunts s := by
  refine ⟨hones ▸ h.ib, h.len, h.flag.imp id fun hf => ⟨hf.1, ?_⟩⟩
  have := hf.2
  omega

/-- **A byte out of step.** -/
theorem step {m : Nat} (h : d.Hunts s) (hs : s.synced = false) (b : UInt8) :
    ∃ fss : List (List UInt8),
      (hdlcDecode (some m) d b).1.Follows m (s.bits (bitsOf 8 b.toNat)).1 ∧
      (s.bits (bitsOf 8 b.toNat)).2 = fss.map bytesBits ∧
      (hdlcDecode (some m) d b).2 = fss.flatMap delivered := by
  have hagree := hunt_spec (min s.ones 8) (by omega) b.toNat b.toNat_lt
  obtain ⟨⟨hones, hsync, hdata⟩, hframes⟩ := Rx.bits_hunt hs (bitsOf 8 b.toNat)
  rw [hframes]
  generalize s.bits (bitsOf 8 b.toNat) = u at hones hsync hdata
  generalize Rx.bits ⟨min s.ones 8, false, []⟩ (bitsOf 8 b.toNat) = r at *
  rw [hdlcDecode, h.ib]
  cases hfound : destuff (min s.ones 8) b.toNat with
  | plain ib =>
    simp only [hfound, agreesHunt, decide_eq_true_eq] at hagree
    obtain ⟨hc, hr, hib, hnone⟩ := hagree
    obtain ⟨hev, hd⟩ := h.full_spec (by omega) (some m) b.toNat d.blevel hib
    exact ⟨[], (hd.congr hones.symm).follows (hsync.trans hr), hnone, hev⟩
  | data ib tmp2 drop =>
    simp only [hfound, agreesHunt, decide_eq_true_eq] at hagree
    obtain ⟨hc, hr, hib, hnone⟩ := hagree
    simp only
    split
    · exact ⟨[], ((h.eoBits_spec (by omega) hib).congr hones.symm).follows (hsync.trans hr), hnone,
        rfl⟩
    · obtain ⟨hev, hd⟩ := h.full_spec (by omega) (some m) tmp2 _ hib
      exact ⟨[], (hd.congr hones.symm).follows (hsync.trans hr), hnone, hev⟩
  | abort ib tmp2 drop =>
    simp only [hfound, agreesHunt, decide_eq_true_eq] at hagree
    obtain ⟨hr, hib, hnone⟩ := hagree
    obtain ⟨hev, hd⟩ := abort_spec h.len h.flag_lt hib
    exact ⟨[], (hd.congr hones.symm).follows (hsync.trans hr), hnone, hev⟩
  | flag ib tmp2 =>
    simp only [hfound, agreesHunt, decide_eq_true_eq] at hagree
    obtain ⟨hr, hlen, hcount, htmp, hib, hempty⟩ := hagree
    obtain ⟨hdata, hones⟩ := hdata (hsync.trans hr)
    rw [← hdata] at hlen hcount htmp
    obtain ⟨hev, hd⟩ := flagSeq_spec (m := m) h.len h.flag_lt hlen hcount htmp
      (hib.trans hones.symm) (hsync.trans hr)
    rcases hempty with hnil | hnil
    · exact ⟨[], hd.follows (hsync.trans hr), hnil, hev⟩
    · exact ⟨[[]], hd.follows (hsync.trans hr), hnil, hev⟩

end Decoder.Hunts

namespace Decoder.Tracks

variable {m : Nat} {d : Decoder} {s : Rx}

/-- Fewer than eight bits collected: no frame is open. -/
theorem start_of_length (h : d.Tracks m s) (hs : s.synced = true) (hlen : s.data.length < 8) :
    d.flag = 1 ∧ d.len = 0 := by
  obtain ⟨out, rest, hdata, -, -, -, hstored⟩ := h.sync hs
  rw [hdata, List.length_append, length_bytesBits] at hlen
  exact hstored.start (List.eq_nil_of_length_eq_zero (by omega))

theorem start_of_flag (h : d.Tracks m s) (hs : s.synced = true) (hflag : d.flag < 2) :
    d.flag = 1 ∧ d.len = 0 := by
  obtain ⟨out, rest, -, -, -, -, hstored⟩ := h.sync hs
  by_cases hout : out = []
  · exact hstored.start hout
  · rcases hstored.count hout with ⟨-, hf, -⟩ | ⟨-, hf, -⟩ | ⟨-, hf, -⟩ <;> omega

/-- The run of seven ones that follows a flag. -/
theorem step_abort {cap : Nat} (h : d.Tracks m s) (hs : s.synced = true) (b : UInt8)
    (hfit : s.Fits cap (bitsOf 8 b.toNat)) (haborts : aborts s.ones (bitsOf 8 b.toNat) = true)
    (hagree : agreesAbort (destuff s.ones b.toNat)
      (Rx.bits ⟨s.ones, true, []⟩ (bitsOf 8 b.toNat)) = true) :
    (hdlcDecode (some m) d b).1.Follows m (s.bits (bitsOf 8 b.toNat)).1 ∧
      (s.bits (bitsOf 8 b.toNat)).2 = [] ∧ (hdlcDecode (some m) d b).2 = [] := by
  have hshort := Rx.length_le_of_aborts hfit hs haborts
  obtain ⟨hflag, hlen⟩ := h.start_of_length hs (by omega)
  obtain ⟨hones, hsync, hframes⟩ := Rx.bits_of_synced (c := s.ones) s.data (bitsOf 8 b.toNat)
  have hself : (⟨s.ones, true, s.data⟩ : Rx) = s := by rw [← hs]
  rw [hself] at hones hsync hframes
  rw [hdlcDecode, h.ib]
  cases hfound : destuff s.ones b.toNat with
  | plain ib | data ib tmp2 drop | flag ib tmp2 => simp [hfound, agreesAbort] at hagree
  | abort ib tmp2 drop =>
    simp only [hfound, agreesAbort, decide_eq_true_eq] at hagree
    obtain ⟨hr, hib, hnone⟩ := hagree
    rw [← hones] at hib
    rw [hnone, List.length_nil, List.length_eq_zero_iff] at hframes
    obtain ⟨hev, hd⟩ := Hunts.abort_spec hlen (by omega) hib
    exact ⟨hd.follows (hsync.trans hr), hframes, hev⟩

/-- The zero that ends a flag, followed by seven ones. -/
theorem step_single_flag (h : d.Tracks m s) (hm : 1 ≤ m) (hm' : m + 1 < 2 ^ 16)
    (hs : s.synced = true) (hones : s.ones = 6)
    (hframe : s.data.length = 6 ∨ 7 ≤ s.data.length ∧ (s.data.length - 7) % 8 = 0) :
    ∃ fss : List (List UInt8),
      (hdlcDecode (some m) d 0xfe).1.Follows m (s.bits (bitsOf 8 0xfe)).1 ∧
      (s.bits (bitsOf 8 0xfe)).2 = fss.map bytesBits ∧
      (hdlcDecode (some m) d 0xfe).2 = fss.flatMap delivered := by
  have hbits : s.bits (bitsOf 8 0xfe)
      = (⟨7, false, List.replicate 7 true⟩, [s.data.take (s.data.length - 7)]) := by
    rw [show bitsOf 8 0xfe = [false, true, true, true, true, true, true, true] from rfl]
    simp [Rx.bits, Rx.bit, hones, hs, List.replicate]
  obtain ⟨fss, -, hframes, hev⟩ := @flagSeq_spec m d s 0x7116 0xfe 7 [] (List.replicate 7 true) h
    hm hm' (by decide) (by decide) (fun _ => by rwa [List.append_nil]) rfl rfl rfl
  rw [hs, if_pos rfl, List.append_nil] at hframes
  have hfound : hdlcDecode (some m) d 0xfe = d.abort 0x7116 0xfe 0 := by
    simp only [hdlcDecode, h.ib, hones, show (0xfe : UInt8).toNat = 0xfe from rfl,
      destuff_single_flag]
  rw [hbits, hfound]
  by_cases hflag : 2 ≤ d.flag
  · rw [flagSeq, if_pos hflag] at hev
    rw [abort, if_pos (by exact hflag), if_pos (by rfl)]
    exact ⟨fss, Hunts.follows ⟨rfl, rfl, .inr ⟨rfl, Nat.le_refl 7⟩⟩ rfl, hframes, hev⟩
  · rw [flagSeq, if_neg hflag] at hev
    obtain ⟨-, hlen⟩ := h.start_of_flag hs (by omega)
    obtain ⟨hnone, hd⟩ := @Hunts.abort_spec d ⟨7, false, List.replicate 7 true⟩ hlen (by omega)
      0x7116 0xfe 0 rfl
    exact ⟨fss, hd.follows rfl, hframes, hnone.trans hev⟩

/-- A flag that shares its first zero with the one before. -/
theorem step_shared_zero (h : d.Tracks m s) (hm : 1 ≤ m) (hm' : m + 1 < 2 ^ 16)
    (hs : s.synced = true) (hones : s.ones = 6)
    (hframe : s.data.length = 6 ∨ 7 ≤ s.data.length ∧ (s.data.length - 7) % 8 = 0) :
    ∃ fss : List (List UInt8),
      (hdlcDecode (some m) d 0x7e).1.Follows m (s.bits (bitsOf 8 0x7e)).1 ∧
      (s.bits (bitsOf 8 0x7e)).2 = fss.map bytesBits ∧
      (hdlcDecode (some m) d 0x7e).2 = fss.flatMap delivered := by
  have hbits : s.bits (bitsOf 8 0x7e)
      = (⟨0, true, []⟩, [s.data.take (s.data.length - 7), []]) := by
    rw [show bitsOf 8 0x7e = [false, true, true, true, true, true, true, false] from rfl]
    simp [Rx.bits, Rx.bit, hones, hs]
  obtain ⟨fss, htr, hframes, hev⟩ := @flagSeq_spec m d s 0x866 0x7e 0 [] [] h
    hm hm' (by decide) (by decide) (fun _ => by rwa [List.append_nil]) rfl rfl rfl
  rw [hs, if_pos rfl, List.append_nil] at hframes
  have hfound : hdlcDecode (some m) d 0x7e = d.flagSeq 0x866 0x7e := by
    simp only [hdlcDecode, h.ib, hones, show (0x7e : UInt8).toNat = 0x7e from rfl,
      destuff_shared_zero]
  rw [hbits, hfound]
  refine ⟨fss ++ [[]], htr.follows rfl, ?_, ?_⟩
  · rw [List.map_append, ← hframes]
    rfl
  · rw [hev, List.flatMap_append]
    exact (List.append_nil _).symm

/-- **A byte in step.** -/
theorem step_fits (h : d.Tracks m s) (hm : 1 ≤ m) (hm' : m + 1 < 2 ^ 16) (hs : s.synced = true)
    (hwf : s.Wf (m + 2)) (b : UInt8) (hfit : s.Fits (m + 2) (bitsOf 8 b.toNat)) :
    ∃ fss : List (List UInt8),
      (hdlcDecode (some m) d b).1.Follows m (s.bits (bitsOf 8 b.toNat)).1 ∧
      (s.bits (bitsOf 8 b.toNat)).2 = fss.map bytesBits ∧
      (hdlcDecode (some m) d b).2 = fss.flatMap delivered := by
  have hones := hwf.ones_le
  have hstart : (Scan.ofParts s.ones [] none).apply s = (s, []) := by
    rw [Scan.ofParts, Scan.apply, List.append_nil]
  have hbits : scan s.ones [] none (bitsOf 8 b.toNat) ≠ .other →
      s.bits (bitsOf 8 b.toNat) = (scan s.ones [] none (bitsOf 8 b.toNat)).apply s := by
    intro hne
    rw [bits_ofParts_scan s _ _ _ _ hne, hstart, List.nil_append]
  cases hscan : scan s.ones [] none (bitsOf 8 b.toNat) with
  | data pre ones =>
    rw [hscan] at hbits
    have hroom := Rx.wf_bits_of_fits (fun _ => hwf) hfit
    rw [hbits (by simp)] at hroom ⊢
    obtain ⟨hev, htr⟩ := h.step_data hwf b hscan (fun _ => (hroom hs).room hs)
    exact ⟨[], htr.follows hs, rfl, hev⟩
  | flag pre post ones =>
    rw [hscan] at hbits
    rw [hbits (by simp)]
    obtain ⟨fss, htr, hframes, hev⟩ := h.step_flag hm hm' hones b hscan fun hs =>
      scan_flag_of_fits (m + 2) s s.ones [] _ (by rw [hstart]; exact hfit) hscan hs
    exact ⟨fss, htr.follows rfl, hframes, hev⟩
  | other =>
    rcases other_spec s.ones (by omega) b.toNat b.toNat_lt hscan with ⟨ha, hagree⟩ | ⟨h6, hb⟩ |
      ⟨h6, hb⟩
    · obtain ⟨hd, hframes, hev⟩ := h.step_abort hs b hfit ha hagree
      exact ⟨[], hd, hframes, hev⟩
    · obtain rfl : b = 0xfe := UInt8.toNat_inj.mp hb
      exact h.step_single_flag hm hm' hs h6 ((hfit.1 hs).1 h6)
    · obtain rfl : b = 0x7e := UInt8.toNat_inj.mp hb
      exact h.step_shared_zero hm hm' hs h6 ((hfit.1 hs).1 h6)

end Decoder.Tracks

namespace Decoder.Follows

variable {m : Nat} {d : Decoder} {s : Rx}

/-- **A byte.** -/
theorem step (h : d.Follows m s) (hm : 1 ≤ m) (hm' : m + 1 < 2 ^ 16)
    (hwf : s.synced = true → s.Wf (m + 2)) (b : UInt8)
    (hfit : s.Fits (m + 2) (bitsOf 8 b.toNat)) :
    ∃ fss : List (List UInt8),
      (hdlcDecode (some m) d b).1.Follows m (s.bits (bitsOf 8 b.toNat)).1 ∧
      (s.bits (bitsOf 8 b.toNat)).2 = fss.map bytesBits ∧
      (hdlcDecode (some m) d b).2 = fss.flatMap delivered := by
  cases hs : s.synced with
  | false => exact (h.hunt hs).step hs b
  | true => exact (h.sync hs).step_fits hm hm' hs (hwf hs) b hfit

/-- **A run**: the frames that the receiver hands over are those the decoder reports. -/
theorem run (h : d.Follows m s) (hm : 1 ≤ m) (hm' : m + 1 < 2 ^ 16)
    (hwf : s.synced = true → s.Wf (m + 2)) (bs : List UInt8)
    (hfit : s.Fits (m + 2) (bytesBits bs)) :
    ∃ fss : List (List UInt8),
      (decodeRun m d bs).1.Follows m (s.bits (bytesBits bs)).1 ∧
      (s.bits (bytesBits bs)).2 = fss.map bytesBits ∧
      (decodeRun m d bs).2 = fss.flatMap delivered := by
  induction bs generalizing d s with
  | nil => exact ⟨[], h, rfl, rfl⟩
  | cons b bs ih =>
    have hcons : bytesBits (b :: bs) = bitsOf 8 b.toNat ++ bytesBits bs := rfl
    rw [hcons, Rx.fits_append] at hfit
    obtain ⟨fss, htr, hfr, hev⟩ := h.step hm hm' hwf b hfit.1
    obtain ⟨gss, htr', hfr', hev'⟩ := ih htr (Rx.wf_bits_of_fits hwf hfit.1) hfit.2
    refine ⟨fss ++ gss, ?_, ?_, ?_⟩
    · rw [hcons, Rx.bits_append]
      exact htr'
    · rw [hcons, Rx.bits_append, List.map_append, hfr, hfr']
    · rw [decodeRun, List.flatMap_append, hev, hev']

end Decoder.Follows

theorem follows_zero (m : Nat) : Decoder.zero.Follows m ⟨0, false, []⟩ :=
  Decoder.Hunts.follows ⟨rfl, rfl, .inl rfl⟩ rfl

/-! ## Conforming lines -/

/-- `FromFlag cap bits frames`: right after a flag, `bits` is what a conforming sender may send, and
`frames` are the frames in it, of at most `cap` bytes.  The frames are delimited by flags, one or
more of them between two frames; two flags in a row may share a zero, and a flag may be followed by
idle ones.  The bits end anywhere in the last byte, behind a flag or in idle. -/
inductive FromFlag (cap : Nat) : List Bool → List Frame → Prop where
  | stop (trail : List Bool) (h : trail.length < 8) : FromFlag cap trail []
  | idleStop (n : Nat) (hn : 7 ≤ n) (trail : List Bool) (h : trail.length < 8) :
      FromFlag cap (List.replicate n true ++ trail) []
  | idle (n : Nat) (hn : 7 ≤ n) {bits : List Bool} {frames : List Frame}
      (h : FromFlag cap bits frames) :
      FromFlag cap (List.replicate n true ++ flag ++ bits) frames
  | flag {bits : List Bool} {frames : List Frame} (h : FromFlag cap bits frames) :
      FromFlag cap (flag ++ bits) frames
  | sharedFlag {bits : List Bool} {frames : List Frame} (h : FromFlag cap bits frames) :
      FromFlag cap (flag.tail ++ bits) frames
  | frame (p : Frame) (hp : 1 ≤ p.length ∧ p.length ≤ cap) {bits : List Bool}
      {frames : List Frame} (h : FromFlag cap bits frames) :
      FromFlag cap (refFrame p ++ flag ++ bits) (p :: frames)

/-- A conforming line from the moment the receiver is switched on, at any alignment: up to seven
bits of anything, then idle ones or not, and the first flag if there is one. -/
inductive Conforming (cap : Nat) : List Bool → List Frame → Prop where
  | silent (lead : List Bool) (hlead : lead.length < 8) (n : Nat) :
      Conforming cap (lead ++ List.replicate n true) []
  | start (lead : List Bool) (hlead : lead.length < 8) (n : Nat) (hn : n = 0 ∨ 7 ≤ n)
      {rest : List Bool} {frames : List Frame} (hrest : FromFlag cap rest frames) :
      Conforming cap (lead ++ (List.replicate n true ++ (flag ++ rest))) frames

theorem FromFlag.mono {cap cap' : Nat} (hcap : cap ≤ cap') {bits : List Bool}
    {frames : List Frame} (h : FromFlag cap bits frames) : FromFlag cap' bits frames := by
  induction h with
  | stop trail htrail => exact .stop trail htrail
  | idleStop n hn trail htrail => exact .idleStop n hn trail htrail
  | idle n hn _ ih => exact .idle n hn ih
  | flag _ ih => exact .flag ih
  | sharedFlag _ ih => exact .sharedFlag ih
  | frame p hp _ ih => exact .frame p ⟨hp.1, hp.2.trans hcap⟩ ih

theorem Conforming.mono {cap cap' : Nat} (hcap : cap ≤ cap') {bits : List Bool}
    {frames : List Frame} (h : Conforming cap bits frames) : Conforming cap' bits frames := by
  cases h with
  | silent lead hlead n => exact .silent lead hlead n
  | start lead hlead n hn hrest => exact .start lead hlead n hn (hrest.mono hcap)

/-- The receiver takes the bits, and hands over the checked frames, and empty ones. -/
structure Hands (cap : Nat) (s : Rx) (bits : List Bool) (frames : List Frame) : Prop where
  fits : s.Fits (cap + 2) bits
  frames : (s.bits bits).2.filter (· ≠ []) = frames.map (fun p => bytesBits (checked p))

namespace Hands

variable {cap : Nat} {s : Rx} {xs ys : List Bool} {fs gs : List Frame}

theorem append (h : Hands cap s xs fs) (h' : Hands cap (s.bits xs).1 ys gs) :
    Hands cap s (xs ++ ys) (fs ++ gs) := by
  refine ⟨(Rx.fits_append _ _ _ _).mpr ⟨h.fits, h'.fits⟩, ?_⟩
  rw [Rx.bits_append, List.filter_append, h.frames, h'.frames, List.map_append]

/-- Fill hands over nothing. -/
theorem fill (hfits : s.Fits (cap + 2) xs) (hframes : ∀ f ∈ (s.bits xs).2, f = []) :
    Hands cap s xs [] := by
  refine ⟨hfits, ?_⟩
  rw [List.map_nil, List.filter_eq_nil_iff]
  intro f hf
  simp [hframes f hf]

theorem ones {n : Nat} (hfits : s.Fits (cap + 2) (List.replicate n true)) :
    Hands cap s (List.replicate n true) [] :=
  .fill hfits (by simp [Rx.bits_ones_frames])

/-- A flag, and what comes after it. -/
theorem flag (hs : s.Ready) (h : Hands cap ⟨0, true, []⟩ ys gs) :
    Hands cap s (BitStuff.flag ++ ys) gs := by
  obtain ⟨hfits, hstart, hframes⟩ := hs.flag (cap + 2)
  refine (Hands.fill hfits hframes).append ?_
  rwa [hstart]

theorem frame {p : Frame} (hp : 1 ≤ p.length ∧ p.length ≤ cap) :
    Hands cap ⟨0, true, []⟩ (refFrame p ++ BitStuff.flag) [p] ∧
      (Rx.bits ⟨0, true, []⟩ (refFrame p ++ BitStuff.flag)).1 = ⟨0, true, []⟩ := by
  have hlen : (checked p).length = p.length + 2 := by
    rw [checked, List.length_append, length_fcsBytes]
  obtain ⟨hbits, hoks⟩ := @bits_piece (cap + 2) (some p) (fun q hq => by
    obtain rfl := Option.some.inj hq
    omega)
  rw [piece, ← refFrame_eq] at hbits hoks
  have hne : bytesBits (checked p) ≠ [] :=
    List.ne_nil_of_length_pos (by rw [length_bytesBits]; omega)
  refine ⟨⟨Rx.fits_of_oks hoks, ?_⟩, by rw [hbits]⟩
  rw [hbits, received, List.filter_cons_of_pos (by simpa using hne)]
  rfl

end Hands

/-- **A conforming line**, from a flag on: the receiver hands over its frames. -/
theorem FromFlag.hands {cap : Nat} {bits : List Bool} {frames : List Frame}
    (h : FromFlag cap bits frames) : Hands cap ⟨0, true, []⟩ bits frames := by
  have hready : Rx.Ready ⟨0, true, []⟩ := .inr rfl
  induction h with
  | stop trail htrail =>
    obtain ⟨hfits, hframes⟩ := hready.fits_short (cap + 2) (Nat.le_of_lt_succ htrail)
    exact .fill hfits hframes
  | idleStop n hn trail htrail =>
    obtain ⟨hfits, hs⟩ := hready.idle (cap + 2) hn
    obtain ⟨hfits', hframes⟩ := Rx.Ready.fits_short (.inl hs) (cap + 2) (Nat.le_of_lt_succ htrail)
    exact (Hands.ones hfits).append (.fill hfits' hframes)
  | idle n hn h ih =>
    obtain ⟨hfits, hs⟩ := hready.idle (cap + 2) hn
    rw [List.append_assoc]
    exact (Hands.ones hfits).append (Hands.flag (.inl hs) ih)
  | flag h ih => exact Hands.flag hready ih
  | sharedFlag h ih =>
    obtain ⟨hfits, hbits⟩ := Rx.bits_shared_flag (cap + 2)
    refine (Hands.fill hfits (by simp [hbits])).append ?_
    rwa [hbits]
  | frame p hp h ih =>
    obtain ⟨hframe, hstart⟩ := Hands.frame hp
    refine hframe.append ?_
    rwa [hstart]

theorem Conforming.hands {cap : Nat} {bits : List Bool} {frames : List Frame}
    (h : Conforming cap bits frames) : Hands cap ⟨0, false, []⟩ bits frames := by
  have hready : Rx.Ready ⟨0, false, []⟩ := .inl rfl
  have hfirst : ∀ lead : List Bool, lead.length < 8 → Hands cap ⟨0, false, []⟩ lead [] := by
    intro lead hlead
    obtain ⟨hfits, hframes⟩ := hready.fits_short (cap + 2) (Nat.le_of_lt_succ hlead)
    exact .fill hfits hframes
  cases h with
  | silent lead hlead n =>
    have hready' := Rx.ready_lead hlead
    refine (hfirst lead hlead).append (.ones ?_)
    rcases Nat.lt_or_ge n 7 with hn | hn
    · exact (hready'.fits_short _ (by rw [List.length_replicate]; omega)).1
    · exact (hready'.idle _ hn).1
  | start lead hlead n hn hrest =>
    have hready' := Rx.ready_lead hlead
    refine (hfirst lead hlead).append ?_
    generalize (Rx.bits ⟨0, false, []⟩ lead).1 = s at hready'
    rcases hn with rfl | hn
    · exact .flag hready' hrest.hands
    · obtain ⟨hfits, hs⟩ := hready'.idle (cap + 2) hn
      exact (Hands.ones hfits).append (.flag (.inl hs) hrest.hands)

theorem flatMap_delivered_filter (fss : List (List UInt8)) :
    (fss.filter (· ≠ [])).flatMap delivered = fss.flatMap delivered := by
  induction fss with
  | nil => rfl
  | cons f fss ih =>
    by_cases hf : f = []
    · rw [List.filter_cons_of_neg (by simpa using hf), ih, List.flatMap_cons, hf]
      rfl
    · rw [List.filter_cons_of_pos (by simpa using hf), List.flatMap_cons, ih, List.flatMap_cons]

/-- What the receiver hands over the decoder reports. -/
theorem Hands.decode {m : Nat} (hm : 1 ≤ m) (hm' : m + 1 < 2 ^ 16) {bytes : List UInt8}
    {frames : List Frame} (h : Hands m ⟨0, false, []⟩ (bytesBits bytes) frames) :
    (decodeRun m Decoder.zero bytes).2 = frames.map (fun p => Event.cfr p 0) := by
  obtain ⟨fss, -, hframes, hev⟩ := (follows_zero m).run hm hm' (fun hs => absurd hs (by simp))
    bytes h.fits
  have hne : ∀ f : List UInt8, (bytesBits f ≠ []) ↔ f ≠ [] := by
    intro f
    rw [← List.length_pos_iff, ← List.length_pos_iff, length_bytesBits]
    omega
  have hfilter : fss.filter (· ≠ []) = frames.map checked := by
    have hmap := h.frames
    rw [hframes, List.filter_map] at hmap
    have hpred : (fun f : List UInt8 => decide (bytesBits f ≠ [])) = fun f => decide (f ≠ []) := by
      funext f
      exact decide_eq_decide.mpr (hne f)
    have hcomp : ((fun b : List Bool => decide (b ≠ [])) ∘ bytesBits)
        = fun f : List UInt8 => decide (f ≠ []) := hpred
    rw [hcomp] at hmap
    apply List.map_injective_iff.mpr (fun _ _ he => bytesBits_injective he)
    rw [hmap, List.map_map]
    rfl
  rw [hev, ← flatMap_delivered_filter, hfilter, List.flatMap_map]
  simp only [delivered_checked]
  exact List.map_eq_flatMap.symm

/-- **The decoder on a conforming line.**  Whatever conforming bits arrive, at any alignment, with
flags shared or not and idle ones between the frames: with receive buffers of `m` bytes the decoder
reports the frames in them, in order and with a check of zero, and reports nothing else. -/
theorem decode_conforming (m : Nat) (hm : 2048 ≤ m) (hm' : m + 1 < 2 ^ 16) (bytes : List UInt8)
    (frames : List Frame) (h : Conforming 2048 (bytesBits bytes) frames) :
    (decodeRun m Decoder.zero bytes).2 = frames.map (fun p => Event.cfr p 0) := by
  exact (Conforming.mono hm h).hands.decode (by omega) hm'

/-- Two frames at an offset of three bits: the flags between them share a zero, and the single flag
after the second is followed by nine ones. -/
theorem decode_conforming_instance :
    (decodeRun 2048 Decoder.zero
      [0xf5, 0xfb, 0xf6, 0xa1, 0x87, 0xd2, 0xef, 0xa7, 0x8a, 0xa2, 0xcf, 0xef, 0xbf, 0xdf]).2
        = [.cfr [0x7f, 0x1f] 0, .cfr [0xaa] 0] := by
  have hrest : FromFlag 2048 (refFrame [0x7f, 0x1f] ++ flag ++ (flag.tail ++
      (refFrame [0xaa] ++ flag ++ (List.replicate 9 true ++ flag ++ [true, true]))))
      [[0x7f, 0x1f], [0xaa]] :=
    .frame _ (by decide) (.sharedFlag (.frame _ (by decide) (.idle 9 (by decide)
      (.stop [true, true] (by decide)))))
  have hstart : Conforming 2048 _ [[0x7f, 0x1f], [0xaa]] :=
    .start [true, false, true] (by decide) 0 (.inl rfl) hrest
  have hbits : bytesBits
      [0xf5, 0xfb, 0xf6, 0xa1, 0x87, 0xd2, 0xef, 0xa7, 0x8a, 0xa2, 0xcf, 0xef, 0xbf, 0xdf]
      = [true, false, true] ++ (List.replicate 0 true ++ (flag ++ (refFrame [0x7f, 0x1f] ++ flag ++
        (flag.tail ++ (refFrame [0xaa] ++ flag ++
          (List.replicate 9 true ++ flag ++ [true, true])))))) := by
    decide
  exact decode_conforming 2048 (by decide) (by decide) _ [[0x7f, 0x1f], [0xaa]]
    (by rw [hbits]; exact hstart)

end Hdlc
end Isdn4bsd
