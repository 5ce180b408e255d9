import Isdn4bsd.Hdlc.Encode
import Isdn4bsd.Hdlc.Decode

/-!
# The HDLC coders are inverse

What `HDLC_ENCODE` writes, `HDLC_DECODE` reads back.  The two macros share the tables and nothing
else, and each of them has been related to the same bit-level picture: the encoder to the line it
produces (`encodeRun_spec`), the decoder to a bit-at-a-time receiver (`Decoder.Tracks.run`).  What
is left is to run that receiver over that line.

* `bits_line` : the receiver collects the checked frames, and an empty frame for each idle flag.
* `decode_encode` : the decoder reports each frame with a check of zero, and reports nothing else.
* `hdlc_round_trip` : the same for the sizes of a B-channel.

Between two flags there are no bits when a line is idle, and the receiver hands over an empty frame then.  The
decoder does not report it, because a frame begins for it with the first byte.  So what is compared is what the
receiver hands over that has a byte in it.

A run of the encoder ends where the caller wants, in general in the middle of a flag.  A flag that is cut short hands
over nothing (`bits_flag_take`), so that no condition on the number of executions is needed, other than that
there are enough.
-/

set_option autoImplicit false

namespace Isdn4bsd
namespace Hdlc

open Bits BitStuff

/-- What the receiver hands over for an answer of `gfr`. -/
def received : Option Frame → List UInt8
  | none => []
  | some p => checked p

theorem bits_piece {cap : Nat} {a : Option Frame}
    (h : ∀ p, a = some p → (checked p).length ≤ cap) :
    Rx.bits ⟨0, true, []⟩ (piece a) = (⟨0, true, []⟩, [bytesBits (received a)]) ∧
      Rx.Oks cap ⟨0, true, []⟩ (piece a) := by
  cases a with
  | none => exact ⟨Rx.bits_flag (by decide) [], Rx.oks_flag (by decide) (Nat.zero_le _) rfl⟩
  | some p =>
    have hlen : (bytesBits (checked p)).length = 8 * (checked p).length := length_bytesBits _
    have hcap := h p rfl
    have hones : stuffOnes 0 (bytesBits (checked p)) ≤ 4 := stuffOnes_le (by decide) _
    have hstuff := Rx.bits_stuff (c := 0) (by decide) [] (bytesBits (checked p))
    refine ⟨?_, ?_⟩
    · rw [piece, Rx.bits_append, hstuff]
      simp only [List.nil_append]
      rw [Rx.bits_flag hones]
      rfl
    · rw [piece, Rx.oks_append, hstuff]
      refine ⟨Rx.oks_stuff (by decide) (by rw [List.length_nil]; omega), ?_⟩
      exact Rx.oks_flag hones (by rw [List.nil_append]; omega) (by rw [List.nil_append]; omega)

theorem bits_pieces {cap : Nat} {done : List (Option Frame)}
    (h : ∀ p, some p ∈ done → (checked p).length ≤ cap) :
    Rx.bits ⟨0, true, []⟩ (done.flatMap piece)
        = (⟨0, true, []⟩, (done.map received).map bytesBits) ∧
      Rx.Oks cap ⟨0, true, []⟩ (done.flatMap piece) := by
  induction done with
  | nil => exact ⟨rfl, trivial⟩
  | cons a done ih =>
    have hcap : ∀ p, a = some p → (checked p).length ≤ cap := by
      intro p hp
      exact h p (by simp [hp])
    obtain ⟨hbits, hoks⟩ := bits_piece hcap
    obtain ⟨hbits', hoks'⟩ := ih (fun p hp => h p (by simp [hp]))
    rw [List.flatMap_cons, Rx.bits_append, Rx.oks_append, hbits]
    refine ⟨?_, hoks, hoks'⟩
    rw [hbits']
    rfl

/-- **The receiver on the line**, from power-up: the first flag synchronises it. -/
theorem bits_line {cap : Nat} {done : List (Option Frame)}
    (h : ∀ p, some p ∈ done → (checked p).length ≤ cap) :
    Rx.bits ⟨0, false, []⟩ (line done)
        = (⟨0, true, []⟩, ([] :: done.map received).map bytesBits) ∧
      Rx.Oks cap ⟨0, false, []⟩ (line done) := by
  obtain ⟨hbits, hoks⟩ := bits_pieces h
  have hfirst : Rx.bits ⟨0, false, []⟩ (flag ++ flag) = (⟨0, true, []⟩, [[]]) := rfl
  have hokfirst : Rx.Oks cap ⟨0, false, []⟩ (flag ++ flag) := by
    simp [flag, Rx.Oks, Rx.Ok, Rx.bit]
  rw [line, Rx.bits_append, Rx.oks_append, hfirst, hbits]
  exact ⟨rfl, hokfirst, hoks⟩

/-- A flag that is cut short hands over nothing, or an empty frame. -/
theorem bits_flag_take (k : Nat) :
    ∃ n, (Rx.bits ⟨0, true, []⟩ (flag.take k)).2 = (List.replicate n []).map bytesBits := by
  have hsmall : ∀ k < 8, (Rx.bits ⟨0, true, []⟩ (flag.take k)).2 = [] := by decide
  rcases Nat.lt_or_ge k 8 with hk | hk
  · exact ⟨0, hsmall k hk⟩
  · exact ⟨1, by rw [List.take_of_length_le hk]; rfl⟩

theorem delivered_checked (p : Frame) : delivered (checked p) = [.cfr p 0] := by
  have hlen : (checked p).length = p.length + 2 := by rw [checked, List.length_append]; rfl
  have hne : checked p ≠ [] := List.ne_nil_of_length_pos (by omega)
  rw [delivered, if_neg hne, if_pos (by omega), hlen, Nat.add_sub_cancel, checked, fcs_residue,
    List.take_left]
  rfl

theorem flatMap_delivered_received (done : List (Option Frame)) :
    (done.map received).flatMap delivered = (done.filterMap id).map (fun p => Event.cfr p 0) := by
  induction done with
  | nil => rfl
  | cons a done ih =>
    cases a with
    | none => rw [List.map_cons, List.flatMap_cons, ih]; rfl
    | some p => rw [List.map_cons, List.flatMap_cons, ih, received, delivered_checked]; rfl

theorem flatMap_delivered_replicate (n : Nat) :
    (List.replicate n ([] : List UInt8)).flatMap delivered = [] := by
  induction n with
  | zero => rfl
  | succ n ih => rw [List.replicate_succ, List.flatMap_cons, ih]; rfl

/-- **What was sent is received**: the decoder, with buffers of `m` bytes, reports the frames that
`gfr` handed to the encoder, in order and with a check of zero, and reports nothing else: no other
frame, no abort, no overflow. -/
theorem decode_encode {m : Nat} (hm : 1 ≤ m) (hm' : m + 1 < 2 ^ 16)
    {answers : List (Option Frame)}
    (hsize : ∀ p, some p ∈ answers → 1 ≤ p.length ∧ p.length ≤ m) (n : Nat)
    (hidle : (encodeRun n Encoder.zero ⟨answers, 0⟩).2.1.idle ≠ 0) :
    (decodeRun m Decoder.zero (encodeRun n Encoder.zero ⟨answers, 0⟩).2.2).2
      = (answers.filterMap id).map (fun p => Event.cfr p 0) := by
  have hsend : Sendable answers := fun p hp => ⟨(hsize p hp).1, by have := (hsize p hp).2; omega⟩
  obtain ⟨rest, hrest, hline⟩ := encodeRun_spec hsend n hidle
  generalize encodeRun n Encoder.zero ⟨answers, 0⟩ = r at hidle hline ⊢
  -- the last idle flag is the one that may be cut short
  obtain ⟨k, hk⟩ := Nat.exists_eq_succ_of_ne_zero hidle
  have hsplit : bytesBits r.2.2
      = line (answers ++ List.replicate k none) ++ flag.take (8 - rest.length) := by
    rw [hk, List.replicate_succ', ← List.append_assoc, line_append_singleton, piece] at hline
    have hflag : flag = flag.take (8 - rest.length) ++ flag.drop (8 - rest.length) :=
      (List.take_append_drop _ _).symm
    rw [hflag, ← List.append_assoc] at hline
    refine (List.append_inj' hline ?_).1
    rw [List.length_drop, flag]
    simp only [List.length_cons, List.length_nil]
    omega
  have hcap : ∀ p, some p ∈ answers ++ List.replicate k none → (checked p).length ≤ m + 2 := by
    intro p hp
    rw [List.mem_append, List.mem_replicate] at hp
    rcases hp with hp | ⟨-, hp⟩
    · rw [checked, List.length_append, length_fcsBytes]
      have := (hsize p hp).2
      omega
    · cases hp
  obtain ⟨hbits, hoks⟩ := bits_line hcap
  have hokflag : Rx.Oks (m + 2) ⟨0, true, []⟩ (flag.take (8 - rest.length)) := by
    have hall : Rx.Oks (m + 2) ⟨0, true, []⟩ flag :=
      Rx.oks_flag (by decide) (Nat.zero_le _) rfl
    rw [← List.take_append_drop (8 - rest.length) flag, Rx.oks_append] at hall
    exact hall.1
  obtain ⟨j, hj⟩ := bits_flag_take (8 - rest.length)
  have hok : Rx.Oks (m + 2) ⟨0, false, []⟩ (bytesBits r.2.2) := by
    rw [hsplit, Rx.oks_append, hbits]
    exact ⟨hoks, hokflag⟩
  obtain ⟨fss, -, hframes, hevents⟩ := (tracks_zero m).run hm hm' (wf_zero _) r.2.2 hok
  rw [hsplit, Rx.bits_append, hbits] at hframes
  simp only [hj] at hframes
  rw [← List.map_append] at hframes
  have hfss : fss = [] :: (answers ++ List.replicate k none).map received ++ List.replicate j [] :=
    (List.map_injective_iff.mpr (fun _ _ h => bytesBits_injective h) hframes).symm
  have hidles : ((List.replicate k none).filterMap id : List Frame) = [] := by
    rw [List.filterMap_eq_nil_iff]
    intro a ha
    exact List.eq_of_mem_replicate ha
  rw [hevents, hfss, List.flatMap_append, flatMap_delivered_replicate, List.append_nil,
    List.flatMap_cons, flatMap_delivered_received, List.filterMap_append, hidles, List.append_nil]
  rfl

/-- **The round trip on a B-channel.**  Frames of 1 to 2048 bytes, with any number of idle calls
before and between them, go through the encoder and, into receive buffers of 2050 bytes, through
the decoder: exactly they are reported, each with a check of zero.  One idle call after the last
frame is enough, and the encoder does get to any number of them. -/
theorem hdlc_round_trip (answers : List (Option Frame))
    (hsize : ∀ p, some p ∈ answers → 1 ≤ p.length ∧ p.length ≤ 2048) :
    (∀ k, ∃ n, (encodeRun n Encoder.zero ⟨answers, 0⟩).2.1.idle = k) ∧
      ∀ n, 1 ≤ (encodeRun n Encoder.zero ⟨answers, 0⟩).2.1.idle →
        (decodeRun (2048 + 2) Decoder.zero (encodeRun n Encoder.zero ⟨answers, 0⟩).2.2).2
          = (answers.filterMap id).map (fun p => Event.cfr p 0) := by
  refine ⟨fun k => exists_idle (fun p hp => ?_) k, fun n hidle => ?_⟩
  · have := hsize p hp
    omega
  · refine decode_encode (by decide) (by decide) (fun p hp => ?_) n (by omega)
    have := hsize p hp
    omega

theorem hdlc_round_trip_instance :
    (∀ k, ∃ n, (encodeRun n Encoder.zero ⟨[some [0x1f, 0xff], none, some [0x7e]], 0⟩).2.1.idle = k) ∧
      (decodeRun (2048 + 2) Decoder.zero
        (encodeRun 16 Encoder.zero ⟨[some [0x1f, 0xff], none, some [0x7e]], 0⟩).2.2).2
          = [.cfr [0x1f, 0xff] 0, .cfr [0x7e] 0] := by
  have h := hdlc_round_trip [some [0x1f, 0xff], none, some [0x7e]] (by simp)
  exact ⟨h.1, h.2 16 (by decide)⟩

end Hdlc
end Isdn4bsd
