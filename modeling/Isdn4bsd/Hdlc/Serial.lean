import Isdn4bsd.Hdlc.Dchannel

/-!
# The HDLC encoder is the bit-serial one

What `HDLC_ENCODE` writes, least significant bit first, is the bit-serial line: the fill and the
flags of the variant, and for each frame its payload and its check sequence with the inserted zeros.
Both variants are followed from the zero state for any number of executions, so the byte that is
being written when the run ends may be in the middle of anything; the theorem says which bits of
the reference it holds.

* `refLine` and `dline` : the reference lines of a B-channel and of a D-channel.
* `hdlc_encode_serial` : `n` executions write the first `8 * n` bits of them.

`encodeRun_spec` of `Isdn4bsd.Hdlc.Encode` has what was produced as a front part of the line, with bits in the register
that were not written yet.  Each execution writes one byte, so `n` of them have written `8 * n` bits, and a front
part of the line with that many bits is determined.  The line itself depends on the answers, of which a run of `n`
executions uses no more than some: each execution asks in vain at most once (`encodeRun_count`), so the answers that
were not given do not matter.
-/

set_option autoImplicit false

namespace Isdn4bsd
namespace Hdlc

open Bits BitStuff

/-- What one answer of `gfr` adds to the reference line of a B-channel: an idle flag, or a frame and
its closing flag, which is the opening flag of the next. -/
def refPiece : Option Frame → List Bool
  | none => BitStuff.flag
  | some p => refFrame p ++ BitStuff.flag

/-- The reference line of a B-channel: two flags, and then the answers of `gfr`. -/
def refLine (done : List (Option Frame)) : List Bool :=
  BitStuff.flag ++ BitStuff.flag ++ done.flatMap refPiece

theorem line_eq_refLine (done : List (Option Frame)) : line done = refLine done := by
  have hpiece : piece = refPiece := by
    funext a
    cases a with
    | none => rfl
    | some p => rw [piece, refPiece, refFrame_eq]
  rw [line, refLine, hpiece]

theorem line_isPrefix (xs ys : List (Option Frame)) : line xs <+: line (xs ++ ys) := by
  rw [line, line, List.flatMap_append, ← List.append_assoc]
  exact List.prefix_append _ _

/-- What has been produced is on the line. -/
theorem Encoder.Phase.gen_prefix {s : Encoder} {done : List (Option Frame)} {gen : List Bool}
    (h : s.Phase done gen) : gen <+: line done := by
  have hframe : ∀ (done : List (Option Frame)) (p q : Frame), q <+: checked p →
      line done ++ stuff 0 (bytesBits q) <+: line (done ++ [some p]) := by
    intro done p q hq
    rw [line_append_singleton, piece]
    refine (List.prefix_append_right_inj _).mpr ?_
    exact (stuff_bytes_isPrefix hq).trans (List.prefix_append _ _)
  cases h with
  | start hflag hlen hib => exact List.nil_prefix
  | closing done gen hflag hlen hgen => exact ⟨_, hgen⟩
  | idle done hflag hlen hib => exact List.prefix_refl _
  | body done sent hflag hlen hcrc hones =>
    refine hframe done _ _ ?_
    rw [checked, List.append_assoc]
    exact List.prefix_append _ _
  | check done p hflag hlen hcrc hones =>
    refine hframe done _ _ ?_
    rw [checked, fcsBytes]
    exact ⟨[UInt8.ofNat ((fcsFold p ^^^ 0xffff) >>> 8)], by simp⟩

/-! ## Counting executions -/

theorem Feed.gfr_idle_le (e : Feed) : e.gfr.2.idle ≤ e.idle + 1 := by
  rw [gfr]
  split
  · exact Nat.le_refl _
  · exact Nat.le_succ _

theorem Encoder.switch_idle_le (s : Encoder) (e : Feed) :
    (s.switch Feed.gfr Feed.nmb e).2.idle ≤ e.idle + 1 := by
  have hgfr := e.gfr_idle_le
  rw [switch]
  split
  · exact Nat.le_succ _
  · exact Nat.le_succ _
  · simp only
    split
    · exact hgfr
    · exact hgfr
  · simp only
    split
    · exact Nat.le_succ _
    · exact Nat.le_succ _
  · exact Nat.le_succ _
  · exact Nat.le_succ _

theorem Encoder.switchDchan_idle_le (s : Encoder) (e : Feed) :
    (s.switchDchan Feed.gfr Feed.nmb e).2.idle ≤ e.idle + 1 := by
  have hgfr := e.gfr_idle_le
  rw [switchDchan]
  split
  · simp only
    split
    · exact hgfr
    · exact hgfr
  · simp only
    split
    · exact Nat.le_succ _
    · exact Nat.le_succ _
  · exact Nat.le_succ _
  · exact Nat.le_succ _
  · exact Nat.le_succ _

/-- Each execution writes one byte, and asks `gfr` in vain at most once. -/
theorem encodeRun_count (n : Nat) (s : Encoder) (e : Feed) :
    (encodeRun n s e).2.2.length = n ∧ (encodeRun n s e).2.1.idle ≤ e.idle + n := by
  induction n generalizing s e with
  | zero => exact ⟨rfl, Nat.le_refl _⟩
  | succ n ih =>
    have hstep : (encodeStep s e).2.1.idle ≤ e.idle + 1 := by
      rcases encodeStep_cases s e with ⟨-, t, -, heq⟩ | ⟨-, -, t, ht, heq⟩ | ⟨-, -, t, -, heq⟩
      · rw [heq]
        exact Nat.le_succ _
      · rw [heq, ht]
        exact s.switch_idle_le e
      · rw [heq]
        exact Nat.le_succ _
    obtain ⟨hlen, hidle⟩ := ih (encodeStep s e).1 (encodeStep s e).2.1
    rw [encodeRun]
    simp only [List.length_cons]
    omega

theorem encodeRunDchan_count (n : Nat) (s : Encoder) (e : Feed) :
    (encodeRunDchan n s e).2.2.length = n ∧ (encodeRunDchan n s e).2.1.idle ≤ e.idle + n := by
  induction n generalizing s e with
  | zero => exact ⟨rfl, Nat.le_refl _⟩
  | succ n ih =>
    have hstep : (encodeStepDchan s e).2.1.idle ≤ e.idle + 1 := by
      rcases encodeStepDchan_cases s e with ⟨-, t, -, heq⟩ | ⟨-, -, t, ht, heq⟩ | ⟨-, -, t, -, heq⟩
      · rw [heq]
        exact Nat.le_succ _
      · rw [heq, ht]
        exact s.switchDchan_idle_le e
      · rw [heq]
        exact Nat.le_succ _
    obtain ⟨hlen, hidle⟩ := ih (encodeStepDchan s e).1 (encodeStepDchan s e).2.1
    rw [encodeRunDchan]
    simp only [List.length_cons]
    omega

/-! ## The encoder writes the line -/

/-- The answers used so far, with those in vain, are the first of all answers. -/
theorem used_prefix {answers used : List (Option Frame)} {e : Feed} {k : Nat}
    (hsplit : used ++ e.answers = answers) (hidle : e.idle ≠ 0 → e.answers = [])
    (hk : e.idle ≤ k) :
    ∃ rest, used ++ List.replicate e.idle none ++ rest = answers ++ List.replicate k none := by
  by_cases hzero : e.idle = 0
  · refine ⟨e.answers ++ List.replicate k none, ?_⟩
    rw [hzero, List.replicate_zero, List.append_nil, ← List.append_assoc, hsplit]
  · obtain ⟨j, rfl⟩ := Nat.exists_eq_add_of_le hk
    have hused : used = answers := by rwa [hidle hzero, List.append_nil] at hsplit
    refine ⟨List.replicate j none, ?_⟩
    rw [hused, List.append_assoc, List.replicate_append_replicate]

/-- Bytes that are on a line are its first ones. -/
theorem eq_take_of_produced {s : Encoder} {out : List UInt8} {gen l : List Bool} {n : Nat}
    (h : s.Produced out gen) (hgen : gen <+: l) (hlen : out.length = n) :
    bytesBits out = l.take (8 * n) := by
  obtain ⟨-, pend, -, hbits⟩ := h
  have hpre : bytesBits out <+: l := by
    refine List.IsPrefix.trans ?_ hgen
    rw [← hbits, List.append_assoc]
    exact List.prefix_append _ _
  rw [← hlen, ← length_bytesBits]
  exact List.prefix_iff_eq_take.mp hpre

theorem encodeRun_eq_take {answers : List (Option Frame)} (hsend : Sendable answers) {n k : Nat}
    (hk : n ≤ k) :
    bytesBits (encodeRun n Encoder.zero ⟨answers, 0⟩).2.2
      = (line (answers ++ List.replicate k none)).take (8 * n) := by
  obtain ⟨used, gen, h⟩ := (sending_zero answers).run hsend n
  obtain ⟨hlen, hidle⟩ := encodeRun_count n Encoder.zero ⟨answers, 0⟩
  simp only at hidle
  obtain ⟨rest, hrest⟩ := used_prefix h.split (fun hne => (h.idle hne).1)
    (show _ ≤ k by omega)
  refine eq_take_of_produced h.produced ?_ hlen
  rw [← hrest]
  exact h.phase.gen_prefix.trans (line_isPrefix _ _)

theorem encodeRunDchan_eq_take {answers : List (Option Frame)} (hsend : Sendable answers)
    {n k : Nat} (hk : n ≤ k) :
    bytesBits (encodeRunDchan n Encoder.zero ⟨answers, 0⟩).2.2
      = (dline (answers ++ List.replicate k none)).take (8 * n) := by
  obtain ⟨used, gen, h⟩ := (dsending_zero answers).run hsend n
  obtain ⟨hlen, hidle⟩ := encodeRunDchan_count n Encoder.zero ⟨answers, 0⟩
  simp only at hidle
  obtain ⟨rest, hrest⟩ := used_prefix h.split (fun hne => (h.idle hne).1)
    (show _ ≤ k by omega)
  refine eq_take_of_produced h.produced ?_ hlen
  rw [← hrest]
  exact h.phase.gen_prefix.trans (dline_isPrefix _ _)

/-- **The encoder refines bit-serial HDLC.**  For any frames that are not empty and that the counter
`len` can hold, with any idle calls before, between and after them, `n` executions of either variant
write the first `8 * n` bits of its reference line.  Between the flags of that line there are no six
ones in a row. -/
theorem hdlc_encode_serial (answers : List (Option Frame))
    (hsend : ∀ p, some p ∈ answers → 1 ≤ p.length ∧ p.length < 2 ^ 16) :
    (∀ n k, n ≤ k → bytesBits (encodeRun n Encoder.zero ⟨answers, 0⟩).2.2
        = (refLine (answers ++ List.replicate k none)).take (8 * n)) ∧
      (∀ n k, n ≤ k → bytesBits (encodeRunDchan n Encoder.zero ⟨answers, 0⟩).2.2
        = (dline (answers ++ List.replicate k none)).take (8 * n)) ∧
      ∀ p, some p ∈ answers → ¬ List.replicate 6 true <:+: refFrame p := by
  refine ⟨fun n k hk => ?_, fun n k hk => encodeRunDchan_eq_take hsend hk,
    fun p _ => no_six_ones p⟩
  rw [← line_eq_refLine]
  exact encodeRun_eq_take hsend hk

theorem hdlc_encode_serial_instance :
    bytesBits (encodeRun 7 Encoder.zero ⟨[some [0x1f, 0xff], none], 0⟩).2.2
        = (refLine ([some [0x1f, 0xff], none] ++ List.replicate 7 none)).take 56 ∧
      bytesBits (encodeRunDchan 9 Encoder.zero ⟨[some [0x1f, 0xff], none], 0⟩).2.2
        = (dline ([some [0x1f, 0xff], none] ++ List.replicate 9 none)).take 72 := by
  have h := hdlc_encode_serial [some [0x1f, 0xff], none] (by simp)
  exact ⟨h.1 7 7 (by decide), h.2.1 9 9 (by decide)⟩

end Hdlc
end Isdn4bsd
