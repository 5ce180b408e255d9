import Isdn4bsd.Lite.Receive

/-!
# Polls

An S-frame that is a command with the P bit set asks for a response with the F bit set.  When
`dss1_lite_decode_mbuf` looks at that bit, the variable holds the number of frames that were
acknowledged, or what the loop has left of it.

* `Polls`: the frame asks for a response.
* `Responds`: a response is queued.
* `answers_iff_polls`: **exactly the polls are answered, if and only if the number of new
acknowledgements has the parity that the P bit should have, for a command.**
* `poll_ignored`: a poll with nothing new to acknowledge is never answered.

## One variable, two uses

`tx_nr` is the second byte of the control field, with the number in its upper seven bits and the P bit in the
lowest one.  It is shifted and compared with the window, so that it becomes the number of frames that are
acknowledged, and the loop that frees them counts it down.  The test of the P bit comes after that.

* If the number is not within the window, nothing is freed, and it keeps its value: the test looks at its
lowest bit.
* If it is within the window, the loop ends when the counter goes below zero, and then it is `0xFF`: the test finds
a bit that is set, unless there was nothing to free and no loop at all.

`SeemsPolling` is this, said of the link and the frame; it does not depend on anything that is computed
later.

## Responses

Whether there is an answer depends on two more things, which are not at fault: that there is memory for
it, and room in the queue of what waits for the device.  `Responds` looks for a response in that queue
that was not there before; only S-frames wait there, as I-frames have a queue of their own.
-/

set_option autoImplicit false

namespace Isdn4bsd
namespace Dss1Lite

/-! ## Frames -/

/-- An S-frame for the stack, whatever its SAPI. -/
structure SFrame (m : Mbuf) : Prop where
  tei : peekMbuf m 1 = dlTei
  cntl : peekMbuf m 2 % 4 = 1

/-- The C/R bit of a frame says that it is a command: those of the network have it set, and those of
the user do not. -/
def IsCommand (fromNetwork : Bool) (m : Mbuf) : Prop :=
  (peekMbuf m 0 / 2 % 2 = 1) = (fromNetwork = true)

instance (fromNetwork : Bool) (m : Mbuf) : Decidable (IsCommand fromNetwork m) :=
  inferInstanceAs (Decidable ((_ : Prop) = _))

/-- The P bit, or the F bit. -/
def PBit (m : Mbuf) : Prop := peekMbuf m 3 % 2 = 1

instance (m : Mbuf) : Decidable (PBit m) := inferInstanceAs (Decidable (_ = _))

/-- The frame asks for a response. -/
def Polls (s : Lite) (m : Mbuf) : Prop := IsCommand (!s.isNtMode) m ∧ PBit m

instance (s : Lite) (m : Mbuf) : Decidable (Polls s m) := inferInstanceAs (Decidable (_ ∧ _))

/-- A supervisory frame that is a response with the F bit set, as it is queued. -/
structure IsFinal (s : Lite) (f : Mbuf) : Prop extends SFrame f where
  response : ¬ IsCommand s.isNtMode f
  final : PBit f

/-- A supervisory response with the F bit set is queued. -/
def Responds (s t : Lite) : Prop := ∃ f, IsFinal s f ∧ t.link.outq = s.link.outq ++ [f]

/-! ## What the test reads -/

/-- How many frames are acknowledged that were not before. -/
def newAcks (l : Link) (m : Mbuf) : Nat :=
  (peekMbuf m 3 - peekMbuf m 3 % 2 + 256 - l.txNum) % 256 / 2

/-- A response would be queued: there is memory for it, and room. -/
def HasRoom (s : Lite) : Prop := s.mem 0 = true ∧ s.link.outq.length < outqMaxlen

instance (s : Lite) : Decidable (HasRoom s) := inferInstanceAs (Decidable (_ ∧ _))

/-- The frame looks as if its P bit was set: there are new acknowledgements, and they are within the
window, or an odd number of them. -/
def SeemsPolling (l : Link) (m : Mbuf) : Prop :=
  newAcks l m ≠ 0 ∧ (newAcks l m ≤ l.txWindow ∨ newAcks l m % 2 = 1)

instance (l : Link) (m : Mbuf) : Decidable (SeemsPolling l m) := inferInstanceAs (Decidable (_ ∧ _))

theorem freeOne_iterate_outq (l : Link) (n : Nat) : (Link.freeOne^[n] l).outq = l.outq := by
  induction n with
  | zero => rfl
  | succ n ih =>
    rw [Function.iterate_succ_apply']
    exact ih

theorem acknowledge_outq (l : Link) (txNr : Nat) : (l.acknowledge txNr).outq = l.outq := by
  rw [Link.acknowledge]
  dsimp only
  split_ifs
  · rfl
  · rfl
  · exact freeOne_iterate_outq _ _

theorem isFinal_response (s : Lite) (x : Nat) (hx : x % 2 = 1) :
    IsFinal s (if s.isNtMode then
      pokeMbuf [UInt8.ofNat 0x02, UInt8.ofNat dlTei, UInt8.ofNat 0x01, UInt8.ofNat x] 0
        (peekMbuf [UInt8.ofNat 0x02, UInt8.ofNat dlTei, UInt8.ofNat 0x01, UInt8.ofNat x] 0 ^^^ 0x02)
      else [UInt8.ofNat 0x02, UInt8.ofNat dlTei, UInt8.ofNat 0x01, UInt8.ofNat x]) := by
  have hp : (UInt8.ofNat x).toNat % 2 = 1 := by
    rw [UInt8.toNat_ofNat']
    omega
  cases hnt : s.isNtMode
  · refine ⟨⟨rfl, rfl⟩, ?_, hp⟩
    simp [IsCommand, peekMbuf, hnt]
  · refine ⟨⟨rfl, rfl⟩, ?_, hp⟩
    simp [IsCommand, peekMbuf, pokeMbuf, hnt]

theorem sendMbuf_supervisory (l : Link) (nt : Bool) (a b x : UInt8) :
    l.sendMbuf nt [a, b, UInt8.ofNat 0x01, x] = l.queueMbuf nt [a, b, UInt8.ofNat 0x01, x] :=
  if_neg (show ¬ peekMbuf [a, b, UInt8.ofNat 0x01, x] 2 % 2 = 0 from Nat.one_ne_zero)

/-- The response that is sent. -/
theorem sendCtrl_response (s : Lite) :
    (HasRoom s ∧ ∃ f, IsFinal s f ∧ (s.sendCtrl 0x02 0x01).1.link.outq = s.link.outq ++ [f]) ∨
      (¬ HasRoom s ∧ (s.sendCtrl 0x02 0x01).1.link.outq = s.link.outq) := by
  have hodd : (s.link.rxNum ||| 1) % 2 = 1 := by simp
  rw [Lite.sendCtrl]
  dsimp only
  by_cases hmem : s.getmbuf.1 = true
  · rw [if_pos hmem, if_pos (by decide), Lite.sendMbuf, sendMbuf_supervisory, Link.queueMbuf]
    dsimp only
    split
    · rename_i hfull
      have hf : outqMaxlen ≤ s.link.outq.length := hfull
      exact .inr ⟨fun h => absurd h.2 (by omega), rfl⟩
    · rename_i hroom
      have hr : ¬ outqMaxlen ≤ s.link.outq.length := hroom
      exact .inl ⟨⟨hmem, by omega⟩, _, isFinal_response s _ hodd, rfl⟩
  · rw [if_neg hmem]
    exact .inr ⟨fun h => hmem h.1, rfl⟩

/-! ## Responses -/

/-- A response is queued, if the test says so and there is room. -/
theorem checkNr_answers (s : Lite) (sapi cntl : Nat) (m : Mbuf) (hc : cntl % 2 = 1) :
    Responds s (s.checkNr sapi cntl (peekMbuf m 3)) ↔
      sapi / 2 % 2 = 0 ∧ SeemsPolling s.link m ∧ HasRoom s := by
  have houtq := acknowledge_outq s.link (peekMbuf m 3)
  have hlast : (if newAcks s.link m = 0 then 0
      else if s.link.txWindow < newAcks s.link m then newAcks s.link m else 0xFF) % 2 = 1 ↔
      SeemsPolling s.link m := by
    rw [SeemsPolling]
    split_ifs with hzero hover
    · simp [hzero]
    · simp only [ne_eq, hzero, not_false_eq_true, true_and]
      omega
    · exact iff_of_true rfl ⟨hzero, .inl (by omega)⟩
  have hsame : ∀ {t : Lite}, t.link.outq = s.link.outq → ¬ Responds s t := by
    rintro t ht ⟨f, -, hf⟩
    rw [ht] at hf
    exact absurd (congrArg List.length hf) (by simp)
  have hsent := sendCtrl_response (s.setLink (s.link.acknowledge (peekMbuf m 3)))
  have hroom : HasRoom (s.setLink (s.link.acknowledge (peekMbuf m 3))) ↔ HasRoom s := by
    rw [HasRoom, HasRoom, ← houtq]
    rfl
  rw [hroom] at hsent
  rw [Lite.checkNr]
  by_cases ht : sapi / 2 % 2 = 0 ∧ SeemsPolling s.link m
  · rw [if_pos ⟨ht.1, hc, hlast.mpr ht.2⟩]
    rcases hsent with ⟨hr, f, hf, heq⟩ | ⟨hr, heq⟩
    · refine ⟨fun _ => ⟨ht.1, ht.2, hr⟩, fun _ => ⟨f, ⟨hf.toSFrame, hf.response, hf.final⟩, ?_⟩⟩
      rw [heq, ← houtq]
      rfl
    · exact ⟨fun h => absurd h (hsame (heq.trans houtq)), fun h => absurd h.2.2 hr⟩
  · rw [if_neg fun h => ht ⟨h.1, hlast.mp h.2.2⟩]
    exact ⟨fun h => absurd h (hsame houtq), fun h => absurd ⟨h.1, h.2.1⟩ ht⟩

/-- The C/R bit, after it was inverted. -/
theorem isCommand_iff (s : Lite) (m : Mbuf) :
    (if s.isNtMode then peekMbuf m 0 else peekMbuf m 0 ^^^ 0x02) / 2 % 2 = 0 ↔
      IsCommand (!s.isNtMode) m := by
  have hx : ∀ x < 256, (x ^^^ 0x02) / 2 % 2 = 0 ↔ x / 2 % 2 = 1 := by decide +kernel
  rw [IsCommand]
  cases s.isNtMode
  · simp only [Bool.false_eq_true, if_false, Bool.not_false, eq_iff_iff, iff_true]
    exact hx (peekMbuf m 0) (UInt8.toNat_lt _)
  · simp only [if_true, Bool.not_true, Bool.false_eq_true, eq_iff_iff, iff_false]
    omega

/-- **When a response is queued.** -/
theorem decodeMbuf_answers (s : Lite) {m : Mbuf} (hm : SFrame m) :
    Responds s (s.decodeMbuf m) ↔
      peekMbuf m 0 &&& 0xFC = 0 ∧ IsCommand (!s.isNtMode) m ∧ SeemsPolling s.link m ∧ HasRoom s := by
  have hc := hm.cntl
  rw [Lite.decodeMbuf]
  dsimp only
  by_cases hsapi : peekMbuf m 0 &&& 0xFC = 0
  · rw [if_neg (not_not_intro hsapi), if_neg (not_not_intro hm.tei), if_pos (by omega),
      if_pos (by omega), checkNr_answers s _ _ m (by omega), isCommand_iff]
    exact ⟨fun h => ⟨hsapi, h⟩, And.right⟩
  · rw [if_pos hsapi]
    refine ⟨?_, fun h => absurd h.1 hsapi⟩
    rintro ⟨f, -, hf⟩
    exact absurd (congrArg List.length hf) (by simp)

/-- **Exactly the polls are answered, if and only if a command has the P bit set exactly when its
number of new acknowledgements makes it seem so**, and there is room for the response. -/
theorem answers_iff_polls (s : Lite) {m : Mbuf} (hm : SFrame m) :
    (Responds s (s.decodeMbuf m) ↔ Polls s m) ↔
      (IsCommand (!s.isNtMode) m →
        (PBit m ↔ peekMbuf m 0 &&& 0xFC = 0 ∧ SeemsPolling s.link m ∧ HasRoom s)) := by
  rw [decodeMbuf_answers s hm, Polls]
  tauto

/-- RR, a command of the network: with one new acknowledgement, or with none; the P bit is set. -/
def rr (nr : UInt8) : Mbuf := [0x02, 0x01, 0x01, 2 * nr + 1]

/-- A poll that acknowledges the only frame in the window is answered. -/
theorem answers_iff_polls_acknowledging :
    Responds (telephone.setLink { telephone.link with txWindow := 1 })
      ((telephone.setLink { telephone.link with txWindow := 1 }).decodeMbuf (rr 1)) := by
  have hm : SFrame (rr 1) := ⟨rfl, rfl⟩
  exact ((answers_iff_polls _ hm).mpr fun _ => by decide).mpr (by decide)

/-- **A poll with nothing new to acknowledge is not answered.** -/
theorem poll_ignored :
    Reach telephone ∧ SFrame (rr 0) ∧ Polls telephone (rr 0) ∧
      ¬ Responds telephone (telephone.decodeMbuf (rr 0)) := by
  have hm : SFrame (rr 0) := ⟨rfl, rfl⟩
  refine ⟨telephone_reach, hm, by decide, fun h => ?_⟩
  exact absurd ((decodeMbuf_answers _ hm).mp h).2.2.1 (by decide)

end Dss1Lite
end Isdn4bsd
