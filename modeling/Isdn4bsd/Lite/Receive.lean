import Isdn4bsd.Lite.Runs

/-!
# Which I-frames are received

`dss1_lite_decode_mbuf` looks at the header of layer 3 before it looks at the sequence numbers, and
leaves an I-frame alone that has none.

* `Received` : `V(R)` moves on, and `N(R)` is processed.
* `received_iff` : **exactly the I-frames with a call reference of one byte are received**.
* `not_received` : an empty I-frame never is, and may be repeated forever.

## Layers that are not apart

An I-frame with the number that is expected has to be received, whatever it carries.  Here the function first asks
if it is a message of the call control with a call reference of one byte (`Q931`), and goes on to the sequence
numbers only then.  So a frame that is not, like one with nothing in it at all, is neither received nor
answered, and the peer will transmit it again until it gives up the link.

`Received` says what should have happened, with the numbers as they were before: `V(R)` is the next one, and
the transmit side is what its `N(R)` makes of it.  The message that comes with the frame may send others, so
that the queue is longer afterwards.  `SameNumbers` and `SameTx` say that this does not touch the numbers, and
that what an acknowledgement does to them depends on nothing else; so it does not matter in which order the
two are done.

The condition is about the bytes of the frame, in every state that can be reached.
-/

set_option autoImplicit false

namespace Isdn4bsd
namespace Dss1Lite

/-! ## What sending and acknowledging leave alone -/

/-- Two links with the same numbers on the transmit side. -/
structure SameTx (l l' : Link) : Prop where
  txNum : l'.txNum = l.txNum
  txWindow : l'.txWindow = l.txWindow
  txIn : l'.txIn = l.txIn
  freed : l'.freed = l.freed

theorem SameTx.trans {l l' l'' : Link} (h : SameTx l l') (h' : SameTx l' l'') : SameTx l l'' where
  txNum := h'.txNum.trans h.txNum
  txWindow := h'.txWindow.trans h.txWindow
  txIn := h'.txIn.trans h.txIn
  freed := h'.freed.trans h.freed

/-- Two links with the same numbers. -/
structure SameNumbers (l l' : Link) : Prop extends SameTx l l' where
  rxNum : l'.rxNum = l.rxNum

theorem SameNumbers.refl (l : Link) : SameNumbers l l := ⟨⟨rfl, rfl, rfl, rfl⟩, rfl⟩

theorem SameNumbers.trans {l l' l'' : Link} (h : SameNumbers l l') (h' : SameNumbers l' l'') :
    SameNumbers l l'' where
  toSameTx := h.toSameTx.trans h'.toSameTx
  rxNum := h'.rxNum.trans h.rxNum

theorem queueMbuf_numbers (l : Link) (nt : Bool) (m : Mbuf) :
    SameNumbers l (l.queueMbuf nt m).1 := by
  rw [Link.queueMbuf]
  split
  · exact SameNumbers.refl l
  · exact ⟨⟨rfl, rfl, rfl, rfl⟩, rfl⟩

theorem sendMbuf_numbers (l : Link) (nt : Bool) (m : Mbuf) :
    SameNumbers l (l.sendMbuf nt m).1 := by
  rw [Link.sendMbuf]
  split_ifs
  · exact ⟨⟨rfl, rfl, rfl, rfl⟩, rfl⟩
  · exact SameNumbers.refl l
  · exact queueMbuf_numbers l nt m

theorem Sends.numbers {nt : Bool} {l l' : Link} (h : Sends nt l l') : SameNumbers l l' := by
  induction h with
  | refl => exact SameNumbers.refl l
  | send m _ _ ih => exact ih.trans (sendMbuf_numbers _ nt m)

theorem SameTx.freeOne_iterate {l l' : Link} (h : SameTx l l') (n : Nat) :
    SameTx (Link.freeOne^[n] l) (Link.freeOne^[n] l') := by
  induction n with
  | zero => exact h
  | succ n ih =>
    rw [Function.iterate_succ_apply', Function.iterate_succ_apply']
    refine ⟨ih.txNum, ih.txWindow, ?_, ?_⟩
    · simp only [Link.freeOne, ih.txIn]
    · simp only [Link.freeOne, ih.freed]

/-- The numbers after an acknowledgement depend on nothing but the numbers before it. -/
theorem SameTx.acknowledge {l l' : Link} (h : SameTx l l') (txNr : Nat) :
    SameTx (l.acknowledge txNr) (l'.acknowledge txNr) := by
  rw [Link.acknowledge, Link.acknowledge]
  dsimp only
  rw [h.txNum, h.txWindow]
  split_ifs
  · exact ⟨rfl, rfl, h.txIn, h.freed⟩
  · exact ⟨rfl, rfl, h.txIn, h.freed⟩
  · refine SameTx.freeOne_iterate ?_ _
    exact ⟨rfl, rfl, h.txIn, h.freed⟩

theorem freeOne_iterate_rxNum (l : Link) (n : Nat) : (Link.freeOne^[n] l).rxNum = l.rxNum := by
  induction n with
  | zero => rfl
  | succ n ih =>
    rw [Function.iterate_succ_apply']
    exact ih

theorem acknowledge_rxNum (l : Link) (txNr : Nat) : (l.acknowledge txNr).rxNum = l.rxNum := by
  rw [Link.acknowledge]
  dsimp only
  split_ifs
  · rfl
  · rfl
  · exact freeOne_iterate_rxNum _ _

/-! ## Received I-frames -/

/-- An I-frame was received: `V(R)` is the next number modulo 128, and the transmit side is what its
`N(R)` makes of it. The numbers are kept in the upper seven bits. -/
structure Received (l l' : Link) (txNr : Nat) : Prop where
  rxNum : l'.rxNum = (l.rxNum + 2) % 256
  ack : SameTx (l.acknowledge txNr) l'

/-- An I-frame with the TEI of the stack whose `N(S)` is the one it waits for. -/
structure Expected (s : Lite) (m : Mbuf) : Prop where
  tei : peekMbuf m 1 = dlTei
  iFrame : peekMbuf m 2 % 2 = 0
  number : peekMbuf m 2 = s.link.rxNum

/-- The frame is one for layer 3: it has the SAPI 0, the protocol Q.931 and a call reference of one
byte. -/
def Q931 (m : Mbuf) : Prop :=
  peekMbuf m 0 &&& 0xFC = 0 ∧ peekMbuf m 4 = 0x08 ∧ peekMbuf m 5 = 1

theorem sequence_sends (s : Lite) (txNr : Nat) :
    Sends s.isNtMode s.link.advance (s.sequence txNr).link := by
  rw [Lite.sequence]
  split_ifs
  · exact (sendCtrl_quiet (s.setLink s.link.advance) _ _).sends
  · exact (sendCtrl_quiet (s.setLink s.link.advance) _ _).sends
  · exact .refl _

theorem checkNr_sends (s : Lite) (sapi cntl txNr : Nat) :
    Sends s.isNtMode (s.link.acknowledge txNr) (s.checkNr sapi cntl txNr).link :=
  (sendCtrl_if_quiet (s.setLink (s.link.acknowledge txNr)) _ _ _).sends

/-- An expected frame for layer 3 goes through all of `dss1_lite_decode_mbuf`. -/
theorem decodeMbuf_of_q931 {s : Lite} {m : Mbuf} (he : Expected s m) (hq : Q931 m) :
    ∃ sapi, s.decodeMbuf m =
      ((s.sequence (peekMbuf m 3)).iFrame m).checkNr sapi (peekMbuf m 2) (peekMbuf m 3) := by
  obtain ⟨hsapi, hproto, hreflen⟩ := hq
  refine ⟨if s.isNtMode then peekMbuf m 0 else peekMbuf m 0 ^^^ 0x02, ?_⟩
  rw [Lite.decodeMbuf]
  dsimp only
  rw [if_neg (not_not.2 hsapi), if_neg (not_not.2 he.tei), if_neg (by rw [he.iFrame]; decide),
    if_neg (not_not.2 hproto), if_neg (not_not.2 hreflen), if_pos he.number.symm]

/-- Any other I-frame is left alone. -/
theorem decodeMbuf_of_not_q931 {s : Lite} {m : Mbuf} (he : Expected s m) (hq : ¬Q931 m) :
    s.decodeMbuf m = s := by
  rw [Lite.decodeMbuf]
  dsimp only
  split_ifs with h1 h2 h3 h4 h5 h6 h7
  all_goals first
    | rfl
    | exact absurd he.iFrame (by omega)
    | exact absurd ⟨not_not.1 h1, not_not.1 ‹¬peekMbuf m 4 ≠ 8›, not_not.1 ‹¬peekMbuf m 5 ≠ 1›⟩ hq

theorem received_of_q931 {s : Lite} {m : Mbuf} (hi : Inv s) (he : Expected s m) (hq : Q931 m) :
    Received s.link (s.decodeMbuf m).link (peekMbuf m 3) := by
  obtain ⟨sapi, heq⟩ := decodeMbuf_of_q931 he hq
  rw [heq]
  have hinv := (sequence_moves s (peekMbuf m 3)).inv hi
  have hnum : SameNumbers s.link.advance ((s.sequence (peekMbuf m 3)).iFrame m).link :=
    (sequence_sends s _).numbers.trans ((iFrame_goes _ m).sends hinv).numbers
  have hlast := (checkNr_sends ((s.sequence (peekMbuf m 3)).iFrame m) sapi (peekMbuf m 2)
    (peekMbuf m 3)).numbers
  have hadvance : SameTx s.link s.link.advance := ⟨rfl, rfl, rfl, rfl⟩
  constructor
  · rw [hlast.rxNum, acknowledge_rxNum, hnum.rxNum]
    rfl
  · exact ((hadvance.trans hnum.toSameTx).acknowledge _).trans hlast.toSameTx

/-- **Exactly the I-frames for layer 3 are received**, among those with the TEI and the number that are
expected, in every state of every run. -/
theorem received_iff {s : Lite} (h : Reach s) {m : Mbuf} (he : Expected s m) :
    Received s.link (s.decodeMbuf m).link (peekMbuf m 3) ↔ Q931 m := by
  constructor
  · intro hr
    by_contra hq
    have hnum := hr.rxNum
    rw [decodeMbuf_of_not_q931 he hq] at hnum
    omega
  · exact received_of_q931 h.inv he

/-- An I-frame whose information field is empty. -/
def emptyIFrame : Mbuf := [0x00, 0x01, 0x00, 0x01]

theorem emptyIFrame_expected : Expected telephone emptyIFrame := ⟨rfl, rfl, rfl⟩

/-- A RELEASE COMPLETE for a call that is not there is received. -/
theorem received_iff_release :
    Received telephone.link
      (telephone.decodeMbuf [0x00, 0x01, 0x00, 0x00, 0x08, 0x01, 0x81, 0x5a]).link 0 :=
  (received_iff telephone_reach ⟨rfl, rfl, rfl⟩).2 ⟨rfl, rfl, rfl⟩

/-- **An empty I-frame is never received**: however often it is repeated, nothing changes. -/
theorem not_received :
    Reach telephone ∧ Expected telephone emptyIFrame ∧
      ¬Received telephone.link (telephone.decodeMbuf emptyIFrame).link (peekMbuf emptyIFrame 3) ∧
      ∀ n, (List.replicate n emptyIFrame).foldl Lite.decodeMbuf telephone = telephone := by
  have hq : ¬Q931 emptyIFrame := by rintro ⟨-, h, -⟩; exact absurd h (by decide)
  have heq := decodeMbuf_of_not_q931 emptyIFrame_expected hq
  refine ⟨telephone_reach, emptyIFrame_expected, fun hr => ?_, fun n => ?_⟩
  · have hnum := hr.rxNum
    rw [heq] at hnum
    exact absurd hnum (by decide)
  · induction n with
    | zero => rfl
    | succ n ih => rw [List.replicate_succ, List.foldl_cons, heq, ih]

end Dss1Lite
end Isdn4bsd
