import Isdn4bsd.Lib.GoBackN
import Isdn4bsd.Lite.Receive

/-!
# The small DSS1 stack is a go-back-N sender

The stack sends to a peer that accepts an I-frame iff it has the number it waits for, and that says in
`N(R)` of whatever it sends what that is. Both directions keep their order and lose frames.

* `Sender` : the numbers and the queue of a link are those of `GoBackN.Sound`.
* `System`, `System.Happens` : the stack, the peer and what is on its way.
* `exactly_once` : **the peer accepts the queued frames, each once and in order**.

## Numbers that do not wrap

The counters of the stack are eight bits wide, and the numbers of frames are seven bits, shifted by one. The
history of a link counts the frames that were queued and freed without any bound. `Sender` says that the
counters are what the bits of these numbers are, and that the queue holds the frames between them; everything
else is done with the numbers, in `Lib.GoBackN`, where there are no bytes.

What has to be shown here is that the frames in a window can be told apart: the window is half of the queue at most,
and there are 128 numbers.

## What the stack does

* Sending puts a frame behind those that are queued, with no number yet; a copy of it gets its number when it is
transmitted.
* An `N(R)` that is within the window frees the frames before it. One that is not makes the stack transmit
everything again, and frees nothing.
* `process` opens the window as far as it can, and transmits copies of the frames in it; some may be missing, when
there is no memory for a copy.

## What may happen

`System.Happens` has the stack with any of its steps, and the peer, which may receive what is on its way to
it, or send something with its number in it. A frame may be lost at any moment, and the two directions do not
wait for each other. An answer that is late still has a number that was right when it was sent, and it is not
more than what the peer waits for now; this is why it cannot free anything that was not accepted.
-/

set_option autoImplicit false

namespace Isdn4bsd
namespace Dss1Lite

open Relation

/-! ## The queue and its numbers -/

/-- What a frame carries besides the header of layer 2. -/
def payload (m : Mbuf) : Mbuf := m.drop 4

/-- The queue of the link holds the frames that are not freed, and the counters are those of the
history. -/
structure Link.Fits (l : Link) : Prop where
  txIn : l.txIn = l.freed % 256
  txOut : l.txOut = l.queued.length % 256
  freed_le : l.freed ≤ l.queued.length
  short : l.queued.length ≤ l.freed + 7
  slots : ∀ n, l.freed ≤ n → n < l.queued.length → l.txMbuf (n % 8) = l.queued[n]?
  framed : ∀ m ∈ l.queued, Framed m

theorem Link.Fits.inQueue {l : Link} (h : l.Fits) : l.inQueue = l.queued.length - l.freed := by
  have hshort := h.short
  have hle := h.freed_le
  rw [Link.inQueue, h.txIn, h.txOut, dlQueueMax]
  omega

theorem pokeMbuf_length (m : Mbuf) (offset data : Nat) : (pokeMbuf m offset data).length = m.length :=
  List.length_set

theorem peekMbuf_pokeMbuf_of_ne (m : Mbuf) {offset i : Nat} (data : Nat) (h : i ≠ offset) :
    peekMbuf (pokeMbuf m offset data) i = peekMbuf m i := by
  rw [peekMbuf, pokeMbuf, List.getD_eq_getElem?_getD, List.getElem?_set_ne h.symm,
    ← List.getD_eq_getElem?_getD, peekMbuf]

theorem peekMbuf_pokeMbuf_self (m : Mbuf) {offset data : Nat} (h : offset < m.length)
    (hd : data < 256) : peekMbuf (pokeMbuf m offset data) offset = data := by
  rw [peekMbuf, pokeMbuf, List.getD_eq_getElem?_getD, List.getElem?_set_self h, Option.getD_some,
    UInt8.toNat_ofNat', Nat.mod_eq_of_lt hd]

theorem payload_pokeMbuf (m : Mbuf) {offset : Nat} (data : Nat) (h : offset < 4) :
    payload (pokeMbuf m offset data) = payload m := by
  rw [payload, pokeMbuf, List.drop_set_of_lt h, payload]

/-- A copy with its CR-bit set for the mode. -/
def crBit (isNtMode : Bool) (m : Mbuf) : Mbuf :=
  if isNtMode then pokeMbuf m 0 (peekMbuf m 0 ^^^ 0x02) else m

theorem peekMbuf_crBit (nt : Bool) (m : Mbuf) {i : Nat} (h : i ≠ 0) :
    peekMbuf (crBit nt m) i = peekMbuf m i := by
  rw [crBit]
  split
  · exact peekMbuf_pokeMbuf_of_ne m _ h
  · rfl

theorem payload_crBit (nt : Bool) (m : Mbuf) : payload (crBit nt m) = payload m := by
  rw [crBit]
  split
  · exact payload_pokeMbuf m _ (by decide)
  · rfl

theorem queueMbuf_eq (l : Link) (nt : Bool) (m : Mbuf) :
    l.queueMbuf nt m =
      if outqMaxlen ≤ l.outq.length then (l, false)
      else ({ l with outq := l.outq ++ [crBit nt m] }, true) := rfl

/-- Sending keeps the queue. -/
theorem Link.Fits.sendMbuf {l : Link} (h : l.Fits) (nt : Bool) {m : Mbuf} (hm : Framed m) :
    (l.sendMbuf nt m).1.Fits := by
  have hin := h.inQueue
  have hle := h.freed_le
  have hshort := h.short
  rw [Link.sendMbuf]
  split_ifs with hI hroom
  · rw [hin, dlQueueMax] at hroom
    refine ⟨h.txIn, ?_, ?_, ?_, fun n hn hlt => ?_, fun q hq => ?_⟩
    · simp only [List.length_append, List.length_singleton, h.txOut]
      omega
    · simp only [List.length_append]
      omega
    · simp only [List.length_append, List.length_singleton]
      omega
    · simp only [List.length_append, List.length_singleton] at hlt
      change l.freed ≤ n at hn
      have hslot : l.txOut % dlQueueMax = l.queued.length % 8 := by
        rw [h.txOut, dlQueueMax]
        omega
      simp only [hslot]
      rcases Nat.lt_or_ge n l.queued.length with hold | hnew
      · rw [Function.update_of_ne (by omega), List.getElem?_append_left hold]
        exact h.slots n hn hold
      · obtain rfl : n = l.queued.length := by omega
        rw [Function.update_self]
        simp
    · rcases List.mem_append.1 hq with hq | hq
      · exact h.framed q hq
      · rw [List.mem_singleton.1 hq]
        exact hm
  · exact h
  · rw [queueMbuf_eq]
    split
    · exact h
    · exact ⟨h.txIn, h.txOut, h.freed_le, h.short, h.slots, h.framed⟩

/-- Only S-frames wait for the device. -/
def Link.Waits (l : Link) : Prop := ∀ m ∈ l.outq, peekMbuf m 2 % 2 = 1

theorem Link.Waits.sendMbuf {l : Link} (h : l.Waits) (nt : Bool) (m : Mbuf) :
    (l.sendMbuf nt m).1.Waits := by
  rw [Link.sendMbuf]
  split_ifs with hI
  · exact h
  · exact h
  · rw [queueMbuf_eq]
    split
    · exact h
    · intro q hq
      rcases List.mem_append.1 hq with hq | hq
      · exact h q hq
      · rw [List.mem_singleton.1 hq, peekMbuf_crBit nt m (by decide)]
        omega

/-- The queue only grows, while nothing is freed. -/
theorem sendMbuf_queued (l : Link) (nt : Bool) (m : Mbuf) :
    l.queued <+: (l.sendMbuf nt m).1.queued := by
  rw [Link.sendMbuf]
  split_ifs
  · exact List.prefix_append _ _
  · exact List.prefix_refl _
  · rw [queueMbuf_eq]
    split
    · exact List.prefix_refl _
    · exact List.prefix_refl _

theorem Sends.fits {nt : Bool} {l l' : Link} (h : Sends nt l l') (hf : l.Fits) : l'.Fits := by
  induction h with
  | refl => exact hf
  | send m hm _ ih => exact ih.sendMbuf nt hm

theorem Sends.waits {nt : Bool} {l l' : Link} (h : Sends nt l l') (hw : l.Waits) : l'.Waits := by
  induction h with
  | refl => exact hw
  | send m _ _ ih => exact ih.sendMbuf nt m

theorem Sends.queued {nt : Bool} {l l' : Link} (h : Sends nt l l') : l.queued <+: l'.queued := by
  induction h with
  | refl => exact List.prefix_refl _
  | send m _ _ ih => exact ih.trans (sendMbuf_queued _ nt m)

/-! ## Acknowledgements -/

/-- The frame in front is freed. -/
theorem Link.Fits.freeOne {l : Link} (h : l.Fits) (hlt : l.freed < l.queued.length) :
    l.freeOne.Fits := by
  have hshort := h.short
  refine ⟨?_, h.txOut, hlt, ?_, fun n hn hn' => ?_, h.framed⟩
  · simp only [Link.freeOne, h.txIn]
    omega
  · simp only [Link.freeOne]
    omega
  · simp only [Link.freeOne] at hn hn' ⊢
    rw [Function.update_of_ne (by rw [h.txIn, dlQueueMax]; omega)]
    exact h.slots n (by omega) hn'

/-- What freeing does not change. -/
theorem freeOne_iterate_eq (l : Link) (n : Nat) :
    ∃ txMbuf txIn, Link.freeOne^[n] l =
      { l with txMbuf := txMbuf, txIn := txIn, freed := l.freed + n } := by
  induction n with
  | zero => exact ⟨l.txMbuf, l.txIn, rfl⟩
  | succ n ih =>
    obtain ⟨txMbuf, txIn, heq⟩ := ih
    rw [Function.iterate_succ_apply', heq]
    exact ⟨_, _, rfl⟩

theorem Link.Fits.freeOne_iterate {l : Link} (h : l.Fits) {n : Nat}
    (hn : l.freed + n ≤ l.queued.length) : (Link.freeOne^[n] l).Fits := by
  induction n with
  | zero => exact h
  | succ n ih =>
    have hfits := ih (by omega)
    obtain ⟨txMbuf, txIn, heq⟩ := freeOne_iterate_eq l n
    rw [Function.iterate_succ_apply']
    refine hfits.freeOne ?_
    rw [heq]
    exact hn

/-- The transmit side of a link with the numbers `Sound` speaks of. -/
structure Sender (l : Link) (got : Nat) (fwd back : List Nat) : Prop where
  fits : l.Fits
  waits : l.Waits
  txNum : l.txNum = 2 * (l.freed % 128)
  sound : GoBackN.Sound Lite.winMax l.queued.length l.freed l.txWindow got fwd back

variable {l : Link} {got : Nat} {fwd back : List Nat}

theorem Sender.sends {nt : Bool} {l' : Link} (h : Sender l got fwd back) (hs : Sends nt l l') :
    Sender l' got fwd back := by
  have hnum := hs.numbers
  refine ⟨hs.fits h.fits, hs.waits h.waits, ?_, ?_⟩
  · rw [hnum.txNum, hnum.freed]
    exact h.txNum
  · rw [hnum.freed, hnum.txWindow]
    exact h.sound.enqueue hs.queued.length_le

/-- `V(R)` is none of the sender's business. -/
theorem Sender.advance (h : Sender l got fwd back) : Sender l.advance got fwd back :=
  ⟨⟨h.fits.txIn, h.fits.txOut, h.fits.freed_le, h.fits.short, h.fits.slots, h.fits.framed⟩, h.waits,
    h.txNum, h.sound⟩

/-- **What the peer acknowledges is freed**, and nothing is sent again. -/
theorem Sender.acknowledge {r txNr : Nat} (h : Sender l got fwd (r :: back))
    (hr : txNr / 2 = r % 128) :
    Sender (l.acknowledge txNr) got fwd back ∧ (l.acknowledge txNr).queued = l.queued := by
  obtain ⟨hge, hle⟩ := h.sound.ack_le
  have hW : l.txWindow ≤ 4 := h.sound.window_le
  have hqueued := h.sound.window_queued
  have htemp : txNr - txNr % 2 = 2 * (r % 128) := by omega
  have hdiff : (2 * (r % 128) + 256 - l.txNum) % 256 / 2 = r - l.freed := by
    rw [h.txNum]
    omega
  have hack := h.sound.ack
  rw [Link.acknowledge]
  dsimp only
  rw [htemp, hdiff]
  have hf := h.fits
  split_ifs with h0 hwin
  · have hrf : r = l.freed := by omega
    rw [hrf, Nat.sub_self, Nat.sub_zero] at hack
    refine ⟨⟨⟨hf.txIn, hf.txOut, hf.freed_le, hf.short, hf.slots, hf.framed⟩, h.waits, ?_, hack⟩, rfl⟩
    simp only [hrf]
  · omega
  · obtain ⟨txMbuf, txIn, heq⟩ := freeOne_iterate_eq
      { l with txNum := 2 * (r % 128), txWindow := l.txWindow - (r - l.freed) } (r - l.freed)
    have hfits : Link.Fits { l with txNum := 2 * (r % 128), txWindow := l.txWindow - (r - l.freed) } :=
      ⟨hf.txIn, hf.txOut, hf.freed_le, hf.short, hf.slots, hf.framed⟩
    have hfits' := hfits.freeOne_iterate (n := r - l.freed) (by simp only; omega)
    rw [heq] at hfits' ⊢
    have hsum : l.freed + (r - l.freed) = r := by omega
    refine ⟨⟨hfits', h.waits, ?_, ?_⟩, rfl⟩
    · simp only [hsum]
    · simp only [hsum]
      exact hack

/-! ## Received frames -/

/-- The frame has an `N(R)`: it is not a U-frame. -/
def hasNr (m : Mbuf) : Bool := peekMbuf m 2 % 4 != 3

/-- The frame says that the peer waits for a number. -/
def Answers (m : Mbuf) (r : Nat) : Prop := peekMbuf m 3 / 2 = r % 128

/-- What a received frame does to the sender: at most, what it acknowledges is freed. -/
theorem decodeMbuf_sender {s : Lite} {m : Mbuf} {r : Nat} (hi : Inv s)
    (hs : Sender s.link got fwd (r :: back)) (hr : Answers m r) :
    Sender (s.decodeMbuf m).link got fwd back ∧ s.link.queued <+: (s.decodeMbuf m).link.queued := by
  have hnr : ∀ (t : Lite) (sapi : Nat), Sender t.link got fwd (r :: back) →
      s.link.queued <+: t.link.queued →
      Sender (t.checkNr sapi (peekMbuf m 2) (peekMbuf m 3)).link got fwd back ∧
        s.link.queued <+: (t.checkNr sapi (peekMbuf m 2) (peekMbuf m 3)).link.queued := by
    intro t sapi ht hq
    obtain ⟨hack, hsame⟩ := ht.acknowledge hr
    have hsends := checkNr_sends t sapi (peekMbuf m 2) (peekMbuf m 3)
    exact ⟨hack.sends hsends, (hsame ▸ hq).trans hsends.queued⟩
  obtain h | ⟨-, sapi, t, h, ht⟩ := decodeMbuf_cases s m
  · rw [h]
    exact ⟨{ hs with sound := hs.sound.lose (List.Sublist.refl _) (List.sublist_cons_self _ _) },
      List.prefix_refl _⟩
  · rw [h]
    obtain rfl | rfl | rfl := ht
    · exact hnr t sapi hs (List.prefix_refl _)
    · have hseq := sequence_sends s (peekMbuf m 3)
      have hframe := (iFrame_goes (s.sequence (peekMbuf m 3)) m).sends ((sequence_moves s _).inv hi)
      exact hnr _ sapi ((hs.advance.sends hseq).sends hframe) (hseq.queued.trans hframe.queued)
    · have hsends := (sendCtrl_quiet s 0 0x09).sends
      exact hnr _ sapi (hs.sends hsends) hsends.queued

theorem decodeMbuf_of_not_hasNr {s : Lite} {m : Mbuf} (h : hasNr m = false) : s.decodeMbuf m = s := by
  obtain heq | ⟨hne, -⟩ := decodeMbuf_cases s m
  · exact heq
  · simp [hasNr] at h
    exact absurd h hne

/-- **The frames received in one call of the poll function.** -/
theorem foldl_decodeMbuf_sender (rx : List Mbuf) {s : Lite} {rs : List Nat} (hi : Inv s)
    (hrs : List.Forall₂ Answers (rx.filter hasNr) rs) (hs : Sender s.link got fwd (rs ++ back)) :
    Sender (rx.foldl Lite.decodeMbuf s).link got fwd back ∧
      s.link.queued <+: (rx.foldl Lite.decodeMbuf s).link.queued := by
  induction rx generalizing s rs with
  | nil =>
    obtain rfl : rs = [] := by cases hrs; rfl
    exact ⟨hs, List.prefix_refl _⟩
  | cons m rx ih =>
    rw [List.foldl_cons]
    cases hm : hasNr m with
    | false =>
      rw [List.filter_cons_of_neg (by rw [hm]; decide)] at hrs
      rw [decodeMbuf_of_not_hasNr hm]
      exact ih hi hrs hs
    | true =>
      rw [List.filter_cons_of_pos hm] at hrs
      cases hrs with
      | cons hr hrs =>
        obtain ⟨hs', hq⟩ := decodeMbuf_sender hi hs hr
        obtain ⟨hs'', hq'⟩ := ih ((decodeMbuf_moves s m).inv hi) hrs hs'
        exact ⟨hs'', hq.trans hq'⟩

/-! ## Transmission -/

/-- The frame is a copy of one of the queued frames, with its number. -/
def Carries (queued : List Mbuf) (m : Mbuf) (j : Nat) : Prop :=
  peekMbuf m 2 = 2 * (j % 128) ∧ ∃ q, queued[j]? = some q ∧ payload m = payload q

theorem Carries.mono {queued queued' : List Mbuf} {m : Mbuf} {j : Nat} (h : Carries queued m j)
    (hq : queued <+: queued') : Carries queued' m j := by
  obtain ⟨hnum, q, hget, hpay⟩ := h
  obtain ⟨rest, rfl⟩ := hq
  refine ⟨hnum, q, ?_, hpay⟩
  rw [List.getElem?_append_left (List.getElem?_eq_some_iff.1 hget).1]
  exact hget

theorem header_carries {l : Link} (hf : l.Fits) (hnum : l.txNum = 2 * (l.freed % 128)) (nt : Bool)
    (n delta : Nat) {m : Mbuf} (hm : l.queued[l.freed + n]? = some m) :
    Carries l.queued (crBit nt (l.header m n delta)) (l.freed + n) := by
  have hlen : 4 ≤ m.length := hf.framed m (List.mem_of_getElem? hm)
  refine ⟨?_, m, hm, ?_⟩
  · rw [peekMbuf_crBit nt _ (by decide), Link.header]
    rw [peekMbuf_pokeMbuf_of_ne _ _ (by decide), peekMbuf_pokeMbuf_self _ _ (by omega), hnum]
    · omega
    · rw [pokeMbuf_length, pokeMbuf_length]
      omega
  · rw [payload_crBit, Link.header]
    rw [payload_pokeMbuf _ _ (by decide), payload_pokeMbuf _ _ (by decide),
      payload_pokeMbuf _ _ (by decide), payload_pokeMbuf _ _ (by decide)]

/-- A link with more frames for the device. -/
def Link.put (l : Link) (more : List Mbuf) : Link := { l with outq := l.outq ++ more }

theorem Link.put_nil (l : Link) : l.put [] = l := by
  rw [Link.put, List.append_nil]

/-- **The loop of the poll function** puts copies of frames in the window behind what waits for the
device. -/
theorem transmit_eq (delta rest n : Nat) {s : Lite} (hf : s.link.Fits)
    (hnum : s.link.txNum = 2 * (s.link.freed % 128))
    (hn : s.link.freed + n + rest ≤ s.link.queued.length) :
    ∃ more js, (s.transmit delta rest n).link = s.link.put more ∧
      List.Forall₂ (Carries s.link.queued) more js ∧
      ∀ j ∈ js, s.link.freed ≤ j ∧ j < s.link.freed + n + rest := by
  induction rest generalizing s n with
  | zero =>
    exact ⟨[], [], (Link.put_nil _).symm, .nil, fun _ h => absurd h List.not_mem_nil⟩
  | succ rest ih =>
    have hskip : ∀ t : Lite, t.link = s.link →
        ∃ more js, (t.transmit delta rest (n + 1)).link = s.link.put more ∧
          List.Forall₂ (Carries s.link.queued) more js ∧
          ∀ j ∈ js, s.link.freed ≤ j ∧ j < s.link.freed + n + (rest + 1) := by
      intro t ht
      obtain ⟨more, js, heq, hall, hjs⟩ := ih (n + 1) (s := t) (ht ▸ hf) (ht ▸ hnum) (by rw [ht]; omega)
      rw [ht] at heq hall hjs
      refine ⟨more, js, heq, hall, fun j hj => ?_⟩
      have := hjs j hj
      omega
    rw [Lite.transmit]
    split
    · exact hskip s rfl
    · rename_i m hslot
      have hget : s.link.queued[s.link.freed + n]? = some m := by
        rw [← hf.slots _ (by omega) (by omega), ← hslot, hf.txIn, dlQueueMax]
        congr 1
        omega
      have hcarries := header_carries hf hnum s.isNtMode n delta hget
      dsimp only
      by_cases hmem : s.getmbuf.1 = true
      · rw [if_pos hmem, queueMbuf_eq]
        by_cases hfull : outqMaxlen ≤ s.getmbuf.2.link.outq.length
        · rw [if_pos hfull]
          exact ⟨[], [], (Link.put_nil _).symm, .nil, fun _ h => absurd h List.not_mem_nil⟩
        · rw [if_neg hfull]
          set f := crBit s.isNtMode (s.link.header m n delta) with hfr
          set t := s.getmbuf.2.setLink (s.link.put [f]) with ht
          obtain ⟨more, js, heq, hall, hjs⟩ := ih (n + 1) (s := t)
            ⟨hf.txIn, hf.txOut, hf.freed_le, hf.short, hf.slots, hf.framed⟩ hnum (by
              change s.link.freed + (n + 1) + rest ≤ s.link.queued.length
              omega)
          refine ⟨f :: more, (s.link.freed + n) :: js, ?_, .cons hcarries hall, fun j hj => ?_⟩
          · refine heq.trans ?_
            simp only [Link.put, ht, Lite.setLink, List.append_assoc, List.singleton_append]
          · rcases List.mem_cons.1 hj with rfl | hj
            · omega
            · have hj' : s.link.freed ≤ j ∧ j < s.link.freed + (n + 1) + rest := hjs j hj
              omega
      · rw [if_neg hmem]
        exact hskip _ rfl

/-- An I-frame. -/
def isIFrame (m : Mbuf) : Bool := peekMbuf m 2 % 2 == 0

theorem Carries.isIFrame {queued : List Mbuf} {m : Mbuf} {j : Nat} (h : Carries queued m j) :
    isIFrame m = true := by
  rw [Dss1Lite.isIFrame, h.1]
  simp

/-- The window is opened as far as the queue and its limit go. -/
theorem Sender.setWindow (h : Sender l got fwd back) :
    Sender (l.setWindow (min l.inQueue Lite.winMax)) got fwd back := by
  have hf := h.fits
  have hqueued := h.sound.window_queued
  have hin := hf.inQueue
  have hle := hf.freed_le
  refine ⟨⟨hf.txIn, hf.txOut, hf.freed_le, hf.short, hf.slots, hf.framed⟩, h.waits, h.txNum, ?_⟩
  have hmin : min l.inQueue Lite.winMax ≤ l.inQueue := min_le_left _ _
  have hroom : l.freed + min l.inQueue Lite.winMax ≤ l.queued.length := by omega
  exact h.sound.openWindow (le_min (by omega) h.sound.window_le) (min_le_right _ _) hroom

/-- Nothing waits for the device any more. -/
theorem Sender.drain (h : Sender l got fwd back) (tick : Int) :
    Sender { l with outq := [], txEndTick := tick } got fwd back :=
  ⟨⟨h.fits.txIn, h.fits.txOut, h.fits.freed_le, h.fits.short, h.fits.slots, h.fits.framed⟩,
    fun _ hm => absurd hm List.not_mem_nil, h.txNum, h.sound⟩

/-- Frames of the window are sent. -/
theorem Sender.transmitAll (h : Sender l got fwd back) {js : List Nat}
    (hjs : ∀ j ∈ js, l.freed ≤ j ∧ j < l.freed + l.txWindow) : Sender l got (fwd ++ js) back :=
  { h with sound := h.sound.transmitAll hjs }

/-- **One call of the poll function**: what is received is acknowledged, and copies of frames in the
window are transmitted. -/
theorem process_sender {s : Lite} {rx : List Mbuf} {rs : List Nat} (hi : Inv s)
    (hrs : List.Forall₂ Answers (rx.filter hasNr) rs) (hs : Sender s.link got fwd (rs ++ back)) :
    ∃ js, Sender (s.process rx).1.link got (fwd ++ js) back ∧
      s.link.queued <+: (s.process rx).1.link.queued ∧
      List.Forall₂ (Carries (s.process rx).1.link.queued) ((s.process rx).2.filter isIFrame) js := by
  have hhook : Goes s (if s.active.isNone ∧ s.isHookOff then s.hookOff else s) := by
    split
    · exact hookOff_goes s
    · exact Goes.refl s
  rw [Lite.process]
  dsimp only
  generalize (if s.active.isNone ∧ s.isHookOff then s.hookOff else s) = t at hhook ⊢
  obtain ⟨hu, hqu⟩ := foldl_decodeMbuf_sender rx (hhook.inv hi) hrs (hs.sends (hhook.sends hi))
  have hcheck := (checkTimeout_goes (rx.foldl Lite.decodeMbuf t) 0).sends
    ((foldl_decodeMbuf_moves rx t).inv (hhook.inv hi))
  have hv := hu.sends hcheck
  have hqv := ((hhook.sends hi).queued.trans hqu).trans hcheck.queued
  generalize (rx.foldl Lite.decodeMbuf t).checkTimeout 0 = v at hv hqv ⊢
  split_ifs
  · refine ⟨[], ?_, List.prefix_refl _, .nil⟩
    rw [List.append_nil]
    exact { hs with
      sound := hs.sound.lose (List.Sublist.refl _) (List.sublist_append_right rs back) }
  · refine ⟨[], ?_, hqv, .nil⟩
    rwa [List.append_nil]
  · set delta := min v.link.inQueue Lite.winMax with hdelta
    have hw : Sender (v.setLink (v.link.setWindow delta)).link got fwd back := hv.setWindow
    generalize hw' : v.setLink (v.link.setWindow delta) = w at hw ⊢
    have hwin : w.link.txWindow = delta := by rw [← hw']; rfl
    have hqw : w.link.queued = v.link.queued := by rw [← hw']; rfl
    obtain ⟨more, js, heq, hall, hjs⟩ := transmit_eq delta delta 0 hw.fits hw.txNum (by
      have := hw.sound.window_queued
      omega)
    have hput : ∃ tick, (w.transmit delta delta 0).peerPutMbuf.1.link =
        { w.link with outq := [], txEndTick := tick } := by
      refine ⟨(w.transmit delta delta 0).peerPutMbuf.1.link.txEndTick, ?_⟩
      simp only [Lite.peerPutMbuf, Lite.setLink, heq]
      rfl
    obtain ⟨tick, hput⟩ := hput
    have hout : (w.transmit delta delta 0).peerPutMbuf.2 = w.link.outq ++ more := by
      rw [Lite.peerPutMbuf, heq]
      rfl
    have hfilter : (w.link.outq ++ more).filter isIFrame = more := by
      have hodd : w.link.outq.filter isIFrame = [] := List.filter_eq_nil_iff.2 fun m hm => by
        rw [isIFrame, hw.waits m hm]
        decide
      have heven : more.filter isIFrame = more := List.filter_eq_self.2
        ((List.forall₂_and_left more js).1 (hall.imp fun _ _ hc => ⟨hc.isIFrame, hc⟩)).1
      rw [List.filter_append, hodd, heven, List.nil_append]
    rw [hput, hout, hfilter]
    refine ⟨js, (hw.drain tick).transmitAll fun j hj => ?_, hqw ▸ hqv, hall⟩
    have := hjs j hj
    simp only [hwin]
    omega

/-! ## Frames on their way and their numbers -/

theorem forall₂_of_append {α β : Type} {R : α → β → Prop} {xs xs' : List α} {ys : List β}
    (h : List.Forall₂ R (xs ++ xs') ys) :
    ∃ zs zs', ys = zs ++ zs' ∧ List.Forall₂ R xs zs ∧ List.Forall₂ R xs' zs' := by
  induction xs generalizing ys with
  | nil => exact ⟨[], ys, rfl, .nil, h⟩
  | cons x xs ih =>
    cases h with
    | cons hx h =>
      obtain ⟨zs, zs', rfl, hzs, hzs'⟩ := ih h
      exact ⟨_ :: zs, zs', rfl, .cons hx hzs, hzs'⟩

theorem forall₂_of_sublist {α β : Type} {R : α → β → Prop} {xs xs' : List α} {ys : List β}
    (hs : xs'.Sublist xs) (h : List.Forall₂ R xs ys) :
    ∃ ys', ys'.Sublist ys ∧ List.Forall₂ R xs' ys' := by
  induction hs generalizing ys with
  | slnil => exact ⟨[], List.nil_sublist ys, .nil⟩
  | cons x _ ih =>
    cases h with
    | cons _ h =>
      obtain ⟨ys', hsub, hall⟩ := ih h
      exact ⟨ys', hsub.cons _, hall⟩
  | cons_cons x _ ih =>
    cases h with
    | cons hx h =>
      obtain ⟨ys', hsub, hall⟩ := ih h
      exact ⟨_ :: ys', hsub.cons_cons _, .cons hx hall⟩

/-- The element behind a prefix makes it longer. -/
theorem prefix_concat_of_getElem? {α : Type} {xs ys : List α} {x : α} (h : xs <+: ys)
    (hx : ys[xs.length]? = some x) : xs ++ [x] <+: ys := by
  obtain ⟨rest, rfl⟩ := h
  rw [List.getElem?_append_right le_rfl, Nat.sub_self] at hx
  cases rest with
  | nil => exact absurd hx (by simp)
  | cons z rest =>
    obtain rfl : z = x := by simpa using hx
    exact ⟨rest, by rw [List.append_assoc]; rfl⟩

/-! ## The stack and its peer -/

/-- The stack, the frames on their way to the peer and from it, and the peer: the number it waits for and
what it accepted. -/
structure System where
  lite : Lite
  fwd : List Mbuf
  back : List Mbuf
  vr : Nat
  accepted : List Mbuf

namespace System

/-- The peer accepts an I-frame iff `N(S)` is the number it waits for. -/
def receive (y : System) (m : Mbuf) : System :=
  if peekMbuf m 2 % 2 = 0 ∧ peekMbuf m 2 / 2 = y.vr then
    { y with vr := (y.vr + 1) % 128, accepted := y.accepted ++ [payload m] }
  else y

/-- The stack has been set up, and the peer is as new. -/
def start (noLayer1Dialtone isNtMode : Bool) (ticks hz : Int) (mem : Nat → Bool) : System where
  lite := (Lite.attached noLayer1Dialtone ticks hz mem).setup true isNtMode
  fwd := []
  back := []
  vr := 0
  accepted := []

/-- What may happen: time passes, the telephone requests something, the stack polls for the first of the
frames on their way to it, the peer receives a frame, it sends anything that has an `N(R)` of what it
waits for or none at all, and frames are lost. -/
inductive Happens : System → System → Prop
  | surroundings (y : System) (ticks : Int) (mem : Nat → Bool) :
    Happens y { y with lite := { y.lite with ticks := ticks, mem := mem } }
  | request (y : System) {lite : Lite} (h : Request y.lite lite) : Happens y { y with lite := lite }
  | process (y : System) (rx back : List Mbuf) (h : y.back = rx ++ back) :
    Happens y { y with
      lite := (y.lite.process rx).1, fwd := y.fwd ++ (y.lite.process rx).2, back := back }
  | deliver (y : System) (m : Mbuf) (fwd : List Mbuf) (h : y.fwd = m :: fwd) :
    Happens y (receive { y with fwd := fwd } m)
  | answer (y : System) (m : Mbuf) (h : hasNr m = true → peekMbuf m 3 / 2 = y.vr) :
    Happens y { y with back := y.back ++ [m] }
  | lose (y : System) {fwd back : List Mbuf} (hf : fwd.Sublist y.fwd) (hb : back.Sublist y.back) :
    Happens y { y with fwd := fwd, back := back }

/-- A state of some run. -/
def Reach (y : System) : Prop :=
  ∃ noLayer1Dialtone isNtMode ticks hz mem,
    ReflTransGen Happens (start noLayer1Dialtone isNtMode ticks hz mem) y

/-- The invariant: the I-frames on their way are copies of queued frames and the answers are numbers, for
which the sender is sound, and what the peer accepted is the front of what was queued. -/
structure Sound (y : System) : Prop where
  calls : Inv y.lite
  link : ∃ js rs, Sender y.lite.link y.accepted.length js rs ∧
    List.Forall₂ (Carries y.lite.link.queued) (y.fwd.filter isIFrame) js ∧
    List.Forall₂ Answers (y.back.filter hasNr) rs
  vr : y.vr = y.accepted.length % 128
  accepted : y.accepted <+: y.lite.link.queued.map payload

theorem sound_start (b nt : Bool) (ticks hz : Int) (mem : Nat → Bool) :
    (start b nt ticks hz mem).Sound where
  calls := (Dss1Lite.Step.moves (.setup _ true nt)).inv (attached_inv b ticks hz mem)
  link := ⟨[], [], ⟨⟨rfl, rfl, le_rfl, Nat.zero_le _, fun _ _ h => absurd h (Nat.not_lt_zero _),
    fun _ h => absurd h List.not_mem_nil⟩, fun _ h => absurd h List.not_mem_nil, rfl,
    GoBackN.Sound.start _⟩, .nil, .nil⟩
  vr := rfl
  accepted := List.prefix_refl _

theorem sound_of_happens {y y' : System} (h : Happens y y') (hy : y.Sound) : y'.Sound := by
  obtain ⟨hi, ⟨js, rs, hs, hjs, hrs⟩, hvr, hacc⟩ := hy
  cases h with
  | surroundings ticks mem =>
    exact ⟨(Dss1Lite.Step.moves (.surroundings _ ticks mem)).inv hi, ⟨js, rs, hs, hjs, hrs⟩, hvr, hacc⟩
  | request h =>
    have hsends := h.goes.sends hi
    have hq := hsends.queued
    exact ⟨h.goes.inv hi,
      ⟨js, rs, hs.sends hsends, hjs.imp fun _ _ hc => hc.mono hq, hrs⟩, hvr,
      hacc.trans (hq.map payload)⟩
  | process rx back h =>
    rw [h, List.filter_append] at hrs
    obtain ⟨rs, rs', rfl, hrx, hback⟩ := forall₂_of_append hrs
    obtain ⟨js', hs', hq, hout⟩ := process_sender hi hrx hs
    refine ⟨(process_moves _ rx).inv hi, ⟨js ++ js', rs', hs', ?_, hback⟩, hvr,
      hacc.trans (hq.map payload)⟩
    rw [List.filter_append]
    exact List.rel_append (hjs.imp fun _ _ hc => hc.mono hq) hout
  | deliver m fwd h =>
    rw [h] at hjs
    cases hm : isIFrame m with
    | false =>
      rw [List.filter_cons_of_neg (by rw [hm]; decide)] at hjs
      have hno : receive { y with fwd := fwd } m = { y with fwd := fwd } := by
        refine if_neg fun hyes => ?_
        rw [isIFrame, hyes.1] at hm
        exact absurd hm (by decide)
      rw [hno]
      exact ⟨hi, ⟨js, rs, hs, hjs, hrs⟩, hvr, hacc⟩
    | true =>
      rw [List.filter_cons_of_pos hm] at hjs
      cases hjs with
      | @cons _ j _ js hc hjs =>
        obtain ⟨hnum, q, hget, hpay⟩ := hc
        have hsound := hs.sound.deliver (M := 128) (by decide)
        rw [receive]
        split
        · rename_i hyes
          have hmod : j % 128 = y.accepted.length % 128 := by
            rw [← hvr, ← hyes.2]
            simp only [hnum]
            omega
          have hj := (hs.sound.next_iff (by decide)).1 hmod
          rw [if_pos hmod] at hsound
          have hlen : (y.accepted ++ [payload m]).length = y.accepted.length + 1 := by simp
          refine ⟨hi, ⟨js, rs, ?_, hjs, hrs⟩, ?_, ?_⟩
          · exact { hs with sound := hlen ▸ hsound }
          · rw [hlen]
            simp only [hvr]
            omega
          · refine prefix_concat_of_getElem? hacc ?_
            rw [List.getElem?_map, ← hj, hget, hpay]
            rfl
        · rename_i hno
          have hmod : j % 128 ≠ y.accepted.length % 128 := by
            intro hmod
            refine hno ⟨by rw [hnum]; omega, ?_⟩
            rw [hnum, hvr, ← hmod]
            omega
          rw [if_neg hmod] at hsound
          exact ⟨hi, ⟨js, rs, { hs with sound := hsound }, hjs, hrs⟩, hvr, hacc⟩
  | answer m h =>
    cases hm : hasNr m with
    | false =>
      refine ⟨hi, ⟨js, rs, hs, hjs, ?_⟩, hvr, hacc⟩
      rw [List.filter_append, List.filter_cons_of_neg (by rw [hm]; decide), List.filter_nil,
        List.append_nil]
      exact hrs
    | true =>
      refine ⟨hi, ⟨js, rs ++ [y.accepted.length], { hs with sound := hs.sound.answer }, hjs, ?_⟩, hvr,
        hacc⟩
      rw [List.filter_append, List.filter_cons_of_pos hm, List.filter_nil]
      exact List.rel_append hrs (.cons ((h hm).trans hvr) .nil)
  | lose hf hb =>
    obtain ⟨js', hsub, hjs'⟩ := forall₂_of_sublist (hf.filter isIFrame) hjs
    obtain ⟨rs', hsub', hrs'⟩ := forall₂_of_sublist (hb.filter hasNr) hrs
    exact ⟨hi, ⟨js', rs', { hs with sound := hs.sound.lose hsub hsub' }, hjs', hrs'⟩, hvr, hacc⟩

theorem Reach.sound {y : System} (h : Reach y) : y.Sound := by
  obtain ⟨b, nt, ticks, hz, mem, hrun⟩ := h
  induction hrun with
  | refl => exact sound_start b nt ticks hz mem
  | tail _ hstep ih => exact sound_of_happens hstep ih

/-- **Each frame once and in order.** In every run, what the peer accepted is a prefix of what was queued,
only frames the peer accepted are freed, the window is in the queue and within its limit, and what is on
its way to the peer or accepted and not yet acknowledged lies in the window. -/
theorem exactly_once {y : System} (h : Reach y) :
    y.accepted <+: y.lite.link.queued.map payload ∧
      y.lite.link.freed ≤ y.accepted.length ∧
      y.lite.link.txWindow ≤ y.lite.link.inQueue ∧
      y.lite.link.inQueue = y.lite.link.queued.length - y.lite.link.freed ∧
      y.lite.link.txWindow ≤ Lite.winMax ∧
      y.accepted.length ≤ y.lite.link.freed + y.lite.link.txWindow ∧
      ∀ m ∈ y.fwd, isIFrame m = true → ∃ j, j < y.lite.link.freed + y.lite.link.txWindow ∧
        Carries y.lite.link.queued m j := by
  obtain ⟨-, ⟨js, rs, hs, hjs, -⟩, -, hacc⟩ := h.sound
  have hin := hs.fits.inQueue
  have hqueued := hs.sound.window_queued
  refine ⟨hacc, hs.sound.freed_le, by omega, hin, hs.sound.window_le, hs.sound.got_le,
    fun m hm hI => ?_⟩
  have hmem : m ∈ y.fwd.filter isIFrame := List.mem_filter.2 ⟨hm, hI⟩
  obtain ⟨ks, hsub, hks⟩ := forall₂_of_sublist (List.singleton_sublist.2 hmem) hjs
  cases hks with
  | @cons _ j _ ks hc _ =>
    exact ⟨j, hs.sound.fwd_lt j (hsub.subset List.mem_cons_self), hc⟩

/-- A telephone in TE-mode goes off hook, and its SETUP is transmitted. -/
def dialled : System :=
  let y := start false false 0 100 fun _ => true
  let lite := y.lite.hookOff
  { y with lite := (lite.process []).1, fwd := y.fwd ++ (lite.process []).2 }

theorem dialled_reach : Reach dialled := by
  refine ⟨false, false, 0, 100, fun _ => true, ?_⟩
  exact (ReflTransGen.single (Happens.request _ (.hookOff _))).tail (Happens.process _ [] [] rfl)

/-- The SETUP is in the window, and the frame on its way carries it. -/
theorem exactly_once_dialled :
    dialled.lite.link.txWindow = 1 ∧ dialled.lite.link.freed ≤ dialled.accepted.length ∧
      dialled.fwd.length = 1 ∧ ∀ m ∈ dialled.fwd, isIFrame m = true →
        ∃ j, j < dialled.lite.link.freed + dialled.lite.link.txWindow ∧
          Carries dialled.lite.link.queued m j := by
  obtain ⟨-, hfreed, -, -, -, -, hfwd⟩ := exactly_once dialled_reach
  exact ⟨by decide, hfreed, by decide, hfwd⟩

end System

end Dss1Lite
end Isdn4bsd
