import Isdn4bsd.L2.Types

/-!
# Layer 2: what happens to a pipe

The parts of the layer 2 functions that touch the queue, the window counters and the numbers of one
pipe, each under a name of its own, so that the functions themselves (`Isdn4bsd.L2.Fsm`) can be
read as compositions of them.

A pipe's *window* is the front of its queue.  `tx_window_size` frames were in it when it was opened,
and `tx_window_length` of them are not acknowledged yet; acknowledged frames stay in the queue until
the window is opened again.

* `enqueue`, `acknowledge`, `clear`, `retransmitAll`, `retransmitUnacked` : the changes.
* `openWindow` : what `dss1_l2_get_mbuf` does when the window is empty: acknowledged frames leave the queue, and
  zero-length I-frames are put in front if the pipe is unsure of the numbers.  `insertSecondZif` is a loop made of
  `goto`, which is given as many rounds as it can need.
* `receiveNr` : what `check_NR` makes of a number.
* `Step` lists the changes that do not concern the peer's numbers, and `Steps` is any number of them.

Apart from the receipt of a number (`receiveNr`) and from `dss1_l2_get_mbuf`, every function of layer 2
acts on each pipe by `Steps`, so what a single change preserves is preserved by all of them.

The two window counters are bytes, and numbers are 7 bits in the upper part of a byte, as in the source: a
subtraction that should never wrap around is written so that it would (`nrDifference`, `advance`).
-/

set_option autoImplicit false

namespace Isdn4bsd
namespace L2
namespace Pipe

/-- `_IF_ENQUEUE(pipe,m)`. -/
def enqueue (m : Mbuf) (q : Pipe) : Pipe := { q with queue := q.queue ++ [m] }

/-- A frame of the call is cut down to its header, in place. -/
def acknowledgeMbuf (cr : Nat) (m : Mbuf) : Mbuf :=
  if m.body.head? = some pdQ931 ∧ getCallreference m.body.tail = cr then
    { m with len := if m.proto1 then iHeaderLen - 1 else iHeaderLen }
  else m

/-- The loop of `dss1_pipe_data_acknowledge`. -/
def acknowledge (cr : Nat) (q : Pipe) : Pipe :=
  { q with queue := q.queue.map (acknowledgeMbuf cr), acks := q.acks + 1 }

/-- What `dss1_pipe_set_state` does to a pipe that pauses. -/
def clear (q : Pipe) : Pipe :=
  { q with
    queue := []
    txWindowSize := 0
    txWindowLength := 0
    rxNr := 0
    txNr := 0
    getMbufCallout := false
    pauses := q.pauses + 1 }

/-- How far `nr` is ahead of the number the pipe is at, modulo `NR_MAX`. -/
def nrDifference (q : Pipe) (nr : Nat) : Nat := (nr + 2 ^ 8 - q.txNr) % 2 ^ 8 % 128

/-- Wrong NR event: all frames will be sent again. -/
def retransmitAll (q : Pipe) : Pipe := { q with txWindowSize := 0, txWindowLength := 0 }

/-- Valid NR event. -/
def advance (d : Nat) (q : Pipe) : Pipe :=
  { q with txWindowLength := (q.txWindowLength + 2 ^ 8 - d) % 2 ^ 8 }

/-- `dss1_l2_get_mbuf_timeout`: the frames that are not acknowledged will be sent again. -/
def retransmitUnacked (q : Pipe) : Pipe :=
  { q with
    txWindowSize := (q.txWindowSize + 2 ^ 8 - q.txWindowLength) % 2 ^ 8
    txWindowLength := 0 }

/-! ## Opening the window -/

/-- Label `insert_second_ZIF`, with `fuel` rounds of the `goto` loop left and `n` buffers asked for
so far. -/
def insertSecondZif (env : Env) : Nat → Nat → List Mbuf → Option (List Mbuf × Nat)
  | 0, _, _ => none
  | fuel + 1, n, queue =>
    if env.avail n then
      match queue with
      | [] => insertSecondZif env fuel (n + 1) [Mbuf.zif n]
      | m :: ms =>
        if m.isZif then some (Mbuf.zif n :: m :: ms, n + 1)
        else insertSecondZif env fuel (n + 1) (Mbuf.zif n :: m :: ms)
    else some (queue, n + 1)

/-- The front of the queue becomes two zero-length I-frames. -/
def insertZifs (env : Env) (fuel n : Nat) : List Mbuf → Option (List Mbuf × Nat)
  | m :: m' :: ms =>
    if m.isZif ∧ m'.isZif then some (m :: m' :: ms, n) else insertSecondZif env fuel n (m :: m' :: ms)
  | ms => insertSecondZif env fuel n ms

/-- The rounds of that loop that are ever needed. -/
def zifRounds : Nat := 2

/-- Out of numbers, or unsure of them: the peer's number is found out by zero-length I-frames. -/
def needsZif (q : Pipe) : Prop :=
  q.txNr = 0x7f ∨ q.txNr = 0x00 ∨ q.state.num ≤ State.singleFrame.num

instance (q : Pipe) : Decidable q.needsZif := inferInstanceAs (Decidable (_ ∨ _))

/-- The queue and the largest window: the front for zero-length I-frames is made ready. -/
def prepare (env : Env) (q : Pipe) (n : Nat) (queue : List Mbuf) :
    Option (List Mbuf × Nat × Nat) :=
  if ¬ q.state.isTeiAssigned then some (queue, n, 0x7f)
  else if q.needsZif then (insertZifs env zifRounds n queue).map (fun r => (r.1, r.2, 2))
  else some (queue, n, (0x7f + 2 ^ 8 - q.txNr) % 2 ^ 8)

/-- The window is empty: acknowledged frames leave the queue, and as many as may be sent come into
the window.  There is no result when a frame is to leave an empty queue. -/
def openWindow (env : Env) (n : Nat) (q : Pipe) : Option (Pipe × Nat) :=
  if q.queue.length < q.txWindowSize then none
  else
    (q.prepare env n (q.queue.drop q.txWindowSize)).map fun r =>
      let len := min r.2.2 r.1.length
      ({ q with
          queue := r.1
          txWindowSize := len
          txWindowLength := len
          getMbufCallout := false
          openNr := q.txNr }, r.2.1)

/-! ## The transmit cursor -/

/-- Where in the queue a pointer points.  There is no result for `NULL`, a buffer that was freed, or
one that is in another queue. -/
def find (q : Pipe) (ptr : Option Nat) : Option Nat :=
  ptr.bind fun id => q.queue.findIdx? (fun m => m.id = id)

/-- The header of a buffer is made fit for an unnumbered frame, once. -/
def adjustHeader (m : Mbuf) : Mbuf :=
  if m.proto1 then m else { m with proto1 := true, len := m.len - 1 }

/-- An unnumbered frame counts as acknowledged when it is sent. -/
def sendUnnumbered (i : Nat) (q : Pipe) : Pipe :=
  { q with
    queue := q.queue.modify i adjustHeader
    txWindowLength := (q.txWindowLength + 2 ^ 8 - 1) % 2 ^ 8 }

/-! ## Changes -/

/-- What `check_NR` does to the pipe when the number `nr` comes in: the window, and the state in which
the pipe goes on. -/
def receiveNr (nr : Nat) (q : Pipe) : Pipe :=
  let d := q.nrDifference nr
  if d = 0 then { q with txNr := nr }
  else if q.txWindowLength < d then
    { q.retransmitAll with
      txNr := nr
      state := if q.state.num ≤ State.sendTei.num then q.state else .singleFrame }
  else
    { q.advance d with
      txNr := nr
      state := if q.state.num ≤ State.sendTei.num then q.state else .multiFrame }

theorem receiveNr_queue (q : Pipe) (nr : Nat) : (q.receiveNr nr).queue = q.queue := by
  simp only [receiveNr]
  split
  · rfl
  · split <;> rfl

theorem receiveNr_openNr (q : Pipe) (nr : Nat) : (q.receiveNr nr).openNr = q.openNr := by
  simp only [receiveNr]
  split
  · rfl
  · split <;> rfl

theorem receiveNr_tei (q : Pipe) (nr : Nat) : (q.receiveNr nr).tei = q.tei := by
  simp only [receiveNr]
  split
  · rfl
  · split <;> rfl

theorem receiveNr_counts (q : Pipe) (nr : Nat) :
    (q.receiveNr nr).pauses = q.pauses ∧ (q.receiveNr nr).acks = q.acks := by
  simp only [receiveNr]
  split
  · exact ⟨rfl, rfl⟩
  · split
    · exact ⟨rfl, rfl⟩
    · exact ⟨rfl, rfl⟩

/-- A number does not give a TEI to a pipe that has none. -/
theorem receiveNr_isTeiAssigned {q : Pipe} {nr : Nat} (h : ¬ q.state.isTeiAssigned) :
    ¬ (q.receiveNr nr).state.isTeiAssigned := by
  have hle : q.state.num ≤ State.sendTei.num := Nat.not_lt.mp h
  simp only [receiveNr, if_pos hle]
  split
  · exact h
  · split
    · exact h
    · exact h

/-- One change to the queue or the window of a pipe, with new buffers from the `n`-th on. -/
inductive Step (n : Nat) : Pipe → Pipe → Prop where
  | enqueue (q : Pipe) (m : Mbuf) (hnew : n ≤ m.id) (hid : ∀ m' ∈ q.queue, m'.id ≠ m.id) :
      Step n q (q.enqueue m)
  | acknowledge (q : Pipe) (cr : Nat) : Step n q (q.acknowledge cr)
  | clear (q : Pipe) : Step n q q.clear
  | timeout (q : Pipe) : Step n q q.retransmitUnacked
  /-- Nothing of that, but the state, the timers and the rest. -/
  | other (q r : Pipe) (hqueue : r.queue = q.queue) (hsize : r.txWindowSize = q.txWindowSize)
      (hlen : r.txWindowLength = q.txWindowLength) (hnr : r.txNr = q.txNr)
      (hopen : r.openNr = q.openNr) (hpauses : r.pauses = q.pauses) (hacks : r.acks = q.acks) :
      Step n q r

/-- Any number of changes. -/
abbrev Steps (n : Nat) : Pipe → Pipe → Prop := Relation.ReflTransGen (Step n)

/-- **What a change preserves, any number of them preserve.** -/
theorem Steps.preserves {n : Nat} {motive : Pipe → Prop}
    (hstep : ∀ q r, Step n q r → motive q → motive r) {q r : Pipe} (h : Steps n q r)
    (hq : motive q) : motive r := by
  induction h with
  | refl => exact hq
  | tail _ hs ih => exact hstep _ _ hs ih

theorem Steps.mono {n n' : Nat} (hn : n' ≤ n) {q r : Pipe} (h : Steps n q r) : Steps n' q r := by
  refine Relation.ReflTransGen.mono ?_ _ _ h
  intro q r hs
  cases hs with
  | enqueue m hnew hid => exact .enqueue q m (hn.trans hnew) hid
  | acknowledge cr => exact .acknowledge q cr
  | clear => exact .clear q
  | timeout => exact .timeout q
  | other _ hqueue hsize hlen hnr hopen hpauses hacks =>
    exact .other q r hqueue hsize hlen hnr hopen hpauses hacks

theorem Steps.other {n : Nat} {q r : Pipe} (hqueue : r.queue = q.queue)
    (hsize : r.txWindowSize = q.txWindowSize) (hlen : r.txWindowLength = q.txWindowLength)
    (hnr : r.txNr = q.txNr) (hopen : r.openNr = q.openNr) (hpauses : r.pauses = q.pauses)
    (hacks : r.acks = q.acks) : Steps n q r :=
  .single (.other q r hqueue hsize hlen hnr hopen hpauses hacks)

/-- Sending all frames again after some changes, or before them, comes to the same. -/
theorem Steps.retransmitAll {n : Nat} {q r : Pipe} (h : Steps n q r) :
    Steps n q.retransmitAll r.retransmitAll := by
  induction h with
  | refl => exact .refl
  | @tail b c _ hs ih =>
    refine ih.trans ?_
    cases hs with
    | enqueue m hnew hid => exact .single (.enqueue b.retransmitAll m hnew hid)
    | acknowledge cr => exact .single (.acknowledge b.retransmitAll cr)
    | clear => exact .single (.clear b.retransmitAll)
    | timeout => exact .refl
    | other _ hqueue hsize hlen hnr hopen hpauses hacks =>
      exact Steps.other hqueue rfl rfl hnr hopen hpauses hacks

end Pipe
end L2
end Isdn4bsd
