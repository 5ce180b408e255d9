import Mathlib.Tactic

/-!
# Layer 2: the data

The data of `dss1_l2.h` and of its queues.  A softc holds sixteen pipes; a pipe is one end of a
numbered link, and pipe 0 is the *adapter*, which in network mode on a bus with several terminals
is not numbered but sends to all of them.  All pipes share one transmit cursor: which pipe is being
served, the next buffer of its window, how many are left, and the number the next one gets.

## Buffers

Buffers are known by an identity, which stands for the pointer.  A pointer is followed in
`dss1_l2_get_mbuf` only, and there the buffer has to be in the queue it is looked up in; see
`Pipe.find`.  An identity is given out once, so that a buffer that was freed and one that was allocated
later are not taken for each other, as they may be in the source.  That this difference does not matter is what
`Isdn4bsd.L2.Cursor` shows: no pointer is followed that is not into its queue.

## The surroundings

Layer 2 calls layer 3, which may call back: a pipe that is activated has the calls of layer 3 send their
messages.  What layer 3 does when it is told something is not layer 2's business, and the results here are to
hold whatever it does.  So a run is given, once and for all, the reactions of layer 3 (`Env`), for each question
it may be asked, and whether there is a buffer each time one is wanted.
-/

set_option autoImplicit false

namespace Isdn4bsd
namespace L2

/-- `L2_STATES`. -/
inductive State where
  | pause
  | sendTei
  | sendSabme
  | sendUa
  | singleFrame
  | multiFrame
  deriving DecidableEq, Repr

namespace State

/-- The value of the enumerator. -/
def num : State → Nat
  | pause => 0
  | sendTei => 1
  | sendSabme => 2
  | sendUa => 3
  | singleFrame => 4
  | multiFrame => 5

/-- `L2_STATE_IS_TEI_ASSIGNED`. -/
def isTeiAssigned (s : State) : Prop := sendTei.num < s.num

instance (s : State) : Decidable s.isTeiAssigned := inferInstanceAs (Decidable (_ < _))

/-- `L2_STATES_TIMEOUT_STATE`. -/
def timeoutState : State → State
  | pause => pause
  | sendTei => sendTei
  | sendSabme => sendTei
  | sendUa => sendTei
  | singleFrame => sendTei
  | multiFrame => singleFrame

end State

/-- `TEI_BROADCAST`. -/
def teiBroadcast : Nat := 0xff

/-- `TEI_POINT2POINT`. -/
def teiPoint2point : Nat := 0x01

/-- `I_HEADER_LEN`. -/
def iHeaderLen : Nat := 4

/-- `PD_Q931`. -/
def pdQ931 : UInt8 := 0x08

/-- A buffer of a pipe's queue: room for the header, then a layer 3 message. -/
structure Mbuf where
  /-- The pointer. -/
  id : Nat
  /-- `m_len`, header included. -/
  len : Nat
  /-- `m_flags & M_PROTO1`: the header was made shorter, for an unnumbered frame. -/
  proto1 : Bool
  /-- What the memory after the header holds. -/
  body : List UInt8
  deriving DecidableEq, Repr

namespace Mbuf

/-- The test for a zero-length I-frame that `dss1_l2_get_mbuf` makes at the head of a queue. -/
def isZif (m : Mbuf) : Prop := m.len ≤ iHeaderLen

instance (m : Mbuf) : Decidable m.isZif := inferInstanceAs (Decidable (_ ≤ _))

/-- `i4b_getmbuf(I_HEADER_LEN, M_NOWAIT)`. -/
def zif (id : Nat) : Mbuf := ⟨id, iHeaderLen, false, []⟩

@[simp] theorem isZif_zif (id : Nat) : (zif id).isZif := Nat.le_refl _

end Mbuf

/-- `get_callreference` on the bytes from the length octet on. -/
def getCallreference (ptr : List UInt8) : Nat :=
  (((ptr.tail).take ((ptr.headD 0).toNat &&& 0x0f)).foldr
    (fun b cr => (cr * 256 ||| b.toNat) % 2 ^ 32) 0)

/-- `DSS1_TCP_pipe_t`. -/
structure Pipe where
  state : State
  refcount : Nat
  tei : Nat
  serialNumber : Nat
  queue : List Mbuf
  txWindowSize : Nat
  txWindowLength : Nat
  rxNr : Nat
  txNr : Nat
  /-- `callout_pending(&pipe->get_mbuf_callout)`. -/
  getMbufCallout : Bool
  /-- `callout_pending(&pipe->set_state_callout)`. -/
  setStateCallout : Bool
  /-- A history variable, which no operation reads: `txNr` when the window was opened. -/
  openNr : Nat
  /-- Another one: how often the pipe went through `ST_L2_PAUSE`. -/
  pauses : Nat
  /-- And how often `dss1_pipe_data_acknowledge` was called for it. -/
  acks : Nat
  deriving DecidableEq, Repr

/-- The number of a pipe; `PIPE_MAX` is 16. -/
abbrev PipeNo := Fin 16

instance neZeroPipes : NeZero 16 := ⟨by decide⟩

/-- `pipe_adapter`. -/
abbrev adapter : PipeNo := 0

/-- `l2softc_t`, with the options of the controller that layer 2 reads. -/
structure Softc where
  ntMode : Bool
  pointToPoint : Bool
  primaryRate : Bool
  noStatusEnquiry : Bool
  /-- `sc_fifo_translator` is set. -/
  connected : Bool
  l1Activity : Bool
  teiLast : Nat
  /-- Control frames on their way out. -/
  queue : List (List UInt8)
  /-- `ifq_maxlen` of that queue. -/
  queueMax : Nat
  /-- `ifq_maxlen` of the pipes. -/
  pipeMax : Nat
  /-- `callout_pending(&sc->ID_REQUEST_callout)`. -/
  idRequestCallout : Bool
  pipe : PipeNo → Pipe
  curPipe : PipeNo
  curMbuf : Option Nat
  curLength : Nat
  curTxNr : Nat
  /-- How many buffers were asked for; the identity of the next one. -/
  mbufs : Nat
  /-- How often layer 3 was told something. -/
  upcalls : Nat

namespace Softc

/-- Change one pipe. -/
def modify (sc : Softc) (p : PipeNo) (f : Pipe → Pipe) : Softc :=
  { sc with pipe := Function.update sc.pipe p (f (sc.pipe p)) }

@[simp] theorem modify_pipe_self (sc : Softc) (p : PipeNo) (f : Pipe → Pipe) :
    (sc.modify p f).pipe p = f (sc.pipe p) := Function.update_self _ _ _

theorem modify_pipe_of_ne (sc : Softc) {p q : PipeNo} (f : Pipe → Pipe) (h : q ≠ p) :
    (sc.modify p f).pipe q = sc.pipe q := Function.update_of_ne h _ _

theorem modify_modify (sc : Softc) (p : PipeNo) (f g : Pipe → Pipe) :
    (sc.modify p f).modify p g = sc.modify p fun q => g (f q) := by
  simp only [modify, Function.update_self, Function.update_idem]

/-- The pipes that send numbered frames once they have a TEI: all but the adapter of a bus. -/
def isNumbered (sc : Softc) (p : PipeNo) : Prop :=
  ¬ (sc.ntMode = true ∧ sc.pointToPoint = false ∧ p = adapter)

instance (sc : Softc) (p : PipeNo) : Decidable (sc.isNumbered p) :=
  inferInstanceAs (Decidable (¬ _))

end Softc

/-! ## Layer 3 and the allocator

What layer 3 does when it is told something is not layer 2's business, and the results here are to
hold whatever it does.  So a run is given, once and for all, the requests layer 3 answers each
indication with, and which of the requests for a buffer are met. -/

/-- What layer 3 asks of layer 2, other than to activate a pipe. -/
inductive Request where
  /-- `dss1_pipe_data_req` with a message of these bytes. -/
  | dataReq (p : PipeNo) (body : List UInt8)
  /-- `dss1_pipe_data_acknowledge` for a call reference. -/
  | dataAcknowledge (p : PipeNo) (cr : Nat)
  /-- `refcount++` and `refcount--` of `cd_set_pipe`. -/
  | ref (p : PipeNo)
  | unref (p : PipeNo)
  deriving DecidableEq, Repr

/-- What layer 3 asks of layer 2. -/
inductive Down where
  | request (r : Request)
  /-- `dss1_pipe_activate_req`. -/
  | activate (p : PipeNo)
  deriving DecidableEq, Repr

/-- The surroundings of a run. -/
structure Env where
  /-- Is the `n`-th request for a buffer met? -/
  avail : Nat → Bool
  /-- What follows the `n`-th indication, if it is `dss1_pipe_data_ind` or `dss1_pipe_reset_ind`. -/
  answer : Nat → List Down
  /-- What follows it if it is `dss1_pipe_resend_ind`, which sends again what is not answered. -/
  resend : Nat → List Request

end L2
end Isdn4bsd
