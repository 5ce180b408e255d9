import Mathlib.Tactic
import Mathlib.Logic.Function.Basic

/-!
# The state of the small DSS1 stack

`dss1_lite.c` is a second DSS1 stack, for devices that are a telephone themselves: one link, two call
descriptors, two B channels. This file is its data and the sending side of its layer 2, which
everything above uses.

* `StateEntry`, `outStates`, `inStates` : the tables of the call states.
* `CallDesc`, `Link`, `Lite` : `struct dss1_lite_call_desc` and the two halves of `struct dss1_lite`.
* `Link.sendMbuf` : a frame goes to the queue of the I-frames or out.

## Frames

A frame is a list of bytes, with room for the header of layer 2 in front of the message. The header is not
filled in when the frame is queued: the address is, but the numbers are written when it is transmitted,
since they may be different when it is transmitted again.

The queue of the I-frames is an array with two counters of eight bits, and the place of a frame is the lowest
bits of its counter. A place of which the frame was freed is empty. S-frames have no queue of their own:
they wait in `dl_outq` for the device, together with the copies of the I-frames.

The last two fields of `Link` are history. The stack does not have them, and no function reads them; they
are there so that one can say what has been queued in a whole run, and how much of that was freed.

## Messages

`dss1_lite_ie_tab` is a table of functions, one for each information element, and a message has a mask that
says which of them it wants. Here `encodeMessage` goes through the elements in the order of the
table. Elements that no message asks for, or that would have nothing in them, are left out.

## Surroundings

What the stack asks of the rest of the driver are fields of `Lite`: the time, whether the D channel is set up, an
option of the controller, and for each call of `i4b_getmbuf` to come whether it finds memory.
-/

set_option autoImplicit false

namespace Isdn4bsd
namespace Dss1Lite

/-! ## Constants and tables -/

/-- `DL_TEI` -/
def dlTei : Nat := 1

/-- `DL_QUEUE_MAX` -/
def dlQueueMax : Nat := 8

/-- `DL_NCALL` -/
def dlNcall : Nat := 2

/-- `DL_NCHAN` -/
def dlNchan : Nat := 3

/-- `DL_STATUS_COUNT_MAX` -/
def statusCountMax : Nat := 8

/-- `CHAN_D1` -/
def chanD1 : Int := 0

/-- `CHAN_B1` -/
def chanB1 : Int := 1

/-- `CHAN_B2` -/
def chanB2 : Int := 2

/-- `CHAN_ANY` -/
def chanAny : Int := -1

/-- `CHAN_NOT_ANY` -/
def chanNotAny : Int := -2

/-- `DL_ST_FREE` -/
abbrev stFree : Nat := 0xFF

abbrev outU2 : Nat := 0x04

abbrev outU2Ack : Nat := 0x05

abbrev outU3 : Nat := 0x06

abbrev outU4 : Nat := 0x08

abbrev outUA : Nat := 0x0A

abbrev outUC : Nat := 0x0C

/-- `DL_ST_OUT_MAX` -/
abbrev outMax : Nat := 0x0E

abbrev inU0 : Nat := 0x80

abbrev inU0Ack : Nat := 0x81

abbrev inU6 : Nat := 0x82

abbrev inU7 : Nat := 0x84

abbrev inU8 : Nat := 0x86

abbrev inUA : Nat := 0x88

abbrev inUC : Nat := 0x8A

/-- `DL_ST_IN_MAX` -/
abbrev inMax : Nat := 0x8C

/-- `struct dss1_lite_state` -/
structure StateEntry where
  timeout : Nat
  nextState : Nat
  q931State : Nat
  flags : Nat
  deriving DecidableEq, Repr

/-- `dss1_lite_out_states` -/
def outStates : List StateEntry :=
  [⟨0, stFree, 0x00, 0⟩, ⟨8, stFree, 0x00, 0⟩,
    ⟨16, stFree, 0x01, 0⟩, ⟨16, stFree, 0x01, 0⟩,
    ⟨16, stFree, 0x02, 0⟩, ⟨16, stFree, 0x02, 0⟩,
    ⟨8, 0x07, 0x03, 0⟩, ⟨4, stFree, 0x03, 1⟩,
    ⟨8, 0x09, 0x04, 0⟩, ⟨4, stFree, 0x04, 1⟩,
    ⟨8, 0x0B, 0x0A, 0⟩, ⟨4, stFree, 0x0A, 1⟩,
    ⟨8, 0x0D, 0x0C, 0⟩, ⟨4, stFree, 0x0C, 1⟩]

/-- `dss1_lite_in_states` -/
def inStates : List StateEntry :=
  [⟨8, stFree, 0x00, 0⟩, ⟨16, stFree, 0x19, 0⟩,
    ⟨8, 0x83, 0x06, 0⟩, ⟨4, stFree, 0x06, 1⟩,
    ⟨8, 0x85, 0x07, 0⟩, ⟨4, stFree, 0x07, 1⟩,
    ⟨4, stFree, 0x08, 0⟩, ⟨4, stFree, 0x08, 0⟩,
    ⟨8, 0x89, 0x0A, 0⟩, ⟨4, stFree, 0x0A, 1⟩,
    ⟨8, 0x8B, 0x0C, 0⟩, ⟨4, stFree, 0x0C, 1⟩]

/-- The table entry of a state. -/
def stateEntry (state : Nat) : StateEntry :=
  if inU0 ≤ state then inStates.getD (state - inU0) ⟨0, stFree, 0, 0⟩
  else outStates.getD state ⟨0, stFree, 0, 0⟩

/-! ## Call descriptors -/

/-- `BPROT_NONE` and `BPROT_RHDLC`. -/
inductive Bprot where
  | none
  | rhdlc
  deriving DecidableEq, Repr

/-- `BSUBPROT_XXX` -/
inductive Bsubprot where
  | unknown
  | ulaw
  | alaw
  deriving DecidableEq, Repr

/-- `struct dss1_lite_call_desc`. The numbers and texts nobody ever sets are left out. -/
structure CallDesc where
  /-- The entry of the current state, if there is a call. -/
  pstate : Option StateEntry
  timeoutTick : Int
  channelId : Int
  /-- `dl_part.telno` -/
  telno : List UInt8
  timeoutActive : Bool
  stateIndex : Nat
  needRelease : Bool
  statusCount : Nat
  channelBprot : Bprot
  channelBsubprot : Bsubprot
  channelAllocated : Bool
  currCallref : Nat
  causeOut : Nat
  sendingComplete : Bool
  messageType : Nat
  deriving DecidableEq, Repr

namespace CallDesc

/-- `memset(cd, 0, sizeof(*cd))` -/
def zero : CallDesc where
  pstate := none
  timeoutTick := 0
  channelId := 0
  telno := []
  timeoutActive := false
  stateIndex := 0
  needRelease := false
  statusCount := 0
  channelBprot := .none
  channelBsubprot := .unknown
  channelAllocated := false
  currCallref := 0
  causeOut := 0
  sendingComplete := false
  messageType := 0

/-- `dss1_lite_has_call` -/
def hasCall (cd : CallDesc) : Bool := cd.pstate.isSome

/-- `dss1_lite_has_status_check` -/
def hasStatusCheck (cd : CallDesc) : Bool :=
  match cd.pstate with
  | some e => e.flags % 2 == 1
  | none => false

/-- `dss1_lite_is_incoming`: the highest bit of `dl_state_index`. -/
def isIncoming (cd : CallDesc) : Bool := decide (inU0 ≤ cd.stateIndex)

/-- `dss1_lite_get_state`: the state without its lowest bit. -/
def getState (cd : CallDesc) : Nat := cd.stateIndex - cd.stateIndex % 2

/-- `dss1_lite_get_timeout` -/
def getTimeout (cd : CallDesc) : Nat := cd.stateIndex % 2

end CallDesc

/-! ## The link -/

/-- An mbuf. -/
abbrev Mbuf := List UInt8

/-- `dss1_lite_peek_mbuf` -/
def peekMbuf (m : Mbuf) (offset : Nat) : Nat := (m.getD offset 0).toNat

/-- `dss1_lite_poke_mbuf` -/
def pokeMbuf (m : Mbuf) (offset : Nat) (data : Nat) : Mbuf := m.set offset (UInt8.ofNat data)

/-- Layer 2 of `struct dss1_lite`. The counters are `uint8_t`, and `txNum` and `rxNum` hold a
sequence number in their upper seven bits. The last two fields are history: every I-frame that ever
was queued, and how many of them were freed. -/
structure Link where
  txMbuf : Nat → Option Mbuf
  txIn : Nat
  txOut : Nat
  txNum : Nat
  txWindow : Nat
  rxNum : Nat
  txEndTick : Int
  outq : List Mbuf
  queued : List Mbuf
  freed : Nat

/-- `ifq_maxlen` of `dl_outq`. -/
def outqMaxlen : Nat := 2 * dlQueueMax

namespace Link

/-- At the start everything is zero. -/
def zero : Link := ⟨fun _ => none, 0, 0, 0, 0, 0, 0, [], [], 0⟩

/-- `dss1_lite_queue_mbuf` -/
def queueMbuf (l : Link) (isNtMode : Bool) (m : Mbuf) : Link × Bool :=
  -- the CR-bit is inverse in NT-mode
  let m := if isNtMode then pokeMbuf m 0 (peekMbuf m 0 ^^^ 0x02) else m
  if outqMaxlen ≤ l.outq.length then (l, false) else ({ l with outq := l.outq ++ [m] }, true)

/-- I-frames in the queue, `(dl_tx_out - dl_tx_in) & (DL_QUEUE_MAX - 1)`. -/
def inQueue (l : Link) : Nat := (l.txOut + 256 - l.txIn) % dlQueueMax

/-- `dss1_lite_send_mbuf` -/
def sendMbuf (l : Link) (isNtMode : Bool) (m : Mbuf) : Link × Bool :=
  if peekMbuf m 2 % 2 = 0 then
    if l.inQueue < dlQueueMax - 1 then
      ({ l with
          txMbuf := Function.update l.txMbuf (l.txOut % dlQueueMax) (some m)
          txOut := (l.txOut + 1) % 256
          queued := l.queued ++ [m] }, true)
    else (l, false)
  else l.queueMbuf isNtMode m

end Link

/-! ## The stack -/

/-- `struct dss1_lite`, with what it reads of its surroundings: the tick counter, its frequency, the
dial tone option of the controller, if the D channel is set up, and if the next calls of `i4b_getmbuf`
and `m_dup` find memory. `calls` is history: how often a call descriptor was allocated. -/
structure Lite where
  cd : Nat → CallDesc
  active : Option Nat
  channelUtil : Nat → Bool
  nextCallref : Nat
  isHookOff : Bool
  link : Link
  isNtMode : Bool
  enabled : Bool
  noLayer1Dialtone : Bool
  ticks : Int
  hz : Int
  mem : Nat → Bool
  calls : Nat

namespace Lite

/-- Change one call descriptor. -/
def modify (s : Lite) (i : Nat) (f : CallDesc → CallDesc) : Lite :=
  { s with cd := Function.update s.cd i (f (s.cd i)) }

/-- Change the link. -/
def setLink (s : Lite) (l : Link) : Lite := { s with link := l }

/-- `i4b_getmbuf` and `m_dup`: is there memory? -/
def getmbuf (s : Lite) : Bool × Lite := (s.mem 0, { s with mem := fun n => s.mem (n + 1) })

/-- `dss1_lite_send_mbuf` -/
def sendMbuf (s : Lite) (m : Mbuf) : Lite × Bool :=
  let r := s.link.sendMbuf s.isNtMode m
  (s.setLink r.1, r.2)

/-- `dss1_lite_send_ctrl`, for an S-frame. -/
def sendCtrl (s : Lite) (sapi cntl : Nat) : Lite × Bool :=
  let r := s.getmbuf
  if r.1 then
    -- F is set in a response, P is not set in a command
    let nr := if sapi / 2 % 2 = 1 then s.link.rxNum ||| 1 else s.link.rxNum
    r.2.sendMbuf [UInt8.ofNat sapi, UInt8.ofNat dlTei, UInt8.ofNat cntl, UInt8.ofNat nr]
  else (r.2, false)

end Lite

/-! ## Messages -/

/-- `IE_XXX_MASK` of the information elements that are ever sent with something in them. -/
structure Mask where
  sendingComplete : Bool
  bearerCap : Bool
  channelId : Bool
  cause : Bool
  callstate : Bool
  progress : Bool
  calledParty : Bool
  deflect : Bool
  mcid : Bool
  deriving DecidableEq, Repr

/-- `IE_HEADER_MASK` alone. -/
def Mask.header : Mask := ⟨false, false, false, false, false, false, false, false, false⟩

/-- `dss1_lite_ie_channel_id` -/
def ieChannelId (cd : CallDesc) : Mbuf :=
  if !cd.channelAllocated then []
  else
    let v :=
      if cd.channelId = chanNotAny then 0x00
      else if cd.channelId = chanD1 then 0x04
      else if cd.channelId = chanB1 then 0x01
      else if cd.channelId = chanB2 then 0x02
      else 0x03
    [0x18, 1, UInt8.ofNat (v ||| 0x88)]

/-- `dss1_lite_ie_bearer_cap` -/
def ieBearerCap (cd : CallDesc) : Mbuf :=
  match cd.channelBprot with
  | .none =>
    let ul1 : UInt8 :=
      match cd.channelBsubprot with
      | .alaw => 0xa3
      | .ulaw => 0xa2
      | .unknown => 0xA0
    [0x04, 3, 0x80, 0x90, ul1]
  | .rhdlc => [0x04, 2, 0x88, 0x90]

/-- `dss1_lite_ie_called_party` -/
def ieCalledParty (cd : CallDesc) : Mbuf :=
  if cd.telno.length = 0 ∨ 128 ≤ cd.telno.length then []
  else [0x70, UInt8.ofNat (1 + cd.telno.length), 0x81] ++ cd.telno

/-- `dss1_lite_ie_deflect` -/
def ieDeflect (cd : CallDesc) : Mbuf :=
  let len := cd.telno.length
  if len = 0 ∨ 128 ≤ len then []
  else
    [0x1c, UInt8.ofNat (0x10 + len), 0x91, 0xa1, UInt8.ofNat (0x0D + len), 0x02, 0x02, 0x22, 0x00,
      0x02, 0x01, 0x0d, 0x30, UInt8.ofNat (0x04 + len), 0x30, UInt8.ofNat (0x02 + len), 0x80,
      UInt8.ofNat len] ++ cd.telno

/-- `dss1_lite_ie_mcid` -/
def ieMcid : Mbuf := [0x1c, 0x0a, 0x91, 0xa1, 0x07, 0x02, 0x02, 0x22, 0x00, 0x02, 0x01, 0x03]

/-- The location of a cause or of a progress indicator. -/
def location (isNtMode : Bool) : UInt8 := if isNtMode then 0x82 else 0x80

/-- `dss1_lite_ie_tab`: the bytes of a message, in the order of the table. The first four are layer
2's, which fills them in when the message is sent. -/
def encodeMessage (isNtMode : Bool) (cd : CallDesc) (mask : Mask) : Mbuf :=
  [0, 0, 0, 0, 0x08, 1, UInt8.ofNat cd.currCallref, UInt8.ofNat cd.messageType]
    ++ (if mask.sendingComplete then [0xa1] else [])
    ++ (if mask.bearerCap then ieBearerCap cd else [])
    ++ (if mask.channelId then ieChannelId cd else [])
    ++ (if mask.cause then [0x08, 2, location isNtMode, UInt8.ofNat (cd.causeOut ||| 0x80)] else [])
    ++ (if mask.callstate then
      [0x14, 1, UInt8.ofNat ((cd.pstate.map StateEntry.q931State).getD 0)] else [])
    ++ (if mask.progress then [0x1e, 2, location isNtMode, 0x88] else [])
    ++ (if mask.calledParty then ieCalledParty cd else [])
    ++ (if mask.deflect then ieDeflect cd else [])
    ++ (if mask.mcid then ieMcid else [])

namespace Lite

/-- `dss1_lite_send_message` -/
def sendMessage (s : Lite) (i : Nat) (msgType : Nat) (mask : Mask) : Lite × Bool :=
  let s := s.modify i fun cd => { cd with messageType := msgType }
  let r := s.getmbuf
  if r.1 then r.2.sendMbuf (encodeMessage s.isNtMode (s.cd i) mask) else (r.2, false)

/-- `dss1_lite_want_dialtone` -/
def wantDialtone (s : Lite) (i : Nat) : Bool :=
  s.isNtMode && !s.noLayer1Dialtone && decide ((s.cd i).channelBprot = .none)

/-- `dss1_lite_send_setup` -/
def sendSetup (s : Lite) (i : Nat) (sendingComplete : Bool) : Lite × Bool :=
  s.sendMessage i 0x05 { Mask.header with bearerCap := true, channelId := true, sendingComplete }

/-- `dss1_lite_send_alert` -/
def sendAlert (s : Lite) (i : Nat) : Lite × Bool := s.sendMessage i 0x01 .header

/-- `dss1_lite_send_call_proceeding` -/
def sendCallProceeding (s : Lite) (i : Nat) : Lite × Bool :=
  s.sendMessage i 0x02 { Mask.header with progress := s.wantDialtone i, channelId := s.isNtMode }

/-- `dss1_lite_send_information` -/
def sendInformation (s : Lite) (i : Nat) : Lite × Bool :=
  s.sendMessage i 0x7b { Mask.header with calledParty := true }

/-- `dss1_lite_send_connect`; there never is a date to send. -/
def sendConnect (s : Lite) (i : Nat) : Lite × Bool := s.sendMessage i 0x07 .header

/-- `dss1_lite_send_connect_acknowledge` -/
def sendConnectAcknowledge (s : Lite) (i : Nat) : Lite × Bool := s.sendMessage i 0x0f .header

/-- `dss1_lite_send_disconnect` -/
def sendDisconnect (s : Lite) (i : Nat) : Lite × Bool :=
  s.sendMessage i 0x45 { Mask.header with cause := true }

/-- `dss1_lite_send_release_complete` -/
def sendReleaseComplete (s : Lite) (i : Nat) (sendCause : Bool) : Lite × Bool :=
  s.sendMessage i 0x5a { Mask.header with cause := sendCause }

/-- `dss1_lite_send_status` -/
def sendStatus (s : Lite) (i : Nat) (cause : Nat) : Lite × Bool :=
  let s := s.modify i fun cd => { cd with causeOut := cause }
  let r := s.sendMessage i 0x7d { Mask.header with cause := true, callstate := true }
  (r.1.modify i fun cd => { cd with causeOut := 0 }, r.2)

/-- `dss1_lite_send_status_enquiry` -/
def sendStatusEnquiry (s : Lite) (i : Nat) : Lite × Bool := s.sendMessage i 0x75 .header

/-- `dss1_lite_send_deflect_call` -/
def sendDeflectCall (s : Lite) (i : Nat) : Lite × Bool :=
  s.sendMessage i 0x62 { Mask.header with deflect := true }

/-- `dss1_lite_send_mcid_call` -/
def sendMcidCall (s : Lite) (i : Nat) : Lite × Bool :=
  s.sendMessage i 0x62 { Mask.header with mcid := true }

end Lite

end Dss1Lite
end Isdn4bsd
