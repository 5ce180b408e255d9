import Isdn4bsd.L2.Types

/-!
# Layer 3: the data

The data of `dss1_l3.h` and of the call descriptors that layer 3 keeps for a controller.

## What is here

* `State` and `Event`, the two tables of `dss1_l3.h`, with their numbers.  The numbers matter: `cd_update`
  compares states by them, `cd_set_state` goes one state down by `newstate--`, and the two macros for local
  events are ranges.  So both enumerations keep the order of the source, and `num` is the enumerator.
* `Call`, the part of a call descriptor that says which call it is and how far it has come, and
  `CallDesc`, which adds the data of the call.  What is proved about channels, pipes, references and states
  is about `Call` only, so that the other data cannot be in the way (`Isdn4bsd.L3.Line`).
* `Cntl`, a controller with its call descriptors, the part of layer 2 that layer 3 reads or writes,
  and what it has asked of its surroundings so far.
* `Env`, the surroundings: whether there is a buffer, how many applications were told of a call, whether
  there is a slot for a line interconnect, and what time it is.  Each question has a number, and a run is for
  any answers to all of them.

## How the data is kept

A `char` array is known by the string it holds, up to the terminating zero.  The exception is
`dst_telno`, which is also written in the middle, through `dst_telno_ptr`, and is kept as memory.

`halted` is set where the source calls `panic` or follows a null pointer.  The functions go on after it, as
there is nothing in Lean to stop them, but a step that ends so has no result
(`Isdn4bsd.L3.Controller`).  Two other fields are there for what is proved only: `underflow`, that a counter
was decremented when it was zero, and the history of states in `Call`.
-/

set_option autoImplicit false

namespace Isdn4bsd
namespace L3

open L2 (PipeNo adapter)

/-- `L3_STATES`. -/
inductive State where
  | u0
  | outgoing
  | u1
  | u2
  | u2Ack
  | u3
  | u3To
  | u4
  | u4To
  | incoming
  | inAck
  | u6
  | u6To
  | u7
  | u7To
  | u8
  | ua
  | uaTo
  | uc
  | ucTo
  deriving DecidableEq, Repr

namespace State

/-- The states in their order. -/
def all : List State :=
  [u0, outgoing, u1, u2, u2Ack, u3, u3To, u4, u4To, incoming, inAck, u6, u6To, u7, u7To, u8, ua,
    uaTo, uc, ucTo]

/-- The value of the enumerator. -/
def num : State → Nat
  | u0 => 0
  | outgoing => 1
  | u1 => 2
  | u2 => 3
  | u2Ack => 4
  | u3 => 5
  | u3To => 6
  | u4 => 7
  | u4To => 8
  | incoming => 9
  | inAck => 10
  | u6 => 11
  | u6To => 12
  | u7 => 13
  | u7To => 14
  | u8 => 15
  | ua => 16
  | uaTo => 17
  | uc => 18
  | ucTo => 19

/-- The state one below: `newstate--`. -/
def pred (s : State) : State := all.getD (s.num - 1) u0

/-- `L3_STATES_TIMEOUT_STATE`. -/
def timeoutState : State → State
  | u3 => u3To
  | u4 => u4To
  | u6 => u6To
  | u7 => u7To
  | ua => uaTo
  | uc => ucTo
  | _ => u0

/-- `L3_STATES_Q931_CONV`. -/
def q931Conv : State → UInt8
  | u0 | outgoing | incoming => 0x00
  | u1 => 0x01
  | u2 | u2Ack => 0x02
  | u3 | u3To => 0x03
  | u4 | u4To => 0x04
  | inAck => 0x19
  | u6 | u6To => 0x06
  | u7 | u7To => 0x07
  | u8 => 0x08
  | ua | uaTo => 0x0a
  | uc | ucTo => 0x0c

/-- The states `ST_L3_*_TO`, in which an answer to a status enquiry is waited for. -/
def isTimeout : State → Bool
  | u3To | u4To | u6To | u7To | uaTo | ucTo => true
  | _ => false

end State

/-- `STATUS_ENQUIRY_TIMEOUT`. -/
def statusEnquiryTimeoutMax : Nat := 8

/-- `L3_EVENTS`: first the events of incoming calls, then those of all calls, then those of outgoing
calls. -/
inductive Event where
  | ill
  | progressrq
  | alertrq
  | proceedingrq
  | setacrs
  | setrjrs
  | deflectrq
  | mcidrq
  | setup
  | conack
  | status
  | release
  | statenq
  | info
  | facility
  | restartInd
  | restartAck
  | holdInd
  | retrieveInd
  | retrieveAck
  | disconnect
  | inforq
  | holdReq
  | retrieveReq
  | setuprq
  | setupak
  | callprc
  | alert
  | connect
  | progind
  deriving DecidableEq, Repr

namespace Event

/-- The value of the enumerator. -/
def num : Event → Nat
  | ill => 0
  | progressrq => 1
  | alertrq => 2
  | proceedingrq => 3
  | setacrs => 4
  | setrjrs => 5
  | deflectrq => 6
  | mcidrq => 7
  | setup => 8
  | conack => 9
  | status => 10
  | release => 11
  | statenq => 12
  | info => 13
  | facility => 14
  | restartInd => 15
  | restartAck => 16
  | holdInd => 17
  | retrieveInd => 18
  | retrieveAck => 19
  | disconnect => 20
  | inforq => 21
  | holdReq => 22
  | retrieveReq => 23
  | setuprq => 24
  | setupak => 25
  | callprc => 26
  | alert => 27
  | connect => 28
  | progind => 29

/-- `L3_EVENT_IS_LOCAL_INCOMING`. -/
def isLocalIncoming (e : Event) : Bool := e.num < setuprq.num

/-- `L3_EVENT_IS_LOCAL_OUTGOING`. -/
def isLocalOutgoing (e : Event) : Bool := status.num ≤ e.num

end Event

/-! ## Message types -/

/-- `Q931_MESSAGE_TYPES`, as far as layer 3 sends them. -/
def mtAlert : UInt8 := 0x01
def mtCallProceeding : UInt8 := 0x02
def mtProgress : UInt8 := 0x03
def mtSetup : UInt8 := 0x05
def mtConnect : UInt8 := 0x07
def mtSetupAcknowledge : UInt8 := 0x0d
def mtConnectAcknowledge : UInt8 := 0x0f
def mtHold : UInt8 := 0x24
def mtHoldAcknowledge : UInt8 := 0x28
def mtHoldReject : UInt8 := 0x30
def mtRetrieve : UInt8 := 0x31
def mtRetrieveAcknowledge : UInt8 := 0x33
def mtRetrieveReject : UInt8 := 0x37
def mtRelease : UInt8 := 0x4d
def mtRestartAcknowledge : UInt8 := 0x4e
def mtReleaseComplete : UInt8 := 0x5a
def mtFacility : UInt8 := 0x62
def mtStatusEnquiry : UInt8 := 0x75
def mtInformation : UInt8 := 0x7b
def mtStatus : UInt8 := 0x7d

/-- `Q931_MESSAGE_TYPES_EVENT`; what is not in the table is `EV_L3_ILL`. -/
def messageEvent (mt : Nat) : Event :=
  match mt with
  | 0x01 => .alert
  | 0x02 => .callprc
  | 0x03 => .progind
  | 0x05 => .setup
  | 0x07 => .connect
  | 0x0d => .setupak
  | 0x0f => .conack
  | 0x24 => .holdInd
  | 0x31 => .retrieveInd
  | 0x33 => .retrieveAck
  | 0x45 => .disconnect
  | 0x46 => .restartInd
  | 0x4d => .release
  | 0x4e => .restartAck
  | 0x5a => .release
  | 0x62 => .facility
  | 0x75 => .statenq
  | 0x7b => .info
  | 0x7d => .status
  | _ => .ill

/-! ## Constants of the call descriptor -/

/-- `CHAN_D1`, `CHAN_B1`, `CHAN_B2`, `CHAN_ANY` and `CHAN_NOT_ANY`. -/
def chanD1 : Int := 0
def chanB1 : Int := 1
def chanB2 : Int := 2
def chanAny : Int := -1
def chanNotAny : Int := -2

/-- `I4B_B_PROTOCOLS` and `I4B_B_SUB_PROTOCOLS`, as far as layer 3 knows them. -/
def bprotNoneVod : Nat := 1
def bprotRhdlc : Nat := 2
def bprotRhdlcDov : Nat := 3
def bprotNone : Nat := 4
def bprotNone31Khz : Nat := 5
def bsubprotUnknown : Nat := 0
def bsubprotG711Alaw : Nat := 1
def bsubprotG711Ulaw : Nat := 2

/-- `DRVR_CAPI_B3`, `DRVR_DIAL_GEN` and `DRVR_CAPI_BRIDGE`. -/
def drvrCapiB3 : Nat := 7
def drvrDialGen : Nat := 8
def drvrCapiBridge : Nat := 9

/-- Types of number, and screening and presentation indicators. -/
def tonOther : Nat := 0
def tonInternat : Nat := 1
def tonNational : Nat := 2
def scrNone : Nat := 0
def scrUsrNosc : Nat := 1
def scrUsrPass : Nat := 2
def scrUsrFail : Nat := 3
def scrNet : Nat := 4
def prsNone : Nat := 0
def prsAllowed : Nat := 1
def prsRestrict : Nat := 2

/-- Capacities of the strings, terminating zero included. -/
def telnoMax : Nat := 41
def subaddrMax : Nat := 21
def keypadMax : Nat := 35
def userUserMax : Nat := 129
def displayMax : Nat := 91

/-- `CDID_UNUSED`, `I4B_MAX_CONTROLLERS` and `CDID_REF_MAX`. -/
def cdidUnused : Nat := 0
def maxControllers : Nat := 64
def cdidRefMax : Nat := 0x100

/-- `MAKE_CDID`. -/
def makeCdid (unit callreference : Nat) : Nat :=
  (unit % maxControllers) ||| (callreference * maxControllers)

/-- `CDID2CALLREFERENCE`. -/
def cdid2Callreference (cdid : Nat) : Nat := cdid / maxControllers

/-- Causes of Q.850, and `CAUSET_I4B << 8` with a cause of I4B. -/
def causeUsrbsy : Nat := 0x11
def causeNoanswr : Nat := 0x13
def causeCallrej : Nat := 0x15
def causeNonseluc : Nat := 0x1a
def causeStenqrsp : Nat := 0x1e
def causeNocavail : Nat := 0x22
def causeInvclrfval : Nat := 0x51
def causeMsgncmpt : Nat := 0x62
def causeRecotimexp : Nat := 0x66
def causeI4bNormal : Nat := 0x100
def causeI4bNochan : Nat := 0x102
def causeI4bReject : Nat := 0x104
def causeI4bL1error : Nat := 0x107

/-- A string, without its terminating zero. -/
abbrev Str := List UInt8

/-- What a `char` array holds as a string. -/
def cstr (mem : List UInt8) : Str := mem.takeWhile (· ≠ 0)

/-- `struct i4b_src_telno`. -/
structure SrcTelno where
  ton : Nat := tonOther
  scrInd : Nat := scrNone
  prsInd : Nat := prsNone
  telno : Str := []
  subaddr : Str := []
  deriving DecidableEq, Repr

/-- `I4B_AI_BROADCAST`, `I4B_AI_I4B` and `I4B_AI_CAPI`. -/
inductive AiType where
  | broadcast
  | i4b
  | capi
  deriving DecidableEq, Repr

/-- `msg_shorthold_t`; the algorithm is `SHA_VARU` or it is not. -/
structure Shorthold where
  varu : Bool := false
  unitlenTime : Int := 0
  idleTime : Int := 0
  earlyhupTime : Int := 0
  deriving DecidableEq, Repr

/-- `idle_state`. -/
inductive IdleState where
  | notStarted
  | started
  | check
  deriving DecidableEq, Repr

/-! ## Call descriptors -/

/-- The part of a call descriptor that says which call it is for, how far that call has come, what
it owns, and why it ends. -/
structure Call where
  /-- `CDID_UNUSED` when the descriptor is free. -/
  cdid : Nat := cdidUnused
  pipe : Option PipeNo := none
  cr : Nat := 0
  channelId : Int := 0
  channelAllocated : Bool := false
  dirIncoming : Bool := false
  state : State := .u0
  statusEnquiryTimeout : Nat := 0
  /-- `callout_pending(&cd->set_state_callout)`. -/
  setStateCallout : Bool := false
  callIsOnHold : Bool := false
  callIsRetrieving : Bool := false
  causeIn : Nat := 0
  causeOut : Nat := 0
  /-- A history variable, which no operation reads: the states the call was in since the descriptor
  was allocated, the last one first. -/
  history : List State := []

/-- `call_desc_t`; the default is a descriptor that was cleared. -/
structure CallDesc extends Call where
  channelBprot : Nat := 0
  channelBsubprot : Nat := 0
  driverType : Nat := 0
  driverUnit : Nat := 0
  driverTypeCopy : Nat := 0
  driverUnitCopy : Nat := 0
  callState : Nat := 0
  /-- The memory of `dst_telno`, and `dst_telno_ptr` as an offset in it. -/
  dstTelno : List UInt8 := List.replicate telnoMax 0
  dstTelnoPtr : Nat := 0
  dstTelnoPart : Str := []
  dstTelnoEarly : Str := []
  dstSubaddr : Str := []
  src0 : SrcTelno := {}
  src1 : SrcTelno := {}
  dstTon : Nat := tonOther
  aiType : AiType := .broadcast
  /-- The application; 0 is `NULL`. -/
  aiPtr : Nat := 0
  notEndToEndDigital : Bool := false
  isSms : Bool := false
  aocdFlag : Bool := false
  needRelease : Bool := false
  peerResponded : Bool := false
  wantLateInband : Bool := false
  sendingComplete : Bool := false
  bLinkWantActive : Bool := false
  receivedSrcTelno1 : Bool := false
  receivedSrcTelno2 : Bool := false
  setupInterleave : Nat := 0
  liCdid : Nat := cdidUnused
  /-- `li_data_ptr` is set. -/
  liData : Bool := false
  connectIndCount : Nat := 0
  /-- `callout_pending(&cd->idle_callout)`. -/
  idleCallout : Bool := false
  idleState : IdleState := .notStarted
  lastActiveTime : Int := 0
  shorthold : Shorthold := {}
  display : Str := []
  idateTimeLen : Nat := 0
  idateTime : List UInt8 := []
  odateTimeLen : Nat := 0
  odateTime : Vector UInt8 8 := Vector.replicate 8 0
  keypad : Str := []
  userUser : Str := []

/-- The descriptor is in use. -/
def Call.Allocated (c : Call) : Prop := c.cdid ≠ cdidUnused

instance (c : Call) : Decidable c.Allocated := inferInstanceAs (Decidable (_ ≠ _))

/-! ## Surroundings -/

/-- Indications to layer 4. -/
inductive Ind where
  | connect
  | information (digits : Str)
  | alert
  | proceeding (sendingComplete : Bool)
  | retrieve
  | hold
  | connectActive
  | preDisconnect (cause : Nat)
  /-- Told to the owner, or with `complement` to all others. -/
  | disconnect (cause : Nat) (complement : Bool)
  | idleTimeout
  | charging
  deriving DecidableEq, Repr

/-- What layer 3 does to its surroundings. -/
inductive Output where
  /-- A request to layer 2. -/
  | down (d : L2.Down)
  /-- `CMR_PH_ACTIVATE` or `CMR_PH_DEACTIVATE`. -/
  | l1 (activate : Bool)
  /-- An indication about a call to layer 4, for `cd->ai_ptr`. -/
  | ind (cdid : Nat) (aiType : AiType) (aiPtr : Nat) (i : Ind)
  /-- `i4b_setup_driver` for the B channel of a call. -/
  | link (cdid : Nat) (channelId : Int) (driverType driverUnit : Nat) (activate : Bool)
  deriving DecidableEq, Repr

/-- The surroundings of a run. -/
structure Env where
  /-- Is the `k`-th question answered by a buffer? -/
  avail : Nat → Bool
  /-- If it is how many applications were sent a connect indication, that many. -/
  copies : Nat → Nat
  /-- If it is whether there is a PCM slot for a line interconnect, is there? -/
  liAlloc : Nat → Bool
  /-- If it is what time it is, this is the time. -/
  time : Nat → Int
  /-- `CMR_ENCODE_CHANNEL` and `CMR_DECODE_CHANNEL` of the chip. -/
  encodeChannel : Int → Int
  decodeChannel : Int → Int

/-- A counter of 32 bits is incremented, or decremented. -/
@[irreducible] def inc (k : Nat) : Nat := if k = 0xffffffff then 0 else k + 1
@[irreducible] def dec (k : Nat) : Nat := if k = 0 then 0xffffffff else k - 1

/-- `i4b_controller_t` and `l2softc_t`, as far as layer 3 is concerned, for a controller with `n`
call descriptors. -/
structure Cntl (n : Nat) where
  unit : Nat
  cd : Fin n → CallDesc
  /-- `N_channel_utilization`. -/
  utilization : Nat → Bool
  /-- `L1_channel_end`. -/
  channelEnd : Nat
  cdidCount : Nat
  cdidEnd : Nat
  noLayer1Dialtone : Bool
  noPowerSave : Bool
  noLayer3StatusEnquiry : Bool
  /-- `N_nt_mode` of the controller, an option. -/
  nNtMode : Bool
  /-- `N_fifo_translator` is set. -/
  connected : Bool
  /-- `sc_nt_mode`, `sc_primary_rate` and `sc_point_to_point` of layer 2. -/
  ntMode : Bool
  primaryRate : Bool
  pointToPoint : Bool
  l1Activity : Bool
  l1AutoActivate : Nat
  l1DeactivateCount : Bool
  receivedFrame : Bool
  /-- `callout_pending(&sc->L1_activity_callout)`. -/
  l1ActivityCallout : Bool
  /-- `refcount` of the pipes, and whether they are in `ST_L2_PAUSE`. -/
  refcount : PipeNo → Nat
  paused : PipeNo → Bool
  /-- How many questions were put to the surroundings. -/
  asks : Nat
  /-- `panic` was called, or a null pointer was followed.  What the functions make of the controller
  after that is of no interest. -/
  halted : Bool
  /-- A history variable: `refcount` or `L1_auto_activate` was decremented when it was zero. -/
  underflow : Bool
  /-- Another one: what was done to the surroundings. -/
  out : List Output

namespace Cntl

variable {n : Nat}

/-- Change one call descriptor. -/
def modify (s : Cntl n) (i : Fin n) (f : CallDesc → CallDesc) : Cntl n :=
  { s with cd := Function.update s.cd i (f (s.cd i)) }

/-- Do something to the surroundings. -/
def put (s : Cntl n) (o : Output) : Cntl n := { s with out := s.out ++ [o] }

/-- Put a question to them; the number of the question. -/
def ask (s : Cntl n) : Nat × Cntl n := (s.asks, { s with asks := s.asks + 1 })

/-- `panic`. -/
def halt (s : Cntl n) : Cntl n := { s with halted := true }

end Cntl

end L3
end Isdn4bsd
