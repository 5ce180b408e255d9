import Isdn4bsd.L3.Decode

/-!
# Layer 3: the state machine

The functions of `dss1_l3fsm.h`, with those of `i4b_l4mgmt.c` and `i4b_l4.c` that they use: channels
and pipes of a call, its state and its timer (`cdSetState`), and what an event does to it
(`cdUpdate`).

## The shape of the functions

A function of the source that takes a `call_desc_t *` takes a controller and the index of a descriptor, and
gives the controller back; those that allocate a buffer or ask for the time also get the surroundings.
What `cd_update` does for an event is a function by itself for each `case`, under the name of the event, and
`cdUpdate` is the `switch`: first the events of all calls, then, by the direction of the call, the others.
An event for the wrong direction falls through to the end.

The labels in the middle of `cd_update` that other cases jump to are functions of their own:
`noChannelAvailable`, `eventConnectAck` and `smsRelease`.  So is each round of a loop over calls
(`resendCall`).  Where a case falls through into the next one it calls it (`onSetupak`, `onInfo`).

## What is not followed

Indications to layer 4 are messages to applications, which do not come back into layer 3: they are put into
`out`, and an application that reacts does so by an action of its own, later (`Isdn4bsd.L3.Controller`).
The exception is `i4b_l4_connect_ind`, whose result, how many applications were told, is used at once; it is
one of the questions of `Env`.
-/

set_option autoImplicit false

namespace Isdn4bsd
namespace L3
namespace Cntl

open L2 (PipeNo adapter)

variable {n : Nat}

/-! ## Layer 4 -/

/-- An indication about the call. -/
def tell (s : Cntl n) (i : Fin n) (ind : Ind) : Cntl n :=
  let cd := s.cd i
  s.put (.ind cd.cdid cd.aiType cd.aiPtr ind)

/-- `i4b_link_bchandrvr` without `activate`. -/
def unlinkBchandrvr (s : Cntl n) (i : Fin n) : Cntl n :=
  let s := s.modify i fun cd => { cd with bLinkWantActive := false }
  let cd := s.cd i
  if cd.channelAllocated then
    s.put (.link cd.cdid cd.channelId cd.driverTypeCopy cd.driverUnitCopy false)
  else s

/-- `i4b_link_bchandrvr`. -/
def i4bLinkBchandrvr (s : Cntl n) (i : Fin n) (activate : Bool) : Cntl n :=
  let s := s.unlinkBchandrvr i
  if activate then
    let s := s.modify i fun cd =>
      { cd with
        driverTypeCopy := cd.driverType
        driverUnitCopy := cd.driverUnit
        bLinkWantActive := true }
    let cd := s.cd i
    if cd.channelAllocated then
      s.put (.link cd.cdid cd.channelId cd.driverTypeCopy cd.driverUnitCopy true)
    else s
  else s

/-- `i4b_l4_connect_ind`: the number of applications that were told is kept in the descriptor. -/
def i4bL4ConnectInd (env : Env) (s : Cntl n) (i : Fin n) : Cntl n :=
  let r := (s.tell i .connect).ask
  r.2.modify i fun cd => { cd with connectIndCount := env.copies r.1 % 2 ^ 16 }

/-- `case IST_STARTED` of `i4b_idle_check`: a unit is charged, and the timer started again. -/
def idleStarted (s : Cntl n) (i : Fin n) : Cntl n :=
  let s := if (s.cd i).aocdFlag then s else s.tell i .charging
  s.modify i fun cd => { cd with idleState := .check, idleCallout := true }

/-- The shorthold data that `i4b_l4_setup_timeout` works with, and the unit length that comes
after it, if it is another one. -/
def shortholdData (cd : CallDesc) : CallDesc × Option Int :=
  let h := cd.shorthold
  if cd.dirIncoming = false ∧ 0 < h.unitlenTime ∧ h.earlyhupTime < h.unitlenTime then
    if h.varu then
      ({ cd with
          shorthold := { h with unitlenTime := h.unitlenTime - 1, earlyhupTime := 0 }
          aocdFlag := true }, some 1)
    else
      ({ cd with shorthold := { h with unitlenTime := h.unitlenTime - h.earlyhupTime } }, none)
  else
    ({ cd with
        shorthold := { h with unitlenTime := 1, earlyhupTime := 0 }
        aocdFlag := true }, none)

/-- `i4b_l4_setup_timeout`. -/
def i4bL4SetupTimeout (s : Cntl n) (i : Fin n) : Cntl n :=
  let next := (shortholdData (s.cd i)).2
  let s := s.modify i fun cd => (shortholdData cd).1
  let cd := s.cd i
  let s :=
    if cd.idleState = .notStarted ∧ (cd.aocdFlag = false ∨ 0 < cd.shorthold.idleTime) then
      let s := s.modify i fun cd => { cd with idleState := .started }
      if s.connected ∧ (s.cd i).cdid ≠ cdidUnused then s.idleStarted i else s
    else s
  s.modify i fun cd =>
    { cd with shorthold := { cd.shorthold with unitlenTime := next.getD cd.shorthold.unitlenTime } }

/-- `i4b_l4_connect_active_ind`. -/
def i4bL4ConnectActiveInd (env : Env) (s : Cntl n) (i : Fin n) : Cntl n :=
  let r := s.ask
  ((r.2.modify i fun cd => { cd with lastActiveTime := env.time r.1 }).i4bL4SetupTimeout i).tell i
    .connectActive

/-- `i4b_l4_disconnect_ind`; what applications of CAPI are told has a cause of Q.850 in it. -/
def i4bL4DisconnectInd (s : Cntl n) (i : Fin n) (complement : Bool) : Cntl n :=
  let s := if complement then s else s.i4bLinkBchandrvr i false
  let cd := s.cd i
  let s := s.tell i (.disconnect cd.causeIn complement)
  if (cd.aiType ≠ .i4b ∨ complement) ∧ i4bMakeQ850Cause cd.causeIn = none then s.halt else s

/-! ## Channels -/

/-- `i4b_slot_li_alloc` for the call. -/
def liAlloc (env : Env) (s : Cntl n) (i : Fin n) : Cntl n :=
  let r := s.ask
  r.2.modify i fun cd => { cd with liData := env.liAlloc r.1 }

/-- Label `found` of `cd_allocate_channel`. -/
def channelFound (s : Cntl n) (i : Fin n) (c : Nat) : Cntl n :=
  { s with utilization := Function.update s.utilization c true }.modify i fun cd =>
    { cd with channelId := c, channelAllocated := true }

/-- Label `not_found`. -/
def channelNotFound (s : Cntl n) (i : Fin n) : Cntl n :=
  s.modify i fun cd => { cd with channelId := chanAny }

/-- A channel for a call that has none. -/
def chooseChannel (s : Cntl n) (i : Fin n) : Cntl n :=
  let c := (s.cd i).channelId
  if 0 ≤ c ∧ c < s.channelEnd then
    if s.utilization c.toNat then s.channelNotFound i else s.channelFound i c.toNat
  else if c = chanNotAny then s.modify i fun cd => { cd with channelAllocated := true }
  else
    match (List.range s.channelEnd).find? fun c => !s.utilization c with
    | some c => s.channelFound i c
    | none => s.channelNotFound i

/-- `cd_allocate_channel`. -/
def cdAllocateChannel (env : Env) (s : Cntl n) (i : Fin n) : Cntl n :=
  let s :=
    if (s.cd i).liCdid ≠ cdidUnused ∧ (s.cd i).liData = false then s.liAlloc env i else s
  if (s.cd i).channelAllocated then s else s.chooseChannel i

/-- `cd_free_channel`. -/
def cdFreeChannel (s : Cntl n) (i : Fin n) : Cntl n :=
  let s := s.modify i fun cd => { cd with liData := false }
  let c := (s.cd i).channelId
  if (s.cd i).channelAllocated then
    let s :=
      if 0 ≤ c ∧ c < s.channelEnd then
        { s with utilization := Function.update s.utilization c.toNat false }
      else s
    s.modify i fun cd => { cd with channelId := chanAny, channelAllocated := false }
  else s

/-- `cd_set_appl_interface`. -/
def cdSetApplInterface (s : Cntl n) (i : Fin n) (aiType : AiType) (aiPtr : Nat) : Cntl n :=
  s.modify i fun cd => { cd with aiType := aiType, aiPtr := aiPtr }

/-! ## Pipes -/

/-- `dss1_L1_activity_timeout`. -/
def dss1L1ActivityTimeout (s : Cntl n) : Cntl n :=
  if s.connected then
    let s :=
      if s.l1Activity ∧ s.l1AutoActivate = 0 ∧ s.receivedFrame = false ∧ s.noPowerSave = false then
        if s.l1DeactivateCount then { s.put (.l1 false) with l1DeactivateCount := false }
        else { s with l1DeactivateCount := true }
      else { s with l1DeactivateCount := false, receivedFrame := false }
    { s with l1ActivityCallout := true }
  else s

/-- `dss1_L1_deactivate_req`. -/
def dss1L1DeactivateReq (s : Cntl n) : Cntl n :=
  let s :=
    { s with
      l1AutoActivate := dec s.l1AutoActivate
      underflow := s.underflow || s.l1AutoActivate == 0 }
  if s.l1AutoActivate = 0 then s.dss1L1ActivityTimeout else s

/-- `dss1_L1_activate_req`. -/
def dss1L1ActivateReq (s : Cntl n) : Cntl n :=
  let s :=
    if s.l1AutoActivate = 0 then
      { s.put (.l1 true) with l1ActivityCallout := false, l1DeactivateCount := false }
    else s
  { s with l1AutoActivate := inc s.l1AutoActivate }

/-- `pipe->refcount++`. -/
def ref (s : Cntl n) (p : PipeNo) : Cntl n :=
  { s with refcount := Function.update s.refcount p (inc (s.refcount p)) }

/-- `pipe->refcount--`. -/
def unref (s : Cntl n) (p : PipeNo) : Cntl n :=
  { s with
    refcount := Function.update s.refcount p (dec (s.refcount p))
    underflow := s.underflow || s.refcount p == 0 }

/-- One round of `dss1_pipe_resend_ind`. -/
def resendCall (env : Env) (p : PipeNo) (s : Cntl n) (i : Fin n) : Cntl n :=
  let cd := s.cd i
  if cd.cdid ≠ cdidUnused ∧ cd.pipe = some p ∧ cd.needRelease then
    let s :=
      if cd.peerResponded = false ∧
          (cd.setupInterleave = 0 ∨ cd.setupInterleave = 4 ∨ 6 ≤ cd.setupInterleave) then
        s.dss1L3TxSetup env i
      else s
    if s.l1Activity ∨ cd.setupInterleave ≠ 0 then
      s.modify i fun cd => { cd with setupInterleave := (cd.setupInterleave + 1) % 2 ^ 8 }
    else s
  else s

/-- `dss1_pipe_resend_ind`. -/
def dss1PipeResendInd (env : Env) (s : Cntl n) (p : PipeNo) : Cntl n :=
  (List.finRange n).foldl (resendCall env p) s

/-- `dss1_pipe_activate_req`: a pipe that pauses goes on.  It is in use while its state is set, and
does not pause again.  The adapter of a bus says so by `dss1_pipe_resend_ind`. -/
def dss1PipeActivateReq (env : Env) (s : Cntl n) (p : PipeNo) : Cntl n :=
  let s := s.put (.down (.activate p))
  if s.paused p then
    let s : Cntl n := { s.ref p with paused := Function.update s.paused p false }
    let s :=
      if s.ntMode ∧ s.pointToPoint = false ∧ p = adapter then s.dss1PipeResendInd env p else s
    s.unref p
  else s

/-- The pipe of `cd_set_pipe` is used by one more call, and activated. -/
def joinPipe (env : Env) (s : Cntl n) : Option PipeNo → Cntl n
  | some p =>
    (((s.ref p).put (.down (.request (.ref p)))).dss1L1ActivateReq).dss1PipeActivateReq env p
  | none => s

/-- The pipe that the call had before is used by one call less. -/
def leavePipe (s : Cntl n) : Option PipeNo → Cntl n
  | some p => ((s.unref p).put (.down (.request (.unref p)))).dss1L1DeactivateReq
  | none => s

/-- `cd_set_pipe`. -/
def cdSetPipe (env : Env) (s : Cntl n) (i : Fin n) (p : Option PipeNo) : Cntl n :=
  let s := s.joinPipe env p
  (s.leavePipe (s.cd i).pipe).modify i fun cd => { cd with pipe := p }

/-! ## Freeing a call descriptor -/

/-- `i4b_free_cd`. -/
def i4bFreeCd (s : Cntl n) (i : Fin n) : Cntl n :=
  s.modify i fun cd =>
    { cd with cdid := cdidUnused, idleCallout := false, setStateCallout := false }

/-- `n_free_cd`. -/
def nFreeCd (env : Env) (s : Cntl n) (i : Fin n) : Cntl n :=
  let s := s.i4bL4DisconnectInd i false
  let s := s.cdSetApplInterface i .broadcast 0
  let s := s.cdSetPipe env i none
  let s := s.cdFreeChannel i
  s.i4bFreeCd i

/-! ## States -/

/-- The message that `cd_set_state` ends a call with. -/
def txFinal (env : Env) (s : Cntl n) (i : Fin n) (p : PipeNo) : Cntl n :=
  if (s.cd i).needRelease then
    let s :=
      if (s.cd i).causeOut = 0 then s.modify i fun cd => { cd with causeOut := causeRecotimexp }
      else s
    if s.ntMode ∧ s.pointToPoint = false ∧ (s.cd i).dirIncoming = false ∧ p = adapter then
      s.dss1L3TxReleaseCompleteComplement env i (some p) none
    else s.dss1L3TxReleaseComplete env i
  else s

/-- The call is over, and what layer 2 still has of it need not be sent. -/
def abandon (s : Cntl n) (i : Fin n) (p : PipeNo) : Cntl n :=
  let s := s.modify i fun cd => { cd with state := .u0 }
  s.put (.down (.request (.dataAcknowledge p (s.cd i).cr)))

/-- If layer 1 is down, that is the cause. -/
def l1Error (s : Cntl n) (i : Fin n) : Cntl n :=
  if s.l1Activity then s else s.modify i fun cd => { cd with causeIn := causeI4bL1error }

/-- `cd_set_state` for `ST_L3_U0`. -/
def enterNull (env : Env) (s : Cntl n) (i : Fin n) (p : PipeNo) : Cntl n :=
  (((s.abandon i p).txFinal env i p).l1Error i).nFreeCd env i

/-- A status enquiry that is not sent: on a bus, where some terminals crash on it, the call goes on
waiting for some time if there was an answer before; with `NO_STATUS_ENQUIRY` it goes on waiting. -/
def skipEnquiry (s : Cntl n) (i : Fin n) (newstate : State) : Cntl n × State × Bool :=
  if s.ntMode ∧ s.pointToPoint = false ∧ (newstate = .u3To ∨ newstate = .u4To) then
    if (s.cd i).peerResponded ∧ (s.cd i).statusEnquiryTimeout < statusEnquiryTimeoutMax then
      (s.modify i fun cd => { cd with statusEnquiryTimeout := cd.statusEnquiryTimeout + 1 },
        newstate.pred, false)
    else (s, newstate, false)
  else if s.noLayer3StatusEnquiry ∧ newstate.isTimeout then (s, newstate.pred, false)
  else (s, newstate, newstate.isTimeout)

/-- The digits that came too early are sent. -/
def sendEarly (env : Env) (s : Cntl n) (i : Fin n) (newstate : State) : Cntl n :=
  if (s.cd i).dstTelnoEarly ≠ [] ∧ newstate ≠ .u2 ∧
      (s.ntMode = false ∨ s.pointToPoint ∨ newstate = .ua ∨ newstate = .uaTo) then
    (s.dss1L3TxInformation env i).modify i fun cd => { cd with dstTelnoEarly := [] }
  else s

/-- The new state is stored and the timer started. -/
def storeState (s : Cntl n) (i : Fin n) (newstate : State) : Cntl n :=
  s.modify i fun cd =>
    { cd with state := newstate, setStateCallout := true, history := newstate :: cd.history }

/-- `cd_set_state` for the other states. -/
def enterState (env : Env) (s : Cntl n) (i : Fin n) (newstate : State) : Cntl n :=
  let r := s.skipEnquiry i newstate
  let s := r.1.storeState i r.2.1
  let s := if r.2.2 then s.dss1L3TxStatusEnquiry env i else s
  s.sendEarly env i r.2.1

/-- `cd_set_state`. -/
def cdSetState (env : Env) (s : Cntl n) (i : Fin n) (newstate : State) : Cntl n :=
  match (s.cd i).pipe with
  | none => s.halt
  | some p =>
    let s := s.modify i fun cd => { cd with setStateCallout := false }
    if newstate = .u0 then s.enterNull env i p else s.enterState env i newstate

/-- `cd_set_state_timeout`. -/
def cdSetStateTimeout (env : Env) (s : Cntl n) (i : Fin n) : Cntl n :=
  if s.connected then s.cdSetState env i (s.cd i).state.timeoutState else s

/-! ## Events of all calls -/

/-- `case EV_L3_STATUS`. -/
def onStatus (env : Env) (s : Cntl n) (i : Fin n) : Cntl n :=
  let cd := s.cd i
  if cd.state = .u3To ∨ cd.state = .u4To ∨ cd.state = .u6To ∨ cd.state = .u7To then
    if (cd.callState = 0x19 ∨ (0x01 ≤ cd.callState ∧ cd.callState ≤ 0x09)) ∧
        cd.statusEnquiryTimeout < statusEnquiryTimeoutMax then
      (s.modify i fun cd => { cd with statusEnquiryTimeout := cd.statusEnquiryTimeout + 1 })
        |>.cdSetState env i cd.state.pred
    else s
  else if (cd.state = .uaTo ∧ cd.callState = 0x0a) ∨
      (cd.state = .ucTo ∧ (cd.callState = 0x0b ∨ cd.callState = 0x0c)) then
    s.cdSetState env i cd.state.pred
  else s

/-- The B channel of a call that is put on hold is disconnected and given back; the link is still
wanted. -/
def leaveChannel (s : Cntl n) (i : Fin n) : Cntl n :=
  let s :=
    if (s.cd i).bLinkWantActive then
      (s.i4bLinkBchandrvr i false).modify i fun cd => { cd with bLinkWantActive := true }
    else s
  s.cdFreeChannel i

/-- The B channel is connected again. -/
def relink (s : Cntl n) (i : Fin n) : Cntl n :=
  if (s.cd i).bLinkWantActive then s.i4bLinkBchandrvr i true else s

/-- `case EV_L3_HOLD_IND`. -/
def onHoldInd (env : Env) (s : Cntl n) (i : Fin n) : Cntl n :=
  let cd := s.cd i
  if (cd.state = .ua ∨ cd.state = .uaTo ∨
        (State.u6.num ≤ cd.state.num ∧ cd.state.num ≤ State.u8.num)) ∧
      cd.callIsOnHold = false ∧ s.ntMode then
    ((((s.leaveChannel i).dss1L3TxHoldAcknowledge env i).tell i .hold)).modify i fun cd =>
      { cd with callIsOnHold := true }
  else s.dss1L3TxHoldReject env i causeMsgncmpt

/-- `case EV_L3_RETRIEVE_IND`. -/
def onRetrieveInd (env : Env) (s : Cntl n) (i : Fin n) : Cntl n :=
  if (s.cd i).callIsOnHold ∧ s.ntMode then
    let s := s.cdAllocateChannel env i
    if (s.cd i).channelAllocated then
      let s := (s.dss1L3TxRetrieveAcknowledge env i).tell i .retrieve
      (s.modify i fun cd => { cd with callIsOnHold := false }).relink i
    else s.dss1L3TxRetrieveReject env i causeNocavail
  else s.dss1L3TxRetrieveReject env i causeMsgncmpt

/-- `case EV_L3_HOLD_REQ`. -/
def onHoldReq (env : Env) (s : Cntl n) (i : Fin n) : Cntl n :=
  let cd := s.cd i
  if (cd.state = .ua ∨ cd.state = .uaTo ∨
        (State.u2Ack.num ≤ cd.state.num ∧ cd.state.num ≤ State.u4To.num)) ∧
      cd.callIsOnHold = false ∧ s.ntMode = false then
    ((s.leaveChannel i).dss1L3TxHold env i).modify i fun cd =>
      { cd with callIsOnHold := true, callIsRetrieving := false }
  else s

/-- `case EV_L3_RETRIEVE_REQ`. -/
def onRetrieveReq (env : Env) (s : Cntl n) (i : Fin n) : Cntl n :=
  if (s.cd i).callIsOnHold ∧ s.ntMode = false then
    (s.dss1L3TxRetrieve env i).modify i fun cd =>
      { cd with callIsOnHold := false, callIsRetrieving := true }
  else s

/-- `case EV_L3_RETRIEVE_ACK`. -/
def onRetrieveAck (env : Env) (s : Cntl n) (i : Fin n) : Cntl n :=
  if (s.cd i).callIsRetrieving ∧ s.ntMode = false then
    ((s.cdAllocateChannel env i).modify i fun cd => { cd with callIsRetrieving := false }).relink i
  else s

/-- `case EV_L3_INFORQ`. -/
def onInforq (env : Env) (s : Cntl n) (i : Fin n) : Cntl n :=
  let state := (s.cd i).state
  let s :=
    if s.ntMode = false ∨ s.pointToPoint ∨ state = .ua ∨ state = .uaTo then
      let s := s.modify i fun cd =>
        { cd with dstTelnoEarly := (cd.dstTelnoEarly ++ cd.dstTelnoPart).take (telnoMax - 1) }
      if state ≠ .u2 then
        (s.dss1L3TxInformation env i).modify i fun cd => { cd with dstTelnoEarly := [] }
      else s
    else s
  if state = .u2 ∨ state = .u2Ack then s.cdSetState env i state else s

/-- `case EV_L3_INFO`, and all events that have no case of their own. -/
def onInfo (env : Env) (s : Cntl n) (i : Fin n) : Cntl n :=
  if (s.cd i).dstTelnoPart ≠ [] then
    let s := if (s.cd i).state = .inAck then s.cdSetState env i .inAck else s
    s.tell i (.information (s.cd i).dstTelnoPart)
  else s

/-! ## Labels -/

/-- Label `no_channel_available`. -/
def noChannelAvailable (env : Env) (s : Cntl n) (i : Fin n) : Cntl n :=
  (s.modify i fun cd =>
      { cd with
        causeOut := causeNocavail
        needRelease := cd.needRelease || s.ntMode || s.pointToPoint })
    |>.cdSetState env i .u0

/-- Label `sms_release`. -/
def smsRelease (env : Env) (s : Cntl n) (i : Fin n) : Cntl n :=
  (s.modify i fun cd => { cd with causeOut := causeNoanswr, needRelease := true })
    |>.cdSetState env i .u0

/-- Label `event_connect_ack`. -/
def eventConnectAck (env : Env) (s : Cntl n) (i : Fin n) : Cntl n :=
  if (s.cd i).isSms then s.smsRelease env i
  else (s.cdSetState env i .ua).i4bL4ConnectActiveInd env i

/-! ## Events of outgoing calls -/

/-- A channel is allocated if the other end has named one. -/
def allocateNamed (env : Env) (s : Cntl n) (i : Fin n) : Cntl n :=
  if (s.cd i).channelId ≠ chanAny then s.cdAllocateChannel env i else s

/-- `case EV_L3_SETUPRQ`. -/
def onSetuprq (env : Env) (s : Cntl n) (i : Fin n) : Cntl n :=
  if (s.cd i).state = .outgoing then
    let s := if s.ntMode = false ∨ s.pointToPoint then s.dss1L3TxSetup env i else s
    (s.modify i fun cd => { cd with causeOut := 0, needRelease := true })
      |>.cdSetState env i (if (s.cd i).sendingComplete then .u1 else .u2)
  else s

/-- `case EV_L3_CALLPRC` and `case EV_L3_PROGIND`. -/
def onCallprc (env : Env) (s : Cntl n) (i : Fin n) : Cntl n :=
  let state := (s.cd i).state
  if State.outgoing.num < state.num ∧ state.num < State.u3.num then
    ((s.cdSetState env i .u3).allocateNamed env i).tell i (.proceeding true)
  else s

/-- `case EV_L3_SETUPAK`, which goes on with the next case. -/
def onSetupak (env : Env) (s : Cntl n) (i : Fin n) : Cntl n :=
  if (s.cd i).state = .u2 then
    ((s.cdSetState env i .u2Ack).allocateNamed env i).tell i (.proceeding false)
  else if (s.cd i).state = .u2Ack then s
  else s.onCallprc env i

/-- `case EV_L3_ALERT`. -/
def onAlert (env : Env) (s : Cntl n) (i : Fin n) : Cntl n :=
  let state := (s.cd i).state
  if State.outgoing.num < state.num ∧ state.num < State.u4.num then
    if (s.cd i).isSms then s.smsRelease env i
    else
      let s :=
        if state.num < State.u3.num then (s.allocateNamed env i).tell i (.proceeding true) else s
      (s.cdSetState env i .u4).tell i .alert
  else s

/-- The terminals of a bus that were not first are told so. -/
def releaseOthers (env : Env) (s : Cntl n) (i : Fin n) (p : Option PipeNo) : Cntl n :=
  if s.ntMode ∧ s.pointToPoint = false then
    let s := s.modify i fun cd => { cd with causeOut := causeNonseluc }
    (s.dss1L3TxReleaseCompleteComplement env i (s.cd i).pipe p).modify i fun cd =>
      { cd with causeOut := 0 }
  else s

/-- `case EV_L3_CONNECT`. -/
def onConnect (env : Env) (s : Cntl n) (i : Fin n) (p : Option PipeNo) : Cntl n :=
  let state := (s.cd i).state
  if State.outgoing.num < state.num ∧ state.num < State.ua.num then
    if (s.cd i).isSms then s.smsRelease env i
    else
      let named := (s.cd i).channelId ≠ chanAny
      let s := s.allocateNamed env i
      if named ∧ (s.cd i).channelAllocated then
        let s := (s.releaseOthers env i p).cdSetPipe env i p
        (s.dss1L3TxConnectAcknowledge env i).eventConnectAck env i
      else s.noChannelAvailable env i
  else s

/-! ## Events of incoming calls -/

/-- SETUP is answered, and the state set. -/
def answerSetup (env : Env) (s : Cntl n) (i : Fin n) (wantDialtone : Bool) : Cntl n :=
  if (s.cd i).sendingComplete then
    (s.dss1L3TxCallProceeding env i s.ntMode wantDialtone).cdSetState env i .u6
  else (s.dss1L3TxSetupAcknowledge env i s.ntMode wantDialtone).cdSetState env i .inAck

/-- The dialtone is connected. -/
def linkDialtone (s : Cntl n) (i : Fin n) (wantDialtone : Bool) : Cntl n :=
  if wantDialtone then
    (s.modify i fun cd => { cd with driverType := drvrDialGen, driverUnit := 0 })
      |>.i4bLinkBchandrvr i true
  else s

/-- The call is offered to applications; if there are none, it is released. -/
def offerCall (env : Env) (s : Cntl n) (i : Fin n) : Cntl n :=
  let s := s.i4bL4ConnectInd env i
  if (s.cd i).connectIndCount = 0 then s.smsRelease env i else s

/-- `case EV_L3_SETUP`. -/
def onSetup (env : Env) (s : Cntl n) (i : Fin n) : Cntl n :=
  let cd := s.cd i
  if cd.state = .incoming ∨ cd.state = .inAck then
    let wantDialtone := s.ntMode && !s.noLayer1Dialtone &&
      (cd.channelBprot == bprotNone || cd.channelBprot == bprotNone31Khz)
    let s := s.modify i fun cd =>
      { cd with needRelease := cd.needRelease || s.ntMode || s.pointToPoint }
    let s := s.cdAllocateChannel env i
    if (s.cd i).channelAllocated then
      ((s.answerSetup env i wantDialtone).linkDialtone i wantDialtone).offerCall env i
    else s.noChannelAvailable env i
  else s

/-- `case EV_L3_PROCEEDINGRQ`. -/
def onProceedingrq (env : Env) (s : Cntl n) (i : Fin n) : Cntl n :=
  let state := (s.cd i).state
  if State.incoming.num < state.num ∧ state.num < State.u6.num then
    (s.dss1L3TxCallProceeding env i s.ntMode false).cdSetState env i .u6
  else s

/-- CALL PROCEEDING is sent before any other message. -/
def proceedFirst (env : Env) (s : Cntl n) (i : Fin n) : Cntl n :=
  if (s.cd i).state.num < State.u6.num then s.dss1L3TxCallProceeding env i s.ntMode false else s

/-- `case EV_L3_ALERTRQ`. -/
def onAlertrq (env : Env) (s : Cntl n) (i : Fin n) : Cntl n :=
  let state := (s.cd i).state
  if State.incoming.num < state.num ∧ state.num < State.u7.num then
    if (s.cd i).isSms then s.smsRelease env i
    else ((s.proceedFirst env i).dss1L3TxAlert env i).cdSetState env i .u7
  else s

/-- `case EV_L3_PROGRESSRQ`. -/
def onProgressrq (env : Env) (s : Cntl n) (i : Fin n) : Cntl n :=
  let state := (s.cd i).state
  if State.incoming.num < state.num ∧ state.num < State.ua.num then s.dss1L3TxProgress env i else s

/-- `case EV_L3_SETACRS`. -/
def onSetacrs (env : Env) (s : Cntl n) (i : Fin n) : Cntl n :=
  let state := (s.cd i).state
  if State.incoming.num < state.num ∧ state.num < State.u8.num then
    if (s.cd i).isSms then s.smsRelease env i
    else
      let s := (s.proceedFirst env i).dss1L3TxConnect env i s.ntMode
      let s := s.modify i fun cd => { cd with causeOut := 0, needRelease := true }
      let s := s.cdSetState env i .u8
      if s.ntMode then s.eventConnectAck env i else s
  else s

/-- `cd_update`; what is not of the direction of the call is not done. -/
def cdUpdate (env : Env) (s : Cntl n) (i : Fin n) (p : Option PipeNo) (e : Event) : Cntl n :=
  let cd := s.cd i
  if (if cd.dirIncoming then e.isLocalIncoming else e.isLocalOutgoing) = false then s
  else
    match e with
    | .setrjrs => (s.modify i fun cd => { cd with needRelease := true }).cdSetState env i .u0
    | .disconnect =>
      if cd.state ≠ .uc ∧ cd.state ≠ .ucTo then
        (s.tell i (.preDisconnect cd.causeIn)).cdSetState env i .uc
      else s
    | .release => s.cdSetState env i .u0
    | .statenq => s.dss1L3TxStatus env i causeStenqrsp
    | .status => s.onStatus env i
    | .holdInd => s.onHoldInd env i
    | .retrieveInd => s.onRetrieveInd env i
    | .holdReq => s.onHoldReq env i
    | .retrieveReq => s.onRetrieveReq env i
    | .retrieveAck => s.onRetrieveAck env i
    | .setuprq => s.onSetuprq env i
    | .inforq => s.onInforq env i
    | .setupak => s.onSetupak env i
    | .callprc => s.onCallprc env i
    | .progind => s.onCallprc env i
    | .alert => s.onAlert env i
    | .connect => s.onConnect env i p
    | .setup => s.onSetup env i
    | .info => s.onInfo env i
    | .facility => s.onInfo env i
    | .restartInd => s.onInfo env i
    | .restartAck => s.onInfo env i
    | .proceedingrq => s.onProceedingrq env i
    | .alertrq => s.onAlertrq env i
    | .progressrq => s.onProgressrq env i
    | .setacrs => s.onSetacrs env i
    | .conack => if cd.state = .u8 then s.eventConnectAck env i else s
    | .deflectrq => if s.ntMode then s else s.dss1L3TxDeflectCall env i
    | .mcidrq => if s.ntMode then s else s.dss1L3TxMcidCall env i
    | .ill => s

end Cntl
end L3
end Isdn4bsd
