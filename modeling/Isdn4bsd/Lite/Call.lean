import Isdn4bsd.Lite.Types

/-!
# Calls in the small DSS1 stack

The rest of `dss1_lite.c`: the states of a call, the messages of the exchange and the requests of the
telephone.

* `Lite.setState` : `dss1_lite_set_state`, which decides what a call may do next.
* `Lite.allocCd`, `Lite.allocChannel`, `Lite.freeChannel` : the descriptors and the channels.
* `Lite.decodeMbuf` : a frame of the exchange.
* `Lite.process` : the poll function that receives, supervises and transmits.

## States

The two directions of a call have tables of their own, and a state is an index into one of them; which one
is the highest bit of the index.  Each state has two places in its table, and the lowest bit is used by the
supervision, that goes on from the first one to the second one and then to the next state.  A state that is
not behind the one a call is in is refused by `setState`, so all functions ask for a state first,
and send a message only if they got it.

## A frame

`decodeMbuf` has the labels of `dss1_lite_decode_mbuf` as functions: `sequence` is for an I-frame with the number that
is expected, `iFrame` is the part for layer 3, and `checkNr` is what is done with `N(R)`.  The header of layer 3 is
looked at before the sequence numbers, so whether an I-frame is expected is asked only if it looks like a message.

What a message says about its call is picked up element by element, in the order of the message, and an
element that comes twice overwrites the first one.

## One poll

`process` is called again and again by the telephone.  It takes the frames that were received, one after
the other, looks at the timeout of the first descriptor, moves the window and transmits what is in it, and
last it hands everything that waits to the device.  There is no other place at which time goes on
for a call.
-/

set_option autoImplicit false

namespace Isdn4bsd
namespace Dss1Lite

/-! ## Information elements -/

/-- The loop of `dss1_lite_find_ie_mbuf`; every turn moves forward, and behind the end everything
reads as zero. -/
def findIe (m : Mbuf) (ie : Nat) : Nat → Nat → Nat
  | 0, _ => 0
  | fuel + 1, offset =>
    let temp := peekMbuf m offset
    if temp = 0 then 0
    else if temp = ie then offset
    else if 0x80 ≤ temp then findIe m ie fuel (offset + 1)
    else findIe m ie fuel (offset + 1 + peekMbuf m (offset + 1) + 1)

/-- `dss1_lite_find_ie_mbuf` -/
def findIeMbuf (m : Mbuf) (offset : Nat) (ie : Nat) : Nat := findIe m ie (m.length + 1) offset

/-- `dss1_lite_decode_channel_id`. No driver of the repository changes the number of a time slot in
`CMR_DECODE_CHANNEL`. -/
def decodeChannelId (isNtMode : Bool) (m : Mbuf) (offset : Nat) (cd : CallDesc) : CallDesc :=
  if cd.channelAllocated then cd
  else
    let temp := peekMbuf m (offset + 2)
    let exclusive := temp / 8 % 2 = 1 ∨ !isNtMode
    let iid := if temp / 0x40 % 2 = 1 then 1 else 0
    if temp / 4 % 2 = 1 then
      if exclusive then { cd with channelId := chanD1 } else cd
    else if temp / 0x20 % 2 = 1 then
      -- primary rate
      match temp % 4 with
      | 0 => { cd with channelId := chanNotAny }
      | 1 =>
        if peekMbuf m (offset + iid + 3) &&& 0x2F = 0x03 ∧ exclusive then
          { cd with channelId := (peekMbuf m (offset + iid + 4) % 0x80 : Nat) }
        else cd
      | 3 => { cd with channelId := chanAny }
      | _ => cd
    else
      -- basic rate
      match temp % 4 with
      | 0 => { cd with channelId := chanNotAny }
      | 3 => { cd with channelId := chanAny }
      | 1 => if exclusive then { cd with channelId := chanB1 } else cd
      | _ => if exclusive then { cd with channelId := chanB2 } else cd

/-- `dss1_lite_decode_bearer_cap` -/
def decodeBearerCap (m : Mbuf) (offset : Nat) (cd : CallDesc) : CallDesc :=
  if !cd.isIncoming then cd
  else
    { cd with
      channelBprot := if peekMbuf m (offset + 2) = 0x88 then .rhdlc else .none
      channelBsubprot :=
        if peekMbuf m (offset + 4) % 0x20 = 0x02 then .ulaw
        else if peekMbuf m (offset + 4) % 0x20 = 0x03 then .alaw
        else .unknown }

/-- The characters `dss1_lite_string_filter` lets pass. -/
def allowed (c : Nat) : Bool :=
  (0x61 ≤ c && c ≤ 0x7A) || (0x41 ≤ c && c ≤ 0x5A) || (0x30 ≤ c && c ≤ 0x39) || c == 0x2A
    || c == 0x23

/-- `sizeof(cd->dl_part.telno) - 1` -/
def telnoMax : Nat := 62

/-- `dss1_lite_decode_called_party` -/
def decodeCalledParty (m : Mbuf) (offset : Nat) (cd : CallDesc) : CallDesc :=
  let len := min (peekMbuf m (offset + 1) - 1) telnoMax
  { cd with
    telno := (List.range len).map fun i =>
      let temp := peekMbuf m (offset + 3 + i)
      if allowed temp then UInt8.ofNat temp else 0x5F }

/-- `decode_mbuf` tries to pick up what a message says about its call. -/
def pickup (isNtMode : Bool) (m : Mbuf) (cd : CallDesc) : CallDesc :=
  let cd := if findIeMbuf m 8 0xa1 ≠ 0 then { cd with sendingComplete := true } else cd
  let offset := findIeMbuf m 8 0x18
  let cd := if offset ≠ 0 then decodeChannelId isNtMode m offset cd else cd
  let offset := findIeMbuf m 8 0x04
  let cd := if offset ≠ 0 then decodeBearerCap m offset cd else cd
  let offset := findIeMbuf m 8 0x70
  if offset ≠ 0 then decodeCalledParty m offset cd else { cd with telno := [] }

/-- A descriptor in a new state, with the entry of the tables and its timeout. -/
def CallDesc.entered (cd : CallDesc) (ticks hz : Int) (state : Nat) : CallDesc :=
  let nst := stateEntry state
  { cd with
    pstate := some nst
    stateIndex := state
    timeoutActive := decide (nst.timeout ≠ 0)
    timeoutTick := if nst.timeout ≠ 0 then ticks + nst.timeout * hz else 0 }

/-- A descriptor whose call is over. -/
def CallDesc.over (cd : CallDesc) : CallDesc :=
  { cd with pstate := none, stateIndex := stFree, timeoutActive := false, timeoutTick := 0 }

namespace Lite

/-! ## Channels -/

/-- Mark a channel in `dl_channel_util`. -/
def setUtil (s : Lite) (id : Nat) (b : Bool) : Lite :=
  { s with channelUtil := Function.update s.channelUtil id b }

/-- `dss1_lite_free_channel` -/
def freeChannel (s : Lite) (i : Nat) : Lite :=
  let cd := s.cd i
  if cd.channelAllocated then
    let s := s.modify i fun cd => { cd with channelAllocated := false }
    if 0 ≤ cd.channelId ∧ cd.channelId < dlNchan then s.setUtil cd.channelId.toNat false else s
  else s

/-- The `found` exit of `dss1_lite_alloc_channel`. -/
def takeChannel (s : Lite) (i : Nat) (id : Nat) : Lite :=
  (s.setUtil id true).modify i fun cd => { cd with channelAllocated := true, channelId := (id : Int) }

/-- `dss1_lite_alloc_channel` -/
def allocChannel (s : Lite) (i : Nat) : Lite :=
  let cd := s.cd i
  if cd.channelAllocated then s
  else if 0 ≤ cd.channelId ∧ cd.channelId < dlNchan then
    if !s.channelUtil cd.channelId.toNat then s.takeChannel i cd.channelId.toNat
    else s.modify i fun cd => { cd with channelId := chanAny }
  else if cd.channelId = chanNotAny then
    s.modify i fun cd => { cd with channelAllocated := true }
  else if !s.channelUtil 1 then s.takeChannel i 1
  else if !s.channelUtil 2 then s.takeChannel i 2
  else s.modify i fun cd => { cd with channelId := chanAny }

/-! ## States -/

/-- The state is valid: the descriptor takes it, and some states are checked. -/
def enter (s : Lite) (i : Nat) (state : Nat) : Lite :=
  let s := s.modify i fun cd => cd.entered s.ticks s.hz state
  if (s.cd i).hasStatusCheck then (s.sendStatusEnquiry i).1 else s

/-- The call is complete. -/
def complete (s : Lite) (i : Nat) : Lite :=
  let s := s.modify i CallDesc.over
  let s := if (s.cd i).needRelease then (s.sendReleaseComplete i true).1 else s
  let s := if s.active = some i then { s with active := none } else s
  s.freeChannel i

/-- `dss1_lite_set_state` -/
def setState (s : Lite) (i : Nat) (state : Nat) : Lite × Bool :=
  let cd := s.cd i
  if state = stFree then
    if !cd.hasCall then (s, false) else (s.complete i, true)
  else if inMax ≤ state then (s, false)
  else if inU0 ≤ state then
    -- the direction stays, and the state cannot go backwards except for timeout
    if cd.hasCall ∧ (!cd.isIncoming ∨ state - state % 2 < cd.getState) then (s, false)
    else (s.enter i state, true)
  else if outMax ≤ state then (s, false)
  else
    if cd.hasCall ∧ (cd.isIncoming ∨ state - state % 2 < cd.getState) then (s, false)
    else (s.enter i state, true)

/-- `dss1_lite_receive_status` -/
def receiveStatus (s : Lite) (i : Nat) (state : Nat) : Lite :=
  let cd := s.cd i
  let next := cd.getState
  if !cd.hasStatusCheck then s
  else if next = outUA ∨ next = inUA then
    if state = 0x0A then (s.setState i next).1 else s
  else if next = outUC ∨ next = inUC then
    if state = 0x0B ∨ state = 0x0C then (s.setState i next).1 else s
  else if (state = 0x19 ∨ 0x01 ≤ state ∧ state ≤ 0x09) ∧ cd.statusCount < statusCountMax then
    ((s.modify i fun cd => { cd with statusCount := cd.statusCount + 1 }).setState i next).1
  else s

/-! ## Descriptors -/

/-- `dss1_lite_find_cd` -/
def findCd (s : Lite) (crval : Nat) : Option Nat :=
  (List.range dlNcall).find? fun i => (s.cd i).hasCall && (s.cd i).currCallref == crval

/-- The descriptor of a new call, after the `memset`. -/
def freshCd (crval : Nat) : CallDesc :=
  { CallDesc.zero with channelId := chanAny, channelBsubprot := .alaw, currCallref := crval }

/-- A descriptor is set up for a new call, which becomes the active one. -/
def initCd (s : Lite) (i : Nat) (isIncoming : Bool) (crval : Nat) : Lite :=
  let crval := if isIncoming then crval else s.nextCallref ||| 1
  let next := if isIncoming then s.nextCallref else (s.nextCallref + 0x10) % 0x80
  let s := { s with nextCallref := next, calls := s.calls + 1 }
  let s := s.modify i fun _ => freshCd crval
  let s := (s.setState i (if isIncoming then inU0 else outU2)).1
  if s.active.isNone then { s with active := some i } else s

/-- `dss1_lite_alloc_cd` -/
def allocCd (s : Lite) (isIncoming : Bool) (crval : Nat) : Option (Nat × Lite) :=
  if s.active.isSome then none
  else
    match (List.range dlNcall).find? fun i => !(s.cd i).hasCall with
    | none => none
    | some i => some (i, s.initCd i isIncoming crval)

/-! ## Requests of the telephone -/

/-- `dss1_lite_proceed_request` -/
def proceedRequest (s : Lite) (i : Nat) : Lite :=
  if (s.cd i).getState ≠ inU6 then
    let r := s.setState i inU6
    if r.2 then (r.1.sendCallProceeding i).1 else r.1
  else s

/-- `dss1_lite_alert_request` -/
def alertRequest (s : Lite) (i : Nat) : Lite :=
  let s := s.proceedRequest i
  if (s.cd i).getState ≠ inU7 then
    let r := s.setState i inU7
    if r.2 then (r.1.sendAlert i).1 else r.1
  else s

/-- `dss1_lite_setup_accept_resp` -/
def setupAcceptResp (s : Lite) (i : Nat) : Lite :=
  let s := s.proceedRequest i
  if (s.cd i).getState ≠ inU8 then
    let r := s.setState i inU8
    if r.2 then
      let s := (r.1.sendConnect i).1
      let s := s.modify i fun cd => { cd with causeOut := 0, needRelease := true }
      -- some terminals might not respond with CONNECT ACKNOWLEDGE
      if s.isNtMode then (s.setState i inUA).1 else s
    else r.1
  else s

/-- `dss1_lite_deflect_request` -/
def deflectRequest (s : Lite) : Lite :=
  if s.isNtMode then s
  else
    match s.active with
    | none => s
    | some i => (s.sendDeflectCall i).1

/-- `dss1_lite_mcid_request` -/
def mcidRequest (s : Lite) : Lite :=
  if s.isNtMode then s
  else
    match s.active with
    | none => s
    | some i => (s.sendMcidCall i).1

/-- `dss1_lite_disconnect_request` -/
def disconnectRequest (s : Lite) : Lite :=
  if s.isNtMode then s
  else
    match s.active with
    | none => s
    | some i =>
      let s := s.proceedRequest i
      let state := if (s.cd i).isIncoming then inUC else outUC
      if (s.cd i).getState ≠ state then
        let r := s.setState i state
        if r.2 then (r.1.sendDisconnect i).1 else r.1
      else s

/-- `dss1_lite_ring_event` -/
def ringEvent (s : Lite) (ison : Bool) : Lite :=
  if !s.isNtMode then s
  else
    match s.active with
    | none =>
      if !ison then s
      else
        match s.allocCd false 0 with
        | none => s
        | some (i, s) =>
          let s := s.allocChannel i
          if !(s.cd i).channelAllocated then (s.setState i stFree).1
          else (s.sendSetup i true).1.modify i fun cd => { cd with needRelease := true }
    | some i =>
      if ison then s
      else ((s.modify i fun cd => { cd with causeOut := 0x1f }).setState i stFree).1

/-- `dss1_lite_hook_off` -/
def hookOff (s : Lite) : Lite :=
  if s.isNtMode then s
  else
    let s := { s with isHookOff := true }
    match s.active with
    | none =>
      match s.allocCd false 0 with
      | none => s
      | some (i, s) => (s.sendSetup i false).1.modify i fun cd => { cd with needRelease := true }
    | some i => s.setupAcceptResp i

/-- `dss1_lite_hook_on` -/
def hookOn (s : Lite) : Lite :=
  if s.isNtMode then s
  else
    let s := { s with isHookOff := false }
    match s.active with
    | none => s
    | some i => ((s.modify i fun cd => { cd with causeOut := 0x1f }).setState i stFree).1

/-- `dss1_lite_dtmf_event` -/
def dtmfEvent (s : Lite) (pdtmf : List UInt8) : Lite :=
  if s.isNtMode then s
  else
    match s.active with
    | none => s
    | some i =>
      if (s.cd i).getState = outU2 then
        ((s.modify i fun cd => { cd with telno := pdtmf.take telnoMax }).sendInformation i).1
      else s

/-! ## Messages of the exchange -/

/-- A channel is tried for before a proceeding indication. -/
def tryChannel (s : Lite) (i : Nat) : Lite :=
  if (s.cd i).channelId ≠ chanAny then s.allocChannel i else s

/-- ALERT -/
def receiveAlert (s : Lite) (i : Nat) : Lite :=
  let temp := decide ((s.cd i).getState < outU3)
  let r := s.setState i outU4
  if r.2 && temp then r.1.tryChannel i else r.1

/-- CALL PROCEEDING -/
def receiveProceeding (s : Lite) (i : Nat) : Lite :=
  let r := s.setState i outU3
  if r.2 then r.1.tryChannel i else r.1

/-- SETUP ACKNOWLEDGE, which is a CALL PROCEEDING after the first one. -/
def receiveSetupAcknowledge (s : Lite) (i : Nat) : Lite :=
  if (s.cd i).getState = outU2 then
    if (s.cd i).getTimeout = 0 then
      let r := s.setState i outU2Ack
      if r.2 then r.1.tryChannel i else r.1
    else s
  else s.receiveProceeding i

/-- No circuit-channel is available. -/
def noChannelAvailable (s : Lite) (i : Nat) : Lite :=
  ((s.modify i fun cd => { cd with causeOut := 0x22 }).setState i stFree).1

/-- SETUP -/
def receiveSetup (s : Lite) (i : Nat) : Lite :=
  let s := s.modify i fun cd => { cd with needRelease := true }
  let s := s.allocChannel i
  if !(s.cd i).channelAllocated then s.noChannelAvailable i
  else if !s.isNtMode then s.alertRequest i
  else if (s.cd i).sendingComplete then s.setupAcceptResp i
  else ((s.modify i fun cd => { cd with causeOut := 0x1f }).setState i stFree).1

/-- CONNECT -/
def receiveConnect (s : Lite) (i : Nat) : Lite :=
  if (s.cd i).getState ≠ outUA then
    let r := s.setState i outUA
    if r.2 then
      let s := r.1
      if (s.cd i).channelId ≠ chanAny then
        let s := s.allocChannel i
        if (s.cd i).channelAllocated then (s.sendConnectAcknowledge i).1
        else s.noChannelAvailable i
      -- if one end does not select a channel, the other must
      else s.noChannelAvailable i
    else r.1
  else s

/-- CONNECT ACKNOWLEDGE -/
def receiveConnectAcknowledge (s : Lite) (i : Nat) : Lite :=
  if (s.cd i).getState = inU8 then (s.setState i inUA).1 else s

/-- DISCONNECT -/
def receiveDisconnect (s : Lite) (i : Nat) : Lite :=
  let state := if (s.cd i).isIncoming then inUC else outUC
  if (s.cd i).getState ≠ state then (s.setState i state).1 else s

/-- RELEASE -/
def receiveRelease (s : Lite) (i : Nat) : Lite :=
  ((s.modify i fun cd => { cd with causeOut := 0x1f }).setState i stFree).1

/-- RELEASE COMPLETE -/
def receiveReleaseComplete (s : Lite) (i : Nat) : Lite :=
  ((s.modify i fun cd => { cd with needRelease := false }).setState i stFree).1

/-- INFORMATION -/
def receiveInformation (s : Lite) (i : Nat) : Lite :=
  if (s.cd i).getState = inU0 then (s.setState i inU0Ack).1 else s

/-- The `switch` over the message type. -/
def receiveEvent (s : Lite) (i : Nat) (m : Mbuf) (event : Nat) : Lite :=
  match event with
  | 0x01 => s.receiveAlert i
  | 0x02 => s.receiveProceeding i
  | 0x05 => s.receiveSetup i
  | 0x07 => s.receiveConnect i
  | 0x0d => s.receiveSetupAcknowledge i
  | 0x0f => s.receiveConnectAcknowledge i
  | 0x45 => s.receiveDisconnect i
  | 0x4d => s.receiveRelease i
  | 0x5a => s.receiveReleaseComplete i
  | 0x75 => (s.sendStatus i 0x1e).1
  | 0x7b => s.receiveInformation i
  | 0x7d =>
    let offset := findIeMbuf m 8 0x14
    if offset ≠ 0 then s.receiveStatus i (peekMbuf m (offset + 2) % 0x40) else s
  | _ => s

/-- The descriptor of a message: a new one for a SETUP of the originating side, else that of its call
reference. -/
def callOf (s : Lite) (callref event : Nat) : Option (Nat × Lite) :=
  if event = 0x05 then
    if callref / 0x80 % 2 = 0 then none
    else if callref % 0x80 = 0 then none
    else s.allocCd true callref
  else (s.findCd callref).map fun i => (i, s)

/-- The label `i_frame`: layer 3 of a frame. -/
def iFrame (s : Lite) (m : Mbuf) : Lite :=
  let callref := peekMbuf m 6 ^^^ 0x80
  let event := peekMbuf m 7
  match s.callOf callref event with
  | none => s
  | some (i, s) => (s.modify i (pickup s.isNtMode m)).receiveEvent i m event

end Lite

/-! ## The link -/

namespace Link

/-- Free the frame the peer has got next. -/
def freeOne (l : Link) : Link :=
  { l with
    txMbuf := Function.update l.txMbuf (l.txIn % dlQueueMax) none
    txIn := (l.txIn + 1) % 256
    freed := l.freed + 1 }

/-- `N(R)` of a frame: what it acknowledges is freed, and what the window does not hold makes
everything be sent again. -/
def acknowledge (l : Link) (txNr : Nat) : Link :=
  let temp := txNr - txNr % 2
  let diff := (temp + 256 - l.txNum) % 256 / 2
  let l := { l with txNum := temp }
  if diff = 0 then l
  else if l.txWindow < diff then { l with txWindow := 0 }
  else freeOne^[diff] { l with txWindow := l.txWindow - diff }

/-- `V(R)` moves past an I-frame. -/
def advance (l : Link) : Link := { l with rxNum := (l.rxNum + 2) % 256 }

/-- The window is as large as what is transmitted. -/
def setWindow (l : Link) (delta : Nat) : Link := { l with txWindow := delta }

/-- The I-frame in a slot of the queue, as it is transmitted. -/
def header (l : Link) (m : Mbuf) (n delta : Nat) : Mbuf :=
  let rxNum := if n + 1 = delta then l.rxNum ||| 1 else l.rxNum
  let m := pokeMbuf m 0 0x00
  let m := pokeMbuf m 1 dlTei
  let m := pokeMbuf m 2 ((l.txNum + 2 * n) % 256)
  pokeMbuf m 3 rxNum

end Link

namespace Lite

/-- `N(R)` of a frame, at the label `check_nr`; the loop of the freed frames leaves `0xFF` in the
variable the last test reads. -/
def checkNr (s : Lite) (sapi cntl txNr : Nat) : Lite :=
  let diff := (txNr - txNr % 2 + 256 - s.link.txNum) % 256 / 2
  let last := if diff = 0 then 0 else if s.link.txWindow < diff then diff else 0xFF
  let s := s.setLink (s.link.acknowledge txNr)
  if sapi / 2 % 2 = 0 ∧ cntl % 2 = 1 ∧ last % 2 = 1 then (s.sendCtrl 0x02 0x01).1 else s

/-- `V(R)` moves past an I-frame, and the frame is answered. -/
def sequence (s : Lite) (txNr : Nat) : Lite :=
  let s := s.setLink s.link.advance
  if txNr % 2 = 1 then (s.sendCtrl 0x02 0x01).1
  else if s.link.txIn = s.link.txOut then (s.sendCtrl 0x00 0x01).1
  else s

/-- `dss1_lite_decode_mbuf` -/
def decodeMbuf (s : Lite) (m : Mbuf) : Lite :=
  let sapi := peekMbuf m 0
  let tei := peekMbuf m 1
  let cntl := peekMbuf m 2
  let txNr := peekMbuf m 3
  if sapi &&& 0xFC ≠ 0 then s
  else if tei ≠ dlTei then s
  else
    -- the CR-bit is inverse
    let sapi := if s.isNtMode then sapi else sapi ^^^ 0x02
    if cntl % 2 = 1 then
      if cntl / 2 % 2 = 0 then s.checkNr sapi cntl txNr else s
    else if peekMbuf m 4 ≠ 0x08 then s
    else if peekMbuf m 5 ≠ 1 then s
    else if s.link.rxNum = cntl then ((s.sequence txNr).iFrame m).checkNr sapi cntl txNr
    else (s.sendCtrl 0 0x09).1.checkNr sapi cntl txNr

/-! ## The poll function -/

/-- `dss1_lite_check_timeout` -/
def checkTimeout (s : Lite) (i : Nat) : Lite :=
  let cd := s.cd i
  let delta := cd.timeoutTick - s.ticks
  match cd.timeoutActive, cd.pstate with
  | true, some e => if delta < 0 ∨ 128 * s.hz < delta then (s.setState i e.nextState).1 else s
  | _, _ => s

/-- The loop of `dss1_lite_process`: copies of the frames `n, ..., delta - 1` of the queue go out, and
`m_dup` may find no memory for some. -/
def transmit (s : Lite) (delta : Nat) : Nat → Nat → Lite
  | 0, _ => s
  | rest + 1, n =>
    match s.link.txMbuf ((s.link.txIn + n) % dlQueueMax) with
    | none => transmit s delta rest (n + 1)
    | some m =>
      let r := s.getmbuf
      if r.1 then
        let q := r.2.link.queueMbuf s.isNtMode (s.link.header m n delta)
        if q.2 then transmit (r.2.setLink q.1) delta rest (n + 1) else r.2.setLink q.1
      else transmit r.2 delta rest (n + 1)

/-- `DL_BPS_MAX` -/
def bpsMax : Int := 512

/-- `dss1_lite_peer_put_mbuf`: everything in `dl_outq` goes to the device, and takes some time. -/
def peerPutMbuf (s : Lite) : Lite × List Mbuf :=
  let len : Nat := (s.link.outq.map List.length).sum
  let delta := min (max ((len * s.hz) / bpsMax) 0) (8 * s.hz)
  (s.setLink { s.link with outq := [], txEndTick := s.ticks + delta }, s.link.outq)

/-- `WIN_MAX` -/
def winMax : Nat := dlQueueMax / 2

/-- `dss1_lite_process`, for the frames `rx` the device has received. What is returned are the frames
for the device. -/
def process (s : Lite) (rx : List Mbuf) : Lite × List Mbuf :=
  if !s.enabled then (s, [])
  else
    -- simulate another hook off
    let s := if s.active.isNone ∧ s.isHookOff then s.hookOff else s
    let s := rx.foldl decodeMbuf s
    let s := s.checkTimeout 0
    let left := s.link.txEndTick - s.ticks
    if 0 ≤ left ∧ left < 128 * s.hz then (s, [])
    else
      let delta := min s.link.inQueue winMax
      ((s.setLink (s.link.setWindow delta)).transmit delta delta 0).peerPutMbuf

/-- `dss1_lite_l1_setup` of the D channel: the queues are emptied and the mode is taken from the
options. -/
def setup (s : Lite) (enabled isNtMode : Bool) : Lite :=
  { s with
    enabled := enabled
    isNtMode := isNtMode
    link :=
      { s.link with
        txEndTick := s.ticks - 1
        txMbuf := fun _ => none
        outq := []
        txIn := s.link.txOut
        txWindow := 0 } }

/-- The stack after `dss1_lite_attach`, in surroundings that may be any. -/
def attached (noLayer1Dialtone : Bool) (ticks hz : Int) (mem : Nat → Bool) : Lite where
  cd := fun _ => CallDesc.zero
  active := none
  channelUtil := fun _ => false
  nextCallref := 0
  isHookOff := false
  link := Link.zero
  isNtMode := false
  enabled := false
  noLayer1Dialtone := noLayer1Dialtone
  ticks := ticks
  hz := hz
  mem := mem
  calls := 0

end Lite

end Dss1Lite
end Isdn4bsd
