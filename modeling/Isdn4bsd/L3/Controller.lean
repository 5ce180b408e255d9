import Isdn4bsd.L3.Fsm

/-!
# Layer 3: the controller

Everything that can happen to a controller, as one function `step`: messages from layer 2
(`dss1_pipe_data_ind`), pipes that pause, timers, requests of applications through `/dev/i4b`
(`i4b_ioctl`) and through CAPI (`capi_write`), and the attachment of the D channel
(`dss1_setup_ft`).  Each of these holds the lock of the controller from start to end, which is why a run is
a sequence of actions and nothing happens in the middle of one.

## What is here

* `i4bAllocateCd`, `nAllocateCd`: a descriptor for a call.  `getCdidLoop` is the `goto` loop that looks for
  an id; it goes through the values twice at most, so it has that many rounds.
* `dss1PipeDataInd`: a message is read into the descriptor of its call (`readMessage`) and becomes an event
  (`receive`), or it belongs to no call and is answered (`receiveUnknown`).
* The requests `n_*`, and `i4bCommand` and `capiCommand`, which check whose call it is before they make one.
* `step`, `run`, `boot` and `Reach`, the states that a controller can be in.

## The surroundings

Layer 2 is present by what it does to layer 3: it may hand up a message on a pipe that
`lookupPipe` of `dss1_l2_put_mbuf` can give (see `Delivers`), activate a pipe, or let one pause.  `Enabled`
says what else the surroundings keep to: a timer expires only if it runs, and a controller is attached only
if it is not.  Beyond that, any action may come at any time, with any message and any request.

There is no state after a panic: `step` has no result then.  So what is proved of all reachable states is
proved of those before the panic, and that there is none is a result of its own
(`Isdn4bsd.L3.Causes`).
-/

set_option autoImplicit false

namespace Isdn4bsd
namespace L3

open L2 (PipeNo adapter)

namespace Cntl

variable {n : Nat}

/-! ## Allocating a call descriptor -/

/-- The `goto` loop of `get_cdid`, with that many rounds left: the new id and `N_cdid_count`.  The
flag is `timeout`. -/
def getCdidLoop (s : Cntl n) : Nat → Bool → Nat → Option (Nat × Nat)
  | 0, _, _ => none
  | fuel + 1, timeout, count =>
    let count := (count + 1) % 2 ^ 32
    let outside := decide (count = 0 ∨ s.cdidEnd ≤ count)
    if outside ∧ timeout = false then some (cdidUnused, count)
    else
      let count := if outside then 1 else count
      let cdid := makeCdid s.unit count
      if ∃ i, (s.cd i).cdid = cdid then getCdidLoop s fuel (timeout && !outside) count
      else some (cdid, count)

/-- `get_cdid`.  The values are gone through twice at most. -/
def getCdid (s : Cntl n) : Nat × Cntl n :=
  let s := { s with cdidEnd := min s.cdidEnd cdidRefMax }
  match s.getCdidLoop (2 * s.cdidEnd + 2) true s.cdidCount with
  | some r => (r.1, { s with cdidCount := r.2 })
  | none => (cdidUnused, s)

/-- `i4b_allocate_cd`. -/
def i4bAllocateCd (s : Cntl n) : Option (Fin n) × Cntl n :=
  match (List.finRange n).find? fun i => (s.cd i).cdid = cdidUnused with
  | none => (none, s)
  | some i =>
    let r := (s.modify i fun _ => {}).getCdid
    let s := r.2.modify i fun cd => { cd with cdid := r.1 }
    (if r.1 = cdidUnused then none else some i, s)

/-- The variables `n_allocate_cd` sets; there is a pipe for an incoming call. -/
def setupCall (s : Cntl n) (i : Fin n) (p : Option PipeNo) (crval : Nat) (aiType : AiType)
    (aiPtr : Nat) : Cntl n :=
  s.modify i fun cd =>
    { cd with
      dirIncoming := p.isSome
      channelId := chanAny
      channelBprot := bprotNone
      cr := if p.isSome then crval else cdid2Callreference cd.cdid
      dstTelnoPtr := 0
      aiType := aiType
      aiPtr := aiPtr }

/-- `n_allocate_cd`. -/
def nAllocateCd (env : Env) (s : Cntl n) (p : Option PipeNo) (crval : Nat) (aiType : AiType)
    (aiPtr : Nat) : Option (Fin n) × Cntl n :=
  match s.i4bAllocateCd with
  | (none, s) => (none, s)
  | (some i, s) =>
    let s := (s.setupCall i p crval aiType aiPtr).cdSetPipe env i (some (p.getD adapter))
    (some i, s.cdSetState env i (if p.isSome then .incoming else .outgoing))

/-! ## Indications from layer 2 -/

/-- `cd_by_cdid`. -/
def cdByCdid (s : Cntl n) (cdid : Nat) : Option (Fin n) :=
  if cdid = cdidUnused then none else (List.finRange n).find? fun i => (s.cd i).cdid = cdid

/-- The test of `cd_by_unitcr`: the call is on the pipe or on the adapter. -/
def Matches (s : Cntl n) (p : PipeNo) (cr : Nat) (i : Fin n) : Prop :=
  (s.cd i).cdid ≠ cdidUnused ∧ (s.cd i).cr = cr ∧
    ((s.cd i).pipe = some adapter ∨ (s.cd i).pipe = some p)

instance (s : Cntl n) (p : PipeNo) (cr : Nat) (i : Fin n) : Decidable (s.Matches p cr i) :=
  inferInstanceAs (Decidable (_ ∧ _))

/-- `cd_by_unitcr`. -/
def cdByUnitcr (s : Cntl n) (p : PipeNo) (cr : Nat) : Option (Fin n) :=
  (List.finRange n).find? fun i => s.Matches p cr i

/-- One round of `dss1_pipe_reset_ind`. -/
def resetCall (env : Env) (p : PipeNo) (s : Cntl n) (i : Fin n) : Cntl n :=
  if (s.cd i).cdid ≠ cdidUnused ∧ (s.cd i).pipe = some p then s.cdUpdate env i none .release else s

/-- `dss1_pipe_reset_ind`. -/
def dss1PipeResetInd (env : Env) (s : Cntl n) (p : PipeNo) : Cntl n :=
  (List.finRange n).foldl (resetCall env p) s

/-- What a message that belongs to a call changes before the call is updated. -/
def readMessage (env : Env) (s : Cntl n) (i : Fin n) (event : Event) (elements : Buf) : Cntl n :=
  s.modify i fun cd =>
    let cd := if event = .connect then { cd with idateTimeLen := 0 } else cd
    let cd := if event = .setup then { cd with dstTelnoPtr := 0 } else cd
    let cd := { cd with dstTelnoPart := [], peerResponded := true }
    dss1DecodeIe (dss1DecodeQ931Cs0IeCd env s.ntMode) cd elements

/-- The event that a message stands for: the call is hung up immediately, unless in-band
information is wanted. -/
def eventFor (cd : CallDesc) (event : Event) : Event :=
  if event = .disconnect ∧ cd.wantLateInband = false then .release else event

/-- The events that are ignored on a bus: other terminals may still answer, and DISCONNECT is not
used. -/
def ignored (s : Cntl n) (i : Fin n) (event : Event) : Prop :=
  s.ntMode = true ∧ s.pointToPoint = false ∧
    ((event = .release ∧ (s.cd i).causeIn ≠ causeCallrej ∧ (s.cd i).causeIn ≠ causeUsrbsy ∧
        (s.cd i).pipe = some adapter) ∨ event = .disconnect)

instance (s : Cntl n) (i : Fin n) (event : Event) : Decidable (s.ignored i event) :=
  inferInstanceAs (Decidable (_ ∧ _))

/-- The end of `dss1_pipe_data_ind`, for a message that belongs to a call. -/
def receive (env : Env) (s : Cntl n) (i : Fin n) (p : PipeNo) (event : Event) (elements : Buf) :
    Cntl n :=
  let event := eventFor (s.cd i) event
  let s := s.readMessage env i event elements
  if s.ignored i event then s else s.cdUpdate env i (some p) event

/-- The part of `dss1_pipe_data_ind` for a message that belongs to no call, and starts none.  Only
a RESTART of the interface is done as it says: all calls of the pipe end. -/
def receiveUnknown (env : Env) (s : Cntl n) (p : PipeNo) (m : Start) (broadcast : Bool) : Cntl n :=
  let event := messageEvent m.mt
  if m.crval = 0x00 ∨ m.crval = 0x80 then
    if event = .restartInd then
      (s.dss1L3TxMessageByPipeCr env p m.crval mtRestartAcknowledge none (some 7))
        |>.dss1PipeResetInd env p
    else s
  else if (s.ntMode ∧ s.pointToPoint = false ∧ event.isLocalOutgoing ∧
        event.isLocalIncoming = false ∧ m.crval &&& 0x80 = 0) ∨
      (s.ntMode = false ∧ broadcast = false ∧ m.mt = mtRelease.toNat ∧ m.crval = 0x7f) then
    s.dss1L3TxMessageByPipeCr env p m.crval mtReleaseComplete (some causeInvclrfval) none
  else s

/-- `dss1_pipe_data_ind`. -/
def dss1PipeDataInd (env : Env) (s : Cntl n) (p : PipeNo) (buf : List UInt8) (broadcast : Bool) :
    Cntl n :=
  let b := Buf.init buf
  if ¬ b.getValid 0 ∨ (s.ntMode ∧ broadcast) ∨ b.get1 0 ≠ L2.pdQ931.toNat then s
  else
    let m := readStart b
    match s.cdByUnitcr p m.crval with
    | some i => s.receive env i p (messageEvent m.mt) m.elements
    | none =>
      if m.crval &&& 0x80 ≠ 0 ∧ messageEvent m.mt = .setup then
        match s.nAllocateCd env (some p) m.crval .broadcast 0 with
        | (some i, s) => s.receive env i p (messageEvent m.mt) m.elements
        | (none, s) => s
      else s.receiveUnknown env p m broadcast

/-! ## Requests -/

/-- `n_disconnect_request`. -/
def nDisconnectRequest (env : Env) (s : Cntl n) (i : Fin n) (cause : Nat) : Cntl n :=
  (s.modify i fun cd => { cd with causeOut := cause }).cdUpdate env i none .release

/-- `SETUP_RESP_ACCEPT`, `SETUP_RESP_REJECT`, `SETUP_RESP_DNTCRE`, and any other number. -/
inductive Response where
  | accept
  | reject
  | dontCare
  | unknown
  deriving DecidableEq, Repr

/-- `n_connect_response`. -/
def nConnectResponse (env : Env) (s : Cntl n) (i : Fin n) (response : Response) (cause : Nat) :
    Cntl n :=
  let s := s.modify i fun cd => { cd with causeOut := cause }
  match response with
  | .accept => s.cdUpdate env i none .setacrs
  | .reject => s.cdUpdate env i none .setrjrs
  | .dontCare | .unknown =>
    if (s.cd i).connectIndCount < 2 then s.cdUpdate env i none .release
    else s.modify i fun cd => { cd with connectIndCount := cd.connectIndCount - 1 }

/-- `n_alert_request`. -/
def nAlertRequest (env : Env) (s : Cntl n) (i : Fin n) (proceeding : Bool) : Cntl n :=
  s.cdUpdate env i none (if proceeding then .proceedingrq else .alertrq)

/-- `strlcpy` into an array of `size` octetts. -/
def strlcpy (src : Str) (size : Nat) : Str := (cstr src).take (size - 1)

/-- `i4b_l3_information_req`; the digits of an outgoing call are appended at `dst_telno_ptr`. -/
def i4bL3InformationReq (env : Env) (s : Cntl n) (i : Fin n) (digits : List UInt8) : Cntl n :=
  let digits := digits.take (telnoMax - 1)
  let s := s.modify i fun cd =>
    let cd := { cd with dstTelnoPart := cstr digits }
    if cd.dirIncoming then cd
    else
      let dst := min cd.dstTelnoPtr (telnoMax - 1)
      let digits := digits.take (telnoMax - 1 - dst)
      { cd with
        dstTelno := writeAt cd.dstTelno dst (digits ++ [0])
        dstTelnoPtr := dst + digits.length }
  s.cdUpdate env i none .inforq

/-- `i4b_idle_check`. -/
def i4bIdleCheck (env : Env) (s : Cntl n) (i : Fin n) : Cntl n :=
  if s.connected ∧ (s.cd i).cdid ≠ cdidUnused then
    match (s.cd i).idleState with
    | .notStarted => s
    | .started => s.idleStarted i
    | .check =>
      let r := s.ask
      let h := (s.cd i).shorthold
      if h.idleTime ≤ 0 ∨ env.time r.1 - (s.cd i).lastActiveTime < h.idleTime then
        if h.earlyhupTime ≤ 0 then r.2.idleStarted i
        else r.2.modify i fun cd => { cd with idleState := .started, idleCallout := true }
      else
        ((r.2.modify i fun cd => { cd with idleState := .notStarted }).tell i .idleTimeout)
          |>.nDisconnectRequest env i causeI4bNormal
  else s

/-! ## Applications -/

/-- The application may use the call: it is its own, or nobody's yet. -/
def Owns (s : Cntl n) (i : Fin n) (aiType : AiType) (sc : Nat) : Prop :=
  (s.cd i).aiType = .broadcast ∨ ((s.cd i).aiType = aiType ∧ (s.cd i).aiPtr = sc)

instance (s : Cntl n) (i : Fin n) (aiType : AiType) (sc : Nat) : Decidable (s.Owns i aiType sc) :=
  inferInstanceAs (Decidable (_ ∨ _))

/-- A call that was offered to all applications becomes one's own; the others are told. -/
def adopt (s : Cntl n) (i : Fin n) (aiType : AiType) (sc : Nat) : Cntl n :=
  if (s.cd i).aiType = .broadcast then
    (s.cdSetApplInterface i aiType sc).i4bL4DisconnectInd i true
  else s

/-- The channel of a call that is set up, and then `N_CONNECT_REQUEST`: a channel is allocated if it
is known which, or if it is up to this end.  If there is none, the descriptor is freed. -/
def connectOn (env : Env) (s : Cntl n) (i : Fin n) (channel : Int) : Cntl n :=
  if (s.cd i).channelAllocated then s.cdUpdate env i none .setuprq
  else
    let s := s.modify i fun cd => { cd with channelId := channel }
    if s.nNtMode ∨ (0 ≤ channel ∧ channel < s.channelEnd) ∨ channel = chanNotAny then
      let s := s.cdAllocateChannel env i
      if (s.cd i).channelAllocated then s.cdUpdate env i none .setuprq
      else (s.modify i fun cd => { cd with causeIn := causeI4bNochan }).nFreeCd env i
    else s.cdUpdate env i none .setuprq

/-- `msg_connect_req_t`. -/
structure ConnectReq where
  channel : Int
  bprot : Nat
  driver : Nat
  driverUnit : Nat
  shorthold : Shorthold
  /-- `ULEN_METHOD_DYNAMIC`. -/
  dynamic : Bool
  dstTelno : Str
  srcTelno : Str
  dstSubaddr : Str
  srcSubaddr : Str
  keypad : Str
  sendingNotComplete : Bool

/-- What `I4B_CONNECT_REQ` stores in the descriptor before it looks for a channel. -/
def storeConnectReq (r : ConnectReq) (cd : CallDesc) : CallDesc :=
  { cd with
    channelBprot := r.bprot % 2 ^ 8
    channelBsubprot := bsubprotG711Alaw
    driverType := r.driver
    driverUnit := r.driverUnit
    shorthold := r.shorthold
    aocdFlag := r.dynamic
    dstTelno := writeAt cd.dstTelno 0 (strlcpy r.dstTelno telnoMax ++ [0])
    src0 := { cd.src0 with
      telno := strlcpy r.srcTelno telnoMax
      subaddr := strlcpy r.srcSubaddr subaddrMax }
    dstSubaddr := strlcpy r.dstSubaddr subaddrMax
    keypad := strlcpy r.keypad keypadMax
    display := []
    causeIn := causeI4bNormal
    sendingComplete := !r.sendingNotComplete }

/-- The commands of `i4b_ioctl` for a call. -/
inductive I4bRequest where
  | cdidReq
  | connectReq (r : ConnectReq)
  | informationReq (digits : Str)
  | connectReplayReq
  | connectResp (response : Response) (cause driver driverUnit : Nat) (maxIdleTime : Int)
  | linkBChannelDriverReq (driver driverUnit : Nat) (activate : Bool)
  | disconnectReq (cause : Nat)
  | alertReq (sendCallProceeding : Bool)
  | timeoutUpd (shorthold : Shorthold)

/-- A driver is set for a call that becomes one's own. -/
def adoptDriver (s : Cntl n) (i : Fin n) (sc driver driverUnit : Nat) : Cntl n :=
  if (s.cd i).aiType = .broadcast then
    (s.adopt i .i4b sc).modify i fun cd => { cd with driverType := driver, driverUnit := driverUnit }
  else s

/-- One of them, for a call the application may use. -/
def i4bCommand (env : Env) (s : Cntl n) (i : Fin n) (sc : Nat) : I4bRequest → Cntl n
  | .cdidReq => s
  | .connectReq r => (s.modify i (storeConnectReq r)).connectOn env i r.channel
  | .informationReq digits => s.i4bL3InformationReq env i (cstr digits)
  | .connectReplayReq =>
    if (s.cd i).dirIncoming ∧ (s.cd i).aiType = .broadcast then
      s.put (.ind (s.cd i).cdid .i4b sc .connect)
    else s
  | .connectResp response cause driver driverUnit maxIdleTime =>
    if response = .dontCare then s.nConnectResponse env i .dontCare cause
    else
      (s.adoptDriver i sc driver driverUnit).modify i
          (fun cd => { cd with shorthold := { idleTime := maxIdleTime } })
        |>.nConnectResponse env i response cause
  | .linkBChannelDriverReq driver driverUnit activate =>
    (s.adoptDriver i sc driver driverUnit).i4bLinkBchandrvr i activate
  | .disconnectReq cause =>
    (s.modify i fun cd => { cd with causeIn := cause, causeOut := cause })
      |>.nDisconnectRequest env i cause
  | .alertReq proceeding => s.nAlertRequest env i proceeding
  | .timeoutUpd shorthold =>
    let s := s.modify i fun cd => { cd with shorthold := shorthold }
    if (s.cd i).idleState ≠ .notStarted then s.i4bL4SetupTimeout i else s

/-- `i4b_ioctl`, for a call. -/
def i4bIoctl (env : Env) (s : Cntl n) (sc cdid : Nat) (r : I4bRequest) : Cntl n :=
  match s.cdByCdid cdid with
  | some i => if s.Owns i .i4b sc then s.i4bCommand env i sc r else s
  | none =>
    match r with
    | .cdidReq => (s.nAllocateCd env none 0 .i4b sc).2
    | _ => s

/-! ## CAPI -/

/-- `CAPI_CIP_SPEECH` and `CAPI_CIP_TELEPHONY`, `CAPI_CIP_3100Hz_AUDIO`, and any other. -/
inductive Cip where
  | speech
  | audio3100
  | data
  deriving DecidableEq, Repr

/-- `CAPI_B_PROTOCOL`: `wB1_protocol`, `wB2_protocol` and `wB3_protocol`. -/
structure BProtocol where
  b1 : Nat
  b2 : Nat
  b3 : Nat

/-- The parts of a CONNECT request that are used; numbers and strings are as they came. -/
structure CapiConnect where
  cip : Cip
  bc : List UInt8
  dstTelno : List UInt8
  srcTelno : List UInt8
  srcTelno2 : List UInt8
  dstSubaddr : List UInt8
  srcSubaddr : List UInt8
  keypad : List UInt8
  userUser : List UInt8
  display : List UInt8
  /-- The B protocol, if it is given. -/
  bProtocol : Option BProtocol
  wantLateInband : Bool
  sendingComplete : Bool

/-- `capi_get_telno` without `p_src`: the octett for the numbering plan is skipped. -/
def capiGetTelno (src : List UInt8) (maxLength : Nat) : List UInt8 := (src.drop 1).take maxLength

/-- `capi_get_telno` with `p_src`: the first two octetts say what kind of number it is. -/
def capiGetSrcTelno (src : List UInt8) (p : SrcTelno) : SrcTelno :=
  match src with
  | [] => { p with ton := tonOther, scrInd := scrNone, prsInd := prsNone, telno := [] }
  | plan :: rest =>
    match rest with
    | [] => { p with ton := decodeTon plan.toNat, scrInd := scrNone, prsInd := prsNone, telno := [] }
    | ind :: telno =>
      { p with
        ton := decodeTon plan.toNat
        prsInd := if ind.toNat &&& 0x60 = 0x20 then prsRestrict else prsAllowed
        scrInd := (ind.toNat &&& 0x03) + scrUsrNosc
        telno := cstr (telno.take (telnoMax - 1)) }

/-- The sub-protocol of a CONNECT request for speech. -/
def capiBsubprot (bc : List UInt8) : Nat :=
  if 5 ≤ bc.length then decodeBsubprot (bc.getD 4 0).toNat else bsubprotG711Alaw

/-- The error of `capi_decode_b_protocol`. -/
def BProtocol.error (b : BProtocol) : Nat :=
  if b.b1 ≠ 0 ∧ b.b1 ≠ 1 then 1 else if b.b2 ≠ 1 then 2 else if b.b3 ≠ 0 then 3 else 0

/-- `capi_decode_b_protocol`: the new `channel_bprot`. -/
def capiDecodeBProtocol (bprot : Nat) (b : BProtocol) : Nat :=
  if b.error ≠ 0 then bprotNone
  else if b.b1 = 0 then if bprot = bprotNone then bprotRhdlcDov else bprotRhdlc
  else if bprot = bprotRhdlc then bprotNoneVod
  else if bprot = bprotNone31Khz then bprot
  else bprotNone

/-- What a CONNECT request stores in the descriptor before it looks for a channel. -/
def storeCapiConnect (r : CapiConnect) (cd : CallDesc) : CallDesc :=
  let bprot :=
    match r.cip with
    | .speech => bprotNone
    | .audio3100 => bprotNone31Khz
    | .data => bprotRhdlc
  { cd with
    channelBprot := r.bProtocol.elim bprot (capiDecodeBProtocol bprot)
    channelBsubprot := if r.cip = .data then cd.channelBsubprot else capiBsubprot r.bc
    driverType := drvrCapiB3
    driverUnit := 0
    shorthold := { unitlenTime := 60 }
    aocdFlag := false
    dstTelno := writeAt cd.dstTelno 0 (capiGetTelno r.dstTelno (telnoMax - 1) ++ [0])
    src0 := { capiGetSrcTelno r.srcTelno cd.src0 with
      subaddr := cstr (capiGetTelno r.srcSubaddr (subaddrMax - 1)) }
    src1 := capiGetSrcTelno r.srcTelno2 cd.src1
    dstSubaddr := cstr (capiGetTelno r.dstSubaddr (subaddrMax - 1))
    keypad := strlcpy r.keypad keypadMax
    userUser := strlcpy r.userUser userUserMax
    display := strlcpy r.display displayMax
    causeIn := causeI4bNormal
    wantLateInband := cd.wantLateInband || r.wantLateInband
    sendingComplete := r.sendingComplete }

/-- `cause_table`, and the other causes of a CONNECT response. -/
def capiCause (reject : Nat) : Nat :=
  if reject < 9 then
    0x100 + [0, 0, 0, 1, 2, 4, 2, 3, 5].getD reject 0
  else if reject &&& 0xff00 = 0x3400 then reject &&& 0x7f
  else causeI4bNormal

/-- The messages of `capi_write` for a call. -/
inductive CapiRequest where
  | alert (sendingComplete : Bool)
  | connect (r : CapiConnect)
  | connectB3
  | disconnectB3
  | disconnect
  /-- An INFO request: the first octett of the facility, if there is one, and the called number. -/
  | info (facility : Option UInt8) (dstTelno : List UInt8)
  | hold
  | retrieve
  | deflect (dstTelno : List UInt8)
  | mcid
  | liConnect (dst : Nat)
  | liDisconnect (dst : Nat)
  | selectBProtocol (bProtocol : Option BProtocol)
  | connectResp (reject : Nat) (bProtocol : Option BProtocol) (dateTime : List UInt8)
  | connectB3Resp (reject : Bool)

/-- `capi_connect_bridge`. -/
def capiConnectBridge (env : Env) (s : Cntl n) (i : Fin n) (sc dst : Nat) : Cntl n :=
  if dst ≠ cdidUnused ∧ (s.cd i).liCdid = cdidUnused ∧ (s.cd i).liData = false then
    let s := (s.adopt i .capi sc).modify i fun cd =>
      { cd with liCdid := dst, driverType := drvrCapiBridge, driverUnit := 0 }
    if (s.cd i).channelAllocated then (s.liAlloc env i).i4bLinkBchandrvr i true else s
  else s

/-- `capi_disconnect_bridge`. -/
def capiDisconnectBridge (s : Cntl n) (i : Fin n) (sc dst : Nat) : Cntl n :=
  if dst ≠ cdidUnused ∧ (s.cd i).liCdid = dst then
    (s.adopt i .capi sc).modify i (fun cd =>
        { cd with
          liData := false
          liCdid := cdidUnused
          driverType := drvrCapiB3
          driverUnit := 0 })
      |>.i4bLinkBchandrvr i true
  else s

/-- The confirmation of a request: what follows it is done if there was a buffer for it. -/
def confirmed (env : Env) (s : Cntl n) (f : Cntl n → Cntl n) : Cntl n :=
  let r := s.ask
  if env.avail r.1 then f r.2 else r.2

/-- An INFO request: PROGRESS for an incoming call, more digits for an outgoing one. -/
def capiInfo (env : Env) (s : Cntl n) (i : Fin n) (facility : Option UInt8) (dstTelno : List UInt8) :
    Cntl n :=
  if (s.cd i).dirIncoming then
    s.confirmed env fun s =>
      if facility = some 0x1e then s.cdUpdate env i none .progressrq else s
  else s.confirmed env fun s => s.i4bL3InformationReq env i (dstTelno.drop 1)

/-- A SELECT B PROTOCOL request. -/
def capiSelectBProtocol (s : Cntl n) (i : Fin n) (sc : Nat) (bProtocol : Option BProtocol) : Cntl n :=
  let s := s.modify i fun cd =>
    { cd with channelBprot := bProtocol.elim cd.channelBprot (capiDecodeBProtocol 0xff) }
  if bProtocol.elim 0 BProtocol.error ≠ 0 then s
  else (s.adopt i .capi sc).modify i fun cd => { cd with driverType := drvrCapiB3, driverUnit := 0 }

/-- A CONNECT response. -/
def capiConnectResp (env : Env) (s : Cntl n) (i : Fin n) (sc reject : Nat)
    (bProtocol : Option BProtocol) (dateTime : List UInt8) : Cntl n :=
  if (s.cd i).dirIncoming = false then s
  else if reject = 1 then s.nConnectResponse env i .dontCare (capiCause reject)
  else
    let s := s.modify i fun cd =>
      { cd with channelBprot := bProtocol.elim cd.channelBprot (capiDecodeBProtocol 0xff) }
    (s.adopt i .capi sc).modify i (fun cd =>
        { cd with
          driverType := drvrCapiB3
          driverUnit := 0
          shorthold := {}
          odateTimeLen := min dateTime.length 8
          odateTime := Vector.ofFn fun k => dateTime.getD k cd.odateTime[k] })
      |>.nConnectResponse env i (if reject = 0 then .accept else .reject) (capiCause reject)

/-- One of them, for a call the application may use. -/
def capiCommand (env : Env) (s : Cntl n) (i : Fin n) (sc : Nat) : CapiRequest → Cntl n
  | .alert sendingComplete =>
    if (s.cd i).dirIncoming then s.confirmed env fun s => s.nAlertRequest env i sendingComplete
    else s
  | .connect r =>
    if (s.cd i).dirIncoming then s
    else
      s.confirmed env fun s => (s.modify i (storeCapiConnect r)).connectOn env i chanAny
  | .connectB3 =>
    (s.adopt i .capi sc).modify i (fun cd => { cd with driverType := drvrCapiB3, driverUnit := 0 })
      |>.i4bLinkBchandrvr i true
  | .disconnectB3 => if (s.cd i).aiType = .capi then s.i4bLinkBchandrvr i false else s
  | .disconnect =>
    ((s.i4bLinkBchandrvr i false).modify i fun cd =>
        { cd with causeIn := causeI4bNormal, causeOut := causeI4bNormal })
      |>.nDisconnectRequest env i causeI4bNormal
  | .info facility dstTelno => s.capiInfo env i facility dstTelno
  | .hold => s.cdUpdate env i none .holdReq
  | .retrieve => s.cdUpdate env i none .retrieveReq
  | .deflect dstTelno =>
    (s.modify i fun cd => { cd with dstTelnoPart := cstr ((dstTelno.drop 3).take (telnoMax - 1)) })
      |>.cdUpdate env i none .deflectrq
  | .mcid => s.cdUpdate env i none .mcidrq
  | .liConnect dst => s.capiConnectBridge env i sc dst
  | .liDisconnect dst => s.capiDisconnectBridge i sc dst
  | .selectBProtocol bProtocol => s.capiSelectBProtocol i sc bProtocol
  | .connectResp reject bProtocol dateTime => s.capiConnectResp env i sc reject bProtocol dateTime
  | .connectB3Resp reject =>
    if (s.cd i).dirIncoming ∧ (s.cd i).aiType = .capi then
      if reject then
        (s.modify i fun cd => { cd with causeIn := causeI4bReject, causeOut := causeI4bReject })
          |>.nDisconnectRequest env i causeI4bReject
      else s.i4bLinkBchandrvr i true
    else s

/-- `capi_write`, for a call; a CONNECT request for none starts one. -/
def capiWrite (env : Env) (s : Cntl n) (sc cdid : Nat) (r : CapiRequest) : Cntl n :=
  match s.cdByCdid cdid with
  | some i => if s.Owns i .capi sc then s.capiCommand env i sc r else s
  | none =>
    match r with
    | .connect _ =>
      match s.nAllocateCd env none 0 .capi sc with
      | (some i, s) => s.capiCommand env i sc r
      | (none, s) => s
    | _ => s

/-- One round of `i4b_disconnect_by_appl_interface`. -/
def disconnectCall (env : Env) (aiType : AiType) (sc : Nat) (s : Cntl n) (i : Fin n) : Cntl n :=
  if (s.cd i).cdid ≠ cdidUnused ∧ (s.cd i).aiType = aiType ∧ (s.cd i).aiPtr = sc then
    (s.modify i fun cd => { cd with causeIn := causeI4bNormal, causeOut := causeI4bNormal })
      |>.nDisconnectRequest env i causeI4bNormal
  else s

/-! ## Attachment -/

/-- A pipe goes to `ST_L2_PAUSE`. -/
def pause (env : Env) (s : Cntl n) (p : PipeNo) : Cntl n :=
  { s with paused := Function.update s.paused p true }.dss1PipeResetInd env p

/-- `dss1_setup_ft` with a protocol. -/
def attach (s : Cntl n) (ntMode pointToPoint primaryRate : Bool) : Cntl n :=
  { s with
    cd := fun _ => {}
    utilization := fun c => decide (c = 0)
    connected := true
    cdidEnd := 0x7f
    nNtMode := ntMode
    ntMode := ntMode
    primaryRate := primaryRate
    pointToPoint := pointToPoint
    l1Activity := false
    l1AutoActivate := 0
    l1DeactivateCount := false
    receivedFrame := false
    l1ActivityCallout := true
    refcount := fun _ => 0
    paused := fun _ => true }

/-- `dss1_setup_ft` without one. -/
def detach (env : Env) (s : Cntl n) : Cntl n :=
  (List.finRange 16).foldl (pause env)
    { s with
      connected := false
      l1Activity := false
      l1AutoActivate := 0
      l1DeactivateCount := false
      l1ActivityCallout := false }

end Cntl

/-! ## Steps -/

/-- What may happen to a controller. -/
inductive Action (n : Nat) where
  /-- A message from layer 2. -/
  | dataInd (p : PipeNo) (buf : List UInt8) (broadcast : Bool)
  /-- A pipe is activated by layer 2. -/
  | activate (p : PipeNo)
  /-- The adapter of a bus wants messages repeated. -/
  | resend
  | pause (p : PipeNo)
  /-- The timers of a call expire. -/
  | stateTimeout (i : Fin n)
  | idleTimeout (i : Fin n)
  /-- Layer 1 goes up or down, receives a frame, and may be switched off. -/
  | l1Activity (up : Bool)
  | receivedFrame
  | l1ActivityTimeout
  /-- The options of the controller are set. -/
  | options (nNtMode noDialtone noPowerSave noStatusEnquiry : Bool)
  /-- A request of an application for a call. -/
  | i4b (sc cdid : Nat) (r : Cntl.I4bRequest)
  | capi (sc cdid : Nat) (r : Cntl.CapiRequest)
  /-- The other end of a bridge that was requested for a call, or removed. -/
  | bridge (sc cdid dst : Nat)
  | unbridge (sc cdid dst : Nat)
  /-- An application goes away. -/
  | closed (aiType : AiType) (sc : Nat)
  | attach (ntMode pointToPoint primaryRate : Bool)
  | detach

namespace Cntl

variable {n : Nat}

/-- The pipes on which layer 2 hands up messages: the adapter, but on a bus, in network mode, a
terminal's own pipe unless the message is for all. -/
def Delivers (s : Cntl n) (p : PipeNo) (broadcast : Bool) : Prop :=
  p = adapter ↔ broadcast = true ∨ s.pointToPoint = true ∨ s.ntMode = false

instance (s : Cntl n) (p : PipeNo) (broadcast : Bool) : Decidable (s.Delivers p broadcast) :=
  inferInstanceAs (Decidable (_ ↔ _))

/-- Can this happen?  Timers that do not run do not expire, and only a controller that is not
attached can be attached. -/
def Enabled (s : Cntl n) : Action n → Prop
  | .dataInd p _ broadcast => s.connected = true ∧ s.Delivers p broadcast
  | .activate _ | .pause _ | .receivedFrame | .l1Activity _ => s.connected = true
  | .resend => s.connected = true ∧ s.ntMode = true ∧ s.pointToPoint = false
  | .stateTimeout i => (s.cd i).setStateCallout = true
  | .idleTimeout i => (s.cd i).idleCallout = true
  | .l1ActivityTimeout => s.l1ActivityCallout = true
  | .options .. => True
  | .i4b .. | .capi .. | .bridge .. | .unbridge .. | .closed .. => s.connected = true
  | .attach .. => s.connected = false
  | .detach => s.connected = true

instance (s : Cntl n) : (a : Action n) → Decidable (s.Enabled a)
  | .dataInd .. => inferInstanceAs (Decidable (_ ∧ _))
  | .activate _ | .pause _ | .receivedFrame | .l1Activity _ => inferInstanceAs (Decidable (_ = _))
  | .resend => inferInstanceAs (Decidable (_ ∧ _))
  | .stateTimeout _ | .idleTimeout _ | .l1ActivityTimeout => inferInstanceAs (Decidable (_ = _))
  | .options .. => inferInstanceAs (Decidable True)
  | .i4b .. | .capi .. | .bridge .. | .unbridge .. | .closed .. | .attach .. | .detach =>
    inferInstanceAs (Decidable (_ = _))

/-- What happens then. -/
def perform (env : Env) (s : Cntl n) : Action n → Cntl n
  | .dataInd p buf broadcast => s.dss1PipeDataInd env p buf broadcast
  | .activate p => s.dss1PipeActivateReq env p
  | .resend => s.dss1PipeResendInd env adapter
  | .pause p => s.pause env p
  | .stateTimeout i =>
    (s.modify i fun cd => { cd with setStateCallout := false }).cdSetStateTimeout env i
  | .idleTimeout i => (s.modify i fun cd => { cd with idleCallout := false }).i4bIdleCheck env i
  | .l1Activity up => { s with l1Activity := up }
  | .receivedFrame => { s with receivedFrame := true }
  | .l1ActivityTimeout => { s with l1ActivityCallout := false }.dss1L1ActivityTimeout
  | .options nNtMode noDialtone noPowerSave noStatusEnquiry =>
    { s with
      nNtMode := nNtMode
      noLayer1Dialtone := noDialtone
      noPowerSave := noPowerSave
      noLayer3StatusEnquiry := noStatusEnquiry }
  | .i4b sc cdid r => s.i4bIoctl env sc cdid r
  | .capi sc cdid r => s.capiWrite env sc cdid r
  | .bridge sc cdid dst =>
    match s.cdByCdid cdid with
    | some i => s.capiConnectBridge env i sc dst
    | none => s
  | .unbridge sc cdid dst =>
    match s.cdByCdid cdid with
    | some i => s.capiDisconnectBridge i sc dst
    | none => s
  | .closed aiType sc => (List.finRange n).foldl (disconnectCall env aiType sc) s
  | .attach ntMode pointToPoint primaryRate => s.attach ntMode pointToPoint primaryRate
  | .detach => s.detach env

/-- One step.  There is no state after a panic. -/
def step (env : Env) (s : Cntl n) (a : Action n) : Option (Cntl n) :=
  if s.Enabled a then
    let s' := s.perform env a
    if s'.halted then none else some s'
  else none

/-- Several steps. -/
def run (env : Env) (s : Cntl n) (as : List (Action n)) : Option (Cntl n) := as.foldlM (step env) s

/-- A controller that was never attached. -/
def boot (unit channelEnd cdidCount : Nat) : Cntl n where
  unit := unit
  cd := fun _ => {}
  utilization := fun _ => false
  channelEnd := channelEnd
  cdidCount := cdidCount
  cdidEnd := 0
  noLayer1Dialtone := false
  noPowerSave := false
  noLayer3StatusEnquiry := false
  nNtMode := false
  connected := false
  ntMode := false
  primaryRate := false
  pointToPoint := false
  l1Activity := false
  l1AutoActivate := 0
  l1DeactivateCount := false
  receivedFrame := false
  l1ActivityCallout := false
  refcount := fun _ => 0
  paused := fun _ => true
  asks := 0
  halted := false
  underflow := false
  out := []

/-- The states of a controller, from its first attachment on. -/
inductive Reach (env : Env) : Cntl n → Prop where
  | start (unit channelEnd cdidCount : Nat) (ntMode pointToPoint primaryRate : Bool) :
      Reach env ((boot unit channelEnd cdidCount).attach ntMode pointToPoint primaryRate)
  | step {s s' : Cntl n} {a : Action n} (h : Reach env s) (hs : s.step env a = some s') :
      Reach env s'

/-- A run from a state that is reached stays among those. -/
theorem Reach.run {env : Env} {s s' : Cntl n} {as : List (Action n)} (h : Reach env s)
    (hr : s.run env as = some s') : Reach env s' := by
  induction as generalizing s with
  | nil =>
    cases hr
    exact h
  | cons a as ih =>
    rw [Cntl.run, List.foldlM_cons] at hr
    obtain ⟨t, ht, hr⟩ := Option.bind_eq_some_iff.mp hr
    exact ih (h.step ht) hr

/-- Surroundings with enough buffers and two applications, where no time passes. -/
def plain : Env where
  avail := fun _ => true
  copies := fun _ => 2
  liAlloc := fun _ => false
  time := fun _ => 0
  encodeChannel := id
  decodeChannel := id

/-- The first controller, with two B channels, just attached. -/
def fresh (ntMode pointToPoint : Bool) : Cntl n :=
  (boot 0 3 0).attach ntMode pointToPoint false

theorem reach_fresh (env : Env) (ntMode pointToPoint : Bool) :
    Reach env (fresh ntMode pointToPoint : Cntl n) := .start 0 3 0 ntMode pointToPoint false

end Cntl

end L3
end Isdn4bsd
