import Isdn4bsd.L2.Pipe

/-!
# Layer 2: the state machine

The functions of `dss1_l2fsm.c`: requests from layer 3, pipe states and their timeouts, TEI
management, frames from layer 1 (`dss1_l2_put_mbuf`) and frames to layer 1 (`dss1_l2_get_mbuf`).

`L1_FIFO_START` only tells layer 1 that there is something to fetch, and does not appear: a call of
`dss1_l2_get_mbuf` may come at any time.

## Functions that are cut

* `dss1_pipe_set_state` has a branch for some of the states, which may end with `goto done`; the branches are
  functions (`enterSingleFrame`, `enterSendTei`, `enterPause`).  It tells layer 3 of a reset, which may ask for
  the state of the pipe to be set again; `pipeSetState` is given what comes of that.
* `dss1_l2_put_mbuf` is cut at the label `check_NR` and at the responses behind it: `receiveI` and `receiveU` for the
  kinds of frames, then `checkNr` and `respond`.
* `dss1_l2_get_mbuf` is a loop over the pipes; one round is `servePipe`, in which the window may be opened
  (`reopen`) and a frame is sent (`transmit`).

## Functions without a result

Two functions may have no result.  `dss1GetUnusedTei` is a `goto` loop, which is given as many rounds
as there are candidates; and `dss1L2GetMbuf` has none where the C code would dequeue from an empty
queue or follow a pointer that is not into the queue it serves.  That neither happens in a state that can be
reached is `Softc.step_isSome` in `Isdn4bsd.L2.Tei`.

`step` is one event, with what it hands to layer 1.
-/

set_option autoImplicit false

namespace Isdn4bsd
namespace L2

/-! ## Control bytes -/

/-- `CNTLS`, and the poll bit. -/
def cntlDisc : Nat := 0x43
def cntlDm : Nat := 0x0f
def cntlRej : Nat := 0x09
def cntlRr : Nat := 0x01
def cntlSabme : Nat := 0x6f
def cntlUa : Nat := 0x63
def cntlUi : Nat := 0x03
def cntlPfBit : Nat := 0x10

/-- `MAKE_SAPI`; the C/R bit of a response is set. -/
def makeSapi (sapi : Nat) (response : Bool) : Nat :=
  ((sapi <<< 2) &&& 0xfc) ||| (response.toNat <<< 1)

/-- `SAPI_CCP` and `SAPI_L2M`. -/
def sapiCcp : Nat := 0x00
def sapiL2m : Nat := 0x3f

/-- `dss1_get_1` of a frame that starts at the buffer's start. -/
def get1 (buf : List UInt8) (offset : Nat) : Nat := (buf.getD offset 0).toNat

/-- `GET_NR`. -/
def getNr (octett : Nat) : Nat := (octett >>> 1) &&& 0x7f

theorem getNr_lt (octett : Nat) : getNr octett < 128 := by
  have h := Nat.and_le_right (n := octett >>> 1) (m := 0x7f)
  rw [getNr]
  omega

namespace Softc

/-! ## Buffers and queues -/

/-- `i4b_getmbuf` and `m_copypacket`: the identity of the buffer, if there is one. -/
def getmbuf (env : Env) (sc : Softc) : Option Nat × Softc :=
  (if env.avail sc.mbufs then some sc.mbufs else none, { sc with mbufs := sc.mbufs + 1 })

/-- `dss1_l2_data_req`: a control frame. -/
def dss1L2DataReq (sc : Softc) (frame : List UInt8) : Softc :=
  if sc.queueMax ≤ sc.queue.length ∨ sc.l1Activity = false ∨ sc.connected = false then sc
  else { sc with queue := sc.queue ++ [frame] }

/-- `dss1_pipe_data_req`, with the buffer layer 3 made for the message. -/
def dss1PipeDataReq (sc : Softc) (p : PipeNo) (body : List UInt8) : Softc :=
  let m : Mbuf := ⟨sc.mbufs, iHeaderLen + body.length, false, body⟩
  let sc := { sc with mbufs := sc.mbufs + 1 }
  if sc.pipeMax ≤ (sc.pipe p).queue.length ∨ sc.connected = false then sc
  else sc.modify p (Pipe.enqueue m)

/-- A request of layer 3. -/
def request (sc : Softc) : Request → Softc
  | .dataReq p body => sc.dss1PipeDataReq p body
  | .dataAcknowledge p cr => sc.modify p (Pipe.acknowledge cr)
  | .ref p => sc.modify p fun q => { q with refcount := (q.refcount + 1) % 2 ^ 32 }
  | .unref p => sc.modify p fun q => { q with refcount := (q.refcount + 2 ^ 32 - 1) % 2 ^ 32 }

/-- `dss1_pipe_resend_ind`, as far as layer 2 sees it. -/
def dss1PipeResendInd (env : Env) (sc : Softc) : Softc :=
  (env.resend sc.upcalls).foldl request { sc with upcalls := sc.upcalls + 1 }

/-- `dss1_cntl_tx_frame`: an S- or U-frame. -/
def dss1CntlTxFrame (env : Env) (sc : Softc) (p : PipeNo) (response : Bool) (cntl : Nat) : Softc :=
  if (sc.pipe p).state.isTeiAssigned then
    let r := sc.getmbuf env
    match r.1 with
    | none => r.2
    | some _ =>
      let rxNr := ((((sc.pipe p).rxNr <<< 1) &&& 0xfe) ||| response.toNat)
      let frame := [makeSapi sapiCcp response, (sc.pipe p).tei, cntl, rxNr].map UInt8.ofNat
      r.2.dss1L2DataReq (if cntl &&& 2 = 0 then frame else frame.take 3)
  else sc

/-! ## TEI management, outgoing -/

/-- `MT_ID_REQUEST`, `MT_ID_ASSIGN`, `MT_ID_CHECK_REQUEST`, `MT_ID_CHECK_RESPONSE`,
`MT_ID_REMOVE`. -/
def mtIdRequest : Nat := 0x01
def mtIdAssign : Nat := 0x02
def mtIdCheckRequest : Nat := 0x04
def mtIdCheckResponse : Nat := 0x05
def mtIdRemove : Nat := 0x06

/-- `MEI_TEI_MANAGEMENT`. -/
def meiTeiManagement : Nat := 0x0f

/-- `dss1_tei_tx_frame`. -/
def dss1TeiTxFrame (env : Env) (sc : Softc) (p : PipeNo) (type : Nat) : Softc :=
  if sc.pointToPoint then sc
  else
    let sc :=
      if type = mtIdRequest then sc.modify p fun q => { q with tei := teiBroadcast } else sc
    let r := sc.getmbuf env
    match r.1 with
    | none => r.2
    | some _ =>
      let q := sc.pipe p
      let ri := if q.tei < 0x80 then [0, 0] else [q.serialNumber, q.serialNumber >>> 8]
      r.2.dss1L2DataReq (([makeSapi sapiL2m false, teiBroadcast, cntlUi, meiTeiManagement] ++ ri
        ++ [type, q.tei]).map UInt8.ofNat)

/-! ## Pipe states -/

/-- The branch of `dss1_pipe_set_state` for `ST_L2_SINGLE_FRAME`: a pipe that nobody uses and that
has nothing to send is removed. -/
def enterSingleFrame (env : Env) (sc : Softc) (p : PipeNo) : Softc :=
  if (sc.pipe p).refcount = 0 ∧ (sc.pipe p).queue = [] then
    if sc.pointToPoint ∨ (sc.ntMode ∧ (sc.pipe adapter).refcount ≠ 0) then sc
    else
      let sc :=
        if sc.ntMode ∧ ¬ sc.pointToPoint ∧ p ≠ adapter then
          (sc.dss1CntlTxFrame env p false (cntlDisc ||| cntlPfBit)).dss1CntlTxFrame env p false
            (cntlDisc ||| cntlPfBit)
        else sc
      sc.modify p fun q => { q with state := .pause }
  else sc

/-- The branch for `ST_L2_SEND_TEI`; the flag says that it ended in `goto done`. -/
def enterSendTei (env : Env) (sc : Softc) (p : PipeNo) : Softc × Bool :=
  if (sc.pipe p).refcount ≠ 0 then
    if sc.pointToPoint then (sc.modify p fun q => { q with state := .sendSabme }, false)
    else if sc.ntMode then
      if p = adapter then (sc.dss1PipeResendInd env, true)
      else (sc.modify p fun q => { q with state := .sendSabme }, false)
    else if 0x80 ≤ (sc.pipe p).serialNumber then (sc.dss1TeiTxFrame env p mtIdRequest, true)
    else
      (sc.modify p fun q => { q with tei := q.serialNumber % 2 ^ 8, state := .sendSabme }, false)
  else (sc.modify p fun q => { q with state := .pause }, false)

/-- The branch for `ST_L2_PAUSE`. -/
def enterPause (resetInd : Softc → Softc) (sc : Softc) (p : PipeNo) : Softc :=
  (resetInd sc).modify p Pipe.clear

/-- Label `done` of `dss1_pipe_set_state`: the timer runs in every state but `ST_L2_PAUSE`. -/
def restartTimeout (sc : Softc) (p : PipeNo) : Softc :=
  if (sc.pipe p).state ≠ .pause then sc.modify p fun q => { q with setStateCallout := true } else sc

/-- The branches for `ST_L2_SEND_SABME` and `ST_L2_PAUSE`. -/
def enterSabmeOrPause (env : Env) (resetInd : Softc → Softc) (sc : Softc) (p : PipeNo) : Softc :=
  if (sc.pipe p).state = .sendSabme then
    if sc.ntMode = false ∨ sc.pointToPoint then
      sc.dss1CntlTxFrame env p false (cntlSabme ||| cntlPfBit)
    else sc
  else if (sc.pipe p).state = .pause then sc.enterPause resetInd p
  else sc

/-- `dss1_pipe_set_state` from where the new state is stored. -/
def enterState (env : Env) (resetInd : Softc → Softc) (sc : Softc) (p : PipeNo) : Softc :=
  let sc := if (sc.pipe p).state = .singleFrame then sc.enterSingleFrame env p else sc
  let r := if (sc.pipe p).state = .sendTei then sc.enterSendTei env p else (sc, false)
  let sc := if r.2 then r.1 else r.1.enterSabmeOrPause env resetInd p
  sc.restartTimeout p

/-- `dss1_pipe_set_state`, with what `dss1_pipe_reset_ind` makes layer 3 do. -/
def pipeSetState (env : Env) (resetInd : Softc → Softc) (sc : Softc) (p : PipeNo) (new : State) :
    Softc :=
  if (sc.pipe p).state.num ≤ State.sendTei.num ∧ State.sendTei.num + 2 ≤ new.num then sc
  else
    (sc.modify p fun q => { q with state := new, setStateCallout := false }).enterState env resetInd p

/-- `dss1_pipe_activate_req`.  The pipe is in use while its state is set, so it does not pause; if
the count of its users should wrap around and it does, layer 3 cannot activate it from there. -/
def dss1PipeActivateReq (env : Env) (sc : Softc) (p : PipeNo) : Softc :=
  if (sc.pipe p).state = .pause then
    ((sc.request (.ref p)).pipeSetState env (dss1PipeResendInd env) p .sendTei).request (.unref p)
  else sc

/-- Anything layer 3 asks for. -/
def down (env : Env) (sc : Softc) : Down → Softc
  | .request r => sc.request r
  | .activate p => sc.dss1PipeActivateReq env p

/-- `dss1_pipe_data_ind` and `dss1_pipe_reset_ind`, as far as layer 2 sees them. -/
def indicate (env : Env) (sc : Softc) : Softc :=
  (env.answer sc.upcalls).foldl (down env) { sc with upcalls := sc.upcalls + 1 }

/-- `dss1_pipe_set_state`. -/
def dss1PipeSetState (env : Env) (sc : Softc) (p : PipeNo) (new : State) : Softc :=
  sc.pipeSetState env (indicate env) p new

/-- `dss1_pipe_set_state_timeout`. -/
def dss1PipeSetStateTimeout (env : Env) (sc : Softc) (p : PipeNo) : Softc :=
  if sc.connected then sc.dss1PipeSetState env p (sc.pipe p).state.timeoutState else sc

/-! ## TEI management, incoming -/

/-- `dss1_get_unused_pipe`. -/
def dss1GetUnusedPipe (sc : Softc) : Option PipeNo :=
  (List.finRange 16).find? fun p => (sc.pipe p).state = .pause ∧ p ≠ adapter

/-- `dss1_count_unused_pipes`. -/
def dss1CountUnusedPipes (sc : Softc) : Nat :=
  ((List.finRange 16).filter fun p => (sc.pipe p).state = .pause ∧ p ≠ adapter).length

/-- `M128INC(sc->sc_tei_last)`, then made automatic and odd. -/
def nextTei (tei : Nat) : Nat := ((tei + 1) % 128 ||| 0x80) ||| 1

/-- `dss1_get_unused_TEI`, with that many rounds of the `goto` loop left; the value is in
`sc_tei_last`. -/
def dss1GetUnusedTei : Nat → Softc → Option Softc
  | 0, _ => none
  | fuel + 1, sc =>
    let tei := nextTei sc.teiLast
    if ∃ p, (sc.pipe p).tei = tei then dss1GetUnusedTei fuel { sc with teiLast := tei }
    else some { sc with teiLast := tei }

/-- The number of automatic TEI values. -/
def teiRounds : Nat := 64

/-- The end of `case MT_ID_REQUEST`: a pipe gets a TEI value of its own. -/
def assignTei (env : Env) (sc : Softc) (p : PipeNo) (ri : Nat) : Option Softc :=
  (dss1GetUnusedTei teiRounds (sc.modify p fun q => { q with serialNumber := ri })).map fun sc =>
    let sc := sc.modify p fun q => { q with tei := sc.teiLast }
    let sc := sc.dss1TeiTxFrame env p mtIdRemove
    let sc := sc.dss1TeiTxFrame env p mtIdRemove
    let sc := sc.dss1TeiTxFrame env p mtIdAssign
    sc.dss1PipeActivateReq env p

/-- `case MT_ID_REQUEST` of `dss1_tei_rx_frame`, in NT mode. -/
def idRequest (env : Env) (sc : Softc) (ri : Nat) : Option Softc :=
  if sc.dss1CountUnusedPipes ≤ 16 / 2 ∧ sc.idRequestCallout = true then some sc
  else
    let sc :=
      if sc.dss1CountUnusedPipes ≤ 16 / 2 then { sc with idRequestCallout := true } else sc
    match sc.dss1GetUnusedPipe with
    | none => some sc
    | some p => sc.assignTei env p ri

/-- `case MT_ID_ASSIGN`, in TE mode. -/
def idAssign (env : Env) (sc : Softc) (ai ri : Nat) : Softc :=
  let sc :=
    if (sc.pipe adapter).tei = ai then sc.dss1PipeSetState env adapter .pause else sc
  if (sc.pipe adapter).state = .sendTei ∧ (sc.pipe adapter).serialNumber = ri then
    (sc.modify adapter fun q => { q with tei := ai }).dss1PipeSetState env adapter .sendSabme
  else sc

/-- `dss1_tei_rx_frame`. -/
def dss1TeiRxFrame (env : Env) (sc : Softc) (buf : List UInt8) : Option Softc :=
  let mt := get1 buf 6
  let ai := get1 buf 7
  let ri := get1 buf 4 ||| (get1 buf 5 <<< 8)
  if sc.pointToPoint then some sc
  else if mt = mtIdAssign then some (if sc.ntMode then sc else sc.idAssign env ai ri)
  else if mt = mtIdCheckRequest then
    let sc :=
      if sc.ntMode = false ∧ (sc.pipe adapter).serialNumber < 0x80 then
        sc.dss1PipeActivateReq env adapter
      else sc
    if (sc.pipe adapter).state.isTeiAssigned ∧ (ai = (sc.pipe adapter).tei ∨ ai = teiBroadcast) then
      some (sc.dss1TeiTxFrame env adapter mtIdCheckResponse)
    else some sc
  else if mt = mtIdRemove then
    if (sc.pipe adapter).state.isTeiAssigned ∧ (ai = (sc.pipe adapter).tei ∨ ai = teiBroadcast) then
      some (sc.dss1PipeSetState env adapter .pause)
    else some sc
  else if mt = mtIdRequest then (if sc.ntMode then sc.idRequest env ri else some sc)
  else some sc

/-! ## Frames from layer 1 -/

/-- The pipe that has this TEI, in NT mode, or an unused one that gets it. -/
def pipeOfTei (sc : Softc) (tei : Nat) : Softc × Option PipeNo :=
  match (List.finRange 16).find? fun p => (sc.pipe p).tei = tei with
  | some p => (sc, some p)
  | none =>
    match sc.dss1GetUnusedPipe with
    | some p => (sc.modify p fun q => { q with tei := tei }, some p)
    | none => (sc, none)

/-- The part of `dss1_l2_put_mbuf` that looks up the pipe and activates it; no pipe stands for
`goto done`. -/
def lookupPipe (env : Env) (sc : Softc) (tei cntl : Nat) : Softc × Option PipeNo :=
  if tei = teiBroadcast then (sc, some adapter)
  else if sc.pointToPoint then
    if (sc.pipe adapter).tei ≠ tei then (sc, none)
    else (sc.dss1PipeActivateReq env adapter, some adapter)
  else if sc.ntMode = false then
    if (sc.pipe adapter).tei ≠ tei ∨ ¬ (sc.pipe adapter).state.isTeiAssigned then (sc, none)
    else (sc, some adapter)
  else
    let r := sc.pipeOfTei tei
    match r.2 with
    | none => (r.1, none)
    | some p =>
      let c := cntl &&& 0xef
      if (r.1.pipe p).state = .pause ∧ cntl &&& 1 ≠ 0 ∧ (c = cntlUa ∨ c = cntlDm ∨ c = cntlDisc) then
        (r.1, none)
      else (r.1.dss1PipeActivateReq env p, some p)

/-- Label `check_NR`, up to the responses. -/
def checkNr (env : Env) (sc : Softc) (p : PipeNo) (nr : Nat) : Softc :=
  let d := (sc.pipe p).nrDifference nr
  let length := (sc.pipe p).txWindowLength
  let sc := sc.modify p fun q => { q with txNr := nr }
  if d = 0 then sc
  else if length < d then
    (sc.dss1PipeSetState env p .singleFrame).modify p Pipe.retransmitAll
  else (sc.dss1PipeSetState env p .multiFrame).modify p (Pipe.advance d)

/-- The responses at the end of `dss1_l2_put_mbuf`; `rej` is `resp == CNTL_REJ`. -/
def respond (env : Env) (sc : Softc) (p : PipeNo) (cntl nr : Nat) (command rej : Bool) : Softc :=
  let sc :=
    if cntl &&& 1 ≠ 0 then sc
    else if rej then sc.dss1CntlTxFrame env p false cntlRej
    else if nr &&& 1 ≠ 0 then sc.dss1CntlTxFrame env p true cntlRr
    else if (sc.pipe p).queue.length ≤ (sc.pipe p).txWindowSize then
      sc.dss1CntlTxFrame env p false cntlRr
    else sc
  if command ∧ cntl &&& nr &&& 1 ≠ 0 then sc.dss1CntlTxFrame env p true cntlRr else sc

/-- An I-frame, up to `check_NR`; the flag is `resp == CNTL_REJ`. -/
def receiveI (env : Env) (sc : Softc) (p : PipeNo) (nr : Nat) : Softc × Bool :=
  if (sc.pipe p).rxNr = nr then
    ((sc.modify p fun q => { q with rxNr := (q.rxNr + 1) % 128 }).indicate env, false)
  else (sc, true)

/-- A U-frame. -/
def receiveU (env : Env) (sc : Softc) (p : PipeNo) (buf : List UInt8) (sapi cntl : Nat) :
    Option Softc :=
  let c := cntl &&& 0xef
  if c = cntlUi then
    if sapi = sapiL2m then
      if get1 buf 3 = meiTeiManagement then sc.dss1TeiRxFrame env buf else some sc
    else if sapi = sapiCcp then some (sc.indicate env)
    else some sc
  else if c = cntlSabme then
    let sc := sc.dss1CntlTxFrame env p true (cntlUa ||| (cntl &&& cntlPfBit))
    some ((sc.dss1PipeSetState env p .sendUa).modify p fun q => { q with rxNr := 0 })
  else if c = cntlDisc then
    let sc := sc.dss1CntlTxFrame env p true (cntlUa ||| (cntl &&& cntlPfBit))
    some (sc.dss1PipeSetState env p .pause)
  else some sc

/-- `dss1_l2_put_mbuf`. -/
def dss1L2PutMbuf (env : Env) (sc : Softc) (buf : List UInt8) : Option Softc :=
  let sapi := (get1 buf 0 >>> 2) &&& 0x3f
  let response := decide (get1 buf 0 &&& 2 ≠ 0) ^^ !sc.ntMode
  let cntl := get1 buf 2
  let r := sc.lookupPipe env (get1 buf 1) cntl
  match r.2 with
  | none => some r.1
  | some p =>
    if cntl &&& 1 ≠ 0 then
      if cntl &&& 2 ≠ 0 then r.1.receiveU env p buf sapi cntl
      else
        some ((r.1.checkNr env p (getNr (get1 buf 3))).respond env p cntl (get1 buf 3) (!response)
          false)
    else
      let i := r.1.receiveI env p (getNr cntl)
      some ((i.1.checkNr env p (getNr (get1 buf 3))).respond env p cntl (get1 buf 3) (!response) i.2)

/-- `dss1_l2_get_mbuf_timeout`. -/
def dss1L2GetMbufTimeout (sc : Softc) (p : PipeNo) : Softc :=
  if sc.connected then sc.modify p Pipe.retransmitUnacked else sc

end Softc

/-! ## Frames to layer 1 -/

/-- An I- or UI-frame for layer 1. -/
structure TxFrame where
  /-- The pipe whose queue it is from. -/
  pipe : PipeNo
  /-- The buffer in that queue. -/
  mbuf : Mbuf
  /-- A UI-frame. -/
  unnumbered : Bool
  /-- `sc_current_tx_nr`. -/
  txNr : Nat
  /-- What goes to layer 1. -/
  bytes : List UInt8
  deriving DecidableEq, Repr

/-- What `dss1_l2_get_mbuf` returns. -/
inductive Out where
  | control (bytes : List UInt8)
  | frame (f : TxFrame)
  deriving DecidableEq, Repr

/-- NT must invert the C/R bit of what it sends. -/
def invertCr (nt : Bool) : List UInt8 → List UInt8
  | [] => []
  | b :: bs => (if nt then b ^^^ 0x02 else b) :: bs

namespace Softc

/-- The message of a zero-length I-frame: a dummy `STATUS_ENQUIRY`, or nothing. -/
def zifBody (sc : Softc) : List UInt8 :=
  if sc.noStatusEnquiry then []
  else pdQ931 :: ((if sc.primaryRate then [2, 0x7f, 0] else [1, 0x7f]) ++ [0x75])

/-- The bytes of the frame a buffer is sent as. -/
def frameBytes (sc : Softc) (q : Pipe) (m : Mbuf) : List UInt8 :=
  let header : List Nat :=
    if q.state.isTeiAssigned then
      [makeSapi sapiCcp false, q.tei, (sc.curTxNr <<< 1) &&& 0xfe,
        ((q.rxNr <<< 1) &&& 0xfe) ||| (if sc.curLength = 1 then 1 else 0)]
    else [makeSapi sapiCcp false, teiBroadcast, cntlUi]
  let zif := m.len < if m.proto1 then iHeaderLen else iHeaderLen + 1
  invertCr sc.ntMode (header.map UInt8.ofNat
    ++ if zif then sc.zifBody else m.body.take (m.len - if m.proto1 then 3 else 4))

/-- The window of a pipe is opened, and the cursor set to its start. -/
def reopen (env : Env) (sc : Softc) (p : PipeNo) : Option Softc :=
  ((sc.pipe p).openWindow env sc.mbufs).map fun r =>
    { sc with
      pipe := Function.update sc.pipe p r.1
      mbufs := r.2
      curMbuf := r.1.queue.head?.map Mbuf.id
      curLength := r.1.txWindowSize
      curTxNr := r.1.txNr }

/-- The frame at the cursor is sent, and the cursor moves on; there is no frame when it could not
be copied. -/
def transmit (env : Env) (sc : Softc) (p : PipeNo) : Option (Softc × Option TxFrame) := do
  let i ← (sc.pipe p).find sc.curMbuf
  let unnumbered := ¬ (sc.pipe p).state.isTeiAssigned
  let sc' := if unnumbered then sc.modify p (Pipe.sendUnnumbered i) else sc
  let m ← (sc'.pipe p).queue[i]?
  let f : TxFrame := ⟨p, m, unnumbered, sc.curTxNr, sc.frameBytes (sc'.pipe p) m⟩
  let r := { sc' with
    curMbuf := ((sc'.pipe p).queue[i + 1]?).map Mbuf.id
    curLength := sc.curLength - 1
    curTxNr := (sc.curTxNr + 1) % 2 ^ 8 }.getmbuf env
  return (r.2, r.1.map fun _ => f)

/-- The pipes `dss1_l2_get_mbuf` sends from: those with a TEI, and the adapter of a bus. -/
def mayServe (sc : Softc) (p : PipeNo) : Prop :=
  (sc.pipe p).state.isTeiAssigned ∨ (sc.ntMode = true ∧ sc.pointToPoint = false ∧ p = adapter)

instance (sc : Softc) (p : PipeNo) : Decidable (sc.mayServe p) :=
  inferInstanceAs (Decidable (_ ∨ _))

/-- The softc a pipe is served with: its window is opened again if nothing is left in it. -/
def served (env : Env) (sc : Softc) (p : PipeNo) : Option Softc :=
  if (sc.pipe p).txWindowLength = 0 then sc.reopen env p else some sc

/-- One round of the loop of `dss1_l2_get_mbuf`, up to `if(m)`. -/
def servePipe (env : Env) (sc : Softc) (p : PipeNo) : Option (Softc × Option TxFrame) :=
  if sc.mayServe p then
    (sc.served env p).bind fun sc =>
      if sc.curLength ≠ 0 then sc.transmit env p else some (sc, none)
  else some (sc, none)

/-- The rest of a round that found no frame. -/
def passOver (sc : Softc) (p : PipeNo) : Softc :=
  let sc :=
    if (sc.pipe p).queue ≠ [] then sc.modify p fun q => { q with getMbufCallout := true } else sc
  { sc with curLength := 0 }

/-- The loop, with `n` rounds to go. -/
def serveFrom (env : Env) : Nat → Softc → PipeNo → Option (Softc × Option TxFrame)
  | 0, sc, p => some ({ sc with curPipe := p }, none)
  | n + 1, sc, p => do
    let r ← sc.servePipe env p
    match r.2 with
    | some f => return ({ r.1 with curPipe := p }, some f)
    | none => serveFrom env n (r.1.passOver p) (p + 1)

/-- `dss1_l2_get_mbuf`. -/
def dss1L2GetMbuf (env : Env) (sc : Softc) : Option (Softc × Option Out) :=
  match sc.queue with
  | c :: cs => some ({ sc with queue := cs }, some (.control (invertCr sc.ntMode c)))
  | [] => (serveFrom env 16 sc sc.curPipe).map fun r => (r.1, r.2.map Out.frame)

end Softc

/-! ## Events -/

/-- What may happen to a softc. -/
inductive Event where
  /-- A frame from layer 1. -/
  | putMbuf (buf : List UInt8)
  /-- Layer 1 fetches a frame. -/
  | getMbuf
  /-- `T200` of a pipe. -/
  | getMbufTimeout (p : PipeNo)
  /-- The state timer of a pipe. -/
  | setStateTimeout (p : PipeNo)
  | idRequestTimeout
  /-- Layer 3 asks for something on its own account. -/
  | down (d : Down)
  /-- Layer 1 goes up or down. -/
  | l1Activity (up : Bool)
  /-- The controller is detached: `dss1_setup_ft` without a protocol. -/
  | detach
  deriving DecidableEq, Repr

namespace Softc

/-- One pipe of a controller that goes away. -/
def detachPipe (env : Env) (sc : Softc) (p : PipeNo) : Softc :=
  (sc.dss1PipeSetState env p .pause).modify p fun q =>
    { q with setStateCallout := false, getMbufCallout := false }

/-- `dss1_setup_ft` for a controller that goes away. -/
def detach (env : Env) (sc : Softc) : Softc :=
  let sc := { sc with connected := false, l1Activity := false, curLength := 0 }
  let sc := (List.finRange 16).foldl (detachPipe env) { sc with idRequestCallout := false }
  { sc with queue := [] }

/-- One event, and what it hands to layer 1.  A timer that is not running does not expire. -/
def step (env : Env) (sc : Softc) : Event → Option (Softc × Option Out)
  | .putMbuf buf => (sc.dss1L2PutMbuf env buf).map fun sc => (sc, none)
  | .getMbuf => sc.dss1L2GetMbuf env
  | .getMbufTimeout p =>
    if (sc.pipe p).getMbufCallout then
      some ((sc.modify p fun q => { q with getMbufCallout := false }).dss1L2GetMbufTimeout p, none)
    else some (sc, none)
  | .setStateTimeout p =>
    if (sc.pipe p).setStateCallout then
      some ((sc.modify p fun q => { q with setStateCallout := false }).dss1PipeSetStateTimeout env p,
        none)
    else some (sc, none)
  | .idRequestTimeout => some ({ sc with idRequestCallout := false }, none)
  | .down d => some (sc.down env d, none)
  | .l1Activity up => some ({ sc with l1Activity := up }, none)
  | .detach => some (sc.detach env, none)

/-- A pipe after `dss1_setup_ft`. -/
def setupPipe (pointToPoint : Bool) (serialNumber : Nat) (p : PipeNo) : Pipe where
  state := .pause
  refcount := 0
  tei := if pointToPoint ∧ p = adapter then teiPoint2point else teiBroadcast
  serialNumber := (((serialNumber + p.val) * 2) ||| 1) % 2 ^ 16
  queue := []
  txWindowSize := 0
  txWindowLength := 0
  rxNr := 0
  txNr := 0
  getMbufCallout := false
  setStateCallout := false
  openNr := 0
  pauses := 0
  acks := 0

/-- `dss1_setup_ft` for a controller that is attached. -/
def setup (ntMode pointToPoint primaryRate noStatusEnquiry : Bool)
    (serialNumber maxChannels : Nat) : Softc where
  ntMode := ntMode
  pointToPoint := pointToPoint
  primaryRate := primaryRate
  noStatusEnquiry := noStatusEnquiry
  connected := true
  l1Activity := false
  teiLast := 0
  queue := []
  queueMax := max maxChannels 3 * if ntMode ∧ ¬ pointToPoint then 16 * 16 else 16
  pipeMax := max maxChannels 3 * 16
  idRequestCallout := false
  pipe := setupPipe pointToPoint serialNumber
  curPipe := adapter
  curMbuf := none
  curLength := 0
  curTxNr := 0
  mbufs := 0
  upcalls := 0

end Softc

end L2
end Isdn4bsd
