import Isdn4bsd.Isdnd.Types

/-!
# The ISDN daemon: its state machine

The functions of `fsm.c` and of `msg_decoder.h` that deal with calls.

* The functions `ev…` are what users, the kernel and the timer do with an entry.
* `Input` is what the daemon is told, and `Daemon.step` what it does then.

The numbers that are dialled, the charges and the displays are left out.

## What an entry goes through

An entry is idle, dials, waits after an attempt that failed, is offered a call, waits for its connection, or
is connected.  A state may have an end that comes by itself, and there are two numbers for it: how long
it lasts, and what is done then (`waitfunc`: 1 hangs up, 2 dials, 3 answers).  `cep_set_state` writes all
of them together with the time at which that was, and nothing else writes them.

* A call that is to go out goes from `ev_dial_from_user` to `dial_code`, which asks the kernel for a cdid
and then to dial.  If either fails, `dial_fail_code` decides between another attempt later and
giving up.
* A call that comes in goes through the entries in the order of the file.  An entry that accepts, rejects
or calls back ends the loop; those that ring do not, so more than one may be told.
* `ev_disconnect_from_i4b` is for every entry that has the cdid.  A call that was being dialled is treated
as an attempt that failed.

## The timer

`handle_recovery` looks at all entries once a second: a budget period may be over, and a state may have
timed out.  The loop ends as soon as it has hung up somewhere; the entries behind that one are looked at a
second later.

## The kernel

Whatever the kernel answers is in `Env`: the cdid it gives, and whether it dials.  So is the time.  An
environment belongs to one step, and there is no connection between those of two steps unless a theorem
asks for it.  What the daemon tells the kernel and the user is logged in `Daemon`, as `Output`.
-/

set_option autoImplicit false

namespace Isdn4bsd
namespace Isdnd

open L3 (Str cdidUnused maxControllers causeI4bNormal chanNotAny)

/-- `TIMEOUT_CONNECT_ACTIVE`. -/
def timeoutConnectActive : Nat := 30

/-- `CAUSE_I4B_REJECT`. -/
def causeI4bReject : Nat := 0x104

namespace Daemon

variable {n : Nat}

/-! ## States -/

/-- `cep_set_state`. -/
def cepSetState (env : Env n) (s : Daemon n) (e : Fin n) (state : State) (waittime waitfunc : Nat) :
    Daemon n :=
  s.modify e fun c =>
    { c with
      state := state
      lastSetStateTime := env.now
      waitfunc := waitfunc
      waittime := waittime }

/-- `response_to_user`. -/
def responseToUser (s : Daemon n) (e : Fin n) (status : Dstat) : Daemon n :=
  let c := s.cep e
  s.put (.responseToUser c.usrdevicename c.usrdeviceunit status c.discCause)

/-- `dial_fail_code`. -/
def dialFailCode (env : Env n) (s : Daemon n) (e : Fin n) : Daemon n :=
  let s := s.modify e fun c => { c with dialCount := c.dialCount + 1 }
  let c := s.cep e
  if c.dialCount < c.dialretries ∨ c.dialretries = -1 then
    -- inside the normal retry cycle
    s.cepSetState env e .dialFail
      (if c.IsCalledBack then c.calledbackwait
        else c.recoverytime + if c.dialrandincr then env.random e % 4 else 0) 2
  else if c.usedown then (s.responseToUser e .pfail).cepSetState env e .dialFail c.downtime 1
  else (s.responseToUser e .tfail).cepSetState env e .idle 0 0

/-! ## Disconnecting -/

/-- What `ev_disconnect_from_i4b` does with an entry that has the cdid. -/
def disconnectEntry (env : Env n) (s : Daemon n) (cause : Nat) (e : Fin n) : Daemon n :=
  let s := s.modify e fun c => { c with discCause := cause, discRemote := true }
  let s := if (s.cep e).state = .dial then s.dialFailCode env e else s
  let s :=
    if (s.cep e).state = .connected then
      (s.responseToUser e .notConnected).cepSetState env e .idle 0 0
    else s
  let s :=
    if (s.cep e).state = .incoming ∨ (s.cep e).state = .waitConnect then
      (s.responseToUser e .notConnected).cepSetState env e .idle 0 0
    else s
  s.modify e fun c => { c with cdid := cdidUnused }

/-- `ev_disconnect_from_i4b`. -/
def evDisconnectFromI4b (env : Env n) (s : Daemon n) (cdid cause : Nat) (except : Option (Fin n)) :
    Daemon n :=
  (List.finRange n).foldl
    (fun s e =>
      if (s.cep e).cdid = cdid ∧ some e ≠ except then s.disconnectEntry env cause e else s)
    s

/-- `ev_disconnect_from_user`. -/
def evDisconnectFromUser (env : Env n) (s : Daemon n) (e : Fin n) : Daemon n :=
  let s := s.modify e fun c => { c with discCause := causeI4bNormal, discRemote := false }
  let c := s.cep e
  let s :=
    if c.state = .dial ∨ c.state = .waitConnect ∨ c.state = .connected then
      s.put (.disconnectReq c.cdid causeI4bNormal)
    else s
  ((s.responseToUser e .notConnected).cepSetState env e .idle 0 0).modify e fun c =>
    { c with cdid := cdidUnused }

/-- `ev_reject_from_user`. -/
def evRejectFromUser (env : Env n) (s : Daemon n) (e : Fin n) : Daemon n :=
  let c := s.cep e
  if c.state = .incoming then
    (s.put (.connectResp c.cdid false causeI4bReject)).evDisconnectFromI4b env c.cdid causeI4bReject
      none
  else s

/-- `ev_alert_from_user`. -/
def evAlertFromUser (s : Daemon n) (e : Fin n) : Daemon n :=
  if (s.cep e).state = .incoming then s.put (.alertReq (s.cep e).cdid) else s

/-! ## Connecting -/

/-- `ev_connect_from_user`: all other entries that were offered the call lose it. -/
def evConnectFromUser (env : Env n) (s : Daemon n) (e : Fin n) : Daemon n :=
  let c := s.cep e
  if c.state = .incoming then
    ((s.put (.connectResp c.cdid true 0)).cepSetState env e .waitConnect timeoutConnectActive
        1).evDisconnectFromI4b env c.cdid causeI4bNormal (some e)
  else s

/-- The call is paid for. -/
def chargeBudget (c : Cep) : Cep :=
  match c.budgetCalltype with
  | some .cback =>
    { c with
      callbackAccount :=
        { c.callbackAccount with
          done := c.callbackAccount.done + 1
          cnt := c.callbackAccount.cnt - 1 }
      budgetCalltype := none }
  | some .cout =>
    { c with
      calloutAccount :=
        { c.calloutAccount with
          done := c.calloutAccount.done + 1
          cnt := c.calloutAccount.cnt - 1 }
      budgetCalltype := none }
  | none => c

/-- `ev_connect_from_i4b`. -/
def evConnectFromI4b (env : Env n) (s : Daemon n) (cdid : Nat) (channel : Int) : Daemon n :=
  match s.getCepByCdid cdid with
  | none => s
  | some e =>
    -- both sides cannot be called back
    let s :=
      if (s.cep e).state = .dial ∧ (s.cep e).IsCalledBack then s.evDisconnectFromUser env e else s
    if (s.cep e).state = .waitConnect ∨ (s.cep e).state = .dial then
      let s := (s.put (.linkBChannelDriverReq cdid)).responseToUser e .connected
      let limit := (s.cep e).maxconnecttime
      let s := (s.cepSetState env e .connected limit (if 0 < limit then 1 else 0)).modify e fun c =>
        { c with isdncontrollerused := cdid % maxControllers, isdnchannelused := channel }
      if (s.cep e).dirIncoming then s else s.modify e chargeBudget
    else s

/-! ## Dialling -/

/-- `sendm_connect_req`, and whether it succeeds. -/
def sendmConnectReq (env : Env n) (s : Daemon n) (e : Fin n) : Daemon n × Bool :=
  let s := s.put (.cdidReq (s.cep e).isdncontrollerused)
  match env.cdid e with
  | none => (s.modify e fun c => { c with cdid := cdidUnused }, false)
  | some cdid =>
    ((s.modify e fun c => { c with cdid := cdid }).put (.connectReq cdid), env.connect e)

/-- `dial_code`. -/
def dialCode (env : Env n) (s : Daemon n) (e : Fin n) : Daemon n :=
  if (s.cep e).inout = .inonly then (s.responseToUser e .inonly).cepSetState env e .idle 0 0
  else if ¬ isvalidtime env (s.cep e).toConfig then
    (s.responseToUser e .noEntry).cepSetState env e .idle 0 0
  else
    let s := s.modify e fun c =>
      { c with
        isdncontrollerused := c.isdncontroller
        isdnchannelused := c.isdnchannel
        discCause := causeI4bNormal
        discRemote := false
        dirIncoming := false }
    let r := s.sendmConnectReq env e
    if r.2 then r.1.cepSetState env e .dial 0 0 else r.1.dialFailCode env e

/-- A dial request is counted, and refused if there is no budget left. -/
def requestBudget (b : BudgetType) (c : Cep) : Cep :=
  match b with
  | .cback =>
    let a := { c.callbackAccount with req := c.callbackAccount.req + 1 }
    if a.cnt = 0 then { c with callbackAccount := { a with rej := a.rej + 1 } }
    else { c with callbackAccount := a, budgetCalltype := some .cback }
  | .cout =>
    let a := { c.calloutAccount with req := c.calloutAccount.req + 1 }
    if a.cnt = 0 then { c with calloutAccount := { a with rej := a.rej + 1 } }
    else { c with calloutAccount := a, budgetCalltype := some .cout }

/-- `ev_dial_from_user`. -/
def evDialFromUser (env : Env n) (s : Daemon n) (e : Fin n) : Daemon n :=
  if (s.cep e).state = .idle then
    let s := s.modify e fun c => { c with budgetCalltype := none, dialCount := 0 }
    if (s.cep e).dialinReaction = .callback then
      if (s.cep e).callback.Given then
        let s := s.modify e (requestBudget .cback)
        if (s.cep e).callbackAccount.cnt = 0 then s.dialFailCode env e
        else s.cepSetState env e .dialFail (s.cep e).callbackwait 2
      else s.cepSetState env e .dialFail (s.cep e).callbackwait 2
    else if (s.cep e).callout.Given then
      let s := s.modify e (requestBudget .cout)
      if (s.cep e).calloutAccount.cnt = 0 then s.dialFailCode env e else s.dialCode env e
    else s.dialCode env e
  else s

/-- `ev_dial_from_i4b`. -/
def evDialFromI4b (env : Env n) (s : Daemon n) (e : Fin n) : Daemon n :=
  if (s.cep e).state = .dialFail then s.dialCode env e else s

/-! ## Incoming calls -/

/-- Label `connect` of `ev_incoming_from_i4b`, and whether the loop ends. -/
def answerCall (env : Env n) (m : ConnectInd) (s : Daemon n) (e : Fin n) : Daemon n × Bool :=
  let s := (s.cepSetState env e .incoming (s.cep e).alert 3).modify e fun c =>
    { c with
      cdid := m.cdid
      isdncontrollerused := m.cdid % maxControllers
      isdnchannelused := m.channel
      dirIncoming := true }
  match (s.cep e).dialinReaction with
  | .accept => (s.evConnectFromUser env e, true)
  | .reject => (s.evRejectFromUser env e, true)
  | .alert =>
    (((s.cepSetState env e .incoming 0 0).responseToUser e .incomingCall).evAlertFromUser e, false)
  | .ignore => (s.evDisconnectFromUser env e, false)
  | .answer =>
    if (s.cep e).alert ≠ 0 then ((s.responseToUser e .incomingCall).evAlertFromUser e, false)
    else (s.evConnectFromUser env e, true)
  | .callback => ((s.evRejectFromUser env e).evDialFromUser env e, true)

/-- The loop of `ev_incoming_from_i4b`. -/
def incomingLoop (env : Env n) (m : ConnectInd) : List (Fin n) → Daemon n → Daemon n
  | [], s => s
  | e :: es, s =>
    let c := s.cep e
    if c.inout = .outonly then incomingLoop env m es s
    else if c.state = .idle ∨ c.state = .dialFail then
      if numberMatches env m c.toConfig then
        let r := s.answerCall env m e
        if r.2 then r.1 else incomingLoop env m es r.1
      else incomingLoop env m es s
    else if c.IsCalledBack ∧ numberMatches env m c.toConfig then
      -- some call in progress: the remote side calls back
      let r := (s.evDisconnectFromUser env e).answerCall env m e
      if r.2 then r.1 else incomingLoop env m es r.1
    else incomingLoop env m es s

/-- `ev_incoming_from_i4b`. -/
def evIncomingFromI4b (env : Env n) (s : Daemon n) (m : ConnectInd) : Daemon n :=
  if m.channel = chanNotAny then s else incomingLoop env m (List.finRange n) s

/-! ## The timer -/

/-- A new budget period begins, if the last one is over. -/
def renewAccount (now : Nat) (b : Budget) (a : Account) : Account :=
  if b.Given ∧ a.periodTime ≤ now then { a with periodTime := now + b.period, cnt := b.ncalls }
  else a

/-- The budgets in `handle_recovery`. -/
def renewBudgets (now : Nat) (c : Cep) : Cep :=
  { c with
    callbackAccount := renewAccount now c.callback c.callbackAccount
    calloutAccount := renewAccount now c.callout c.calloutAccount }

/-- The state of the entry timed out. -/
def TimedOut (env : Env n) (c : Cep) : Prop :=
  c.state ≠ .idle ∧ c.lastSetStateTime + c.waittime < env.now

instance (env : Env n) (c : Cep) : Decidable (TimedOut env c) :=
  inferInstanceAs (Decidable (_ ∧ _))

/-- The loop of `handle_recovery`; it ends at the first disconnect. -/
def recoveryLoop (env : Env n) : List (Fin n) → Daemon n → Daemon n
  | [], s => s
  | e :: es, s =>
    let s := s.modify e (renewBudgets env.now)
    if TimedOut env (s.cep e) then
      match (s.cep e).waitfunc with
      | 1 => s.evDisconnectFromUser env e
      | 2 => recoveryLoop env es (s.evDialFromI4b env e)
      | 3 => recoveryLoop env es (s.evConnectFromUser env e)
      | _ => recoveryLoop env es s
    else recoveryLoop env es s

/-- `handle_recovery`. -/
def handleRecovery (env : Env n) (s : Daemon n) : Daemon n :=
  if env.now ≠ s.lastTime then
    recoveryLoop env (List.finRange n) { s with lastTime := env.now }
  else s

end Daemon

/-! ## Events -/

/-- What the daemon is told. -/
inductive Input (n : Nat) where
  | connectInd (m : ConnectInd)
  | informationInd (cdid : Nat)
  | connectActiveInd (cdid : Nat) (channel : Int)
  | disconnectInd (cdid cause : Nat)
  | dialoutInd (driver unit : Nat)
  | dialoutnumberInd (driver unit : Nat) (cmd subaddr : Str)
  | keypadInd (driver unit : Nat)
  | drvrdiscReq (driver unit : Nat)
  | drvranswerReq (driver unit : Nat)
  | drvrrejectReq (driver unit : Nat)
  /-- The user hangs up, by the menu or by a monitor, or the answering program has ended. -/
  | hangup (e : Fin n)
  /-- The timer. -/
  | recovery
  /-- A message about charges, packets, layers 1 and 2, or alerting. -/
  | other

/-- The digits of `isdigit`. -/
def isDecimal (c : UInt8) : Prop := 0x30 ≤ c ∧ c ≤ 0x39

instance (c : UInt8) : Decidable (isDecimal c) := inferInstanceAs (Decidable (_ ∧ _))

instance (s : List UInt8) : Decidable (∀ c ∈ s, isDecimal c) := List.decidableBAll isDecimal s

namespace Daemon

variable {n : Nat}

/-- What is done with the entry for a driver; without one, the driver is told so. -/
def forDriver (s : Daemon n) (driver unit : Nat) (f : Fin n → Daemon n) : Daemon n :=
  match s.getCepByDriver driver unit with
  | some e => f e
  | none => s.put (.responseToUser driver unit .noEntry 0)

/-- `isdnrdhdl`, `handle_recovery` and the hangups. -/
def step (env : Env n) (s : Daemon n) : Input n → Daemon n
  | .connectInd m => s.evIncomingFromI4b env m
  | .informationInd cdid => s.put (.connectReplayReq cdid)
  | .connectActiveInd cdid channel => s.evConnectFromI4b env cdid channel
  | .disconnectInd cdid cause => s.evDisconnectFromI4b env cdid cause none
  | .dialoutInd driver unit => s.forDriver driver unit fun e => s.evDialFromUser env e
  | .dialoutnumberInd driver unit cmd subaddr =>
    s.forDriver driver unit fun e =>
      if (∀ c ∈ cmd, isDecimal c) ∧ ∀ c ∈ subaddr, isDecimal c then s.evDialFromUser env e else s
  | .keypadInd driver unit => s.forDriver driver unit fun e => s.evDialFromUser env e
  | .drvrdiscReq driver unit =>
    match s.getCepByDriver driver unit with
    | some e => s.evDisconnectFromUser env e
    | none => s
  | .drvranswerReq driver unit => s.forDriver driver unit fun e => s.evConnectFromUser env e
  | .drvrrejectReq driver unit => s.forDriver driver unit fun e => s.evRejectFromUser env e
  | .hangup e => s.evDisconnectFromUser env e
  | .recovery => s.handleRecovery env
  | .other => s

/-- The daemon starts. -/
def start (cfg : Fin n → Config) : Daemon n where
  cep e := { toConfig := cfg e }
  lastTime := 0
  out := []

/-- A run. -/
def run (s : Daemon n) (evs : List (Env n × Input n)) : Daemon n :=
  evs.foldl (fun s ev => s.step ev.1 ev.2) s

end Daemon

end Isdnd
end Isdn4bsd
