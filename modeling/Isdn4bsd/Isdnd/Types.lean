import Isdn4bsd.L3.Types

/-!
# The ISDN daemon: configuration entries

`isdnd` has a table of configuration entries, each for one remote party, and each with at most one
call.

* `Config` is what the configuration file says about an entry, and `Cep` the entry with its call.
* `Daemon` is the table; all ioctls that were issued are logged in it.
* `numberMatches` and `isvalidtime` say which entries an incoming call is for, and when.

## The entry

`cfg_entry_t` is one large structure in the source.  The fields that come from the configuration file do
not change while the daemon runs, and are a structure of their own here, so that a function which leaves
the configuration alone can say so in one equation.  The others are the call: its state with the time it
was set and what is to be done when it has lasted too long, the cdid, the channel, the tries, and the two
budgets with what is left of them.

The table has a fixed number of entries while the daemon runs, and an entry is referred to by its place.
The order of the table is the order of the file, and it matters: `get_cep_by_cdid` and `get_cep_by_driver`
take the first entry that they find, and an incoming call is for the first entry that matches it.

## What comes from outside

`Env` is what one step asks of the world: the time, a random number, and the answers of the kernel.  Every
step has an environment of its own.  What the daemon does to the world are ioctls, and these are logged in
the order in which they are issued.

## Matching

A number of a call is compared as far as the number in the configuration goes, and with `*` there every
number will do.  The time is compared as `isvalidtime` does it, hours and minutes one by one; what it
should come to is the matter of a module of its own.
-/

set_option autoImplicit false

namespace Isdn4bsd
namespace Isdnd

open L3 (Str cdidUnused maxControllers)

/-- `STATES`. -/
inductive State where
  | idle
  | dial
  | dialFail
  | incoming
  | waitConnect
  | connected
  deriving DecidableEq, Repr

/-- `REACT_*`. -/
inductive Reaction where
  | accept
  | reject
  | ignore
  | answer
  | callback
  | alert
  deriving DecidableEq, Repr

/-- `DIR_*`. -/
inductive Inout where
  | inout
  | inonly
  | outonly
  deriving DecidableEq, Repr

/-- `BUDGET_TYPE_*`. -/
inductive BudgetType where
  | cback
  | cout
  deriving DecidableEq, Repr

/-- `DSTAT_*`, as far as the daemon sends them. -/
inductive Dstat where
  | notConnected
  | incomingCall
  | connected
  | tfail
  | pfail
  | inonly
  | noEntry
  deriving DecidableEq, Repr

/-- `number_t`. -/
structure Number where
  number : Str
  subaddr : Str
  deriving DecidableEq, Repr

/-- The length of a budget period, and the calls in it. -/
structure Budget where
  period : Nat
  ncalls : Nat
  deriving DecidableEq, Repr

/-- There is such a budget. -/
def Budget.Given (b : Budget) : Prop := b.period ≠ 0 ∧ b.ncalls ≠ 0

instance (b : Budget) : Decidable b.Given := inferInstanceAs (Decidable (_ ∧ _))

/-- The end of the current period, the calls that are left in it, and the statistics. -/
structure Account where
  periodTime : Nat := 0
  cnt : Int := 0
  req : Nat := 0
  done : Nat := 0
  rej : Nat := 0
  deriving DecidableEq, Repr

/-- The part of `cfg_entry_t` that comes from the configuration file, as far as it decides about
calls. -/
structure Config where
  isdncontroller : Nat
  isdnchannel : Int
  usrdevicename : Nat
  usrdeviceunit : Nat
  localPhoneIncoming : Number
  remotePhoneIncoming : List Number
  dialinReaction : Reaction
  bprotocol : Nat
  callbackwait : Nat
  calledbackwait : Nat
  dialretries : Int
  recoverytime : Nat
  dialrandincr : Bool
  usedown : Bool
  downtime : Nat
  /-- `DIALOUT_CALLEDBACK` -/
  dialoutCalledback : Bool
  alert : Nat
  inout : Inout
  usesubaddr : Bool
  callback : Budget
  callout : Budget
  day : Nat
  fromhr : Nat
  frommin : Nat
  tohr : Nat
  tomin : Nat
  maxconnecttime : Nat
  deriving DecidableEq, Repr

/-- `cfg_entry_t`; at first there is no call. -/
structure Cep extends Config where
  lastSetStateTime : Nat := 0
  waittime : Nat := 0
  waitfunc : Nat := 0
  cdid : Nat := cdidUnused
  isdncontrollerused : Nat := 0
  isdnchannelused : Int := 0
  state : State := .idle
  discCause : Nat := 0
  /-- `DISC_LOCATION_REMOTE` -/
  discRemote : Bool := false
  dirIncoming : Bool := false
  dialCount : Int := 0
  callbackAccount : Account := {}
  calloutAccount : Account := {}
  budgetCalltype : Option BudgetType := none
  deriving DecidableEq, Repr

/-- `CEP_IS_CALLED_BACK`. -/
def Config.IsCalledBack (c : Config) : Prop :=
  c.dialinReaction = .accept ∧ c.dialoutCalledback = true

instance (c : Config) : Decidable c.IsCalledBack := inferInstanceAs (Decidable (_ ∧ _))

/-- An ioctl of the daemon. -/
inductive Output where
  | cdidReq (controller : Nat)
  | connectReq (cdid : Nat)
  | connectResp (cdid : Nat) (accept : Bool) (cause : Nat)
  | disconnectReq (cdid cause : Nat)
  | alertReq (cdid : Nat)
  | connectReplayReq (cdid : Nat)
  | linkBChannelDriverReq (cdid : Nat)
  | responseToUser (driver unit : Nat) (status : Dstat) (cause : Nat)
  deriving DecidableEq, Repr

/-- `cfg_entry_tab`, and the time of the last recovery. -/
structure Daemon (n : Nat) where
  cep : Fin n → Cep
  lastTime : Nat
  out : List Output

/-- What the daemon does not know by itself, while it deals with an event. -/
structure Env (n : Nat) where
  /-- The time, and the local time. -/
  now : Nat
  hour : Nat
  min : Nat
  wday : Nat
  holiday : Bool
  /-- `random`, for an entry. -/
  random : Fin n → Nat
  /-- What `I4B_CDID_REQ` returns, if that entry dials. -/
  cdid : Fin n → Option Nat
  /-- Does `I4B_CONNECT_REQ` succeed then? -/
  connect : Fin n → Bool

/-- `CHAN_NOT_ANY` is the channel of a call that waits.  The numbers are those that
`add_number_prefix` leaves. -/
structure ConnectInd where
  cdid : Nat
  channel : Int
  bprot : Nat
  srcTelno : Str
  srcSubaddr : Str
  dstTelno : Str
  dstSubaddr : Str

namespace Daemon

variable {n : Nat}

/-- An entry is changed. -/
def modify (s : Daemon n) (e : Fin n) (f : Cep → Cep) : Daemon n :=
  { s with cep := Function.update s.cep e (f (s.cep e)) }

def put (s : Daemon n) (o : Output) : Daemon n := { s with out := s.out ++ [o] }

theorem modify_cep_self (s : Daemon n) (e : Fin n) (f : Cep → Cep) :
    (s.modify e f).cep e = f (s.cep e) := Function.update_self _ _ _

theorem modify_cep_of_ne (s : Daemon n) {e e' : Fin n} (f : Cep → Cep) (h : e' ≠ e) :
    (s.modify e f).cep e' = s.cep e' := Function.update_of_ne h _ _

/-- `get_cep_by_cdid`. -/
def getCepByCdid (s : Daemon n) (cdid : Nat) : Option (Fin n) :=
  (List.finRange n).find? fun e => (s.cep e).cdid = cdid

/-- `get_cep_by_driver`. -/
def getCepByDriver (s : Daemon n) (drivertype driverunit : Nat) : Option (Fin n) :=
  (List.finRange n).find? fun e =>
    (s.cep e).usrdevicename = drivertype ∧ (s.cep e).usrdeviceunit = driverunit

end Daemon

/-! ## Times and numbers -/

/-- `HD`. -/
def hd : Nat := 0x80

/-- `isvalidtime`. -/
def isvalidtime {n : Nat} (env : Env n) (c : Config) : Prop :=
  c.day = 0 ∨
    ((c.day &&& hd ≠ 0 ∧ env.holiday = true) ∨ c.day &&& 1 <<< env.wday ≠ 0) ∧
      ((c.fromhr = 0 ∧ c.frommin = 0 ∧ c.tohr = 0 ∧ c.tomin = 0) ∨
        if c.tohr < c.fromhr then
          -- before midnight, and after it
          (c.fromhr < env.hour ∨ (env.hour = c.fromhr ∧ c.frommin < env.min)) ∨
            (env.hour < c.tohr ∨ (env.hour = c.tohr ∧ env.min < c.tomin))
        else if c.fromhr = c.tohr then c.frommin ≤ env.min ∧ env.min < c.tomin
        else
          (c.fromhr < env.hour ∧ env.hour < c.tohr) ∨
            (env.hour = c.fromhr ∧ c.frommin ≤ env.min) ∨ (env.hour = c.tohr ∧ env.min < c.tomin))

instance {n : Nat} (env : Env n) (c : Config) : Decidable (isvalidtime env c) := by
  unfold isvalidtime
  infer_instance

/-- Any number will do. -/
def anyNumber : UInt8 := 0x2a

/-- One round of the loop of `number_matches`. -/
def remoteMatches (m : ConnectInd) (c : Config) (allowed : Number) : Prop :=
  (allowed.number.head? = some anyNumber ∨ allowed.number <+: m.srcTelno) ∧
    (c.usesubaddr = true →
      allowed.subaddr.head? = some anyNumber ∨ allowed.subaddr <+: m.srcSubaddr)

instance (m : ConnectInd) (c : Config) (allowed : Number) :
    Decidable (remoteMatches m c allowed) := inferInstanceAs (Decidable (_ ∧ _))

/-- `number_matches`. -/
def numberMatches {n : Nat} (env : Env n) (m : ConnectInd) (c : Config) : Prop :=
  c.localPhoneIncoming.number <+: m.dstTelno ∧
    (c.usesubaddr = true → c.localPhoneIncoming.subaddr <+: m.dstSubaddr) ∧
      (∃ allowed ∈ c.remotePhoneIncoming, remoteMatches m c allowed) ∧
        c.bprotocol = m.bprot ∧ c.isdncontroller = m.cdid % maxControllers ∧ isvalidtime env c

instance {n : Nat} (env : Env n) (m : ConnectInd) (c : Config) :
    Decidable (numberMatches env m c) := inferInstanceAs (Decidable (_ ∧ _))

end Isdnd
end Isdn4bsd
