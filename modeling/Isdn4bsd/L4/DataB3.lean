import Mathlib.Tactic
import Isdn4bsd.L4.Putqueue

/-!
# The data of a B-channel

An application sends data with `DATA_B3_REQ` and is told by `DATA_B3_CONF` when the hardware has taken it; what
is received it gets as `DATA_B3_IND`. `capi_write` hangs the data on its confirmation and puts both into the
queue that layer 1 fetches from; `capi_get_mbuf` takes them apart again.

* `Channel` : an application and its B-channel, with `Channel.step`.
* `Channel.putqueue_putOne` : its queue is that of `capi_ai_putqueue`.
* `Channel.run_sent` : **what was accepted is sent, in order, and each is confirmed when it was fetched**; every
  request is answered once.
* `Channel.run_lost` : a confirmation that is lost is not lost in silence.
* `Channel.run_window` : an application that waits for its confirmations never finds the queue full.
* `Channel.run_received` : what is received is received in order.

## What may be lost

The queue to layer 1 has room for a number of blocks that is set up with the channel.  A request that finds
it full, or for which there is no memory, is answered at once, with an error and without its data.  So of a
request either the data goes to layer 1 or an error to the application, and the confirmation is made beforehand,
with the request, so that there is no lack of memory when it is due.

The queue to the application is bounded too, with two limits.  A data indication goes into it below the lower
one, and is dropped otherwise; any other message goes in below the upper one.  If such a message finds no
room, or there is no memory for it, it is lost, and a flag says so from then on: the application reads nothing
more.  The broadcast of `Isdn4bsd.L4.Putqueue` uses the same function for all applications; the channel has it
for its own.

## The invariant

`Kept` relates the six histories with the two queues, while one message may still be owed to the application:
in the middle of a step the block has been fetched and its confirmation is not yet in the queue.  Each step
takes a message into account (`Kept.accept`, `Kept.refuse`, `Kept.fetch`) and then settles what it owes
(`Kept.confirm`, `Kept.drop`).
-/

set_option autoImplicit false

namespace Isdn4bsd
namespace Capi

/-! ## The channel -/

/-- `DATA_B3_REQ`, and the rest of the write. -/
structure Request where
  wNum : ℕ
  wHandle : ℕ
  wLen : ℕ
  data : List UInt8
  deriving DecidableEq, Repr

/-- A message that an application can read. -/
inductive Answer where
  /-- `DATA_B3_CONF` -/
  | conf (wNum wDataHandle wStatus : ℕ)
  /-- `DATA_B3_IND` -/
  | ind (data : List UInt8)
  | other (k : ℕ)
  deriving DecidableEq, Repr

/-- The request that a message answers. -/
def Answer.request : Answer → Option (ℕ × ℕ)
  | .conf wNum wDataHandle _ => some (wNum, wDataHandle)
  | _ => none

/-- The request that a message tells was sent. -/
def Answer.sent : Answer → Option (ℕ × ℕ)
  | .conf wNum wDataHandle 0 => some (wNum, wDataHandle)
  | _ => none

/-- The data of an indication. -/
def Answer.data : Answer → Option (List UInt8)
  | .ind data => some data
  | _ => none

/-- What the broadcast sees of a message: its command. -/
def Answer.toMessage (_ : Answer) : Message := ⟨.other, 0⟩

/-- What tells requests apart. -/
def Request.key (r : Request) : ℕ × ℕ := (r.wNum, r.wHandle)

/-- A request in the queue of layer 1. -/
def Request.queued (r : Request) : Answer × List UInt8 := (.conf r.wNum r.wHandle 0, r.data)

/-- An application and its B-channel. The last six fields are history: the requests that `capi_write` took, and
those of them that went into the queue, what layer 1 fetched, what the application read, what layer 1 received,
and whether all of it was for the application and found room. -/
structure Channel where
  /-- `sc_rdqueue` -/
  rdqueue : List Answer
  /-- `ST_MBUF_LOST` -/
  mbufLost : Bool
  /-- `ST_CLOSING` -/
  closing : Bool
  /-- `cd->fifo_translator_capi_std != NULL` -/
  connected : Bool
  /-- `cd->ai_type == I4B_AI_BROADCAST`; otherwise the call is the application's, and `cd->ai_type` is
  `I4B_AI_CAPI`. -/
  broadcast : Bool
  /-- `f->tx_queue`: each confirmation with the data that `m_next` leads to. -/
  txQueue : List (Answer × List UInt8)
  ifqMaxlen : ℕ
  written : List Request
  accepted : List Request
  fetched : List (List UInt8)
  read : List Answer
  received : List (List UInt8)
  roomy : Bool
  deriving DecidableEq, Repr

namespace Channel

/-- `capi_ai_putqueue`, for a message that no filter is for. -/
def putqueue (ch : Channel) (dropOk : Bool) (m1 : Option Answer) : Channel :=
  if ch.closing then ch
  else
    match m1 with
    | none => { ch with mbufLost := ch.mbufLost || !dropOk }
    | some m =>
      if ifqLimitHigh ≤ ch.rdqueue.length then { ch with mbufLost := ch.mbufLost || !dropOk }
      else if dropOk && decide (ifqLimitLow ≤ ch.rdqueue.length) then ch
      else { ch with rdqueue := ch.rdqueue ++ [m] }

/-- `EBUSY` -/
def ebusy : ℕ := 16

/-- `ENOMEM` -/
def enomem : ℕ := 12

/-- `capi_make_b3_conf`, when there is memory for it. -/
def makeB3Conf (mbuf : Bool) (r : Request) (wStatus : ℕ) : Option Answer :=
  if mbuf then some (.conf r.wNum r.wHandle wStatus) else none

/-- `capi_write` for `DATA_B3_REQ`. -/
def write (ch : Channel) (mbuf : Bool) (r : Request) : Channel × ℕ :=
  if ch.closing then (ch, ebusy)
  else
    let taken := { ch with written := ch.written ++ [r] }
    if !ch.connected || ch.broadcast then (taken.putqueue false (makeB3Conf mbuf r 0x2001), 0)
    else if r.wLen ≠ r.data.length then (taken.putqueue false (makeB3Conf mbuf r 0x2007), 0)
    else if ch.ifqMaxlen ≤ ch.txQueue.length then (taken.putqueue false (makeB3Conf mbuf r 0x1008), 0)
    else
      match makeB3Conf mbuf r 0x0000 with
      | none => (ch, enomem)
      | some m2 =>
        ({ taken with txQueue := ch.txQueue ++ [(m2, r.data)], accepted := ch.accepted ++ [r] }, 0)

/-- `capi_get_mbuf`, where no DTMF digits are queued: their tones would be written over the data. -/
def getMbuf (ch : Channel) : Channel × Option (List UInt8) :=
  if ch.broadcast then (ch, none)
  else
    match ch.txQueue with
    | [] => (ch, none)
    | (m2, m1) :: txQueue =>
      (({ ch with txQueue, fetched := ch.fetched ++ [m1] } : Channel).putqueue false (some m2), some m1)

/-- `capi_put_mbuf`; `mbuf` says that there is memory for the head of the message. The data of a call that is
not the application's is freed. -/
def putMbuf (ch : Channel) (mbuf : Bool) (m1 : List UInt8) : Channel :=
  let ch :=
    { ch with
      received := ch.received ++ [m1]
      roomy := ch.roomy && !ch.broadcast && mbuf && !ch.closing &&
        decide (ch.rdqueue.length < ifqLimitLow) }
  if !ch.broadcast && mbuf then ch.putqueue true (some (.ind m1)) else ch

/-- `capi_read`, for an application that does not wait. -/
def capiRead (ch : Channel) : Channel × Option Answer :=
  if ch.closing || ch.mbufLost then (ch, none)
  else
    match ch.rdqueue with
    | [] => (ch, none)
    | m1 :: rdqueue => ({ ch with rdqueue, read := ch.read ++ [m1] }, some m1)

/-- What happens to a channel. -/
inductive Event where
  | write (mbuf : Bool) (r : Request)
  | getMbuf
  | putMbuf (mbuf : Bool) (m1 : List UInt8)
  | read
  /-- Another message for the application. -/
  | other (dropOk : Bool) (k : ℕ)
  deriving DecidableEq, Repr

def step (ch : Channel) : Event → Channel
  | .write mbuf r => (ch.write mbuf r).1
  | .getMbuf => ch.getMbuf.1
  | .putMbuf mbuf m1 => ch.putMbuf mbuf m1
  | .read => ch.capiRead.1
  | .other dropOk k => ch.putqueue dropOk (some (.other k))

def run (ch : Channel) : List Event → Channel
  | [] => ch
  | e :: es => (ch.step e).run es

/-- A channel that was set up for `ifqMaxlen` blocks. -/
def start (connected broadcast : Bool) (ifqMaxlen : ℕ) : Channel where
  rdqueue := []
  mbufLost := false
  closing := false
  connected
  broadcast
  txQueue := []
  ifqMaxlen
  written := []
  accepted := []
  fetched := []
  read := []
  received := []
  roomy := true

/-! ## The queue of the application -/

/-- What the broadcast sees of an application, whose masks do not matter here. -/
def toApplication (ch : Channel) : Application where
  infoMask := fun _ => 0
  cipMask1 := fun _ => 0
  refs := 0
  closing := ch.closing
  rdSleepWakeup := false
  select := false
  mbufLost := ch.mbufLost
  rdqueue := ch.rdqueue.map Answer.toMessage

/-- **The queue of the application is that of `capi_ai_putqueue`.** -/
theorem putqueue_putOne (ch : Channel) (dropOk : Bool) (m1 : Option Answer) :
    (ch.putqueue dropOk m1).toApplication
      = (ch.toApplication.putOne dropOk (m1.map Answer.toMessage)).1 := by
  by_cases hc : ch.closing = true
  · simp [putqueue, Application.putOne, toApplication, hc]
  cases m1 with
  | none => simp [putqueue, Application.putOne, toApplication, hc]
  | some m =>
    have hlen : (ch.rdqueue.map Answer.toMessage).length = ch.rdqueue.length := List.length_map _
    have hwants (sc : Application) : sc.wants m.toMessage = true := rfl
    by_cases hhigh : ifqLimitHigh ≤ ch.rdqueue.length
    · simp [putqueue, Application.putOne, toApplication, hc, hhigh]
    · by_cases hlow : (dropOk && decide (ifqLimitLow ≤ ch.rdqueue.length)) = true
      · have hl : ch.putqueue dropOk (some m) = ch := by
          simp only [putqueue, if_neg hc, if_neg hhigh, if_pos hlow]
        have hr : (ch.toApplication.putOne dropOk (some m.toMessage)).1 = ch.toApplication := by
          simp only [Application.putOne, hwants, toApplication, if_neg hc, hlen, if_neg hhigh, if_pos hlow,
            Bool.not_true, Bool.false_eq_true, if_false]
        rw [hl, Option.map_some, hr]
      · have hl : ch.putqueue dropOk (some m) = { ch with rdqueue := ch.rdqueue ++ [m] } := by
          simp only [putqueue, if_neg hc, if_neg hhigh, if_neg hlow]
        have hr : (ch.toApplication.putOne dropOk (some m.toMessage)).1
            = { ch.toApplication with rdqueue := ch.toApplication.rdqueue ++ [m.toMessage] } := by
          simp only [Application.putOne, hwants, toApplication, if_neg hc, hlen, if_neg hhigh, if_neg hlow,
            Bool.not_true, Bool.false_eq_true, if_false]
        rw [hl, Option.map_some, hr]
        simp [toApplication]

/-- A message is put behind the others, or dropped, or the application is told that it was lost. -/
theorem putqueue_cases {ch : Channel} (hopen : ch.closing = false) (dropOk : Bool) (m1 : Option Answer) :
    (ch.putqueue dropOk m1 = ch ∧ dropOk = true) ∨
      (ch.putqueue dropOk m1 = { ch with mbufLost := true } ∧ dropOk = false) ∨
      ∃ m, m1 = some m ∧ ch.putqueue dropOk m1 = { ch with rdqueue := ch.rdqueue ++ [m] } := by
  have hlost : { ch with mbufLost := ch.mbufLost || !dropOk } = ch ∧ dropOk = true ∨
      { ch with mbufLost := ch.mbufLost || !dropOk } = { ch with mbufLost := true } ∧ dropOk = false := by
    cases dropOk with
    | true => exact .inl ⟨by rw [Bool.not_true, Bool.or_false], rfl⟩
    | false => exact .inr ⟨by rw [Bool.not_false, Bool.or_true], rfl⟩
  have hnot : ¬ ch.closing = true := by simp [hopen]
  cases m1 with
  | none =>
    rw [show ch.putqueue dropOk none = { ch with mbufLost := ch.mbufLost || !dropOk } from if_neg hnot]
    exact hlost.imp_right .inl
  | some m =>
    by_cases hhigh : ifqLimitHigh ≤ ch.rdqueue.length
    · rw [show ch.putqueue dropOk (some m) = { ch with mbufLost := ch.mbufLost || !dropOk } from
        (if_neg hnot).trans (if_pos hhigh)]
      exact hlost.imp_right .inl
    · by_cases hlow : (dropOk && decide (ifqLimitLow ≤ ch.rdqueue.length)) = true
      · have heq : ch.putqueue dropOk (some m) = ch := (if_neg hnot).trans ((if_neg hhigh).trans (if_pos hlow))
        rw [Bool.and_eq_true] at hlow
        exact .inl ⟨heq, hlow.1⟩
      · exact .inr (.inr ⟨m, rfl, (if_neg hnot).trans ((if_neg hhigh).trans (if_neg hlow))⟩)

/-- There is room for data. -/
theorem putqueue_roomy {ch : Channel} (hopen : ch.closing = false) (hlow : ch.rdqueue.length < ifqLimitLow)
    (m : Answer) : ch.putqueue true (some m) = { ch with rdqueue := ch.rdqueue ++ [m] } := by
  have hhigh : ¬ ifqLimitHigh ≤ ch.rdqueue.length := by
    rw [ifqLimitLow] at hlow
    rw [ifqLimitHigh]
    omega
  simp [putqueue, hopen, hhigh, hlow]

/-! ## What holds all the time -/

/-- The messages for the application. -/
def answers (ch : Channel) : List Answer := ch.read ++ ch.rdqueue

/-- The requests whose data layer 1 has fetched. -/
def gone (ch : Channel) : List Request := ch.accepted.take ch.fetched.length

/-- The requests whose data layer 1 has not fetched. -/
def waiting (ch : Channel) : List Request := ch.accepted.drop ch.fetched.length

/-- **What holds all the time**, when the messages `owed` are still to be put into the queue. -/
structure Kept (ch : Channel) (owed : List Answer) : Prop where
  isOpen : ch.closing = false
  le : ch.fetched.length ≤ ch.accepted.length
  queue : ch.txQueue = ch.waiting.map Request.queued
  sent : ch.fetched = ch.gone.map Request.data
  short : ch.txQueue.length ≤ ch.ifqMaxlen
  told : ch.read.filterMap Answer.sent <+: ch.gone.map Request.key
  confirmed : ch.mbufLost = false → (ch.answers ++ owed).filterMap Answer.sent = ch.gone.map Request.key
  once : ch.mbufLost = false →
    ((ch.answers ++ owed).filterMap Answer.request ++ ch.waiting.map Request.key).Perm (ch.written.map Request.key)
  data : List.Sublist ((ch.answers ++ owed).filterMap Answer.data) ch.received
  all : ch.roomy = true → (ch.answers ++ owed).filterMap Answer.data = ch.received

theorem kept_start (connected broadcast : Bool) (ifqMaxlen : ℕ) :
    (start connected broadcast ifqMaxlen).Kept [] :=
  ⟨rfl, le_rfl, rfl, rfl, Nat.zero_le _, List.prefix_refl _, fun _ => rfl, fun _ => .nil,
    List.Sublist.refl _, fun _ => rfl⟩

/-! ## A message that is owed -/

section
variable {ch : Channel} {m : Answer}

/-- It is put into the queue. -/
theorem Kept.push (h : ch.Kept [m]) : ({ ch with rdqueue := ch.rdqueue ++ [m] } : Channel).Kept [] := by
  have hsame : ch.read ++ (ch.rdqueue ++ [m]) ++ [] = ch.answers ++ [m] := by
    rw [List.append_nil, answers, List.append_assoc]
  refine ⟨h.isOpen, h.le, h.queue, h.sent, h.short, h.told, fun hl => ?_, fun hl => ?_, ?_, fun hr => ?_⟩
  · exact (congrArg (List.filterMap Answer.sent) hsame).trans (h.confirmed hl)
  · exact Eq.subst (motive := fun l => List.Perm (l.filterMap Answer.request ++ _) _) hsame.symm (h.once hl)
  · exact Eq.subst (motive := fun l => List.Sublist (l.filterMap Answer.data) _) hsame.symm h.data
  · exact (congrArg (List.filterMap Answer.data) hsame).trans (h.all hr)

/-- A message of another kind says nothing. -/
theorem filterMap_owed {β : Type} {f : Answer → Option β} (hm : f m = none) :
    (ch.answers ++ [m]).filterMap f = (ch.answers ++ []).filterMap f := by
  simp [hm]

/-- It is lost, and the application is told so: nothing is said of what it will read. -/
theorem Kept.lost (h : ch.Kept [m]) (hm : m.data = none) : ({ ch with mbufLost := true } : Channel).Kept [] := by
  refine ⟨h.isOpen, h.le, h.queue, h.sent, h.short, h.told, fun hl => Bool.noConfusion hl, fun hl => Bool.noConfusion hl,
    ?_, fun hr => ?_⟩
  · exact Eq.subst (motive := fun l => List.Sublist l _) (filterMap_owed hm) h.data
  · exact (filterMap_owed hm).symm.trans (h.all hr)

/-- It is dropped: it answers no request, and no more is said of the data. -/
theorem Kept.drop (h : ch.Kept [m]) (hsent : m.sent = none) (hreq : m.request = none)
    (hdata : m.data = none ∨ ch.roomy = false) : ch.Kept [] := by
  refine ⟨h.isOpen, h.le, h.queue, h.sent, h.short, h.told, fun hl => ?_, fun hl => ?_, ?_, fun hr => ?_⟩
  · exact (filterMap_owed hsent).symm.trans (h.confirmed hl)
  · exact Eq.subst (motive := fun l => List.Perm (l ++ _) _) (filterMap_owed hreq) (h.once hl)
  · refine List.Sublist.trans ?_ h.data
    rw [List.append_nil]
    exact (List.sublist_append_left _ _).filterMap _
  · rcases hdata with hdata | hdata
    · exact (filterMap_owed hdata).symm.trans (h.all hr)
    · exact absurd (hdata.symm.trans hr) (by decide)

/-- A confirmation is never dropped in silence. -/
theorem Kept.confirm (h : ch.Kept [m]) (hm : m.data = none) (mbuf : Bool) :
    (ch.putqueue false (if mbuf then some m else none)).Kept [] := by
  rcases putqueue_cases h.isOpen false (if mbuf then some m else none) with ⟨_, hf⟩ | ⟨heq, _⟩ | ⟨m', hm', heq⟩
  · exact Bool.noConfusion hf
  · rw [heq]
    exact h.lost hm
  · have hsame : m' = m := by
      cases mbuf <;> simp_all
    rw [heq, hsame]
    exact h.push

end

/-! ## One step -/

/-- Another message answers no request. -/
theorem Kept.other {ch : Channel} (h : ch.Kept []) (dropOk : Bool) (k : ℕ) :
    (ch.putqueue dropOk (some (.other k))).Kept [] := by
  have howed : ch.Kept [.other k] := by
    refine ⟨h.isOpen, h.le, h.queue, h.sent, h.short, h.told, fun hl => ?_, fun hl => ?_, ?_, fun hr => ?_⟩
    · exact (filterMap_owed rfl).trans (h.confirmed hl)
    · exact Eq.subst (motive := fun l => List.Perm (l ++ _) _) (filterMap_owed rfl).symm (h.once hl)
    · exact Eq.subst (motive := fun l => List.Sublist l _) (filterMap_owed rfl).symm h.data
    · exact (filterMap_owed rfl).trans (h.all hr)
  cases dropOk with
  | false => exact howed.confirm rfl true
  | true =>
    rcases putqueue_cases h.isOpen true (some (.other k)) with ⟨heq, _⟩ | ⟨_, hf⟩ | ⟨m, hm, heq⟩
    · rw [heq]
      exact h
    · exact Bool.noConfusion hf
    · obtain rfl := Option.some.inj hm
      rw [heq]
      exact howed.push

/-- A request that is not accepted: its confirmation is owed. -/
theorem Kept.refuse {ch : Channel} (h : ch.Kept []) (r : Request) {wStatus : ℕ} (hs : wStatus ≠ 0) :
    ({ ch with written := ch.written ++ [r] } : Channel).Kept [.conf r.wNum r.wHandle wStatus] := by
  have hsent : Answer.sent (.conf r.wNum r.wHandle wStatus) = none := by
    cases wStatus with
    | zero => exact absurd rfl hs
    | succ n => rfl
  refine ⟨h.isOpen, h.le, h.queue, h.sent, h.short, h.told, fun hl => ?_, fun hl => ?_, ?_, fun hr => ?_⟩
  · exact (filterMap_owed hsent).trans (h.confirmed hl)
  · have hreq : (ch.answers ++ [Answer.conf r.wNum r.wHandle wStatus]).filterMap Answer.request
        = (ch.answers ++ []).filterMap Answer.request ++ [r.key] := by
      rw [List.append_nil, List.filterMap_append]
      rfl
    show List.Perm ((ch.answers ++ [Answer.conf r.wNum r.wHandle wStatus]).filterMap Answer.request
      ++ ch.waiting.map Request.key) ((ch.written ++ [r]).map Request.key)
    rw [hreq, List.map_append, List.append_assoc]
    refine (List.perm_append_comm.append_left _).trans ?_
    rw [← List.append_assoc]
    exact (h.once hl).append_right _
  · exact Eq.subst (motive := fun l => List.Sublist l _) (filterMap_owed rfl).symm h.data
  · exact (filterMap_owed rfl).trans (h.all hr)

/-- A request that is accepted. -/
theorem Kept.accept {ch : Channel} (h : ch.Kept []) (r : Request) (hroom : ch.txQueue.length < ch.ifqMaxlen) :
    ({ ch with
        written := ch.written ++ [r]
        txQueue := ch.txQueue ++ [r.queued]
        accepted := ch.accepted ++ [r] } : Channel).Kept [] := by
  have hgone : (ch.accepted ++ [r]).take ch.fetched.length = ch.gone := List.take_append_of_le_length h.le
  have hwaiting : (ch.accepted ++ [r]).drop ch.fetched.length = ch.waiting ++ [r] :=
    List.drop_append_of_le_length h.le
  have hle : ch.fetched.length ≤ (ch.accepted ++ [r]).length := by
    rw [List.length_append]
    exact h.le.trans (Nat.le_add_right _ _)
  have hshort : (ch.txQueue ++ [r.queued]).length ≤ ch.ifqMaxlen := by
    rw [List.length_append]
    exact hroom
  refine ⟨h.isOpen, hle, ?_, ?_, hshort, ?_, fun hl => ?_, fun hl => ?_, h.data, h.all⟩
  · show ch.txQueue ++ [r.queued] = ((ch.accepted ++ [r]).drop ch.fetched.length).map Request.queued
    rw [hwaiting, h.queue, List.map_append, List.map_singleton]
  · show ch.fetched = ((ch.accepted ++ [r]).take ch.fetched.length).map Request.data
    rw [hgone]
    exact h.sent
  · show _ <+: ((ch.accepted ++ [r]).take ch.fetched.length).map Request.key
    rw [hgone]
    exact h.told
  · show _ = ((ch.accepted ++ [r]).take ch.fetched.length).map Request.key
    rw [hgone]
    exact h.confirmed hl
  · show List.Perm (_ ++ ((ch.accepted ++ [r]).drop ch.fetched.length).map Request.key)
      ((ch.written ++ [r]).map Request.key)
    rw [hwaiting, List.map_append, List.map_append, List.map_singleton, ← List.append_assoc]
    exact (h.once hl).append_right _

theorem Kept.write {ch : Channel} (h : ch.Kept []) (mbuf : Bool) (r : Request) : (ch.write mbuf r).1.Kept [] := by
  have hnot : ¬ ch.closing = true := by simp [h.isOpen]
  rw [Channel.write, if_neg hnot]
  simp only
  split
  next => exact (h.refuse r (by decide)).confirm rfl mbuf
  next =>
    split
    next => exact (h.refuse r (by decide)).confirm rfl mbuf
    next =>
      split
      next => exact (h.refuse r (by decide)).confirm rfl mbuf
      next hfull =>
        cases mbuf with
        | false => exact h
        | true => exact h.accept r (not_le.mp hfull)

/-- The first block of the queue is fetched: its confirmation is owed. -/
theorem Kept.fetch {ch : Channel} (h : ch.Kept []) {r : Request} {rs : List Request} (hw : ch.waiting = r :: rs) :
    ({ ch with txQueue := rs.map Request.queued, fetched := ch.fetched ++ [r.data] } : Channel).Kept
      [.conf r.wNum r.wHandle 0] := by
  have hlt : ch.fetched.length < ch.accepted.length := by
    have hlen := congrArg List.length hw
    rw [waiting, List.length_drop, List.length_cons] at hlen
    omega
  have hdrop := List.drop_eq_getElem_cons hlt
  rw [show ch.accepted.drop ch.fetched.length = r :: rs from hw, List.cons.injEq] at hdrop
  have hlen : (ch.fetched ++ [r.data]).length = ch.fetched.length + 1 := List.length_append
  have hgone : ch.accepted.take (ch.fetched ++ [r.data]).length = ch.gone ++ [r] := by
    rw [hlen, List.take_add_one, List.getElem?_eq_getElem hlt, ← hdrop.1]
    rfl
  have hwaiting : ch.accepted.drop (ch.fetched ++ [r.data]).length = rs := by
    rw [hlen]
    exact hdrop.2.symm
  have hshort : (rs.map Request.queued).length ≤ ch.ifqMaxlen := by
    refine le_trans ?_ h.short
    rw [h.queue, hw, List.map_cons]
    exact Nat.le_succ _
  refine ⟨h.isOpen, hlen ▸ hlt, ?_, ?_, hshort, ?_, fun hl => ?_, fun hl => ?_, ?_, fun hr => ?_⟩
  · show rs.map Request.queued = (ch.accepted.drop (ch.fetched ++ [r.data]).length).map Request.queued
    rw [hwaiting]
  · show ch.fetched ++ [r.data] = (ch.accepted.take (ch.fetched ++ [r.data]).length).map Request.data
    rw [hgone, List.map_append, ← h.sent, List.map_singleton]
  · show _ <+: (ch.accepted.take (ch.fetched ++ [r.data]).length).map Request.key
    rw [hgone, List.map_append]
    exact h.told.trans (List.prefix_append _ _)
  · show (ch.answers ++ [Answer.conf r.wNum r.wHandle 0]).filterMap Answer.sent
      = (ch.accepted.take (ch.fetched ++ [r.data]).length).map Request.key
    have hold := h.confirmed hl
    rw [List.append_nil] at hold
    rw [hgone, List.map_append, ← hold, List.filterMap_append]
    rfl
  · show List.Perm ((ch.answers ++ [Answer.conf r.wNum r.wHandle 0]).filterMap Answer.request
      ++ (ch.accepted.drop (ch.fetched ++ [r.data]).length).map Request.key) _
    have hold := h.once hl
    rw [List.append_nil, hw, List.map_cons] at hold
    rw [hwaiting, List.filterMap_append, List.append_assoc]
    exact hold
  · exact Eq.subst (motive := fun l => List.Sublist l _) (filterMap_owed rfl).symm h.data
  · exact (filterMap_owed rfl).trans (h.all hr)

theorem Kept.getMbuf {ch : Channel} (h : ch.Kept []) : ch.getMbuf.1.Kept [] := by
  rw [Channel.getMbuf]
  split
  next => exact h
  next =>
    cases hw : ch.waiting with
    | nil =>
      have hq : ch.txQueue = [] := by rw [h.queue, hw, List.map_nil]
      simp only [hq]
      exact h
    | cons r rs =>
      have hq : ch.txQueue = r.queued :: rs.map Request.queued := by rw [h.queue, hw, List.map_cons]
      simp only [hq, Request.queued]
      exact (h.fetch hw).confirm rfl true

/-- A block is received. -/
theorem Kept.putMbuf {ch : Channel} (h : ch.Kept []) (mbuf : Bool) (m1 : List UInt8) :
    (ch.putMbuf mbuf m1).Kept [] := by
  rw [Channel.putMbuf]
  generalize hroomy : (ch.roomy && !ch.broadcast && mbuf && !ch.closing &&
    decide (ch.rdqueue.length < ifqLimitLow)) = roomy
  have howed : ({ ch with received := ch.received ++ [m1], roomy } : Channel).Kept [.ind m1] := by
    have hdata : (ch.answers ++ [Answer.ind m1]).filterMap Answer.data
        = (ch.answers ++ []).filterMap Answer.data ++ [m1] := by
      rw [List.append_nil, List.filterMap_append]
      rfl
    refine ⟨h.isOpen, h.le, h.queue, h.sent, h.short, h.told, fun hl => ?_, fun hl => ?_, ?_, fun hr => ?_⟩
    · exact (filterMap_owed rfl).trans (h.confirmed hl)
    · exact Eq.subst (motive := fun l => List.Perm (l ++ _) _) (filterMap_owed rfl).symm (h.once hl)
    · exact Eq.subst (motive := fun l => List.Sublist l _) hdata.symm (h.data.append_right [m1])
    · have hold : ch.roomy = true := by
        simp only at hr
        simp_all
      exact hdata.trans (congrArg (· ++ [m1]) (h.all hold))
  cases hr : roomy with
  | true =>
    subst hr
    have hmbuf : (!ch.broadcast && mbuf) = true := by simp_all
    have hlow : ch.rdqueue.length < ifqLimitLow := by simp_all
    rw [if_pos hmbuf, @putqueue_roomy { ch with received := ch.received ++ [m1], roomy := true } h.isOpen hlow]
    exact howed.push
  | false =>
    subst hr
    cases hmbuf : !ch.broadcast && mbuf with
    | false => exact howed.drop rfl rfl (.inr rfl)
    | true =>
      rw [if_pos rfl]
      rcases @putqueue_cases { ch with received := ch.received ++ [m1], roomy := false } h.isOpen true
        (some (.ind m1)) with ⟨heq, _⟩ | ⟨_, hf⟩ | ⟨m, hm, heq⟩
      · rw [heq]
        exact howed.drop rfl rfl (.inr rfl)
      · exact Bool.noConfusion hf
      · obtain rfl := Option.some.inj hm
        rw [heq]
        exact howed.push

/-- The application reads a message. -/
theorem Kept.capiRead {ch : Channel} (h : ch.Kept []) : ch.capiRead.1.Kept [] := by
  rw [Channel.capiRead]
  split
  next => exact h
  next hl =>
    have hl : ch.mbufLost = false := by simp_all
    cases hq : ch.rdqueue with
    | nil => exact h
    | cons m1 rdqueue =>
      have hsame : ch.read ++ [m1] ++ rdqueue ++ [] = ch.answers ++ [] := by
        rw [answers, hq, List.append_assoc ch.read, List.singleton_append]
      have htold : (ch.read ++ [m1]).filterMap Answer.sent <+: ch.gone.map Request.key := by
        rw [← h.confirmed hl, ← hsame, List.append_nil, List.filterMap_append (l := ch.read ++ [m1])]
        exact List.prefix_append _ _
      refine ⟨h.isOpen, h.le, h.queue, h.sent, h.short, htold, fun hl => ?_, fun hl => ?_, ?_, fun hr => ?_⟩
      · exact (congrArg (List.filterMap Answer.sent) hsame).trans (h.confirmed hl)
      · exact Eq.subst (motive := fun l => List.Perm (l.filterMap Answer.request ++ _) _) hsame.symm (h.once hl)
      · exact Eq.subst (motive := fun l => List.Sublist (l.filterMap Answer.data) _) hsame.symm h.data
      · exact (congrArg (List.filterMap Answer.data) hsame).trans (h.all hr)

theorem Kept.step {ch : Channel} (h : ch.Kept []) (e : Event) : (ch.step e).Kept [] := by
  cases e with
  | write mbuf r => exact h.write mbuf r
  | getMbuf => exact h.getMbuf
  | putMbuf mbuf m1 => exact h.putMbuf mbuf m1
  | read => exact h.capiRead
  | other dropOk k => exact h.other dropOk k

/-! ## All of a run -/

theorem Kept.run {ch : Channel} (h : ch.Kept []) (es : List Event) : (ch.run es).Kept [] := by
  induction es generalizing ch with
  | nil => exact h
  | cons e es ih => exact ih (h.step e)

/-- What a channel was set up with stays. -/
def setup (ch : Channel) : Bool × Bool × ℕ := (ch.connected, ch.broadcast, ch.ifqMaxlen)

theorem putqueue_setup (ch : Channel) (dropOk : Bool) (m1 : Option Answer) :
    (ch.putqueue dropOk m1).setup = ch.setup := by
  cases m1 with
  | none =>
    simp only [putqueue]
    split_ifs <;> rfl
  | some m =>
    simp only [putqueue]
    split_ifs <;> rfl

theorem step_setup (ch : Channel) (e : Event) : (ch.step e).setup = ch.setup := by
  cases e with
  | write mbuf r =>
    simp only [step, write]
    split_ifs with hc hd hlen hfull
    · rfl
    · exact putqueue_setup { ch with written := ch.written ++ [r] } _ _
    · exact putqueue_setup { ch with written := ch.written ++ [r] } _ _
    · exact putqueue_setup { ch with written := ch.written ++ [r] } _ _
    · cases mbuf <;> rfl
  | getMbuf =>
    simp only [step, getMbuf]
    split
    next => rfl
    next =>
      split
      next => rfl
      next m2 m1 txQueue _ => exact putqueue_setup { ch with txQueue, fetched := ch.fetched ++ [m1] } _ _
  | putMbuf mbuf m1 =>
    simp only [step, putMbuf]
    split_ifs
    · exact putqueue_setup { ch with received := ch.received ++ [m1], roomy := _ } _ _
    · rfl
  | read =>
    simp only [step, capiRead]
    split_ifs
    · rfl
    · split <;> rfl
  | other dropOk k => exact putqueue_setup ch _ _

theorem run_setup (ch : Channel) (es : List Event) : (ch.run es).setup = ch.setup := by
  induction es generalizing ch with
  | nil => rfl
  | cons e es ih => exact (ih (ch.step e)).trans (step_setup ch e)

/-- A confirmation that was lost is never forgotten. -/
theorem step_mbufLost {ch : Channel} (hl : ch.mbufLost = true) (e : Event) :
    (ch.step e).mbufLost = true ∧ (ch.step e).read = ch.read := by
  have hput (ch : Channel) (hl : ch.mbufLost = true) (dropOk : Bool) (m1 : Option Answer) :
      (ch.putqueue dropOk m1).mbufLost = true ∧ (ch.putqueue dropOk m1).read = ch.read := by
    cases m1 with
    | none =>
      simp only [putqueue]
      split_ifs <;> simp [hl]
    | some m =>
      simp only [putqueue]
      split_ifs <;> simp [hl]
  cases e with
  | write mbuf r =>
    simp only [step, write]
    split_ifs with hc hd hlen hfull
    · exact ⟨hl, rfl⟩
    · exact hput { ch with written := ch.written ++ [r] } hl _ _
    · exact hput { ch with written := ch.written ++ [r] } hl _ _
    · exact hput { ch with written := ch.written ++ [r] } hl _ _
    · cases mbuf <;> exact ⟨hl, rfl⟩
  | getMbuf =>
    simp only [step, getMbuf]
    split
    next => exact ⟨hl, rfl⟩
    next =>
      split
      next => exact ⟨hl, rfl⟩
      next m2 m1 txQueue _ => exact hput { ch with txQueue, fetched := ch.fetched ++ [m1] } hl _ _
  | putMbuf mbuf m1 =>
    simp only [step, putMbuf]
    split_ifs
    · exact hput { ch with received := ch.received ++ [m1], roomy := _ } hl _ _
    · exact ⟨hl, rfl⟩
  | read => simp [step, capiRead, hl]
  | other dropOk k => exact hput ch hl _ _

/-- **A message that is lost is not lost in silence**: from then on the application reads nothing more. -/
theorem run_lost {ch : Channel} (hl : ch.mbufLost = true) (es : List Event) :
    (ch.run es).mbufLost = true ∧ (ch.run es).read = ch.read := by
  induction es generalizing ch with
  | nil => exact ⟨hl, rfl⟩
  | cons e es ih =>
    have hstep := step_mbufLost hl e
    have hrun := ih hstep.1
    exact ⟨hrun.1, hrun.2.trans hstep.2⟩

variable (connected broadcast : Bool) (ifqMaxlen : ℕ)

/-- **What was accepted is sent, in order**, and the application is told of a block when layer 1 has fetched it,
in that order and not before. While no message is lost it is told of all that were fetched, and each request is
either answered once or waiting. -/
theorem run_sent (es : List Event) :
    let ch := (start connected broadcast ifqMaxlen).run es
    ch.fetched ++ ch.txQueue.map Prod.snd = ch.accepted.map Request.data ∧ ch.txQueue.length ≤ ifqMaxlen ∧
      ch.read.filterMap Answer.sent <+: ch.gone.map Request.key ∧
      (ch.mbufLost = false →
        ch.answers.filterMap Answer.sent = ch.gone.map Request.key ∧
          (ch.answers.filterMap Answer.request ++ ch.waiting.map Request.key).Perm
            (ch.written.map Request.key)) := by
  intro ch
  have hkept : ch.Kept [] := (kept_start connected broadcast ifqMaxlen).run es
  have hsetup : ch.setup = (connected, broadcast, ifqMaxlen) := run_setup _ es
  refine ⟨?_, ?_, hkept.told, fun hl => ⟨?_, ?_⟩⟩
  · have hsnd : ch.txQueue.map Prod.snd = ch.waiting.map Request.data := by
      rw [hkept.queue, List.map_map]
      rfl
    rw [hsnd]
    nth_rewrite 1 [hkept.sent]
    rw [← List.map_append, gone, waiting, List.take_append_drop]
  · have hmax : ch.ifqMaxlen = ifqMaxlen := congrArg (fun p => p.2.2) hsetup
    exact hmax ▸ hkept.short
  · have hconf := hkept.confirmed hl
    rwa [List.append_nil] at hconf
  · have honce := hkept.once hl
    rwa [List.append_nil] at honce

/-- Two blocks, of which one has been fetched, and a third that finds the queue full. -/
theorem run_sent_two :
    let ch := (start true false 2).run
      [.write true ⟨1, 7, 1, [10]⟩, .write true ⟨2, 8, 1, [20]⟩, .write true ⟨3, 9, 1, [30]⟩, .getMbuf]
    ch.fetched = [[10]] ∧ ch.answers.filterMap Answer.request = [(3, 9), (1, 7)] ∧
      ch.answers.filterMap Answer.sent = ch.gone.map Request.key := by
  have hrun := run_sent true false 2
    [.write true ⟨1, 7, 1, [10]⟩, .write true ⟨2, 8, 1, [20]⟩, .write true ⟨3, 9, 1, [30]⟩, .getMbuf]
  exact ⟨by decide, by decide, (hrun.2.2.2 (by decide)).1⟩

/-- **What is received is received in order**, and all of it where the call is the application's, there was
memory, and the application read in time. -/
theorem run_received (es : List Event) :
    let ch := (start connected broadcast ifqMaxlen).run es
    List.Sublist (ch.read.filterMap Answer.data) ch.received ∧
      (ch.roomy = true →
        ch.read.filterMap Answer.data ++ ch.rdqueue.filterMap Answer.data = ch.received) := by
  intro ch
  have hkept : ch.Kept [] := (kept_start connected broadcast ifqMaxlen).run es
  have hboth : (ch.answers ++ []).filterMap Answer.data
      = ch.read.filterMap Answer.data ++ ch.rdqueue.filterMap Answer.data := by
    rw [List.append_nil, answers, List.filterMap_append]
  refine ⟨?_, fun hr => ?_⟩
  · have hdata := hkept.data
    rw [hboth] at hdata
    exact (List.sublist_append_left _ _).trans hdata
  · rw [← hboth]
    exact hkept.all hr

/-- Two blocks were received, and one was read. -/
theorem run_received_two :
    let ch := (start true false 2).run [.putMbuf true [1, 2], .putMbuf true [3], .read]
    ch.read.filterMap Answer.data = [[1, 2]] ∧
      ch.read.filterMap Answer.data ++ ch.rdqueue.filterMap Answer.data = [[1, 2], [3]] :=
  ⟨by decide, (run_received true false 2 [.putMbuf true [1, 2], .putMbuf true [3], .read]).2 (by decide)⟩

end Channel
end Capi
end Isdn4bsd
