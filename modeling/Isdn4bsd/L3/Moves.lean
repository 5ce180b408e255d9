import Isdn4bsd.L3.Timeouts
import Mathlib.Logic.Relation

/-!
# Layer 3: the moves of the state machine

Whatever the state machine does, it does by a few kinds of move.

* `CallDesc.words`: the part of a descriptor that was said by the other end, or is to be said to it.
* `Move`: a move changes other data, tells or asks something else, or sends a message; only the
  digits that are waiting are changed by it, and the place where more of them go.
* `Moves.cdUpdate`: **an event is a sequence of moves.**
* `Drift`: what becomes of a descriptor; `Moves.rel` is the rule for relations that moves keep to.

## A third view of the same functions

`Isdn4bsd.L3.Refine` is about what calls own, and `Isdn4bsd.L3.Effects` about whom they belong to.  This one
is about numbers and texts, and about the messages that are sent: which strings a message can be made of, and
whether the digits of a call are still those that were received.  `Line` has no strings, so there is one lemma
for each function again; they are short, as a function is the moves of the functions it calls.

A move is for one call.  Some of them are made only in the course of an action that may do anything (`all`):
an outgoing call that is dealt with may have its SETUP repeated, and other calls on its pipe too.  Where only
moves that can be made at any time are left, the digits of an incoming call are safe.

## The rule

A relation on descriptors that is reflexive and transitive, and that all drifts keep to (`Lax`), holds between
a descriptor before any sequence of moves and after it.  The invariants of `Strings`, `Digits` and `Release`
are proved by this rule, without another look at the state machine.
-/

set_option autoImplicit false

namespace Isdn4bsd
namespace L3

open L2 (PipeNo adapter)

/-! ## Words

The strings of a descriptor are written when a call is set up, by a message or by a request, and when more
digits of a number arrive.  All other functions read them at most.  `Mute` is what these do to a descriptor,
and `CallDesc.collected` and `CallDesc.flushed` are what happens to digits that are waiting.
-/

/-- The numbers and texts of a descriptor. -/
structure Words where
  dirIncoming : Bool
  cr : Nat
  dstTelno : List UInt8
  dstTelnoPtr : Nat
  dstTelnoPart : Str
  dstTelnoEarly : Str
  dstSubaddr : Str
  src0 : SrcTelno
  src1 : SrcTelno
  keypad : Str
  userUser : Str
  display : Str

/-- What was said by the other end, or is to be said to it. -/
def CallDesc.words (cd : CallDesc) : Words where
  dirIncoming := cd.dirIncoming
  cr := cd.cr
  dstTelno := cd.dstTelno
  dstTelnoPtr := cd.dstTelnoPtr
  dstTelnoPart := cd.dstTelnoPart
  dstTelnoEarly := cd.dstTelnoEarly
  dstSubaddr := cd.dstSubaddr
  src0 := cd.src0
  src1 := cd.src1
  keypad := cd.keypad
  userUser := cd.userUser
  display := cd.display

/-- Nothing that is said is changed, and no call begins. -/
structure Mute (cd cd' : CallDesc) : Prop where
  words : cd'.words = cd.words
  cdid : cd'.cdid = cd.cdid ∨ cd'.cdid = cdidUnused

theorem Mute.refl {cd : CallDesc} : Mute cd cd := ⟨rfl, .inl rfl⟩

theorem Mute.dirIncoming {cd cd' : CallDesc} (h : Mute cd cd') : cd'.dirIncoming = cd.dirIncoming :=
  congrArg Words.dirIncoming h.words

/-- The place for more digits, after the number that was sent. -/
def CallDesc.placed (cd : CallDesc) : CallDesc :=
  { cd with
    dstTelnoPtr := if (cstr cd.dstTelno).length ≠ 0 then (cstr cd.dstTelno).length
      else cd.dstTelnoPtr }

/-- The digits of a request wait until they can be sent. -/
def CallDesc.collected (cd : CallDesc) : CallDesc :=
  { cd with dstTelnoEarly := (cd.dstTelnoEarly ++ cd.dstTelnoPart).take (telnoMax - 1) }

/-- They do not wait any more. -/
def CallDesc.flushed (cd : CallDesc) : CallDesc := { cd with dstTelnoEarly := [] }

theorem Mute.flushed {cd cd' : CallDesc} (h : Mute cd cd') : Mute cd.flushed cd'.flushed :=
  ⟨congrArg (fun w : Words => { w with dstTelnoEarly := [] }) h.words, h.cdid⟩

namespace Cntl

variable {n : Nat} {env : Env} {i : Fin n} {all : Prop} {r s t : Cntl n}

/-! ## Moves

Each constructor of `Move` is one thing that a function does, on its own: it changes data that are no
words, tells or asks something, or sends a message.  A message is a move with its type and what it is made
from, so that what was sent can be found in the moves.
-/

/-- A move of the state machine for a call: `all` of them, or those that can be made at any time. -/
inductive Move (env : Env) (i : Fin n) (all : Prop) : Cntl n → Cntl n → Prop where
  /-- Data of the controller. -/
  | data {s t : Cntl n} (hcd : t.cd = s.cd) (hout : t.out = s.out) (hhalted : t.halted = s.halted)
      (hnt : t.ntMode = s.ntMode) (hptp : t.pointToPoint = s.pointToPoint) : Move env i all s t
  | halt (s : Cntl n) : Move env i all s s.halt
  /-- Other data of a call. -/
  | note (s : Cntl n) (j : Fin n) (f : CallDesc → CallDesc) (hf : Mute (s.cd j) (f (s.cd j))) :
      Move env i all s (s.modify j f)
  | put (s : Cntl n) (o : Output) (ho : ∀ p body, o ≠ .down (.request (.dataReq p body))) :
      Move env i all s (s.put o)
  /-- A message that says no number; an incoming call sends on its own pipe. -/
  | message (s : Cntl n) (p : PipeNo) (messageType : UInt8) (f : Tx) (hmt : messageType ≠ mtSetup)
      (hinf : messageType ≠ mtInformation)
      (hp : (s.cd i).pipe = some p ∨ (s.cd i).dirIncoming = false) :
      Move env i all s (s.txThrough env i p messageType f)
  /-- A SETUP; on a bus it is repeated. -/
  | setup (s : Cntl n) (j : Fin n) (h : all ∨ (s.ntMode = true ∧ s.pointToPoint = false)) :
      Move env i all s (s.dss1L3TxSetup env j)
  /-- The digits that were waiting. -/
  | flush (s : Cntl n) :
      Move env i all s ((s.dss1L3TxInformation env i).modify i CallDesc.flushed)
  | collect (s : Cntl n) (h : all) : Move env i all s (s.modify i CallDesc.collected)

/-- Several of them. -/
abbrev Moves (env : Env) (i : Fin n) (all : Prop) : Cntl n → Cntl n → Prop :=
  Relation.ReflTransGen (Move env i all)

/-- The mode of a controller. -/
def mode (s : Cntl n) : Bool × Bool := (s.ntMode, s.pointToPoint)

theorem mode_dss1L3TxSetup (env : Env) (s : Cntl n) (j : Fin n) :
    (s.dss1L3TxSetup env j).mode = s.mode := by
  rw [dss1L3TxSetup]
  split
  · split
    · rfl
    · rfl
  · rfl

theorem mode_txThrough (env : Env) (s : Cntl n) (j : Fin n) (p : PipeNo) (messageType : UInt8)
    (f : Tx) : (s.txThrough env j p messageType f).mode = s.mode := by
  rw [txThrough]
  split
  · split
    · rfl
    · rfl
  · rfl

/-- Sending leaves the mode of the controller as it is. -/
theorem mode_dss1L3TxMessage (env : Env) (s : Cntl n) (j : Fin n) (messageType : UInt8) (f : Tx) :
    (s.dss1L3TxMessage env j messageType f).mode = s.mode := by
  rw [dss1L3TxMessage]
  split
  · rfl
  · exact mode_txThrough env s j _ messageType f

/-- A move leaves the mode as it is. -/
theorem Move.mode_eq (h : Move env i all s t) : t.mode = s.mode := by
  cases h with
  | data hcd hout hhalted hnt hptp => rw [mode, mode, hnt, hptp]
  | halt => rfl
  | note => rfl
  | put => rfl
  | message p messageType f => exact mode_txThrough env s i p messageType f
  | setup j => exact mode_dss1L3TxSetup env s j
  | flush => exact mode_dss1L3TxMessage env s i _ _
  | collect => rfl

/-! ## What becomes of a descriptor

For an invariant about words, it does not matter which move it was.  `Drift` has the few things that can become
of a descriptor, and `Lax` says of a relation that all of them keep to it.
-/

/-- What a move makes of a descriptor. -/
inductive Drift (cd cd' : CallDesc) : Prop where
  | mute (h : Mute cd cd')
  | placed (h : Mute cd.placed cd')
  | flushed (h : Mute cd.flushed cd')
  | collected (h : Mute cd.collected cd')

/-- A change of one descriptor. -/
theorem drift_modify (s : Cntl n) (j k : Fin n) {f : CallDesc → CallDesc}
    (hf : Drift (s.cd j) (f (s.cd j))) : Drift (s.cd k) ((s.modify j f).cd k) := by
  by_cases hk : k = j
  · subst hk
    rw [modify_cd_self]
    exact hf
  · rw [modify_cd_of_ne s f hk]
    exact .mute .refl

/-- A message that is sent leaves the words of all calls alone. -/
theorem mute_txThrough (s : Cntl n) (i : Fin n) (p : PipeNo) (messageType : UInt8) (f : Tx)
    (j : Fin n) : Mute (s.cd j) ((s.txThrough env i p messageType f).cd j) := by
  rw [txThrough]
  split
  · split
    · exact .refl
    · by_cases hj : j = i
      · subst hj
        rw [dss1PipeDataReq, Cntl.put, modify_cd_self]
        exact ⟨rfl, .inl rfl⟩
      · rw [dss1PipeDataReq, Cntl.put, modify_cd_of_ne _ _ hj]
        exact .refl
  · exact .refl

/-- A SETUP leaves behind the place where more digits go. -/
theorem drift_dss1L3TxSetup (s : Cntl n) (i j : Fin n) :
    Drift (s.cd j) ((s.dss1L3TxSetup env i).cd j) := by
  rw [dss1L3TxSetup]
  split
  · split
    · exact .mute .refl
    · exact drift_modify s i j (.placed ⟨rfl, .inl rfl⟩)
  · exact .mute .refl

theorem mute_dss1L3TxMessage (env : Env) (s : Cntl n) (i : Fin n) (messageType : UInt8) (f : Tx) (j : Fin n) :
    Mute (s.cd j) ((s.dss1L3TxMessage env i messageType f).cd j) := by
  rw [dss1L3TxMessage]
  split
  · exact .refl
  · exact mute_txThrough s i _ messageType f j

/-- **A move is a drift of every descriptor.** -/
theorem Move.drift (h : Move env i all s t) (j : Fin n) : Drift (s.cd j) (t.cd j) := by
  cases h with
  | data hcd =>
    rw [hcd]
    exact .mute .refl
  | halt => exact .mute .refl
  | note k f hf => exact drift_modify s k j (.mute hf)
  | put => exact .mute .refl
  | message p messageType f => exact .mute (mute_txThrough s i p messageType f j)
  | setup k => exact drift_dss1L3TxSetup s k j
  | flush =>
    have hm := mute_dss1L3TxMessage env s i mtInformation { calledpn := true } j
    by_cases hj : j = i
    · subst hj
      rw [modify_cd_self]
      exact .flushed hm.flushed
    · rw [modify_cd_of_ne _ _ hj]
      exact .mute hm
  | collect => exact drift_modify s i j (.collected .refl)

/-- A relation that all moves keep to. -/
structure Lax (R : CallDesc → CallDesc → Prop) : Prop where
  refl : ∀ cd, R cd cd
  trans : ∀ cd cd' cd'', R cd cd' → R cd' cd'' → R cd cd''
  drift : ∀ cd cd', Drift cd cd' → R cd cd'

/-- The direction of a call stays. -/
theorem Drift.dirIncoming {cd cd' : CallDesc} (h : Drift cd cd') :
    cd'.dirIncoming = cd.dirIncoming := by
  cases h with
  | mute h => exact h.dirIncoming
  | placed h => exact h.dirIncoming
  | flushed h => exact h.dirIncoming
  | collected h => exact h.dirIncoming

/-- **The rule for moves.** -/
theorem Moves.rel {R : CallDesc → CallDesc → Prop} (hR : Lax R) (h : Moves env i all s t)
    (j : Fin n) : R (s.cd j) (t.cd j) := by
  induction h with
  | refl => exact hR.refl _
  | tail _ hm ih => exact hR.trans _ _ _ ih (hR.drift _ _ (hm.drift j))

/-- The direction of a call stays in the course of an action. -/
theorem Moves.dirIncoming (h : Moves env i all s t) (j : Fin n) :
    (t.cd j).dirIncoming = (s.cd j).dirIncoming :=
  h.rel (R := fun cd cd' => cd'.dirIncoming = cd.dirIncoming)
    ⟨fun _ => rfl, fun _ _ _ h h' => h'.trans h, fun _ _ h => h.dirIncoming⟩ j

/-! ## Sequences of moves

The statements that functions are made of: a condition, a change, something that is told, a loop.
-/

namespace Moves

theorem mode_eq (h : Moves env i all s t) : t.mode = s.mode := by
  induction h with
  | refl => rfl
  | tail _ hm ih => exact hm.mode_eq.trans ih

theorem ite {c : Prop} [Decidable c] {t' : Cntl n} (h : Moves env i all r s)
    (h' : Moves env i all r t') : Moves env i all r (if c then s else t') := by
  split
  · exact h
  · exact h'

theorem data (h : Moves env i all r s) (hcd : t.cd = s.cd) (hout : t.out = s.out)
    (hhalted : t.halted = s.halted) (hnt : t.ntMode = s.ntMode)
    (hptp : t.pointToPoint = s.pointToPoint) : Moves env i all r t :=
  h.tail (.data hcd hout hhalted hnt hptp)

theorem halt (h : Moves env i all r s) : Moves env i all r s.halt := h.tail (.halt s)

/-- Other data of a call, which goes on. -/
theorem note (h : Moves env i all r s) (j : Fin n) {f : CallDesc → CallDesc}
    (hf : (f (s.cd j)).words = (s.cd j).words) (hc : (f (s.cd j)).cdid = (s.cd j).cdid) :
    Moves env i all r (s.modify j f) := h.tail (.note s j f ⟨hf, .inl hc⟩)

theorem put (h : Moves env i all r s) {o : Output}
    (ho : ∀ p body, o ≠ .down (.request (.dataReq p body))) : Moves env i all r (s.put o) :=
  h.tail (.put s o ho)

theorem tell (h : Moves env i all r s) (j : Fin n) (ind : Ind) : Moves env i all r (s.tell j ind) :=
  h.put fun _ _ => Output.noConfusion

theorem ask (h : Moves env i all r s) : Moves env i all r s.ask.2 := h.data rfl rfl rfl rfl rfl

theorem foldl {α : Type} {f : Cntl n → α → Cntl n}
    (hf : ∀ s a, Moves env i all r s → Moves env i all r (f s a)) (as : List α)
    (h : Moves env i all r s) : Moves env i all r (as.foldl f s) := by
  induction as generalizing s with
  | nil => exact h
  | cons a as ih => exact ih (hf s a h)

/-! ## Layer 4

Layer 4 tells applications of the call, with numbers that it reads from the descriptor and leaves there.
-/

theorem unlinkBchandrvr (h : Moves env i all r s) (j : Fin n) :
    Moves env i all r (s.unlinkBchandrvr j) := by
  rw [Cntl.unlinkBchandrvr]
  have h1 : Moves env i all r (s.modify j fun cd => { cd with bLinkWantActive := false }) :=
    h.note j rfl rfl
  exact (h1.put fun _ _ => Output.noConfusion).ite h1

theorem i4bLinkBchandrvr (h : Moves env i all r s) (j : Fin n) (activate : Bool) :
    Moves env i all r (s.i4bLinkBchandrvr j activate) := by
  rw [Cntl.i4bLinkBchandrvr]
  have h1 := h.unlinkBchandrvr j
  have h2 : Moves env i all r ((s.unlinkBchandrvr j).modify j fun cd =>
      { cd with
        driverTypeCopy := cd.driverType
        driverUnitCopy := cd.driverUnit
        bLinkWantActive := true }) := h1.note j rfl rfl
  exact ((h2.put fun _ _ => Output.noConfusion).ite h2).ite h1

theorem i4bL4ConnectInd (h : Moves env i all r s) (j : Fin n) :
    Moves env i all r (s.i4bL4ConnectInd env j) := by
  rw [Cntl.i4bL4ConnectInd]
  exact (h.tell j _).ask.note j rfl rfl

theorem idleStarted (h : Moves env i all r s) (j : Fin n) : Moves env i all r (s.idleStarted j) := by
  rw [Cntl.idleStarted]
  exact (h.ite (h.tell j _)).note j rfl rfl

theorem mute_shortholdData (cd : CallDesc) :
    (shortholdData cd).1.words = cd.words ∧ (shortholdData cd).1.cdid = cd.cdid := by
  rw [shortholdData]
  split
  · split
    · exact ⟨rfl, rfl⟩
    · exact ⟨rfl, rfl⟩
  · exact ⟨rfl, rfl⟩

theorem i4bL4SetupTimeout (h : Moves env i all r s) (j : Fin n) :
    Moves env i all r (s.i4bL4SetupTimeout j) := by
  obtain ⟨hwords, hcdid⟩ := mute_shortholdData (s.cd j)
  have h1 : Moves env i all r (s.modify j fun cd => (shortholdData cd).1) := h.note j hwords hcdid
  have h2 : Moves env i all r ((s.modify j fun cd => (shortholdData cd).1).modify j fun cd =>
      { cd with idleState := .started }) := h1.note j rfl rfl
  rw [Cntl.i4bL4SetupTimeout]
  exact Moves.note (Moves.ite (Moves.ite (h2.idleStarted j) h2) h1) j rfl rfl

theorem i4bL4ConnectActiveInd (h : Moves env i all r s) (j : Fin n) :
    Moves env i all r (s.i4bL4ConnectActiveInd env j) := by
  rw [Cntl.i4bL4ConnectActiveInd]
  have h1 : Moves env i all r (s.ask.2.modify j fun cd =>
      { cd with lastActiveTime := env.time s.ask.1 }) := h.ask.note j rfl rfl
  exact (h1.i4bL4SetupTimeout j).tell j _

theorem i4bL4DisconnectInd (h : Moves env i all r s) (j : Fin n) (complement : Bool) :
    Moves env i all r (s.i4bL4DisconnectInd j complement) := by
  have h1 : Moves env i all r (if complement then s else s.i4bLinkBchandrvr j false) :=
    h.ite (h.i4bLinkBchandrvr j false)
  rw [Cntl.i4bL4DisconnectInd]
  exact Moves.ite (h1.tell j _).halt (h1.tell j _)

/-! ## Channels and pipes

Channels and pipes are no words.  What is of interest is that a pipe that is activated repeats SETUP, for
all calls on it: on a bus that may happen at any time, elsewhere only to outgoing calls.
-/

theorem liAlloc (h : Moves env i all r s) (j : Fin n) : Moves env i all r (s.liAlloc env j) := by
  rw [Cntl.liAlloc]
  exact h.ask.note j rfl rfl

theorem channelFound (h : Moves env i all r s) (j : Fin n) (c : Nat) :
    Moves env i all r (s.channelFound j c) := by
  rw [Cntl.channelFound]
  have h1 : Moves env i all r
      ({ s with utilization := Function.update s.utilization c true } : Cntl n) :=
    h.data rfl rfl rfl rfl rfl
  exact h1.note j rfl rfl

theorem channelNotFound (h : Moves env i all r s) (j : Fin n) :
    Moves env i all r (s.channelNotFound j) := by
  rw [Cntl.channelNotFound]
  exact h.note j rfl rfl

theorem chooseChannel (h : Moves env i all r s) (j : Fin n) :
    Moves env i all r (s.chooseChannel j) := by
  rw [Cntl.chooseChannel]
  refine Moves.ite ((h.channelNotFound j).ite (h.channelFound j _))
    (Moves.ite (h.note j rfl rfl) ?_)
  split
  · exact h.channelFound j _
  · exact h.channelNotFound j

theorem cdAllocateChannel (h : Moves env i all r s) (j : Fin n) :
    Moves env i all r (s.cdAllocateChannel env j) := by
  rw [Cntl.cdAllocateChannel]
  have h1 : Moves env i all r (if (s.cd j).liCdid ≠ cdidUnused ∧ (s.cd j).liData = false then
      s.liAlloc env j else s) := (h.liAlloc j).ite h
  exact h1.ite (h1.chooseChannel j)

theorem cdFreeChannel (h : Moves env i all r s) (j : Fin n) :
    Moves env i all r (s.cdFreeChannel j) := by
  rw [Cntl.cdFreeChannel]
  have h1 : Moves env i all r (s.modify j fun cd => { cd with liData := false }) :=
    h.note j rfl rfl
  refine Moves.ite (Moves.note (Moves.ite ?_ h1) j rfl rfl) h1
  exact h1.data rfl rfl rfl rfl rfl

theorem cdSetApplInterface (h : Moves env i all r s) (j : Fin n) (aiType : AiType) (aiPtr : Nat) :
    Moves env i all r (s.cdSetApplInterface j aiType aiPtr) := h.note j rfl rfl

theorem dss1L1ActivityTimeout (h : Moves env i all r s) :
    Moves env i all r s.dss1L1ActivityTimeout := by
  rw [Cntl.dss1L1ActivityTimeout]
  have h1 : Moves env i all r (if s.l1Activity ∧ s.l1AutoActivate = 0 ∧ s.receivedFrame = false ∧
      s.noPowerSave = false then
        if s.l1DeactivateCount then { s.put (.l1 false) with l1DeactivateCount := false }
        else { s with l1DeactivateCount := true }
      else { s with l1DeactivateCount := false, receivedFrame := false }) := by
    refine Moves.ite (Moves.ite ?_ ?_) ?_
    · have hput := h.put (o := .l1 false) fun _ _ => Output.noConfusion
      exact hput.data rfl rfl rfl rfl rfl
    · exact h.data rfl rfl rfl rfl rfl
    · exact h.data rfl rfl rfl rfl rfl
  exact Moves.ite (h1.data rfl rfl rfl rfl rfl) h

theorem leavePipe (h : Moves env i all r s) (o : Option PipeNo) :
    Moves env i all r (s.leavePipe o) := by
  cases o with
  | none => exact h
  | some p =>
    rw [Cntl.leavePipe, dss1L1DeactivateReq]
    have h1 : Moves env i all r (s.unref p) := h.data rfl rfl rfl rfl rfl
    have h2 : Moves env i all r ((s.unref p).put (.down (.request (.unref p)))) :=
      h1.put (by simp)
    refine Moves.ite (Moves.dss1L1ActivityTimeout ?_) ?_
    · exact h2.data rfl rfl rfl rfl rfl
    · exact h2.data rfl rfl rfl rfl rfl

theorem dss1L1ActivateReq (h : Moves env i all r s) : Moves env i all r s.dss1L1ActivateReq := by
  rw [Cntl.dss1L1ActivateReq]
  have h1 : Moves env i all r (if s.l1AutoActivate = 0 then
      { s.put (.l1 true) with l1ActivityCallout := false, l1DeactivateCount := false }
      else s) := by
    refine Moves.ite ?_ h
    have hput := h.put (o := .l1 true) fun _ _ => Output.noConfusion
    exact hput.data rfl rfl rfl rfl rfl
  exact h1.data rfl rfl rfl rfl rfl

/-- On a bus, or if all moves are allowed, SETUP is repeated. -/
theorem resendCall (h : Moves env i all r s) (hb : all ∨ (s.ntMode = true ∧ s.pointToPoint = false))
    (p : PipeNo) (j : Fin n) : Moves env i all r (s.resendCall env p j) := by
  rw [Cntl.resendCall]
  have h1 : Moves env i all r (if (s.cd j).peerResponded = false ∧
      ((s.cd j).setupInterleave = 0 ∨ (s.cd j).setupInterleave = 4 ∨
        6 ≤ (s.cd j).setupInterleave) then s.dss1L3TxSetup env j else s) :=
    Moves.ite (h.tail (.setup s j hb)) h
  exact Moves.ite (Moves.ite (h1.note j rfl rfl) h1) h

/-- SETUP is repeated for the calls on the pipe. -/
theorem dss1PipeResendInd (h : Moves env i all r s)
    (hb : all ∨ (s.ntMode = true ∧ s.pointToPoint = false)) (p : PipeNo) :
    Moves env i all r (s.dss1PipeResendInd env p) := by
  rw [Cntl.dss1PipeResendInd]
  generalize List.finRange n = js
  induction js generalizing s with
  | nil => exact h
  | cons j js ih =>
    rw [List.foldl_cons]
    refine ih (h.resendCall hb p j) ?_
    have hmode : (s.resendCall env p j).mode = s.mode :=
      (resendCall (.refl (r := Move env j all)) hb p j).mode_eq
    obtain ⟨hnt, hptp⟩ := Prod.mk.inj hmode
    rwa [hnt, hptp]

theorem dss1PipeActivateReq (h : Moves env i all r s) (p : PipeNo) :
    Moves env i all r (s.dss1PipeActivateReq env p) := by
  rw [Cntl.dss1PipeActivateReq]
  have h1 : Moves env i all r (s.put (.down (.activate p))) := h.put (by simp)
  have h2 : Moves env i all r ({ (s.put (.down (.activate p))).ref p with
      paused := Function.update (s.put (.down (.activate p))).paused p false } : Cntl n) :=
    h1.data rfl rfl rfl rfl rfl
  generalize ({ (s.put (.down (.activate p))).ref p with
      paused := Function.update (s.put (.down (.activate p))).paused p false } : Cntl n) = m at h2 ⊢
  have h3 : Moves env i all r (if m.ntMode ∧ m.pointToPoint = false ∧ p = adapter then
      m.dss1PipeResendInd env p else m) := by
    split
    · rename_i hmode
      exact h2.dss1PipeResendInd (.inr ⟨hmode.1, hmode.2.1⟩) p
    · exact h2
  exact Moves.ite (h3.data rfl rfl rfl rfl rfl) h1

theorem joinPipe (h : Moves env i all r s) (o : Option PipeNo) :
    Moves env i all r (s.joinPipe env o) := by
  cases o with
  | none => exact h
  | some p =>
    rw [Cntl.joinPipe]
    have h1 : Moves env i all r (s.ref p) := h.data rfl rfl rfl rfl rfl
    have h2 : Moves env i all r ((s.ref p).put (.down (.request (.ref p)))) := h1.put (by simp)
    exact h2.dss1L1ActivateReq.dss1PipeActivateReq p

/-- The call moves to a pipe, which may have to be activated. -/
theorem cdSetPipe (h : Moves env i all r s) (j : Fin n) (o : Option PipeNo) :
    Moves env i all r (s.cdSetPipe env j o) := by
  rw [Cntl.cdSetPipe]
  exact ((h.joinPipe o).leavePipe _).note j rfl rfl

theorem nFreeCd (h : Moves env i all r s) (j : Fin n) : Moves env i all r (s.nFreeCd env j) := by
  rw [Cntl.nFreeCd]
  have h1 := ((((h.i4bL4DisconnectInd j false).cdSetApplInterface j .broadcast 0).cdSetPipe j
    none).cdFreeChannel j)
  exact h1.tail (.note _ j _ ⟨rfl, .inr rfl⟩)

/-! ## Messages and states

`cd_set_state` sends the message that belongs to a state.  Those with digits in them are SETUP and INFORMATION,
and only these are moves of their own.
-/

theorem dss1L3TxMessage (h : Moves env i all r s) {messageType : UInt8} (f : Tx)
    (hmt : messageType ≠ mtSetup) (hinf : messageType ≠ mtInformation) :
    Moves env i all r (s.dss1L3TxMessage env i messageType f) := by
  rw [Cntl.dss1L3TxMessage]
  split
  · exact h.halt
  · rename_i hp
    exact h.tail (.message s _ messageType f hmt hinf (.inl hp))

/-- An outgoing call is released on other pipes. -/
theorem dss1L3TxReleaseCompleteComplement (h : Moves env i all r s)
    (hd : (s.cd i).dirIncoming = false) (skip1 skip2 : Option PipeNo) :
    Moves env i all r (s.dss1L3TxReleaseCompleteComplement env i skip1 skip2) := by
  rw [Cntl.dss1L3TxReleaseCompleteComplement, dss1L3TxMessageComplement]
  generalize List.finRange 16 = ps
  induction ps generalizing s with
  | nil => exact h
  | cons p ps ih =>
    rw [List.foldl_cons]
    split
    · refine ih (h.tail (.message s p _ _ (by decide) (by decide) (.inr hd))) ?_
      rw [(mute_txThrough s i p _ _ i).dirIncoming]
      exact hd
    · exact ih h hd

theorem txWithCause (h : Moves env i all r s) {messageType : UInt8} (f : Tx) (cause : Nat)
    (hmt : messageType ≠ mtSetup) (hinf : messageType ≠ mtInformation) :
    Moves env i all r (s.txWithCause env i messageType f cause) := by
  rw [Cntl.txWithCause]
  have h1 : Moves env i all r (s.modify i fun cd => { cd with causeOut := cause }) :=
    h.note i rfl rfl
  exact (h1.dss1L3TxMessage f hmt hinf).note i rfl rfl

theorem txFinal (h : Moves env i all r s) (p : PipeNo) : Moves env i all r (s.txFinal env i p) := by
  rw [Cntl.txFinal]
  have h1 : Moves env i all r (if (s.cd i).causeOut = 0 then
      s.modify i fun cd => { cd with causeOut := causeRecotimexp } else s) :=
    Moves.ite (h.note i rfl rfl) h
  generalize (if (s.cd i).causeOut = 0 then
      s.modify i fun cd => { cd with causeOut := causeRecotimexp } else s) = m at h1 ⊢
  refine Moves.ite ?_ h
  dsimp only
  split
  · rename_i hm
    exact h1.dss1L3TxReleaseCompleteComplement hm.2.2.1 _ _
  · exact h1.dss1L3TxMessage _ (by decide) (by decide)

theorem enterNull (h : Moves env i all r s) (p : PipeNo) :
    Moves env i all r (s.enterNull env i p) := by
  have h1 : Moves env i all r (s.modify i fun cd => { cd with state := .u0 }) := h.note i rfl rfl
  have h2 : Moves env i all r (s.abandon i p) := h1.put (by simp)
  rw [Cntl.enterNull, l1Error]
  exact Moves.nFreeCd (Moves.ite (h2.txFinal p) ((h2.txFinal p).note i rfl rfl)) i

theorem skipEnquiry (h : Moves env i all r s) (new : State) :
    Moves env i all r (s.skipEnquiry i new).1 := by
  have h1 : Moves env i all r (s.modify i fun cd =>
      { cd with statusEnquiryTimeout := cd.statusEnquiryTimeout + 1 }) := h.note i rfl rfl
  rw [Cntl.skipEnquiry]
  split
  · split
    · exact h1
    · exact h
  · split
    · exact h
    · exact h

/-- The digits that were waiting may be sent before the state changes. -/
theorem sendEarly (h : Moves env i all r s) (new : State) :
    Moves env i all r (s.sendEarly env i new) := by
  rw [Cntl.sendEarly]
  exact Moves.ite (h.tail (.flush s)) h

theorem enterState (h : Moves env i all r s) (new : State) :
    Moves env i all r (s.enterState env i new) := by
  have h1 : Moves env i all r ((s.skipEnquiry i new).1.storeState i (s.skipEnquiry i new).2.1) :=
    (h.skipEnquiry new).note i rfl rfl
  rw [Cntl.enterState]
  exact Moves.sendEarly
    (Moves.ite (h1.dss1L3TxMessage _ (by decide) (by decide)) h1) _

/-- A state with its message. -/
theorem cdSetState (h : Moves env i all r s) (new : State) :
    Moves env i all r (s.cdSetState env i new) := by
  rw [Cntl.cdSetState]
  split
  · exact h.halt
  · have h1 : Moves env i all r (s.modify i fun cd => { cd with setStateCallout := false }) :=
      h.note i rfl rfl
    exact Moves.ite (h1.enterNull _) (h1.enterState new)

/-! ## Events

One lemma for each case of `cd_update`, in the order of the source.  The cases in which digits are sent, or
begin to wait, need `all` moves, and they are those for the number of an outgoing call.
-/

theorem onStatus (h : Moves env i all r s) : Moves env i all r (s.onStatus env i) := by
  have h1 : Moves env i all r (s.modify i fun cd =>
      { cd with statusEnquiryTimeout := cd.statusEnquiryTimeout + 1 }) := h.note i rfl rfl
  rw [Cntl.onStatus]
  exact Moves.ite (Moves.ite (h1.cdSetState _) h) (Moves.ite (h.cdSetState _) h)

theorem leaveChannel (h : Moves env i all r s) : Moves env i all r (s.leaveChannel i) := by
  have h1 : Moves env i all r ((s.i4bLinkBchandrvr i false).modify i fun cd =>
      { cd with bLinkWantActive := true }) := (h.i4bLinkBchandrvr i false).note i rfl rfl
  rw [Cntl.leaveChannel]
  exact cdFreeChannel (Moves.ite h1 h) i

theorem relink (h : Moves env i all r s) : Moves env i all r (s.relink i) := by
  rw [Cntl.relink]
  exact (h.i4bLinkBchandrvr i true).ite h

theorem onHoldInd (h : Moves env i all r s) : Moves env i all r (s.onHoldInd env i) := by
  rw [Cntl.onHoldInd]
  refine Moves.ite (Moves.note (Moves.tell ?_ i _) i rfl rfl)
    (h.txWithCause _ _ (by decide) (by decide))
  exact h.leaveChannel.dss1L3TxMessage _ (by decide) (by decide)

theorem onRetrieveInd (h : Moves env i all r s) : Moves env i all r (s.onRetrieveInd env i) := by
  rw [Cntl.onRetrieveInd]
  have h1 := h.cdAllocateChannel i
  refine Moves.ite (Moves.ite (relink (Moves.note (Moves.tell ?_ i _) i rfl rfl)) ?_) ?_
  · exact h1.dss1L3TxMessage _ (by decide) (by decide)
  · exact h1.txWithCause _ _ (by decide) (by decide)
  · exact h.txWithCause _ _ (by decide) (by decide)

theorem onHoldReq (h : Moves env i all r s) : Moves env i all r (s.onHoldReq env i) := by
  rw [Cntl.onHoldReq]
  refine Moves.ite (Moves.note ?_ i rfl rfl) h
  exact h.leaveChannel.dss1L3TxMessage _ (by decide) (by decide)

theorem onRetrieveReq (h : Moves env i all r s) : Moves env i all r (s.onRetrieveReq env i) := by
  rw [Cntl.onRetrieveReq]
  refine Moves.ite (Moves.note ?_ i rfl rfl) h
  exact h.dss1L3TxMessage _ (by decide) (by decide)

theorem onRetrieveAck (h : Moves env i all r s) : Moves env i all r (s.onRetrieveAck env i) := by
  rw [Cntl.onRetrieveAck]
  exact Moves.ite ((h.cdAllocateChannel i).note i rfl rfl).relink h

/-- More digits of the number: they are sent, or they wait. -/
theorem onInforq (h : Moves env i True r s) : Moves env i True r (s.onInforq env i) := by
  have h1 : Moves env i True r (s.modify i CallDesc.collected) := h.tail (.collect s trivial)
  have h2 : Moves env i True r (if s.ntMode = false ∨ s.pointToPoint ∨ (s.cd i).state = .ua ∨
      (s.cd i).state = .uaTo then
      let t := s.modify i CallDesc.collected
      if (s.cd i).state ≠ .u2 then (t.dss1L3TxInformation env i).modify i CallDesc.flushed else t
      else s) := Moves.ite (Moves.ite (h1.tail (.flush _)) h1) h
  rw [Cntl.onInforq]
  exact Moves.ite (cdSetState h2 _) h2

theorem onInfo (h : Moves env i all r s) : Moves env i all r (s.onInfo env i) := by
  rw [Cntl.onInfo]
  exact Moves.ite (Moves.tell (Moves.ite (h.cdSetState _) h) i _) h

theorem noChannelAvailable (h : Moves env i all r s) :
    Moves env i all r (s.noChannelAvailable env i) := by
  rw [Cntl.noChannelAvailable]
  exact cdSetState (h.note i rfl rfl) .u0

theorem smsRelease (h : Moves env i all r s) : Moves env i all r (s.smsRelease env i) := by
  rw [Cntl.smsRelease]
  exact cdSetState (h.note i rfl rfl) .u0

theorem eventConnectAck (h : Moves env i all r s) : Moves env i all r (s.eventConnectAck env i) := by
  rw [Cntl.eventConnectAck]
  exact Moves.ite h.smsRelease ((h.cdSetState .ua).i4bL4ConnectActiveInd i)

theorem allocateNamed (h : Moves env i all r s) : Moves env i all r (s.allocateNamed env i) := by
  rw [Cntl.allocateNamed]
  exact Moves.ite (h.cdAllocateChannel i) h

/-- The call waits for its SETUP to be answered. -/
theorem setupSent (h : Moves env i all r s) :
    Moves env i all r ((s.modify i fun cd => { cd with causeOut := 0, needRelease := true })
      |>.cdSetState env i (if (s.cd i).sendingComplete then .u1 else .u2)) :=
  cdSetState (h.note i rfl rfl) _

/-- The SETUP of an outgoing call. -/
theorem onSetuprq (h : Moves env i True r s) : Moves env i True r (s.onSetuprq env i) := by
  rw [Cntl.onSetuprq]
  have h1 : Moves env i True r
      (if s.ntMode = false ∨ s.pointToPoint then s.dss1L3TxSetup env i else s) :=
    Moves.ite (h.tail (.setup s i (.inl trivial))) h
  exact Moves.ite h1.setupSent h

theorem onCallprc (h : Moves env i all r s) : Moves env i all r (s.onCallprc env i) := by
  rw [Cntl.onCallprc]
  exact Moves.ite ((h.cdSetState .u3).allocateNamed.tell i _) h

/-- After SETUP ACKNOWLEDGE the digits that were waiting are sent. -/
theorem onSetupak (h : Moves env i all r s) : Moves env i all r (s.onSetupak env i) := by
  rw [Cntl.onSetupak]
  exact Moves.ite ((h.cdSetState .u2Ack).allocateNamed.tell i _) (Moves.ite h h.onCallprc)

theorem onAlert (h : Moves env i all r s) : Moves env i all r (s.onAlert env i) := by
  rw [Cntl.onAlert]
  have h1 : Moves env i all r (if (s.cd i).state.num < State.u3.num then
      (s.allocateNamed env i).tell i (.proceeding true) else s) :=
    Moves.ite (h.allocateNamed.tell i _) h
  exact Moves.ite (Moves.ite h.smsRelease ((h1.cdSetState .u4).tell i _)) h

theorem releaseOthers (h : Moves env i all r s) (hd : (s.cd i).dirIncoming = false)
    (p : Option PipeNo) : Moves env i all r (s.releaseOthers env i p) := by
  rw [Cntl.releaseOthers]
  have h1 : Moves env i all r (s.modify i fun cd => { cd with causeOut := causeNonseluc }) :=
    h.note i rfl rfl
  have hd1 : ((s.modify i fun cd => { cd with causeOut := causeNonseluc }).cd i).dirIncoming
      = false := by
    rw [modify_cd_self]
    exact hd
  exact Moves.ite (Moves.note (h1.dss1L3TxReleaseCompleteComplement hd1 _ p) i rfl rfl) h

theorem onConnect (h : Moves env i all r s) (hd : (s.cd i).dirIncoming = false)
    (p : Option PipeNo) : Moves env i all r (s.onConnect env i p) := by
  rw [Cntl.onConnect]
  have h1 := h.allocateNamed
  have hd1 : ((s.allocateNamed env i).cd i).dirIncoming = false := by
    have hm : Moves env i all s (s.allocateNamed env i) := allocateNamed .refl
    rw [hm.dirIncoming i]
    exact hd
  refine Moves.ite (Moves.ite h.smsRelease (Moves.ite ?_ h1.noChannelAvailable)) h
  exact (((h1.releaseOthers hd1 p).cdSetPipe i p).dss1L3TxMessage _ (by decide)
    (by decide)).eventConnectAck

/-- A SETUP is answered according to what is known of the number. -/
theorem answerSetup (h : Moves env i all r s) (wantDialtone : Bool) :
    Moves env i all r (s.answerSetup env i wantDialtone) := by
  rw [Cntl.answerSetup]
  exact Moves.ite ((h.dss1L3TxMessage _ (by decide) (by decide)).cdSetState .u6)
    ((h.dss1L3TxMessage _ (by decide) (by decide)).cdSetState .inAck)

theorem linkDialtone (h : Moves env i all r s) (wantDialtone : Bool) :
    Moves env i all r (s.linkDialtone i wantDialtone) := by
  rw [Cntl.linkDialtone]
  exact Moves.ite (i4bLinkBchandrvr (h.note i rfl rfl) i true) h

theorem offerCall (h : Moves env i all r s) : Moves env i all r (s.offerCall env i) := by
  rw [Cntl.offerCall]
  exact Moves.ite (h.i4bL4ConnectInd i).smsRelease (h.i4bL4ConnectInd i)

theorem onSetup (h : Moves env i all r s) : Moves env i all r (s.onSetup env i) := by
  rw [Cntl.onSetup]
  have h1 : Moves env i all r (s.modify i fun cd =>
      { cd with needRelease := cd.needRelease || s.ntMode || s.pointToPoint }) := h.note i rfl rfl
  have h2 := h1.cdAllocateChannel i
  exact Moves.ite (Moves.ite ((h2.answerSetup _).linkDialtone _).offerCall
    h2.noChannelAvailable) h

theorem onProceedingrq (h : Moves env i all r s) : Moves env i all r (s.onProceedingrq env i) := by
  rw [Cntl.onProceedingrq]
  exact Moves.ite ((h.dss1L3TxMessage _ (by decide) (by decide)).cdSetState .u6) h

theorem proceedFirst (h : Moves env i all r s) : Moves env i all r (s.proceedFirst env i) := by
  rw [Cntl.proceedFirst]
  exact Moves.ite (h.dss1L3TxMessage _ (by decide) (by decide)) h

theorem onAlertrq (h : Moves env i all r s) : Moves env i all r (s.onAlertrq env i) := by
  rw [Cntl.onAlertrq]
  refine Moves.ite (Moves.ite h.smsRelease (Moves.cdSetState ?_ .u7)) h
  exact h.proceedFirst.dss1L3TxMessage _ (by decide) (by decide)

theorem onProgressrq (h : Moves env i all r s) : Moves env i all r (s.onProgressrq env i) := by
  rw [Cntl.onProgressrq]
  exact Moves.ite (h.dss1L3TxMessage _ (by decide) (by decide)) h

theorem onSetacrs (h : Moves env i all r s) : Moves env i all r (s.onSetacrs env i) := by
  rw [Cntl.onSetacrs]
  have h1 : Moves env i all r ((s.proceedFirst env i).dss1L3TxConnect env i s.ntMode) :=
    h.proceedFirst.dss1L3TxMessage _ (by decide) (by decide)
  have h2 := cdSetState (h1.note i (f := fun cd => { cd with causeOut := 0, needRelease := true })
    rfl rfl) .u8
  exact Moves.ite (Moves.ite h.smsRelease (Moves.ite h2.eventConnectAck h2)) h

/-- An event that is not about the number of an outgoing call. -/
theorem cdUpdate_of_ne (h : Moves env i all r s) (p : Option PipeNo) {e : Event}
    (hset : e ≠ .setuprq) (hinf : e ≠ .inforq) : Moves env i all r (s.cdUpdate env i p e) := by
  rw [cdUpdate.eq_def]
  by_cases hd : (if (s.cd i).dirIncoming then e.isLocalIncoming else e.isLocalOutgoing) = false
  · rw [if_pos hd]
    exact h
  rw [if_neg hd]
  cases e with
  | setuprq => exact absurd rfl hset
  | inforq => exact absurd rfl hinf
  | setrjrs => exact cdSetState (h.note i rfl rfl) .u0
  | disconnect => exact Moves.ite ((h.tell i _).cdSetState .uc) h
  | release => exact h.cdSetState .u0
  | statenq => exact h.txWithCause _ _ (by decide) (by decide)
  | status => exact h.onStatus
  | holdInd => exact h.onHoldInd
  | retrieveInd => exact h.onRetrieveInd
  | holdReq => exact h.onHoldReq
  | retrieveReq => exact h.onRetrieveReq
  | retrieveAck => exact h.onRetrieveAck
  | setupak => exact h.onSetupak
  | callprc | progind => exact h.onCallprc
  | alert => exact h.onAlert
  | connect =>
    refine h.onConnect ?_ p
    cases hdir : (s.cd i).dirIncoming with
    | false => rfl
    | true => exact absurd (by rw [hdir]; rfl) hd
  | setup => exact h.onSetup
  | info | facility | restartInd | restartAck => exact h.onInfo
  | proceedingrq => exact h.onProceedingrq
  | alertrq => exact h.onAlertrq
  | progressrq => exact h.onProgressrq
  | setacrs => exact h.onSetacrs
  | conack => exact Moves.ite h.eventConnectAck h
  | deflectrq | mcidrq => exact Moves.ite h (h.dss1L3TxMessage _ (by decide) (by decide))
  | ill => exact h

/-- **An event is a sequence of moves.** -/
theorem cdUpdate (h : Moves env i True r s) (p : Option PipeNo) (e : Event) :
    Moves env i True r (s.cdUpdate env i p e) := by
  by_cases hset : e = .setuprq
  · subst hset
    rw [cdUpdate.eq_def]
    exact Moves.ite h h.onSetuprq
  · by_cases hinf : e = .inforq
    · subst hinf
      rw [cdUpdate.eq_def]
      exact Moves.ite h h.onInforq
    · exact h.cdUpdate_of_ne p hset hinf

/-! ## Requests

What applications ask for comes to the same functions, once a command has stored what is in it.  That it
stores words is not a move; `Strings` and `Digits` begin a command with it.
-/

theorem nDisconnectRequest (h : Moves env i True r s) (cause : Nat) :
    Moves env i True r (s.nDisconnectRequest env i cause) := by
  rw [Cntl.nDisconnectRequest]
  exact cdUpdate (h.note i rfl rfl) none .release

theorem nConnectResponse (h : Moves env i True r s) (response : Response) (cause : Nat) :
    Moves env i True r (s.nConnectResponse env i response cause) := by
  have h1 : Moves env i True r (s.modify i fun cd => { cd with causeOut := cause }) :=
    h.note i rfl rfl
  have h2 := Moves.ite (c := ((s.modify i fun cd => { cd with causeOut := cause }).cd
    i).connectIndCount < 2) (h1.cdUpdate none .release)
    (h1.note i (f := fun cd => { cd with connectIndCount := cd.connectIndCount - 1 }) rfl rfl)
  rw [Cntl.nConnectResponse.eq_def]
  cases response with
  | accept => exact h1.cdUpdate none .setacrs
  | reject => exact h1.cdUpdate none .setrjrs
  | dontCare => exact h2
  | unknown => exact h2

theorem i4bIdleCheck (h : Moves env i True r s) : Moves env i True r (s.i4bIdleCheck env i) := by
  rw [Cntl.i4bIdleCheck]
  refine Moves.ite ?_ h
  split
  · exact h
  · exact h.idleStarted i
  · have h1 : Moves env i True r (s.ask.2.modify i fun cd => { cd with idleState := .notStarted }) :=
      h.ask.note i rfl rfl
    refine Moves.ite (Moves.ite (h.ask.idleStarted i) (h.ask.note i rfl rfl)) ?_
    exact (h1.tell i _).nDisconnectRequest _

theorem adopt (h : Moves env i all r s) (j : Fin n) (aiType : AiType) (sc : Nat) :
    Moves env i all r (s.adopt j aiType sc) := by
  rw [Cntl.adopt]
  exact Moves.ite ((h.cdSetApplInterface j aiType sc).i4bL4DisconnectInd j true) h

theorem adoptDriver (h : Moves env i all r s) (sc driver driverUnit : Nat) :
    Moves env i all r (s.adoptDriver i sc driver driverUnit) := by
  rw [Cntl.adoptDriver]
  exact Moves.ite ((h.adopt i .i4b sc).note i rfl rfl) h

theorem connectOn (h : Moves env i True r s) (channel : Int) :
    Moves env i True r (s.connectOn env i channel) := by
  have h1 : Moves env i True r (s.modify i fun cd => { cd with channelId := channel }) :=
    h.note i rfl rfl
  have h2 := h1.cdAllocateChannel i
  rw [Cntl.connectOn]
  refine Moves.ite (h.cdUpdate none _) (Moves.ite (Moves.ite (h2.cdUpdate none _) ?_)
    (h1.cdUpdate none _))
  exact nFreeCd (h2.note i rfl rfl) i

theorem capiConnectBridge (h : Moves env i all r s) (sc dst : Nat) :
    Moves env i all r (s.capiConnectBridge env i sc dst) := by
  rw [Cntl.capiConnectBridge]
  have h1 : Moves env i all r ((s.adopt i .capi sc).modify i fun cd =>
      { cd with liCdid := dst, driverType := drvrCapiBridge, driverUnit := 0 }) :=
    (h.adopt i .capi sc).note i rfl rfl
  exact Moves.ite (Moves.ite ((h1.liAlloc i).i4bLinkBchandrvr i true) h1) h

theorem capiDisconnectBridge (h : Moves env i all r s) (sc dst : Nat) :
    Moves env i all r (s.capiDisconnectBridge i sc dst) := by
  rw [Cntl.capiDisconnectBridge]
  exact Moves.ite (i4bLinkBchandrvr ((h.adopt i .capi sc).note i rfl rfl) i true) h

theorem confirmed (h : Moves env i all r s) {f : Cntl n → Cntl n}
    (hf : Moves env i all r s.ask.2 → Moves env i all r (f s.ask.2)) :
    Moves env i all r (s.confirmed env f) := by
  rw [Cntl.confirmed]
  exact Moves.ite (hf h.ask) h.ask

theorem capiSelectBProtocol (h : Moves env i all r s) (sc : Nat) (bProtocol : Option BProtocol) :
    Moves env i all r (s.capiSelectBProtocol i sc bProtocol) := by
  rw [Cntl.capiSelectBProtocol]
  have h1 : Moves env i all r (s.modify i fun cd =>
      { cd with channelBprot := bProtocol.elim cd.channelBprot (capiDecodeBProtocol 0xff) }) :=
    h.note i rfl rfl
  exact Moves.ite h1 ((h1.adopt i .capi sc).note i rfl rfl)

theorem capiConnectResp (h : Moves env i True r s) (sc reject : Nat) (bProtocol : Option BProtocol)
    (dateTime : List UInt8) : Moves env i True r (s.capiConnectResp env i sc reject bProtocol dateTime) := by
  rw [Cntl.capiConnectResp]
  have h1 : Moves env i True r (s.modify i fun cd =>
      { cd with channelBprot := bProtocol.elim cd.channelBprot (capiDecodeBProtocol 0xff) }) :=
    h.note i rfl rfl
  refine Moves.ite h (Moves.ite (h.nConnectResponse _ _) (nConnectResponse ?_ _ _))
  exact (h1.adopt i .capi sc).note i rfl rfl

end Moves

end Cntl
end L3
end Isdn4bsd
