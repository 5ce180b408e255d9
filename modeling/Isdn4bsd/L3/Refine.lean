import Isdn4bsd.L3.Controller
import Isdn4bsd.L3.Line

/-!
# Layer 3: the functions act by changes of the line

This is the connection between the functions of the source, in `Isdn4bsd.L3.Fsm`, and the changes of a line,
in `Isdn4bsd.L3.Line`: one lemma for each function, from those of two lines up to `cd_update`.

## Three kinds of lemma

* Functions that only send messages, tell applications or change data of the call leave the line
  alone; these are the `@[simp]` lemmas `line_*`.
* Some do one thing, and are described exactly: `line_cdFreeChannel`, `line_cdSetPipe_some`, `line_nFreeCd`,
  `line_enterNull` and so on.
* The rest do one thing or another, and are described by `Line.Steps`: `steps_cdSetState`, the lemmas
  `steps_on*` for the cases of `cd_update`, and in the end `steps_cdUpdate`, for all events.

## What has to be carried along

A case of `cd_update` changes the call several times, and the second change is only permitted in the state
the first one has left.  `Kept` says what a call keeps on the way, its id, direction and pipe, and
`Advances` that it is in a state from which a later one may be entered.  That states only go up is checked
here, for each call of `cd_set_state`; what becomes of the new state inside of it, where a timeout may lead
back to the state before, is `Entered`.

A channel that is looked for is taken or not, and the source goes on either way; `Allocates` are the
results.  In an answer to RETRIEVE it is looked for while the call still counts as being on hold, which is no
change for the line if the flag is cleared afterwards (`Allocates.unhold`).

`nAllocateCd_cases` says how a descriptor is allocated.
-/

set_option autoImplicit false

namespace Isdn4bsd
namespace L3
namespace Cntl

open L2 (PipeNo adapter)
open Line (Step Steps Act Begin Permit)

variable {n : Nat} {env : Env} {b : Permit}

/-! ## Functions that leave the line alone

Messages, indications, the B channel and the timers of layer 4 are not in a `Line`.  For each function that does
nothing else there is a lemma that says so, and a simple one for each kind of statement.
-/

@[simp] theorem line_cd (s : Cntl n) (i : Fin n) : s.line.cd i = (s.cd i).toCall := rfl

theorem modify_cd_self (s : Cntl n) (i : Fin n) (f : CallDesc → CallDesc) :
    (s.modify i f).cd i = f (s.cd i) := Function.update_self _ _ _

theorem modify_cd_of_ne (s : Cntl n) {i j : Fin n} (f : CallDesc → CallDesc) (h : j ≠ i) :
    (s.modify i f).cd j = s.cd j := Function.update_of_ne h _ _

/-- What a change to the data of a call does to the line. -/
theorem line_modify (s : Cntl n) (i : Fin n) (f : CallDesc → CallDesc) :
    (s.modify i f).line = s.line.set i (f (s.cd i)).toCall := by
  have h : (fun j => ((s.modify i f).cd j).toCall)
      = Function.update (fun j => (s.cd j).toCall) i (f (s.cd i)).toCall := by
    funext j
    by_cases hj : j = i
    · subst hj
      rw [modify_cd_self, Function.update_self]
    · rw [modify_cd_of_ne s f hj, Function.update_of_ne hj]
  exact congrArg (fun c => { s.line with cd := c }) h

/-- The same, for a change to the core of the descriptor. -/
theorem line_modify_call (s : Cntl n) (i : Fin n) (g : Call → Call) {f : CallDesc → CallDesc}
    (h : ∀ cd, (f cd).toCall = g cd.toCall) :
    (s.modify i f).line = s.line.set i (g (s.line.cd i)) := by
  rw [line_modify, h, line_cd]

/-- Nothing, if it is not to the core of the descriptor. -/
theorem line_modify_eq (s : Cntl n) (i : Fin n) {f : CallDesc → CallDesc}
    (h : (f (s.cd i)).toCall = (s.cd i).toCall) : (s.modify i f).line = s.line := by
  rw [line_modify, h]
  exact s.line.set_self i

@[simp] theorem line_put (s : Cntl n) (o : Output) : (s.put o).line = s.line := rfl

@[simp] theorem line_ask (s : Cntl n) : s.ask.2.line = s.line := rfl

/-- A panic is not a change of the line. -/
@[simp] theorem line_halt (s : Cntl n) : s.halt.line = s.line := rfl

/-- Nor is something that an application is told. -/
@[simp] theorem line_tell (s : Cntl n) (i : Fin n) (ind : Ind) : (s.tell i ind).line = s.line := rfl

/-- Two controllers with the same line agree about the core of each descriptor. -/
theorem toCall_eq {s s' : Cntl n} (h : s'.line = s.line) (i : Fin n) :
    (s'.cd i).toCall = (s.cd i).toCall := congrArg (fun l => l.cd i) h

/-- The same happens to the line on both branches. -/
theorem line_ite {c : Prop} [Decidable c] {s t : Cntl n} {l : Line n} (hs : s.line = l)
    (ht : t.line = l) : (if c then s else t).line = l := by
  split
  · exact hs
  · exact ht

@[simp] theorem line_unlinkBchandrvr (s : Cntl n) (i : Fin n) :
    (s.unlinkBchandrvr i).line = s.line := by
  have h : (s.modify i fun cd => { cd with bLinkWantActive := false }).line = s.line :=
    line_modify_eq s i rfl
  exact line_ite ((line_put _ _).trans h) h

@[simp] theorem line_i4bLinkBchandrvr (s : Cntl n) (i : Fin n) (activate : Bool) :
    (s.i4bLinkBchandrvr i activate).line = s.line := by
  have h : ((s.unlinkBchandrvr i).modify i fun cd =>
      { cd with
        driverTypeCopy := cd.driverType
        driverUnitCopy := cd.driverUnit
        bLinkWantActive := true }).line = s.line :=
    (line_modify_eq _ i (by rfl)).trans (line_unlinkBchandrvr s i)
  exact line_ite (line_ite ((line_put _ _).trans h) h) (line_unlinkBchandrvr s i)

@[simp] theorem line_i4bL4ConnectInd (env : Env) (s : Cntl n) (i : Fin n) :
    (s.i4bL4ConnectInd env i).line = s.line := line_modify_eq _ i (by rfl)

@[simp] theorem line_idleStarted (s : Cntl n) (i : Fin n) : (s.idleStarted i).line = s.line :=
  (line_modify_eq _ i (by rfl)).trans (line_ite rfl (line_tell s i _))

theorem toCall_shortholdData (cd : CallDesc) : (shortholdData cd).1.toCall = cd.toCall := by
  rw [shortholdData]
  split
  · split
    · rfl
    · rfl
  · rfl

@[simp] theorem line_i4bL4SetupTimeout (s : Cntl n) (i : Fin n) :
    (s.i4bL4SetupTimeout i).line = s.line := by
  have h : (s.modify i fun cd => (shortholdData cd).1).line = s.line :=
    line_modify_eq s i (toCall_shortholdData _)
  have h' : ((s.modify i fun cd => (shortholdData cd).1).modify i fun cd =>
      { cd with idleState := .started }).line = s.line := (line_modify_eq _ i (by rfl)).trans h
  refine (line_modify_eq _ i (by rfl)).trans ?_
  exact line_ite (line_ite ((line_idleStarted _ i).trans h') h') h

@[simp] theorem line_i4bL4ConnectActiveInd (s : Cntl n) (i : Fin n) :
    (s.i4bL4ConnectActiveInd env i).line = s.line :=
  (line_i4bL4SetupTimeout _ i).trans (line_modify_eq _ i (by rfl))

/-- An application is told that a call is over; the call is still there. -/
@[simp] theorem line_i4bL4DisconnectInd (s : Cntl n) (i : Fin n) (complement : Bool) :
    (s.i4bL4DisconnectInd i complement).line = s.line := by
  have h : (if complement then s else s.i4bLinkBchandrvr i false).line = s.line :=
    line_ite rfl (line_i4bLinkBchandrvr s i false)
  exact line_ite ((line_halt _).trans ((line_tell _ i _).trans h)) ((line_tell _ i _).trans h)

@[simp] theorem line_liAlloc (s : Cntl n) (i : Fin n) : (s.liAlloc env i).line = s.line :=
  line_modify_eq _ i (by rfl)

@[simp] theorem line_cdSetApplInterface (s : Cntl n) (i : Fin n) (aiType : AiType) (aiPtr : Nat) :
    (s.cdSetApplInterface i aiType aiPtr).line = s.line := line_modify_eq _ i (by rfl)

@[simp] theorem line_dss1L1ActivityTimeout (s : Cntl n) : s.dss1L1ActivityTimeout.line = s.line := by
  rw [dss1L1ActivityTimeout]
  split
  · dsimp only
    split
    · split
      · rfl
      · rfl
    · rfl
  · rfl

/-! ### Messages -/

@[simp] theorem line_dss1PipeDataReq (s : Cntl n) (p : PipeNo) (body : List UInt8) :
    (s.dss1PipeDataReq p body).line = s.line := rfl

/-- A SETUP is sent. -/
@[simp] theorem line_dss1L3TxSetup (s : Cntl n) (i : Fin n) :
    (s.dss1L3TxSetup env i).line = s.line := by
  refine line_ite ?_ (line_ask s)
  split
  · exact line_halt _
  · exact (line_dss1PipeDataReq _ _ _).trans (line_modify_eq _ i (by rfl))

@[simp] theorem line_txThrough (s : Cntl n) (i : Fin n) (p : PipeNo) (messageType : UInt8) (f : Tx) :
    (s.txThrough env i p messageType f).line = s.line := by
  refine line_ite ?_ (line_ask s)
  split
  · exact line_halt _
  · exact (line_dss1PipeDataReq _ _ _).trans (line_modify_eq _ i (by rfl))

/-- Another message is sent. -/
@[simp] theorem line_dss1L3TxMessage (env : Env) (s : Cntl n) (i : Fin n) (messageType : UInt8) (f : Tx) :
    (s.dss1L3TxMessage env i messageType f).line = s.line := by
  rw [dss1L3TxMessage]
  split
  · exact line_halt s
  · exact line_txThrough s i _ messageType f

/-- A loop over calls or pipes leaves the line alone if each round does. -/
theorem line_foldl {α : Type} {f : Cntl n → α → Cntl n} (hf : ∀ s a, (f s a).line = s.line)
    (as : List α) (s : Cntl n) : (as.foldl f s).line = s.line := by
  induction as generalizing s with
  | nil => rfl
  | cons a as ih => exact (ih (f s a)).trans (hf s a)

@[simp] theorem line_dss1L3TxReleaseCompleteComplement (s : Cntl n) (i : Fin n)
    (skip1 skip2 : Option PipeNo) :
    (s.dss1L3TxReleaseCompleteComplement env i skip1 skip2).line = s.line := by
  refine line_foldl ?_ _ s
  intro s p
  exact line_ite (line_txThrough s i p _ _) rfl

@[simp] theorem line_dss1L3TxMessageByPipeCr (s : Cntl n) (p : PipeNo) (cr : Nat)
    (messageType : UInt8) (causeOut restartIndication : Option Nat) :
    (s.dss1L3TxMessageByPipeCr env p cr messageType causeOut restartIndication).line = s.line := by
  refine line_ite ?_ (line_ask s)
  split
  · exact line_halt _
  · exact line_dss1PipeDataReq _ _ _

/-- What was not answered is sent again. -/
@[simp] theorem line_dss1PipeResendInd (s : Cntl n) (p : PipeNo) :
    (s.dss1PipeResendInd env p).line = s.line := by
  refine line_foldl ?_ _ s
  intro s i
  refine line_ite (line_ite ((line_modify_eq _ i (by rfl)).trans ?_) ?_) rfl
  · exact line_ite (line_dss1L3TxSetup s i) rfl
  · exact line_ite (line_dss1L3TxSetup s i) rfl

@[simp] theorem line_sendEarly (s : Cntl n) (i : Fin n) (newstate : State) :
    (s.sendEarly env i newstate).line = s.line :=
  line_ite ((line_modify_eq _ i (by rfl)).trans (line_dss1L3TxMessage _ s i _ _)) rfl

@[simp] theorem line_relink (s : Cntl n) (i : Fin n) : (s.relink i).line = s.line :=
  line_ite (line_i4bLinkBchandrvr s i true) rfl

@[simp] theorem line_proceedFirst (s : Cntl n) (i : Fin n) :
    (s.proceedFirst env i).line = s.line := line_ite (line_dss1L3TxMessage _ s i _ _) rfl

/-! ## Channels and pipes

`cd_set_pipe` gives up the old pipe of a call and takes a new one, with activation if that pipe was not
used; the parts of it are changes of the line, and together they are `Line.move`.
-/

theorem line_channelFound (s : Cntl n) (i : Fin n) (c : Nat) :
    (s.channelFound i c).line = s.line.take i c := by
  rw [channelFound, line_modify]
  rfl

/-- `cd_free_channel` gives the channel back. -/
theorem line_cdFreeChannel (s : Cntl n) (i : Fin n) : (s.cdFreeChannel i).line = s.line.give i := by
  have h : (s.modify i fun cd => { cd with liData := false }).line = s.line :=
    line_modify_eq s i (by rfl)
  rw [← h, cdFreeChannel]
  generalize (s.modify i fun cd => { cd with liData := false }) = t
  dsimp only
  rw [Line.give, Line.giveBack, Line.withoutChannel]
  by_cases ha : (t.cd i).channelAllocated = true
  · rw [if_pos ha, line_modify, line_cd, if_pos ha]
    by_cases hc : 0 ≤ (t.cd i).channelId ∧ (t.cd i).channelId < t.channelEnd
    · rw [if_pos hc, if_pos ⟨ha, hc⟩]
      rfl
    · rw [if_neg hc, if_neg (fun hn => hc hn.2)]
  · rw [if_neg ha, line_cd, if_neg ha, if_neg (fun hn => ha hn.1)]
    have hf : (t.cd i).channelAllocated = false := by simpa using ha
    exact (t.line.set_self i).symm.trans (by rw [line_cd, ← hf])

theorem line_ref (s : Cntl n) (p : PipeNo) : (s.ref p).line = s.line.ref p := by
  rw [ref, Line.ref, line, line]

theorem line_unref (s : Cntl n) (p : PipeNo) : (s.unref p).line = s.line.unref p := by
  rw [unref, Line.unref, line, line]

theorem line_dss1L1ActivateReq (s : Cntl n) : s.dss1L1ActivateReq.line = s.line.up := by
  rw [dss1L1ActivateReq, Line.up, line, line]
  by_cases h : s.l1AutoActivate = 0
  · rw [if_pos h, put]
  · rw [if_neg h]

theorem line_dss1L1DeactivateReq (s : Cntl n) : s.dss1L1DeactivateReq.line = s.line.down := by
  have h : ({ s with
      l1AutoActivate := dec s.l1AutoActivate
      underflow := s.underflow || s.l1AutoActivate == 0 } : Cntl n).line = s.line.down := by
    rw [Line.down, line, line]
  rw [dss1L1DeactivateReq]
  dsimp only
  split
  · exact (line_dss1L1ActivityTimeout _).trans h
  · exact h

theorem line_dss1PipeActivateReq (s : Cntl n) (p : PipeNo) :
    (s.dss1PipeActivateReq env p).line = if s.paused p then s.line.bump p else s.line := by
  rw [dss1PipeActivateReq]
  dsimp only
  have hp : (s.put (.down (.activate p))).paused p = s.paused p := rfl
  rw [hp]
  split
  · rw [line_unref, Line.bump]
    congr 1
    have h : ({ (s.put (.down (.activate p))).ref p with
        paused := Function.update (s.put (.down (.activate p))).paused p false } : Cntl n).line
        = s.line.ref p := line_ref (s.put (.down (.activate p))) p
    split
    · exact (line_dss1PipeResendInd _ p).trans h
    · exact h
  · rfl

/-- A call gets a pipe, which may have to be activated. -/
theorem line_joinPipe (env : Env) (s : Cntl n) (p : PipeNo) :
    ∃ paused, (s.joinPipe env (some p)).line = s.line.join p paused := by
  refine ⟨((s.ref p).put (.down (.request (.ref p)))).dss1L1ActivateReq.paused p, ?_⟩
  rw [joinPipe, line_dss1PipeActivateReq, line_dss1L1ActivateReq, line_put, line_ref, ← Line.join]

/-- A call gives up its pipe. -/
theorem line_leavePipe (s : Cntl n) (o : Option PipeNo) :
    (s.leavePipe o).line = s.line.leave o := by
  cases o with
  | none => rfl
  | some p => rw [leavePipe, line_dss1L1DeactivateReq, line_put, line_unref, ← Line.leave]

/-- `cd_set_pipe` moves the call. -/
theorem line_cdSetPipe_some (env : Env) (s : Cntl n) (i : Fin n) (p : PipeNo) :
    ∃ paused, (s.cdSetPipe env i (some p)).line = s.line.move i p paused := by
  obtain ⟨paused, h⟩ := line_joinPipe env s p
  refine ⟨paused, ?_⟩
  have hcd := congrArg (fun l => (l.cd i).pipe) h
  simp only [Line.join_cd, line_cd] at hcd
  rw [cdSetPipe, line_modify_call _ i (fun c => { c with pipe := some p }) (fun _ => rfl),
    line_leavePipe, h, hcd, Line.leave_cd, Line.join_cd, Line.move, line_cd]

/-- Without a pipe, it only gives up the old one. -/
theorem line_cdSetPipe_none (s : Cntl n) (i : Fin n) :
    (s.cdSetPipe env i none).line
      = (s.line.leave (s.line.cd i).pipe).set i { s.line.cd i with pipe := none } := by
  rw [cdSetPipe, line_modify_call _ i (fun c => { c with pipe := none }) (fun _ => rfl),
    line_leavePipe, joinPipe, Line.leave_cd, line_cd]

/-! ## The end of a call

A call is freed in several steps, each of which sets something in the descriptor that is cleared later on.  Such
changes are `Line.mark`, and they do not matter as soon as the descriptor is free.
-/

/-- **The descriptor is freed, with all that the call owned.** -/
theorem line_nFreeCd (env : Env) (s : Cntl n) (i : Fin n) :
    (s.nFreeCd env i).line
      = s.line.free i (s.cd i).state (s.cd i).causeIn (s.cd i).causeOut := by
  rw [nFreeCd, i4bFreeCd]
  rw [line_modify_call _ i (fun c => { c with cdid := cdidUnused, setStateCallout := false })
    (fun _ => rfl)]
  rw [line_cdFreeChannel, line_cdSetPipe_none, line_cdSetApplInterface, line_i4bL4DisconnectInd]
  rw [Line.give, Line.set_cd_self, Line.set_cd_self, Line.set_set, Line.set_giveBack, Line.set_set]
  exact congrArg₂ (fun m c => Line.set m i c) (Line.giveBack_congr _ rfl rfl) rfl

/-- A change to the state, the timer and the causes of a call. -/
theorem line_modify_mark (s : Cntl n) (i : Fin n) {f : CallDesc → CallDesc} {state : State}
    {callout : Bool} {causeIn causeOut : Nat}
    (h : (f (s.cd i)).toCall = { (s.cd i).toCall with
      state := state, setStateCallout := callout, causeIn := causeIn, causeOut := causeOut }) :
    (s.modify i f).line = s.line.mark i state callout causeIn causeOut := by
  rw [line_modify, h]
  rfl

/-- Two such changes in turn. -/
theorem line_mark_trans {s t r : Cntl n} {i : Fin n} {state st : State} {callout co : Bool}
    {causeIn causeOut cin cout : Nat} (h : t.line = s.line.mark i st co cin cout)
    (h' : r.line = t.line.mark i state callout causeIn causeOut) :
    r.line = s.line.mark i state callout causeIn causeOut := by
  rw [h', h, Line.mark_set]

/-- What is left of the call after it. -/
theorem toCall_of_mark {s t : Cntl n} {i : Fin n} {state : State} {callout : Bool}
    {causeIn causeOut : Nat} (h : t.line = s.line.mark i state callout causeIn causeOut) :
    (t.cd i).toCall = { (s.cd i).toCall with
      state := state, setStateCallout := callout, causeIn := causeIn, causeOut := causeOut } := by
  have hcd := congrArg (fun l => l.cd i) h
  rwa [Line.mark, Line.set_cd_self] at hcd

theorem line_txFinal (env : Env) (s : Cntl n) (i : Fin n) (p : PipeNo) :
    ∃ causeOut, (s.txFinal env i p).line
      = s.line.mark i (s.cd i).state (s.cd i).setStateCallout (s.cd i).causeIn causeOut := by
  have hsame : ∃ causeOut, s.line
      = s.line.mark i (s.cd i).state (s.cd i).setStateCallout (s.cd i).causeIn causeOut :=
    ⟨(s.cd i).causeOut, (s.line.mark_self i).symm⟩
  have h : ∃ causeOut, (if (s.cd i).causeOut = 0 then
        s.modify i fun cd => { cd with causeOut := causeRecotimexp } else s).line
      = s.line.mark i (s.cd i).state (s.cd i).setStateCallout (s.cd i).causeIn causeOut := by
    split
    · exact ⟨causeRecotimexp, line_modify_mark s i rfl⟩
    · exact hsame
  obtain ⟨causeOut, h⟩ := h
  by_cases hr : (s.cd i).needRelease = true
  · rw [txFinal, if_pos hr]
    exact ⟨causeOut, line_ite ((line_dss1L3TxReleaseCompleteComplement _ i _ _).trans h)
      ((line_dss1L3TxMessage _ _ i _ _).trans h)⟩
  · rw [txFinal, if_neg hr]
    exact hsame

theorem line_abandon (s : Cntl n) (i : Fin n) (p : PipeNo) :
    (s.abandon i p).line
      = s.line.mark i .u0 (s.cd i).setStateCallout (s.cd i).causeIn (s.cd i).causeOut :=
  (line_put _ _).trans (line_modify_mark s i rfl)

theorem line_l1Error (s : Cntl n) (i : Fin n) :
    ∃ causeIn, (s.l1Error i).line
      = s.line.mark i (s.cd i).state (s.cd i).setStateCallout causeIn (s.cd i).causeOut := by
  rw [l1Error]
  split
  · exact ⟨(s.cd i).causeIn, (s.line.mark_self i).symm⟩
  · exact ⟨causeI4bL1error, line_modify_mark s i rfl⟩

/-- `cd_set_state` for `ST_L3_U0` frees the call. -/
theorem line_enterNull (env : Env) (s : Cntl n) (i : Fin n) (p : PipeNo) :
    ∃ causeIn causeOut, (s.enterNull env i p).line = s.line.free i .u0 causeIn causeOut := by
  have h1 := line_abandon s i p
  obtain ⟨causeOut, h2⟩ := line_txFinal env (s.abandon i p) i p
  obtain ⟨causeIn, h3⟩ := line_l1Error ((s.abandon i p).txFinal env i p) i
  have h := line_mark_trans h1 (line_mark_trans h2 h3)
  have hst : ((((s.abandon i p).txFinal env i p).l1Error i).cd i).state = .u0 := by
    rw [toCall_of_mark h, toCall_of_mark h2, toCall_of_mark h1]
  have hf := line_nFreeCd env (((s.abandon i p).txFinal env i p).l1Error i) i
  rw [h, hst, Line.free_mark] at hf
  exact ⟨_, _, hf⟩

theorem line_cdSetState_null (env : Env) {s : Cntl n} {i : Fin n} (hp : (s.cd i).pipe ≠ none) :
    ∃ causeIn causeOut, (s.cdSetState env i .u0).line = s.line.free i .u0 causeIn causeOut := by
  obtain ⟨p, hp⟩ := Option.ne_none_iff_exists'.mp hp
  have h : (s.modify i fun cd => { cd with setStateCallout := false }).line
      = s.line.mark i (s.cd i).state false (s.cd i).causeIn (s.cd i).causeOut :=
    line_modify_mark s i rfl
  obtain ⟨causeIn, causeOut, h'⟩ :=
    line_enterNull env (s.modify i fun cd => { cd with setStateCallout := false }) i p
  refine ⟨causeIn, causeOut, ?_⟩
  rw [h, Line.free_mark] at h'
  rw [cdSetState, hp]
  exact h'

/-! ## States

`cd_set_state` may store another state than it was given: instead of a timeout, the state before it may be
stored again, which on a bus is counted.  `Entered` has both, and is what the timeouts are counted with.
-/

/-- What becomes of the new state in `cd_set_state`, and of `status_enquiry_timeout`. -/
structure Entered (c : Call) (new : State) (count : Nat) (stored : State) : Prop where
  count_eq : count = c.statusEnquiryTimeout ∨
    (c.statusEnquiryTimeout < statusEnquiryTimeoutMax ∧ count = c.statusEnquiryTimeout + 1 ∧
      new.isTimeout = true ∧ stored = new.pred)
  stored_eq : stored = new ∨ (new.isTimeout = true ∧ stored = new.pred)

theorem Entered.of_not_timeout {c : Call} {new stored : State} {count : Nat}
    (h : Entered c new count stored) (hn : new.isTimeout = false) :
    count = c.statusEnquiryTimeout ∧ stored = new := by
  refine ⟨?_, ?_⟩
  · rcases h.count_eq with hc | ⟨-, -, ht, -⟩
    · exact hc
    · rw [hn] at ht
      cases ht
  · rcases h.stored_eq with hs | ⟨ht, -⟩
    · exact hs
    · rw [hn] at ht
      cases ht

/-- What is decided about a status enquiry changes at most the counter for it. -/
theorem line_skipEnquiry (s : Cntl n) (i : Fin n) (new : State) :
    ∃ count, Entered (s.cd i).toCall new count (s.skipEnquiry i new).2.1 ∧
      (s.skipEnquiry i new).1.line
        = s.line.set i { s.line.cd i with statusEnquiryTimeout := count } := by
  have hsame : s.line = s.line.set i
      { s.line.cd i with statusEnquiryTimeout := (s.cd i).statusEnquiryTimeout } :=
    (s.line.set_self i).symm
  rw [skipEnquiry]
  split
  · rename_i h
    split
    · rename_i hc
      have hto : new.isTimeout = true := by
        rcases h.2.2 with rfl | rfl
        · rfl
        · rfl
      exact ⟨_, ⟨.inr ⟨hc.2, rfl, hto, rfl⟩, .inr ⟨hto, rfl⟩⟩, line_modify_call s i
        (fun c => { c with statusEnquiryTimeout := c.statusEnquiryTimeout + 1 }) (fun _ => rfl)⟩
    · exact ⟨_, ⟨.inl rfl, .inl rfl⟩, hsame⟩
  · split
    · rename_i h
      exact ⟨_, ⟨.inl rfl, .inr ⟨h.2, rfl⟩⟩, hsame⟩
    · exact ⟨_, ⟨.inl rfl, .inl rfl⟩, hsame⟩

/-- The state is stored, and its timer started. -/
theorem line_storeState (s : Cntl n) (i : Fin n) (new : State) :
    (s.storeState i new).line = s.line.enter i new :=
  line_modify_call s i (fun c =>
    { c with state := new, setStateCallout := true, history := new :: c.history }) (fun _ => rfl)

theorem line_enterState (s : Cntl n) (i : Fin n) (new : State) :
    (s.enterState env i new).line
      = (s.skipEnquiry i new).1.line.enter i (s.skipEnquiry i new).2.1 :=
  (line_sendEarly _ i _).trans (line_ite
    ((line_dss1L3TxMessage _ _ i _ _).trans (line_storeState _ i _)) (line_storeState _ i _))

/-- `cd_set_state` for the other states. -/
theorem line_cdSetState (env : Env) {s : Cntl n} {i : Fin n} {new : State} (hp : (s.cd i).pipe ≠ none)
    (hn : new ≠ .u0) :
    ∃ count stored, Entered (s.cd i).toCall new count stored ∧
      (s.cdSetState env i new).line
        = (s.line.set i { s.line.cd i with statusEnquiryTimeout := count }).enter i stored := by
  obtain ⟨p, hp⟩ := Option.ne_none_iff_exists'.mp hp
  have h : (s.modify i fun cd => { cd with setStateCallout := false }).line
      = s.line.set i { s.line.cd i with setStateCallout := false } :=
    line_modify_call s i (fun c => { c with setStateCallout := false }) (fun _ => rfl)
  obtain ⟨count, he, hl⟩ :=
    line_skipEnquiry (s.modify i fun cd => { cd with setStateCallout := false }) i new
  rw [modify_cd_self] at he
  refine ⟨count, _, ⟨he.count_eq, he.stored_eq⟩, ?_⟩
  rw [cdSetState, hp]
  dsimp only
  rw [if_neg hn, line_enterState, hl, h, Line.set_cd_self, Line.set_set]
  rw [Line.enter, Line.enter, Line.set_cd_self, Line.set_cd_self, Line.set_set, Line.set_set]

/-- What a call keeps unless it is freed or put on hold. -/
structure Kept (c c' : Call) : Prop where
  cdid : c'.cdid = c.cdid
  dirIncoming : c'.dirIncoming = c.dirIncoming
  callIsOnHold : c'.callIsOnHold = c.callIsOnHold

theorem Kept.allocated {c c' : Call} (h : Kept c c') (ha : c.Allocated) : c'.Allocated := by
  rw [Call.Allocated, h.cdid]
  exact ha

theorem Kept.trans {c c' c'' : Call} (h : Kept c c') (h' : Kept c' c'') : Kept c c'' :=
  ⟨h'.cdid.trans h.cdid, h'.dirIncoming.trans h.dirIncoming, h'.callIsOnHold.trans h.callIsOnHold⟩

theorem steps_cdSetState_null {s : Cntl n} {i : Fin n} (ha : (s.cd i).Allocated) :
    Steps b s.line (s.cdSetState env i .u0).line := by
  by_cases hp : (s.cd i).pipe = none
  · rw [cdSetState, hp]
    exact .refl
  · obtain ⟨causeIn, causeOut, h⟩ := line_cdSetState_null env hp
    rw [h]
    exact .single (.free _ i .u0 causeIn causeOut ha)

/-- The call may go to a state. -/
structure MayEnter (c : Call) (new : State) : Prop where
  follows : c.state.Follows new
  ok : State.OkFor c.dirIncoming c.state → State.OkFor c.dirIncoming new

/-- `cd_set_state` to a state that may follow; what is stored may be the state before the timeout. -/
theorem steps_cdSetState (env : Env) {s : Cntl n} {i : Fin n} {new : State} (ha : (s.cd i).Allocated)
    (hn : new ≠ .u0) (he : MayEnter (s.cd i).toCall new)
    (ht : new.isTimeout = true → MayEnter (s.cd i).toCall new.pred) :
    Steps b s.line (s.cdSetState env i new).line ∧
      Kept (s.cd i).toCall ((s.cdSetState env i new).cd i).toCall := by
  by_cases hp : (s.cd i).pipe = none
  · rw [cdSetState, hp]
    exact ⟨.refl, rfl, rfl, rfl⟩
  · obtain ⟨count, stored, hs, h⟩ := line_cdSetState env hp hn
    have hmay : MayEnter (s.cd i).toCall stored := by
      rcases hs.stored_eq with rfl | ⟨hto, rfl⟩
      · exact he
      · exact ht hto
    have hcd := congrArg (fun l => l.cd i) h
    rw [Line.enter, Line.set_cd_self, Line.set_cd_self] at hcd
    refine ⟨?_, ?_⟩
    · rw [h]
      refine .tail (b := s.line.set i { s.line.cd i with statusEnquiryTimeout := count }) ?_ ?_
      · rcases hs.count_eq with rfl | ⟨hlt, rfl, -⟩
        · rw [← line_cd, Line.set_self]
        · exact .single (.count _ i hlt)
      · refine .enter _ i stored ?_ ?_ ?_
        · rw [Line.set_cd_self]
          exact ha
        · rw [Line.set_cd_self]
          exact hmay.follows
        · rw [Line.set_cd_self]
          exact hmay.ok
    · rw [line_cd] at hcd
      rw [hcd]
      exact ⟨rfl, rfl, rfl⟩

/-! ## Channels

Looking for a channel ends in one of a few ways: a channel is taken, the call counts as having one, or
only the name of a channel was noted.
-/

/-- The results of `cd_allocate_channel`. -/
inductive Allocates (l : Line n) (i : Fin n) : Line n → Prop where
  | has (h : (l.cd i).channelAllocated = true) : Allocates l i l
  | notFound (h : (l.cd i).channelAllocated = false) :
      Allocates l i (l.set i { l.cd i with channelId := chanAny })
  | found (c : Nat) (h : (l.cd i).channelAllocated = false) (hc : c < l.channelEnd)
      (hfree : l.utilization c = false) : Allocates l i (l.take i c)
  | none (h : (l.cd i).channelAllocated = false) (hc : (l.cd i).channelId = chanNotAny) :
      Allocates l i (l.set i { l.cd i with channelAllocated := true })

theorem allocates_chooseChannel (s : Cntl n) (i : Fin n)
    (h : (s.cd i).channelAllocated = false) : Allocates s.line i (s.chooseChannel i).line := by
  have hnot : Allocates s.line i (s.channelNotFound i).line := by
    rw [channelNotFound, line_modify_call s i (fun c => { c with channelId := chanAny })
      (fun _ => rfl)]
    exact .notFound h
  have hfound : ∀ c < s.channelEnd, s.utilization c = false →
      Allocates s.line i (s.channelFound i c).line := by
    intro c hc hfree
    rw [line_channelFound]
    exact .found c h hc hfree
  rw [chooseChannel]
  split
  · rename_i hc
    split
    · exact hnot
    · rename_i hfree
      exact hfound _ (by omega) (by simpa using hfree)
  · split
    · rename_i hc
      rw [line_modify_call s i (fun c => { c with channelAllocated := true }) (fun _ => rfl)]
      exact .none h hc
    · split
      · rename_i c hf
        have hmem := List.mem_of_find?_eq_some hf
        have hfree := List.find?_some hf
        exact hfound c (List.mem_range.mp hmem) (by simpa using hfree)
      · exact hnot

/-- **A channel is looked for.** -/
theorem allocates_cdAllocateChannel (env : Env) (s : Cntl n) (i : Fin n) :
    Allocates s.line i (s.cdAllocateChannel env i).line := by
  have hl : (if (s.cd i).liCdid ≠ cdidUnused ∧ (s.cd i).liData = false then s.liAlloc env i
      else s).line = s.line := line_ite (line_liAlloc s i) rfl
  rw [cdAllocateChannel]
  generalize (if (s.cd i).liCdid ≠ cdidUnused ∧ (s.cd i).liData = false then s.liAlloc env i
    else s) = t at hl
  rw [← hl]
  split
  · rename_i h
    exact .has h
  · rename_i h
    exact allocates_chooseChannel t i (by simpa using h)

theorem Allocates.kept {l l' : Line n} {i : Fin n} (h : Allocates l i l') :
    Kept (l.cd i) (l'.cd i) := by
  cases h with
  | has h => exact ⟨rfl, rfl, rfl⟩
  | notFound h => rw [Line.set_cd_self]; exact ⟨rfl, rfl, rfl⟩
  | found c h hc hfree => rw [Line.take, Line.set_cd_self]; exact ⟨rfl, rfl, rfl⟩
  | none h hc => rw [Line.set_cd_self]; exact ⟨rfl, rfl, rfl⟩

theorem Allocates.state_eq {l l' : Line n} {i : Fin n} (h : Allocates l i l') :
    (l'.cd i).state = (l.cd i).state := by
  cases h with
  | has h => rfl
  | notFound h => rw [Line.set_cd_self]
  | found c h hc hfree => rw [Line.take, Line.set_cd_self]
  | none h hc => rw [Line.set_cd_self]

theorem Allocates.steps {l l' : Line n} {i : Fin n} (h : Allocates l i l')
    (ha : (l.cd i).Allocated) (hb : b.onHold = true ∨ (l.cd i).callIsOnHold = false) :
    Steps b l l' := by
  cases h with
  | has h => exact .refl
  | notFound h => exact .single (.name l i chanAny h)
  | found c h hc hfree => exact .single (.take l i c ha h hc hfree hb)
  | none h hc => exact .single (.takeNone l i ha h hc hb)

/-! ## Events of all calls

An event acts by `Steps`, and so it does if it acts by some, and then by others.  A state is entered only
from one that it may follow, so along with the steps the lemmas carry what is left of the call before the
state is set.
-/

/-- The call goes from `s` to `t` on the way to a later state. -/
structure Advances (b : Permit) (s t : Cntl n) (i : Fin n) (new : State) : Prop where
  steps : Steps b s.line t.line
  kept : Kept (s.cd i).toCall (t.cd i).toCall
  le : (t.cd i).state.num ≤ new.num
  channelId : (t.cd i).channelId = (s.cd i).channelId

/-- To a later state that is not one of waiting for an answer to a status enquiry. -/
theorem steps_advance (env : Env) {s : Cntl n} {i : Fin n} {new : State} (ha : (s.cd i).Allocated)
    (hn : new ≠ .u0 ∧ new.isTimeout = false) (hle : (s.cd i).state.num ≤ new.num)
    (ho : State.OkFor (s.cd i).dirIncoming new) : Advances b s (s.cdSetState env i new) i new := by
  have ht : new.isTimeout = true → MayEnter (s.cd i).toCall new.pred := by
    intro ht
    rw [hn.2] at ht
    cases ht
  obtain ⟨hs, hk⟩ := steps_cdSetState (b := b) env ha hn.1 ⟨.inl hle, fun _ => ho⟩ ht
  have h : ((s.cdSetState env i new).cd i).state.num ≤ new.num ∧
      ((s.cdSetState env i new).cd i).channelId = (s.cd i).channelId := by
    by_cases hp : (s.cd i).pipe = none
    · rw [cdSetState, hp]
      exact ⟨hle, rfl⟩
    · obtain ⟨count, stored, he, h⟩ := line_cdSetState env hp hn.1
      have hcd := congrArg (fun l => l.cd i) h
      rw [Line.enter, Line.set_cd_self, Line.set_cd_self, line_cd] at hcd
      rcases he.stored_eq with rfl | ⟨hto, -⟩
      · rw [hcd]
        exact ⟨le_rfl, rfl⟩
      · rw [hn.2] at hto
        cases hto
  exact ⟨hs, hk, h.1, h.2⟩

/-- The same after a message was sent. -/
theorem Advances.of_line_eq {s t r : Cntl n} {i : Fin n} {new : State} (hl : t.line = s.line)
    (h : Advances b t r i new) : Advances b s r i new := by
  have hcd := toCall_eq hl i
  refine ⟨?_, ?_, h.le, ?_⟩
  · rw [← hl]
    exact h.steps
  · rw [← hcd]
    exact h.kept
  · exact h.channelId.trans (congrArg Call.channelId hcd)

/-- From a state of waiting back to the one before. -/
theorem mayEnter_pred {c : Call} (h : c.state.isTimeout = true) : MayEnter c c.state.pred := by
  refine ⟨.inr ⟨h, rfl⟩, ?_⟩
  generalize c.state = st at h
  generalize c.dirIncoming = d
  revert d
  cases st <;> first | (exfalso; revert h; decide) | decide

theorem State.pred_of_timeout {st : State} (h : st.isTimeout = true) :
    st.pred ≠ .u0 ∧ st.pred.isTimeout = false := by
  cases st <;> first | (exfalso; revert h; decide) | decide

theorem steps_pred (env : Env) {s : Cntl n} {i : Fin n} (ha : (s.cd i).Allocated)
    (h : (s.cd i).state.isTimeout = true) :
    Steps b s.line (s.cdSetState env i (s.cd i).state.pred).line := by
  refine (steps_cdSetState _ ha (State.pred_of_timeout h).1 (mayEnter_pred h) ?_).1
  intro ht
  rw [(State.pred_of_timeout h).2] at ht
  cases ht

/-- A STATUS tells the state of the other end. -/
theorem steps_onStatus {s : Cntl n} {i : Fin n} (ha : (s.cd i).Allocated) :
    Steps b s.line (s.onStatus env i).line := by
  rw [onStatus]
  split
  · rename_i hst
    split
    · rename_i hc
      have hto : (s.cd i).state.isTimeout = true := by
        rcases hst with h | h | h | h <;> rw [h] <;> rfl
      have hl : (s.modify i fun cd =>
          { cd with statusEnquiryTimeout := cd.statusEnquiryTimeout + 1 }).line
          = s.line.set i { s.line.cd i with
              statusEnquiryTimeout := (s.line.cd i).statusEnquiryTimeout + 1 } :=
        line_modify_call s i
          (fun c => { c with statusEnquiryTimeout := c.statusEnquiryTimeout + 1 }) (fun _ => rfl)
      have h1 : Steps b s.line (s.modify i fun cd =>
          { cd with statusEnquiryTimeout := cd.statusEnquiryTimeout + 1 }).line := by
        rw [hl]
        exact .single (.count _ i hc.2)
      refine h1.trans ?_
      have h2 := steps_pred (b := b) env (s := s.modify i fun cd =>
        { cd with statusEnquiryTimeout := cd.statusEnquiryTimeout + 1 }) (i := i)
      rw [modify_cd_self] at h2
      exact h2 ha hto
    · exact .refl
  · split
    · rename_i hst
      refine steps_pred _ ha ?_
      rcases hst with h | h <;> rw [h.1] <;> rfl
    · exact .refl

/-- `cause_out` is set to a cause that is handled. -/
theorem steps_causeOut {s : Cntl n} {i : Fin n} (cause : Nat) {f : CallDesc → CallDesc}
    (h : b.anyCause = true ∨ Handled cause)
    (hf : ∀ cd, (f cd).toCall = { cd.toCall with causeOut := cause }) :
    Steps b s.line (s.modify i f).line := by
  rw [line_modify_call s i (fun c => { c with causeOut := cause }) hf]
  exact .single (.causeOut _ i cause h)

theorem steps_txWithCause (s : Cntl n) (i : Fin n) (messageType : UInt8) (f : Tx) (cause : Nat) :
    Steps b s.line (s.txWithCause env i messageType f cause).line := by
  have h : (s.txWithCause env i messageType f cause).line
      = s.line.set i { s.line.cd i with causeOut := 0 } := by
    rw [txWithCause, line_modify_call _ i (fun c => { c with causeOut := 0 }) (fun _ => rfl),
      line_dss1L3TxMessage _,
      line_modify_call _ i (fun c => { c with causeOut := cause }) (fun _ => rfl),
      Line.set_set, Line.set_cd_self]
  rw [h]
  exact .single (.causeOut _ i 0 (.inr rfl))

theorem line_leaveChannel (s : Cntl n) (i : Fin n) : (s.leaveChannel i).line = s.line.give i := by
  have h : (if (s.cd i).bLinkWantActive then
      (s.i4bLinkBchandrvr i false).modify i fun cd => { cd with bLinkWantActive := true }
      else s).line = s.line :=
    line_ite ((line_modify_eq _ i (by rfl)).trans (line_i4bLinkBchandrvr s i false)) rfl
  rw [leaveChannel, line_cdFreeChannel, h]

theorem give_channelAllocated (l : Line n) (i : Fin n) :
    ((l.give i).cd i).channelAllocated = false := by
  rw [Line.give, Line.set_cd_self, Line.withoutChannel]

theorem steps_onHoldInd (s : Cntl n) (i : Fin n) : Steps b s.line (s.onHoldInd env i).line := by
  rw [onHoldInd]
  split
  · rename_i h
    rw [line_modify_call _ i (fun c => { c with callIsOnHold := true }) (fun _ => rfl), line_tell]
    have hl : ((s.leaveChannel i).dss1L3TxHoldAcknowledge env i).line = s.line.give i :=
      (line_dss1L3TxMessage _ _ i _ _).trans (line_leaveChannel s i)
    rw [hl]
    refine .tail (.single (.give s.line i)) (.holdInd _ i (give_channelAllocated _ i) ?_)
    exact (Step.give (b := b) s.line i).sameSetting.ntMode.trans h.2.2
  · exact steps_txWithCause s i _ _ _

/-- The application puts the call on hold. -/
theorem steps_onHoldReq (s : Cntl n) (i : Fin n) : Steps b s.line (s.onHoldReq env i).line := by
  rw [onHoldReq]
  split
  · rw [line_modify_call _ i (fun c => { c with callIsOnHold := true, callIsRetrieving := false })
      (fun _ => rfl)]
    have hl : ((s.leaveChannel i).dss1L3TxHold env i).line = s.line.give i :=
      (line_dss1L3TxMessage _ _ i _ _).trans (line_leaveChannel s i)
    rw [hl]
    exact .tail (.single (.give s.line i)) (.holdReq _ i (give_channelAllocated _ i))
  · exact .refl

/-- It wants the call back. -/
theorem steps_onRetrieveReq (s : Cntl n) (i : Fin n) :
    Steps b s.line (s.onRetrieveReq env i).line := by
  rw [onRetrieveReq]
  split
  · rename_i h
    rw [line_modify_call _ i (fun c => { c with callIsOnHold := false, callIsRetrieving := true })
      (fun _ => rfl)]
    have hl : (s.dss1L3TxRetrieve env i).line = s.line := line_dss1L3TxMessage _ s i _ _
    rw [hl]
    exact .single (.retrieveReq _ i h.2)
  · exact .refl

/-- A channel may as well be looked for when the call is no longer on hold. -/
theorem Allocates.unhold {l l' : Line n} {i : Fin n} (h : Allocates l i l') :
    Allocates (l.set i { l.cd i with callIsOnHold := false }) i
      (l'.set i { l'.cd i with callIsOnHold := false }) := by
  cases h with
  | has h =>
    refine .has ?_
    rw [Line.set_cd_self]
    exact h
  | notFound h =>
    have hn := Allocates.notFound (l := l.set i { l.cd i with callIsOnHold := false }) (i := i)
    rw [Line.set_set, Line.set_cd_self] at hn ⊢
    exact hn h
  | found c h hc hfree =>
    have ht : (l.take i c).set i { (l.take i c).cd i with callIsOnHold := false }
        = (l.set i { l.cd i with callIsOnHold := false }).take i c := by
      rw [Line.take, Line.take, Line.set_set, Line.set_cd_self, Line.set_cd_self]
      simp only [Line.set, Function.update_idem]
    rw [ht]
    refine .found c ?_ hc hfree
    rw [Line.set_cd_self]
    exact h
  | none h hc =>
    have hn := Allocates.none (l := l.set i { l.cd i with callIsOnHold := false }) (i := i)
    rw [Line.set_set, Line.set_cd_self] at hn ⊢
    exact hn h hc

theorem steps_onRetrieveInd {s : Cntl n} {i : Fin n} (ha : (s.cd i).Allocated) :
    Steps b s.line (s.onRetrieveInd env i).line := by
  have hal := allocates_cdAllocateChannel env s i
  rw [onRetrieveInd]
  split
  · dsimp only
    split
    · -- the channel is taken for a call that is on hold until the end of this event
      rw [line_relink, line_modify_call _ i (fun c => { c with callIsOnHold := false })
        (fun _ => rfl), line_tell]
      have hl : ((s.cdAllocateChannel env i).dss1L3TxRetrieveAcknowledge env i).line
          = (s.cdAllocateChannel env i).line := line_dss1L3TxMessage _ _ i _ _
      rw [hl]
      refine .head (.unhold s.line i) (hal.unhold.steps ?_ (.inr ?_))
      · rw [Line.set_cd_self]
        exact ha
      · rw [Line.set_cd_self]
    · rename_i hno
      -- none was found, and at most the name of the channel is gone
      have hname : Steps b s.line (s.cdAllocateChannel env i).line := by
        generalize hs : (s.cdAllocateChannel env i).line = l at hal
        have hcd : (l.cd i).channelAllocated ≠ true := by
          rw [← hs]
          exact hno
        cases hal with
        | has h => exact .refl
        | notFound h => exact .single (.name _ i chanAny h)
        | found c h hc hfree =>
          rw [Line.take, Line.set_cd_self] at hcd
          exact absurd rfl hcd
        | none h hc =>
          rw [Line.set_cd_self] at hcd
          exact absurd rfl hcd
      exact hname.trans (steps_txWithCause _ i _ _ _)
  · exact steps_txWithCause s i _ _ _

theorem steps_onRetrieveAck {s : Cntl n} {i : Fin n} (ha : (s.cd i).Allocated)
    (hb : b.onHold = true ∨ (s.cd i).callIsOnHold = false ∨ (s.cd i).callIsRetrieving = false) :
    Steps b s.line (s.onRetrieveAck env i).line := by
  rw [onRetrieveAck]
  split
  · rename_i h
    have hb' : b.onHold = true ∨ (s.cd i).callIsOnHold = false := by
      rcases hb with hb | hb | hb
      · exact .inl hb
      · exact .inr hb
      · rw [h.1] at hb
        cases hb
    rw [line_relink, line_modify_call _ i (fun c => { c with callIsRetrieving := false })
      (fun _ => rfl)]
    exact .tail ((allocates_cdAllocateChannel _ s i).steps ha hb') (.retrieveAck _ i)
  · exact .refl

/-- Setting the state that the call is in starts its timer again. -/
theorem steps_restart {s : Cntl n} {i : Fin n} {st : State} (ha : (s.cd i).Allocated)
    (hst : (s.cd i).state = st) (hn : st ≠ .u0 ∧ st.isTimeout = false) :
    Steps b s.line (s.cdSetState env i st).line := by
  refine (steps_cdSetState _ ha hn.1 ⟨.inl (le_of_eq (by rw [hst])), ?_⟩ ?_).1
  · intro ho
    rwa [hst] at ho
  · intro ht
    rw [hn.2] at ht
    cases ht

/-- More digits are sent. -/
theorem steps_onInforq {s : Cntl n} {i : Fin n} (ha : (s.cd i).Allocated) :
    Steps b s.line (s.onInforq env i).line := by
  have h1 : (s.modify i fun cd =>
      { cd with dstTelnoEarly := (cd.dstTelnoEarly ++ cd.dstTelnoPart).take (telnoMax - 1) }).line
      = s.line := line_modify_eq s i (by rfl)
  have hl : (if s.ntMode = false ∨ s.pointToPoint ∨ (s.cd i).state = .ua ∨ (s.cd i).state = .uaTo then
      let t := s.modify i fun cd =>
        { cd with dstTelnoEarly := (cd.dstTelnoEarly ++ cd.dstTelnoPart).take (telnoMax - 1) }
      if (s.cd i).state ≠ .u2 then
        (t.dss1L3TxInformation env i).modify i fun cd => { cd with dstTelnoEarly := [] }
      else t
      else s).line = s.line :=
    line_ite (line_ite ((line_modify_eq _ i (by rfl)).trans ((line_dss1L3TxMessage _ _ i _ _).trans h1))
      h1) rfl
  have hcd := toCall_eq hl i
  rw [onInforq]
  dsimp only at hl ⊢
  split
  · rename_i hst
    rw [← hl]
    refine steps_restart ?_ ?_ ?_
    · rw [Call.Allocated, congrArg Call.cdid hcd]
      exact ha
    · exact congrArg Call.state hcd
    · rcases hst with h | h <;> rw [h] <;> decide
  · rw [← hl]

/-- More digits have come. -/
theorem steps_onInfo {s : Cntl n} {i : Fin n} (ha : (s.cd i).Allocated) :
    Steps b s.line (s.onInfo env i).line := by
  rw [onInfo]
  split
  · rw [line_tell]
    split
    · rename_i hst
      exact steps_restart ha hst (by decide)
    · exact .refl
  · exact .refl

/-! ## Labels -/

theorem steps_release {s : Cntl n} {i : Fin n} (cause : Nat) {f : CallDesc → CallDesc}
    (ha : (s.cd i).Allocated) (h : Handled cause)
    (hf : ∀ cd, (f cd).toCall = { cd.toCall with causeOut := cause }) :
    Steps b s.line ((s.modify i f).cdSetState env i .u0).line := by
  refine (steps_causeOut cause (.inr h) hf).trans (steps_cdSetState_null ?_)
  rw [modify_cd_self, hf]
  exact ha

/-- There is no channel for the call. -/
theorem steps_noChannelAvailable {s : Cntl n} {i : Fin n} (ha : (s.cd i).Allocated) :
    Steps b s.line (s.noChannelAvailable env i).line :=
  steps_release causeNocavail ha rfl (fun _ => rfl)

theorem steps_smsRelease {s : Cntl n} {i : Fin n} (ha : (s.cd i).Allocated) :
    Steps b s.line (s.smsRelease env i).line :=
  steps_release causeNoanswr ha rfl (fun _ => rfl)

theorem steps_eventConnectAck {s : Cntl n} {i : Fin n} (ha : (s.cd i).Allocated)
    (hle : (s.cd i).state.num ≤ State.ua.num) : Steps b s.line (s.eventConnectAck env i).line := by
  rw [eventConnectAck]
  split
  · exact steps_smsRelease ha
  · rw [line_i4bL4ConnectActiveInd]
    refine (steps_advance _ ha (by decide) hle ?_).1
    cases (s.cd i).dirIncoming <;> decide

/-! ## Events of outgoing calls -/

/-- A channel is looked for if one is named. -/
theorem steps_allocateNamed (env : Env) {s : Cntl n} {i : Fin n} (ha : (s.cd i).Allocated)
    (hb : b.onHold = true ∨ (s.cd i).callIsOnHold = false ∨ (s.cd i).channelId = chanAny) :
    Steps b s.line (s.allocateNamed env i).line ∧
      Kept (s.cd i).toCall ((s.allocateNamed env i).cd i).toCall ∧
      ((s.allocateNamed env i).cd i).state = (s.cd i).state := by
  have hal := allocates_cdAllocateChannel env s i
  rw [allocateNamed]
  split
  · rename_i hc
    have hb' : b.onHold = true ∨ (s.cd i).callIsOnHold = false := by
      rcases hb with hb | hb | hb
      · exact .inl hb
      · exact .inr hb
      · exact absurd hb hc
    exact ⟨hal.steps ha hb', hal.kept, hal.state_eq⟩
  · exact ⟨.refl, ⟨rfl, rfl, rfl⟩, rfl⟩

/-- `cd_update` looks for a channel for the call, other than in an answer to RETRIEVE. -/
def Takes (cd : CallDesc) : Event → Prop
  | .setupak =>
    cd.state ≠ .u2Ack ∧ State.outgoing.num < cd.state.num ∧ cd.state.num < State.u3.num ∧
      cd.channelId ≠ chanAny
  | .callprc | .progind =>
    State.outgoing.num < cd.state.num ∧ cd.state.num < State.u3.num ∧ cd.channelId ≠ chanAny
  | .alert =>
    State.outgoing.num < cd.state.num ∧ cd.state.num < State.u3.num ∧ cd.isSms = false ∧
      cd.channelId ≠ chanAny
  | .connect =>
    State.outgoing.num < cd.state.num ∧ cd.state.num < State.ua.num ∧ cd.isSms = false ∧
      cd.channelId ≠ chanAny
  | .setup => cd.state = .incoming ∨ cd.state = .inAck
  | _ => False

/-- A channel may be looked for: the call is not on hold, or that is permitted. -/
def MayTake (b : Permit) (cd : CallDesc) (e : Event) : Prop :=
  b.onHold = true ∨ cd.callIsOnHold = false ∨ ¬ Takes cd e

/-- The event is one that looks for a named channel. -/
theorem MayTake.named {cd : CallDesc} {e : Event} (h : MayTake b cd e)
    (ht : cd.channelId ≠ chanAny → Takes cd e) :
    b.onHold = true ∨ cd.callIsOnHold = false ∨ cd.channelId = chanAny := by
  rcases h with h | h | h
  · exact .inl h
  · exact .inr (.inl h)
  · exact .inr (.inr (by_contra fun hc => h (ht hc)))

/-- The SETUP of an outgoing call is sent. -/
theorem steps_onSetuprq {s : Cntl n} {i : Fin n} (ha : (s.cd i).Allocated)
    (hd : (s.cd i).dirIncoming = false) : Steps b s.line (s.onSetuprq env i).line := by
  rw [onSetuprq]
  split
  · rename_i hst
    have hl : (if s.ntMode = false ∨ s.pointToPoint then s.dss1L3TxSetup env i else s).line
        = s.line := line_ite (line_dss1L3TxSetup s i) rfl
    generalize (if s.ntMode = false ∨ s.pointToPoint then s.dss1L3TxSetup env i else s) = t at hl
    have hcd := toCall_eq hl i
    dsimp only
    rw [← hl]
    have h1 : Steps b t.line (t.modify i fun cd =>
        { cd with causeOut := 0, needRelease := true }).line :=
      steps_causeOut 0 (.inr rfl) (fun _ => rfl)
    refine h1.trans (steps_advance _ ?_ ?_ ?_ ?_).1
    · rw [modify_cd_self, Call.Allocated]
      exact (congrArg Call.cdid hcd).trans_ne ha
    · split <;> decide
    · rw [modify_cd_self]
      refine le_trans (le_of_eq (congrArg State.num ((congrArg Call.state hcd).trans hst))) ?_
      split <;> decide
    · rw [modify_cd_self]
      refine (congrArg (fun d => State.OkFor d _) ((congrArg Call.dirIncoming hcd).trans hd)).mpr ?_
      split <;> decide
  · exact .refl

/-- The channel of an outgoing call is looked for after its state was set. -/
theorem steps_proceed {s : Cntl n} {i : Fin n} {new : State} (ha : (s.cd i).Allocated)
    (hd : (s.cd i).dirIncoming = false) (hn : new ≠ .u0 ∧ new.isTimeout = false)
    (ho : State.OkFor false new) (hle : (s.cd i).state.num ≤ new.num)
    (hb : b.onHold = true ∨ (s.cd i).callIsOnHold = false ∨ (s.cd i).channelId = chanAny) :
    Steps b s.line ((s.cdSetState env i new).allocateNamed env i).line := by
  rw [← hd] at ho
  have h : Advances b s (s.cdSetState env i new) i new := steps_advance env ha hn hle ho
  refine h.steps.trans (steps_allocateNamed _ (h.kept.allocated ha) ?_).1
  rw [h.kept.callIsOnHold, h.channelId]
  exact hb

theorem steps_onCallprc {s : Cntl n} {i : Fin n} {e : Event} (ha : (s.cd i).Allocated)
    (hd : (s.cd i).dirIncoming = false) (hb : MayTake b (s.cd i) e)
    (he : State.outgoing.num < (s.cd i).state.num → (s.cd i).state.num < State.u3.num →
      (s.cd i).channelId ≠ chanAny → Takes (s.cd i) e) :
    Steps b s.line (s.onCallprc env i).line := by
  rw [onCallprc]
  split
  · rename_i hst
    rw [line_tell]
    exact steps_proceed ha hd (by decide) (by decide) (le_of_lt hst.2)
      (hb.named (he hst.1 hst.2))
  · exact .refl

theorem steps_onSetupak {s : Cntl n} {i : Fin n} (ha : (s.cd i).Allocated)
    (hd : (s.cd i).dirIncoming = false) (hb : MayTake b (s.cd i) .setupak) :
    Steps b s.line (s.onSetupak env i).line := by
  rw [onSetupak]
  split
  · rename_i hst
    rw [line_tell]
    refine steps_proceed ha hd (by decide) (by decide) (by rw [hst]; decide) (hb.named ?_)
    intro hc
    refine ⟨?_, ?_, ?_, hc⟩ <;> rw [hst] <;> decide
  · split
    · exact .refl
    · rename_i hne
      exact steps_onCallprc ha hd hb (fun h1 h2 hc => ⟨hne, h1, h2, hc⟩)

/-- The other end rings. -/
theorem steps_onAlert {s : Cntl n} {i : Fin n} (ha : (s.cd i).Allocated)
    (hd : (s.cd i).dirIncoming = false) (hb : MayTake b (s.cd i) .alert) :
    Steps b s.line (s.onAlert env i).line := by
  rw [onAlert]
  split
  · rename_i hst
    split
    · exact steps_smsRelease ha
    · rename_i hsms
      have hsms : (s.cd i).isSms = false := by simpa using hsms
      have ho : ∀ d, d = false → State.OkFor d .u4 := by
        rintro d rfl
        decide
      rw [line_tell]
      split
      · rename_i h3
        obtain ⟨h1, hk, hs⟩ := steps_allocateNamed env ha
          (hb.named (fun hc => ⟨hst.1, h3, hsms, hc⟩))
        refine h1.trans ?_
        have hl : ((s.allocateNamed env i).tell i (.proceeding true)).line
            = (s.allocateNamed env i).line := rfl
        rw [← hl]
        refine (steps_advance _ (s := (s.allocateNamed env i).tell i (.proceeding true))
          (hk.allocated ha) (by decide) ?_ (ho _ (hk.dirIncoming.trans hd))).1
        exact (congrArg State.num hs).trans_le (le_of_lt hst.2)
      · exact (steps_advance _ ha (by decide) (le_of_lt hst.2) (ho _ hd)).1
  · exact .refl

/-- The other terminals are told; `cause_out` is clear in the end, if it was touched. -/
theorem steps_releaseOthers (env : Env) (s : Cntl n) (i : Fin n) (p : Option PipeNo) :
    Steps b s.line (s.releaseOthers env i p).line ∧
      Kept (s.cd i).toCall ((s.releaseOthers env i p).cd i).toCall ∧
      ((s.releaseOthers env i p).cd i).state = (s.cd i).state := by
  rw [releaseOthers]
  split
  · dsimp only
    have h : (((s.modify i fun cd => { cd with causeOut := causeNonseluc })
        |>.dss1L3TxReleaseCompleteComplement env i
          ((s.modify i fun cd => { cd with causeOut := causeNonseluc }).cd i).pipe p).modify i
        fun cd => { cd with causeOut := 0 }).line
        = s.line.set i { s.line.cd i with causeOut := 0 } := by
      rw [line_modify_call _ i (fun c => { c with causeOut := 0 }) (fun _ => rfl),
        line_dss1L3TxReleaseCompleteComplement,
        line_modify_call _ i (fun c => { c with causeOut := causeNonseluc }) (fun _ => rfl),
        Line.set_set, Line.set_cd_self]
    have hcd := congrArg (fun l => l.cd i) h
    rw [Line.set_cd_self, line_cd] at hcd
    refine ⟨?_, ?_, ?_⟩
    · rw [h]
      exact .single (.causeOut _ i 0 (.inr rfl))
    · rw [hcd]
      exact ⟨rfl, rfl, rfl⟩
    · rw [hcd]
      rfl
  · exact ⟨.refl, ⟨rfl, rfl, rfl⟩, rfl⟩

/-- The other end answers. -/
theorem steps_onConnect {s : Cntl n} {i : Fin n} {p : PipeNo} (ha : (s.cd i).Allocated)
    (hd : (s.cd i).dirIncoming = false) (hb : MayTake b (s.cd i) .connect) :
    Steps b s.line (s.onConnect env i (some p)).line := by
  rw [onConnect]
  split
  · rename_i hst
    split
    · exact steps_smsRelease ha
    · rename_i hsms
      have hsms : (s.cd i).isSms = false := by simpa using hsms
      obtain ⟨h1, hk1, hs1⟩ := steps_allocateNamed env ha
        (hb.named (fun hc => ⟨hst.1, hst.2, hsms, hc⟩))
      dsimp only
      refine h1.trans ?_
      split
      · obtain ⟨h2, hk2, hs2⟩ :=
          steps_releaseOthers (b := b) env (s.allocateNamed env i) i (some p)
        refine h2.trans ?_
        have hk := hk1.trans hk2
        obtain ⟨paused, h3⟩ := line_cdSetPipe_some env
          ((s.allocateNamed env i).releaseOthers env i (some p)) i p
        have hmove : Steps b ((s.allocateNamed env i).releaseOthers env i (some p)).line
            (((s.allocateNamed env i).releaseOthers env i (some p)).cdSetPipe env i (some p)).line := by
          rw [h3]
          exact .single (.move _ i p paused (hk.allocated ha) (hk.dirIncoming.trans hd))
        refine hmove.trans ?_
        have hcd := congrArg (fun l => l.cd i) h3
        rw [Line.move, Line.set_cd_self, line_cd] at hcd
        have hack : ∀ t : Cntl n, (t.dss1L3TxConnectAcknowledge env i).line = t.line :=
          fun t => line_dss1L3TxMessage _ t i _ _
        rw [← hack]
        have hcd' := (toCall_eq (hack _) i).trans hcd
        refine steps_eventConnectAck ?_ ?_
        · rw [Call.Allocated, congrArg Call.cdid hcd']
          exact hk.allocated ha
        · rw [congrArg Call.state hcd']
          exact (congrArg State.num (hs2.trans hs1)).trans_le (le_of_lt hst.2)
      · exact steps_noChannelAvailable (hk1.allocated ha)
  · exact .refl

/-! ## Events of incoming calls -/

/-- After a message was sent, an incoming call goes to a later state. -/
theorem steps_txAdvance (env : Env) {s t : Cntl n} {i : Fin n} {new : State}
    (hl : t.line = s.line) (ha : (s.cd i).Allocated) (hd : (s.cd i).dirIncoming = true)
    (hn : new ≠ .u0 ∧ new.isTimeout = false) (hle : (s.cd i).state.num ≤ new.num)
    (ho : State.OkFor true new) : Advances b s (t.cdSetState env i new) i new := by
  have hcd := toCall_eq hl i
  refine .of_line_eq hl (steps_advance env ((congrArg Call.cdid hcd).trans_ne ha) hn
    ((congrArg (State.num ∘ Call.state) hcd).trans_le hle) ?_)
  rw [(congrArg Call.dirIncoming hcd).trans hd]
  exact ho

theorem steps_answerSetup (env : Env) {s : Cntl n} {i : Fin n} (wantDialtone : Bool)
    (ha : (s.cd i).Allocated) (hd : (s.cd i).dirIncoming = true)
    (hle : (s.cd i).state.num ≤ State.inAck.num) :
    Advances b s (s.answerSetup env i wantDialtone) i .u6 := by
  rw [answerSetup]
  split
  · exact steps_txAdvance env (line_dss1L3TxMessage env s i _ _) ha hd (by decide)
      (le_trans hle (by decide)) (by decide)
  · have h : Advances b s ((s.dss1L3TxSetupAcknowledge env i s.ntMode wantDialtone).cdSetState env i
        .inAck) i .inAck :=
      steps_txAdvance env (line_dss1L3TxMessage env s i _ _) ha hd (by decide) hle (by decide)
    exact ⟨h.steps, h.kept, le_trans h.le (by decide), h.channelId⟩

@[simp] theorem line_linkDialtone (s : Cntl n) (i : Fin n) (wantDialtone : Bool) :
    (s.linkDialtone i wantDialtone).line = s.line :=
  line_ite ((line_i4bLinkBchandrvr _ i true).trans (line_modify_eq _ i (by rfl))) rfl

theorem steps_offerCall {s : Cntl n} {i : Fin n} (ha : (s.cd i).Allocated) :
    Steps b s.line (s.offerCall env i).line := by
  have hl := line_i4bL4ConnectInd env s i
  rw [offerCall]
  split
  · rw [← hl]
    exact steps_smsRelease ((congrArg Call.cdid (toCall_eq hl i)).trans_ne ha)
  · rw [hl]

/-- A SETUP has come. -/
theorem steps_onSetup {s : Cntl n} {i : Fin n} (ha : (s.cd i).Allocated)
    (hd : (s.cd i).dirIncoming = true) (hb : MayTake b (s.cd i) .setup) :
    Steps b s.line (s.onSetup env i).line := by
  rw [onSetup]
  split
  · rename_i hst
    have hb' : b.onHold = true ∨ (s.cd i).callIsOnHold = false := by
      rcases hb with hb | hb | hb
      · exact .inl hb
      · exact .inr hb
      · exact absurd hst hb
    have hle : (s.cd i).state.num ≤ State.inAck.num := by
      rcases hst with h | h
      · rw [h]
        decide
      · rw [h]
    have hl : (s.modify i fun cd =>
        { cd with needRelease := cd.needRelease || s.ntMode || s.pointToPoint }).line = s.line :=
      line_modify_eq s i (by rfl)
    dsimp only
    generalize (s.modify i fun cd =>
      { cd with needRelease := cd.needRelease || s.ntMode || s.pointToPoint }) = t at hl
    have hcd := toCall_eq hl i
    have hal := allocates_cdAllocateChannel env t i
    rw [hl] at hal
    have hk : Kept (s.cd i).toCall ((t.cdAllocateChannel env i).cd i).toCall := hal.kept
    refine (hal.steps ha hb').trans ?_
    split
    · generalize (s.ntMode && !s.noLayer1Dialtone &&
        ((s.cd i).channelBprot == bprotNone || (s.cd i).channelBprot == bprotNone31Khz)) = dialtone
      have h1 : Advances b (t.cdAllocateChannel env i)
          ((t.cdAllocateChannel env i).answerSetup env i dialtone) i .u6 :=
        steps_answerSetup env dialtone (hk.allocated ha) (hk.dirIncoming.trans hd)
          ((congrArg State.num hal.state_eq).trans_le hle)
      refine h1.steps.trans ?_
      have hdt := line_linkDialtone ((t.cdAllocateChannel env i).answerSetup env i dialtone) i dialtone
      rw [← hdt]
      exact steps_offerCall ((congrArg Call.cdid (toCall_eq hdt i)).trans_ne
        (h1.kept.allocated (hk.allocated ha)))
    · exact steps_noChannelAvailable (hk.allocated ha)
  · exact .refl

theorem steps_onProceedingrq {s : Cntl n} {i : Fin n} (ha : (s.cd i).Allocated)
    (hd : (s.cd i).dirIncoming = true) : Steps b s.line (s.onProceedingrq env i).line := by
  rw [onProceedingrq]
  split
  · rename_i hst
    exact (steps_txAdvance _ (line_dss1L3TxMessage _ s i _ _) ha hd (by decide) (le_of_lt hst.2)
      (by decide)).steps
  · exact .refl

/-- The application rings. -/
theorem steps_onAlertrq {s : Cntl n} {i : Fin n} (ha : (s.cd i).Allocated)
    (hd : (s.cd i).dirIncoming = true) : Steps b s.line (s.onAlertrq env i).line := by
  rw [onAlertrq]
  split
  · rename_i hst
    split
    · exact steps_smsRelease ha
    · have hl := (line_dss1L3TxMessage env (s.proceedFirst env i) i mtAlert {}).trans
        (line_proceedFirst s i)
      exact (steps_txAdvance _ hl ha hd (by decide) (le_of_lt hst.2) (by decide)).steps
  · exact .refl

theorem line_onProgressrq (s : Cntl n) (i : Fin n) : (s.onProgressrq env i).line = s.line :=
  line_ite (line_dss1L3TxMessage _ s i _ _) rfl

/-- The cause that was there before does not matter where another one is set. -/
theorem steps_causeOut_of {s : Cntl n} {i : Fin n} {l : Line n} {old : Nat} (cause : Nat)
    {f : CallDesc → CallDesc} (hl : s.line = l.set i { l.cd i with causeOut := old })
    (h : Handled cause) (hf : ∀ cd, (f cd).toCall = { cd.toCall with causeOut := cause }) :
    Steps b l (s.modify i f).line := by
  rw [line_modify_call s i (fun c => { c with causeOut := cause }) hf, hl, Line.set_set,
    Line.set_cd_self]
  exact .single (.causeOut l i cause (.inr h))

/-- SETUP is answered by CONNECT, whatever `cause_out` was. -/
theorem steps_onSetacrs_of (env : Env) {s : Cntl n} {i : Fin n} {l : Line n} {old : Nat}
    (hl : s.line = l.set i { l.cd i with causeOut := old }) (ha : (s.cd i).Allocated)
    (hd : (s.cd i).dirIncoming = true)
    (hst : State.incoming.num < (s.cd i).state.num ∧ (s.cd i).state.num < State.u8.num) :
    Steps b l (s.onSetacrs env i).line := by
  rw [onSetacrs, if_pos hst]
  split
  · refine (steps_causeOut_of causeNoanswr hl rfl (fun _ => rfl)).trans
      (steps_cdSetState_null (s := s.modify i fun cd =>
        { cd with causeOut := causeNoanswr, needRelease := true }) ?_)
    rw [modify_cd_self]
    exact ha
  · have hq := (line_dss1L3TxMessage env (s.proceedFirst env i) i mtConnect
      ⟨false, false, false, false, false, false, false, s.ntMode⟩).trans (line_proceedFirst s i)
    have hcd := toCall_eq hq i
    rw [hl] at hq
    dsimp only [dss1L3TxConnect]
    generalize hg : (s.proceedFirst env i).dss1L3TxMessage env i mtConnect
      ⟨false, false, false, false, false, false, false, s.ntMode⟩ = t at hq hcd
    have h1 : Steps b l (t.modify i fun cd =>
        { cd with causeOut := 0, needRelease := true }).line :=
      steps_causeOut_of 0 hq rfl (fun _ => rfl)
    have h2 : Advances b (t.modify i fun cd => { cd with causeOut := 0, needRelease := true })
        ((t.modify i fun cd => { cd with causeOut := 0, needRelease := true }).cdSetState env i .u8)
        i .u8 := by
      refine steps_advance env ?_ (by decide) ?_ ?_
      · rw [modify_cd_self]
        exact (congrArg Call.cdid hcd).trans_ne ha
      · rw [modify_cd_self]
        exact (congrArg (State.num ∘ Call.state) hcd).trans_le (le_of_lt hst.2)
      · rw [modify_cd_self]
        exact (congrArg (fun d => State.OkFor d .u8) ((congrArg Call.dirIncoming hcd).trans hd)).mpr
          (by decide)
    have ha2 := h2.kept.allocated (by
      rw [modify_cd_self]
      exact (congrArg Call.cdid hcd).trans_ne ha)
    refine (h1.trans h2.steps).trans ?_
    split
    · exact steps_eventConnectAck ha2 (le_trans h2.le (by decide))
    · exact .refl

theorem steps_onSetacrs (env : Env) {s : Cntl n} {i : Fin n} (ha : (s.cd i).Allocated)
    (hd : (s.cd i).dirIncoming = true) : Steps b s.line (s.onSetacrs env i).line := by
  by_cases hst : State.incoming.num < (s.cd i).state.num ∧ (s.cd i).state.num < State.u8.num
  · exact steps_onSetacrs_of env (s.line.set_self i).symm ha hd hst
  · rw [onSetacrs, if_neg hst]

/-! ## All events -/

theorem outgoing_of_event {d : Bool} {e : Event}
    (h : ¬ (if d then e.isLocalIncoming else e.isLocalOutgoing) = false)
    (he : e.isLocalIncoming = false) : d = false := by
  cases d with
  | false => rfl
  | true => exact absurd he h

theorem incoming_of_event {d : Bool} {e : Event}
    (h : ¬ (if d then e.isLocalIncoming else e.isLocalOutgoing) = false)
    (he : e.isLocalOutgoing = false) : d = true := by
  cases d with
  | true => rfl
  | false => exact absurd he h

theorem State.num_le_uc (st : State) (h : st ≠ .uc ∧ st ≠ .ucTo) : st.num ≤ State.uc.num := by
  revert h
  cases st <;> decide

/-- **`cd_update` acts by changes of the line.** -/
theorem steps_cdUpdate (env : Env) {s : Cntl n} {i : Fin n} {p : Option PipeNo} {e : Event}
    (ha : (s.cd i).Allocated) (hb : MayTake b (s.cd i) e)
    (hr : e = .retrieveAck →
      b.onHold = true ∨ (s.cd i).callIsOnHold = false ∨ (s.cd i).callIsRetrieving = false)
    (hp : e = .connect → p ≠ none) : Steps b s.line (s.cdUpdate env i p e).line := by
  rw [cdUpdate.eq_def]
  by_cases hdir :
      (if (s.cd i).dirIncoming then e.isLocalIncoming else e.isLocalOutgoing) = false
  · rw [if_pos hdir]
  · rw [if_neg hdir]
    cases e with
    | setrjrs =>
      have hl : (s.modify i fun cd => { cd with needRelease := true }).line = s.line :=
        line_modify_eq s i (by rfl)
      rw [← hl]
      exact steps_cdSetState_null ((congrArg Call.cdid (toCall_eq hl i)).trans_ne ha)
    | disconnect =>
      dsimp only
      split
      · refine (steps_advance (s := s.tell i (.preDisconnect (s.cd i).causeIn)) env ha (by decide)
          ?_ ?_).steps
        · exact State.num_le_uc _ ‹_›
        · have ho : ∀ d, State.OkFor d .uc := by decide
          exact ho _
      · exact .refl
    | release => exact steps_cdSetState_null ha
    | statenq => exact steps_txWithCause s i _ _ _
    | status => exact steps_onStatus ha
    | holdInd => exact steps_onHoldInd s i
    | retrieveInd => exact steps_onRetrieveInd ha
    | holdReq => exact steps_onHoldReq s i
    | retrieveReq => exact steps_onRetrieveReq s i
    | retrieveAck => exact steps_onRetrieveAck ha (hr rfl)
    | setuprq => exact steps_onSetuprq ha (outgoing_of_event hdir rfl)
    | inforq => exact steps_onInforq ha
    | setupak => exact steps_onSetupak ha (outgoing_of_event hdir rfl) hb
    | callprc =>
      exact steps_onCallprc ha (outgoing_of_event hdir rfl) hb (fun h1 h2 hc => ⟨h1, h2, hc⟩)
    | progind =>
      exact steps_onCallprc ha (outgoing_of_event hdir rfl) hb (fun h1 h2 hc => ⟨h1, h2, hc⟩)
    | alert => exact steps_onAlert ha (outgoing_of_event hdir rfl) hb
    | connect =>
      obtain ⟨q, rfl⟩ := Option.ne_none_iff_exists'.mp (hp rfl)
      exact steps_onConnect ha (outgoing_of_event hdir rfl) hb
    | setup => exact steps_onSetup ha (incoming_of_event hdir rfl) hb
    | info => exact steps_onInfo ha
    | facility => exact steps_onInfo ha
    | restartInd => exact steps_onInfo ha
    | restartAck => exact steps_onInfo ha
    | proceedingrq => exact steps_onProceedingrq ha (incoming_of_event hdir rfl)
    | alertrq => exact steps_onAlertrq ha (incoming_of_event hdir rfl)
    | progressrq =>
      dsimp only
      rw [line_onProgressrq]
    | setacrs => exact steps_onSetacrs env ha (incoming_of_event hdir rfl)
    | conack =>
      dsimp only
      split
      · rename_i hst
        exact steps_eventConnectAck ha (by rw [hst]; decide)
      · exact .refl
    | deflectrq =>
      have hl : (s.dss1L3TxDeflectCall env i).line = s.line := line_dss1L3TxMessage env s i _ _
      dsimp only
      rw [line_ite rfl hl]
    | mcidrq =>
      have hl : (s.dss1L3TxMcidCall env i).line = s.line := line_dss1L3TxMessage env s i _ _
      dsimp only
      rw [line_ite rfl hl]
    | ill => exact .refl

/-! ## Allocating a call descriptor

The id of a new call is the next one that is not in use, in the range of the controller.
-/

/-- An id that `get_cdid` finds is one of the controller, and not in use. -/
theorem getCdidLoop_fresh (s : Cntl n) (hend : 1 < s.cdidEnd) {r : Nat × Nat} :
    ∀ (fuel : Nat) (timeout : Bool) (count : Nat), s.getCdidLoop fuel timeout count = some r →
      r.1 ≠ cdidUnused → s.line.Fresh r.1
  | 0, _, _, h, _ => by cases h
  | fuel + 1, timeout, count, h, hne => by
    have hround : ∀ (c : Nat) (t : Bool), 1 ≤ c → c < s.cdidEnd →
        (if ∃ i, (s.cd i).cdid = makeCdid s.unit c then s.getCdidLoop fuel t c
          else some (makeCdid s.unit c, c)) = some r → s.line.Fresh r.1 := by
      intro c t h1 h2 h
      split at h
      · exact getCdidLoop_fresh s hend fuel _ _ h hne
      · rename_i hfree
        cases h
        exact ⟨⟨c, h1, h2, rfl⟩, fun j hj => hfree ⟨j, hj⟩⟩
    rw [getCdidLoop] at h
    generalize (count + 1) % 2 ^ 32 = c at h
    by_cases hout : c = 0 ∨ s.cdidEnd ≤ c
    · simp only [hout, decide_true, if_true, true_and] at h
      split at h
      · cases h
        exact absurd rfl hne
      · exact hround 1 _ le_rfl hend h
    · simp only [hout, decide_false, Bool.false_eq_true, if_false, false_and] at h
      exact hround c _ (by omega) (by omega) h

/-- `N_cdid_end` is in its range. -/
def CdidEndOk (s : Cntl n) : Prop := 1 < s.cdidEnd ∧ s.cdidEnd ≤ cdidRefMax

theorem getCdid_cases (s : Cntl n) (h : s.CdidEndOk) :
    s.getCdid.2.line = s.line ∧ s.getCdid.2.cd = s.cd ∧
      (s.getCdid.1 = cdidUnused ∨ s.line.Fresh s.getCdid.1) := by
  have hmin : ({ s with cdidEnd := min s.cdidEnd cdidRefMax } : Cntl n) = s := by
    rw [min_eq_left h.2]
  rw [getCdid, hmin]
  cases hr : s.getCdidLoop (2 * s.cdidEnd + 2) true s.cdidCount with
  | none => exact ⟨rfl, rfl, .inl rfl⟩
  | some r =>
    refine ⟨rfl, rfl, ?_⟩
    by_cases hne : r.1 = cdidUnused
    · exact .inl hne
    · exact .inr (getCdidLoop_fresh s h.1 _ _ _ hr hne)

/-- What `i4b_allocate_cd` finds. -/
theorem i4bAllocateCd_cases (s : Cntl n) (h : s.CdidEndOk) :
    (∃ s', s.i4bAllocateCd = (none, s') ∧ Begin s.line s'.line) ∨
    (∃ i s' cdid, s.i4bAllocateCd = (some i, s') ∧ ¬ (s.cd i).Allocated ∧ s.line.Fresh cdid ∧
      s'.line = s.line.set i { cdid := cdid }) := by
  rw [i4bAllocateCd]
  cases hf : (List.finRange n).find? fun i => (s.cd i).cdid = cdidUnused with
  | none => exact .inl ⟨s, rfl, .none _⟩
  | some i =>
    have hun : (s.cd i).cdid = cdidUnused := by simpa using List.find?_some hf
    have hcl : (s.modify i fun _ => {}).line = s.line.set i {} := line_modify s i _
    obtain ⟨hl, hcd, hr⟩ := getCdid_cases (s.modify i fun _ => {}) h
    dsimp only
    have hset : ∀ cdid, ((s.modify i fun _ => {}).getCdid.2.modify i fun cd =>
        { cd with cdid := cdid }).line = s.line.set i { cdid := cdid } := by
      intro cdid
      rw [line_modify_call _ i (fun c => { c with cdid := cdid }) (fun _ => rfl), hl, hcl,
        Line.set_set, Line.set_cd_self]
    by_cases hu : (s.modify i fun _ => {}).getCdid.1 = cdidUnused
    · refine .inl ⟨_, by rw [if_pos hu], ?_⟩
      rw [hset, hu]
      exact .clear _ i (fun hn => hn hun)
    · refine .inr ⟨i, _, _, by rw [if_neg hu], fun hn => hn hun, ?_, hset _⟩
      have hfresh := hr.resolve_left hu
      refine ⟨hfresh.range, ?_⟩
      intro j
      by_cases hj : j = i
      · subst hj
        rw [line_cd, hun]
        exact fun hn => hu hn.symm
      · have := hfresh.unused j
        rwa [hcl, Line.set_cd_of_ne _ _ hj] at this

/-- The call is set up on its pipe and in its first state. -/
theorem line_setupCall (env : Env) {s : Cntl n} {i : Fin n} {l : Line n} {cdid : Nat}
    (hl : s.line = l.set i { cdid := cdid }) (p : Option PipeNo) (crval : Nat) (aiType : AiType)
    (aiPtr : Nat) :
    ∃ paused, (((s.setupCall i p crval aiType aiPtr).cdSetPipe env i
        (some (p.getD adapter))).cdSetState env i (if p.isSome then .incoming else .outgoing)).line
      = l.allocate i cdid (p.getD adapter) paused
          (if p.isSome then crval else cdid2Callreference cdid) p.isSome := by
  have h1 : (s.setupCall i p crval aiType aiPtr).line = l.set i
      { cdid := cdid
        dirIncoming := p.isSome
        channelId := chanAny
        cr := if p.isSome then crval else cdid2Callreference cdid } := by
    rw [setupCall, line_modify_call _ i (fun c => { c with
      dirIncoming := p.isSome
      channelId := chanAny
      cr := if p.isSome then crval else cdid2Callreference c.cdid }) (fun _ => rfl), hl,
      Line.set_set, Line.set_cd_self]
  obtain ⟨paused, h2⟩ := line_cdSetPipe_some env (s.setupCall i p crval aiType aiPtr) i
    (p.getD adapter)
  refine ⟨paused, ?_⟩
  have hpipe : (((s.setupCall i p crval aiType aiPtr).cdSetPipe env i
      (some (p.getD adapter))).cd i).pipe ≠ none := by
    have hcd := congrArg (fun l => (l.cd i).pipe) h2
    rw [Line.move, Line.set_cd_self, line_cd] at hcd
    rw [hcd]
    exact Option.some_ne_none _
  have hn : (if p.isSome then State.incoming else State.outgoing) ≠ .u0 ∧
      (if p.isSome then State.incoming else State.outgoing).isTimeout = false := by
    split <;> decide
  obtain ⟨count, stored, he, h3⟩ := line_cdSetState env hpipe hn.1
  obtain ⟨hc, rfl⟩ := he.of_not_timeout hn.2
  have hc0 : count = 0 := by
    have hcd := congrArg (fun l => (l.cd i).statusEnquiryTimeout) h2
    rw [Line.move, Line.set_cd_self, line_cd, h1, Line.set_cd_self] at hcd
    exact hc.trans hcd
  rw [h3, h2, h1, Line.move, Line.set_cd_self, Line.set_join, Line.leave, Line.set_set,
    Line.set_cd_self, Line.set_set, Line.enter, Line.set_cd_self, Line.set_set, hc0, Line.allocate,
    Line.newCall]

/-- What `n_allocate_cd` does. -/
theorem nAllocateCd_cases (env : Env) (s : Cntl n) (h : s.CdidEndOk) (p : Option PipeNo)
    (crval : Nat) (aiType : AiType) (aiPtr : Nat) :
    (∃ s', s.nAllocateCd env p crval aiType aiPtr = (none, s') ∧ Begin s.line s'.line) ∨
    (∃ i s' cdid paused, s.nAllocateCd env p crval aiType aiPtr = (some i, s') ∧
      ¬ (s.cd i).Allocated ∧ s.line.Fresh cdid ∧
      s'.line = s.line.allocate i cdid (p.getD adapter) paused
        (if p.isSome then crval else cdid2Callreference cdid) p.isSome) := by
  rw [nAllocateCd]
  rcases i4bAllocateCd_cases s h with ⟨s', hs, hb⟩ | ⟨i, s', cdid, hs, hun, hfresh, hl⟩
  · rw [hs]
    exact .inl ⟨s', rfl, hb⟩
  · obtain ⟨paused, hl'⟩ := line_setupCall env hl p crval aiType aiPtr
    rw [hs]
    exact .inr ⟨i, _, cdid, paused, rfl, hun, hfresh, hl'⟩

end Cntl
end L3
end Isdn4bsd
