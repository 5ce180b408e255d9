import Isdn4bsd.L3.Actions

/-!
# Timeouts

The timer of a call runs as long as the call exists.  When nothing comes from the other end or from
the application, a call is ended by its timer: at once, after an enquiry that is not answered, or,
on a bus, after waiting a few more times.

* `Runs`: what a function does to the controller aside from its calls: it does not panic if the
  causes it converts are known to `i4b_make_q850_cause`.
* `rank`: how often the timer of a call can still expire.
* `expire_cases`: **one expiration**: the call is freed, with all it owned, or goes on with a smaller rank.
* `ReachBy.no_stuck_call`: a call ends after at most `2 * STATUS_ENQUIRY_TIMEOUT + 3` expirations.

## The rank

From some states the timer ends the call at once.  From the other states `X` it leads to `X_TO`, with a status
enquiry, and from there to the end of the call.  On a bus, where some terminals crash on an enquiry, none is
sent from two of these states; if the other end has been heard of before, the call goes back to `X`, and
`status_enquiry_timeout` counts how often that was so, up to `STATUS_ENQUIRY_TIMEOUT`.  The rank is what is
left of this count, and 2 for `X_TO` and the end; it is at most `STATUS_ENQUIRY_TIMEOUT + 2`, whatever state
the call is in.

## Silence

Only the timer of the call itself is needed for this, but it must not be started again by something
else.  `Silent` are the actions that say nothing about the call: other timers, and layers 1 and 2 going up
and down.  They leave the call alone or end it (`left_silent`), and in between the rank never goes up
(`ReachBy.rank_silent`).

With `NO_STATUS_ENQUIRY` a call may wait for ever, by option.  And a cause of a type that nobody knows makes
the end of the call a panic, every time (`unknown_cause_stuck`); that is the other condition.
-/

set_option autoImplicit false

namespace Isdn4bsd
namespace L3

open L2 (PipeNo adapter)

namespace Cntl

variable {n : Nat} {env : Env}

/-! ## No panic

That a timer frees a call can be said only if the function that does so does not panic before.  `Runs` goes
through the functions that are used then, from the bottom up; its condition is that the call has a pipe
and causes that are known.
-/

/-- The option for status enquiries is left alone, and nothing panics under the condition. -/
structure Runs (ok : Prop) (s t : Cntl n) : Prop where
  enquiry : t.noLayer3StatusEnquiry = s.noLayer3StatusEnquiry
  halted : ok → t.halted = s.halted

theorem Runs.rfl {ok : Prop} {s : Cntl n} : Runs ok s s := ⟨Eq.refl _, fun _ => Eq.refl _⟩

/-- What comes next panics only under another condition. -/
theorem Runs.next {ok ok' : Prop} {r s t : Cntl n} (h : Runs ok r s) (h' : Runs ok' s t)
    (hok : ok → ok') : Runs ok r t :=
  ⟨h'.enquiry.trans h.enquiry, fun ho => (h'.halted (hok ho)).trans (h.halted ho)⟩

theorem Runs.mono {ok ok' : Prop} {s t : Cntl n} (h : Runs ok' s t) (hok : ok → ok') : Runs ok s t :=
  ⟨h.enquiry, fun ho => h.halted (hok ho)⟩

section

variable {ok : Prop} {r s t : Cntl n}

theorem Runs.ite {c : Prop} [Decidable c] (hs : Runs ok r s) (ht : Runs ok r t) :
    Runs ok r (if c then s else t) := by
  split
  · exact hs
  · exact ht

theorem Runs.modify (h : Runs ok r s) (i : Fin n) (f : CallDesc → CallDesc) :
    Runs ok r (s.modify i f) := ⟨h.enquiry, h.halted⟩

theorem Runs.put (h : Runs ok r s) (o : Output) : Runs ok r (s.put o) := ⟨h.enquiry, h.halted⟩

theorem Runs.tell (h : Runs ok r s) (i : Fin n) (ind : Ind) : Runs ok r (s.tell i ind) := h.put _

theorem Runs.ask (h : Runs ok r s) : Runs ok r s.ask.2 := ⟨h.enquiry, h.halted⟩

theorem Runs.unlinkBchandrvr (h : Runs ok r s) (i : Fin n) : Runs ok r (s.unlinkBchandrvr i) := by
  rw [Cntl.unlinkBchandrvr]
  exact ((h.modify i _).put _).ite (h.modify i _)

theorem Runs.i4bL4DisconnectInd (h : Runs ok r s) (i : Fin n)
    (hok : ok → (s.cd i).aiType = .i4b ∨ Handled (s.cd i).causeIn) :
    Runs ok r (s.i4bL4DisconnectInd i false) := by
  have hl : (s.i4bLinkBchandrvr i false).line = s.line := line_i4bLinkBchandrvr s i false
  have hc : ((s.i4bLinkBchandrvr i false).cd i).causeIn = (s.cd i).causeIn :=
    congrArg Call.causeIn (toCall_eq hl i)
  have ha : ((s.i4bLinkBchandrvr i false).cd i).aiType = (s.cd i).aiType := by
    rw [i4bLinkBchandrvr, if_neg Bool.false_ne_true, Cntl.unlinkBchandrvr]
    split
    · rw [Cntl.put, modify_cd_self]
    · rw [modify_cd_self]
  have ht := (h.unlinkBchandrvr i).tell i
    (.disconnect ((s.i4bLinkBchandrvr i false).cd i).causeIn false)
  rw [Cntl.i4bL4DisconnectInd, if_neg Bool.false_ne_true]
  split
  · rename_i hn
    refine ⟨ht.enquiry, ?_⟩
    intro ho
    rcases hok ho with hk | hh
    · exact absurd (ha.trans hk) (hn.1.resolve_right Bool.false_ne_true)
    · rw [Handled, ← hc, hn.2] at hh
      cases hh
  · exact ht

theorem Runs.dss1L1ActivityTimeout (h : Runs ok r s) : Runs ok r s.dss1L1ActivityTimeout := by
  rw [Cntl.dss1L1ActivityTimeout]
  refine Runs.ite ?_ h
  have h' : Runs ok r (if s.l1Activity ∧ s.l1AutoActivate = 0 ∧ s.receivedFrame = false ∧
      s.noPowerSave = false then
        if s.l1DeactivateCount then { s.put (.l1 false) with l1DeactivateCount := false }
        else { s with l1DeactivateCount := true }
      else { s with l1DeactivateCount := false, receivedFrame := false }) :=
    Runs.ite (Runs.ite ⟨h.enquiry, h.halted⟩ ⟨h.enquiry, h.halted⟩) ⟨h.enquiry, h.halted⟩
  exact ⟨h'.enquiry, h'.halted⟩

theorem Runs.leavePipe (h : Runs ok r s) (o : Option PipeNo) : Runs ok r (s.leavePipe o) := by
  cases o with
  | none => exact h
  | some p =>
    rw [Cntl.leavePipe, dss1L1DeactivateReq]
    refine Runs.ite (Runs.dss1L1ActivityTimeout ?_) ?_
    · exact ⟨h.enquiry, h.halted⟩
    · exact ⟨h.enquiry, h.halted⟩

/-- Giving back a channel is no reason to panic. -/
theorem Runs.cdFreeChannel (h : Runs ok r s) (i : Fin n) : Runs ok r (s.cdFreeChannel i) := by
  rw [Cntl.cdFreeChannel]
  have h' := h.modify i fun cd => { cd with liData := false }
  refine Runs.ite (Runs.modify (Runs.ite ?_ h') i _) h'
  exact ⟨h'.enquiry, h'.halted⟩

/-- Nor is it to free a descriptor. -/
theorem Runs.nFreeCd (h : Runs ok r s) (i : Fin n)
    (hok : ok → (s.cd i).aiType = .i4b ∨ Handled (s.cd i).causeIn) :
    Runs ok r (s.nFreeCd env i) := by
  rw [Cntl.nFreeCd, cdSetApplInterface, cdSetPipe, joinPipe, i4bFreeCd]
  exact (((((h.i4bL4DisconnectInd i hok).modify i _).leavePipe _).modify i _).cdFreeChannel
    i).modify i _

/-! ### Messages

The message that is sent last may need a cause.
-/

/-- A message can be made if the cause is known. -/
theorem message_isSome (env : Env) (ntMode primaryRate : Bool) (cd : CallDesc) (messageType : UInt8)
    (f : Tx) (h : f.cause = true → Handled cd.causeOut) :
    (message env ntMode primaryRate cd messageType f).isSome = true := by
  rw [message, Option.isSome_map]
  split
  · rename_i hf
    rw [causeElement, Option.isSome_map]
    exact h hf
  · rfl

theorem Runs.txThrough (h : Runs ok r s) (i : Fin n) (p : PipeNo) (messageType : UInt8) (f : Tx)
    (hok : ok → f.cause = true → Handled (s.cd i).causeOut) :
    Runs ok r (s.txThrough env i p messageType f) := by
  rw [Cntl.txThrough]
  refine Runs.ite ?_ h.ask
  split
  · rename_i hm
    refine ⟨h.enquiry, ?_⟩
    intro ho
    have := message_isSome env s.ntMode s.primaryRate (s.cd i) messageType f (hok ho)
    rw [hm] at this
    cases this
  · rw [dss1PipeDataReq]
    exact (h.ask.modify i _).put _

theorem Runs.dss1L3TxMessage (h : Runs ok r s) (i : Fin n) (messageType : UInt8) (f : Tx)
    (hp : ok → (s.cd i).pipe ≠ none) (hok : ok → f.cause = true → Handled (s.cd i).causeOut) :
    Runs ok r (s.dss1L3TxMessage env i messageType f) := by
  rw [Cntl.dss1L3TxMessage]
  split
  · rename_i hn
    exact ⟨h.enquiry, fun ho => absurd hn (hp ho)⟩
  · exact h.txThrough i _ messageType f hok

theorem Runs.dss1L3TxReleaseCompleteComplement (h : Runs ok r s) (i : Fin n)
    (skip1 skip2 : Option PipeNo) (hok : ok → Handled (s.cd i).causeOut) :
    Runs ok r (s.dss1L3TxReleaseCompleteComplement env i skip1 skip2) := by
  rw [Cntl.dss1L3TxReleaseCompleteComplement, dss1L3TxMessageComplement]
  generalize List.finRange 16 = ps
  induction ps generalizing s with
  | nil => exact h
  | cons p ps ih =>
    rw [List.foldl_cons]
    refine ih (Runs.ite (h.txThrough i p _ _ fun ho _ => hok ho) h) ?_
    have hl : (if some p ≠ skip1 ∧ some p ≠ skip2 ∧ s.paused p = false then
        s.txThrough env i p mtReleaseComplete { cause := true } else s).line = s.line :=
      line_ite (line_txThrough s i p _ _) (Eq.refl _)
    rw [congrArg Call.causeOut (toCall_eq hl i)]
    exact hok

/-! ### States

A state is entered after a status enquiry was decided about: it is sent, or it is left out, and then the
call may go on waiting in the state that it was in.
-/

theorem Runs.txFinal (h : Runs ok r s) (i : Fin n) (p : PipeNo) (hp : ok → (s.cd i).pipe ≠ none)
    (hok : ok → Handled (s.cd i).causeOut) : Runs ok r (s.txFinal env i p) := by
  rw [Cntl.txFinal]
  refine Runs.ite ?_ h
  have h' : Runs ok r (if (s.cd i).causeOut = 0 then
      s.modify i fun cd => { cd with causeOut := causeRecotimexp } else s) := (h.modify i _).ite h
  have hp' : ok → ((if (s.cd i).causeOut = 0 then
      s.modify i fun cd => { cd with causeOut := causeRecotimexp } else s).cd i).pipe ≠ none := by
    intro ho
    split
    · rw [modify_cd_self]
      exact hp ho
    · exact hp ho
  have hc' : ok → Handled ((if (s.cd i).causeOut = 0 then
      s.modify i fun cd => { cd with causeOut := causeRecotimexp } else s).cd i).causeOut := by
    intro ho
    split
    · rw [modify_cd_self]
      exact (by decide : Handled causeRecotimexp)
    · exact hok ho
  exact Runs.ite (h'.dss1L3TxReleaseCompleteComplement i _ _ hc')
    (h'.dss1L3TxMessage i _ _ hp' fun ho _ => hc' ho)

theorem Runs.enterNull (h : Runs ok r s) (i : Fin n) (p : PipeNo) (hp : ok → (s.cd i).pipe ≠ none)
    (hin : ok → Handled (s.cd i).causeIn) (hout : ok → Handled (s.cd i).causeOut) :
    Runs ok r (s.enterNull env i p) := by
  have hab := line_abandon s i p
  have hcab := toCall_of_mark hab
  obtain ⟨cout, htx⟩ := line_txFinal env (s.abandon i p) i p
  have hctx := toCall_of_mark htx
  have h1 : Runs ok r (s.abandon i p) := by
    rw [abandon]
    exact (h.modify i _).put _
  have h2 : Runs ok r ((s.abandon i p).txFinal env i p) := by
    refine h1.txFinal i p ?_ ?_
    · rw [hcab]
      exact hp
    · rw [hcab]
      exact hout
  have h3 : Runs ok r (((s.abandon i p).txFinal env i p).l1Error i) := by
    rw [l1Error]
    exact h2.ite (h2.modify i _)
  rw [Cntl.enterNull]
  refine h3.nFreeCd i fun ho => .inr ?_
  rw [l1Error]
  split
  · rw [hctx, hcab]
    exact hin ho
  · rw [modify_cd_self]
    exact (by decide : Handled causeI4bL1error)

theorem pipe_skipEnquiry (s : Cntl n) (i : Fin n) (new : State) :
    ((s.skipEnquiry i new).1.cd i).pipe = (s.cd i).pipe := by
  obtain ⟨count, -, hl⟩ := line_skipEnquiry s i new
  have h := congrArg (fun l => (l.cd i).pipe) hl
  simp only [Line.set_cd_self] at h
  exact h

theorem Runs.sendEarly (h : Runs ok r s) (i : Fin n) (new : State)
    (hp : ok → (s.cd i).pipe ≠ none) : Runs ok r (s.sendEarly env i new) := by
  rw [Cntl.sendEarly]
  exact Runs.ite ((h.dss1L3TxMessage i mtInformation { calledpn := true } hp fun _ => nofun).modify i _) h

theorem Runs.enterState (h : Runs ok r s) (i : Fin n) (new : State)
    (hp : ok → (s.cd i).pipe ≠ none) : Runs ok r (s.enterState env i new) := by
  have h1 : Runs ok r (s.skipEnquiry i new).1 := by
    rw [skipEnquiry]
    split
    · split
      · exact ⟨h.enquiry, h.halted⟩
      · exact h
    · split
      · exact h
      · exact h
  have h2 : Runs ok r ((s.skipEnquiry i new).1.storeState i (s.skipEnquiry i new).2.1) := by
    rw [storeState]
    exact h1.modify i _
  have hp2 : ok → (((s.skipEnquiry i new).1.storeState i (s.skipEnquiry i new).2.1).cd i).pipe
      ≠ none := by
    rw [storeState, modify_cd_self]
    intro ho
    exact (pipe_skipEnquiry s i new).trans_ne (hp ho)
  rw [Cntl.enterState]
  generalize (s.skipEnquiry i new).1.storeState i (s.skipEnquiry i new).2.1 = m at h2 hp2
  refine Runs.sendEarly (Runs.ite (h2.dss1L3TxMessage i mtStatusEnquiry {} hp2
    fun _ h => absurd h Bool.false_ne_true) h2) i _ ?_
  have hl : (if (s.skipEnquiry i new).2.2 = true then m.dss1L3TxStatusEnquiry env i else m).line
      = m.line := line_ite (line_dss1L3TxMessage env m i _ _) (Eq.refl _)
  intro ho
  exact (congrArg Call.pipe (toCall_eq hl i)).trans_ne (hp2 ho)

/-- **A state is entered without a panic**, if the call has a pipe and its causes are known. -/
theorem Runs.cdSetState (h : Runs ok r s) (i : Fin n) (new : State)
    (hp : ok → (s.cd i).pipe ≠ none) (hin : ok → Handled (s.cd i).causeIn)
    (hout : ok → Handled (s.cd i).causeOut) : Runs ok r (s.cdSetState env i new) := by
  rw [Cntl.cdSetState]
  split
  · rename_i hn
    exact ⟨h.enquiry, fun ho => absurd hn (hp ho)⟩
  · rename_i p hpipe
    have h' := h.modify i fun cd => { cd with setStateCallout := false }
    have hcall : ((s.modify i fun cd => { cd with setStateCallout := false }).cd i).toCall
        = { (s.cd i).toCall with setStateCallout := false } := by rw [modify_cd_self]
    dsimp only
    refine Runs.ite (h'.enterNull i p ?_ ?_ ?_) ?_
    · rw [hcall]
      exact hp
    · rw [hcall]
      exact hin
    · rw [hcall]
      exact hout
    · refine h'.enterState i new ?_
      rw [hcall]
      exact hp

end

/-! ## An expiration

The timer of a call expires in a state `X`, which takes it to `X_TO` with a status enquiry, and that state
times out as well.  An answer takes it back to `X`, but not if nobody answers.  On a bus, where the state
may be gone back to without an answer, this is counted and ends after a few times.  So each expiration
brings a call nearer to its end, and `rank` says how many there can be.
-/

/-- How often the timer of the call can still expire: in the states that are left by the timer for
`X_TO`, also for each time that a call on a bus may be waited for. -/
def rank (c : Call) : Nat :=
  if c.Allocated then
    if c.state.timeoutState = .u0 then 1
    else 2 + (statusEnquiryTimeoutMax - c.statusEnquiryTimeout)
  else 0

theorem rank_le (c : Call) : rank c ≤ 2 + statusEnquiryTimeoutMax := by
  rw [rank]
  split
  · split
    · decide
    · omega
  · exact Nat.zero_le _

/-- A call has at least one expiration to come. -/
theorem rank_pos {c : Call} (h : c.Allocated) : 0 < rank c := by
  rw [rank, if_pos h]
  split
  · exact Nat.one_pos
  · omega

/-- Where enquiries are sent, a state is gone back to only by counting. -/
theorem skipEnquiry_asking {s : Cntl n} (hn : s.noLayer3StatusEnquiry = false) (i : Fin n)
    (new : State) :
    (s.skipEnquiry i new).1 = s ∧ (s.skipEnquiry i new).2.1 = new ∨
    (s.cd i).statusEnquiryTimeout < statusEnquiryTimeoutMax ∧
      (s.skipEnquiry i new).1.line = s.line.set i
        { s.line.cd i with statusEnquiryTimeout := (s.cd i).statusEnquiryTimeout + 1 } ∧
      (s.skipEnquiry i new).2.1 = new.pred := by
  rw [skipEnquiry]
  split
  · split
    · rename_i hc
      exact .inr ⟨hc.2, line_modify_call s i
        (fun c => { c with statusEnquiryTimeout := c.statusEnquiryTimeout + 1 }) (fun _ => rfl), rfl⟩
    · exact .inl ⟨rfl, rfl⟩
  · rw [hn, if_neg (fun h => Bool.false_ne_true h.1)]
    exact .inl ⟨rfl, rfl⟩

theorem pred_timeoutState (x : State) (h : x.timeoutState ≠ .u0) : x.timeoutState.pred = x := by
  cases x <;> first | rfl | exact absurd rfl h

theorem timeoutState_timeoutState (x : State) : x.timeoutState.timeoutState = .u0 := by
  cases x <;> rfl

/-- The call goes on, in a state that its timer leaves sooner. -/
structure GoesOn (s t : Cntl n) (i : Fin n) : Prop where
  line : ∃ count stored,
    t.line = (s.line.set i { s.line.cd i with statusEnquiryTimeout := count }).enter i stored
  rank_lt : rank (t.cd i).toCall < rank (s.cd i).toCall

/-- The counter and the state of a call, after both were changed. -/
theorem toCall_of_entered {s t : Cntl n} {i : Fin n} {count : Nat} {stored : State}
    (h : t.line = (s.line.set i { s.line.cd i with statusEnquiryTimeout := count }).enter i stored) :
    (t.cd i).toCall = { (s.cd i).toCall with
      statusEnquiryTimeout := count, state := stored, setStateCallout := true,
      history := stored :: (s.cd i).history } := by
  have hc := congrArg (fun l => l.cd i) h
  simp only [Line.enter, Line.set_cd_self] at hc
  exact hc

theorem goesOn_of_count {s t : Cntl n} {i : Fin n} (ha : (s.cd i).Allocated)
    (hst : (s.cd i).state.timeoutState ≠ .u0) {count : Nat} {stored : State}
    (hl : t.line = (s.line.set i { s.line.cd i with statusEnquiryTimeout := count }).enter i stored)
    (h : stored = (s.cd i).state.timeoutState ∨ stored = (s.cd i).state ∧
      (s.cd i).statusEnquiryTimeout < statusEnquiryTimeoutMax ∧
      count = (s.cd i).statusEnquiryTimeout + 1) : GoesOn s t i := by
  refine ⟨⟨count, stored, hl⟩, ?_⟩
  have hc := toCall_of_entered hl
  have hta : (t.cd i).Allocated := by
    rw [hc]
    exact ha
  rw [rank, rank, if_pos hta, if_pos ha, if_neg hst]
  rcases h with rfl | ⟨rfl, hlt, rfl⟩
  · rw [hc, if_pos (timeoutState_timeoutState _)]
    omega
  · rw [hc, if_neg hst]
    simp only
    omega

/-- A state that is entered when the timer expires is nearer to the end. -/
theorem goesOn_cdSetState (env : Env) {s : Cntl n} {i : Fin n} (ha : (s.cd i).Allocated)
    (hp : (s.cd i).pipe ≠ none) (hn : s.noLayer3StatusEnquiry = false)
    (hst : (s.cd i).state.timeoutState ≠ .u0) :
    GoesOn s (s.cdSetState env i (s.cd i).state.timeoutState) i := by
  obtain ⟨p, hp⟩ := Option.ne_none_iff_exists'.mp hp
  have hm : (s.modify i fun cd => { cd with setStateCallout := false }).line
      = s.line.set i { s.line.cd i with setStateCallout := false } :=
    line_modify_call s i (fun c => { c with setStateCallout := false }) (fun _ => rfl)
  have hcount : ((s.modify i fun cd => { cd with setStateCallout := false }).cd
      i).statusEnquiryTimeout = (s.cd i).statusEnquiryTimeout := by rw [modify_cd_self]
  have hset : (s.cdSetState env i (s.cd i).state.timeoutState)
      = (s.modify i fun cd => { cd with setStateCallout := false }).enterState env i
          (s.cd i).state.timeoutState := by
    rw [cdSetState, hp]
    exact if_neg hst
  have hen : (s.modify i fun cd =>
      { cd with setStateCallout := false }).noLayer3StatusEnquiry = false := hn
  rw [hset]
  generalize (s.modify i fun cd => { cd with setStateCallout := false }) = m at hm hcount hen
  have hl : (m.enterState env i (s.cd i).state.timeoutState).line = _ := line_enterState m i _
  rcases skipEnquiry_asking hen i (s.cd i).state.timeoutState with ⟨h1, h2⟩ | ⟨hlt, h1, h2⟩
  · refine @goesOn_of_count _ _ _ _ ha hst (s.cd i).statusEnquiryTimeout _ ?_ (.inl rfl)
    rw [hl, h1, h2, hm, Line.enter, Line.enter, Line.set_cd_self, Line.set_cd_self, Line.set_set,
      Line.set_set, line_cd]
  · rw [hcount] at hlt
    refine goesOn_of_count ha hst ?_ (.inr ⟨pred_timeoutState _ hst, hlt, rfl⟩)
    rw [hl, h1, h2, hm, Line.enter, Line.enter, Line.set_cd_self, Line.set_cd_self, Line.set_set,
      Line.set_set, Line.set_cd_self, Line.set_set, hcount, line_cd]

/-! ## What is left of a call

To be freed means more than to have an id that is not in use: the channel and the pipe are given back,
layer 4 does not know of the call, and nothing of the descriptor is left for the next call.
-/

/-- The descriptor is not known to layer 4 any more: it belongs to no application, the B channel is
not connected, nothing is allocated for a bridge, and the idle timer is stopped. -/
structure Released (cd : CallDesc) : Prop where
  aiType : cd.aiType = .broadcast
  aiPtr : cd.aiPtr = 0
  bLinkWantActive : cd.bLinkWantActive = false
  liData : cd.liData = false
  idleCallout : cd.idleCallout = false

theorem cd_dss1L1ActivityTimeout (s : Cntl n) : s.dss1L1ActivityTimeout.cd = s.cd := by
  rw [dss1L1ActivityTimeout]
  split
  · split
    · split
      · rfl
      · rfl
    · rfl
  · rfl

theorem cd_leavePipe (s : Cntl n) (o : Option PipeNo) : (s.leavePipe o).cd = s.cd := by
  cases o with
  | none => rfl
  | some p =>
    rw [leavePipe, dss1L1DeactivateReq]
    split
    · rw [cd_dss1L1ActivityTimeout]
      rfl
    · rfl

/-- The channel is free. -/
theorem released_cdFreeChannel {s : Cntl n} {i : Fin n} (ht : (s.cd i).aiType = .broadcast)
    (hp : (s.cd i).aiPtr = 0) (hb : (s.cd i).bLinkWantActive = false) :
    Released { (s.cdFreeChannel i).cd i with idleCallout := false } := by
  have hm : (s.modify i fun cd => { cd with liData := false }).cd i
      = { s.cd i with liData := false } := modify_cd_self s i _
  rw [cdFreeChannel]
  generalize (s.modify i fun cd => { cd with liData := false }) = m at hm
  have hr : Released { m.cd i with idleCallout := false } := by
    rw [hm]
    exact ⟨ht, hp, hb, rfl, rfl⟩
  split
  · rw [modify_cd_self]
    split
    · exact ⟨hr.aiType, hr.aiPtr, hr.bLinkWantActive, hr.liData, rfl⟩
    · exact ⟨hr.aiType, hr.aiPtr, hr.bLinkWantActive, hr.liData, rfl⟩
  · exact hr

theorem bLinkWantActive_i4bL4DisconnectInd (s : Cntl n) (i : Fin n) :
    ((s.i4bL4DisconnectInd i false).cd i).bLinkWantActive = false := by
  have h : ((s.unlinkBchandrvr i).cd i).bLinkWantActive = false := by
    rw [unlinkBchandrvr]
    split
    · rw [put, modify_cd_self]
    · rw [modify_cd_self]
  rw [i4bL4DisconnectInd, if_neg Bool.false_ne_true]
  split
  · exact h
  · exact h

/-- **The descriptor is not known any more.** -/
theorem released_nFreeCd (env : Env) (s : Cntl n) (i : Fin n) :
    Released ((s.nFreeCd env i).cd i) := by
  have hcd : (((s.i4bL4DisconnectInd i false).cdSetApplInterface i .broadcast 0).cdSetPipe env i
      none).cd i = { (s.i4bL4DisconnectInd i false).cd i with
        aiType := .broadcast, aiPtr := 0, pipe := none } := by
    rw [cdSetPipe, joinPipe, modify_cd_self, cd_leavePipe, cdSetApplInterface, modify_cd_self]
  have hr := released_cdFreeChannel (s := ((s.i4bL4DisconnectInd i false).cdSetApplInterface i
    .broadcast 0).cdSetPipe env i none) (i := i) (by rw [hcd]) (by rw [hcd])
    (by rw [hcd]; exact bLinkWantActive_i4bL4DisconnectInd s i)
  rw [nFreeCd, i4bFreeCd, modify_cd_self]
  exact ⟨hr.aiType, hr.aiPtr, hr.bLinkWantActive, hr.liData, rfl⟩

/-- The call was freed, with its channel, its pipe and what layer 4 had of it. -/
structure Freed (s t : Cntl n) (i : Fin n) : Prop where
  state : (t.cd i).state = .u0
  free : ¬ (t.cd i).Allocated
  callout : (t.cd i).setStateCallout = false
  channel : (t.cd i).channelAllocated = false
  utilization : ∀ c : Nat, (s.cd i).channelAllocated = true → (s.cd i).channelId = c →
    c < s.channelEnd → t.utilization c = false
  pipe : (t.cd i).pipe = none
  refcount : ∀ p, (s.cd i).pipe = some p → t.refcount p = dec (s.refcount p)
  l1AutoActivate : t.l1AutoActivate = dec s.l1AutoActivate
  released : Released (t.cd i)

theorem freed_of_line {s t : Cntl n} {i : Fin n} {causeIn causeOut : Nat}
    (hp : (s.cd i).pipe ≠ none) (hl : t.line = s.line.free i .u0 causeIn causeOut)
    (hr : Released (t.cd i)) : Freed s t i := by
  obtain ⟨p, hp⟩ := Option.ne_none_iff_exists'.mp hp
  have hc : (t.cd i).toCall = Line.ended (s.cd i).toCall .u0 causeIn causeOut := by
    have := congrArg (fun l => l.cd i) hl
    simp only [Line.free, Line.set_cd_self] at this
    exact this
  have hleave : s.line.leave (s.line.cd i).pipe = (s.line.unref p).down := by
    rw [line_cd, hp, Line.leave]
  rw [Line.free, hleave] at hl
  have hgive : ∀ c : Call, (((s.line.unref p).down).giveBack c).refcount
      = Function.update s.refcount p (dec (s.refcount p)) ∧
      (((s.line.unref p).down).giveBack c).l1AutoActivate = dec s.l1AutoActivate := by
    intro c
    rw [Line.giveBack]
    split
    · exact ⟨rfl, rfl⟩
    · exact ⟨rfl, rfl⟩
  constructor
  · rw [hc]
    rfl
  · rw [hc]
    exact fun h => h rfl
  · rw [hc]
    rfl
  · rw [hc]
    rfl
  · intro c ha hid hlt
    have := congrArg Line.utilization hl
    have hin : (s.line.cd i).channelAllocated = true ∧ 0 ≤ (s.line.cd i).channelId ∧
        (s.line.cd i).channelId < ((s.line.unref p).down).channelEnd := by
      rw [line_cd, hid]
      exact ⟨ha, Int.natCast_nonneg c, Int.ofNat_lt.mpr hlt⟩
    rw [Line.set, Line.giveBack, if_pos hin] at this
    have hu := congrFun this c
    simp only [line_cd, hid, Int.toNat_natCast, Function.update_self] at hu
    exact hu
  · rw [hc]
    rfl
  · intro q hq
    obtain rfl : p = q := Option.some.inj (hp.symm.trans hq)
    have := congrArg Line.refcount hl
    have hu := congrFun (this.trans (hgive _).1) p
    rw [Function.update_self] at hu
    exact hu
  · exact (congrArg Line.l1AutoActivate hl).trans (hgive _).2
  · exact hr

/-- What the call owned may as well be looked up before another change to it. -/
theorem Freed.of_set {s m t : Cntl n} {i : Fin n} {c : Call} (h : Freed m t i)
    (hl : m.line = s.line.set i c) (ha : c.channelAllocated = (s.cd i).channelAllocated)
    (hid : c.channelId = (s.cd i).channelId) (hp : c.pipe = (s.cd i).pipe) : Freed s t i := by
  have hc : (m.cd i).toCall = c := by
    have := congrArg (fun l => l.cd i) hl
    simp only [Line.set_cd_self] at this
    exact this
  refine ⟨h.state, h.free, h.callout, h.channel, ?_, h.pipe, ?_, ?_, h.released⟩
  · intro k hk hkid hlt
    refine h.utilization k ?_ ?_ ?_
    · rw [hc, ha]
      exact hk
    · rw [hc, hid]
      exact hkid
    · exact hlt.trans_eq (congrArg Line.channelEnd hl).symm
  · intro p hpipe
    rw [h.refcount p (by rw [hc, hp]; exact hpipe)]
    exact congrArg dec (congrFun (congrArg Line.refcount hl) p)
  · rw [h.l1AutoActivate]
    exact congrArg dec (congrArg Line.l1AutoActivate hl)

theorem GoesOn.freed {s m t : Cntl n} {i : Fin n} (h : GoesOn s m i) (hf : Freed m t i) :
    Freed s t i := by
  obtain ⟨count, stored, hl⟩ := h.line
  rw [Line.enter, Line.set_set, Line.set_cd_self] at hl
  exact hf.of_set hl rfl rfl rfl

/-- The call is freed, or goes on. -/
theorem expire_cases (env : Env) {s : Cntl n} {i : Fin n} (ha : (s.cd i).Allocated)
    (hp : (s.cd i).pipe ≠ none) (hcon : s.connected = true)
    (hn : s.noLayer3StatusEnquiry = false) :
    Freed s (s.perform env (.stateTimeout i)) i ∨ GoesOn s (s.perform env (.stateTimeout i)) i := by
  have hm : (s.modify i fun cd => { cd with setStateCallout := false }).line
      = s.line.set i { s.line.cd i with setStateCallout := false } :=
    line_modify_call s i (fun c => { c with setStateCallout := false }) (fun _ => rfl)
  have hc : ((s.modify i fun cd => { cd with setStateCallout := false }).cd i).toCall
      = { (s.cd i).toCall with setStateCallout := false } := by rw [modify_cd_self]
  have hperf : s.perform env (.stateTimeout i)
      = (s.modify i fun cd => { cd with setStateCallout := false }).cdSetState env i
          ((s.modify i fun cd => { cd with setStateCallout := false }).cd i).state.timeoutState :=
    if_pos hcon
  have hen : (s.modify i fun cd =>
      { cd with setStateCallout := false }).noLayer3StatusEnquiry = false := hn
  rw [hperf]
  generalize (s.modify i fun cd => { cd with setStateCallout := false }) = m at hm hc hen
  have hma : (m.cd i).Allocated := by
    rw [hc]
    exact ha
  have hmp : (m.cd i).pipe ≠ none := by
    rw [hc]
    exact hp
  by_cases hst : (m.cd i).state.timeoutState = .u0
  · left
    rw [hst]
    obtain ⟨cin, cout, hl⟩ := line_cdSetState_null env hmp
    have hr : Released ((m.cdSetState env i .u0).cd i) := by
      obtain ⟨p, hpipe⟩ := Option.ne_none_iff_exists'.mp hmp
      rw [cdSetState, hpipe]
      exact released_nFreeCd env _ i
    exact (freed_of_line hmp hl hr).of_set hm rfl rfl rfl
  · right
    obtain ⟨⟨count, stored, hl⟩, hlt⟩ := goesOn_cdSetState env hma hmp hen hst
    refine ⟨⟨count, stored, ?_⟩, ?_⟩
    · rw [hl, hm, Line.enter, Line.enter, Line.set_cd_self, Line.set_cd_self, Line.set_cd_self,
        Line.set_set, Line.set_set, Line.set_set]
    · rw [show rank (s.cd i).toCall = rank (m.cd i).toCall by rw [hc]; rfl]
      exact hlt

/-! ## Silence

In a run in which nothing comes from the other end and from applications, a call cannot be brought to life
again, and its timer goes on.  Layers 1 and 2 may still report what they like.
-/

/-- Neither the other end nor an application does anything; timers expire, and layers 1 and 2 may go
up or down. -/
def Silent : Action n → Prop
  | .activate _ | .resend | .pause _ | .stateTimeout _ | .idleTimeout _ | .l1Activity _
  | .receivedFrame | .l1ActivityTimeout => True
  | _ => False

/-- The timer of the call expires. -/
def expires (i : Fin n) : Action n → Bool
  | .stateTimeout j => decide (j = i)
  | _ => false

theorem left_of_free {s t : Cntl n} {j : Fin n} {last : State} {causeIn causeOut : Nat}
    (hl : t.line = s.line.free j last causeIn causeOut) {i : Fin n} (h : (t.cd i).Allocated) :
    (t.cd i).toCall = (s.cd i).toCall := by
  have hcd := congrArg (fun l => l.cd i) hl
  rw [line_cd, Line.free] at hcd
  by_cases hj : i = j
  · subst hj
    rw [Line.set_cd_self] at hcd
    rw [Call.Allocated, hcd] at h
    exact absurd rfl h
  · rw [Line.set_cd_of_ne _ _ hj, Line.giveBack_cd, Line.leave_cd] at hcd
    exact hcd

/-- A call is left alone when another one enters a state. -/
theorem left_cdSetState {s : Cntl n} {j : Fin n} {new : State} (hp : (s.cd j).pipe ≠ none)
    {i : Fin n} (hj : i ≠ j) (h : ((s.cdSetState env j new).cd i).Allocated) :
    ((s.cdSetState env j new).cd i).toCall = (s.cd i).toCall := by
  by_cases hn : new = .u0
  · subst hn
    obtain ⟨cin, cout, hl⟩ := line_cdSetState_null env hp
    exact left_of_free hl h
  · obtain ⟨count, stored, -, hl⟩ := line_cdSetState env hp hn
    have hcd := congrArg (fun l => l.cd i) hl
    rw [line_cd, Line.enter, Line.set_cd_of_ne _ _ hj, Line.set_cd_of_ne _ _ hj] at hcd
    exact hcd

/-- So it is by the timer for idle calls, unless the call is ended. -/
theorem left_i4bIdleCheck {s : Cntl n} {j : Fin n}
    (hp : (s.cd j).Allocated → (s.cd j).pipe ≠ none) {i : Fin n}
    (h : ((s.i4bIdleCheck env j).cd i).Allocated) :
    ((s.i4bIdleCheck env j).cd i).toCall = (s.cd i).toCall := by
  rw [i4bIdleCheck] at h ⊢
  split at h
  · rename_i hj
    rw [if_pos hj]
    split at h
    · rfl
    · exact toCall_eq (line_idleStarted s j) i
    · dsimp only at h ⊢
      split at h
      · rename_i ht
        rw [if_pos ht]
        split at h
        · rename_i hz
          rw [if_pos hz]
          exact toCall_eq (line_idleStarted s.ask.2 j) i
        · rename_i hz
          rw [if_neg hz]
          exact toCall_eq ((line_modify_eq s.ask.2 j (by rfl)).trans (line_ask s)) i
      · rename_i ht
        rw [if_neg ht]
        have hl : ((s.ask.2.modify j fun cd => { cd with idleState := .notStarted }).tell j
            .idleTimeout).line = s.line :=
          (line_tell _ j _).trans ((line_modify_eq _ j (by rfl)).trans (line_ask s))
        generalize ((s.ask.2.modify j fun cd => { cd with idleState := .notStarted }).tell j
          .idleTimeout) = m at h hl
        have hm : (m.modify j fun cd => { cd with causeOut := causeI4bNormal }).line
            = m.line.mark j (m.cd j).state (m.cd j).setStateCallout (m.cd j).causeIn causeI4bNormal :=
          line_modify_mark m j rfl
        have hmp : ((m.modify j fun cd => { cd with causeOut := causeI4bNormal }).cd j).pipe
            ≠ none := by
          rw [modify_cd_self]
          exact pipe_of_line hl (hp hj.2)
        obtain ⟨cin, cout, hf⟩ := line_release env hmp
        rw [hm, Line.free_mark] at hf
        exact (left_of_free hf h).trans (toCall_eq hl i)
  · rename_i hj
    rw [if_neg hj]

/-- Between the expirations of its timer, a call is left alone or ended. -/
theorem left_silent {s : Cntl n} (ht : s.line.Tidy) {a : Action n} (hen : s.Enabled a)
    (hs : Silent a) {i : Fin n} (hne : expires i a = false)
    (h : ((s.perform env a).cd i).Allocated) :
    ((s.perform env a).cd i).toCall = (s.cd i).toCall := by
  cases a with
  | activate p =>
    have hl : (s.perform env (.activate p)).line
        = if s.paused p then s.line.bump p else s.line := line_dss1PipeActivateReq s p
    have hcd := congrArg (fun l => l.cd i) hl
    rw [line_cd] at hcd
    rw [hcd]
    split
    · rw [Line.bump_cd]
      rfl
    · rfl
  | resend => exact toCall_eq (line_dss1PipeResendInd s adapter) i
  | pause p => exact (left_foldl_pause i [p] s h).1
  | stateTimeout j =>
    have hj : i ≠ j := fun h => of_decide_eq_false hne h.symm
    have hp : (s.cd j).pipe ≠ none := (ht j).pipe ((ht j).callout.mp hen)
    have hm : (s.modify j fun cd => { cd with setStateCallout := false }).cd i = s.cd i :=
      modify_cd_of_ne s _ hj
    have hmp : ((s.modify j fun cd => { cd with setStateCallout := false }).cd j).pipe ≠ none := by
      rw [modify_cd_self]
      exact hp
    rw [perform, cdSetStateTimeout] at h ⊢
    rw [← hm]
    generalize (s.modify j fun cd => { cd with setStateCallout := false }) = m at h hmp
    split at h
    · rename_i hc
      rw [if_pos hc]
      exact left_cdSetState hmp hj h
    · rename_i hc
      rw [if_neg hc]
  | idleTimeout j =>
    have hl : (s.modify j fun cd => { cd with idleCallout := false }).line = s.line :=
      line_modify_eq s j (by rfl)
    rw [perform] at h ⊢
    refine (left_i4bIdleCheck ?_ h).trans (toCall_eq hl i)
    rw [modify_cd_self]
    exact (ht j).pipe
  | l1Activity up => rfl
  | receivedFrame => rfl
  | l1ActivityTimeout => exact toCall_eq (line_dss1L1ActivityTimeout _) i
  | _ => exact absurd hs id

/-! ### The option

Where status enquiries are switched off, a call goes on waiting instead of sending one.  Nothing that happens in
silence switches them off.
-/

theorem Runs.foldl {α : Type} {f : Cntl n → α → Cntl n} {r : Cntl n}
    (hf : ∀ s a, Runs False r s → Runs False r (f s a)) (as : List α) {s : Cntl n}
    (h : Runs False r s) : Runs False r (as.foldl f s) := by
  induction as generalizing s with
  | nil => exact h
  | cons a as ih => exact ih (hf s a h)

section

variable {r s : Cntl n}

theorem Runs.unref (h : Runs False r s) (p : PipeNo) : Runs False r (s.unref p) :=
  ⟨h.enquiry, False.elim⟩

theorem Runs.dss1L3TxSetup (h : Runs False r s) (i : Fin n) :
    Runs False r (s.dss1L3TxSetup env i) := by
  rw [Cntl.dss1L3TxSetup]
  refine Runs.ite ?_ h.ask
  split
  · exact ⟨h.enquiry, False.elim⟩
  · exact ⟨h.enquiry, False.elim⟩

theorem Runs.dss1PipeResendInd (h : Runs False r s) (p : PipeNo) :
    Runs False r (s.dss1PipeResendInd env p) := by
  refine Runs.foldl ?_ _ h
  intro s i h
  rw [resendCall]
  refine Runs.ite ?_ h
  have h' : Runs False r (if (s.cd i).peerResponded = false ∧
      ((s.cd i).setupInterleave = 0 ∨ (s.cd i).setupInterleave = 4 ∨ 6 ≤ (s.cd i).setupInterleave) then
        s.dss1L3TxSetup env i else s) := (h.dss1L3TxSetup i).ite h
  exact (h'.modify i _).ite h'

theorem Runs.dss1PipeActivateReq (h : Runs False r s) (p : PipeNo) :
    Runs False r (s.dss1PipeActivateReq env p) := by
  rw [Cntl.dss1PipeActivateReq]
  have h' : Runs False r ({ (s.put (.down (.activate p))).ref p with
      paused := Function.update (s.put (.down (.activate p))).paused p false } : Cntl n) :=
    ⟨h.enquiry, False.elim⟩
  refine Runs.ite (Runs.unref ?_ p) (h.put _)
  exact (h'.dss1PipeResendInd p).ite h'

theorem Runs.release (h : Runs False r s) (i : Fin n) :
    Runs False r (s.cdUpdate env i none .release) := by
  rw [cdUpdate]
  exact h.ite (h.cdSetState i .u0 False.elim False.elim False.elim)

theorem Runs.pause (h : Runs False r s) (p : PipeNo) : Runs False r (s.pause env p) := by
  have h' : Runs False r ({ s with paused := Function.update s.paused p true } : Cntl n) :=
    ⟨h.enquiry, False.elim⟩
  refine Runs.foldl ?_ _ h'
  intro s i h
  rw [resetCall]
  exact (h.release i).ite h

theorem Runs.i4bIdleCheck (h : Runs False r s) (i : Fin n) :
    Runs False r (s.i4bIdleCheck env i) := by
  have hstart : ∀ s : Cntl n, Runs False r s → Runs False r (s.idleStarted i) := by
    intro s h
    rw [idleStarted]
    exact Runs.modify (h.ite (h.tell i _)) i _
  rw [Cntl.i4bIdleCheck]
  refine Runs.ite ?_ h
  split
  · exact h
  · exact hstart s h
  · refine Runs.ite (Runs.ite (hstart _ h.ask) (h.ask.modify i _)) ?_
    rw [nDisconnectRequest]
    exact (((h.ask.modify i _).tell i _).modify i _).release i

/-- What is silent does not switch off enquiries. -/
theorem runs_silent {a : Action n} (hs : Silent a) : Runs False s (s.perform env a) := by
  have h : Runs False s s := .rfl
  cases a with
  | activate p => exact h.dss1PipeActivateReq p
  | resend => exact h.dss1PipeResendInd adapter
  | pause p => exact h.pause p
  | stateTimeout j =>
    rw [perform, cdSetStateTimeout]
    exact ((h.modify j _).cdSetState j _ False.elim False.elim False.elim).ite (h.modify j _)
  | idleTimeout j =>
    rw [perform]
    exact (h.modify j _).i4bIdleCheck j
  | l1Activity up => exact ⟨rfl, False.elim⟩
  | receivedFrame => exact ⟨rfl, False.elim⟩
  | l1ActivityTimeout =>
    have h' : Runs False s ({ s with l1ActivityCallout := false } : Cntl n) := ⟨rfl, False.elim⟩
    exact h'.dss1L1ActivityTimeout
  | _ => exact absurd hs id

end

/-! ## Causes

A cause of a type that is not known makes `i4b_make_q850_cause` panic, at the moment when the call should be
released.  So the invariant is that there is no such cause in any descriptor, and it holds in runs in which no
application gives one.
-/

end Cntl

namespace Line

variable {n : Nat}

/-- The causes of the calls are known to `i4b_make_q850_cause`. -/
def CausesHandled (l : Line n) : Prop :=
  ∀ i, (l.cd i).Allocated → Handled (l.cd i).causeIn ∧ Handled (l.cd i).causeOut

/-- A change brings no unknown cause. -/
theorem Step.causesHandled {b : Permit} (hb : b.anyCause = false) {l l' : Line n}
    (h : Step b l l') (hl : l.CausesHandled) : l'.CausesHandled := by
  refine h.forall_cd (motive := fun c => c.Allocated → Handled c.causeIn ∧ Handled c.causeOut) ?_ hl
  intro c c' hc hm ha
  have hno : ¬ b.anyCause = true := by
    rw [hb]
    exact Bool.false_ne_true
  have hm := hm (hc.allocated ha)
  cases hc with
  | causeIn cause h => exact ⟨h.resolve_left hno, hm.2⟩
  | causeOut cause h => exact ⟨hm.1, h.resolve_left hno⟩
  | free last causeIn causeOut ha' => exact absurd rfl ha
  | _ => exact hm

theorem Begin.causesHandled {l l' : Line n} (h : Begin l l') (hl : l.CausesHandled) :
    l'.CausesHandled := by
  have h0 : Handled 0 := by decide
  exact h.forall_cd (motive := fun c => c.Allocated → Handled c.causeIn ∧ Handled c.causeOut)
    (fun _ => ⟨h0, h0⟩) (fun _ _ _ _ _ _ _ => ⟨h0, h0⟩) hl

end Line

namespace Cntl

variable {n : Nat} {env : Env}

/-- No unknown cause is in any state of such a run. -/
theorem ReachBy.causesHandled {s : Cntl n} (h : ReachBy env CauseSafe s) :
    Good s.line ∧ s.line.CausesHandled :=
  h.line_induction (b := ⟨true, false⟩) (motive := Line.CausesHandled)
    (fun _ _ _ hok => ⟨.inl rfl, .inr hok⟩)
    (fun _ _ _ _ _ _ ha => absurd rfl ha) (fun _ _ _ _ _ ha => absurd rfl ha)
    (fun _ _ _ hm hs _ => hs.preserves (fun _ _ hs => hs.causesHandled rfl) hm)
    (fun _ _ hb => hb.causesHandled) (fun _ _ hs => hs.causesHandled rfl)

/-- Nothing has panicked. -/
theorem ReachBy.not_halted {ok : Cntl n → Action n → Prop} {s : Cntl n} (h : ReachBy env ok s) :
    s.halted = false := by
  cases h with
  | start => rfl
  | step _ _ hs => exact (step_eq_some hs).2.2

/-! ## Runs in silence

Now the parts are put together: in each state the timer of a call runs, an expiration brings its rank down,
whatever else happens leaves it as it is, and at zero there is no call.
-/

/-- The timer of a call runs, and when it expires the call is freed or goes on. -/
theorem ReachBy.expire {s : Cntl n} (h : ReachBy env CauseSafe s)
    (hn : s.noLayer3StatusEnquiry = false) {i : Fin n} (ha : (s.cd i).Allocated) :
    ∃ t, s.step env (.stateTimeout i) = some t ∧ (Freed s t i ∨ GoesOn s t i) ∧
      t.noLayer3StatusEnquiry = false := by
  obtain ⟨hg, hc⟩ := h.causesHandled
  have hp : (s.cd i).pipe ≠ none := (hg.tidy i).pipe ha
  have hcon : s.connected = true := hg.live i ha
  have hcall : ((s.modify i fun cd => { cd with setStateCallout := false }).cd i).toCall
      = { (s.cd i).toCall with setStateCallout := false } := by rw [modify_cd_self]
  have hruns : Runs True s (s.perform env (.stateTimeout i)) := by
    rw [perform, cdSetStateTimeout]
    have h0 : Runs True s s := .rfl
    have h1 := h0.modify i fun cd => { cd with setStateCallout := false }
    refine Runs.ite (h1.cdSetState i _ ?_ ?_ ?_) h1
    · rw [hcall]
      exact fun _ => hp
    · rw [hcall]
      exact fun _ => (hc i ha).1
    · rw [hcall]
      exact fun _ => (hc i ha).2
  refine ⟨s.perform env (.stateTimeout i), ?_, expire_cases env ha hp hcon hn, ?_⟩
  · have hen : s.Enabled (.stateTimeout i) := (hg.tidy i).callout.mpr ha
    have hh : ¬ (s.perform env (.stateTimeout i)).halted = true := by
      rw [hruns.halted trivial, h.not_halted]
      exact Bool.false_ne_true
    rw [Cntl.step, if_pos hen]
    exact if_neg hh
  · rw [hruns.enquiry]
    exact hn

theorem GoesOn.allocated {s t : Cntl n} {i : Fin n} (h : GoesOn s t i) (ha : (s.cd i).Allocated) :
    (t.cd i).Allocated := by
  obtain ⟨count, stored, hl⟩ := h.line
  rw [toCall_of_entered hl]
  exact ha

/-- A call is freed after no more expirations than its rank. -/
theorem ReachBy.frees (k : Nat) : ∀ {s : Cntl n}, ReachBy env CauseSafe s →
    s.noLayer3StatusEnquiry = false → ∀ {i : Fin n}, (s.cd i).Allocated →
    rank (s.cd i).toCall ≤ k →
    ∃ m ≤ k, ∃ t, s.run env (List.replicate m (.stateTimeout i)) = some t ∧ Freed s t i := by
  induction k with
  | zero =>
    intro s h hn i ha hr
    exact absurd (rank_pos ha) (by omega)
  | succ k ih =>
    intro s h hn i ha hr
    obtain ⟨t, hs, hf | hg, ht⟩ := h.expire hn ha
    · refine ⟨1, Nat.succ_le_succ (Nat.zero_le k), t, ?_, hf⟩
      rw [run, List.replicate_one, List.foldlM_cons, hs]
      rfl
    · have hreach : ReachBy env CauseSafe t := .step (a := .stateTimeout i) h trivial hs
      obtain ⟨m, hm, u, hu, hf⟩ := ih hreach ht (hg.allocated ha) (by have := hg.rank_lt; omega)
      refine ⟨m + 1, Nat.succ_le_succ hm, u, ?_, hg.freed hf⟩
      rw [run, List.replicate_succ, List.foldlM_cons, hs]
      exact hu

theorem causeSafe_of_silent (s : Cntl n) {a : Action n} (h : Silent a) : s.CauseSafe a := by
  cases a with
  | i4b sc cdid r => exact h.elim
  | _ => trivial

/-- In silence, the rank of a call goes down with each expiration of its timer, and never up. -/
theorem ReachBy.rank_silent (as : List (Action n)) : ∀ {s t : Cntl n}, ReachBy env CauseSafe s →
    s.noLayer3StatusEnquiry = false → (∀ a ∈ as, Silent a) → s.run env as = some t →
    ∀ {i : Fin n}, (t.cd i).Allocated →
      (s.cd i).Allocated ∧
        rank (t.cd i).toCall + as.countP (expires i) ≤ rank (s.cd i).toCall := by
  induction as with
  | nil =>
    intro s t h hn hs hr i ha
    cases hr
    exact ⟨ha, le_refl _⟩
  | cons a as ih =>
    intro s t h hn hs hr i ha
    rw [run, List.foldlM_cons] at hr
    obtain ⟨u, hu, hr⟩ := Option.bind_eq_some_iff.mp hr
    have hsil : Silent a := hs a List.mem_cons_self
    have hreach : ReachBy env CauseSafe u := .step h (causeSafe_of_silent s hsil) hu
    obtain ⟨hen, hperf, -⟩ := step_eq_some hu
    have hun : u.noLayer3StatusEnquiry = false := by
      rw [hperf, (runs_silent hsil).enquiry]
      exact hn
    obtain ⟨hua, hrank⟩ := ih hreach hun (fun b hb => hs b (List.mem_cons_of_mem a hb)) hr ha
    obtain ⟨hg, -⟩ := h.causesHandled
    rw [List.countP_cons]
    cases hex : expires i a with
    | false =>
      have hleft : (u.cd i).toCall = (s.cd i).toCall := by
        rw [hperf] at hua ⊢
        exact left_silent hg.tidy hen hsil hex hua
      rw [hleft] at hua hrank
      exact ⟨hua, by simpa using hrank⟩
    | true =>
      cases a with
      | stateTimeout j =>
        obtain rfl : j = i := of_decide_eq_true hex
        have hsa : (s.cd j).Allocated := (hg.tidy j).callout.mp hen
        obtain ⟨v, hv, hcase, -⟩ := h.expire hn hsa
        obtain rfl : v = u := Option.some.inj (hv.symm.trans hu)
        have hgo : GoesOn s v j := hcase.resolve_left fun hf => hf.free hua
        have := hgo.rank_lt
        exact ⟨hsa, by simp only [if_true]; omega⟩
      | _ => cases hex

/-- **In a run in which no response of an application leaves a cause of an unknown type in a
descriptor, the timer of every call runs.  If enquiries are sent, at most
`2 * STATUS_ENQUIRY_TIMEOUT + 3` consecutive expirations free the call with its channel, its pipe and
what layer 4 has of it.  They need not be consecutive if nothing but timers and layers 1 and 2 come
in between.** -/
theorem ReachBy.no_stuck_call {s : Cntl n} (h : ReachBy env CauseSafe s) {i : Fin n}
    (ha : (s.cd i).Allocated) :
    (s.cd i).setStateCallout = true ∧
    (s.noLayer3StatusEnquiry = false →
      (∃ k ≤ 2 * statusEnquiryTimeoutMax + 3, ∃ t,
        s.run env (List.replicate k (.stateTimeout i)) = some t ∧ Freed s t i) ∧
      (∀ as t, (∀ a ∈ as, Silent a) → s.run env as = some t →
        2 * statusEnquiryTimeoutMax + 3 ≤ as.countP (expires i) → ¬ (t.cd i).Allocated)) := by
  have hmax : 2 + statusEnquiryTimeoutMax ≤ 2 * statusEnquiryTimeoutMax + 3 := by decide
  refine ⟨(h.causesHandled.1.tidy i).callout.mpr ha, ?_⟩
  intro hn
  refine ⟨h.frees _ hn ha ((rank_le _).trans hmax), ?_⟩
  intro as t hs hr hcount hta
  have hr := (h.rank_silent as hn hs hr hta).2
  have hpos := rank_pos hta
  have := rank_le (s.cd i).toCall
  omega

/-- A SETUP with a complete number, and one of two applications that ignores the call. -/
def completeSetup : Action 1 := .dataInd 0 [0x08, 0x01, 0x05, 0x05, 0xa1] false

def ignoreWith (cause : Nat) : Action 1 := .i4b 1 64 (.connectResp .dontCare cause 0 0 0)

/-- The call that nobody answers is freed. -/
theorem no_stuck_call_ringing :
    ∃ s t : Cntl 1, (s.cd 0).Allocated ∧ (∃ k ≤ 19,
      s.run plain (List.replicate k (.stateTimeout 0)) = some t) ∧ ¬ (t.cd 0).Allocated := by
  have h : (((fresh false true).step plain completeSetup).bind fun s =>
      some (decide ((s.cd 0).Allocated ∧ s.noLayer3StatusEnquiry = false))) = some true := by
    decide
  obtain ⟨s, hs, h⟩ := Option.bind_eq_some_iff.mp h
  obtain ⟨ha, hn⟩ := of_decide_eq_true (Option.some.inj h)
  have hreach : ReachBy plain CauseSafe s :=
    .step (a := completeSetup) (.start 0 3 0 false true false) trivial hs
  obtain ⟨k, hk, t, ht, hf⟩ := ((hreach.no_stuck_call ha).2 hn).1
  exact ⟨s, t, ha, ⟨k, hk, ht⟩, hf.free⟩

/-- The application gave a cause of type 2, which `i4b_make_q850_cause` panics on.  No number of
expirations frees the call. -/
theorem unknown_cause_stuck :
    ∃ s : Cntl 1, Reach plain s ∧ (s.cd 0).Allocated ∧ s.noLayer3StatusEnquiry = false ∧
      ∀ k t, s.run plain (List.replicate k (.stateTimeout 0)) = some t → (t.cd 0).Allocated := by
  have h : (((fresh false true).run plain [completeSetup, ignoreWith 0x200]).bind fun s =>
      (s.step plain (.stateTimeout 0)).bind fun u =>
      some (decide ((s.cd 0).Allocated ∧ s.noLayer3StatusEnquiry = false ∧ (u.cd 0).Allocated ∧
        (u.step plain (.stateTimeout 0)).isNone = true))) = some true := by decide +kernel
  obtain ⟨s, hs, h⟩ := Option.bind_eq_some_iff.mp h
  obtain ⟨u, hu, h⟩ := Option.bind_eq_some_iff.mp h
  obtain ⟨ha, hn, hua, hnone⟩ := of_decide_eq_true (Option.some.inj h)
  refine ⟨s, (reach_fresh plain false true).run hs, ha, hn, ?_⟩
  intro k t ht
  rcases k with - | k
  · cases ht
    exact ha
  · rw [run, List.replicate_succ, List.foldlM_cons, hu, Option.bind_eq_bind, Option.bind_some] at ht
    rcases k with - | k
    · cases ht
      exact hua
    · rw [List.replicate_succ, List.foldlM_cons, Option.isNone_iff_eq_none.mp hnone] at ht
      cases ht

end Cntl

end L3
end Isdn4bsd
