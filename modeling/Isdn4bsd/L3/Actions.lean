import Isdn4bsd.L3.Refine

/-!
# Layer 3: actions on a line

What can happen to a controller, seen on its line.  `Isdn4bsd.L3.Refine` goes up to `cd_update`; here are
the functions that call it, from the messages of layer 2 to the requests of applications, and in the end all
actions of a controller.

* `act_perform`: every action but attachment and detachment allocates at most one descriptor and
  then makes changes to calls.  It takes no channel for a call on hold if it is `HoldSafe`, and keeps
  no cause that is not handled if it is `CauseSafe`.
* `line_attach` and `steps_detach` are the other two: attachment clears the line, and detachment ends
  all calls, since it lets all pipes pause and every call has one.
* `ReachBy.line_induction`: **the rule for invariants**.  What holds after attachment, and is preserved by
  the allocation of a descriptor, by changes to calls and by detachment, holds of every line.  The
  invariants of `Phase`, `Channels`, `References`, `Counts` and `Timeouts` all come from it.

## Conditions on runs

`ReachBy` is `Reach` with a condition on each step, on the action and on the state it is taken in.  Three
conditions are used: `HoldSafe`, `CauseSafe`, and later that a protocol is detached only when there are no
calls.  They are stated with what the source can see when the action begins: the event that a message
stands for (`Takes`), what a request asks for (`Asks`), the type of a cause (`Handled`), and never with what
the action does.

A response to a call is the difficult case: its cause is stored in the descriptor, and is used up at once
or stays, depending on what the call is like after the application has adopted it.  `Consumes` says when,
in the state before.
-/

set_option autoImplicit false

namespace Isdn4bsd
namespace L3
namespace Cntl

open L2 (PipeNo adapter)
open Line (Step Steps Act Begin Permit)

variable {n : Nat} {env : Env} {b : Permit}

/-! ## Reading a message

Reading a message writes to the descriptor, before anything is done about the message.  Of what is in a
`Line`, these are the channel that is named and the cause.
-/

/-- What information elements may change in the core of a descriptor: the channel, if none is
allocated, and the cause. -/
structure Reads (c c' : Call) : Prop where
  eq : ∃ channelId causeIn, c' = { c with channelId := channelId, causeIn := causeIn }
  channel : c.channelAllocated = true → c'.channelId = c.channelId
  cause : c'.causeIn = c.causeIn ∨ Handled c'.causeIn

theorem Reads.rfl {c : Call} : Reads c c := ⟨⟨_, _, Eq.refl _⟩, fun _ => Eq.refl _, .inl (Eq.refl _)⟩

theorem Reads.trans {c c' c'' : Call} (h : Reads c c') (h' : Reads c' c'') : Reads c c'' := by
  obtain ⟨⟨ch, k, rfl⟩, hc, hk⟩ := h
  obtain ⟨⟨ch', k', rfl⟩, hc', hk'⟩ := h'
  refine ⟨⟨ch', k', Eq.refl _⟩, ?_, ?_⟩
  · intro ha
    exact (hc' ha).trans (hc ha)
  · rcases hk' with hk' | hk'
    · rcases hk with hk | hk
      · exact .inl (hk'.trans hk)
      · exact .inr (by rw [hk']; exact hk)
    · exact .inr hk'

/-- A cause of seven bits is one of Q.850. -/
theorem handled_of_lt {cause : Nat} (h : cause < 256) : Handled cause := by
  rw [Handled, i4bMakeQ850Cause, Nat.div_eq_of_lt h]
  rfl

theorem reads_ite {c : Call} {q : Prop} [Decidable q] {cd cd' : CallDesc} (h : Reads c cd.toCall)
    (h' : Reads c cd'.toCall) : Reads c (if q then cd else cd').toCall := by
  split
  · exact h
  · exact h'

theorem reads_cause (cd : CallDesc) (k : Nat) :
    Reads cd.toCall { cd with causeIn := k &&& 0x7f }.toCall := by
  have h : k &&& 0x7f < 256 := lt_of_le_of_lt Nat.and_le_right (by decide)
  exact ⟨⟨_, _, rfl⟩, fun _ => rfl, .inr (handled_of_lt h)⟩

theorem reads_channel (cd : CallDesc) (c : Int) :
    Reads cd.toCall (if cd.channelAllocated then cd else { cd with channelId := c }).toCall := by
  split
  · exact .rfl
  · rename_i h
    exact ⟨⟨_, _, rfl⟩, fun ha => absurd ha h, .inl rfl⟩

theorem reads_appendCalledpn (w : Buf) (cd : CallDesc) (telno : Str) :
    Reads cd.toCall { (if cd.dirIncoming then appendCalledpn w cd else cd) with
      dstTelnoPart := telno }.toCall := by
  split
  · exact .rfl
  · exact .rfl

theorem reads_dss1DecodeQ931Cs0IeCd (ntMode : Bool) (cd : CallDesc) (w : Buf) :
    Reads cd.toCall (dss1DecodeQ931Cs0IeCd env ntMode cd w).toCall := by
  rw [dss1DecodeQ931Cs0IeCd]
  dsimp only
  refine reads_ite (reads_ite .rfl .rfl) ?_
  refine reads_ite (reads_ite .rfl .rfl) ?_
  refine reads_ite (reads_cause cd _) ?_
  refine reads_ite .rfl ?_
  refine reads_ite (reads_channel cd _) ?_
  refine reads_ite (reads_ite .rfl (reads_ite .rfl .rfl)) ?_
  refine reads_ite .rfl ?_
  refine reads_ite (reads_ite .rfl .rfl) ?_
  refine reads_ite (reads_ite .rfl (reads_ite .rfl .rfl)) ?_
  refine reads_ite (reads_ite .rfl (reads_ite .rfl .rfl)) ?_
  refine reads_ite (reads_appendCalledpn w cd _) ?_
  exact reads_ite (reads_ite .rfl .rfl) (reads_ite .rfl .rfl)

theorem reads_decodeIeLoop {f : CallDesc → Buf → CallDesc}
    (hf : ∀ cd w, Reads cd.toCall (f cd w).toCall) :
    ∀ (fuel codeset next : Nat) (cd : CallDesc) (w : Buf),
      Reads cd.toCall (decodeIeLoop f fuel codeset next cd w).toCall
  | 0, _, _, _, _ => .rfl
  | fuel + 1, codeset, next, cd, w => by
    rw [decodeIeLoop]
    dsimp only
    have h1 : Reads cd.toCall (if codeset = 0 then
        f cd (w.setLength ((w.offset + if w.get1 0 &&& 0x80 = 0 then w.get1 1 + 2 else 1) % 2 ^ 16))
        else cd).toCall := by
      split
      · exact hf cd _
      · exact .rfl
    split
    · split
      · exact h1.trans (reads_decodeIeLoop hf fuel _ _ _ _)
      · exact h1.trans (reads_decodeIeLoop hf fuel _ _ _ _)
    · exact .rfl

theorem steps_reads {s : Cntl n} {i : Fin n} {f : CallDesc → CallDesc}
    (h : Reads (s.cd i).toCall (f (s.cd i)).toCall) : Steps b s.line (s.modify i f).line := by
  obtain ⟨⟨ch, k, he⟩, hc, hk⟩ := h
  rw [line_modify, he]
  rw [he] at hc hk
  have h1 : Steps b s.line (s.line.set i { s.line.cd i with channelId := ch }) := by
    by_cases ha : (s.cd i).channelAllocated = true
    · rw [show ch = (s.line.cd i).channelId from hc ha, Line.set_self]
    · exact .single (.name _ i ch (by simpa using ha))
  refine h1.trans ?_
  rcases hk with hk | hk
  · rw [show k = (s.cd i).causeIn from hk]
    exact .refl
  · have h2 := Step.causeIn (b := b) (s.line.set i { s.line.cd i with channelId := ch }) i k (.inr hk)
    rw [Line.set_set, Line.set_cd_self] at h2
    exact .single h2

theorem reads_readMessage (env : Env) (s : Cntl n) (i : Fin n) (event : Event) (elements : Buf) :
    Reads (s.cd i).toCall ((s.readMessage env i event elements).cd i).toCall := by
  rw [readMessage, modify_cd_self]
  refine .trans ?_ (reads_decodeIeLoop (reads_dss1DecodeQ931Cs0IeCd s.ntMode) _ 0 0 _ elements)
  split
  · split
    · exact .rfl
    · exact .rfl
  · split
    · exact .rfl
    · exact .rfl

theorem steps_readMessage (env : Env) (s : Cntl n) (i : Fin n) (event : Event) (elements : Buf) :
    Steps b s.line (s.readMessage env i event elements).line := by
  have h := reads_readMessage env s i event elements
  rw [readMessage, modify_cd_self] at h
  exact steps_reads h

/-- A message for a call takes no channel while the call is on hold. -/
def MayReceive (env : Env) (b : Permit) (s : Cntl n) (i : Fin n) (event : Event) (elements : Buf) :
    Prop :=
  b.onHold = true ∨ (s.cd i).callIsOnHold = false ∨
    ((s.cd i).callIsRetrieving = false ∧
      ¬ Takes ((s.readMessage env i (eventFor (s.cd i) event) elements).cd i)
        (eventFor (s.cd i) event))

theorem steps_receive {s : Cntl n} {i : Fin n} {p : PipeNo} {event : Event} {elements : Buf}
    (ha : (s.cd i).Allocated) (hb : MayReceive env b s i event elements) :
    Steps b s.line (s.receive env i p event elements).line := by
  have hr := reads_readMessage env s i (eventFor (s.cd i) event) elements
  obtain ⟨ch, k, he⟩ := hr.eq
  rw [receive]
  refine (steps_readMessage env s i (eventFor (s.cd i) event) elements).trans ?_
  rw [MayReceive] at hb
  generalize (s.readMessage env i (eventFor (s.cd i) event) elements) = t at he hb ⊢
  split
  · exact .refl
  · refine steps_cdUpdate env ?_ ?_ ?_ ?_
    · rw [he]
      exact ha
    · rcases hb with hb | hb | ⟨-, hb⟩
      · exact .inl hb
      · exact .inr (.inl (by rw [he]; exact hb))
      · exact .inr (.inr hb)
    · intro _
      rcases hb with hb | hb | ⟨hb, -⟩
      · exact .inl hb
      · exact .inr (.inl (by rw [he]; exact hb))
      · exact .inr (.inr (by rw [he]; exact hb))
    · intro _
      exact Option.some_ne_none p

/-! ## Loops over calls

Layer 2 reports that a pipe was reset or that layer 1 is gone, and all calls that it concerns end, one
after the other.
-/

/-- A loop acts by changes if each round does. -/
theorem steps_foldl {α : Type} {f : Cntl n → α → Cntl n}
    (hf : ∀ s a, Steps b s.line (f s a).line) (as : List α) (s : Cntl n) :
    Steps b s.line (as.foldl f s).line := by
  induction as generalizing s with
  | nil => exact .refl
  | cons a as ih => exact (hf s a).trans (ih (f s a))

/-- RELEASE ends a call. -/
theorem line_release (env : Env) {s : Cntl n} {i : Fin n} (hp : (s.cd i).pipe ≠ none) :
    ∃ causeIn causeOut, (s.cdUpdate env i none .release).line
      = s.line.free i .u0 causeIn causeOut := by
  have hd : ¬ (if (s.cd i).dirIncoming then Event.release.isLocalIncoming
      else Event.release.isLocalOutgoing) = false := by
    cases (s.cd i).dirIncoming <;> decide
  rw [cdUpdate, if_neg hd]
  exact line_cdSetState_null env hp

theorem line_resetCall (env : Env) (p : PipeNo) (s : Cntl n) (i : Fin n) :
    (s.resetCall env p i).line = s.line ∧ ¬ ((s.cd i).Allocated ∧ (s.cd i).pipe = some p) ∨
    (s.cd i).Allocated ∧ ∃ causeIn causeOut,
      (s.resetCall env p i).line = s.line.free i .u0 causeIn causeOut := by
  rw [resetCall]
  split
  · rename_i h
    exact .inr ⟨h.1, line_release env (by rw [h.2]; exact Option.some_ne_none p)⟩
  · rename_i h
    exact .inl ⟨rfl, h⟩

theorem steps_dss1PipeResetInd (env : Env) (s : Cntl n) (p : PipeNo) :
    Steps b s.line (s.dss1PipeResetInd env p).line := by
  refine steps_foldl ?_ _ s
  intro s i
  rcases line_resetCall env p s i with ⟨h, -⟩ | ⟨ha, causeIn, causeOut, h⟩
  · rw [h]
  · rw [h]
    exact .single (.free _ i .u0 causeIn causeOut ha)

/-- A pipe pauses, and its calls end. -/
theorem steps_pause (env : Env) (s : Cntl n) (p : PipeNo) :
    Steps b s.line (s.pause env p).line :=
  steps_dss1PipeResetInd env ({ s with paused := Function.update s.paused p true } : Cntl n) p

/-! ## Messages

A message is for a call, or begins one, or is for none; in the last case calls may end, or it is answered.
-/

theorem matches_of_cdByUnitcr {s : Cntl n} {p : PipeNo} {cr : Nat} {i : Fin n}
    (h : s.cdByUnitcr p cr = some i) : s.Matches p cr i := by
  simpa using List.find?_some h

theorem not_matches_of_cdByUnitcr {s : Cntl n} {p : PipeNo} {cr : Nat}
    (h : s.cdByUnitcr p cr = none) (i : Fin n) : ¬ s.Matches p cr i := by
  simpa using List.find?_eq_none.mp h i (List.mem_finRange i)

theorem steps_receiveUnknown (env : Env) (s : Cntl n) (p : PipeNo) (m : Start) (broadcast : Bool) :
    Steps b s.line (s.receiveUnknown env p m broadcast).line := by
  rw [receiveUnknown]
  split
  · split
    · have h := steps_dss1PipeResetInd (b := b) env
        (s.dss1L3TxMessageByPipeCr env p m.crval mtRestartAcknowledge none (some 7)) p
      rwa [line_dss1L3TxMessageByPipeCr] at h
    · exact .refl
  · split
    · rw [line_dss1L3TxMessageByPipeCr]
    · exact .refl

/-- A call that was just allocated is not on hold. -/
theorem allocate_cd (l : Line n) (i : Fin n) (cdid : Nat) (p : PipeNo) (paused : Bool) (cr : Nat)
    (incoming : Bool) : (l.allocate i cdid p paused cr incoming).cd i
      = Line.newCall cdid p cr incoming := by
  rw [Line.allocate, Line.set_cd_self]

/-- The message belongs to the call. -/
def MayTakeMessage (env : Env) (b : Permit) (s : Cntl n) (p : PipeNo) (buf : List UInt8) : Prop :=
  ∀ i, s.cdByUnitcr p (readStart (Buf.init buf)).crval = some i →
    MayReceive env b s i (messageEvent (readStart (Buf.init buf)).mt)
      (readStart (Buf.init buf)).elements

theorem act_dss1PipeDataInd {s : Cntl n} {p : PipeNo} {buf : List UInt8} {broadcast : Bool}
    (hend : s.CdidEndOk) (hcon : s.connected = true) (hdel : s.Delivers p broadcast)
    (hb : MayTakeMessage env b s p buf) :
    Act b s.line (s.dss1PipeDataInd env p buf broadcast).line := by
  rw [dss1PipeDataInd]
  split
  · exact Steps.act .refl
  · rename_i hv
    rw [not_or, not_or] at hv
    have hp : p = adapter ↔ s.pointToPoint = true ∨ s.ntMode = false := by
      refine Iff.trans hdel ?_
      have hnt := hv.2.1
      cases hbr : broadcast <;> cases hn : s.ntMode <;> simp_all
    dsimp only
    split
    · rename_i i hi
      exact Steps.act (steps_receive (matches_of_cdByUnitcr hi).1 (hb i hi))
    · rename_i hnone
      split
      · rename_i hset
        rcases nAllocateCd_cases env s hend (some p) (readStart (Buf.init buf)).crval .broadcast 0
          with ⟨s', hs, hbeg⟩ | ⟨i, s', cdid, paused, hs, hun, hfresh, hl⟩
        · rw [hs]
          exact ⟨_, hbeg, .refl⟩
        · rw [hs]
          refine ⟨s'.line, ?_, ?_⟩
          · rw [hl]
            exact .ring _ i cdid p paused _ hcon hun hfresh hset.1 hp
              (not_matches_of_cdByUnitcr hnone)
          · have hcd := congrArg (fun l => l.cd i) hl
            rw [allocate_cd, line_cd] at hcd
            refine steps_receive ?_ (.inr (.inl ?_))
            · rw [hcd]
              exact hfresh.ne_unused
            · rw [hcd]
              rfl
      · exact Steps.act (steps_receiveUnknown env s p _ broadcast)

/-! ## Requests

A request may set causes and then end the call, or it is an event of the call.  What a response of an
application does depends on the state of the call, and so does whether the cause that it brings is used up
at once.
-/

theorem allocated_of_line {s t : Cntl n} {i : Fin n} (hl : t.line = s.line)
    (ha : (s.cd i).Allocated) : (t.cd i).Allocated := (congrArg Call.cdid (toCall_eq hl i)).trans_ne ha

theorem pipe_of_line {s t : Cntl n} {i : Fin n} (hl : t.line = s.line)
    (hp : (s.cd i).pipe ≠ none) : (t.cd i).pipe ≠ none :=
  (congrArg Call.pipe (toCall_eq hl i)).trans_ne hp

/-- A call ends with RELEASE; what causes were set before does not matter. -/
theorem steps_end {s t : Cntl n} {i : Fin n} {state : State} {callout : Bool}
    {causeIn causeOut : Nat} (hl : t.line = s.line.mark i state callout causeIn causeOut)
    (ha : (s.cd i).Allocated) (hp : (s.cd i).pipe ≠ none) :
    Steps b s.line (t.cdUpdate env i none .release).line := by
  have hp' : (t.cd i).pipe ≠ none := by
    rw [toCall_of_mark hl]
    exact hp
  obtain ⟨cin, cout, h⟩ := line_release env hp'
  rw [h, hl, Line.free_mark]
  exact .single (.free _ i .u0 cin cout ha)

theorem steps_nDisconnectRequest {s : Cntl n} {i : Fin n} {cause : Nat} (ha : (s.cd i).Allocated)
    (hp : (s.cd i).pipe ≠ none) : Steps b s.line (s.nDisconnectRequest env i cause).line :=
  steps_end (line_modify_mark s i rfl) ha hp

/-- The same after both causes were set. -/
theorem steps_disconnect {s : Cntl n} {i : Fin n} {cause cause' : Nat} (ha : (s.cd i).Allocated)
    (hp : (s.cd i).pipe ≠ none) :
    Steps b s.line ((s.modify i fun cd => { cd with causeIn := cause, causeOut := cause })
      |>.nDisconnectRequest env i cause').line := by
  have h1 : (s.modify i fun cd => { cd with causeIn := cause, causeOut := cause }).line
      = s.line.mark i (s.cd i).state (s.cd i).setStateCallout cause cause := line_modify_mark s i rfl
  exact steps_end (line_mark_trans h1 (line_modify_mark _ i rfl)) ha hp

theorem steps_i4bIdleCheck {s : Cntl n} {i : Fin n}
    (hp : (s.cd i).Allocated → (s.cd i).pipe ≠ none) :
    Steps b s.line (s.i4bIdleCheck env i).line := by
  rw [i4bIdleCheck]
  split
  · rename_i h
    split
    · exact .refl
    · rw [line_idleStarted]
    · dsimp only
      split
      · split
        · rw [line_idleStarted, line_ask]
        · rw [line_modify_eq _ i (by rfl), line_ask]
      · have hl : ((s.ask.2.modify i fun cd => { cd with idleState := .notStarted }).tell i
            .idleTimeout).line = s.line :=
          (line_tell _ i _).trans ((line_modify_eq _ i (by rfl)).trans (line_ask s))
        rw [← hl]
        exact steps_nDisconnectRequest (allocated_of_line hl h.2) (pipe_of_line hl (hp h.2))
  · exact .refl

@[simp] theorem line_adopt (s : Cntl n) (i : Fin n) (aiType : AiType) (sc : Nat) :
    (s.adopt i aiType sc).line = s.line :=
  line_ite ((line_i4bL4DisconnectInd _ i true).trans (line_cdSetApplInterface s i _ _)) rfl

@[simp] theorem line_adoptDriver (s : Cntl n) (i : Fin n) (sc driver driverUnit : Nat) :
    (s.adoptDriver i sc driver driverUnit).line = s.line :=
  line_ite ((line_modify_eq _ i (by rfl)).trans (line_adopt s i _ sc)) rfl

/-- Events that take no channel need no more than a call. -/
theorem steps_event {s : Cntl n} {i : Fin n} {e : Event} (ha : (s.cd i).Allocated)
    (ht : ¬ Takes (s.cd i) e) (he : e ≠ .retrieveAck ∧ e ≠ .connect) :
    Steps b s.line (s.cdUpdate env i none e).line :=
  steps_cdUpdate env ha (.inr (.inr ht)) (fun h => absurd h he.1) (fun h => absurd h he.2)

/-- `cause_in` is set to a cause that is handled. -/
theorem steps_causeIn {s : Cntl n} {i : Fin n} (cause : Nat) {f : CallDesc → CallDesc}
    (h : Handled cause) (hf : ∀ cd, (f cd).toCall = { cd.toCall with causeIn := cause }) :
    Steps b s.line (s.modify i f).line := by
  rw [line_modify_call s i (fun c => { c with causeIn := cause }) hf]
  exact .single (.causeIn _ i cause (.inr h))

theorem steps_i4bL3InformationReq {s : Cntl n} {i : Fin n} {digits : List UInt8}
    (ha : (s.cd i).Allocated) : Steps b s.line (s.i4bL3InformationReq env i digits).line := by
  rw [i4bL3InformationReq]
  dsimp only
  generalize hf : (fun cd : CallDesc => _) = f
  have hl : (s.modify i f).line = s.line := by
    refine line_modify_eq s i ?_
    rw [← hf]
    dsimp only
    split
    · rfl
    · rfl
  rw [← hl]
  exact steps_event (allocated_of_line hl ha) (fun h => h) (by decide)

/-- A request to connect looks for a channel. -/
def Asks (s : Cntl n) (channel : Int) : Prop :=
  s.nNtMode = true ∨ (0 ≤ channel ∧ channel < s.channelEnd) ∨ channel = chanNotAny

theorem steps_setuprq {s : Cntl n} {i : Fin n} (ha : (s.cd i).Allocated) :
    Steps b s.line (s.cdUpdate env i none .setuprq).line :=
  steps_event ha (fun h => h) (by decide)

theorem steps_connectOn {s : Cntl n} {i : Fin n} {channel : Int} (ha : (s.cd i).Allocated)
    (hb : b.onHold = true ∨ (s.cd i).callIsOnHold = false ∨ ¬ s.Asks channel) :
    Steps b s.line (s.connectOn env i channel).line := by
  rw [connectOn]
  split
  · exact steps_setuprq ha
  · rename_i hno
    have hl : (s.modify i fun cd => { cd with channelId := channel }).line
        = s.line.set i { s.line.cd i with channelId := channel } :=
      line_modify_call s i (fun c => { c with channelId := channel }) (fun _ => rfl)
    have h1 : Steps b s.line (s.modify i fun cd => { cd with channelId := channel }).line := by
      rw [hl]
      exact .single (.name _ i channel (by simpa using hno))
    have ha1 : ((s.modify i fun cd => { cd with channelId := channel }).cd i).Allocated := by
      rw [modify_cd_self]
      exact ha
    refine h1.trans ?_
    dsimp only
    split
    · rename_i hask
      have hb' : b.onHold = true ∨ (s.cd i).callIsOnHold = false := by
        rcases hb with hb | hb | hb
        · exact .inl hb
        · exact .inr hb
        · exact absurd hask hb
      have hal := allocates_cdAllocateChannel env
        (s.modify i fun cd => { cd with channelId := channel }) i
      have ha2 := hal.kept.allocated ha1
      refine (hal.steps ha1 ?_).trans ?_
      · rw [hl, Line.set_cd_self]
        exact hb'
      · split
        · exact steps_setuprq ha2
        · rw [line_nFreeCd, line_modify_mark _ i (by rfl), Line.free_mark]
          exact .single (.free _ i _ _ _ ha2)
    · exact steps_setuprq ha1

/-- The response is acted on, and its cause is used up at once: the call is answered or ends. -/
def Consumes (s : Cntl n) (i : Fin n) : Response → Prop
  | .accept => (s.cd i).dirIncoming = true ∧ State.incoming.num < (s.cd i).state.num ∧
      (s.cd i).state.num < State.u8.num
  | .reject => (s.cd i).dirIncoming = true
  | .dontCare | .unknown => (s.cd i).connectIndCount < 2

/-- The cause of a response is handled, or is used up at once. -/
def MayRespond (b : Permit) (s : Cntl n) (i : Fin n) (response : Response) (cause : Nat) : Prop :=
  b.anyCause = true ∨ Handled cause ∨ s.Consumes i response

theorem steps_nConnectResponse {s : Cntl n} {i : Fin n} {response : Response} {cause : Nat}
    (ha : (s.cd i).Allocated) (hp : (s.cd i).pipe ≠ none)
    (hb : MayRespond b s i response cause) :
    Steps b s.line (s.nConnectResponse env i response cause).line := by
  have hm : (s.modify i fun cd => { cd with causeOut := cause }).line
      = s.line.mark i (s.cd i).state (s.cd i).setStateCallout (s.cd i).causeIn cause :=
    line_modify_mark s i rfl
  have ha1 : ((s.modify i fun cd => { cd with causeOut := cause }).cd i).Allocated := by
    rw [modify_cd_self]
    exact ha
  -- the cause is stored, if it may be
  have hset : b.anyCause = true ∨ Handled cause →
      Steps b s.line (s.modify i fun cd => { cd with causeOut := cause }).line :=
    fun h => steps_causeOut cause h (fun _ => rfl)
  have hignore : (b.anyCause = true ∨ Handled cause) ∨ (s.cd i).connectIndCount < 2 →
      Steps b s.line (if ((s.modify i fun cd => { cd with causeOut := cause }).cd i).connectIndCount < 2
        then (s.modify i fun cd => { cd with causeOut := cause }).cdUpdate env i none .release
        else (s.modify i fun cd => { cd with causeOut := cause }).modify i fun cd =>
          { cd with connectIndCount := cd.connectIndCount - 1 }).line := by
    intro hb
    rw [modify_cd_self]
    split
    · exact steps_end hm ha hp
    · rename_i hcount
      rw [line_modify_eq _ i (by rfl)]
      exact hset (hb.resolve_right hcount)
  rw [MayRespond, ← or_assoc] at hb
  cases response with
  | accept =>
    rcases hb with hb | ⟨hd, hst⟩
    · exact (hset hb).trans (steps_event ha1 (fun h => h) (by decide))
    · have hdir : ¬ (if ((s.modify i fun cd => { cd with causeOut := cause }).cd i).dirIncoming then
          Event.setacrs.isLocalIncoming else Event.setacrs.isLocalOutgoing) = false := by
        rw [modify_cd_self]
        exact fun h => absurd ((if_pos hd).symm.trans h) (by decide)
      rw [nConnectResponse, cdUpdate, if_neg hdir]
      refine steps_onSetacrs_of env (line_modify_call s i (fun c => { c with causeOut := cause })
        (fun _ => rfl)) ha1 ?_ ?_
      · rw [modify_cd_self]
        exact hd
      · rw [modify_cd_self]
        exact hst
  | reject =>
    rcases hb with hb | hd
    · exact (hset hb).trans (steps_event ha1 (fun h => h) (by decide))
    · have hdir : ¬ (if ((s.modify i fun cd => { cd with causeOut := cause }).cd i).dirIncoming then
          Event.setrjrs.isLocalIncoming else Event.setrjrs.isLocalOutgoing) = false := by
        rw [modify_cd_self]
        exact fun h => absurd ((if_pos hd).symm.trans h) (by decide)
      have hp1 : (((s.modify i fun cd => { cd with causeOut := cause }).modify i fun cd =>
          { cd with needRelease := true }).cd i).pipe ≠ none := by
        rw [modify_cd_self, modify_cd_self]
        exact hp
      rw [nConnectResponse, cdUpdate, if_neg hdir]
      obtain ⟨cin, cout, h⟩ := line_cdSetState_null env hp1
      rw [h, line_modify_eq _ i (by rfl), hm, Line.free_mark]
      exact .single (.free _ i .u0 cin cout ha)
  | dontCare => exact hignore hb
  | unknown => exact hignore hb

/-- What an I4B request must not do. -/
def MayRequest (b : Permit) (s : Cntl n) (i : Fin n) : I4bRequest → Prop
  | .connectReq r => b.onHold = true ∨ (s.cd i).callIsOnHold = false ∨ ¬ s.Asks r.channel
  | .connectResp response cause _ _ _ => MayRespond b s i response cause
  | _ => True

theorem connectIndCount_adoptDriver (s : Cntl n) (i : Fin n) (sc driver driverUnit : Nat) :
    ((s.adoptDriver i sc driver driverUnit).cd i).connectIndCount = (s.cd i).connectIndCount := by
  have h : ((s.adopt i .i4b sc).cd i).connectIndCount = (s.cd i).connectIndCount := by
    rw [adopt]
    split
    · have hset : ((s.cdSetApplInterface i .i4b sc).cd i).connectIndCount
          = (s.cd i).connectIndCount := by
        rw [cdSetApplInterface, modify_cd_self]
      rw [i4bL4DisconnectInd, if_pos rfl]
      split
      · exact hset
      · exact hset
    · rfl
  rw [adoptDriver]
  split
  · rw [modify_cd_self]
    exact h
  · rfl

/-- The state of a response is that of the call, also after the call was adopted. -/
theorem consumes_of_adopted {s : Cntl n} {i : Fin n} {sc driver driverUnit : Nat}
    {maxIdleTime : Int} {response : Response} (hc : s.Consumes i response) :
    ((s.adoptDriver i sc driver driverUnit).modify i fun cd =>
      { cd with shorthold := { idleTime := maxIdleTime } }).Consumes i response := by
  have hcd := toCall_eq (line_adoptDriver s i sc driver driverUnit) i
  have hcount := connectIndCount_adoptDriver s i sc driver driverUnit
  cases response with
  | accept =>
    rw [Consumes, modify_cd_self]
    exact ⟨(congrArg Call.dirIncoming hcd).trans hc.1,
      lt_of_lt_of_eq hc.2.1 (congrArg (State.num ∘ Call.state) hcd).symm,
      lt_of_eq_of_lt (congrArg (State.num ∘ Call.state) hcd) hc.2.2⟩
  | reject =>
    rw [Consumes, modify_cd_self]
    exact (congrArg Call.dirIncoming hcd).trans hc
  | dontCare =>
    rw [Consumes, modify_cd_self]
    exact lt_of_eq_of_lt hcount hc
  | unknown =>
    rw [Consumes, modify_cd_self]
    exact lt_of_eq_of_lt hcount hc

theorem mayRespond_of_adopted {s : Cntl n} {i : Fin n} {sc driver driverUnit : Nat}
    {maxIdleTime : Int} {response : Response} {cause : Nat} (h : MayRespond b s i response cause) :
    MayRespond b ((s.adoptDriver i sc driver driverUnit).modify i fun cd =>
      { cd with shorthold := { idleTime := maxIdleTime } }) i response cause :=
  h.imp_right (Or.imp_right consumes_of_adopted)

theorem steps_i4bCommand {s : Cntl n} {i : Fin n} {sc : Nat} {r : I4bRequest}
    (ha : (s.cd i).Allocated) (hp : (s.cd i).pipe ≠ none) (hb : MayRequest b s i r) :
    Steps b s.line (s.i4bCommand env i sc r).line := by
  cases r with
  | cdidReq => exact .refl
  | connectReq r =>
    have h1 : Steps b s.line (s.modify i (storeConnectReq r)).line :=
      steps_causeIn causeI4bNormal rfl (fun _ => rfl)
    refine h1.trans (steps_connectOn ?_ ?_)
    · rw [modify_cd_self]
      exact ha
    · rw [modify_cd_self]
      exact hb
  | informationReq digits => exact steps_i4bL3InformationReq ha
  | connectReplayReq =>
    rw [i4bCommand, line_ite (line_put s _) rfl]
  | connectResp response cause driver driverUnit maxIdleTime =>
    rw [i4bCommand]
    split
    · rename_i h
      subst h
      exact steps_nConnectResponse ha hp hb
    · have hl : ((s.adoptDriver i sc driver driverUnit).modify i fun cd =>
          { cd with shorthold := { idleTime := maxIdleTime } }).line = s.line :=
        (line_modify_eq _ i (by rfl)).trans (line_adoptDriver s i sc driver driverUnit)
      rw [← hl]
      exact steps_nConnectResponse (allocated_of_line hl ha) (pipe_of_line hl hp)
        (mayRespond_of_adopted hb)
  | linkBChannelDriverReq driver driverUnit activate =>
    rw [i4bCommand, line_i4bLinkBchandrvr, line_adoptDriver]
  | disconnectReq cause => exact steps_disconnect ha hp
  | alertReq proceeding =>
    rw [i4bCommand, nAlertRequest]
    split
    · exact steps_event ha (fun h => h) (by decide)
    · exact steps_event ha (fun h => h) (by decide)
  | timeoutUpd shorthold =>
    have hl : (s.modify i fun cd => { cd with shorthold := shorthold }).line = s.line :=
      line_modify_eq s i (by rfl)
    rw [i4bCommand, line_ite ((line_i4bL4SetupTimeout _ i).trans hl) hl]

/-! ### CAPI

The same for CAPI, which has other messages for the same requests.
-/

/-- A request is confirmed, and then done. -/
theorem steps_confirmed {s : Cntl n} {f : Cntl n → Cntl n}
    (h : Steps b s.line (f s.ask.2).line) : Steps b s.line (s.confirmed env f).line := by
  rw [confirmed]
  split
  · exact h
  · exact .refl

/-- What a CAPI request must not do. -/
def MayWrite (b : Permit) (s : Cntl n) (i : Fin n) : CapiRequest → Prop
  | .connect _ => (s.cd i).dirIncoming = false →
      b.onHold = true ∨ (s.cd i).callIsOnHold = false ∨ ¬ s.Asks chanAny
  | _ => True

theorem handled_capiCause (reject : Nat) : Handled (capiCause reject) := by
  rw [capiCause]
  split
  · rename_i h
    interval_cases reject <;> decide
  · split
    · have h : reject &&& 0x7f < 256 := lt_of_le_of_lt Nat.and_le_right (by decide)
      exact handled_of_lt h
    · decide

theorem steps_capiConnectResp {s : Cntl n} {i : Fin n} {sc reject : Nat}
    {bProtocol : Option BProtocol} {dateTime : List UInt8} (ha : (s.cd i).Allocated) (hp : (s.cd i).pipe ≠ none) :
    Steps b s.line (s.capiConnectResp env i sc reject bProtocol dateTime).line := by
  have hb : ∀ (t : Cntl n) (r : Response), MayRespond b t i r (capiCause reject) :=
    fun t r => .inr (.inl (handled_capiCause reject))
  rw [capiConnectResp]
  split
  · exact .refl
  · split
    · exact steps_nConnectResponse ha hp (hb s _)
    · dsimp only
      generalize hs : ((((s.modify i fun cd =>
          { cd with channelBprot := bProtocol.elim cd.channelBprot (capiDecodeBProtocol 0xff) }).adopt
          i .capi sc).modify i fun cd =>
          { cd with
            driverType := drvrCapiB3
            driverUnit := 0
            shorthold := {}
            odateTimeLen := min dateTime.length 8
            odateTime := Vector.ofFn fun k => dateTime.getD k cd.odateTime[k] })) = t
      have hl : t.line = s.line := by
        rw [← hs]
        exact (line_modify_eq _ i (by rfl)).trans
          ((line_adopt _ i .capi sc).trans (line_modify_eq _ i (by rfl)))
      rw [← hl]
      exact steps_nConnectResponse (allocated_of_line hl ha) (pipe_of_line hl hp) (hb t _)

@[simp] theorem line_capiConnectBridge (s : Cntl n) (i : Fin n) (sc dst : Nat) :
    (s.capiConnectBridge env i sc dst).line = s.line := by
  have hl : ((s.adopt i .capi sc).modify i fun cd =>
      { cd with liCdid := dst, driverType := drvrCapiBridge, driverUnit := 0 }).line = s.line :=
    (line_modify_eq _ i (by rfl)).trans (line_adopt s i .capi sc)
  exact line_ite (line_ite
    ((line_i4bLinkBchandrvr _ i true).trans ((line_liAlloc _ i).trans hl)) hl) rfl

@[simp] theorem line_capiDisconnectBridge (s : Cntl n) (i : Fin n) (sc dst : Nat) :
    (s.capiDisconnectBridge i sc dst).line = s.line :=
  line_ite ((line_i4bLinkBchandrvr _ i true).trans
    ((line_modify_eq _ i (by rfl)).trans (line_adopt s i .capi sc))) rfl

@[simp] theorem line_capiSelectBProtocol (s : Cntl n) (i : Fin n) (sc : Nat)
    (bProtocol : Option BProtocol) : (s.capiSelectBProtocol i sc bProtocol).line = s.line := by
  have hl : (s.modify i fun cd =>
      { cd with channelBprot := bProtocol.elim cd.channelBprot (capiDecodeBProtocol 0xff) }).line
      = s.line := line_modify_eq s i (by rfl)
  exact line_ite hl ((line_modify_eq _ i (by rfl)).trans ((line_adopt _ i .capi sc).trans hl))

theorem steps_capiCommand {s : Cntl n} {i : Fin n} {sc : Nat} {r : CapiRequest}
    (ha : (s.cd i).Allocated) (hp : (s.cd i).pipe ≠ none) (hb : MayWrite b s i r) :
    Steps b s.line (s.capiCommand env i sc r).line := by
  cases r with
  | alert sendingComplete =>
    rw [capiCommand]
    split
    · refine steps_confirmed ?_
      rw [nAlertRequest]
      split
      · exact steps_event (s := s.ask.2) ha (fun h => h) (by decide)
      · exact steps_event (s := s.ask.2) ha (fun h => h) (by decide)
    · exact .refl
  | connect r =>
    rw [capiCommand]
    split
    · exact .refl
    · rename_i hd
      refine steps_confirmed ?_
      have h1 : Steps b s.line (s.ask.2.modify i (storeCapiConnect r)).line :=
        steps_causeIn (s := s.ask.2) causeI4bNormal rfl (fun _ => rfl)
      refine h1.trans (steps_connectOn ?_ ?_)
      · rw [modify_cd_self]
        exact ha
      · rw [modify_cd_self]
        exact hb (by simpa using hd)
  | connectB3 =>
    rw [capiCommand, line_i4bLinkBchandrvr, line_modify_eq _ i (by rfl), line_adopt]
  | disconnectB3 => rw [capiCommand, line_ite (line_i4bLinkBchandrvr s i false) rfl]
  | disconnect =>
    have hl := line_i4bLinkBchandrvr s i false
    rw [capiCommand, ← hl]
    exact steps_disconnect (allocated_of_line hl ha) (pipe_of_line hl hp)
  | info facility dstTelno =>
    rw [capiCommand, capiInfo]
    split
    · refine steps_confirmed ?_
      split
      · exact steps_event (s := s.ask.2) ha (fun h => h) (by decide)
      · exact .refl
    · exact steps_confirmed (steps_i4bL3InformationReq (s := s.ask.2) ha)
  | hold => exact steps_event ha (fun h => h) (by decide)
  | retrieve => exact steps_event ha (fun h => h) (by decide)
  | deflect dstTelno =>
    have hl : (s.modify i fun cd =>
        { cd with dstTelnoPart := cstr ((dstTelno.drop 3).take (telnoMax - 1)) }).line = s.line :=
      line_modify_eq s i (by rfl)
    rw [capiCommand, ← hl]
    exact steps_event (allocated_of_line hl ha) (fun h => h) (by decide)
  | mcid => exact steps_event ha (fun h => h) (by decide)
  | liConnect dst => rw [capiCommand, line_capiConnectBridge]
  | liDisconnect dst => rw [capiCommand, line_capiDisconnectBridge]
  | selectBProtocol bProtocol => rw [capiCommand, line_capiSelectBProtocol]
  | connectResp reject bProtocol dateTime => exact steps_capiConnectResp ha hp
  | connectB3Resp reject =>
    rw [capiCommand]
    split
    · split
      · exact steps_disconnect ha hp
      · rw [line_i4bLinkBchandrvr]
    · exact .refl

theorem steps_disconnectCall (env : Env) (aiType : AiType) (sc : Nat) (s : Cntl n) (i : Fin n) :
    Steps b s.line (s.disconnectCall env aiType sc i).line := by
  rw [disconnectCall]
  split
  · rename_i h
    have h1 : Steps b s.line (s.modify i fun cd => { cd with causeIn := causeI4bNormal }).line :=
      steps_causeIn causeI4bNormal rfl (fun _ => rfl)
    have h2 : Steps b (s.modify i fun cd => { cd with causeIn := causeI4bNormal }).line
        (s.modify i fun cd =>
          { cd with causeIn := causeI4bNormal, causeOut := causeI4bNormal }).line := by
      rw [line_modify_call s i (fun c => { c with causeIn := causeI4bNormal }) (fun _ => rfl),
        line_modify_call s i
          (fun c => { c with causeIn := causeI4bNormal, causeOut := causeI4bNormal }) (fun _ => rfl)]
      have h := Step.causeOut (b := b)
        (s.line.set i { s.line.cd i with causeIn := causeI4bNormal }) i causeI4bNormal (.inr rfl)
      rw [Line.set_set, Line.set_cd_self] at h
      exact .single h
    refine (h1.trans h2).trans ?_
    rw [nDisconnectRequest]
    refine (steps_causeOut causeI4bNormal (.inr rfl) (fun _ => rfl)).trans (steps_event ?_ ?_ ?_)
    · rw [modify_cd_self, modify_cd_self]
      exact h.1
    · exact fun h => h
    · decide
  · exact .refl

/-! ## All actions

What must not be done, where it is not permitted to take a channel for a call on hold or to keep a cause
that is not known, is put together from the parts above.  These are conditions on the action and on the
state before it.
-/

/-- The action takes no channel for a call that is on hold. -/
def HoldSafe (env : Env) (s : Cntl n) : Action n → Prop
  | .dataInd p buf _ =>
    let m := readStart (Buf.init buf)
    ∀ i, s.cdByUnitcr p m.crval = some i → (s.cd i).callIsOnHold = true →
      ¬ Takes ((s.readMessage env i (eventFor (s.cd i) (messageEvent m.mt)) m.elements).cd i)
        (eventFor (s.cd i) (messageEvent m.mt))
  | .i4b sc cdid (.connectReq r) =>
    ∀ i, s.cdByCdid cdid = some i → s.Owns i .i4b sc → (s.cd i).callIsOnHold = true →
      ¬ s.Asks r.channel
  | .capi sc cdid (.connect _) =>
    ∀ i, s.cdByCdid cdid = some i → s.Owns i .capi sc → (s.cd i).dirIncoming = false →
      (s.cd i).callIsOnHold = true → ¬ s.Asks chanAny
  | _ => True

/-- The action leaves no cause behind that `i4b_make_q850_cause` does not know. -/
def CauseSafe (s : Cntl n) : Action n → Prop
  | .i4b sc cdid (.connectResp response cause _ _ _) =>
    ∀ i, s.cdByCdid cdid = some i → s.Owns i .i4b sc → Handled cause ∨ s.Consumes i response
  | _ => True

/-- What is required of the state and of the action, where something is not permitted. -/
structure Safe (env : Env) (b : Permit) (s : Cntl n) (a : Action n) : Prop where
  hold : b.onHold = true ∨ (s.HoldSafe env a ∧
    ∀ i, (s.cd i).callIsOnHold = true → (s.cd i).callIsRetrieving = false)
  cause : b.anyCause = true ∨ s.CauseSafe a

theorem allocated_of_cdByCdid {s : Cntl n} {cdid : Nat} {i : Fin n}
    (h : s.cdByCdid cdid = some i) : (s.cd i).Allocated := by
  rw [cdByCdid] at h
  split at h
  · cases h
  · rename_i hne
    have hi : (s.cd i).cdid = cdid := by simpa using List.find?_some h
    rw [Call.Allocated, hi]
    exact hne

/-- A call on hold that asks for no channel. -/
theorem may_of_hold {q : Prop} {held : Bool} (h : b.onHold = true ∨ (held = true → ¬ q)) :
    b.onHold = true ∨ held = false ∨ ¬ q := by
  rcases h with h | h
  · exact .inl h
  · cases held with
    | false => exact .inr (.inl rfl)
    | true => exact .inr (.inr (h rfl))

theorem act_i4bIoctl {s : Cntl n} {sc cdid : Nat} {r : I4bRequest} (ht : s.line.Tidy)
    (hend : s.CdidEndOk) (hcon : s.connected = true) (hb : Safe env b s (.i4b sc cdid r)) :
    Act b s.line (s.i4bIoctl env sc cdid r).line := by
  rw [i4bIoctl.eq_def]
  split
  · rename_i i hi
    have ha := allocated_of_cdByCdid hi
    split
    · rename_i ho
      refine Steps.act (steps_i4bCommand ha ((ht i).pipe ha) ?_)
      cases r with
      | connectReq r => exact may_of_hold (hb.hold.imp_right fun h => h.1 i hi ho)
      | connectResp response cause => exact hb.cause.imp_right fun h => h i hi ho
      | _ => trivial
    · exact Steps.act .refl
  · split
    · rcases nAllocateCd_cases env s hend none 0 .i4b sc with
        ⟨s', hs, hbeg⟩ | ⟨i, s', id, paused, hs, hun, hfresh, hl⟩
      · rw [hs]
        exact ⟨_, hbeg, .refl⟩
      · rw [hs]
        refine ⟨_, ?_, .refl⟩
        rw [hl]
        exact .dial _ i id paused hcon hun hfresh
    · exact Steps.act .refl

theorem act_capiWrite {s : Cntl n} {sc cdid : Nat} {r : CapiRequest} (ht : s.line.Tidy)
    (hend : s.CdidEndOk) (hcon : s.connected = true) (hb : Safe env b s (.capi sc cdid r)) :
    Act b s.line (s.capiWrite env sc cdid r).line := by
  rw [capiWrite.eq_def]
  split
  · rename_i i hi
    have ha := allocated_of_cdByCdid hi
    split
    · rename_i ho
      refine Steps.act (steps_capiCommand ha ((ht i).pipe ha) ?_)
      cases r with
      | connect r => exact fun hd => may_of_hold (hb.hold.imp_right fun h => h.1 i hi ho hd)
      | _ => trivial
    · exact Steps.act .refl
  · split
    · rename_i r
      rcases nAllocateCd_cases env s hend none 0 .capi sc with
        ⟨s', hs, hbeg⟩ | ⟨i, s', id, paused, hs, hun, hfresh, hl⟩
      · rw [hs]
        exact ⟨_, hbeg, .refl⟩
      · rw [hs]
        refine ⟨s'.line, ?_, ?_⟩
        · rw [hl]
          exact .dial _ i id paused hcon hun hfresh
        · have hcd := congrArg (fun l => l.cd i) hl
          rw [allocate_cd, line_cd] at hcd
          refine steps_capiCommand ?_ ?_ ?_
          · rw [hcd]
            exact hfresh.ne_unused
          · rw [hcd]
            exact Option.some_ne_none _
          · intro _
            refine .inr (.inl ?_)
            rw [hcd]
            rfl
    · exact Steps.act .refl

/-- `cd_set_state` stops the timer itself. -/
theorem cdSetState_callout (env : Env) (s : Cntl n) (i : Fin n) (new : State)
    (hp : (s.cd i).pipe ≠ none) :
    (s.modify i fun cd => { cd with setStateCallout := false }).cdSetState env i new
      = s.cdSetState env i new := by
  obtain ⟨p, hp⟩ := Option.ne_none_iff_exists'.mp hp
  have htwice : (s.modify i fun cd => { cd with setStateCallout := false }).modify i
      (fun cd => { cd with setStateCallout := false })
      = s.modify i fun cd => { cd with setStateCallout := false } := by
    rw [modify, modify_cd_self, modify]
    simp only [Function.update_idem]
  have hp' : ((s.modify i fun cd => { cd with setStateCallout := false }).cd i).pipe = some p := by
    rw [modify_cd_self]
    exact hp
  rw [cdSetState, cdSetState, hp', hp, htwice]

/-- A state with a timeout goes to the next one, or back to itself. -/
theorem mayEnter_timeoutState {c : Call} (h : c.state.timeoutState ≠ .u0) :
    MayEnter c c.state.timeoutState ∧ MayEnter c c.state.timeoutState.pred := by
  have hst : ∀ (st : State) (d : Bool), st.timeoutState ≠ .u0 →
      (st.Follows st.timeoutState ∧ (State.OkFor d st → State.OkFor d st.timeoutState)) ∧
      st.Follows st.timeoutState.pred ∧ (State.OkFor d st → State.OkFor d st.timeoutState.pred) := by
    intro st d
    cases st <;> cases d <;> decide
  obtain ⟨⟨h1, h2⟩, h3, h4⟩ := hst c.state c.dirIncoming h
  exact ⟨⟨h1, h2⟩, ⟨h3, h4⟩⟩

/-- The timer of a call expires. -/
theorem steps_stateTimeout {s : Cntl n} {i : Fin n} (ha : (s.cd i).Allocated)
    (hp : (s.cd i).pipe ≠ none) (hcon : s.connected = true) :
    Steps b s.line
      ((s.modify i fun cd => { cd with setStateCallout := false }).cdSetStateTimeout env i).line := by
  have hcon' : (s.modify i fun cd => { cd with setStateCallout := false }).connected = true := hcon
  rw [cdSetStateTimeout, if_pos hcon', cdSetState_callout env s i _ hp, modify_cd_self]
  by_cases h : (s.cd i).state.timeoutState = .u0
  · rw [h]
    exact steps_cdSetState_null ha
  · obtain ⟨h1, h2⟩ := mayEnter_timeoutState (c := (s.cd i).toCall) h
    exact (steps_cdSetState env ha h h1 (fun _ => h2)).1

/-- Attachment and detachment are not among the actions on calls. -/
def OnCalls : Action n → Prop
  | .attach .. | .detach => False
  | _ => True

/-- **An action on calls allocates at most one descriptor, and then makes changes to calls.** -/
theorem act_perform {s : Cntl n} {a : Action n} (ht : s.line.Tidy)
    (hlive : s.line.Live) (hend : s.CdidEndOk) (hen : s.Enabled a)
    (hon : OnCalls a) (hb : Safe env b s a) :
    Act b s.line (s.perform env a).line := by
  cases a with
  | dataInd p buf broadcast =>
    refine act_dss1PipeDataInd hend hen.1 hen.2 ?_
    intro i hi
    rcases hb.hold with h | ⟨h1, h2⟩
    · exact .inl h
    · by_cases hh : (s.cd i).callIsOnHold = true
      · exact .inr (.inr ⟨h2 i hh, h1 i hi hh⟩)
      · exact .inr (.inl (by simpa using hh))
  | activate p =>
    rw [perform, line_dss1PipeActivateReq]
    split
    · exact Steps.act (.single (.bump _ p))
    · exact Steps.act .refl
  | resend =>
    rw [perform, line_dss1PipeResendInd]
    exact Steps.act .refl
  | pause p => exact Steps.act (steps_pause env s p)
  | stateTimeout i =>
    have ha := (ht i).callout.mp hen
    exact Steps.act (steps_stateTimeout ha ((ht i).pipe ha) (hlive i ha))
  | idleTimeout i =>
    have hl : (s.modify i fun cd => { cd with idleCallout := false }).line = s.line :=
      line_modify_eq s i (by rfl)
    rw [perform, ← hl]
    refine Steps.act (steps_i4bIdleCheck ?_)
    intro ha
    rw [modify_cd_self] at ha ⊢
    exact (ht i).pipe ha
  | l1Activity up => exact Steps.act .refl
  | receivedFrame => exact Steps.act .refl
  | l1ActivityTimeout =>
    rw [perform, line_dss1L1ActivityTimeout]
    exact Steps.act .refl
  | options nNtMode noDialtone noPowerSave noStatusEnquiry => exact Steps.act .refl
  | i4b sc cdid r => exact act_i4bIoctl ht hend hen hb
  | capi sc cdid r => exact act_capiWrite ht hend hen hb
  | bridge sc cdid dst =>
    rw [perform]
    split
    · rw [line_capiConnectBridge]
      exact Steps.act .refl
    · exact Steps.act .refl
  | unbridge sc cdid dst =>
    rw [perform]
    split
    · rw [line_capiDisconnectBridge]
      exact Steps.act .refl
    · exact Steps.act .refl
  | closed aiType sc => exact Steps.act (steps_foldl (steps_disconnectCall env aiType sc) _ s)
  | attach ntMode pointToPoint primaryRate => exact hon.elim
  | detach => exact hon.elim

/-! ## Attachment and detachment

These are not `Steps`: attachment makes a new line, and detachment lets all calls end and switches the
line off.
-/

theorem line_attach (s : Cntl n) (ntMode pointToPoint primaryRate : Bool) :
    (s.attach ntMode pointToPoint primaryRate).line = s.line.attach ntMode pointToPoint := rfl

/-- A call that is left after one round of `dss1_pipe_reset_ind` is as it was. -/
theorem left_resetCall {s : Cntl n} {p : PipeNo} {i j : Fin n}
    (h : ((s.resetCall env p i).cd j).Allocated) :
    ((s.resetCall env p i).cd j).toCall = (s.cd j).toCall ∧
      (j = i → (s.cd j).pipe ≠ some p) := by
  rcases line_resetCall env p s i with ⟨hl, hne⟩ | ⟨-, causeIn, causeOut, hl⟩
  · have hcd := toCall_eq hl j
    refine ⟨hcd, ?_⟩
    rintro rfl hp
    refine hne ⟨?_, hp⟩
    rwa [Call.Allocated, congrArg Call.cdid hcd] at h
  · have hcd := congrArg (fun l => l.cd j) hl
    rw [line_cd, Line.free] at hcd
    by_cases hj : j = i
    · subst hj
      rw [Line.set_cd_self] at hcd
      rw [Call.Allocated, hcd] at h
      exact absurd rfl h
    · rw [Line.set_cd_of_ne _ _ hj, Line.giveBack_cd, Line.leave_cd] at hcd
      exact ⟨hcd, fun he => absurd he hj⟩

theorem left_foldl_resetCall (p : PipeNo) (j : Fin n) :
    ∀ (is : List (Fin n)) (s : Cntl n), ((is.foldl (resetCall env p) s).cd j).Allocated →
      ((is.foldl (resetCall env p) s).cd j).toCall = (s.cd j).toCall ∧
        (j ∈ is → (s.cd j).pipe ≠ some p)
  | [], _, _ => ⟨rfl, fun h => by cases h⟩
  | i :: is, s, h => by
    obtain ⟨h1, h2⟩ := left_foldl_resetCall p j is (s.resetCall env p i) h
    have ha : ((s.resetCall env p i).cd j).Allocated := by
      rw [Call.Allocated, ← congrArg Call.cdid h1]
      exact h
    obtain ⟨h3, h4⟩ := left_resetCall ha
    refine ⟨h1.trans h3, ?_⟩
    intro hj
    rcases List.mem_cons.mp hj with hj | hj
    · exact h4 hj
    · rw [← congrArg Call.pipe h3]
      exact h2 hj

/-- Detachment lets all pipes pause in turn. -/
theorem left_foldl_pause (j : Fin n) :
    ∀ (ps : List PipeNo) (s : Cntl n), ((ps.foldl (pause env) s).cd j).Allocated →
      ((ps.foldl (pause env) s).cd j).toCall = (s.cd j).toCall ∧
        ∀ p ∈ ps, (s.cd j).pipe ≠ some p
  | [], _, _ => ⟨rfl, fun _ h => by cases h⟩
  | p :: ps, s, h => by
    obtain ⟨h1, h2⟩ := left_foldl_pause j ps (s.pause env p) h
    have ha : ((s.pause env p).cd j).Allocated := by
      rw [Call.Allocated, ← congrArg Call.cdid h1]
      exact h
    obtain ⟨h3, h4⟩ := left_foldl_resetCall p j (List.finRange n)
      ({ s with paused := Function.update s.paused p true } : Cntl n) ha
    refine ⟨h1.trans h3, ?_⟩
    intro q hq
    rcases List.mem_cons.mp hq with rfl | hq
    · exact h4 (List.mem_finRange j)
    · rw [← show ((s.pause env p).cd j).pipe = (s.cd j).pipe from congrArg Call.pipe h3]
      exact h2 q hq

/-- **Detachment ends all calls.** -/
theorem steps_detach (env : Env) {s : Cntl n} (ht : s.line.Tidy) :
    Steps b s.line.detach (s.detach env).line ∧ ∀ j, ¬ ((s.detach env).cd j).Allocated := by
  refine ⟨steps_foldl (steps_pause env) (List.finRange 16)
    ({ s with
      connected := false
      l1Activity := false
      l1AutoActivate := 0
      l1DeactivateCount := false
      l1ActivityCallout := false } : Cntl n), ?_⟩
  intro j hj
  obtain ⟨h1, h2⟩ := left_foldl_pause j _ _ hj
  have ha : (s.cd j).Allocated := by
    have hc := congrArg Call.cdid h1
    exact hc.symm.trans_ne hj
  obtain ⟨p, hp⟩ := Option.ne_none_iff_exists'.mp ((ht j).pipe ha)
  exact h2 p (List.mem_finRange p) hp

/-! ## Runs

The rule that the invariants of layer 3 are proved with.  It has four cases: a line that is attached, a
call that begins, a change to a call, and detachment.
-/

/-- The states of a controller in runs all of whose steps are allowed. -/
inductive ReachBy (env : Env) (ok : Cntl n → Action n → Prop) : Cntl n → Prop where
  | start (unit channelEnd cdidCount : Nat) (ntMode pointToPoint primaryRate : Bool) :
      ReachBy env ok ((boot unit channelEnd cdidCount).attach ntMode pointToPoint primaryRate)
  | step {s s' : Cntl n} {a : Action n} (h : ReachBy env ok s) (hok : ok s a)
      (hs : s.step env a = some s') : ReachBy env ok s'

theorem Reach.by_any {s : Cntl n} (h : Reach env s) : ReachBy env (fun _ _ => True) s := by
  induction h with
  | start unit channelEnd cdidCount nt ptp pr => exact .start unit channelEnd cdidCount nt ptp pr
  | step _ hs ih => exact .step ih trivial hs

theorem step_eq_some {s s' : Cntl n} {a : Action n} (h : s.step env a = some s') :
    s.Enabled a ∧ s' = s.perform env a ∧ s'.halted = false := by
  rw [step] at h
  split at h
  · rename_i hen
    dsimp only at h
    split at h
    · cases h
    · rename_i hh
      cases h
      exact ⟨hen, rfl, by simpa using hh⟩
  · cases h

/-- What is known of every line: the descriptors are in order, there are calls only while it is
attached, and `N_cdid_end` is what it was set to. -/
structure Good (l : Line n) : Prop where
  tidy : l.Tidy
  live : l.Live
  cdidEnd : l.cdidEnd = 0x7f

theorem good_attach (l : Line n) (nt ptp : Bool) : Good (l.attach nt ptp) :=
  ⟨fun _ => Line.tidyCall_default, fun _ _ => rfl, rfl⟩

theorem Good.cdidEndOk {s : Cntl n} (h : Good s.line) : s.CdidEndOk := by
  rw [CdidEndOk, show s.cdidEnd = 0x7f from h.cdidEnd]
  decide

theorem Good.act {l l' : Line n} (h : Act b l l') (hl : Good l) : Good l' :=
  h.preserves (fun _ _ hb hg => ⟨hb.tidy hg.tidy, hb.live hg.live, hb.sameSetting.cdidEnd.trans hg.cdidEnd⟩)
    (fun _ _ hs hg => ⟨hs.tidy hg.tidy, hs.live hg.live, hs.sameSetting.cdidEnd.trans hg.cdidEnd⟩) hl

/-- After detachment there are no calls. -/
theorem Good.detach {l l' : Line n} (h : Steps b l.detach l') (hn : ∀ j, ¬ (l'.cd j).Allocated)
    (hl : Good l) : Good l' where
  tidy := h.preserves (fun _ _ hs => hs.tidy) hl.tidy
  live := fun j hj => absurd hj (hn j)
  cdidEnd := h.sameSetting.cdidEnd.trans hl.cdidEnd

/-- **What holds after attachment and is preserved by allocation, by changes to calls and by
detachment holds of every line.** -/
theorem ReachBy.line_induction {ok : Cntl n → Action n → Prop} {motive : Line n → Prop}
    {s : Cntl n} (h : ReachBy env ok s)
    (hsafe : ∀ s a, motive s.line → ok s a → Safe env b s a)
    (hstart : ∀ (unit channelEnd cdidCount : Nat) (nt ptp : Bool),
      motive ((boot unit channelEnd cdidCount : Cntl n).line.attach nt ptp))
    (hattach : ∀ l nt ptp, motive l → motive (l.attach nt ptp))
    (hdetach : ∀ (s : Cntl n) l', ok s .detach → motive s.line → Steps b s.line.detach l' →
      (∀ j, ¬ (l'.cd j).Allocated) → motive l')
    (hbegin : ∀ l l', Begin l l' → motive l → motive l')
    (hstep : ∀ l l', Step b l l' → motive l → motive l') : Good s.line ∧ motive s.line := by
  induction h with
  | start unit channelEnd cdidCount nt ptp pr =>
    rw [line_attach]
    exact ⟨good_attach _ nt ptp, hstart unit channelEnd cdidCount nt ptp⟩
  | @step s s' a _ hok hs ih =>
    obtain ⟨hg, hm⟩ := ih
    obtain ⟨hen, rfl, -⟩ := step_eq_some hs
    by_cases hon : OnCalls a
    · have hact : Act b s.line (s.perform env a).line :=
        act_perform hg.tidy hg.live hg.cdidEndOk hen hon (hsafe s a hm hok)
      exact ⟨hg.act hact, hact.preserves hbegin hstep hm⟩
    · cases a with
      | attach nt ptp pr =>
        rw [perform, line_attach]
        exact ⟨good_attach _ nt ptp, hattach _ nt ptp hm⟩
      | detach =>
        obtain ⟨hd, hn⟩ := steps_detach (b := b) env hg.tidy
        exact ⟨hg.detach hd hn, hdetach s _ hok hm hd hn⟩
      | _ => exact absurd trivial hon

/-- The same where every step is allowed, and nothing is forbidden. -/
theorem Reach.line_induction {motive : Line n → Prop} {s : Cntl n} (h : Reach env s)
    (hattach : ∀ (l : Line n) nt ptp, motive (l.attach nt ptp))
    (hdetach : ∀ l, motive l → motive l.detach)
    (hbegin : ∀ l l', Begin l l' → motive l → motive l')
    (hstep : ∀ l l', Step .all l l' → motive l → motive l') : Good s.line ∧ motive s.line :=
  h.by_any.line_induction (b := .all) (fun _ _ _ _ => ⟨.inl rfl, .inl rfl⟩)
    (fun _ _ _ nt ptp => hattach _ nt ptp) (fun l nt ptp _ => hattach l nt ptp)
    (fun s _ _ hm hs _ => hs.preserves hstep (hdetach s.line hm)) hbegin hstep

theorem Reach.good {s : Cntl n} (h : Reach env s) : Good s.line :=
  (h.line_induction (motive := fun _ => True) (fun _ _ _ => trivial) (fun _ _ => trivial)
    (fun _ _ _ _ => trivial) (fun _ _ _ _ => trivial)).1

end Cntl
end L3
end Isdn4bsd
