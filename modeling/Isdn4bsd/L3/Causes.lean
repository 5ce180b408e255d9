import Isdn4bsd.L3.Ownership

/-!
# Causes

`i4b_make_q850_cause` panics for a cause whose type it does not know.  The kernel itself stores only
causes of the two types that are known, and CAPI makes one of them from what it is given;
`I4B_DISCONNECT_REQ` and `I4B_CONNECT_RESP` store the cause of the application as it is.

* `Spends`: the command uses up its cause without converting it.
* `CauseFits`: the cause of a command that is carried out is known, or is used up.
* `ReachBy.never_panics`: **where all commands are so, nothing panics in any run.**
* `user_cause_panics`: one command with another cause is enough for a panic.

## The exact condition

A cause of an unknown type does no harm if it is not converted before it is overwritten or the call is gone.
There are two ways for that, and both depend on the call in the state before the command.  A call may be
accepted: the response stores its cause, and the answer to the SETUP goes on with another one
(`acts_accept`).  Or it may end silently (`Mute`): the other end never heard of it, so there is no message for
the cause to be in, or the terminals it was offered to are gone.

In all other cases the cause stays in the descriptor or goes into a message.  `CauseFits` is about the call in
the state before the command, so that it says of each command by itself whether it is harmless; what the call
had before then does not matter, since it had no such cause.
-/

set_option autoImplicit false

namespace Isdn4bsd
namespace L3

open L2 (PipeNo adapter)

namespace Cntl

variable {n : Nat} {env : Env} {i : Fin n} {s t : Cntl n}

/-! ## Causes that are not converted -/

/-- The end of the call is not told to the other end: there was no message for it yet, or it was
offered to terminals of a bus none of which is there. -/
def Mute (s : Cntl n) (i : Fin n) : Prop :=
  (s.cd i).needRelease = false ∨
    s.ntMode = true ∧ s.pointToPoint = false ∧ (s.cd i).dirIncoming = false ∧
      (s.cd i).pipe = some adapter ∧ ∀ p, p ≠ adapter → s.paused p = true

/-- The command uses up its cause without converting it. -/
def Spends (s : Cntl n) (i : Fin n) : I4bRequest → Prop
  | .disconnectReq _ => s.Mute i ∧ ((s.cd i).aiType = .i4b ∨ s.l1Activity = false)
  | .connectResp .accept _ _ _ _ => s.Consumes i .accept
  | .connectResp .dontCare _ _ _ _ | .connectResp .unknown _ _ _ _ =>
    (s.cd i).connectIndCount < 2 ∧ s.Mute i
  | _ => False

/-- The cause of a command that is carried out is known to `i4b_make_q850_cause`, or is used up
without it. -/
def CauseFits (s : Cntl n) : Action n → Prop
  | .i4b sc cdid r =>
    ∀ i, s.cdByCdid cdid = some i → s.Owns i .i4b sc → r.CauseHandled ∨ s.Spends i r
  | _ => True

theorem txFinal_mute (env : Env) {p : PipeNo} (hm : s.Mute i) (hp : (s.cd i).pipe = some p) :
    ∃ cause, s.txFinal env i p = s.modify i fun cd => { cd with causeOut := cause } := by
  have hsame : s = s.modify i fun cd => { cd with causeOut := (s.cd i).causeOut } := by
    rw [Cntl.modify]
    exact congrArg (fun f => { s with cd := f }) (Function.update_eq_self i s.cd).symm
  rw [txFinal]
  split
  · rename_i hn
    obtain ⟨hnt, hptp, hdir, hpipe, hpaused⟩ := hm.resolve_left (by rw [hn]; decide)
    obtain rfl : adapter = p := Option.some.inj (hpipe.symm.trans hp)
    obtain ⟨cause, hc⟩ : ∃ cause, (if (s.cd i).causeOut = 0 then
        s.modify i fun cd => { cd with causeOut := causeRecotimexp } else s)
        = s.modify i fun cd => { cd with causeOut := cause } := by
      split
      · exact ⟨_, rfl⟩
      · exact ⟨_, hsame⟩
    dsimp only
    rw [hc, if_pos ⟨hnt, hptp, by rw [modify_cd_self]; exact hdir, rfl⟩]
    refine ⟨cause, List.foldl_fixed' ?_ _⟩
    intro p
    refine if_neg ?_
    rintro ⟨hpa, -, hpp⟩
    have := hpaused p fun h => hpa (congrArg some h)
    rw [show (s.modify i fun cd => { cd with causeOut := cause }).paused p = s.paused p from rfl,
      this] at hpp
    cases hpp
  · exact ⟨_, hsame⟩

/-- A call that ends silently ends without a panic, also if a cause of it is not known. -/
theorem halted_cdSetState_mute (env : Env) (hh : s.halted = false) (hp : (s.cd i).pipe ≠ none)
    (hm : s.Mute i)
    (hin : (s.cd i).aiType = .i4b ∨ s.l1Activity = false ∨ Handled (s.cd i).causeIn) :
    (s.cdSetState env i .u0).halted = false := by
  obtain ⟨p, hp⟩ := Option.ne_none_iff_exists'.mp hp
  have hcd : ((s.modify i fun cd => { cd with setStateCallout := false }).abandon i p).cd i
      = { s.cd i with setStateCallout := false, state := .u0 } := by
    rw [abandon, put]
    dsimp only
    rw [modify_cd_self, modify_cd_self]
  have h1 : Runs True s ((s.modify i fun cd => { cd with setStateCallout := false }).abandon i p) := by
    rw [abandon]
    exact ((Runs.rfl.modify i _).modify i _).put _
  have hl1 : ((s.modify i fun cd => { cd with setStateCallout := false }).abandon i p).l1Activity
      = s.l1Activity := rfl
  have hm1 : ((s.modify i fun cd => { cd with setStateCallout := false }).abandon i p).Mute i := by
    rw [Mute, hcd]
    exact hm
  rw [cdSetState, hp]
  dsimp only
  rw [if_pos rfl, enterNull]
  generalize (s.modify i fun cd => { cd with setStateCallout := false }).abandon i p = m
    at hcd h1 hl1 hm1 ⊢
  obtain ⟨cause, htx⟩ := txFinal_mute env (p := p) hm1 (by rw [hcd]; exact hp)
  have h2 : Runs True s ((m.txFinal env i p).l1Error i) := by
    rw [htx, l1Error]
    exact Runs.ite (h1.modify i _) ((h1.modify i _).modify i _)
  have hk : (((m.txFinal env i p).l1Error i).cd i).aiType = .i4b ∨
      Handled (((m.txFinal env i p).l1Error i).cd i).causeIn := by
    rw [htx, l1Error]
    split
    · rename_i hup
      rw [modify_cd_self, hcd]
      refine hin.imp_right fun h => h.resolve_left ?_
      intro hd
      have hup' : m.l1Activity = true := hup
      rw [hl1, hd] at hup'
      cases hup'
    · rw [modify_cd_self]
      exact .inr (by decide : Handled causeI4bL1error)
  exact ((h2.nFreeCd i fun _ => hk).halted trivial).trans hh

/-- The end of a call that is silent is no end of the controller. -/
theorem peaceful_release (env : Env) {m : Cntl n} (hs : Peaceful s) (hq : Quiet i s m)
    (hp : (m.cd i).pipe ≠ none) (hm : m.Mute i)
    (hin : (m.cd i).aiType = .i4b ∨ m.l1Activity = false ∨ Handled (m.cd i).causeIn) :
    Peaceful (m.cdUpdate env i none .release) := by
  have hd : ¬ (if (m.cd i).dirIncoming then Event.release.isLocalIncoming
      else Event.release.isLocalOutgoing) = false := by
    cases (m.cd i).dirIncoming <;> decide
  have hend : Ends False i m (m.cdSetState env i .u0) := ends_cdSetState env hp
  rw [cdUpdate, if_neg hd]
  exact hs.touches (hq.toTouches.trans hend.toTouches)
    (halted_cdSetState_mute env (hq.halted.trans hs.halted) hp hm hin) fun ha => absurd hend.free ha

/-! ## Causes that are used up by an answer -/

/-- The messages before CONNECT and CONNECT itself carry no cause. -/
theorem runs_connect (env : Env) {s : Cntl n} {i : Fin n} (hp : (s.cd i).pipe ≠ none)
    (chanId : Bool) :
    Runs True s ((s.proceedFirst env i).dss1L3TxConnect env i chanId) ∧
      ((s.proceedFirst env i).dss1L3TxConnect env i chanId).line = s.line := by
  have hl : (s.proceedFirst env i).line = s.line :=
    line_ite (line_dss1L3TxMessage env s i _ _) rfl
  have h1 : Runs True s (s.proceedFirst env i) := by
    rw [proceedFirst]
    exact (Runs.rfl.dss1L3TxMessage i _ _ (fun _ => hp) fun _ h => by cases h).ite .rfl
  refine ⟨h1.dss1L3TxMessage i _ _ (fun _ => pipe_of_line hl hp) (fun _ h => by cases h), ?_⟩
  exact (line_dss1L3TxMessage env _ i _ _).trans hl

/-- Whatever is done in between, a call with a new cause is as before. -/
theorem keeps_regain {m v : Cntl n} {cause : Nat} {g : CallDesc → CallDesc} (hq : Quiet i s m)
    (hcd : m.cd i = { s.cd i with causeOut := cause }) (hp : (m.cd i).pipe ≠ none)
    (hv : Keeps False i m v) (hr : Runs True m v) (hl : v.line = m.line)
    (hg : Inert (v.cd i) (g (v.cd i))) (hout : Handled (g (v.cd i)).causeOut) :
    Keeps True i s (v.modify i g) := by
  refine ⟨(hq.toTouches.trans hv.toTouches).trans (Quiet.refl.modify g).toTouches, ?_, ?_, ?_⟩
  · rw [modify_cd_self, hg.holder, hv.holder, hcd]
    rfl
  · rw [modify_cd_self, hg.count, hv.count, hcd]
  · intro hc
    refine ⟨trivial, (hr.halted trivial).trans (hq.halted.trans hc.halted), ?_, ?_, ?_⟩
    · rw [modify_cd_self]
      exact hg.pipe (pipe_of_line hl hp)
    · rw [modify_cd_self]
      refine hg.causeIn ?_
      rw [congrArg Call.causeIn (toCall_eq hl i), hcd]
      exact hc.causeIn
    · rw [modify_cd_self]
      exact hout

/-- An answer that is acted on does not leave its cause behind. -/
theorem acts_accept (env : Env) {cause : Nat} (hp : (s.cd i).pipe ≠ none)
    (hk : s.Consumes i .accept) : Acts True i s (s.nConnectResponse env i .accept cause) := by
  obtain ⟨hd, hlo, hhi⟩ := hk
  have hcd : (s.modify i fun cd => { cd with causeOut := cause }).cd i
      = { s.cd i with causeOut := cause } := modify_cd_self s i _
  have hq : Quiet i s (s.modify i fun cd => { cd with causeOut := cause }) := Quiet.refl.modify _
  rw [nConnectResponse]
  generalize s.modify i (fun cd => { cd with causeOut := cause }) = m at hcd hq
  have hdir : ¬ (if (m.cd i).dirIncoming then Event.setacrs.isLocalIncoming
      else Event.setacrs.isLocalOutgoing) = false := by
    rw [hcd]
    exact fun h => absurd ((if_pos hd).symm.trans h) (by decide)
  have hst : State.incoming.num < (m.cd i).state.num ∧ (m.cd i).state.num < State.u8.num := by
    rw [hcd]
    exact ⟨hlo, hhi⟩
  have hpm : (m.cd i).pipe ≠ none := by
    rw [hcd]
    exact hp
  obtain ⟨hr, hl⟩ := runs_connect env hpm m.ntMode
  have hv : Keeps False i m ((m.proceedFirst env i).dss1L3TxConnect env i m.ntMode) :=
    Keeps.refl.proceedFirst.dss1L3TxMessage _ _
  have h1 : Keeps True i s (((m.proceedFirst env i).dss1L3TxConnect env i m.ntMode).modify i
      fun cd => { cd with causeOut := 0, needRelease := true }) :=
    keeps_regain hq hcd hpm hv hr hl ⟨rfl, rfl, id, id, fun _ => (by decide : Handled 0)⟩
      (by decide : Handled 0)
  have h2 : Keeps True i s ((((m.proceedFirst env i).dss1L3TxConnect env i m.ntMode).modify i
      fun cd => { cd with causeOut := 0, needRelease := true }).cdSetState env i .u8) :=
    h1.cdSetState (by decide)
  have h3 : Keeps True i s (m.modify i fun cd =>
      { cd with causeOut := causeNoanswr, needRelease := true }) :=
    keeps_regain hq hcd hpm .refl .rfl rfl ⟨rfl, rfl, id, id, fun _ => (by decide : Handled causeNoanswr)⟩
      (by decide : Handled causeNoanswr)
  have h4 : Acts True i s (m.smsRelease env i) := by
    rw [smsRelease]
    exact h3.acts (acts_cdSetState env _ i .u0)
  rw [cdUpdate, if_neg hdir, onSetacrs, if_pos hst]
  exact Acts.ite h4 (Acts.ite (h2.acts (acts_eventConnectAck env _ i)) (.inl h2))

/-! ## All commands -/

theorem mute_of_adopted {sc driver driverUnit : Nat} {maxIdleTime : Int} (hm : s.Mute i) :
    ((s.adoptDriver i sc driver driverUnit).modify i fun cd =>
      { cd with shorthold := { idleTime := maxIdleTime } }).Mute i := by
  rw [Mute, modify_cd_self, adoptDriver]
  split
  · rename_i hb
    rw [adopt, if_pos hb, i4bL4DisconnectInd, if_pos rfl, modify_cd_self]
    dsimp only
    have hcd : (s.cdSetApplInterface i .i4b sc).cd i
        = { s.cd i with aiType := .i4b, aiPtr := sc } := modify_cd_self s i _
    split
    · rw [halt, tell, put]
      dsimp only
      rw [hcd]
      exact hm
    · rw [tell, put]
      dsimp only
      rw [hcd]
      exact hm
  · exact hm

/-- The last application ignores a call silently. -/
theorem peaceful_ignore (env : Env) {response : Response} {cause : Nat} (hs : Peaceful s)
    (ha : (s.cd i).Allocated) (hk : (s.cd i).connectIndCount < 2) (hm : s.Mute i)
    (hr : response = .dontCare ∨ response = .unknown) :
    Peaceful (s.nConnectResponse env i response cause) := by
  have hq : Quiet i s (s.modify i fun cd => { cd with causeOut := cause }) := Quiet.refl.modify _
  have heq : s.nConnectResponse env i response cause
      = (s.modify i fun cd => { cd with causeOut := cause }).cdUpdate env i none .release := by
    have hk' : ((s.modify i fun cd => { cd with causeOut := cause }).cd i).connectIndCount < 2 := by
      rw [modify_cd_self]
      exact hk
    rcases hr with rfl | rfl
    · exact if_pos hk'
    · exact if_pos hk'
  rw [heq]
  refine peaceful_release env hs hq ?_ ?_ (.inr (.inr ?_))
  · rw [modify_cd_self]
    exact (hs.call i ha).pipe
  · rw [Mute, modify_cd_self]
    exact hm
  · rw [modify_cd_self]
    exact (hs.call i ha).causeIn

/-- A command whose cause is used up does not panic. -/
theorem peaceful_spends (env : Env) {sc : Nat} {r : I4bRequest} (hs : Peaceful s)
    (ha : (s.cd i).Allocated) (hr : s.Spends i r) : Peaceful (s.i4bCommand env i sc r) := by
  have ht : Tame (s.cd i) := hs.call i ha
  cases r with
  | disconnectReq cause =>
    obtain ⟨hm, hin⟩ := hr
    have hq : Quiet i s ((s.modify i fun cd => { cd with causeIn := cause, causeOut := cause }).modify
        i fun cd => { cd with causeOut := cause }) := (Quiet.refl.modify _).modify _
    refine peaceful_release env hs hq ?_ ?_ ?_
    · rw [modify_cd_self, modify_cd_self]
      exact ht.pipe
    · rw [Mute, modify_cd_self, modify_cd_self]
      exact hm
    · rw [modify_cd_self, modify_cd_self]
      exact hin.imp_right .inl
  | connectResp response cause driver driverUnit maxIdleTime =>
    -- the call as it is when the response is passed to layer 3
    have hm1 : Keeps True i (s.adopt i .i4b sc) ((s.adoptDriver i sc driver driverUnit).modify i
        fun cd => { cd with shorthold := { idleTime := maxIdleTime } }) :=
      (keeps_adoptDriver s i sc driver driverUnit).modify ⟨rfl, rfl, id, id, id⟩
    have hcmd := commands_adopt s i sc (by decide) (.inl (.inl hm1))
    have hpm := hcmd.peaceful trivial hs ha
    have hl : ((s.adoptDriver i sc driver driverUnit).modify i fun cd =>
        { cd with shorthold := { idleTime := maxIdleTime } }).line = s.line :=
      (line_modify_eq _ i (by rfl)).trans (line_adoptDriver s i sc driver driverUnit)
    have ham := allocated_of_line hl ha
    cases response with
    | accept =>
      have hk : s.Consumes i .accept := hr
      rw [i4bCommand, if_neg (by decide)]
      exact (acts_accept env (hpm.call i ham).pipe (consumes_of_adopted hk)).peaceful trivial hpm ham
    | reject => exact hr.elim
    | dontCare =>
      rw [i4bCommand, if_pos rfl]
      exact peaceful_ignore env hs ha hr.1 hr.2 (.inl rfl)
    | unknown =>
      have hk : s.Consumes i .unknown := hr.1
      rw [i4bCommand, if_neg (by decide)]
      exact peaceful_ignore env hpm ham (consumes_of_adopted hk) (mute_of_adopted hr.2) (.inr rfl)
  | _ => exact hr.elim

/-- **A step with a cause that fits does not panic, and leaves nothing behind that will.** -/
theorem peaceful_perform (env : Env) {a : Action n} (ht : s.line.Tidy) (hen : s.Enabled a)
    (hc : s.CauseFits a) (hs : Peaceful s) : Peaceful (s.perform env a) := by
  have heffect : s.CauseKnown a → (∀ nt ptp pr, a ≠ .attach nt ptp pr) →
      Peaceful (s.perform env a) := fun hk hna =>
    (effect_perform True env ht hen hna fun _ => hk).peaceful trivial hs
  cases a with
  | attach nt ptp pr => exact ⟨hs.halted, fun i hi => absurd rfl hi⟩
  | i4b sc cdid r =>
    by_cases hk : s.CauseKnown (.i4b sc cdid r)
    · exact heffect hk fun _ _ _ h => by cases h
    · rw [CauseKnown] at hk
      push Not at hk
      obtain ⟨i, hi, hown, hr⟩ := hk
      rw [perform, i4bIoctl.eq_def, hi]
      dsimp only
      rw [if_pos hown]
      exact peaceful_spends env hs (allocated_of_cdByCdid hi) ((hc i hi hown).resolve_left hr)
  | _ => exact heffect trivial fun _ _ _ h => by cases h

/-! ## Runs -/

theorem ReachBy.good {ok : Cntl n → Action n → Prop} (h : ReachBy env ok s) : Good s.line :=
  (h.line_induction (b := .all) (motive := fun _ => True) (fun _ _ _ _ => ⟨.inl rfl, .inl rfl⟩)
    (fun _ _ _ _ _ => trivial) (fun _ _ _ _ => trivial) (fun _ _ _ _ _ _ => trivial)
    (fun _ _ _ _ => trivial) (fun _ _ _ _ => trivial)).1

theorem ReachBy.peaceful (h : ReachBy env CauseFits s) : Peaceful s := by
  induction h with
  | start unit channelEnd cdidCount nt ptp pr => exact ⟨rfl, fun i hi => absurd rfl hi⟩
  | @step s s' a hr hok hs ih =>
    obtain ⟨hen, rfl, -⟩ := step_eq_some hs
    exact peaceful_perform env hr.good.tidy hen hok ih

/-- **Where the cause of every command fits, nothing panics in any run, and every cause that is
stored in a call is known to `i4b_make_q850_cause`.** -/
theorem ReachBy.never_panics (h : ReachBy env CauseFits s) :
    (∀ i, (s.cd i).Allocated → Handled (s.cd i).causeIn ∧ Handled (s.cd i).causeOut) ∧
      ∀ a, s.Enabled a → s.CauseFits a → (s.perform env a).halted = false :=
  ⟨fun i hi => ⟨(h.peaceful.call i hi).causeIn, (h.peaceful.call i hi).causeOut⟩, fun _ hen hc =>
    (peaceful_perform env h.good.tidy hen hc h.peaceful).halted⟩

/-- An application disconnects the first call with that cause. -/
def disconnectWith (cause : Nat) : Action 1 := .i4b 1 64 (.disconnectReq cause)

/-- With a cause of Q.850 the call ends. -/
theorem never_panics_disconnected :
    ∃ s : Cntl 1, (s.cd 0).Allocated ∧ s.Enabled (disconnectWith 16) ∧
      (s.perform plain (disconnectWith 16)).halted = false := by
  have h : (((fresh false true).step plain completeSetup).bind fun s =>
      some (decide ((s.cd 0).Allocated ∧ s.Enabled (disconnectWith 16)))) = some true := by
    decide
  obtain ⟨s, hs, h⟩ := Option.bind_eq_some_iff.mp h
  obtain ⟨ha, hen⟩ := of_decide_eq_true (Option.some.inj h)
  have hreach : ReachBy plain CauseFits s :=
    .step (a := completeSetup) (.start 0 3 0 false true false) trivial hs
  exact ⟨s, ha, hen, hreach.never_panics.2 _ hen fun _ _ _ => .inl (by decide : Handled 16)⟩

/-- With a cause of no known type the kernel panics. -/
theorem user_cause_panics :
    ∃ s : Cntl 1, Reach plain s ∧ s.Enabled (disconnectWith 0x200) ∧
      (s.perform plain (disconnectWith 0x200)).halted = true := by
  have h : (((fresh false true).run plain [completeSetup]).bind fun s =>
      some (decide (s.Enabled (disconnectWith 0x200) ∧
        (s.perform plain (disconnectWith 0x200)).halted = true))) = some true := by
    decide +kernel
  obtain ⟨s, hs, h⟩ := Option.bind_eq_some_iff.mp h
  obtain ⟨hen, hh⟩ := of_decide_eq_true (Option.some.inj h)
  exact ⟨s, (reach_fresh plain false true).run hs, hen, hh⟩

end Cntl

end L3
end Isdn4bsd
