import Isdn4bsd.L2.Fsm

/-!
# Layer 2: what an event can do

`Softc.step` is a large function, and all that the results about it need to know is said here, once.

`Follows` says that a softc came out of another without a number from the peer and without a frame to
layer 1: each pipe went through `Pipe.Steps`, the cursor stayed where it was, no pipe got into
`ST_L2_MULTI_FRAME`, and on a bus the adapter got no TEI and no two pipes got the same.  `Quiet` adds
that no TEI changed on a bus.  Every function below
`dss1_l2_put_mbuf` is shown to do no more than that, so that `step_cases` can list the kinds of
events: a quiet one, one with a number from the peer, one that fetches a frame, and the detachment of
the controller.

## How it is used

An invariant of layer 2 is about the queue and the counters of a pipe, about the cursor, or about TEI
values.  With `step_cases` there are four things to prove of it: changes of pipes preserve it, a number from the peer
does, and so do the opening of a window and the sending of a frame, which `Isdn4bsd.L2.Serve` takes out of the
loop of `dss1_l2_get_mbuf`.  None of the proofs goes back to the state machine.

## How it is proved

The lemmas `*_quiet` follow the calls of the source from the bottom up.  Setting the state of a pipe is the large
one (`pipeSetState_quiet`).  It is not quiet in two cases, which are kept apart: `ST_L2_MULTI_FRAME`, which only
comes from `check_NR`, where the number has been taken in before; and `ST_L2_SEND_SABME` on the adapter of a bus,
which has no TEI to send it with.

A frame for a pipe may find the pipe, give a TEI to it, or activate it first, and only then comes to `check_NR`;
`atCheckNr` is the softc at this point.
-/

set_option autoImplicit false

namespace Isdn4bsd
namespace L2
namespace Softc

/-- The identities of the buffers in the queues have been given out. -/
def Fresh (sc : Softc) : Prop := ∀ p, ∀ m ∈ (sc.pipe p).queue, m.id < sc.mbufs

/-- Network mode on a bus with several terminals. -/
def Bus (sc : Softc) : Prop := sc.ntMode = true ∧ sc.pointToPoint = false

instance (sc : Softc) : Decidable sc.Bus := inferInstanceAs (Decidable (_ ∧ _))

/-- On a bus the adapter has the TEI of a broadcast, and no two other pipes share one that is not. -/
def TeisOk (sc : Softc) : Prop :=
  sc.Bus → (sc.pipe adapter).tei = teiBroadcast ∧
    ∀ p q, p ≠ adapter → q ≠ adapter → p ≠ q → (sc.pipe p).tei = (sc.pipe q).tei →
      (sc.pipe p).tei = teiBroadcast

theorem TeisOk.of_eq {sc sc' : Softc} (h : sc.TeisOk) (hbus : sc'.Bus → sc.Bus)
    (htei : sc.Bus → ∀ p, (sc'.pipe p).tei = (sc.pipe p).tei) : sc'.TeisOk := by
  intro hb
  simp only [htei (hbus hb)]
  exact h (hbus hb)

/-- Nothing came from the peer and nothing went to layer 1. -/
structure Follows (sc sc' : Softc) : Prop where
  fresh : sc.Fresh → sc'.Fresh
  pipes : sc.Fresh → ∀ p, Pipe.Steps sc.mbufs (sc.pipe p) (sc'.pipe p)
  mbufs : sc.mbufs ≤ sc'.mbufs
  curPipe : sc'.curPipe = sc.curPipe
  curMbuf : sc'.curMbuf = sc.curMbuf
  curLength : sc'.curLength = sc.curLength
  curTxNr : sc'.curTxNr = sc.curTxNr
  ntMode : sc'.ntMode = sc.ntMode
  pointToPoint : sc'.pointToPoint = sc.pointToPoint
  multi : ∀ p, (sc'.pipe p).state = .multiFrame → (sc.pipe p).state = .multiFrame
  adapter : sc.Bus → ¬ (sc.pipe adapter).state.isTeiAssigned →
    ¬ (sc'.pipe adapter).state.isTeiAssigned
  teis : sc.TeisOk → sc'.TeisOk

/-- Nor did a TEI change, on a bus. -/
structure Quiet (sc sc' : Softc) : Prop extends Follows sc sc' where
  tei : sc.Bus → ∀ p, (sc'.pipe p).tei = (sc.pipe p).tei

theorem Follows.bus {sc sc' : Softc} (h : Follows sc sc') : sc'.Bus ↔ sc.Bus := by
  rw [Bus, Bus, h.ntMode, h.pointToPoint]

theorem Follows.refl (sc : Softc) : Follows sc sc :=
  ⟨id, fun _ _ => .refl, Nat.le_refl _, rfl, rfl, rfl, rfl, rfl, rfl, fun _ => id, fun _ => id, id⟩

theorem Follows.trans {sc sc' sc'' : Softc} (h : Follows sc sc') (h' : Follows sc' sc'') :
    Follows sc sc'' where
  fresh := fun hf => h'.fresh (h.fresh hf)
  pipes := fun hf p => (h.pipes hf p).trans ((h'.pipes (h.fresh hf) p).mono h.mbufs)
  mbufs := h.mbufs.trans h'.mbufs
  curPipe := h'.curPipe.trans h.curPipe
  curMbuf := h'.curMbuf.trans h.curMbuf
  curLength := h'.curLength.trans h.curLength
  curTxNr := h'.curTxNr.trans h.curTxNr
  ntMode := h'.ntMode.trans h.ntMode
  pointToPoint := h'.pointToPoint.trans h.pointToPoint
  multi := fun p hp => h.multi p (h'.multi p hp)
  adapter := fun hb hp => h'.adapter (h.bus.mpr hb) (h.adapter hb hp)
  teis := fun ht => h'.teis (h.teis ht)

namespace Quiet

theorem refl (sc : Softc) : Quiet sc sc := ⟨Follows.refl sc, fun _ _ => rfl⟩

theorem trans {sc sc' sc'' : Softc} (h : Quiet sc sc') (h' : Quiet sc' sc'') : Quiet sc sc'' where
  toFollows := h.toFollows.trans h'.toFollows
  tei := fun hb p => (h'.tei (h.bus.mpr hb) p).trans (h.tei hb p)

/-- Only fields other than the pipes and the cursor changed. -/
theorem of_pipe_eq {sc sc' : Softc} (hpipe : sc'.pipe = sc.pipe) (hcur : sc'.curPipe = sc.curPipe)
    (hmbuf : sc'.curMbuf = sc.curMbuf) (hlen : sc'.curLength = sc.curLength)
    (hnr : sc'.curTxNr = sc.curTxNr) (hnt : sc'.ntMode = sc.ntMode)
    (hptp : sc'.pointToPoint = sc.pointToPoint) (hmbufs : sc.mbufs ≤ sc'.mbufs) :
    Quiet sc sc' := by
  have htei : sc.Bus → ∀ p, (sc'.pipe p).tei = (sc.pipe p).tei := by
    intro _ p
    rw [hpipe]
  refine ⟨⟨?_, ?_, hmbufs, hcur, hmbuf, hlen, hnr, hnt, hptp, ?_, ?_, ?_⟩, htei⟩
  · intro hf p m hm
    rw [hpipe] at hm
    exact lt_of_lt_of_le (hf p m hm) hmbufs
  · intro _ p
    rw [hpipe]
  · intro p hp
    rwa [hpipe] at hp
  · intro _ hp
    rwa [hpipe]
  · intro hteis
    refine hteis.of_eq ?_ htei
    rw [Bus, Bus, hnt, hptp]
    exact id

/-- A change to one pipe. -/
theorem modify {sc : Softc} {p : PipeNo} {f : Pipe → Pipe}
    (hsteps : sc.Fresh → Pipe.Steps sc.mbufs (sc.pipe p) (f (sc.pipe p)))
    (hid : sc.Fresh → ∀ m ∈ (f (sc.pipe p)).queue, m.id < sc.mbufs)
    (hmulti : (f (sc.pipe p)).state = .multiFrame → (sc.pipe p).state = .multiFrame)
    (htei : sc.Bus → (f (sc.pipe p)).tei = (sc.pipe p).tei)
    (hassigned : sc.Bus → p = L2.adapter → ¬ (sc.pipe p).state.isTeiAssigned →
      ¬ (f (sc.pipe p)).state.isTeiAssigned) : Quiet sc (sc.modify p f) := by
  have hteis : sc.Bus → ∀ q, ((sc.modify p f).pipe q).tei = (sc.pipe q).tei := by
    intro hb q
    by_cases hq : q = p
    · subst hq
      rw [modify_pipe_self]
      exact htei hb
    · rw [modify_pipe_of_ne _ _ hq]
  refine ⟨⟨?_, ?_, Nat.le_refl _, rfl, rfl, rfl, rfl, rfl, rfl, ?_, ?_, fun h => h.of_eq id hteis⟩,
    hteis⟩
  · intro hf q m hm
    by_cases hq : q = p
    · subst hq
      rw [modify_pipe_self] at hm
      exact hid hf m hm
    · rw [modify_pipe_of_ne _ _ hq] at hm
      exact hf q m hm
  · intro hf q
    by_cases hq : q = p
    · subst hq
      rw [modify_pipe_self]
      exact hsteps hf
    · rw [modify_pipe_of_ne _ _ hq]
  · intro q hm
    by_cases hq : q = p
    · subst hq
      rw [modify_pipe_self] at hm
      exact hmulti hm
    · rwa [modify_pipe_of_ne _ _ hq] at hm
  · intro hb ha
    by_cases hq : L2.adapter = p
    · subst hq
      rw [modify_pipe_self]
      exact hassigned hb rfl ha
    · rwa [modify_pipe_of_ne _ _ hq]

/-- A change to one pipe that leaves its queue and its window alone. -/
theorem modify_other {sc : Softc} {p : PipeNo} {f : Pipe → Pipe}
    (hqueue : (f (sc.pipe p)).queue = (sc.pipe p).queue)
    (hsize : (f (sc.pipe p)).txWindowSize = (sc.pipe p).txWindowSize)
    (hlen : (f (sc.pipe p)).txWindowLength = (sc.pipe p).txWindowLength)
    (hnr : (f (sc.pipe p)).txNr = (sc.pipe p).txNr)
    (hopen : (f (sc.pipe p)).openNr = (sc.pipe p).openNr)
    (hpauses : (f (sc.pipe p)).pauses = (sc.pipe p).pauses)
    (hacks : (f (sc.pipe p)).acks = (sc.pipe p).acks)
    (hmulti : (f (sc.pipe p)).state = .multiFrame → (sc.pipe p).state = .multiFrame)
    (htei : sc.Bus → (f (sc.pipe p)).tei = (sc.pipe p).tei)
    (hassigned : sc.Bus → p = L2.adapter → ¬ (sc.pipe p).state.isTeiAssigned →
      ¬ (f (sc.pipe p)).state.isTeiAssigned) : Quiet sc (sc.modify p f) := by
  refine modify (fun _ => Pipe.Steps.other hqueue hsize hlen hnr hopen hpauses hacks) ?_ hmulti htei
    hassigned
  intro hf m hm
  rw [hqueue] at hm
  exact hf p m hm

/-- Requests in a row. -/
theorem foldl {α : Type} {f : Softc → α → Softc} (hf : ∀ sc a, Quiet sc (f sc a)) (sc : Softc)
    (as : List α) : Quiet sc (as.foldl f sc) := by
  induction as generalizing sc with
  | nil => exact refl sc
  | cons a as ih => exact (hf sc a).trans (ih (f sc a))

end Quiet

/-! ## Requests and control frames

Requests of layer 3 and what the timers do send control frames, and these go to a queue of their own, so
that no window is opened and no number is looked at.
-/

theorem getmbuf_quiet (env : Env) (sc : Softc) : Quiet sc (sc.getmbuf env).2 :=
  .of_pipe_eq rfl rfl rfl rfl rfl rfl rfl (Nat.le_succ _)

theorem dss1L2DataReq_quiet (sc : Softc) (frame : List UInt8) :
    Quiet sc (sc.dss1L2DataReq frame) := by
  rw [dss1L2DataReq]
  split
  · exact .refl sc
  · exact .of_pipe_eq rfl rfl rfl rfl rfl rfl rfl (Nat.le_refl _)

theorem dss1PipeDataReq_quiet (sc : Softc) (p : PipeNo) (body : List UInt8) :
    Quiet sc (sc.dss1PipeDataReq p body) := by
  have hcount : Quiet sc { sc with mbufs := sc.mbufs + 1 } :=
    .of_pipe_eq rfl rfl rfl rfl rfl rfl rfl (Nat.le_succ _)
  simp only [dss1PipeDataReq]
  split
  · exact hcount
  · have htei : ∀ q, (({ sc with mbufs := sc.mbufs + 1 }.modify p (Pipe.enqueue
        ⟨sc.mbufs, iHeaderLen + body.length, false, body⟩)).pipe q).tei = (sc.pipe q).tei := by
      intro q
      by_cases hq : q = p
      · subst hq
        rw [modify_pipe_self]
        rfl
      · rw [modify_pipe_of_ne _ _ hq]
    refine ⟨⟨?_, ?_, Nat.le_succ _, rfl, rfl, rfl, rfl, rfl, rfl, ?_, ?_,
      fun h => h.of_eq id (fun _ => htei)⟩, fun _ => htei⟩
    · intro hf q m hm
      by_cases hq : q = p
      · subst hq
        rw [modify_pipe_self, Pipe.enqueue, List.mem_append, List.mem_singleton] at hm
        rcases hm with hm | rfl
        · exact Nat.lt_succ_of_lt (hf q m hm)
        · exact Nat.lt_succ_self _
      · rw [modify_pipe_of_ne _ _ hq] at hm
        exact Nat.lt_succ_of_lt (hf q m hm)
    · intro hf q
      by_cases hq : q = p
      · subst hq
        rw [modify_pipe_self]
        refine .single (.enqueue _ _ (Nat.le_refl _) ?_)
        intro m hm
        exact Nat.ne_of_lt (hf q m hm)
      · rw [modify_pipe_of_ne _ _ hq]
    · intro q hm
      by_cases hq : q = p
      · subst hq
        rwa [modify_pipe_self] at hm
      · rwa [modify_pipe_of_ne _ _ hq] at hm
    · intro _ ha
      by_cases hq : L2.adapter = p
      · subst hq
        rwa [modify_pipe_self]
      · rwa [modify_pipe_of_ne _ _ hq]

theorem request_quiet (sc : Softc) (r : Request) : Quiet sc (sc.request r) := by
  cases r with
  | dataReq p body => exact dss1PipeDataReq_quiet sc p body
  | dataAcknowledge p cr =>
    refine .modify (fun _ => .single (.acknowledge _ cr)) ?_ id (fun _ => rfl) (fun _ _ => id)
    intro hf m hm
    rw [Pipe.acknowledge, List.mem_map] at hm
    obtain ⟨m', hm', rfl⟩ := hm
    have hid : (Pipe.acknowledgeMbuf cr m').id = m'.id := by
      rw [Pipe.acknowledgeMbuf]
      split <;> rfl
    rw [hid]
    exact hf p m' hm'
  | ref p =>
    rw [request]
    exact .modify_other rfl rfl rfl rfl rfl rfl rfl id (fun _ => rfl) (fun _ _ => id)
  | unref p =>
    rw [request]
    exact .modify_other rfl rfl rfl rfl rfl rfl rfl id (fun _ => rfl) (fun _ _ => id)

theorem dss1PipeResendInd_quiet (env : Env) (sc : Softc) : Quiet sc (sc.dss1PipeResendInd env) := by
  have hcount : Quiet sc { sc with upcalls := sc.upcalls + 1 } :=
    .of_pipe_eq rfl rfl rfl rfl rfl rfl rfl (Nat.le_refl _)
  exact hcount.trans (.foldl request_quiet _ _)

theorem dss1CntlTxFrame_quiet (env : Env) (sc : Softc) (p : PipeNo) (response : Bool)
    (cntl : Nat) : Quiet sc (sc.dss1CntlTxFrame env p response cntl) := by
  rw [dss1CntlTxFrame]
  split
  · simp only
    split
    · exact getmbuf_quiet env sc
    · exact (getmbuf_quiet env sc).trans (dss1L2DataReq_quiet _ _)
  · exact .refl sc

/-- A TEI management frame; in TE mode a request gives the TEI up. -/
theorem dss1TeiTxFrame_quiet (env : Env) (sc : Softc) (p : PipeNo) (type : Nat)
    (h : sc.Bus → type ≠ mtIdRequest) : Quiet sc (sc.dss1TeiTxFrame env p type) := by
  rw [dss1TeiTxFrame]
  split
  · exact .refl sc
  · have hstart : Quiet sc (if type = mtIdRequest then
        sc.modify p fun q => { q with tei := teiBroadcast } else sc) := by
      split
      next ht =>
        exact .modify_other rfl rfl rfl rfl rfl rfl rfl id (fun hb => absurd ht (h hb)) (fun _ _ => id)
      next => exact .refl sc
    simp only
    split
    · exact hstart.trans (getmbuf_quiet env _)
    · exact (hstart.trans (getmbuf_quiet env _)).trans (dss1L2DataReq_quiet _ _)

/-! ## Pipe states

`dss1_pipe_set_state` is called from nearly everywhere.  It sends the frame that belongs to the new state,
starts or stops the timers, and may tell layer 3; what it does to the queue and the window of the pipe is
in `Pipe.Steps`.
-/

/-- The state of a pipe is set, to one that is not `ST_L2_MULTI_FRAME` and gives the adapter of a bus
no TEI. -/
theorem modify_state_quiet (sc : Softc) (p : PipeNo) (new : State) {f : Pipe → Pipe}
    (hf : ∀ q, f q = { q with
      state := new, setStateCallout := (f q).setStateCallout, tei := (f q).tei })
    (hnew : new ≠ .multiFrame) (htei : sc.Bus → (f (sc.pipe p)).tei = (sc.pipe p).tei)
    (hbus : sc.Bus → p = L2.adapter → ¬ new.isTeiAssigned) : Quiet sc (sc.modify p f) := by
  have hp := hf (sc.pipe p)
  refine .modify_other (by rw [hp]) (by rw [hp]) (by rw [hp]) (by rw [hp]) (by rw [hp]) (by rw [hp])
    (by rw [hp]) ?_ htei ?_
  · intro hm
    rw [hp] at hm
    exact absurd hm hnew
  · intro hb ha _
    rw [hp]
    exact hbus hb ha

theorem enterSingleFrame_quiet (env : Env) (sc : Softc) (p : PipeNo) :
    Quiet sc (sc.enterSingleFrame env p) := by
  rw [enterSingleFrame]
  split
  · split
    · exact .refl sc
    · have hdisc : Quiet sc (if sc.ntMode ∧ ¬ sc.pointToPoint ∧ p ≠ L2.adapter then
          (sc.dss1CntlTxFrame env p false (cntlDisc ||| cntlPfBit)).dss1CntlTxFrame env p false
            (cntlDisc ||| cntlPfBit) else sc) := by
        split
        · exact (dss1CntlTxFrame_quiet env sc p _ _).trans (dss1CntlTxFrame_quiet env _ p _ _)
        · exact .refl sc
      refine hdisc.trans (modify_state_quiet _ p .pause (fun _ => rfl) (by decide) (fun _ => rfl) ?_)
      intro _ _
      decide
  · exact .refl sc

theorem enterSendTei_quiet (env : Env) (sc : Softc) (p : PipeNo) :
    Quiet sc (sc.enterSendTei env p).1 := by
  simp only [enterSendTei, apply_ite Prod.fst]
  split
  · split
    next hptp =>
      refine modify_state_quiet sc p .sendSabme (fun _ => rfl) (by decide) (fun _ => rfl) ?_
      intro hb
      exact absurd (hptp.symm.trans hb.2) (by decide)
    next =>
      split
      · split
        · exact dss1PipeResendInd_quiet env sc
        next hp =>
          refine modify_state_quiet sc p .sendSabme (fun _ => rfl) (by decide) (fun _ => rfl) ?_
          intro _ ha
          exact absurd ha hp
      next hnt =>
        split
        · refine dss1TeiTxFrame_quiet env sc p _ ?_
          intro hb
          exact absurd hb.1 hnt
        · refine modify_state_quiet sc p .sendSabme (fun _ => rfl) (by decide) ?_ ?_
          · intro hb
            exact absurd hb.1 hnt
          · intro hb
            exact absurd hb.1 hnt
  · refine modify_state_quiet sc p .pause (fun _ => rfl) (by decide) (fun _ => rfl) ?_
    intro _ _
    decide

theorem enterPause_quiet {resetInd : Softc → Softc} (hreset : ∀ sc, Quiet sc (resetInd sc))
    (sc : Softc) (p : PipeNo) : Quiet sc (sc.enterPause resetInd p) := by
  refine (hreset sc).trans (.modify (fun _ => .single (.clear _)) ?_ id (fun _ => rfl) (fun _ _ => id))
  intro _ m hm
  exact absurd hm (List.not_mem_nil)

theorem restartTimeout_quiet (sc : Softc) (p : PipeNo) : Quiet sc (sc.restartTimeout p) := by
  rw [restartTimeout]
  split
  · exact .modify_other rfl rfl rfl rfl rfl rfl rfl id (fun _ => rfl) (fun _ _ => id)
  · exact .refl sc

theorem enterSabmeOrPause_quiet (env : Env) {resetInd : Softc → Softc}
    (hreset : ∀ sc, Quiet sc (resetInd sc)) (sc : Softc) (p : PipeNo) :
    Quiet sc (sc.enterSabmeOrPause env resetInd p) := by
  rw [enterSabmeOrPause]
  split
  · split
    · exact dss1CntlTxFrame_quiet env sc p _ _
    · exact .refl sc
  · split
    · exact enterPause_quiet hreset sc p
    · exact .refl sc

theorem enterState_quiet (env : Env) {resetInd : Softc → Softc}
    (hreset : ∀ sc, Quiet sc (resetInd sc)) (sc : Softc) (p : PipeNo) :
    Quiet sc (sc.enterState env resetInd p) := by
  simp only [enterState]
  have hsingle : Quiet sc
      (if (sc.pipe p).state = .singleFrame then sc.enterSingleFrame env p else sc) := by
    split
    · exact enterSingleFrame_quiet env sc p
    · exact .refl sc
  refine hsingle.trans ?_
  generalize (if (sc.pipe p).state = .singleFrame then sc.enterSingleFrame env p else sc) = sc
  have htei : Quiet sc
      (if (sc.pipe p).state = .sendTei then sc.enterSendTei env p else (sc, false)).1 := by
    split
    · exact enterSendTei_quiet env sc p
    · exact .refl sc
  refine htei.trans ?_
  generalize (if (sc.pipe p).state = .sendTei then sc.enterSendTei env p else (sc, false)) = r
  have hlast : Quiet r.1 (if r.2 then r.1 else r.1.enterSabmeOrPause env resetInd p) := by
    split
    · exact .refl _
    · exact enterSabmeOrPause_quiet env hreset r.1 p
  exact hlast.trans (restartTimeout_quiet _ p)

/-- **Setting a pipe's state is quiet**, but for `ST_L2_MULTI_FRAME` and, on a bus, for
`ST_L2_SEND_SABME`: the adapter has no TEI. -/
theorem pipeSetState_quiet (env : Env) {resetInd : Softc → Softc}
    (hreset : ∀ sc, Quiet sc (resetInd sc)) (sc : Softc) (p : PipeNo) {new : State}
    (hnew : new ≠ .multiFrame) (hsabme : sc.Bus → p = L2.adapter → new ≠ .sendSabme) :
    Quiet sc (sc.pipeSetState env resetInd p new) := by
  rw [pipeSetState]
  split
  · exact .refl sc
  next hguard =>
    -- on a bus the guard keeps the adapter out of every state with a TEI
    have hbus : sc.Bus → p = L2.adapter → ¬ (sc.pipe p).state.isTeiAssigned →
        ¬ new.isTeiAssigned := by
      intro hb ha hstate hass
      have hne := hsabme hb ha
      apply hguard
      refine ⟨Nat.not_lt.mp hstate, ?_⟩
      cases new <;> simp_all [State.isTeiAssigned, State.num]
    have hset : Quiet sc (sc.modify p fun q => { q with state := new, setStateCallout := false }) :=
      .modify_other rfl rfl rfl rfl rfl rfl rfl (fun hm => absurd hm hnew) (fun _ => rfl) hbus
    exact hset.trans (enterState_quiet env hreset _ p)

theorem dss1PipeActivateReq_quiet (env : Env) (sc : Softc) (p : PipeNo) :
    Quiet sc (sc.dss1PipeActivateReq env p) := by
  rw [dss1PipeActivateReq]
  split
  · refine (request_quiet sc (.ref p)).trans (Quiet.trans ?_ (request_quiet _ (.unref p)))
    exact pipeSetState_quiet env (dss1PipeResendInd_quiet env) _ p (by decide) (fun _ _ => by decide)
  · exact .refl sc

theorem down_quiet (env : Env) (sc : Softc) (d : Down) : Quiet sc (sc.down env d) := by
  cases d with
  | request r => exact request_quiet sc r
  | activate p => exact dss1PipeActivateReq_quiet env sc p

theorem indicate_quiet (env : Env) (sc : Softc) : Quiet sc (sc.indicate env) := by
  have hcount : Quiet sc { sc with upcalls := sc.upcalls + 1 } :=
    .of_pipe_eq rfl rfl rfl rfl rfl rfl rfl (Nat.le_refl _)
  exact hcount.trans (.foldl (down_quiet env) _ _)

theorem dss1PipeSetState_quiet (env : Env) (sc : Softc) (p : PipeNo) {new : State}
    (hnew : new ≠ .multiFrame) (hsabme : sc.Bus → p = L2.adapter → new ≠ .sendSabme) :
    Quiet sc (sc.dss1PipeSetState env p new) :=
  pipeSetState_quiet env (indicate_quiet env) sc p hnew hsabme

theorem dss1PipeSetStateTimeout_quiet (env : Env) (sc : Softc) (p : PipeNo) :
    Quiet sc (sc.dss1PipeSetStateTimeout env p) := by
  rw [dss1PipeSetStateTimeout]
  split
  · refine dss1PipeSetState_quiet env sc p ?_ ?_
    · cases (sc.pipe p).state <;> decide
    · intro _ _
      cases (sc.pipe p).state <;> decide
  · exact .refl sc

/-! ## A number from the peer

After `check_NR` took the number in, the pipe may get into another state, and layer 3 may be told.
-/

theorem fresh_modify_retransmitAll {sc : Softc} {p : PipeNo} :
    (sc.modify p Pipe.retransmitAll).Fresh ↔ sc.Fresh := by
  have hqueue : ∀ q, ((sc.modify p Pipe.retransmitAll).pipe q).queue = (sc.pipe q).queue := by
    intro q
    by_cases hq : q = p
    · subst hq
      rw [modify_pipe_self]
      rfl
    · rw [modify_pipe_of_ne _ _ hq]
  simp only [Fresh, hqueue]
  rfl

/-- A pipe whose frames are all to be sent again may be made so before or after a quiet event. -/
theorem Quiet.modify_retransmitAll {sc sc' : Softc} (h : Quiet sc sc') (p : PipeNo) :
    Quiet (sc.modify p Pipe.retransmitAll) (sc'.modify p Pipe.retransmitAll) := by
  have hsame : ∀ (sc : Softc) q, ((sc.modify p Pipe.retransmitAll).pipe q).tei = (sc.pipe q).tei := by
    intro sc q
    by_cases hq : q = p
    · subst hq
      rw [modify_pipe_self]
      rfl
    · rw [modify_pipe_of_ne _ _ hq]
  refine ⟨⟨?_, ?_, h.mbufs, h.curPipe, h.curMbuf, h.curLength, h.curTxNr, h.ntMode, h.pointToPoint, ?_, ?_,
    ?_⟩, ?_⟩
  · rw [fresh_modify_retransmitAll, fresh_modify_retransmitAll]
    exact h.fresh
  · rw [fresh_modify_retransmitAll]
    intro hf q
    by_cases hq : q = p
    · subst hq
      rw [modify_pipe_self, modify_pipe_self]
      exact (h.pipes hf q).retransmitAll
    · rw [modify_pipe_of_ne _ _ hq, modify_pipe_of_ne _ _ hq]
      exact h.pipes hf q
  · intro q
    by_cases hq : q = p
    · subst hq
      rw [modify_pipe_self, modify_pipe_self]
      exact h.multi q
    · rw [modify_pipe_of_ne _ _ hq, modify_pipe_of_ne _ _ hq]
      exact h.multi q
  · intro hb
    by_cases hq : L2.adapter = p
    · subst hq
      rw [modify_pipe_self, modify_pipe_self]
      exact h.adapter hb
    · rw [modify_pipe_of_ne _ _ hq, modify_pipe_of_ne _ _ hq]
      exact h.adapter hb
  · intro hteis
    have hteis' : sc.TeisOk := hteis.of_eq id fun _ q => (hsame sc q).symm
    exact (h.teis hteis').of_eq id fun _ q => hsame sc' q
  · intro hb q
    rw [hsame, hsame]
    exact h.tei hb q

/-- Setting `ST_L2_MULTI_FRAME` concerns nothing but the state and its timer. -/
theorem dss1PipeSetState_multiFrame (env : Env) (sc : Softc) (p : PipeNo) :
    sc.dss1PipeSetState env p .multiFrame =
      if (sc.pipe p).state.num ≤ State.sendTei.num then sc
      else sc.modify p fun q => { q with state := .multiFrame, setStateCallout := true } := by
  have hnum : State.sendTei.num + 2 ≤ State.multiFrame.num := by decide
  rw [dss1PipeSetState, pipeSetState]
  by_cases hguard : (sc.pipe p).state.num ≤ State.sendTei.num
  · rw [if_pos ⟨hguard, hnum⟩, if_pos hguard]
  · rw [if_neg (fun h => hguard h.1), if_neg hguard]
    simp [enterState, enterSabmeOrPause, restartTimeout, modify_modify]

/-- **After a number from the peer** the pipe has taken it in, and all else is quiet. -/
theorem checkNr_quiet (env : Env) (sc : Softc) (p : PipeNo) (nr : Nat) :
    Quiet (sc.modify p (Pipe.receiveNr nr)) (sc.checkNr env p nr) := by
  simp only [checkNr]
  split
  next hd =>
    have heq : sc.modify p (Pipe.receiveNr nr) = sc.modify p fun q => { q with txNr := nr } := by
      simp only [modify, Pipe.receiveNr, if_pos hd]
    rw [heq]
    exact .refl _
  next hd =>
    split
    next hlt =>
      rw [dss1PipeSetState, pipeSetState]
      split
      next hguard =>
        have heq : sc.modify p (Pipe.receiveNr nr)
            = (sc.modify p fun q => { q with txNr := nr }).modify p Pipe.retransmitAll := by
          rw [modify_pipe_self] at hguard
          rw [modify_modify]
          simp only [modify, Pipe.receiveNr, if_neg hd, if_pos hlt, if_pos hguard.1,
            Pipe.retransmitAll]
        rw [heq]
        exact .refl _
      next hguard =>
        have hstate : ¬ (sc.pipe p).state.num ≤ State.sendTei.num := by
          intro hle
          rw [modify_pipe_self] at hguard
          exact hguard ⟨hle, by decide⟩
        rw [modify_modify]
        refine Quiet.trans ?_ ((enterState_quiet env (indicate_quiet env) _ p).modify_retransmitAll p)
        rw [modify_modify]
        have heq : sc.modify p (fun q => Pipe.retransmitAll
            { q with txNr := nr, state := .singleFrame, setStateCallout := false })
            = (sc.modify p (Pipe.receiveNr nr)).modify p
              fun q => { q with setStateCallout := false } := by
          rw [modify_modify]
          simp only [modify, Pipe.receiveNr, if_neg hd, if_pos hlt, if_neg hstate,
            Pipe.retransmitAll]
        rw [heq]
        exact .modify_other rfl rfl rfl rfl rfl rfl rfl id (fun _ => rfl) (fun _ _ => id)
    next hlt =>
      rw [dss1PipeSetState_multiFrame]
      split
      next hguard =>
        rw [modify_pipe_self] at hguard
        have heq : sc.modify p (Pipe.receiveNr nr)
            = (sc.modify p fun q => { q with txNr := nr }).modify p
              (Pipe.advance ((sc.pipe p).nrDifference nr)) := by
          rw [modify_modify]
          simp only [modify, Pipe.receiveNr, if_neg hd, if_neg hlt, if_pos hguard, Pipe.advance]
        rw [heq]
        exact .refl _
      next hguard =>
        rw [modify_pipe_self] at hguard
        rw [modify_modify, modify_modify]
        have heq : sc.modify p (fun q => Pipe.advance ((sc.pipe p).nrDifference nr)
            { q with txNr := nr, state := .multiFrame, setStateCallout := true })
            = (sc.modify p (Pipe.receiveNr nr)).modify p
              fun q => { q with setStateCallout := true } := by
          rw [modify_modify]
          simp only [modify, Pipe.receiveNr, if_neg hd, if_neg hlt, if_neg hguard, Pipe.advance]
        rw [heq]
        exact .modify_other rfl rfl rfl rfl rfl rfl rfl id (fun _ => rfl) (fun _ _ => id)

/-! ## TEI management

A TEI is given to a pipe, taken from it, or looked for; the frames for that are unnumbered.  On a bus it
matters which TEI it is, as a frame for one pipe must not be taken for one for another.
-/

/-- A change to the TEI or the serial number of a pipe; a new TEI on a bus is one no pipe has. -/
theorem Follows.modify_tei {sc : Softc} {p : PipeNo} {f : Pipe → Pipe}
    (hf : ∀ q, f q = { q with tei := (f q).tei, serialNumber := (f q).serialNumber })
    (hnew : sc.Bus → (f (sc.pipe p)).tei = (sc.pipe p).tei ∨
      (p ≠ L2.adapter ∧ ∀ q, (sc.pipe q).tei ≠ (f (sc.pipe p)).tei)) :
    Follows sc (sc.modify p f) := by
  have hp := hf (sc.pipe p)
  have hstate : ∀ q, ((sc.modify p f).pipe q).state = (sc.pipe q).state := by
    intro q
    by_cases hq : q = p
    · subst hq
      rw [modify_pipe_self, hp]
    · rw [modify_pipe_of_ne _ _ hq]
  refine ⟨?_, ?_, Nat.le_refl _, rfl, rfl, rfl, rfl, rfl, rfl, ?_, ?_, ?_⟩
  · intro hfr q m hm
    by_cases hq : q = p
    · subst hq
      rw [modify_pipe_self, hp] at hm
      exact hfr q m hm
    · rw [modify_pipe_of_ne _ _ hq] at hm
      exact hfr q m hm
  · intro _ q
    by_cases hq : q = p
    · subst hq
      rw [modify_pipe_self]
      exact .other (by rw [hp]) (by rw [hp]) (by rw [hp]) (by rw [hp]) (by rw [hp]) (by rw [hp])
        (by rw [hp])
    · rw [modify_pipe_of_ne _ _ hq]
  · intro q hm
    rwa [hstate] at hm
  · intro _ ha
    rwa [hstate]
  · intro hteis hb
    obtain hsame | ⟨hp, hne⟩ := hnew hb
    · have hall : ∀ q, ((sc.modify p f).pipe q).tei = (sc.pipe q).tei := by
        intro q
        by_cases hq : q = p
        · subst hq
          rw [modify_pipe_self, hsame]
        · rw [modify_pipe_of_ne _ _ hq]
      exact hteis.of_eq id (fun _ => hall) hb
    · refine ⟨?_, ?_⟩
      · rw [modify_pipe_of_ne _ _ hp.symm]
        exact (hteis hb).1
      · intro q r hq hr hqr
        by_cases hqp : q = p
        · subst hqp
          rw [modify_pipe_self, modify_pipe_of_ne _ _ hqr.symm]
          intro heq
          exact absurd heq.symm (hne r)
        · by_cases hrp : r = p
          · subst hrp
            rw [modify_pipe_self, modify_pipe_of_ne _ _ hqp]
            intro heq
            exact absurd heq (hne q)
          · rw [modify_pipe_of_ne _ _ hqp, modify_pipe_of_ne _ _ hrp]
            exact (hteis hb).2 q r hq hr hqr

theorem dss1GetUnusedTei_quiet {fuel : Nat} {sc sc' : Softc}
    (h : dss1GetUnusedTei fuel sc = some sc') : Quiet sc sc' := by
  induction fuel generalizing sc with
  | zero => exact absurd h (by simp [dss1GetUnusedTei])
  | succ fuel ih =>
    have hset : Quiet sc { sc with teiLast := nextTei sc.teiLast } :=
      .of_pipe_eq rfl rfl rfl rfl rfl rfl rfl (Nat.le_refl _)
    simp only [dss1GetUnusedTei] at h
    split at h
    · exact hset.trans (ih h)
    · obtain rfl := Option.some.inj h
      exact hset

/-- The value found is held by no pipe. -/
theorem dss1GetUnusedTei_ne {fuel : Nat} {sc sc' : Softc}
    (h : dss1GetUnusedTei fuel sc = some sc') (p : PipeNo) : (sc'.pipe p).tei ≠ sc'.teiLast := by
  induction fuel generalizing sc with
  | zero => exact absurd h (by simp [dss1GetUnusedTei])
  | succ fuel ih =>
    simp only [dss1GetUnusedTei] at h
    split at h
    · exact ih h
    next hnone =>
      obtain rfl := Option.some.inj h
      exact fun heq => hnone ⟨p, heq⟩

theorem ne_adapter_of_dss1GetUnusedPipe {sc : Softc} {p : PipeNo}
    (h : sc.dss1GetUnusedPipe = some p) : p ≠ L2.adapter := by
  have hp := List.find?_some h
  exact (of_decide_eq_true hp).2

/-- The frames that announce a TEI, and the activation of its pipe. -/
theorem announceTei_quiet (env : Env) (sc : Softc) (p : PipeNo) :
    Quiet sc ((((sc.dss1TeiTxFrame env p mtIdRemove).dss1TeiTxFrame env p mtIdRemove).dss1TeiTxFrame
      env p mtIdAssign).dss1PipeActivateReq env p) := by
  have hremove : ∀ sc : Softc, Quiet sc (sc.dss1TeiTxFrame env p mtIdRemove) :=
    fun sc => dss1TeiTxFrame_quiet env sc p _ (fun _ => by decide)
  have hassign : ∀ sc : Softc, Quiet sc (sc.dss1TeiTxFrame env p mtIdAssign) :=
    fun sc => dss1TeiTxFrame_quiet env sc p _ (fun _ => by decide)
  exact (((hremove _).trans (hremove _)).trans (hassign _)).trans
    (dss1PipeActivateReq_quiet env _ p)

theorem assignTei_follows {env : Env} {sc sc' : Softc} {p : PipeNo} {ri : Nat} (hp : p ≠ L2.adapter)
    (h : sc.assignTei env p ri = some sc') : Follows sc sc' := by
  rw [assignTei, Option.map_eq_some_iff] at h
  obtain ⟨sc1, h1, rfl⟩ := h
  have hserial : Follows sc (sc.modify p fun q => { q with serialNumber := ri }) :=
    .modify_tei (fun _ => rfl) (fun _ => .inl rfl)
  have htei : Follows sc1 (sc1.modify p fun q => { q with tei := sc1.teiLast }) :=
    .modify_tei (fun _ => rfl) (fun _ => .inr ⟨hp, dss1GetUnusedTei_ne h1⟩)
  exact ((hserial.trans (dss1GetUnusedTei_quiet h1).toFollows).trans htei).trans
    (announceTei_quiet env _ p).toFollows

theorem idRequest_follows {env : Env} {sc sc' : Softc} {ri : Nat}
    (h : sc.idRequest env ri = some sc') : Follows sc sc' := by
  rw [idRequest] at h
  split at h
  · obtain rfl := Option.some.inj h
    exact .refl sc
  · have hset : Quiet sc
        (if sc.dss1CountUnusedPipes ≤ 16 / 2 then { sc with idRequestCallout := true } else sc) := by
      split
      · exact .of_pipe_eq rfl rfl rfl rfl rfl rfl rfl (Nat.le_refl _)
      · exact .refl sc
    simp only at h
    split at h
    · obtain rfl := Option.some.inj h
      exact hset.toFollows
    next p hp =>
      exact hset.toFollows.trans (assignTei_follows (ne_adapter_of_dss1GetUnusedPipe hp) h)

theorem idAssign_follows (env : Env) (sc : Softc) (ai ri : Nat) (hnt : sc.ntMode = false) :
    Follows sc (sc.idAssign env ai ri) := by
  have hfirst : Quiet sc
      (if (sc.pipe L2.adapter).tei = ai then sc.dss1PipeSetState env L2.adapter .pause else sc) := by
    split
    · exact dss1PipeSetState_quiet env sc _ (by decide) (fun _ _ => by decide)
    · exact .refl sc
  simp only [idAssign]
  refine hfirst.toFollows.trans ?_
  have hnt' := hfirst.ntMode.trans hnt
  generalize (if (sc.pipe L2.adapter).tei = ai then sc.dss1PipeSetState env L2.adapter .pause
    else sc) = sc at hnt' ⊢
  split
  · have hbus : ¬ sc.Bus := fun hb => absurd (hnt'.symm.trans hb.1) (by decide)
    have htei : Follows sc (sc.modify L2.adapter fun q => { q with tei := ai }) :=
      .modify_tei (fun _ => rfl) (fun hb => absurd hb hbus)
    refine htei.trans (dss1PipeSetState_quiet env _ _ (by decide) ?_).toFollows
    intro hb
    exact absurd hb hbus
  · exact .refl sc

theorem dss1TeiRxFrame_follows {env : Env} {sc sc' : Softc} {buf : List UInt8}
    (h : sc.dss1TeiRxFrame env buf = some sc') : Follows sc sc' := by
  simp only [dss1TeiRxFrame] at h
  split at h
  · obtain rfl := Option.some.inj h
    exact .refl sc
  · split at h
    · obtain rfl := Option.some.inj h
      split
      · exact .refl sc
      next hnt => exact idAssign_follows env sc _ _ (by simpa using hnt)
    · split at h
      · have hact : Quiet sc (if sc.ntMode = false ∧ (sc.pipe L2.adapter).serialNumber < 0x80 then
            sc.dss1PipeActivateReq env L2.adapter else sc) := by
          split
          · exact dss1PipeActivateReq_quiet env sc _
          · exact .refl sc
        generalize (if sc.ntMode = false ∧ (sc.pipe L2.adapter).serialNumber < 0x80 then
          sc.dss1PipeActivateReq env L2.adapter else sc) = sc1 at hact h
        split at h
        · obtain rfl := Option.some.inj h
          exact (hact.trans (dss1TeiTxFrame_quiet env _ _ _ (fun _ => by decide))).toFollows
        · obtain rfl := Option.some.inj h
          exact hact.toFollows
      · split at h
        · split at h
          · obtain rfl := Option.some.inj h
            exact (dss1PipeSetState_quiet env sc _ (by decide) (fun _ _ => by decide)).toFollows
          · obtain rfl := Option.some.inj h
            exact .refl sc
        · split at h
          · split at h
            · exact idRequest_follows h
            · obtain rfl := Option.some.inj h
              exact .refl sc
          · obtain rfl := Option.some.inj h
            exact .refl sc

/-! ## Frames from layer 1

`dss1_l2_put_mbuf` looks at the address of a frame, and then at its kind.  What is done before the label
`check_NR` brings the pipe no number, and neither does what follows it.
-/

theorem pipeOfTei_follows (sc : Softc) (tei : Nat) : Follows sc (sc.pipeOfTei tei).1 := by
  rw [pipeOfTei]
  split
  · exact .refl sc
  next hnone =>
    split
    next p hp =>
      refine Follows.modify_tei (p := p) (f := fun q => { q with tei := tei }) (fun _ => rfl) ?_
      intro _
      refine .inr ⟨ne_adapter_of_dss1GetUnusedPipe hp, ?_⟩
      intro q
      simpa using List.find?_eq_none.mp hnone q (List.mem_finRange q)
    next => exact .refl sc

theorem lookupPipe_follows (env : Env) (sc : Softc) (tei cntl : Nat) :
    Follows sc (sc.lookupPipe env tei cntl).1 := by
  simp only [lookupPipe]
  split
  · exact .refl sc
  · split
    · split
      · exact .refl sc
      · exact (dss1PipeActivateReq_quiet env sc _).toFollows
    · split
      · split
        · exact .refl sc
        · exact .refl sc
      · split
        · exact pipeOfTei_follows sc tei
        · split
          · exact pipeOfTei_follows sc tei
          · exact (pipeOfTei_follows sc tei).trans (dss1PipeActivateReq_quiet env _ _).toFollows

theorem receiveI_quiet (env : Env) (sc : Softc) (p : PipeNo) (nr : Nat) :
    Quiet sc (sc.receiveI env p nr).1 := by
  rw [receiveI]
  split
  · have hrx : Quiet sc (sc.modify p fun q => { q with rxNr := (q.rxNr + 1) % 128 }) :=
      .modify_other rfl rfl rfl rfl rfl rfl rfl id (fun _ => rfl) (fun _ _ => id)
    exact hrx.trans (indicate_quiet env _)
  · exact .refl sc

theorem respond_quiet (env : Env) (sc : Softc) (p : PipeNo) (cntl nr : Nat) (command rej : Bool) :
    Quiet sc (sc.respond env p cntl nr command rej) := by
  have hfirst : Quiet sc (if cntl &&& 1 ≠ 0 then sc
      else if rej then sc.dss1CntlTxFrame env p false cntlRej
      else if nr &&& 1 ≠ 0 then sc.dss1CntlTxFrame env p true cntlRr
      else if (sc.pipe p).queue.length ≤ (sc.pipe p).txWindowSize then
        sc.dss1CntlTxFrame env p false cntlRr
      else sc) := by
    repeat' split
    all_goals first | exact .refl sc | exact dss1CntlTxFrame_quiet env sc p _ _
  simp only [respond]
  split
  · exact hfirst.trans (dss1CntlTxFrame_quiet env _ p _ _)
  · exact hfirst

theorem receiveU_follows {env : Env} {sc sc' : Softc} {p : PipeNo} {buf : List UInt8}
    {sapi cntl : Nat} (h : sc.receiveU env p buf sapi cntl = some sc') : Follows sc sc' := by
  simp only [receiveU] at h
  split at h
  · split at h
    · split at h
      · exact dss1TeiRxFrame_follows h
      · obtain rfl := Option.some.inj h
        exact .refl sc
    · split at h
      · obtain rfl := Option.some.inj h
        exact (indicate_quiet env sc).toFollows
      · obtain rfl := Option.some.inj h
        exact .refl sc
  · have hua := dss1CntlTxFrame_quiet env sc p true (cntlUa ||| (cntl &&& cntlPfBit))
    generalize sc.dss1CntlTxFrame env p true (cntlUa ||| (cntl &&& cntlPfBit)) = sc1 at hua h
    split at h
    · obtain rfl := Option.some.inj h
      have hset : Quiet sc1 (sc1.dss1PipeSetState env p .sendUa) :=
        dss1PipeSetState_quiet env sc1 p (by decide) (fun _ _ => by decide)
      have hrx : Quiet (sc1.dss1PipeSetState env p .sendUa)
          ((sc1.dss1PipeSetState env p .sendUa).modify p fun q => { q with rxNr := 0 }) :=
        .modify_other rfl rfl rfl rfl rfl rfl rfl id (fun _ => rfl) (fun _ _ => id)
      exact ((hua.trans hset).trans hrx).toFollows
    · split at h
      · obtain rfl := Option.some.inj h
        exact (hua.trans
          (dss1PipeSetState_quiet env sc1 p (by decide) (fun _ _ => by decide))).toFollows
      · obtain rfl := Option.some.inj h
        exact .refl sc

/-- The softc and the pipe with which `dss1_l2_put_mbuf` comes to label `check_NR`; it does so with
S- and I-frames that are for a pipe. -/
def atCheckNr (env : Env) (sc : Softc) (buf : List UInt8) : Option (Softc × PipeNo) :=
  let cntl := get1 buf 2
  let r := sc.lookupPipe env (get1 buf 1) cntl
  r.2.bind fun p =>
    if cntl &&& 1 ≠ 0 then if cntl &&& 2 ≠ 0 then none else some (r.1, p)
    else some ((r.1.receiveI env p (getNr cntl)).1, p)

theorem atCheckNr_follows {env : Env} {sc sc1 : Softc} {buf : List UInt8} {p : PipeNo}
    (h : atCheckNr env sc buf = some (sc1, p)) : Follows sc sc1 := by
  have hlookup := lookupPipe_follows env sc (get1 buf 1) (get1 buf 2)
  simp only [atCheckNr, Option.bind_eq_some_iff] at h
  obtain ⟨q, _, h⟩ := h
  split at h
  · split at h
    · exact absurd h (by simp)
    · obtain ⟨rfl, rfl⟩ := Prod.mk.inj (Option.some.inj h)
      exact hlookup
  · obtain ⟨rfl, rfl⟩ := Prod.mk.inj (Option.some.inj h)
    exact hlookup.trans (receiveI_quiet env _ _ _).toFollows

/-- **A frame from layer 1**: nothing comes of it for the windows, or `check_NR` is done. -/
theorem dss1L2PutMbuf_cases {env : Env} {sc sc' : Softc} {buf : List UInt8}
    (h : sc.dss1L2PutMbuf env buf = some sc') :
    (atCheckNr env sc buf = none ∧ Follows sc sc') ∨
      ∃ sc1 p, atCheckNr env sc buf = some (sc1, p) ∧
        Quiet (sc1.checkNr env p (getNr (get1 buf 3))) sc' := by
  have hlookup := lookupPipe_follows env sc (get1 buf 1) (get1 buf 2)
  simp only [dss1L2PutMbuf] at h
  simp only [atCheckNr]
  generalize sc.lookupPipe env (get1 buf 1) (get1 buf 2) = r at h hlookup ⊢
  split at h
  next hp =>
    obtain rfl := Option.some.inj h
    rw [hp]
    exact .inl ⟨rfl, hlookup⟩
  next p hp =>
    rw [hp, Option.bind_some]
    split at h
    next h1 =>
      rw [if_pos h1]
      split at h
      next h2 =>
        rw [if_pos h2]
        exact .inl ⟨rfl, hlookup.trans (receiveU_follows h)⟩
      next h2 =>
        obtain rfl := Option.some.inj h
        rw [if_neg h2]
        exact .inr ⟨r.1, p, rfl, respond_quiet env _ p _ _ _ _⟩
    next h1 =>
      obtain rfl := Option.some.inj h
      rw [if_neg h1]
      exact .inr ⟨_, p, rfl, respond_quiet env _ p _ _ _ _⟩

/-! ## Events

Here is the list of what can happen, and `Reachable` is the set of states it leads to.
-/

theorem dss1L2GetMbufTimeout_quiet (sc : Softc) (p : PipeNo) :
    Quiet sc (sc.dss1L2GetMbufTimeout p) := by
  rw [dss1L2GetMbufTimeout]
  split
  · refine .modify (fun _ => .single (.timeout _)) ?_ id (fun _ => rfl) (fun _ _ => id)
    intro hf m hm
    exact hf p m hm
  · exact .refl sc

theorem detachPipe_quiet (env : Env) (sc : Softc) (p : PipeNo) : Quiet sc (sc.detachPipe env p) := by
  have hset : Quiet sc (sc.dss1PipeSetState env p .pause) :=
    dss1PipeSetState_quiet env sc p (by decide) (fun _ _ => by decide)
  exact hset.trans (.modify_other rfl rfl rfl rfl rfl rfl rfl id (fun _ => rfl) (fun _ _ => id))

theorem detach_quiet (env : Env) (sc : Softc) :
    Quiet { sc with curLength := 0 } (sc.detach env) := by
  have hstart : Quiet { sc with curLength := 0 }
      { sc with connected := false, l1Activity := false, curLength := 0, idRequestCallout := false } :=
    .of_pipe_eq rfl rfl rfl rfl rfl rfl rfl (Nat.le_refl _)
  have hend : ∀ sc : Softc, Quiet sc { sc with queue := [] } :=
    fun _ => .of_pipe_eq rfl rfl rfl rfl rfl rfl rfl (Nat.le_refl _)
  simp only [detach]
  generalize List.finRange 16 = ps
  exact (hstart.trans (.foldl (detachPipe_quiet env) _ ps)).trans (hend _)

/-- **The kinds of events.** -/
theorem step_cases {env : Env} {sc sc' : Softc} {ev : Event} {out : Option Out}
    (h : sc.step env ev = some (sc', out)) :
    (ev ≠ .getMbuf ∧ out = none ∧ Follows sc sc') ∨
    (∃ buf sc1 p, ev = .putMbuf buf ∧ out = none ∧ atCheckNr env sc buf = some (sc1, p) ∧
      Quiet (sc1.modify p (Pipe.receiveNr (getNr (get1 buf 3)))) sc') ∨
    (ev = .getMbuf ∧ sc.dss1L2GetMbuf env = some (sc', out)) ∨
    (ev = .detach ∧ out = none ∧ Quiet { sc with curLength := 0 } sc') := by
  cases ev with
  | putMbuf buf =>
    rw [step, Option.map_eq_some_iff] at h
    obtain ⟨sc1, h1, heq⟩ := h
    obtain ⟨rfl, rfl⟩ := Prod.mk.inj heq
    obtain ⟨_, hf⟩ | ⟨sc2, p, hat, hq⟩ := dss1L2PutMbuf_cases h1
    · exact .inl ⟨by simp, rfl, hf⟩
    · exact .inr (.inl ⟨buf, sc2, p, rfl, rfl, hat, (checkNr_quiet env sc2 p _).trans hq⟩)
  | getMbuf => exact .inr (.inr (.inl ⟨rfl, h⟩))
  | getMbufTimeout p =>
    rw [step] at h
    split at h
    · obtain ⟨rfl, rfl⟩ := Prod.mk.inj (Option.some.inj h)
      have hclear : Quiet sc (sc.modify p fun q => { q with getMbufCallout := false }) :=
        .modify_other rfl rfl rfl rfl rfl rfl rfl id (fun _ => rfl) (fun _ _ => id)
      exact .inl ⟨by simp, rfl, (hclear.trans (dss1L2GetMbufTimeout_quiet _ p)).toFollows⟩
    · obtain ⟨rfl, rfl⟩ := Prod.mk.inj (Option.some.inj h)
      exact .inl ⟨by simp, rfl, .refl sc⟩
  | setStateTimeout p =>
    rw [step] at h
    split at h
    · obtain ⟨rfl, rfl⟩ := Prod.mk.inj (Option.some.inj h)
      have hclear : Quiet sc (sc.modify p fun q => { q with setStateCallout := false }) :=
        .modify_other rfl rfl rfl rfl rfl rfl rfl id (fun _ => rfl) (fun _ _ => id)
      exact .inl ⟨by simp, rfl, (hclear.trans (dss1PipeSetStateTimeout_quiet env _ p)).toFollows⟩
    · obtain ⟨rfl, rfl⟩ := Prod.mk.inj (Option.some.inj h)
      exact .inl ⟨by simp, rfl, .refl sc⟩
  | idRequestTimeout =>
    obtain ⟨rfl, rfl⟩ := Prod.mk.inj (Option.some.inj h)
    have hq : Quiet sc { sc with idRequestCallout := false } :=
      .of_pipe_eq rfl rfl rfl rfl rfl rfl rfl (Nat.le_refl _)
    exact .inl ⟨by simp, rfl, hq.toFollows⟩
  | down d =>
    obtain ⟨rfl, rfl⟩ := Prod.mk.inj (Option.some.inj h)
    exact .inl ⟨by simp, rfl, (down_quiet env sc d).toFollows⟩
  | l1Activity up =>
    obtain ⟨rfl, rfl⟩ := Prod.mk.inj (Option.some.inj h)
    have hq : Quiet sc { sc with l1Activity := up } :=
      .of_pipe_eq rfl rfl rfl rfl rfl rfl rfl (Nat.le_refl _)
    exact .inl ⟨by simp, rfl, hq.toFollows⟩
  | detach =>
    obtain ⟨rfl, rfl⟩ := Prod.mk.inj (Option.some.inj h)
    exact .inr (.inr (.inr ⟨rfl, rfl, detach_quiet env sc⟩))

/-- The states a controller gets into, once attached. -/
inductive Reachable (env : Env) : Softc → Prop where
  | setup (ntMode pointToPoint primaryRate noStatusEnquiry : Bool) (serialNumber maxChannels : Nat) :
      Reachable env
        (setup ntMode pointToPoint primaryRate noStatusEnquiry serialNumber maxChannels)
  | step {sc sc' : Softc} {out : Option Out} (ev : Event) (hsc : Reachable env sc)
      (h : sc.step env ev = some (sc', out)) : Reachable env sc'

/-- Events in a row, and what they hand to layer 1. -/
def run (env : Env) (sc : Softc) : List Event → Option (Softc × List Out)
  | [] => some (sc, [])
  | ev :: evs =>
    (sc.step env ev).bind fun r =>
      (run env r.1 evs).map fun r' => (r'.1, r.2.toList ++ r'.2)

theorem Reachable.of_run {env : Env} {sc : Softc} {evs : List Event} {r : Softc × List Out}
    (hsc : Reachable env sc) (h : run env sc evs = some r) : Reachable env r.1 := by
  induction evs generalizing sc r with
  | nil => exact Option.some.inj h ▸ hsc
  | cons ev evs ih =>
    rw [Softc.run, Option.bind_eq_some_iff] at h
    obtain ⟨⟨sc1, out⟩, hstep, h⟩ := h
    rw [Option.map_eq_some_iff] at h
    obtain ⟨⟨sc2, outs⟩, hrun, rfl⟩ := h
    exact ih (r := (sc2, outs)) (.step ev hsc hstep) hrun

/-- The state after a run that has a result. -/
theorem Reachable.run {env : Env} {sc : Softc} (hsc : Reachable env sc) (evs : List Event)
    (h : (Softc.run env sc evs).isSome) : Reachable env ((Softc.run env sc evs).get h).1 :=
  hsc.of_run (Option.some_get h).symm

end Softc
end L2
end Isdn4bsd
