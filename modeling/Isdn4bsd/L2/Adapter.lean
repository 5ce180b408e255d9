import Isdn4bsd.L2.Tei

/-!
# Layer 2: the adapter of a bus

In network mode on a bus the adapter sends its frames to all terminals at once, unnumbered, and counts
a frame as acknowledged when it is sent.  So a frame should leave the queue only after it was sent
(`Softc.Delivered`).

The window counters of the adapter are those of any other pipe, though, and label `check_NR` of
`dss1_l2_put_mbuf` is reached with an S- or I-frame that is addressed to all: the number in it then
shortens the window of the adapter, and frames that were not sent are taken for acknowledged
(`Softc.adapter_frame_lost`).  Where no such frame comes in, every frame is sent
(`Softc.adapter_frames_sent`).

## The invariant

`AdapterOk` : what is acknowledged of the adapter's window was sent; and as long as something is left in it, the
cursor is on it and has as much left.  The second part is special to the adapter.  A numbered pipe may have an
open window with nothing left for the cursor, while it waits for its peer; the adapter acknowledges what
it sends, so its window is empty when the cursor has come to its end.  Hence no other pipe is visited while
something is left in it.

## The condition

`NoBroadcastAck` is about the frame that comes in, in the state before: it is an S- or I-frame to all, and its
number is one that the adapter takes for an acknowledgement.  Any other number changes nothing, or has the whole
window sent again, which does no harm (`receiveNr_of_not_acknowledges`).
-/

set_option autoImplicit false

namespace Isdn4bsd
namespace L2

/-- The header of an unnumbered frame to all. -/
def TxFrame.isUi (f : TxFrame) : Prop := get1 f.bytes 1 = teiBroadcast ∧ get1 f.bytes 2 = cntlUi

instance (f : TxFrame) : Decidable f.isUi := inferInstanceAs (Decidable (_ ∧ _))

/-- The adapter sent this buffer as an unnumbered frame. -/
def SentUi (outs : List Out) (id : Nat) : Prop :=
  ∃ f, Out.frame f ∈ outs ∧ f.pipe = adapter ∧ f.isUi ∧ f.mbuf.id = id

/-- What of a frame to layer 1 makes it one of those. -/
def Out.isUiOf (id : Nat) : Out → Bool
  | .frame f => f.pipe = adapter ∧ f.isUi ∧ f.mbuf.id = id
  | .control _ => false

theorem sentUi_iff {outs : List Out} {id : Nat} : outs.any (Out.isUiOf id) ↔ SentUi outs id := by
  rw [List.any_eq_true]
  constructor
  · rintro ⟨o, ho, h⟩
    cases o with
    | frame f => exact ⟨f, ho, of_decide_eq_true h⟩
    | control bytes => exact absurd h (by simp [Out.isUiOf])
  · rintro ⟨f, hf, h⟩
    exact ⟨.frame f, hf, decide_eq_true h⟩

instance (outs : List Out) (id : Nat) : Decidable (SentUi outs id) := decidable_of_iff _ sentUi_iff

theorem SentUi.append {outs : List Out} {id : Nat} (h : SentUi outs id) (more : List Out) :
    SentUi (outs ++ more) id := by
  obtain ⟨f, hf, hrest⟩ := h
  exact ⟨f, List.mem_append_left _ hf, hrest⟩

namespace Pipe

/-- What is acknowledged of the window was sent. -/
def SentOk (sent : Nat → Prop) (q : Pipe) : Prop :=
  ∀ i m, i < q.txWindowSize - q.txWindowLength → q.queue[i]? = some m → sent m.id

theorem SentOk.mono {sent sent' : Nat → Prop} {q : Pipe} (h : q.SentOk sent)
    (hsent : ∀ id, sent id → sent' id) : q.SentOk sent' :=
  fun i m hi hm => hsent _ (h i m hi hm)

theorem SentOk.step {sent : Nat → Prop} {n : Nat} {q r : Pipe} (hs : Step n q r) (hok : q.WindowOk)
    (h : q.SentOk sent) : r.SentOk sent := by
  intro i m hi hm
  cases hs with
  | enqueue m' _ _ =>
    have hlt : i < q.queue.length := lt_of_lt_of_le (lt_of_lt_of_le hi (Nat.sub_le _ _)) hok.size_le_queue
    rw [Pipe.enqueue, List.getElem?_append_left hlt] at hm
    exact h i m hi hm
  | acknowledge cr =>
    have hid : ((q.acknowledge cr).queue.map Mbuf.id)[i]? = some m.id := by
      rw [List.getElem?_map, hm]
      rfl
    rw [map_id_acknowledge, List.getElem?_map, Option.map_eq_some_iff] at hid
    obtain ⟨m', hm', hid⟩ := hid
    rw [← hid]
    exact h i m' hi hm'
  | clear => exact absurd hi (Nat.not_lt_zero i)
  | timeout =>
    rw [retransmitUnacked_txWindowSize hok] at hi
    exact h i m hi hm
  | other _ hqueue hsize hlen _ _ _ _ =>
    rw [hsize, hlen] at hi
    rw [hqueue] at hm
    exact h i m hi hm

/-- No frame left the queue, but in `ST_L2_PAUSE`. -/
def Kept (q r : Pipe) : Prop :=
  q.pauses < r.pauses ∨ (q.pauses = r.pauses ∧ q.queue.map Mbuf.id ⊆ r.queue.map Mbuf.id)

theorem Kept.refl (q : Pipe) : Kept q q := .inr ⟨rfl, List.Subset.refl _⟩

theorem Kept.trans {q r s : Pipe} (h : Kept q r) (h' : Kept r s) : Kept q s := by
  obtain hlt | ⟨heq, hsub⟩ := h
  · obtain hlt' | ⟨heq', _⟩ := h'
    · exact .inl (hlt.trans hlt')
    · exact .inl (heq' ▸ hlt)
  · obtain hlt' | ⟨heq', hsub'⟩ := h'
    · exact .inl (heq ▸ hlt')
    · exact .inr ⟨heq.trans heq', List.Subset.trans hsub hsub'⟩

theorem Steps.kept {n : Nat} {q r : Pipe} (h : Steps n q r) : Kept q r := by
  induction h with
  | refl => exact .refl q
  | tail _ hs ih =>
    refine ih.trans ?_
    cases hs with
    | enqueue m _ _ =>
      refine .inr ⟨rfl, ?_⟩
      rw [Pipe.enqueue, List.map_append]
      exact List.subset_append_left _ _
    | acknowledge cr =>
      refine .inr ⟨rfl, ?_⟩
      rw [map_id_acknowledge]
      exact List.Subset.refl _
    | clear => exact .inl (Nat.lt_succ_self _)
    | timeout => exact .refl _
    | other _ hqueue _ _ _ _ hpauses _ =>
      refine .inr ⟨hpauses.symm, ?_⟩
      rw [hqueue]
      exact List.Subset.refl _

/-- A window is given up whole, or left alone. -/
theorem Steps.txWindowLength {n : Nat} {q r : Pipe} (h : Steps n q r) :
    r.txWindowLength = 0 ∨ (r.txWindowLength = q.txWindowLength ∧ r.txNr = q.txNr) := by
  induction h with
  | refl => exact .inr ⟨rfl, rfl⟩
  | tail _ hs ih =>
    cases hs with
    | enqueue _ _ _ => exact ih
    | acknowledge _ => exact ih
    | clear => exact .inl rfl
    | timeout => exact .inl rfl
    | other _ _ _ hlen hnr _ _ _ =>
      rw [hlen, hnr]
      exact ih

/-- The number `nr` would be taken for an acknowledgement. -/
def Acknowledges (q : Pipe) (nr : Nat) : Prop :=
  1 ≤ q.nrDifference nr ∧ q.nrDifference nr ≤ q.txWindowLength

instance (q : Pipe) (nr : Nat) : Decidable (q.Acknowledges nr) :=
  inferInstanceAs (Decidable (_ ∧ _))

/-- Any other number changes nothing, or has the whole window sent again. -/
theorem receiveNr_of_not_acknowledges {q : Pipe} {nr : Nat} (h : ¬ q.Acknowledges nr) :
    (q.receiveNr nr).pauses = q.pauses ∧
      (((q.receiveNr nr).txWindowSize = q.txWindowSize ∧
        (q.receiveNr nr).txWindowLength = q.txWindowLength) ∨
      ((q.receiveNr nr).txWindowSize = 0 ∧ (q.receiveNr nr).txWindowLength = 0)) := by
  simp only [receiveNr]
  split
  · exact ⟨rfl, .inl ⟨rfl, rfl⟩⟩
  next hd =>
    split
    · exact ⟨rfl, .inr ⟨rfl, rfl⟩⟩
    next hlt => exact absurd ⟨Nat.pos_of_ne_zero hd, Nat.not_lt.mp hlt⟩ h

end Pipe

namespace Softc

/-! ## Runs

`Run` remembers what was handed to layer 1, since whether a frame was sent cannot be seen from the softc
afterwards.
-/

/-- A run from `sc0` whose every event is as `ok` says, and what it handed to layer 1. -/
inductive Run (env : Env) (ok : Softc → Event → Prop) (sc0 : Softc) : Softc → List Out → Prop where
  | refl : Run env ok sc0 sc0 []
  | step {sc sc' : Softc} {outs : List Out} {ev : Event} {out : Option Out}
      (hrun : Run env ok sc0 sc outs) (hok : ok sc ev) (h : sc.step env ev = some (sc', out)) :
      Run env ok sc0 sc' (outs ++ out.toList)

theorem Run.reachable {env : Env} {ok : Softc → Event → Prop} {sc0 sc : Softc} {outs : List Out}
    (h : Run env ok sc0 sc outs) (hsc0 : Reachable env sc0) : Reachable env sc := by
  induction h with
  | refl => exact hsc0
  | step _ _ hstep ih => exact .step _ ih hstep

theorem Run.append {env : Env} {ok : Softc → Event → Prop} (hok : ∀ sc ev, ok sc ev)
    {sc0 sc sc' : Softc} {outs outs' : List Out} (h : Run env ok sc0 sc outs) {evs : List Event}
    (hrun : run env sc evs = some (sc', outs')) : Run env ok sc0 sc' (outs ++ outs') := by
  induction evs generalizing sc outs outs' with
  | nil =>
    obtain ⟨rfl, rfl⟩ := Prod.mk.inj (Option.some.inj hrun)
    rw [List.append_nil]
    exact h
  | cons ev evs ih =>
    rw [Softc.run, Option.bind_eq_some_iff] at hrun
    obtain ⟨⟨sc1, out⟩, hstep, hrun⟩ := hrun
    rw [Option.map_eq_some_iff] at hrun
    obtain ⟨⟨sc2, outs2⟩, hrun, heq⟩ := hrun
    obtain ⟨rfl, rfl⟩ := Prod.mk.inj heq
    have hmore := ih (h.step (hok sc ev) hstep) hrun
    rwa [List.append_assoc] at hmore

/-! ## The adapter

Sending a frame is what moves the window of the adapter on, and a number from a terminal would move it as
well.  So the invariant asks of what is acknowledged that it was sent.
-/

/-- Every frame of the adapter's queue is still there, or was sent, or the adapter paused. -/
def Delivered (sc sc' : Softc) (outs : List Out) : Prop :=
  ∀ m ∈ (sc.pipe adapter).queue, m.id ∈ (sc'.pipe adapter).queue.map Mbuf.id ∨ SentUi outs m.id ∨
    (sc.pipe adapter).pauses < (sc'.pipe adapter).pauses

instance (sc sc' : Softc) (outs : List Out) : Decidable (Delivered sc sc' outs) :=
  inferInstanceAs (Decidable (∀ m ∈ _, _))

/-- No S- or I-frame to all comes in with a number that the adapter would take for an
acknowledgement. -/
def NoBroadcastAck (sc : Softc) (ev : Event) : Prop :=
  ∀ buf, ev = .putMbuf buf → get1 buf 1 = teiBroadcast → (get1 buf 2 &&& 1 = 0 ∨ get1 buf 2 &&& 2 = 0) →
    ¬ (sc.pipe adapter).Acknowledges (getNr (get1 buf 3))

/-- What is acknowledged of the adapter's window was sent; and as long as something is left in it, the
cursor is on it and has as much left. -/
structure AdapterOk (sent : Nat → Prop) (c : PipeNo) (sc : Softc) : Prop where
  sent : (sc.pipe adapter).SentOk sent
  cursor : (sc.pipe adapter).txWindowLength ≠ 0 →
    c = adapter ∧ sc.curLength = (sc.pipe adapter).txWindowLength

theorem delivered_of_kept {sc sc' : Softc} (h : Pipe.Kept (sc.pipe adapter) (sc'.pipe adapter))
    (outs : List Out) : Delivered sc sc' outs := by
  intro m hm
  obtain hlt | ⟨_, hsub⟩ := h
  · exact .inr (.inr hlt)
  · exact .inl (hsub (List.mem_map_of_mem hm))

theorem AdapterOk.of_txWindowLength {sent : Nat → Prop} {c : PipeNo} {sc : Softc}
    (hsent : (sc.pipe adapter).SentOk sent) (hlen : (sc.pipe adapter).txWindowLength = 0) :
    AdapterOk sent c sc := ⟨hsent, fun hne => absurd hlen hne⟩

theorem AdapterOk.follows {sent : Nat → Prop} {c : PipeNo} {sc sc' : Softc} (hf : Follows sc sc')
    (hw : Windows c sc) (h : AdapterOk sent c sc) : AdapterOk sent c sc' := by
  have hsteps := hf.pipes hw.1 adapter
  refine ⟨?_, ?_⟩
  · have hboth : (sc'.pipe adapter).WindowOk ∧ (sc'.pipe adapter).SentOk sent :=
      hsteps.preserves (motive := fun q => q.WindowOk ∧ q.SentOk sent)
        (fun _ _ hs hq => ⟨hq.1.step hs, hq.2.step hs hq.1⟩) ⟨hw.2 adapter, h.sent⟩
    exact hboth.2
  · intro hne
    obtain hzero | ⟨hlen, _⟩ := hsteps.txWindowLength
    · exact absurd hzero hne
    · rw [hlen] at hne ⊢
      rw [hf.curLength]
      exact h.cursor hne

/-- A number the adapter does not take for an acknowledgement. -/
theorem AdapterOk.receiveNr {sent : Nat → Prop} {c : PipeNo} {sc : Softc} {p : PipeNo} {nr : Nat}
    (hnr : p = adapter → ¬ (sc.pipe adapter).Acknowledges nr) (h : AdapterOk sent c sc) :
    AdapterOk sent c (sc.modify p (Pipe.receiveNr nr)) ∧
      Pipe.Kept (sc.pipe adapter) ((sc.modify p (Pipe.receiveNr nr)).pipe adapter) := by
  by_cases hp : adapter = p
  · subst hp
    obtain ⟨hpauses, hwindow⟩ := Pipe.receiveNr_of_not_acknowledges (hnr rfl)
    have hkept : Pipe.Kept (sc.pipe adapter) ((sc.pipe adapter).receiveNr nr) := by
      refine .inr ⟨hpauses.symm, ?_⟩
      rw [Pipe.receiveNr_queue]
      exact List.Subset.refl _
    refine ⟨?_, by rwa [modify_pipe_self]⟩
    obtain ⟨hsize, hlen⟩ | ⟨hsize, hlen⟩ := hwindow
    · refine ⟨?_, ?_⟩
      · rw [modify_pipe_self]
        intro i m hi hm
        rw [hsize, hlen] at hi
        rw [Pipe.receiveNr_queue] at hm
        exact h.sent i m hi hm
      · rw [modify_pipe_self, hlen]
        exact h.cursor
    · refine .of_txWindowLength ?_ (by rw [modify_pipe_self, hlen])
      rw [modify_pipe_self]
      intro i m hi _
      rw [hsize] at hi
      exact absurd hi (by simp)
  · refine ⟨⟨?_, ?_⟩, ?_⟩
    · rw [modify_pipe_of_ne _ _ hp]
      exact h.sent
    · rw [modify_pipe_of_ne _ _ hp]
      exact h.cursor
    · rw [modify_pipe_of_ne _ _ hp]
      exact .refl _

/-- On a bus, label `check_NR` is reached for the adapter with frames to all only. -/
theorem atCheckNr_adapter {env : Env} {sc sc1 : Softc} {buf : List UInt8} (hbus : sc.Bus)
    (hteis : sc.TeisOk) (h : atCheckNr env sc buf = some (sc1, adapter)) :
    get1 buf 1 = teiBroadcast ∧ (get1 buf 2 &&& 1 = 0 ∨ get1 buf 2 &&& 2 = 0) := by
  simp only [atCheckNr, Option.bind_eq_some_iff] at h
  obtain ⟨p, hlookup, h⟩ := h
  have hadapter : p = adapter := by
    split at h
    · split at h
      · exact absurd h (by simp)
      · exact (Prod.mk.inj (Option.some.inj h)).2
    · exact (Prod.mk.inj (Option.some.inj h)).2
  subst hadapter
  refine ⟨?_, ?_⟩
  · by_contra htei
    simp only [lookupPipe, if_neg htei, hbus.1, hbus.2, Bool.false_eq_true, if_false,
      Bool.true_eq_false] at hlookup
    split at hlookup
    · exact absurd hlookup (by simp)
    next q hq =>
      have hqa : q = adapter := by
        split at hlookup
        · exact absurd hlookup (by simp)
        · exact Option.some.inj hlookup
      subst hqa
      simp only [pipeOfTei] at hq
      split at hq
      next hfind =>
        obtain rfl := Option.some.inj hq
        have hsame : (sc.pipe adapter).tei = get1 buf 1 := by simpa using List.find?_some hfind
        exact htei (hsame.symm.trans (hteis hbus).1)
      next =>
        split at hq
        next hunused =>
          obtain rfl := Option.some.inj hq
          exact ne_adapter_of_dss1GetUnusedPipe hunused rfl
        next => exact absurd hq (by simp)
  · by_cases h1 : get1 buf 2 &&& 1 = 0
    · exact .inl h1
    · by_cases h2 : get1 buf 2 &&& 2 = 0
      · exact .inr h2
      · rw [if_pos h1, if_pos h2] at h
        exact absurd h (by simp)

/-- Nothing is left in the window of a pipe that was detached. -/
theorem detachPipe_txWindowLength (env : Env) (sc : Softc) (p : PipeNo) :
    ((sc.detachPipe env p).pipe p).txWindowLength = 0 := by
  have hguard : ¬ ((sc.pipe p).state.num ≤ State.sendTei.num ∧
      State.sendTei.num + 2 ≤ State.pause.num) := fun h => absurd h.2 (by decide)
  rw [detachPipe, modify_pipe_self, dss1PipeSetState, pipeSetState, if_neg hguard]
  simp only [enterState, modify_pipe_self, enterSabmeOrPause, enterPause, restartTimeout, reduceCtorEq,
    if_false, if_true, Bool.false_eq_true]
  split
  · rw [modify_pipe_self, modify_pipe_self]
    rfl
  · rw [modify_pipe_self]
    rfl

/-- Nor in that of the adapter, when it was the first of several. -/
theorem foldl_detachPipe_txWindowLength (env : Env) (sc : Softc) (hfresh : sc.Fresh)
    (ps : List PipeNo) :
    (((adapter :: ps).foldl (detachPipe env) sc).pipe adapter).txWindowLength = 0 := by
  have hfresh' := (detachPipe_quiet env sc adapter).fresh hfresh
  have hrest : Quiet (sc.detachPipe env adapter)
      (ps.foldl (detachPipe env) (sc.detachPipe env adapter)) := .foldl (detachPipe_quiet env) _ ps
  rw [List.foldl_cons]
  obtain hzero | ⟨heq, _⟩ := (hrest.pipes hfresh' adapter).txWindowLength
  · exact hzero
  · exact heq.trans (detachPipe_txWindowLength env sc adapter)

theorem detach_txWindowLength (env : Env) {sc : Softc} (hfresh : sc.Fresh) :
    ((sc.detach env).pipe adapter).txWindowLength = 0 := by
  simp only [detach]
  rw [List.finRange_succ]
  generalize (List.finRange 15).map Fin.succ = ps
  exact foldl_detachPipe_txWindowLength env { sc with
    connected := false
    l1Activity := false
    curLength := 0
    idRequestCallout := false } hfresh ps

/-! ## Frames from the adapter

A frame leaves the queue when the window is opened again.  By then it counts as acknowledged, and so it was
sent.
-/

theorem mayServe_adapter {sc : Softc} (hbus : sc.Bus) : sc.mayServe adapter :=
  .inr ⟨hbus.1, hbus.2, rfl⟩

/-- The frames that leave the adapter's queue when its window is opened again were sent. -/
theorem AdapterOk.served {env : Env} {sent : Nat → Prop} {c : PipeNo} {sc sc1 : Softc}
    (hw : Windows c sc) (hstate : ¬ (sc.pipe adapter).state.isTeiAssigned)
    (h : AdapterOk sent c sc) (hserved : sc.served env c = some sc1) :
    AdapterOk sent c sc1 ∧ (sc1.pipe adapter).state = (sc.pipe adapter).state ∧
      ∀ m ∈ (sc.pipe adapter).queue, sent m.id ∨ m ∈ (sc1.pipe adapter).queue := by
  rw [Softc.served] at hserved
  split at hserved
  next hlen =>
    obtain ⟨zs, n', max, ho, heq⟩ := reopen_of_windowOk env (hw.2 c)
    obtain rfl := Option.some.inj (heq.symm.trans hserved)
    by_cases hc : adapter = c
    · subst hc
      cases ho with
      | zif ha _ _ _ => exact absurd ha hstate
      | numbered ha _ => exact absurd ha hstate
      | unnumbered _ =>
        refine ⟨⟨?_, ?_⟩, ?_, ?_⟩
        · simp only [Function.update_self]
          intro i m hi _
          simp only [Pipe.opened, Nat.sub_self, Nat.not_lt_zero] at hi
        · simp only [Function.update_self, Pipe.opened, implies_true, and_self]
        · simp only [Function.update_self, Pipe.opened]
        · intro m hm
          rw [← List.take_append_drop (sc.pipe adapter).txWindowSize (sc.pipe adapter).queue,
            List.mem_append] at hm
          simp only [Function.update_self, Pipe.opened, List.nil_append]
          rcases hm with hm | hm
          · obtain ⟨i, hi⟩ := List.mem_iff_getElem?.mp hm
            rw [List.getElem?_take] at hi
            split at hi
            next hlt =>
              refine .inl (h.sent i m ?_ hi)
              rw [hlen]
              exact hlt
            next => exact absurd hi (by simp)
          · exact .inr hm
    · have hzero : (sc.pipe adapter).txWindowLength = 0 := by
        by_contra hne
        exact hc (h.cursor hne).1.symm
      refine ⟨.of_txWindowLength ?_ ?_, ?_, ?_⟩
      · simp only [Function.update_of_ne hc]
        exact h.sent
      · simp only [Function.update_of_ne hc]
        exact hzero
      · simp only [Function.update_of_ne hc]
      · simp only [Function.update_of_ne hc]
        intro m hm
        exact .inr hm
  next =>
    obtain rfl := Option.some.inj hserved
    exact ⟨h, rfl, fun m hm => .inr hm⟩

/-- The header of what an unnumbered pipe sends. -/
theorem isUi_frameBytes (sc : Softc) {q : Pipe} (m : Mbuf) (hstate : ¬ q.state.isTeiAssigned) :
    get1 (sc.frameBytes q m) 1 = teiBroadcast ∧ get1 (sc.frameBytes q m) 2 = cntlUi := by
  constructor
  · simp [frameBytes, hstate, get1, invertCr, teiBroadcast]
  · simp [frameBytes, hstate, get1, invertCr, cntlUi]

/-- **What the adapter sends counts as sent**, and what another pipe sends does not concern it. -/
theorem AdapterOk.transmit {env : Env} (havail : ∀ n, env.avail n = true) {outs : List Out}
    {c : PipeNo} {sc sc' : Softc} {o : Option TxFrame} (hs : Sound c sc)
    (hstate : ¬ (sc.pipe adapter).state.isTeiAssigned)
    (hlen : (sc.pipe c).txWindowLength ≠ 0) (hcur : sc.curLength ≠ 0)
    (h : AdapterOk (SentUi outs) c sc) (hsend : sc.transmit env c = some (sc', o)) :
    ∃ f, o = some f ∧ AdapterOk (SentUi (outs ++ [.frame f])) c sc' ∧
      (sc'.pipe adapter).queue.map Mbuf.id = (sc.pipe adapter).queue.map Mbuf.id := by
  have hat := hs.2.2 hcur hlen
  obtain ⟨m, hm, _, hfind⟩ := hat.find_eq hcur (hs.1.2 c) (hs.2.1 c)
  obtain ⟨i, m', sc1, hi, hsc1, hm', rfl, ho⟩ := transmit_eq_some hsend
  obtain rfl : i = sc.curIndex c := Option.some.inj (hi.symm.trans hfind)
  rw [if_pos (havail _)] at ho
  refine ⟨_, ho, ?_⟩
  by_cases hc : adapter = c
  · subst hc
    rw [if_pos hstate] at hsc1
    subst hsc1
    rw [modify_pipe_self] at hm'
    have hids := map_id_sendUnnumbered (sc.pipe adapter) (sc.curIndex adapter)
    have hlength := (h.cursor hlen).2
    have hwindow := (hs.1.2 adapter).length_le
    have hsize := (hs.1.2 adapter).size_le
    have hid : m'.id = m.id := by
      have hget : ((sc.pipe adapter).queue.map Mbuf.id)[sc.curIndex adapter]? = some m'.id := by
        rw [← hids, List.getElem?_map, hm']
        rfl
      rw [List.getElem?_map, hm] at hget
      exact (Option.some.inj hget).symm
    refine ⟨⟨?_, ?_⟩, ?_⟩
    · simp only [modify_pipe_self]
      intro j x hj hx
      have hget : ((sc.pipe adapter).queue.map Mbuf.id)[j]? = some x.id := by
        rw [← hids, List.getElem?_map, hx]
        rfl
      rw [List.getElem?_map, Option.map_eq_some_iff] at hget
      obtain ⟨y, hy, hxy⟩ := hget
      rw [← hxy]
      simp only [Pipe.sendUnnumbered] at hj
      by_cases hold : j < (sc.pipe adapter).txWindowSize - (sc.pipe adapter).txWindowLength
      · exact (h.sent j y hold hy).append _
      · have hindex : j = sc.curIndex adapter := by
          simp only [curIndex]
          omega
        subst hindex
        obtain rfl := Option.some.inj (hy.symm.trans hm)
        refine ⟨_, List.mem_append_right _ (List.mem_singleton_self _), rfl, ?_, hid⟩
        exact isUi_frameBytes sc m' hstate
    · simp only [modify_pipe_self, Pipe.sendUnnumbered]
      intro _
      refine ⟨trivial, ?_⟩
      omega
    · simp only [modify_pipe_self]
      exact hids
  · have hpipe : sc1.pipe adapter = sc.pipe adapter := by
      rw [hsc1]
      split
      · rw [modify_pipe_of_ne _ _ hc]
      · rfl
    have hzero : (sc.pipe adapter).txWindowLength = 0 := by
      by_contra hne
      exact hc (h.cursor hne).1.symm
    refine ⟨.of_txWindowLength ?_ ?_, ?_⟩
    · simp only [hpipe]
      exact h.sent.mono fun _ hsent => hsent.append _
    · simp only [hpipe]
      exact hzero
    · simp only [hpipe]

/-- **A visit to a pipe.**  When no frame comes of it, nothing is left in the adapter's window. -/
theorem AdapterOk.servePipe {env : Env} (havail : ∀ n, env.avail n = true) {outs : List Out}
    {c : PipeNo} {sc sc' : Softc} {o : Option TxFrame} (hs : Sound c sc) (hbus : sc.Bus)
    (hstate : ¬ (sc.pipe adapter).state.isTeiAssigned) (h : AdapterOk (SentUi outs) c sc)
    (hserve : sc.servePipe env c = some (sc', o)) :
    AdapterOk (SentUi (outs ++ (o.map Out.frame).toList)) c sc' ∧
      (o = none → (sc'.pipe adapter).txWindowLength = 0) ∧
      ∀ m ∈ (sc.pipe adapter).queue,
        SentUi outs m.id ∨ m.id ∈ (sc'.pipe adapter).queue.map Mbuf.id := by
  obtain ⟨hmay, rfl, rfl⟩ | ⟨hmay, sc1, hserved, hrest⟩ := servePipe_cases hserve
  · have hne : c ≠ adapter := by
      rintro rfl
      exact hmay (mayServe_adapter hbus)
    refine ⟨?_, ?_, fun m hm => .inr (List.mem_map_of_mem hm)⟩
    · simpa using h
    · intro _
      by_contra hlen
      exact hne (h.cursor hlen).1
  · obtain ⟨h1, hstate1, hkept⟩ := h.served hs.1 hstate hserved
    have hs1 := (cursor_stable env).served hmay hserved hs
    obtain ⟨hcur, rfl, rfl⟩ | ⟨hcur, hsend⟩ := hrest
    · refine ⟨by simpa using h1, ?_, ?_⟩
      · intro _
        by_contra hlen
        exact hlen ((h1.cursor hlen).2.symm.trans hcur)
      · intro m hm
        exact (hkept m hm).imp_right fun hm' => List.mem_map_of_mem hm'
    · have hlen := served_txWindowLength hserved hcur
      obtain ⟨f, rfl, h2, hids⟩ := h1.transmit havail hs1 (by rwa [hstate1]) hlen hcur hsend
      refine ⟨h2, fun hnone => absurd hnone (by simp), ?_⟩
      intro m hm
      rw [hids]
      exact (hkept m hm).imp_right fun hm' => List.mem_map_of_mem hm'

theorem AdapterOk.passOver {sent : Nat → Prop} {c : PipeNo} {sc : Softc} (h : AdapterOk sent c sc)
    (hlen : (sc.pipe adapter).txWindowLength = 0) (p c' : PipeNo) :
    AdapterOk sent c' (sc.passOver p) ∧
      ((sc.passOver p).pipe adapter).queue = (sc.pipe adapter).queue := by
  rw [Softc.passOver]
  split
  · by_cases hp : adapter = p
    · subst hp
      refine ⟨.of_txWindowLength ?_ ?_, ?_⟩
      · simp only [modify_pipe_self]
        exact h.sent
      · simp only [modify_pipe_self]
        exact hlen
      · simp only [modify_pipe_self]
    · refine ⟨.of_txWindowLength ?_ ?_, ?_⟩
      · simp only [modify_pipe_of_ne _ _ hp]
        exact h.sent
      · simp only [modify_pipe_of_ne _ _ hp]
        exact hlen
      · simp only [modify_pipe_of_ne _ _ hp]
  · exact ⟨.of_txWindowLength h.sent hlen, rfl⟩

/-- All that is known of a bus between two events. -/
structure BusOk (outs : List Out) (c : PipeNo) (sc : Softc) : Prop where
  bus : sc.Bus
  sound : Sound c sc
  teis : Windows c sc ∧ Teis c sc
  adapter : AdapterOk (SentUi outs) c sc

theorem BusOk.servePipe {env : Env} (havail : ∀ n, env.avail n = true) {outs : List Out}
    {c : PipeNo} {sc sc' : Softc} {o : Option TxFrame} (h : BusOk outs c sc)
    (hserve : sc.servePipe env c = some (sc', o)) :
    BusOk (outs ++ (o.map Out.frame).toList) c sc' ∧
      (o = none → (sc'.pipe L2.adapter).txWindowLength = 0) ∧
      ∀ m ∈ (sc.pipe L2.adapter).queue,
        SentUi outs m.id ∨ m.id ∈ (sc'.pipe L2.adapter).queue.map Mbuf.id := by
  obtain ⟨hadapter, hzero, hkept⟩ :=
    h.adapter.servePipe havail h.sound h.bus (h.teis.2.2 h.bus) hserve
  exact ⟨⟨(servePipe_bus hserve).mpr h.bus, (cursor_stable env).servePipe hserve h.sound,
    (teis_stable env).servePipe hserve h.teis, hadapter⟩, hzero, hkept⟩

theorem BusOk.passOver (env : Env) {outs : List Out} {c : PipeNo} {sc : Softc} (h : BusOk outs c sc)
    (hlen : (sc.pipe L2.adapter).txWindowLength = 0) (p c' : PipeNo) :
    BusOk outs c' (sc.passOver p) ∧
      ((sc.passOver p).pipe L2.adapter).queue = (sc.pipe L2.adapter).queue := by
  obtain ⟨hadapter, hqueue⟩ := h.adapter.passOver hlen p c'
  exact ⟨⟨(passOver_bus sc p).mpr h.bus,
    (cursor_stable env).move c' rfl ((cursor_stable env).passOver p h.sound),
    (teis_stable env).move c' rfl ((teis_stable env).passOver p h.teis), hadapter⟩, hqueue⟩

/-- The loop of `dss1_l2_get_mbuf` up to a pipe it comes to. -/
theorem BusOk.visit {env : Env} (havail : ∀ n, env.avail n = true) {outs : List Out}
    {sc sc1 : Softc} {n : Nat} {p : PipeNo} (h : BusOk outs sc.curPipe sc)
    (hvisit : Visit env sc n sc1 p) :
    BusOk outs p sc1 ∧ ∀ m ∈ (sc.pipe L2.adapter).queue,
      SentUi outs m.id ∨ m.id ∈ (sc1.pipe L2.adapter).queue.map Mbuf.id := by
  induction hvisit with
  | start => exact ⟨h, fun m hm => .inr (List.mem_map_of_mem hm)⟩
  | @next n sc1 sc2 p _ hserve ih =>
    obtain ⟨h1, hkept1⟩ := ih
    obtain ⟨h2, hzero, hkept2⟩ := h1.servePipe havail hserve
    simp only [Option.map_none, Option.toList_none, List.append_nil] at h2
    obtain ⟨h3, hqueue⟩ := h2.passOver env (hzero rfl) p (p + 1)
    refine ⟨h3, ?_⟩
    intro m hm
    rw [hqueue]
    rcases hkept1 m hm with hsent | hmem
    · exact .inl hsent
    · obtain ⟨m', hm', hid⟩ := List.mem_map.mp hmem
      rw [← hid]
      exact hkept2 m' hm'

/-- **A frame to layer 1.** -/
theorem BusOk.dss1L2GetMbuf {env : Env} (havail : ∀ n, env.avail n = true) {outs : List Out}
    {sc sc' : Softc} {out : Option Out} (h : BusOk outs sc.curPipe sc)
    (hget : sc.dss1L2GetMbuf env = some (sc', out)) :
    AdapterOk (SentUi (outs ++ out.toList)) sc'.curPipe sc' ∧
      Delivered sc sc' (outs ++ out.toList) := by
  obtain ⟨c, cs, _, rfl, rfl⟩ | ⟨k, sc1, p, sc2, o, hvisit, hserve, rfl, rfl⟩ :=
    dss1L2GetMbuf_cases hget
  · refine ⟨⟨?_, h.adapter.cursor⟩, ?_⟩
    · exact h.adapter.sent.mono fun _ hsent => hsent.append _
    · intro m hm
      exact .inl (List.mem_map_of_mem hm)
  · obtain ⟨h1, hkept1⟩ := h.visit havail hvisit
    obtain ⟨h2, hzero, hkept2⟩ := h1.servePipe havail hserve
    have hkept : ∀ m ∈ (sc.pipe L2.adapter).queue, m.id ∈ (sc2.pipe L2.adapter).queue.map Mbuf.id ∨
        SentUi (outs ++ (o.map Out.frame).toList) m.id := by
      intro m hm
      rcases hkept1 m hm with hsent | hmem
      · exact .inr (hsent.append _)
      · obtain ⟨m', hm', hid⟩ := List.mem_map.mp hmem
        rw [← hid]
        rcases hkept2 m' hm' with hsent | hmem'
        · exact .inr (hsent.append _)
        · exact .inl hmem'
    cases o with
    | some f =>
      refine ⟨⟨h2.adapter.sent, h2.adapter.cursor⟩, ?_⟩
      intro m hm
      exact (hkept m hm).imp_right .inl
    | none =>
      obtain ⟨h3, hqueue⟩ := h2.passOver env (hzero rfl) p (p + 1)
      refine ⟨⟨h3.adapter.sent, h3.adapter.cursor⟩, ?_⟩
      intro m hm
      change m.id ∈ ((sc2.passOver p).pipe L2.adapter).queue.map Mbuf.id ∨ _
      rw [hqueue]
      exact (hkept m hm).imp_right .inl

/-- **One event**, if it is no acknowledgement to all. -/
theorem BusOk.step {env : Env} (havail : ∀ n, env.avail n = true) {outs : List Out}
    {sc sc' : Softc} {ev : Event} {out : Option Out} (h : BusOk outs sc.curPipe sc)
    (hok : NoBroadcastAck sc ev) (hstep : sc.step env ev = some (sc', out)) :
    AdapterOk (SentUi (outs ++ out.toList)) sc'.curPipe sc' ∧
      Delivered sc sc' (outs ++ out.toList) := by
  obtain ⟨_, rfl, hf⟩ | ⟨buf, sc1, p, rfl, rfl, hat, hq⟩ | ⟨_, hget⟩ | ⟨rfl, rfl, hq⟩ :=
    step_cases hstep
  · rw [Option.toList_none, List.append_nil, hf.curPipe]
    exact ⟨h.adapter.follows hf h.sound.1,
      delivered_of_kept (hf.pipes h.sound.1.1 L2.adapter).kept _⟩
  · have hf := atCheckNr_follows hat
    have hsteps := hf.pipes h.sound.1.1 L2.adapter
    have hsound1 := (cursor_stable env).follows hf h.sound
    -- what layer 3 does before the number is looked at does not make it an acknowledgement
    have hnr : p = L2.adapter → ¬ (sc1.pipe L2.adapter).Acknowledges (getNr (get1 buf 3)) := by
      rintro rfl ⟨hpos, hle⟩
      obtain ⟨htei, hkind⟩ := atCheckNr_adapter h.bus h.teis.2.1 hat
      refine hok buf rfl htei hkind ?_
      obtain hzero | ⟨hlen, hnr⟩ := hsteps.txWindowLength
      · omega
      · simp only [Pipe.Acknowledges, Pipe.nrDifference, hlen, hnr] at hpos hle ⊢
        exact ⟨hpos, hle⟩
    obtain ⟨h2, hkept⟩ := (h.adapter.follows hf h.sound.1).receiveNr hnr
    have hsound2 := (cursor_stable env).receiveNr p _ (getNr_lt (get1 buf 3)) hsound1
    rw [Option.toList_none, List.append_nil, hq.curPipe, modify, hf.curPipe]
    exact ⟨h2.follows hq.toFollows hsound2.1, delivered_of_kept
      ((hsteps.kept.trans hkept).trans (hq.pipes hsound2.1.1 L2.adapter).kept) _⟩
  · exact h.dss1L2GetMbuf havail hget
  · obtain ⟨rfl, _⟩ := Prod.mk.inj (Option.some.inj hstep)
    have hsound0 : Sound sc.curPipe { sc with curLength := 0 } := (cursor_stable env).stop h.sound
    have hsent : ((sc.detach env).pipe L2.adapter).SentOk (SentUi outs) := by
      have hboth : ((sc.detach env).pipe L2.adapter).WindowOk ∧
          ((sc.detach env).pipe L2.adapter).SentOk (SentUi outs) :=
        (hq.pipes hsound0.1.1 L2.adapter).preserves
          (motive := fun q => q.WindowOk ∧ q.SentOk (SentUi outs))
          (fun _ _ hs hq => ⟨hq.1.step hs, hq.2.step hs hq.1⟩) ⟨h.sound.1.2 L2.adapter, h.adapter.sent⟩
      exact hboth.2
    rw [Option.toList_none, List.append_nil]
    exact ⟨.of_txWindowLength hsent (detach_txWindowLength env h.sound.1.1),
      delivered_of_kept (hq.pipes hsound0.1.1 L2.adapter).kept _⟩

theorem Run.busOk {env : Env} (havail : ∀ n, env.avail n = true) {sc0 sc : Softc} {outs : List Out}
    (hrun : Run env NoBroadcastAck sc0 sc outs) (hsc0 : Reachable env sc0)
    (h0 : BusOk [] sc0.curPipe sc0) : BusOk outs sc.curPipe sc := by
  induction hrun with
  | refl => exact h0
  | step hrun hok hstep ih =>
    have hsc' := Reachable.step _ (hrun.reachable hsc0) hstep
    exact ⟨(step_bus hstep).mpr ih.bus, (cursor_stable env).reachable hsc',
      (teis_stable env).reachable hsc', (ih.step havail hok hstep).1⟩

/-- **Every frame of the adapter is sent**, on a bus with buffers on which no acknowledgement to all
comes in: whatever else happens, a frame that leaves the adapter's queue was handed to layer 1 as an
unnumbered frame before, or the adapter paused. -/
theorem adapter_frames_sent {env : Env} (havail : ∀ n, env.avail n = true)
    {primaryRate noStatusEnquiry : Bool} {serialNumber maxChannels : Nat} {sc sc' : Softc}
    {outs : List Out} {ev : Event} {out : Option Out}
    (hrun : Run env NoBroadcastAck
      (setup true false primaryRate noStatusEnquiry serialNumber maxChannels) sc outs)
    (hok : NoBroadcastAck sc ev) (hstep : sc.step env ev = some (sc', out)) :
    Delivered sc sc' (outs ++ out.toList) := by
  have hsetup : Reachable env
      (setup true false primaryRate noStatusEnquiry serialNumber maxChannels) := .setup _ _ _ _ _ _
  refine ((hrun.busOk havail hsetup ⟨⟨rfl, rfl⟩, (cursor_stable env).reachable hsetup,
    (teis_stable env).reachable hsetup, ?_⟩).step havail hok hstep).2
  refine .of_txWindowLength ?_ rfl
  intro i m hi _
  exact absurd hi (Nat.not_lt_zero i)

/-- It says so of the frame that leaves the queue when layer 1 asks for the next one. -/
theorem adapter_frames_sent_next :
    let env : Env := ⟨fun _ => true, fun _ => [], fun _ => []⟩
    ∃ r1 r2 r3, (setup true false false false 0 2).step env
        (.down (.request (.dataReq adapter [0x08, 1, 1, 5]))) = some r1 ∧
      r1.1.step env .getMbuf = some r2 ∧ r2.1.step env .getMbuf = some r3 ∧
      (r2.1.pipe adapter).queue.map Mbuf.id = [0] ∧ (r3.1.pipe adapter).queue = [] ∧
      Delivered r2.1 r3.1 (([] ++ r1.2.toList) ++ r2.2.toList ++ r3.2.toList) := by
  intro env
  have hrun : (((setup true false false false 0 2).step env
      (.down (.request (.dataReq adapter [0x08, 1, 1, 5])))).bind fun r1 =>
      (r1.1.step env .getMbuf).bind fun r2 => (r2.1.step env .getMbuf).map fun r3 =>
        decide ((r2.1.pipe adapter).queue.map Mbuf.id = [0] ∧ (r3.1.pipe adapter).queue = []))
      = some true := by decide
  simp only [Option.bind_eq_some_iff, Option.map_eq_some_iff, decide_eq_true_eq] at hrun
  obtain ⟨r1, h1, r2, h2, r3, h3, hids, hqueue⟩ := hrun
  have hok : ∀ sc, NoBroadcastAck sc .getMbuf := by
    intro sc buf h
    exact absurd h (by simp)
  have hok1 : NoBroadcastAck (setup true false false false 0 2)
      (.down (.request (.dataReq adapter [0x08, 1, 1, 5]))) := by
    intro buf h
    exact absurd h (by simp)
  exact ⟨r1, r2, r3, h1, h2, h3, hids, hqueue,
    adapter_frames_sent (fun _ => rfl) (.step (.step .refl hok1 h1) (hok r1.1) h2) (hok r2.1) h3⟩

/-- **A frame of the adapter gets lost**: two frames wait, the first is sent, a terminal sends to all
that it is ready for number 1, and when layer 1 asks for the second frame, both are gone. -/
theorem adapter_frame_lost :
    ¬ ∀ (env : Env) (sc sc' : Softc) (outs : List Out) (ev : Event) (out : Option Out),
      (∀ n, env.avail n = true) →
      Run env (fun _ _ => True) (setup true false false false 0 2) sc outs →
      sc.step env ev = some (sc', out) → Delivered sc sc' (outs ++ out.toList) := by
  intro h
  let env : Env := ⟨fun _ => true, fun _ => [], fun _ => []⟩
  have hrun : ((run env (setup true false false false 0 2)
      [.down (.request (.dataReq adapter [0x08, 1, 1, 5])),
        .down (.request (.dataReq adapter [0x08, 1, 2, 5])), .getMbuf,
        .putMbuf [0x00, 0xff, 0x01, 0x02]]).bind fun r =>
      (r.1.step env .getMbuf).map fun r' => decide (Delivered r.1 r'.1 (r.2 ++ r'.2.toList)))
      = some false := by decide
  simp only [Option.bind_eq_some_iff, Option.map_eq_some_iff, decide_eq_false_iff_not] at hrun
  obtain ⟨⟨sc, outs⟩, hrun, ⟨sc', out⟩, hstep, hlost⟩ := hrun
  exact hlost (h env sc sc' outs .getMbuf out (fun _ => rfl)
    (Run.append (fun _ _ => trivial) .refl hrun) hstep)

end Softc
end L2
end Isdn4bsd
