import Isdn4bsd.L2.Window

/-!
# Layer 2: what one end tells the other

On a point-to-point link all that a softc sends is from its adapter: control frames, which wait in a queue
of the softc, and I-frames.  This file says, for each kind of event, what is new of either.

* `Softc.Tells`: what an end may do without a number from its peer.  Its new control frames are
  U-frames, and the number it expects stays the same unless it pauses;
* `Softc.step_tells`: every event but a frame from layer 1 and the fetching of one is of that kind, when
  layer 3 uses no pipe but the adapter;
* `Softc.putMbuf_hears`: **a frame from the peer**.  The number expected goes on by one with an I-frame
  that has it, back to 0 with a `SABME`, and not at all otherwise; and a new control frame that is not a
  U-frame says the number that is expected then;
* `Softc.getMbuf_carries`: **a frame to the peer** is a control frame, or an I-frame of the adapter that
  says the number expected and carries the message of its buffer.

`Isdn4bsd.L2.Run` says what an event does to the queues and windows of the pipes.  That is enough for one end with
a peer that is not looked into, but not when the peer is a softc too: then it matters what is in the frames.
So the functions are gone through a second time, for what they put into the queue of control frames and for
`rx_nr`.

A control frame waits in its queue with the number that was expected when it was made.  The number may have gone
on when the frame is sent, so what is on its way says numbers that were expected at some time, in order, and not
always the last one.
-/

set_option autoImplicit false

namespace Isdn4bsd
namespace L2

/-! ## Kinds of frames

What a frame is can be seen from its third octett.  `Tells` is what most functions do: what they send of
their own accord is a U-frame, and the number that is expected stays the same.
-/

/-- `cntl & 1`: a control frame, which is an S- or U-frame. -/
def IsCntl (buf : List UInt8) : Prop := get1 buf 2 &&& 1 ≠ 0

/-- A U-frame. -/
def IsU (buf : List UInt8) : Prop := get1 buf 2 &&& 1 ≠ 0 ∧ get1 buf 2 &&& 2 ≠ 0

instance decidableIsCntl (buf : List UInt8) : Decidable (IsCntl buf) :=
  inferInstanceAs (Decidable (_ ≠ _))

instance decidableIsU (buf : List UInt8) : Decidable (IsU buf) := inferInstanceAs (Decidable (_ ∧ _))

/-- A `SABME`. -/
def IsSabme (buf : List UInt8) : Prop := IsU buf ∧ get1 buf 2 &&& 0xef = cntlSabme

instance decidableIsSabme (buf : List UInt8) : Decidable (IsSabme buf) :=
  inferInstanceAs (Decidable (_ ∧ _))

theorem IsU.isCntl {buf : List UInt8} (h : IsU buf) : IsCntl buf := h.1

/-- Only the first byte of a frame is changed in network mode. -/
theorem get1_invertCr (nt : Bool) (buf : List UInt8) (i : Nat) :
    get1 (invertCr nt buf) (i + 1) = get1 buf (i + 1) := by
  cases buf <;> simp [invertCr, get1]

theorem isU_invertCr (nt : Bool) (buf : List UInt8) : IsU (invertCr nt buf) ↔ IsU buf := by
  rw [IsU, IsU, get1_invertCr]

theorem isCntl_invertCr (nt : Bool) (buf : List UInt8) : IsCntl (invertCr nt buf) ↔ IsCntl buf := by
  rw [IsCntl, IsCntl, get1_invertCr]

/-- A buffer as layer 3 hands it over: a header, and a message that is sent whole. -/
def Mbuf.Plain (m : Mbuf) : Prop := m.proto1 = false ∧ m.len = iHeaderLen + m.body.length

/-- The zero-length frames that are put in front of a queue are of that kind. -/
theorem Pipe.Zifs.plain {n n' : Nat} {zs : List Mbuf} (h : Zifs n zs n') {m : Mbuf} (hm : m ∈ zs) :
    m.Plain := by
  have hzif : ∀ id, (Mbuf.zif id).Plain := fun _ => ⟨rfl, rfl⟩
  cases h <;> simp only [List.mem_cons, List.not_mem_nil, or_false] at hm
  · exact hm ▸ hzif _
  · exact hm.elim (fun hm => hm ▸ hzif _) fun hm => hm ▸ hzif _

/-- A pipe that is not in use. -/
structure Pipe.Idle (q : Pipe) : Prop where
  state : q.state = .pause
  queue : q.queue = []
  getMbufCallout : q.getMbufCallout = false
  setStateCallout : q.setStateCallout = false

/-- The pipe that a request is about. -/
def Request.pipe : Request → PipeNo
  | .dataReq p _ => p
  | .dataAcknowledge p _ => p
  | .ref p => p
  | .unref p => p

def Down.pipe : Down → PipeNo
  | .request r => r.pipe
  | .activate p => p

/-- Layer 3 uses no pipe but the adapter, as it does on a point-to-point link. -/
structure Env.Single (env : Env) : Prop where
  answer : ∀ n, ∀ d ∈ env.answer n, d.pipe = adapter
  resend : ∀ n, ∀ r ∈ env.resend n, r.pipe = adapter

/-- An event that concerns one end alone, and neither takes a frame nor fetches one. -/
def Event.IsLocal : Event → Prop
  | .putMbuf _ => False
  | .getMbuf => False
  | .detach => False
  | .down d => d.pipe = adapter
  | _ => True

instance decidableIsLocal : DecidablePred Event.IsLocal
  | .putMbuf _ => inferInstanceAs (Decidable False)
  | .getMbuf => inferInstanceAs (Decidable False)
  | .detach => inferInstanceAs (Decidable False)
  | .down d => inferInstanceAs (Decidable (d.pipe = adapter))
  | .getMbufTimeout _ => inferInstanceAs (Decidable True)
  | .setStateTimeout _ => inferInstanceAs (Decidable True)
  | .idRequestTimeout => inferInstanceAs (Decidable True)
  | .l1Activity _ => inferInstanceAs (Decidable True)

namespace Softc

/-- The number the adapter expects. -/
def rxNr (sc : Softc) : Nat := (sc.pipe adapter).rxNr

/-- The other pipes stay as they are, and what is new in the adapter's queue is new and plain. -/
structure Keeps (sc sc' : Softc) : Prop where
  ntMode : sc'.ntMode = sc.ntMode
  pointToPoint : sc'.pointToPoint = sc.pointToPoint
  mbufs : sc.mbufs ≤ sc'.mbufs
  others : ∀ p, p ≠ adapter → sc'.pipe p = sc.pipe p
  pauses : (sc.pipe adapter).pauses ≤ (sc'.pipe adapter).pauses
  acks : (sc.pipe adapter).acks ≤ (sc'.pipe adapter).acks
  frames : (sc'.pipe adapter).acks = (sc.pipe adapter).acks →
    ∀ m ∈ (sc'.pipe adapter).queue, m ∈ (sc.pipe adapter).queue ∨ (sc.mbufs ≤ m.id ∧ m.Plain)

/-- What an end may do without a number from its peer. -/
structure Tells (sc sc' : Softc) : Prop extends Keeps sc sc' where
  cntl : ∃ new, sc'.queue = sc.queue ++ new ∧ ∀ c ∈ new, IsU c
  rxNr : (sc'.pipe adapter).pauses = (sc.pipe adapter).pauses → sc'.rxNr = sc.rxNr

theorem Keeps.trans {sc sc' sc'' : Softc} (h : Keeps sc sc') (h' : Keeps sc' sc'') :
    Keeps sc sc'' where
  ntMode := h'.ntMode.trans h.ntMode
  pointToPoint := h'.pointToPoint.trans h.pointToPoint
  mbufs := h.mbufs.trans h'.mbufs
  others := fun p hp => (h'.others p hp).trans (h.others p hp)
  pauses := h.pauses.trans h'.pauses
  acks := h.acks.trans h'.acks
  frames := by
    intro heq m hm
    have hle := h.acks
    have hle' := h'.acks
    rcases h'.frames (by omega) m hm with hm' | ⟨hid, hplain⟩
    · exact h.frames (by omega) m hm'
    · exact .inr ⟨h.mbufs.trans hid, hplain⟩

namespace Tells

theorem refl (sc : Softc) : Tells sc sc where
  ntMode := rfl
  pointToPoint := rfl
  mbufs := Nat.le_refl _
  others := fun _ _ => rfl
  cntl := ⟨[], by simp⟩
  pauses := Nat.le_refl _
  acks := Nat.le_refl _
  rxNr := fun _ => rfl
  frames := fun _ _ hm => .inl hm

theorem trans {sc sc' sc'' : Softc} (h : Tells sc sc') (h' : Tells sc' sc'') : Tells sc sc'' where
  toKeeps := h.toKeeps.trans h'.toKeeps
  cntl := by
    obtain ⟨new, hnew, hu⟩ := h.cntl
    obtain ⟨new', hnew', hu'⟩ := h'.cntl
    refine ⟨new ++ new', by rw [hnew', hnew, List.append_assoc], ?_⟩
    intro c hc
    exact (List.mem_append.mp hc).elim (hu c) (hu' c)
  rxNr := by
    intro heq
    have hle := h.pauses
    have hle' := h'.pauses
    exact (h'.rxNr (by omega)).trans (h.rxNr (by omega))

/-- Neither the pipes nor the control frames changed. -/
theorem of_eq {sc sc' : Softc} (hnt : sc'.ntMode = sc.ntMode)
    (hptp : sc'.pointToPoint = sc.pointToPoint) (hmbufs : sc.mbufs ≤ sc'.mbufs)
    (hpipe : sc'.pipe = sc.pipe) (hqueue : sc'.queue = sc.queue) : Tells sc sc' where
  ntMode := hnt
  pointToPoint := hptp
  mbufs := hmbufs
  others := fun p _ => by rw [hpipe]
  cntl := ⟨[], by simp [hqueue]⟩
  pauses := by rw [hpipe]
  acks := by rw [hpipe]
  rxNr := fun _ => by rw [Softc.rxNr, Softc.rxNr, hpipe]
  frames := fun _ m hm => .inl (by rwa [hpipe] at hm)

/-- A change to the adapter. -/
theorem modify {sc : Softc} {f : Pipe → Pipe}
    (hpauses : (sc.pipe adapter).pauses ≤ (f (sc.pipe adapter)).pauses)
    (hacks : (sc.pipe adapter).acks ≤ (f (sc.pipe adapter)).acks)
    (hnr : (f (sc.pipe adapter)).pauses = (sc.pipe adapter).pauses →
      (f (sc.pipe adapter)).rxNr = (sc.pipe adapter).rxNr)
    (hframes : (f (sc.pipe adapter)).acks = (sc.pipe adapter).acks →
      ∀ m ∈ (f (sc.pipe adapter)).queue, m ∈ (sc.pipe adapter).queue) :
    Tells sc (sc.modify adapter f) where
  ntMode := rfl
  pointToPoint := rfl
  mbufs := Nat.le_refl _
  others := fun p hp => modify_pipe_of_ne _ _ hp
  cntl := ⟨[], by simp [Softc.modify]⟩
  pauses := by rwa [modify_pipe_self]
  acks := by rwa [modify_pipe_self]
  rxNr := by
    rw [Softc.rxNr, Softc.rxNr, modify_pipe_self]
    exact hnr
  frames := by
    rw [modify_pipe_self]
    exact fun heq m hm => .inl (hframes heq m hm)

/-- A change to the adapter that is about none of that. -/
theorem modify_other {sc : Softc} {f : Pipe → Pipe}
    (hpauses : (f (sc.pipe adapter)).pauses = (sc.pipe adapter).pauses)
    (hacks : (f (sc.pipe adapter)).acks = (sc.pipe adapter).acks)
    (hnr : (f (sc.pipe adapter)).rxNr = (sc.pipe adapter).rxNr)
    (hqueue : (f (sc.pipe adapter)).queue = (sc.pipe adapter).queue) :
    Tells sc (sc.modify adapter f) :=
  modify hpauses.ge hacks.ge (fun _ => hnr) (fun _ m hm => by rwa [hqueue] at hm)

/-- One thing after the other. -/
theorem foldl {α : Type} {f : Softc → α → Softc} {as : List α}
    (hf : ∀ sc, ∀ a ∈ as, sc.pointToPoint = true → Tells sc (f sc a)) {sc : Softc}
    (hptp : sc.pointToPoint = true) : Tells sc (as.foldl f sc) := by
  induction as generalizing sc with
  | nil => exact refl sc
  | cons a as ih =>
    have hfirst := hf sc a List.mem_cons_self hptp
    refine hfirst.trans (ih (fun sc b hb => hf sc b (List.mem_cons_of_mem a hb)) ?_)
    rw [hfirst.pointToPoint, hptp]

end Tells

/-! ## Requests and control frames

A control frame is put at the end of the queue, or it is dropped.
-/

/-- A control frame is put at the end of the queue, if at all. -/
theorem dss1L2DataReq_queue (sc : Softc) (frame : List UInt8) :
    ∃ new, sc.dss1L2DataReq frame = { sc with queue := sc.queue ++ new } ∧
      ∀ c ∈ new, c = frame := by
  rw [dss1L2DataReq]
  split
  · exact ⟨[], by simp⟩
  · exact ⟨[frame], rfl, fun c hc => List.mem_singleton.mp hc⟩

/-- What `dss1_cntl_tx_frame` puts in the queue. -/
theorem dss1CntlTxFrame_queue (env : Env) (sc : Softc) (p : PipeNo) (response : Bool) (cntl : Nat) :
    ∃ n new, sc.mbufs ≤ n ∧
      sc.dss1CntlTxFrame env p response cntl = { sc with mbufs := n, queue := sc.queue ++ new } ∧
      ∀ c ∈ new, get1 c 2 = cntl % 256 ∧ (cntl &&& 2 = 0 →
        get1 c 3 = (UInt8.ofNat ((((sc.pipe p).rxNr <<< 1) &&& 0xfe) ||| response.toNat)).toNat) := by
  rw [dss1CntlTxFrame]
  split
  · simp only
    split
    · exact ⟨sc.mbufs + 1, [], Nat.le_succ _, by simp [getmbuf], by simp⟩
    · obtain ⟨new, hnew, hall⟩ := dss1L2DataReq_queue (sc.getmbuf env).2 (if cntl &&& 2 = 0 then
        [makeSapi sapiCcp response, (sc.pipe p).tei, cntl,
          (((sc.pipe p).rxNr <<< 1) &&& 0xfe) ||| response.toNat].map UInt8.ofNat
        else ([makeSapi sapiCcp response, (sc.pipe p).tei, cntl,
          (((sc.pipe p).rxNr <<< 1) &&& 0xfe) ||| response.toNat].map UInt8.ofNat).take 3)
      refine ⟨sc.mbufs + 1, new, Nat.le_succ _, hnew, ?_⟩
      intro c hc
      rw [hall c hc]
      split
      · exact ⟨by simp [get1], fun _ => rfl⟩
      next hs => exact ⟨by simp [get1], fun h => absurd h hs⟩
  · exact ⟨sc.mbufs, [], Nat.le_refl _, by simp, by simp⟩

/-- A U-frame. -/
theorem dss1CntlTxFrame_tells (env : Env) (sc : Softc) (p : PipeNo) (response : Bool) {cntl : Nat}
    (hu : cntl % 256 &&& 1 ≠ 0 ∧ cntl % 256 &&& 2 ≠ 0) :
    Tells sc (sc.dss1CntlTxFrame env p response cntl) := by
  obtain ⟨n, new, hn, heq, hall⟩ := dss1CntlTxFrame_queue env sc p response cntl
  rw [heq]
  refine { @Tells.of_eq sc { sc with mbufs := n } rfl rfl hn rfl rfl with
    cntl := ⟨new, rfl, ?_⟩ }
  intro c hc
  rw [IsU, (hall c hc).1]
  exact hu

theorem dss1PipeDataReq_tells (sc : Softc) (body : List UInt8) :
    Tells sc (sc.dss1PipeDataReq adapter body) := by
  have hcount : Tells sc { sc with mbufs := sc.mbufs + 1 } :=
    .of_eq rfl rfl (Nat.le_succ _) rfl rfl
  simp only [dss1PipeDataReq]
  split
  · exact hcount
  · refine { hcount with others := ?_, pauses := ?_, acks := ?_, rxNr := ?_, frames := ?_ }
    · intro p hp
      rw [modify_pipe_of_ne _ _ hp]
    · rw [modify_pipe_self, Pipe.enqueue]
    · rw [modify_pipe_self, Pipe.enqueue]
    · rw [modify_pipe_self, Pipe.enqueue]
      intro _ m hm
      rcases List.mem_append.mp hm with hm | hm
      · exact .inl hm
      · obtain rfl := List.mem_singleton.mp hm
        exact .inr ⟨Nat.le_refl _, rfl, rfl⟩
    · rw [Softc.rxNr, modify_pipe_self, Pipe.enqueue]
      exact fun _ => rfl

theorem request_tells (sc : Softc) {r : Request} (hr : r.pipe = adapter) :
    Tells sc (sc.request r) := by
  cases r with
  | dataReq p body =>
    obtain rfl : p = adapter := hr
    exact dss1PipeDataReq_tells sc body
  | dataAcknowledge p cr =>
    obtain rfl : p = adapter := hr
    refine .modify (Nat.le_refl _) (Nat.le_succ _) (fun _ => rfl) ?_
    intro heq
    exact absurd heq (Nat.succ_ne_self _)
  | ref p =>
    obtain rfl : p = adapter := hr
    rw [request]
    exact .modify_other rfl rfl rfl rfl
  | unref p =>
    obtain rfl : p = adapter := hr
    rw [request]
    exact .modify_other rfl rfl rfl rfl

theorem dss1PipeResendInd_tells {env : Env} (henv : env.Single) {sc : Softc}
    (hptp : sc.pointToPoint = true) : Tells sc (sc.dss1PipeResendInd env) := by
  have hcount : Tells sc { sc with upcalls := sc.upcalls + 1 } :=
    .of_eq rfl rfl (Nat.le_refl _) rfl rfl
  exact hcount.trans (.foldl (fun sc r hr _ => request_tells sc (henv.resend _ r hr)) hptp)

/-! ## Pipe states

A change of state may send a U-frame, and the pipe may pause.
-/

theorem enterSingleFrame_tells (env : Env) {sc : Softc} (hptp : sc.pointToPoint = true) :
    Tells sc (sc.enterSingleFrame env adapter) := by
  rw [enterSingleFrame]
  split
  · rw [if_pos (.inl hptp)]
    exact .refl sc
  · exact .refl sc

theorem enterSendTei_tells (env : Env) {sc : Softc} (hptp : sc.pointToPoint = true) :
    Tells sc (sc.enterSendTei env adapter).1 := by
  simp only [enterSendTei, apply_ite Prod.fst, if_pos hptp]
  split
  · exact .modify_other rfl rfl rfl rfl
  · exact .modify_other rfl rfl rfl rfl

theorem enterPause_tells {resetInd : Softc → Softc}
    (hreset : ∀ sc, sc.pointToPoint = true → Tells sc (resetInd sc)) {sc : Softc}
    (hptp : sc.pointToPoint = true) : Tells sc (sc.enterPause resetInd adapter) := by
  refine (hreset sc hptp).trans (.modify (Nat.le_succ _) (Nat.le_refl _) ?_ ?_)
  · intro heq
    exact absurd heq (Nat.succ_ne_self _)
  · intro _ m hm
    exact absurd hm List.not_mem_nil

theorem restartTimeout_tells (sc : Softc) : Tells sc (sc.restartTimeout adapter) := by
  rw [restartTimeout]
  split
  · exact .modify_other rfl rfl rfl rfl
  · exact .refl sc

theorem enterSabmeOrPause_tells (env : Env) {resetInd : Softc → Softc}
    (hreset : ∀ sc, sc.pointToPoint = true → Tells sc (resetInd sc)) {sc : Softc}
    (hptp : sc.pointToPoint = true) : Tells sc (sc.enterSabmeOrPause env resetInd adapter) := by
  rw [enterSabmeOrPause]
  split
  · split
    · exact dss1CntlTxFrame_tells env sc adapter false (by decide)
    · exact .refl sc
  · split
    · exact enterPause_tells hreset hptp
    · exact .refl sc

theorem enterState_tells (env : Env) {resetInd : Softc → Softc}
    (hreset : ∀ sc, sc.pointToPoint = true → Tells sc (resetInd sc)) {sc : Softc}
    (hptp : sc.pointToPoint = true) : Tells sc (sc.enterState env resetInd adapter) := by
  simp only [enterState]
  have hsingle : Tells sc
      (if (sc.pipe adapter).state = .singleFrame then sc.enterSingleFrame env adapter else sc) := by
    split
    · exact enterSingleFrame_tells env hptp
    · exact .refl sc
  refine hsingle.trans ?_
  rw [← hsingle.pointToPoint] at hptp
  generalize (if (sc.pipe adapter).state = .singleFrame then sc.enterSingleFrame env adapter else sc)
    = sc at hptp
  have htei : Tells sc
      (if (sc.pipe adapter).state = .sendTei then sc.enterSendTei env adapter else (sc, false)).1 := by
    split
    · exact enterSendTei_tells env hptp
    · exact .refl sc
  refine htei.trans ?_
  rw [← htei.pointToPoint] at hptp
  generalize (if (sc.pipe adapter).state = .sendTei then sc.enterSendTei env adapter
    else (sc, false)) = r at hptp
  have hlast : Tells r.1 (if r.2 then r.1 else r.1.enterSabmeOrPause env resetInd adapter) := by
    split
    · exact .refl _
    · exact enterSabmeOrPause_tells env hreset hptp
  exact hlast.trans (restartTimeout_tells _)

theorem pipeSetState_tells (env : Env) {resetInd : Softc → Softc}
    (hreset : ∀ sc, sc.pointToPoint = true → Tells sc (resetInd sc)) {sc : Softc}
    (hptp : sc.pointToPoint = true) (new : State) :
    Tells sc (sc.pipeSetState env resetInd adapter new) := by
  rw [pipeSetState]
  split
  · exact .refl sc
  · have hset : Tells sc (sc.modify adapter fun q =>
        { q with state := new, setStateCallout := false }) := .modify_other rfl rfl rfl rfl
    exact hset.trans (enterState_tells env hreset hptp)

theorem dss1PipeActivateReq_tells {env : Env} (henv : env.Single) {sc : Softc}
    (hptp : sc.pointToPoint = true) : Tells sc (sc.dss1PipeActivateReq env adapter) := by
  rw [dss1PipeActivateReq]
  split
  · have href := request_tells sc (r := .ref adapter) rfl
    have hset := pipeSetState_tells env (fun _ => dss1PipeResendInd_tells henv)
      (href.pointToPoint.trans hptp) .sendTei
    exact (href.trans hset).trans (request_tells _ (r := .unref adapter) rfl)
  · exact .refl sc

theorem down_tells {env : Env} (henv : env.Single) {sc : Softc} (hptp : sc.pointToPoint = true)
    {d : Down} (hd : d.pipe = adapter) : Tells sc (sc.down env d) := by
  cases d with
  | request r => exact request_tells sc hd
  | activate p =>
    obtain rfl : p = adapter := hd
    exact dss1PipeActivateReq_tells henv hptp

theorem indicate_tells {env : Env} (henv : env.Single) {sc : Softc}
    (hptp : sc.pointToPoint = true) : Tells sc (sc.indicate env) := by
  have hcount : Tells sc { sc with upcalls := sc.upcalls + 1 } :=
    .of_eq rfl rfl (Nat.le_refl _) rfl rfl
  exact hcount.trans (.foldl (fun _ d hd hptp => down_tells henv hptp (henv.answer _ d hd)) hptp)

theorem dss1PipeSetState_tells {env : Env} (henv : env.Single) {sc : Softc}
    (hptp : sc.pointToPoint = true) (new : State) :
    Tells sc (sc.dss1PipeSetState env adapter new) :=
  pipeSetState_tells env (fun _ => indicate_tells henv) hptp new

theorem checkNr_tells {env : Env} (henv : env.Single) {sc : Softc} (hptp : sc.pointToPoint = true)
    (nr : Nat) : Tells sc (sc.checkNr env adapter nr) := by
  have hnr : Tells sc (sc.modify adapter fun q => { q with txNr := nr }) :=
    .modify_other rfl rfl rfl rfl
  have hset := dss1PipeSetState_tells henv (hnr.pointToPoint.trans hptp)
  simp only [checkNr]
  split
  · exact hnr
  · split
    · exact (hnr.trans (hset .singleFrame)).trans (.modify_other rfl rfl rfl rfl)
    · exact (hnr.trans (hset .multiFrame)).trans (.modify_other rfl rfl rfl rfl)

/-! ## A frame from the peer

Only here an S-frame is made, in answer to a frame that came in, and only here the number that is expected
goes on.
-/

/-- The message that `dss1_l2_put_mbuf` passes on to layer 3 from an I-frame. -/
def passedUp (env : Env) (sc : Softc) (buf : List UInt8) : Option (List UInt8) :=
  let r := sc.lookupPipe env (get1 buf 1) (get1 buf 2)
  r.2.bind fun p =>
    if ¬ IsCntl buf ∧ (r.1.pipe p).rxNr = getNr (get1 buf 2) then some (buf.drop iHeaderLen) else none

/-- The number that is expected after a frame. -/
inductive Turn (env : Env) (sc : Softc) (buf : List UInt8) : Nat → Prop where
  /-- Nothing was passed on. -/
  | same (h : passedUp env sc buf = none) : Turn env sc buf sc.rxNr
  /-- An I-frame was as expected. -/
  | next (hinfo : ¬ IsCntl buf) (hnr : getNr (get1 buf 2) = sc.rxNr)
      (h : passedUp env sc buf = some (buf.drop iHeaderLen)) : Turn env sc buf ((sc.rxNr + 1) % 128)
  | sabme (h : IsSabme buf) : Turn env sc buf 0

theorem Turn.lt {env : Env} {sc : Softc} {buf : List UInt8} {nr : Nat} (hlt : sc.rxNr < 128)
    (h : Turn env sc buf nr) : nr < 128 := by
  cases h with
  | same _ => exact hlt
  | next _ _ _ => exact Nat.mod_lt _ (by decide)
  | sabme _ => decide

/-- Control frames have no message. -/
theorem passedUp_cntl {env : Env} {sc : Softc} {buf : List UInt8} (h : IsCntl buf) :
    passedUp env sc buf = none := by
  simp [passedUp, h]

/-- New control frames are U-frames, or say the number that is expected. -/
def Reports (nr : Nat) (queue queue' : List (List UInt8)) : Prop :=
  ∃ new, queue' = queue ++ new ∧ ∀ c ∈ new, IsCntl c ∧ (IsU c ∨ getNr (get1 c 3) = nr)

theorem Reports.trans {nr : Nat} {queue queue' queue'' : List (List UInt8)} (h : Reports nr queue queue')
    (h' : Reports nr queue' queue'') : Reports nr queue queue'' := by
  obtain ⟨new, hnew, hall⟩ := h
  obtain ⟨new', hnew', hall'⟩ := h'
  refine ⟨new ++ new', by rw [hnew', hnew, List.append_assoc], ?_⟩
  intro c hc
  exact (List.mem_append.mp hc).elim (hall c) (hall' c)

theorem Tells.reports {sc sc' : Softc} (h : Tells sc sc') (nr : Nat) : Reports nr sc.queue sc'.queue := by
  obtain ⟨new, hnew, hu⟩ := h.cntl
  exact ⟨new, hnew, fun c hc => ⟨(hu c hc).isCntl, .inl (hu c hc)⟩⟩

/-- The number in an S-frame or an I-frame. -/
theorem getNr_code {nr b : Nat} (hlt : nr < 128) (hb : b ≤ 1) :
    getNr (UInt8.ofNat (((nr <<< 1) &&& 0xfe) ||| b)).toNat = nr := by
  have hcode : ∀ (n : Fin 128) (b : Fin 2),
      getNr (UInt8.ofNat (((n.val <<< 1) &&& 0xfe) ||| b.val)).toNat = n.val := by
    decide +kernel
  exact hcode ⟨nr, hlt⟩ ⟨b, Nat.lt_succ_of_le hb⟩

/-- An S-frame says the number that is expected. -/
theorem dss1CntlTxFrame_reports (env : Env) (sc : Softc) (response : Bool) {cntl : Nat}
    (hcntl : cntl % 256 &&& 1 ≠ 0 ∧ cntl &&& 2 = 0) :
    ∃ n queue, sc.mbufs ≤ n ∧ (sc.rxNr < 128 → Reports sc.rxNr sc.queue queue) ∧
      sc.dss1CntlTxFrame env adapter response cntl = { sc with mbufs := n, queue := queue } := by
  obtain ⟨n, new, hn, heq, hall⟩ := dss1CntlTxFrame_queue env sc adapter response cntl
  refine ⟨n, sc.queue ++ new, hn, fun hlt => ⟨new, rfl, ?_⟩, heq⟩
  intro c hc
  obtain ⟨h2, h3⟩ := hall c hc
  refine ⟨by rw [IsCntl, h2]; exact hcntl.1, .inr ?_⟩
  rw [h3 hcntl.2]
  exact getNr_code hlt (by cases response <;> decide)

/-- The responses at the end of `dss1_l2_put_mbuf`. -/
theorem respond_reports (env : Env) (sc : Softc) (cntl nr : Nat) (command rej : Bool) :
    ∃ n queue, sc.mbufs ≤ n ∧ (sc.rxNr < 128 → Reports sc.rxNr sc.queue queue) ∧
      sc.respond env adapter cntl nr command rej = { sc with mbufs := n, queue := queue } := by
  have hrefl : ∃ n queue, sc.mbufs ≤ n ∧ (sc.rxNr < 128 → Reports sc.rxNr sc.queue queue) ∧
      sc = { sc with mbufs := n, queue := queue } :=
    ⟨sc.mbufs, sc.queue, Nat.le_refl _, fun _ => ⟨[], by simp, by simp⟩, rfl⟩
  have hfirst : ∃ n queue, sc.mbufs ≤ n ∧ (sc.rxNr < 128 → Reports sc.rxNr sc.queue queue) ∧
      (if cntl &&& 1 ≠ 0 then sc
      else if rej then sc.dss1CntlTxFrame env adapter false cntlRej
      else if nr &&& 1 ≠ 0 then sc.dss1CntlTxFrame env adapter true cntlRr
      else if (sc.pipe adapter).queue.length ≤ (sc.pipe adapter).txWindowSize then
        sc.dss1CntlTxFrame env adapter false cntlRr
      else sc) = { sc with mbufs := n, queue := queue } := by
    split
    · exact hrefl
    · split
      · exact dss1CntlTxFrame_reports env sc false (by decide)
      · split
        · exact dss1CntlTxFrame_reports env sc true (by decide)
        · split
          · exact dss1CntlTxFrame_reports env sc false (by decide)
          · exact hrefl
  obtain ⟨n, queue, hn, hreports, heq⟩ := hfirst
  simp only [respond, heq]
  split
  · obtain ⟨n', queue', hn', hreports', heq'⟩ :=
      @dss1CntlTxFrame_reports env { sc with mbufs := n, queue := queue } true cntlRr (by decide)
    exact ⟨n', queue', hn.trans hn', fun hlt => (hreports hlt).trans (hreports' hlt), heq'⟩
  · exact ⟨n, queue, hn, hreports, rfl⟩

/-- A pipe is found, and if so it is the adapter. -/
theorem lookupPipe_tells {env : Env} (henv : env.Single) {sc : Softc} (hptp : sc.pointToPoint = true)
    (tei cntl : Nat) : Tells sc (sc.lookupPipe env tei cntl).1 ∧
      ((sc.lookupPipe env tei cntl).2 = none ∨ (sc.lookupPipe env tei cntl).2 = some adapter) := by
  rw [lookupPipe]
  split
  · exact ⟨.refl sc, .inr rfl⟩
  · split
    · exact ⟨.refl sc, .inl rfl⟩
    · exact ⟨dss1PipeActivateReq_tells henv hptp, .inr rfl⟩

/-- What comes of a frame for all that another may know of an end. -/
structure Hears (env : Env) (buf : List UInt8) (sc sc' : Softc) : Prop extends Keeps sc sc' where
  turn : Turn env sc buf sc'.rxNr
  reports : Reports sc'.rxNr sc.queue sc'.queue

theorem Tells.hears {env : Env} {sc sc' : Softc} {buf : List UInt8} (h : Tells sc sc')
    (hpauses : (sc'.pipe adapter).pauses = (sc.pipe adapter).pauses)
    (hnone : passedUp env sc buf = none) : Hears env buf sc sc' := by
  refine ⟨h.toKeeps, ?_, h.reports _⟩
  rw [h.rxNr hpauses]
  exact .same hnone

theorem receiveU_hears {env : Env} (henv : env.Single) {sc sc1 sc' : Softc}
    (hptp : sc.pointToPoint = true) {buf : List UInt8} {sapi : Nat} (hbuf : IsU buf)
    (h1 : Tells sc sc1) (h : sc1.receiveU env adapter buf sapi (get1 buf 2) = some sc')
    (hpauses : (sc'.pipe adapter).pauses = (sc.pipe adapter).pauses) : Hears env buf sc sc' := by
  have hptp1 := h1.pointToPoint.trans hptp
  have hnone : passedUp env sc buf = none := passedUp_cntl hbuf.isCntl
  have hua : Tells sc1
      (sc1.dss1CntlTxFrame env adapter true (cntlUa ||| (get1 buf 2 &&& cntlPfBit))) := by
    have hcode : ∀ c : Fin 256, (cntlUa ||| (c.val &&& cntlPfBit)) % 256 &&& 1 ≠ 0 ∧
        (cntlUa ||| (c.val &&& cntlPfBit)) % 256 &&& 2 ≠ 0 := by
      decide +kernel
    exact dss1CntlTxFrame_tells env sc1 adapter true (hcode ⟨get1 buf 2, UInt8.toNat_lt _⟩)
  have h2 := h1.trans hua
  have hptp2 := hua.pointToPoint.trans hptp1
  simp only [receiveU] at h
  split at h
  · split at h
    · split at h
      · rw [dss1TeiRxFrame, if_pos hptp1] at h
        obtain rfl := Option.some.inj h
        exact h1.hears hpauses hnone
      · obtain rfl := Option.some.inj h
        exact h1.hears hpauses hnone
    · split at h
      · obtain rfl := Option.some.inj h
        exact (h1.trans (indicate_tells henv hptp1)).hears hpauses hnone
      · obtain rfl := Option.some.inj h
        exact h1.hears hpauses hnone
  · split at h
    next hsabme =>
      obtain rfl := Option.some.inj h
      have h3 := h2.trans (dss1PipeSetState_tells henv hptp2 .sendUa)
      refine ⟨{ h3.toKeeps with others := ?_, pauses := ?_, acks := ?_, frames := ?_ }, ?_, h3.reports _⟩
      · intro p hp
        rw [modify_pipe_of_ne _ _ hp]
        exact h3.others p hp
      · rw [modify_pipe_self]
        exact h3.pauses
      · rw [modify_pipe_self]
        exact h3.acks
      · rw [modify_pipe_self]
        exact h3.frames
      · rw [Softc.rxNr, modify_pipe_self]
        exact .sabme ⟨hbuf, hsabme⟩
    next =>
      split at h
      · obtain rfl := Option.some.inj h
        exact (h2.trans (dss1PipeSetState_tells henv hptp2 .pause)).hears hpauses hnone
      · obtain rfl := Option.some.inj h
        exact h1.hears hpauses hnone

/-- The end of a frame with a number: `check_NR`, and the responses. -/
theorem checkNr_respond_hears {env : Env} (henv : env.Single) {sc sc1 : Softc}
    (hptp1 : sc1.pointToPoint = true) {buf : List UInt8} {nr cntl : Nat} (command rej : Bool)
    (hlt : sc.rxNr < 128) (hkeeps : Keeps sc sc1)
    (hturn : (sc1.pipe adapter).pauses = (sc.pipe adapter).pauses → Turn env sc buf sc1.rxNr)
    (hreports : ∀ nr, Reports nr sc.queue sc1.queue)
    (hpauses : (((sc1.checkNr env adapter (getNr nr)).respond env adapter cntl nr command rej).pipe
      adapter).pauses = (sc.pipe adapter).pauses) :
    Hears env buf sc
      ((sc1.checkNr env adapter (getNr nr)).respond env adapter cntl nr command rej) := by
  have hcheck := checkNr_tells henv hptp1 (getNr nr)
  generalize sc1.checkNr env adapter (getNr nr) = sc2 at hcheck hpauses ⊢
  obtain ⟨n, queue, hn, hreports', heq⟩ := respond_reports env sc2 cntl nr command rej
  rw [heq] at hpauses ⊢
  change (sc2.pipe adapter).pauses = (sc.pipe adapter).pauses at hpauses
  have hle := hkeeps.pauses
  have hle' := hcheck.pauses
  have hturn2 := hturn (by omega)
  have hrx : sc2.rxNr = sc1.rxNr := hcheck.rxNr (by omega)
  have hlt2 : sc2.rxNr < 128 := hrx ▸ hturn2.lt hlt
  have hkeeps2 := hkeeps.trans hcheck.toKeeps
  refine ⟨{ hkeeps2 with mbufs := hkeeps2.mbufs.trans hn }, ?_,
    ((hreports _).trans (hcheck.reports _)).trans (hreports' hlt2)⟩
  rw [← hrx] at hturn2
  exact hturn2

/-- The number that is expected goes on by one. -/
theorem expectNext_keeps (sc : Softc) :
    let sc' := sc.modify adapter fun q => { q with rxNr := (q.rxNr + 1) % 128 }
    Keeps sc sc' ∧ (sc'.pipe adapter).pauses = (sc.pipe adapter).pauses ∧ sc'.queue = sc.queue ∧
      sc'.rxNr = (sc.rxNr + 1) % 128 := by
  refine ⟨⟨rfl, rfl, Nat.le_refl _, fun p hp => modify_pipe_of_ne _ _ hp, ?_, ?_, ?_⟩, ?_, rfl, ?_⟩
  · rw [modify_pipe_self]
  · rw [modify_pipe_self]
  · rw [modify_pipe_self]
    exact fun _ m hm => .inl hm
  · rw [modify_pipe_self]
  · rw [Softc.rxNr, modify_pipe_self, Softc.rxNr]

/-- **A frame from the peer**, which does not make the adapter pause. -/
theorem putMbuf_hears {env : Env} (henv : env.Single) {sc sc' : Softc}
    (hptp : sc.pointToPoint = true) (hlt : sc.rxNr < 128) {buf : List UInt8}
    (h : sc.dss1L2PutMbuf env buf = some sc')
    (hpauses : (sc'.pipe adapter).pauses = (sc.pipe adapter).pauses) : Hears env buf sc sc' := by
  obtain ⟨hlookup, hfound⟩ := lookupPipe_tells henv hptp (get1 buf 1) (get1 buf 2)
  have hpassed : passedUp env sc buf = (sc.lookupPipe env (get1 buf 1) (get1 buf 2)).2.bind fun p =>
      if ¬ IsCntl buf ∧ ((sc.lookupPipe env (get1 buf 1) (get1 buf 2)).1.pipe p).rxNr
        = getNr (get1 buf 2) then some (buf.drop iHeaderLen) else none := rfl
  simp only [dss1L2PutMbuf] at h
  generalize sc.lookupPipe env (get1 buf 1) (get1 buf 2) = r at h hlookup hfound hpassed
  have hptp1 := hlookup.pointToPoint.trans hptp
  obtain hnone | hsome := hfound
  · rw [hnone] at h hpassed
    obtain rfl := Option.some.inj h
    exact hlookup.hears hpauses hpassed
  · simp only [hsome] at h
    split at h
    next h1 =>
      split at h
      next h2 => exact receiveU_hears henv hptp ⟨h1, h2⟩ hlookup h hpauses
      next =>
        obtain rfl := Option.some.inj h
        refine checkNr_respond_hears henv hptp1 _ _ hlt hlookup.toKeeps ?_ hlookup.reports hpauses
        intro hpauses1
        rw [hlookup.rxNr hpauses1]
        exact .same (passedUp_cntl h1)
    next h1 =>
      obtain rfl := Option.some.inj h
      rw [hsome, Option.bind_some] at hpassed
      simp only [receiveI] at hpauses ⊢
      split at hpauses
      next hnr =>
        -- the frame has the number that is expected, and layer 3 gets its message
        rw [if_pos hnr]
        obtain ⟨hrx, hpausesrx, hqueuerx, hnext⟩ := expectNext_keeps r.1
        have hind := indicate_tells henv (hrx.pointToPoint.trans hptp1)
        generalize r.1.modify adapter (fun q => { q with rxNr := (q.rxNr + 1) % 128 }) = sc2 at *
        refine checkNr_respond_hears henv (hind.pointToPoint.trans (hrx.pointToPoint.trans hptp1)) _ _
          hlt ((hlookup.toKeeps.trans hrx).trans hind.toKeeps) ?_ ?_ hpauses
        · intro hpauses1
          have hle := hlookup.pauses
          have hle' := hind.pauses
          have hrx1 := hlookup.rxNr (by omega)
          rw [hind.rxNr (by omega), hnext, hrx1]
          refine .next h1 ?_ (by rw [hpassed, if_pos ⟨h1, hnr⟩])
          rw [← hrx1, Softc.rxNr, hnr]
        · intro nr
          refine (hlookup.reports nr).trans ?_
          rw [← hqueuerx]
          exact hind.reports nr
      next hnr =>
        rw [if_neg hnr]
        refine checkNr_respond_hears henv hptp1 _ _ hlt hlookup.toKeeps ?_ hlookup.reports hpauses
        intro hpauses1
        rw [hlookup.rxNr hpauses1]
        exact .same (by rw [hpassed, if_neg (fun h => hnr h.2)])

/-! ## Events of one end

What is left are timers, requests and layer 1.
-/

/-- All pipes but the adapter are idle. -/
def Alone (sc : Softc) : Prop := ∀ p, p ≠ adapter → (sc.pipe p).Idle

theorem Keeps.alone {sc sc' : Softc} (h : Keeps sc sc') (halone : sc.Alone) : sc'.Alone := by
  intro p hp
  rw [h.others p hp]
  exact halone p hp

/-- **An event of one end alone**: a timer expires, layer 3 asks for something, layer 1 goes up or
down. -/
theorem step_tells {env : Env} (henv : env.Single) {sc sc' : Softc} (hptp : sc.pointToPoint = true)
    (halone : sc.Alone) {ev : Event} {out : Option Out} (hev : ev.IsLocal)
    (h : sc.step env ev = some (sc', out)) : Tells sc sc' ∧ out = none := by
  cases ev with
  | putMbuf buf => exact hev.elim
  | getMbuf => exact hev.elim
  | detach => exact hev.elim
  | getMbufTimeout p =>
    rw [step] at h
    split at h
    next hcallout =>
      obtain ⟨rfl, rfl⟩ := Prod.mk.inj (Option.some.inj h)
      obtain rfl : p = adapter := by
        by_contra hp
        rw [(halone p hp).getMbufCallout] at hcallout
        exact absurd hcallout (by decide)
      have hclear : Tells sc (sc.modify adapter fun q => { q with getMbufCallout := false }) :=
        .modify_other rfl rfl rfl rfl
      refine ⟨hclear.trans ?_, rfl⟩
      rw [dss1L2GetMbufTimeout]
      split
      · exact .modify_other rfl rfl rfl rfl
      · exact .refl _
    next =>
      obtain ⟨rfl, rfl⟩ := Prod.mk.inj (Option.some.inj h)
      exact ⟨.refl sc, rfl⟩
  | setStateTimeout p =>
    rw [step] at h
    split at h
    next hcallout =>
      obtain ⟨rfl, rfl⟩ := Prod.mk.inj (Option.some.inj h)
      obtain rfl : p = adapter := by
        by_contra hp
        rw [(halone p hp).setStateCallout] at hcallout
        exact absurd hcallout (by decide)
      have hclear : Tells sc (sc.modify adapter fun q => { q with setStateCallout := false }) :=
        .modify_other rfl rfl rfl rfl
      refine ⟨hclear.trans ?_, rfl⟩
      rw [dss1PipeSetStateTimeout]
      split
      · exact dss1PipeSetState_tells henv (hclear.pointToPoint.trans hptp) _
      · exact .refl _
    next =>
      obtain ⟨rfl, rfl⟩ := Prod.mk.inj (Option.some.inj h)
      exact ⟨.refl sc, rfl⟩
  | idRequestTimeout =>
    obtain ⟨rfl, rfl⟩ := Prod.mk.inj (Option.some.inj h)
    exact ⟨.of_eq rfl rfl (Nat.le_refl _) rfl rfl, rfl⟩
  | down d =>
    obtain ⟨rfl, rfl⟩ := Prod.mk.inj (Option.some.inj h)
    exact ⟨down_tells henv hptp hev, rfl⟩
  | l1Activity up =>
    obtain ⟨rfl, rfl⟩ := Prod.mk.inj (Option.some.inj h)
    exact ⟨.of_eq rfl rfl (Nat.le_refl _) rfl rfl, rfl⟩

/-! ## A frame to the peer

A control frame that waits goes first, and otherwise the window of the adapter is served.
-/

/-- What one round of the loop of `dss1_l2_get_mbuf` may change. -/
structure Serves (sc sc' : Softc) : Prop extends Tells sc sc' where
  queue : sc'.queue = sc.queue
  pausesEq : (sc'.pipe adapter).pauses = (sc.pipe adapter).pauses
  acksEq : (sc'.pipe adapter).acks = (sc.pipe adapter).acks

namespace Serves

theorem refl (sc : Softc) : Serves sc sc := ⟨.refl sc, rfl, rfl, rfl⟩

theorem trans {sc sc' sc'' : Softc} (h : Serves sc sc') (h' : Serves sc' sc'') : Serves sc sc'' :=
  ⟨h.toTells.trans h'.toTells, h'.queue.trans h.queue, h'.pausesEq.trans h.pausesEq,
    h'.acksEq.trans h.acksEq⟩

/-- Only the cursor changed, and buffers were asked for. -/
theorem of_eq {sc sc' : Softc} (hnt : sc'.ntMode = sc.ntMode)
    (hptp : sc'.pointToPoint = sc.pointToPoint) (hmbufs : sc.mbufs ≤ sc'.mbufs)
    (hpipe : sc'.pipe = sc.pipe) (hqueue : sc'.queue = sc.queue) : Serves sc sc' :=
  ⟨.of_eq hnt hptp hmbufs hpipe hqueue, hqueue, by rw [hpipe], by rw [hpipe]⟩

end Serves

/-- What an I-frame of the adapter tells the peer. -/
structure Carries (q : Pipe) (f : TxFrame) : Prop where
  pipe : f.pipe = adapter
  numbered : f.unnumbered = false
  info : ¬ IsCntl f.bytes
  nr : getNr (get1 f.bytes 3) = q.rxNr
  mbuf : f.mbuf ∈ q.queue
  body : f.mbuf.Plain → ¬ f.mbuf.isZif → f.bytes.drop iHeaderLen = f.mbuf.body

/-- On a point-to-point link only the adapter is served. -/
theorem mayServe_alone {sc : Softc} (hptp : sc.pointToPoint = true) (halone : sc.Alone) {p : PipeNo}
    (h : sc.mayServe p) : p = adapter ∧ (sc.pipe p).state.isTeiAssigned := by
  rcases h with hstate | ⟨_, hbus, _⟩
  · refine ⟨?_, hstate⟩
    by_contra hp
    rw [(halone p hp).state] at hstate
    exact absurd hstate (by decide)
  · exact absurd (hbus.symm.trans hptp) (by decide)

theorem served_serves {env : Env} {sc sc1 : Softc} (hw : Windows adapter sc)
    (h : sc.served env adapter = some sc1) : Serves sc sc1 := by
  rw [served] at h
  split at h
  · obtain ⟨zs, n', max, ho, heq⟩ := reopen_of_windowOk env (hw.2 adapter)
    obtain rfl := Option.some.inj (heq.symm.trans h)
    refine ⟨⟨⟨rfl, rfl, ho.zifs.le, ?_, ?_, ?_, ?_⟩, ⟨[], by simp⟩, ?_⟩, rfl, ?_, ?_⟩
    · intro p hp
      simp only [Function.update_of_ne hp]
    · simp only [Function.update_self, Pipe.opened, Nat.le_refl]
    · simp only [Function.update_self, Pipe.opened, Nat.le_refl]
    · simp only [Function.update_self, Pipe.opened]
      intro _ m hm
      rcases List.mem_append.mp hm with hm | hm
      · exact .inr ⟨(ho.zifs.id_mem hm).1, ho.zifs.plain hm⟩
      · exact .inl (List.mem_of_mem_drop hm)
    · simp only [Softc.rxNr, Function.update_self, Pipe.opened, implies_true]
    · simp only [Function.update_self, Pipe.opened]
    · simp only [Function.update_self, Pipe.opened]
  · exact Option.some.inj h ▸ .refl sc

/-- The bytes of an I-frame are its header and the message of its buffer. -/
theorem carries_frameBytes {sc : Softc} (hlt : sc.rxNr < 128) {m : Mbuf} {nr : Nat}
    (hstate : (sc.pipe adapter).state.isTeiAssigned) (hm : m ∈ (sc.pipe adapter).queue) :
    Carries (sc.pipe adapter) ⟨adapter, m, false, nr, sc.frameBytes (sc.pipe adapter) m⟩ := by
  refine ⟨rfl, rfl, ?_, ?_, hm, ?_⟩
  · have hcode : ∀ n : Fin 256, (UInt8.ofNat (n.val &&& 0xfe)).toNat &&& 1 = 0 := by
      decide +kernel
    have hget : get1 (sc.frameBytes (sc.pipe adapter) m) 2
        = (UInt8.ofNat ((sc.curTxNr <<< 1) &&& 0xfe)).toNat := by
      simp [frameBytes, hstate, get1, invertCr]
    have hmask : (sc.curTxNr <<< 1) &&& 0xfe = ((sc.curTxNr <<< 1) &&& 0xfe) &&& 0xfe := by
      rw [Nat.and_assoc, Nat.and_self]
    rw [IsCntl, hget, not_not, hmask]
    exact hcode ⟨(sc.curTxNr <<< 1) &&& 0xfe, Nat.lt_of_le_of_lt Nat.and_le_right (by decide)⟩
  · have hget : get1 (sc.frameBytes (sc.pipe adapter) m) 3 = (UInt8.ofNat (((sc.rxNr <<< 1) &&& 0xfe) |||
        (if sc.curLength = 1 then 1 else 0))).toNat := by
      simp [frameBytes, hstate, get1, invertCr, Softc.rxNr]
    rw [hget]
    exact getNr_code hlt (by split <;> decide)
  · rintro ⟨hproto, hlen⟩ hdata
    change m.proto1 = false at hproto
    change m.len = iHeaderLen + m.body.length at hlen
    have hlong : ¬ m.len < 5 := fun hlt => hdata (Nat.le_of_lt_succ hlt)
    have htake : m.body.take (m.len - 4) = m.body := by
      rw [hlen]
      exact List.take_of_length_le (by simp [iHeaderLen])
    simp [frameBytes, hstate, hproto, hlong, htake, invertCr, iHeaderLen]

theorem servePipe_serves {env : Env} {sc sc' : Softc} (hptp : sc.pointToPoint = true)
    (halone : sc.Alone) (hlt : sc.rxNr < 128) {p : PipeNo} (hw : Windows p sc) {o : Option TxFrame}
    (h : sc.servePipe env p = some (sc', o)) :
    Serves sc sc' ∧ ∀ f, o = some f → Carries (sc'.pipe adapter) f := by
  obtain ⟨_, rfl, rfl⟩ | ⟨hmay, sc1, hserved, hrest⟩ := servePipe_cases h
  · exact ⟨.refl _, by simp⟩
  · obtain ⟨rfl, _⟩ := mayServe_alone hptp halone hmay
    have h1 := served_serves hw hserved
    obtain ⟨_, rfl, rfl⟩ | ⟨_, hsend⟩ := hrest
    · exact ⟨h1, by simp⟩
    · obtain ⟨i, m, sc2, _, rfl, hm, rfl, rfl⟩ := transmit_eq_some hsend
      have hstate : (sc1.pipe adapter).state.isTeiAssigned :=
        (mayServe_alone (h1.pointToPoint.trans hptp) (h1.alone halone)
          ((served_mayServe hserved).mpr hmay)).2
      simp only [hstate, not_true_eq_false, if_false] at hm ⊢
      refine ⟨h1.trans (.of_eq rfl rfl (Nat.le_succ _) rfl rfl), ?_⟩
      intro f hf
      split at hf
      · obtain rfl := Option.some.inj hf
        have hlt1 : sc1.rxNr < 128 := by rwa [h1.rxNr h1.pausesEq]
        simpa using @carries_frameBytes _ hlt1 _ sc1.curTxNr hstate (List.mem_of_getElem? hm)
      · exact absurd hf (by simp)

theorem passOver_serves {sc : Softc} (halone : sc.Alone) (p : PipeNo) :
    Serves sc (sc.passOver p) := by
  rw [passOver]
  split
  next hqueue =>
    obtain rfl : p = adapter := by
      by_contra hp
      exact hqueue (halone p hp).queue
    have hcallout : Serves sc (sc.modify adapter fun q => { q with getMbufCallout := true }) :=
      ⟨.modify_other rfl rfl rfl rfl, rfl, by rw [modify_pipe_self], by rw [modify_pipe_self]⟩
    exact hcallout.trans (.of_eq rfl rfl (Nat.le_refl _) rfl rfl)
  next => exact .of_eq rfl rfl (Nat.le_refl _) rfl rfl

/-- The loop is entered only when no control frame is waiting. -/
theorem Visit.queue {env : Env} {sc sc1 : Softc} {n : Nat} {p : PipeNo}
    (h : Visit env sc n sc1 p) : sc.queue = [] := by
  induction h with
  | start hqueue => exact hqueue
  | next _ _ ih => exact ih

/-- The loop of `dss1_l2_get_mbuf` up to a pipe it comes to. -/
theorem visit_serves {env : Env} {sc sc1 : Softc} {n : Nat} {p : PipeNo}
    (hptp : sc.pointToPoint = true) (halone : sc.Alone) (hlt : sc.rxNr < 128)
    (hw : Windows sc.curPipe sc) (hvisit : Visit env sc n sc1 p) : Serves sc sc1 := by
  induction hvisit with
  | start => exact .refl sc
  | @next n sc1 sc2 p hvisit hserve ih =>
    have hw1 := (windows_stable env).visit hvisit hw
    have hlt1 : sc1.rxNr < 128 := by rwa [ih.rxNr ih.pausesEq]
    have h2 := (servePipe_serves (ih.pointToPoint.trans hptp) (ih.alone halone) hlt1 hw1 hserve).1
    exact (ih.trans h2).trans (passOver_serves (h2.alone (ih.alone halone)) p)

/-- **A frame to the peer**: a control frame that was waiting, or an I-frame when none is. -/
theorem getMbuf_carries {env : Env} {sc sc' : Softc} (hptp : sc.pointToPoint = true)
    (halone : sc.Alone) (hlt : sc.rxNr < 128) (hw : Windows sc.curPipe sc) {out : Option Out}
    (h : sc.dss1L2GetMbuf env = some (sc', out)) :
    (∃ c cs, sc.queue = c :: cs ∧ sc' = { sc with queue := cs } ∧
      out = some (.control (invertCr sc.ntMode c))) ∨
    (sc.queue = [] ∧ Serves sc sc' ∧
      ∀ o, out = some o → ∃ f, o = .frame f ∧ Carries (sc'.pipe adapter) f) := by
  obtain hcontrol | ⟨k, sc1, p, sc2, o, hvisit, hserve, rfl, rfl⟩ := dss1L2GetMbuf_cases h
  · exact .inl hcontrol
  · have hqueue : sc.queue = [] := hvisit.queue
    have h1 := visit_serves hptp halone hlt hw hvisit
    have hw1 := (windows_stable env).visit hvisit hw
    have hlt1 : sc1.rxNr < 128 := by rwa [h1.rxNr h1.pausesEq]
    obtain ⟨h2, hcarries⟩ :=
      servePipe_serves (h1.pointToPoint.trans hptp) (h1.alone halone) hlt1 hw1 hserve
    refine .inr ⟨hqueue, ?_, ?_⟩
    · split
      · exact (h1.trans h2).trans (.of_eq rfl rfl (Nat.le_refl _) rfl rfl)
      · have h3 := passOver_serves (h2.alone (h1.alone halone)) p
        exact ((h1.trans h2).trans h3).trans (.of_eq rfl rfl (Nat.le_refl _) rfl rfl)
    · intro o' ho
      obtain ⟨f, rfl, rfl⟩ := Option.map_eq_some_iff.mp ho
      exact ⟨f, rfl, hcarries f rfl⟩

end Softc
end L2
end Isdn4bsd
