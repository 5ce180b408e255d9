import Isdn4bsd.L2.Run

/-!
# Layer 2: invariants

`dss1_l2_get_mbuf` goes round the pipes, from the one the cursor is on, until one of them has a frame
for layer 1.  `Visit` says that a call comes to a pipe, and with what softc, so that a result can
speak about the middle of the loop; `dss1L2GetMbuf_cases` says how a call ends.

An invariant of the softc is stated for a pipe `c` the cursor is on, which is `sc_current_pipe` between
the calls and the pipe being visited during one.  `Stable` lists what there is to show of it, and
`Stable.reachable` and `Stable.visit` are what it is shown for: it holds in every state that can be
reached, and whenever the loop comes to a pipe.

## Why the cursor is named

There is one cursor for all pipes.  While a pipe is visited the cursor is set for it, and if the call finds
nothing to send there it is left with nothing to send, and goes on to the next pipe (`passOver`).  An
invariant that ties the cursor to a pipe therefore has to hold in the middle of the loop, where
`sc_current_pipe` has been changed already or not yet.  With the pipe as an argument of the invariant,
"nothing is left to send" makes it true of any pipe (`Stable` asks for that), and this is how it gets from one pipe
to the next.

`Stable.and` puts two invariants together, the second of which may use the first; the invariants of `Window`,
`Cursor` and `Zif` are built on each other in this way.
-/

set_option autoImplicit false

namespace Isdn4bsd
namespace L2
namespace Softc

/-! ## The loop of `dss1_l2_get_mbuf` -/

/-- The loop comes to a pipe, with that many rounds to go. -/
inductive Visit (env : Env) (sc : Softc) : Nat → Softc → PipeNo → Prop where
  | start (hqueue : sc.queue = []) : Visit env sc 16 sc sc.curPipe
  | next {n : Nat} {sc1 sc2 : Softc} {p : PipeNo} (hvisit : Visit env sc (n + 2) sc1 p)
      (hserve : sc1.servePipe env p = some (sc2, none)) :
      Visit env sc (n + 1) (sc2.passOver p) (p + 1)

/-- How the loop ends, from a pipe it has come to. -/
theorem serveFrom_cases {env : Env} {sc sc1 sc' : Softc} {n : Nat} {p : PipeNo} {o : Option TxFrame}
    (hvisit : Visit env sc (n + 1) sc1 p) (h : serveFrom env (n + 1) sc1 p = some (sc', o)) :
    ∃ k sc1 p sc2, Visit env sc k sc1 p ∧ sc1.servePipe env p = some (sc2, o) ∧
      sc' = if o.isSome then { sc2 with curPipe := p } else { sc2.passOver p with curPipe := p + 1 } := by
  induction n generalizing sc1 p with
  | zero =>
    rw [serveFrom, Option.bind_eq_bind, Option.bind_eq_some_iff] at h
    obtain ⟨⟨sc2, o2⟩, hserve, h⟩ := h
    cases o2 with
    | some f =>
      obtain ⟨rfl, rfl⟩ := Prod.mk.inj (Option.some.inj h)
      exact ⟨_, sc1, p, sc2, hvisit, hserve, rfl⟩
    | none =>
      obtain ⟨rfl, rfl⟩ := Prod.mk.inj (Option.some.inj h)
      exact ⟨_, sc1, p, sc2, hvisit, hserve, rfl⟩
  | succ n ih =>
    rw [serveFrom, Option.bind_eq_bind, Option.bind_eq_some_iff] at h
    obtain ⟨⟨sc2, o2⟩, hserve, h⟩ := h
    cases o2 with
    | some f =>
      obtain ⟨rfl, rfl⟩ := Prod.mk.inj (Option.some.inj h)
      exact ⟨_, sc1, p, sc2, hvisit, hserve, rfl⟩
    | none => exact ih (hvisit.next hserve) h

/-- **How `dss1_l2_get_mbuf` ends**: with a control frame, or at a pipe it has come to, which has a
frame or is the last one. -/
theorem dss1L2GetMbuf_cases {env : Env} {sc sc' : Softc} {out : Option Out}
    (h : sc.dss1L2GetMbuf env = some (sc', out)) :
    (∃ c cs, sc.queue = c :: cs ∧ sc' = { sc with queue := cs } ∧
      out = some (.control (invertCr sc.ntMode c))) ∨
    (∃ k sc1 p sc2 o, Visit env sc k sc1 p ∧ sc1.servePipe env p = some (sc2, o) ∧
      out = o.map Out.frame ∧
      sc' = if o.isSome then { sc2 with curPipe := p }
        else { sc2.passOver p with curPipe := p + 1 }) := by
  rw [dss1L2GetMbuf] at h
  split at h
  next c cs hqueue =>
    obtain ⟨rfl, rfl⟩ := Prod.mk.inj (Option.some.inj h)
    exact .inl ⟨c, cs, hqueue, rfl, rfl⟩
  next hqueue =>
    rw [Option.map_eq_some_iff] at h
    obtain ⟨⟨sc3, o⟩, hserve, heq⟩ := h
    obtain ⟨rfl, rfl⟩ := Prod.mk.inj heq
    obtain ⟨k, sc1, p, sc2, hvisit, hserve, hsc'⟩ := serveFrom_cases (.start hqueue) hserve
    exact .inr ⟨k, sc1, p, sc2, o, hvisit, hserve, rfl, hsc'⟩

theorem serveFrom_isSome {env : Env} {sc sc1 : Softc} {n : Nat} {p : PipeNo}
    (hsome : ∀ k sc1 p, Visit env sc k sc1 p → (sc1.servePipe env p).isSome)
    (hvisit : Visit env sc (n + 1) sc1 p) : (serveFrom env (n + 1) sc1 p).isSome := by
  induction n generalizing sc1 p with
  | zero =>
    obtain ⟨⟨sc2, o⟩, hserve⟩ := Option.isSome_iff_exists.mp (hsome _ _ _ hvisit)
    rw [serveFrom, hserve]
    cases o <;> rfl
  | succ n ih =>
    obtain ⟨⟨sc2, o⟩, hserve⟩ := Option.isSome_iff_exists.mp (hsome _ _ _ hvisit)
    rw [serveFrom, hserve]
    cases o with
    | some f => rfl
    | none => exact ih (hvisit.next hserve)

/-- A call of `dss1_l2_get_mbuf` has a result if each visit to a pipe has one. -/
theorem dss1L2GetMbuf_isSome {env : Env} {sc : Softc}
    (hsome : ∀ k sc1 p, Visit env sc k sc1 p → (sc1.servePipe env p).isSome) :
    (sc.dss1L2GetMbuf env).isSome := by
  rw [dss1L2GetMbuf]
  split
  · rfl
  next hqueue =>
    rw [Option.isSome_map]
    exact serveFrom_isSome hsome (.start hqueue)

/-- **A visit to a pipe**: it is not served, it has nothing to send, or the frame at the cursor is
sent. -/
theorem servePipe_cases {env : Env} {sc sc' : Softc} {p : PipeNo} {o : Option TxFrame}
    (h : sc.servePipe env p = some (sc', o)) :
    (¬ sc.mayServe p ∧ sc' = sc ∧ o = none) ∨
    (sc.mayServe p ∧ ∃ sc1, sc.served env p = some sc1 ∧
      ((sc1.curLength = 0 ∧ sc' = sc1 ∧ o = none) ∨
        (sc1.curLength ≠ 0 ∧ sc1.transmit env p = some (sc', o)))) := by
  rw [servePipe] at h
  split at h
  next hmay =>
    rw [Option.bind_eq_some_iff] at h
    obtain ⟨sc1, hopen, h⟩ := h
    refine .inr ⟨hmay, sc1, hopen, ?_⟩
    split at h
    next hlen => exact .inr ⟨hlen, h⟩
    next hlen =>
      obtain ⟨rfl, rfl⟩ := Prod.mk.inj (Option.some.inj h)
      exact .inl ⟨not_not.mp hlen, rfl, rfl⟩
  next hmay =>
    obtain ⟨rfl, rfl⟩ := Prod.mk.inj (Option.some.inj h)
    exact .inl ⟨hmay, rfl, rfl⟩

/-- A visit has a result if the window can be opened and the cursor points into the queue. -/
theorem servePipe_isSome {env : Env} {sc : Softc} {p : PipeNo}
    (hopen : sc.mayServe p → (sc.served env p).isSome)
    (hsend : ∀ sc1, sc.mayServe p → sc.served env p = some sc1 → sc1.curLength ≠ 0 →
      (sc1.transmit env p).isSome) : (sc.servePipe env p).isSome := by
  rw [servePipe]
  split
  next hmay =>
    obtain ⟨sc1, hserved⟩ := Option.isSome_iff_exists.mp (hopen hmay)
    rw [hserved, Option.bind_some]
    split
    next hlen => exact hsend sc1 hmay hserved hlen
    next => rfl
  next => rfl

/-- What `transmit` does, when the cursor is at position `i` of the queue. -/
theorem transmit_eq_some {env : Env} {sc sc' : Softc} {p : PipeNo} {o : Option TxFrame}
    (h : sc.transmit env p = some (sc', o)) :
    ∃ i m sc1, (sc.pipe p).find sc.curMbuf = some i ∧
      sc1 = (if ¬ (sc.pipe p).state.isTeiAssigned then sc.modify p (Pipe.sendUnnumbered i) else sc) ∧
      (sc1.pipe p).queue[i]? = some m ∧
      sc' = { sc1 with
        curMbuf := ((sc1.pipe p).queue[i + 1]?).map Mbuf.id
        curLength := sc.curLength - 1
        curTxNr := (sc.curTxNr + 1) % 2 ^ 8
        mbufs := sc.mbufs + 1 } ∧
      o = if env.avail sc.mbufs then
        some ⟨p, m, ¬ (sc.pipe p).state.isTeiAssigned, sc.curTxNr, sc.frameBytes (sc1.pipe p) m⟩
        else none := by
  simp only [transmit, Option.bind_eq_bind, Option.bind_eq_some_iff] at h
  obtain ⟨i, hfind, m, hm, h⟩ := h
  refine ⟨i, m, _, hfind, rfl, hm, ?_⟩
  obtain ⟨rfl, rfl⟩ := Prod.mk.inj (Option.some.inj h)
  constructor
  · split <;> rfl
  · by_cases havail : env.avail sc.mbufs
    · split <;> simp [getmbuf, modify, havail]
    · split <;> simp [getmbuf, modify, havail]

/-- What `reopen` does. -/
theorem reopen_eq_some {env : Env} {sc sc' : Softc} {p : PipeNo}
    (h : sc.reopen env p = some sc') :
    ∃ q n, (sc.pipe p).openWindow env sc.mbufs = some (q, n) ∧
      sc' = { sc with
        pipe := Function.update sc.pipe p q
        mbufs := n
        curMbuf := q.queue.head?.map Mbuf.id
        curLength := q.txWindowSize
        curTxNr := q.txNr } := by
  rw [reopen, Option.map_eq_some_iff] at h
  obtain ⟨⟨q, n⟩, hopen, rfl⟩ := h
  exact ⟨q, n, hopen, rfl⟩

/-! ## Invariants -/

/-- What there is to show of an invariant of the softc, stated for the pipe the cursor is on. -/
structure Stable (env : Env) (I : PipeNo → Softc → Prop) : Prop where
  setup : ∀ ntMode pointToPoint primaryRate noStatusEnquiry serialNumber maxChannels,
    I adapter (setup ntMode pointToPoint primaryRate noStatusEnquiry serialNumber maxChannels)
  follows : ∀ {c sc sc'}, Follows sc sc' → I c sc → I c sc'
  receiveNr : ∀ {c sc} p nr, nr < 128 → I c sc → I c (sc.modify p (Pipe.receiveNr nr))
  stop : ∀ {c sc}, I c sc → I c { sc with curLength := 0 }
  /-- A cursor with nothing left may go to any pipe. -/
  move : ∀ {c sc} c', sc.curLength = 0 → I c sc → I c' sc
  /-- Nothing but `c` says which pipe the cursor is on. -/
  setCurPipe : ∀ {c sc} p, I c sc → I c { sc with curPipe := p }
  reopen : ∀ {c sc sc'}, sc.mayServe c → (sc.pipe c).txWindowLength = 0 →
    sc.reopen env c = some sc' → I c sc → I c sc'
  transmit : ∀ {c sc sc' o}, sc.mayServe c → (sc.pipe c).txWindowLength ≠ 0 → sc.curLength ≠ 0 →
    sc.transmit env c = some (sc', o) → I c sc → I c sc'

theorem passOver_stop (sc : Softc) (p : PipeNo) :
    ∃ sc1, Follows sc sc1 ∧ sc.passOver p = { sc1 with curLength := 0 } := by
  rw [passOver]
  split
  · exact ⟨_, Quiet.toFollows (.modify_other rfl rfl rfl rfl rfl rfl rfl id (fun _ => rfl)
      (fun _ _ => id)), rfl⟩
  · exact ⟨_, .refl sc, rfl⟩

namespace Stable

variable {env : Env} {I : PipeNo → Softc → Prop}

theorem passOver (hI : Stable env I) {c : PipeNo} {sc : Softc} (p : PipeNo) (h : I c sc) :
    I c (sc.passOver p) := by
  obtain ⟨sc1, hsc1, heq⟩ := passOver_stop sc p
  rw [heq]
  exact hI.stop (hI.follows hsc1 h)

theorem served (hI : Stable env I) {c : PipeNo} {sc sc1 : Softc} (hmay : sc.mayServe c)
    (hserved : sc.served env c = some sc1) (h : I c sc) : I c sc1 := by
  rw [Softc.served] at hserved
  split at hserved
  next hlen => exact hI.reopen hmay hlen hserved h
  next => exact Option.some.inj hserved ▸ h

end Stable

/-- The mode and the states, on which it depends whether a pipe is served, are as before after its
window was opened. -/
theorem served_mayServe {env : Env} {sc sc1 : Softc} {p : PipeNo}
    (hserved : sc.served env p = some sc1) : sc1.mayServe p ↔ sc.mayServe p := by
  rw [Softc.served] at hserved
  split at hserved
  · obtain ⟨q, n, hopen, rfl⟩ := reopen_eq_some hserved
    rw [Pipe.openWindow] at hopen
    split at hopen
    · exact absurd hopen (by simp)
    · rw [Option.map_eq_some_iff] at hopen
      obtain ⟨r, _, heq⟩ := hopen
      obtain ⟨rfl, rfl⟩ := Prod.mk.inj heq
      simp [mayServe]
  · obtain rfl := Option.some.inj hserved
    exact Iff.rfl

/-- A window that was just opened is not empty if there is something to send. -/
theorem served_txWindowLength {env : Env} {sc sc1 : Softc} {p : PipeNo}
    (hserved : sc.served env p = some sc1) (hlen : sc1.curLength ≠ 0) :
    (sc1.pipe p).txWindowLength ≠ 0 := by
  rw [Softc.served] at hserved
  split at hserved
  · obtain ⟨q, n, hopen, rfl⟩ := reopen_eq_some hserved
    rw [Pipe.openWindow] at hopen
    split at hopen
    · exact absurd hopen (by simp)
    · rw [Option.map_eq_some_iff] at hopen
      obtain ⟨r, _, heq⟩ := hopen
      obtain ⟨rfl, rfl⟩ := Prod.mk.inj heq
      simpa using hlen
  next h =>
    obtain rfl := Option.some.inj hserved
    exact h

namespace Stable

variable {env : Env} {I : PipeNo → Softc → Prop}

theorem servePipe (hI : Stable env I) {c : PipeNo} {sc sc' : Softc} {o : Option TxFrame}
    (hserve : sc.servePipe env c = some (sc', o)) (h : I c sc) : I c sc' := by
  obtain ⟨_, rfl, _⟩ | ⟨hmay, sc1, hserved, hsend⟩ := servePipe_cases hserve
  · exact h
  · have h1 := hI.served hmay hserved h
    obtain ⟨_, rfl, _⟩ | ⟨hlen, htransmit⟩ := hsend
    · exact h1
    · exact hI.transmit ((served_mayServe hserved).mpr hmay) (served_txWindowLength hserved hlen)
        hlen htransmit h1

/-- **An invariant holds whenever the loop comes to a pipe**, for the cursor on that pipe. -/
theorem visit (hI : Stable env I) {sc sc1 : Softc} {n : Nat} {p : PipeNo}
    (hvisit : Visit env sc n sc1 p) (h : I sc.curPipe sc) : I p sc1 := by
  induction hvisit with
  | start => exact h
  | @next n sc1 sc2 p _ hserve ih => exact hI.move _ rfl (hI.passOver p (hI.servePipe hserve ih))

theorem dss1L2GetMbuf (hI : Stable env I) {sc sc' : Softc} {out : Option Out}
    (hget : sc.dss1L2GetMbuf env = some (sc', out)) (h : I sc.curPipe sc) : I sc'.curPipe sc' := by
  obtain ⟨c, cs, _, rfl, _⟩ | ⟨k, sc1, p, sc2, o, hvisit, hserve, _, rfl⟩ :=
    dss1L2GetMbuf_cases hget
  · have hq : Quiet sc { sc with queue := cs } :=
      .of_pipe_eq rfl rfl rfl rfl rfl rfl rfl (Nat.le_refl _)
    exact hI.follows hq.toFollows h
  · have h2 := hI.servePipe hserve (hI.visit hvisit h)
    split
    · exact hI.setCurPipe p h2
    · exact hI.setCurPipe _ (hI.move (p + 1) rfl (hI.passOver p h2))

theorem step (hI : Stable env I) {sc sc' : Softc} {ev : Event} {out : Option Out}
    (hstep : sc.step env ev = some (sc', out)) (h : I sc.curPipe sc) : I sc'.curPipe sc' := by
  obtain ⟨_, _, hf⟩ | ⟨buf, sc1, p, _, _, hat, hq⟩ | ⟨_, hget⟩ | ⟨_, _, hq⟩ := step_cases hstep
  · rw [hf.curPipe]
    exact hI.follows hf h
  · have hf := atCheckNr_follows hat
    have hcur : sc'.curPipe = sc.curPipe := hq.curPipe.trans hf.curPipe
    rw [hcur]
    exact hI.follows hq.toFollows (hI.receiveNr p _ (getNr_lt _) (hI.follows hf h))
  · exact hI.dss1L2GetMbuf hget h
  · rw [hq.curPipe]
    exact hI.follows hq.toFollows (hI.stop h)

/-- **An invariant holds in every state that can be reached.** -/
theorem reachable (hI : Stable env I) {sc : Softc} (hsc : Reachable env sc) : I sc.curPipe sc := by
  induction hsc with
  | setup nt ptp pri nse serial channels => exact hI.setup nt ptp pri nse serial channels
  | step ev _ hstep ih => exact hI.step hstep ih

/-- Two invariants, the second of which may use the first. -/
theorem and {J : PipeNo → Softc → Prop} (hI : Stable env I)
    (hsetup : ∀ ntMode pointToPoint primaryRate noStatusEnquiry serialNumber maxChannels,
      J adapter (Softc.setup ntMode pointToPoint primaryRate noStatusEnquiry serialNumber maxChannels))
    (hfollows : ∀ {c sc sc'}, Follows sc sc' → I c sc → J c sc → J c sc')
    (hnr : ∀ {c sc} p nr, nr < 128 → I c sc → J c sc → J c (sc.modify p (Pipe.receiveNr nr)))
    (hstop : ∀ {c sc}, J c sc → J c { sc with curLength := 0 })
    (hmove : ∀ {c sc} c', sc.curLength = 0 → J c sc → J c' sc)
    (hset : ∀ {c sc} p, J c sc → J c { sc with curPipe := p })
    (hreopen : ∀ {c sc sc'}, sc.mayServe c → (sc.pipe c).txWindowLength = 0 →
      sc.reopen env c = some sc' → I c sc → J c sc → J c sc')
    (htransmit : ∀ {c sc sc' o}, sc.mayServe c → (sc.pipe c).txWindowLength ≠ 0 → sc.curLength ≠ 0 →
      sc.transmit env c = some (sc', o) → I c sc → J c sc → J c sc') :
    Stable env fun c sc => I c sc ∧ J c sc where
  setup := fun nt ptp pri nse serial channels =>
    ⟨hI.setup nt ptp pri nse serial channels, hsetup nt ptp pri nse serial channels⟩
  follows := fun hf h => ⟨hI.follows hf h.1, hfollows hf h.1 h.2⟩
  receiveNr := fun p nr hlt h => ⟨hI.receiveNr p nr hlt h.1, hnr p nr hlt h.1 h.2⟩
  stop := fun h => ⟨hI.stop h.1, hstop h.2⟩
  move := fun c' hlen h => ⟨hI.move c' hlen h.1, hmove c' hlen h.2⟩
  setCurPipe := fun p h => ⟨hI.setCurPipe p h.1, hset p h.2⟩
  reopen := fun hmay hlen hopen h => ⟨hI.reopen hmay hlen hopen h.1, hreopen hmay hlen hopen h.1 h.2⟩
  transmit := fun hmay hlen hcur hsend h =>
    ⟨hI.transmit hmay hlen hcur hsend h.1, htransmit hmay hlen hcur hsend h.1 h.2⟩

end Stable

/-! ## The mode never changes -/

theorem served_bus {env : Env} {sc sc1 : Softc} {p : PipeNo} (h : sc.served env p = some sc1) :
    sc1.Bus ↔ sc.Bus := by
  rw [Softc.served] at h
  split at h
  · obtain ⟨q, n, _, rfl⟩ := reopen_eq_some h
    exact Iff.rfl
  · obtain rfl := Option.some.inj h
    exact Iff.rfl

theorem servePipe_bus {env : Env} {sc sc' : Softc} {p : PipeNo} {o : Option TxFrame}
    (h : sc.servePipe env p = some (sc', o)) : sc'.Bus ↔ sc.Bus := by
  obtain ⟨_, rfl, _⟩ | ⟨_, sc1, h1, ⟨_, rfl, _⟩ | ⟨_, hsend⟩⟩ := servePipe_cases h
  · exact Iff.rfl
  · exact served_bus h1
  · obtain ⟨i, m, sc2, _, rfl, _, rfl, _⟩ := transmit_eq_some hsend
    rw [← served_bus h1]
    split
    · exact Iff.rfl
    · exact Iff.rfl

theorem passOver_bus (sc : Softc) (p : PipeNo) : (sc.passOver p).Bus ↔ sc.Bus := by
  rw [Softc.passOver]
  split
  · exact Iff.rfl
  · exact Iff.rfl

theorem visit_bus {env : Env} {sc sc1 : Softc} {n : Nat} {p : PipeNo} (h : Visit env sc n sc1 p) :
    sc1.Bus ↔ sc.Bus := by
  induction h with
  | start => exact Iff.rfl
  | next _ hserve ih => exact (passOver_bus _ _).trans ((servePipe_bus hserve).trans ih)

theorem step_bus {env : Env} {sc sc' : Softc} {ev : Event} {out : Option Out}
    (hstep : sc.step env ev = some (sc', out)) : sc'.Bus ↔ sc.Bus := by
  obtain ⟨_, _, hf⟩ | ⟨buf, sc1, p, _, _, hat, hq⟩ | ⟨_, hget⟩ | ⟨_, _, hq⟩ := step_cases hstep
  · exact hf.bus
  · exact hq.bus.trans (atCheckNr_follows hat).bus
  · obtain ⟨c, cs, _, rfl, _⟩ | ⟨k, sc1, p, sc2, o, hvisit, hserve, _, rfl⟩ :=
      dss1L2GetMbuf_cases hget
    · exact Iff.rfl
    · split
      · exact (servePipe_bus hserve).trans (visit_bus hvisit)
      · exact (passOver_bus sc2 p).trans ((servePipe_bus hserve).trans (visit_bus hvisit))
  · exact hq.bus

end Softc
end L2
end Isdn4bsd
