import Isdn4bsd.L2.Cursor

/-!
# Layer 2: zero-length I-frames

A peer that was restarted numbers from 0 again, and this has to be noticed before a frame with
something in it is taken for acknowledged.  So a window with a data frame in it keeps off the numbers 0
and `0x7f`, and whenever the pipe is unsure of the peer's number it sends two zero-length I-frames
first.

* `Pipe.ZifOk`: the numbers of a window with a data frame in it;
* `Softc.zif_stable`: they are so in all that can happen, if there are buffers for the zero-length
  frames;
* `Softc.data_frame_numbers`: so no data frame goes out with number 0 or `0x7f`, and a restarted peer
  makes the pipe send all of its window again.

A peer that starts over says that it expects 0.  If the window ended with number `0x7f`, this would be the number
behind its last frame, and all of it would count as acknowledged; and if it started at 0, a peer that has started
over could not be told from one that waits for this frame.  So the window ends before `0x7f`, and what comes next
has zero-length frames for the two numbers that are left out (`needsZif`).

Without buffers for the zero-length frames the source goes on without them.  That is why the results are for
surroundings in which there are buffers.
-/

set_option autoImplicit false

namespace Isdn4bsd
namespace L2
namespace Pipe

/-- A data frame is in the window, acknowledged or not. -/
def HasData (q : Pipe) : Prop := ∃ m ∈ q.queue.take q.txWindowSize, ¬ m.isZif

instance (q : Pipe) : Decidable q.HasData := inferInstanceAs (Decidable (∃ m ∈ _, ¬ _))

/-- A window with a data frame in it neither starts at number 0 nor gets to number `0x7f`, and the
number the pipe is at is that of the first frame that is not acknowledged. -/
structure Numbers (q : Pipe) : Prop where
  pos : 0 < q.openNr
  le : q.openNr + q.txWindowSize ≤ 0x7f
  eq : q.txNr + q.txWindowLength = q.openNr + q.txWindowSize

/-- The windows that hold data frames are numbered as they should be. -/
def ZifOk (q : Pipe) : Prop := q.HasData → q.Numbers

theorem isZif_acknowledgeMbuf {cr : Nat} {m : Mbuf} (h : m.isZif) :
    (acknowledgeMbuf cr m).isZif := by
  rw [acknowledgeMbuf]
  split
  · simp only [Mbuf.isZif]
    split
    · exact Nat.sub_le _ _
    · exact Nat.le_refl _
  · exact h

theorem HasData.of_step {n : Nat} {q r : Pipe} (hs : Step n q r) (hok : q.WindowOk) (h : r.HasData) :
    q.HasData := by
  obtain ⟨m, hm, hdata⟩ := h
  cases hs with
  | enqueue _ _ _ =>
    rw [Pipe.enqueue, List.take_append_of_le_length hok.size_le_queue] at hm
    exact ⟨m, hm, hdata⟩
  | acknowledge cr =>
    rw [Pipe.acknowledge, ← List.map_take, List.mem_map] at hm
    obtain ⟨m', hm', rfl⟩ := hm
    exact ⟨m', hm', fun hzif => hdata (isZif_acknowledgeMbuf hzif)⟩
  | clear => exact absurd hm (by simp [Pipe.clear])
  | timeout =>
    rw [retransmitUnacked_txWindowSize hok] at hm
    exact ⟨m, List.take_subset_take_left _ (Nat.sub_le _ _) hm, hdata⟩
  | other _ hqueue hsize _ _ _ _ _ =>
    rw [hqueue, hsize] at hm
    exact ⟨m, hm, hdata⟩

theorem ZifOk.step {n : Nat} {q r : Pipe} (hs : Step n q r) (hok : q.WindowOk) (h : q.ZifOk) : r.ZifOk := by
  intro hdata
  have hn := h (hdata.of_step hs hok)
  have hpos := hn.pos
  have hle := hn.le
  have heq := hn.eq
  have hlen := hok.length_le
  cases hs with
  | enqueue m _ hid => exact ⟨hpos, hle, heq⟩
  | acknowledge cr => exact ⟨hpos, hle, heq⟩
  | clear =>
    obtain ⟨m, hm, _⟩ := hdata
    exact absurd hm (by simp [Pipe.clear])
  | timeout =>
    have hsize := retransmitUnacked_txWindowSize hok
    refine ⟨hpos, ?_, ?_⟩
    · rw [hsize]
      change q.openNr + _ ≤ _
      omega
    · rw [hsize]
      change q.txNr + 0 = q.openNr + _
      omega
  | other _ _ hsize hlen hnr hopen _ _ =>
    refine ⟨?_, ?_, ?_⟩
    · rwa [hopen]
    · rwa [hopen, hsize]
    · rwa [hopen, hsize, hlen, hnr]

/-- A number that is no further than the window is reached without passing `0x7f`. -/
theorem txNr_add_nrDifference {q : Pipe} (hok : q.WindowOk) {nr : Nat} (hnr : nr < 128)
    (hle : q.txNr + q.nrDifference nr ≤ 0x7f) : nr = q.txNr + q.nrDifference nr := by
  have hlt := hok.nr_lt
  simp only [nrDifference] at hle ⊢
  omega

theorem ZifOk.receiveNr {q : Pipe} (hok : q.WindowOk) {nr : Nat} (hnr : nr < 128) (h : q.ZifOk) :
    (q.receiveNr nr).ZifOk := by
  intro hdata
  obtain ⟨m, hm, hne⟩ := hdata
  have hopen := receiveNr_openNr q nr
  rw [receiveNr_queue] at hm
  have hlen := hok.length_le
  simp only [Pipe.receiveNr] at hm hopen ⊢
  split
  next hd =>
    rw [if_pos hd] at hm
    have hn := h ⟨m, hm, hne⟩
    have hle := hn.le
    have heq := hn.eq
    have hsame := txNr_add_nrDifference hok hnr (by omega)
    exact ⟨hn.pos, hn.le, by simp only; omega⟩
  next hd =>
    rw [if_neg hd] at hm
    split
    next hlt =>
      rw [if_pos hlt] at hm
      exact absurd hm (by simp [retransmitAll])
    next hlt =>
      rw [if_neg hlt] at hm
      have hn := h ⟨m, hm, hne⟩
      have hle := hn.le
      have heq := hn.eq
      have hsame := txNr_add_nrDifference hok hnr (by omega)
      have hadvance := advance_txWindowLength hok (Nat.not_lt.mp hlt)
      refine ⟨hn.pos, hn.le, ?_⟩
      change nr + (q.advance (q.nrDifference nr)).txWindowLength = q.openNr + q.txWindowSize
      rw [hadvance]
      omega

theorem StartsWithZifs.take {ms : List Mbuf} (h : StartsWithZifs ms) :
    2 ≤ ms.length ∧ ∀ m ∈ ms.take 2, m.isZif := by
  match ms, h with
  | m :: m' :: ms, h =>
    refine ⟨by simp, ?_⟩
    intro x hx
    simp only [List.take_succ_cons, List.take_zero, List.mem_cons, List.not_mem_nil, or_false] at hx
    obtain rfl | rfl := hx
    · exact h.1
    · exact h.2

theorem ZifOk.opened {env : Env} (havail : ∀ n, env.avail n = true) {n n' max : Nat} {q : Pipe}
    {zs : List Mbuf} (hok : q.WindowOk) (hstate : q.state.isTeiAssigned)
    (ho : Opening env n q zs n' max) : (q.opened zs max).ZifOk := by
  rintro ⟨m, hm, hne⟩
  cases ho with
  | unnumbered h => exact absurd hstate h
  | zif _ _ _ hstarts =>
    obtain ⟨_, hzif⟩ := (hstarts (havail _) (havail _)).take
    simp only [Pipe.opened] at hm
    exact absurd (hzif m (List.take_subset_take_left _ (Nat.min_le_left _ _) hm)) hne
  | numbered _ hneeds =>
    have hnr := hok.nr_lt
    have hpos : q.txNr ≠ 0x00 := fun h => hneeds (.inr (.inl h))
    refine ⟨Nat.pos_of_ne_zero hpos, ?_, rfl⟩
    simp only [Pipe.opened]
    have hmin := Nat.min_le_left ((0x7f + 2 ^ 8 - q.txNr) % 2 ^ 8)
      ([] ++ q.queue.drop q.txWindowSize).length
    omega

/-- **Number 0 from the peer** acknowledges no data frame. -/
theorem Numbers.wrongNr_zero {q : Pipe} (h : q.Numbers) (hok : q.WindowOk) :
    q.nrDifference 0 ≠ 0 ∧ q.txWindowLength < q.nrDifference 0 := by
  have hpos := h.pos
  have hle := h.le
  have heq := h.eq
  have hlen := hok.length_le
  simp only [nrDifference]
  omega

end Pipe

namespace Softc

/-- The adapter of a bus has no TEI, and the windows of the other pipes are numbered as they should
be. -/
def Numbered (_ : PipeNo) (sc : Softc) : Prop :=
  (sc.Bus → ¬ (sc.pipe adapter).state.isTeiAssigned) ∧
  ∀ p, sc.isNumbered p → (sc.pipe p).ZifOk

theorem isNumbered_iff {sc : Softc} {p : PipeNo} : sc.isNumbered p ↔ (sc.Bus → p ≠ adapter) := by
  simp only [isNumbered, Bus]
  tauto

/-- A numbered pipe is served only when it has a TEI. -/
theorem isTeiAssigned_of_mayServe {sc : Softc} {p : PipeNo} (hmay : sc.mayServe p)
    (hnum : sc.isNumbered p) : (sc.pipe p).state.isTeiAssigned := by
  rcases hmay with h | h
  · exact h
  · exact absurd h hnum

theorem Numbered.isNumbered {c : PipeNo} {sc : Softc} (h : Numbered c sc) {p : PipeNo}
    (hstate : (sc.pipe p).state.isTeiAssigned) : sc.isNumbered p := by
  rw [isNumbered_iff]
  rintro hb rfl
  exact h.1 hb hstate

theorem numbered_follows {sc sc' : Softc} {c : PipeNo} (hf : Follows sc sc') (hw : Windows c sc)
    (h : Numbered c sc) : Numbered c sc' := by
  constructor
  · intro hb
    exact hf.adapter (hf.bus.mp hb) (h.1 (hf.bus.mp hb))
  · intro p hnum
    have hnum' : sc.isNumbered p := by
      rw [isNumbered_iff, ← hf.bus, ← isNumbered_iff]
      exact hnum
    have hboth : (sc'.pipe p).WindowOk ∧ (sc'.pipe p).ZifOk :=
      (hf.pipes hw.1 p).preserves (motive := fun q => q.WindowOk ∧ q.ZifOk)
        (fun _ _ hs hq => ⟨hq.1.step hs, hq.2.step hs hq.1⟩) ⟨hw.2 p, h.2 p hnum'⟩
    exact hboth.2

theorem numbered_receiveNr {sc : Softc} {c : PipeNo} (p : PipeNo) {nr : Nat} (hnr : nr < 128)
    (hw : Windows c sc) (h : Numbered c sc) : Numbered c (sc.modify p (Pipe.receiveNr nr)) := by
  constructor
  · intro hb
    have ha := h.1 hb
    by_cases hp : adapter = p
    · subst hp
      rw [modify_pipe_self]
      exact Pipe.receiveNr_isTeiAssigned ha
    · rwa [modify_pipe_of_ne _ _ hp]
  · intro q hnum
    by_cases hq : q = p
    · subst hq
      rw [modify_pipe_self]
      exact (h.2 q hnum).receiveNr (hw.2 q) hnr
    · rw [modify_pipe_of_ne _ _ hq]
      exact h.2 q hnum

theorem numbered_reopen {env : Env} (havail : ∀ n, env.avail n = true) {sc sc' : Softc} {c : PipeNo}
    (hmay : sc.mayServe c) (hopen : sc.reopen env c = some sc') (hw : Windows c sc)
    (h : Numbered c sc) : Numbered c sc' := by
  obtain ⟨zs, n', max, ho, heq⟩ := reopen_of_windowOk env (hw.2 c)
  obtain rfl := Option.some.inj (heq.symm.trans hopen)
  constructor
  · intro hb
    have ha := h.1 hb
    by_cases hc : adapter = c
    · subst hc
      simp only [Function.update_self]
      exact ha
    · simp only [Function.update_of_ne hc]
      exact ha
  · intro p hnum
    by_cases hp : p = c
    · subst hp
      simp only [Function.update_self]
      exact Pipe.ZifOk.opened havail (hw.2 p) (isTeiAssigned_of_mayServe hmay hnum) ho
    · simp only [Function.update_of_ne hp]
      exact h.2 p hnum

theorem numbered_transmit {env : Env} {sc sc' : Softc} {c : PipeNo} {o : Option TxFrame}
    (hmay : sc.mayServe c) (hsend : sc.transmit env c = some (sc', o)) (h : Numbered c sc) :
    Numbered c sc' := by
  obtain ⟨i, m, sc1, _, rfl, _, rfl, _⟩ := transmit_eq_some hsend
  split
  next hstate =>
    -- only the adapter of a bus sends unnumbered frames
    constructor
    · intro hb
      have ha := h.1 hb
      by_cases hc : adapter = c
      · subst hc
        simp only [modify_pipe_self]
        exact ha
      · simp only [modify_pipe_of_ne _ _ hc]
        exact ha
    · intro p hnum
      by_cases hp : p = c
      · subst hp
        exact absurd (isTeiAssigned_of_mayServe hmay hnum) hstate
      · simp only [modify_pipe_of_ne _ _ hp]
        exact h.2 p hnum
  next => exact h

theorem zif_stable {env : Env} (havail : ∀ n, env.avail n = true) :
    Stable env fun c sc => Sound c sc ∧ Numbered c sc := by
  refine (cursor_stable env).and ?_ (fun hf hs => numbered_follows hf hs.1)
    (fun p nr hnr hs => numbered_receiveNr p hnr hs.1) (fun h => h) (fun _ _ h => h) (fun _ h => h)
    (fun hmay _ hopen hs => numbered_reopen havail hmay hopen hs.1)
    (fun hmay _ _ hsend _ => numbered_transmit hmay hsend)
  intro nt ptp pri nse serial channels
  constructor
  · intro _
    simp only [setup, setupPipe]
    decide
  · rintro p _ ⟨m, hm, _⟩
    exact absurd hm (by simp [setup, setupPipe])

/-- The number in an I-frame. -/
theorem getNr_frameBytes (sc : Softc) {q : Pipe} (m : Mbuf) (hstate : q.state.isTeiAssigned)
    (hlt : sc.curTxNr < 256) : getNr (get1 (sc.frameBytes q m) 2) = sc.curTxNr % 128 := by
  have hcode : ∀ n : Fin 256, getNr (UInt8.ofNat ((n.val <<< 1) &&& 0xfe)).toNat = n.val % 128 := by
    decide +kernel
  have hget : get1 (sc.frameBytes q m) 2 = (UInt8.ofNat ((sc.curTxNr <<< 1) &&& 0xfe)).toNat := by
    simp [frameBytes, hstate, get1, invertCr]
  rw [hget]
  exact hcode ⟨sc.curTxNr, hlt⟩

/-- A frame with a number, and the window it is from. -/
theorem transmit_numbered {env : Env} {sc sc' : Softc} {c : PipeNo} {f : TxFrame}
    (hs : Sound c sc) (hat : sc.CursorAt c) (hcur : sc.curLength ≠ 0)
    (hsend : sc.transmit env c = some (sc', some f)) (hnum : f.unnumbered = false) :
    (sc.pipe c).state.isTeiAssigned ∧ (sc.pipe c).queue[sc.curIndex c]? = some f.mbuf ∧
      f.txNr = (sc.pipe c).openNr + sc.curIndex c ∧ f.bytes = sc.frameBytes (sc.pipe c) f.mbuf := by
  obtain ⟨m, hm, hmbuf, hfind⟩ := hat.find_eq hcur (hs.1.2 c) (hs.2.1 c)
  obtain ⟨i, m', sc1, hi, rfl, hm', rfl, ho⟩ := transmit_eq_some hsend
  obtain rfl : i = sc.curIndex c := Option.some.inj (hi.symm.trans hfind)
  split at ho
  · obtain rfl := Option.some.inj ho
    have hstate : (sc.pipe c).state.isTeiAssigned := by simpa using hnum
    simp only [hstate, not_true_eq_false, if_false] at hm' ⊢
    exact ⟨trivial, hm', hat.txNr, trivial⟩
  · exact absurd ho (by simp)

/-- **Data frames and the numbers 0 and `0x7f`**, in every state that can be reached while there are
buffers.  The window of a pipe with a TEI, if it holds a data frame, starts after 0 and ends before
`0x7f`; so no data frame is sent with number 0 or `0x7f`, and when the peer says 0 the whole window is
sent again.  A window that is opened while the peer's number is not known is two zero-length frames,
of which at most two were inserted. -/
theorem data_frame_numbers {env : Env} (havail : ∀ n, env.avail n = true) {sc : Softc}
    (hsc : Reachable env sc) :
    (∀ p, (sc.pipe p).state.isTeiAssigned → (sc.pipe p).HasData →
      1 ≤ (sc.pipe p).txNr ∧ (sc.pipe p).txNr + (sc.pipe p).txWindowLength ≤ 0x7f) ∧
    (∀ sc' f, sc.dss1L2GetMbuf env = some (sc', some (.frame f)) → f.unnumbered = false →
      ¬ f.mbuf.isZif → getNr (get1 f.bytes 2) ≠ 0 ∧ getNr (get1 f.bytes 2) ≠ 0x7f) ∧
    (∀ buf sc1 p, atCheckNr env sc buf = some (sc1, p) → getNr (get1 buf 3) = 0 →
      (sc1.pipe p).state.isTeiAssigned → (sc1.pipe p).HasData →
      (sc1.pipe p).txWindowLength < (sc1.pipe p).nrDifference 0 ∧
      ((sc1.checkNr env p 0).pipe p).txWindowSize = 0 ∧
      ((sc1.checkNr env p 0).pipe p).txWindowLength = 0) ∧
    (∀ n sc1 p, Visit env sc n sc1 p → (sc1.pipe p).state.isTeiAssigned →
      (sc1.pipe p).txWindowLength = 0 →
      ((sc1.pipe p).txNr = 0x7f ∨ (sc1.pipe p).txNr = 0 ∨
        (sc1.pipe p).state.num ≤ State.singleFrame.num) →
      ∃ sc2 zs, sc1.reopen env p = some sc2 ∧ (sc2.pipe p).txWindowSize = 2 ∧
        (sc2.pipe p).txWindowLength = 2 ∧ (∀ m ∈ (sc2.pipe p).queue.take 2, m.isZif) ∧
        (sc2.pipe p).queue = zs ++ (sc1.pipe p).queue.drop (sc1.pipe p).txWindowSize ∧
        zs.length ≤ 2) := by
  have hI := (zif_stable havail).reachable hsc
  refine ⟨?_, ?_, ?_, ?_⟩
  · intro p hstate hdata
    have hn := hI.2.2 p (hI.2.isNumbered hstate) hdata
    have hok := hI.1.1.2 p
    have hpos := hn.pos
    have hle := hn.le
    have heq := hn.eq
    have hlen := hok.length_le
    omega
  · intro sc' f hget hnum hdata
    obtain ⟨c, cs, _, _, hout⟩ | ⟨k, sc1, p, sc2, o, hvisit, hserve, hout, _⟩ :=
      dss1L2GetMbuf_cases hget
    · exact absurd hout (by simp)
    · obtain rfl : o = some f := by
        cases o with
        | none => exact absurd hout (by simp)
        | some f' => simpa using hout.symm
      obtain ⟨_, _, hnone⟩ | ⟨hmay, sc3, hserved, hsend⟩ := servePipe_cases hserve
      · exact absurd hnone (by simp)
      obtain ⟨_, _, hnone⟩ | ⟨hcur, hsend⟩ := hsend
      · exact absurd hnone (by simp)
      have hI3 := (zif_stable havail).served hmay hserved ((zif_stable havail).visit hvisit hI)
      have hat := hI3.1.2.2 hcur (served_txWindowLength hserved hcur)
      obtain ⟨hstate, hm, hnr, hbytes⟩ := transmit_numbered hI3.1 hat hcur hsend hnum
      have hlt := hat.curIndex_lt hcur
      have hmem : f.mbuf ∈ (sc3.pipe p).queue.take (sc3.pipe p).txWindowSize := by
        refine List.mem_of_getElem? (i := sc3.curIndex p) ?_
        rw [List.getElem?_take_of_lt hlt]
        exact hm
      have hn := hI3.2.2 p (hI3.2.isNumbered hstate) ⟨f.mbuf, hmem, hdata⟩
      have hpos := hn.pos
      have hle := hn.le
      have htx := hat.txNr
      rw [← curIndex] at htx
      have hcode := getNr_frameBytes sc3 f.mbuf hstate (by omega)
      rw [hbytes, hcode]
      omega
  · intro buf sc1 p hcheck _ hstate hdata
    have hf := atCheckNr_follows hcheck
    have hI1 := (zif_stable havail).follows hf hI
    have hn := hI1.2.2 p (hI1.2.isNumbered hstate) hdata
    obtain ⟨hne, hlt⟩ := hn.wrongNr_zero (hI1.1.1.2 p)
    refine ⟨hlt, ?_, ?_⟩
    · simp only [checkNr, if_neg hne, if_pos hlt, modify_pipe_self, Pipe.retransmitAll]
    · simp only [checkNr, if_neg hne, if_pos hlt, modify_pipe_self, Pipe.retransmitAll]
  · intro n sc1 p hvisit hstate _ hneeds
    have hI1 := (zif_stable havail).visit hvisit hI
    obtain ⟨zs, n', max, ho, hreopen⟩ := reopen_of_windowOk env (hI1.1.1.2 p)
    refine ⟨_, zs, hreopen, ?_⟩
    cases ho with
    | unnumbered h => exact absurd hstate h
    | numbered _ h => exact absurd hneeds h
    | zif _ _ hzifs hstarts =>
      obtain ⟨hle, hzif⟩ := (hstarts (havail _) (havail _)).take
      have hmin := Nat.min_eq_left hle
      simp only [Function.update_self, Pipe.opened]
      exact ⟨hmin, hmin, hzif, trivial, hzifs.length_le⟩

/-- It says so of a point-to-point link on which two zero-length frames were acknowledged and a data
frame was sent. -/
theorem data_frame_numbers_sent :
    let env : Env := ⟨fun _ => true, fun _ => [], fun _ => []⟩
    let evs : List Event := [.down (.activate adapter),
      .down (.request (.dataReq adapter [0x08, 1, 1, 5])), .getMbuf, .getMbuf,
      .putMbuf [0x02, 0x01, 0x01, 0x04], .getMbuf]
    ∃ h : (run env (setup false true false false 0 2) evs).isSome,
    let sc := ((run env (setup false true false false 0 2) evs).get h).1
    (sc.pipe adapter).state.isTeiAssigned ∧ (sc.pipe adapter).HasData ∧
    1 ≤ (sc.pipe adapter).txNr ∧
    (sc.pipe adapter).txNr + (sc.pipe adapter).txWindowLength ≤ 0x7f := by
  refine ⟨by decide, by decide, by decide, ?_⟩
  exact (data_frame_numbers (fun _ => rfl) (Reachable.run (.setup _ _ _ _ _ _) _ _)).1 adapter
    (by decide) (by decide)

end Softc
end L2
end Isdn4bsd
