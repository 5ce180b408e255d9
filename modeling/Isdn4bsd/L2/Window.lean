import Isdn4bsd.L2.Serve

/-!
# Layer 2: the transmit window

`Pipe.WindowOk` relates the two window counters of a pipe to its queue: the window is no shorter than
what is not acknowledged of it, no longer than the queue, and fits into the numbers that there are.
The counters are bytes that are changed in six places independently of each other and of the queue;
`window_le_queue` shows that they agree in every state that can be reached, so that none of the
subtractions wraps around and no frame is taken from an empty queue.

* `insertSecondZif_eq_some` : **the loop that inserts zero-length I-frames ends**, after two rounds at most.
* `Opening`, `openWindow_eq_some` : what is found when a window has been opened.
* `windows_stable` : the invariant, for all pipes.
* `window_le_queue` : what it says of the counters.

The frames that leave the queue when a window is opened are as many as were acknowledged of the old one, the
difference of the two counters.  Nothing tests whether there are that many: the queue may have been drained
since, when the pipe paused, and then the counters were cleared with it.  The window that is opened is as long as
the queue, but no longer than the numbers there are and than what the state of the pipe allows, and two
zero-length frames are counted if they were put in front.
-/

set_option autoImplicit false

namespace Isdn4bsd
namespace L2
namespace Pipe

/-! ## Zero-length I-frames -/

/-- The zero-length I-frames in front of a queue: what `insert_second_ZIF` puts there, with buffers
from the `n`-th on. -/
inductive Zifs (n : Nat) : List Mbuf → Nat → Prop where
  | none {n' : Nat} (h : n ≤ n') : Zifs n [] n'
  | one {n' : Nat} (h : n < n') : Zifs n [Mbuf.zif n] n'
  | two : Zifs n [Mbuf.zif (n + 1), Mbuf.zif n] (n + 2)

namespace Zifs

variable {n n' : Nat} {zs : List Mbuf}

theorem le (h : Zifs n zs n') : n ≤ n' := by
  cases h with
  | none h => exact h
  | one h => exact h.le
  | two => exact Nat.le_add_right n 2

theorem length_le (h : Zifs n zs n') : zs.length ≤ 2 := by
  cases h <;> simp

theorem isZif (h : Zifs n zs n') {m : Mbuf} (hm : m ∈ zs) : m.isZif ∧ m.proto1 = false := by
  cases h <;> simp only [List.mem_cons, List.not_mem_nil, or_false] at hm
  · subst hm
    exact ⟨Mbuf.isZif_zif _, rfl⟩
  · obtain rfl | rfl := hm
    · exact ⟨Mbuf.isZif_zif _, rfl⟩
    · exact ⟨Mbuf.isZif_zif _, rfl⟩

theorem id_mem (h : Zifs n zs n') {m : Mbuf} (hm : m ∈ zs) : n ≤ m.id ∧ m.id < n' := by
  cases h <;> simp only [List.mem_cons, List.not_mem_nil, or_false] at hm
  next hlt =>
    subst hm
    exact ⟨Nat.le_refl n, hlt⟩
  · obtain rfl | rfl := hm
    · exact ⟨Nat.le_succ n, Nat.lt_succ_self _⟩
    · exact ⟨Nat.le_refl n, Nat.lt_add_of_pos_right (by decide)⟩

theorem nodup (h : Zifs n zs n') : (zs.map Mbuf.id).Nodup := by
  cases h <;> simp [Mbuf.zif]

end Zifs

/-- The front of a queue is two zero-length I-frames. -/
def StartsWithZifs : List Mbuf → Prop
  | m :: m' :: _ => m.isZif ∧ m'.isZif
  | _ => False

/-- **The loop that inserts zero-length I-frames ends**, after two rounds at most; and when there are
buffers, the queue then starts with two of them. -/
theorem insertSecondZif_eq_some (env : Env) (fuel n : Nat) (ms : List Mbuf) :
    ∃ zs n', insertSecondZif env (fuel + 2) n ms = some (zs ++ ms, n') ∧ Zifs n zs n' ∧
      (env.avail n = true → env.avail (n + 1) = true → StartsWithZifs (zs ++ ms)) := by
  by_cases havail : env.avail n = true
  · by_cases havail' : env.avail (n + 1) = true
    · cases ms with
      | nil =>
        refine ⟨_, _, ?_, .two, fun _ _ => ⟨Mbuf.isZif_zif _, Mbuf.isZif_zif _⟩⟩
        simp [insertSecondZif, havail, havail']
      | cons m ms =>
        by_cases hm : m.isZif
        · refine ⟨_, _, ?_, .one (Nat.lt_succ_self n), fun _ _ => ⟨Mbuf.isZif_zif _, hm⟩⟩
          simp [insertSecondZif, havail, hm]
        · refine ⟨_, _, ?_, .two, fun _ _ => ⟨Mbuf.isZif_zif _, Mbuf.isZif_zif _⟩⟩
          simp [insertSecondZif, havail, havail', hm]
    · cases ms with
      | nil =>
        refine ⟨_, _, ?_, .one (Nat.lt_add_of_pos_right (by decide : 0 < 2)),
          fun _ h => absurd h havail'⟩
        simp [insertSecondZif, havail, havail']
      | cons m ms =>
        by_cases hm : m.isZif
        · refine ⟨_, _, ?_, .one (Nat.lt_succ_self n), fun _ h => absurd h havail'⟩
          simp [insertSecondZif, havail, hm]
        · refine ⟨_, _, ?_, .one (Nat.lt_add_of_pos_right (by decide : 0 < 2)),
            fun _ h => absurd h havail'⟩
          simp [insertSecondZif, havail, havail', hm]
  · refine ⟨[], _, ?_, .none (Nat.le_succ n), fun h => absurd h havail⟩
    simp [insertSecondZif, havail]

theorem insertZifs_eq_some (env : Env) (n : Nat) (ms : List Mbuf) :
    ∃ zs n', insertZifs env zifRounds n ms = some (zs ++ ms, n') ∧ Zifs n zs n' ∧
      (env.avail n = true → env.avail (n + 1) = true → StartsWithZifs (zs ++ ms)) := by
  rw [insertZifs.eq_def]
  split
  next m m' ms =>
    split
    next hm => exact ⟨[], n, rfl, .none (Nat.le_refl n), fun _ _ => hm⟩
    next => exact insertSecondZif_eq_some env 0 n _
  next => exact insertSecondZif_eq_some env 0 n _

/-! ## Opening the window -/

/-- What is found when the window of a pipe has been opened: which zero-length I-frames were put in
front of the queue, and how long the window may be. -/
inductive Opening (env : Env) (n : Nat) (q : Pipe) : List Mbuf → Nat → Nat → Prop where
  | unnumbered (hstate : ¬ q.state.isTeiAssigned) : Opening env n q [] n 0x7f
  | zif {zs : List Mbuf} {n' : Nat} (hstate : q.state.isTeiAssigned) (hneeds : q.needsZif)
      (hzifs : Zifs n zs n') (hstarts : env.avail n = true → env.avail (n + 1) = true →
        StartsWithZifs (zs ++ q.queue.drop q.txWindowSize)) : Opening env n q zs n' 2
  | numbered (hstate : q.state.isTeiAssigned) (hneeds : ¬ q.needsZif) :
      Opening env n q [] n ((0x7f + 2 ^ 8 - q.txNr) % 2 ^ 8)

theorem Opening.zifs {env : Env} {n n' max : Nat} {q : Pipe} {zs : List Mbuf}
    (h : Opening env n q zs n' max) : Zifs n zs n' := by
  cases h with
  | unnumbered _ => exact .none (Nat.le_refl n)
  | zif _ _ hzifs _ => exact hzifs
  | numbered _ _ => exact .none (Nat.le_refl n)

theorem Opening.max_le {env : Env} {n n' max : Nat} {q : Pipe} {zs : List Mbuf}
    (h : Opening env n q zs n' max) (hnr : q.txNr < 128) : max ≤ 127 := by
  cases h with
  | unnumbered _ => exact Nat.le_refl 127
  | zif _ _ _ _ => decide
  | numbered _ _ => omega

/-- The pipe after its window was opened. -/
def opened (q : Pipe) (zs : List Mbuf) (max : Nat) : Pipe :=
  { q with
    queue := zs ++ q.queue.drop q.txWindowSize
    txWindowSize := min max (zs ++ q.queue.drop q.txWindowSize).length
    txWindowLength := min max (zs ++ q.queue.drop q.txWindowSize).length
    getMbufCallout := false
    openNr := q.txNr }

/-- **The window opens**, if there are as many frames in the queue as are to leave it. -/
theorem openWindow_eq_some (env : Env) (n : Nat) {q : Pipe} (h : q.txWindowSize ≤ q.queue.length) :
    ∃ zs n' max, q.openWindow env n = some (q.opened zs max, n') ∧ Opening env n q zs n' max := by
  rw [openWindow, if_neg (Nat.not_lt.mpr h), prepare]
  split
  next hstate => exact ⟨[], n, 0x7f, rfl, .unnumbered hstate⟩
  next hstate =>
    split
    next hneeds =>
      obtain ⟨zs, n', hinsert, hzifs, hstarts⟩ :=
        insertZifs_eq_some env n (q.queue.drop q.txWindowSize)
      rw [hinsert]
      exact ⟨zs, n', 2, rfl, .zif (not_not.mp hstate) hneeds hzifs hstarts⟩
    next hneeds => exact ⟨[], n, _, rfl, .numbered (not_not.mp hstate) hneeds⟩

/-! ## The invariant -/

/-- The window counters agree with each other, with the queue and with the range of the numbers. -/
structure WindowOk (q : Pipe) : Prop where
  length_le : q.txWindowLength ≤ q.txWindowSize
  size_le : q.txWindowSize ≤ 127
  size_le_queue : q.txWindowSize ≤ q.queue.length
  nr_lt : q.txNr < 128

/-- The subtraction of `check_NR`, when the number is valid. -/
theorem advance_txWindowLength {q : Pipe} (h : q.WindowOk) {d : Nat} (hd : d ≤ q.txWindowLength) :
    (q.advance d).txWindowLength = q.txWindowLength - d := by
  have hlen := h.length_le
  have hsize := h.size_le
  simp only [advance]
  omega

/-- The subtraction of `dss1_l2_get_mbuf_timeout`. -/
theorem retransmitUnacked_txWindowSize {q : Pipe} (h : q.WindowOk) :
    q.retransmitUnacked.txWindowSize = q.txWindowSize - q.txWindowLength := by
  have hlen := h.length_le
  have hsize := h.size_le
  simp only [retransmitUnacked]
  omega

namespace WindowOk

theorem step {n : Nat} {q r : Pipe} (hs : Step n q r) (h : q.WindowOk) : r.WindowOk := by
  cases hs with
  | enqueue m _ hid =>
    refine ⟨h.length_le, h.size_le, ?_, h.nr_lt⟩
    rw [Pipe.enqueue, List.length_append]
    exact Nat.le_add_right_of_le h.size_le_queue
  | acknowledge cr =>
    refine ⟨h.length_le, h.size_le, ?_, h.nr_lt⟩
    rw [Pipe.acknowledge, List.length_map]
    exact h.size_le_queue
  | clear => exact ⟨Nat.le_refl 0, Nat.zero_le _, Nat.le_refl 0, Nat.zero_lt_succ _⟩
  | timeout =>
    have hsize := retransmitUnacked_txWindowSize h
    refine ⟨Nat.zero_le _, ?_, ?_, h.nr_lt⟩
    · rw [hsize]
      exact (Nat.sub_le _ _).trans h.size_le
    · rw [hsize]
      exact (Nat.sub_le _ _).trans h.size_le_queue
  | other _ hqueue hsize hlen hnr _ _ _ =>
    constructor
    · rw [hlen, hsize]
      exact h.length_le
    · rw [hsize]
      exact h.size_le
    · rw [hsize, hqueue]
      exact h.size_le_queue
    · rw [hnr]
      exact h.nr_lt

theorem receiveNr {q : Pipe} (h : q.WindowOk) {nr : Nat} (hnr : nr < 128) :
    (q.receiveNr nr).WindowOk := by
  simp only [Pipe.receiveNr]
  split
  · exact ⟨h.length_le, h.size_le, h.size_le_queue, hnr⟩
  · split
    · exact ⟨Nat.le_refl 0, Nat.zero_le _, Nat.zero_le _, hnr⟩
    next hd =>
      refine ⟨?_, h.size_le, h.size_le_queue, hnr⟩
      have hadvance := advance_txWindowLength h (Nat.not_lt.mp hd)
      rw [hadvance]
      exact (Nat.sub_le _ _).trans h.length_le

theorem opened {env : Env} {n n' max : Nat} {q : Pipe} {zs : List Mbuf} (h : q.WindowOk)
    (ho : Opening env n q zs n' max) : (q.opened zs max).WindowOk :=
  ⟨Nat.le_refl _, (Nat.min_le_left _ _).trans (ho.max_le h.nr_lt), Nat.min_le_right _ _, h.nr_lt⟩

theorem sendUnnumbered {q : Pipe} (h : q.WindowOk) (hlen : q.txWindowLength ≠ 0) (i : Nat) :
    (q.sendUnnumbered i).WindowOk := by
  have hle := h.length_le
  have hsize := h.size_le
  refine ⟨?_, h.size_le, ?_, h.nr_lt⟩
  · simp only [Pipe.sendUnnumbered]
    omega
  · rw [Pipe.sendUnnumbered, List.length_modify]
    exact h.size_le_queue

end WindowOk
end Pipe

namespace Softc

/-! ## Windows of all pipes -/

/-- The window of a softc's every pipe is as it should be. -/
def Windows (_ : PipeNo) (sc : Softc) : Prop := sc.Fresh ∧ ∀ p, (sc.pipe p).WindowOk

/-- What `reopen` does to a window that is as it should be. -/
theorem reopen_of_windowOk (env : Env) {sc : Softc} {p : PipeNo} (h : (sc.pipe p).WindowOk) :
    ∃ zs n' max, Pipe.Opening env sc.mbufs (sc.pipe p) zs n' max ∧
      sc.reopen env p = some { sc with
        pipe := Function.update sc.pipe p ((sc.pipe p).opened zs max)
        mbufs := n'
        curMbuf := ((sc.pipe p).opened zs max).queue.head?.map Mbuf.id
        curLength := ((sc.pipe p).opened zs max).txWindowSize
        curTxNr := (sc.pipe p).txNr } := by
  obtain ⟨zs, n', max, hopen, ho⟩ := Pipe.openWindow_eq_some env sc.mbufs h.size_le_queue
  refine ⟨zs, n', max, ho, ?_⟩
  rw [reopen, hopen]
  rfl

theorem fresh_opened {env : Env} {sc : Softc} {p : PipeNo} {zs : List Mbuf} {n' max : Nat}
    (hf : sc.Fresh) (ho : Pipe.Opening env sc.mbufs (sc.pipe p) zs n' max) {q : PipeNo} {m : Mbuf}
    (hm : m ∈ (Function.update sc.pipe p ((sc.pipe p).opened zs max) q).queue) : m.id < n' := by
  by_cases hq : q = p
  · subst hq
    rw [Function.update_self, Pipe.opened, List.mem_append] at hm
    rcases hm with hm | hm
    · exact (ho.zifs.id_mem hm).2
    · exact lt_of_lt_of_le (hf q m (List.mem_of_mem_drop hm)) ho.zifs.le
  · rw [Function.update_of_ne hq] at hm
    exact lt_of_lt_of_le (hf q m hm) ho.zifs.le

/-- The identities in a queue are not changed by sending. -/
theorem map_id_sendUnnumbered (q : Pipe) (i : Nat) :
    (q.sendUnnumbered i).queue.map Mbuf.id = q.queue.map Mbuf.id := by
  have hid : ∀ m, (Pipe.adjustHeader m).id = m.id := by
    intro m
    rw [Pipe.adjustHeader]
    split <;> rfl
  refine List.ext_getElem? ?_
  intro j
  simp only [Pipe.sendUnnumbered, List.getElem?_map, List.getElem?_modify]
  by_cases hij : i = j
  · cases q.queue[j]? <;> simp [hij, hid]
  · cases q.queue[j]? <;> simp [hij]

theorem windows_stable (env : Env) : Stable env Windows where
  setup := by
    intro nt ptp pri nse serial channels
    refine ⟨?_, fun _ => ⟨Nat.le_refl 0, Nat.zero_le _, Nat.le_refl 0, Nat.zero_lt_succ _⟩⟩
    intro p m hm
    exact absurd hm List.not_mem_nil
  follows := by
    rintro c sc sc' hf ⟨hfresh, hok⟩
    refine ⟨hf.fresh hfresh, ?_⟩
    intro p
    exact (hf.pipes hfresh p).preserves (fun _ _ => Pipe.WindowOk.step) (hok p)
  receiveNr := by
    rintro c sc p nr hnr ⟨hfresh, hok⟩
    refine ⟨?_, ?_⟩
    · intro q m hm
      by_cases hq : q = p
      · subst hq
        rw [modify_pipe_self, Pipe.receiveNr_queue] at hm
        exact hfresh q m hm
      · rw [modify_pipe_of_ne _ _ hq] at hm
        exact hfresh q m hm
    · intro q
      by_cases hq : q = p
      · subst hq
        rw [modify_pipe_self]
        exact (hok q).receiveNr hnr
      · rw [modify_pipe_of_ne _ _ hq]
        exact hok q
  stop := fun h => h
  move := fun _ _ h => h
  setCurPipe := fun _ h => h
  reopen := by
    rintro c sc sc' _ _ hreopen ⟨hfresh, hok⟩
    obtain ⟨zs, n', max, ho, heq⟩ := reopen_of_windowOk env (hok c)
    obtain rfl := Option.some.inj (heq.symm.trans hreopen)
    refine ⟨fun p m hm => fresh_opened hfresh ho hm, ?_⟩
    intro p
    by_cases hp : p = c
    · subst hp
      simp only [Function.update_self]
      exact (hok p).opened ho
    · simp only [Function.update_of_ne hp]
      exact hok p
  transmit := by
    rintro c sc sc' o _ hlen _ hsend ⟨hfresh, hok⟩
    obtain ⟨i, m, sc1, _, rfl, _, rfl, _⟩ := transmit_eq_some hsend
    split
    · refine ⟨?_, ?_⟩
      · intro p m hm
        by_cases hp : p = c
        · subst hp
          have hmem : m.id ∈ (sc.pipe p).queue.map Mbuf.id := by
            rw [← map_id_sendUnnumbered _ i]
            exact List.mem_map_of_mem (by simpa using hm)
          obtain ⟨m', hm', hid⟩ := List.mem_map.mp hmem
          rw [← hid]
          exact Nat.lt_succ_of_lt (hfresh p m' hm')
        · have hm : m ∈ (sc.pipe p).queue := by simpa [modify_pipe_of_ne _ _ hp] using hm
          exact Nat.lt_succ_of_lt (hfresh p m hm)
      · intro p
        by_cases hp : p = c
        · subst hp
          simp only [modify_pipe_self]
          exact (hok p).sendUnnumbered hlen i
        · simp only [modify_pipe_of_ne _ _ hp]
          exact hok p
    · exact ⟨fun p m hm => Nat.lt_succ_of_lt (hfresh p m hm), hok⟩

/-- **The window counters in every state that can be reached.**  The window is no longer than the
queue and than what 7 bits can count, and what is not acknowledged is no more than the window.  So no
frame is taken from an empty queue when a window is opened again, and no subtraction wraps around:
neither that of a timeout, nor that of a valid number, nor that of the adapter when it sends. -/
theorem window_le_queue {env : Env} {sc : Softc} (hsc : Reachable env sc) :
    (∀ p, (sc.pipe p).txWindowLength ≤ (sc.pipe p).txWindowSize ∧
      (sc.pipe p).txWindowSize ≤ min 127 (sc.pipe p).queue.length) ∧
    (∀ n sc1 p, Visit env sc n sc1 p →
      ((sc1.pipe p).txWindowSize ≤ (sc1.pipe p).queue.length ∧ (sc1.reopen env p).isSome) ∧
      ∀ sc2, sc1.served env p = some sc2 → sc2.curLength ≠ 0 → 0 < (sc2.pipe p).txWindowLength) ∧
    (∀ p, (sc.pipe p).retransmitUnacked.txWindowSize + (sc.pipe p).txWindowLength
      = (sc.pipe p).txWindowSize) ∧
    (∀ (sc1 : Softc) p nr, (sc1.pipe p).nrDifference nr ≤ (sc1.pipe p).txWindowLength →
      (sc1.pipe p).nrDifference nr ≤ (((sc1.modify p fun q => { q with txNr := nr }).dss1PipeSetState
        env p .multiFrame).pipe p).txWindowLength) := by
  have hok := ((windows_stable env).reachable hsc).2
  refine ⟨?_, ?_, ?_, ?_⟩
  · intro p
    exact ⟨(hok p).length_le, Nat.le_min.mpr ⟨(hok p).size_le, (hok p).size_le_queue⟩⟩
  · intro n sc1 p hvisit
    have hok1 := ((windows_stable env).visit hvisit ((windows_stable env).reachable hsc)).2 p
    obtain ⟨zs, n', max, _, hreopen⟩ := reopen_of_windowOk env hok1
    refine ⟨⟨hok1.size_le_queue, by rw [hreopen]; rfl⟩, ?_⟩
    intro sc2 hserved hlen
    exact Nat.pos_of_ne_zero (served_txWindowLength hserved hlen)
  · intro p
    rw [Pipe.retransmitUnacked_txWindowSize (hok p)]
    exact Nat.sub_add_cancel (hok p).length_le
  · intro sc1 p nr hd
    rw [dss1PipeSetState_multiFrame]
    split
    · rw [modify_pipe_self]
      exact hd
    · rw [modify_pipe_self, modify_pipe_self]
      exact hd

/-- It says so of a bus whose adapter has sent one of two frames. -/
theorem window_le_queue_sent :
    let env : Env := ⟨fun _ => true, fun _ => [], fun _ => []⟩
    ∃ h : (run env (setup true false false false 0 2)
      [.down (.request (.dataReq adapter [0x08, 1, 1, 5])),
        .down (.request (.dataReq adapter [0x08, 1, 2, 5])), .getMbuf]).isSome,
    let sc := ((run env (setup true false false false 0 2)
      [.down (.request (.dataReq adapter [0x08, 1, 1, 5])),
        .down (.request (.dataReq adapter [0x08, 1, 2, 5])), .getMbuf]).get h).1
    (sc.pipe adapter).txWindowLength = 1 ∧ (sc.pipe adapter).txWindowSize = 2 ∧
    ∀ p, (sc.pipe p).txWindowLength ≤ (sc.pipe p).txWindowSize ∧
      (sc.pipe p).txWindowSize ≤ min 127 (sc.pipe p).queue.length := by
  refine ⟨by decide, by decide, by decide, ?_⟩
  exact (window_le_queue (Reachable.run (.setup _ _ _ _ _ _) _ _)).1

end Softc
end L2
end Isdn4bsd
