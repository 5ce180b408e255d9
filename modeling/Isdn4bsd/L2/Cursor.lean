import Isdn4bsd.L2.Window

/-!
# Layer 2: the transmit cursor

The cursor is shared by all pipes, and nothing but `dss1_l2_get_mbuf` ever moves it: when a pipe is
drained or its window is given up, the cursor may be left with a pointer to a buffer that is gone.
It is not followed then, because whatever takes frames out of a queue or renumbers them leaves
nothing in the window (`Pipe.Keeps`), and a pipe with nothing in its window gets a new cursor.

* `Softc.CursorAt`: the cursor is at the frame it should be at, with the number it should have;
* `Softc.cursor_stable`: it is so whenever it matters;
* `Softc.cursor_valid`: so `dss1_l2_get_mbuf` follows no pointer that is not into the queue.

## The position of the cursor

The cursor is a pointer, the number of frames that are left, and the number the next frame gets, and each of
them is kept by itself.  `curIndex` is where the pointer should point: as many frames before the end of the window
as are left.  It is counted from the end, since new frames come in at the end of the queue, behind the window,
and an acknowledgement moves the start.  A number from the peer that is valid therefore leaves the cursor where it
is, even if frames that were sent again are acknowledged before the cursor comes to them.

That a pointer to a buffer of the queue is found at its place needs that no buffer is in the queue twice
(`QueueOk`): a frame that is to be sent again stays where it is, and zero-length frames are new buffers.
-/

set_option autoImplicit false

namespace Isdn4bsd
namespace L2
namespace Pipe

/-- No buffer is in the queue twice, and the window was opened at a number. -/
structure QueueOk (q : Pipe) : Prop where
  nodup : (q.queue.map Mbuf.id).Nodup
  openNr_lt : q.openNr < 128

/-- If something is left in the window, it is the window that was there before. -/
structure Window (q r : Pipe) : Prop where
  length_ne : q.txWindowLength ≠ 0
  size_eq : r.txWindowSize = q.txWindowSize
  openNr_eq : r.openNr = q.openNr
  queue : q.queue.map Mbuf.id <+: r.queue.map Mbuf.id

def Keeps (q r : Pipe) : Prop := r.txWindowLength ≠ 0 → Window q r

theorem Keeps.refl (q : Pipe) : Keeps q q := fun h => ⟨h, rfl, rfl, List.prefix_rfl⟩

theorem Keeps.trans {q r s : Pipe} (h : Keeps q r) (h' : Keeps r s) : Keeps q s := by
  intro hs
  have hrs := h' hs
  have hqr := h hrs.length_ne
  exact ⟨hqr.length_ne, hrs.size_eq.trans hqr.size_eq, hrs.openNr_eq.trans hqr.openNr_eq,
    hqr.queue.trans hrs.queue⟩

theorem map_id_acknowledge (q : Pipe) (cr : Nat) :
    (q.acknowledge cr).queue.map Mbuf.id = q.queue.map Mbuf.id := by
  rw [acknowledge, List.map_map]
  refine List.map_congr_left ?_
  intro m _
  rw [Function.comp_apply, acknowledgeMbuf]
  split <;> rfl

theorem Step.keeps {n : Nat} {q r : Pipe} (h : Step n q r) : Keeps q r := by
  intro hr
  cases h with
  | enqueue m _ hid =>
    refine ⟨hr, rfl, rfl, ?_⟩
    rw [Pipe.enqueue, List.map_append]
    exact List.prefix_append _ _
  | acknowledge cr =>
    refine ⟨hr, rfl, rfl, ?_⟩
    rw [map_id_acknowledge]
  | clear => exact absurd rfl hr
  | timeout => exact absurd rfl hr
  | other _ hqueue hsize hlen _ hopen _ _ =>
    refine ⟨hlen ▸ hr, hsize, hopen, ?_⟩
    rw [hqueue]

theorem Steps.keeps {n : Nat} {q r : Pipe} (h : Steps n q r) : Keeps q r := by
  induction h with
  | refl => exact .refl q
  | tail _ hs ih => exact ih.trans hs.keeps

theorem receiveNr_keeps {q : Pipe} (hok : q.WindowOk) (nr : Nat) : Keeps q (q.receiveNr nr) := by
  intro hr
  have hqueue := receiveNr_queue q nr
  have hopen := receiveNr_openNr q nr
  simp only [receiveNr] at hr hqueue hopen ⊢
  split at hr
  next hd =>
    rw [if_pos hd]
    exact ⟨hr, rfl, rfl, List.prefix_rfl⟩
  next hd =>
    rw [if_neg hd]
    split at hr
    next => exact absurd rfl hr
    next hlt =>
      rw [if_neg hlt]
      refine ⟨?_, rfl, rfl, List.prefix_rfl⟩
      intro hzero
      have hlen := hok.length_le
      exact hlt (by omega)

namespace QueueOk

theorem step {n : Nat} {q r : Pipe} (hs : Step n q r) (h : q.QueueOk) : r.QueueOk := by
  cases hs with
  | enqueue m _ hid =>
    refine ⟨?_, h.openNr_lt⟩
    rw [Pipe.enqueue, List.map_append, List.nodup_append]
    refine ⟨h.nodup, List.nodup_singleton _, ?_⟩
    rintro a ha b hb rfl
    obtain ⟨m', hm', hid'⟩ := List.mem_map.mp ha
    rw [List.map_singleton, List.mem_singleton] at hb
    exact hid m' hm' (hid'.trans hb)
  | acknowledge cr =>
    refine ⟨?_, h.openNr_lt⟩
    rw [map_id_acknowledge]
    exact h.nodup
  | clear => exact ⟨List.nodup_nil, h.openNr_lt⟩
  | timeout => exact ⟨h.nodup, h.openNr_lt⟩
  | other _ hqueue _ _ _ hopen _ _ =>
    constructor
    · rw [hqueue]
      exact h.nodup
    · rw [hopen]
      exact h.openNr_lt

theorem receiveNr {q : Pipe} (h : q.QueueOk) (nr : Nat) : (q.receiveNr nr).QueueOk := by
  constructor
  · rw [receiveNr_queue]
    exact h.nodup
  · rw [receiveNr_openNr]
    exact h.openNr_lt

theorem opened {env : Env} {n n' max : Nat} {q : Pipe} {zs : List Mbuf} (h : q.QueueOk)
    (hok : q.WindowOk) (hfresh : ∀ m ∈ q.queue, m.id < n) (ho : Opening env n q zs n' max) :
    (q.opened zs max).QueueOk := by
  refine ⟨?_, hok.nr_lt⟩
  rw [Pipe.opened, List.map_append, List.nodup_append]
  refine ⟨ho.zifs.nodup, ?_, ?_⟩
  · rw [List.map_drop]
    exact h.nodup.sublist (List.drop_sublist _ _)
  · rintro a ha b hb rfl
    obtain ⟨m, hm, hid⟩ := List.mem_map.mp ha
    obtain ⟨m', hm', hid'⟩ := List.mem_map.mp hb
    have hge := (ho.zifs.id_mem hm).1
    have hlt := hfresh m' (List.mem_of_mem_drop hm')
    rw [hid, ← hid'] at hge
    exact absurd hlt (Nat.not_lt.mpr hge)

end QueueOk

/-- A pointer to a buffer of the queue is found where that buffer is. -/
theorem find_of_getElem? {q : Pipe} (hnodup : (q.queue.map Mbuf.id).Nodup) {k : Nat} {m : Mbuf}
    (hm : q.queue[k]? = some m) : q.find (some m.id) = some k := by
  obtain ⟨hk, hget⟩ := List.getElem?_eq_some_iff.mp hm
  rw [find, Option.bind_some, List.findIdx?_eq_some_iff_getElem]
  refine ⟨hk, by simp [hget], ?_⟩
  intro j hj hid
  have hlt : j < (q.queue.map Mbuf.id).length := by
    rw [List.length_map]
    exact hj.trans hk
  have heq : (q.queue.map Mbuf.id)[j]? = (q.queue.map Mbuf.id)[k]? := by
    rw [List.getElem?_map, List.getElem?_map, hm, List.getElem?_eq_getElem (hj.trans hk)]
    simpa using hid
  exact absurd ((List.getElem?_inj hlt hnodup).mp heq) (Nat.ne_of_lt hj)

end Pipe

namespace Softc

/-- The cursor is on the window of a pipe: that many frames from its end, with the number of the
frame there. -/
structure CursorAt (sc : Softc) (c : PipeNo) : Prop where
  length_le : sc.curLength ≤ (sc.pipe c).txWindowSize
  mbuf : ((sc.pipe c).queue.map Mbuf.id)[(sc.pipe c).txWindowSize - sc.curLength]? = sc.curMbuf
  txNr : sc.curTxNr = (sc.pipe c).openNr + ((sc.pipe c).txWindowSize - sc.curLength)

/-- The cursor may be followed when there is something to send and the window is open. -/
def Cursor (c : PipeNo) (sc : Softc) : Prop :=
  (∀ p, (sc.pipe p).QueueOk) ∧
  (sc.curLength ≠ 0 → (sc.pipe c).txWindowLength ≠ 0 → sc.CursorAt c)

/-- The windows, and the cursor on them. -/
def Sound (c : PipeNo) (sc : Softc) : Prop := Windows c sc ∧ Cursor c sc

/-- A cursor on a window that a pipe kept is still on it. -/
theorem CursorAt.keeps {sc sc' : Softc} {c : PipeNo} (h : sc.CursorAt c) (hok : (sc.pipe c).WindowOk)
    (hlen : sc'.curLength = sc.curLength) (hne : sc.curLength ≠ 0) (hmbuf : sc'.curMbuf = sc.curMbuf)
    (hnr : sc'.curTxNr = sc.curTxNr) (hw : Pipe.Window (sc.pipe c) (sc'.pipe c)) :
    sc'.CursorAt c := by
  refine ⟨?_, ?_, ?_⟩
  · rw [hlen, hw.size_eq]
    exact h.length_le
  · have hlt : (sc.pipe c).txWindowSize - sc.curLength < ((sc.pipe c).queue.map Mbuf.id).length := by
      have hle := hok.size_le_queue
      have hcur := h.length_le
      rw [List.length_map]
      omega
    rw [hlen, hmbuf, hw.size_eq, ← h.mbuf, List.getElem?_eq_getElem hlt, hw.queue.getElem hlt,
      List.getElem?_eq_getElem]
  · rw [hlen, hnr, hw.size_eq, hw.openNr_eq]
    exact h.txNr

/-- The position of the cursor in the queue. -/
def curIndex (sc : Softc) (c : PipeNo) : Nat := (sc.pipe c).txWindowSize - sc.curLength

theorem CursorAt.curIndex_lt {sc : Softc} {c : PipeNo} (h : sc.CursorAt c) (hne : sc.curLength ≠ 0) :
    sc.curIndex c < (sc.pipe c).txWindowSize := by
  have hle := h.length_le
  rw [curIndex]
  omega

/-- **The frame at the cursor** is in the queue, at the cursor's position. -/
theorem CursorAt.find_eq {sc : Softc} {c : PipeNo} (h : sc.CursorAt c) (hne : sc.curLength ≠ 0)
    (hok : (sc.pipe c).WindowOk) (hqueue : (sc.pipe c).QueueOk) :
    ∃ m, (sc.pipe c).queue[sc.curIndex c]? = some m ∧ sc.curMbuf = some m.id ∧
      (sc.pipe c).find sc.curMbuf = some (sc.curIndex c) := by
  have hlt : sc.curIndex c < (sc.pipe c).queue.length :=
    lt_of_lt_of_le (h.curIndex_lt hne) hok.size_le_queue
  have hm := List.getElem?_eq_getElem hlt
  have hcur : sc.curMbuf = some ((sc.pipe c).queue[sc.curIndex c]).id := by
    rw [← h.mbuf, List.getElem?_map, ← curIndex, hm]
    rfl
  refine ⟨_, hm, hcur, ?_⟩
  rw [hcur]
  exact Pipe.find_of_getElem? hqueue.nodup hm

theorem cursor_follows {sc sc' : Softc} {c : PipeNo} (hf : Follows sc sc') (hw : Windows c sc)
    (hc : Cursor c sc) : Cursor c sc' := by
  have hpipes := hf.pipes hw.1
  constructor
  · intro p
    exact (hpipes p).preserves (fun _ _ => Pipe.QueueOk.step) (hc.1 p)
  · intro hcur hlen
    have hwin := (hpipes c).keeps hlen
    rw [hf.curLength] at hcur
    exact (hc.2 hcur hwin.length_ne).keeps (hw.2 c) hf.curLength hcur hf.curMbuf hf.curTxNr hwin

theorem cursor_receiveNr {sc : Softc} {c : PipeNo} (p : PipeNo) (nr : Nat) (hw : Windows c sc)
    (hc : Cursor c sc) : Cursor c (sc.modify p (Pipe.receiveNr nr)) := by
  constructor
  · intro q
    by_cases hq : q = p
    · subst hq
      rw [modify_pipe_self]
      exact (hc.1 q).receiveNr nr
    · rw [modify_pipe_of_ne _ _ hq]
      exact hc.1 q
  · intro hcur hlen
    have hkeeps : Pipe.Keeps (sc.pipe c) ((sc.modify p (Pipe.receiveNr nr)).pipe c) := by
      by_cases hq : c = p
      · subst hq
        rw [modify_pipe_self]
        exact Pipe.receiveNr_keeps (hw.2 c) nr
      · rw [modify_pipe_of_ne _ _ hq]
        exact .refl _
    have hwin := hkeeps hlen
    exact (hc.2 hcur hwin.length_ne).keeps (hw.2 c) rfl hcur rfl rfl hwin

theorem cursor_reopen {env : Env} {sc sc' : Softc} {c : PipeNo} (h : sc.reopen env c = some sc')
    (hw : Windows c sc) (hc : Cursor c sc) : Cursor c sc' := by
  obtain ⟨zs, n', max, ho, heq⟩ := reopen_of_windowOk env (hw.2 c)
  obtain rfl := Option.some.inj (heq.symm.trans h)
  constructor
  · intro p
    by_cases hp : p = c
    · subst hp
      simp only [Function.update_self]
      exact (hc.1 p).opened (hw.2 p) (hw.1 p) ho
    · simp only [Function.update_of_ne hp]
      exact hc.1 p
  · intro _ _
    constructor
    · simp only [Function.update_self, le_refl]
    · simp only [Function.update_self, Nat.sub_self, List.getElem?_map, List.head?_eq_getElem?]
    · simp [Pipe.opened]

theorem cursor_transmit {env : Env} {sc sc' : Softc} {c : PipeNo} {o : Option TxFrame}
    (hlen : (sc.pipe c).txWindowLength ≠ 0) (hcur : sc.curLength ≠ 0)
    (h : sc.transmit env c = some (sc', o)) (hw : Windows c sc) (hc : Cursor c sc) :
    Cursor c sc' := by
  have hat := hc.2 hcur hlen
  obtain ⟨m, hm, hmbuf, hfind⟩ := hat.find_eq hcur (hw.2 c) (hc.1 c)
  have hlt := hat.curIndex_lt hcur
  have hle := hat.length_le
  have hsize := (hw.2 c).size_le
  have hopen := (hc.1 c).openNr_lt
  obtain ⟨i, m', sc1, hi, rfl, _, rfl, _⟩ := transmit_eq_some h
  obtain rfl : i = sc.curIndex c := Option.some.inj (hi.symm.trans hfind)
  -- sending changes neither the identities nor the size of the window it was opened with
  have hids : ∀ p, ((if ¬ (sc.pipe c).state.isTeiAssigned then
      sc.modify c (Pipe.sendUnnumbered (sc.curIndex c)) else sc).pipe p).queue.map Mbuf.id
        = (sc.pipe p).queue.map Mbuf.id := by
    intro p
    split
    · by_cases hp : p = c
      · subst hp
        rw [modify_pipe_self, map_id_sendUnnumbered]
      · rw [modify_pipe_of_ne _ _ hp]
    · rfl
  have hsame : ∀ p, ((if ¬ (sc.pipe c).state.isTeiAssigned then
      sc.modify c (Pipe.sendUnnumbered (sc.curIndex c)) else sc).pipe p).txWindowSize
        = (sc.pipe p).txWindowSize ∧ ((if ¬ (sc.pipe c).state.isTeiAssigned then
      sc.modify c (Pipe.sendUnnumbered (sc.curIndex c)) else sc).pipe p).openNr
        = (sc.pipe p).openNr := by
    intro p
    split
    · by_cases hp : p = c
      · subst hp
        rw [modify_pipe_self]
        exact ⟨rfl, rfl⟩
      · rw [modify_pipe_of_ne _ _ hp]
        exact ⟨rfl, rfl⟩
    · exact ⟨rfl, rfl⟩
  refine ⟨?_, ?_⟩
  · intro p
    refine ⟨?_, ?_⟩
    · simp only [hids]
      exact (hc.1 p).nodup
    · simp only [(hsame p).2]
      exact (hc.1 p).openNr_lt
  · intro hcur' _
    have hnext : (sc.pipe c).txWindowSize - (sc.curLength - 1) = sc.curIndex c + 1 := by
      simp only [curIndex]
      omega
    refine ⟨?_, ?_, ?_⟩
    · simp only [(hsame c).1]
      exact (Nat.sub_le _ _).trans hle
    · simp only [(hsame c).1, hnext, ← List.getElem?_map, hids]
    · simp only [(hsame c).1, (hsame c).2, hnext]
      rw [hat.txNr, ← curIndex]
      omega

theorem cursor_stable (env : Env) : Stable env Sound := by
  refine (windows_stable env).and ?_ (fun hf => cursor_follows hf)
    (fun p nr _ => cursor_receiveNr p nr) ?_ ?_ ?_ (fun _ _ h => cursor_reopen h)
    (fun _ hlen hcur h => cursor_transmit hlen hcur h)
  · intro nt ptp pri nse serial channels
    exact ⟨fun _ => ⟨List.nodup_nil, Nat.zero_lt_succ _⟩, fun h => absurd rfl h⟩
  · intro c sc h
    exact ⟨h.1, fun hne => absurd rfl hne⟩
  · intro c sc c' hcur h
    exact ⟨h.1, fun hne => absurd hcur hne⟩
  · intro c sc p h
    exact ⟨h.1, fun hcur hlen => ⟨(h.2 hcur hlen).length_le, (h.2 hcur hlen).mbuf,
      (h.2 hcur hlen).txNr⟩⟩

/-- A pipe whose window was opened or is open, with something to send, has the cursor on it. -/
theorem Sound.served {env : Env} {sc sc1 : Softc} {p : PipeNo} (h : Sound p sc)
    (hmay : sc.mayServe p) (hserved : sc.served env p = some sc1) (hcur : sc1.curLength ≠ 0) :
    Sound p sc1 ∧ sc1.CursorAt p := by
  have h1 := (cursor_stable env).served hmay hserved h
  exact ⟨h1, h1.2.2 hcur (served_txWindowLength hserved hcur)⟩

theorem Sound.servePipe_isSome {env : Env} {sc : Softc} {p : PipeNo} (h : Sound p sc) :
    (sc.servePipe env p).isSome := by
  refine Softc.servePipe_isSome ?_ ?_
  · intro _
    rw [Softc.served]
    split
    · obtain ⟨zs, n', max, _, hreopen⟩ := reopen_of_windowOk env (h.1.2 p)
      rw [hreopen]
      rfl
    · rfl
  · intro sc1 hmay hserved hcur
    obtain ⟨h1, hat⟩ := h.served hmay hserved hcur
    obtain ⟨m, hm, _, hfind⟩ := hat.find_eq hcur (h1.1.2 p) (h1.2.1 p)
    have hlt := (List.getElem?_eq_some_iff.mp hm).1
    rw [transmit, hfind]
    by_cases hstate : (sc1.pipe p).state.isTeiAssigned
    · simp [hstate, hlt]
    · simp [hstate, Pipe.sendUnnumbered, hlt]

/-- **The cursor is followed only where it points to the frame it should.**  Whenever
`dss1_l2_get_mbuf` sends from a pipe whose window it did not just open, that is the pipe the cursor was
on, the pointer is to the frame of its queue that is `curLength` from the end of its window, to no
other, and the number is that of this frame.  So a call always has a result. -/
theorem cursor_valid {env : Env} {sc : Softc} (hsc : Reachable env sc) :
    (∀ n sc1 p, Visit env sc n sc1 p → sc1.mayServe p → (sc1.pipe p).txWindowLength ≠ 0 →
      sc1.curLength ≠ 0 →
      p = sc.curPipe ∧ sc1.curLength ≤ (sc1.pipe p).txWindowSize ∧
      (∃ m, (sc1.pipe p).queue[(sc1.pipe p).txWindowSize - sc1.curLength]? = some m ∧
        sc1.curMbuf = some m.id ∧
        ∀ j m', (sc1.pipe p).queue[j]? = some m' → m'.id = m.id →
          j = (sc1.pipe p).txWindowSize - sc1.curLength) ∧
      sc1.curTxNr = (sc1.pipe p).openNr + ((sc1.pipe p).txWindowSize - sc1.curLength)) ∧
    (sc.dss1L2GetMbuf env).isSome := by
  have hsound := (cursor_stable env).reachable hsc
  constructor
  · intro n sc1 p hvisit hmay hlen hcur
    obtain ⟨hw, hc⟩ := (cursor_stable env).visit hvisit hsound
    have hat := hc.2 hcur hlen
    obtain ⟨m, hm, hmbuf, hfind⟩ := hat.find_eq hcur (hw.2 p) (hc.1 p)
    refine ⟨?_, hat.length_le, ⟨m, hm, hmbuf, ?_⟩, hat.txNr⟩
    · cases hvisit with
      | start => rfl
      | next => exact absurd rfl hcur
    · intro j m' hm' hid
      have hfind' := Pipe.find_of_getElem? (hc.1 p).nodup hm'
      rw [hid, ← hmbuf, hfind] at hfind'
      exact (Option.some.inj hfind').symm
  · refine dss1L2GetMbuf_isSome ?_
    intro n sc1 p hvisit
    exact ((cursor_stable env).visit hvisit hsound).servePipe_isSome

/-- It says so of a bus whose adapter has sent one of two frames. -/
theorem cursor_valid_sent :
    let env : Env := ⟨fun _ => true, fun _ => [], fun _ => []⟩
    ∃ h : (run env (setup true false false false 0 2)
      [.down (.request (.dataReq adapter [0x08, 1, 1, 5])),
        .down (.request (.dataReq adapter [0x08, 1, 2, 5])), .getMbuf]).isSome,
    let sc := ((run env (setup true false false false 0 2)
      [.down (.request (.dataReq adapter [0x08, 1, 1, 5])),
        .down (.request (.dataReq adapter [0x08, 1, 2, 5])), .getMbuf]).get h).1
    sc.mayServe adapter ∧ (sc.pipe adapter).txWindowLength ≠ 0 ∧ sc.curLength = 1 ∧
    sc.curTxNr = (sc.pipe adapter).openNr + ((sc.pipe adapter).txWindowSize - sc.curLength) := by
  refine ⟨by decide, by decide, by decide, by decide, ?_⟩
  refine ((cursor_valid (Reachable.run (.setup _ _ _ _ _ _) _ _)).1 _ _ _ (.start ?_) ?_ ?_ ?_).2.2.2
  · decide
  · decide
  · decide
  · decide

end Softc
end L2
end Isdn4bsd
