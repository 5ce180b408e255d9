import Isdn4bsd.L2.Link
import Isdn4bsd.L2.Zif
import Isdn4bsd.Lib.Renumber

/-!
# Layer 2: no frame is lost

A pipe and its peer are shown to be a `Renumber.Link`, whose numbers are not reduced modulo 128.  What
happens to the pipe is what may happen there: frames come into the queue, the window is given up by a
timeout or opened again, the frame at the cursor is sent, and a number from the peer is expected, wrong,
or in the window.

* `Link.Rel`: how the two stand to each other;
* `Link.Linked`: the invariant of a run, stated for the pipe the cursor is on;
* `Link.no_loss`: no data frame leaves the queue before the peer has accepted it, and data frames are
  first accepted in order, if the peer starts over only while nothing is on its way;
* `Link.frame_lost`: if it starts over while frames are on their way, a frame may get lost.

## Two levels

With numbers modulo 128 it cannot be seen from a frame which round its number is from.  In `Lib.Renumber` numbers
grow without end, frames on their way have different ones, and the invariant of a window protocol can be
stated.  That the reduced numbers are enough is proved there: what is on its way spans less than 128 numbers.
Here the code is connected to it.

`Rel` has the frames of the queue in the order of their full numbers, the window as a range of them, and the
frames on their way as copies of these (`Copy`).  Each thing that can happen to the pipe is one rule of the
abstract link: `Rel.enqueue`, `Rel.timeout`, `Rel.receiveNr`, `Rel.reopen`, `Rel.send`.  Zero-length frames are
frames without a payload; when a window is opened they come in front of the data, and nothing else is renumbered
(`rule_opened`).

## From the pipe to the softc

An event of the softc may do several things to the pipe, with the cursor on it or on another one.  `Linked` is
`Rel` together with the invariants of `Isdn4bsd.L2.Cursor` and `Isdn4bsd.L2.Zif`, and is carried through the loop
of `dss1_l2_get_mbuf` like those.
-/

set_option autoImplicit false

namespace Isdn4bsd
namespace L2
namespace Pipe

/-! ## The pipe between two numbers

Between two numbers from the peer the queue of a pipe only grows, and its window may be given up as a
whole.
-/

/-- A pipe that neither paused nor had frames taken back: frames were enqueued, and perhaps the ones that
are not acknowledged are to be sent again. -/
structure Grows (n : Nat) (q r : Pipe) : Prop where
  queue : ∃ new, r.queue = q.queue ++ new ∧ ∀ m ∈ new, n ≤ m.id
  txNr : r.txNr = q.txNr
  openNr : r.openNr = q.openNr
  window : (r.txWindowSize = q.txWindowSize ∧ r.txWindowLength = q.txWindowLength) ∨
    (r.txWindowSize = q.txWindowSize - q.txWindowLength ∧ r.txWindowLength = 0)

theorem Grows.refl (n : Nat) (q : Pipe) : Grows n q q :=
  ⟨⟨[], by simp⟩, rfl, rfl, .inl ⟨rfl, rfl⟩⟩

theorem Step.counts {n : Nat} {q r : Pipe} (h : Step n q r) : q.pauses ≤ r.pauses ∧ q.acks ≤ r.acks := by
  cases h with
  | enqueue _ _ _ => exact ⟨Nat.le_refl _, Nat.le_refl _⟩
  | acknowledge _ => exact ⟨Nat.le_refl _, Nat.le_succ _⟩
  | clear => exact ⟨Nat.le_succ _, Nat.le_refl _⟩
  | timeout => exact ⟨Nat.le_refl _, Nat.le_refl _⟩
  | other _ _ _ _ _ _ hpauses hacks => exact ⟨hpauses.ge, hacks.ge⟩

theorem Steps.counts {n : Nat} {q r : Pipe} (h : Steps n q r) :
    q.pauses ≤ r.pauses ∧ q.acks ≤ r.acks := by
  induction h with
  | refl => exact ⟨Nat.le_refl _, Nat.le_refl _⟩
  | tail _ hs ih => exact ⟨ih.1.trans hs.counts.1, ih.2.trans hs.counts.2⟩

theorem Grows.step {n : Nat} {q r s : Pipe} (h : Grows n q r) (hok : r.WindowOk) (hs : Step n r s)
    (hpauses : s.pauses = r.pauses) (hacks : s.acks = r.acks) : Grows n q s := by
  obtain ⟨new, hqueue, hnew⟩ := h.queue
  cases hs with
  | enqueue m hid _ =>
    refine ⟨⟨new ++ [m], ?_, ?_⟩, h.txNr, h.openNr, h.window⟩
    · rw [Pipe.enqueue, hqueue, List.append_assoc]
    · intro m' hm'
      rcases List.mem_append.mp hm' with hm' | hm'
      · exact hnew m' hm'
      · obtain rfl := List.mem_singleton.mp hm'
        exact hid
  | acknowledge _ => exact absurd hacks (Nat.succ_ne_self _)
  | clear => exact absurd hpauses (Nat.succ_ne_self _)
  | timeout =>
    refine ⟨⟨new, hqueue, hnew⟩, h.txNr, h.openNr, .inr ⟨?_, rfl⟩⟩
    rw [retransmitUnacked_txWindowSize hok]
    obtain ⟨hsize, hlen⟩ | ⟨hsize, hlen⟩ := h.window
    · rw [hsize, hlen]
    · rw [hsize, hlen, Nat.sub_zero]
  | other _ hq hsize hlen hnr hopen _ _ =>
    refine ⟨⟨new, hq.trans hqueue, hnew⟩, hnr.trans h.txNr, hopen.trans h.openNr, ?_⟩
    rw [hsize, hlen]
    exact h.window

theorem Steps.grows {n : Nat} {q r : Pipe} (h : Steps n q r) (hok : q.WindowOk)
    (hpauses : r.pauses = q.pauses) (hacks : r.acks = q.acks) : Grows n q r := by
  induction h with
  | refl => exact .refl n q
  | @tail b c hb hs ih =>
    have hcount := Steps.counts hb
    have hcount' := hs.counts
    have hpb : b.pauses = q.pauses := by omega
    have hab : b.acks = q.acks := by omega
    have hokb : b.WindowOk := Steps.preserves (fun _ _ => WindowOk.step) hb hok
    exact (ih hpb hab).step hokb hs (hpauses.trans hpb.symm) (hacks.trans hab.symm)

end Pipe

namespace Link

/-! ## Data frames that were enqueued

A data frame is noted when it comes into the queue.  Zero-length frames are not: these are made by layer 2,
to find out the number of the peer.
-/

/-- Nothing is noted of a queue that has nothing new. -/
theorem note_eq_self {enq : List Nat} {queue : List Mbuf}
    (h : ∀ m ∈ queue, ¬ m.isZif → m.id ∈ enq) : note enq queue = enq := by
  have hnil : queue.filter (fun m => ¬ m.isZif ∧ m.id ∉ enq) = [] := by
    rw [List.filter_eq_nil_iff]
    intro m hm
    have hmem := h m hm
    simpa using hmem
  rw [note, hnil, List.map_nil, List.append_nil]

/-- What is new is at the end. -/
theorem note_append {enq : List Nat} {queue new : List Mbuf}
    (hold : ∀ m ∈ queue, ¬ m.isZif → m.id ∈ enq) (hnew : ∀ m ∈ new, m.id ∉ enq) :
    note enq (queue ++ new) = enq ++ (new.filter fun m => ¬ m.isZif).map Mbuf.id := by
  have hqueue : queue.filter (fun m => ¬ m.isZif ∧ m.id ∉ enq) = [] := by
    rw [List.filter_eq_nil_iff]
    intro m hm
    have hmem := hold m hm
    simpa using hmem
  have hrest : new.filter (fun m => ¬ m.isZif ∧ m.id ∉ enq) = new.filter (fun m => ¬ m.isZif) := by
    refine List.filter_congr ?_
    intro m hm
    have hmem := hnew m hm
    simp [hmem]
  rw [note, List.filter_append, hqueue, hrest, List.nil_append]

/-- Noting the data frames in between changes nothing. -/
theorem note_note {enq : List Nat} {queue new : List Mbuf}
    (hnodup : ((queue ++ new).map Mbuf.id).Nodup) :
    note (note enq queue) (queue ++ new) = note enq (queue ++ new) := by
  have hold : ∀ m ∈ queue, ¬ m.isZif → m.id ∈ note enq queue := by
    intro m hm hdata
    by_cases hmem : m.id ∈ enq
    · exact List.mem_append_left _ hmem
    · refine List.mem_append_right _ (List.mem_map_of_mem ?_)
      simp [List.mem_filter, hm, hdata, hmem]
  have hqueue : queue.filter (fun m => ¬ m.isZif ∧ m.id ∉ note enq queue) = [] := by
    rw [List.filter_eq_nil_iff]
    intro m hm
    have hmem := hold m hm
    simpa using hmem
  have hrest : new.filter (fun m => ¬ m.isZif ∧ m.id ∉ note enq queue)
      = new.filter (fun m => ¬ m.isZif ∧ m.id ∉ enq) := by
    refine List.filter_congr ?_
    intro m hm
    have hnot : m.id ∉ (queue.filter fun m => ¬ m.isZif ∧ m.id ∉ enq).map Mbuf.id := by
      intro hmem
      obtain ⟨m', hm', hid⟩ := List.mem_map.mp hmem
      rw [List.map_append, List.nodup_append] at hnodup
      exact hnodup.2.2 _ (List.mem_map_of_mem (List.mem_of_mem_filter hm')) _
        (List.mem_map_of_mem hm) hid
    have hiff : m.id ∈ note enq queue ↔ m.id ∈ enq := by
      rw [note, List.mem_append]
      tauto
    simp [hiff]
  rw [note, List.filter_append, hqueue, hrest, List.nil_append, note, note, List.filter_append,
    List.map_append, List.append_assoc]

/-! ## The refinement

The link of `Lib.Renumber` has numbers that are not reduced, and remembers of each copy the number it was
given.  `Rel` says which link stands for a pipe and the frames on their way; the numbers in the frames are
those of the link modulo 128.
-/

/-- A frame on its way, and the frame and the number that stand for it. -/
structure Copy (enq : List Nat) (f : TxFrame) (x : Nat × Nat) : Prop where
  id : f.mbuf.id = x.1
  nr : getNr (get1 f.bytes 2) = x.2 % 128
  data : f.mbuf.id ∈ enq ↔ ¬ f.mbuf.isZif

/-- A link whose numbers are reduced modulo 128, and one whose are not.  The pipe is `q`, and `n` buffers
were asked for. -/
structure Rel (q : Pipe) (n : Nat) (l : Link) (a : Renumber.Link Nat) : Prop where
  queue : a.queue = q.queue.map Mbuf.id
  size : a.size = q.txWindowSize
  acked : a.acked + q.txWindowLength = q.txWindowSize
  txNr : a.next % 128 = q.txNr
  openNr : q.txWindowLength ≠ 0 → a.base % 128 = q.openNr
  fwd : List.Forall₂ (Copy l.enq) l.fwd a.fwd
  rev : List.Forall₂ (fun buf r => getNr (get1 buf 3) = r % 128) l.rev a.rev
  peer : a.peer % 128 = l.rxNr
  enq : a.enq = l.enq
  accepted : a.accepted = l.accepted
  data : ∀ m ∈ q.queue, m.id ∈ l.enq ↔ ¬ m.isZif
  queue_lt : ∀ m ∈ q.queue, m.id < n
  enq_lt : ∀ id ∈ l.enq, id < n
  fwd_lt : ∀ f ∈ l.fwd, f.mbuf.id < n

namespace Rel

variable {q : Pipe} {n : Nat} {l : Link} {a : Renumber.Link Nat}

/-- The softc and the rest of the pipe do not matter. -/
theorem other {q' : Pipe} {n' : Nat} (h : Rel q n l a) (hqueue : q'.queue = q.queue)
    (hsize : q'.txWindowSize = q.txWindowSize) (hlen : q'.txWindowLength = q.txWindowLength)
    (hnr : q'.txNr = q.txNr) (hopen : q'.openNr = q.openNr) (hn : n ≤ n') (sc : Softc) :
    Rel q' n' { l with sc := sc } a where
  queue := by rw [hqueue, h.queue]
  size := by rw [hsize, h.size]
  acked := by rw [hlen, hsize, h.acked]
  txNr := by rw [hnr, h.txNr]
  openNr := by
    rw [hlen, hopen]
    exact h.openNr
  fwd := h.fwd
  rev := h.rev
  peer := h.peer
  enq := h.enq
  accepted := h.accepted
  data := by
    rw [hqueue]
    exact h.data
  queue_lt := by
    rw [hqueue]
    exact fun m hm => lt_of_lt_of_le (h.queue_lt m hm) hn
  enq_lt := fun id hid => lt_of_lt_of_le (h.enq_lt id hid) hn
  fwd_lt := fun f hf => lt_of_lt_of_le (h.fwd_lt f hf) hn

theorem note_eq (h : Rel q n l a) : note l.enq q.queue = l.enq :=
  note_eq_self fun m hm => (h.data m hm).mpr

/-- A copy on its way is of a frame that is not new. -/
theorem fwd_mem {x : Nat × Nat} (h : Rel q n l a) (hx : x ∈ a.fwd) : x.1 < n := by
  obtain ⟨i, hi⟩ := List.mem_iff_getElem?.mp hx
  obtain ⟨hlt, hget⟩ := List.getElem?_eq_some_iff.mp hi
  have hlen := h.fwd.length_eq
  have hcopy := h.fwd.get (hlen ▸ hlt) hlt
  simp only [List.get_eq_getElem, hget] at hcopy
  rw [← hcopy.id]
  exact h.fwd_lt _ (List.getElem_mem _)

end Rel

/-! ## Frames come into the queue, and timeouts

Events of the pipe alone.
-/

/-- Which of the new frames carry something. -/
theorem mem_filter_map_id {new : List Mbuf} (hnodup : (new.map Mbuf.id).Nodup) {m : Mbuf} (hm : m ∈ new) :
    m.id ∈ (new.filter fun m => ¬ m.isZif).map Mbuf.id ↔ ¬ m.isZif := by
  constructor
  · intro hmem
    obtain ⟨m', hm', hid⟩ := List.mem_map.mp hmem
    rw [List.mem_filter] at hm'
    rw [← List.inj_on_of_nodup_map hnodup hm'.1 hm hid]
    simpa using hm'.2
  · intro hdata
    refine List.mem_map_of_mem (List.mem_filter.mpr ⟨hm, ?_⟩)
    simpa using hdata

theorem filter_map_id {new : List Mbuf} (hnodup : (new.map Mbuf.id).Nodup) :
    (new.map Mbuf.id).filter (fun id => id ∈ (new.filter fun m => ¬ m.isZif).map Mbuf.id)
      = (new.filter fun m => ¬ m.isZif).map Mbuf.id := by
  rw [List.filter_map]
  refine congrArg (List.map Mbuf.id) (List.filter_congr ?_)
  intro m hm
  simp only [Function.comp_apply, decide_eq_decide]
  exact mem_filter_map_id hnodup hm

section Grows

variable {q q' : Pipe} {n n' : Nat} {l : Link} {a : Renumber.Link Nat}

/-- **Frames come into the queue.** -/
theorem Rel.enqueue {new : List Mbuf} (h : Rel q n l a) (hinv : a.Inv 128)
    (hqueue : q'.queue = q.queue ++ new) (hnew : ∀ m ∈ new, n ≤ m.id ∧ m.id < n')
    (hsize : q'.txWindowSize = q.txWindowSize) (hlen : q'.txWindowLength = q.txWindowLength)
    (hnr : q'.txNr = q.txNr) (hopen : q'.openNr = q.openNr) (hn : n ≤ n')
    (hnodup : (q'.queue.map Mbuf.id).Nodup) (sc : Softc) :
    ∃ a', Rel q' n' { l with sc := sc, enq := note l.enq q'.queue } a' ∧ a'.Inv 128 := by
  rw [hqueue, List.map_append] at hnodup
  have hnodup' := (List.nodup_append.mp hnodup).2.1
  have hnot : ∀ m ∈ new, m.id ∉ l.enq := by
    intro m hm hmem
    exact absurd (h.enq_lt _ hmem) (Nat.not_lt.mpr (hnew m hm).1)
  have hnote : note l.enq q'.queue = l.enq ++ (new.filter fun m => ¬ m.isZif).map Mbuf.id := by
    rw [hqueue]
    exact note_append (fun m hm => (h.data m hm).mpr) hnot
  -- what was known of frames that are not new still holds
  have hold : ∀ id, id < n → (id ∈ note l.enq q'.queue ↔ id ∈ l.enq) := by
    intro id hid
    have hnone : id ∉ (new.filter fun m => ¬ m.isZif).map Mbuf.id := by
      intro hmem
      obtain ⟨m, hm, rfl⟩ := List.mem_map.mp hmem
      exact absurd hid (Nat.not_lt.mpr (hnew m (List.mem_of_mem_filter hm)).1)
    rw [hnote, List.mem_append]
    tauto
  refine ⟨a.enqueue (new.map Mbuf.id) fun id => id ∈ (new.filter fun m => ¬ m.isZif).map Mbuf.id,
    ⟨?_, ?_, ?_, ?_, ?_, ?_, h.rev, h.peer, ?_, h.accepted, ?_, ?_, ?_, ?_⟩, hinv.enqueue ?_ ?_ ?_⟩
  · change a.queue ++ _ = _
    rw [h.queue, hqueue, List.map_append]
  · rw [hsize]
    exact h.size
  · rw [hsize, hlen]
    exact h.acked
  · rw [hnr]
    exact h.txNr
  · rw [hlen, hopen]
    exact h.openNr
  · refine List.forall₂_iff_zip.mpr ⟨h.fwd.length_eq, ?_⟩
    intro f x hmem
    have hcopy := (List.forall₂_iff_zip.mp h.fwd).2 hmem
    have hlt := h.fwd_lt f (List.of_mem_zip hmem).1
    exact ⟨hcopy.id, hcopy.nr, (hold _ hlt).trans hcopy.data⟩
  · change a.enq ++ _ = note l.enq q'.queue
    rw [h.enq, hnote, filter_map_id hnodup']
  · intro m hm
    rw [hqueue] at hm
    rcases List.mem_append.mp hm with hm | hm
    · exact (hold _ (h.queue_lt m hm)).trans (h.data m hm)
    · change m.id ∈ note l.enq q'.queue ↔ _
      rw [hnote, List.mem_append, or_iff_right (hnot m hm)]
      exact mem_filter_map_id hnodup' hm
  · intro m hm
    rw [hqueue] at hm
    rcases List.mem_append.mp hm with hm | hm
    · exact lt_of_lt_of_le (h.queue_lt m hm) hn
    · exact (hnew m hm).2
  · intro id hid
    change id ∈ note l.enq q'.queue at hid
    rw [hnote] at hid
    rcases List.mem_append.mp hid with hid | hid
    · exact lt_of_lt_of_le (h.enq_lt id hid) hn
    · obtain ⟨m, hm, rfl⟩ := List.mem_map.mp hid
      exact (hnew m (List.mem_of_mem_filter hm)).2
  · intro f hf
    exact lt_of_lt_of_le (h.fwd_lt f hf) hn
  · rw [h.queue]
    exact hnodup
  · intro k hk
    obtain ⟨m, hm, rfl⟩ := List.mem_map.mp hk
    rw [h.enq]
    exact hnot m hm
  · intro x hx hk
    obtain ⟨m, hm, hid⟩ := List.mem_map.mp hk
    have hlt := h.fwd_mem hx
    rw [← hid] at hlt
    exact absurd hlt (Nat.not_lt.mpr (hnew m hm).1)

/-- **A timeout.** -/
theorem Rel.timeout (h : Rel q n l a) (hqueue : q'.queue = q.queue)
    (hsize : q'.txWindowSize = q.txWindowSize - q.txWindowLength) (hlen : q'.txWindowLength = 0)
    (hnr : q'.txNr = q.txNr) : Rel q' n l a.timeout := by
  have hacked : a.acked = q.txWindowSize - q.txWindowLength := Nat.eq_sub_of_add_eq h.acked
  refine ⟨?_, ?_, ?_, ?_, ?_, h.fwd, h.rev, h.peer, h.enq, h.accepted, ?_, ?_, h.enq_lt, h.fwd_lt⟩
  · rw [hqueue]
    exact h.queue
  · rw [hsize]
    exact hacked
  · rw [hsize, hlen]
    exact hacked
  · rw [hnr]
    exact h.txNr
  · intro hne
    exact absurd hlen hne
  · rw [hqueue]
    exact h.data
  · rw [hqueue]
    exact h.queue_lt

/-- **The pipe goes on, without a number from the peer.** -/
theorem Rel.grows (h : Rel q n l a) (hinv : a.Inv 128) (hg : Pipe.Grows n q q') (hn : n ≤ n')
    (hlt : ∀ m ∈ q'.queue, m.id < n') (hnodup : (q'.queue.map Mbuf.id).Nodup) (sc : Softc) :
    ∃ a', Rel q' n' { l with sc := sc, enq := note l.enq q'.queue } a' ∧ a'.Inv 128 := by
  obtain ⟨new, hqueue, hge⟩ := hg.queue
  have hnew : ∀ m ∈ new, n ≤ m.id ∧ m.id < n' := by
    intro m hm
    refine ⟨hge m hm, hlt m ?_⟩
    rw [hqueue]
    exact List.mem_append_right _ hm
  obtain ⟨hsize, hlen⟩ | ⟨hsize, hlen⟩ := hg.window
  · exact h.enqueue hinv hqueue hnew hsize hlen hg.txNr hg.openNr hn hnodup sc
  · -- the frames come in before the timeout
    obtain ⟨q1, hq1⟩ : ∃ q1 : Pipe, q1 = { q with queue := q.queue ++ new } := ⟨_, rfl⟩
    have hqueue1 : q1.queue = q'.queue := by rw [hq1, hqueue]
    rw [← hqueue1] at hnodup
    obtain ⟨a', ha', hinv'⟩ := h.enqueue hinv (by rw [hq1]) hnew (by rw [hq1]) (by rw [hq1])
      (by rw [hq1]) (by rw [hq1]) hn hnodup sc
    rw [hqueue1] at ha'
    refine ⟨a'.timeout, ha'.timeout hqueue1.symm ?_ hlen ?_, hinv'.timeout⟩
    · rw [hsize, hq1]
    · rw [hg.txNr, hq1]

end Grows

/-! ## A number from the peer

The pipe compares the number with what it expects and with its window, modulo 128, and the link does so
with numbers that are not reduced.  That both come to the same is where the invariant of the link is used.
-/

section ReceiveNr

variable {q : Pipe} {n nr r : Nat} {l : Link} {a : Renumber.Link Nat} {rs : List Nat}
  {bufs : List (List UInt8)}

/-- What a number does not change. -/
theorem Rel.setNr {q' : Pipe} (h : Rel q n l a) (a' : Renumber.Link Nat)
    (hqueue : q'.queue = q.queue) (hsize : a'.size = q'.txWindowSize)
    (hacked : a'.acked + q'.txWindowLength = q'.txWindowSize) (hnr : a'.next % 128 = q'.txNr)
    (hopen : q'.txWindowLength ≠ 0 → a'.base % 128 = q'.openNr)
    (hrev : List.Forall₂ (fun buf r => getNr (get1 buf 3) = r % 128) bufs a'.rev)
    (ha : a'.queue = a.queue ∧ a'.fwd = a.fwd ∧ a'.peer = a.peer ∧ a'.enq = a.enq ∧
      a'.accepted = a.accepted) (sc : Softc) : Rel q' n { l with sc := sc, rev := bufs } a' := by
  obtain ⟨hq, hfwd, hpeer, henq, hacc⟩ := ha
  refine ⟨?_, hsize, hacked, hnr, hopen, ?_, hrev, ?_, ?_, ?_, ?_, ?_, h.enq_lt, h.fwd_lt⟩
  · rw [hq, hqueue, h.queue]
  · rw [hfwd]
    exact h.fwd
  · rw [hpeer]
    exact h.peer
  · rw [henq]
    exact h.enq
  · rw [hacc]
    exact h.accepted
  · rw [hqueue]
    exact h.data
  · rw [hqueue]
    exact h.queue_lt

/-- **The pipe gets a number**, which it expects, which is wrong or which is in the window. -/
theorem Rel.receiveNr (h : Rel q n l a) (hinv : a.Inv 128) (hok : q.WindowOk)
    (hrev : a.rev = r :: rs) (hnr : nr = r % 128)
    (hrs : List.Forall₂ (fun buf r => getNr (get1 buf 3) = r % 128) bufs rs) (sc : Softc) :
    ∃ a', Rel (q.receiveNr nr) n { l with sc := sc, rev := bufs } a' ∧ a'.Inv 128 := by
  obtain ⟨hnext, _, hlt⟩ := hinv.le_of_rev hrev
  have htx := h.txNr
  have hacked := h.acked
  have hnext' : a.next = a.base + a.acked := rfl
  have hsize := h.size
  have hqueue := Pipe.receiveNr_queue q nr
  -- the difference is that of the numbers that are not reduced
  have hd : q.nrDifference nr = r - a.next := by
    rw [Pipe.nrDifference, hnr, ← htx]
    omega
  have heq := Pipe.receiveNr.eq_1 nr q
  simp only [hd] at heq
  by_cases hsame : r - a.next = 0
  · rw [if_pos hsame] at heq
    refine ⟨_, h.setNr (a.receiveSame rs) hqueue ?_ ?_ ?_ ?_ hrs ⟨rfl, rfl, rfl, rfl, rfl⟩ sc,
      hinv.receiveSame hrev (by omega)⟩
    · rw [heq]
      exact h.size
    · rw [heq]
      exact h.acked
    · rw [heq]
      change a.next % 128 = nr
      omega
    · rw [heq]
      exact h.openNr
  rw [if_neg hsame] at heq
  by_cases hwrong : q.txWindowLength < r - a.next
  · rw [if_pos hwrong] at heq
    refine ⟨_, h.setNr (a.receiveWrong r rs) hqueue ?_ ?_ ?_ ?_ hrs ⟨rfl, rfl, rfl, rfl, rfl⟩ sc,
      hinv.receiveWrong hrev⟩
    · rw [heq]
      rfl
    · rw [heq]
      rfl
    · rw [heq]
      exact hnr.symm
    · rw [heq]
      intro hne
      exact absurd rfl hne
  · rw [if_neg hwrong] at heq
    have hadvance := Pipe.advance_txWindowLength hok (Nat.not_lt.mp hwrong)
    refine ⟨_, h.setNr (a.receiveValid r rs) hqueue ?_ ?_ ?_ ?_ hrs ⟨rfl, rfl, rfl, rfl, rfl⟩ sc,
      hinv.receiveValid hrev (by omega)⟩
    · rw [heq]
      exact h.size
    · rw [heq]
      change r - a.base + (q.advance (r - a.next)).txWindowLength = q.txWindowSize
      rw [hadvance]
      omega
    · rw [heq]
      change (a.base + (r - a.base)) % 128 = nr
      rw [hnr, Nat.add_sub_cancel' (by omega)]
    · rw [heq]
      change (q.advance (r - a.next)).txWindowLength ≠ 0 → a.base % 128 = q.openNr
      rw [hadvance]
      intro hne
      exact h.openNr (by omega)

end ReceiveNr

/-! ## Frames to the peer

A frame is sent when layer 1 asks for one.  The window is opened before, if it was empty, and then its
first frame is the one that is sent.
-/

section Send

variable {env : Env} {q : Pipe} {n n' max : Nat} {l : Link} {a : Renumber.Link Nat} {zs : List Mbuf}

/-- What may be in a window that was just opened. -/
theorem Rel.rule_opened (havail : ∀ n, env.avail n = true) (h : Rel q n l a) (hok : q.WindowOk)
    (hlen : q.txWindowLength = 0) (hstate : q.state.isTeiAssigned)
    (ho : Pipe.Opening env n q zs n' max) :
    (a.reopen (zs.map Mbuf.id) (q.opened zs max).txWindowSize).Rule 128 := by
  have hnr := hok.nr_lt
  have hacked : a.acked = q.txWindowSize := by
    have hacked := h.acked
    omega
  have hmin := Nat.min_le_left max (zs ++ q.queue.drop q.txWindowSize).length
  cases ho with
  | unnumbered hne => exact absurd hstate hne
  | zif _ _ hzifs hstarts =>
    obtain ⟨htwo, hzif⟩ := (hstarts (havail _) (havail _)).take
    refine .inr ⟨hmin, ?_⟩
    intro i u hi hget hmem
    have hi2 : i < 2 := lt_of_lt_of_le hi hmin
    have hqueue : (zs ++ q.queue.drop q.txWindowSize).map Mbuf.id
        = zs.map Mbuf.id ++ a.queue.drop a.acked := by
      rw [List.map_append, hacked, h.queue, List.map_drop]
    change (zs.map Mbuf.id ++ a.queue.drop a.acked)[i]? = some u at hget
    rw [← hqueue, List.getElem?_map, Option.map_eq_some_iff] at hget
    obtain ⟨m, hm, rfl⟩ := hget
    have hm2 : m ∈ (zs ++ q.queue.drop q.txWindowSize).take 2 := by
      refine List.mem_of_getElem? (i := i) ?_
      rw [List.getElem?_take_of_lt hi2]
      exact hm
    change m.id ∈ a.enq at hmem
    rw [h.enq] at hmem
    rcases List.mem_append.mp (List.mem_of_getElem? hm) with hz | hq
    · exact absurd (h.enq_lt _ hmem) (Nat.not_lt.mpr (hzifs.id_mem hz).1)
    · exact (h.data m (List.mem_of_mem_drop hq)).mp hmem (hzif m hm2)
  | numbered _ hneeds =>
    have hpos : q.txNr ≠ 0x00 := fun hzero => hneeds (.inr (.inl hzero))
    have hbase : (a.reopen (([] : List Mbuf).map Mbuf.id) (q.opened []
        ((0x7f + 2 ^ 8 - q.txNr) % 2 ^ 8)).txWindowSize).base % 128 = q.txNr := h.txNr
    refine .inl ⟨?_, ?_⟩
    · rw [hbase]
      exact hpos
    · rw [hbase]
      change q.txNr + min _ _ < 128
      omega

/-- **The window is opened.** -/
theorem Rel.reopen (havail : ∀ n, env.avail n = true) (h : Rel q n l a) (hinv : a.Inv 128)
    (hok : q.WindowOk) (hlen : q.txWindowLength = 0) (hstate : q.state.isTeiAssigned)
    (ho : Pipe.Opening env n q zs n' max) (sc : Softc) :
    ∃ a', Rel (q.opened zs max) n' { l with sc := sc } a' ∧ a'.Inv 128 := by
  have hacked : a.acked = q.txWindowSize := by
    have hacked := h.acked
    omega
  have hnew : ∀ m ∈ zs, m.id ∉ l.enq := by
    intro m hm hmem
    exact absurd (h.enq_lt _ hmem) (Nat.not_lt.mpr (ho.zifs.id_mem hm).1)
  have hqueue : (q.opened zs max).queue.map Mbuf.id = zs.map Mbuf.id ++ a.queue.drop a.acked := by
    rw [Pipe.opened, List.map_append, hacked, h.queue, List.map_drop]
  have hopened := hok.opened ho
  refine ⟨a.reopen (zs.map Mbuf.id) (q.opened zs max).txWindowSize,
    ⟨hqueue.symm, rfl, Nat.zero_add _, h.txNr, fun _ => h.txNr, h.fwd, h.rev, h.peer, h.enq, h.accepted,
      ?_, ?_, ?_, ?_⟩,
    hinv.reopen ?_ ?_ ?_ ?_ (Nat.lt_succ_of_le hopened.size_le)
      (h.rule_opened havail hok hlen hstate ho)⟩
  · intro m hm
    rcases List.mem_append.mp hm with hm | hm
    · exact iff_of_false (hnew m hm) (not_not.mpr (ho.zifs.isZif hm).1)
    · exact h.data m (List.mem_of_mem_drop hm)
  · intro m hm
    rcases List.mem_append.mp hm with hm | hm
    · exact (ho.zifs.id_mem hm).2
    · exact lt_of_lt_of_le (h.queue_lt m (List.mem_of_mem_drop hm)) ho.zifs.le
  · intro id hid
    exact lt_of_lt_of_le (h.enq_lt id hid) ho.zifs.le
  · intro f hf
    exact lt_of_lt_of_le (h.fwd_lt f hf) ho.zifs.le
  · rw [List.nodup_append]
    refine ⟨ho.zifs.nodup, hinv.numbering.nodup, ?_⟩
    rintro x hx y hy rfl
    obtain ⟨m, hm, rfl⟩ := List.mem_map.mp hx
    rw [h.queue] at hy
    obtain ⟨m', hm', hid⟩ := List.mem_map.mp hy
    have hlt := h.queue_lt m' hm'
    rw [hid] at hlt
    exact absurd hlt (Nat.not_lt.mpr (ho.zifs.id_mem hm).1)
  · intro z hz
    obtain ⟨m, hm, rfl⟩ := List.mem_map.mp hz
    rw [h.enq]
    exact hnew m hm
  · intro x hx hz
    obtain ⟨m, hm, hid⟩ := List.mem_map.mp hz
    have hlt := h.fwd_mem hx
    rw [← hid] at hlt
    exact absurd hlt (Nat.not_lt.mpr (ho.zifs.id_mem hm).1)
  · rw [← hqueue, List.length_map]
    exact hopened.size_le_queue

/-- **A frame of the window is sent**: not the first one, or the window was just opened. -/
theorem Rel.send {f : TxFrame} {i : Nat} (h : Rel q n l a) (hinv : a.Inv 128)
    (hget : q.queue[i]? = some f.mbuf) (hi : i < q.txWindowSize) (hlen : q.txWindowLength ≠ 0)
    (hnr : getNr (get1 f.bytes 2) = (q.openNr + i) % 128)
    (hfirst : 1 ≤ i ∨ q.txWindowLength = q.txWindowSize) (sc : Softc) :
    ∃ a', Rel q (n + 1) { l with sc := sc, fwd := l.fwd ++ [f] } a' ∧ a'.Inv 128 := by
  have hacked := h.acked
  have hsize := h.size
  have hopen := h.openNr hlen
  have hmem := List.mem_of_getElem? hget
  refine ⟨a.send i f.mbuf.id, ⟨h.queue, h.size, h.acked, h.txNr, h.openNr, ?_, h.rev, h.peer, h.enq,
    h.accepted, h.data, ?_, ?_, ?_⟩, hinv.send ?_ ?_ ?_⟩
  · refine List.rel_append h.fwd (.cons ⟨rfl, ?_, h.data _ hmem⟩ .nil)
    rw [hnr, ← hopen]
    simp only
    omega
  · exact fun m hm => Nat.lt_succ_of_lt (h.queue_lt m hm)
  · exact fun id hid => Nat.lt_succ_of_lt (h.enq_lt id hid)
  · intro f' hf'
    rcases List.mem_append.mp hf' with hf' | hf'
    · exact Nat.lt_succ_of_lt (h.fwd_lt f' hf')
    · obtain rfl := List.mem_singleton.mp hf'
      exact Nat.lt_succ_of_lt (h.queue_lt _ hmem)
  · rw [h.queue, List.getElem?_map, hget]
    rfl
  · rw [hsize]
    exact hi
  · -- of a window that gets to number 0 or 127 only the first frame may be acknowledged
    obtain hblock | ⟨htwo, _⟩ := hinv.rule
    · exact .inr hblock
    · refine .inl ?_
      rcases hfirst with hone | hall
      · omega
      · omega

end Send

/-! ## The softc

Now the pipe is one of many in a softc, and what goes on at the others must not concern it.  The cursor is
shared: it stands on one pipe, and is moved to another one only if nothing is left in the window of that
one.
-/

/-- **The invariant of a run**, for the cursor on pipe `c`. -/
structure Linked (p c : PipeNo) (l : Link) : Prop where
  stable : Softc.Sound c l.sc ∧ Softc.Numbered c l.sc
  numbered : l.sc.isNumbered p
  /-- The first frame of a window is sent when the window is opened. -/
  started : c = p → l.sc.curLength ≠ 0 → (l.sc.pipe p).txWindowLength ≠ 0 →
    l.sc.curLength < (l.sc.pipe p).txWindowSize
  rel : ∃ a, Rel (l.sc.pipe p) l.sc.mbufs l a ∧ a.Inv 128

namespace Linked

variable {env : Env} {p c : PipeNo} {l : Link} {sc : Softc}

theorem isNumbered_of_bus (h : Linked p c l) (hbus : sc.Bus ↔ l.sc.Bus) : sc.isNumbered p := by
  rw [Softc.isNumbered_iff, hbus, ← Softc.isNumbered_iff]
  exact h.numbered

/-- **The softc goes on, without a number from the peer.** -/
theorem follows (havail : ∀ n, env.avail n = true) (h : Linked p c l) (hf : Softc.Follows l.sc sc)
    (hpauses : (sc.pipe p).pauses = (l.sc.pipe p).pauses) (hacks : (sc.pipe p).acks = (l.sc.pipe p).acks) :
    Linked p c { l with sc := sc, enq := note l.enq (sc.pipe p).queue } := by
  have hstable := (Softc.zif_stable havail).follows hf h.stable
  have hsteps := hf.pipes h.stable.1.1.1 p
  refine ⟨hstable, h.isNumbered_of_bus hf.bus, ?_, ?_⟩
  · intro hc hcur hlen
    have hwin := hsteps.keeps hlen
    rw [hf.curLength] at hcur ⊢
    rw [hwin.size_eq]
    exact h.started hc hcur hwin.length_ne
  · obtain ⟨a, ha, hinv⟩ := h.rel
    have hg := hsteps.grows (h.stable.1.1.2 p) hpauses hacks
    exact ha.grows hinv hg hf.mbufs (hstable.1.1.1 p) (hstable.1.2.1 p).nodup sc

/-- **The pipe gets a number from the peer.** -/
theorem receiveNr (havail : ∀ n, env.avail n = true) (h : Linked p c l) {buf : List UInt8}
    {bufs : List (List UInt8)} (hrev : l.rev = buf :: bufs) :
    Linked p c { l with
      sc := l.sc.modify p (Pipe.receiveNr (getNr (get1 buf 3)))
      rev := bufs } := by
  have hok := h.stable.1.1.2 p
  refine ⟨(Softc.zif_stable havail).receiveNr p _ (getNr_lt _) h.stable, h.numbered, ?_, ?_⟩
  · intro hc hcur hlen
    rw [Softc.modify_pipe_self] at hlen ⊢
    have hwin := Pipe.receiveNr_keeps hok _ hlen
    rw [hwin.size_eq]
    exact h.started hc hcur hwin.length_ne
  · obtain ⟨a, ha, hinv⟩ := h.rel
    have hrel := ha.rev
    rw [hrev] at hrel
    obtain ⟨r, rs, hr, hrs, harev⟩ := List.forall₂_cons_left_iff.mp hrel
    rw [Softc.modify_pipe_self]
    exact ha.receiveNr hinv hok harev hr hrs _

/-- Another pipe gets a number. -/
theorem receiveOther (havail : ∀ n, env.avail n = true) (h : Linked p c l) {p' : PipeNo} (hp : p ≠ p')
    {nr : Nat} (hnr : nr < 128) : Linked p c { l with sc := l.sc.modify p' (Pipe.receiveNr nr) } := by
  refine ⟨(Softc.zif_stable havail).receiveNr p' nr hnr h.stable, h.numbered, ?_, ?_⟩
  · rw [Softc.modify_pipe_of_ne _ _ hp]
    exact h.started
  · obtain ⟨a, ha, hinv⟩ := h.rel
    rw [Softc.modify_pipe_of_ne _ _ hp]
    exact ⟨a, ha.other rfl rfl rfl rfl rfl (Nat.le_refl _) _, hinv⟩

/-- A cursor with nothing left may be anywhere. -/
theorem stop (havail : ∀ n, env.avail n = true) (h : Linked p c l) (c' : PipeNo) :
    Linked p c' { l with sc := { l.sc with curLength := 0 } } := by
  have hI := Softc.zif_stable havail
  refine ⟨hI.move c' rfl (hI.stop h.stable), h.numbered, fun _ hne => absurd rfl hne, ?_⟩
  obtain ⟨a, ha, hinv⟩ := h.rel
  exact ⟨a, ha.other rfl rfl rfl rfl rfl (Nat.le_refl _) _, hinv⟩

theorem setCurPipe (havail : ∀ n, env.avail n = true) (h : Linked p c l) (c' : PipeNo) :
    Linked p c { l with sc := { l.sc with curPipe := c' } } := by
  refine ⟨(Softc.zif_stable havail).setCurPipe c' h.stable, h.numbered, h.started, ?_⟩
  obtain ⟨a, ha, hinv⟩ := h.rel
  exact ⟨a, ha.other rfl rfl rfl rfl rfl (Nat.le_refl _) _, hinv⟩

/-- The loop of `dss1_l2_get_mbuf` passes over a pipe. -/
theorem passOver (havail : ∀ n, env.avail n = true) (h : Linked p c l) (c' : PipeNo) :
    Linked p c' { l with sc := l.sc.passOver c } := by
  have hI := Softc.zif_stable havail
  refine ⟨hI.move c' rfl (hI.passOver c h.stable), h.isNumbered_of_bus (Softc.passOver_bus _ _),
    fun _ hne => absurd rfl hne, ?_⟩
  obtain ⟨a, ha, hinv⟩ := h.rel
  refine ⟨a, ?_, hinv⟩
  rw [Softc.passOver]
  split
  · by_cases hp : p = c
    · subst hp
      simp only [Softc.modify_pipe_self]
      refine ha.other ?_ ?_ ?_ ?_ ?_ (Nat.le_refl _) _ <;> rfl
    · simp only [Softc.modify_pipe_of_ne _ _ hp]
      exact ha.other rfl rfl rfl rfl rfl (Nat.le_refl _) _
  · exact ha.other rfl rfl rfl rfl rfl (Nat.le_refl _) _

/-- The window of the pipe is opened, or it is open. -/
theorem served (havail : ∀ n, env.avail n = true) (h : Linked p p l) (hmay : l.sc.mayServe p)
    (hserved : l.sc.served env p = some sc) :
    (∃ a, Rel (sc.pipe p) sc.mbufs { l with sc := sc } a ∧ a.Inv 128) ∧
      (sc.curLength ≠ 0 → sc.curLength < (sc.pipe p).txWindowSize ∨
        (sc.pipe p).txWindowLength = (sc.pipe p).txWindowSize) := by
  have hstate := Softc.isTeiAssigned_of_mayServe hmay h.numbered
  have hok := h.stable.1.1.2 p
  obtain ⟨a, ha, hinv⟩ := h.rel
  rw [Softc.served] at hserved
  split at hserved
  next hlen =>
    obtain ⟨zs, n', max, ho, heq⟩ := Softc.reopen_of_windowOk env hok
    obtain rfl := Option.some.inj (heq.symm.trans hserved)
    simp only [Function.update_self]
    exact ⟨ha.reopen havail hinv hok hlen hstate ho _, fun _ => .inr rfl⟩
  next hlen =>
    obtain rfl := Option.some.inj hserved
    exact ⟨⟨a, ha, hinv⟩, fun hcur => .inl (h.started rfl hcur hlen)⟩

/-- The pipe sends the frame at the cursor. -/
theorem transmit (havail : ∀ n, env.avail n = true) {sc' : Softc} {o : Option TxFrame}
    (hstable : Softc.Sound p sc ∧ Softc.Numbered p sc) (hstate : (sc.pipe p).state.isTeiAssigned)
    (hlen : (sc.pipe p).txWindowLength ≠ 0) (hcur : sc.curLength ≠ 0)
    (hfirst : sc.curLength < (sc.pipe p).txWindowSize ∨
      (sc.pipe p).txWindowLength = (sc.pipe p).txWindowSize)
    (hrel : ∃ a, Rel (sc.pipe p) sc.mbufs { l with sc := sc } a ∧ a.Inv 128)
    (hsend : sc.transmit env p = some (sc', o)) :
    sc'.curLength < (sc'.pipe p).txWindowSize ∧
    ∃ a, Rel (sc'.pipe p) sc'.mbufs { l with sc := sc', fwd := l.fwd ++ iFrames p (o.map Out.frame) } a ∧
      a.Inv 128 := by
  have hat := hstable.1.2.2 hcur hlen
  have hlt := hat.curIndex_lt hcur
  have hle := hat.length_le
  have hopen := (hstable.1.2.1 p).openNr_lt
  have hsize := (hstable.1.1.2 p).size_le
  obtain ⟨m, hm, _, hfind⟩ := hat.find_eq hcur (hstable.1.1.2 p) (hstable.1.2.1 p)
  obtain ⟨i, m', sc1, hi, hsc1, hm', hsc', ho⟩ := Softc.transmit_eq_some hsend
  obtain rfl : i = sc.curIndex p := Option.some.inj (hi.symm.trans hfind)
  rw [if_neg (not_not.mpr hstate)] at hsc1
  rw [if_pos (havail _)] at ho
  have hpipe : sc'.pipe p = sc.pipe p := by rw [hsc', hsc1]
  have hmbufs : sc'.mbufs = sc.mbufs + 1 := by rw [hsc']
  have hcur' : sc'.curLength = sc.curLength - 1 := by rw [hsc']
  have hidx : sc.curIndex p = (sc.pipe p).txWindowSize - sc.curLength := rfl
  have htx : sc.curTxNr = (sc.pipe p).openNr + sc.curIndex p := hat.txNr
  have hcode := Softc.getNr_frameBytes sc m' hstate (by omega)
  rw [htx] at hcode
  rw [hsc1] at hm' ho
  obtain ⟨f, hf⟩ : ∃ f : TxFrame, f = ⟨p, m', ¬ (sc.pipe p).state.isTeiAssigned, sc.curTxNr,
    sc.frameBytes (sc.pipe p) m'⟩ := ⟨_, rfl⟩
  have hframes : iFrames p (o.map Out.frame) = [f] := by
    rw [ho, ← hf, Option.map_some, iFrames, if_pos]
    rw [hf]
    exact ⟨rfl, decide_eq_false (not_not.mpr hstate)⟩
  have hmbuf : (sc.pipe p).queue[sc.curIndex p]? = some f.mbuf := by rw [hm', hf]
  have hbytes : getNr (get1 f.bytes 2) = ((sc.pipe p).openNr + sc.curIndex p) % 128 := by
    rw [hf]
    exact hcode
  obtain ⟨a, ha, hinv⟩ := hrel
  rw [hpipe, hmbufs, hcur', hframes]
  refine ⟨by omega, ?_⟩
  exact ha.send hinv hmbuf hlt hlen hbytes (hfirst.imp_left (by omega)) sc'

/-- What is done at another pipe. -/
theorem servePipe_other {sc' : Softc} {o : Option TxFrame} (hp : p ≠ c) (hok : (sc.pipe c).WindowOk)
    (hserve : sc.servePipe env c = some (sc', o)) :
    sc'.pipe p = sc.pipe p ∧ sc.mbufs ≤ sc'.mbufs ∧ iFrames p (o.map Out.frame) = [] := by
  have hserved : ∀ sc1, sc.served env c = some sc1 → sc1.pipe p = sc.pipe p ∧ sc.mbufs ≤ sc1.mbufs := by
    intro sc1 hserved
    rw [Softc.served] at hserved
    split at hserved
    · obtain ⟨zs, n', max, ho, heq⟩ := Softc.reopen_of_windowOk env hok
      obtain rfl := Option.some.inj (heq.symm.trans hserved)
      exact ⟨Function.update_of_ne hp _ _, ho.zifs.le⟩
    · obtain rfl := Option.some.inj hserved
      exact ⟨rfl, Nat.le_refl _⟩
  obtain ⟨_, rfl, rfl⟩ | ⟨_, sc1, hsc1, hsend⟩ := Softc.servePipe_cases hserve
  · exact ⟨rfl, Nat.le_refl _, rfl⟩
  obtain ⟨hpipe, hmbufs⟩ := hserved sc1 hsc1
  obtain ⟨_, rfl, rfl⟩ | ⟨_, hsend⟩ := hsend
  · exact ⟨hpipe, hmbufs, rfl⟩
  · obtain ⟨i, m, sc2, _, rfl, _, rfl, rfl⟩ := Softc.transmit_eq_some hsend
    refine ⟨?_, Nat.le_succ_of_le hmbufs, ?_⟩
    · rw [← hpipe]
      split
      · exact Softc.modify_pipe_of_ne _ _ hp
      · rfl
    · split
      · simp [iFrames, hp.symm]
      · rfl

/-- **The loop of `dss1_l2_get_mbuf` comes to a pipe.** -/
theorem servePipe (havail : ∀ n, env.avail n = true) (h : Linked p c l) {o : Option TxFrame}
    (hserve : l.sc.servePipe env c = some (sc, o)) :
    Linked p c { l with sc := sc, fwd := l.fwd ++ iFrames p (o.map Out.frame) } := by
  have hI := Softc.zif_stable havail
  have hstable := hI.servePipe hserve h.stable
  have hnumbered := h.isNumbered_of_bus (Softc.servePipe_bus hserve)
  by_cases hp : p = c
  · subst hp
    obtain ⟨_, rfl, rfl⟩ | ⟨hmay, sc1, hserved, hsend⟩ := Softc.servePipe_cases hserve
    · simp only [Option.map_none, iFrames, List.append_nil]
      exact h
    obtain ⟨hrel, hfirst⟩ := h.served havail hmay hserved
    obtain ⟨hcur, rfl, rfl⟩ | ⟨hcur, hsend⟩ := hsend
    · simp only [Option.map_none, iFrames, List.append_nil]
      exact ⟨hstable, hnumbered, fun _ hne => absurd hcur hne, hrel⟩
    · have hmay1 := (Softc.served_mayServe hserved).mpr hmay
      have hnumbered1 := h.isNumbered_of_bus (Softc.served_bus hserved)
      obtain ⟨hlt, hrel'⟩ := transmit havail (hI.served hmay hserved h.stable)
        (Softc.isTeiAssigned_of_mayServe hmay1 hnumbered1) (Softc.served_txWindowLength hserved hcur)
        hcur (hfirst hcur) hrel hsend
      exact ⟨hstable, hnumbered, fun _ _ _ => hlt, hrel'⟩
  · obtain ⟨hpipe, hmbufs, hframes⟩ := servePipe_other hp (h.stable.1.1.2 c) hserve
    obtain ⟨a, ha, hinv⟩ := h.rel
    rw [hframes, List.append_nil]
    refine ⟨hstable, hnumbered, fun hc => absurd hc.symm hp, a, ?_, hinv⟩
    rw [hpipe]
    exact ha.other rfl rfl rfl rfl rfl hmbufs sc

/-- The loop up to a pipe it comes to. -/
theorem visit (havail : ∀ n, env.avail n = true) (h : Linked p l.sc.curPipe l) {n : Nat}
    (hvisit : Softc.Visit env l.sc n sc c) : Linked p c { l with sc := sc } := by
  induction hvisit with
  | start => exact h
  | @next n sc1 sc2 c _ hserve ih =>
    have hnext := ih.servePipe havail hserve
    simp only [Option.map_none, iFrames, List.append_nil] at hnext
    exact hnext.passOver havail (c + 1)

/-- **A frame to layer 1.** -/
theorem dss1L2GetMbuf (havail : ∀ n, env.avail n = true) (h : Linked p l.sc.curPipe l)
    {out : Option Out} (hget : l.sc.dss1L2GetMbuf env = some (sc, out)) :
    Linked p sc.curPipe (l.after p (sc, out)) := by
  have hcore : Linked p sc.curPipe { l with sc := sc, fwd := l.fwd ++ iFrames p out } := by
    obtain ⟨b, bs, _, rfl, rfl⟩ | ⟨k, sc1, c, sc2, o, hvisit, hserve, rfl, rfl⟩ :=
      Softc.dss1L2GetMbuf_cases hget
    · have hq : Softc.Quiet l.sc { l.sc with queue := bs } :=
        .of_pipe_eq rfl rfl rfl rfl rfl rfl rfl (Nat.le_refl _)
      obtain ⟨a, ha, hinv⟩ := h.rel
      simp only [iFrames, List.append_nil]
      exact ⟨(Softc.zif_stable havail).follows hq.toFollows h.stable, h.numbered, h.started, a,
        ha.other rfl rfl rfl rfl rfl (Nat.le_refl _) _, hinv⟩
    · have h2 := (h.visit havail hvisit).servePipe havail hserve
      cases o with
      | some f => exact h2.setCurPipe havail c
      | none =>
        have h3 := h2.passOver havail (c + 1)
        exact h3.setCurPipe havail (c + 1)
  have hnote : note l.enq (sc.pipe p).queue = l.enq := by
    obtain ⟨a, ha, _⟩ := hcore.rel
    exact ha.note_eq
  rw [after, hnote]
  exact hcore

end Linked

/-! ## Runs

A run is a softc with its events, the frames on their way in both directions, and a peer.
-/

section Run

variable {env : Env} {p c : PipeNo} {l l' : Link} {sc : Softc}

theorem forall₂_eraseIdx {α β : Type} {R : α → β → Prop} {as : List α} {bs : List β}
    (h : List.Forall₂ R as bs) (i : Nat) : List.Forall₂ R (as.eraseIdx i) (bs.eraseIdx i) := by
  induction h generalizing i with
  | nil => exact .nil
  | cons hr hrs ih =>
    cases i with
    | zero => exact hrs
    | succ i => exact .cons hr (ih i)

/-- A frame to the peer is lost. -/
theorem Linked.lose (h : Linked p c l) (i : Nat) : Linked p c { l with fwd := l.fwd.eraseIdx i } := by
  obtain ⟨a, ha, hinv⟩ := h.rel
  refine ⟨h.stable, h.numbered, h.started, { a with fwd := a.fwd.eraseIdx i, rev := a.rev },
    ⟨ha.queue, ha.size, ha.acked, ha.txNr, ha.openNr,
    forall₂_eraseIdx ha.fwd i, ha.rev, ha.peer, ha.enq, ha.accepted, ha.data, ha.queue_lt, ha.enq_lt, ?_⟩,
    hinv.lose (List.eraseIdx_sublist _ i) (List.Sublist.refl _)⟩
  intro f hf
  exact ha.fwd_lt f (List.mem_of_mem_eraseIdx hf)

/-- A frame from the peer is lost. -/
theorem Linked.loseRev (h : Linked p c l) (i : Nat) :
    Linked p c { l with rev := l.rev.eraseIdx i } := by
  obtain ⟨a, ha, hinv⟩ := h.rel
  exact ⟨h.stable, h.numbered, h.started, { a with fwd := a.fwd, rev := a.rev.eraseIdx i },
    ⟨ha.queue, ha.size, ha.acked, ha.txNr, ha.openNr, ha.fwd,
    forall₂_eraseIdx ha.rev i, ha.peer, ha.enq, ha.accepted, ha.data, ha.queue_lt, ha.enq_lt, ha.fwd_lt⟩,
    hinv.lose (List.Sublist.refl _) (List.eraseIdx_sublist _ i)⟩

/-- The peer gets a frame. -/
theorem Linked.deliver (h : Linked p c l) {f : TxFrame} {fs : List TxFrame} (hfwd : l.fwd = f :: fs) :
    Linked p c (l.delivered f fs) := by
  rw [delivered]
  split
  next hnr =>
    obtain ⟨a, ha, hinv⟩ := h.rel
    have hrel := ha.fwd
    rw [hfwd] at hrel
    obtain ⟨⟨k, s⟩, xs, hcopy, hxs, hafwd⟩ := List.forall₂_cons_left_iff.mp hrel
    obtain rfl : f.mbuf.id = k := hcopy.id
    have hmod : s % 128 = a.peer % 128 := by
      rw [ha.peer, ← hnr]
      exact hcopy.nr.symm
    refine ⟨h.stable, h.numbered, h.started, a.accept f.mbuf.id xs,
      ⟨ha.queue, ha.size, ha.acked, ha.txNr, ha.openNr, hxs,
      ha.rev, ?_, ha.enq, ?_, ha.data, ha.queue_lt, ha.enq_lt, ?_⟩, hinv.accept hafwd hmod⟩
    · have hpeer := ha.peer
      simp only [Renumber.Link.accept]
      omega
    · simp only [Renumber.Link.accept, ha.enq, ha.accepted, hcopy.data]
    · intro f' hf'
      exact ha.fwd_lt f' (hfwd ▸ List.mem_cons_of_mem _ hf')
  next =>
    have hlose := h.lose 0
    rw [hfwd] at hlose
    exact hlose

/-- The peer says which number it expects. -/
theorem Linked.answer (h : Linked p c l) {buf : List UInt8} (hnr : getNr (get1 buf 3) = l.rxNr) :
    Linked p c { l with rev := l.rev ++ [buf] } := by
  obtain ⟨a, ha, hinv⟩ := h.rel
  refine ⟨h.stable, h.numbered, h.started, { a with rev := a.rev ++ [a.peer] },
    ⟨ha.queue, ha.size, ha.acked, ha.txNr, ha.openNr, ha.fwd,
    List.rel_append ha.rev (.cons ?_ .nil), ha.peer, ha.enq, ha.accepted, ha.data, ha.queue_lt,
    ha.enq_lt, ha.fwd_lt⟩, hinv.answer⟩
  rw [hnr]
  exact ha.peer.symm

/-- The peer starts over. -/
theorem Linked.reset (h : Linked p c l) (hquiet : l.Quiescent) : Linked p c { l with rxNr := 0 } := by
  obtain ⟨a, ha, hinv⟩ := h.rel
  have hfwd : a.fwd = [] := by
    have hrel := ha.fwd
    rw [hquiet.1] at hrel
    exact List.forall₂_nil_left_iff.mp hrel
  have hrev : a.rev = [] := by
    have hrel := ha.rev
    rw [hquiet.2] at hrel
    exact List.forall₂_nil_left_iff.mp hrel
  obtain ⟨r, hr, hinv'⟩ := hinv.reset hfwd hrev
  exact ⟨h.stable, h.numbered, h.started, { a with peer := r },
    ⟨ha.queue, ha.size, ha.acked, ha.txNr, ha.openNr, ha.fwd,
    ha.rev, hr, ha.enq, ha.accepted, ha.data, ha.queue_lt, ha.enq_lt, ha.fwd_lt⟩, hinv'⟩

/-- Events that hand nothing to layer 1 and bring the pipe no number. -/
theorem Linked.after_follows (havail : ∀ n, env.avail n = true) (h : Linked p c l)
    (hf : Softc.Follows l.sc sc) (hpauses : (sc.pipe p).pauses = (l.sc.pipe p).pauses)
    (hacks : (sc.pipe p).acks = (l.sc.pipe p).acks) : Linked p c (l.after p (sc, none)) := by
  simp only [after, iFrames, List.append_nil]
  exact h.follows havail hf hpauses hacks

/-- What a number does not change, for the pipe it is for and for others. -/
theorem modify_receiveNr (sc : Softc) (p p' : PipeNo) (nr : Nat) :
    ((sc.modify p' (Pipe.receiveNr nr)).pipe p).queue = (sc.pipe p).queue ∧
    ((sc.modify p' (Pipe.receiveNr nr)).pipe p).pauses = (sc.pipe p).pauses ∧
    ((sc.modify p' (Pipe.receiveNr nr)).pipe p).acks = (sc.pipe p).acks := by
  by_cases hp : p = p'
  · subst hp
    rw [Softc.modify_pipe_self]
    exact ⟨Pipe.receiveNr_queue _ _, Pipe.receiveNr_counts _ _⟩
  · rw [Softc.modify_pipe_of_ne _ _ hp]
    exact ⟨rfl, rfl, rfl⟩

/-- **A frame with a number comes in**: the softc goes on before and after `check_NR`. -/
theorem Linked.checkNr (havail : ∀ n, env.avail n = true) {sc1 : Softc} {p' : PipeNo} {nr : Nat}
    (hnr : nr < 128) {bufs : List (List UInt8)} (h : Linked p c l) (hf : Softc.Follows l.sc sc1)
    (hmid : Linked p c { l with sc := sc1, enq := note l.enq (sc1.pipe p).queue } →
      Linked p c { l with
        sc := sc1.modify p' (Pipe.receiveNr nr)
        rev := bufs
        enq := note l.enq (sc1.pipe p).queue })
    (hf' : Softc.Follows (sc1.modify p' (Pipe.receiveNr nr)) sc)
    (hpauses : (sc.pipe p).pauses = (l.sc.pipe p).pauses) (hacks : (sc.pipe p).acks = (l.sc.pipe p).acks) :
    Linked p c { l.after p (sc, none) with rev := bufs } := by
  have hI := Softc.zif_stable havail
  have hstable := hI.receiveNr p' nr hnr (hI.follows hf h.stable)
  have hsteps := hf'.pipes hstable.1.1.1 p
  obtain ⟨hqueue, hp, ha⟩ := modify_receiveNr sc1 p p' nr
  -- neither part paused or had frames taken back, since both together did not
  have hcount := Pipe.Steps.counts (hf.pipes h.stable.1.1.1 p)
  have hcount' := Pipe.Steps.counts hsteps
  rw [hp, ha] at hcount'
  have h1 := hmid (h.follows havail hf (by omega) (by omega))
  have h2 := h1.follows havail hf' (by simp only; omega) (by simp only; omega)
  obtain ⟨new, hnew, _⟩ := (hsteps.grows (hstable.1.1.2 p) (by omega) (by omega)).queue
  have hnote : note (note l.enq (sc1.pipe p).queue) (sc.pipe p).queue = note l.enq (sc.pipe p).queue := by
    rw [hnew, hqueue]
    refine note_note ?_
    rw [← hqueue, ← hnew]
    exact (h2.stable.1.2.1 p).nodup
  simp only [hnote] at h2
  simp only [after, iFrames, List.append_nil]
  exact h2

/-- **An event** that is not a number for the pipe. -/
theorem Linked.event (havail : ∀ n, env.avail n = true) {ev : Event} {out : Option Out}
    (h : Linked p l.sc.curPipe l) (hstep : l.sc.step env ev = some (sc, out))
    (hother : ∀ buf, ev = .putMbuf buf → ∀ sc1, Softc.atCheckNr env l.sc buf ≠ some (sc1, p))
    (hpauses : (sc.pipe p).pauses = (l.sc.pipe p).pauses) (hacks : (sc.pipe p).acks = (l.sc.pipe p).acks) :
    Linked p sc.curPipe (l.after p (sc, out)) := by
  obtain ⟨_, rfl, hf⟩ | ⟨buf, sc1, p', rfl, rfl, hat, hq⟩ | ⟨_, hget⟩ | ⟨_, rfl, hq⟩ :=
    Softc.step_cases hstep
  · rw [hf.curPipe]
    exact h.after_follows havail hf hpauses hacks
  · have hp : p ≠ p' := by
      rintro rfl
      exact hother buf rfl sc1 hat
    have hf := Softc.atCheckNr_follows hat
    have hcur : sc.curPipe = l.sc.curPipe := hq.curPipe.trans hf.curPipe
    rw [hcur]
    exact h.checkNr havail (getNr_lt _) hf (fun h1 => h1.receiveOther havail hp (getNr_lt _))
      hq.toFollows hpauses hacks
  · exact h.dss1L2GetMbuf havail hget
  · rw [hq.curPipe]
    have hstop := h.stop havail l.sc.curPipe
    have hafter := hstop.after_follows havail hq.toFollows hpauses hacks
    exact hafter

/-- **A frame from the peer.** -/
theorem Linked.receive (havail : ∀ n, env.avail n = true) {buf : List UInt8} {bufs : List (List UInt8)}
    {out : Option Out} (h : Linked p l.sc.curPipe l) (hrev : l.rev = buf :: bufs)
    (hstep : l.sc.step env (.putMbuf buf) = some (sc, out))
    (hpauses : (sc.pipe p).pauses = (l.sc.pipe p).pauses) (hacks : (sc.pipe p).acks = (l.sc.pipe p).acks) :
    Linked p sc.curPipe { l.after p (sc, out) with rev := bufs } := by
  rw [Softc.step, Option.map_eq_some_iff] at hstep
  obtain ⟨sc2, hput, heq⟩ := hstep
  obtain ⟨rfl, rfl⟩ := Prod.mk.inj heq
  -- what the peer says may be for another pipe, and then it is as good as lost
  obtain ⟨_, hf⟩ | ⟨sc1, p', hat, hq⟩ := Softc.dss1L2PutMbuf_cases hput
  · have hlose := (h.after_follows havail hf hpauses hacks).loseRev 0
    simp only [after, hrev, List.eraseIdx_cons_zero] at hlose
    rw [hf.curPipe]
    exact hlose
  · have hf := Softc.atCheckNr_follows hat
    have hq' := (Softc.checkNr_quiet env sc1 p' _).trans hq
    have hcur : sc2.curPipe = l.sc.curPipe := hq'.curPipe.trans hf.curPipe
    rw [hcur]
    refine h.checkNr havail (getNr_lt _) hf ?_ hq'.toFollows hpauses hacks
    intro h1
    by_cases hp : p = p'
    · subst hp
      exact h1.receiveNr havail hrev
    · have hlose := (h1.receiveOther havail hp (getNr_lt (get1 buf 3))).loseRev 0
      simp only [hrev, List.eraseIdx_cons_zero] at hlose
      exact hlose

/-- **One action.** -/
theorem Linked.step (havail : ∀ n, env.avail n = true) {a : Action} (h : Linked p l.sc.curPipe l)
    (hok : l.Allowed env p Quiescent a l') (hstep : l.step env p a = some l') :
    Linked p l'.sc.curPipe l' := by
  cases a with
  | event ev =>
    rw [Link.step, Option.map_eq_some_iff] at hstep
    obtain ⟨⟨sc, out⟩, hev, rfl⟩ := hstep
    exact h.event havail hev (fun buf hbuf => hok.other buf (hbuf ▸ rfl)) hok.pauses hok.acks
  | lose i =>
    obtain rfl := Option.some.inj hstep
    exact h.lose i
  | loseRev i =>
    obtain rfl := Option.some.inj hstep
    exact h.loseRev i
  | deliver =>
    rw [Link.step] at hstep
    split at hstep
    next => exact absurd hstep (by simp)
    next f fs hfwd =>
      obtain rfl := Option.some.inj hstep
      have hsc : (l.delivered f fs).sc = l.sc := by
        rw [delivered]
        split
        · rfl
        · rfl
      rw [hsc]
      exact h.deliver hfwd
  | answer buf =>
    rw [Link.step] at hstep
    split at hstep
    next hbuf =>
      obtain rfl := Option.some.inj hstep
      exact h.answer hbuf.2
    next => exact absurd hstep (by simp)
  | receive =>
    rw [Link.step] at hstep
    split at hstep
    next => exact absurd hstep (by simp)
    next buf bufs hrev =>
      rw [Option.map_eq_some_iff] at hstep
      obtain ⟨⟨sc, out⟩, hput, rfl⟩ := hstep
      exact h.receive havail hrev hput hok.pauses hok.acks
  | reset =>
    obtain rfl := Option.some.inj hstep
    exact h.reset (hok.reset rfl)

theorem Start.linked (havail : ∀ n, env.avail n = true) (h : Start env p l) :
    Linked p l.sc.curPipe l := by
  have hstable := (Softc.zif_stable havail).reachable h.reachable
  have hlen : (l.sc.pipe p).txWindowLength = 0 := by
    have hle := (hstable.1.1.2 p).length_le
    rw [h.size] at hle
    exact Nat.le_zero.mp hle
  refine ⟨hstable, h.numbered, fun _ _ hne => absurd hlen hne, ⟨[], 0, 0, 0, [], [], l.rxNr, [], []⟩,
    ⟨?_, h.size.symm, ?_, ?_, fun hne => absurd hlen hne, ?_, ?_, Nat.mod_eq_of_lt h.rxNr, h.enq.symm,
      h.accepted.symm, ?_, ?_, ?_, ?_⟩, Renumber.Link.Inv.init h.rxNr⟩
  · rw [h.queue]
    rfl
  · rw [hlen, h.size]
  · rw [h.txNr]
    rfl
  · rw [h.fwd]
    exact .nil
  · rw [h.rev]
    exact .nil
  · simp [h.queue]
  · simp [h.queue]
  · simp [h.enq]
  · simp [h.fwd]

theorem Reach.linked (havail : ∀ n, env.avail n = true) {l0 : Link} (h0 : Start env p l0)
    (h : Reach env p Quiescent l0 l) : Linked p l.sc.curPipe l := by
  induction h with
  | refl => exact h0.linked havail
  | step _ hok hstep ih => exact ih.step havail hok hstep

end Run

/-- **No frame is lost**, in every run of a pipe and its peer in which there are buffers, the pipe does
not pause, layer 3 takes nothing back, and the peer starts over only while nothing is on its way: a data
frame stays in the queue until the peer has accepted it, and data frames are first accepted in the order
in which they were enqueued. -/
theorem no_loss {env : Env} (havail : ∀ n, env.avail n = true) {p : PipeNo} {l0 l : Link}
    (h0 : Start env p l0) (h : Reach env p Quiescent l0 l) :
    (∀ id ∈ l.enq, id ∈ l.accepted ∨ id ∈ (l.sc.pipe p).queue.map Mbuf.id) ∧ l.accepted <+: l.enq := by
  obtain ⟨a, ha, hinv⟩ := (h.linked havail h0).rel
  constructor
  · intro id hid
    rw [← ha.enq] at hid
    rw [← ha.accepted, ← ha.queue]
    exact hinv.mem_accepted_or_mem_queue hid
  · rw [← ha.accepted, ← ha.enq]
    exact hinv.accepted_prefix

/-- A point-to-point link that has come up. -/
def pointToPoint (sc : Softc) : Link := ⟨sc, [], [], 0, [], []⟩

/-- An RR frame from the peer of such a link. -/
def receiveReady (nr : Nat) : List UInt8 := [0x02, 0x01, 0x01, UInt8.ofNat (nr * 2)]

/-- Where a run takes a link that has just come up. -/
theorem exists_reach (env : Env) (mayReset : Link → Prop) [DecidablePred mayReset] (as : List Action)
    (P : Link → Prop) [DecidablePred P]
    (h : (Softc.run env (Softc.setup false true false false 0 2) [.down (.activate adapter)]).bind
      (fun r => (run env adapter mayReset (pointToPoint r.1) as).map fun l =>
        decide ((r.1.pipe adapter).queue = [] ∧ (r.1.pipe adapter).txWindowSize = 0 ∧
          (r.1.pipe adapter).txNr = 0 ∧ r.1.isNumbered adapter ∧ P l)) = some true) :
    ∃ l0 l, Start env adapter l0 ∧ Reach env adapter mayReset l0 l ∧ P l := by
  rw [Option.bind_eq_some_iff] at h
  obtain ⟨r, hup, h⟩ := h
  rw [Option.map_eq_some_iff] at h
  obtain ⟨l, hrun, h⟩ := h
  obtain ⟨hqueue, hsize, hnr, hnum, hP⟩ := of_decide_eq_true h
  have hreach : Softc.Reachable env r.1 := Softc.Reachable.of_run (.setup _ _ _ _ _ _) hup
  exact ⟨pointToPoint r.1, l, ⟨hreach, hnum, hqueue, hsize, hnr, rfl, rfl, Nat.zero_lt_succ _, rfl, rfl⟩,
    Reach.refl.run hrun, hP⟩

/-- It says so of a data frame that is on its way, behind two zero-length frames of which the peer has
acknowledged both. -/
theorem no_loss_sent :
    let env : Env := ⟨fun _ => true, fun _ => [], fun _ => []⟩
    ∃ l0 l, Start env adapter l0 ∧ Reach env adapter Quiescent l0 l ∧ l.enq = [1] ∧ l.rxNr = 2 ∧
      (∀ id ∈ l.enq, id ∈ l.accepted ∨ id ∈ (l.sc.pipe adapter).queue.map Mbuf.id) ∧
      l.accepted <+: l.enq := by
  intro env
  obtain ⟨l0, l, hstart, hreach, henq, hnr⟩ := exists_reach env Quiescent
    [.event (.down (.request (.dataReq adapter [0x08, 1, 1, 5]))), .event .getMbuf,
      .event .getMbuf, .deliver, .deliver, .answer (receiveReady 2), .receive, .event .getMbuf]
    (fun l => l.enq = [1] ∧ l.rxNr = 2) (by decide)
  exact ⟨l0, l, hstart, hreach, henq, hnr, no_loss (fun _ => rfl) hstart hreach⟩

/-- **A frame is lost** when the peer starts over while zero-length frames from before are on their way.
The peer takes those for new ones, and acknowledges the data frame that has got the number of the next
one. -/
theorem frame_lost :
    let env : Env := ⟨fun _ => true, fun _ => [], fun _ => []⟩
    (∀ n, env.avail n = true) ∧
    ∃ l0 l, Start env adapter l0 ∧ Reach env adapter (fun _ => True) l0 l ∧
      ∃ id ∈ l.enq, id ∉ l.accepted ∧ id ∉ (l.sc.pipe adapter).queue.map Mbuf.id := by
  intro env
  refine ⟨fun _ => rfl, ?_⟩
  exact exists_reach env (fun _ => True)
    [.event (.down (.request (.dataReq adapter [0x08, 1, 1, 5]))),
      -- two zero-length frames are sent, and sent again
      .event .getMbuf, .event .getMbuf, .event .getMbuf, .event (.getMbufTimeout adapter),
      .event .getMbuf, .event .getMbuf, .event .getMbuf, .event (.getMbufTimeout adapter),
      -- the first arrives, and they are numbered anew, from 1
      .deliver, .answer (receiveReady 1), .receive, .event .getMbuf, .event .getMbuf, .lose 0,
      -- the peer starts over, and gets the copies
      .reset, .answer (receiveReady 0), .deliver, .deliver, .deliver, .receive,
      -- they are numbered anew, from 0, and the peer gets the copy with number 2
      .event .getMbuf, .answer (receiveReady 2), .deliver, .receive,
      -- now the data frame is sent, with number 2, and counts as acknowledged
      .event .getMbuf, .answer (receiveReady 3), .receive, .event .getMbuf]
    (fun l => ∃ id ∈ l.enq, id ∉ l.accepted ∧ id ∉ (l.sc.pipe adapter).queue.map Mbuf.id)
    (by decide)

end Link
end L2
end Isdn4bsd
