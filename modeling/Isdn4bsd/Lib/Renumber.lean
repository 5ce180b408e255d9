import Mathlib.Tactic

/-!
# A numbered link whose frames are renumbered

A sender keeps a queue of frames and sends the front of it, numbered modulo `M`, over a link that keeps
the order but loses frames.  A receiver accepts a frame when its number is the next one it expects, and
tells the sender now and then which that is.  When the sender cannot make sense of what it is told, it
takes the number over and begins to number its queue anew from there, though copies with the old numbers
may still be on their way; and the receiver may start over at 0.

Frames that carry nothing (all but those in `enq`) are put in front of the queue to find out the number
the receiver expects, before anything else is sent.

The numbers here are not reduced modulo `M`: `base` is the number of the first frame of the queue, and
`base + i` that of the `i`-th, and a copy on its way remembers the number it was given.  Everything rests
on the following.

* `Numbering`: the number of a frame never gets smaller, so a copy on its way has a number no larger than
  the frame now has (`copy_le`), and of two copies the later one comes from the later numbering
  (`copies`).
* `Synced`: the receiver has not got past the number of a frame it has yet to accept, in any numbering of
  which a copy may still be accepted.
* `Unsynced`: after the receiver started over, nothing it says can be taken for the acknowledgement of
  such a frame before it is taken for nonsense.

`Inv` is kept by all that may happen, and `Inv.mem_accepted_or_mem_queue` and `Inv.accepted_prefix` are
what it is for: no frame is lost, and frames are accepted in order.
-/

set_option autoImplicit false

open scoped Classical

namespace Renumber

variable {ι : Type}

/-- The sender, the receiver, and what is on its way between them. -/
structure Link (ι : Type) where
  /-- Frames to send. -/
  queue : List ι
  /-- The number of the first of them. -/
  base : ℕ
  /-- How many of them are acknowledged. -/
  acked : ℕ
  /-- How many of them may be sent. -/
  size : ℕ
  /-- Frames on their way, with their numbers. -/
  fwd : List (ι × ℕ)
  /-- Numbers on their way back. -/
  rev : List ℕ
  /-- The number the receiver expects. -/
  peer : ℕ
  /-- All frames that carry something, in order. -/
  enq : List ι
  /-- Those of them that were accepted, in the order in which they were first. -/
  accepted : List ι

namespace Link

/-- The number the sender expects an acknowledgement from. -/
def next (l : Link ι) : ℕ := l.base + l.acked

/-- A frame that carries something and was not accepted. -/
def Waiting (l : Link ι) (i : ℕ) (u : ι) : Prop :=
  l.queue[i]? = some u ∧ u ∈ l.enq ∧ u ∉ l.accepted

/-! ## The invariant -/

/-- The numbers of the copies on their way. -/
structure Numbering (M : ℕ) (l : Link ι) : Prop where
  nodup : l.queue.Nodup
  acked_le : l.acked ≤ l.size
  size_le : l.size ≤ l.queue.length
  size_lt : l.size < M
  copy_le : ∀ x ∈ l.fwd, ∀ i, l.queue[i]? = some x.1 → x.2 ≤ l.base + i
  copy_gone : ∀ x ∈ l.fwd, x.1 ∉ l.queue → x.2 < l.base
  copy_lt : ∀ x ∈ l.fwd, x.2 + 2 ≤ l.base + M
  peer_lt : ∀ x ∈ l.fwd, l.peer < x.2 + M
  /-- Two copies, the second sent after the first. -/
  copies : l.fwd.Pairwise fun x y => x.2 + 2 ≤ y.2 + M ∧
    ∀ i j, l.queue[i]? = some x.1 → l.queue[j]? = some y.1 → x.2 + j ≤ y.2 + i

/-- What may be sent: either it keeps off the numbers 0 and `M - 1`, or it is no more than two frames
that carry nothing. -/
def Rule (M : ℕ) (l : Link ι) : Prop :=
  (l.base % M ≠ 0 ∧ l.base % M + l.size < M) ∨
  (l.size ≤ 2 ∧ ∀ i u, i < l.size → l.queue[i]? = some u → u ∉ l.enq)

/-- The receiver has not got past a frame it has yet to accept. -/
structure Synced (M : ℕ) (l : Link ι) : Prop where
  rev : (l.next :: (l.rev ++ [l.peer])).Pairwise (· ≤ ·)
  peer_lt : l.peer < l.base + M
  waiting : ∀ i u, l.Waiting i u → l.peer ≤ l.base + i
  live : ∀ i u, l.Waiting i u → ∀ x ∈ l.fwd, l.peer ≤ x.2 → ∀ j, l.queue[j]? = some x.1 →
    l.peer + j ≤ x.2 + i
  room : l.peer ≤ l.base + l.queue.length

/-- The receiver started over, at number `r`, and the sender has not heard of it. -/
structure Unsynced (M r : ℕ) (l : Link ι) : Prop where
  next_lt : l.next < r
  lt_next : r < l.next + M
  block : l.next % M ≠ 0 → r + l.next % M = l.next + M
  rev : (r :: (l.rev ++ [l.peer])).Pairwise (· ≤ ·)
  /-- Copies that may be accepted carry nothing, and nothing is before them. -/
  live : ∀ x ∈ l.fwd, l.peer ≤ x.2 → ∀ j, l.queue[j]? = some x.1 →
    ∀ (i : ℕ) (u : ι), i ≤ j → l.queue[i]? = some u → u ∉ l.enq
  peer : l.peer = r ∨ (l.peer < l.base + M ∧ (∀ i u, l.Waiting i u → l.peer ≤ l.base + i) ∧
    l.peer ≤ l.base + l.queue.length)

theorem base_le_next (l : Link ι) : l.base ≤ l.next := Nat.le_add_right _ _

theorem Synced.next_le_peer {M : ℕ} {l : Link ι} (h : l.Synced M) : l.next ≤ l.peer := by
  have hrel := (List.pairwise_cons.mp h.rev).1
  exact hrel l.peer (by simp)

theorem Unsynced.le_peer {M r : ℕ} {l : Link ι} (h : l.Unsynced M r) : r ≤ l.peer := by
  have hrel := (List.pairwise_cons.mp h.rev).1
  exact hrel l.peer (by simp)

/-- What was accepted, and in which order. -/
structure Order (l : Link ι) : Prop where
  enq_nodup : l.enq.Nodup
  accepted_prefix : l.accepted <+: l.enq
  queue_suffix : ∃ pre, l.enq = pre ++ l.queue.filter (· ∈ l.enq) ∧ ∀ u ∈ pre, u ∈ l.accepted
  acked_le : ∀ i u, l.Waiting i u → l.acked ≤ i

/-- **The invariant.** -/
structure Inv (M : ℕ) (l : Link ι) : Prop where
  numbering : l.Numbering M
  rule : l.Rule M
  order : l.Order
  phase : l.Synced M ∨ ∃ r, l.Unsynced M r

/-! ## What it is for -/

theorem Inv.accepted_prefix {M : ℕ} {l : Link ι} (h : l.Inv M) : l.accepted <+: l.enq :=
  h.order.accepted_prefix

theorem Inv.mem_accepted_or_mem_queue {M : ℕ} {l : Link ι} (h : l.Inv M) {u : ι} (hu : u ∈ l.enq) :
    u ∈ l.accepted ∨ u ∈ l.queue := by
  obtain ⟨pre, heq, hpre⟩ := h.order.queue_suffix
  rw [heq, List.mem_append] at hu
  rcases hu with hu | hu
  · exact .inl (hpre u hu)
  · exact .inr (List.mem_of_mem_filter hu)

/-! ## Small facts -/

/-- In either phase the receiver is ahead of the sender, by less than `M`. -/
theorem Inv.next_le_peer {M : ℕ} {l : Link ι} (h : l.Inv M) : l.next ≤ l.peer := by
  obtain hs | ⟨r, hu⟩ := h.phase
  · exact hs.next_le_peer
  · exact hu.next_lt.le.trans hu.le_peer

theorem Inv.peer_lt_next {M : ℕ} {l : Link ι} (h : l.Inv M) : l.peer < l.next + M := by
  have hbase := l.base_le_next
  obtain hs | ⟨r, hu⟩ := h.phase
  · exact lt_of_lt_of_le hs.peer_lt (Nat.add_le_add_right hbase M)
  · obtain hr | ⟨hlt, _⟩ := hu.peer
    · rw [hr]
      exact hu.lt_next
    · exact lt_of_lt_of_le hlt (Nat.add_le_add_right hbase M)

/-- A copy whose frame left the queue is not accepted any more. -/
theorem Inv.mem_queue_of_peer_le {M : ℕ} {l : Link ι} (h : l.Inv M) {x : ι × ℕ} (hx : x ∈ l.fwd)
    (hle : l.peer ≤ x.2) : x.1 ∈ l.queue := by
  by_contra hgone
  have hlt := h.numbering.copy_gone x hx hgone
  have hbase := l.base_le_next
  have hnext := h.next_le_peer
  omega

/-- **The numbers are told apart modulo `M`.** -/
theorem Inv.eq_peer_of_mod_eq {M : ℕ} {l : Link ι} (h : l.Inv M) {x : ι × ℕ} (hx : x ∈ l.fwd)
    (hmod : x.2 % M = l.peer % M) : x.2 = l.peer := by
  have hlt := h.numbering.peer_lt x hx
  have hcopy := h.numbering.copy_lt x hx
  have hbase := l.base_le_next
  have hnext := h.next_le_peer
  refine Nat.ModEq.eq_of_abs_lt hmod ?_
  rw [abs_lt]
  constructor
  · omega
  · omega

/-! ## The queue grows -/

theorem getElem?_of_append {a b : List ι} {i : ℕ} {u : ι} (h : (a ++ b)[i]? = some u) (hu : u ∉ b) :
    a[i]? = some u := by
  by_cases hi : i < a.length
  · rwa [List.getElem?_append_left hi] at h
  · rw [List.getElem?_append_right (Nat.not_lt.mp hi)] at h
    exact absurd (List.mem_of_getElem? h) hu

theorem lt_length_of_getElem? {a : List ι} {i : ℕ} {u : ι} (h : a[i]? = some u) : i < a.length :=
  (List.getElem?_eq_some_iff.mp h).1

/-- Frames come into the queue; `d` says which of them carry something. -/
def enqueue (l : Link ι) (ks : List ι) (d : ι → Bool) : Link ι :=
  { l with queue := l.queue ++ ks, enq := l.enq ++ ks.filter d }

section Enqueue

variable {M : ℕ} {l : Link ι} {ks : List ι} {d : ι → Bool}
variable (hnodup : (l.queue ++ ks).Nodup) (henq : ∀ k ∈ ks, k ∉ l.enq) (hfwd : ∀ x ∈ l.fwd, x.1 ∉ ks)

include hnodup in
theorem not_mem_of_mem_queue {u : ι} (hu : u ∈ l.queue) : u ∉ ks := by
  intro hks
  exact (List.nodup_append.mp hnodup).2.2 u hu u hks rfl

include hnodup in
theorem mem_enqueue_enq_iff {u : ι} (hu : u ∈ l.queue) : u ∈ (l.enqueue ks d).enq ↔ u ∈ l.enq := by
  have hks := not_mem_of_mem_queue hnodup hu
  simp only [enqueue, List.mem_append, List.mem_filter]
  tauto

include hnodup in
theorem Waiting.of_enqueue {i : ℕ} {u : ι} (h : (l.enqueue ks d).Waiting i u) :
    l.Waiting i u ∨ l.queue.length ≤ i := by
  obtain ⟨hget, hmem, hnot⟩ := h
  by_cases hi : i < l.queue.length
  · simp only [enqueue] at hget
    rw [List.getElem?_append_left hi] at hget
    exact .inl ⟨hget, (mem_enqueue_enq_iff hnodup (List.mem_of_getElem? hget)).mp hmem, hnot⟩
  · exact .inr (Nat.not_lt.mp hi)

include hnodup hfwd in
theorem Numbering.enqueue (h : l.Numbering M) : (l.enqueue ks d).Numbering M where
  nodup := hnodup
  acked_le := h.acked_le
  size_le := by
    simp only [Link.enqueue, List.length_append]
    exact Nat.le_add_right_of_le h.size_le
  size_lt := h.size_lt
  copy_le := by
    intro x hx i hi
    exact h.copy_le x hx i (getElem?_of_append hi (hfwd x hx))
  copy_gone := by
    intro x hx hgone
    exact h.copy_gone x hx fun hmem => hgone (List.mem_append_left _ hmem)
  copy_lt := h.copy_lt
  peer_lt := h.peer_lt
  copies := by
    refine List.Pairwise.imp_of_mem ?_ h.copies
    intro x y hx hy hxy
    refine ⟨hxy.1, ?_⟩
    intro i j hi hj
    exact hxy.2 i j (getElem?_of_append hi (hfwd x hx)) (getElem?_of_append hj (hfwd y hy))

include hnodup henq in
theorem Order.enqueue (hn : l.Numbering M) (h : l.Order) : (l.enqueue ks d).Order where
  enq_nodup := by
    have hks := (List.nodup_append.mp hnodup).2.1
    simp only [Link.enqueue]
    rw [List.nodup_append]
    refine ⟨h.enq_nodup, hks.filter _, ?_⟩
    rintro a ha b hb rfl
    exact henq a (List.mem_of_mem_filter hb) ha
  accepted_prefix := h.accepted_prefix.trans (List.prefix_append _ _)
  queue_suffix := by
    obtain ⟨pre, heq, hpre⟩ := h.queue_suffix
    refine ⟨pre, ?_, hpre⟩
    have hold : l.queue.filter (· ∈ (l.enqueue ks d).enq) = l.queue.filter (· ∈ l.enq) := by
      refine List.filter_congr ?_
      intro u hu
      simp only [mem_enqueue_enq_iff hnodup hu]
    have hnew : ks.filter (· ∈ (l.enqueue ks d).enq) = ks.filter d := by
      refine List.filter_congr ?_
      intro u hu
      have hnot := henq u hu
      simp [Link.enqueue, hnot, hu]
    have hsplit : (l.enqueue ks d).queue.filter (· ∈ (l.enqueue ks d).enq)
        = l.queue.filter (· ∈ l.enq) ++ ks.filter d := by
      rw [← hold, ← hnew, ← List.filter_append]
      rfl
    rw [hsplit, ← List.append_assoc, ← heq]
    rfl
  acked_le := by
    intro i u hw
    obtain hold | hle := hw.of_enqueue hnodup
    · exact h.acked_le i u hold
    · exact (hn.acked_le.trans hn.size_le).trans hle

include hnodup in
theorem Rule.enqueue (hn : l.Numbering M) (h : l.Rule M) : (l.enqueue ks d).Rule M := by
  refine h.imp_right ?_
  rintro ⟨htwo, hempty⟩
  refine ⟨htwo, ?_⟩
  intro i u hi hget
  have hlt : i < l.queue.length := lt_of_lt_of_le hi hn.size_le
  simp only [Link.enqueue] at hget
  rw [List.getElem?_append_left hlt] at hget
  rw [mem_enqueue_enq_iff hnodup (List.mem_of_getElem? hget)]
  exact hempty i u hi hget

include hnodup hfwd in
theorem Synced.enqueue (h : l.Synced M) : (l.enqueue ks d).Synced M where
  rev := h.rev
  peer_lt := h.peer_lt
  waiting := by
    intro i u hw
    obtain hold | hle := hw.of_enqueue hnodup
    · exact h.waiting i u hold
    · exact h.room.trans (Nat.add_le_add_left hle _)
  live := by
    intro i u hw x hx hpeer j hj
    have hj' := getElem?_of_append hj (hfwd x hx)
    obtain hold | hle := hw.of_enqueue hnodup
    · exact h.live i u hold x hx hpeer j hj'
    · have hlt := lt_length_of_getElem? hj'
      change l.peer ≤ x.2 at hpeer
      change l.peer + j ≤ x.2 + i
      omega
  room := by
    simp only [Link.enqueue, List.length_append]
    exact h.room.trans (Nat.add_le_add_left (Nat.le_add_right _ _) _)

include hnodup hfwd in
theorem Unsynced.enqueue {r : ℕ} (h : l.Unsynced M r) : (l.enqueue ks d).Unsynced M r where
  next_lt := h.next_lt
  lt_next := h.lt_next
  block := h.block
  rev := h.rev
  live := by
    intro x hx hpeer j hj i u hij hi
    have hj' := getElem?_of_append hj (hfwd x hx)
    have hlt : i < l.queue.length := lt_of_le_of_lt hij (lt_length_of_getElem? hj')
    simp only [Link.enqueue] at hi
    rw [List.getElem?_append_left hlt] at hi
    rw [mem_enqueue_enq_iff hnodup (List.mem_of_getElem? hi)]
    exact h.live x hx hpeer j hj' i u hij hi
  peer := by
    refine h.peer.imp_right ?_
    rintro ⟨hlt, hwait, hroom⟩
    refine ⟨hlt, ?_, ?_⟩
    · intro i u hw
      obtain hold | hle := hw.of_enqueue hnodup
      · exact hwait i u hold
      · exact hroom.trans (Nat.add_le_add_left hle _)
    · simp only [Link.enqueue, List.length_append]
      exact hroom.trans (Nat.add_le_add_left (Nat.le_add_right _ _) _)

include hnodup henq hfwd in
/-- **Frames come into the queue.** -/
theorem Inv.enqueue (h : l.Inv M) : (l.enqueue ks d).Inv M where
  numbering := h.numbering.enqueue hnodup hfwd
  rule := h.rule.enqueue hnodup h.numbering
  order := h.order.enqueue hnodup henq h.numbering
  phase := by
    obtain hs | ⟨r, hu⟩ := h.phase
    · exact .inl (hs.enqueue hnodup hfwd)
    · exact .inr ⟨r, hu.enqueue hnodup hfwd⟩

end Enqueue

/-! ## The window -/

/-- What is not acknowledged will be sent again. -/
def timeout (l : Link ι) : Link ι := { l with size := l.acked }

/-- **A timeout.** -/
theorem Inv.timeout {M : ℕ} {l : Link ι} (h : l.Inv M) : l.timeout.Inv M where
  numbering := by
    have hn := h.numbering
    exact ⟨hn.nodup, Nat.le_refl _, hn.acked_le.trans hn.size_le, lt_of_le_of_lt hn.acked_le hn.size_lt,
      hn.copy_le, hn.copy_gone, hn.copy_lt, hn.peer_lt, hn.copies⟩
  rule := by
    have hle := h.numbering.acked_le
    obtain ⟨hne, hlt⟩ | ⟨htwo, hempty⟩ := h.rule
    · exact .inl ⟨hne, lt_of_le_of_lt (Nat.add_le_add_left hle _) hlt⟩
    · exact .inr ⟨hle.trans htwo, fun i u hi => hempty i u (lt_of_lt_of_le hi hle)⟩
  order := ⟨h.order.enq_nodup, h.order.accepted_prefix, h.order.queue_suffix, h.order.acked_le⟩
  phase := by
    obtain hs | ⟨r, hu⟩ := h.phase
    · exact .inl ⟨hs.rev, hs.peer_lt, hs.waiting, hs.live, hs.room⟩
    · exact .inr ⟨r, hu.next_lt, hu.lt_next, hu.block, hu.rev, hu.live, hu.peer⟩

/-- Acknowledged frames leave the queue, and frames that carry nothing may be put in front. -/
def reopen (l : Link ι) (zs : List ι) (size : ℕ) : Link ι :=
  { l with
    queue := zs ++ l.queue.drop l.acked
    base := l.next
    acked := 0
    size := size }

section Reopen

variable {M size : ℕ} {l : Link ι} {zs : List ι}
variable (hnodup : (zs ++ l.queue).Nodup) (henq : ∀ z ∈ zs, z ∉ l.enq) (hfwd : ∀ x ∈ l.fwd, x.1 ∉ zs)

/-- Where a frame of the queue was before. -/
theorem getElem?_reopen {i : ℕ} {u : ι} (h : (l.reopen zs size).queue[i]? = some u) (hu : u ∉ zs) :
    ∃ q, l.queue[q]? = some u ∧ l.acked ≤ q ∧ i + l.acked = q + zs.length := by
  have hi : zs.length ≤ i := by
    by_contra hlt
    simp only [reopen] at h
    rw [List.getElem?_append_left (Nat.not_le.mp hlt)] at h
    exact hu (List.mem_of_getElem? h)
  simp only [reopen] at h
  rw [List.getElem?_append_right hi, List.getElem?_drop] at h
  exact ⟨_, h, by omega, by omega⟩

include henq in
theorem Waiting.of_reopen {i : ℕ} {u : ι} (h : (l.reopen zs size).Waiting i u) :
    ∃ q, l.Waiting q u ∧ l.acked ≤ q ∧ i + l.acked = q + zs.length := by
  obtain ⟨hget, hmem, hnot⟩ := h
  obtain ⟨q, hq, hle, heq⟩ := getElem?_reopen hget fun hz => henq u hz hmem
  exact ⟨q, ⟨hq, hmem, hnot⟩, hle, heq⟩

include hnodup hfwd in
theorem Numbering.reopen (hsize : size ≤ (zs ++ l.queue.drop l.acked).length) (hlt : size < M)
    (h : l.Numbering M) : (l.reopen zs size).Numbering M where
  nodup := hnodup.sublist (List.Sublist.append_left (List.drop_sublist _ _) zs)
  acked_le := Nat.zero_le _
  size_le := hsize
  size_lt := hlt
  copy_le := by
    intro x hx i hi
    obtain ⟨q, hq, _, heq⟩ := getElem?_reopen hi (hfwd x hx)
    have hle := h.copy_le x hx q hq
    simp only [Link.reopen, next]
    omega
  copy_gone := by
    intro x hx hgone
    simp only [Link.reopen, next, List.mem_append, not_or] at hgone ⊢
    by_cases hmem : x.1 ∈ l.queue
    · obtain ⟨q, hq⟩ := List.mem_iff_getElem?.mp hmem
      have hle := h.copy_le x hx q hq
      have hacked : q < l.acked := by
        by_contra hge
        refine hgone.2 (List.mem_of_getElem? (i := q - l.acked) ?_)
        rw [List.getElem?_drop, Nat.add_sub_cancel' (Nat.not_lt.mp hge)]
        exact hq
      omega
    · have hlt := h.copy_gone x hx hmem
      omega
  copy_lt := by
    intro x hx
    have hlt := h.copy_lt x hx
    simp only [Link.reopen, next]
    omega
  peer_lt := h.peer_lt
  copies := by
    refine List.Pairwise.imp_of_mem ?_ h.copies
    intro x y hx hy hxy
    refine ⟨hxy.1, ?_⟩
    intro i j hi hj
    obtain ⟨qi, hqi, _, heqi⟩ := getElem?_reopen hi (hfwd x hx)
    obtain ⟨qj, hqj, _, heqj⟩ := getElem?_reopen hj (hfwd y hy)
    have hle := hxy.2 qi qj hqi hqj
    omega

include henq in
/-- No frame that leaves the queue was waiting. -/
theorem Order.reopen (h : l.Order) : (l.reopen zs size).Order where
  enq_nodup := h.enq_nodup
  accepted_prefix := h.accepted_prefix
  queue_suffix := by
    obtain ⟨pre, heq, hpre⟩ := h.queue_suffix
    refine ⟨pre ++ (l.queue.take l.acked).filter (· ∈ l.enq), ?_, ?_⟩
    · have hzs : zs.filter (· ∈ l.enq) = [] := by
        rw [List.filter_eq_nil_iff]
        intro z hz
        simpa using henq z hz
      have hqueue : l.queue.filter (· ∈ l.enq) = (l.queue.take l.acked).filter (· ∈ l.enq)
          ++ (l.queue.drop l.acked).filter (· ∈ l.enq) := by
        rw [← List.filter_append, List.take_append_drop]
      change l.enq = _ ++ (zs ++ l.queue.drop l.acked).filter (· ∈ l.enq)
      rw [List.filter_append, hzs, List.nil_append, List.append_assoc, ← hqueue]
      exact heq
    · intro u hu
      rcases List.mem_append.mp hu with hu | hu
      · exact hpre u hu
      · by_contra hnot
        rw [List.mem_filter] at hu
        obtain ⟨i, hi⟩ := List.mem_iff_getElem?.mp hu.1
        rw [List.getElem?_take] at hi
        split at hi
        next hlt =>
          have hle := h.acked_le i u ⟨hi, by simpa using hu.2, hnot⟩
          exact absurd hlt (Nat.not_lt.mpr hle)
        next => exact absurd hi (by simp)
  acked_le := fun _ _ _ => Nat.zero_le _

include henq hfwd in
theorem Synced.reopen (hn : l.Numbering M) (h : l.Synced M) : (l.reopen zs size).Synced M where
  rev := h.rev
  peer_lt := lt_of_lt_of_le h.peer_lt (Nat.add_le_add_right l.base_le_next M)
  waiting := by
    intro i u hw
    obtain ⟨q, hq, _, heq⟩ := hw.of_reopen henq
    have hle := h.waiting q u hq
    simp only [Link.reopen, next]
    omega
  live := by
    intro i u hw x hx hpeer j hj
    obtain ⟨q, hq, _, heq⟩ := hw.of_reopen henq
    obtain ⟨qj, hqj, _, heqj⟩ := getElem?_reopen hj (hfwd x hx)
    have hle := h.live q u hq x hx hpeer qj hqj
    simp only [Link.reopen]
    omega
  room := by
    have hroom := h.room
    have hacked := hn.acked_le.trans hn.size_le
    simp only [Link.reopen, next, List.length_append, List.length_drop]
    omega

include henq hfwd in
theorem Unsynced.reopen {r : ℕ} (hn : l.Numbering M) (h : l.Unsynced M r) :
    (l.reopen zs size).Unsynced M r where
  next_lt := h.next_lt
  lt_next := h.lt_next
  block := h.block
  rev := h.rev
  live := by
    intro x hx hpeer j hj i u hij hi
    by_cases hz : u ∈ zs
    · exact henq u hz
    · obtain ⟨q, hq, _, heq⟩ := getElem?_reopen hi hz
      obtain ⟨qj, hqj, _, heqj⟩ := getElem?_reopen hj (hfwd x hx)
      exact h.live x hx hpeer qj hqj q u (by omega) hq
  peer := by
    refine h.peer.imp_right ?_
    rintro ⟨hlt, hwait, hroom⟩
    refine ⟨lt_of_lt_of_le hlt (Nat.add_le_add_right l.base_le_next M), ?_, ?_⟩
    · intro i u hw
      obtain ⟨q, hq, _, heq⟩ := hw.of_reopen henq
      have hle := hwait q u hq
      simp only [Link.reopen, next]
      omega
    · have hacked := hn.acked_le.trans hn.size_le
      simp only [Link.reopen, next, List.length_append, List.length_drop]
      omega

include hnodup henq hfwd in
/-- **The window is opened.** -/
theorem Inv.reopen (hsize : size ≤ (zs ++ l.queue.drop l.acked).length) (hlt : size < M)
    (hrule : (l.reopen zs size).Rule M) (h : l.Inv M) : (l.reopen zs size).Inv M where
  numbering := h.numbering.reopen hnodup hfwd hsize hlt
  rule := hrule
  order := h.order.reopen henq
  phase := by
    obtain hs | ⟨r, hu⟩ := h.phase
    · exact .inl (hs.reopen henq hfwd h.numbering)
    · exact .inr ⟨r, hu.reopen henq hfwd h.numbering⟩

end Reopen

/-! ## Frames on their way -/

/-- A frame of the window is sent. -/
def send (l : Link ι) (i : ℕ) (k : ι) : Link ι := { l with fwd := l.fwd ++ [(k, l.base + i)] }

/-- A window that keeps off the numbers 0 and `M - 1` lies before the number the receiver started over
with. -/
theorem Unsynced.base_add_size_lt {M r : ℕ} {l : Link ι} (hn : l.Numbering M) (h : l.Unsynced M r)
    (hne : l.base % M ≠ 0) (hlt : l.base % M + l.size < M) : l.base + l.size < r ∧ r < l.base + M := by
  have hacked := hn.acked_le
  have hmod : l.next % M = l.base % M + l.acked := by
    have hsmall : l.acked % M = l.acked := Nat.mod_eq_of_lt (lt_of_le_of_lt hacked hn.size_lt)
    rw [next, Nat.add_mod_of_add_mod_lt (by omega), hsmall]
  have hblock := h.block (by omega)
  rw [hmod, next] at hblock
  omega

section Send

variable {M i : ℕ} {l : Link ι} {k : ι}
variable (hget : l.queue[i]? = some k) (hi : i < l.size)

theorem index_unique (hn : l.Numbering M) {j : ℕ} (hget : l.queue[i]? = some k)
    (hj : l.queue[j]? = some k) : j = i :=
  (List.getElem?_inj (lt_length_of_getElem? hj) hn.nodup).mp (hj.trans hget.symm)

include hget hi in
theorem Numbering.send (hpeer : l.peer < l.base + i + M) (h : l.Numbering M) :
    (l.send i k).Numbering M where
  nodup := h.nodup
  acked_le := h.acked_le
  size_le := h.size_le
  size_lt := h.size_lt
  copy_le := by
    intro x hx j hj
    rcases List.mem_append.mp hx with hx | hx
    · exact h.copy_le x hx j hj
    · obtain rfl := List.mem_singleton.mp hx
      rw [index_unique h hget hj]
      exact Nat.le_refl _
  copy_gone := by
    intro x hx hgone
    rcases List.mem_append.mp hx with hx | hx
    · exact h.copy_gone x hx hgone
    · obtain rfl := List.mem_singleton.mp hx
      exact absurd (List.mem_of_getElem? hget) hgone
  copy_lt := by
    intro x hx
    have hsize := h.size_lt
    rcases List.mem_append.mp hx with hx | hx
    · exact h.copy_lt x hx
    · obtain rfl := List.mem_singleton.mp hx
      simp only [Link.send]
      omega
  peer_lt := by
    intro x hx
    rcases List.mem_append.mp hx with hx | hx
    · exact h.peer_lt x hx
    · obtain rfl := List.mem_singleton.mp hx
      exact hpeer
  copies := by
    refine List.pairwise_append.mpr ⟨h.copies, List.pairwise_singleton _ _, ?_⟩
    intro x hx y hy
    obtain rfl := List.mem_singleton.mp hy
    have hlt := h.copy_lt x hx
    refine ⟨by simp only; omega, ?_⟩
    intro a b ha hb
    have hle := h.copy_le x hx a ha
    have hbi := index_unique h hget hb
    simp only
    omega

include hget hi in
/-- **A frame is sent**, and not one that is acknowledged unless the window keeps off the numbers 0
and `M - 1`. -/
theorem Inv.send (hfirst : l.acked ≤ i ∨ (l.base % M ≠ 0 ∧ l.base % M + l.size < M)) (h : l.Inv M) :
    (l.send i k).Inv M := by
  have hn := h.numbering
  have horder : (l.send i k).Order :=
    ⟨h.order.enq_nodup, h.order.accepted_prefix, h.order.queue_suffix, h.order.acked_le⟩
  obtain hs | ⟨r, hu⟩ := h.phase
  · have hpeer : l.peer < l.base + i + M := by
      have hlt := hs.peer_lt
      omega
    refine ⟨hn.send hget hi hpeer, h.rule, horder, .inl ⟨hs.rev, hs.peer_lt, hs.waiting, ?_, hs.room⟩⟩
    intro j u hw x hx hle a ha
    rcases List.mem_append.mp hx with hx | hx
    · exact hs.live j u hw x hx hle a ha
    · obtain rfl := List.mem_singleton.mp hx
      have hwait := hs.waiting j u hw
      have hai := index_unique hn hget ha
      simp only [Link.send]
      omega
  · have hpeer : l.peer < l.base + i + M := by
      obtain heq | ⟨hlt, _⟩ := hu.peer
      · rcases hfirst with hle | ⟨hne, hlt⟩
        · have hlt := hu.lt_next
          simp only [next] at hlt
          omega
        · have hbase := (hu.base_add_size_lt hn hne hlt).2
          omega
      · omega
    refine ⟨hn.send hget hi hpeer, h.rule, horder,
      .inr ⟨r, hu.next_lt, hu.lt_next, hu.block, hu.rev, ?_, hu.peer⟩⟩
    intro x hx hle j hj a u haj ha
    rcases List.mem_append.mp hx with hx | hx
    · exact hu.live x hx hle j hj a u haj ha
    · obtain rfl := List.mem_singleton.mp hx
      have hji := index_unique hn hget hj
      obtain ⟨hne, hlt⟩ | ⟨_, hempty⟩ := h.rule
      · have hbase := (hu.base_add_size_lt hn hne hlt).1
        have hr := hu.le_peer
        change l.peer ≤ l.base + i at hle
        omega
      · exact hempty a u (by omega) ha

end Send

/-- **Frames and numbers are lost.** -/
theorem Inv.lose {M : ℕ} {l : Link ι} {fwd : List (ι × ℕ)} {rev : List ℕ} (hfwd : fwd.Sublist l.fwd)
    (hrev : rev.Sublist l.rev) (h : l.Inv M) : Inv M { l with fwd := fwd, rev := rev } where
  numbering := by
    have hn := h.numbering
    exact ⟨hn.nodup, hn.acked_le, hn.size_le, hn.size_lt, fun x hx => hn.copy_le x (hfwd.subset hx),
      fun x hx => hn.copy_gone x (hfwd.subset hx), fun x hx => hn.copy_lt x (hfwd.subset hx),
      fun x hx => hn.peer_lt x (hfwd.subset hx), hn.copies.sublist hfwd⟩
  rule := h.rule
  order := ⟨h.order.enq_nodup, h.order.accepted_prefix, h.order.queue_suffix, h.order.acked_le⟩
  phase := by
    obtain hs | ⟨r, hu⟩ := h.phase
    · refine .inl ⟨?_, hs.peer_lt, hs.waiting, ?_, hs.room⟩
      · exact hs.rev.sublist ((hrev.append_right _).cons_cons _)
      · intro i u hw x hx
        exact hs.live i u hw x (hfwd.subset hx)
    · refine .inr ⟨r, hu.next_lt, hu.lt_next, hu.block, ?_, ?_, hu.peer⟩
      · exact hu.rev.sublist ((hrev.append_right _).cons_cons _)
      · intro x hx
        exact hu.live x (hfwd.subset hx)

/-! ## The receiver -/

/-- Numbers in order stay so when the last of them grows. -/
theorem pairwise_last {a b b' : ℕ} {l : List ℕ} (hb : b ≤ b')
    (h : (a :: (l ++ [b])).Pairwise (· ≤ ·)) : (a :: (l ++ [b'])).Pairwise (· ≤ ·) := by
  rw [← List.cons_append, List.pairwise_append] at h ⊢
  refine ⟨h.1, List.pairwise_singleton _ _, ?_⟩
  intro x hx y hy
  obtain rfl := List.mem_singleton.mp hy
  exact (h.2.2 x hx b (List.mem_singleton_self b)).trans hb

/-- Nor does it matter that the last is there twice. -/
theorem pairwise_twice {a b : ℕ} {l : List ℕ} (h : (a :: (l ++ [b])).Pairwise (· ≤ ·)) :
    (a :: (l ++ [b] ++ [b])).Pairwise (· ≤ ·) := by
  rw [← List.cons_append, List.pairwise_append]
  refine ⟨h, List.pairwise_singleton _ _, ?_⟩
  intro x hx y hy
  obtain rfl := List.mem_singleton.mp hy
  rw [← List.cons_append, List.pairwise_append] at h
  rw [← List.cons_append] at hx
  rcases List.mem_append.mp hx with hx | hx
  · exact h.2.2 x hx y (List.mem_singleton_self y)
  · exact (List.mem_singleton.mp hx).le

/-- **The receiver says which number it expects.** -/
theorem Inv.answer {M : ℕ} {l : Link ι} (h : l.Inv M) :
    Inv M { l with rev := l.rev ++ [l.peer] } where
  numbering := by
    have hn := h.numbering
    exact ⟨hn.nodup, hn.acked_le, hn.size_le, hn.size_lt, hn.copy_le, hn.copy_gone, hn.copy_lt,
      hn.peer_lt, hn.copies⟩
  rule := h.rule
  order := ⟨h.order.enq_nodup, h.order.accepted_prefix, h.order.queue_suffix, h.order.acked_le⟩
  phase := by
    obtain hs | ⟨r, hu⟩ := h.phase
    · exact .inl ⟨pairwise_twice hs.rev, hs.peer_lt, hs.waiting, hs.live, hs.room⟩
    · exact .inr ⟨r, hu.next_lt, hu.lt_next, hu.block, pairwise_twice hu.rev, hu.live, hu.peer⟩

/-- The first frame on its way is accepted. -/
noncomputable def accept (l : Link ι) (k : ι) (fwd : List (ι × ℕ)) : Link ι :=
  { l with
    fwd := fwd
    peer := l.peer + 1
    accepted := if k ∈ l.enq ∧ k ∉ l.accepted then l.accepted ++ [k] else l.accepted }

theorem accept_accepted_subset (l : Link ι) (k : ι) (fwd : List (ι × ℕ)) :
    l.accepted ⊆ (l.accept k fwd).accepted := by
  simp only [accept]
  split
  · exact List.subset_append_left _ _
  · exact List.Subset.refl _

/-- Other frames still wait. -/
theorem Waiting.of_accept {l : Link ι} {k u : ι} {fwd : List (ι × ℕ)} {i : ℕ}
    (h : (l.accept k fwd).Waiting i u) : l.Waiting i u ∧ u ≠ k := by
  obtain ⟨hget, hmem, hnot⟩ := h
  have hold : u ∉ l.accepted := fun hacc => hnot (accept_accepted_subset l k fwd hacc)
  refine ⟨⟨hget, hmem, hold⟩, ?_⟩
  rintro rfl
  refine hnot ?_
  simp only [accept]
  rw [if_pos ⟨hmem, hold⟩]
  exact List.mem_append_right _ (List.mem_singleton_self _)

/-- A prefix that has all before `k` and not `k` ends there. -/
theorem eq_of_prefix {p a b : List ι} {k : ι} (hnodup : (a ++ k :: b).Nodup) (hp : p <+: a ++ k :: b)
    (ha : a ⊆ p) (hk : k ∉ p) : p = a := by
  obtain ⟨t, ht⟩ := hp
  obtain ⟨c, rfl, _⟩ | ⟨c, rfl, hc⟩ := List.append_eq_append_iff.mp ht
  · cases c with
    | nil => rw [List.append_nil]
    | cons x c =>
      rw [List.append_assoc, List.nodup_append] at hnodup
      have hx := ha (List.mem_append_right p (List.mem_cons_self))
      exact absurd rfl (hnodup.2.2 x hx x (by simp))
  · cases c with
    | nil => rw [List.append_nil]
    | cons x c =>
      obtain ⟨rfl, _⟩ := List.cons.inj hc
      exact absurd (List.mem_append_right a List.mem_cons_self) hk

/-- The frame accepted is the first one that waits, or none. -/
theorem Order.accept {l : Link ι} {k : ι} {fwd : List (ι × ℕ)} {i : ℕ} (hget : l.queue[i]? = some k)
    (hfirst : ∀ j u, l.Waiting j u → i ≤ j) (h : l.Order) : (l.accept k fwd).Order where
  enq_nodup := h.enq_nodup
  accepted_prefix := by
    simp only [Link.accept]
    split
    next hk =>
      obtain ⟨pre, heq, hpre⟩ := h.queue_suffix
      have hlt := lt_length_of_getElem? hget
      have hqueue : l.queue = l.queue.take i ++ k :: l.queue.drop (i + 1) := by
        conv_lhs => rw [← List.take_append_drop i l.queue, List.drop_eq_getElem_cons hlt]
        rw [(List.getElem?_eq_some_iff.mp hget).2]
      have hfilter : l.queue.filter (· ∈ l.enq) = (l.queue.take i).filter (· ∈ l.enq)
          ++ k :: (l.queue.drop (i + 1)).filter (· ∈ l.enq) := by
        conv_lhs => rw [hqueue]
        rw [List.filter_append, List.filter_cons_of_pos (by simpa using hk.1)]
      rw [hfilter, ← List.append_assoc] at heq
      have hbefore : pre ++ (l.queue.take i).filter (· ∈ l.enq) ⊆ l.accepted := by
        intro u hu
        rcases List.mem_append.mp hu with hu | hu
        · exact hpre u hu
        · by_contra hnot
          rw [List.mem_filter] at hu
          obtain ⟨j, hj⟩ := List.mem_iff_getElem?.mp hu.1
          rw [List.getElem?_take] at hj
          split at hj
          next hji =>
            have hle := hfirst j u ⟨hj, by simpa using hu.2, hnot⟩
            exact absurd hji (Nat.not_lt.mpr hle)
          next => exact absurd hj (by simp)
      have hall : l.accepted = pre ++ (l.queue.take i).filter (· ∈ l.enq) :=
        eq_of_prefix (heq ▸ h.enq_nodup) (heq ▸ h.accepted_prefix) hbefore hk.2
      refine ⟨(l.queue.drop (i + 1)).filter (· ∈ l.enq), ?_⟩
      rw [hall, List.append_assoc, List.singleton_append]
      exact heq.symm
    next => exact h.accepted_prefix
  queue_suffix := by
    obtain ⟨pre, heq, hpre⟩ := h.queue_suffix
    exact ⟨pre, heq, fun u hu => accept_accepted_subset l k fwd (hpre u hu)⟩
  acked_le := fun j u hw => h.acked_le j u hw.of_accept.1

/-- **A frame is accepted**, when its number is the one expected, modulo `M`. -/
theorem Inv.accept {M s : ℕ} {l : Link ι} {k : ι} {fwd : List (ι × ℕ)} (hfwd : l.fwd = (k, s) :: fwd)
    (hmod : s % M = l.peer % M) (h : l.Inv M) : (l.accept k fwd).Inv M := by
  have hn := h.numbering
  have hmem : (k, s) ∈ l.fwd := hfwd ▸ List.mem_cons_self
  have hsub : ∀ x ∈ fwd, x ∈ l.fwd := fun x hx => hfwd ▸ List.mem_cons_of_mem _ hx
  obtain rfl : s = l.peer := h.eq_peer_of_mod_eq hmem hmod
  obtain ⟨i, hget⟩ := List.mem_iff_getElem?.mp (h.mem_queue_of_peer_le hmem (Nat.le_refl _))
  have hle := hn.copy_le _ hmem i hget
  have hlt := hn.copy_lt _ hmem
  have hilt := lt_length_of_getElem? hget
  have hcopies := hn.copies
  rw [hfwd, List.pairwise_cons] at hcopies
  simp only at hle hlt
  have hnumbering : (l.accept k fwd).Numbering M := by
    refine ⟨hn.nodup, hn.acked_le, hn.size_le, hn.size_lt, fun x hx => hn.copy_le x (hsub x hx),
      fun x hx => hn.copy_gone x (hsub x hx), fun x hx => hn.copy_lt x (hsub x hx), ?_, hcopies.2⟩
    intro x hx
    have hnear := (hcopies.1 x hx).1
    simp only [Link.accept] at hnear ⊢
    omega
  obtain hs | ⟨r, hu⟩ := h.phase
  · have hfirst : ∀ j u, l.Waiting j u → i ≤ j := by
      intro j u hw
      have hlive := hs.live j u hw _ hmem (Nat.le_refl _) i hget
      simp only at hlive
      omega
    -- the frames that still wait are behind the one accepted
    have hbehind : ∀ j u, (l.accept k fwd).Waiting j u → i < j := by
      intro j u hw
      obtain ⟨hold, hne⟩ := hw.of_accept
      refine lt_of_le_of_ne (hfirst j u hold) ?_
      rintro rfl
      exact hne (Option.some.inj (hold.1.symm.trans hget))
    refine ⟨hnumbering, h.rule, h.order.accept hget hfirst, .inl ⟨?_, ?_, ?_, ?_, ?_⟩⟩
    · exact pairwise_last (Nat.le_succ _) hs.rev
    · simp only [Link.accept]
      omega
    · intro j u hw
      have hij := hbehind j u hw
      simp only [Link.accept]
      omega
    · intro j u hw x hx _ a ha
      have hij := hbehind j u hw
      have hbase := (hcopies.1 x hx).2 i a hget ha
      simp only [Link.accept] at hbase ⊢
      omega
    · simp only [Link.accept]
      omega
  · have hempty : ∀ j u, j ≤ i → l.queue[j]? = some u → u ∉ l.enq :=
      fun j u hji hj => hu.live _ hmem (Nat.le_refl _) i hget j u hji hj
    have hbehind : ∀ j u, l.Waiting j u → i < j := by
      intro j u hw
      by_contra hji
      exact hempty j u (Nat.not_lt.mp hji) hw.1 hw.2.1
    refine ⟨hnumbering, h.rule, h.order.accept hget fun j u hw => (hbehind j u hw).le,
      .inr ⟨r, hu.next_lt, hu.lt_next, hu.block, pairwise_last (Nat.le_succ _) hu.rev, ?_, .inr ?_⟩⟩
    · intro x hx hpeer
      exact hu.live x (hsub x hx) ((Nat.le_succ _).trans hpeer)
    · refine ⟨?_, ?_, ?_⟩
      · simp only [Link.accept]
        omega
      · intro j u hw
        have hij := hbehind j u hw.of_accept.1
        simp only [Link.accept]
        omega
      · simp only [Link.accept]
        omega

/-- **The receiver starts over at 0**, while nothing is on its way. -/
theorem Inv.reset {M : ℕ} {l : Link ι} (hfwd : l.fwd = []) (hrev : l.rev = []) (h : l.Inv M) :
    ∃ r, r % M = 0 ∧ Inv M { l with peer := r } := by
  have hn := h.numbering
  have hpos : 0 < M := lt_of_le_of_lt (Nat.zero_le _) hn.size_lt
  have hacked := hn.acked_le
  have horder : ∀ r, Order { l with peer := r } := fun _ =>
    ⟨h.order.enq_nodup, h.order.accepted_prefix, h.order.queue_suffix, h.order.acked_le⟩
  have hnumbering : ∀ r, Numbering M { l with peer := r } := fun _ =>
    ⟨hn.nodup, hn.acked_le, hn.size_le, hn.size_lt, hn.copy_le, hn.copy_gone, hn.copy_lt,
      fun x hx => absurd (hfwd ▸ hx) List.not_mem_nil, hn.copies⟩
  have hsize := hn.size_lt
  have hlen := hn.size_le
  by_cases hzero : l.next % M = 0
  · refine ⟨l.next, hzero, hnumbering _, h.rule, horder _, .inl ⟨?_, ?_, ?_, ?_, ?_⟩⟩
    · simp [hrev, next]
    · simp only [next]
      omega
    · intro i u hw
      have hle := h.order.acked_le i u hw
      simp only [next]
      omega
    · intro i u _ x hx
      exact absurd (hfwd ▸ hx) List.not_mem_nil
    · simp only [next]
      omega
  · have hlt := Nat.mod_lt l.next hpos
    have hle := Nat.mod_le l.next M
    refine ⟨l.next - l.next % M + M, ?_, hnumbering _, h.rule, horder _,
      .inr ⟨l.next - l.next % M + M, ?_, ?_, ?_, ?_, ?_, .inl rfl⟩⟩
    · rw [Nat.add_mod_right]
      exact Nat.sub_mod_eq_zero_of_mod_eq (Nat.mod_mod _ _).symm
    · change l.next < _
      omega
    · change _ < l.next + M
      omega
    · intro _
      change _ + l.next % M = l.next + M
      omega
    · simp [hrev]
    · intro x hx
      exact absurd (hfwd ▸ hx) List.not_mem_nil

/-! ## The sender is told a number -/

section Receive

variable {M r : ℕ} {l : Link ι} {rev : List ℕ}
variable (hrev : l.rev = r :: rev)

include hrev in
/-- What the sender is told is ahead of it by less than `M`. -/
theorem Inv.le_of_rev (h : l.Inv M) : l.next ≤ r ∧ r ≤ l.peer ∧ r < l.next + M := by
  have hpeer := h.peer_lt_next
  have hboth : l.next ≤ r ∧ r ≤ l.peer := by
    obtain hs | ⟨r0, hu⟩ := h.phase
    · have hpw := hs.rev
      rw [hrev, List.cons_append, List.pairwise_cons, List.pairwise_cons] at hpw
      exact ⟨hpw.1 r (by simp), hpw.2.1 l.peer (by simp)⟩
    · have hpw := hu.rev
      rw [hrev, List.cons_append, List.pairwise_cons, List.pairwise_cons] at hpw
      exact ⟨hu.next_lt.le.trans (hpw.1 r (by simp)), hpw.2.1 l.peer (by simp)⟩
  exact ⟨hboth.1, hboth.2, by omega⟩

include hrev in
/-- The rest of the numbers. -/
theorem rev_tail {a : ℕ} (h : (a :: (l.rev ++ [l.peer])).Pairwise (· ≤ ·)) :
    (r :: (rev ++ [l.peer])).Pairwise (· ≤ ·) := by
  rw [hrev, List.cons_append] at h
  exact (List.pairwise_cons.mp h).2

/-- The sender is told what it expects, and nothing changes. -/
def receiveSame (l : Link ι) (rev : List ℕ) : Link ι := { l with rev := rev }

include hrev in
theorem Inv.receiveSame (hr : r = l.next) (h : l.Inv M) : (l.receiveSame rev).Inv M where
  numbering := by
    have hn := h.numbering
    exact ⟨hn.nodup, hn.acked_le, hn.size_le, hn.size_lt, hn.copy_le, hn.copy_gone, hn.copy_lt,
      hn.peer_lt, hn.copies⟩
  rule := h.rule
  order := ⟨h.order.enq_nodup, h.order.accepted_prefix, h.order.queue_suffix, h.order.acked_le⟩
  phase := by
    obtain hs | ⟨r0, hu⟩ := h.phase
    · have htail := rev_tail hrev hs.rev
      rw [hr] at htail
      exact .inl ⟨htail, hs.peer_lt, hs.waiting, hs.live, hs.room⟩
    · have hlt := hu.next_lt
      have hle := (List.pairwise_cons.mp hu.rev).1 r (by simp [hrev])
      omega

/-- The sender is told a number that does not fit into the window, and numbers anew from there. -/
def receiveWrong (l : Link ι) (r : ℕ) (rev : List ℕ) : Link ι :=
  { l with rev := rev, base := r, acked := 0, size := 0 }

include hrev in
theorem Inv.receiveWrong (h : l.Inv M) : (l.receiveWrong r rev).Inv M := by
  have hn := h.numbering
  obtain ⟨hnext, hpeer, _⟩ := h.le_of_rev hrev
  have hbase : l.base ≤ r := l.base_le_next.trans hnext
  have hlt := h.peer_lt_next
  refine ⟨⟨hn.nodup, Nat.le_refl _, Nat.zero_le _, lt_of_le_of_lt (Nat.zero_le _) hn.size_lt, ?_, ?_,
    ?_, hn.peer_lt, hn.copies⟩, .inr ⟨Nat.zero_le _, fun i u hi => absurd hi (Nat.not_lt_zero i)⟩,
    ⟨h.order.enq_nodup, h.order.accepted_prefix, h.order.queue_suffix, fun _ _ _ => Nat.zero_le _⟩,
    .inl ⟨?_, ?_, ?_, ?_, ?_⟩⟩
  · intro x hx i hi
    exact (hn.copy_le x hx i hi).trans (Nat.add_le_add_right hbase i)
  · intro x hx hgone
    exact lt_of_lt_of_le (hn.copy_gone x hx hgone) hbase
  · intro x hx
    exact (hn.copy_lt x hx).trans (Nat.add_le_add_right hbase M)
  · obtain hs | ⟨r0, hu⟩ := h.phase
    · have htail := rev_tail hrev hs.rev
      exact htail
    · have htail := rev_tail hrev hu.rev
      exact htail
  · exact lt_of_lt_of_le hlt (Nat.add_le_add_right hnext M)
  · intro i u hw
    change l.peer ≤ r + i
    obtain hs | ⟨r0, hu⟩ := h.phase
    · have hle := hs.waiting i u hw
      omega
    · have hr := (List.pairwise_cons.mp hu.rev).1 r (by simp [hrev])
      obtain heq | ⟨_, hwait, _⟩ := hu.peer
      · omega
      · have hle := hwait i u hw
        omega
  · intro i u hw x hx hle j hj
    obtain hs | ⟨r0, hu⟩ := h.phase
    · exact hs.live i u hw x hx hle j hj
    · -- the copy carries nothing, and the frame that waits is behind it
      have hji : j < i := by
        by_contra hij
        exact hu.live x hx hle j hj i u (Nat.not_lt.mp hij) hw.1 hw.2.1
      change l.peer ≤ x.2 at hle
      change l.peer + j ≤ x.2 + i
      omega
  · change l.peer ≤ r + l.queue.length
    obtain hs | ⟨r0, hu⟩ := h.phase
    · have hroom := hs.room
      omega
    · have hr := (List.pairwise_cons.mp hu.rev).1 r (by simp [hrev])
      obtain heq | ⟨_, _, hroom⟩ := hu.peer
      · omega
      · omega

/-- The sender is told a number in the window, and what is before it counts as acknowledged. -/
def receiveValid (l : Link ι) (r : ℕ) (rev : List ℕ) : Link ι :=
  { l with rev := rev, acked := r - l.base }

include hrev in
theorem Inv.receiveValid (hr : r ≤ l.base + l.size) (h : l.Inv M) : (l.receiveValid r rev).Inv M := by
  have hn := h.numbering
  obtain ⟨hnext, hpeer, _⟩ := h.le_of_rev hrev
  have hbase : l.base ≤ r := l.base_le_next.trans hnext
  have hnext' : (l.receiveValid r rev).next = r := Nat.add_sub_cancel' hbase
  have hnumbering : (l.receiveValid r rev).Numbering M := by
    refine ⟨hn.nodup, ?_, hn.size_le, hn.size_lt, hn.copy_le, hn.copy_gone, hn.copy_lt, hn.peer_lt,
      hn.copies⟩
    change r - l.base ≤ l.size
    omega
  have horder : (∀ i u, l.Waiting i u → r ≤ l.base + i) → (l.receiveValid r rev).Order := by
    intro hle
    refine ⟨h.order.enq_nodup, h.order.accepted_prefix, h.order.queue_suffix, ?_⟩
    intro i u hw
    have hi := hle i u hw
    change r - l.base ≤ i
    omega
  obtain hs | ⟨r0, hu⟩ := h.phase
  · refine ⟨hnumbering, h.rule, horder fun i u hw => hpeer.trans (hs.waiting i u hw),
      .inl ⟨?_, hs.peer_lt, hs.waiting, hs.live, hs.room⟩⟩
    have htail := rev_tail hrev hs.rev
    rw [hnext']
    exact htail
  · have hr0 := (List.pairwise_cons.mp hu.rev).1 r (by simp [hrev])
    have hsize := hn.size_lt
    have hlen := hn.size_le
    -- the window holds nothing, for otherwise it would lie before `r0`
    obtain ⟨hne, hlt⟩ | ⟨_, hempty⟩ := h.rule
    · have hbefore := (hu.base_add_size_lt hn hne hlt).1
      omega
    · have hbehind : ∀ i u, l.Waiting i u → l.size ≤ i := by
        intro i u hw
        by_contra hi
        exact hempty i u (Nat.not_le.mp hi) hw.1 hw.2.1
      refine ⟨hnumbering, h.rule, horder ?_, .inl ⟨?_, ?_, ?_, ?_, ?_⟩⟩
      · intro i u hw
        have hi := hbehind i u hw
        omega
      · have htail := rev_tail hrev hu.rev
        rw [hnext']
        exact htail
      · change l.peer < l.base + M
        obtain heq | ⟨hlt, _⟩ := hu.peer
        · omega
        · exact hlt
      · intro i u hw
        have hi := hbehind i u hw
        change l.peer ≤ l.base + i
        obtain heq | ⟨_, hwait, _⟩ := hu.peer
        · omega
        · exact hwait i u hw
      · intro i u hw x hx hle j hj
        have hji : j < i := by
          by_contra hij
          exact hu.live x hx hle j hj i u (Nat.not_lt.mp hij) hw.1 hw.2.1
        change l.peer ≤ x.2 at hle
        change l.peer + j ≤ x.2 + i
        omega
      · change l.peer ≤ l.base + l.queue.length
        obtain heq | ⟨_, _, hroom⟩ := hu.peer
        · omega
        · exact hroom

end Receive

/-! ## The start -/

/-- **Nothing was sent yet**, and the receiver expects any number. -/
theorem Inv.init {M peer : ℕ} (hpeer : peer < M) :
    Inv M (⟨[], 0, 0, 0, [], [], peer, [], []⟩ : Link ι) := by
  refine ⟨⟨List.nodup_nil, Nat.le_refl _, Nat.le_refl _, lt_of_le_of_lt (Nat.zero_le _) hpeer, by simp,
    by simp, by simp, by simp, List.Pairwise.nil⟩, .inr ⟨Nat.zero_le _, by simp⟩,
    ⟨List.nodup_nil, List.prefix_rfl, ⟨[], by simp⟩, fun _ _ _ => Nat.zero_le _⟩, ?_⟩
  by_cases hzero : peer = 0
  · subst hzero
    refine .inl ⟨by simp [next], by simpa using hpeer, fun _ _ _ => Nat.zero_le _, by simp,
      Nat.zero_le _⟩
  · refine .inr ⟨peer, Nat.pos_of_ne_zero hzero, by simpa [next] using hpeer, ?_, by simp, by simp,
      .inl rfl⟩
    intro hne
    exact absurd (Nat.zero_mod M) hne

end Link
end Renumber
