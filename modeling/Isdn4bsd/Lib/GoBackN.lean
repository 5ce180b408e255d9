import Mathlib.Tactic

/-!
# Go-back-N

A sender has a queue of frames and sends the front of it, up to a window, as often as it likes. The frames
are numbered modulo `M`, the link keeps their order and may lose them, and the receiver accepts the frame
whose number it waits for. What it waits for it tells the sender now and then, over another such link.

The numbers here are not reduced: a frame is its place in the row of everything that ever was queued.

* `Sound` : the state of a sender, a receiver and two links of a run.
* `Sound.deliver` : **a frame is accepted iff it is the next one**, although only numbers modulo `M` are
compared.
* `Sound.ack` : what is acknowledged is a part of the window that was accepted.

## The invariant

The fields of `Sound` are inequalities between six things: how many frames were queued, freed and accepted,
how large the window is, and the numbers on both links.

* What is freed was accepted, and what was accepted has been in the window.
* A frame on its way lies before the end of the window, and is not more than `W` behind what was accepted.
* Frames on their way may be copies of any age, but a copy that was sent later is not more than `W` behind
one that was sent earlier.
* Acknowledgements on their way lie between what is freed and what was accepted, in order.

Nothing is said of how the sender chooses what it sends: it may send a window from its start, or any frame
of it, again and again.

## Numbers modulo `M`

The receiver compares numbers modulo `M`. Two numbers that agree are equal if they are less than `M` apart, and by the
above, whatever is on its way is at most `W` behind the next frame, and less than `W` ahead of it. So all that is needed
is `W < M`. The sender compares as well, and what it is told lies in its window.
-/

set_option autoImplicit false

namespace GoBackN

/-- Two numbers less than `M` apart are the same if they are the same modulo `M`. -/
theorem eq_of_mod_eq {M i j : ℕ} (h : i % M = j % M) (hij : i < j + M) (hji : j < i + M) : i = j := by
  rcases Nat.le_total i j with hle | hle
  · have hd : (j - i) % M = 0 := Nat.sub_mod_eq_zero_of_mod_eq h.symm
    rw [Nat.mod_eq_of_lt (by omega)] at hd
    omega
  · have hd : (i - j) % M = 0 := Nat.sub_mod_eq_zero_of_mod_eq h
    rw [Nat.mod_eq_of_lt (by omega)] at hd
    omega

/-- With windows of at most `W` frames: `queued` frames were queued, of which `freed` are acknowledged and
`got` are accepted; `fwd` are the frames on their way, and `back` what is told to the sender. -/
structure Sound (W queued freed window got : ℕ) (fwd back : List ℕ) : Prop where
  window_le : window ≤ W
  window_queued : freed + window ≤ queued
  freed_le : freed ≤ got
  got_le : got ≤ freed + window
  fwd_lt : ∀ j ∈ fwd, j < freed + window
  fwd_ge : ∀ j ∈ fwd, got ≤ j + W
  fwd_order : fwd.Pairwise fun i j => i < j + W
  back_ge : ∀ r ∈ back, freed ≤ r
  back_le : ∀ r ∈ back, r ≤ got
  back_order : back.Pairwise (· ≤ ·)

namespace Sound

variable {W queued freed window got : ℕ} {fwd back : List ℕ}

theorem start (W : ℕ) : Sound W 0 0 0 0 [] [] where
  window_le := Nat.zero_le _
  window_queued := le_rfl
  freed_le := le_rfl
  got_le := le_rfl
  fwd_lt := fun _ h => absurd h List.not_mem_nil
  fwd_ge := fun _ h => absurd h List.not_mem_nil
  fwd_order := .nil
  back_ge := fun _ h => absurd h List.not_mem_nil
  back_le := fun _ h => absurd h List.not_mem_nil
  back_order := .nil

/-- More frames are queued. -/
theorem enqueue (h : Sound W queued freed window got fwd back) {queued' : ℕ} (hq : queued ≤ queued') :
    Sound W queued' freed window got fwd back :=
  { h with window_queued := h.window_queued.trans hq }

/-- The window is opened. -/
theorem openWindow (h : Sound W queued freed window got fwd back) {window' : ℕ}
    (hle : window ≤ window') (hW : window' ≤ W) (hq : freed + window' ≤ queued) :
    Sound W queued freed window' got fwd back :=
  { h with
    window_le := hW
    window_queued := hq
    got_le := by have := h.got_le; omega
    fwd_lt := fun j hj => by have := h.fwd_lt j hj; omega }

/-- A frame of the window is sent. -/
theorem transmit (h : Sound W queued freed window got fwd back) {j : ℕ} (hj : freed ≤ j)
    (hlt : j < freed + window) : Sound W queued freed window got (fwd ++ [j]) back :=
  { h with
    fwd_lt := fun i hi => by
      rcases List.mem_append.1 hi with hi | hi
      · exact h.fwd_lt i hi
      · rw [List.mem_singleton.1 hi]
        exact hlt
    fwd_ge := fun i hi => by
      rcases List.mem_append.1 hi with hi | hi
      · exact h.fwd_ge i hi
      · rw [List.mem_singleton.1 hi]
        have hgot := h.got_le
        have hW := h.window_le
        omega
    fwd_order := by
      refine List.pairwise_append.2 ⟨h.fwd_order, List.pairwise_singleton _ _, fun i hi k hk => ?_⟩
      rw [List.mem_singleton.1 hk]
      have hlt' := h.fwd_lt i hi
      have hW := h.window_le
      omega }

/-- Frames of the window are sent. -/
theorem transmitAll (h : Sound W queued freed window got fwd back) {js : List ℕ}
    (hjs : ∀ j ∈ js, freed ≤ j ∧ j < freed + window) :
    Sound W queued freed window got (fwd ++ js) back := by
  induction js generalizing fwd with
  | nil => rwa [List.append_nil]
  | cons j js ih =>
    obtain ⟨hge, hlt⟩ := hjs j List.mem_cons_self
    have hall := ih (h.transmit hge hlt) fun i hi => hjs i (List.mem_cons_of_mem j hi)
    rwa [List.append_assoc] at hall

/-- Frames and acknowledgements are lost. -/
theorem lose (h : Sound W queued freed window got fwd back) {fwd' back' : List ℕ}
    (hf : fwd'.Sublist fwd) (hb : back'.Sublist back) :
    Sound W queued freed window got fwd' back' :=
  { h with
    fwd_lt := fun j hj => h.fwd_lt j (hf.subset hj)
    fwd_ge := fun j hj => h.fwd_ge j (hf.subset hj)
    fwd_order := h.fwd_order.sublist hf
    back_ge := fun r hr => h.back_ge r (hb.subset hr)
    back_le := fun r hr => h.back_le r (hb.subset hr)
    back_order := h.back_order.sublist hb }

/-- **The next frame is accepted.** -/
theorem accept {j : ℕ} (h : Sound W queued freed window got (j :: fwd) back) (hj : j = got) :
    Sound W queued freed window (got + 1) fwd back := by
  obtain ⟨hhead, htail⟩ := List.pairwise_cons.1 h.fwd_order
  exact
    { h with
      freed_le := h.freed_le.trans (Nat.le_succ got)
      got_le := by
        have := h.fwd_lt j List.mem_cons_self
        omega
      fwd_lt := fun i hi => h.fwd_lt i (List.mem_cons_of_mem j hi)
      fwd_ge := fun i hi => by
        have := hhead i hi
        omega
      fwd_order := htail
      back_le := fun r hr => (h.back_le r hr).trans (Nat.le_succ got) }

/-- A frame has the number the receiver waits for iff it is the next one. -/
theorem next_iff {j M : ℕ} (h : Sound W queued freed window got (j :: fwd) back) (hM : W < M) :
    j % M = got % M ↔ j = got := by
  refine ⟨fun hmod => eq_of_mod_eq hmod ?_ ?_, fun hj => by rw [hj]⟩
  · have hlt := h.fwd_lt j List.mem_cons_self
    have hW := h.window_le
    have hfreed := h.freed_le
    omega
  · have := h.fwd_ge j List.mem_cons_self
    omega

/-- **A frame is accepted iff it is the next one.** -/
theorem deliver {j M : ℕ} (h : Sound W queued freed window got (j :: fwd) back) (hM : W < M) :
    Sound W queued freed window (if j % M = got % M then got + 1 else got) fwd back := by
  split
  · rename_i hmod
    exact h.accept ((h.next_iff hM).1 hmod)
  · exact h.lose (List.sublist_cons_self j fwd) (List.Sublist.refl back)

/-- The receiver tells what it waits for. -/
theorem answer (h : Sound W queued freed window got fwd back) :
    Sound W queued freed window got fwd (back ++ [got]) :=
  { h with
    back_ge := fun r hr => by
      rcases List.mem_append.1 hr with hr | hr
      · exact h.back_ge r hr
      · rw [List.mem_singleton.1 hr]
        exact h.freed_le
    back_le := fun r hr => by
      rcases List.mem_append.1 hr with hr | hr
      · exact h.back_le r hr
      · rw [List.mem_singleton.1 hr]
    back_order := by
      refine List.pairwise_append.2 ⟨h.back_order, List.pairwise_singleton _ _, fun r hr k hk => ?_⟩
      rw [List.mem_singleton.1 hk]
      exact h.back_le r hr }

/-- What is acknowledged lies in the window. -/
theorem ack_le {r : ℕ} (h : Sound W queued freed window got fwd (r :: back)) :
    freed ≤ r ∧ r ≤ freed + window :=
  ⟨h.back_ge r List.mem_cons_self, (h.back_le r List.mem_cons_self).trans h.got_le⟩

/-- **The sender frees what was accepted.** -/
theorem ack {r : ℕ} (h : Sound W queued freed window got fwd (r :: back)) :
    Sound W queued r (window - (r - freed)) got fwd back := by
  obtain ⟨hge, hle⟩ := h.ack_le
  have hsum : r + (window - (r - freed)) = freed + window := by omega
  obtain ⟨hhead, htail⟩ := List.pairwise_cons.1 h.back_order
  exact
    { window_le := (Nat.sub_le _ _).trans h.window_le
      window_queued := hsum ▸ h.window_queued
      freed_le := h.back_le r List.mem_cons_self
      got_le := hsum ▸ h.got_le
      fwd_lt := fun j hj => hsum ▸ h.fwd_lt j hj
      fwd_ge := h.fwd_ge
      fwd_order := h.fwd_order
      back_ge := hhead
      back_le := fun k hk => h.back_le k (List.mem_cons_of_mem r hk)
      back_order := htail }

end Sound

end GoBackN
