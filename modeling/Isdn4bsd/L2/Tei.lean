import Isdn4bsd.L2.Cursor

/-!
# Layer 2: TEI values on a bus

In network mode on a bus a pipe gets its TEI from the controller (`dss1_get_unused_TEI`) or takes the
one that a terminal sends with, and keeps it when the pipe is not used any more.

* `Softc.dss1GetUnusedTei_eq_some`: the search for an unused value ends, because the values it tries
  are all different and there are more of them than pipes;
* `Softc.step_isSome`: **every event has a result**, in every state that can be reached;
* `Softc.teis_distinct`: no two pipes ever have the same TEI, and the adapter never has one.

The search is a loop made of `goto`: the last value is counted up, made one of the automatic ones, and tried
against all pipes.  The values come in a cycle of 64 (`nextTei_iterate`), and no two of them in a row are the
same (`nextTei_injOn`).  Sixteen pipes cannot hold all of them.

A terminal may also choose its value by itself.  Then a pipe that is unused takes it, but only after all pipes
were looked at for the same value, so this cannot make two pipes alike either.
-/

set_option autoImplicit false

namespace Isdn4bsd
namespace L2
namespace Softc

/-! ## The search for a value -/

/-- The values that are tried are the odd ones from `0x81` on. -/
theorem nextTei_eq (tei : Nat) : nextTei tei = 0x81 + 2 * ((tei + 1) % 128 / 2) := by
  have hodd : ∀ r : Fin 128, (r.val ||| 0x80) ||| 1 = 0x81 + 2 * (r.val / 2) := by
    decide
  exact hodd ⟨(tei + 1) % 128, Nat.mod_lt _ (by decide)⟩

/-- They come in order, and begin again after 64 of them. -/
theorem nextTei_iterate (tei k : Nat) :
    nextTei^[k + 1] tei = 0x81 + 2 * (((tei + 1) % 128 / 2 + k) % 64) := by
  induction k with
  | zero =>
    rw [Function.iterate_one, nextTei_eq]
    omega
  | succ k ih =>
    rw [Function.iterate_succ_apply', ih, nextTei_eq]
    omega

theorem nextTei_injOn (tei : Nat) : Set.InjOn (fun k => nextTei^[k + 1] tei) (Set.Iio 64) := by
  intro k hk l hl heq
  simp only [nextTei_iterate, Set.mem_Iio] at heq hk hl
  omega

/-- The search fails only if all the values it tried are taken. -/
theorem dss1GetUnusedTei_eq_none {fuel : Nat} {sc : Softc} (h : dss1GetUnusedTei fuel sc = none)
    {k : Nat} (hk : k < fuel) : ∃ p, (sc.pipe p).tei = nextTei^[k + 1] sc.teiLast := by
  induction fuel generalizing sc k with
  | zero => exact absurd hk (Nat.not_lt_zero k)
  | succ fuel ih =>
    simp only [dss1GetUnusedTei] at h
    split at h
    next htaken =>
      cases k with
      | zero => exact htaken
      | succ k => exact ih h (Nat.lt_of_succ_lt_succ hk)
    next => exact absurd h (by simp)

/-- The value found is one of those that are tried. -/
theorem dss1GetUnusedTei_teiLast {fuel : Nat} {sc sc' : Softc}
    (h : dss1GetUnusedTei fuel sc = some sc') : ∃ tei, sc'.teiLast = nextTei tei := by
  induction fuel generalizing sc with
  | zero => exact absurd h (by simp [dss1GetUnusedTei])
  | succ fuel ih =>
    simp only [dss1GetUnusedTei] at h
    split at h
    · exact ih h
    · obtain rfl := Option.some.inj h
      exact ⟨_, rfl⟩

/-- **The search ends.**  It tries 64 different values, and there are 16 pipes. -/
theorem dss1GetUnusedTei_isSome (sc : Softc) : (dss1GetUnusedTei teiRounds sc).isSome := by
  rw [Option.isSome_iff_ne_none]
  intro hnone
  choose! holder hholder using fun k (hk : k < teiRounds) => dss1GetUnusedTei_eq_none hnone hk
  have hinj : Set.InjOn holder (Finset.range 64) := by
    intro k hk l hl heq
    simp only [Finset.coe_range, Set.mem_Iio] at hk hl
    refine nextTei_injOn sc.teiLast hk hl ?_
    simp only [← hholder k hk, ← hholder l hl, heq]
  have hcard := Finset.card_le_card_of_injOn (t := Finset.univ) holder (fun _ _ => by simp) hinj
  simp at hcard

theorem dss1GetUnusedTei_pipe {fuel : Nat} {sc sc' : Softc}
    (h : dss1GetUnusedTei fuel sc = some sc') : sc'.pipe = sc.pipe := by
  induction fuel generalizing sc with
  | zero => exact absurd h (by simp [dss1GetUnusedTei])
  | succ fuel ih =>
    simp only [dss1GetUnusedTei] at h
    split at h
    · have hrest := ih h
      exact hrest
    · obtain rfl := Option.some.inj h
      rfl

/-- **What the search finds**, when the adapter has the TEI of a broadcast. -/
theorem dss1GetUnusedTei_eq_some {sc : Softc} (hadapter : (sc.pipe adapter).tei = teiBroadcast) :
    ∃ sc', dss1GetUnusedTei teiRounds sc = some sc' ∧ sc'.teiLast % 2 = 1 ∧ 0x81 ≤ sc'.teiLast ∧
      sc'.teiLast ≤ 0xfd ∧ ∀ p, (sc.pipe p).tei ≠ sc'.teiLast := by
  obtain ⟨sc', h⟩ := Option.isSome_iff_exists.mp (dss1GetUnusedTei_isSome sc)
  have hpipe := dss1GetUnusedTei_pipe h
  obtain ⟨tei, htei⟩ := dss1GetUnusedTei_teiLast h
  rw [nextTei_eq] at htei
  have hne := dss1GetUnusedTei_ne h
  rw [hpipe] at hne
  have hbroadcast := hne adapter
  rw [hadapter, teiBroadcast] at hbroadcast
  exact ⟨sc', h, by omega, by omega, by omega, hne⟩

/-! ## Every event has a result -/

theorem assignTei_isSome (env : Env) (sc : Softc) (p : PipeNo) (ri : Nat) :
    (sc.assignTei env p ri).isSome := by
  rw [assignTei, Option.isSome_map]
  exact dss1GetUnusedTei_isSome _

theorem dss1TeiRxFrame_isSome (env : Env) (sc : Softc) (buf : List UInt8) :
    (sc.dss1TeiRxFrame env buf).isSome := by
  have hrequest : ∀ ri, (sc.idRequest env ri).isSome := by
    intro ri
    rw [idRequest]
    split
    · rfl
    · simp only
      split
      · rfl
      · exact assignTei_isSome env _ _ ri
  simp only [dss1TeiRxFrame]
  repeat' split
  all_goals first | rfl | exact hrequest _

theorem dss1L2PutMbuf_isSome (env : Env) (sc : Softc) (buf : List UInt8) :
    (sc.dss1L2PutMbuf env buf).isSome := by
  simp only [dss1L2PutMbuf, receiveU]
  repeat' split
  all_goals first | rfl | exact dss1TeiRxFrame_isSome env _ buf

/-- **Every event has a result**, in every state that can be reached. -/
theorem step_isSome {env : Env} {sc : Softc} (hsc : Reachable env sc) (ev : Event) :
    (sc.step env ev).isSome := by
  cases ev with
  | putMbuf buf =>
    rw [step, Option.isSome_map]
    exact dss1L2PutMbuf_isSome env sc buf
  | getMbuf =>
    have hsound := (cursor_stable env).reachable hsc
    refine dss1L2GetMbuf_isSome ?_
    intro n sc1 p hvisit
    exact ((cursor_stable env).visit hvisit hsound).servePipe_isSome
  | getMbufTimeout p =>
    rw [step]
    split <;> rfl
  | setStateTimeout p =>
    rw [step]
    split <;> rfl
  | idRequestTimeout => rfl
  | down d => rfl
  | l1Activity up => rfl
  | detach => rfl

/-! ## Values of the pipes -/

/-- The TEI values, and the adapter without one. -/
def Teis (_ : PipeNo) (sc : Softc) : Prop :=
  sc.TeisOk ∧ (sc.Bus → ¬ (sc.pipe adapter).state.isTeiAssigned)

/-- Neither opening a window nor sending changes a TEI or a state. -/
theorem Teis.of_eq {sc sc' : Softc} {c : PipeNo} (h : Teis c sc) (hbus : sc'.Bus → sc.Bus)
    (htei : ∀ p, (sc'.pipe p).tei = (sc.pipe p).tei)
    (hstate : ∀ p, (sc'.pipe p).state = (sc.pipe p).state) : Teis c sc' := by
  refine ⟨h.1.of_eq hbus (fun _ => htei), ?_⟩
  intro hb
  rw [hstate]
  exact h.2 (hbus hb)

theorem teis_stable (env : Env) : Stable env fun c sc => Windows c sc ∧ Teis c sc := by
  refine (windows_stable env).and ?_ ?_ ?_ (fun h => h) (fun _ _ h => h) (fun _ h => h) ?_ ?_
  · intro nt ptp pri nse serial channels
    constructor
    · intro hb
      have hptp : ptp = false := hb.2
      subst hptp
      simp [setup, setupPipe]
    · intro _
      simp only [setup, setupPipe]
      decide
  · intro c sc sc' hf _ h
    refine ⟨hf.teis h.1, ?_⟩
    intro hb
    exact hf.adapter (hf.bus.mp hb) (h.2 (hf.bus.mp hb))
  · intro c sc p nr _ _ h
    constructor
    · refine h.1.of_eq id ?_
      intro _ q
      by_cases hq : q = p
      · subst hq
        rw [modify_pipe_self, Pipe.receiveNr_tei]
      · rw [modify_pipe_of_ne _ _ hq]
    · intro hb
      have ha := h.2 hb
      by_cases hp : adapter = p
      · subst hp
        rw [modify_pipe_self]
        exact Pipe.receiveNr_isTeiAssigned ha
      · rwa [modify_pipe_of_ne _ _ hp]
  · intro c sc sc' _ _ hopen hw h
    obtain ⟨zs, n', max, _, heq⟩ := reopen_of_windowOk env (hw.2 c)
    obtain rfl := Option.some.inj (heq.symm.trans hopen)
    refine h.of_eq id ?_ ?_
    · intro p
      by_cases hp : p = c
      · subst hp
        simp only [Function.update_self, Pipe.opened]
      · simp only [Function.update_of_ne hp]
    · intro p
      by_cases hp : p = c
      · subst hp
        simp only [Function.update_self, Pipe.opened]
      · simp only [Function.update_of_ne hp]
  · intro c sc sc' o _ _ _ hsend _ h
    obtain ⟨i, m, sc1, _, rfl, _, rfl, _⟩ := transmit_eq_some hsend
    split
    · refine h.of_eq id ?_ ?_
      · intro p
        by_cases hp : p = c
        · subst hp
          simp only [modify_pipe_self, Pipe.sendUnnumbered]
        · simp only [modify_pipe_of_ne _ _ hp]
      · intro p
        by_cases hp : p = c
        · subst hp
          simp only [modify_pipe_self, Pipe.sendUnnumbered]
        · simp only [modify_pipe_of_ne _ _ hp]
    · exact h

/-- **The TEI values on a bus.**  No two pipes but the adapter have the same value, unless it is that
of a broadcast; the adapter has that of a broadcast and never is in a state with a TEI; and the search
for an unused value ends with an odd one from `0x81` to `0xfd` that no pipe has, so that every event has
a result. -/
theorem teis_distinct {env : Env} {sc : Softc} (hsc : Reachable env sc) (hbus : sc.Bus) :
    (∀ p q, p ≠ adapter → q ≠ adapter → p ≠ q → (sc.pipe p).tei ≠ teiBroadcast →
      (sc.pipe p).tei ≠ (sc.pipe q).tei) ∧
    (sc.pipe adapter).tei = teiBroadcast ∧ ¬ (sc.pipe adapter).state.isTeiAssigned ∧
    (∀ sc1, Follows sc sc1 → ∃ sc', dss1GetUnusedTei teiRounds sc1 = some sc' ∧
      sc'.teiLast % 2 = 1 ∧ 0x81 ≤ sc'.teiLast ∧ sc'.teiLast ≤ 0xfd ∧
      ∀ p, (sc1.pipe p).tei ≠ sc'.teiLast) ∧
    ∀ ev, (sc.step env ev).isSome := by
  obtain ⟨_, hteis, hadapter⟩ := (teis_stable env).reachable hsc
  obtain ⟨hbroadcast, hdistinct⟩ := hteis hbus
  refine ⟨?_, hbroadcast, hadapter hbus, ?_, step_isSome hsc⟩
  · intro p q hp hq hpq hne heq
    exact hne (hdistinct p q hp hq hpq heq)
  · intro sc1 hf
    exact dss1GetUnusedTei_eq_some (hf.teis hteis (hf.bus.mpr hbus)).1

/-- It says so of a bus on which one terminal asked for a TEI and another came with its own. -/
theorem teis_distinct_assigned :
    let env : Env := ⟨fun _ => true, fun _ => [], fun _ => []⟩
    let evs : List Event := [.putMbuf [0xfc, 0xff, 0x03, 0x0f, 0x12, 0x34, 0x01, 0xff],
      .putMbuf [0x00, 0x40, 0x7f]]
    ∃ h : (run env (setup true false false false 0 2) evs).isSome,
    let sc := ((run env (setup true false false false 0 2) evs).get h).1
    (sc.pipe 1).tei = 0x81 ∧ (sc.pipe 2).tei = 0x40 ∧ (sc.pipe 1).tei ≠ (sc.pipe 2).tei := by
  refine ⟨by decide, by decide, by decide, ?_⟩
  exact (teis_distinct (Reachable.run (.setup _ _ _ _ _ _) _ _) (by decide)).1 1 2
    (by decide) (by decide) (by decide) (by decide)

end Softc
end L2
end Isdn4bsd
