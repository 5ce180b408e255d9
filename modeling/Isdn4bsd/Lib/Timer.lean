import Mathlib.Tactic

/-!
# A timer that checks for activity

Seconds go by, now and then there is activity, and now and then a timer fires.  Some of these times are
checks: then something ends if there was no activity for a while.

* `now`, `last` : the time after some events, and that of the last activity.
* `Busy`, `Idles` : what a check finds.
* `First`, `Outcome` : **the end comes at the first check that finds no activity, and at no other time**.
* `Waiting` : so many checks were made, and all of them found activity.

## Time

Time is counted in seconds, and several things may happen within one of them, in an order; an event is one of these
things, or that a second is over.  When the timer fires is not said: it is for the program to set it, and a
run is one in which it fires when it was set to.

## Checks

The times of the checks are given as a sequence that increases.  They may be computed from a period and something
that was known at the start, as for someone who pays for units of time and would like to end shortly before
the next one begins.

* `Busy` and `Idles` speak of a time at which the timer fired; they are about the events before that, also when
more of them follow.
* `Waiting` is the state of a run in which no check has found anything to end, with the number of the next check.
A check that finds activity is one step of it, and one that does not is the end.

From `Waiting`, or from the end, follows `Outcome`.  It says both that nothing ends too early, and that it does end.
-/

set_option autoImplicit false

namespace Timer

/-- What happens. -/
inductive Event where
  | activity
  /-- A second is over. -/
  | tick
  /-- The timer fires. -/
  | fire
  deriving DecidableEq, Repr

/-- The time, and when there was activity, or it all began. -/
def step (c : ℤ × ℤ) : Event → ℤ × ℤ
  | .activity => (c.1, c.1)
  | .tick => (c.1 + 1, c.2)
  | .fire => c

/-- The time after some events. -/
def now (t0 : ℤ) (es : List Event) : ℤ := (es.foldl step (t0, t0)).1

/-- The time of the last activity. -/
def last (t0 : ℤ) (es : List Event) : ℤ := (es.foldl step (t0, t0)).2

variable {t0 idle : ℤ} {x : ℕ → ℤ} {es pre : List Event} {e : Event} {k : ℕ}

@[simp] theorem now_nil : now t0 [] = t0 := rfl

@[simp] theorem last_nil : last t0 [] = t0 := rfl

theorem now_concat (t0 : ℤ) (es : List Event) (e : Event) :
    now t0 (es ++ [e]) = (step (now t0 es, last t0 es) e).1 := by
  rw [now, List.foldl_concat]
  rfl

theorem last_concat (t0 : ℤ) (es : List Event) (e : Event) :
    last t0 (es ++ [e]) = (step (now t0 es, last t0 es) e).2 := by
  rw [last, List.foldl_concat]
  rfl

/-- The timer fires in more events if it did so before, or does now. -/
theorem fire_prefix_concat :
    pre ++ [.fire] <+: es ++ [e] ↔ (pre = es ∧ e = .fire) ∨ pre ++ [.fire] <+: es := by
  rw [List.prefix_concat_iff]
  refine or_congr_left ⟨fun h => ?_, fun ⟨hp, he⟩ => by rw [hp, he]⟩
  obtain ⟨hp, he⟩ := List.append_inj' h rfl
  exact ⟨hp, (List.singleton_inj.mp he).symm⟩

/-! ## Checks -/

/-- The timer fired at this time, and there was activity not long ago. -/
structure Busy (t0 idle : ℤ) (es : List Event) (x : ℤ) : Prop where
  fired : ∃ pre, pre ++ [.fire] <+: es ∧ now t0 pre = x
  active : ∀ pre, pre ++ [.fire] <+: es → now t0 pre = x → x - last t0 pre < idle

/-- The timer fired at this time, and there was no activity for long enough. -/
def Idles (t0 idle : ℤ) (es : List Event) (x : ℤ) : Prop :=
  ∃ pre, pre ++ [.fire] <+: es ∧ now t0 pre = x ∧ idle ≤ x - last t0 pre

/-- This check was the first one that found no activity. -/
structure First (t0 idle : ℤ) (x : ℕ → ℤ) (es : List Event) (k : ℕ) : Prop where
  idles : Idles t0 idle es (x k)
  busy : ∀ j < k, Busy t0 idle es (x j)

/-- **The end comes at the first check that finds no activity, and at no other time**: with `x` for the
times of the checks and `ends` for the times at which an end was made. -/
inductive Outcome (t0 idle : ℤ) (x : ℕ → ℤ) (es : List Event) (ends : List ℤ) : Prop where
  /-- All checks so far found activity. -/
  | up (none : ends = []) (busy : ∀ k, x k < now t0 es → Busy t0 idle es (x k))
  | ended (k : ℕ) (once : ends = [x k]) (first : First t0 idle x es k)

/-- A time at which the timer does not fire now is as it was. -/
theorem Busy.concat {y : ℤ} (h : Busy t0 idle es y) (he : e = .fire → now t0 es ≠ y) :
    Busy t0 idle (es ++ [e]) y := by
  obtain ⟨pre, hpre, hnow⟩ := h.fired
  refine ⟨⟨pre, fire_prefix_concat.mpr (.inr hpre), hnow⟩, fun pre' hpre' hnow' => ?_⟩
  rcases fire_prefix_concat.mp hpre' with ⟨rfl, hfire⟩ | hpre'
  · exact absurd hnow' (he hfire)
  · exact h.active pre' hpre' hnow'

theorem Idles.concat {y : ℤ} (h : Idles t0 idle es y) (e : Event) : Idles t0 idle (es ++ [e]) y := by
  obtain ⟨pre, hpre, hnow, hidle⟩ := h
  exact ⟨pre, fire_prefix_concat.mpr (.inr hpre), hnow, hidle⟩

/-- After the end the timer does not fire. -/
theorem First.concat (h : First t0 idle x es k) (he : e ≠ .fire) : First t0 idle x (es ++ [e]) k :=
  ⟨h.idles.concat e, fun j hj => (h.busy j hj).concat fun hf => absurd hf he⟩

/-- So many checks were made, all of them found activity, and the next one is to come. -/
structure Waiting (t0 idle : ℤ) (x : ℕ → ℤ) (es : List Event) (k : ℕ) : Prop where
  busy : ∀ j < k, Busy t0 idle es (x j)
  before : ∀ pre, pre ++ [.fire] <+: es → now t0 pre < x k

theorem waiting_nil : Waiting t0 idle x [] 0 :=
  ⟨fun _ h => absurd h (Nat.not_lt_zero _), fun _ h => absurd (List.prefix_nil.mp h) (by simp)⟩

namespace Waiting

/-- No check is made. -/
theorem concat (h : Waiting t0 idle x es k)
    (he : e = .fire → (∀ j < k, x j ≠ now t0 es) ∧ now t0 es < x k) :
    Waiting t0 idle x (es ++ [e]) k := by
  refine ⟨fun j hj => (h.busy j hj).concat fun hf => ((he hf).1 j hj).symm, fun pre hpre => ?_⟩
  rcases fire_prefix_concat.mp hpre with ⟨rfl, hfire⟩ | hpre
  · exact (he hfire).2
  · exact h.before pre hpre

theorem concat_of_ne (h : Waiting t0 idle x es k) (he : e ≠ .fire) : Waiting t0 idle x (es ++ [e]) k :=
  h.concat fun hf => absurd hf he

/-- The next check finds activity. -/
theorem check (h : Waiting t0 idle x es k) (hx : StrictMono x) (hnow : now t0 es = x k)
    (hactive : x k - last t0 es < idle) : Waiting t0 idle x (es ++ [.fire]) (k + 1) := by
  have hnext : x k < x (k + 1) := hx (Nat.lt_succ_self k)
  refine ⟨fun j hj => ?_, fun pre hpre => ?_⟩
  · rcases Nat.lt_succ_iff_lt_or_eq.mp hj with hj | rfl
    · exact (h.busy j hj).concat fun _ => by rw [hnow]; exact (hx hj).ne'
    · refine ⟨⟨es, List.prefix_rfl, hnow⟩, fun pre hpre hpx => ?_⟩
      rcases fire_prefix_concat.mp hpre with ⟨rfl, -⟩ | hpre
      · exact hactive
      · exact absurd hpx (h.before pre hpre).ne
  · rcases fire_prefix_concat.mp hpre with ⟨rfl, -⟩ | hpre
    · rw [hnow]
      exact hnext
    · exact (h.before pre hpre).trans hnext

/-- The next check finds no activity. -/
theorem first (h : Waiting t0 idle x es k) (hx : StrictMono x) (hnow : now t0 es = x k)
    (hidle : idle ≤ x k - last t0 es) : First t0 idle x (es ++ [.fire]) k :=
  ⟨⟨es, List.prefix_rfl, hnow, hidle⟩,
    fun j hj => (h.busy j hj).concat fun _ => by rw [hnow]; exact (hx hj).ne'⟩

/-- There is no end while the next check is to come. -/
theorem outcome (h : Waiting t0 idle x es k) (hx : StrictMono x) (hnow : now t0 es ≤ x k) :
    Outcome t0 idle x es [] := by
  refine .up rfl fun j hj => h.busy j ?_
  by_contra hge
  have hle : x k ≤ x j := hx.monotone (Nat.le_of_not_lt hge)
  omega

end Waiting

end Timer
