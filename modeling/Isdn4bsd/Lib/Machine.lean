import Mathlib.Data.List.Basic

/-!
# Machines that read and write

A machine takes a state and an input to the next state and some outputs, or it fails.

* `run` : a machine over some inputs.
* `run_append`, `run_flatten` : **inputs in pieces**: a run of runs is a run over all of it.
* `run_outputs` : a machine that does not fail where an invariant holds has a run, and the invariant at its
end.
* `run_eq_flatten` : the same for a machine that reads a list at once, where it agrees with a run.

## Inputs in pieces

A program that is given its inputs in blocks, of whatever length they come in, should not let it be seen where a block
ends.  If a block is worked on item by item, and everything that is kept between two items is in the state, then this is
so by itself, and `run_flatten` is all there is to say.

Mostly a function for a block does more: it has local variables, it works on several items at once, or it has
a part that is done once for each block.  Then there is a machine for one item to compare it with, and it has to be
shown that one block is a run of that machine.  This need only be so in states that can be reached, so the
comparison may use an invariant of the machine, and `run_eq_flatten` carries it along.

## Failing

A step that has no result stands for one that would read or write outside of an array, or compute a value that does
not fit.  That no step fails is an invariant like others, and it may be about what was written as well:
`run_outputs` has both in it.
-/

set_option autoImplicit false

namespace Isdn4bsd
namespace Machine

variable {σ ι ω : Type*} {step : σ → ι → Option (σ × List ω)}

/-- A run, with all that is written. -/
def run (step : σ → ι → Option (σ × List ω)) (s : σ) : List ι → Option (σ × List ω)
  | [] => some (s, [])
  | x :: xs => (step s x).bind fun p => (run step p.1 xs).map fun q => (q.1, p.2 ++ q.2)

@[simp] theorem run_nil (s : σ) : run step s [] = some (s, []) := rfl

theorem run_cons (s : σ) (x : ι) (xs : List ι) : run step s (x :: xs) =
    (step s x).bind fun p => (run step p.1 xs).map fun q => (q.1, p.2 ++ q.2) := rfl

theorem run_singleton (s : σ) (x : ι) : run step s [x] = step s x := by
  rw [run_cons]
  cases step s x <;> simp

/-- **Two pieces.** -/
theorem run_append (s : σ) (xs ys : List ι) : run step s (xs ++ ys) =
    (run step s xs).bind fun p => (run step p.1 ys).map fun q => (q.1, p.2 ++ q.2) := by
  induction xs generalizing s with
  | nil => simp
  | cons x xs ih =>
    rw [List.cons_append, run_cons, run_cons]
    cases hx : step s x with
    | none => rfl
    | some p =>
      rw [Option.bind_some, Option.bind_some, ih]
      cases run step p.1 xs with
      | none => rfl
      | some q => simp [List.append_assoc, Function.comp_def]

/-- **Any pieces.** -/
theorem run_flatten (s : σ) (xss : List (List ι)) :
    run (run step) s xss = run step s xss.flatten := by
  induction xss generalizing s with
  | nil => rfl
  | cons xs xss ih =>
    rw [List.flatten_cons, run_append, run_cons]
    simp only [ih]

/-- **A run does not fail** where an invariant of the state and of all that was written holds, and keeps
this invariant. -/
theorem run_outputs {P : σ → List ω → Prop}
    (hstep : ∀ s ws x, P s ws → ∃ s' ws', step s x = some (s', ws') ∧ P s' (ws ++ ws')) {s : σ}
    {ws : List ω} (hs : P s ws) (xs : List ι) :
    ∃ s' ws', run step s xs = some (s', ws') ∧ P s' (ws ++ ws') := by
  induction xs generalizing s ws with
  | nil => exact ⟨s, [], rfl, by rwa [List.append_nil]⟩
  | cons x xs ih =>
    obtain ⟨s₁, ws₁, h₁, hP₁⟩ := hstep s ws x hs
    obtain ⟨s₂, ws₂, h₂, hP₂⟩ := ih hP₁
    refine ⟨s₂, ws₁ ++ ws₂, ?_, by rwa [← List.append_assoc]⟩
    rw [run_cons, h₁, Option.bind_some, h₂]
    rfl

variable {P : σ → Prop}

/-- An invariant of the state alone. -/
theorem run_some (hstep : ∀ s x, P s → ∃ s' ws, step s x = some (s', ws) ∧ P s') {s : σ} (hs : P s)
    (xs : List ι) : ∃ s' ws, run step s xs = some (s', ws) ∧ P s' :=
  @run_outputs _ _ _ _ (fun s _ => P s) (fun s _ x h => hstep s x h) s [] hs xs

/-- **Calls that read a list each**, and agree with a run where the invariant holds. -/
theorem run_eq_flatten {α : Type*} {call : σ → α → Option (σ × List ω)} {data : α → List ι}
    (hstep : ∀ s x, P s → ∃ s' ws, step s x = some (s', ws) ∧ P s')
    (hcall : ∀ s a, P s → call s a = run step s (data a)) {s : σ} (hs : P s) (as : List α) :
    run call s as = run step s (as.map data).flatten := by
  rw [← run_flatten]
  induction as generalizing s with
  | nil => rfl
  | cons a as ih =>
    obtain ⟨s', ws, h, hP⟩ := run_some hstep hs (data a)
    rw [List.map_cons, run_cons, run_cons, hcall s a hs, h, Option.bind_some, Option.bind_some, ih hP]

end Machine
end Isdn4bsd
