import Mathlib.Logic.Function.Basic
import Mathlib.Data.List.Basic
import Mathlib.Order.Basic

/-!
# Memory, by ranges

* `slice` : what is in a range of addresses.
* `store` : values are written one behind the other.
* `Fifo` : a bounded queue, for what a ring of memory stands for.

## Ranges

A memory is a function from addresses, and a range of it is a list.  Programs write a piece here and a piece
there, and what is wanted afterwards is that the pieces are behind each other, and that what was not written to is
still the same.

* `slice_append` puts two ranges together that follow each other, and `store_append` two pieces that are written.
* `slice_store_self` reads what was written.
* `slice_store_of_disjoint` reads what was not.

With these, a proof about pointers needs the addresses only to see where the ranges are, and that is arithmetic.

## A bounded queue

What a buffer is for can be said without memory: some values are waiting, values are put behind them as long as
there is room, and values are taken from the front.  `Fifo` is that as a relation between two lists, with what was put
and what was taken; a step that does neither is one of putting nothing.
-/

set_option autoImplicit false

namespace Isdn4bsd
namespace Memory

variable {α : Type*}

/-- What is in the `n` addresses from `a` on. -/
def slice (mem : ℕ → α) (a : ℕ) : ℕ → List α
  | 0 => []
  | n + 1 => mem a :: slice mem (a + 1) n

/-- The values are written, from an address on. -/
def store (mem : ℕ → α) (p : ℕ) : List α → ℕ → α
  | [] => mem
  | x :: xs => store (Function.update mem p x) (p + 1) xs

@[simp] theorem length_slice (mem : ℕ → α) (a n : ℕ) : (slice mem a n).length = n := by
  induction n generalizing a with
  | zero => rfl
  | succ n ih => rw [slice, List.length_cons, ih]

/-- Two ranges, one behind the other. -/
theorem slice_append (mem : ℕ → α) (a m n : ℕ) :
    slice mem a m ++ slice mem (a + m) n = slice mem a (m + n) := by
  induction m generalizing a with
  | zero => simp [slice]
  | succ m ih =>
    rw [Nat.add_right_comm, slice, slice, List.cons_append, ← ih (a + 1), Nat.add_right_comm a 1 m]
    rfl

theorem slice_congr {mem mem' : ℕ → α} {a n : ℕ} (h : ∀ i, a ≤ i → i < a + n → mem i = mem' i) :
    slice mem a n = slice mem' a n := by
  induction n generalizing a with
  | zero => rfl
  | succ n ih =>
    rw [slice, slice, h a (Nat.le_refl a) (by omega), ih fun i hi hi' => h i (by omega) (by omega)]

/-- What is written is in its range, and nothing else is changed. -/
theorem store_of_outside (mem : ℕ → α) {p i : ℕ} {xs : List α} (h : i < p ∨ p + xs.length ≤ i) :
    store mem p xs i = mem i := by
  induction xs generalizing mem p with
  | nil => rfl
  | cons x xs ih =>
    rw [List.length_cons] at h
    rw [store, ih _ (by omega), Function.update_of_ne (by omega)]

/-- What is written behind what was written. -/
theorem store_append (mem : ℕ → α) (p : ℕ) (xs ys : List α) :
    store (store mem p xs) (p + xs.length) ys = store mem p (xs ++ ys) := by
  induction xs generalizing mem p with
  | nil => rfl
  | cons x xs ih =>
    rw [List.length_cons, store, List.cons_append, store, ← ih, Nat.add_right_comm]
    rfl

theorem slice_store_self (mem : ℕ → α) (p : ℕ) (xs : List α) :
    slice (store mem p xs) p xs.length = xs := by
  induction xs generalizing mem p with
  | nil => rfl
  | cons x xs ih =>
    rw [List.length_cons, slice, store, ih, store_of_outside _ (.inl (Nat.lt_succ_self p)),
      Function.update_self]

theorem slice_store_of_disjoint (mem : ℕ → α) {p a n : ℕ} {xs : List α}
    (h : a + n ≤ p ∨ p + xs.length ≤ a) : slice (store mem p xs) a n = slice mem a n :=
  slice_congr fun _ hi hi' => store_of_outside mem (by omega)

end Memory

/-! ## A bounded queue -/

/-- What may happen to a queue with so many places: values are put at its end, or taken from its start. -/
inductive Fifo {α : Type*} (capacity : ℕ) : List α → List α → List α → List α → Prop
  | put {q xs : List α} (h : (q ++ xs).length ≤ capacity) : Fifo capacity q xs [] (q ++ xs)
  | take {q ys : List α} : Fifo capacity (ys ++ q) [] ys q

end Isdn4bsd
