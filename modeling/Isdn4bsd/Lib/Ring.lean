import Mathlib.Logic.Function.Basic
import Mathlib.Data.List.Basic
import Mathlib.Tactic.SplitIfs

/-!
# Rings

An array of `n` cells that is read and written in turn, with the first cell behind the last one.  The cells
from one position up to another one stand for a list.

* `next`, `index`, `dist` : positions, and how far they are apart.
* `contents` : the list from a position on.
* `contents_push` : **a cell that is written** behind the list is its new last element.
* `contents_update_first` : **a cell that is written at the start** is the new first element.

The position for reading may be anywhere, and the list may wrap around the end of the array, so a cell of the list is
named by how far it is from the start (`index`).  Different distances below `n` are different cells (`index_inj`), and
this is the one fact about the wrapping that is ever used.

With two positions and no count, a ring that is empty and one that is full look the same.  A writer that wants to
tell them apart leaves one cell free: `dist_of_next_eq`.
-/

set_option autoImplicit false

namespace Isdn4bsd
namespace Ring

variable {α : Type*} {n i o k len : ℕ}

/-- The next position. -/
def next (n i : ℕ) : ℕ := if i + 1 < n then i + 1 else 0

/-- The position so many cells further. -/
def index (n i k : ℕ) : ℕ := if i + k < n then i + k else i + k - n

/-- How many cells one position is behind another one. -/
def dist (n i o : ℕ) : ℕ := if i ≤ o then o - i else n + o - i

/-- So many cells, from a position on. -/
def contents (a : ℕ → α) (n i : ℕ) : ℕ → List α
  | 0 => []
  | len + 1 => a i :: contents a n (next n i) len

theorem next_lt (h : i < n) : next n i < n := by
  rw [next]
  split_ifs <;> omega

theorem index_zero (hi : i < n) : index n i 0 = i := if_pos hi

theorem index_next (hi : i < n) (hk : k < n) : index n (next n i) k = index n i (k + 1) := by
  rw [index, index, next]
  split_ifs <;> omega

theorem index_inj (hk : k < n) (hlen : len < n) (h : index n i k = index n i len) :
    k = len := by
  rw [index, index] at h
  split_ifs at h <;> omega

theorem dist_lt (hi : i < n) (ho : o < n) : dist n i o < n := by
  rw [dist]
  split_ifs <;> omega

theorem dist_self (n i : ℕ) : dist n i i = 0 := by
  rw [dist, if_pos (Nat.le_refl i), Nat.sub_self]

/-- The end of the list. -/
theorem index_dist (hi : i < n) (ho : o < n) : index n i (dist n i o) = o := by
  rw [index, dist]
  split_ifs <;> omega

theorem dist_next_left (hi : i < n) (ho : o < n) (h : i ≠ o) :
    dist n i o = dist n (next n i) o + 1 := by
  rw [dist, dist, next]
  split_ifs <;> omega

theorem dist_next_right (hi : i < n) (ho : o < n) (h : next n o ≠ i) :
    dist n i (next n o) = dist n i o + 1 := by
  rw [next] at h ⊢
  rw [dist, dist]
  split_ifs at h ⊢ <;> omega

/-- The ring is full but for one cell. -/
theorem dist_of_next_eq (hi : i < n) (ho : o < n) (h : next n o = i) : dist n i o + 1 = n := by
  rw [next] at h
  rw [dist]
  split_ifs at h ⊢ <;> omega

theorem length_contents (a : ℕ → α) (n i len : ℕ) : (contents a n i len).length = len := by
  induction len generalizing i with
  | zero => rfl
  | succ len ih => rw [contents, List.length_cons, ih]

theorem contents_congr {a b : ℕ → α} (hi : i < n) (hlen : len ≤ n)
    (h : ∀ k < len, a (index n i k) = b (index n i k)) :
    contents a n i len = contents b n i len := by
  induction len generalizing i with
  | zero => rfl
  | succ len ih =>
    have h0 : a i = b i := by
      have := h 0 (Nat.succ_pos len)
      rwa [index_zero hi] at this
    rw [contents, contents, h0, ih (next_lt hi) (by omega)]
    intro k hk
    rw [index_next hi (by omega)]
    exact h (k + 1) (by omega)

theorem contents_concat (a : ℕ → α) (hi : i < n) (hlen : len < n) :
    contents a n i (len + 1) = contents a n i len ++ [a (index n i len)] := by
  induction len generalizing i with
  | zero => rw [index_zero hi]; rfl
  | succ len ih =>
    rw [contents, ih (next_lt hi) (by omega), index_next hi (by omega)]
    rfl

/-- **A cell that is written behind the list** is its new last element, if there is room. -/
theorem contents_push (a : ℕ → α) (hi : i < n) (ho : o < n) (h : next n o ≠ i) (x : α) :
    contents (Function.update a o x) n i (dist n i (next n o)) = contents a n i (dist n i o) ++ [x] := by
  have hnext := dist_next_right hi ho h
  have hlt := dist_lt hi (next_lt ho)
  rw [hnext, contents_concat _ hi (by omega), index_dist hi ho, Function.update_self]
  congr 1
  refine contents_congr hi (by omega) fun k hk => Function.update_of_ne (fun heq => ?_) _ _
  have := index_inj (by omega) (by omega) (heq.trans (index_dist hi ho).symm)
  omega

/-- **A cell that is written at the start** is the new first element. -/
theorem contents_update_first (a : ℕ → α) (hi : i < n) (hlen : len < n) (x : α) :
    contents (Function.update a i x) n i (len + 1) = x :: contents a n (next n i) len := by
  rw [contents, Function.update_self]
  congr 1
  refine contents_congr (next_lt hi) (Nat.le_of_lt hlen) fun k hk => Function.update_of_ne (fun heq => ?_) _ _
  rw [index_next hi (by omega)] at heq
  have := index_inj (by omega) (by omega) (heq.trans (index_zero hi).symm)
  omega

end Ring
end Isdn4bsd
