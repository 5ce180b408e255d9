import Mathlib.Data.List.Basic
import Mathlib.Data.List.Infix
import Mathlib.Tactic.Common

/-!
# Frames in pieces

A device takes and gives frames in pieces, and a frame that was begun may be given up.  `Transfer` is one
piece: whether the frame before was given up, the data, and whether a frame ends with it.

* `Transfer.line` : the frames that a sequence of pieces puts on a line, the complete ones and those given
up.
* `Transfer.line_append` : a sequence may be cut anywhere.
* `Transfer.complete_line_single` : what one piece completes.

## What is on a line

A reader of the line knows what was begun and did not end, and with the next piece this is continued, or ended, or
given up.  Of a frame that is given up, the part that was already sent is on the line, and is not complete.

* `line` lists all frames in the order in which they end, each with whether it is complete.
* `rest` is what was begun, when all pieces are through.
* `complete` are the frames that somebody at the other end of the line receives.

A program that writes one piece at a time knows only this piece and what it has sent before.  With `line_append` the
whole sequence is the earlier part, and the piece behind it, from the `rest` of the earlier part on.
-/

set_option autoImplicit false

namespace Isdn4bsd

/-- A piece of a frame. -/
structure Transfer (α : Type) where
  /-- The frame that was begun is given up. -/
  abort : Bool
  data : List α
  /-- The frame ends after the data. -/
  last : Bool
  deriving DecidableEq, Repr

namespace Transfer

variable {α : Type}

/-- The frames on a line, and which of them are complete; `cur` is one that was begun. -/
def line (cur : List α) : List (Transfer α) → List (List α × Bool)
  | [] => []
  | t :: ts =>
    let head := if t.abort ∧ cur ≠ [] then [(cur, false)] else []
    let cur := (if t.abort then [] else cur) ++ t.data
    if t.last then head ++ (cur, true) :: line [] ts else head ++ line cur ts

/-- What was begun and did not end. -/
def rest (cur : List α) : List (Transfer α) → List α
  | [] => cur
  | t :: ts => if t.last then rest [] ts else rest ((if t.abort then [] else cur) ++ t.data) ts

/-- The complete frames of a line. -/
def complete (frames : List (List α × Bool)) : List (List α) :=
  (frames.filter Prod.snd).map Prod.fst

@[simp] theorem complete_nil : complete ([] : List (List α × Bool)) = [] := rfl

@[simp] theorem complete_append (frames frames' : List (List α × Bool)) :
    complete (frames ++ frames') = complete frames ++ complete frames' := by
  simp [complete]

@[simp] theorem complete_cons_true (data : List α) (frames : List (List α × Bool)) :
    complete ((data, true) :: frames) = data :: complete frames := by
  simp [complete]

@[simp] theorem complete_cons_false (data : List α) (frames : List (List α × Bool)) :
    complete ((data, false) :: frames) = complete frames := by
  simp [complete]

/-- **A sequence of pieces may be cut anywhere.** -/
theorem line_append (cur : List α) (ts ts' : List (Transfer α)) :
    line cur (ts ++ ts') = line cur ts ++ line (rest cur ts) ts' := by
  induction ts generalizing cur with
  | nil => simp [line, rest]
  | cons t ts ih =>
    simp only [List.cons_append, line, rest]
    split
    · simp [ih]
    · simp [ih]

theorem rest_append (cur : List α) (ts ts' : List (Transfer α)) :
    rest cur (ts ++ ts') = rest (rest cur ts) ts' := by
  induction ts generalizing cur with
  | nil => rfl
  | cons t ts ih =>
    simp only [List.cons_append, rest]
    split
    · exact ih []
    · exact ih _

/-- What one piece completes. -/
theorem complete_line_single (cur : List α) (t : Transfer α) :
    complete (line cur [t]) = if t.last then [(if t.abort then [] else cur) ++ t.data] else [] := by
  simp only [line]
  split <;> split <;> simp

end Transfer
end Isdn4bsd
