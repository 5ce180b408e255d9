import Mathlib.Data.List.Basic
import Mathlib.Order.Basic

/-!
# Chains of nodes

Nodes are allocated one behind the other, and each may point to another one.

* `Chain` : the values that are found from an address on.
* `linked` : nodes that were allocated in a row, each of which points to the next one.

## Memory that only grows

The nodes are a list, and an address is a place in it.  A pointer always leads to a node that was
allocated later, so a chain ends, and it can have no more values than there are nodes from its address on
(`Chain.length_le`); a loop that follows the pointers therefore needs no more rounds than that.

What is allocated afterwards has addresses of its own, and no chain that was there before is touched by it
(`Chain.append`).  What is not in here is to write to a node, or to make its pointer lead somewhere else:
that concerns the chains it is in, and which these are has to be known.

`linked` is for nodes that are filled and linked while they are allocated.  The last one of them points
nowhere, until another one is allocated behind it.
-/

set_option autoImplicit false

namespace Isdn4bsd
namespace Chains

variable {α : Type*}

/-- A value, and where the next one is. -/
structure Node (α : Type*) where
  val : α
  next : Option ℕ

/-- From an address on there are these values.  A node points to one that was allocated after it. -/
def Chain (nodes : List (Node α)) : Option ℕ → List α → Prop
  | a, [] => a = none
  | a, v :: vs => ∃ i next, a = some i ∧ nodes[i]? = some ⟨v, next⟩ ∧ (∀ j, next = some j → i < j) ∧
      Chain nodes next vs

/-- Nodes in a row, from an address on.  Each of them points behind itself. -/
def linked (b : ℕ) : List α → List (Node α)
  | [] => []
  | v :: vs => ⟨v, some (b + 1)⟩ :: linked (b + 1) vs

@[simp] theorem length_linked (b : ℕ) (vs : List α) : (linked b vs).length = vs.length := by
  induction vs generalizing b with
  | nil => rfl
  | cons v vs ih => rw [linked, List.length_cons, List.length_cons, ih]

theorem linked_concat (b : ℕ) (vs : List α) (v : α) :
    linked b (vs ++ [v]) = linked b vs ++ [⟨v, some (b + vs.length + 1)⟩] := by
  induction vs generalizing b with
  | nil => rfl
  | cons u vs ih =>
    rw [List.cons_append, linked, linked, ih, List.cons_append, List.length_cons,
      Nat.add_right_comm b 1, Nat.add_assoc b]

/-- Further nodes change nothing. -/
theorem Chain.append {nodes : List (Node α)} (more : List (Node α)) {a : Option ℕ} {vs : List α}
    (h : Chain nodes a vs) : Chain (nodes ++ more) a vs := by
  induction vs generalizing a with
  | nil => exact h
  | cons v vs ih =>
    obtain ⟨i, next, ha, hnode, hup, hrest⟩ := h
    have hlt : i < nodes.length := (List.getElem?_eq_some_iff.mp hnode).1
    exact ⟨i, next, ha, (List.getElem?_append_left hlt).trans hnode, hup, ih hrest⟩

/-- A chain has no more values than there are nodes. -/
theorem Chain.length_le {nodes : List (Node α)} {i : ℕ} {vs : List α}
    (h : Chain nodes (some i) vs) : vs.length + i ≤ nodes.length := by
  induction vs generalizing i with
  | nil => exact absurd h (by simp [Chain])
  | cons v vs ih =>
    obtain ⟨j, next, ha, hnode, hup, hrest⟩ := h
    cases ha
    have hlt : i < nodes.length := (List.getElem?_eq_some_iff.mp hnode).1
    cases next with
    | none =>
      cases vs with
      | nil => rw [List.length_singleton]; omega
      | cons u vs => exact absurd hrest (by simp [Chain])
    | some k =>
      have hk := hup k rfl
      have hvs := ih hrest
      rw [List.length_cons]
      omega

/-- The last node of a row points nowhere. -/
theorem chain_linked (nodes : List (Node α)) (vs : List α) (v : α) :
    Chain (nodes ++ linked nodes.length vs ++ [⟨v, none⟩]) (some nodes.length) (vs ++ [v]) := by
  induction vs generalizing nodes with
  | nil =>
    refine ⟨nodes.length, none, rfl, ?_, fun j hj => absurd hj (by simp), rfl⟩
    simp [linked]
  | cons u vs ih =>
    refine ⟨nodes.length, some (nodes.length + 1), rfl, ?_, fun j hj => ?_, ?_⟩
    · simp [linked]
    · cases hj
      exact Nat.lt_succ_self _
    · have h := ih (nodes ++ [⟨u, some (nodes.length + 1)⟩])
      rw [List.length_append, List.length_singleton, List.append_assoc nodes,
        List.singleton_append] at h
      exact h

end Chains
end Isdn4bsd
