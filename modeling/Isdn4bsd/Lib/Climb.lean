import Mathlib.Data.List.Perm.Basic
import Mathlib.Data.List.Induction

/-!
# Entries that climb up a list

A list is put in order by moving its entries up, one after the other: an entry climbs to the place before the
first one that it goes over.  Nothing is asked of `up`, which need not be an order.

* `climb`, `climbAll` : one entry, and all of them.
* `find?_climbAll` : **where each entry goes over those before it, the last one is found first**.
* `climbAll_cons` : an entry that nothing goes over stays the first.

## A sort without an order

With an order for `up`, this is sorting by insertion.  A comparison that was written with another one in mind need
not be transitive, or may say of two entries that each goes over the other, and then the result is not sorted in
any sense; it depends on where the entries were at first.  It still is a permutation of them.

The question that is answered here is a lookup: which of the entries with some property is the first one in the
result?  To answer it one need not know how the others are compared.  If each entry with the property goes
over all others with it, then one that moves up ends before them, whatever else there is in between, as
it does not pass by any of them without going over it.  So it is the one that came last.
-/

set_option autoImplicit false

namespace Isdn4bsd

variable {α : Type*} (up : α → α → Bool)

/-- `cur` moves to the place before the first entry that it goes over. -/
def climb (cur : α) : List α → List α
  | [] => [cur]
  | test :: rest => if up cur test then cur :: test :: rest else test :: climb cur rest

/-- Each entry moves up over those that have moved. -/
def climbAll (l : List α) : List α := l.foldl (fun done cur => climb up cur done) []

theorem climb_perm (cur : α) (l : List α) : (climb up cur l).Perm (cur :: l) := by
  induction l with
  | nil => exact List.Perm.refl _
  | cons test rest ih =>
    rw [climb]
    split
    next => exact List.Perm.refl _
    next => exact (ih.cons test).trans (List.Perm.swap _ _ _)

theorem climbAll_concat (l : List α) (cur : α) : climbAll up (l ++ [cur]) = climb up cur (climbAll up l) := by
  rw [climbAll, List.foldl_append]
  rfl

theorem climbAll_perm (l : List α) : (climbAll up l).Perm l := by
  induction l using List.reverseRecOn with
  | nil => exact List.Perm.refl _
  | append_singleton l cur ih =>
    rw [climbAll_concat]
    exact (climb_perm up cur _).trans ((ih.cons cur).trans (List.perm_append_singleton _ _).symm)

variable {up}

/-- An entry that goes over all that are looked for is found before them. -/
theorem find?_climb {p : α → Bool} {cur : α} {l : List α}
    (hup : ∀ test ∈ l, p cur = true → p test = true → up cur test = true) :
    (climb up cur l).find? p = if p cur then some cur else l.find? p := by
  induction l with
  | nil => cases hp : p cur <;> simp [climb, hp]
  | cons test rest ih =>
    have ih := ih fun test htest => hup test (List.mem_cons_of_mem _ htest)
    cases hp : p cur with
    | false =>
      rw [hp] at ih
      rw [climb]
      split
      next => rw [List.find?_cons, hp, if_neg Bool.false_ne_true]
      next =>
        rw [List.find?_cons, ih, if_neg Bool.false_ne_true, List.find?_cons]
        cases p test <;> rfl
    | true =>
      rw [hp, if_pos rfl] at ih
      rw [climb, if_pos rfl]
      split
      next => rw [List.find?_cons, hp]
      next hnot =>
        have htest : p test = false := by
          cases ht : p test with
          | false => rfl
          | true => exact absurd (hup test List.mem_cons_self hp ht) hnot
        rw [List.find?_cons, htest]
        exact ih

/-- **Where each entry goes over those before it, the last one is found first.** -/
theorem find?_climbAll {p : α → Bool} {l : List α}
    (h : l.Pairwise fun test cur => p cur = true → p test = true → up cur test = true) :
    (climbAll up l).find? p = l.reverse.find? p := by
  induction l using List.reverseRecOn with
  | nil => rfl
  | append_singleton l cur ih =>
    rw [List.pairwise_append] at h
    have hup : ∀ test ∈ climbAll up l, p cur = true → p test = true → up cur test = true := fun test htest =>
      h.2.2 test ((climbAll_perm up l).mem_iff.mp htest) cur (List.mem_singleton.mpr rfl)
    rw [climbAll_concat, find?_climb hup, ih h.1, List.reverse_append, List.reverse_singleton,
      List.singleton_append, List.find?_cons]
    cases p cur <;> rfl

/-- An entry that nothing goes over stays the first. -/
theorem climbAll_cons {top : α} {l : List α} (h : ∀ cur ∈ l, up cur top = false) :
    climbAll up (top :: l) = top :: climbAll up l := by
  induction l using List.reverseRecOn with
  | nil => rfl
  | append_singleton l cur ih =>
    have ih := ih fun cur hcur => h cur (List.mem_append_left _ hcur)
    have hcur : ¬ up cur top = true := by
      rw [h cur (List.mem_append_right _ (List.mem_singleton.mpr rfl))]
      exact Bool.false_ne_true
    rw [← List.cons_append, climbAll_concat, ih, climb, if_neg hcur, climbAll_concat]

end Isdn4bsd
