import Isdn4bsd.Isdnd.Types

/-!
# The ISDN daemon: which number is dialled

An entry may have several remote numbers.  One of them is the current one, and both its parts are copied
to where the number to dial is taken from; or, in two places, only one of them.

* `DialEntry.Agrees` : the number to dial is the current one, with its subaddress.
* `agrees_selectFirstDialno`, `agrees_selectNextDialno` : **one call**, if and only if the subaddress that
is not copied was there.
* `dialno_agrees` : **any sequence of calls**.

## Three functions

* `select_first_dialno` begins an attempt. With one number, or where the entry wants it so, it takes the
first one. Otherwise it looks for a number whose last dial was successful, from the current one on and
round the table, and takes that one or the one after it, as the entry wants. If there is none, the first
number is dialled.
* `select_next_dialno` is for another attempt, with the number that follows the current one, which was
not successful.
* `select_this_dialno` notes that the current number was successful.

The loop that looks round the table ends when it is back where it started (`findSucc_none`), and a number
that it finds is one of the table (`findSucc_some`).

## What is not copied

A number and its subaddress are two strings, and there are two places at which only the first one is
copied.  Then the subaddress that is dialled is the one of an earlier number.  This is right just if
that subaddress happens to be the one that was wanted, which can be said of the state before the call:
`Kept`.  Nothing else has to be assumed, since all other places copy both.

A sequence of calls begins with the first number, as each attempt does; nothing is said of what the
entry has before that, and nothing depends on it except where a part is not copied.
-/

set_option autoImplicit false

namespace Isdn4bsd
namespace Isdnd

open L3 (Str)

/-- `RNH_*`. -/
inductive Handling where
  | next
  | last
  | first
  deriving DecidableEq, Repr

/-- The part of `cfg_entry_t` that the selection uses.  The flag of a number is whether the last dial was
successful, `RNF_SUCC`. -/
structure DialEntry where
  keypad : Str
  remoteNumbers : List Number
  flag : ℕ → Bool
  remoteNumbersHandling : Handling
  lastRemoteNumber : ℕ
  remotePhoneDialout : Number

namespace DialEntry

/-- `remote_numbers_count`. -/
def count (cep : DialEntry) : ℕ := cep.remoteNumbers.length

def number (cep : DialEntry) (i : ℕ) : Number := cep.remoteNumbers.getD i ⟨[], []⟩

/-- `if(++i >= cep->remote_numbers_count) i = 0`. -/
def after (cep : DialEntry) (i : ℕ) : ℕ := if i + 1 ≥ cep.count then 0 else i + 1

/-- Both parts of a number are copied. -/
def use (cep : DialEntry) (i : ℕ) : DialEntry :=
  { cep with remotePhoneDialout := cep.number i, lastRemoteNumber := i }

/-- The number is copied, and not its subaddress. -/
def useNumber (cep : DialEntry) (i : ℕ) : DialEntry :=
  { cep with
    remotePhoneDialout := ⟨(cep.number i).number, cep.remotePhoneDialout.subaddr⟩
    lastRemoteNumber := i }

/-- The loop of `select_first_dialno`, up to the first number whose last dial was successful. -/
def findSucc (cep : DialEntry) : ℕ → ℕ → Option ℕ
  | 0, _ => none
  | j + 1, i => if cep.flag i then some i else cep.findSucc j (cep.after i)

/-- `select_first_dialno`. -/
def selectFirstDialno (cep : DialEntry) : DialEntry :=
  if cep.keypad ≠ [] then cep
  else if cep.count < 1 then cep
  else if cep.count = 1 then cep.use 0
  else if cep.remoteNumbersHandling = .first then cep.use 0
  else
    match cep.findSucc cep.count cep.lastRemoteNumber with
    | some i => if cep.remoteNumbersHandling = .last then cep.use i else cep.use (cep.after i)
    | none => cep.useNumber 0

/-- `select_next_dialno`. -/
def selectNextDialno (cep : DialEntry) : DialEntry :=
  if cep.count < 1 then cep
  else if cep.count = 1 then cep.use 0
  else
    -- the last try was bad
    let cep := { cep with flag := Function.update cep.flag cep.lastRemoteNumber false }
    cep.useNumber (cep.after cep.lastRemoteNumber)

/-- `select_this_dialno`. -/
def selectThisDialno (cep : DialEntry) : DialEntry :=
  { cep with flag := Function.update cep.flag cep.lastRemoteNumber true }

/-- What can be called. -/
inductive Select where
  | first
  | next
  | this
  deriving DecidableEq, Repr

def select (cep : DialEntry) : Select → DialEntry
  | .first => cep.selectFirstDialno
  | .next => cep.selectNextDialno
  | .this => cep.selectThisDialno

/-! ## The current number -/

/-- The number to dial is the current one, with its subaddress. -/
structure Agrees (cep : DialEntry) : Prop where
  current : cep.lastRemoteNumber < cep.count
  number : cep.remotePhoneDialout.number = (cep.number cep.lastRemoteNumber).number
  subaddr : cep.remotePhoneDialout.subaddr = (cep.number cep.lastRemoteNumber).subaddr

/-- Where a subaddress is not copied, it is there already. -/
def Kept (cep : DialEntry) : Select → Prop
  | .first => cep.count = 1 ∨ cep.remoteNumbersHandling = .first ∨ (∃ i < cep.count, cep.flag i = true) ∨
      cep.remotePhoneDialout.subaddr = (cep.number 0).subaddr
  | .next => cep.count = 1 ∨
      cep.remotePhoneDialout.subaddr = (cep.number (cep.after cep.lastRemoteNumber)).subaddr
  | .this => True

theorem after_lt {cep : DialEntry} {i : ℕ} (h : i < cep.count) : cep.after i < cep.count := by
  rw [after]
  split_ifs <;> omega

theorem agrees_use {cep : DialEntry} {i : ℕ} (h : i < cep.count) : (cep.use i).Agrees := ⟨h, rfl, rfl⟩

theorem agrees_useNumber {cep : DialEntry} {i : ℕ} (h : i < cep.count) :
    (cep.useNumber i).Agrees ↔ cep.remotePhoneDialout.subaddr = (cep.number i).subaddr :=
  ⟨fun h => h.subaddr, fun hs => ⟨h, rfl, hs⟩⟩

/-- What the loop finds is a number that was successful. -/
theorem findSucc_some {cep : DialEntry} {j i k : ℕ} (hi : i < cep.count)
    (h : cep.findSucc j i = some k) : k < cep.count ∧ cep.flag k = true := by
  induction j generalizing i with
  | zero => exact absurd h (by simp [findSucc])
  | succ j ih =>
    rw [findSucc] at h
    split_ifs at h with hflag
    · cases h
      exact ⟨hi, hflag⟩
    · exact ih (after_lt hi) h

/-- The loop goes round the table, from any number on. -/
theorem findSucc_none {cep : DialEntry} {j i k : ℕ} (hi : i < cep.count) (hk : k < cep.count)
    (h : cep.findSucc j i = none) (hj : k < i + j ∧ i ≤ k ∨ k + cep.count < i + j) :
    cep.flag k = false := by
  induction j generalizing i with
  | zero => omega
  | succ j ih =>
    rw [findSucc] at h
    split_ifs at h with hflag
    by_cases hik : i = k
    · rw [← hik]
      exact Bool.eq_false_iff.mpr hflag
    · refine ih (after_lt hi) h ?_
      rw [after]
      split_ifs <;> omega

theorem findSucc_eq_none {cep : DialEntry} {i : ℕ} (hi : i < cep.count) :
    cep.findSucc cep.count i = none ↔ ¬ ∃ k < cep.count, cep.flag k = true := by
  constructor
  · rintro h ⟨k, hk, hflag⟩
    have := findSucc_none hi hk h (by omega)
    rw [this] at hflag
    exact absurd hflag (by decide)
  · intro h
    by_contra hne
    obtain ⟨k, hk⟩ := Option.ne_none_iff_exists'.mp hne
    exact h ⟨k, findSucc_some hi hk⟩

/-! ## One call -/

/-- **The first number.** -/
theorem agrees_selectFirstDialno {cep : DialEntry} (hkeypad : cep.keypad = []) (h0 : 0 < cep.count)
    (hlast : cep.count ≠ 1 → cep.lastRemoteNumber < cep.count) :
    cep.selectFirstDialno.Agrees ↔ cep.Kept .first := by
  rw [selectFirstDialno, if_neg (not_not.mpr hkeypad), if_neg (by omega), Kept]
  by_cases h1 : cep.count = 1
  · rw [if_pos h1]
    exact iff_of_true (agrees_use h0) (.inl h1)
  replace hlast := hlast h1
  by_cases hfirst : cep.remoteNumbersHandling = .first
  · rw [if_neg h1, if_pos hfirst]
    exact iff_of_true (agrees_use h0) (.inr (.inl hfirst))
  rw [if_neg h1, if_neg hfirst, or_iff_right h1, or_iff_right hfirst]
  cases hfind : cep.findSucc cep.count cep.lastRemoteNumber with
  | some i =>
    have hi := findSucc_some hlast hfind
    refine iff_of_true ?_ (.inl ⟨i, hi⟩)
    change (if _ then _ else _ : DialEntry).Agrees
    split_ifs
    · exact agrees_use hi.1
    · exact agrees_use (after_lt hi.1)
  | none =>
    rw [or_iff_right ((findSucc_eq_none hlast).mp hfind)]
    exact agrees_useNumber h0

/-- **The next number.** -/
theorem agrees_selectNextDialno {cep : DialEntry} (hlast : cep.lastRemoteNumber < cep.count) :
    cep.selectNextDialno.Agrees ↔ cep.Kept .next := by
  rw [selectNextDialno, if_neg (by omega), Kept]
  by_cases h1 : cep.count = 1
  · rw [if_pos h1]
    exact iff_of_true (agrees_use (by omega)) (.inl h1)
  · rw [if_neg h1, or_iff_right h1]
    exact agrees_useNumber (after_lt hlast)

/-- A call that is successful changes no number. -/
theorem agrees_selectThisDialno {cep : DialEntry} : cep.selectThisDialno.Agrees ↔ cep.Agrees :=
  ⟨fun h => ⟨h.current, h.number, h.subaddr⟩, fun h => ⟨h.current, h.number, h.subaddr⟩⟩

/-- The entry itself stays. -/
theorem select_keypad (cep : DialEntry) (call : Select) : (cep.select call).keypad = cep.keypad := by
  cases call with
  | first =>
    rw [select, selectFirstDialno]
    split_ifs <;> first | rfl | (split <;> rfl)
  | next =>
    rw [select, selectNextDialno]
    split_ifs <;> rfl
  | this => rfl

theorem agrees_select {cep : DialEntry} (hkeypad : cep.keypad = []) (h : cep.Agrees) (call : Select) :
    (cep.select call).Agrees ↔ cep.Kept call := by
  cases call with
  | first => exact agrees_selectFirstDialno hkeypad (Nat.zero_lt_of_lt h.current) fun _ => h.current
  | next => exact agrees_selectNextDialno h.current
  | this => exact iff_of_true (agrees_selectThisDialno.mpr h) trivial

/-! ## Any sequence of calls -/

/-- After each call the number to dial is the current one. -/
def AgreesAlong : DialEntry → List Select → Prop
  | _, [] => True
  | cep, call :: calls => (cep.select call).Agrees ∧ AgreesAlong (cep.select call) calls

/-- At each call, a subaddress that is not copied is there already. -/
def KeptAlong : DialEntry → List Select → Prop
  | _, [] => True
  | cep, call :: calls => cep.Kept call ∧ KeptAlong (cep.select call) calls

theorem agreesAlong_iff {cep : DialEntry} (hkeypad : cep.keypad = []) (h : cep.Agrees)
    (calls : List Select) : cep.AgreesAlong calls ↔ cep.KeptAlong calls := by
  induction calls generalizing cep with
  | nil => exact Iff.rfl
  | cons call calls ih =>
    have hstep := agrees_select hkeypad h call
    rw [AgreesAlong, KeptAlong, ← hstep]
    exact and_congr_right fun hagrees => ih ((select_keypad cep call).trans hkeypad) hagrees

/-- **The number to dial is the current one**, with its subaddress, after each call of a sequence that
starts with the first number, if and only if at each of them a subaddress that is not copied is there. -/
theorem dialno_agrees {cep : DialEntry} (hkeypad : cep.keypad = []) (h0 : 0 < cep.count)
    (hlast : cep.count ≠ 1 → cep.lastRemoteNumber < cep.count) (calls : List Select) :
    cep.AgreesAlong (.first :: calls) ↔ cep.KeptAlong (.first :: calls) := by
  rw [AgreesAlong, KeptAlong, ← agrees_selectFirstDialno hkeypad h0 hlast]
  exact and_congr_right fun hagrees =>
    agreesAlong_iff ((select_keypad cep .first).trans hkeypad) hagrees calls

/-- Two numbers, of which the second one has another subaddress. -/
def twoNumbers : DialEntry where
  keypad := []
  remoteNumbers := [⟨[0x31], [0x61]⟩, ⟨[0x32], [0x62]⟩]
  flag := fun _ => false
  remoteNumbersHandling := .first
  lastRemoteNumber := 0
  remotePhoneDialout := ⟨[], []⟩

/-- The second number is dialled with the subaddress of the first one. -/
theorem dialno_second : ¬ ∀ (cep : DialEntry) (calls : List Select), cep.keypad = [] →
    cep.lastRemoteNumber < cep.count → cep.AgreesAlong (.first :: calls) := by
  intro h
  exact absurd (h twoNumbers [.next] rfl (by decide)).2.1.subaddr (by decide)

/-- The same numbers with one subaddress. -/
def oneSubaddr : DialEntry := { twoNumbers with remoteNumbers := [⟨[0x31], [0x61]⟩, ⟨[0x32], [0x61]⟩] }

/-- The second number is right if it has the subaddress of the first one, and only then. -/
theorem dialno_both :
    oneSubaddr.AgreesAlong [.first, .next, .this] ∧ ¬ twoNumbers.AgreesAlong [.first, .next, .this] := by
  refine ⟨(dialno_agrees rfl (by decide) (by decide) [.next, .this]).mpr ?_, fun h => ?_⟩
  · exact ⟨.inr (.inl rfl), .inr rfl, trivial, trivial⟩
  · obtain ⟨-, hnext, -⟩ := (dialno_agrees rfl (by decide) (by decide) [.next, .this]).mp h
    rcases hnext with hone | hsame
    · exact absurd hone (by decide)
    · exact absurd hsame (by decide)

end DialEntry
end Isdnd
end Isdn4bsd
