import Mathlib.Data.Nat.Bitwise
import Isdn4bsd.Isdnd.Types

/-!
# The ISDN daemon: when an entry is valid

`isvalidtime` compares hours and minutes one by one.  What it is to find is whether a minute of the day is
in a window, that may reach past midnight.

* `Config.InWindow` : the window, in minutes of the day.
* `clock_inWindow_iff` : **the comparisons**, and the minutes that they mistake.
* `isvalidtime_iff` : **when an entry is valid**, if and only if the minute is not mistaken.

## Days

An entry has a set of weekdays, with one more bit for holidays, and an empty set stands for any time.  A
holiday is a line of a file, for one year or for every year.  A window that reaches past midnight is
on those days before midnight and after it: the early hours belong to the day whose morning they are.

## Windows

A window has a first minute, and ends before its last one.  Four zeros are the whole day.  The source tells
three cases apart by the hours: a window that ends at an earlier hour than it begins, one that begins and
ends in the same hour, and all others.

* In the first case, the part before midnight begins a minute too late: `>` stands where the other cases
have `>=`.
* In the second case only the minutes are compared, so that the window is there in every hour.
* In the second case also, a window that ends earlier than it begins should reach past midnight, and has no
minutes instead.

These are the minutes of `Config.Mistakes`, and all others come out right.  The comparison itself is
`Config.Clock`, and it is linear arithmetic with four bounds.  A minute that is mistaken does no harm on a
day that is not one of the days of the entry, which is why the condition of the theorem is about both.
-/

set_option autoImplicit false

namespace Isdn4bsd
namespace Isdnd

/-! ## The calendar -/

/-- `struct holiday`, one line of the file.  A year of 0 is every year. -/
structure Holiday where
  day : ℤ
  month : ℤ
  year : ℤ

/-- `isholiday`. -/
def isholiday (firsth : List Holiday) (d m y : ℤ) : Bool :=
  firsth.any fun ch => ch.day = d ∧ ch.month = m ∧ (ch.year = 0 ∨ ch.year = y)

/-- `struct tm`, as far as `localtime` is asked. -/
structure Tm where
  mday : ℤ
  mon : ℤ
  year : ℤ
  wday : Fin 7
  hour : Fin 24
  min : Fin 60

/-- The daemon is asked at that time, with these holidays. -/
def Env.at {n : ℕ} (env : Env n) (firsth : List Holiday) (tp : Tm) : Env n :=
  { env with
    hour := tp.hour
    min := tp.min
    wday := tp.wday
    holiday := isholiday firsth tp.mday (tp.mon + 1) (tp.year + 1900) }

/-! ## What a valid entry is -/

/-- The minute of the day. -/
def Tm.minute (tp : Tm) : ℕ := 60 * tp.hour + tp.min

def Config.fromTime (c : Config) : ℕ := 60 * c.fromhr + c.frommin

def Config.toTime (c : Config) : ℕ := 60 * c.tohr + c.tomin

/-- What the parser takes for times. -/
structure Config.Timed (c : Config) : Prop where
  fromhr : c.fromhr ≤ 24
  frommin : c.frommin ≤ 59
  tohr : c.tohr ≤ 24
  tomin : c.tomin ≤ 59

/-- A minute is in the window, that reaches past midnight if its end is before its start. -/
def Config.InWindow (c : Config) (minute : ℕ) : Prop :=
  if c.toTime < c.fromTime then c.fromTime ≤ minute ∨ minute < c.toTime
  else c.fromTime ≤ minute ∧ minute < c.toTime

/-- One of the days is that weekday, or it is a holiday, and these are wanted. -/
def Config.OnDay (c : Config) (firsth : List Holiday) (tp : Tm) : Prop :=
  c.day.testBit tp.wday = true ∨
    c.day.testBit 7 = true ∧ ∃ ch ∈ firsth, ch.day = tp.mday ∧ ch.month = tp.mon + 1 ∧
      (ch.year = 0 ∨ ch.year = tp.year + 1900)

/-- The entry is valid at that time. -/
def Config.Valid (c : Config) (firsth : List Holiday) (tp : Tm) : Prop :=
  c.day = 0 ∨ c.OnDay firsth tp ∧ c.InWindow tp.minute

/-- The minutes that are mistaken.  If the window ends at an earlier hour, this is its first minute.  If it
starts and ends within one hour, these are the same minutes of all other hours; and if it ends earlier in
that hour, they are all that it has. -/
def Config.Mistakes (c : Config) (tp : Tm) : Prop :=
  c.tohr < c.fromhr ∧ (tp.hour : ℕ) = c.fromhr ∧ (tp.min : ℕ) = c.frommin ∨
    c.fromhr = c.tohr ∧ (tp.hour : ℕ) ≠ c.fromhr ∧ c.frommin ≤ tp.min ∧ (tp.min : ℕ) < c.tomin ∨
    c.fromhr = c.tohr ∧ c.tomin < c.frommin ∧
      ((tp.hour : ℕ) = c.fromhr → (tp.min : ℕ) < c.tomin ∨ c.frommin ≤ tp.min)

/-! ## The comparisons -/

theorem and_shiftLeft_ne_zero (day w : ℕ) : day &&& 1 <<< w ≠ 0 ↔ day.testBit w = true := by
  rw [Nat.shiftLeft_eq, Nat.one_mul, Nat.and_two_pow]
  cases day.testBit w <;> simp

theorem isholiday_iff (firsth : List Holiday) (d m y : ℤ) :
    isholiday firsth d m y = true ↔
      ∃ ch ∈ firsth, ch.day = d ∧ ch.month = m ∧ (ch.year = 0 ∨ ch.year = y) := by
  simp [isholiday]

/-- What `isvalidtime` compares, once the day is right. -/
def Config.Clock (c : Config) (tp : Tm) : Prop :=
  if c.tohr < c.fromhr then
    (c.fromhr < (tp.hour : ℕ) ∨ ((tp.hour : ℕ) = c.fromhr ∧ c.frommin < (tp.min : ℕ))) ∨
      ((tp.hour : ℕ) < c.tohr ∨ ((tp.hour : ℕ) = c.tohr ∧ (tp.min : ℕ) < c.tomin))
  else if c.fromhr = c.tohr then c.frommin ≤ (tp.min : ℕ) ∧ (tp.min : ℕ) < c.tomin
  else
    (c.fromhr < (tp.hour : ℕ) ∧ (tp.hour : ℕ) < c.tohr) ∨
      ((tp.hour : ℕ) = c.fromhr ∧ c.frommin ≤ (tp.min : ℕ)) ∨
        ((tp.hour : ℕ) = c.tohr ∧ (tp.min : ℕ) < c.tomin)

theorem isvalidtime_clock {n : ℕ} (env : Env n) {c : Config} (firsth : List Holiday) (tp : Tm)
    (hne : c.fromTime ≠ c.toTime) :
    isvalidtime (env.at firsth tp) c ↔ c.day = 0 ∨ c.OnDay firsth tp ∧ c.Clock tp := by
  have hnone : ¬ (c.fromhr = 0 ∧ c.frommin = 0 ∧ c.tohr = 0 ∧ c.tomin = 0) := by
    rintro ⟨h1, h2, h3, h4⟩
    exact hne (by rw [Config.fromTime, Config.toTime, h1, h2, h3, h4])
  have hday : ((c.day &&& hd ≠ 0 ∧ (env.at firsth tp).holiday = true) ∨
      c.day &&& 1 <<< (env.at firsth tp).wday ≠ 0) ↔ c.OnDay firsth tp := by
    have hhd : c.day &&& hd ≠ 0 ↔ c.day.testBit 7 = true := and_shiftLeft_ne_zero c.day 7
    have hwd : c.day &&& 1 <<< (env.at firsth tp).wday ≠ 0 ↔ c.day.testBit tp.wday = true :=
      and_shiftLeft_ne_zero c.day _
    have hholiday := isholiday_iff firsth tp.mday (tp.mon + 1) (tp.year + 1900)
    rw [hhd, hwd, or_comm]
    exact or_congr Iff.rfl (and_congr Iff.rfl hholiday)
  rw [isvalidtime, hday]
  exact or_congr Iff.rfl (and_congr Iff.rfl (or_iff_right hnone))

/-- **The comparisons**: they hold within the window, but for the minutes that are mistaken. -/
theorem clock_inWindow_iff {c : Config} (h : c.Timed) (tp : Tm) :
    (c.Clock tp ↔ c.InWindow tp.minute) ↔ ¬ c.Mistakes tp := by
  have hhour := tp.hour.isLt
  have hmin := tp.min.isLt
  obtain ⟨hfh, hfm, hth, htm⟩ := h
  rw [Config.Clock, Config.InWindow, Config.Mistakes, Config.fromTime, Config.toTime, Tm.minute]
  generalize (tp.hour : ℕ) = hour at *
  generalize (tp.min : ℕ) = min at *
  rcases lt_trichotomy c.fromhr c.tohr with hlt | heq | hgt
  · have hto : ¬ 60 * c.tohr + c.tomin < 60 * c.fromhr + c.frommin := by omega
    rw [if_neg (by omega), if_neg (by omega), if_neg hto]
    omega
  · rw [if_neg (by omega), if_pos heq]
    split_ifs <;> omega
  · have hto : 60 * c.tohr + c.tomin < 60 * c.fromhr + c.frommin := by omega
    rw [if_pos hgt, if_pos hto]
    omega

/-- **When an entry is valid.**  The answer is right if and only if each day is, or this is not one of its
days, or the minute is not mistaken. -/
theorem isvalidtime_iff {n : ℕ} (env : Env n) {c : Config} (h : c.Timed)
    (hne : c.fromTime ≠ c.toTime) (firsth : List Holiday) (tp : Tm) :
    (isvalidtime (env.at firsth tp) c ↔ c.Valid firsth tp) ↔
      (c.day = 0 ∨ ¬ c.OnDay firsth tp ∨ ¬ c.Mistakes tp) := by
  rw [isvalidtime_clock env firsth tp hne, Config.Valid, ← clock_inWindow_iff h tp]
  tauto

/-- Monday through Saturday, from one hour to another. -/
def tariff (fromhr tohr : ℕ) : Config where
  isdncontroller := 0
  isdnchannel := -1
  usrdevicename := 0
  usrdeviceunit := 0
  localPhoneIncoming := ⟨[], []⟩
  remotePhoneIncoming := []
  dialinReaction := .ignore
  bprotocol := 0
  callbackwait := 1
  calledbackwait := 2
  dialretries := 3
  recoverytime := 1
  dialrandincr := false
  usedown := false
  downtime := 0
  dialoutCalledback := false
  alert := 0
  inout := .inout
  usesubaddr := false
  callback := ⟨0, 0⟩
  callout := ⟨0, 0⟩
  day := 0x7E
  fromhr := fromhr
  frommin := 0
  tohr := tohr
  tomin := 0
  maxconnecttime := 0

/-- The daemon is asked for nothing but the time. -/
def asked : Env 0 where
  now := 0
  hour := 0
  min := 0
  wday := 0
  holiday := false
  random _ := 0
  cdid _ := none
  connect _ := false

/-- On a Monday, the fifth of January 2026, at six o'clock in the evening the nighttime is not valid yet. -/
theorem isvalidtime_six : ¬ ∀ (c : Config) (firsth : List Holiday) (tp : Tm), c.Timed →
    c.fromTime ≠ c.toTime → (isvalidtime (asked.at firsth tp) c ↔ c.Valid firsth tp) := by
  intro h
  have hnight := h (tariff 18 9) [] ⟨5, 0, 126, 1, 18, 0⟩ ⟨by decide, by decide, by decide, by decide⟩
    (by decide)
  have hwindow : (tariff 18 9).InWindow (Tm.minute ⟨5, 0, 126, 1, 18, 0⟩) := by
    rw [Config.InWindow, if_pos (by decide)]
    exact .inl (by decide)
  exact absurd (hnight.mpr (.inr ⟨.inl (by decide), hwindow⟩)) (by decide)

/-- A quarter to six on that day is not mistaken. -/
theorem isvalidtime_quarter :
    (isvalidtime (asked.at [] ⟨5, 0, 126, 1, 17, 45⟩) (tariff 18 9) ↔
        (tariff 18 9).Valid [] ⟨5, 0, 126, 1, 17, 45⟩) ↔
      ((tariff 18 9).day = 0 ∨ ¬ (tariff 18 9).OnDay [] ⟨5, 0, 126, 1, 17, 45⟩ ∨
        ¬ (tariff 18 9).Mistakes ⟨5, 0, 126, 1, 17, 45⟩) :=
  isvalidtime_iff asked ⟨by decide, by decide, by decide, by decide⟩ (by decide) _ _

end Isdnd
end Isdn4bsd
