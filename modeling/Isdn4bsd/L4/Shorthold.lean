import Isdn4bsd.L3.Refine
import Isdn4bsd.Lib.Timer

/-!
# Layer 4: the shorthold mode

An outgoing call is disconnected shortly before its next charging unit begins if nothing was sent or
received on its B channel for some time: a unit that has begun is paid for, so the call may as well last
until just before the next one.  `i4b_idle_check` runs on a timer that is set, in turn, for a check near the
end of a unit and, if there was activity, for the end of this unit.

`Meter` is a call and what the functions of `i4b_l4.c` that do so keep of it, with the clock, the time for
which the timer is set, and the units counted so far.

* `Meter.Watch` : the state between two events: what the timer is set for, which checks were made, and
  what they found.
* `Meter.Watch.step` : it is kept by activity, by time and by the timer.
* `Meter.watch_dialled` : it holds when the call is connected, with both unit algorithms.
* `shorthold_hangup` : **when a call is disconnected, and how many units are counted until then**.

The controller has the same functions without the clock (`cd_i4bIdleCheck`, `cd_i4bL4SetupTimeout`).  In
the same course of events, with anything else that leaves the call alone in between, it does the same to
the descriptor (`Follows.serves`), so that **it asks layer 3 to disconnect the call at the same check**
(`Course.hangup`).
-/

set_option autoImplicit false

namespace Isdn4bsd
namespace Shorthold

open L3 (CallDesc IdleState cdidUnused causeI4bNormal)
open L3.Cntl (shortholdData)
open Timer

/-! ## The functions -/

/-- What layer 4 tells the application, and asks of layer 3. -/
inductive Out where
  /-- `MSG_CHARGING_IND`, with `CHARGE_CALC` and `cunits`. -/
  | chargingInd (units : Int)
  | idleTimeoutInd
  | nDisconnectRequest (cause : Nat)
  deriving DecidableEq, Repr

/-- A call descriptor, with the clock. -/
structure Meter where
  cd : CallDesc
  /-- `N_fifo_translator` of the controller is set. -/
  connected : Bool
  /-- `SECOND`. -/
  second : Int
  cunits : Int
  /-- When `idle_callout` expires. -/
  due : Option Int
  /-- What was told and asked, and when. -/
  out : List (Int × Out)

namespace Meter

/-- `callout_reset` of `idle_callout`, in a state. -/
def calloutReset (m : Meter) (state : IdleState) (time : Int) : Meter :=
  { m with
    cd := { m.cd with idleState := state, idleCallout := true }
    due := some (m.second + time) }

/-- `cd->cunits++` and `i4b_l4_charging_ind`. -/
def charge (m : Meter) : Meter :=
  { m with cunits := m.cunits + 1, out := m.out ++ [(m.second, .chargingInd (m.cunits + 1))] }

/-- `case IST_STARTED` of `i4b_idle_check`. -/
def idleStarted (m : Meter) : Meter :=
  (if m.cd.aocdFlag then m else m.charge).calloutReset .check m.cd.shorthold.unitlenTime

/-- No activity: `i4b_l4_idle_timeout_ind` and `N_DISCONNECT_REQUEST`. -/
def hangup (m : Meter) : Meter :=
  { m with
    cd := { m.cd with idleState := .notStarted }
    out := m.out ++ [(m.second, .idleTimeoutInd), (m.second, .nDisconnectRequest causeI4bNormal)] }

/-- `i4b_idle_check`. -/
def i4bIdleCheck (m : Meter) : Meter :=
  if m.connected ∧ m.cd.cdid ≠ cdidUnused then
    match m.cd.idleState with
    | .notStarted => m
    | .started => m.idleStarted
    | .check =>
      let h := m.cd.shorthold
      if h.idleTime ≤ 0 ∨ m.second - m.cd.lastActiveTime < h.idleTime then
        if h.earlyhupTime ≤ 0 then m.idleStarted else m.calloutReset .started h.earlyhupTime
      else m.hangup
  else m

/-- `i4b_l4_setup_timeout`. -/
def i4bL4SetupTimeout (m : Meter) : Meter :=
  let next := (shortholdData m.cd).2
  let m := { m with cd := (shortholdData m.cd).1 }
  let m :=
    if m.cd.idleState = .notStarted ∧ (m.cd.aocdFlag = false ∨ 0 < m.cd.shorthold.idleTime) then
      { m with cd := { m.cd with idleState := .started } }.i4bIdleCheck
    else m
  { m with
    cd := { m.cd with
      shorthold := { m.cd.shorthold with
        unitlenTime := next.getD m.cd.shorthold.unitlenTime } } }

/-- `i4b_l4_connect_active_ind`. -/
def i4bL4ConnectActiveInd (m : Meter) : Meter :=
  { m with cd := { m.cd with lastActiveTime := m.second } }.i4bL4SetupTimeout

/-- `idle_callout` has expired. -/
def fired (m : Meter) : Meter := { m with cd := { m.cd with idleCallout := false }, due := none }

/-- The drivers of the B channel note activity, seconds go by, but never past a time for which the timer
is set, and the timer fires. -/
def step (m : Meter) : Event → Option Meter
  | .activity => some { m with cd := { m.cd with lastActiveTime := m.second } }
  | .tick => if m.due = some m.second then none else some { m with second := m.second + 1 }
  | .fire =>
    if m.due = some m.second then some m.fired.i4bIdleCheck else none

/-- Some events, one after the other. -/
def run (m : Meter) (es : List Event) : Option Meter := es.foldlM step m

/-- When layer 3 was asked to disconnect. -/
def disconnects (m : Meter) : List Int :=
  m.out.filterMap fun o => match o.2 with
    | .nDisconnectRequest _ => some o.1
    | _ => none

/-! ## The functions, one by one -/

variable {m t : Meter}

@[simp] theorem disconnects_calloutReset (m : Meter) (state : IdleState) (time : Int) :
    (m.calloutReset state time).disconnects = m.disconnects := rfl

@[simp] theorem disconnects_charge (m : Meter) : m.charge.disconnects = m.disconnects := by
  rw [disconnects, charge, List.filterMap_append]
  exact List.append_nil _

theorem disconnects_hangup (m : Meter) : m.hangup.disconnects = m.disconnects ++ [m.second] := by
  rw [disconnects, hangup, List.filterMap_append]
  rfl

/-- A unit begins: where units are counted, it is counted. -/
theorem idleStarted_eq (m : Meter) :
    ∃ units out, m.idleStarted = ({ m with cunits := units, out := out } : Meter).calloutReset .check
        m.cd.shorthold.unitlenTime ∧
      ({ m with cunits := units, out := out } : Meter).disconnects = m.disconnects ∧
      (m.cd.aocdFlag = false → units = m.cunits + 1) := by
  rw [idleStarted]
  split
  · rename_i ha
    exact ⟨m.cunits, m.out, rfl, rfl, fun h => absurd ha (Bool.eq_false_iff.mp h)⟩
  · exact ⟨m.charge.cunits, m.charge.out, rfl, disconnects_charge m, fun _ => rfl⟩

/-- The channel was idle long enough. -/
def Hangs (m : Meter) : Prop :=
  0 < m.cd.shorthold.idleTime ∧ m.cd.shorthold.idleTime ≤ m.second - m.cd.lastActiveTime

theorem i4bIdleCheck_started (hc : m.connected = true) (hu : m.cd.cdid ≠ cdidUnused)
    (hs : m.cd.idleState = .started) : m.i4bIdleCheck = m.idleStarted := by
  rw [i4bIdleCheck, if_pos ⟨hc, hu⟩, hs]

theorem i4bIdleCheck_active (hc : m.connected = true) (hu : m.cd.cdid ≠ cdidUnused)
    (hs : m.cd.idleState = .check) (h : ¬ m.Hangs) :
    m.i4bIdleCheck = if m.cd.shorthold.earlyhupTime ≤ 0 then m.idleStarted
      else m.calloutReset .started m.cd.shorthold.earlyhupTime := by
  have hactive : m.cd.shorthold.idleTime ≤ 0 ∨
      m.second - m.cd.lastActiveTime < m.cd.shorthold.idleTime := by
    rw [Hangs] at h
    omega
  rw [i4bIdleCheck, if_pos ⟨hc, hu⟩, hs]
  exact if_pos hactive

theorem i4bIdleCheck_idle (hc : m.connected = true) (hu : m.cd.cdid ≠ cdidUnused)
    (hs : m.cd.idleState = .check) (h : m.Hangs) : m.i4bIdleCheck = m.hangup := by
  have hidle : ¬ (m.cd.shorthold.idleTime ≤ 0 ∨
      m.second - m.cd.lastActiveTime < m.cd.shorthold.idleTime) := by
    rw [Hangs] at h
    omega
  rw [i4bIdleCheck, if_pos ⟨hc, hu⟩, hs]
  exact if_neg hidle

/-! ## Between two events -/

/-- The times of the checks: `u` seconds after the last one and the time between a check that found
activity and the end of the unit. -/
structure Instants (u e : Int) (x : ℕ → Int) : Prop where
  pos : 0 < u
  next : ∀ k, x (k + 1) = x k + max e 0 + u

theorem Instants.strictMono {u e : Int} {x : ℕ → Int} (hx : Instants u e x) : StrictMono x := by
  refine strictMono_nat_of_lt_succ fun k => ?_
  have h1 := hx.pos
  have h2 := hx.next k
  omega

/-- What the timer is set for. -/
inductive Phase (t0 idle e : Int) (aocd : Bool) (x : ℕ → Int) (es : List Event) (m : Meter) : Prop
  where
  /-- The next check; its unit was counted when it began. -/
  | check (k : ℕ) (state : m.cd.idleState = .check) (due : m.due = some (x k))
      (early : m.second ≤ x k) (waiting : Waiting t0 idle x es k) (none : m.disconnects = [])
      (units : aocd = false → m.cunits = k + 1)
  /-- The end of the unit, after a check that found activity. -/
  | margin (k : ℕ) (pos : 0 < e) (state : m.cd.idleState = .started) (due : m.due = some (x k + e))
      (early : m.second ≤ x k + e) (waiting : Waiting t0 idle x es (k + 1))
      (none : m.disconnects = []) (units : aocd = false → m.cunits = k + 1)
  /-- Nothing any more. -/
  | ended (k : ℕ) (due : m.due = none) (once : m.disconnects = [x k]) (first : First t0 idle x es k)
      (units : aocd = false → m.cunits = k + 1)

/-- A call between two events. -/
structure Watch (t0 u idle e : Int) (aocd : Bool) (x : ℕ → Int) (es : List Event) (m : Meter) : Prop
  where
  connected : m.connected = true
  used : m.cd.cdid ≠ cdidUnused
  unitlen : m.cd.shorthold.unitlenTime = u
  idleTime : m.cd.shorthold.idleTime = idle
  earlyhup : m.cd.shorthold.earlyhupTime = e
  aocdFlag : m.cd.aocdFlag = aocd
  second : m.second = now t0 es
  active : m.cd.lastActiveTime = last t0 es
  phase : Phase t0 idle e aocd x es m
  /-- Without a margin, the timer fires for checks only. -/
  only : e ≤ 0 → ∀ pre, pre ++ [.fire] <+: es → ∃ k, now t0 pre = x k

namespace Watch

variable {t0 u idle e : Int} {aocd : Bool} {x : ℕ → Int} {es : List Event}

theorem only_concat (h : Watch t0 u idle e aocd x es m) {ev : Event} (hev : ev ≠ .fire) (he : e ≤ 0) :
    ∀ pre, pre ++ [.fire] <+: es ++ [ev] → ∃ k, now t0 pre = x k := by
  intro pre hpre
  rcases fire_prefix_concat.mp hpre with ⟨-, hf⟩ | hpre
  · exact absurd hf hev
  · exact h.only he pre hpre

theorem activity (h : Watch t0 u idle e aocd x es m) :
    Watch t0 u idle e aocd x (es ++ [.activity])
      { m with cd := { m.cd with lastActiveTime := m.second } } := by
  refine { h with
    second := by rw [now_concat]; exact h.second
    active := by rw [last_concat]; exact h.second
    only := h.only_concat (by decide)
    phase := ?_ }
  cases h.phase with
  | check k state due early waiting none units =>
    exact .check k state due early (waiting.concat_of_ne (by decide)) none units
  | margin k pos state due early waiting none units =>
    exact .margin k pos state due early (waiting.concat_of_ne (by decide)) none units
  | ended k due once first units => exact .ended k due once (first.concat (by decide)) units

theorem tick (h : Watch t0 u idle e aocd x es m) (hdue : m.due ≠ some m.second) :
    Watch t0 u idle e aocd x (es ++ [.tick]) { m with second := m.second + 1 } := by
  refine { h with
    second := by rw [now_concat]; exact congrArg (· + 1) h.second
    active := by rw [last_concat]; exact h.active
    only := h.only_concat (by decide)
    phase := ?_ }
  have hlt : ∀ y, m.due = some y → m.second ≤ y → m.second + 1 ≤ y := by
    intro y hy hle
    have hne : m.second ≠ y := fun heq => hdue (heq ▸ hy)
    omega
  cases h.phase with
  | check k state due early waiting none units =>
    exact .check k state due (hlt _ due early) (waiting.concat_of_ne (by decide)) none units
  | margin k pos state due early waiting none units =>
    exact .margin k pos state due (hlt _ due early) (waiting.concat_of_ne (by decide)) none units
  | ended k due once first units => exact .ended k due once (first.concat (by decide)) units

theorem only_fire (h : Watch t0 u idle e aocd x es m) (hnow : e ≤ 0 → ∃ k, now t0 es = x k)
    (he : e ≤ 0) : ∀ pre, pre ++ [.fire] <+: es ++ [.fire] → ∃ k, now t0 pre = x k := by
  intro pre hpre
  rcases fire_prefix_concat.mp hpre with ⟨rfl, -⟩ | hpre
  · exact hnow he
  · exact h.only he pre hpre

/-- The next unit begins. -/
theorem next (h : Watch t0 u idle e aocd x es m) (hnow : e ≤ 0 → ∃ k, now t0 es = x k) {k : ℕ}
    (hw : Waiting t0 idle x (es ++ [.fire]) (k + 1)) (hnext : m.second + u = x (k + 1))
    (hpos : 0 < u) (hnone : m.disconnects = []) (hunits : aocd = false → m.cunits = k + 1) :
    Watch t0 u idle e aocd x (es ++ [.fire]) m.fired.idleStarted := by
  obtain ⟨units, out, heq, hout, hcount⟩ := idleStarted_eq m.fired
  rw [heq]
  have hdue : m.second + m.cd.shorthold.unitlenTime = x (k + 1) := by
    rw [h.unitlen]
    exact hnext
  refine { h with
    second := by rw [now_concat]; exact h.second
    active := by rw [last_concat]; exact h.active
    only := h.only_fire hnow
    phase := .check (k + 1) rfl (congrArg some hdue) ?_ hw (hout.trans hnone) fun ha => ?_ }
  · have hle : m.second ≤ x (k + 1) := by omega
    exact hle
  · have hu := hcount (h.aocdFlag.trans ha)
    have hk := hunits ha
    have hc : units = m.cunits + 1 := hu
    have hcast : ((k + 1 : ℕ) : Int) = k + 1 := Nat.cast_succ k
    refine Eq.trans hc ?_
    omega

theorem fire (h : Watch t0 u idle e aocd x es m) (hx : Instants u e x) (hidle : 0 < idle)
    (hdue : m.due = some m.second) :
    Watch t0 u idle e aocd x (es ++ [.fire]) m.fired.i4bIdleCheck := by
  cases h.phase with
  | check k state due early waiting none units =>
    have hnow : m.second = x k := Option.some.inj (hdue.symm.trans due)
    have hnow' : now t0 es = x k := h.second.symm.trans hnow
    by_cases hh : m.fired.Hangs
    · rw [i4bIdleCheck_idle (m := m.fired) h.connected h.used state hh]
      have hle : idle ≤ x k - last t0 es := by
        rw [← h.idleTime, ← h.active, ← hnow]
        exact hh.2
      refine { h with
        second := by rw [now_concat]; exact h.second
        active := by rw [last_concat]; exact h.active
        only := h.only_fire fun _ => ⟨k, hnow'⟩
        phase := .ended k rfl ?_ (waiting.first hx.strictMono hnow' hle) units }
      rw [disconnects_hangup]
      have hout : m.fired.disconnects = [] := none
      rw [hout, ← hnow]
      rfl
    · rw [i4bIdleCheck_active (m := m.fired) h.connected h.used state hh]
      have hlt : x k - last t0 es < idle := by
        rw [← h.active, ← hnow]
        have hnot : ¬ (0 < idle ∧ idle ≤ m.second - m.cd.lastActiveTime) := by
          rw [← h.idleTime]
          exact hh
        omega
      have hw := waiting.check hx.strictMono hnow' hlt
      have hnext := hx.next k
      split
      · rename_i he
        have he' : e ≤ 0 := by
          rw [← h.earlyhup]
          exact he
        refine h.next (fun _ => ⟨k, hnow'⟩) hw ?_ hx.pos none units
        omega
      · rename_i he
        have he' : 0 < e := by
          rw [← h.earlyhup]
          exact Int.not_le.mp he
        have hdue' : m.second + m.cd.shorthold.earlyhupTime = x k + e := by rw [hnow, h.earlyhup]
        refine { h with
          second := by rw [now_concat]; exact h.second
          active := by rw [last_concat]; exact h.active
          only := h.only_fire fun _ => ⟨k, hnow'⟩
          phase := .margin k he' rfl (congrArg some hdue') ?_ hw none units }
        have hle : m.second ≤ x k + e := by omega
        exact hle
  | margin k pos state due early waiting none units =>
    have hnow : m.second = x k + e := Option.some.inj (hdue.symm.trans due)
    have hnext := hx.next k
    have hpos := hx.pos
    rw [i4bIdleCheck_started (m := m.fired) h.connected h.used state]
    refine h.next (fun he => absurd pos (Int.not_lt.mpr he)) (waiting.concat fun _ => ?_) ?_ hx.pos
      none units
    · rw [← h.second, hnow]
      refine ⟨fun j hj => ?_, by omega⟩
      have hle : x j ≤ x k := hx.strictMono.monotone (Nat.le_of_lt_succ hj)
      omega
    · omega
  | ended k due => exact absurd (hdue.symm.trans due) (Option.some_ne_none _)

/-- **One event.** -/
theorem step (h : Watch t0 u idle e aocd x es m) (hx : Instants u e x) (hidle : 0 < idle)
    {ev : Event} (ht : m.step ev = some t) : Watch t0 u idle e aocd x (es ++ [ev]) t := by
  cases ev with
  | activity =>
    cases ht
    exact h.activity
  | tick =>
    rw [Meter.step] at ht
    split at ht
    · cases ht
    · rename_i hdue
      cases ht
      exact h.tick hdue
  | fire =>
    rw [Meter.step] at ht
    split at ht
    · rename_i hdue
      cases ht
      exact h.fire hx hidle hdue
    · cases ht

/-- **A run.** -/
theorem run (h : Watch t0 u idle e aocd x es m) (hx : Instants u e x) (hidle : 0 < idle)
    {es' : List Event} (ht : m.run es' = some t) : Watch t0 u idle e aocd x (es ++ es') t := by
  induction es' generalizing es m with
  | nil =>
    cases ht
    rw [List.append_nil]
    exact h
  | cons ev es' ih =>
    rw [Meter.run, List.foldlM_cons] at ht
    obtain ⟨m', hm', ht⟩ := Option.bind_eq_some_iff.mp ht
    have h' := ih (h.step hx hidle hm') ht
    rw [List.append_assoc] at h'
    exact h'

/-- What has become of the call. -/
theorem outcome (h : Watch t0 u idle e aocd x es m) (hx : Instants u e x) :
    Outcome t0 idle x es m.disconnects := by
  cases h.phase with
  | check k state due early waiting none units =>
    rw [none]
    exact waiting.outcome hx.strictMono (h.second ▸ early)
  | margin k pos state due early waiting none units =>
    have hnext := hx.next k
    have hpos := hx.pos
    have hle : m.second ≤ x (k + 1) := by omega
    rw [none]
    exact waiting.outcome hx.strictMono (h.second ▸ hle)
  | ended k due once first units => exact .ended k once first

/-- Before the first event, nothing was asked. -/
theorem quiet (h : Watch t0 u idle e aocd x [] m) (hx : Instants u e x) : m.disconnects = [] := by
  cases h.outcome hx with
  | up none busy => exact none
  | ended k once first =>
    obtain ⟨pre, hpre, -⟩ := first.idles
    exact absurd (List.prefix_nil.mp hpre) (List.append_ne_nil_of_right_ne_nil _ (List.cons_ne_nil _ _))

/-- The units that were counted when the call is disconnected. -/
theorem units (h : Watch t0 u idle e aocd x es m) (hx : Instants u e x) (ha : aocd = false) {k : ℕ}
    (hk : m.disconnects = [x k]) : m.cunits = k + 1 := by
  cases h.phase with
  | check k' state due early waiting none units =>
    exact absurd (hk.symm.trans none) (List.cons_ne_nil _ _)
  | margin k' pos state due early waiting none units =>
    exact absurd (hk.symm.trans none) (List.cons_ne_nil _ _)
  | ended k' due once first units =>
    have heq : k = k' := hx.strictMono.injective (List.singleton_inj.mp (hk.symm.trans once))
    rw [heq]
    exact units ha

end Watch

/-! ## From the connection on -/

/-- An outgoing call that is about to be connected, with this shorthold data. -/
structure Dialled (m : Meter) (h : L3.Shorthold) : Prop where
  connected : m.connected = true
  used : m.cd.cdid ≠ cdidUnused
  outgoing : m.cd.dirIncoming = false
  notStarted : m.cd.idleState = .notStarted
  shorthold : m.cd.shorthold = h
  fresh : m.cunits = 0
  quiet : m.disconnects = []

/-- The timer is started, and the length of later units set. -/
theorem watch_start {u : Int} {next : Option Int} {x : ℕ → Int}
    (hnext : next.getD m.cd.shorthold.unitlenTime = u) (hc : m.connected = true)
    (hu : m.cd.cdid ≠ cdidUnused)
    (hs : m.cd.idleState = .started) (hl : m.cd.lastActiveTime = m.second) (hf : m.cunits = 0)
    (hq : m.disconnects = []) (hx : m.second + m.cd.shorthold.unitlenTime = x 0)
    (hle : m.second ≤ x 0) :
    Watch m.second u m.cd.shorthold.idleTime m.cd.shorthold.earlyhupTime m.cd.aocdFlag x []
      { m.i4bIdleCheck with
        cd := { m.i4bIdleCheck.cd with
          shorthold := { m.i4bIdleCheck.cd.shorthold with
            unitlenTime := next.getD m.i4bIdleCheck.cd.shorthold.unitlenTime } } } := by
  obtain ⟨units, out, heq, hout, hcount⟩ := idleStarted_eq m
  rw [i4bIdleCheck_started hc hu hs, heq]
  refine
    { connected := hc
      used := hu
      unitlen := hnext
      idleTime := rfl
      earlyhup := rfl
      aocdFlag := rfl
      second := rfl
      active := hl
      phase := .check 0 rfl (congrArg some hx) hle waiting_nil (hout.trans hq) fun ha => ?_
      only := fun _ pre hpre => absurd (List.prefix_nil.mp hpre) (by simp) }
  have h := hcount ha
  rw [hf] at h
  exact h

/-- With the variable unit algorithm. -/
theorem watch_variable {h : L3.Shorthold} (hm : Dialled m h) (hv : h.varu = true)
    (hU : 0 < h.unitlenTime) (hE : h.earlyhupTime < h.unitlenTime) (hI : 0 < h.idleTime) :
    Watch m.second 1 h.idleTime 0 true (fun k => m.second + (h.unitlenTime - 1) + k) []
      m.i4bL4ConnectActiveInd := by
  have hcond : m.cd.dirIncoming = false ∧ 0 < m.cd.shorthold.unitlenTime ∧
      m.cd.shorthold.earlyhupTime < m.cd.shorthold.unitlenTime := by
    rw [hm.shorthold]
    exact ⟨hm.outgoing, hU, hE⟩
  have hdata : shortholdData { m.cd with lastActiveTime := m.second } =
      ({ m.cd with
          lastActiveTime := m.second
          shorthold := { h with unitlenTime := h.unitlenTime - 1, earlyhupTime := 0 }
          aocdFlag := true }, some 1) := by
    rw [shortholdData, if_pos hcond, hm.shorthold, if_pos hv]
  rw [i4bL4ConnectActiveInd, i4bL4SetupTimeout, hdata]
  have hstart := hm.notStarted
  rw [if_pos ⟨hstart, .inr hI⟩]
  have hx : m.second + (h.unitlenTime - 1) = m.second + (h.unitlenTime - 1) + ((0 : ℕ) : Int) :=
    (Int.add_zero _).symm
  have hle : m.second ≤ m.second + (h.unitlenTime - 1) + ((0 : ℕ) : Int) := by omega
  exact watch_start (u := 1) (x := fun k => m.second + (h.unitlenTime - 1) + k)
    (m := { m with
      cd := { m.cd with
        lastActiveTime := m.second
        shorthold := { h with unitlenTime := h.unitlenTime - 1, earlyhupTime := 0 }
        aocdFlag := true
        idleState := .started } }) rfl hm.connected hm.used rfl rfl hm.fresh hm.quiet hx hle

/-- With the fixed unit algorithm. -/
theorem watch_fixed {h : L3.Shorthold} (hm : Dialled m h) (hv : h.varu = false)
    (hU : 0 < h.unitlenTime) (hE : h.earlyhupTime < h.unitlenTime) (hI : 0 < h.idleTime)
    {x : ℕ → Int} (hx : m.second + (h.unitlenTime - h.earlyhupTime) = x 0) :
    Watch m.second (h.unitlenTime - h.earlyhupTime) h.idleTime h.earlyhupTime m.cd.aocdFlag x []
      m.i4bL4ConnectActiveInd := by
  have hcond : m.cd.dirIncoming = false ∧ 0 < m.cd.shorthold.unitlenTime ∧
      m.cd.shorthold.earlyhupTime < m.cd.shorthold.unitlenTime := by
    rw [hm.shorthold]
    exact ⟨hm.outgoing, hU, hE⟩
  have hdata : shortholdData { m.cd with lastActiveTime := m.second } =
      ({ m.cd with
          lastActiveTime := m.second
          shorthold := { h with unitlenTime := h.unitlenTime - h.earlyhupTime } }, none) := by
    rw [shortholdData, if_pos hcond, hm.shorthold, if_neg (by rw [hv]; decide)]
  rw [i4bL4ConnectActiveInd, i4bL4SetupTimeout, hdata]
  have hstart := hm.notStarted
  rw [if_pos ⟨hstart, .inr hI⟩]
  have hle : m.second ≤ x 0 := by omega
  exact watch_start
    (m := { m with
      cd := { m.cd with
        lastActiveTime := m.second
        shorthold := { h with unitlenTime := h.unitlenTime - h.earlyhupTime }
        idleState := .started } }) rfl hm.connected hm.used rfl rfl hm.fresh hm.quiet hx hle

/-! ## Short hold -/

/-- The time of a check, counted from 0. -/
def checkTime (h : L3.Shorthold) (t0 : Int) (k : ℕ) : Int :=
  if h.varu then t0 + (h.unitlenTime - 1) + k
  else if 0 ≤ h.earlyhupTime then t0 + (k + 1) * h.unitlenTime - h.earlyhupTime
  else t0 + (k + 1) * (h.unitlenTime - h.earlyhupTime)

theorem checkTime_varu {h : L3.Shorthold} (hv : h.varu = true) (t0 : Int) :
    checkTime h t0 = fun k : ℕ => t0 + (h.unitlenTime - 1) + k :=
  funext fun _ => if_pos hv

/-- The first check of the fixed unit algorithm. -/
theorem checkTime_zero {h : L3.Shorthold} (hv : h.varu = false) (t0 : Int) :
    t0 + (h.unitlenTime - h.earlyhupTime) = checkTime h t0 0 := by
  rw [checkTime, if_neg (by rw [hv]; decide)]
  split
  · push_cast
    ring
  · push_cast
    ring

theorem instants_checkTime {h : L3.Shorthold} (hv : h.varu = false)
    (hE : h.earlyhupTime < h.unitlenTime) (t0 : Int) :
    Instants (h.unitlenTime - h.earlyhupTime) h.earlyhupTime (checkTime h t0) := by
  refine ⟨by omega, fun k => ?_⟩
  have hvaru : ¬ h.varu = true := by rw [hv]; decide
  rw [checkTime, checkTime, if_neg hvaru, if_neg hvaru]
  split
  · rename_i hpos
    rw [max_eq_left hpos]
    push_cast
    ring
  · rename_i hneg
    rw [max_eq_right (Int.le_of_lt (Int.not_le.mp hneg))]
    push_cast
    ring

/-- **When the call is connected, its checks are set**, with both algorithms. -/
theorem watch_dialled {h : L3.Shorthold} (hm : Dialled m h) (hU : 0 < h.unitlenTime)
    (hE : h.earlyhupTime < h.unitlenTime) (hI : 0 < h.idleTime) :
    ∃ u e aocd, Instants u e (checkTime h m.second) ∧
      Watch m.second u h.idleTime e aocd (checkTime h m.second) [] m.i4bL4ConnectActiveInd ∧
      (h.varu = false → aocd = m.cd.aocdFlag) ∧ (h.varu = true → e ≤ 0) := by
  cases hv : h.varu with
  | true =>
    rw [checkTime_varu hv]
    exact ⟨1, 0, true, ⟨by decide, fun k => by push_cast; omega⟩, watch_variable hm hv hU hE hI,
      fun hf => absurd hf (by decide), fun _ => le_rfl⟩
  | false =>
    exact ⟨_, _, _, instants_checkTime hv hE m.second,
      watch_fixed hm hv hU hE hI (checkTime_zero hv m.second), fun _ => rfl,
      fun hf => absurd hf (by decide)⟩

/-- **The shorthold mode.**  From its connection on, in every course of events, an outgoing call is
disconnected at the first check at which there was no activity for the idle time, and at no other time.
With the fixed unit algorithm, the checks are as long before the end of each unit as the margin is; a
negative margin is none, and makes units longer by as much.  If units are counted, they are counted up to
and including the one in which the call is disconnected.  With the variable unit algorithm, the first check
is a second before the end of the first unit, and then there is one each second. -/
theorem shorthold_hangup {h : L3.Shorthold} {es : List Event} (hm : Dialled m h) (hU : 0 < h.unitlenTime)
    (hE : h.earlyhupTime < h.unitlenTime) (hI : 0 < h.idleTime)
    (ht : m.i4bL4ConnectActiveInd.run es = some t) :
    Outcome m.second h.idleTime (checkTime h m.second) es t.disconnects ∧
      (h.varu = false → m.cd.aocdFlag = false →
        ∀ k, t.disconnects = [checkTime h m.second k] → t.cunits = k + 1) ∧
      (h.varu = true → ∀ pre, pre ++ [.fire] <+: es →
        ∃ k, now m.second pre = checkTime h m.second k) := by
  obtain ⟨u, e, aocd, hinst, hstart, haocd, he⟩ := watch_dialled hm hU hE hI
  have hw := hstart.run hinst hI ht
  exact ⟨hw.outcome hinst, fun hv ha k hk => hw.units hinst ((haocd hv).trans ha) hk,
    fun hv => hw.only (he hv)⟩

/-! ## The controller -/

variable {n : ℕ} {s : L3.Cntl n} {i : Fin n}

theorem connected_idleStarted (s : L3.Cntl n) (i : Fin n) :
    (s.idleStarted i).connected = s.connected := by
  rw [L3.Cntl.idleStarted]
  split
  · rfl
  · rfl

theorem cd_idleStarted (hcd : m.cd = s.cd i) : (s.idleStarted i).cd i = m.idleStarted.cd := by
  rw [L3.Cntl.idleStarted, idleStarted, hcd, L3.Cntl.modify_cd_self]
  split
  · rw [calloutReset, hcd]
  · rw [calloutReset, charge, hcd]
    rfl

theorem connected_i4bIdleCheck (m : Meter) : m.i4bIdleCheck.connected = m.connected := by
  have hstarted (m : Meter) : m.idleStarted.connected = m.connected := by
    obtain ⟨units, out, heq, -⟩ := idleStarted_eq m
    rw [heq]
    rfl
  rw [i4bIdleCheck]
  split
  · split
    · rfl
    · exact hstarted m
    · dsimp only
      split
      · split
        · exact hstarted m
        · rfl
      · rfl
  · rfl

/-- **The idle check of the controller** does to the descriptor what it does here, and asks layer 3 to
disconnect when it does so here. -/
theorem cd_i4bIdleCheck (env : L3.Env) (hcd : m.cd = s.cd i) (hc : m.connected = s.connected)
    (ht : env.time s.asks = m.second) :
    ∃ u : L3.Cntl n, u.cd i = m.i4bIdleCheck.cd ∧ u.connected = m.i4bIdleCheck.connected ∧
      ((m.i4bIdleCheck.disconnects = m.disconnects ∧ s.i4bIdleCheck env i = u) ∨
        (m.i4bIdleCheck.disconnects = m.disconnects ++ [m.second] ∧
          s.i4bIdleCheck env i = u.nDisconnectRequest env i causeI4bNormal)) := by
  have hquiet : m.idleStarted.disconnects = m.disconnects := by
    obtain ⟨units, out, heq, hout, -⟩ := idleStarted_eq m
    rw [heq]
    exact hout
  rw [connected_i4bIdleCheck, L3.Cntl.i4bIdleCheck, i4bIdleCheck, ← hcd, ← hc]
  split
  · cases hs : m.cd.idleState with
    | notStarted => exact ⟨s, hcd.symm, hc.symm, .inl ⟨rfl, rfl⟩⟩
    | started => exact ⟨_, cd_idleStarted hcd, (connected_idleStarted s i).trans hc.symm, .inl ⟨hquiet, rfl⟩⟩
    | check =>
      dsimp only
      have htime : env.time s.ask.1 = m.second := ht
      rw [htime]
      split
      · have hask : m.cd = s.ask.2.cd i := hcd
        split
        · exact ⟨_, cd_idleStarted hask, (connected_idleStarted s.ask.2 i).trans hc.symm, .inl ⟨hquiet, rfl⟩⟩
        · refine ⟨s.ask.2.modify i fun cd => { cd with idleState := .started, idleCallout := true },
            ?_, hc.symm, .inl ⟨rfl, rfl⟩⟩
          rw [L3.Cntl.modify_cd_self]
          exact congrArg (fun cd : CallDesc => { cd with idleState := .started, idleCallout := true })
            hcd.symm
      · refine ⟨(s.ask.2.modify i fun cd => { cd with idleState := .notStarted }).tell i .idleTimeout,
          ?_, hc.symm, .inr ⟨disconnects_hangup m, rfl⟩⟩
        have hcd' : ((s.ask.2.modify i fun cd => { cd with idleState := .notStarted }).tell i
            .idleTimeout).cd i = { s.cd i with idleState := .notStarted } :=
          L3.Cntl.modify_cd_self s.ask.2 i fun cd => { cd with idleState := .notStarted }
        rw [hcd', ← hcd]
        rfl
  · exact ⟨s, hcd.symm, hc.symm, .inl ⟨rfl, rfl⟩⟩

theorem cd_started (hcd : m.cd = s.cd i) (hc : m.connected = s.connected)
    (hs : m.cd.idleState = .started) :
    (if s.connected = true ∧ (s.cd i).cdid ≠ cdidUnused then s.idleStarted i else s).cd i
      = m.i4bIdleCheck.cd := by
  rw [i4bIdleCheck, hs, ← hcd, ← hc]
  split
  · exact cd_idleStarted hcd
  · exact hcd.symm

/-- **The same for the setup.** -/
theorem cd_i4bL4SetupTimeout (hcd : m.cd = s.cd i) (hc : m.connected = s.connected) :
    (s.i4bL4SetupTimeout i).cd i = m.i4bL4SetupTimeout.cd := by
  have hcd1 : (s.modify i fun cd => (shortholdData cd).1).cd i = (shortholdData m.cd).1 := by
    rw [L3.Cntl.modify_cd_self, hcd]
  rw [L3.Cntl.i4bL4SetupTimeout, i4bL4SetupTimeout]
  dsimp only
  rw [L3.Cntl.modify_cd_self, hcd1, ← hcd]
  split
  · have hcd2 : { (shortholdData m.cd).1 with idleState := IdleState.started } =
        ((s.modify i fun cd => (shortholdData cd).1).modify i fun cd =>
          { cd with idleState := .started }).cd i := by
      rw [L3.Cntl.modify_cd_self, hcd1]
    have h := cd_started (m := { m with
      cd := { (shortholdData m.cd).1 with idleState := .started } }) hcd2 hc rfl
    rw [← h]
  · rw [hcd1]

theorem connected_i4bL4SetupTimeout (s : L3.Cntl n) (i : Fin n) :
    (s.i4bL4SetupTimeout i).connected = s.connected := by
  rw [L3.Cntl.i4bL4SetupTimeout]
  dsimp only
  split
  · split
    · exact connected_idleStarted _ i
    · rfl
  · rfl

/-- The call is, for the controller, what it is here. -/
structure Follows (m : Meter) (s : L3.Cntl n) (i : Fin n) : Prop where
  cd : m.cd = s.cd i
  connected : m.connected = s.connected

/-- **The connection of the controller**, if that is the time when it is asked for. -/
theorem Follows.i4bL4ConnectActiveInd (h : Follows m s i) {env : L3.Env}
    (ht : env.time s.asks = m.second) :
    m.i4bL4ConnectActiveInd.cd = (s.i4bL4ConnectActiveInd env i).cd i ∧
      (s.i4bL4ConnectActiveInd env i).connected = m.connected := by
  have hcd : { m.cd with lastActiveTime := m.second } =
      (s.ask.2.modify i fun cd => { cd with lastActiveTime := env.time s.ask.1 }).cd i := by
    rw [L3.Cntl.modify_cd_self, h.cd, ← ht]
    rfl
  exact ⟨(cd_i4bL4SetupTimeout (m := { m with cd := { m.cd with lastActiveTime := m.second } }) hcd
    h.connected).symm, (connected_i4bL4SetupTimeout _ i).trans h.connected.symm⟩

/-- What the controller does, at this time: the B channel driver notes activity in the descriptor, or the
timer of the call expires.  In the course of a second it does what it likes, if it leaves the call as it
is. -/
inductive Serves (env : L3.Env) (i : Fin n) (second : Int) (s : L3.Cntl n) :
    Event → L3.Cntl n → Prop where
  | activity : Serves env i second s .activity (s.modify i fun cd => { cd with lastActiveTime := second })
  | tick {s' : L3.Cntl n} (cd : s'.cd i = s.cd i) (connected : s'.connected = s.connected) :
    Serves env i second s .tick s'
  | fire {s' : L3.Cntl n} (time : env.time s.asks = second)
    (step : s.step env (.idleTimeout i) = some s') : Serves env i second s .fire s'

/-- A course of events, until the call is to be disconnected. -/
inductive Course (env : L3.Env) (i : Fin n) (m : Meter) (s : L3.Cntl n) :
    List Event → Meter → L3.Cntl n → Prop where
  | nil : Course env i m s [] m s
  | concat {es : List Event} {ev : Event} {t t' : Meter} {u u' : L3.Cntl n}
    (init : Course env i m s es t u) (up : t.disconnects = []) (step : t.step ev = some t')
    (serves : Serves env i t.second u ev u') : Course env i m s (es ++ [ev]) t' u'

/-- **One event**: the call is still the same for both, or the controller is asked to disconnect it, in the
second in which it is so here. -/
theorem Follows.serves (h : Follows m s i) (hm : m.disconnects = []) {env : L3.Env} {ev : Event}
    {s' : L3.Cntl n} (ht : m.step ev = some t) (hs : Serves env i m.second s ev s') :
    (t.disconnects = [] ∧ Follows t s' i) ∨
      (t.disconnects = [m.second] ∧
        ∃ u : L3.Cntl n, s' = u.nDisconnectRequest env i causeI4bNormal) := by
  cases hs with
  | activity =>
    cases ht
    refine .inl ⟨hm, ?_, h.connected⟩
    rw [L3.Cntl.modify_cd_self, h.cd]
  | tick cd connected =>
    rw [step] at ht
    split at ht
    · cases ht
    · cases ht
      exact .inl ⟨hm, h.cd.trans cd.symm, h.connected.trans connected.symm⟩
  | fire time step =>
    rw [Meter.step] at ht
    split at ht
    · cases ht
      rw [L3.Cntl.step] at step
      split at step
      · dsimp only at step
        split at step
        · cases step
        · cases step
          have hcd : m.fired.cd = (s.modify i fun cd => { cd with idleCallout := false }).cd i := by
            rw [L3.Cntl.modify_cd_self, fired, h.cd]
          obtain ⟨u, hu, hc, ⟨hd, heq⟩ | ⟨hd, heq⟩⟩ :=
            cd_i4bIdleCheck env hcd h.connected time
          · refine .inl ⟨hd.trans hm, ?_⟩
            rw [L3.Cntl.perform, heq]
            exact ⟨hu.symm, hc.symm⟩
          · exact .inr ⟨hd.trans (congrArg (· ++ [m.second]) hm), u, heq⟩
      · cases step
    · cases ht

/-- **A course of events**: it is one for the timer too, and as long as the call is up, it is the same for
both; after it, the last thing the controller did was to ask for the disconnection. -/
theorem Course.follows {env : L3.Env} {es : List Event} {s' : L3.Cntl n} (h : Follows m s i)
    (hm : m.disconnects = []) (hc : Course env i m s es t s') :
    m.run es = some t ∧ ((t.disconnects = [] ∧ Follows t s' i) ∨
      (t.disconnects ≠ [] ∧ ∃ u : L3.Cntl n, s' = u.nDisconnectRequest env i causeI4bNormal)) := by
  induction hc with
  | nil => exact ⟨rfl, .inl ⟨hm, h⟩⟩
  | @concat es ev t t' u u' init up step serves ih =>
    obtain ⟨hrun, ⟨-, hf⟩ | ⟨hne, -⟩⟩ := ih
    · refine ⟨?_, ?_⟩
      · rw [Meter.run, List.foldlM_append, ← Meter.run, hrun]
        exact (bind_pure _).trans step
      · rcases hf.serves up step serves with hup | ⟨hd, hu⟩
        · exact .inl hup
        · exact .inr ⟨by rw [hd]; exact List.cons_ne_nil _ _, hu⟩
    · exact absurd up hne

/-- **The shorthold mode of the controller**, whatever else it does: from the connection on, until the
first check at which there was no activity for the idle time, the call is left as the timer has it, and at
this check layer 3 is asked to disconnect it. -/
theorem Course.hangup {env : L3.Env} {es : List Event} {s' : L3.Cntl n} {h : L3.Shorthold}
    (hf : Follows m s i) (hm : Dialled m h) (hU : 0 < h.unitlenTime)
    (hE : h.earlyhupTime < h.unitlenTime) (hI : 0 < h.idleTime) (htime : env.time s.asks = m.second)
    (hc : Course env i m.i4bL4ConnectActiveInd (s.i4bL4ConnectActiveInd env i) es t s') :
    (Outcome m.second h.idleTime (checkTime h m.second) es [] ∧ s'.cd i = t.cd) ∨
      ∃ k, First m.second h.idleTime (checkTime h m.second) es k ∧
        ∃ u : L3.Cntl n, s' = u.nDisconnectRequest env i causeI4bNormal := by
  obtain ⟨u, e, aocd, hinst, hstart, -⟩ := watch_dialled hm hU hE hI
  obtain ⟨hcd, hconn⟩ := hf.i4bL4ConnectActiveInd htime
  have hf' : Follows m.i4bL4ConnectActiveInd (s.i4bL4ConnectActiveInd env i) i :=
    ⟨hcd, hstart.connected.trans (hconn.trans hm.connected).symm⟩
  obtain ⟨hrun, ⟨hup, hcall⟩ | ⟨hne, hdone⟩⟩ := Course.follows hf' (hstart.quiet hinst) hc
  · refine .inl ⟨?_, hcall.cd.symm⟩
    rw [← hup]
    exact (hstart.run hinst hI hrun).outcome hinst
  · refine .inr ?_
    cases (hstart.run hinst hI hrun).outcome hinst with
    | up none busy => exact absurd none hne
    | ended k once first => exact ⟨k, first, hdone⟩

/-- A call that was dialled, at second 100. -/
def ofShorthold (h : L3.Shorthold) : Meter :=
  ⟨{ cdid := 1, shorthold := h }, true, 100, 0, none, []⟩

theorem dialled_ofShorthold (h : L3.Shorthold) : Dialled (ofShorthold h) h :=
  ⟨rfl, (by decide : 1 ≠ cdidUnused), rfl, rfl, rfl, rfl, rfl⟩

/-- With units of three seconds, a margin of one, and two seconds without activity: the last activity is a
second before the first check, and the second check disconnects. -/
theorem shorthold_second_unit :
    ∃ t, (ofShorthold ⟨false, 3, 2, 1⟩).i4bL4ConnectActiveInd.run
        [.tick, .activity, .tick, .fire, .tick, .fire, .tick, .tick, .fire] = some t ∧
      t.disconnects = [105] ∧
      Outcome 100 2 (checkTime ⟨false, 3, 2, 1⟩ 100)
        [.tick, .activity, .tick, .fire, .tick, .fire, .tick, .tick, .fire] t.disconnects ∧
      t.cunits = 2 := by
  have hrun : ((ofShorthold ⟨false, 3, 2, 1⟩).i4bL4ConnectActiveInd.run
      [.tick, .activity, .tick, .fire, .tick, .fire, .tick, .tick, .fire]).map Meter.disconnects
      = some [105] := by decide
  obtain ⟨t, ht, hd⟩ := Option.map_eq_some_iff.mp hrun
  obtain ⟨hout, hunits, -⟩ :=
    shorthold_hangup (dialled_ofShorthold _) (by decide) (by decide) (by decide) ht
  exact ⟨t, ht, hd, hout, hunits rfl rfl 1 hd⟩

/-- With a negative margin the checks are not at the ends of the units, moved by the margin: here the
second one is a second late. -/
theorem shorthold_negative_margin :
    ¬ ∀ (m t : Meter) (U I E : Int) (es : List Event), Dialled m ⟨false, U, I, E⟩ → 0 < U → E < U →
      0 < I → m.i4bL4ConnectActiveInd.run es = some t →
      Outcome m.second I (fun k => m.second + (k + 1) * U - E) es t.disconnects := by
  intro h
  have hrun : ((ofShorthold ⟨false, 1, 5, -1⟩).i4bL4ConnectActiveInd.run
      [.tick, .tick, .fire, .tick, .tick]).map Meter.disconnects = some [] := by decide
  obtain ⟨t, ht, hd⟩ := Option.map_eq_some_iff.mp hrun
  have hout := h _ t 1 5 (-1) _ (dialled_ofShorthold _) (by decide) (by decide) (by decide) ht
  rw [hd] at hout
  cases hout with
  | up none busy =>
    -- the claimed second check, at second 103
    obtain ⟨pre, hpre, hnow⟩ := (busy 1 (by decide)).fired
    have hall : ∀ p ∈ [Event.tick, .tick, .fire, .tick, .tick].inits,
        p.getLast? = some .fire → now 100 p.dropLast ≠ 103 := by decide
    refine hall _ ((List.mem_inits _ _).mpr hpre) List.getLast?_concat ?_
    rw [List.dropLast_concat]
    exact hnow
  | ended k once first => exact absurd once.symm (List.cons_ne_nil _ _)

end Meter

end Shorthold
end Isdn4bsd
