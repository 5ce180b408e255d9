import Mathlib.Tactic

/-!
# The activation of a line

A line is activated when a call needs it, kept up while there are calls, and given up when it was not used
for a while.  `ihfc_fsm_update` drives the state machine of the chip, by a table that is different for each
kind of chip; `cd_set_pipe` counts the calls, and a timer of layer 2 looks for a line that is not used.

* `FsmTable` : what the driver knows of a chip.
* `Line` : the line, with what layers 1, 2 and 3 keep of it, and `Line.step`.
* `Line.Kept` : **what holds all the time**: the count is that of the calls, layer 2 knows the state that
  was read last, and its timer runs if and only if there is no call.
* `Line.run_tries` : **the activation is never given up** while there is a call.
* `Line.run_keeps` : **a line in use is not taken down**.
* `Line.run_idle` : a line is not taken down before it was idle for a whole interval of the timer.
* `Line.run_saves` : an idle line is taken down.

## Three layers and one line

Each layer has its own idea of the line.  The chip is in one of sixteen states, which the driver can only read.  Layer
1 knows whether the state it has read counts as active, and has a timer `T3` for an activation that does not come
to an end.  Layer 2 has the count `L1_auto_activate`, to which layer 1 has been given a pointer, a copy of
whether the line is active, and a timer for a line that is not needed.  Layer 3 counts calls, up and down, in
`cd_set_pipe`.  `Line` is all of this together, and an event is whatever can happen to one of them.

The chip may change its state whenever it likes, and this is an event too, after which it has an interrupt; so
the results do not depend on what a chip makes of a command.  They need of a table only what is a field of it:
that a state which is up has nothing in it that takes it down (`keeps`), which is checked for each of the
tables here.

## Progress

That the activation goes on cannot say that the line comes up, which is the other end's business.  It says that there
always is something that will try again: while a call has a pipe and the line is not active, `T3` runs or an
interrupt is there to be served, and whichever of them comes leaves the line active, or `T3` running again.

For the other direction the timer of layer 2 has to fire several times: the first time it may see a frame that was
received since, then it begins to count, and then it takes the line down.  `Idle` is what has to be so meanwhile.
-/

set_option autoImplicit false

namespace Isdn4bsd
namespace L1

/-! ## The tables -/

/-- `struct fsm_state`, without its description. -/
structure FsmState where
  pending : Bool
  active : Bool
  canUp : Bool
  canDown : Bool
  command : Bool
  index : ℕ
  deriving DecidableEq, Repr, Inhabited

/-- The states of `struct fsm_table`.  Command 0 activates and command 1 deactivates, in all tables. -/
structure FsmTable where
  state : List FsmState
  /-- A chip that is active is not deactivated of itself. -/
  keeps : ∀ s ∈ state, s.active = true → s.command = true → s.index ≠ 1

/-- An entry, as the source writes it. -/
def FsmState.of (pending active canUp canDown command index : ℕ) : FsmState :=
  ⟨pending ≠ 0, active ≠ 0, canUp ≠ 0, canDown ≠ 0, command ≠ 0, index⟩

/-- `hfc_fsm_table`. -/
def hfcFsmTable : FsmTable where
  state :=
    [.of 0 0 0 0 1 2, .of 0 0 0 0 0 1, .of 0 0 0 0 0 0, .of 0 0 1 0 0 0, .of 1 0 0 1 0 0, .of 1 0 0 1 0 0,
      .of 1 0 0 1 0 0, .of 0 1 0 0 0 0, .of 0 0 0 0 0 0, .of 0 0 0 0 1 2, .of 0 0 1 0 0 0, .of 0 0 0 1 1 3,
      .of 0 1 0 1 1 4, .of 0 0 1 0 0 0, .of 0 0 0 0 0 14, .of 0 0 0 0 0 15]
  keeps := by decide

/-- `hfce1_fsm_table`. -/
def hfce1FsmTable : FsmTable where
  state :=
    [.of 0 0 1 0 0 0, .of 0 1 0 1 0 0, .of 0 1 0 1 0 0, .of 1 1 0 1 0 0, .of 1 0 0 1 0 0, .of 0 1 0 1 0 0,
      .of 0 0 0 1 0 0, .of 0 0 0 0 0 7, .of 0 0 0 0 0 8, .of 0 0 1 0 0 0, .of 0 1 0 1 0 0, .of 0 0 0 0 0 0,
      .of 1 1 0 1 0 0, .of 0 0 0 0 0 0, .of 1 0 0 1 0 0, .of 0 0 0 1 0 0]
  keeps := by decide

/-- `isac_fsm_table`. -/
def isacFsmTable : FsmTable where
  state :=
    [.of 0 0 1 1 1 1, .of 0 0 0 0 0 1, .of 0 0 0 0 0 2, .of 0 0 0 0 0 3, .of 1 0 0 1 0 0, .of 0 0 0 0 0 5,
      .of 1 0 0 0 1 1, .of 0 0 0 1 0 0, .of 1 0 0 1 0 0, .of 0 0 0 0 0 9, .of 0 0 0 0 0 0, .of 0 0 0 0 0 0,
      .of 0 1 0 0 1 0, .of 0 1 0 0 1 0, .of 0 0 0 0 0 14, .of 0 0 1 0 0 0]
  keeps := by decide

/-! ## The line -/

/-- `++` of a `uint32_t`. -/
def inc (n : ℕ) : ℕ := (n + 1) % 2 ^ 32

/-- `--` of a `uint32_t`. -/
def dec (n : ℕ) : ℕ := if n = 0 then 2 ^ 32 - 1 else n - 1

theorem inc_eq {n : ℕ} (h : n + 1 < 2 ^ 32) : inc n = n + 1 := Nat.mod_eq_of_lt h

theorem dec_eq {n : ℕ} (h : n ≠ 0) : dec n = n - 1 := if_neg h

/-- The flag of `ihfc_fsm_update`. -/
inductive Flag where
  | read
  | activate
  | deactivate
  | timeout
  deriving DecidableEq, Repr

/-- A line. -/
structure Line where
  table : FsmTable
  /-- The state of the chip, as `FSM_READ` gives it. -/
  code : ℕ
  /-- The chip has an interrupt for its state. -/
  irq : Bool
  /-- `st->state` : the last known state. -/
  state : FsmState
  /-- `T3callout` is pending. -/
  t3 : Bool
  /-- `sc->L1_activity`. -/
  l1Activity : Bool
  /-- `sc->L1_auto_activate`. -/
  l1AutoActivate : ℕ
  /-- `sc->L1_deactivate_count`. -/
  l1DeactivateCount : Bool
  /-- `sc->sc_received_frame`. -/
  receivedFrame : Bool
  /-- `L1_activity_callout` is pending. -/
  activityCallout : Bool
  /-- `cntl->no_power_save`. -/
  noPowerSave : Bool
  /-- `pipe->refcount`. -/
  refcount : ℕ → ℕ
  /-- `cd->pipe` of the call descriptors. -/
  cds : List (Option ℕ)

namespace Line

/-- A line with `n` call descriptors, when its driver is attached. -/
def attach (table : FsmTable) (n : ℕ) : Line where
  table
  code := 0
  irq := false
  state := default
  t3 := false
  l1Activity := false
  l1AutoActivate := 0
  l1DeactivateCount := false
  receivedFrame := false
  activityCallout := false
  noPowerSave := false
  refcount := fun _ => 0
  cds := List.replicate n none

/-- `fsm_read`. -/
def fsmRead (l : Line) : FsmState := l.table.state.getD (l.code &&& 0xf) default

/-- What becomes of the flag of `ihfc_fsm_update`. -/
def fsmFlag (l : Line) (flag : Flag) : Flag :=
  -- the line went down while there are references
  let flag :=
    if flag = .read ∧ l.l1AutoActivate ≠ 0 ∧ ¬ l.fsmRead.active ∧ ¬ l.t3 then .timeout else flag
  if flag = .timeout then
    if l.fsmRead.active then .read else if l.l1AutoActivate = 0 then .deactivate else .timeout
  else flag

/-- `ihfc_fsm_update`, with the commands that are written to the chip. -/
def fsmUpdate (l : Line) (flag : Flag) : Line × List ℕ :=
  let s := l.fsmRead
  let flag := l.fsmFlag flag
  let up := flag = .activate ∨ flag = .timeout
  let down := flag = .deactivate ∨ flag = .timeout
  ({ l with
      t3 := l.t3 || decide up
      l1Activity := if l.state.active ≠ s.active then s.active else l.l1Activity
      state := s },
    (if s.command then [s.index] else []) ++ (if down ∧ s.canDown then [1] else []) ++
      (if up ∧ s.canUp then [0] else []))

/-- `dss1_L1_activity_timeout`. -/
def l1ActivityTimeout (l : Line) : Line × List ℕ :=
  let r :=
    if l.l1Activity ∧ l.l1AutoActivate = 0 ∧ ¬ l.receivedFrame ∧ ¬ l.noPowerSave then
      if l.l1DeactivateCount then
        let r := l.fsmUpdate .deactivate
        ({ r.1 with l1DeactivateCount := false }, r.2)
      else ({ l with l1DeactivateCount := true }, [])
    else ({ l with l1DeactivateCount := false, receivedFrame := false }, [])
  ({ r.1 with activityCallout := true }, r.2)

/-- `dss1_L1_deactivate_req`. -/
def l1DeactivateReq (l : Line) : Line × List ℕ :=
  let l := { l with l1AutoActivate := dec l.l1AutoActivate }
  if l.l1AutoActivate = 0 then l.l1ActivityTimeout else (l, [])

/-- `dss1_L1_activate_req`. -/
def l1ActivateReq (l : Line) : Line × List ℕ :=
  let old := l.l1AutoActivate
  let l := { l with l1AutoActivate := inc l.l1AutoActivate }
  if old = 0 then
    ({ l with activityCallout := false, l1DeactivateCount := false } : Line).fsmUpdate .activate
  else (l, [])

/-- A change of `pipe->refcount`. -/
def setRef (l : Line) (p : ℕ) (f : ℕ → ℕ) : Line :=
  { l with refcount := Function.update l.refcount p (f (l.refcount p)) }

/-- `cd_set_pipe`. -/
def cdSetPipe (l : Line) (i : ℕ) (pipe : Option ℕ) : Line × List ℕ :=
  let old := l.cds.getD i none
  let r :=
    match pipe with
    | some p => (l.setRef p inc).l1ActivateReq
    | none => (l, [])
  let r' :=
    match old with
    | some p => (r.1.setRef p dec).l1DeactivateReq
    | none => (r.1, [])
  ({ r'.1 with cds := r'.1.cds.set i pipe }, r.2 ++ r'.2)

/-- `dss1_setup_ft` : layer 2 is connected to the line. -/
def setup (l : Line) : Line :=
  let l :=
    { l with
      cds := l.cds.map fun _ => none
      refcount := fun _ => 0
      l1Activity := false
      l1AutoActivate := 0
      l1DeactivateCount := false
      receivedFrame := false }
  let l := l.l1ActivityTimeout.1
  -- `CMR_SET_L1_ACTIVITY_VARIABLE`
  { l with l1Activity := l.state.active }

/-- What happens to a line. -/
inductive Event where
  /-- The chip goes to another state. -/
  | chip (code : ℕ)
  /-- The interrupt of the chip. -/
  | interrupt
  /-- `T3callout`. -/
  | t3
  /-- `L1_activity_callout`. -/
  | activity
  /-- `dss1_l2_put_mbuf`. -/
  | frame
  /-- `cd_set_pipe` for a call descriptor. -/
  | setPipe (i : ℕ) (pipe : Option ℕ)
  /-- `ihfc_reset`, and the state of the chip then. -/
  | reset (code : ℕ)
  /-- `cntl->no_power_save`. -/
  | powerSave (off : Bool)
  /-- `CMR_PH_ACTIVATE`, for a program. -/
  | phActivate
  /-- `CMR_PH_DEACTIVATE`, for a program. -/
  | phDeactivate
  deriving DecidableEq, Repr

/-- What an event does. -/
def step (l : Line) : Event → Line × List ℕ
  | .chip code => ({ l with code, irq := true }, [])
  | .interrupt => if l.irq then ({ l with irq := false } : Line).fsmUpdate .read else (l, [])
  | .t3 => if l.t3 then ({ l with t3 := false } : Line).fsmUpdate .timeout else (l, [])
  | .activity =>
    if l.activityCallout then ({ l with activityCallout := false } : Line).l1ActivityTimeout else (l, [])
  | .frame => ({ l with receivedFrame := true }, [])
  | .setPipe i pipe => if i < l.cds.length then l.cdSetPipe i pipe else (l, [])
  | .reset code =>
    ({ l with code } : Line).fsmUpdate (if l.state.active then .activate else .read)
  | .powerSave off => ({ l with noPowerSave := off }, [])
  | .phActivate => l.fsmUpdate .activate
  | .phDeactivate => l.fsmUpdate .deactivate

/-- A line after some events. -/
def run (l : Line) : List Event → Line
  | [] => l
  | e :: es => (l.step e).1.run es

/-! ## What holds all the time -/

/-- The call descriptors that have a pipe. -/
def refs (l : Line) : ℕ := l.cds.countP Option.isSome

/-- What is known and counted. -/
structure Counted (l : Line) : Prop where
  small : l.cds.length + 1 < 2 ^ 32
  refs : l.l1AutoActivate = l.refs
  pipes : ∀ p, l.refcount p = l.cds.count (some p)
  known : l.l1Activity = l.state.active

/-- **What holds all the time.** -/
structure Kept (l : Line) : Prop extends Counted l where
  /-- The timer of layer 2 runs while there are no calls. -/
  timer : l.activityCallout = true ↔ l.refs = 0
  idle : l.refs ≠ 0 → l.l1DeactivateCount = false
  /-- A line that calls need is up, or the driver is going to do something about it. -/
  tries : l.refs ≠ 0 → l.fsmRead.active = false → l.t3 = true ∨ l.irq = true

theorem refs_le (l : Line) : l.refs ≤ l.cds.length := List.countP_le_length

theorem refs_set {l : Line} {i : ℕ} (hi : i < l.cds.length) (pipe : Option ℕ) :
    (l.cds.set i pipe).countP Option.isSome + (if l.cds[i].isSome then 1 else 0)
      = l.refs + (if pipe.isSome then 1 else 0) := by
  have hpos : l.cds[i].isSome = true → 0 < l.refs := fun hsome =>
    List.countP_pos_iff.mpr ⟨_, List.getElem_mem hi, hsome⟩
  rw [List.countP_set hi, refs]
  rw [refs] at hpos
  split
  next hsome =>
    have := hpos hsome
    omega
  next => omega

theorem count_set_add {l : Line} {i : ℕ} (hi : i < l.cds.length) (pipe : Option ℕ) (p : ℕ) :
    (l.cds.set i pipe).count (some p) + (if l.cds[i] = some p then 1 else 0)
      = l.cds.count (some p) + (if pipe = some p then 1 else 0) := by
  have hpos : l.cds[i] = some p → 0 < l.cds.count (some p) := fun heq =>
    List.count_pos_iff.mpr (heq ▸ List.getElem_mem hi)
  rw [List.count_set hi]
  by_cases heq : l.cds[i] = some p
  · have := hpos heq
    by_cases hnew : pipe = some p <;> simp [heq, hnew] <;> omega
  · by_cases hnew : pipe = some p <;> simp [heq, hnew]

/-! ## `ihfc_fsm_update` -/

theorem fsmRead_mem {l : Line} (h : l.fsmRead.active = true) : l.fsmRead ∈ l.table.state := by
  rw [fsmRead, List.getD_eq_getElem?_getD] at h ⊢
  cases hget : l.table.state[l.code &&& 0xf]? with
  | none =>
    have hdefault : (default : FsmState).active = false := rfl
    rw [hget, Option.getD_none, hdefault] at h
    exact Bool.noConfusion h
  | some s => exact List.mem_of_getElem? hget

theorem Counted.fsmUpdate {l : Line} (h : l.Counted) (flag : Flag) : (l.fsmUpdate flag).1.Counted := by
  refine ⟨h.small, h.refs, h.pipes, ?_⟩
  have hknown := h.known
  simp only [Line.fsmUpdate]
  split
  next => rfl
  next heq =>
    rw [not_not] at heq
    rw [hknown, heq]

/-- When the line is needed and is not up, `T3` is running afterwards. -/
theorem fsmUpdate_t3 {l : Line} {flag : Flag} (hauto : l.l1AutoActivate ≠ 0) (hdown : l.fsmRead.active = false)
    (hflag : flag ≠ .deactivate) : (l.fsmUpdate flag).1.t3 = true := by
  simp only [fsmUpdate, fsmFlag, hdown]
  cases flag with
  | deactivate => exact absurd rfl hflag
  | read => cases ht : l.t3 <;> simp [hauto]
  | activate => simp
  | timeout => simp [hauto]

/-- A timer that is running is not stopped. -/
theorem fsmUpdate_t3_mono {l : Line} {flag : Flag} (h : l.t3 = true) : (l.fsmUpdate flag).1.t3 = true := by
  simp [fsmUpdate, h]

theorem Counted.kept_fsmUpdate {l : Line} (h : l.Counted) (htimer : l.activityCallout = true ↔ l.refs = 0)
    (hidle : l.refs ≠ 0 → l.l1DeactivateCount = false) {flag : Flag} (hflag : flag ≠ .deactivate) :
    (l.fsmUpdate flag).1.Kept :=
  ⟨h.fsmUpdate flag, htimer, hidle, fun hrefs hdown =>
    .inl (fsmUpdate_t3 (h.refs.symm ▸ hrefs) hdown hflag)⟩

theorem Kept.fsmUpdate {l : Line} (h : l.Kept) (flag : Flag) : (l.fsmUpdate flag).1.Kept :=
  ⟨h.toCounted.fsmUpdate flag, h.timer, h.idle, fun hrefs hdown =>
    (h.tries hrefs hdown).imp_left fun ht => fsmUpdate_t3_mono ht⟩

/-- **A line that is up and needed is not taken down** by a call of `ihfc_fsm_update`, unless it says so. -/
theorem fsmUpdate_keeps {l : Line} {flag : Flag} (hup : l.fsmRead.active = true) (hflag : flag ≠ .deactivate) :
    1 ∉ (l.fsmUpdate flag).2 := by
  have hindex : l.fsmRead.command = true → l.fsmRead.index ≠ 1 := l.table.keeps _ (fsmRead_mem hup) hup
  have hdown : ¬ (l.fsmFlag flag = .deactivate ∨ l.fsmFlag flag = .timeout) := by
    simp only [fsmFlag, hup]
    cases flag <;> simp_all
  simp only [fsmUpdate, List.mem_append, not_or]
  refine ⟨⟨?_, ?_⟩, ?_⟩
  · split
    next hc => simpa using Ne.symm (hindex hc)
    next => simp
  · rw [if_neg fun h => hdown h.1]
    simp
  · split <;> simp

theorem fsmUpdate_deactivate {l : Line} (h : l.fsmRead.canDown = true) : 1 ∈ (l.fsmUpdate .deactivate).2 := by
  simp [Line.fsmUpdate, fsmFlag, h]

/-! ## The timer of layer 2 -/

theorem l1ActivityTimeout_same (l : Line) :
    l.l1ActivityTimeout.1.cds = l.cds ∧ l.l1ActivityTimeout.1.refcount = l.refcount ∧
      l.l1ActivityTimeout.1.l1AutoActivate = l.l1AutoActivate ∧ l.l1ActivityTimeout.1.activityCallout = true ∧
      l.l1ActivityTimeout.1.table = l.table ∧ l.l1ActivityTimeout.1.code = l.code := by
  rw [l1ActivityTimeout]
  split
  · split <;> exact ⟨rfl, rfl, rfl, rfl, rfl, rfl⟩
  · exact ⟨rfl, rfl, rfl, rfl, rfl, rfl⟩

theorem Counted.l1ActivityTimeout {l : Line} (h : l.Counted) (hrefs : l.refs = 0) :
    l.l1ActivityTimeout.1.Kept := by
  obtain ⟨hcds, hrefcount, hauto, htimer, _, _⟩ := l1ActivityTimeout_same l
  have hrefs' : l.l1ActivityTimeout.1.refs = 0 := by
    rw [Line.refs, hcds]
    exact hrefs
  refine ⟨⟨?_, ?_, ?_, ?_⟩, ?_, fun hne => absurd hrefs' hne, fun hne => absurd hrefs' hne⟩
  · rw [hcds]
    exact h.small
  · rw [hauto, hrefs', h.refs, hrefs]
  · intro p
    rw [hrefcount, hcds]
    exact h.pipes p
  · rw [Line.l1ActivityTimeout]
    split
    · split
      · exact (h.fsmUpdate .deactivate).known
      · exact h.known
    · exact h.known
  · simp [htimer, hrefs']

/-! ## The calls -/

theorem setRef_cds (l : Line) (p : ℕ) (f : ℕ → ℕ) : (l.setRef p f).cds = l.cds := rfl

theorem setRef_refcount (l : Line) (p : ℕ) (f : ℕ → ℕ) (x : ℕ) :
    (l.setRef p f).refcount x = if p = x then f (l.refcount p) else l.refcount x := by
  simp only [setRef, Function.update_apply, eq_comm]

/-- The calls may be counted before or after the timer of layer 2. -/
theorem l1ActivityTimeout_cds (l : Line) (cds : List (Option ℕ)) :
    { l.l1ActivityTimeout.1 with cds } = ({ l with cds } : Line).l1ActivityTimeout.1 := by
  rw [l1ActivityTimeout, l1ActivityTimeout]
  simp only
  split
  · split <;> rfl
  · rfl

theorem l1ActivateReq_same (l : Line) :
    l.l1ActivateReq.1.refcount = l.refcount ∧ l.l1ActivateReq.1.cds = l.cds := by
  rw [l1ActivateReq]
  split <;> exact ⟨rfl, rfl⟩

theorem l1DeactivateReq_same (l : Line) :
    l.l1DeactivateReq.1.refcount = l.refcount ∧ l.l1DeactivateReq.1.cds = l.cds := by
  rw [l1DeactivateReq]
  split
  · obtain ⟨hcds, hrefcount, _⟩ := l1ActivityTimeout_same
      { l with l1AutoActivate := dec l.l1AutoActivate }
    exact ⟨hrefcount, hcds⟩
  · exact ⟨rfl, rfl⟩

theorem cds_getD {l : Line} {i : ℕ} (hi : i < l.cds.length) : l.cds.getD i none = l.cds[i] := by
  rw [List.getD_eq_getElem?_getD, List.getElem?_eq_getElem hi]
  rfl

/-- `pipe->refcount` after `cd_set_pipe`. -/
theorem cdSetPipe_refcount {l : Line} (h : l.Counted) {i : ℕ} (hi : i < l.cds.length) (pipe : Option ℕ) (x : ℕ) :
    (l.cdSetPipe i pipe).1.refcount x = (l.cds.set i pipe).count (some x) := by
  have hadd := count_set_add hi pipe x
  have hx := h.pipes x
  have hle : (l.cds.set i pipe).count (some x) + 1 < 2 ^ 32 :=
    Nat.lt_of_le_of_lt (Nat.succ_le_succ (List.count_le_length.trans List.length_set.le)) h.small
  simp only [cdSetPipe, cds_getD hi]
  cases hold : l.cds[i] with
  | none =>
    cases pipe with
    | none =>
      simp only [hold, reduceCtorEq, if_false] at hadd
      exact hx.trans hadd.symm
    | some p =>
      simp only [hold, reduceCtorEq, if_false, Option.some.injEq] at hadd
      simp only [(l.setRef p inc).l1ActivateReq_same.1, setRef_refcount]
      split at hadd
      next heq =>
        subst heq
        rw [if_pos rfl, hx, inc_eq (by omega)]
        exact hadd.symm
      next hne =>
        rw [if_neg hne, hx]
        exact hadd.symm
  | some q =>
    cases pipe with
    | none =>
      simp only [hold, reduceCtorEq, if_false, Option.some.injEq] at hadd
      simp only [(l.setRef q dec).l1DeactivateReq_same.1, setRef_refcount]
      split at hadd
      next heq =>
        subst heq
        rw [if_pos rfl, hx, dec_eq (by omega)]
        omega
      next hne =>
        rw [if_neg hne, hx]
        exact hadd.symm
    | some p =>
      have hfirst : ∀ y, (l.setRef p inc).l1ActivateReq.1.refcount y
          = if p = y then inc (l.refcount p) else l.refcount y := fun y => by
        rw [(l.setRef p inc).l1ActivateReq_same.1, setRef_refcount]
      simp only [hold, Option.some.injEq] at hadd
      simp only [((l.setRef p inc).l1ActivateReq.1.setRef q dec).l1DeactivateReq_same.1, setRef_refcount,
        hfirst]
      by_cases hqx : q = x
      · subst hqx
        rw [if_pos rfl] at hadd ⊢
        by_cases hpq : p = q
        · subst hpq
          rw [if_pos rfl] at hadd ⊢
          rw [hx, inc_eq (by omega), dec_eq (Nat.succ_ne_zero _)]
          omega
        · rw [if_neg hpq] at hadd ⊢
          rw [hx, dec_eq (by omega)]
          omega
      · rw [if_neg hqx] at hadd ⊢
        split at hadd
        next heq =>
          subst heq
          rw [if_pos rfl, hx, inc_eq (by omega)]
          exact hadd.symm
        next hne =>
          rw [if_neg hne, hx]
          exact hadd.symm

/-- There are as many calls as before. -/
theorem Kept.small_set {l : Line} (h : l.Kept) (i : ℕ) (pipe : Option ℕ) :
    (l.cds.set i pipe).length + 1 < 2 ^ 32 := by
  rw [List.length_set]
  exact h.small

/-- While there is a call, another one only counts. -/
theorem Kept.l1ActivateReq {l : Line} (h : l.Kept) (hsome : l.refs ≠ 0) (p : ℕ) :
    (l.setRef p inc).l1ActivateReq = ({ l.setRef p inc with l1AutoActivate := inc l.l1AutoActivate }, []) :=
  if_neg (h.refs.trans_ne hsome)

/-- A call without a pipe gets none. -/
theorem Kept.cdSetPipe_idle {l : Line} (h : l.Kept) {i : ℕ} (hi : i < l.cds.length)
    (hold : l.cds[i] = none) : (l.cdSetPipe i none).1.Kept := by
  have hrefs := refs_set hi none
  have hpipes := cdSetPipe_refcount h.toCounted hi none
  simp only [Line.cdSetPipe, cds_getD hi, hold] at hpipes hrefs ⊢
  have hsame : ({ l with cds := l.cds.set i none } : Line).refs = l.refs := hrefs
  refine ⟨⟨h.small_set i none, ?_, hpipes, h.known⟩, ?_, ?_, ?_⟩
  · rw [hsame]
    exact h.refs
  · rw [hsame]
    exact h.timer
  · rw [hsame]
    exact h.idle
  · rw [hsame]
    exact h.tries

/-- **A call gets a pipe**; the first one activates the line. -/
theorem Kept.cdSetPipe_take {l : Line} (h : l.Kept) {i : ℕ} (hi : i < l.cds.length)
    (hold : l.cds[i] = none) (p : ℕ) : (l.cdSetPipe i (some p)).1.Kept := by
  have hrefs := refs_set hi (some p)
  have hpipes := cdSetPipe_refcount h.toCounted hi (some p)
  have hset := h.small_set i (some p)
  have hle : (l.cds.set i (some p)).countP Option.isSome + 1 < 2 ^ 32 :=
    Nat.lt_of_le_of_lt (Nat.succ_le_succ List.countP_le_length) hset
  simp only [hold, Option.isSome_none, Option.isSome_some, if_true, Bool.false_eq_true, if_false,
    Nat.add_zero] at hrefs
  have hmore : ({ l with cds := l.cds.set i (some p) } : Line).refs = l.refs + 1 := hrefs
  have hinc : inc l.l1AutoActivate = l.refs + 1 := by rw [h.refs, inc_eq (by omega)]
  simp only [Line.cdSetPipe, cds_getD hi, hold] at hpipes ⊢
  by_cases hsome : l.refs = 0
  · -- the first call
    have hreq : (l.setRef p inc).l1ActivateReq = ({ l.setRef p inc with
        l1AutoActivate := inc l.l1AutoActivate, activityCallout := false, l1DeactivateCount := false } :
          Line).fsmUpdate .activate := if_pos (h.refs.trans hsome)
    rw [hreq] at hpipes ⊢
    have hcounted : ({ l.setRef p inc with
        l1AutoActivate := inc l.l1AutoActivate, activityCallout := false, l1DeactivateCount := false,
        cds := l.cds.set i (some p) } : Line).Counted :=
      ⟨hset, hinc.trans hmore.symm, hpipes, h.known⟩
    refine hcounted.kept_fsmUpdate ?_ (fun _ => rfl) (by decide)
    constructor
    · exact fun hf => Bool.noConfusion hf
    · exact fun hf => absurd (hmore.symm.trans hf) (Nat.succ_ne_zero _)
  · rw [h.l1ActivateReq hsome] at hpipes ⊢
    refine ⟨⟨hset, hinc.trans hmore.symm, hpipes, h.known⟩, ?_, fun _ => h.idle hsome,
      fun _ => h.tries hsome⟩
    constructor
    · exact fun hf => absurd (h.timer.mp hf) hsome
    · exact fun hf => absurd (hmore.symm.trans hf) (Nat.succ_ne_zero _)

/-- **A call gives its pipe back**; after the last one the timer of layer 2 is started. -/
theorem Kept.cdSetPipe_release {l : Line} (h : l.Kept) {i : ℕ} (hi : i < l.cds.length) {q : ℕ}
    (hold : l.cds[i] = some q) : (l.cdSetPipe i none).1.Kept := by
  have hrefs := refs_set hi none
  have hpipes := cdSetPipe_refcount h.toCounted hi none
  have hsmall := h.small
  have hrefsle := l.refs_le
  simp only [hold, Option.isSome_none, Option.isSome_some, if_true, Bool.false_eq_true, if_false,
    Nat.add_zero] at hrefs
  have hless : ({ l with cds := l.cds.set i none } : Line).refs = l.refs - 1 := by
    rw [← hrefs]
    rfl
  have hdec : dec l.l1AutoActivate = l.refs - 1 := by rw [h.refs, dec_eq (by omega)]
  have hsome : l.refs ≠ 0 := by omega
  simp only [Line.cdSetPipe, cds_getD hi, hold] at hpipes ⊢
  have hcounted : ({ l.setRef q dec with
      l1AutoActivate := dec l.l1AutoActivate, cds := l.cds.set i none } : Line).Counted := by
    refine ⟨h.small_set i none, hdec.trans hless.symm, fun x => ?_, h.known⟩
    rw [← hpipes x, (l.setRef q dec).l1DeactivateReq_same.1]
  by_cases hzero : dec l.l1AutoActivate = 0
  · -- the last call
    have hreq : (l.setRef q dec).l1DeactivateReq = ({ l.setRef q dec with
        l1AutoActivate := dec l.l1AutoActivate } : Line).l1ActivityTimeout := if_pos hzero
    rw [hreq]
    have hcds := (l1ActivityTimeout_same { l.setRef q dec with l1AutoActivate := dec l.l1AutoActivate }).1
    simp only [hcds]
    rw [l1ActivityTimeout_cds]
    exact hcounted.l1ActivityTimeout (hless.trans (hdec.symm.trans hzero))
  · have hreq : (l.setRef q dec).l1DeactivateReq
        = ({ l.setRef q dec with l1AutoActivate := dec l.l1AutoActivate }, []) := if_neg hzero
    rw [hreq]
    refine ⟨hcounted, ?_, fun _ => h.idle hsome, fun _ => h.tries hsome⟩
    constructor
    · exact fun hf => absurd (h.timer.mp hf) hsome
    · exact fun hf => absurd (hdec.trans (hless.symm.trans hf)) hzero

/-- **A call gets another pipe**: the new one is counted before the old one is given back, so that the line
stays as it is. -/
theorem Kept.cdSetPipe_move {l : Line} (h : l.Kept) {i : ℕ} (hi : i < l.cds.length) {q : ℕ}
    (hold : l.cds[i] = some q) (p : ℕ) : (l.cdSetPipe i (some p)).1.Kept := by
  have hrefs := refs_set hi (some p)
  have hpipes := cdSetPipe_refcount h.toCounted hi (some p)
  have hsmall := h.small
  have hrefsle := l.refs_le
  have hauto := h.refs
  simp only [hold, Option.isSome_some, if_true, Nat.add_right_cancel_iff] at hrefs
  have hsame : ({ l with cds := l.cds.set i (some p) } : Line).refs = l.refs := hrefs
  have hsome : l.refs ≠ 0 :=
    (List.countP_pos_iff.mpr ⟨_, List.getElem_mem hi, by rw [hold]; rfl⟩).ne'
  have hback : dec (inc l.l1AutoActivate) = l.l1AutoActivate := by
    rw [inc_eq (by omega), dec_eq (Nat.succ_ne_zero _)]
    rfl
  have hzero : dec (inc l.l1AutoActivate) ≠ 0 := by
    rw [hback, hauto]
    exact hsome
  have hreq : (({ l.setRef p inc with l1AutoActivate := inc l.l1AutoActivate } : Line).setRef q
      dec).l1DeactivateReq = ({ ({ l.setRef p inc with
        l1AutoActivate := inc l.l1AutoActivate } : Line).setRef q dec with
        l1AutoActivate := dec (inc l.l1AutoActivate) }, []) := if_neg hzero
  simp only [Line.cdSetPipe, cds_getD hi, hold, h.l1ActivateReq hsome, hreq] at hpipes ⊢
  refine ⟨⟨h.small_set i (some p), ?_, hpipes, h.known⟩, ?_, fun _ => h.idle hsome,
    fun _ => h.tries hsome⟩
  · rw [hback, hauto]
    exact hsame.symm
  · exact h.timer.trans (iff_of_eq (congrArg (· = 0) hsame.symm))

/-- A call takes a pipe, or another one, or gives it back. -/
theorem Kept.cdSetPipe {l : Line} (h : l.Kept) {i : ℕ} (hi : i < l.cds.length) (pipe : Option ℕ) :
    (l.cdSetPipe i pipe).1.Kept := by
  cases hold : l.cds[i] with
  | none =>
    cases pipe with
    | none => exact h.cdSetPipe_idle hi hold
    | some p => exact h.cdSetPipe_take hi hold p
  | some q =>
    cases pipe with
    | none => exact h.cdSetPipe_release hi hold
    | some p => exact h.cdSetPipe_move hi hold p

/-! ## Runs -/

theorem Kept.step {l : Line} (h : l.Kept) (e : Event) : (l.step e).1.Kept := by
  cases e with
  | chip code => exact ⟨⟨h.small, h.refs, h.pipes, h.known⟩, h.timer, h.idle, fun _ _ => .inr rfl⟩
  | interrupt =>
    rw [Line.step]
    split
    next =>
      exact Counted.kept_fsmUpdate (l := { l with irq := false }) ⟨h.small, h.refs, h.pipes, h.known⟩ h.timer
        h.idle (by decide)
    next => exact h
  | t3 =>
    rw [Line.step]
    split
    next =>
      exact Counted.kept_fsmUpdate (l := { l with t3 := false }) ⟨h.small, h.refs, h.pipes, h.known⟩ h.timer
        h.idle (by decide)
    next => exact h
  | activity =>
    rw [Line.step]
    split
    next hpending =>
      exact Counted.l1ActivityTimeout (l := { l with activityCallout := false })
        ⟨h.small, h.refs, h.pipes, h.known⟩ (h.timer.mp hpending)
    next => exact h
  | frame => exact ⟨⟨h.small, h.refs, h.pipes, h.known⟩, h.timer, h.idle, h.tries⟩
  | setPipe i pipe =>
    rw [Line.step]
    split
    next hi => exact h.cdSetPipe hi pipe
    next => exact h
  | reset code =>
    refine Counted.kept_fsmUpdate (l := { l with code }) ⟨h.small, h.refs, h.pipes, h.known⟩ h.timer h.idle ?_
    split <;> decide
  | powerSave off => exact ⟨⟨h.small, h.refs, h.pipes, h.known⟩, h.timer, h.idle, h.tries⟩
  | phActivate => exact h.fsmUpdate _
  | phDeactivate => exact h.fsmUpdate _

theorem setup_eq (l : Line) : l.setup = { l with
    cds := l.cds.map fun _ => none
    refcount := fun _ => 0
    l1Activity := l.state.active
    l1AutoActivate := 0
    l1DeactivateCount := false
    receivedFrame := false
    activityCallout := true } := rfl

theorem kept_setup {l : Line} (hsmall : l.cds.length + 1 < 2 ^ 32) : l.setup.Kept := by
  rw [setup_eq]
  have hrefs : (l.cds.map fun _ => (none : Option ℕ)).countP Option.isSome = 0 := by
    simp
  refine ⟨⟨?_, hrefs.symm, fun p => ?_, rfl⟩, ⟨fun _ => hrefs, fun _ => rfl⟩, fun hne => absurd hrefs hne,
    fun hne => absurd hrefs hne⟩
  · rw [List.length_map]
    exact hsmall
  · simp [List.count_replicate]

theorem Kept.run {l : Line} (h : l.Kept) (es : List Event) : (l.run es).Kept := by
  induction es generalizing l with
  | nil => exact h
  | cons e es ih => exact ih (h.step e)

/-- **Calls are counted**, by layer 2 and for each pipe; layer 2 knows the state that was read last, and its
timer runs if and only if there is no call. -/
theorem run_counts {l : Line} (hsmall : l.cds.length + 1 < 2 ^ 32) (es : List Event) :
    (l.setup.run es).l1AutoActivate = (l.setup.run es).cds.countP Option.isSome ∧
      (∀ p, (l.setup.run es).refcount p = (l.setup.run es).cds.count (some p)) ∧
      (l.setup.run es).l1Activity = (l.setup.run es).state.active ∧
      ((l.setup.run es).activityCallout = true ↔ ∀ pipe ∈ (l.setup.run es).cds, pipe = none) := by
  have h := (kept_setup hsmall).run es
  refine ⟨h.refs, h.pipes, h.known, h.timer.trans ?_⟩
  rw [Line.refs, List.countP_eq_zero]
  exact forall₂_congr fun pipe _ => by cases pipe <;> simp

theorem run_counts_two :
    let l := (attach isacFsmTable 3).setup.run [.setPipe 0 (some 3), .setPipe 2 (some 3), .setPipe 0 none]
    l.l1AutoActivate = l.cds.countP Option.isSome ∧ (∀ p, l.refcount p = l.cds.count (some p)) ∧
      l.l1Activity = l.state.active ∧ (l.activityCallout = true ↔ ∀ pipe ∈ l.cds, pipe = none) :=
  run_counts (by decide) _

/-- **The activation is never given up** while a call has a pipe: when the chip is not active, then `T3` is
running or there is an interrupt.  Either starts `T3` again, and with `T3` the chip is told to activate the
line, if it may be. -/
theorem run_tries {l : Line} (hsmall : l.cds.length + 1 < 2 ^ 32) (es : List Event)
    (hrefs : (l.setup.run es).refs ≠ 0) (hdown : (l.setup.run es).fsmRead.active = false) :
    ((l.setup.run es).t3 = true ∨ (l.setup.run es).irq = true) ∧
      ((l.setup.run es).irq = true → ((l.setup.run es).step .interrupt).1.t3 = true) ∧
      ((l.setup.run es).t3 = true → ((l.setup.run es).step .t3).1.t3 = true ∧
        ((l.setup.run es).fsmRead.canUp = true → 0 ∈ ((l.setup.run es).step .t3).2)) := by
  have h := (kept_setup hsmall).run es
  generalize l.setup.run es = l' at h hrefs hdown ⊢
  have hauto : l'.l1AutoActivate ≠ 0 := by
    rw [h.refs]
    exact hrefs
  refine ⟨h.tries hrefs hdown, fun hirq => ?_, fun ht3 => ⟨?_, fun hup => ?_⟩⟩
  · rw [Line.step, if_pos hirq]
    exact fsmUpdate_t3 hauto hdown (by decide)
  · rw [Line.step, if_pos ht3]
    exact fsmUpdate_t3 hauto hdown (by decide)
  · have hdown' : ({ l' with t3 := false } : Line).fsmRead.active = false := hdown
    have hup' : ({ l' with t3 := false } : Line).fsmRead.canUp = true := hup
    rw [Line.step, if_pos ht3]
    simp [Line.fsmUpdate, fsmFlag, hdown', hauto, hup']

/-- A call is set up, and the line does not come up. -/
theorem run_tries_once :
    let l := (attach isacFsmTable 1).setup.run [.chip 15, .interrupt, .setPipe 0 (some 0)]
    (l.t3 = true ∨ l.irq = true) ∧ (l.irq = true → (l.step .interrupt).1.t3 = true) ∧
      (l.t3 = true → (l.step .t3).1.t3 = true ∧ (l.fsmRead.canUp = true → 0 ∈ (l.step .t3).2)) :=
  run_tries (by decide) _ (by decide) (by decide)

theorem l1DeactivateReq_writes {l : Line} (h : l.l1DeactivateCount = false) : l.l1DeactivateReq.2 = [] := by
  simp only [l1DeactivateReq]
  split
  · simp only [l1ActivityTimeout]
    split
    · simp [h]
    · rfl
  · rfl

theorem cdSetPipe_fsmRead (l : Line) (i : ℕ) (pipe : Option ℕ) :
    (l.cdSetPipe i pipe).1.fsmRead = l.fsmRead := by
  have hact : ∀ l : Line, l.l1ActivateReq.1.fsmRead = l.fsmRead := fun l => by
    rw [l1ActivateReq]
    split <;> rfl
  have hdeact : ∀ l : Line, l.l1DeactivateReq.1.fsmRead = l.fsmRead := fun l => by
    rw [l1DeactivateReq]
    split
    · obtain ⟨_, _, _, _, htable, hcode⟩ := l1ActivityTimeout_same { l with l1AutoActivate := dec l.l1AutoActivate }
      rw [fsmRead, htable, hcode]
      rfl
    · rfl
  have hcds : ∀ (l : Line) (cds : List (Option ℕ)), ({ l with cds } : Line).fsmRead = l.fsmRead :=
    fun _ _ => rfl
  have href : ∀ (l : Line) (p : ℕ) (f : ℕ → ℕ), (l.setRef p f).fsmRead = l.fsmRead := fun _ _ _ => rfl
  simp only [Line.cdSetPipe, hcds]
  cases l.cds.getD i none <;> cases pipe <;> simp only [hact, hdeact, href]

/-- `cd_set_pipe` writes nothing to the chip, or it activates the line. -/
theorem Kept.cdSetPipe_writes {l : Line} (h : l.Kept) {i : ℕ} (hi : i < l.cds.length) (pipe : Option ℕ) :
    (l.cdSetPipe i pipe).2 = [] ∨ (l.cdSetPipe i pipe).2 = (l.fsmUpdate .activate).2 := by
  simp only [Line.cdSetPipe, cds_getD hi]
  cases hold : l.cds[i] with
  | none =>
    cases pipe with
    | none => exact .inl rfl
    | some p =>
      by_cases hzero : l.l1AutoActivate = 0
      · right
        have hreq : (l.setRef p inc).l1ActivateReq = ({ l.setRef p inc with
            l1AutoActivate := inc l.l1AutoActivate, activityCallout := false, l1DeactivateCount := false } :
              Line).fsmUpdate .activate := if_pos hzero
        simp only [hreq, List.append_nil]
        rfl
      · have hreq : (l.setRef p inc).l1ActivateReq
            = ({ l.setRef p inc with l1AutoActivate := inc l.l1AutoActivate }, []) := if_neg hzero
        simp [hreq]
  | some q =>
    have hsome : l.refs ≠ 0 := (List.countP_pos_iff.mpr ⟨_, List.getElem_mem hi, by rw [hold]; rfl⟩).ne'
    have hcount := h.idle hsome
    cases pipe with
    | none => exact .inl (l1DeactivateReq_writes (l := l.setRef q dec) hcount)
    | some p =>
      simp only [h.l1ActivateReq hsome, List.nil_append]
      exact .inl (l1DeactivateReq_writes hcount)

/-- Only the timer of layer 2 takes an active line down, and the command of a program. -/
theorem Kept.step_deactivates {l : Line} (h : l.Kept) {e : Event} (he : e ≠ .phDeactivate)
    (hup : (l.step e).1.fsmRead.active = true) (hdown : 1 ∈ (l.step e).2) :
    e = .activity ∧ l.activityCallout = true ∧ l.l1DeactivateCount = true ∧ l.receivedFrame = false ∧
      l.noPowerSave = false := by
  cases e with
  | phDeactivate => exact absurd rfl he
  | chip code => simp [Line.step] at hdown
  | frame => simp [Line.step] at hdown
  | powerSave off => simp [Line.step] at hdown
  | phActivate => exact absurd hdown (fsmUpdate_keeps (l := l) hup (by decide))
  | reset code =>
    refine absurd hdown (fsmUpdate_keeps (l := { l with code }) hup ?_)
    split <;> decide
  | interrupt =>
    rw [Line.step] at hup hdown
    split at hdown
    next hirq =>
      rw [if_pos hirq] at hup
      exact absurd hdown (fsmUpdate_keeps (l := { l with irq := false }) hup (by decide))
    next => simp at hdown
  | t3 =>
    rw [Line.step] at hup hdown
    split at hdown
    next ht3 =>
      rw [if_pos ht3] at hup
      exact absurd hdown (fsmUpdate_keeps (l := { l with t3 := false }) hup (by decide))
    next => simp at hdown
  | activity =>
    rw [Line.step] at hdown
    split at hdown
    next hpending =>
      simp only [Line.l1ActivityTimeout] at hdown
      split at hdown
      next hcond =>
        obtain ⟨_, _, hframe, hsave⟩ := hcond
        split at hdown
        next hcount => exact ⟨rfl, hpending, hcount, by simpa using hframe, by simpa using hsave⟩
        next => simp at hdown
      next => simp at hdown
    next => simp at hdown
  | setPipe i pipe =>
    rw [Line.step] at hup hdown
    split at hdown
    next hi =>
      rw [if_pos hi, cdSetPipe_fsmRead] at hup
      rcases h.cdSetPipe_writes hi pipe with hnone | hact
      · simp [hnone] at hdown
      · rw [hact] at hdown
        exact absurd hdown (fsmUpdate_keeps hup (by decide))
    next => simp at hdown

/-- **A line in use is not taken down**: while the chip is active and a call has a pipe, nothing but the
command of a program deactivates it. -/
theorem run_keeps {l : Line} (hsmall : l.cds.length + 1 < 2 ^ 32) (es : List Event) {e : Event}
    (he : e ≠ .phDeactivate) (hrefs : ((l.setup.run es).step e).1.refs ≠ 0)
    (hup : ((l.setup.run es).step e).1.fsmRead.active = true) : 1 ∉ ((l.setup.run es).step e).2 := by
  have h := (kept_setup hsmall).run es
  intro hdown
  obtain ⟨rfl, hpending, _⟩ := h.step_deactivates he hup hdown
  rw [Line.step, if_pos hpending, refs,
    (l1ActivityTimeout_same { l.setup.run es with activityCallout := false }).1] at hrefs
  exact absurd (h.timer.mp hpending) hrefs

/-- The first of two calls ends. -/
theorem run_keeps_one :
    1 ∉ (((attach hfcFsmTable 2).setup.run
      [.setPipe 0 (some 0), .chip 12, .interrupt, .setPipe 1 (some 0)]).step (.setPipe 0 none)).2 :=
  run_keeps (by decide) _ (by decide) (by decide) (by decide)

/-! ## Power saving -/

/-- For at least an interval of the timer there was no call and no frame: the timer was started by `e`, which
is the timer itself or the end of the last call, and has not fired since. -/
def Rested (l : Line) (es : List Event) : Prop :=
  ∃ pre e mid, es = pre ++ e :: mid ∧
    (e = .activity ∨ (∃ i, e = .setPipe i none) ∧ (l.run pre).refs ≠ 0) ∧ .activity ∉ mid ∧
    .frame ∉ mid ∧ ∀ mid', mid' <+: mid → (l.run (pre ++ e :: mid')).refs = 0

theorem run_append (l : Line) (es es' : List Event) : l.run (es ++ es') = (l.run es).run es' := by
  induction es generalizing l with
  | nil => rfl
  | cons e es ih => exact ih _

theorem run_concat (l : Line) (es : List Event) (e : Event) : l.run (es ++ [e]) = ((l.run es).step e).1 :=
  run_append l es [e]

theorem Rested.concat {l : Line} {es : List Event} (h : l.Rested es) {e : Event} (hact : e ≠ .activity)
    (hframe : e ≠ .frame) (hrefs : (l.run (es ++ [e])).refs = 0) : l.Rested (es ++ [e]) := by
  obtain ⟨pre, e', mid, rfl, hstart, hnact, hnframe, hmid⟩ := h
  refine ⟨pre, e', mid ++ [e], by simp, hstart, ?_, ?_, ?_⟩
  · simpa [hnact] using Ne.symm hact
  · simpa [hnframe] using Ne.symm hframe
  · intro mid' hprefix
    rcases List.prefix_concat_iff.mp hprefix with rfl | hshort
    · simpa using hrefs
    · exact hmid mid' hshort

theorem rested_start (l : Line) (es : List Event) {e : Event}
    (he : e = .activity ∨ (∃ i, e = .setPipe i none) ∧ (l.run es).refs ≠ 0)
    (hrefs : (l.run (es ++ [e])).refs = 0) : l.Rested (es ++ [e]) := by
  refine ⟨es, e, [], rfl, he, by simp, by simp, fun mid' hprefix => ?_⟩
  rw [List.prefix_nil.mp hprefix]
  exact hrefs

/-- Without calls before and after it, `cd_set_pipe` does nothing. -/
theorem cdSetPipe_none {l : Line} {i : ℕ} (hi : i < l.cds.length) {pipe : Option ℕ} (hrefs : l.refs = 0)
    (hafter : (l.cds.set i pipe).countP Option.isSome = 0) :
    l.cdSetPipe i pipe = ({ l with cds := l.cds.set i none }, []) ∧ pipe = none := by
  have hset := refs_set hi pipe
  rw [hafter, hrefs] at hset
  have hpipe : pipe = none := by
    cases pipe with
    | none => rfl
    | some p =>
      exfalso
      have hmem : (some p) ∈ l.cds.set i (some p) := List.mem_set hi (some p)
      exact List.countP_eq_zero.mp hafter _ hmem rfl
  subst hpipe
  have hold : l.cds.getD i none = none := by
    rw [List.getD_eq_getElem?_getD, List.getElem?_eq_getElem hi]
    cases hget : l.cds[i] with
    | none => rfl
    | some q => simp [hget] at hset
  exact ⟨by simp only [Line.cdSetPipe, hold]; rfl, rfl⟩

theorem cdSetPipe_cds (l : Line) (i : ℕ) (pipe : Option ℕ) :
    (l.cdSetPipe i pipe).1.cds = l.cds.set i pipe := by
  simp only [Line.cdSetPipe]
  cases l.cds.getD i none <;> cases pipe <;>
    simp only [(l1ActivateReq_same _).2, (l1DeactivateReq_same _).2, setRef_cds]

/-- The count of the timer says that the line rested, as long as no frame was received. -/
theorem rested_of_count {l : Line} (h : l.Kept) (hcount : l.l1DeactivateCount = false) (es : List Event)
    (hnow : (l.run es).l1DeactivateCount = true) (hframe : (l.run es).receivedFrame = false) :
    l.Rested es := by
  induction es using List.reverseRecOn with
  | nil => exact Bool.noConfusion (hcount.symm.trans hnow)
  | append_singleton es e ih =>
    have hkept := h.run es
    have hkept' := h.run (es ++ [e])
    have hrefs : (l.run (es ++ [e])).refs = 0 := by
      by_contra hne
      exact Bool.noConfusion ((hkept'.idle hne).symm.trans hnow)
    have hsame : (l.run (es ++ [e])).l1DeactivateCount = (l.run es).l1DeactivateCount →
        (l.run (es ++ [e])).receivedFrame = (l.run es).receivedFrame → e ≠ .activity → e ≠ .frame →
        l.Rested (es ++ [e]) := fun hc hr hact hfr =>
      (ih (hc.symm.trans hnow) (hr.symm.trans hframe)).concat hact hfr hrefs
    cases e with
    | chip code => exact hsame (by rw [run_concat]; rfl) (by rw [run_concat]; rfl) (by simp) (by simp)
    | powerSave off => exact hsame (by rw [run_concat]; rfl) (by rw [run_concat]; rfl) (by simp) (by simp)
    | phActivate => exact hsame (by rw [run_concat]; rfl) (by rw [run_concat]; rfl) (by simp) (by simp)
    | phDeactivate => exact hsame (by rw [run_concat]; rfl) (by rw [run_concat]; rfl) (by simp) (by simp)
    | reset code => exact hsame (by rw [run_concat]; rfl) (by rw [run_concat]; rfl) (by simp) (by simp)
    | interrupt =>
      refine hsame ?_ ?_ (by simp) (by simp) <;>
      · rw [run_concat, Line.step]
        split <;> rfl
    | t3 =>
      refine hsame ?_ ?_ (by simp) (by simp) <;>
      · rw [run_concat, Line.step]
        split <;> rfl
    | frame =>
      rw [run_concat] at hframe
      exact Bool.noConfusion hframe
    | activity => exact rested_start l es (.inl rfl) hrefs
    | setPipe i pipe =>
      by_cases hi : i < (l.run es).cds.length
      · have hrun : l.run (es ++ [.setPipe i pipe]) = ((l.run es).cdSetPipe i pipe).1 := by
          rw [run_concat, Line.step, if_pos hi]
        have hafter : ((l.run es).cds.set i pipe).countP Option.isSome = 0 := by
          rw [hrun, refs, cdSetPipe_cds] at hrefs
          exact hrefs
        by_cases hzero : (l.run es).refs = 0
        · obtain ⟨hset, rfl⟩ := cdSetPipe_none hi hzero hafter
          rw [hset] at hrun
          exact hsame (by rw [hrun]) (by rw [hrun]) (by simp) (by simp)
        · -- the last call ends
          cases pipe with
          | none => exact rested_start l es (.inr ⟨⟨i, rfl⟩, hzero⟩) hrefs
          | some p => exact absurd rfl (List.countP_eq_zero.mp hafter _ (List.mem_set hi (some p)))
      · have hrun : l.run (es ++ [.setPipe i pipe]) = l.run es := by rw [run_concat, Line.step, if_neg hi]
        exact hsame (by rw [hrun]) (by rw [hrun]) (by simp) (by simp)

/-- **A line is not taken down before it was idle** for a whole interval of the timer: when an active line is
deactivated, other than by the command of a program, then the timer has fired, there was no frame since it was
started, and no call had a pipe. -/
theorem run_idle {l : Line} (hsmall : l.cds.length + 1 < 2 ^ 32) (es : List Event) {e : Event}
    (he : e ≠ .phDeactivate) (hup : ((l.setup.run es).step e).1.fsmRead.active = true)
    (hdown : 1 ∈ ((l.setup.run es).step e).2) :
    e = .activity ∧ (l.setup.run es).noPowerSave = false ∧ l.setup.Rested es := by
  have h := (kept_setup hsmall).run es
  obtain ⟨rfl, _, hcount, hframe, hsave⟩ := h.step_deactivates he hup hdown
  exact ⟨rfl, hsave, rested_of_count (kept_setup hsmall) rfl es hcount hframe⟩

theorem run_idle_twice :
    Event.activity = .activity ∧ ((attach hfcFsmTable 1).setup.run [.chip 12, .interrupt, .activity]).noPowerSave
      = false ∧ (attach hfcFsmTable 1).setup.Rested [.chip 12, .interrupt, .activity] :=
  run_idle (by decide) _ (by decide) (by decide) (by decide)

/-- A line that may be taken down. -/
structure Idle (l : Line) : Prop where
  auto : l.l1AutoActivate = 0
  known : l.l1Activity = true
  save : l.noPowerSave = false
  pending : l.activityCallout = true
  can : l.fsmRead.canDown = true

/-- The timer fires after a frame. -/
theorem Idle.step_frame {l : Line} (h : l.Idle) (hframe : l.receivedFrame = true) :
    (l.step .activity).1 = { l with l1DeactivateCount := false, receivedFrame := false } := by
  have hpending := h.pending
  simp [Line.step, Line.l1ActivityTimeout, hframe, hpending]

/-- The timer fires for the first time. -/
theorem Idle.step_first {l : Line} (h : l.Idle) (hframe : l.receivedFrame = false)
    (hcount : l.l1DeactivateCount = false) : (l.step .activity).1 = { l with l1DeactivateCount := true } := by
  have hpending := h.pending
  simp [Line.step, Line.l1ActivityTimeout, hframe, hcount, h.auto, h.known, h.save, hpending]

/-- The timer fires once more. -/
theorem Idle.step_second {l : Line} (h : l.Idle) (hframe : l.receivedFrame = false)
    (hcount : l.l1DeactivateCount = true) : 1 ∈ (l.step .activity).2 := by
  have hwrites : (l.step .activity).2 = (({ l with activityCallout := false } : Line).fsmUpdate .deactivate).2 := by
    simp [Line.step, Line.l1ActivityTimeout, hframe, hcount, h.auto, h.known, h.save, h.pending]
  rw [hwrites]
  exact fsmUpdate_deactivate h.can

/-- **An idle line is taken down**: without calls and frames, and unless power saving is disabled, the chip is
told to deactivate the line when the timer of layer 2 has fired three times at most, if it can. -/
theorem run_saves {l : Line} (hsmall : l.cds.length + 1 < 2 ^ 32) (es : List Event)
    (hrefs : (l.setup.run es).refs = 0) (hsave : (l.setup.run es).noPowerSave = false)
    (hup : (l.setup.run es).state.active = true) (hcan : (l.setup.run es).fsmRead.canDown = true) :
    ∃ n < 3, 1 ∈ ((l.setup.run (es ++ List.replicate n .activity)).step .activity).2 := by
  have h := (kept_setup hsmall).run es
  simp only [run_append]
  generalize l.setup.run es = l' at h hrefs hsave hup hcan ⊢
  have hidle : l'.Idle := ⟨h.refs.trans hrefs, h.known.trans hup, hsave, h.timer.mpr hrefs, hcan⟩
  -- twice, when the flag is clear
  have htwice : ∀ m : Line, m.Idle → m.receivedFrame = false → m.l1DeactivateCount = false →
      1 ∈ ((m.run [.activity]).step .activity).2 := by
    intro m hm hframe hcount
    rw [run, run, hm.step_first hframe hcount]
    exact Idle.step_second (l := { m with l1DeactivateCount := true }) ⟨hm.auto, hm.known, hm.save, hm.pending,
      hm.can⟩ hframe rfl
  cases hframe : l'.receivedFrame with
  | false =>
    cases hcount : l'.l1DeactivateCount with
    | true => exact ⟨0, by decide, hidle.step_second hframe hcount⟩
    | false => exact ⟨1, by decide, htwice l' hidle hframe hcount⟩
  | true =>
    refine ⟨2, by decide, ?_⟩
    rw [List.replicate_succ, run, hidle.step_frame hframe]
    exact htwice { l' with l1DeactivateCount := false, receivedFrame := false }
      ⟨hidle.auto, hidle.known, hidle.save, hidle.pending, hidle.can⟩ rfl rfl

theorem run_saves_frame :
    ∃ n < 3, 1 ∈ (((attach hfcFsmTable 1).setup.run
      ([.chip 12, .interrupt, .frame] ++ List.replicate n .activity)).step .activity).2 :=
  run_saves (by decide) _ (by decide) (by decide) (by decide) (by decide)

end Line
end L1
end Isdn4bsd
