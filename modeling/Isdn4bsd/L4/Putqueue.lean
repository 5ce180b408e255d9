import Mathlib.Tactic
import Mathlib.Logic.Function.Basic
import Mathlib.Data.List.Nodup

/-!
# The broadcast of a CAPI message

`capi_ai_putqueue` walks the list of the open applications and puts a copy of the message into each
queue that wants it. The list is locked only between two applications, so the walk holds a reference
on the application it is at, and whoever closes that application waits until the reference is gone.

* `putOne`, `walk` : the queue of one application, and one step along the list.
* `Step` : the walk and the closers, in any order.
* `no_use_after_free` : the application the walk is at is not freed under it.
* `delivers_iff` : **the broadcast does what it is for if and only if no application is open.** At
  the end of the list the reference count of the next application is read, and there is none.

## Interleavings

The walk has a program counter (`Pc`) and makes its steps one by one; between any two of them any number of
applications may be closed, each by a closer that removes it from the list and then sleeps if there are
references to it.  `Step` leaves open who comes next, and a run is a sequence of such steps, of which those of
the walk are counted.

`Held` is the invariant: while the walk is at an application it has a reference on it, so the memory is there,
whether or not the application still is in the list.  The next application is looked up with the list locked,
and gets its reference before the list is unlocked.

## The end of the list

The count of the old application is decremented and that of the next one incremented, but the test of whether a
closer has to be woken is made with the pointer that has been moved on, and looks at the count of the next
application.  `walk_next_some` is what comes of it within the list: the count was just incremented, so nobody is
woken.  At the end there is no next application, and the walk reads through a null pointer.  This is so for every
list that is not empty (`run_to_null`).
-/

set_option autoImplicit false

namespace Isdn4bsd
namespace Capi

/-! ## One application -/

/-- The command of a message, with what the filters read. -/
inductive Command where
  | connectInd (wCIP : Nat)
  | infoInd
  | other
  deriving DecidableEq

/-- A message. -/
structure Message where
  command : Command
  dwCid : Nat
  deriving DecidableEq

/-- `I4B_MAX_CONTROLLERS` -/
def maxControllers : Nat := 64

/-- `IFQ_LIMIT_LOW` -/
def ifqLimitLow : Nat := 0xC0

/-- `IFQ_LIMIT_HIGH` -/
def ifqLimitHigh : Nat := 0x100

/-- `struct capi_ai_softc`: what the broadcast reads and writes. -/
structure Application where
  infoMask : Nat → BitVec 32
  cipMask1 : Nat → BitVec 32
  refs : Nat
  closing : Bool
  rdSleepWakeup : Bool
  select : Bool
  mbufLost : Bool
  rdqueue : List Message

/-- `le32toh(mp->head.dwCid) & 0xFF` -/
def Message.controller (m : Message) : Nat := m.dwCid % 256

/-- The bits of `sc_CIP_mask_1` that ask for a service: its own, and the one for all services. -/
def cipBits (cip : Nat) : BitVec 32 := if cip < 32 then 1#32 <<< cip ||| 1#32 else 1#32

/-- Does the application want a message of this kind? -/
def Application.wants (sc : Application) (m : Message) : Bool :=
  match m.command with
  | .connectInd cip => decide (m.controller < maxControllers) &&
      (sc.cipMask1 m.controller &&& cipBits cip != 0#32)
  | .infoInd => decide (m.controller < maxControllers) && (sc.infoMask m.controller != 0#32)
  | .other => true

/-- `capi_ai_putqueue` for one application: its new state, and if the message went into its
queue. -/
def Application.putOne (sc : Application) (dropOk : Bool) (m1 : Option Message) :
    Application × Bool :=
  if sc.closing then (sc, false)
  else
    match m1 with
    | none => ({ sc with mbufLost := sc.mbufLost || !dropOk }, false)
    | some m =>
      if ifqLimitHigh ≤ sc.rdqueue.length then
        ({ sc with mbufLost := sc.mbufLost || !dropOk }, false)
      else if !sc.wants m then (sc, false)
      else if dropOk && decide (ifqLimitLow ≤ sc.rdqueue.length) then (sc, false)
      else
        ({ sc with rdqueue := sc.rdqueue ++ [m], rdSleepWakeup := false, select := false }, true)

/-- The reference count is not the queue's business. -/
@[simp] theorem Application.putOne_refs (sc : Application) (dropOk : Bool) (m1 : Option Message) :
    (sc.putOne dropOk m1).1.refs = sc.refs := by
  cases m1 with
  | none =>
    simp only [putOne]
    split_ifs <;> rfl
  | some m =>
    simp only [putOne]
    split_ifs <;> rfl

/-! ## The walk -/

/-- What a broadcast was called with, and the applications for which `m_copypacket` finds memory. -/
structure Call where
  exclude : Option Nat
  dropOk : Bool
  m1 : Option Message
  copypacket : Nat → Bool

/-- The applications, `capi_head` first: each is in the list once. -/
structure Apps where
  head : List Nat
  nodup : head.Nodup
  app : Nat → Application

/-- What is read where nothing is. -/
inductive Fault where
  | null
  | freed
  deriving DecidableEq

/-- Where the walk is. -/
inductive Pc where
  | first
  | visit (sc : Nat)
  | next (sc : Nat)
  | done
  | fault (f : Fault)
  deriving DecidableEq

/-- The applications, the closers that sleep on `sc_cv_ref` and the walk. The last three fields are
history: the copies each application got, the closers that were woken, and those whose application's
count dropped to zero while they slept. -/
structure World where
  apps : Apps
  waiting : Nat → Bool
  pc : Pc
  copies : Nat → Nat
  woken : List Nat
  dropped : List Nat

namespace World

/-- A call begins. -/
def start (apps : Apps) (waiting : Nat → Bool) : World :=
  ⟨apps, waiting, .first, fun _ => 0, [], []⟩

/-- Change one application. -/
def modify (w : World) (a : Nat) (f : Application → Application) : World :=
  { w with apps := { w.apps with app := Function.update w.apps.app a (f (w.apps.app a)) } }

/-- The number of references to an application. -/
def refs (w : World) (a : Nat) : Nat := (w.apps.app a).refs

/-- `sc->sc_refs++` -/
def acquire (w : World) (a : Nat) : World := w.modify a fun sc => { sc with refs := sc.refs + 1 }

/-- `sc->sc_refs--` -/
def release (w : World) (a : Nat) : World :=
  let t := w.modify a fun sc => { sc with refs := sc.refs - 1 }
  if t.refs a = 0 && t.waiting a then { t with dropped := t.dropped ++ [a] } else t

/-- `cv_broadcast(&sc->sc_cv_ref)` -/
def wake (w : World) (a : Nat) : World :=
  if w.waiting a then
    { w with waiting := Function.update w.waiting a false, woken := w.woken ++ [a] }
  else w

end World

/-- `TAILQ_NEXT` -/
def tailqNext : List Nat → Nat → Option Nat
  | [], _ => none
  | b :: l, a => if b = a then l.head? else tailqNext l a

/-- One step of `capi_ai_putqueue` for a broadcast. -/
def walk (c : Call) (w : World) : World :=
  match w.pc with
  | .first =>
    match w.apps.head with
    | [] => { w with pc := .done }
    | sc :: _ => { w.acquire sc with pc := .visit sc }
  | .visit sc =>
    if sc ∉ w.apps.head then { w with pc := .fault .freed }
    else if c.exclude = some sc then { w with pc := .next sc }
    else
      let m2 := if c.copypacket sc then c.m1 else none
      let r := (w.apps.app sc).putOne c.dropOk m2
      let w := w.modify sc fun _ => r.1
      { w with pc := .next sc,
               copies := if r.2 then Function.update w.copies sc (w.copies sc + 1) else w.copies }
  | .next sc =>
    if sc ∉ w.apps.head then { w with pc := .fault .freed }
    else
      let w := w.release sc
      match tailqNext w.apps.head sc with
      -- the count that is tested is that of the next application
      | none => { w with pc := .fault .null }
      | some sc =>
        let w := w.acquire sc
        let w := if w.refs sc = 0 then w.wake sc else w
        { w with pc := .visit sc }
  | .done => w
  | .fault _ => w

/-! ## The closers -/

/-- `capi_close` -/
def close (w : World) (a : Nat) : World := w.modify a fun sc => { sc with closing := true }

/-- `TAILQ_REMOVE` -/
def Apps.remove (apps : Apps) (a : Nat) : Apps :=
  { apps with head := apps.head.erase a, nodup := apps.nodup.erase a }

/-- `capi_ai_free_softc`: wait as long as there are references. -/
def free (w : World) (a : Nat) : World :=
  if w.refs a ≠ 0 then { w with waiting := Function.update w.waiting a true }
  else { w with apps := w.apps.remove a }

/-- The walk goes on, or an application is closed. The number counts the steps of the walk. -/
inductive Step (c : Call) : World → Nat → World → Prop
  | walk (w : World) (h : w.pc ≠ .done) (hf : ∀ f, w.pc ≠ .fault f) : Step c w 1 (walk c w)
  | close (w : World) (a : Nat) (h : a ∈ w.apps.head) : Step c w 0 (close w a)
  | free (w : World) (a : Nat) (h : a ∈ w.apps.head) (hc : (w.apps.app a).closing = true)
      (hw : w.waiting a = false) : Step c w 0 (free w a)

/-- A run with `n` steps of the walk. -/
inductive Run (c : Call) (w : World) : Nat → World → Prop
  | refl : Run c w 0 w
  | step {n k : Nat} {t u : World} (h : Run c w n t) (hs : Step c t k u) : Run c w (n + k) u

/-! ## What the broadcast is for -/

/-- The application would take the message. -/
def Accepts (c : Call) (sc : Nat) (app : Application) : Prop :=
  c.exclude ≠ some sc ∧ (app.putOne c.dropOk (if c.copypacket sc then c.m1 else none)).2 = true

/-- The walk reads no application that is not there and comes to an end. Then every application that
was open all the time and takes the message has one copy, no other has one, the reference counts are
as before, and the closers that were woken are those whose application's count dropped to zero. -/
structure Delivers (c : Call) (apps : Apps) (waiting : Nat → Bool) : Prop where
  safe : ∀ n w f, Run c (.start apps waiting) n w → w.pc ≠ .fault f
  ends : ∃ bound, ∀ n w, Run c (.start apps waiting) n w → n ≤ bound
  copied : ∀ n w a, Run c (.start apps waiting) n w → w.pc = .done → a ∈ w.apps.head →
    (w.apps.app a).closing = false → Accepts c a (apps.app a) → w.copies a = 1
  onlyCopied : ∀ n w a, Run c (.start apps waiting) n w → w.pc = .done → w.copies a ≠ 0 →
    w.copies a = 1 ∧ a ∈ apps.head ∧ Accepts c a (apps.app a)
  refs : ∀ n w a, Run c (.start apps waiting) n w → w.pc = .done → a ∈ w.apps.head →
    w.refs a = (apps.app a).refs
  wakes : ∀ n w, Run c (.start apps waiting) n w → w.pc = .done → w.woken = w.dropped

/-! ## The place is held -/

/-- The walk has a reference on the application it is at. -/
def Held (w : World) : Prop :=
  ∀ sc, w.pc = .visit sc ∨ w.pc = .next sc → sc ∈ w.apps.head ∧ 0 < w.refs sc

namespace World

variable (w : World) (a : Nat)

@[simp] theorem modify_head (f : Application → Application) :
    (w.modify a f).apps.head = w.apps.head := rfl

theorem refs_modify (f : Application → Application) (b : Nat) :
    (w.modify a f).refs b = if b = a then (f (w.apps.app a)).refs else w.refs b := by
  by_cases h : b = a
  · simp [refs, modify, h]
  · simp [refs, modify, h]

@[simp] theorem acquire_head : (w.acquire a).apps.head = w.apps.head := rfl

theorem refs_acquire_pos : 0 < (w.acquire a).refs a := by
  rw [acquire, refs_modify, if_pos rfl]
  exact Nat.succ_pos _

@[simp] theorem release_head : (w.release a).apps.head = w.apps.head := by
  rw [release]
  split_ifs <;> rfl

end World

theorem tailqNext_mem {l : List Nat} {a b : Nat} (h : tailqNext l a = some b) : b ∈ l := by
  induction l with
  | nil => exact absurd h (by simp [tailqNext])
  | cons x l ih =>
    rw [tailqNext] at h
    split at h
    · exact List.mem_cons_of_mem x (List.mem_of_head? h)
    · exact List.mem_cons_of_mem x (ih h)

section walk

variable {c : Call} {w : World} {a b : Nat}

theorem walk_first_nil (hpc : w.pc = .first) (h : w.apps.head = []) :
    walk c w = { w with pc := .done } := by
  simp only [walk, hpc, h]

theorem walk_first_cons {l : List Nat} (hpc : w.pc = .first) (h : w.apps.head = a :: l) :
    walk c w = { w.acquire a with pc := .visit a } := by
  simp only [walk, hpc, h]

theorem walk_visit (hpc : w.pc = .visit a) (ha : a ∈ w.apps.head) :
    (walk c w).pc = .next a ∧ (walk c w).apps.head = w.apps.head ∧
      (walk c w).refs = w.refs := by
  simp only [walk, hpc, ha, not_true_eq_false, if_false]
  split
  · exact ⟨rfl, rfl, rfl⟩
  · refine ⟨rfl, rfl, funext fun b => ?_⟩
    let r := (w.apps.app a).putOne c.dropOk (if c.copypacket a then c.m1 else none)
    change (w.modify a fun _ => r.1).refs b = w.refs b
    rw [World.refs_modify, Application.putOne_refs]
    split
    · rename_i h
      rw [h]
      rfl
    · rfl

theorem walk_next_none (hpc : w.pc = .next a) (ha : a ∈ w.apps.head)
    (h : tailqNext w.apps.head a = none) :
    walk c w = { w.release a with pc := .fault .null } := by
  simp only [walk, hpc, ha, not_true_eq_false, if_false, World.release_head, h]

/-- The count that is tested was counted up before, so nobody is woken. -/
theorem walk_next_some (hpc : w.pc = .next a) (ha : a ∈ w.apps.head)
    (h : tailqNext w.apps.head a = some b) :
    walk c w = { (w.release a).acquire b with pc := .visit b } := by
  have hpos := World.refs_acquire_pos (w.release a) b
  simp only [walk, hpc, ha, not_true_eq_false, if_false, World.release_head, h]
  rw [if_neg (Nat.pos_iff_ne_zero.mp hpos)]

end walk

theorem held_walk (c : Call) {w : World} (h : Held w) : Held (walk c w) := by
  intro sc hsc
  cases hpc : w.pc with
  | first =>
    cases hhead : w.apps.head with
    | nil =>
      rw [walk_first_nil hpc hhead] at hsc
      simp at hsc
    | cons b l =>
      rw [walk_first_cons hpc hhead] at hsc ⊢
      obtain rfl : b = sc := by simpa using hsc
      refine ⟨?_, World.refs_acquire_pos w b⟩
      change b ∈ w.apps.head
      rw [hhead]
      exact List.mem_cons_self
  | visit b =>
    obtain ⟨hmem, hpos⟩ := h b (.inl hpc)
    obtain ⟨hpc', hhead, hrefs⟩ := @walk_visit c w b hpc hmem
    rw [hpc'] at hsc
    obtain rfl : b = sc := by simpa using hsc
    rw [hhead, hrefs]
    exact ⟨hmem, hpos⟩
  | next b =>
    obtain ⟨hmem, -⟩ := h b (.inr hpc)
    cases hnext : tailqNext w.apps.head b with
    | none =>
      rw [walk_next_none hpc hmem hnext] at hsc
      simp at hsc
    | some d =>
      rw [walk_next_some hpc hmem hnext] at hsc ⊢
      obtain rfl : d = sc := by simpa using hsc
      refine ⟨?_, World.refs_acquire_pos (w.release b) d⟩
      change d ∈ ((w.release b).acquire d).apps.head
      rw [World.acquire_head, World.release_head]
      exact tailqNext_mem hnext
  | done =>
    simp [walk, hpc] at hsc
  | fault f =>
    simp [walk, hpc] at hsc

theorem held_step {c : Call} {w u : World} {k : Nat} (h : Held w) (hs : Step c w k u) : Held u := by
  cases hs with
  | walk _ _ => exact held_walk c h
  | close a ha =>
    intro sc hsc
    obtain ⟨hmem, hpos⟩ := h sc hsc
    refine ⟨hmem, ?_⟩
    rw [close, World.refs_modify]
    split
    · rename_i heq
      subst heq
      exact hpos
    · exact hpos
  | free a ha hc hw =>
    unfold free
    split
    · exact h
    · rename_i hzero
      intro sc hsc
      obtain ⟨hmem, hpos⟩ := h sc hsc
      refine ⟨?_, hpos⟩
      -- the application that is freed has no reference
      have hne : sc ≠ a := by
        rintro rfl
        exact hzero (Nat.pos_iff_ne_zero.mp hpos)
      exact (List.mem_erase_of_ne hne).mpr hmem

theorem held_run {c : Call} {w u : World} {n : Nat} (h : Held w) (hr : Run c w n u) : Held u := by
  induction hr with
  | refl => exact h
  | step _ hs ih => exact held_step ih hs

theorem held_start (apps : Apps) (waiting : Nat → Bool) : Held (.start apps waiting) := by
  intro sc hsc
  simp [World.start] at hsc

/-- The only fault of a step is the one at the end of the list. -/
theorem walk_fault {c : Call} {w : World} (h : Held w) (hf : ∀ f, w.pc ≠ .fault f) {f : Fault}
    (hw : (walk c w).pc = .fault f) : f = .null := by
  cases hpc : w.pc with
  | first =>
    cases hhead : w.apps.head with
    | nil =>
      rw [walk_first_nil hpc hhead] at hw
      simp at hw
    | cons b l =>
      rw [walk_first_cons hpc hhead] at hw
      simp at hw
  | visit b =>
    rw [(walk_visit hpc (h b (.inl hpc)).1).1] at hw
    simp at hw
  | next b =>
    have hmem := (h b (.inr hpc)).1
    cases hnext : tailqNext w.apps.head b with
    | none =>
      rw [walk_next_none hpc hmem hnext] at hw
      simpa using hw.symm
    | some d =>
      rw [walk_next_some hpc hmem hnext] at hw
      simp at hw
  | done =>
    simp [walk, hpc] at hw
  | fault f' => exact absurd hpc (hf f')

/-- **No application is read after it was freed,** whoever closes what during the walk. -/
theorem no_use_after_free {c : Call} {apps : Apps} {waiting : Nat → Bool} {n : Nat} {w : World}
    (h : Run c (.start apps waiting) n w) : w.pc ≠ .fault .freed := by
  induction h with
  | refl => simp [World.start]
  | step hr hs ih =>
    have hheld := held_run (held_start apps waiting) hr
    cases hs with
    | walk h hf =>
      intro hw
      exact absurd (walk_fault hheld hf hw) (by simp)
    | close a _ => exact ih
    | free a _ _ _ =>
      unfold free
      split
      · exact ih
      · exact ih

/-! ## The end of the list -/

theorem tailqNext_append {l r : List Nat} {a : Nat} (h : (l ++ a :: r).Nodup) :
    tailqNext (l ++ a :: r) a = r.head? := by
  induction l with
  | nil => simp [tailqNext]
  | cons b l ih =>
    rw [List.cons_append, List.nodup_cons] at h
    have hne : b ≠ a := by
      rintro rfl
      exact h.1 (List.mem_append_right l List.mem_cons_self)
    rw [List.cons_append, tailqNext, if_neg hne]
    exact ih h.2

/-- **A walk that is not disturbed reads through the null pointer** at the end of the list. -/
theorem Run.to_null {c : Call} {w u : World} {n a : Nat} {l r : List Nat} (hr : Run c w n u)
    (hpc : u.pc = .visit a) (hl : u.apps.head = l ++ a :: r) :
    ∃ m t, Run c w m t ∧ t.pc = .fault .null := by
  induction r generalizing n a l u with
  | nil =>
    obtain ⟨htpc, hth, -⟩ := @walk_visit c u a hpc (by rw [hl]; simp)
    have hrt := hr.step (.walk u (by simp [hpc]) (by simp [hpc]))
    have hmem : a ∈ (walk c u).apps.head := by
      rw [hth, hl]
      simp
    have hnext : tailqNext (walk c u).apps.head a = none := by
      have hnd := (walk c u).apps.nodup
      rw [hth, hl] at hnd ⊢
      exact tailqNext_append hnd
    refine ⟨_, _, hrt.step (.walk _ (by simp [htpc]) (by simp [htpc])), ?_⟩
    rw [walk_next_none htpc hmem hnext]
  | cons b r ih =>
    obtain ⟨htpc, hth, -⟩ := @walk_visit c u a hpc (by rw [hl]; simp)
    have hrt := hr.step (.walk u (by simp [hpc]) (by simp [hpc]))
    have hmem : a ∈ (walk c u).apps.head := by
      rw [hth, hl]
      simp
    have hnext : tailqNext (walk c u).apps.head a = some b := by
      have hnd := (walk c u).apps.nodup
      rw [hth, hl] at hnd ⊢
      exact tailqNext_append hnd
    have hstep := hrt.step (.walk _ (by simp [htpc]) (by simp [htpc]))
    rw [walk_next_some htpc hmem hnext] at hstep
    refine @ih _ _ b (l ++ [a]) hstep rfl ?_
    change (((walk c u).release a).acquire b).apps.head = _
    rw [World.acquire_head, World.release_head, hth, hl, List.append_assoc]
    rfl

/-- So does every broadcast to a list that is not empty. -/
theorem run_to_null (c : Call) {apps : Apps} (waiting : Nat → Bool) {a : Nat} {l : List Nat}
    (h : apps.head = a :: l) : ∃ m t, Run c (.start apps waiting) m t ∧ t.pc = .fault .null := by
  have hrun : Run c (.start apps waiting) (0 + 1) (walk c (.start apps waiting)) :=
    .step .refl (.walk _ (by simp [World.start]) (by simp [World.start]))
  rw [walk_first_cons rfl h] at hrun
  exact @Run.to_null c _ _ _ a [] l hrun rfl h

/-- Without applications there is only the first step of the walk. -/
theorem run_empty {c : Call} {apps : Apps} {waiting : Nat → Bool} (h : apps.head = []) {n : Nat}
    {w : World} (hr : Run c (.start apps waiting) n w) :
    w = .start apps waiting ∧ n = 0 ∨ w = { World.start apps waiting with pc := .done } ∧ n = 1 := by
  have hstart : walk c (.start apps waiting) = { World.start apps waiting with pc := .done } :=
    walk_first_nil rfl h
  have hnone : ∀ a, a ∉ (World.start apps waiting).apps.head := by
    intro a ha
    change a ∈ apps.head at ha
    rw [h] at ha
    exact absurd ha (by simp)
  induction hr with
  | refl => exact .inl ⟨rfl, rfl⟩
  | step _ hs ih =>
    rcases ih with ⟨rfl, rfl⟩ | ⟨rfl, rfl⟩
    · cases hs with
      | walk _ _ => exact .inr ⟨hstart, rfl⟩
      | close a ha => exact absurd ha (hnone a)
      | free a ha _ _ => exact absurd ha (hnone a)
    · cases hs with
      | walk hd _ => exact absurd rfl hd
      | close a ha => exact absurd ha (hnone a)
      | free a ha _ _ => exact absurd ha (hnone a)

/-- **The broadcast delivers if and only if no application is open.** -/
theorem delivers_iff (c : Call) (apps : Apps) (waiting : Nat → Bool) :
    Delivers c apps waiting ↔ apps.head = [] := by
  constructor
  · intro hd
    cases hh : apps.head with
    | nil => rfl
    | cons a l =>
      obtain ⟨m, t, hrt, hnull⟩ := run_to_null c waiting hh
      exact absurd hnull (hd.safe m t .null hrt)
  · intro hh
    have hdone : ∀ {n w}, Run c (.start apps waiting) n w → w.pc = .done →
        w = { World.start apps waiting with pc := .done } := by
      intro n w hr hpc
      rcases run_empty hh hr with ⟨rfl, -⟩ | ⟨rfl, -⟩
      · exact absurd hpc (by simp [World.start])
      · rfl
    refine ⟨?_, ⟨1, ?_⟩, ?_, ?_, ?_, ?_⟩
    · intro n w f hr
      rcases run_empty hh hr with ⟨rfl, -⟩ | ⟨rfl, -⟩ <;> simp [World.start]
    · intro n w hr
      rcases run_empty hh hr with ⟨-, rfl⟩ | ⟨-, rfl⟩ <;> omega
    · intro n w a hr hpc ha
      rw [hdone hr hpc] at ha
      change a ∈ apps.head at ha
      rw [hh] at ha
      exact absurd ha (by simp)
    · intro n w a hr hpc hne
      rw [hdone hr hpc] at hne
      exact absurd rfl hne
    · intro n w a hr hpc _
      rw [hdone hr hpc]
      rfl
    · intro n w hr hpc
      rw [hdone hr hpc]
      rfl

/-- An application that listens to every service on every controller. -/
def listener : Application where
  infoMask := fun _ => 0xFFFFFFFF#32
  cipMask1 := fun _ => 0xFFFFFFFF#32
  refs := 0
  closing := false
  rdSleepWakeup := false
  select := false
  mbufLost := false
  rdqueue := []

/-- One open application is enough. -/
theorem not_delivers :
    ¬ ∀ (c : Call) (apps : Apps) (waiting : Nat → Bool), Delivers c apps waiting := by
  intro h
  have hd := h ⟨none, false, some ⟨.connectInd 1, 0⟩, fun _ => true⟩
    ⟨[0], List.nodup_singleton 0, fun _ => listener⟩ fun _ => false
  obtain ⟨m, t, hrt, hnull⟩ := run_to_null ⟨none, false, some ⟨.connectInd 1, 0⟩, fun _ => true⟩
    (fun _ => false) (show (⟨[0], List.nodup_singleton 0, fun _ => listener⟩ : Apps).head = [0] from rfl)
  exact hd.safe m t .null hrt hnull

end Capi
end Isdn4bsd
