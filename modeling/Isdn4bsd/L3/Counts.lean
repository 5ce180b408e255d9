import Isdn4bsd.L3.References

/-!
# How many calls use a pipe, and layer 1

The counters `refcount` of the pipes and `L1_auto_activate` of the controller, against the numbers
they stand for.

Layer 2 looks at `refcount` before it lets a pipe rest, and layer 1 is deactivated when `L1_auto_activate`
goes to zero.  The source does not count calls for this: it counts up when a call gets a pipe and down when it
gives it up, in 32 bits and without a test for zero.  A counter that is too high keeps the line active for
ever, and so does one that is decremented at zero.

* `Line.refs`, `Line.active`: the numbers of calls that use a pipe, and that have one.
* `Counted`: the counters of a line that are these numbers.
* `Line.Counts`: the counters are right and were never decremented below zero.  There are at most 126 calls,
  as each has an id of its own (`Refs.calls_le`), so they do not overflow either.
* `ReachBy.counts_calls`: they are right in every run in which the protocol is detached only when
  there are no calls.

The condition is needed: `dss1_setup_ft` clears `L1_auto_activate` before it lets the pipes pause, and only
then the calls end, each of which decrements it.  `detach_decrements_below_zero` is a run with one call.

Activation counts a pipe as used for a moment, so that it does not pause again while its calls are told; what
is done in that moment changes no counter (`Counted.bump`).
-/

set_option autoImplicit false

namespace Isdn4bsd
namespace L3

open L2 (PipeNo adapter)

/-! ## Counters

The counter of a pipe and that of layer 1 are `uint32_t`, and wrap in both directions.  `Counted` has them
together with the note that one of them was decremented at zero, which the source does not have.
-/

theorem inc_eq {k : Nat} (h : k < 0xffffffff) : inc k = k + 1 := by
  rw [inc, if_neg h.ne]

theorem dec_eq {k : Nat} (h : 0 < k) : dec k = k - 1 := by
  rw [dec, if_neg h.ne']

namespace Line

variable {n : Nat} {b : Permit}

/-- The counters of a line, which were never decremented below zero. -/
structure Counted (l : Line n) (refs : PipeNo → Nat) (active : Nat) : Prop where
  refcount : l.refcount = refs
  l1AutoActivate : l.l1AutoActivate = active
  underflow : l.underflow = false

theorem Counted.set {l : Line n} {refs : PipeNo → Nat} {active : Nat} (h : l.Counted refs active)
    (i : Fin n) (c : Call) : (l.set i c).Counted refs active :=
  ⟨h.refcount, h.l1AutoActivate, h.underflow⟩

theorem Counted.giveBack {l : Line n} {refs : PipeNo → Nat} {active : Nat}
    (h : l.Counted refs active) (c : Call) : (l.giveBack c).Counted refs active := by
  rw [Line.giveBack]
  split
  · exact ⟨h.refcount, h.l1AutoActivate, h.underflow⟩
  · exact h

theorem Counted.ref {l : Line n} {refs : PipeNo → Nat} {active : Nat} (h : l.Counted refs active)
    {p : PipeNo} (hp : refs p < 0xffffffff) :
    (l.ref p).Counted (Function.update refs p (refs p + 1)) active := by
  refine ⟨?_, h.l1AutoActivate, h.underflow⟩
  rw [Line.ref, h.refcount, inc_eq hp]

theorem Counted.unref {l : Line n} {refs : PipeNo → Nat} {active : Nat} (h : l.Counted refs active)
    {p : PipeNo} (hp : 0 < refs p) :
    (l.unref p).Counted (Function.update refs p (refs p - 1)) active := by
  refine ⟨?_, h.l1AutoActivate, ?_⟩
  · rw [Line.unref, h.refcount, dec_eq hp]
  · rw [Line.unref, h.refcount, h.underflow, Bool.false_or, beq_eq_false_iff_ne]
    exact hp.ne'

theorem Counted.up {l : Line n} {refs : PipeNo → Nat} {active : Nat} (h : l.Counted refs active)
    (ha : active < 0xffffffff) : l.up.Counted refs (active + 1) := by
  refine ⟨h.refcount, ?_, h.underflow⟩
  rw [Line.up, h.l1AutoActivate, inc_eq ha]

theorem Counted.down {l : Line n} {refs : PipeNo → Nat} {active : Nat} (h : l.Counted refs active)
    (ha : 0 < active) : l.down.Counted refs (active - 1) := by
  refine ⟨h.refcount, ?_, ?_⟩
  · rw [Line.down, h.l1AutoActivate, dec_eq ha]
  · rw [Line.down, h.l1AutoActivate, h.underflow, Bool.false_or, beq_eq_false_iff_ne]
    exact ha.ne'

/-- Activation counts a pipe as used for a moment. -/
theorem Counted.bump {l : Line n} {refs : PipeNo → Nat} {active : Nat} (h : l.Counted refs active)
    {p : PipeNo} (hp : refs p < 0xffffffff) : (l.bump p).Counted refs active := by
  have h2 := (h.ref hp).unref (p := p) (by rw [Function.update_self]; exact Nat.succ_pos _)
  rw [Function.update_self, Function.update_idem, Nat.add_sub_cancel, Function.update_eq_self] at h2
  exact h2

theorem Counted.join {l : Line n} {refs : PipeNo → Nat} {active : Nat} (h : l.Counted refs active)
    {p : PipeNo} (paused : Bool) (hp : refs p < 0xfffffffe) (ha : active < 0xfffffffe) :
    (l.join p paused).Counted (Function.update refs p (refs p + 1)) (active + 1) := by
  have hup := (h.ref (p := p) (by omega)).up (by omega)
  rw [Line.join]
  split
  · refine hup.bump ?_
    rw [Function.update_self]
    omega
  · exact hup

/-! ## Numbers of calls

What a counter should be is a sum over the descriptors.  A change to one call changes one term of it
(`sum_set`), which is why `Counted.set` asks for the difference that the call makes, and not for the sums.
-/

/-- Whether the call uses the pipe. -/
def uses (c : Call) (p : PipeNo) : Nat := if c.Allocated ∧ c.pipe = some p then 1 else 0

/-- Whether the call keeps layer 1 active. -/
def activates (c : Call) : Nat := if c.Allocated ∧ c.pipe ≠ none then 1 else 0

/-- The number of calls that use the pipe. -/
def refs (l : Line n) (p : PipeNo) : Nat := ∑ i, uses (l.cd i) p

/-- The number of calls that keep layer 1 active. -/
def active (l : Line n) : Nat := ∑ i, activates (l.cd i)

theorem sum_set (l : Line n) (i : Fin n) (c : Call) (w : Call → Nat) :
    (∑ j, w ((l.set i c).cd j)) + w (l.cd i) = (∑ j, w (l.cd j)) + w c := by
  rw [← Finset.add_sum_erase _ _ (Finset.mem_univ i),
    ← Finset.add_sum_erase (Finset.univ) (fun j => w (l.cd j)) (Finset.mem_univ i), set_cd_self]
  have hsame : ∑ j ∈ Finset.univ.erase i, w ((l.set i c).cd j)
      = ∑ j ∈ Finset.univ.erase i, w (l.cd j) := by
    refine Finset.sum_congr rfl ?_
    intro j hj
    rw [set_cd_of_ne l c (Finset.ne_of_mem_erase hj)]
  rw [hsame]
  omega

/-- One call changes the number of calls on a pipe by its own part. -/
theorem refs_set (l : Line n) (i : Fin n) (c : Call) (p : PipeNo) :
    (l.set i c).refs p + uses (l.cd i) p = l.refs p + uses c p := sum_set l i c (uses · p)

theorem active_set (l : Line n) (i : Fin n) (c : Call) :
    (l.set i c).active + activates (l.cd i) = l.active + activates c := sum_set l i c activates

/-- Only the pipes of calls count. -/
theorem refs_congr {l l' : Line n} (h : l'.cd = l.cd) : l'.refs = l.refs := by
  funext p
  rw [refs, refs, h]

theorem active_congr {l l' : Line n} (h : l'.cd = l.cd) : l'.active = l.active := by
  rw [active, active, h]

/-- A call counts once at most. -/
theorem uses_le (c : Call) (p : PipeNo) : uses c p ≤ if c.Allocated then 1 else 0 := by
  rw [uses]
  split
  · rename_i h
    rw [if_pos h.1]
  · exact Nat.zero_le _

theorem activates_le (c : Call) : activates c ≤ if c.Allocated then 1 else 0 := by
  rw [activates]
  split
  · rename_i h
    rw [if_pos h.1]
  · exact Nat.zero_le _

theorem uses_of_free {c : Call} (h : ¬ c.Allocated) (p : PipeNo) : uses c p = 0 :=
  if_neg fun hc => h hc.1

theorem activates_of_free {c : Call} (h : ¬ c.Allocated) : activates c = 0 :=
  if_neg fun hc => h hc.1

theorem uses_of_pipe {c : Call} (h : c.Allocated) {p : PipeNo} (hp : c.pipe = some p) (q : PipeNo) :
    uses c q = if q = p then 1 else 0 := by
  simp only [uses, h, hp, true_and, Option.some_inj, eq_comm]

theorem activates_of_pipe {c : Call} (h : c.Allocated) {p : PipeNo} (hp : c.pipe = some p) :
    activates c = 1 :=
  if_pos ⟨h, hp ▸ Option.some_ne_none p⟩

theorem uses_of_none {c : Call} (hp : c.pipe = none) (q : PipeNo) : uses c q = 0 :=
  if_neg fun hc => Option.some_ne_none q (hc.2.symm.trans hp)

theorem activates_of_none {c : Call} (hp : c.pipe = none) : activates c = 0 :=
  if_neg fun hc => hc.2 hp

/-- There are no more calls than ids. -/
theorem Refs.calls_le {l : Line n} (hr : l.Refs) (hend : l.cdidEnd ≤ 0x7f) :
    ∑ i, (if (l.cd i).Allocated then 1 else 0) ≤ 126 := by
  rw [← Finset.card_filter]
  refine (Finset.card_le_card_of_injOn (fun i => cdid2Callreference (l.cd i).cdid)
    (t := Finset.Ico 1 0x7f) ?_ ?_).trans (Nat.card_Ico 1 0x7f).le
  · intro i hi
    obtain ⟨ref, h1, h2, hid⟩ := hr.range i (Finset.mem_filter.mp hi).2
    simp only [hid, cdid2Callreference_makeCdid, Finset.coe_Ico, Set.mem_Ico]
    omega
  · intro i hi j hj hij
    have hi := (Finset.mem_filter.mp hi).2
    obtain ⟨ri, -, -, hidi⟩ := hr.range i hi
    obtain ⟨rj, -, -, hidj⟩ := hr.range j (Finset.mem_filter.mp hj).2
    simp only [hidi, hidj, cdid2Callreference_makeCdid] at hij
    exact hr.inj i j hi (by rw [hidi, hidj, hij])

/-! ## The invariant

A call that leaves its pipe decrements the counter of that pipe, so the counter must not be zero: it
counts the call itself.  For the other direction there are at most 126 ids, and no more calls than ids, so
that no counter overflows.  `Counts` has what this needs: that ids are not used twice, and how many there
may be.
-/

/-- The counters are right.  There are at most 126 calls, so that they do not overflow. -/
structure Counts (l : Line n) : Prop where
  counted : l.Counted l.refs l.active
  refs : l.Refs
  cdidEnd : l.cdidEnd ≤ 0x7f

theorem Counts.refs_le {l : Line n} (h : l.Counts) (p : PipeNo) : l.refs p ≤ 126 :=
  (Finset.sum_le_sum fun i _ => uses_le (l.cd i) p).trans (h.refs.calls_le h.cdidEnd)

theorem Counts.active_le {l : Line n} (h : l.Counts) : l.active ≤ 126 :=
  (Finset.sum_le_sum fun i _ => activates_le (l.cd i)).trans (h.refs.calls_le h.cdidEnd)

theorem Counted.congr {l : Line n} {refs refs' : PipeNo → Nat} {active active' : Nat}
    (h : l.Counted refs active) (hr : ∀ p, refs p = refs' p) (ha : active = active') :
    l.Counted refs' active' := by
  obtain rfl : refs = refs' := funext hr
  subst ha
  exact h

/-- A change to a call that keeps its id and its pipe. -/
theorem Counted.set_same {m l : Line n} (h : m.Counted l.refs l.active) (hm : m.cd = l.cd)
    (i : Fin n) {c : Call} (hid : c.cdid = (l.cd i).cdid) (hp : c.pipe = (l.cd i).pipe) :
    (m.set i c).Counted (m.set i c).refs (m.set i c).active := by
  have halloc : c.Allocated ↔ (l.cd i).Allocated := by rw [Call.Allocated, Call.Allocated, hid]
  have hu : ∀ p, uses c p = uses (l.cd i) p :=
    fun p => if_congr (and_congr halloc (by rw [hp])) rfl rfl
  have ha : activates c = activates (l.cd i) :=
    if_congr (and_congr halloc (by rw [hp])) rfl rfl
  refine (h.set i c).congr ?_ ?_
  · intro p
    have := refs_set m i c p
    rw [hm, hu p, refs_congr hm] at this
    exact (Nat.add_right_cancel this).symm
  · have := active_set m i c
    rw [hm, ha, active_congr hm] at this
    exact (Nat.add_right_cancel this).symm

/-- A call uses its pipe, so the counters can be decremented. -/
theorem Counted.leave {l : Line n} {refs : PipeNo → Nat} {active : Nat} (h : l.Counted refs active)
    {c : Call} (ha : c.Allocated) (hr : ∀ p, uses c p ≤ refs p) (hact : activates c ≤ active) :
    (l.leave c.pipe).Counted (fun p => refs p - uses c p) (active - activates c) := by
  cases hp : c.pipe with
  | none =>
    refine h.congr ?_ ?_
    · intro p
      rw [uses_of_none hp, Nat.sub_zero]
    · rw [activates_of_none hp, Nat.sub_zero]
  | some p =>
    have hpos : 0 < refs p := by
      have := hr p
      rw [uses_of_pipe ha hp, if_pos rfl] at this
      exact this
    rw [activates_of_pipe ha hp] at hact ⊢
    refine ((h.unref hpos).down hact).congr ?_ rfl
    intro q
    rw [uses_of_pipe ha hp]
    by_cases hq : q = p
    · subst hq
      rw [Function.update_self, if_pos rfl]
    · rw [Function.update_of_ne hq, if_neg hq, Nat.sub_zero]

/-- A call that uses a pipe is one of those that are counted. -/
theorem uses_le_refs (l : Line n) (i : Fin n) (p : PipeNo) : uses (l.cd i) p ≤ l.refs p :=
  Finset.single_le_sum (f := fun j => uses (l.cd j) p) (fun _ _ => Nat.zero_le _) (Finset.mem_univ i)

theorem activates_le_active (l : Line n) (i : Fin n) : activates (l.cd i) ≤ l.active :=
  Finset.single_le_sum (f := fun j => activates (l.cd j)) (fun _ _ => Nat.zero_le _)
    (Finset.mem_univ i)

/-- The call that is freed was counted. -/
theorem counted_free {l : Line n} (h : l.Counts) (i : Fin n) (last : State) (cin cout : Nat)
    (ha : (l.cd i).Allocated) :
    (l.free i last cin cout).Counted (l.free i last cin cout).refs
      (l.free i last cin cout).active := by
  have hcd : ((l.leave (l.cd i).pipe).giveBack (l.cd i)).cd = l.cd := by rw [giveBack_cd, leave_cd]
  have hend : ¬ (ended (l.cd i) last cin cout).Allocated := fun hn => hn rfl
  refine (((h.counted.leave ha (uses_le_refs l i) (activates_le_active l i)).giveBack _).set i
    _).congr ?_ ?_
  · intro p
    have := refs_set ((l.leave (l.cd i).pipe).giveBack (l.cd i)) i (ended (l.cd i) last cin cout) p
    rw [hcd, uses_of_free hend, refs_congr hcd] at this
    rw [free]
    omega
  · have := active_set ((l.leave (l.cd i).pipe).giveBack (l.cd i)) i (ended (l.cd i) last cin cout)
    rw [hcd, activates_of_free hend, active_congr hcd] at this
    rw [free]
    omega

/-- A call that moves is counted on its new pipe, and no longer on the old one. -/
theorem counted_move {l : Line n} (h : l.Counts) (i : Fin n) (p : PipeNo) (paused : Bool)
    (ha : (l.cd i).Allocated) :
    (l.move i p paused).Counted (l.move i p paused).refs (l.move i p paused).active := by
  have hcd : ((l.join p paused).leave (l.cd i).pipe).cd = l.cd := by rw [leave_cd, join_cd]
  have hr := h.refs_le p
  have hact := h.active_le
  have huses : ∀ q, uses { l.cd i with pipe := some p } q = if q = p then 1 else 0 :=
    uses_of_pipe (c := { l.cd i with pipe := some p }) ha rfl
  have hactivates : activates { l.cd i with pipe := some p } = 1 :=
    activates_of_pipe (c := { l.cd i with pipe := some p }) ha rfl
  have hjoin := h.counted.join (p := p) paused (by omega) (by omega)
  have hupd : ∀ q, Function.update l.refs p (l.refs p + 1) q = l.refs q + if q = p then 1 else 0 := by
    intro q
    by_cases hq : q = p
    · subst hq
      rw [Function.update_self, if_pos rfl]
    · rw [Function.update_of_ne hq, if_neg hq, Nat.add_zero]
  refine ((hjoin.leave ha ?_ ?_).set i _).congr ?_ ?_
  · intro q
    rw [hupd]
    exact (uses_le_refs l i q).trans (Nat.le_add_right _ _)
  · exact (activates_le_active l i).trans (Nat.le_add_right _ _)
  · intro q
    have := refs_set ((l.join p paused).leave (l.cd i).pipe) i { l.cd i with pipe := some p } q
    rw [hcd, huses, refs_congr hcd] at this
    rw [hupd, move]
    omega
  · have := active_set ((l.join p paused).leave (l.cd i).pipe) i { l.cd i with pipe := some p }
    rw [hcd, hactivates, active_congr hcd] at this
    rw [move]
    omega

/-- A new call is counted. -/
theorem counted_allocate {l : Line n} (h : l.Counts) (i : Fin n) (cdid : Nat) (p : PipeNo)
    (paused : Bool) (cr : Nat) (incoming : Bool) (hi : ¬ (l.cd i).Allocated)
    (hc : cdid ≠ cdidUnused) :
    (l.allocate i cdid p paused cr incoming).Counted (l.allocate i cdid p paused cr incoming).refs
      (l.allocate i cdid p paused cr incoming).active := by
  have hr := h.refs_le p
  have hact := h.active_le
  have hnew : (newCall cdid p cr incoming).Allocated := hc
  refine ((h.counted.join (p := p) paused (by omega) (by omega)).set i _).congr ?_ ?_
  · intro q
    have := refs_set (l.join p paused) i (newCall cdid p cr incoming) q
    rw [join_cd, uses_of_free hi, uses_of_pipe hnew rfl, refs_congr (join_cd l p paused)] at this
    rw [allocate]
    by_cases hq : q = p
    · subst hq
      rw [if_pos rfl] at this
      rw [Function.update_self]
      omega
    · rw [if_neg hq] at this
      rw [Function.update_of_ne hq]
      omega
  · have := active_set (l.join p paused) i (newCall cdid p cr incoming)
    rw [join_cd, activates_of_free hi, activates_of_pipe hnew rfl,
      active_congr (join_cd l p paused)] at this
    rw [allocate]
    omega

theorem Step.counted {l l' : Line n} (h : Step b l l') (hc : l.Counts) :
    l'.Counted l'.refs l'.active := by
  cases h with
  | bump p =>
    rw [refs_congr (bump_cd l p), active_congr (bump_cd l p)]
    exact hc.counted.bump ((hc.refs_le p).trans_lt (by decide))
  | move i p paused ha hd => exact counted_move hc i p paused ha
  | free i last cin cout ha => exact counted_free hc i last cin cout ha
  | give i => exact (hc.counted.giveBack _).set_same (giveBack_cd l _) i rfl rfl
  | take i c ha h hlt hfree hb =>
    have hu : ({ l with utilization := Function.update l.utilization c true } : Line n).Counted
        l.refs l.active :=
      ⟨hc.counted.refcount, hc.counted.l1AutoActivate, hc.counted.underflow⟩
    exact hu.set_same rfl i rfl rfl
  | name i => exact hc.counted.set_same rfl i rfl rfl
  | takeNone i => exact hc.counted.set_same rfl i rfl rfl
  | holdInd i => exact hc.counted.set_same rfl i rfl rfl
  | holdReq i => exact hc.counted.set_same rfl i rfl rfl
  | unhold i => exact hc.counted.set_same rfl i rfl rfl
  | retrieveReq i => exact hc.counted.set_same rfl i rfl rfl
  | retrieveAck i => exact hc.counted.set_same rfl i rfl rfl
  | causeIn i => exact hc.counted.set_same rfl i rfl rfl
  | causeOut i => exact hc.counted.set_same rfl i rfl rfl
  | count i => exact hc.counted.set_same rfl i rfl rfl
  | enter i => exact hc.counted.set_same rfl i rfl rfl

/-- **A change keeps the counters right.** -/
theorem Step.counts {l l' : Line n} (h : Step b l l') (hc : l.Counts) : l'.Counts :=
  ⟨h.counted hc, h.refs hc.refs, h.sameSetting.cdidEnd.trans_le hc.cdidEnd⟩

/-- **So does a call that begins.** -/
theorem Begin.counts {l l' : Line n} (h : Begin l l') (hc : l.Counts) : l'.Counts := by
  refine ⟨?_, h.refs hc.refs, h.sameSetting.cdidEnd.trans_le hc.cdidEnd⟩
  cases h with
  | none => exact hc.counted
  | clear i hi =>
    have hn : ¬ ({} : Call).Allocated := fun hn => hn rfl
    refine (hc.counted.set i {}).congr ?_ ?_
    · intro p
      have := refs_set l i {} p
      rw [uses_of_free hi, uses_of_free hn] at this
      exact this.symm
    · have := active_set l i {}
      rw [activates_of_free hi, activates_of_free hn] at this
      exact this.symm
  | dial i cdid paused hl hi hf => exact counted_allocate hc i _ _ _ _ _ hi hf.ne_unused
  | ring i cdid p paused cr hl hi hf hcr hp hm => exact counted_allocate hc i _ _ _ _ _ hi hf.ne_unused

theorem refs_of_no_calls {l : Line n} (h : ∀ i, ¬ (l.cd i).Allocated) (p : PipeNo) : l.refs p = 0 :=
  Finset.sum_eq_zero fun i _ => uses_of_free (h i) p

theorem active_of_no_calls {l : Line n} (h : ∀ i, ¬ (l.cd i).Allocated) : l.active = 0 :=
  Finset.sum_eq_zero fun i _ => activates_of_free (h i)

/-- On a line that was just attached there is nothing to be counted. -/
theorem counts_attach {l : Line n} (hu : l.underflow = false) (nt ptp : Bool) :
    (l.attach nt ptp).Counts := by
  have hn : ∀ i, ¬ ((l.attach nt ptp).cd i).Allocated := fun i h => h rfl
  refine ⟨⟨?_, ?_, hu⟩, refs_attach l nt ptp, le_refl _⟩
  · funext p
    exact (refs_of_no_calls hn p).symm
  · exact (active_of_no_calls hn).symm

/-- Without calls, detachment does not change the counters. -/
theorem counts_detach {l : Line n} (hn : ∀ i, ¬ (l.cd i).Allocated) (hc : l.Counts) :
    l.detach.Counts := by
  refine ⟨⟨hc.counted.refcount, ?_, hc.counted.underflow⟩, refs_detach hc.refs, hc.cdidEnd⟩
  exact (active_of_no_calls (l := l.detach) hn).symm

end Line

namespace Cntl

variable {n : Nat} {env : Env}

/-- The protocol is detached only when there are no calls. -/
def DetachSafe (s : Cntl n) : Action n → Prop
  | .detach => ∀ i, ¬ (s.cd i).Allocated
  | _ => True

/-- The counters are right in each state of such a run. -/
theorem ReachBy.counts {s : Cntl n} (h : ReachBy env DetachSafe s) : s.line.Counts :=
  (h.line_induction (b := .all) (motive := Line.Counts) (fun _ _ _ _ => ⟨.inl rfl, .inl rfl⟩)
    (fun _ _ _ nt ptp => Line.counts_attach rfl nt ptp)
    (fun _ nt ptp hm => Line.counts_attach hm.counted.underflow nt ptp)
    (fun _ _ hok hm hs _ => hs.preserves (fun _ _ hs => hs.counts) (Line.counts_detach hok hm))
    (fun _ _ hb => hb.counts) (fun _ _ hs => hs.counts)).2

/-- **In a run in which the protocol is detached only when there are no calls, the counters are the
numbers of calls on the pipes and of calls with a pipe, and none was decremented below zero.** -/
theorem ReachBy.counts_calls {s : Cntl n} (h : ReachBy env DetachSafe s) :
    (∀ p, s.refcount p =
      (Finset.univ.filter fun i => (s.cd i).Allocated ∧ (s.cd i).pipe = some p).card) ∧
    s.l1AutoActivate =
      (Finset.univ.filter fun i => (s.cd i).Allocated ∧ (s.cd i).pipe ≠ none).card ∧
    s.underflow = false := by
  have hc := h.counts.counted
  refine ⟨?_, ?_, hc.underflow⟩
  · intro p
    rw [Finset.card_filter]
    exact congrFun hc.refcount p
  · rw [Finset.card_filter]
    exact hc.l1AutoActivate

/-- A SETUP for a terminal. -/
def setupInd : Action 2 := .dataInd 0 [0x08, 0x01, 0x05, 0x05] false

/-- An incoming call uses the pipe of the adapter. -/
theorem counts_calls_ringing :
    ∃ s : Cntl 2, (s.cd 0).Allocated ∧ s.refcount 0 = 1 ∧
      s.refcount 0 =
        (Finset.univ.filter fun i => (s.cd i).Allocated ∧ (s.cd i).pipe = some 0).card := by
  have h : (((fresh false true).step plain setupInd).bind fun s =>
      some (decide ((s.cd 0).Allocated ∧ s.refcount 0 = 1))) = some true := by decide +kernel
  obtain ⟨s, hs, h⟩ := Option.bind_eq_some_iff.mp h
  obtain ⟨ha, hr⟩ := of_decide_eq_true (Option.some.inj h)
  have hreach : ReachBy plain DetachSafe s :=
    .step (a := setupInd) (.start 0 3 0 false true false) trivial hs
  exact ⟨s, ha, hr, hreach.counts_calls.1 0⟩

/-- The protocol is detached while there is a call: afterwards there is none, but the counter of
layer 1 was decremented below zero. -/
theorem detach_decrements_below_zero :
    ∃ s : Cntl 2, Reach plain s ∧ (∀ i, ¬ (s.cd i).Allocated) ∧ s.l1AutoActivate = 0xffffffff ∧
      s.underflow = true := by
  have h : (((fresh false true).run plain [setupInd, .detach]).bind fun s =>
      some (decide ((∀ i, ¬ (s.cd i).Allocated) ∧ s.l1AutoActivate = 0xffffffff ∧
        s.underflow = true))) = some true := by decide +kernel
  obtain ⟨s, hs, h⟩ := Option.bind_eq_some_iff.mp h
  exact ⟨s, (reach_fresh plain false true).run hs, of_decide_eq_true (Option.some.inj h)⟩

end Cntl

end L3
end Isdn4bsd
