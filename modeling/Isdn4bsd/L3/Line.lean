import Isdn4bsd.L3.Encode

/-!
# Layer 3: what happens to a line

The calls of a controller and what they share, without the data of the calls, the messages and the
surroundings: which channels are in use, how many calls use a pipe, and how many keep layer 1
active.

* `Line` is that part of a controller, and `Cntl.line` takes it.
* `Line.Step` lists the changes to calls, `Line.Steps` is any number of them, and `Line.Begin` is
  the allocation of a descriptor that may come before them.

## Why there is such a layer

`cd_update` has some thirty cases, and `cd_set_state` is called from most of them.  If every invariant of the
calls were proved by going through these functions, each proof would be as long as all of them.  What they
do to a line, however, is one of a dozen changes: a channel is taken or given back, the call moves to a
pipe, it enters a state, its causes are set, it is freed, and so on.  Every function of layer 3 acts by
`Steps` (`Isdn4bsd.L3.Refine`), so **what a single change preserves is preserved by all of them**
(`Steps.preserves`), and a proof has a case for each change, not for each event.

Most changes are to one call, whatever there is in the others.  `Change` is a change seen from that call, and
`Step.forall_cd` carries an invariant of single descriptors over to all of them.

## What may be forbidden

Two of the changes may be forbidden (`Permit`): to take a channel for a call that is on hold, and to keep a
cause that `i4b_make_q850_cause` does not know.  The source does both if it is made to.  An invariant that
only they break holds in the runs in which they are not made, and which actions make them is said once for
all, in `Isdn4bsd.L3.Actions`.

`TidyCall` and `Live` are two invariants that the others rest on: a descriptor in use has a pipe and a
running timer, a free one owns nothing, and there are calls only while the line is attached.
-/

set_option autoImplicit false

namespace Isdn4bsd
namespace L3

open L2 (PipeNo adapter)

namespace State

/-- The states of a call of this direction. -/
def OkFor : Bool → State → Prop
  | true, s => State.incoming.num ≤ s.num
  | false, s => (State.outgoing.num ≤ s.num ∧ s.num ≤ u4To.num) ∨ ua.num ≤ s.num

instance : (incoming : Bool) → (s : State) → Decidable (OkFor incoming s)
  | true, _ => inferInstanceAs (Decidable (_ ≤ _))
  | false, _ => inferInstanceAs (Decidable (_ ∨ _))

/-- A state may follow another one: the number does not go down, except from `X_TO` to `X`. -/
def Follows (old new : State) : Prop := old.num ≤ new.num ∨ (old.isTimeout = true ∧ new = old.pred)

instance (old new : State) : Decidable (old.Follows new) := inferInstanceAs (Decidable (_ ∨ _))

end State

/-- `i4b_make_q850_cause` knows the type of the cause. -/
def Handled (cause : Nat) : Prop := (i4bMakeQ850Cause cause).isSome = true

instance (cause : Nat) : Decidable (Handled cause) := inferInstanceAs (Decidable (_ = _))

/-- The calls of a controller and what they share. -/
structure Line (n : Nat) where
  unit : Nat
  cd : Fin n → Call
  utilization : Nat → Bool
  channelEnd : Nat
  cdidEnd : Nat
  connected : Bool
  ntMode : Bool
  pointToPoint : Bool
  l1AutoActivate : Nat
  refcount : PipeNo → Nat
  underflow : Bool

/-- What a controller keeps of its calls. -/
def Cntl.line {n : Nat} (s : Cntl n) : Line n where
  unit := s.unit
  cd := fun i => (s.cd i).toCall
  utilization := s.utilization
  channelEnd := s.channelEnd
  cdidEnd := s.cdidEnd
  connected := s.connected
  ntMode := s.ntMode
  pointToPoint := s.pointToPoint
  l1AutoActivate := s.l1AutoActivate
  refcount := s.refcount
  underflow := s.underflow

namespace Line

variable {n : Nat}

/-! ## Changes, as functions

Each of them is a part of what the source does, without a condition; whether it is done in a given state
is said by `Step`.  Counters are eight or 32 bits wide in the source, and wrap in `ref` and `up` as they do
there.
-/

/-- Replace one call. -/
def set (l : Line n) (i : Fin n) (c : Call) : Line n := { l with cd := Function.update l.cd i c }

@[simp] theorem set_cd_self (l : Line n) (i : Fin n) (c : Call) : (l.set i c).cd i = c :=
  Function.update_self _ _ _

theorem set_cd_of_ne (l : Line n) {i j : Fin n} (c : Call) (h : j ≠ i) :
    (l.set i c).cd j = l.cd j := Function.update_of_ne h _ _

theorem set_set (l : Line n) (i : Fin n) (c d : Call) : (l.set i c).set i d = l.set i d := by
  simp only [set, Function.update_idem]

/-- To replace a call by itself is to do nothing. -/
theorem set_self (l : Line n) (i : Fin n) : l.set i (l.cd i) = l := by
  simp only [set, Function.update_eq_self]

/-- A pipe is used by one more call. -/
def ref (l : Line n) (p : PipeNo) : Line n :=
  { l with refcount := Function.update l.refcount p (inc (l.refcount p)) }

/-- A pipe is used by one call less. -/
def unref (l : Line n) (p : PipeNo) : Line n :=
  { l with
    refcount := Function.update l.refcount p (dec (l.refcount p))
    underflow := l.underflow || l.refcount p == 0 }

/-- Layer 1 is kept active by one more call. -/
def up (l : Line n) : Line n := { l with l1AutoActivate := inc l.l1AutoActivate }

/-- Layer 1 is kept active by one call less. -/
def down (l : Line n) : Line n :=
  { l with
    l1AutoActivate := dec l.l1AutoActivate
    underflow := l.underflow || l.l1AutoActivate == 0 }

/-- A pipe counts as used while it is activated. -/
def bump (l : Line n) (p : PipeNo) : Line n := (l.ref p).unref p

/-- A call gets a pipe, which may have to be activated. -/
def join (l : Line n) (p : PipeNo) (paused : Bool) : Line n :=
  if paused then ((l.ref p).up).bump p else (l.ref p).up

/-- A call gives up its pipe, if it has one. -/
def leave (l : Line n) : Option PipeNo → Line n
  | some p => (l.unref p).down
  | none => l

/-- The channel a call has, if it has one, is free again. -/
def giveBack (l : Line n) (c : Call) : Line n :=
  if c.channelAllocated = true ∧ 0 ≤ c.channelId ∧ c.channelId < l.channelEnd then
    { l with utilization := Function.update l.utilization c.channelId.toNat false }
  else l

/-- A call without a channel. -/
def withoutChannel (c : Call) : Call :=
  { c with
    channelId := if c.channelAllocated then chanAny else c.channelId
    channelAllocated := false }

/-- The call gives back its channel. -/
def give (l : Line n) (i : Fin n) : Line n := (l.giveBack (l.cd i)).set i (withoutChannel (l.cd i))

/-- A channel is taken for the call. -/
def take (l : Line n) (i : Fin n) (c : Nat) : Line n :=
  { l with utilization := Function.update l.utilization c true }.set i
    { l.cd i with channelId := c, channelAllocated := true }

/-- The call moves to a pipe. -/
def move (l : Line n) (i : Fin n) (p : PipeNo) (paused : Bool) : Line n :=
  ((l.join p paused).leave (l.cd i).pipe).set i { l.cd i with pipe := some p }

/-- The call goes to a state, and its timer is started. -/
def enter (l : Line n) (i : Fin n) (new : State) : Line n :=
  l.set i { l.cd i with
    state := new, setStateCallout := true, history := new :: (l.cd i).history }

/-- A call as it is when its descriptor was just freed. -/
def ended (c : Call) (last : State) (causeIn causeOut : Nat) : Call :=
  { withoutChannel c with
    cdid := cdidUnused
    pipe := none
    state := last
    setStateCallout := false
    causeIn := causeIn
    causeOut := causeOut }

/-- The descriptor is freed, with all that the call owned. -/
def free (l : Line n) (i : Fin n) (last : State) (causeIn causeOut : Nat) : Line n :=
  ((l.leave (l.cd i).pipe).giveBack (l.cd i)).set i (ended (l.cd i) last causeIn causeOut)

/-- A call as it is when its descriptor was just allocated. -/
def newCall (cdid : Nat) (p : PipeNo) (cr : Nat) (incoming : Bool) : Call where
  cdid := cdid
  pipe := some p
  cr := cr
  channelId := chanAny
  dirIncoming := incoming
  state := if incoming then .incoming else .outgoing
  setStateCallout := true
  history := [if incoming then .incoming else .outgoing]

/-- A descriptor is allocated. -/
def allocate (l : Line n) (i : Fin n) (cdid : Nat) (p : PipeNo) (paused : Bool) (cr : Nat)
    (incoming : Bool) : Line n :=
  (l.join p paused).set i (newCall cdid p cr incoming)

/-- The line is attached, without calls. -/
def attach (l : Line n) (ntMode pointToPoint : Bool) : Line n :=
  { l with
    cd := fun _ => {}
    utilization := fun c => decide (c = 0)
    cdidEnd := 0x7f
    connected := true
    ntMode := ntMode
    pointToPoint := pointToPoint
    l1AutoActivate := 0
    refcount := fun _ => 0 }

/-- The line is no longer attached; the calls have yet to end. -/
def detach (l : Line n) : Line n := { l with connected := false, l1AutoActivate := 0 }

/-! ### Changes to different parts do not interfere

The functions of the source change one thing after another, and not always in the order of `Line.free` or
`Line.move`.  What is changed for a call in its descriptor, in the counters of the pipes and in the
channels are three different parts.
-/

theorem set_unref (l : Line n) (i : Fin n) (c : Call) (p : PipeNo) :
    (l.set i c).unref p = (l.unref p).set i c := by
  rw [set, unref, unref, set]

theorem set_down (l : Line n) (i : Fin n) (c : Call) : (l.set i c).down = l.down.set i c := by
  rw [set, down, down, set]

/-- What a call gives up is not in the descriptor of another one. -/
theorem set_leave (l : Line n) (i : Fin n) (c : Call) (o : Option PipeNo) :
    (l.set i c).leave o = (l.leave o).set i c := by
  cases o with
  | none => rfl
  | some p => rw [leave, leave, set_unref, set_down]

theorem set_join (l : Line n) (i : Fin n) (c : Call) (p : PipeNo) (paused : Bool) :
    (l.set i c).join p paused = (l.join p paused).set i c := by
  have hup : ((l.set i c).ref p).up = ((l.ref p).up).set i c := by
    rw [set, ref, ref, up, up, set]
  have hbump : ∀ m : Line n, (m.set i c).bump p = (m.bump p).set i c := by
    intro m
    rw [bump, bump, ← set_unref, set, ref, ref, set]
  rw [join, join, hup, hbump]
  split
  · rfl
  · rfl

theorem set_giveBack (l : Line n) (i : Fin n) (c d : Call) :
    (l.set i c).giveBack d = (l.giveBack d).set i c := by
  rw [giveBack, giveBack, set]
  split
  · rw [set]
  · rw [set]

theorem giveBack_congr (l : Line n) {c d : Call} (ha : c.channelAllocated = d.channelAllocated)
    (hi : c.channelId = d.channelId) : l.giveBack c = l.giveBack d := by
  simp only [giveBack, ha, hi]

/-- The call with another state, timer and causes; these are forgotten when it is freed. -/
def mark (l : Line n) (i : Fin n) (state : State) (callout : Bool) (causeIn causeOut : Nat) :
    Line n :=
  l.set i { l.cd i with
    state := state, setStateCallout := callout, causeIn := causeIn, causeOut := causeOut }

theorem mark_self (l : Line n) (i : Fin n) :
    l.mark i (l.cd i).state (l.cd i).setStateCallout (l.cd i).causeIn (l.cd i).causeOut = l :=
  l.set_self i

theorem mark_set (l : Line n) (i : Fin n) (st st' : State) (co co' : Bool)
    (cin cin' cout cout' : Nat) :
    (l.mark i st co cin cout).mark i st' co' cin' cout' = l.mark i st' co' cin' cout' := by
  rw [mark, mark, mark, set_set, set_cd_self]

/-- A call that is freed forgets its state and its causes. -/
theorem free_mark (l : Line n) (i : Fin n) (st last : State) (co : Bool)
    (cin cin' cout cout' : Nat) :
    (l.mark i st co cin cout).free i last cin' cout' = l.free i last cin' cout' := by
  rw [free, free, mark, set_cd_self, set_leave, set_giveBack, set_set]
  exact congrArg₂ (fun m c => set m i c) (giveBack_congr _ rfl rfl) rfl

/-! ## Steps

The constructors of `Step` are the changes with the conditions under which the source makes them, where
these are needed by anybody.  `Begin` is a part from it, since it makes a call of a descriptor that was
free, and happens once in an action at most.
-/

/-- What is required of an id for a new call. -/
structure Fresh (l : Line n) (cdid : Nat) : Prop where
  /-- The call reference in it is one of `1 .. N_cdid_end - 1`. -/
  range : ∃ ref, 1 ≤ ref ∧ ref < l.cdidEnd ∧ cdid = makeCdid l.unit ref
  /-- It is not in use. -/
  unused : ∀ j, (l.cd j).cdid ≠ cdid

theorem Fresh.ne_unused {l : Line n} {cdid : Nat} (h : l.Fresh cdid) : cdid ≠ cdidUnused := by
  obtain ⟨ref, h1, -, rfl⟩ := h.range
  rw [makeCdid, cdidUnused, maxControllers]
  intro h0
  have := (Nat.or_eq_zero_iff.mp h0).2
  omega

/-- The call matches, for `cd_by_unitcr`. -/
def Matches (l : Line n) (p : PipeNo) (cr : Nat) (i : Fin n) : Prop :=
  (l.cd i).cdid ≠ cdidUnused ∧ (l.cd i).cr = cr ∧
    ((l.cd i).pipe = some adapter ∨ (l.cd i).pipe = some p)

/-- A descriptor may be allocated. -/
inductive Begin : Line n → Line n → Prop where
  | none (l : Line n) : Begin l l
  /-- It is cleared, but there is no id for it. -/
  | clear (l : Line n) (i : Fin n) (h : ¬ (l.cd i).Allocated) : Begin l (l.set i {})
  | dial (l : Line n) (i : Fin n) (cdid : Nat) (paused : Bool) (hl : l.connected = true)
      (h : ¬ (l.cd i).Allocated) (hc : l.Fresh cdid) :
      Begin l (l.allocate i cdid adapter paused (cdid2Callreference cdid) false)
  | ring (l : Line n) (i : Fin n) (cdid : Nat) (p : PipeNo) (paused : Bool) (cr : Nat)
      (hl : l.connected = true) (h : ¬ (l.cd i).Allocated) (hc : l.Fresh cdid)
      (hcr : cr &&& 0x80 ≠ 0) (hp : p = adapter ↔ l.pointToPoint = true ∨ l.ntMode = false)
      (hm : ∀ j, ¬ l.Matches p cr j) : Begin l (l.allocate i cdid p paused cr true)

/-- What may be done in addition: take a channel for a call that is on hold, and keep a cause that is
not handled. -/
structure Permit where
  onHold : Bool
  anyCause : Bool

/-- Everything may be done. -/
def Permit.all : Permit := ⟨true, true⟩

/-- One change to a call. -/
inductive Step (b : Permit) : Line n → Line n → Prop where
  | bump (l : Line n) (p : PipeNo) : Step b l (l.bump p)
  /-- The other end, or the application, names a channel, or none is left. -/
  | name (l : Line n) (i : Fin n) (c : Int) (h : (l.cd i).channelAllocated = false) :
      Step b l (l.set i { l.cd i with channelId := c })
  | take (l : Line n) (i : Fin n) (c : Nat) (ha : (l.cd i).Allocated)
      (h : (l.cd i).channelAllocated = false) (hc : c < l.channelEnd)
      (hfree : l.utilization c = false)
      (hb : b.onHold = true ∨ (l.cd i).callIsOnHold = false) : Step b l (l.take i c)
  /-- A call that is to have no channel counts as having one. -/
  | takeNone (l : Line n) (i : Fin n) (ha : (l.cd i).Allocated)
      (h : (l.cd i).channelAllocated = false) (hc : (l.cd i).channelId = chanNotAny)
      (hb : b.onHold = true ∨ (l.cd i).callIsOnHold = false) :
      Step b l (l.set i { l.cd i with channelAllocated := true })
  | give (l : Line n) (i : Fin n) : Step b l (l.give i)
  | holdInd (l : Line n) (i : Fin n) (h : (l.cd i).channelAllocated = false)
      (hn : l.ntMode = true) : Step b l (l.set i { l.cd i with callIsOnHold := true })
  | holdReq (l : Line n) (i : Fin n) (h : (l.cd i).channelAllocated = false) :
      Step b l (l.set i { l.cd i with callIsOnHold := true, callIsRetrieving := false })
  | unhold (l : Line n) (i : Fin n) : Step b l (l.set i { l.cd i with callIsOnHold := false })
  | retrieveReq (l : Line n) (i : Fin n) (hn : l.ntMode = false) :
      Step b l (l.set i { l.cd i with callIsOnHold := false, callIsRetrieving := true })
  | retrieveAck (l : Line n) (i : Fin n) :
      Step b l (l.set i { l.cd i with callIsRetrieving := false })
  | causeIn (l : Line n) (i : Fin n) (cause : Nat) (h : b.anyCause = true ∨ Handled cause) :
      Step b l (l.set i { l.cd i with causeIn := cause })
  | causeOut (l : Line n) (i : Fin n) (cause : Nat) (h : b.anyCause = true ∨ Handled cause) :
      Step b l (l.set i { l.cd i with causeOut := cause })
  | move (l : Line n) (i : Fin n) (p : PipeNo) (paused : Bool) (ha : (l.cd i).Allocated)
      (hd : (l.cd i).dirIncoming = false) : Step b l (l.move i p paused)
  | count (l : Line n) (i : Fin n)
      (h : (l.cd i).statusEnquiryTimeout < statusEnquiryTimeoutMax) :
      Step b l (l.set i
        { l.cd i with statusEnquiryTimeout := (l.cd i).statusEnquiryTimeout + 1 })
  | enter (l : Line n) (i : Fin n) (new : State) (ha : (l.cd i).Allocated)
      (hf : (l.cd i).state.Follows new)
      (ho : State.OkFor (l.cd i).dirIncoming (l.cd i).state → State.OkFor (l.cd i).dirIncoming new) :
      Step b l (l.enter i new)
  | free (l : Line n) (i : Fin n) (last : State) (causeIn causeOut : Nat)
      (ha : (l.cd i).Allocated) : Step b l (l.free i last causeIn causeOut)

/-- Any number of changes. -/
abbrev Steps (b : Permit) : Line n → Line n → Prop := Relation.ReflTransGen (Step b)

/-- **What a change preserves, any number of them preserve.** -/
theorem Steps.preserves {b : Permit} {motive : Line n → Prop}
    (hstep : ∀ l l', Step b l l' → motive l → motive l') {l l' : Line n} (h : Steps b l l')
    (hl : motive l) : motive l' := by
  induction h with
  | refl => exact hl
  | tail _ hs ih => exact hstep _ _ hs ih

/-- What is done at once: a descriptor may be allocated, and then calls are changed. -/
def Act (b : Permit) (l l' : Line n) : Prop := ∃ m, Begin l m ∧ Steps b m l'

/-- Changes are what may be done at once. -/
theorem Steps.act {b : Permit} {l l' : Line n} (h : Steps b l l') : Act b l l' := ⟨l, .none l, h⟩

/-- **What both of them preserve, an action preserves.** -/
theorem Act.preserves {b : Permit} {motive : Line n → Prop}
    (hbegin : ∀ l l', Begin l l' → motive l → motive l')
    (hstep : ∀ l l', Step b l l' → motive l → motive l') {l l' : Line n} (h : Act b l l')
    (hl : motive l) : motive l' := by
  obtain ⟨m, hm, hs⟩ := h
  exact hs.preserves hstep (hbegin l m hm hl)

/-! ## What a change leaves alone

What belongs to a controller as long as it is attached: its unit, how many channels and ids it has, and
its mode.
-/

@[simp] theorem bump_cd (l : Line n) (p : PipeNo) : (l.bump p).cd = l.cd := by
  rw [bump, unref, ref]

@[simp] theorem join_cd (l : Line n) (p : PipeNo) (paused : Bool) : (l.join p paused).cd = l.cd := by
  rw [join]
  split
  · rw [bump_cd, up, ref]
  · rw [up, ref]

@[simp] theorem leave_cd (l : Line n) (o : Option PipeNo) : (l.leave o).cd = l.cd := by
  cases o with
  | none => rfl
  | some p => rw [leave, down, unref]

@[simp] theorem giveBack_cd (l : Line n) (c : Call) : (l.giveBack c).cd = l.cd := by
  rw [giveBack]
  split <;> rfl

/-- What all changes leave alone. -/
structure SameSetting (l l' : Line n) : Prop where
  unit : l'.unit = l.unit
  channelEnd : l'.channelEnd = l.channelEnd
  cdidEnd : l'.cdidEnd = l.cdidEnd
  connected : l'.connected = l.connected
  ntMode : l'.ntMode = l.ntMode
  pointToPoint : l'.pointToPoint = l.pointToPoint

theorem SameSetting.rfl {l : Line n} : SameSetting l l :=
  ⟨Eq.refl _, Eq.refl _, Eq.refl _, Eq.refl _, Eq.refl _, Eq.refl _⟩

theorem SameSetting.trans {l l' l'' : Line n} (h : SameSetting l l') (h' : SameSetting l' l'') :
    SameSetting l l'' where
  unit := h'.unit.trans h.unit
  channelEnd := h'.channelEnd.trans h.channelEnd
  cdidEnd := h'.cdidEnd.trans h.cdidEnd
  connected := h'.connected.trans h.connected
  ntMode := h'.ntMode.trans h.ntMode
  pointToPoint := h'.pointToPoint.trans h.pointToPoint

theorem sameSetting_set (l : Line n) (i : Fin n) (c : Call) : SameSetting l (l.set i c) :=
  ⟨rfl, rfl, rfl, rfl, rfl, rfl⟩

theorem sameSetting_ref (l : Line n) (p : PipeNo) : SameSetting l (l.ref p) :=
  ⟨rfl, rfl, rfl, rfl, rfl, rfl⟩

theorem sameSetting_bump (l : Line n) (p : PipeNo) : SameSetting l (l.bump p) :=
  (sameSetting_ref l p).trans ⟨rfl, rfl, rfl, rfl, rfl, rfl⟩

theorem sameSetting_join (l : Line n) (p : PipeNo) (paused : Bool) :
    SameSetting l (l.join p paused) := by
  have hup : SameSetting l ((l.ref p).up) := (sameSetting_ref l p).trans ⟨rfl, rfl, rfl, rfl, rfl, rfl⟩
  rw [join]
  split
  · exact hup.trans (sameSetting_bump _ p)
  · exact hup

theorem sameSetting_leave (l : Line n) (o : Option PipeNo) : SameSetting l (l.leave o) := by
  cases o with
  | none => exact .rfl
  | some p =>
    have hunref : SameSetting l (l.unref p) := ⟨rfl, rfl, rfl, rfl, rfl, rfl⟩
    exact hunref.trans ⟨rfl, rfl, rfl, rfl, rfl, rfl⟩

theorem sameSetting_giveBack (l : Line n) (c : Call) : SameSetting l (l.giveBack c) := by
  rw [giveBack]
  split
  · exact ⟨rfl, rfl, rfl, rfl, rfl, rfl⟩
  · exact .rfl

theorem Step.sameSetting {b : Permit} {l l' : Line n} (h : Step b l l') : SameSetting l l' := by
  cases h with
  | bump p => exact sameSetting_bump l p
  | take i c ha h hc hfree hb => exact ⟨rfl, rfl, rfl, rfl, rfl, rfl⟩
  | give i => exact (sameSetting_giveBack l _).trans (sameSetting_set _ i _)
  | move i p paused ha hd =>
    exact ((sameSetting_join l p paused).trans (sameSetting_leave _ _)).trans (sameSetting_set _ i _)
  | free i last causeIn causeOut ha =>
    exact ((sameSetting_leave l _).trans (sameSetting_giveBack _ _)).trans (sameSetting_set _ i _)
  | name i => exact sameSetting_set l i _
  | takeNone i => exact sameSetting_set l i _
  | holdInd i => exact sameSetting_set l i _
  | holdReq i => exact sameSetting_set l i _
  | unhold i => exact sameSetting_set l i _
  | retrieveReq i => exact sameSetting_set l i _
  | retrieveAck i => exact sameSetting_set l i _
  | causeIn i => exact sameSetting_set l i _
  | causeOut i => exact sameSetting_set l i _
  | count i => exact sameSetting_set l i _
  | enter i => exact sameSetting_set l i _

theorem Begin.sameSetting {l l' : Line n} (h : Begin l l') : SameSetting l l' := by
  cases h with
  | none => exact .rfl
  | clear i h => exact sameSetting_set l i _
  | dial i cdid paused => exact (sameSetting_join l _ paused).trans (sameSetting_set _ i _)
  | ring i cdid p paused => exact (sameSetting_join l p paused).trans (sameSetting_set _ i _)

/-- Nor do any number of changes. -/
theorem Steps.sameSetting {b : Permit} {l l' : Line n} (h : Steps b l l') : SameSetting l l' := by
  induction h with
  | refl => exact .rfl
  | tail _ hs ih => exact ih.trans hs.sameSetting

/-! ## What a change does to a call

For an invariant of single calls, a change to a line with many calls is too much to look at.  `Change` is
the same list, said of one descriptor.
-/

/-- The changes of `Step`, for the call that is changed. -/
inductive Change (b : Permit) (l : Line n) (c : Call) : Call → Prop where
  | name (channel : Int) (h : c.channelAllocated = false) :
      Change b l c { c with channelId := channel }
  | take (channel : Nat) (ha : c.Allocated) (h : c.channelAllocated = false)
      (hb : b.onHold = true ∨ c.callIsOnHold = false) :
      Change b l c { c with channelId := channel, channelAllocated := true }
  | takeNone (ha : c.Allocated) (h : c.channelAllocated = false)
      (hb : b.onHold = true ∨ c.callIsOnHold = false) :
      Change b l c { c with channelAllocated := true }
  | give : Change b l c (withoutChannel c)
  | holdInd (h : c.channelAllocated = false) (hn : l.ntMode = true) :
      Change b l c { c with callIsOnHold := true }
  | holdReq (h : c.channelAllocated = false) :
      Change b l c { c with callIsOnHold := true, callIsRetrieving := false }
  | unhold : Change b l c { c with callIsOnHold := false }
  | retrieveReq (hn : l.ntMode = false) :
      Change b l c { c with callIsOnHold := false, callIsRetrieving := true }
  | retrieveAck : Change b l c { c with callIsRetrieving := false }
  | causeIn (cause : Nat) (h : b.anyCause = true ∨ Handled cause) :
      Change b l c { c with causeIn := cause }
  | causeOut (cause : Nat) (h : b.anyCause = true ∨ Handled cause) :
      Change b l c { c with causeOut := cause }
  | move (p : PipeNo) (ha : c.Allocated) (hd : c.dirIncoming = false) :
      Change b l c { c with pipe := some p }
  | count (h : c.statusEnquiryTimeout < statusEnquiryTimeoutMax) :
      Change b l c { c with statusEnquiryTimeout := c.statusEnquiryTimeout + 1 }
  | enter (new : State) (ha : c.Allocated) (hf : c.state.Follows new)
      (ho : State.OkFor c.dirIncoming c.state → State.OkFor c.dirIncoming new) :
      Change b l c
        { c with state := new, setStateCallout := true, history := new :: c.history }
  | free (last : State) (causeIn causeOut : Nat) (ha : c.Allocated) :
      Change b l c (ended c last causeIn causeOut)

/-- A change is to one call at most. -/
theorem Step.change {b : Permit} {l l' : Line n} (h : Step b l l') :
    l'.cd = l.cd ∨
      ∃ i, Change b l (l.cd i) (l'.cd i) ∧ ∀ j, j ≠ i → l'.cd j = l.cd j := by
  have hset : ∀ (m : Line n) (i : Fin n) (c : Call), m.cd = l.cd → Change b l (l.cd i) c →
      ∃ k, Change b l (l.cd k) ((m.set i c).cd k) ∧ ∀ j, j ≠ k → (m.set i c).cd j = l.cd j := by
    intro m i c hm hc
    refine ⟨i, ?_, ?_⟩
    · rw [set_cd_self]
      exact hc
    · intro j hj
      rw [set_cd_of_ne m c hj, hm]
  cases h with
  | bump p => exact .inl (bump_cd l p)
  | take i c ha h hc hfree hb =>
    exact .inr (hset { l with utilization := Function.update l.utilization c true } i _ rfl
      (.take c ha h hb))
  | give i => exact .inr (hset _ i _ (giveBack_cd l _) .give)
  | move i p paused ha hd =>
    exact .inr (hset _ i _ (by rw [leave_cd, join_cd]) (.move p ha hd))
  | free i last causeIn causeOut ha =>
    exact .inr (hset _ i _ (by rw [giveBack_cd, leave_cd]) (.free last causeIn causeOut ha))
  | name i c h => exact .inr (hset l i _ rfl (.name c h))
  | takeNone i ha h hc hb => exact .inr (hset l i _ rfl (.takeNone ha h hb))
  | holdInd i h hn => exact .inr (hset l i _ rfl (.holdInd h hn))
  | holdReq i h => exact .inr (hset l i _ rfl (.holdReq h))
  | unhold i => exact .inr (hset l i _ rfl .unhold)
  | retrieveReq i hn => exact .inr (hset l i _ rfl (.retrieveReq hn))
  | retrieveAck i => exact .inr (hset l i _ rfl .retrieveAck)
  | causeIn i cause h => exact .inr (hset l i _ rfl (.causeIn cause h))
  | causeOut i cause h => exact .inr (hset l i _ rfl (.causeOut cause h))
  | count i h => exact .inr (hset l i _ rfl (.count h))
  | enter i new ha hf ho => exact .inr (hset l i _ rfl (.enter new ha hf ho))

/-- **What is preserved for the call that is changed holds of all calls afterwards.** -/
theorem Step.forall_cd {b : Permit} {l l' : Line n} (h : Step b l l') {motive : Call → Prop}
    (hm : ∀ c c', Change b l c c' → motive c → motive c') (hl : ∀ i, motive (l.cd i)) :
    ∀ i, motive (l'.cd i) := by
  intro j
  rcases h.change with hcd | ⟨i, hc, hne⟩
  · rw [hcd]
    exact hl j
  · by_cases hj : j = i
    · subst hj
      exact hm _ _ hc (hl j)
    · rw [hne j hj]
      exact hl j

theorem Begin.forall_cd {l l' : Line n} (h : Begin l l') {motive : Call → Prop}
    (hclear : motive {})
    (hnew : ∀ cdid p cr incoming, cdid ≠ cdidUnused → l.connected = true →
      motive (newCall cdid p cr incoming))
    (hl : ∀ i, motive (l.cd i)) : ∀ i, motive (l'.cd i) := by
  have hset : ∀ (m : Line n) (i : Fin n) (c : Call), m.cd = l.cd → motive c →
      ∀ j, motive ((m.set i c).cd j) := by
    intro m i c hm hc j
    by_cases hj : j = i
    · subst hj
      rw [set_cd_self]
      exact hc
    · rw [set_cd_of_ne m c hj, hm]
      exact hl j
  cases h with
  | none => exact hl
  | clear i h => exact hset l i _ rfl hclear
  | dial i cdid paused hcon h hc =>
    exact hset _ i _ (join_cd l _ paused) (hnew _ _ _ _ hc.ne_unused hcon)
  | ring i cdid p paused cr hcon h hc hcr hp hm =>
    exact hset _ i _ (join_cd l p paused) (hnew _ _ _ _ hc.ne_unused hcon)

/-! ## Order -/

/-- A descriptor is in order: a call has a pipe, its timer runs, and a free descriptor owns
nothing. -/
structure TidyCall (c : Call) : Prop where
  pipe : c.Allocated → c.pipe ≠ none
  callout : c.setStateCallout = true ↔ c.Allocated
  freed : ¬ c.Allocated → c.channelAllocated = false ∧ c.pipe = none

theorem tidyCall_default : TidyCall {} :=
  ⟨fun h => absurd rfl h, ⟨nofun, fun h => absurd rfl h⟩, fun _ => ⟨rfl, rfl⟩⟩

/-- **A change leaves a descriptor in order.** -/
theorem Change.tidy {b : Permit} {l : Line n} {c c' : Call} (h : Change b l c c')
    (ht : TidyCall c) : TidyCall c' := by
  cases h with
  | name channel h => exact ⟨ht.pipe, ht.callout, ht.freed⟩
  | take channel ha h hb => exact ⟨ht.pipe, ht.callout, fun hn => absurd ha hn⟩
  | takeNone ha h hb => exact ⟨ht.pipe, ht.callout, fun hn => absurd ha hn⟩
  | give => exact ⟨ht.pipe, ht.callout, fun hn => ⟨rfl, (ht.freed hn).2⟩⟩
  | holdInd h hn => exact ⟨ht.pipe, ht.callout, ht.freed⟩
  | holdReq h => exact ⟨ht.pipe, ht.callout, ht.freed⟩
  | unhold => exact ⟨ht.pipe, ht.callout, ht.freed⟩
  | retrieveReq hn => exact ⟨ht.pipe, ht.callout, ht.freed⟩
  | retrieveAck => exact ⟨ht.pipe, ht.callout, ht.freed⟩
  | causeIn cause h => exact ⟨ht.pipe, ht.callout, ht.freed⟩
  | causeOut cause h => exact ⟨ht.pipe, ht.callout, ht.freed⟩
  | move p ha hd =>
    exact ⟨fun _ => Option.some_ne_none p, ht.callout, fun hn => absurd ha hn⟩
  | count h => exact ⟨ht.pipe, ht.callout, ht.freed⟩
  | enter new ha hf ho => exact ⟨ht.pipe, ⟨fun _ => ha, fun _ => rfl⟩, ht.freed⟩
  | free last causeIn causeOut ha =>
    exact ⟨fun h => absurd rfl h, ⟨nofun, fun h => absurd rfl h⟩,
      fun _ => ⟨rfl, rfl⟩⟩

theorem tidyCall_newCall (cdid : Nat) (p : PipeNo) (cr : Nat) (incoming : Bool)
    (h : cdid ≠ cdidUnused) : TidyCall (newCall cdid p cr incoming) :=
  ⟨fun _ => Option.some_ne_none p, ⟨fun _ => h, fun _ => rfl⟩, fun hn => absurd h hn⟩

/-- All descriptors are in order. -/
def Tidy (l : Line n) : Prop := ∀ i, TidyCall (l.cd i)

theorem Step.tidy {b : Permit} {l l' : Line n} (h : Step b l l') (ht : l.Tidy) : l'.Tidy :=
  h.forall_cd (fun _ _ hc => hc.tidy) ht

theorem Begin.tidy {l l' : Line n} (h : Begin l l') (ht : l.Tidy) : l'.Tidy :=
  h.forall_cd tidyCall_default (fun cdid p cr incoming hc _ => tidyCall_newCall cdid p cr incoming hc)
    ht

/-- There are calls only while the line is attached. -/
def Live (l : Line n) : Prop := ∀ i, (l.cd i).Allocated → l.connected = true

theorem Change.allocated {b : Permit} {l : Line n} {c c' : Call} (h : Change b l c c')
    (ha : c'.Allocated) : c.Allocated := by
  cases h with
  | free last causeIn causeOut ha' => exact ha'
  | _ => exact ha

/-- There are no calls on a line that is not attached, as no change begins one. -/
theorem Step.live {b : Permit} {l l' : Line n} (h : Step b l l') (hl : l.Live) : l'.Live := by
  rw [Live, h.sameSetting.connected]
  exact h.forall_cd (motive := fun c => c.Allocated → l.connected = true)
    (fun _ _ hc hm ha => hm (hc.allocated ha)) hl

theorem Begin.live {l l' : Line n} (h : Begin l l') (hl : l.Live) : l'.Live := by
  rw [Live, h.sameSetting.connected]
  exact h.forall_cd (motive := fun c => c.Allocated → l.connected = true)
    (fun ha => absurd rfl ha) (fun _ _ _ _ _ hcon _ => hcon) hl

end Line

end L3
end Isdn4bsd
