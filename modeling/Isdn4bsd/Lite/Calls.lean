import Isdn4bsd.Lite.Call

/-!
# One live call

`dss1_lite_check_timeout` is only ever called for the first call descriptor. This file shows why that is
enough.

* `Quiet` : what changes in a state when something is sent, nothing that matters to calls.
* `Inv` : a live call is the first descriptor and the active one, its state is in the tables and
supervised, and `dl_channel_util` is its channel.
* `Goes` : the invariant stays, and no call turns around or goes back.
* `calls_of_run` : **so it is over every run of the stack**.

## Why there is only one

There are two descriptors. `dss1_lite_alloc_cd` takes the first free one, but only if there is no active
call, and a call stays the active one until it is complete. So the second descriptor is never used, and the
channel table, that has a bit for each channel in use, has at most the bit of the one call.

To be an invariant this has to say more. A live call must be in a state of its table, because the next
state is read from there; it must have a timeout, as otherwise it would never be looked at; and a descriptor
without a call must have no channel, so that nothing is lost when it is filled with zeros for the
next call.

## Three relations

A step is mostly the sending of messages, and these change the link and nothing of calls; `Quiet` says so, and
it can be put before and behind everything else. A change of the state of a call is `setState`, whose
result has one of three forms (`setState_cases`): nothing was done, the call is complete, or it has gone on to a
state that is not behind the one it was in. `Goes` says for an operation of layer 3 that `Inv` stays, that the
link only sends, and that each call there is afterwards follows from one before it.

The last part is `Follows`. Without it a call could be ended and another one begun within one step, and it would
look as if a call had gone back.

Each function of `Lite.Call` has one lemma with its name, in the order of the source.
-/

set_option autoImplicit false

namespace Isdn4bsd
namespace Dss1Lite

/-! ## What sending changes

A message is encoded from the descriptor and queued.  A frame that cannot be queued is lost, and the call
does not know.
-/

/-- A frame has room for the header of layer 2. -/
def Framed (m : Mbuf) : Prop := 4 ≤ m.length

/-- Frames were sent. -/
inductive Sends (isNtMode : Bool) : Link → Link → Prop
  | refl (l : Link) : Sends isNtMode l l
  | send {l l' : Link} (m : Mbuf) (h : Framed m) (hs : Sends isNtMode l l') :
    Sends isNtMode l (l'.sendMbuf isNtMode m).1

theorem Sends.trans {nt : Bool} {l l' l'' : Link} (h : Sends nt l l') (h' : Sends nt l' l'') :
    Sends nt l l'' := by
  induction h' with
  | refl => exact h
  | send m hm _ ih => exact ih.send m hm

/-- Two descriptors with the same call, as far as its state and channel go. -/
structure Same (c c' : CallDesc) : Prop where
  pstate : c'.pstate = c.pstate
  stateIndex : c'.stateIndex = c.stateIndex
  timeoutActive : c'.timeoutActive = c.timeoutActive
  allocated : c'.channelAllocated = c.channelAllocated
  channel : c.channelAllocated = true → c'.channelId = c.channelId

theorem Same.refl (c : CallDesc) : Same c c := ⟨rfl, rfl, rfl, rfl, fun _ => rfl⟩

theorem Same.trans {c c' c'' : CallDesc} (h : Same c c') (h' : Same c' c'') : Same c c'' where
  pstate := h'.pstate.trans h.pstate
  stateIndex := h'.stateIndex.trans h.stateIndex
  timeoutActive := h'.timeoutActive.trans h.timeoutActive
  allocated := h'.allocated.trans h.allocated
  channel := fun ha => (h'.channel (h.allocated.trans ha)).trans (h.channel ha)

theorem Same.hasCall {c c' : CallDesc} (h : Same c c') : c'.hasCall = c.hasCall := by
  rw [CallDesc.hasCall, h.pstate, CallDesc.hasCall]

theorem Same.isIncoming {c c' : CallDesc} (h : Same c c') : c'.isIncoming = c.isIncoming := by
  rw [CallDesc.isIncoming, h.stateIndex, CallDesc.isIncoming]

theorem Same.getState {c c' : CallDesc} (h : Same c c') : c'.getState = c.getState := by
  rw [CallDesc.getState, h.stateIndex, CallDesc.getState]

/-- The calls are the same in both states, and frames may have been sent. -/
structure Quiet (s s' : Lite) : Prop where
  cd : ∀ i, Same (s.cd i) (s'.cd i)
  active : s'.active = s.active
  util : s'.channelUtil = s.channelUtil
  calls : s'.calls = s.calls
  mode : s'.isNtMode = s.isNtMode
  sends : Sends s.isNtMode s.link s'.link

namespace Quiet

theorem refl (s : Lite) : Quiet s s := ⟨fun _ => Same.refl _, rfl, rfl, rfl, rfl, .refl _⟩

theorem trans {s s' s'' : Lite} (h : Quiet s s') (h' : Quiet s' s'') : Quiet s s'' where
  cd := fun i => (h.cd i).trans (h'.cd i)
  active := h'.active.trans h.active
  util := h'.util.trans h.util
  calls := h'.calls.trans h.calls
  mode := h'.mode.trans h.mode
  sends := h.sends.trans (h.mode ▸ h'.sends)

theorem hasCall {s s' : Lite} (h : Quiet s s') (i : Nat) :
    (s'.cd i).hasCall = (s.cd i).hasCall := (h.cd i).hasCall

end Quiet

theorem modify_cd_self (s : Lite) (i : Nat) (f : CallDesc → CallDesc) :
    (s.modify i f).cd i = f (s.cd i) := Function.update_self _ _ _

theorem modify_cd_of_ne (s : Lite) {i j : Nat} (f : CallDesc → CallDesc) (h : j ≠ i) :
    (s.modify i f).cd j = s.cd j := Function.update_of_ne h _ _

theorem modify_quiet (s : Lite) (i : Nat) (f : CallDesc → CallDesc) (h : Same (s.cd i) (f (s.cd i))) :
    Quiet s (s.modify i f) := by
  refine ⟨fun j => ?_, rfl, rfl, rfl, rfl, .refl _⟩
  rcases eq_or_ne j i with rfl | hj
  · rw [modify_cd_self]
    exact h
  · rw [modify_cd_of_ne s f hj]
    exact Same.refl _

theorem getmbuf_quiet (s : Lite) : Quiet s s.getmbuf.2 :=
  ⟨fun _ => Same.refl _, rfl, rfl, rfl, rfl, .refl _⟩

theorem sendMbuf_quiet (s : Lite) (m : Mbuf) (h : Framed m) : Quiet s (s.sendMbuf m).1 :=
  ⟨fun _ => Same.refl _, rfl, rfl, rfl, rfl, .send m h (.refl _)⟩

theorem sendCtrl_quiet (s : Lite) (sapi cntl : Nat) : Quiet s (s.sendCtrl sapi cntl).1 := by
  simp only [Lite.sendCtrl]
  split
  · refine (getmbuf_quiet s).trans (sendMbuf_quiet _ _ ?_)
    rw [Framed]
    simp
  · exact getmbuf_quiet s

theorem encodeMessage_framed (nt : Bool) (cd : CallDesc) (mask : Mask) :
    Framed (encodeMessage nt cd mask) := by
  rw [Framed]
  simp only [encodeMessage, List.length_append, List.length_cons]
  omega

theorem sendMessage_quiet (s : Lite) (i msgType : Nat) (mask : Mask) :
    Quiet s (s.sendMessage i msgType mask).1 := by
  have hm : Quiet s (s.modify i fun cd => { cd with messageType := msgType }) :=
    modify_quiet s i _ ⟨rfl, rfl, rfl, rfl, fun _ => rfl⟩
  simp only [Lite.sendMessage]
  split
  · exact (hm.trans (getmbuf_quiet _)).trans (sendMbuf_quiet _ _ (encodeMessage_framed _ _ _))
  · exact hm.trans (getmbuf_quiet _)

theorem sendStatus_quiet (s : Lite) (i cause : Nat) : Quiet s (s.sendStatus i cause).1 := by
  have hcause : ∀ s : Lite, ∀ c, Quiet s (s.modify i fun cd => { cd with causeOut := c }) :=
    fun s _ => modify_quiet s i _ ⟨rfl, rfl, rfl, rfl, fun _ => rfl⟩
  exact ((hcause s cause).trans (sendMessage_quiet _ i _ _)).trans (hcause _ 0)

/-! ## What a message says about its call

A message may name a channel, a protocol and a number.  Nothing of that is the channel that the call has.
-/

theorem decodeChannelId_same (nt : Bool) (m : Mbuf) (offset : Nat) (cd : CallDesc) :
    Same cd (decodeChannelId nt m offset cd) := by
  rw [decodeChannelId]
  rcases Bool.eq_false_or_eq_true cd.channelAllocated with ha | ha
  · rw [if_pos ha]
    exact Same.refl cd
  · have hid : ∀ id : Int, Same cd { cd with channelId := id } := fun id =>
      ⟨rfl, rfl, rfl, rfl, fun h => by rw [ha] at h; exact absurd h Bool.false_ne_true⟩
    rw [if_neg (by rw [ha]; exact Bool.false_ne_true)]
    dsimp only
    repeat' split
    all_goals first
      | exact Same.refl cd
      | exact hid _

theorem decodeBearerCap_same (m : Mbuf) (offset : Nat) (cd : CallDesc) :
    Same cd (decodeBearerCap m offset cd) := by
  rw [decodeBearerCap]
  split
  · exact Same.refl cd
  · exact ⟨rfl, rfl, rfl, rfl, fun _ => rfl⟩

theorem Same.ite {p : Prop} [Decidable p] {c c' c'' : CallDesc} (h' : Same c c')
    (h'' : Same c c'') : Same c (if p then c' else c'') := by
  split
  · exact h'
  · exact h''

theorem pickup_same (nt : Bool) (m : Mbuf) (cd : CallDesc) : Same cd (pickup nt m cd) := by
  have hsame : ∀ c : CallDesc, Same c { c with sendingComplete := true } := fun _ =>
    ⟨rfl, rfl, rfl, rfl, fun _ => rfl⟩
  have htelno : ∀ (c : CallDesc) (t : List UInt8), Same c { c with telno := t } := fun _ _ =>
    ⟨rfl, rfl, rfl, rfl, fun _ => rfl⟩
  exact (((Same.ite (hsame cd) (Same.refl cd)).trans
    (Same.ite (decodeChannelId_same _ _ _ _) (Same.refl _))).trans
    (Same.ite (decodeBearerCap_same _ _ _) (Same.refl _))).trans
    (Same.ite (htelno _ _) (htelno _ _))

/-! ## The invariant

`Inv` is about the two descriptors, the active call and the channels together, since each of them is found
by another one: the active call by its number, the channel by the descriptor, and the descriptor by being
the first.
-/

/-- The states a call can be in: from `DL_ST_OUT_U2` on the one side, from `DL_ST_IN_U0` on the
other. -/
def Valid (state : Nat) : Prop := 2 ≤ state ∧ state < outMax ∨ inU0 ≤ state ∧ state < inMax

/-- A descriptor with a call has a state of the tables, which is supervised; one without has neither
a channel nor a timeout. -/
structure CallDesc.Fits (cd : CallDesc) : Prop where
  valid : cd.hasCall = true → Valid cd.stateIndex
  pstate : cd.hasCall = true → cd.pstate = some (stateEntry cd.stateIndex)
  timeout : cd.hasCall = true → cd.timeoutActive = true
  dead : cd.hasCall = false → cd.channelAllocated = false ∧ cd.timeoutActive = false
  channel : cd.channelAllocated = true → cd.channelId < dlNchan

theorem Same.fits {c c' : CallDesc} (h : Same c c') (hf : c.Fits) : c'.Fits where
  valid := fun hc => h.stateIndex ▸ hf.valid (h.hasCall ▸ hc)
  pstate := fun hc => by rw [h.pstate, h.stateIndex, hf.pstate (h.hasCall ▸ hc)]
  timeout := fun hc => h.timeoutActive.trans (hf.timeout (h.hasCall ▸ hc))
  dead := fun hc => by
    rw [h.allocated, h.timeoutActive]
    exact hf.dead (h.hasCall ▸ hc)
  channel := fun ha => by
    rw [h.channel (h.allocated.symm.trans ha)]
    exact hf.channel (h.allocated.symm.trans ha)

/-- The invariant of the calls. -/
structure Inv (s : Lite) : Prop where
  only : ∀ i, (s.cd i).hasCall = true → i = 0 ∧ s.active = some 0
  active : ∀ i, s.active = some i → (s.cd i).hasCall = true
  fits : ∀ i, (s.cd i).Fits
  util : ∀ b : Nat, s.channelUtil b = true ↔
    (s.cd 0).channelAllocated = true ∧ (s.cd 0).channelId = b

/-- No call of the second state turned around or went back: while no new one came, it is one of the
first state, in the same direction and not in an earlier phase. -/
def Follows (s s' : Lite) : Prop :=
  s.calls ≤ s'.calls ∧
    (s'.calls = s.calls → ∀ i, (s'.cd i).hasCall = true →
      (s.cd i).hasCall = true ∧ (s'.cd i).isIncoming = (s.cd i).isIncoming ∧
        (s.cd i).getState ≤ (s'.cd i).getState)

theorem Follows.refl (s : Lite) : Follows s s := ⟨le_rfl, fun _ _ h => ⟨h, rfl, le_rfl⟩⟩

theorem Follows.trans {s s' s'' : Lite} (h : Follows s s') (h' : Follows s' s'') :
    Follows s s'' := by
  refine ⟨h.1.trans h'.1, fun hc i hi => ?_⟩
  have hcalls : s'.calls = s.calls := le_antisymm (hc ▸ h'.1) h.1
  obtain ⟨hlive', hdir', hphase'⟩ := h'.2 (hc.trans hcalls.symm) i hi
  obtain ⟨hlive, hdir, hphase⟩ := h.2 hcalls i hlive'
  exact ⟨hlive, hdir'.trans hdir, hphase.trans hphase'⟩

/-- What every step does to the calls. -/
structure Moves (s s' : Lite) : Prop where
  inv : Inv s → Inv s'
  follows : Inv s → Follows s s'

theorem Moves.refl (s : Lite) : Moves s s := ⟨id, fun _ => Follows.refl s⟩

theorem Moves.trans {s s' s'' : Lite} (h : Moves s s') (h' : Moves s' s'') : Moves s s'' where
  inv := fun hi => h'.inv (h.inv hi)
  follows := fun hi => (h.follows hi).trans (h'.follows (h.inv hi))

/-- What every operation of layer 3 does: to the link, it only sends. -/
structure Goes (s s' : Lite) : Prop extends Moves s s' where
  sends : Inv s → Sends s.isNtMode s.link s'.link
  mode : Inv s → s'.isNtMode = s.isNtMode

namespace Goes

theorem refl (s : Lite) : Goes s s := ⟨.refl s, fun _ => .refl _, fun _ => rfl⟩

theorem trans {s s' s'' : Lite} (h : Goes s s') (h' : Goes s' s'') : Goes s s'' where
  toMoves := h.toMoves.trans h'.toMoves
  sends := fun hi => (h.sends hi).trans (h.mode hi ▸ h'.sends (h.inv hi))
  mode := fun hi => (h'.mode (h.inv hi)).trans (h.mode hi)

end Goes

theorem Quiet.inv {s s' : Lite} (h : Quiet s s') (hi : Inv s) : Inv s' where
  only := fun i hc => h.active ▸ hi.only i (h.hasCall i ▸ hc)
  active := fun i ha => (h.hasCall i).trans (hi.active i (h.active ▸ ha))
  fits := fun i => (h.cd i).fits (hi.fits i)
  util := fun b => by
    rw [h.util, hi.util b, (h.cd 0).allocated]
    constructor
    · rintro ⟨ha, hid⟩
      exact ⟨ha, ((h.cd 0).channel ha).trans hid⟩
    · rintro ⟨ha, hid⟩
      exact ⟨ha, ((h.cd 0).channel ha).symm.trans hid⟩

theorem Quiet.goes {s s' : Lite} (h : Quiet s s') : Goes s s' where
  sends := fun _ => h.sends
  mode := fun _ => h.mode
  inv := h.inv
  follows := fun _ => ⟨h.calls.ge, fun _ i hi =>
    ⟨h.hasCall i ▸ hi, (h.cd i).isIncoming, (h.cd i).getState.ge⟩⟩

/-! ## A call changes its state

The new state has to be one of the direction of the call, and not behind the state it is in; then its
entry of the table is copied with the timeout.
-/

theorem enter_quiet (s : Lite) (i state : Nat) :
    Quiet (s.modify i fun cd => cd.entered s.ticks s.hz state) (s.enter i state) := by
  simp only [Lite.enter]
  split
  · exact sendMessage_quiet _ i _ _
  · exact Quiet.refl _

theorem timeout_of_valid {state : Nat} (h : Valid state) : (stateEntry state).timeout ≠ 0 := by
  have hout : ∀ n < outMax, 2 ≤ n → (stateEntry n).timeout ≠ 0 := by decide
  have hin : ∀ n < inMax, inU0 ≤ n → (stateEntry n).timeout ≠ 0 := by decide
  rcases h with ⟨h, h'⟩ | ⟨h, h'⟩
  · exact hout state h' h
  · exact hin state h' h

theorem entered_fits (cd : CallDesc) (ticks hz : Int) {state : Nat} (h : Valid state)
    (hc : cd.channelAllocated = true → cd.channelId < dlNchan) : (cd.entered ticks hz state).Fits where
  channel := hc
  valid := fun _ => h
  pstate := fun _ => rfl
  timeout := fun _ => decide_eq_true (timeout_of_valid h)
  dead := fun hd => absurd hd (by simp [CallDesc.entered, CallDesc.hasCall])

/-- A live call takes a state of its direction that is not behind it. -/
theorem modify_entered_goes (s : Lite) (i state : Nat) (hcall : (s.cd i).hasCall = true)
    (hdir : decide (inU0 ≤ state) = (s.cd i).isIncoming)
    (hphase : (s.cd i).getState ≤ state - state % 2) (hmax : state < outMax ∨ inU0 ≤ state)
    (hmax' : state < inMax) : Goes s (s.modify i fun cd => cd.entered s.ticks s.hz state) := by
  refine ⟨⟨fun hi => ?_, fun _ => ⟨le_rfl, fun _ j hj => ?_⟩⟩, fun _ => .refl _, fun _ => rfl⟩
  · obtain ⟨rfl, hact⟩ := hi.only i hcall
    have hvalid : Valid state := by
      have hv := (hi.fits 0).valid hcall
      rw [CallDesc.isIncoming] at hdir
      rw [CallDesc.getState] at hphase
      rw [decide_eq_decide] at hdir
      rw [Valid] at hv ⊢
      simp only [inU0, inMax, outMax] at *
      omega
    refine ⟨fun j hj => ?_, fun j hj => ?_, fun j => ?_, fun b => ?_⟩
    · rcases eq_or_ne j 0 with rfl | hne
      · exact ⟨rfl, hact⟩
      · rw [modify_cd_of_ne s _ hne] at hj
        exact hi.only j hj
    · have hj' : s.active = some j := hj
      rw [hact] at hj'
      cases hj'
      rw [modify_cd_self]
      rfl
    · rcases eq_or_ne j 0 with rfl | hne
      · rw [modify_cd_self]
        exact entered_fits _ _ _ hvalid (hi.fits 0).channel
      · rw [modify_cd_of_ne s _ hne]
        exact hi.fits j
    · rw [modify_cd_self]
      exact hi.util b
  · rcases eq_or_ne j i with rfl | hne
    · rw [modify_cd_self]
      exact ⟨hcall, hdir, hphase⟩
    · rw [modify_cd_of_ne s _ hne] at hj ⊢
      exact ⟨hj, rfl, le_rfl⟩

/-- **What `dss1_lite_set_state` can do to a call**: nothing, complete it, or move it on. -/
theorem setState_cases (s : Lite) (i state : Nat) (hcall : (s.cd i).hasCall = true) :
    s.setState i state = (s, false) ∨
    state = stFree ∧ s.setState i state = (s.complete i, true) ∨
    state ≠ stFree ∧ s.setState i state = (s.enter i state, true) ∧
      Goes s (s.enter i state) := by
  have hgoes : ∀ (hdir : decide (inU0 ≤ state) = (s.cd i).isIncoming)
      (hphase : ¬ state - state % 2 < (s.cd i).getState) (hmax : state < outMax ∨ inU0 ≤ state)
      (hmax' : state < inMax), Goes s (s.enter i state) := fun hdir hphase hmax hmax' =>
    (modify_entered_goes s i state hcall hdir (not_lt.1 hphase) hmax hmax').trans
      (enter_quiet s i state).goes
  rw [Lite.setState]
  simp only [hcall, true_and]
  split_ifs with hfree hno hin hu0 hback hout hback
  · exact absurd hno (by decide)
  · exact Or.inr (Or.inl ⟨hfree, rfl⟩)
  · exact Or.inl rfl
  · exact Or.inl rfl
  · push Not at hback
    refine Or.inr (Or.inr ⟨hfree, rfl, hgoes ?_ (not_lt.2 hback.2) (Or.inr hu0) (not_le.1 hin)⟩)
    rw [decide_eq_true hu0]
    cases hd : (s.cd i).isIncoming with
    | true => rfl
    | false => exact absurd hback.1 (by rw [hd]; decide)
  · exact Or.inl rfl
  · exact Or.inl rfl
  · push Not at hback
    refine Or.inr (Or.inr ⟨hfree, rfl, hgoes ?_ (not_lt.2 hback.2) (Or.inl (not_le.1 hout))
      (not_le.1 hin)⟩)
    rw [decide_eq_false hu0]
    cases hd : (s.cd i).isIncoming with
    | true => exact absurd hback.1 (by rw [hd]; decide)
    | false => rfl

/-! ## A call is complete

The channel is given back, a RELEASE COMPLETE is sent if the call needs one, and the descriptor is
free.  Only then may another call begin.
-/

theorem setUtil_cd (s : Lite) (id : Nat) (b : Bool) : (s.setUtil id b).cd = s.cd := rfl

/-- `dss1_lite_free_channel` clears the bit of a channel, and nothing else. -/
theorem freeChannel_util (s : Lite) (i b : Nat) :
    (s.freeChannel i).channelUtil b =
      if (s.cd i).channelAllocated = true ∧ (s.cd i).channelId = b ∧ b < dlNchan then false
      else s.channelUtil b := by
  rw [Lite.freeChannel]
  dsimp only
  split_ifs with ha hid hb hb hb
  · rw [Lite.setUtil, Lite.modify]
    dsimp only
    rw [hb.2.1, Int.toNat_natCast, Function.update_self]
  · have hne : b ≠ (s.cd i).channelId.toNat := by
      rintro rfl
      exact hb ⟨ha, (Int.toNat_of_nonneg hid.1).symm, by omega⟩
    rw [Lite.setUtil, Lite.modify]
    dsimp only
    rw [Function.update_of_ne hne]
  · exact absurd ⟨by omega, by omega⟩ hid
  · rfl
  · exact absurd hb.1 ha
  · rfl

theorem freeChannel_cd_self (s : Lite) (i : Nat) :
    (s.freeChannel i).cd i = { s.cd i with channelAllocated := false } := by
  rw [Lite.freeChannel]
  dsimp only
  split_ifs with ha hid
  · rw [setUtil_cd, modify_cd_self]
  · rw [modify_cd_self]
  · rw [Bool.not_eq_true] at ha
    rw [← ha]

theorem freeChannel_cd_of_ne (s : Lite) {i j : Nat} (h : j ≠ i) :
    (s.freeChannel i).cd j = s.cd j := by
  rw [Lite.freeChannel]
  dsimp only
  split_ifs with ha hid
  · rw [setUtil_cd, modify_cd_of_ne s _ h]
  · rw [modify_cd_of_ne s _ h]
  · rfl

theorem freeChannel_rest (s : Lite) (i : Nat) :
    (s.freeChannel i).active = s.active ∧ (s.freeChannel i).link = s.link ∧
      (s.freeChannel i).isNtMode = s.isNtMode ∧ (s.freeChannel i).calls = s.calls := by
  rw [Lite.freeChannel]
  dsimp only
  split_ifs
  · exact ⟨rfl, rfl, rfl, rfl⟩
  · exact ⟨rfl, rfl, rfl, rfl⟩
  · exact ⟨rfl, rfl, rfl, rfl⟩

/-- Before its channel is free, a complete call is over and no longer the active one, and a RELEASE
COMPLETE may have been sent. -/
theorem complete_eq (s : Lite) (i : Nat) :
    ∃ s', Quiet (s.modify i CallDesc.over) s' ∧
      s.complete i =
        { s' with active := if s.active = some i then none else s.active }.freeChannel i := by
  have hq : ∃ s', Quiet (s.modify i CallDesc.over) s' ∧
      s.complete i = (if s'.active = some i then { s' with active := none } else s').freeChannel i := by
    refine ⟨_, ?_, rfl⟩
    split
    · exact sendMessage_quiet _ i _ _
    · exact Quiet.refl _
  obtain ⟨s', hs', heq⟩ := hq
  have ha : s'.active = s.active := hs'.active
  refine ⟨s', hs', ?_⟩
  rw [heq, ← ha]
  split
  · rfl
  · rfl

/-- **A call that is complete leaves nothing behind.** -/
theorem complete_goes (s : Lite) (i : Nat) (hcall : (s.cd i).hasCall = true) :
    Goes s (s.complete i) := by
  obtain ⟨s', hs', heq⟩ := complete_eq s i
  rw [heq]
  generalize hsa : ({ s' with active := if s.active = some i then none else s.active } : Lite) = sa
  have hcd : sa.cd = s'.cd := by rw [← hsa]
  have hutil : sa.channelUtil = s.channelUtil := by rw [← hsa]; exact hs'.util
  obtain ⟨hact, hlink, hmode, hcalls⟩ := freeChannel_rest sa i
  have hother : ∀ j, j ≠ i → Same (s.cd j) ((sa.freeChannel i).cd j) := fun j hj => by
    have h := hs'.cd j
    rw [modify_cd_of_ne s _ hj] at h
    rwa [freeChannel_cd_of_ne sa hj, hcd]
  have hself : Same (s.cd i).over (sa.cd i) := by
    have h := hs'.cd i
    rwa [modify_cd_self, ← hcd] at h
  have hdead : ((sa.freeChannel i).cd i).hasCall = false := by
    rw [freeChannel_cd_self]
    exact hself.hasCall
  refine ⟨⟨fun hi => ?_, fun _ => ⟨?_, fun _ j hj => ?_⟩⟩, fun _ => ?_, fun _ => ?_⟩
  · obtain ⟨rfl, hact0⟩ := hi.only i hcall
    have hnone : (sa.freeChannel 0).active = none := by
      rw [hact, ← hsa]
      exact if_pos hact0
    refine ⟨fun j hj => ?_, fun j hj => ?_, fun j => ?_, fun b => ?_⟩
    · rcases eq_or_ne j 0 with rfl | hne
      · rw [hdead] at hj
        exact absurd hj Bool.false_ne_true
      · exact absurd (hi.only j ((hother j hne).hasCall ▸ hj)).1 hne
    · rw [hnone] at hj
      exact absurd hj (by simp)
    · rcases eq_or_ne j 0 with rfl | hne
      · refine ⟨fun h => ?_, fun h => ?_, fun h => ?_, fun _ => ⟨?_, ?_⟩, fun h => ?_⟩
        · rw [hdead] at h
          exact absurd h Bool.false_ne_true
        · rw [hdead] at h
          exact absurd h Bool.false_ne_true
        · rw [hdead] at h
          exact absurd h Bool.false_ne_true
        · rw [freeChannel_cd_self]
        · rw [freeChannel_cd_self]
          exact hself.timeoutActive
        · rw [freeChannel_cd_self] at h
          exact absurd h Bool.false_ne_true
      · exact (hother j hne).fits (hi.fits j)
    · rw [freeChannel_util, freeChannel_cd_self, hutil]
      constructor
      · intro h
        split_ifs at h with hb
        obtain ⟨ha, hid⟩ := (hi.util b).1 h
        have ha' : (sa.cd 0).channelAllocated = true := hself.allocated.trans ha
        have hid' : (sa.cd 0).channelId = b := (hself.channel ha).trans hid
        refine absurd ⟨ha', hid', ?_⟩ hb
        have := (hi.fits 0).channel ha
        omega
      · rintro ⟨ha, -⟩
        exact absurd ha Bool.false_ne_true
  · rw [hcalls, ← hsa]
    exact hs'.calls.ge
  · rcases eq_or_ne j i with rfl | hne
    · rw [hdead] at hj
      exact absurd hj Bool.false_ne_true
    · have h := hother j hne
      exact ⟨h.hasCall ▸ hj, h.isIncoming, h.getState.ge⟩
  · rw [hlink, ← hsa]
    exact hs'.sends
  · rw [hmode, ← hsa]
    exact hs'.mode

theorem setState_goes (s : Lite) (i state : Nat) (hcall : (s.cd i).hasCall = true) :
    Goes s (s.setState i state).1 := by
  obtain h | ⟨-, h⟩ | ⟨-, h, hgoes⟩ := setState_cases s i state hcall
  · rw [h]
    exact Goes.refl s
  · rw [h]
    exact complete_goes s i hcall
  · rw [h]
    exact hgoes

theorem enter_hasCall (s : Lite) (i state : Nat) : ((s.enter i state).cd i).hasCall = true := by
  rw [(enter_quiet s i state).hasCall i, modify_cd_self]
  rfl

/-- A call that is not freed stays. -/
theorem setState_hasCall (s : Lite) (i state : Nat) (hcall : (s.cd i).hasCall = true)
    (hne : state ≠ stFree) : ((s.setState i state).1.cd i).hasCall = true := by
  obtain h | ⟨hfree, -⟩ | ⟨-, h, -⟩ := setState_cases s i state hcall
  · rw [h]
    exact hcall
  · exact absurd hfree hne
  · rw [h]
    exact enter_hasCall s i state

/-! ## Allocation

A new call takes the first descriptor, which the invariant says is free when there is no active call, and
it gets its channel with SETUP or later.
-/

/-- A live call takes a channel, with its bit in `dl_channel_util` if it has one. -/
theorem channel_goes (s : Lite) (i : Nat) (id : Int) (util : Nat → Bool)
    (hcall : (s.cd i).hasCall = true) (hfree : (s.cd i).channelAllocated = false)
    (hid : id < dlNchan) (hutil : ∀ b : Nat, util b = true ↔ s.channelUtil b = true ∨ id = b) :
    Goes s ({ s with channelUtil := util }.modify i fun cd =>
      { cd with channelAllocated := true, channelId := id }) := by
  generalize hs' : ({ s with channelUtil := util }.modify i fun cd =>
      { cd with channelAllocated := true, channelId := id } : Lite) = s'
  have hself : s'.cd i = { s.cd i with channelAllocated := true, channelId := id } := by
    rw [← hs', modify_cd_self]
  have hother : ∀ j, j ≠ i → s'.cd j = s.cd j := fun j hj => by
    rw [← hs', modify_cd_of_ne _ _ hj]
  have hlive : ∀ j, (s'.cd j).hasCall = (s.cd j).hasCall := fun j => by
    rcases eq_or_ne j i with rfl | hne
    · rw [hself]
      rfl
    · rw [hother j hne]
  refine ⟨⟨fun hi => ?_, fun _ => ⟨?_, fun _ j hj => ⟨hlive j ▸ hj, ?_⟩⟩⟩, fun _ => ?_,
    fun _ => ?_⟩
  · obtain ⟨rfl, hact⟩ := hi.only i hcall
    refine ⟨fun j hj => ?_, fun j hj => ?_, fun j => ?_, fun b => ?_⟩
    · rw [← hs']
      exact hi.only j (hlive j ▸ hj)
    · rw [← hs'] at hj
      rw [hlive]
      exact hi.active j hj
    · rcases eq_or_ne j 0 with rfl | hne
      · rw [hself]
        have h := hi.fits 0
        refine ⟨h.valid, h.pstate, h.timeout, fun hd => ?_, fun _ => hid⟩
        exact absurd (hcall.symm.trans hd) (by decide)
      · rw [hother j hne]
        exact hi.fits j
    · have hempty : s.channelUtil b ≠ true := fun h => by
        rw [((hi.util b).1 h).1] at hfree
        exact absurd hfree (by decide)
      rw [hself, ← hs']
      refine (hutil b).trans ⟨?_, ?_⟩
      · rintro (h | h)
        · exact absurd h hempty
        · exact ⟨rfl, h⟩
      · rintro ⟨-, h⟩
        exact Or.inr h
  · rw [← hs']
    rfl
  · rcases eq_or_ne j i with rfl | hne
    · rw [hself]
      exact ⟨rfl, le_rfl⟩
    · rw [hother j hne]
      exact ⟨rfl, le_rfl⟩
  · rw [← hs']
    exact .refl _
  · rw [← hs']
    rfl

theorem takeChannel_goes (s : Lite) (i id : Nat) (hcall : (s.cd i).hasCall = true)
    (hfree : (s.cd i).channelAllocated = false) (hid : id < dlNchan) :
    Goes s (s.takeChannel i id) := by
  refine channel_goes s i id (Function.update s.channelUtil id true) hcall hfree
    (by exact_mod_cast hid) fun b => ?_
  rcases eq_or_ne b id with rfl | hne
  · rw [Function.update_self]
    simp
  · rw [Function.update_of_ne hne]
    simp [hne.symm]

/-- `dss1_lite_alloc_channel` leaves a free descriptor without a channel, or gives it a free one. -/
theorem allocChannel_goes (s : Lite) (i : Nat) (hcall : (s.cd i).hasCall = true) :
    Goes s (s.allocChannel i) := by
  rw [Lite.allocChannel]
  split_ifs with ha hid hutil hany h1 h2
  · exact Goes.refl s
  all_goals rw [Bool.not_eq_true] at ha
  · exact takeChannel_goes s i _ hcall ha (by omega)
  · exact (modify_quiet s i _ ⟨rfl, rfl, rfl, rfl, fun h => by simp [ha] at h⟩).goes
  · have h := channel_goes s i chanNotAny s.channelUtil hcall ha (by decide) fun b => by
      rw [chanNotAny]
      constructor
      · exact Or.inl
      · rintro (h | h)
        · exact h
        · omega
    rw [← hany] at h
    exact h
  · exact takeChannel_goes s i 1 hcall ha (by decide)
  · exact takeChannel_goes s i 2 hcall ha (by decide)
  · exact (modify_quiet s i _ ⟨rfl, rfl, rfl, rfl, fun h => by simp [ha] at h⟩).goes

theorem allocChannel_hasCall (s : Lite) (i : Nat) :
    ((s.allocChannel i).cd i).hasCall = (s.cd i).hasCall := by
  have hm : ∀ (t : Lite) (f : CallDesc → CallDesc), t.cd = s.cd →
      (∀ c : CallDesc, (f c).hasCall = c.hasCall) →
      ((t.modify i f).cd i).hasCall = (s.cd i).hasCall := fun t f ht hf => by
    rw [modify_cd_self, hf, ht]
  rw [Lite.allocChannel]
  split_ifs
  · rfl
  · exact hm _ _ rfl fun _ => rfl
  · exact hm _ _ rfl fun _ => rfl
  · exact hm _ _ rfl fun _ => rfl
  · exact hm _ _ rfl fun _ => rfl
  · exact hm _ _ rfl fun _ => rfl
  · exact hm _ _ rfl fun _ => rfl

/-- The first state of a call. -/
def firstState (isIncoming : Bool) : Nat := if isIncoming then inU0 else outU2

theorem firstState_valid (isIncoming : Bool) : Valid (firstState isIncoming) := by
  cases isIncoming
  · exact Or.inl (by decide)
  · exact Or.inr (by decide)

/-- A new call takes its first state, which is not one that is checked. -/
theorem setState_fresh (s : Lite) (i : Nat) (isIncoming : Bool) (hdead : (s.cd i).hasCall = false) :
    (s.setState i (firstState isIncoming)).1 =
      s.modify i fun cd => cd.entered s.ticks s.hz (firstState isIncoming) := by
  have hset : s.setState i (firstState isIncoming) = (s.enter i (firstState isIncoming), true) := by
    rw [Lite.setState]
    simp only [hdead, Bool.false_eq_true, false_and, if_false]
    cases isIncoming
    · rfl
    · rfl
  rw [hset]
  refine if_neg ?_
  rw [modify_cd_self]
  cases isIncoming
  · exact Bool.false_ne_true
  · exact Bool.false_ne_true

/-- **What `dss1_lite_alloc_cd` does**: without an active call, the first free descriptor gets one. -/
theorem initCd_eq (s : Lite) (i : Nat) (isIncoming : Bool) (crval : Nat) (hact : s.active = none) :
    ∃ cd n, cd.Fits ∧ cd.hasCall = true ∧ cd.channelAllocated = false ∧
      s.initCd i isIncoming crval = { s with
        cd := Function.update s.cd i cd, active := some i, nextCallref := n
        calls := s.calls + 1 } := by
  set c := if isIncoming then crval else s.nextCallref ||| 1 with hc
  set n := if isIncoming then s.nextCallref else (s.nextCallref + 0x10) % 0x80 with hn
  refine ⟨(Lite.freshCd c).entered s.ticks s.hz (firstState isIncoming), n,
    entered_fits _ _ _ (firstState_valid isIncoming) fun h => absurd h Bool.false_ne_true, rfl, rfl, ?_⟩
  have hset := setState_fresh
    ({ s with nextCallref := n, calls := s.calls + 1 }.modify i fun _ => Lite.freshCd c) i isIncoming
    (by rw [modify_cd_self]; rfl)
  rw [firstState] at hset
  rw [Lite.initCd]
  simp only [← hc, ← hn, hset]
  rw [if_pos (by rw [Lite.modify, Lite.modify]; simp [hact])]
  simp only [Lite.modify, Function.update_self, Function.update_idem]
  rfl

theorem allocCd_eq {s s' : Lite} {isIncoming : Bool} {crval i : Nat}
    (h : s.allocCd isIncoming crval = some (i, s')) :
    s.active = none ∧ (s.cd i).hasCall = false ∧ (∀ j < i, (s.cd j).hasCall = true) ∧
      s' = s.initCd i isIncoming crval := by
  rw [Lite.allocCd] at h
  split at h
  · exact absurd h (by simp)
  · rename_i hact
    rw [Option.not_isSome_iff_eq_none] at hact
    split at h
    · exact absurd h (by simp)
    · rename_i k hk
      rw [List.find?_range_eq_some] at hk
      obtain ⟨hdead, -, hfirst⟩ := hk
      simp only [Bool.not_eq_true', Bool.not_not] at hdead hfirst
      obtain ⟨rfl, rfl⟩ := Prod.mk.inj (Option.some.inj h)
      exact ⟨hact, hdead, hfirst, rfl⟩

theorem allocCd_goes {s s' : Lite} {isIncoming : Bool} {crval i : Nat}
    (h : s.allocCd isIncoming crval = some (i, s')) : Goes s s' ∧ (s'.cd i).hasCall = true := by
  obtain ⟨hact, hdead, hfirst, rfl⟩ := allocCd_eq h
  obtain ⟨cd, n, hfits, hlive, hfree, heq⟩ := initCd_eq s i isIncoming crval hact
  generalize s.initCd i isIncoming crval = s' at heq
  have hself : s'.cd i = cd := by
    rw [heq]
    exact Function.update_self _ _ _
  have hother : ∀ j, j ≠ i → s'.cd j = s.cd j := fun j hj => by
    rw [heq]
    exact Function.update_of_ne hj _ _
  have hact' : s'.active = some i := by rw [heq]
  have hutil : s'.channelUtil = s.channelUtil := by rw [heq]
  have hcalls : s'.calls = s.calls + 1 := by rw [heq]
  refine ⟨⟨⟨fun hi => ?_, fun _ => ⟨?_, fun hc => ?_⟩⟩, fun _ => ?_, fun _ => ?_⟩, ?_⟩
  · have hnone : ∀ j, (s.cd j).hasCall = false := fun j => by
      rw [← Bool.not_eq_true]
      intro hj
      rw [(hi.only j hj).2] at hact
      exact absurd hact (by simp)
    have hi0 : i = 0 := by
      rcases Nat.eq_zero_or_pos i with h0 | h0
      · exact h0
      · exact absurd (hfirst 0 h0) (by rw [hnone 0]; exact Bool.false_ne_true)
    subst hi0
    refine ⟨fun j hj => ?_, fun j hj => ?_, fun j => ?_, fun b => ?_⟩
    · rcases eq_or_ne j 0 with rfl | hne
      · exact ⟨rfl, hact'⟩
      · rw [hother j hne, hnone j] at hj
        exact absurd hj Bool.false_ne_true
    · obtain rfl : 0 = j := Option.some.inj (hact'.symm.trans hj)
      rw [hself]
      exact hlive
    · rcases eq_or_ne j 0 with rfl | hne
      · rw [hself]
        exact hfits
      · rw [hother j hne]
        exact hi.fits j
    · have hempty : s.channelUtil b ≠ true := fun hb => by
        have ha := ((hi.util b).1 hb).1
        rw [((hi.fits 0).dead (hnone 0)).1] at ha
        exact absurd ha Bool.false_ne_true
      rw [hself, hfree, hutil]
      exact ⟨fun hb => absurd hb hempty, fun hb => absurd hb.1 Bool.false_ne_true⟩
  · rw [hcalls]
    exact Nat.le_succ _
  · rw [hcalls] at hc
    exact absurd hc (Nat.succ_ne_self _)
  · rw [heq]
    exact .refl _
  · rw [heq]
  · rw [hself]
    exact hlive

/-! ## Requests of the telephone

They are for the active call, and do nothing if there is none.
-/

/-- A change of state that is followed by a message if it was valid. -/
theorem setState_send_goes (s : Lite) (i state msgType : Nat) (mask : Mask)
    (hcall : (s.cd i).hasCall = true) :
    Goes s (if (s.setState i state).2 then ((s.setState i state).1.sendMessage i msgType mask).1
      else (s.setState i state).1) := by
  split
  · exact (setState_goes s i state hcall).trans (sendMessage_quiet _ i _ _).goes
  · exact setState_goes s i state hcall

theorem setState_send_hasCall (s : Lite) (i state msgType : Nat) (mask : Mask)
    (hcall : (s.cd i).hasCall = true) (hne : state ≠ stFree) :
    ((if (s.setState i state).2 then ((s.setState i state).1.sendMessage i msgType mask).1
      else (s.setState i state).1).cd i).hasCall = true := by
  split
  · rw [(sendMessage_quiet _ i _ _).hasCall]
    exact setState_hasCall s i state hcall hne
  · exact setState_hasCall s i state hcall hne

/-- A call is completed, after its cause or something else is noted. -/
theorem free_goes (s : Lite) (i : Nat) (f : CallDesc → CallDesc) (hf : ∀ c, Same c (f c))
    (hcall : (s.cd i).hasCall = true) : Goes s ((s.modify i f).setState i stFree).1 := by
  have hq := modify_quiet s i f (hf _)
  exact hq.goes.trans (setState_goes _ i stFree ((hq.hasCall i).trans hcall))

theorem same_causeOut (cause : Nat) (c : CallDesc) : Same c { c with causeOut := cause } :=
  ⟨rfl, rfl, rfl, rfl, fun _ => rfl⟩

theorem proceedRequest_goes (s : Lite) (i : Nat) (hcall : (s.cd i).hasCall = true) :
    Goes s (s.proceedRequest i) ∧ ((s.proceedRequest i).cd i).hasCall = true := by
  rw [Lite.proceedRequest]
  split
  · exact ⟨setState_send_goes s i inU6 _ _ hcall,
      setState_send_hasCall s i inU6 _ _ hcall (by decide)⟩
  · exact ⟨Goes.refl s, hcall⟩

theorem alertRequest_goes (s : Lite) (i : Nat) (hcall : (s.cd i).hasCall = true) :
    Goes s (s.alertRequest i) := by
  obtain ⟨hgoes, hcall'⟩ := proceedRequest_goes s i hcall
  rw [Lite.alertRequest]
  dsimp only
  split
  · exact hgoes.trans (setState_send_goes _ i inU7 _ _ hcall')
  · exact hgoes

theorem setupAcceptResp_goes (s : Lite) (i : Nat) (hcall : (s.cd i).hasCall = true) :
    Goes s (s.setupAcceptResp i) := by
  obtain ⟨hgoes, hcall'⟩ := proceedRequest_goes s i hcall
  rw [Lite.setupAcceptResp]
  dsimp only
  generalize s.proceedRequest i = t at hgoes hcall'
  have hset := setState_goes t i inU8 hcall'
  have hlive := setState_hasCall t i inU8 hcall' (by decide)
  have hq : Quiet (t.setState i inU8).1 (((t.setState i inU8).1.sendConnect i).1.modify i fun cd =>
      { cd with causeOut := 0, needRelease := true }) :=
    (sendMessage_quiet _ i _ _).trans (modify_quiet _ i _ ⟨rfl, rfl, rfl, rfl, fun _ => rfl⟩)
  split_ifs
  · exact (hgoes.trans (hset.trans hq.goes)).trans
      (setState_goes _ i inUA ((hq.hasCall i).trans hlive))
  · exact hgoes.trans (hset.trans hq.goes)
  · exact hgoes.trans hset
  · exact hgoes

theorem deflectRequest_goes (s : Lite) : Goes s s.deflectRequest := by
  rw [Lite.deflectRequest]
  split
  · exact Goes.refl s
  · split
    · exact Goes.refl s
    · exact (sendMessage_quiet s _ _ _).goes

theorem mcidRequest_goes (s : Lite) : Goes s s.mcidRequest := by
  rw [Lite.mcidRequest]
  split
  · exact Goes.refl s
  · split
    · exact Goes.refl s
    · exact (sendMessage_quiet s _ _ _).goes

/-- For what is done to the active call, there is a call. -/
theorem goes_of_active {s s' : Lite} {i : Nat} (ha : s.active = some i)
    (h : (s.cd i).hasCall = true → Goes s s') : Goes s s' where
  inv := fun hi => (h (hi.active i ha)).inv hi
  follows := fun hi => (h (hi.active i ha)).follows hi
  sends := fun hi => (h (hi.active i ha)).sends hi
  mode := fun hi => (h (hi.active i ha)).mode hi

theorem disconnectRequest_goes (s : Lite) : Goes s s.disconnectRequest := by
  rw [Lite.disconnectRequest]
  split
  · exact Goes.refl s
  · split
    · exact Goes.refl s
    · rename_i i ha
      refine goes_of_active ha fun hcall => ?_
      obtain ⟨hgoes, hcall'⟩ := proceedRequest_goes s i hcall
      dsimp only
      generalize s.proceedRequest i = t at hgoes hcall' ⊢
      generalize (if (t.cd i).isIncoming = true then inUC else outUC) = state
      split
      · exact hgoes.trans (setState_send_goes t i state _ _ hcall')
      · exact hgoes

theorem ringEvent_goes (s : Lite) (ison : Bool) : Goes s (s.ringEvent ison) := by
  rw [Lite.ringEvent]
  split
  · exact Goes.refl s
  · split
    · split
      · exact Goes.refl s
      · split
        · exact Goes.refl s
        · rename_i i t halloc
          obtain ⟨hgoes, hcall⟩ := allocCd_goes halloc
          have hchan := allocChannel_goes t i hcall
          have hcall' := (allocChannel_hasCall t i).trans hcall
          dsimp only
          split
          · exact (hgoes.trans hchan).trans (setState_goes _ i stFree hcall')
          · refine (hgoes.trans hchan).trans (Quiet.goes ?_)
            exact (sendMessage_quiet _ i _ _).trans
              (modify_quiet _ i _ ⟨rfl, rfl, rfl, rfl, fun _ => rfl⟩)
    · rename_i i ha
      split
      · exact Goes.refl s
      · exact goes_of_active ha fun hcall => free_goes s i _ (same_causeOut 0x1f) hcall

/-- The hook is remembered. -/
theorem isHookOff_quiet (s : Lite) (b : Bool) : Quiet s { s with isHookOff := b } :=
  ⟨fun _ => Same.refl _, rfl, rfl, rfl, rfl, .refl _⟩

theorem hookOff_goes (s : Lite) : Goes s s.hookOff := by
  rw [Lite.hookOff]
  split
  · exact Goes.refl s
  · refine (isHookOff_quiet s true).goes.trans ?_
    dsimp only
    split
    · split
      · exact Goes.refl _
      · rename_i i t halloc
        refine (allocCd_goes halloc).1.trans (Quiet.goes ?_)
        exact (sendMessage_quiet _ i _ _).trans
          (modify_quiet _ i _ ⟨rfl, rfl, rfl, rfl, fun _ => rfl⟩)
    · rename_i i ha
      exact goes_of_active ha fun hcall => setupAcceptResp_goes _ i hcall

theorem hookOn_goes (s : Lite) : Goes s s.hookOn := by
  rw [Lite.hookOn]
  split
  · exact Goes.refl s
  · refine (isHookOff_quiet s false).goes.trans ?_
    dsimp only
    split
    · exact Goes.refl _
    · rename_i i ha
      exact goes_of_active ha fun hcall => free_goes _ i _ (same_causeOut 0x1f) hcall

theorem dtmfEvent_goes (s : Lite) (pdtmf : List UInt8) : Goes s (s.dtmfEvent pdtmf) := by
  rw [Lite.dtmfEvent]
  split
  · exact Goes.refl s
  · split
    · exact Goes.refl s
    · rename_i i ha
      split
      · exact ((modify_quiet s i _ ⟨rfl, rfl, rfl, rfl, fun _ => rfl⟩).trans
          (sendMessage_quiet _ i _ _)).goes
      · exact Goes.refl s

/-! ## Messages of the exchange

One lemma for each message, in the order of the source.  Most of them set a state, and do more if that was
possible.
-/

theorem tryChannel_goes (s : Lite) (i : Nat) (hcall : (s.cd i).hasCall = true) :
    Goes s (s.tryChannel i) := by
  rw [Lite.tryChannel]
  split
  · exact allocChannel_goes s i hcall
  · exact Goes.refl s

/-- A change of state, and after it maybe a channel. -/
theorem setState_tryChannel_goes (s : Lite) (i state : Nat) (b : Bool)
    (hcall : (s.cd i).hasCall = true) (hne : state ≠ stFree) :
    Goes s (if b then (s.setState i state).1.tryChannel i else (s.setState i state).1) := by
  have hset := setState_goes s i state hcall
  split
  · exact hset.trans (tryChannel_goes _ i (setState_hasCall s i state hcall hne))
  · exact hset

theorem receiveSetupAcknowledge_goes (s : Lite) (i : Nat) (hcall : (s.cd i).hasCall = true) :
    Goes s (s.receiveSetupAcknowledge i) := by
  rw [Lite.receiveSetupAcknowledge]
  split
  · split
    · exact setState_tryChannel_goes s i outU2Ack _ hcall (by decide)
    · exact Goes.refl s
  · exact setState_tryChannel_goes s i outU3 _ hcall (by decide)

theorem receiveSetup_goes (s : Lite) (i : Nat) (hcall : (s.cd i).hasCall = true) :
    Goes s (s.receiveSetup i) := by
  have hq := modify_quiet s i (fun cd => { cd with needRelease := true })
    ⟨rfl, rfl, rfl, rfl, fun _ => rfl⟩
  have hcall' := (hq.hasCall i).trans hcall
  have hchan := hq.goes.trans (allocChannel_goes _ i hcall')
  have hcall'' := (allocChannel_hasCall _ i).trans hcall'
  rw [Lite.receiveSetup]
  split_ifs
  · exact hchan.trans (free_goes _ i _ (same_causeOut 0x22) hcall'')
  · exact hchan.trans (alertRequest_goes _ i hcall'')
  · exact hchan.trans (setupAcceptResp_goes _ i hcall'')
  · exact hchan.trans (free_goes _ i _ (same_causeOut 0x1f) hcall'')

theorem receiveConnect_goes (s : Lite) (i : Nat) (hcall : (s.cd i).hasCall = true) :
    Goes s (s.receiveConnect i) := by
  have hset := setState_goes s i outUA hcall
  have hcall' := setState_hasCall s i outUA hcall (by decide)
  rw [Lite.receiveConnect]
  dsimp only
  split_ifs
  · have hcall'' := (allocChannel_hasCall _ i).trans hcall'
    exact (hset.trans (allocChannel_goes _ i hcall')).trans (sendMessage_quiet _ i _ _).goes
  · have hcall'' := (allocChannel_hasCall _ i).trans hcall'
    exact (hset.trans (allocChannel_goes _ i hcall')).trans
      (free_goes _ i _ (same_causeOut 0x22) hcall'')
  · exact hset.trans (free_goes _ i _ (same_causeOut 0x22) hcall')
  · exact hset
  · exact Goes.refl s

theorem receiveStatus_goes (s : Lite) (i state : Nat) (hcall : (s.cd i).hasCall = true) :
    Goes s (s.receiveStatus i state) := by
  have hq := modify_quiet s i (fun cd => { cd with statusCount := (s.cd i).statusCount + 1 })
    ⟨rfl, rfl, rfl, rfl, fun _ => rfl⟩
  rw [Lite.receiveStatus]
  split_ifs
  · exact Goes.refl s
  · exact setState_goes s i _ hcall
  · exact Goes.refl s
  · exact setState_goes s i _ hcall
  · exact Goes.refl s
  · exact hq.goes.trans (setState_goes _ i _ ((hq.hasCall i).trans hcall))
  · exact Goes.refl s

/-- A change of state in one state of the call only. -/
theorem setState_if_goes (s : Lite) (i state : Nat) (p : Prop) [Decidable p]
    (hcall : (s.cd i).hasCall = true) : Goes s (if p then (s.setState i state).1 else s) := by
  split
  · exact setState_goes s i state hcall
  · exact Goes.refl s

/-- **A message to a live call.** -/
theorem receiveEvent_goes (s : Lite) (i : Nat) (m : Mbuf) (event : Nat)
    (hcall : (s.cd i).hasCall = true) : Goes s (s.receiveEvent i m event) := by
  rw [Lite.receiveEvent.eq_def]
  split
  · exact setState_tryChannel_goes s i outU4 _ hcall (by decide)
  · exact setState_tryChannel_goes s i outU3 _ hcall (by decide)
  · exact receiveSetup_goes s i hcall
  · exact receiveConnect_goes s i hcall
  · exact receiveSetupAcknowledge_goes s i hcall
  · exact setState_if_goes s i inUA _ hcall
  · exact setState_if_goes s i _ _ hcall
  · exact free_goes s i _ (same_causeOut 0x1f) hcall
  · exact free_goes s i _ (fun c => ⟨rfl, rfl, rfl, rfl, fun _ => rfl⟩) hcall
  · exact (sendStatus_quiet s i 0x1e).goes
  · exact setState_if_goes s i inU0Ack _ hcall
  · dsimp only
    split
    · exact receiveStatus_goes s i _ hcall
    · exact Goes.refl s
  · exact Goes.refl s

theorem callOf_goes {s s' : Lite} {callref event i : Nat} (h : s.callOf callref event = some (i, s')) :
    Goes s s' ∧ (s'.cd i).hasCall = true := by
  rw [Lite.callOf] at h
  split_ifs at h
  · exact allocCd_goes h
  · obtain ⟨j, hj, hjs⟩ := Option.map_eq_some_iff.1 h
    obtain ⟨rfl, rfl⟩ := Prod.mk.inj hjs
    rw [Lite.findCd, List.find?_range_eq_some] at hj
    exact ⟨Goes.refl s, (Bool.and_eq_true _ _ ▸ hj.1).1⟩

theorem iFrame_goes (s : Lite) (m : Mbuf) : Goes s (s.iFrame m) := by
  rw [Lite.iFrame]
  split
  · exact Goes.refl s
  · rename_i i t hcallOf
    obtain ⟨hgoes, hcall⟩ := callOf_goes hcallOf
    have hq := modify_quiet t i (pickup t.isNtMode m) (pickup_same _ _ _)
    exact (hgoes.trans hq.goes).trans (receiveEvent_goes _ i m _ ((hq.hasCall i).trans hcall))

end Dss1Lite
end Isdn4bsd
