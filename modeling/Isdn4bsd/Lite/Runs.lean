import Mathlib.Logic.Relation
import Isdn4bsd.Lite.Calls

/-!
# Runs of the small DSS1 stack

* `Step` : a frame is received, the telephone requests something, time passes.
* `checkTimeout_of_expired` : the supervision of the first descriptor moves a call on.
* `calls_of_run` : **the only live call is the first descriptor, over every run**.

## A step

`Lite.Calls` says what each operation does to the calls.  What is left are the functions that put operations
together: `decodeMbuf`, for one frame, and `process`, for all that were received, with the supervision
and the transmission behind them.  In these the link changes as well, by sequence numbers and windows, so
that they are not `Goes`; `Moves` is the part that is about calls.

A received frame has one of two effects (`decodeMbuf_cases`).  Either nothing happened that is of interest
here, or it is an S- or I-frame, and the last thing that was done is to look at its `N(R)`; what came before
is a message to layer 3, or nothing.

## Supervision

A call whose time has run out is either moved on to another state or complete.  A state has its second half as
the next one, or the end of the call, so a call that nobody does anything for goes through two timeouts and is
gone. `checkTimeout_of_expired` says that it is not left where it is.

## What a run is

Between two calls of the poll function, time passes, memory comes and goes, and the telephone may ask for
something.  The D channel may be set up again, which empties the queues and leaves the calls alone.  All of this
may happen in any order, from the state after `dss1_lite_attach` on.
-/

set_option autoImplicit false

namespace Isdn4bsd
namespace Dss1Lite

open Relation

/-! ## Received frames and the poll function -/

/-- Calls do not see what happens to the link and to the surroundings. -/
theorem moves_of_calls {s s' : Lite} (hcd : s'.cd = s.cd) (hact : s'.active = s.active)
    (hutil : s'.channelUtil = s.channelUtil) (hcalls : s'.calls = s.calls) : Moves s s' where
  inv := fun hi => ⟨fun i h => hact ▸ hi.only i (hcd ▸ h), fun i h => hcd ▸ hi.active i (hact ▸ h),
    fun i => hcd ▸ hi.fits i, fun b => hcd ▸ hutil ▸ hi.util b⟩
  follows := fun _ => ⟨hcalls.ge, fun _ i h => by
    rw [hcd] at h ⊢
    exact ⟨h, rfl, le_rfl⟩⟩

theorem setLink_moves (s : Lite) (l : Link) : Moves s (s.setLink l) := moves_of_calls rfl rfl rfl rfl

theorem sendCtrl_if_quiet (s : Lite) (sapi cntl : Nat) (p : Prop) [Decidable p] :
    Quiet s (if p then (s.sendCtrl sapi cntl).1 else s) := by
  split
  · exact sendCtrl_quiet s sapi cntl
  · exact Quiet.refl s

theorem checkNr_moves (s : Lite) (sapi cntl txNr : Nat) : Moves s (s.checkNr sapi cntl txNr) := by
  exact (setLink_moves s _).trans (sendCtrl_if_quiet _ _ _ _).goes.toMoves

theorem sequence_moves (s : Lite) (txNr : Nat) : Moves s (s.sequence txNr) := by
  have hnum := setLink_moves s s.link.advance
  rw [Lite.sequence]
  split_ifs
  · exact hnum.trans (sendCtrl_quiet _ _ _).goes.toMoves
  · exact hnum.trans (sendCtrl_quiet _ _ _).goes.toMoves
  · exact hnum

/-- **What a received frame does**: nothing, or it is an S- or I-frame whose `N(R)` is looked at last. -/
theorem decodeMbuf_cases (s : Lite) (m : Mbuf) :
    s.decodeMbuf m = s ∨ peekMbuf m 2 % 4 ≠ 3 ∧ ∃ sapi t,
      s.decodeMbuf m = Lite.checkNr t sapi (peekMbuf m 2) (peekMbuf m 3) ∧
        (t = s ∨ t = (s.sequence (peekMbuf m 3)).iFrame m ∨ t = (s.sendCtrl 0 0x09).1) := by
  rw [Lite.decodeMbuf]
  dsimp only
  generalize (if s.isNtMode = true then peekMbuf m 0 else peekMbuf m 0 ^^^ 2) = sapi
  split_ifs with h1 h2 h3 h4 h5 h6 h7
  · exact Or.inl rfl
  · exact Or.inl rfl
  · exact Or.inr ⟨by omega, sapi, s, rfl, Or.inl rfl⟩
  · exact Or.inl rfl
  · exact Or.inl rfl
  · exact Or.inl rfl
  · exact Or.inr ⟨by omega, sapi, _, rfl, Or.inr (Or.inl rfl)⟩
  · exact Or.inr ⟨by omega, sapi, _, rfl, Or.inr (Or.inr rfl)⟩

theorem decodeMbuf_moves (s : Lite) (m : Mbuf) : Moves s (s.decodeMbuf m) := by
  obtain h | ⟨-, sapi, t, h, ht⟩ := decodeMbuf_cases s m
  · rw [h]
    exact Moves.refl s
  · rw [h]
    refine Moves.trans ?_ (checkNr_moves t _ _ _)
    obtain rfl | rfl | rfl := ht
    · exact Moves.refl t
    · exact (sequence_moves s _).trans (iFrame_goes _ m).toMoves
    · exact (sendCtrl_quiet s _ _).goes.toMoves

theorem foldl_decodeMbuf_moves (rx : List Mbuf) (s : Lite) : Moves s (rx.foldl Lite.decodeMbuf s) := by
  induction rx generalizing s with
  | nil => exact Moves.refl s
  | cons m rx ih => exact (decodeMbuf_moves s m).trans (ih _)

theorem checkTimeout_goes (s : Lite) (i : Nat) : Goes s (s.checkTimeout i) := by
  rw [Lite.checkTimeout]
  split
  · rename_i e _ he
    split
    · exact setState_goes s i _ (by rw [CallDesc.hasCall, he]; rfl)
    · exact Goes.refl s
  · exact Goes.refl s

theorem transmit_moves (s : Lite) (delta rest n : Nat) : Moves s (s.transmit delta rest n) := by
  induction rest generalizing s n with
  | zero => exact Moves.refl s
  | succ rest ih =>
    rw [Lite.transmit]
    split
    · exact ih s (n + 1)
    · dsimp only
      generalize s.getmbuf.2.link.queueMbuf s.isNtMode _ = q
      have hlink := (getmbuf_quiet s).goes.toMoves.trans (setLink_moves s.getmbuf.2 q.1)
      split_ifs
      · exact hlink.trans (ih _ (n + 1))
      · exact hlink
      · exact (getmbuf_quiet s).goes.toMoves.trans (ih _ (n + 1))

theorem process_moves (s : Lite) (rx : List Mbuf) : Moves s (s.process rx).1 := by
  have hhook : Moves s (if s.active.isNone ∧ s.isHookOff then s.hookOff else s) := by
    split
    · exact (hookOff_goes s).toMoves
    · exact Moves.refl s
  rw [Lite.process]
  dsimp only
  generalize (if s.active.isNone ∧ s.isHookOff then s.hookOff else s) = t at hhook ⊢
  have hrest := hhook.trans ((foldl_decodeMbuf_moves rx t).trans (checkTimeout_goes _ 0).toMoves)
  generalize (rx.foldl Lite.decodeMbuf t).checkTimeout 0 = u at hrest ⊢
  split_ifs
  · exact Moves.refl s
  · exact hrest
  · exact (hrest.trans (setLink_moves u _)).trans
      ((transmit_moves _ _ _ _).trans (setLink_moves _ _))

/-! ## Supervision -/

/-- The time of a call has run out, as `dss1_lite_check_timeout` sees it. -/
def Lite.Expired (s : Lite) (i : Nat) : Prop :=
  (s.cd i).timeoutTick - s.ticks < 0 ∨ 128 * s.hz < (s.cd i).timeoutTick - s.ticks

instance : DecidablePred Valid := fun _ => inferInstanceAs (Decidable (_ ∨ _))

/-- The next state in the tables is the end of the call, or the second half of the same state. -/
theorem nextState_of_valid {state : Nat} (h : Valid state) :
    (stateEntry state).nextState = stFree ∨
      (stateEntry state).nextState = state + 1 ∧ state % 2 = 0 ∧ Valid (state + 1) := by
  have hall : ∀ n < inMax, Valid n → (stateEntry n).nextState = stFree ∨
      (stateEntry n).nextState = n + 1 ∧ n % 2 = 0 ∧ Valid (n + 1) := by decide
  refine hall state ?_ h
  rw [Valid] at h
  simp only [outMax, inMax, inU0] at *
  omega

theorem complete_stateIndex (s : Lite) (i : Nat) : ((s.complete i).cd i).stateIndex = stFree := by
  obtain ⟨s', hs', heq⟩ := complete_eq s i
  have h := (hs'.cd i).stateIndex
  rw [modify_cd_self] at h
  rw [heq, freeChannel_cd_self]
  exact h

theorem enter_stateIndex (s : Lite) (i state : Nat) :
    ((s.enter i state).cd i).stateIndex = state := by
  have h := ((enter_quiet s i state).cd i).stateIndex
  rw [modify_cd_self] at h
  exact h

/-- **A live call whose time has run out is moved on by the supervision.** -/
theorem checkTimeout_of_expired {s : Lite} (hi : Inv s) {i : Nat} (hcall : (s.cd i).hasCall = true)
    (h : s.Expired i) :
    ((s.checkTimeout 0).cd i).stateIndex = (stateEntry (s.cd i).stateIndex).nextState := by
  obtain ⟨rfl, -⟩ := hi.only i hcall
  have hfits := hi.fits 0
  have hvalid := hfits.valid hcall
  have heq : s.checkTimeout 0 =
      (s.setState 0 (stateEntry (s.cd 0).stateIndex).nextState).1 := by
    rw [Lite.checkTimeout]
    simp only [hfits.timeout hcall, hfits.pstate hcall]
    exact if_pos h
  rw [heq]
  rcases nextState_of_valid hvalid with hnext | ⟨hnext, heven, hvalid'⟩
  · rw [hnext, Lite.setState, if_pos rfl, if_neg (by rw [hcall]; decide)]
    exact complete_stateIndex s 0
  · rw [hnext]
    have hset : s.setState 0 ((s.cd 0).stateIndex + 1) =
        (s.enter 0 ((s.cd 0).stateIndex + 1), true) := by
      have hphase : ¬(s.cd 0).stateIndex + 1 - ((s.cd 0).stateIndex + 1) % 2 < (s.cd 0).getState := by
        rw [CallDesc.getState]
        omega
      rw [Valid] at hvalid hvalid'
      simp only [outMax, inMax, inU0] at hvalid hvalid'
      rcases hvalid with ⟨h2, hout⟩ | ⟨hin, hmax⟩
      · have hdir : (s.cd 0).isIncoming = false := decide_eq_false (by simp only [inU0]; omega)
        rw [Lite.setState, if_neg (by simp only [stFree]; omega),
          if_neg (by simp only [inMax]; omega), if_neg (by simp only [inU0]; omega),
          if_neg (by simp only [outMax]; omega), if_neg (by simp [hdir, hphase])]
      · have hdir : (s.cd 0).isIncoming = true := decide_eq_true hin
        rw [Lite.setState, if_neg (by simp only [stFree]; omega),
          if_neg (by simp only [inMax]; omega), if_pos (by simp only [inU0]; omega),
          if_neg (by simp [hdir, hphase])]
    rw [hset]
    exact enter_stateIndex s 0 _

/-! ## Runs -/

/-- The telephone requests something. -/
inductive Request : Lite → Lite → Prop
  | ringEvent (s : Lite) (ison : Bool) : Request s (s.ringEvent ison)
  | hookOff (s : Lite) : Request s s.hookOff
  | hookOn (s : Lite) : Request s s.hookOn
  | deflectRequest (s : Lite) : Request s s.deflectRequest
  | mcidRequest (s : Lite) : Request s s.mcidRequest
  | disconnectRequest (s : Lite) : Request s s.disconnectRequest
  | dtmfEvent (s : Lite) (pdtmf : List UInt8) : Request s (s.dtmfEvent pdtmf)

/-- Something happens: time passes and memory comes and goes, the D channel is set up, the poll function
is called with received frames, or the telephone requests something. -/
inductive Step : Lite → Lite → Prop
  | surroundings (s : Lite) (ticks : Int) (mem : Nat → Bool) :
    Step s { s with ticks := ticks, mem := mem }
  | setup (s : Lite) (enabled isNtMode : Bool) : Step s (s.setup enabled isNtMode)
  | process (s : Lite) (rx : List Mbuf) : Step s (s.process rx).1
  | request {s s' : Lite} (h : Request s s') : Step s s'

theorem Request.goes {s s' : Lite} (h : Request s s') : Goes s s' := by
  cases h with
  | ringEvent ison => exact ringEvent_goes s ison
  | hookOff => exact hookOff_goes s
  | hookOn => exact hookOn_goes s
  | deflectRequest => exact deflectRequest_goes s
  | mcidRequest => exact mcidRequest_goes s
  | disconnectRequest => exact disconnectRequest_goes s
  | dtmfEvent pdtmf => exact dtmfEvent_goes s pdtmf

theorem Step.moves {s s' : Lite} (h : Step s s') : Moves s s' := by
  cases h with
  | surroundings ticks mem => exact moves_of_calls rfl rfl rfl rfl
  | setup enabled isNtMode => exact moves_of_calls rfl rfl rfl rfl
  | process rx => exact process_moves s rx
  | request h => exact h.goes.toMoves

theorem moves_of_run {s s' : Lite} (h : ReflTransGen Step s s') : Moves s s' := by
  induction h with
  | refl => exact Moves.refl s
  | tail _ hstep ih => exact ih.trans hstep.moves

/-- A state of some run of the stack. -/
def Reach (s : Lite) : Prop :=
  ∃ noLayer1Dialtone ticks hz mem,
    ReflTransGen Step (Lite.attached noLayer1Dialtone ticks hz mem) s

theorem attached_inv (b : Bool) (ticks hz : Int) (mem : Nat → Bool) :
    Inv (Lite.attached b ticks hz mem) where
  only := fun _ h => absurd h Bool.false_ne_true
  active := fun _ h => absurd h (by simp [Lite.attached])
  fits := fun _ => ⟨fun h => absurd h Bool.false_ne_true, fun h => absurd h Bool.false_ne_true,
    fun h => absurd h Bool.false_ne_true, fun _ => ⟨rfl, rfl⟩, fun h => absurd h Bool.false_ne_true⟩
  util := fun _ => ⟨fun h => absurd h Bool.false_ne_true, fun h => absurd h.1 Bool.false_ne_true⟩

theorem Reach.inv {s : Lite} (h : Reach s) : Inv s := by
  obtain ⟨b, ticks, hz, mem, hrun⟩ := h
  exact (moves_of_run hrun).inv (attached_inv b ticks hz mem)

/-- **The calls of every run.** A live call is the first descriptor and the active one, its state is
supervised, and the supervision of the first descriptor moves it on when its time has run out; a bit of
`dl_channel_util` is set iff the live call has that channel; and until a new call comes, a live call has
been one all the time, in the same direction and never in an earlier phase. -/
theorem calls_of_run {s s' : Lite} (h : Reach s) (hrun : ReflTransGen Step s s') :
    (∀ i, (s.cd i).hasCall = true →
      i = 0 ∧ s.active = some i ∧ (s.cd i).timeoutActive = true ∧
        (s.Expired i → ((s.checkTimeout 0).cd i).stateIndex =
          (stateEntry (s.cd i).stateIndex).nextState)) ∧
    (∀ b : Nat, s.channelUtil b = true ↔
      ∃ i, (s.cd i).hasCall = true ∧ (s.cd i).channelAllocated = true ∧ (s.cd i).channelId = b) ∧
    s.calls ≤ s'.calls ∧
    (s'.calls = s.calls → ∀ i, (s'.cd i).hasCall = true →
      (s.cd i).hasCall = true ∧ (s'.cd i).isIncoming = (s.cd i).isIncoming ∧
        (s.cd i).getState ≤ (s'.cd i).getState) := by
  have hi := h.inv
  refine ⟨fun i hcall => ?_, fun b => ?_, (moves_of_run hrun).follows hi⟩
  · obtain ⟨h0, hact⟩ := hi.only i hcall
    exact ⟨h0, h0 ▸ hact, (hi.fits i).timeout hcall, checkTimeout_of_expired hi hcall⟩
  · rw [hi.util b]
    constructor
    · rintro ⟨ha, hid⟩
      refine ⟨0, ?_, ha, hid⟩
      rw [← Bool.not_eq_false]
      intro hdead
      rw [((hi.fits 0).dead hdead).1] at ha
      exact absurd ha Bool.false_ne_true
    · rintro ⟨i, hcall, ha, hid⟩
      obtain ⟨rfl, -⟩ := hi.only i hcall
      exact ⟨ha, hid⟩

/-- A telephone in TE-mode, with memory. -/
def telephone : Lite := (Lite.attached false 0 100 fun _ => true).setup true false

theorem telephone_reach : Reach telephone :=
  ⟨false, 0, 100, fun _ => true, .single (.setup _ true false)⟩

theorem telephone_hookOff_reach : Reach telephone.hookOff := by
  obtain ⟨b, ticks, hz, mem, hrun⟩ := telephone_reach
  exact ⟨b, ticks, hz, mem, hrun.tail (.request (.hookOff _))⟩

/-- The call of a telephone that goes off hook, while it is dialled. -/
theorem calls_of_run_hookOff :
    telephone.hookOff.active = some 0 ∧ (telephone.hookOff.cd 0).timeoutActive = true ∧
      ((telephone.hookOff.dtmfEvent [0x31]).cd 0).isIncoming =
        (telephone.hookOff.cd 0).isIncoming := by
  have hrun : ReflTransGen Step telephone.hookOff (telephone.hookOff.dtmfEvent [0x31]) :=
    .single (.request (.dtmfEvent _ _))
  obtain ⟨hlive, -, -, hfollow⟩ := calls_of_run telephone_hookOff_reach hrun
  have hcall := hlive 0 (by decide)
  exact ⟨hcall.2.1, hcall.2.2.1, (hfollow (by decide) 0 (by decide)).2.1⟩

end Dss1Lite
end Isdn4bsd
