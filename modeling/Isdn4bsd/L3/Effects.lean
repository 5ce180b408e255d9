import Isdn4bsd.L3.Timeouts

/-!
# Layer 3: whose call it is

What the functions of layer 3 do to the application a call belongs to, to the other calls of the
controller, and whether they panic.

* `Keeps`: the call goes on and belongs to whom it belonged; `Ends`: it is over, and its application
  was told; `Offers`: it was offered to applications.
* All three leave the other calls alone (`Aside`), and none panics under a condition if the call has
  a pipe and causes that `i4b_make_q850_cause` knows (`Calm`).
* `acts_cdUpdate`: **every event of a call is one of these.**

## Why these three

An application may use a call only if it is its own, or nobody's.  What keeps two applications apart is
therefore not in any one function: it is that no function but the one for adoption makes a call somebody's, and
that a call that ends is reported to whom it belonged, before the descriptor is cleared.  So each function
of the state machine has to be looked at once more, from this side.  Most of them keep a call (`Keeps.*`), and
the lemmas follow the calls of the source from the bottom up, like those of `Isdn4bsd.L3.Refine`; but what is
kept here, the holder of a call and what was told to it, is not in a `Line`.

## How they compose

`Keeps` may come before anything, and `Ends` absorbs what comes behind it as long as nothing else than the
descriptor is touched.  `Quiet` is for the steps in the middle of the end of a call, at which it is neither.
`Resends` is for `dss1_pipe_resend_ind`, which goes through all calls of a pipe and repeats their SETUP; it is
the only way in which an event of one call touches another one, and it changes nothing in its descriptor that
counts.
-/

set_option autoImplicit false

namespace Isdn4bsd
namespace L3

open L2 (PipeNo adapter)

namespace Cntl

variable {n : Nat} {env : Env} {ok : Prop} {i : Fin n} {r s t : Cntl n}

/-! ## What can happen -/

/-- What becomes of a call when another one is dealt with: its SETUP may be repeated. -/
def Aside (cd cd' : CallDesc) : Prop :=
  ∃ interleave ptr, cd' = { cd with setupInterleave := interleave, dstTelnoPtr := ptr }

theorem Aside.refl {cd : CallDesc} : Aside cd cd := ⟨_, _, rfl⟩

theorem Aside.trans {cd cd' cd'' : CallDesc} (h : Aside cd cd') (h' : Aside cd' cd'') :
    Aside cd cd'' := by
  obtain ⟨k, p, rfl⟩ := h
  obtain ⟨k', p', rfl⟩ := h'
  exact ⟨k', p', rfl⟩

/-- The id of a call and the application it belongs to. -/
def holder (cd : CallDesc) : Nat × AiType × Nat := (cd.cdid, cd.aiType, cd.aiPtr)

/-- The application of a call does not change when another one is dealt with. -/
theorem Aside.holder {cd cd' : CallDesc} (h : Aside cd cd') : holder cd' = holder cd := by
  obtain ⟨k, p, rfl⟩ := h
  rfl

/-- Nothing that is done with the call panics, under the condition. -/
structure Calm (ok : Prop) (s : Cntl n) (i : Fin n) : Prop where
  ok : ok
  halted : s.halted = false
  pipe : (s.cd i).pipe ≠ none
  causeIn : Handled (s.cd i).causeIn
  causeOut : Handled (s.cd i).causeOut

/-- Only the call is dealt with. -/
structure Touches (i : Fin n) (s t : Cntl n) : Prop where
  others : ∀ j, j ≠ i → Aside (s.cd j) (t.cd j)
  out : s.out <+: t.out

theorem Touches.refl : Touches i s s := ⟨fun _ _ => .refl, List.prefix_rfl⟩

theorem Touches.trans (h : Touches i r s) (h' : Touches i s t) : Touches i r t :=
  ⟨fun j hj => (h.others j hj).trans (h'.others j hj), h.out.trans h'.out⟩

/-- The call goes on, and belongs to whom it belonged. -/
structure Keeps (ok : Prop) (i : Fin n) (s t : Cntl n) : Prop extends Touches i s t where
  holder : holder (t.cd i) = holder (s.cd i)
  count : (t.cd i).connectIndCount = (s.cd i).connectIndCount
  calm : Calm ok s i → Calm ok t i

/-- An indication about the call is among what was done. -/
def Told (i : Fin n) (s t : Cntl n) (ind : Ind) : Prop :=
  ∃ done, t.out = s.out ++ done ∧ .ind (s.cd i).cdid (s.cd i).aiType (s.cd i).aiPtr ind ∈ done

/-- The call is over, and the application it belonged to was told. -/
structure Ends (ok : Prop) (i : Fin n) (s t : Cntl n) : Prop extends Touches i s t where
  free : (t.cd i).cdid = cdidUnused
  told : ∃ cause, Told i s t (.disconnect cause false)
  calm : Calm ok s i → t.halted = false

/-- The call goes on, and was offered to applications, which were counted. -/
structure Offers (ok : Prop) (env : Env) (i : Fin n) (s t : Cntl n) : Prop extends Touches i s t where
  holder : holder (t.cd i) = holder (s.cd i)
  told : Told i s t .connect
  count : ∃ k, (t.cd i).connectIndCount = env.copies k % 2 ^ 16
  calm : Calm ok s i → Calm ok t i

/-- What all functions for events do, but for SETUP. -/
def Acts (ok : Prop) (i : Fin n) (s t : Cntl n) : Prop := Keeps ok i s t ∨ Ends ok i s t

theorem Keeps.refl : Keeps ok i s s := ⟨.refl, rfl, rfl, id⟩

theorem Keeps.trans (h : Keeps ok i r s) (h' : Keeps ok i s t) : Keeps ok i r t :=
  ⟨h.toTouches.trans h'.toTouches, h'.holder.trans h.holder, h'.count.trans h.count,
    fun hc => h'.calm (h.calm hc)⟩

/-- What was said stays said. -/
theorem Told.mono {ind : Ind} (h : Told i s t ind) {u : Cntl n} (hu : t.out <+: u.out) :
    Told i s u ind := by
  obtain ⟨done, hd, hm⟩ := h
  obtain ⟨more, hmore⟩ := hu
  exact ⟨done ++ more, by rw [← hmore, hd, List.append_assoc], List.mem_append_left _ hm⟩

/-- What is said about the call afterwards, is said about it as it was. -/
theorem Told.after {ind : Ind} (h : Told i s t ind) (hr : r.out <+: s.out)
    (hh : Cntl.holder (s.cd i) = Cntl.holder (r.cd i)) : Told i r t ind := by
  obtain ⟨done, hd, hm⟩ := h
  obtain ⟨before, hb⟩ := hr
  obtain ⟨h1, h2, h3⟩ : (s.cd i).cdid = (r.cd i).cdid ∧ (s.cd i).aiType = (r.cd i).aiType ∧
      (s.cd i).aiPtr = (r.cd i).aiPtr := by simpa only [Cntl.holder, Prod.mk.injEq] using hh
  rw [h1, h2, h3] at hm
  exact ⟨before ++ done, by rw [hd, ← hb, List.append_assoc], List.mem_append_right _ hm⟩

/-- A call that is kept first, and ended then, is ended. -/
theorem Keeps.ends (h : Keeps ok i r s) (h' : Ends ok i s t) : Ends ok i r t := by
  obtain ⟨cause, ht⟩ := h'.told
  exact ⟨h.toTouches.trans h'.toTouches, h'.free, ⟨cause, ht.after h.out h.holder⟩,
    fun hc => h'.calm (h.calm hc)⟩

theorem Keeps.acts (h : Keeps ok i r s) (h' : Acts ok i s t) : Acts ok i r t :=
  h'.imp (fun h' => h.trans h') (fun h' => h.ends h')

/-- A call that is kept first, and offered then, is offered. -/
theorem Keeps.offers (h : Keeps ok i r s) (h' : Offers ok env i s t) : Offers ok env i r t :=
  ⟨h.toTouches.trans h'.toTouches, h'.holder.trans h.holder, h'.told.after h.out h.holder, h'.count,
    fun hc => h'.calm (h.calm hc)⟩

/-- An event touches no other call. -/
theorem Acts.touches (h : Acts ok i s t) : Touches i s t := by
  rcases h with h | h
  · exact h.toTouches
  · exact h.toTouches

/-- Whichever it is, nothing panics. -/
theorem Acts.calm (h : Acts ok i s t) (hc : Calm ok s i) : t.halted = false := by
  rcases h with h | h
  · exact (h.calm hc).halted
  · exact h.calm hc

theorem Acts.ite {c : Prop} [Decidable c] {t' : Cntl n} (h : Acts ok i s t) (h' : Acts ok i s t') :
    Acts ok i s (if c then t else t') := by
  split
  · exact h
  · exact h'

theorem Keeps.ite {c : Prop} [Decidable c] {t' : Cntl n} (h : Keeps ok i s t) (h' : Keeps ok i s t') :
    Keeps ok i s (if c then t else t') := by
  split
  · exact h
  · exact h'

/-! ## Changes that do not panic

`Quiet` is less than `Keeps`: it says nothing of the call itself.  A function that ends a call clears its
descriptor piece by piece, and between two pieces the call is neither kept nor over.  `Inert` is what has to be
known of the descriptor besides, so that a quiet change keeps the call (`Quiet.keeps`).
-/

/-- Only the call is dealt with, and nothing panics. -/
structure Quiet (i : Fin n) (s t : Cntl n) : Prop extends Touches i s t where
  halted : t.halted = s.halted

theorem Quiet.refl : Quiet i s s := ⟨.refl, rfl⟩

theorem Quiet.trans (h : Quiet i r s) (h' : Quiet i s t) : Quiet i r t :=
  ⟨h.toTouches.trans h'.toTouches, h'.halted.trans h.halted⟩

theorem Quiet.ite {c : Prop} [Decidable c] {t' : Cntl n} (h : Quiet i s t) (h' : Quiet i s t') :
    Quiet i s (if c then t else t') := by
  split
  · exact h
  · exact h'

theorem Quiet.modify (h : Quiet i r s) (f : CallDesc → CallDesc) : Quiet i r (s.modify i f) := by
  refine h.trans ⟨⟨?_, List.prefix_rfl⟩, rfl⟩
  intro j hj
  rw [modify_cd_of_ne s f hj]
  exact .refl

theorem Quiet.put (h : Quiet i r s) (o : Output) : Quiet i r (s.put o) :=
  h.trans ⟨⟨fun _ _ => .refl, List.prefix_append _ _⟩, rfl⟩

theorem Quiet.ask (h : Quiet i r s) : Quiet i r s.ask.2 :=
  h.trans ⟨⟨fun _ _ => .refl, List.prefix_rfl⟩, rfl⟩

/-- What other data of the controller is changed does not matter. -/
theorem Quiet.data (h : Quiet i r s) (hcd : t.cd = s.cd) (hout : t.out = s.out)
    (hh : t.halted = s.halted) : Quiet i r t := by
  refine h.trans ⟨⟨?_, ?_⟩, hh⟩
  · intro j _
    rw [hcd]
    exact .refl
  · rw [hout]

/-- The call still belongs to whom it belonged, with a pipe and causes if it had them. -/
structure Inert (cd cd' : CallDesc) : Prop where
  holder : holder cd' = holder cd
  count : cd'.connectIndCount = cd.connectIndCount
  pipe : cd.pipe ≠ none → cd'.pipe ≠ none
  causeIn : Handled cd.causeIn → Handled cd'.causeIn
  causeOut : Handled cd.causeOut → Handled cd'.causeOut

theorem Inert.refl {cd : CallDesc} : Inert cd cd := ⟨rfl, rfl, id, id, id⟩

theorem Aside.inert {cd cd' : CallDesc} (h : Aside cd cd') : Inert cd cd' := by
  obtain ⟨k, p, rfl⟩ := h
  exact ⟨rfl, rfl, id, id, id⟩

theorem Quiet.keeps (h : Quiet i s t) (hc : Inert (s.cd i) (t.cd i)) : Keeps ok i s t :=
  ⟨h.toTouches, hc.holder, hc.count, fun hs =>
    ⟨hs.ok, h.halted.trans hs.halted, hc.pipe hs.pipe, hc.causeIn hs.causeIn, hc.causeOut hs.causeOut⟩⟩

theorem Keeps.modify (h : Keeps ok i r s) {f : CallDesc → CallDesc} (hf : Inert (s.cd i) (f (s.cd i))) :
    Keeps ok i r (s.modify i f) := by
  refine h.trans ((Quiet.refl.modify f).keeps ?_)
  rw [modify_cd_self]
  exact hf

theorem Keeps.put (h : Keeps ok i r s) (o : Output) : Keeps ok i r (s.put o) :=
  h.trans ((Quiet.refl.put o).keeps .refl)

/-- Its application is told something. -/
theorem Keeps.tell (h : Keeps ok i r s) (ind : Ind) : Keeps ok i r (s.tell i ind) := h.put _

theorem Keeps.ask (h : Keeps ok i r s) : Keeps ok i r s.ask.2 := h.trans (Quiet.refl.ask.keeps .refl)

theorem Keeps.data (h : Keeps ok i r s) (hcd : t.cd = s.cd) (hout : t.out = s.out)
    (hh : t.halted = s.halted) : Keeps ok i r t := by
  refine h.trans ((Quiet.refl.data hcd hout hh).keeps ?_)
  rw [hcd]
  exact .refl

/-- A panic that needs a call without a pipe, or with a cause that is not known. -/
theorem Keeps.halt (h : Keeps ok i r s) (hn : ¬ Calm ok s i) : Keeps ok i r s.halt :=
  h.trans ⟨⟨fun _ _ => .refl, List.prefix_rfl⟩, rfl, rfl, fun hc => absurd hc hn⟩

/-! ## Layer 4

Layer 4 tells the application about the call, links and unlinks its B channel, and has the timers for a
call that is not used.  None of this says whose the call is.
-/

theorem Quiet.unlinkBchandrvr (h : Quiet i r s) : Quiet i r (s.unlinkBchandrvr i) := by
  rw [Cntl.unlinkBchandrvr]
  exact ((h.modify _).put _).ite (h.modify _)

theorem Keeps.unlinkBchandrvr (h : Keeps ok i r s) : Keeps ok i r (s.unlinkBchandrvr i) := by
  rw [Cntl.unlinkBchandrvr]
  have h1 : Keeps ok i r (s.modify i fun cd => { cd with bLinkWantActive := false }) := h.modify ⟨rfl, rfl, id, id, id⟩
  exact (h1.put _).ite h1

theorem Keeps.i4bLinkBchandrvr (h : Keeps ok i r s) (activate : Bool) :
    Keeps ok i r (s.i4bLinkBchandrvr i activate) := by
  rw [Cntl.i4bLinkBchandrvr]
  have h1 : Keeps ok i r ((s.unlinkBchandrvr i).modify i fun cd =>
      { cd with
        driverTypeCopy := cd.driverType
        driverUnitCopy := cd.driverUnit
        bLinkWantActive := true }) := h.unlinkBchandrvr.modify ⟨rfl, rfl, id, id, id⟩
  exact ((h1.put _).ite h1).ite h.unlinkBchandrvr

theorem Keeps.idleStarted (h : Keeps ok i r s) : Keeps ok i r (s.idleStarted i) := by
  rw [Cntl.idleStarted]
  exact (h.ite (h.tell _)).modify ⟨rfl, rfl, id, id, id⟩

/-- The data for the timer of an idle call. -/
theorem inert_shortholdData (cd : CallDesc) : Inert cd (shortholdData cd).1 := by
  rw [shortholdData]
  split
  · split
    · exact ⟨rfl, rfl, id, id, id⟩
    · exact ⟨rfl, rfl, id, id, id⟩
  · exact ⟨rfl, rfl, id, id, id⟩

theorem Keeps.i4bL4SetupTimeout (h : Keeps ok i r s) : Keeps ok i r (s.i4bL4SetupTimeout i) := by
  rw [Cntl.i4bL4SetupTimeout]
  have h1 : Keeps ok i r (s.modify i fun cd => (shortholdData cd).1) :=
    h.modify (inert_shortholdData _)
  have h2 : Keeps ok i r ((s.modify i fun cd => (shortholdData cd).1).modify i fun cd =>
      { cd with idleState := .started }) := h1.modify ⟨rfl, rfl, id, id, id⟩
  exact Keeps.modify ((Keeps.ite h2.idleStarted h2).ite h1) ⟨rfl, rfl, id, id, id⟩

theorem Keeps.i4bL4ConnectActiveInd (h : Keeps ok i r s) :
    Keeps ok i r (s.i4bL4ConnectActiveInd env i) := by
  rw [Cntl.i4bL4ConnectActiveInd]
  have h1 : Keeps ok i r (s.ask.2.modify i fun cd => { cd with lastActiveTime := env.time s.ask.1 }) :=
    h.ask.modify ⟨rfl, rfl, id, id, id⟩
  exact h1.i4bL4SetupTimeout.tell _

/-- What the application of the call is told. -/
theorem told_tell (s : Cntl n) (i : Fin n) (ind : Ind) : Told i s (s.tell i ind) ind :=
  ⟨_, rfl, List.mem_singleton_self _⟩

theorem Keeps.i4bL4DisconnectInd (h : Keeps ok i r s) (complement : Bool) :
    Keeps ok i r (s.i4bL4DisconnectInd i complement) := by
  have h1 : Keeps ok i r (if complement then s else s.i4bLinkBchandrvr i false) :=
    h.ite (h.i4bLinkBchandrvr false)
  rw [Cntl.i4bL4DisconnectInd]
  generalize (if complement then s else s.i4bLinkBchandrvr i false) = m at h1
  split
  · rename_i hn
    refine (h1.tell _).halt ?_
    intro hc
    have hin : Handled (m.cd i).causeIn := hc.causeIn
    rw [Handled, hn.2] at hin
    cases hin
  · exact h1.tell _

theorem out_halt (s : Cntl n) : s.halt.out = s.out := rfl

/-- The application of the call is told that it is over. -/
theorem told_i4bL4DisconnectInd (s : Cntl n) (i : Fin n) :
    ∃ cause, Told i s (s.i4bL4DisconnectInd i false) (.disconnect cause false) := by
  have h1 : Keeps True i s (s.i4bLinkBchandrvr i false) := Keeps.refl.i4bLinkBchandrvr false
  refine ⟨((s.i4bLinkBchandrvr i false).cd i).causeIn, ?_⟩
  rw [Cntl.i4bL4DisconnectInd, if_neg Bool.false_ne_true]
  refine Told.after (s := s.i4bLinkBchandrvr i false) ?_ h1.out h1.holder
  have ht := told_tell (s.i4bLinkBchandrvr i false) i
    (.disconnect ((s.i4bLinkBchandrvr i false).cd i).causeIn false)
  split
  · exact ht.mono (by rw [out_halt])
  · exact ht

/-! ## Channels and pipes

A channel and a pipe are what the calls of a controller share, and still a change of them touches no other
call, with one exception: a pipe that is activated again repeats what it has not got an answer to.  That is
a SETUP of each call on it, and as the source keeps in the descriptor how much of that SETUP was sent,
other descriptors change as well.  `Resends` is about this, and `Resends.keeps` says that a call that is
dealt with does not lose anything by it.
-/

theorem Keeps.liAlloc (h : Keeps ok i r s) : Keeps ok i r (s.liAlloc env i) := by
  rw [Cntl.liAlloc]
  exact h.ask.modify ⟨rfl, rfl, id, id, id⟩

theorem Keeps.channelFound (h : Keeps ok i r s) (c : Nat) : Keeps ok i r (s.channelFound i c) := by
  rw [Cntl.channelFound]
  have h1 : Keeps ok i r ({ s with utilization := Function.update s.utilization c true } : Cntl n) :=
    h.data rfl rfl rfl
  exact h1.modify ⟨rfl, rfl, id, id, id⟩

theorem Keeps.channelNotFound (h : Keeps ok i r s) : Keeps ok i r (s.channelNotFound i) := by
  rw [Cntl.channelNotFound]
  exact h.modify ⟨rfl, rfl, id, id, id⟩

theorem Keeps.chooseChannel (h : Keeps ok i r s) : Keeps ok i r (s.chooseChannel i) := by
  rw [Cntl.chooseChannel]
  refine Keeps.ite (Keeps.ite h.channelNotFound (h.channelFound _)) (Keeps.ite (h.modify ⟨rfl, rfl, id, id, id⟩) ?_)
  split
  · exact h.channelFound _
  · exact h.channelNotFound

/-- A call that looks for a channel goes on, whether it finds one or not. -/
theorem Keeps.cdAllocateChannel (env : Env) (h : Keeps ok i r s) : Keeps ok i r (s.cdAllocateChannel env i) := by
  rw [Cntl.cdAllocateChannel]
  have h1 : Keeps ok i r (if (s.cd i).liCdid ≠ cdidUnused ∧ (s.cd i).liData = false then
      s.liAlloc env i else s) := h.liAlloc.ite h
  exact h1.ite h1.chooseChannel

/-- What `cd_free_channel` leaves of the descriptor. -/
theorem cdFreeChannel_effect (s : Cntl n) (i : Fin n) :
    Quiet i s (s.cdFreeChannel i) ∧
      ∃ channelId allocated, (s.cdFreeChannel i).cd i
        = { s.cd i with liData := false, channelId := channelId, channelAllocated := allocated } := by
  have h1 : Quiet i s (s.modify i fun cd => { cd with liData := false }) := Quiet.refl.modify _
  have hcd : (s.modify i fun cd => { cd with liData := false }).cd i
      = { s.cd i with liData := false } := modify_cd_self s i _
  rw [cdFreeChannel]
  generalize (s.modify i fun cd => { cd with liData := false }) = m at h1 hcd
  dsimp only
  split
  · have h2 : Quiet i s (if 0 ≤ (m.cd i).channelId ∧ (m.cd i).channelId < m.channelEnd then
        { m with utilization := Function.update m.utilization (m.cd i).channelId.toNat false }
        else m) := Quiet.ite (h1.data rfl rfl rfl) h1
    refine ⟨h2.modify _, chanAny, false, ?_⟩
    rw [modify_cd_self]
    split
    · rw [hcd]
    · rw [hcd]
  · exact ⟨h1, _, _, hcd⟩

theorem Keeps.cdFreeChannel (h : Keeps ok i r s) : Keeps ok i r (s.cdFreeChannel i) := by
  obtain ⟨hq, c, a, hcd⟩ := cdFreeChannel_effect s i
  refine h.trans (hq.keeps ?_)
  rw [hcd]
  exact ⟨rfl, rfl, id, id, id⟩

/-- At most the SETUP of some calls is repeated. -/
structure Resends (s t : Cntl n) : Prop where
  cd : ∀ j, Aside (s.cd j) (t.cd j)
  out : s.out <+: t.out
  halted : t.halted = s.halted

theorem Resends.refl : Resends s s := ⟨fun _ => .refl, List.prefix_rfl, rfl⟩

theorem Resends.trans (h : Resends r s) (h' : Resends s t) : Resends r t :=
  ⟨fun j => (h.cd j).trans (h'.cd j), h.out.trans h'.out, h'.halted.trans h.halted⟩

theorem Resends.ite {c : Prop} [Decidable c] {t' : Cntl n} (h : Resends s t) (h' : Resends s t') :
    Resends s (if c then t else t') := by
  split
  · exact h
  · exact h'

theorem Resends.put (h : Resends r s) (o : Output) : Resends r (s.put o) :=
  h.trans ⟨fun _ => .refl, List.prefix_append _ _, rfl⟩

theorem Resends.data (h : Resends r s) (hcd : t.cd = s.cd) (hout : t.out = s.out)
    (hh : t.halted = s.halted) : Resends r t := by
  refine h.trans ⟨?_, ?_, hh⟩
  · intro j
    rw [hcd]
    exact .refl
  · rw [hout]

theorem Resends.quiet (h : Resends s t) : Quiet i s t := ⟨⟨fun j _ => h.cd j, h.out⟩, h.halted⟩

theorem Resends.dss1L1ActivityTimeout (h : Resends r s) : Resends r s.dss1L1ActivityTimeout := by
  rw [Cntl.dss1L1ActivityTimeout]
  have h1 : Resends r (if s.l1Activity ∧ s.l1AutoActivate = 0 ∧ s.receivedFrame = false ∧
      s.noPowerSave = false then
        if s.l1DeactivateCount then { s.put (.l1 false) with l1DeactivateCount := false }
        else { s with l1DeactivateCount := true }
      else { s with l1DeactivateCount := false, receivedFrame := false }) :=
    Resends.ite (Resends.ite ((h.put _).data rfl rfl rfl) (h.data rfl rfl rfl)) (h.data rfl rfl rfl)
  exact Resends.ite (h1.data rfl rfl rfl) h

theorem Quiet.dss1L1ActivityTimeout (h : Quiet i r s) : Quiet i r s.dss1L1ActivityTimeout :=
  h.trans Resends.refl.dss1L1ActivityTimeout.quiet

theorem Quiet.leavePipe (h : Quiet i r s) (o : Option PipeNo) : Quiet i r (s.leavePipe o) := by
  cases o with
  | none => exact h
  | some p =>
    rw [Cntl.leavePipe, dss1L1DeactivateReq]
    have h1 : Quiet i r ((s.unref p).put (.down (.request (.unref p)))) :=
      Quiet.put (h.data (t := s.unref p) rfl rfl rfl) _
    refine Quiet.ite (Quiet.dss1L1ActivityTimeout ?_) ?_
    · exact h1.data rfl rfl rfl
    · exact h1.data rfl rfl rfl

/-- A call that leaves its pipe: the counters of the pipe change, and no descriptor. -/
theorem Keeps.leavePipe (h : Keeps ok i r s) (o : Option PipeNo) : Keeps ok i r (s.leavePipe o) := by
  refine h.trans ((Quiet.refl.leavePipe o).keeps ?_)
  rw [cd_leavePipe]
  exact .refl

theorem Resends.modify (h : Resends r s) (j : Fin n) {f : CallDesc → CallDesc}
    (hf : Aside (s.cd j) (f (s.cd j))) : Resends r (s.modify j f) := by
  refine h.trans ⟨?_, List.prefix_rfl, rfl⟩
  intro k
  by_cases hk : k = j
  · subst hk
    rw [modify_cd_self]
    exact hf
  · rw [modify_cd_of_ne s f hk]
    exact .refl

theorem Resends.keeps (h : Resends s t) : Keeps ok i s t := h.quiet.keeps (h.cd i).inert

theorem Resends.dss1L3TxSetup (h : Resends r s) {j : Fin n} (hp : (s.cd j).pipe ≠ none) :
    Resends r (s.dss1L3TxSetup env j) := by
  rw [Cntl.dss1L3TxSetup]
  have hask : Resends r s.ask.2 := h.data rfl rfl rfl
  refine Resends.ite ?_ hask
  split
  · rename_i hn
    exact absurd hn hp
  · exact (hask.modify j ⟨_, _, rfl⟩).put _

theorem Resends.resendCall (h : Resends r s) (p : PipeNo) (j : Fin n) :
    Resends r (s.resendCall env p j) := by
  rw [Cntl.resendCall]
  dsimp only
  split
  · rename_i hj
    have hp : (s.cd j).pipe ≠ none := by
      rw [hj.2.1]
      exact Option.some_ne_none p
    have h1 : Resends r (if (s.cd j).peerResponded = false ∧
        ((s.cd j).setupInterleave = 0 ∨ (s.cd j).setupInterleave = 4 ∨
          6 ≤ (s.cd j).setupInterleave) then s.dss1L3TxSetup env j else s) :=
      (h.dss1L3TxSetup hp).ite h
    exact (h1.modify j ⟨_, _, rfl⟩).ite h1
  · exact h

theorem Resends.dss1PipeResendInd (env : Env) (h : Resends r s) (p : PipeNo) :
    Resends r (s.dss1PipeResendInd env p) := by
  rw [Cntl.dss1PipeResendInd]
  generalize List.finRange n = js
  induction js generalizing s with
  | nil => exact h
  | cons j js ih => exact ih (h.resendCall p j)

theorem Resends.dss1PipeActivateReq (h : Resends r s) (p : PipeNo) :
    Resends r (s.dss1PipeActivateReq env p) := by
  rw [Cntl.dss1PipeActivateReq]
  have h1 : Resends r ({ (s.put (.down (.activate p))).ref p with
      paused := Function.update (s.put (.down (.activate p))).paused p false } : Cntl n) :=
    (h.put _).data rfl rfl rfl
  have h2 := (h1.dss1PipeResendInd env p).ite
    (c := s.ntMode ∧ s.pointToPoint = false ∧ p = adapter) h1
  exact Resends.ite (h2.data rfl rfl rfl) (h.put _)

theorem Resends.dss1L1ActivateReq (h : Resends r s) : Resends r s.dss1L1ActivateReq := by
  rw [Cntl.dss1L1ActivateReq]
  have h1 : Resends r (if s.l1AutoActivate = 0 then
      { s.put (.l1 true) with l1ActivityCallout := false, l1DeactivateCount := false }
      else s) := Resends.ite ((h.put _).data rfl rfl rfl) h
  exact h1.data rfl rfl rfl

theorem Resends.joinPipe (h : Resends r s) (o : Option PipeNo) : Resends r (s.joinPipe env o) := by
  cases o with
  | none => exact h
  | some p =>
    rw [Cntl.joinPipe]
    have h1 : Resends r ((s.ref p).put (.down (.request (.ref p)))) :=
      (h.data (t := s.ref p) rfl rfl rfl).put _
    exact h1.dss1L1ActivateReq.dss1PipeActivateReq p

theorem Keeps.dss1L3TxSetup (h : Keeps ok i r s) : Keeps ok i r (s.dss1L3TxSetup env i) := by
  by_cases hp : (s.cd i).pipe = none
  · rw [Cntl.dss1L3TxSetup]
    refine Keeps.ite ?_ h.ask
    split
    · exact h.ask.halt fun hc => hc.pipe hp
    · rename_i hs
      rw [hp] at hs
      cases hs
  · exact h.trans (Resends.refl.dss1L3TxSetup hp).keeps

theorem Keeps.joinPipe (h : Keeps ok i r s) (o : Option PipeNo) : Keeps ok i r (s.joinPipe env o) :=
  h.trans (Resends.refl.joinPipe o).keeps

theorem Keeps.foldl {α : Type} {f : Cntl n → α → Cntl n}
    (hf : ∀ s a, Keeps ok i r s → Keeps ok i r (f s a)) (as : List α) {s : Cntl n}
    (h : Keeps ok i r s) : Keeps ok i r (as.foldl f s) := by
  induction as generalizing s with
  | nil => exact h
  | cons a as ih => exact ih (hf s a h)

/-- **A call that moves to another pipe** goes on, and others may have their SETUP repeated. -/
theorem Keeps.cdSetPipe (h : Keeps ok i r s) {o : Option PipeNo} (ho : o ≠ none) :
    Keeps ok i r (s.cdSetPipe env i o) := by
  rw [Cntl.cdSetPipe]
  exact ((h.joinPipe o).leavePipe _).modify ⟨rfl, rfl, fun _ => ho, id, id⟩

/-! ## The end of a call -/

/-- `N_FREE_CD`: the application is told, and then the descriptor is free. -/
theorem ends_nFreeCd (env : Env) (s : Cntl n) (i : Fin n) : Ends ok i s (s.nFreeCd env i) := by
  have h1 : Keeps ok i s (s.i4bL4DisconnectInd i false) := Keeps.refl.i4bL4DisconnectInd false
  obtain ⟨cause, ht⟩ := told_i4bL4DisconnectInd s i
  rw [nFreeCd]
  generalize s.i4bL4DisconnectInd i false = m at h1 ht
  have h2 : Quiet i m (m.cdSetApplInterface i .broadcast 0) := Quiet.refl.modify _
  have h3 : Quiet i m ((m.cdSetApplInterface i .broadcast 0).cdSetPipe env i none) := by
    rw [cdSetPipe, joinPipe]
    exact (h2.leavePipe _).modify _
  have h4 := h3.trans (cdFreeChannel_effect _ i).1
  have h5 : Quiet i m ((((m.cdSetApplInterface i .broadcast 0).cdSetPipe env i none).cdFreeChannel
      i).i4bFreeCd i) := h4.modify _
  refine ⟨h1.toTouches.trans h5.toTouches, ?_, ⟨cause, ht.mono h5.out⟩, ?_⟩
  · rw [i4bFreeCd, modify_cd_self]
  · intro hc
    exact h5.halted.trans (h1.calm hc).halted

/-! ## Messages

A message is built from the descriptor and handed to the pipe.  Where it needs a cause, `i4b_make_q850_cause` is
called, which panics on a type that it does not know, and so does a call that has no pipe to send on.
-/

theorem Keeps.txThrough (h : Keeps ok i r s) (p : PipeNo) (messageType : UInt8) (f : Tx) :
    Keeps ok i r (s.txThrough env i p messageType f) := by
  rw [Cntl.txThrough]
  refine Keeps.ite ?_ h.ask
  split
  · rename_i hm
    refine h.ask.halt ?_
    intro hc
    have := message_isSome env s.ntMode s.primaryRate (s.cd i) messageType f fun _ => hc.causeOut
    rw [hm] at this
    cases this
  · rw [dss1PipeDataReq]
    exact (h.ask.modify ⟨rfl, rfl, id, id, id⟩).put _

theorem Keeps.dss1L3TxMessage (h : Keeps ok i r s) (messageType : UInt8) (f : Tx) :
    Keeps ok i r (s.dss1L3TxMessage env i messageType f) := by
  rw [Cntl.dss1L3TxMessage]
  split
  · rename_i hn
    exact h.halt fun hc => hc.pipe hn
  · exact h.txThrough _ messageType f

theorem Keeps.dss1L3TxReleaseCompleteComplement (h : Keeps ok i r s) (skip1 skip2 : Option PipeNo) :
    Keeps ok i r (s.dss1L3TxReleaseCompleteComplement env i skip1 skip2) :=
  h.foldl (fun _ _ h => (h.txThrough _ _ _).ite h) _

/-- A message with a cause is sent after the cause was set. -/
theorem Keeps.txWithCause (h : Keeps ok i r s) (messageType : UInt8) (f : Tx) {cause : Nat}
    (hc : Handled cause) : Keeps ok i r (s.txWithCause env i messageType f cause) := by
  have h1 : Keeps ok i r (s.modify i fun cd => { cd with causeOut := cause }) :=
    h.modify ⟨rfl, rfl, id, id, fun _ => hc⟩
  exact (h1.dss1L3TxMessage messageType f).modify ⟨rfl, rfl, id, id, fun _ => (by decide : Handled 0)⟩

/-! ## States

`cd_set_state` sends what belongs to the new state, and starts its timer.  For `ST_L3_U0` it frees the call; for
all other states the call goes on.
-/

theorem Keeps.txFinal (h : Keeps ok i r s) (p : PipeNo) : Keeps ok i r (s.txFinal env i p) := by
  rw [Cntl.txFinal]
  have h1 : Keeps ok i r (if (s.cd i).causeOut = 0 then
      s.modify i fun cd => { cd with causeOut := causeRecotimexp } else s) :=
    Keeps.ite (h.modify ⟨rfl, rfl, id, id, fun _ => (by decide : Handled causeRecotimexp)⟩) h
  exact Keeps.ite (Keeps.ite (h1.dss1L3TxReleaseCompleteComplement _ _) (h1.dss1L3TxMessage _ _)) h

/-- **`ST_L3_U0`**: the last message is sent, the application is told, and the descriptor is free. -/
theorem ends_enterNull (env : Env) (s : Cntl n) (i : Fin n) (p : PipeNo) :
    Ends ok i s (s.enterNull env i p) := by
  have h1 : Keeps ok i s (s.abandon i p) := by
    rw [abandon]
    exact (Keeps.refl.modify ⟨rfl, rfl, id, id, id⟩).put _
  have h2 : Keeps ok i s (((s.abandon i p).txFinal env i p).l1Error i) := by
    rw [l1Error]
    exact Keeps.ite (h1.txFinal p) ((h1.txFinal p).modify
      ⟨rfl, rfl, id, fun _ => (by decide : Handled causeI4bL1error), id⟩)
  rw [enterNull]
  exact h2.ends (ends_nFreeCd env _ i)

theorem Keeps.skipEnquiry (h : Keeps ok i r s) (new : State) : Keeps ok i r (s.skipEnquiry i new).1 := by
  have h1 : Keeps ok i r (s.modify i fun cd =>
      { cd with statusEnquiryTimeout := cd.statusEnquiryTimeout + 1 }) := h.modify ⟨rfl, rfl, id, id, id⟩
  rw [Cntl.skipEnquiry]
  split
  · split
    · exact h1
    · exact h
  · split
    · exact h
    · exact h

theorem Keeps.enterState (h : Keeps ok i r s) (new : State) : Keeps ok i r (s.enterState env i new) := by
  have h1 : Keeps ok i r ((s.skipEnquiry i new).1.storeState i (s.skipEnquiry i new).2.1) :=
    (h.skipEnquiry new).modify ⟨rfl, rfl, id, id, id⟩
  rw [Cntl.enterState]
  generalize (s.skipEnquiry i new).1.storeState i (s.skipEnquiry i new).2.1 = m at h1
  have h2 : Keeps ok i r (if (s.skipEnquiry i new).2.2 = true then m.dss1L3TxStatusEnquiry env i
      else m) := (h1.dss1L3TxMessage _ _).ite h1
  rw [sendEarly]
  exact Keeps.ite ((h2.dss1L3TxMessage _ _).modify ⟨rfl, rfl, id, id, id⟩) h2

/-- **Any other state**: the call goes on. -/
theorem Keeps.cdSetState (h : Keeps ok i r s) {new : State} (hn : new ≠ .u0) :
    Keeps ok i r (s.cdSetState env i new) := by
  rw [Cntl.cdSetState]
  split
  · rename_i hp
    exact h.halt fun hc => hc.pipe hp
  · dsimp only
    rw [if_neg hn]
    exact (h.modify ⟨rfl, rfl, id, id, id⟩).enterState new

theorem ends_cdSetState (env : Env) {s : Cntl n} {i : Fin n} (hp : (s.cd i).pipe ≠ none) :
    Ends ok i s (s.cdSetState env i .u0) := by
  rw [cdSetState]
  split
  · rename_i hn
    exact absurd hn hp
  · dsimp only
    rw [if_pos rfl]
    exact (Keeps.refl.modify ⟨rfl, rfl, id, id, id⟩).ends (ends_enterNull env _ i _)

/-- `cd_set_state` for `ST_L3_U0` ends the call, unless it has no pipe. -/
theorem acts_cdSetState (env : Env) (s : Cntl n) (i : Fin n) (new : State) :
    Acts ok i s (s.cdSetState env i new) := by
  by_cases hn : new = .u0
  · subst hn
    by_cases hp : (s.cd i).pipe = none
    · rw [cdSetState, hp]
      exact .inl (Keeps.refl.halt fun hc => hc.pipe hp)
    · exact .inr (ends_cdSetState env hp)
  · exact .inl (Keeps.refl.cdSetState hn)

/-! ## Events of all calls -/

theorem Keeps.onStatus (h : Keeps ok i r s) : Keeps ok i r (s.onStatus env i) := by
  have hpred : ∀ {st : State}, st.isTimeout = true → st.pred ≠ .u0 := by
    intro st hst
    exact (State.pred_of_timeout hst).1
  have h1 : Keeps ok i r (s.modify i fun cd =>
      { cd with statusEnquiryTimeout := cd.statusEnquiryTimeout + 1 }) := h.modify ⟨rfl, rfl, id, id, id⟩
  rw [Cntl.onStatus]
  split
  · rename_i hst
    refine Keeps.ite (h1.cdSetState (hpred ?_)) h
    rcases hst with hst | hst | hst | hst <;> rw [hst] <;> rfl
  · split
    · rename_i hst
      refine h.cdSetState (hpred ?_)
      rcases hst with hst | hst <;> rw [hst.1] <;> rfl
    · exact h

theorem Keeps.leaveChannel (h : Keeps ok i r s) : Keeps ok i r (s.leaveChannel i) := by
  have h1 : Keeps ok i r ((s.i4bLinkBchandrvr i false).modify i fun cd =>
      { cd with bLinkWantActive := true }) := (h.i4bLinkBchandrvr false).modify ⟨rfl, rfl, id, id, id⟩
  have h2 : Keeps ok i r (if (s.cd i).bLinkWantActive then
      (s.i4bLinkBchandrvr i false).modify i fun cd => { cd with bLinkWantActive := true }
      else s) := h1.ite h
  rw [Cntl.leaveChannel]
  exact h2.cdFreeChannel

theorem Keeps.relink (h : Keeps ok i r s) : Keeps ok i r (s.relink i) := by
  rw [Cntl.relink]
  exact (h.i4bLinkBchandrvr true).ite h

theorem Keeps.onHoldInd (h : Keeps ok i r s) : Keeps ok i r (s.onHoldInd env i) := by
  rw [Cntl.onHoldInd]
  exact Keeps.ite (((h.leaveChannel.dss1L3TxMessage _ _).tell _).modify ⟨rfl, rfl, id, id, id⟩)
    (h.txWithCause _ _ (by decide))

theorem Keeps.onRetrieveInd (h : Keeps ok i r s) : Keeps ok i r (s.onRetrieveInd env i) := by
  rw [Cntl.onRetrieveInd]
  have h1 : Keeps ok i r (s.cdAllocateChannel env i) := h.cdAllocateChannel env
  refine Keeps.ite (Keeps.ite ?_ (h1.txWithCause _ _ (by decide))) (h.txWithCause _ _ (by decide))
  exact (((h1.dss1L3TxMessage _ _).tell _).modify ⟨rfl, rfl, id, id, id⟩).relink

/-- A call on hold has no channel, and belongs to whom it belonged. -/
theorem Keeps.onHoldReq (h : Keeps ok i r s) : Keeps ok i r (s.onHoldReq env i) := by
  rw [Cntl.onHoldReq]
  exact Keeps.ite ((h.leaveChannel.dss1L3TxMessage _ _).modify ⟨rfl, rfl, id, id, id⟩) h

theorem Keeps.onRetrieveReq (h : Keeps ok i r s) : Keeps ok i r (s.onRetrieveReq env i) := by
  rw [Cntl.onRetrieveReq]
  exact Keeps.ite ((h.dss1L3TxMessage _ _).modify ⟨rfl, rfl, id, id, id⟩) h

theorem Keeps.onRetrieveAck (h : Keeps ok i r s) : Keeps ok i r (s.onRetrieveAck env i) := by
  rw [Cntl.onRetrieveAck]
  exact Keeps.ite ((h.cdAllocateChannel _).modify ⟨rfl, rfl, id, id, id⟩).relink h

theorem Keeps.onInforq (h : Keeps ok i r s) : Keeps ok i r (s.onInforq env i) := by
  have h1 : Keeps ok i r (s.modify i fun cd =>
      { cd with dstTelnoEarly := (cd.dstTelnoEarly ++ cd.dstTelnoPart).take (telnoMax - 1) }) :=
    h.modify ⟨rfl, rfl, id, id, id⟩
  have h2 : Keeps ok i r (if s.ntMode = false ∨ s.pointToPoint ∨ (s.cd i).state = .ua ∨
      (s.cd i).state = .uaTo then
      let t := s.modify i fun cd =>
        { cd with dstTelnoEarly := (cd.dstTelnoEarly ++ cd.dstTelnoPart).take (telnoMax - 1) }
      if (s.cd i).state ≠ .u2 then
        (t.dss1L3TxInformation env i).modify i fun cd => { cd with dstTelnoEarly := [] }
      else t
      else s) := Keeps.ite (Keeps.ite ((h1.dss1L3TxMessage _ _).modify ⟨rfl, rfl, id, id, id⟩) h1) h
  rw [Cntl.onInforq]
  dsimp only at h2 ⊢
  split
  · rename_i hst
    refine h2.cdSetState ?_
    rcases hst with hst | hst <;> rw [hst] <;> decide
  · exact h2

theorem Keeps.onInfo (h : Keeps ok i r s) : Keeps ok i r (s.onInfo env i) := by
  rw [Cntl.onInfo]
  have h1 : Keeps ok i r (if (s.cd i).state = .inAck then s.cdSetState env i .inAck else s) :=
    (h.cdSetState (by decide)).ite h
  exact (h1.tell _).ite h

/-! ## Labels

The parts of `cd_update` that are reached by `goto`, from several events.
-/

theorem acts_noChannelAvailable (env : Env) (s : Cntl n) (i : Fin n) :
    Acts ok i s (s.noChannelAvailable env i) := by
  rw [noChannelAvailable]
  exact (Keeps.refl.modify ⟨rfl, rfl, id, id, fun _ => (by decide : Handled causeNocavail)⟩).acts
    (acts_cdSetState env _ i .u0)

/-- A text message ends its call. -/
theorem acts_smsRelease (env : Env) (s : Cntl n) (i : Fin n) : Acts ok i s (s.smsRelease env i) := by
  rw [smsRelease]
  exact (Keeps.refl.modify ⟨rfl, rfl, id, id, fun _ => (by decide : Handled causeNoanswr)⟩).acts
    (acts_cdSetState env _ i .u0)

theorem acts_eventConnectAck (env : Env) (s : Cntl n) (i : Fin n) :
    Acts ok i s (s.eventConnectAck env i) := by
  rw [eventConnectAck]
  exact (acts_smsRelease env s i).ite
    (.inl (Keeps.refl.cdSetState (by decide)).i4bL4ConnectActiveInd)

/-! ## Events of outgoing calls -/

theorem Keeps.allocateNamed (h : Keeps ok i r s) : Keeps ok i r (s.allocateNamed env i) := by
  rw [Cntl.allocateNamed]
  exact (h.cdAllocateChannel _).ite h

theorem Keeps.onSetuprq (h : Keeps ok i r s) : Keeps ok i r (s.onSetuprq env i) := by
  have h1 : Keeps ok i r (if s.ntMode = false ∨ s.pointToPoint then s.dss1L3TxSetup env i else s) :=
    h.dss1L3TxSetup.ite h
  rw [Cntl.onSetuprq]
  generalize (if s.ntMode = false ∨ s.pointToPoint then s.dss1L3TxSetup env i else s) = m at h1
  refine Keeps.ite ((h1.modify ⟨rfl, rfl, id, id, fun _ => (by decide : Handled 0)⟩).cdSetState ?_) h
  split <;> decide

theorem Keeps.onCallprc (h : Keeps ok i r s) : Keeps ok i r (s.onCallprc env i) := by
  rw [Cntl.onCallprc]
  exact Keeps.ite ((h.cdSetState (by decide)).allocateNamed.tell _) h

theorem Keeps.onSetupak (h : Keeps ok i r s) : Keeps ok i r (s.onSetupak env i) := by
  rw [Cntl.onSetupak]
  exact Keeps.ite ((h.cdSetState (by decide)).allocateNamed.tell _) (h.ite h.onCallprc)

theorem acts_onAlert (env : Env) (s : Cntl n) (i : Fin n) : Acts ok i s (s.onAlert env i) := by
  have h : Keeps ok i s s := .refl
  have h1 : Keeps ok i s (if (s.cd i).state.num < State.u3.num then
      (s.allocateNamed env i).tell i (.proceeding true) else s) := (h.allocateNamed.tell _).ite h
  rw [onAlert]
  exact Acts.ite ((acts_smsRelease env s i).ite (.inl ((h1.cdSetState (by decide)).tell _))) (.inl h)

theorem Keeps.releaseOthers (h : Keeps ok i r s) (p : Option PipeNo) :
    Keeps ok i r (s.releaseOthers env i p) := by
  rw [Cntl.releaseOthers]
  have h1 : Keeps ok i r (s.modify i fun cd => { cd with causeOut := causeNonseluc }) :=
    h.modify ⟨rfl, rfl, id, id, fun _ => (by decide : Handled causeNonseluc)⟩
  exact Keeps.ite ((h1.dss1L3TxReleaseCompleteComplement _ _).modify
    ⟨rfl, rfl, id, id, fun _ => (by decide : Handled 0)⟩) h

theorem acts_onConnect (env : Env) (s : Cntl n) (i : Fin n) {p : Option PipeNo} (hp : p ≠ none) :
    Acts ok i s (s.onConnect env i p) := by
  have h : Keeps ok i s s := .refl
  have h1 : Keeps ok i s (s.allocateNamed env i) := h.allocateNamed
  rw [onConnect]
  refine Acts.ite (Acts.ite (acts_smsRelease env s i) (Acts.ite ?_ ?_)) (.inl h)
  · exact (((h1.releaseOthers p).cdSetPipe hp).dss1L3TxMessage _ _).acts
      (acts_eventConnectAck env _ i)
  · exact h1.acts (acts_noChannelAvailable env _ i)

/-! ## Events of incoming calls -/

theorem Keeps.answerSetup (env : Env) (h : Keeps ok i r s) (wantDialtone : Bool) :
    Keeps ok i r (s.answerSetup env i wantDialtone) := by
  rw [Cntl.answerSetup]
  exact Keeps.ite ((h.dss1L3TxMessage _ _).cdSetState (by decide))
    ((h.dss1L3TxMessage _ _).cdSetState (by decide))

theorem Keeps.linkDialtone (h : Keeps ok i r s) (wantDialtone : Bool) :
    Keeps ok i r (s.linkDialtone i wantDialtone) := by
  rw [Cntl.linkDialtone]
  exact Keeps.ite ((h.modify ⟨rfl, rfl, id, id, id⟩).i4bLinkBchandrvr true) h

/-- What nothing else than an offer changes is as it was before, when nothing else is done. -/
theorem Offers.keeps {u : Cntl n} (h : Offers ok env i s t) (h' : Keeps ok i t u) : Offers ok env i s u := by
  obtain ⟨k, hk⟩ := h.count
  exact ⟨h.toTouches.trans h'.toTouches, h'.holder.trans h.holder, h.told.mono h'.out,
    ⟨k, h'.count.trans hk⟩, fun hc => h'.calm (h.calm hc)⟩

theorem offers_i4bL4ConnectInd (env : Env) (s : Cntl n) (i : Fin n) :
    Offers ok env i s (s.i4bL4ConnectInd env i) := by
  have hq : Quiet i s (s.i4bL4ConnectInd env i) := by
    rw [i4bL4ConnectInd, tell]
    exact ((Quiet.refl.put _).ask).modify _
  have hcd : (s.i4bL4ConnectInd env i).cd i
      = { s.cd i with connectIndCount := env.copies s.asks % 2 ^ 16 } := by
    rw [i4bL4ConnectInd, modify_cd_self]
    rfl
  refine ⟨hq.toTouches, by rw [hcd]; rfl, ?_, ⟨s.asks, by rw [hcd]⟩, ?_⟩
  · exact (told_tell s i .connect).mono (by rw [i4bL4ConnectInd]; exact List.prefix_rfl)
  · intro hc
    refine ⟨hc.ok, hq.halted.trans hc.halted, ?_, ?_, ?_⟩
    · rw [hcd]
      exact hc.pipe
    · rw [hcd]
      exact hc.causeIn
    · rw [hcd]
      exact hc.causeOut

/-- If nobody wants the call, it ends. -/
theorem offerCall_cases (env : Env) (s : Cntl n) (i : Fin n) :
    Offers ok env i s (s.offerCall env i) ∨ Ends ok i s (s.offerCall env i) := by
  have h : Offers ok env i s (s.i4bL4ConnectInd env i) := offers_i4bL4ConnectInd env s i
  rw [offerCall]
  split
  · refine (acts_smsRelease env _ i).imp h.keeps ?_
    intro h'
    obtain ⟨cause, ht⟩ := h'.told
    exact ⟨h.toTouches.trans h'.toTouches, h'.free, ⟨cause, ht.after h.out h.holder⟩,
      fun hc => h'.calm (h.calm hc)⟩
  · exact .inl h

/-- SETUP: the call is offered, or it ends. -/
theorem onSetup_cases (env : Env) (s : Cntl n) (i : Fin n) :
    Acts ok i s (s.onSetup env i) ∨ Offers ok env i s (s.onSetup env i) := by
  have h1 : Keeps ok i s (s.modify i fun cd =>
      { cd with needRelease := cd.needRelease || s.ntMode || s.pointToPoint }) :=
    Keeps.refl.modify ⟨rfl, rfl, id, id, id⟩
  have h2 := h1.cdAllocateChannel env
  rw [onSetup]
  split
  · dsimp only
    split
    · have h3 := (h2.answerSetup env (s.ntMode && !s.noLayer1Dialtone &&
        ((s.cd i).channelBprot == bprotNone || (s.cd i).channelBprot == bprotNone31Khz))).linkDialtone
        (s.ntMode && !s.noLayer1Dialtone &&
          ((s.cd i).channelBprot == bprotNone || (s.cd i).channelBprot == bprotNone31Khz))
      exact (offerCall_cases env _ i).symm.imp (fun h => .inr (h3.ends h)) (fun h => h3.offers h)
    · exact .inl (h2.acts (acts_noChannelAvailable env _ i))
  · exact .inl (.inl .refl)

theorem Keeps.onProceedingrq (h : Keeps ok i r s) : Keeps ok i r (s.onProceedingrq env i) := by
  rw [Cntl.onProceedingrq]
  exact Keeps.ite ((h.dss1L3TxMessage _ _).cdSetState (by decide)) h

theorem Keeps.proceedFirst (h : Keeps ok i r s) : Keeps ok i r (s.proceedFirst env i) := by
  rw [Cntl.proceedFirst]
  exact Keeps.ite (h.dss1L3TxMessage _ _) h

theorem acts_onAlertrq (env : Env) (s : Cntl n) (i : Fin n) : Acts ok i s (s.onAlertrq env i) := by
  have h : Keeps ok i s s := .refl
  rw [onAlertrq]
  exact Acts.ite ((acts_smsRelease env s i).ite
    (.inl ((h.proceedFirst.dss1L3TxMessage _ _).cdSetState (by decide)))) (.inl h)

theorem Keeps.onProgressrq (h : Keeps ok i r s) : Keeps ok i r (s.onProgressrq env i) := by
  rw [Cntl.onProgressrq]
  exact Keeps.ite (h.dss1L3TxMessage _ _) h

theorem acts_onSetacrs (env : Env) (s : Cntl n) (i : Fin n) : Acts ok i s (s.onSetacrs env i) := by
  have h : Keeps ok i s s := .refl
  have h1 : Keeps ok i s ((s.proceedFirst env i).dss1L3TxConnect env i s.ntMode) :=
    h.proceedFirst.dss1L3TxMessage _ _
  rw [onSetacrs]
  generalize (s.proceedFirst env i).dss1L3TxConnect env i s.ntMode = m at h1
  have h2 : Keeps ok i s ((m.modify i fun cd =>
      { cd with causeOut := 0, needRelease := true }).cdSetState env i .u8) :=
    (h1.modify ⟨rfl, rfl, id, id, fun _ => (by decide : Handled 0)⟩).cdSetState (by decide)
  exact Acts.ite ((acts_smsRelease env s i).ite
    (Acts.ite (h2.acts (acts_eventConnectAck env _ i)) (.inl h2))) (.inl h)

/-! ## All events -/

/-- **An event lets the call go on with whom it belongs to, or ends it; only SETUP offers it.** -/
theorem acts_cdUpdate (env : Env) (s : Cntl n) (i : Fin n) (p : Option PipeNo) (e : Event)
    (hp : e = .connect → p ≠ none) :
    Acts ok i s (s.cdUpdate env i p e) ∨ e = .setup ∧ Offers ok env i s (s.cdUpdate env i p e) := by
  have h : Keeps ok i s s := .refl
  rw [cdUpdate.eq_def]
  by_cases hd : (if (s.cd i).dirIncoming then e.isLocalIncoming else e.isLocalOutgoing) = false
  · rw [if_pos hd]
    exact .inl (.inl h)
  · rw [if_neg hd]
    cases e with
    | setrjrs => exact .inl ((h.modify ⟨rfl, rfl, id, id, id⟩).acts (acts_cdSetState env _ i .u0))
    | disconnect =>
      exact .inl (Acts.ite (.inl ((h.tell _).cdSetState (by decide))) (.inl h))
    | release => exact .inl (acts_cdSetState env s i .u0)
    | statenq => exact .inl (.inl (h.txWithCause _ _ (by decide)))
    | status => exact .inl (.inl h.onStatus)
    | holdInd => exact .inl (.inl h.onHoldInd)
    | retrieveInd => exact .inl (.inl h.onRetrieveInd)
    | holdReq => exact .inl (.inl h.onHoldReq)
    | retrieveReq => exact .inl (.inl h.onRetrieveReq)
    | retrieveAck => exact .inl (.inl h.onRetrieveAck)
    | setuprq => exact .inl (.inl h.onSetuprq)
    | inforq => exact .inl (.inl h.onInforq)
    | setupak => exact .inl (.inl h.onSetupak)
    | callprc => exact .inl (.inl h.onCallprc)
    | progind => exact .inl (.inl h.onCallprc)
    | alert => exact .inl (acts_onAlert env s i)
    | connect => exact .inl (acts_onConnect env s i (hp rfl))
    | setup => exact (onSetup_cases env s i).imp_right fun h => ⟨rfl, h⟩
    | info => exact .inl (.inl h.onInfo)
    | facility => exact .inl (.inl h.onInfo)
    | restartInd => exact .inl (.inl h.onInfo)
    | restartAck => exact .inl (.inl h.onInfo)
    | proceedingrq => exact .inl (.inl h.onProceedingrq)
    | alertrq => exact .inl (acts_onAlertrq env s i)
    | progressrq => exact .inl (.inl h.onProgressrq)
    | setacrs => exact .inl (acts_onSetacrs env s i)
    | conack => exact .inl (Acts.ite (acts_eventConnectAck env s i) (.inl h))
    | deflectrq => exact .inl (.inl (h.ite (h.dss1L3TxMessage _ _)))
    | mcidrq => exact .inl (.inl (h.ite (h.dss1L3TxMessage _ _)))
    | ill => exact .inl (.inl h)

/-- The same for events that are not messages. -/
theorem acts_request (env : Env) (s : Cntl n) (i : Fin n) {e : Event} (hc : e ≠ .connect)
    (hs : e ≠ .setup) : Acts ok i s (s.cdUpdate env i none e) :=
  (acts_cdUpdate env s i none e fun h => absurd h hc).resolve_right fun h => hs h.1

end Cntl

end L3
end Isdn4bsd
