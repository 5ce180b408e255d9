import Isdn4bsd.L3.Actions

/-!
# Layer 3: B channels

Which channel is used by which call is written down twice: in the descriptor of the call, and as a bit of
`N_channel_utilization`.

* `Line.Exclusive`: a channel is marked as used exactly when it is the D channel or a call has it,
  and then only one call does.  It holds of every reachable state (`Reach.channel_exclusive`).
* `Line.HoldOk`: a call on hold has no channel.  Messages and requests that look for a channel do not
  ask whether the call is on hold, so this holds only in runs in which no such message meets a call
  on hold (`ReachBy.held_has_no_channel`).

## Exclusive use

Only two changes of a line touch the bits: a channel that was free is taken, and the channel of a call is
given back.  Both are about one call and one channel, and all others leave the bits and the channels of
all calls alone (`SameChannels`).  A call may also "have" a channel that is none, `CHAN_NOT_ANY`, where the
other end wants a call without one; it counts as allocated and has no bit.

## Calls on hold

When a call is put on hold its channel is given back, and when it is retrieved one is looked for again.  In
between, CALL PROCEEDING, ALERT or CONNECT with a channel identification makes `cd_update` allocate the
channel just the same, for instance if the hold was asked for while the call was being set up:
`held_call_takes_channel` is such a run, of an outgoing call of a terminal.
-/

set_option autoImplicit false

namespace Isdn4bsd
namespace L3

namespace Line

variable {n : Nat} {b : Permit}

/-! ## Exclusive use -/

/-- The call has the channel. -/
def Holds (l : Line n) (i : Fin n) (c : Nat) : Prop :=
  (l.cd i).channelAllocated = true ∧ (l.cd i).channelId = c

/-- The bits of `N_channel_utilization` say which channels are in use. -/
structure Exclusive (l : Line n) : Prop where
  d1 : l.utilization 0 = true
  /-- A call has a B channel that is marked, or is to have none. -/
  held : ∀ i, (l.cd i).channelAllocated = true → (l.cd i).channelId = chanNotAny ∨
    ∃ c, 0 < c ∧ c < l.channelEnd ∧ l.utilization c = true ∧ (l.cd i).channelId = (c : Int)
  inj : ∀ i j c, l.Holds i c → l.Holds j c → i = j
  used : ∀ c, l.utilization c = true → c = 0 ∨ ∃ i, l.Holds i c

theorem Exclusive.holds_range {l : Line n} (h : l.Exclusive) {i : Fin n} {c : Nat}
    (hc : l.Holds i c) : 0 < c ∧ c < l.channelEnd ∧ l.utilization c = true := by
  rcases h.held i hc.1 with hn | ⟨d, h0, hd, hu, he⟩
  · rw [hc.2, chanNotAny] at hn
    omega
  · rw [hc.2] at he
    obtain rfl := Int.ofNat_inj.mp he
    exact ⟨h0, hd, hu⟩

/-- Nothing that has to do with channels was changed. -/
structure SameChannels (l l' : Line n) : Prop where
  utilization : l'.utilization = l.utilization
  channelEnd : l'.channelEnd = l.channelEnd
  allocated : ∀ i, (l'.cd i).channelAllocated = (l.cd i).channelAllocated
  channelId : ∀ i, (l.cd i).channelAllocated = true → (l'.cd i).channelId = (l.cd i).channelId

theorem SameChannels.holds {l l' : Line n} (h : SameChannels l l') {i : Fin n} {c : Nat} :
    l'.Holds i c ↔ l.Holds i c := by
  rw [Holds, Holds, h.allocated i]
  constructor
  · rintro ⟨ha, hc⟩
    exact ⟨ha, (h.channelId i ha).symm.trans hc⟩
  · rintro ⟨ha, hc⟩
    exact ⟨ha, (h.channelId i ha).trans hc⟩

theorem Exclusive.of_same {l l' : Line n} (h : l.Exclusive) (hs : SameChannels l l') :
    l'.Exclusive where
  d1 := by rw [hs.utilization]; exact h.d1
  held := by
    intro i ha
    rw [hs.allocated i] at ha
    rw [hs.utilization, hs.channelEnd, hs.channelId i ha]
    exact h.held i ha
  inj := fun i j c hi hj => h.inj i j c (hs.holds.mp hi) (hs.holds.mp hj)
  used := by
    intro c hc
    rw [hs.utilization] at hc
    exact (h.used c hc).imp_right fun ⟨i, hi⟩ => ⟨i, hs.holds.mpr hi⟩

/-- One call was changed, but not its channel. -/
theorem sameChannels_set {l m : Line n} {i : Fin n} {c : Call} (hcd : m.cd = l.cd)
    (hu : m.utilization = l.utilization) (he : m.channelEnd = l.channelEnd)
    (ha : c.channelAllocated = (l.cd i).channelAllocated)
    (hc : (l.cd i).channelAllocated = true → c.channelId = (l.cd i).channelId) :
    SameChannels l (m.set i c) := by
  refine ⟨hu, he, ?_, ?_⟩
  · intro j
    by_cases hj : j = i
    · subst hj
      rw [set_cd_self, ha]
    · rw [set_cd_of_ne m c hj, hcd]
  · intro j haj
    by_cases hj : j = i
    · subst hj
      rw [set_cd_self]
      exact hc haj
    · rw [set_cd_of_ne m c hj, hcd]

@[simp] theorem bump_utilization (l : Line n) (p : L2.PipeNo) :
    (l.bump p).utilization = l.utilization := by
  rw [bump, unref, ref]

@[simp] theorem join_utilization (l : Line n) (p : L2.PipeNo) (paused : Bool) :
    (l.join p paused).utilization = l.utilization := by
  rw [join]
  split
  · rw [bump_utilization, up, ref]
  · rw [up, ref]

@[simp] theorem leave_utilization (l : Line n) (o : Option L2.PipeNo) :
    (l.leave o).utilization = l.utilization := by
  cases o with
  | none => rfl
  | some p => rw [leave, down, unref]

theorem giveBack_utilization (l : Line n) (c : Call) :
    (l.giveBack c).utilization
      = if c.channelAllocated = true ∧ 0 ≤ c.channelId ∧ c.channelId < l.channelEnd then
          Function.update l.utilization c.channelId.toNat false
        else l.utilization := by
  rw [giveBack]
  split
  · rfl
  · rfl

theorem holds_set_of_ne {l m : Line n} {i j : Fin n} {c : Call} {d : Nat} (hcd : m.cd = l.cd)
    (hj : j ≠ i) : (m.set i c).Holds j d ↔ l.Holds j d := by
  rw [Holds, Holds, set_cd_of_ne m c hj, hcd]

/-- A channel is taken that was free. -/
theorem Exclusive.take {l : Line n} (h : l.Exclusive) {i : Fin n} {c : Nat}
    (hn : (l.cd i).channelAllocated = false) (hc : c < l.channelEnd)
    (hfree : l.utilization c = false) : (l.take i c).Exclusive := by
  have hu : ∀ d, (l.take i c).utilization d = (decide (d = c) || l.utilization d) := by
    intro d
    rw [Line.take]
    change Function.update l.utilization c true d = _
    by_cases hd : d = c
    · subst hd
      rw [Function.update_self, decide_eq_true rfl, Bool.true_or]
    · rw [Function.update_of_ne hd, decide_eq_false hd, Bool.false_or]
  have hi : ∀ d, (l.take i c).Holds i d ↔ d = c := by
    intro d
    rw [Holds, Line.take, set_cd_self]
    exact ⟨fun hd => (Int.ofNat_inj.mp hd.2).symm, fun hd => ⟨rfl, congrArg Nat.cast hd.symm⟩⟩
  have hne : ∀ j d, j ≠ i → ((l.take i c).Holds j d ↔ l.Holds j d) :=
    fun j d hj => holds_set_of_ne rfl hj
  have hno : ∀ d, ¬ l.Holds i d := by
    intro d hd
    rw [Holds, hn] at hd
    cases hd.1
  -- a call that has the channel now is the one that took it
  have howner : ∀ j, l.Holds j c → False := by
    intro j hj
    have := (h.holds_range hj).2.2
    rw [hfree] at this
    cases this
  refine ⟨?_, ?_, ?_, ?_⟩
  · rw [hu, h.d1, Bool.or_true]
  · intro j ha
    by_cases hj : j = i
    · subst hj
      have hc0 : 0 < c := by
        refine Nat.pos_of_ne_zero ?_
        rintro rfl
        rw [h.d1] at hfree
        cases hfree
      refine .inr ⟨c, hc0, hc, by rw [hu, decide_eq_true rfl, Bool.true_or], ?_⟩
      rw [Line.take, set_cd_self]
    · rw [Line.take, set_cd_of_ne _ _ hj] at ha ⊢
      refine (h.held j ha).imp_right ?_
      rintro ⟨d, h0, hd, hud, he⟩
      exact ⟨d, h0, hd, by rw [← Line.take, hu, hud, Bool.or_true], he⟩
  · intro j k d hj hk
    by_cases hji : j = i
    · by_cases hki : k = i
      · rw [hji, hki]
      · rw [hji, hi] at hj
        subst hj
        exact (howner k ((hne k d hki).mp hk)).elim
    · by_cases hki : k = i
      · rw [hki, hi] at hk
        subst hk
        exact (howner j ((hne j d hji).mp hj)).elim
      · exact h.inj j k d ((hne j d hji).mp hj) ((hne k d hki).mp hk)
  · intro d hd
    by_cases hdc : d = c
    · exact .inr ⟨i, (hi d).mpr hdc⟩
    · rw [hu, decide_eq_false hdc, Bool.false_or] at hd
      refine (h.used d hd).imp_right ?_
      rintro ⟨j, hj⟩
      have hji : j ≠ i := by
        rintro rfl
        exact hno d hj
      exact ⟨j, (hne j d hji).mpr hj⟩

/-- The channel of a call is given back. -/
theorem Exclusive.giveBack {l m : Line n} (h : l.Exclusive) {i : Fin n} {c : Call}
    (hcd : m.cd = l.cd) (hu : m.utilization = (l.giveBack (l.cd i)).utilization)
    (he : m.channelEnd = l.channelEnd) (ha : c.channelAllocated = false) :
    (m.set i c).Exclusive := by
  -- the bits that are left are those of channels the call does not have
  have hbit : ∀ d, m.utilization d = true ↔ l.utilization d = true ∧ ¬ l.Holds i d := by
    intro d
    rw [hu, Line.giveBack]
    split
    · rename_i hc
      change Function.update l.utilization _ false d = true ↔ _
      by_cases hd : d = (l.cd i).channelId.toNat
      · subst hd
        rw [Function.update_self]
        refine ⟨fun hf => absurd hf Bool.false_ne_true, fun hn => absurd ⟨hc.1, ?_⟩ hn.2⟩
        exact (Int.toNat_of_nonneg hc.2.1).symm
      · rw [Function.update_of_ne hd]
        refine ⟨fun hd' => ⟨hd', fun hh => hd ?_⟩, fun hn => hn.1⟩
        rw [hh.2, Int.toNat_natCast]
    · rename_i hc
      refine ⟨fun hd => ⟨hd, fun hh => hc ?_⟩, fun hn => hn.1⟩
      have hr := h.holds_range hh
      refine ⟨hh.1, ?_, ?_⟩
      · rw [hh.2]
        exact Int.natCast_nonneg d
      · rw [hh.2]
        exact Int.ofNat_lt.mpr hr.2.1
  have hno : ∀ d, ¬ (m.set i c).Holds i d := by
    intro d hd
    rw [Holds, set_cd_self, ha] at hd
    cases hd.1
  have hne : ∀ j d, j ≠ i → ((m.set i c).Holds j d ↔ l.Holds j d) :=
    fun j d hj => holds_set_of_ne hcd hj
  have hni : ∀ j d, (m.set i c).Holds j d → j ≠ i := by
    rintro j d hj rfl
    exact hno d hj
  refine ⟨?_, ?_, ?_, ?_⟩
  · exact (hbit 0).mpr ⟨h.d1, fun hh => absurd (h.holds_range hh).1 (lt_irrefl 0)⟩
  · intro j haj
    by_cases hj : j = i
    · subst hj
      rw [set_cd_self, ha] at haj
      cases haj
    · rw [set_cd_of_ne m c hj, hcd] at haj ⊢
      refine (h.held j haj).imp_right ?_
      rintro ⟨d, h0, hd, hud, hid⟩
      refine ⟨d, h0, lt_of_lt_of_eq hd he.symm, (hbit d).mpr ⟨hud, fun hh => hj ?_⟩, hid⟩
      exact h.inj j i d ⟨haj, hid⟩ hh
  · intro j k d hj hk
    exact h.inj j k d ((hne j d (hni j d hj)).mp hj) ((hne k d (hni k d hk)).mp hk)
  · intro d hd
    obtain ⟨hud, hnh⟩ := (hbit d).mp hd
    refine (h.used d hud).imp_right ?_
    rintro ⟨j, hj⟩
    have hji : j ≠ i := by
      rintro rfl
      exact hnh hj
    exact ⟨j, (hne j d hji).mpr hj⟩

/-- A call that is to have no channel counts as having one. -/
theorem Exclusive.takeNone {l : Line n} (h : l.Exclusive) {i : Fin n}
    (hn : (l.cd i).channelAllocated = false) (hc : (l.cd i).channelId = chanNotAny) :
    (l.set i { l.cd i with channelAllocated := true }).Exclusive := by
  have hno : ∀ d, ¬ (l.set i { l.cd i with channelAllocated := true }).Holds i d := by
    intro d hd
    rw [Holds, set_cd_self] at hd
    have hid : (l.cd i).channelId = d := hd.2
    rw [hc, chanNotAny] at hid
    omega
  have hni : ∀ j d, (l.set i { l.cd i with channelAllocated := true }).Holds j d → j ≠ i := by
    rintro j d hj rfl
    exact hno d hj
  have hne : ∀ j d, j ≠ i →
      ((l.set i { l.cd i with channelAllocated := true }).Holds j d ↔ l.Holds j d) :=
    fun j d hj => holds_set_of_ne rfl hj
  refine ⟨h.d1, ?_, ?_, ?_⟩
  · intro j haj
    by_cases hj : j = i
    · subst hj
      rw [set_cd_self]
      exact .inl hc
    · rw [set_cd_of_ne _ _ hj] at haj ⊢
      exact h.held j haj
  · intro j k d hj hk
    exact h.inj j k d ((hne j d (hni j d hj)).mp hj) ((hne k d (hni k d hk)).mp hk)
  · intro d hd
    refine (h.used d hd).imp_right ?_
    rintro ⟨j, hj⟩
    have hji : j ≠ i := by
      rintro rfl
      rw [Holds, hn] at hj
      cases hj.1
    exact ⟨j, (hne j d hji).mpr hj⟩

theorem Step.exclusive {l l' : Line n} (h : Step b l l') (he : l.Exclusive) : l'.Exclusive := by
  cases h with
  | bump p =>
    refine he.of_same ⟨bump_utilization l p, (sameSetting_bump l p).channelEnd, ?_, ?_⟩
    · intro i
      rw [bump_cd]
    · intro i _
      rw [bump_cd]
  | name i c h => exact he.of_same (sameChannels_set rfl rfl rfl rfl (by rw [h]; exact nofun))
  | take i c ha h hc hfree hb => exact he.take h hc hfree
  | takeNone i ha h hc hb => exact he.takeNone h hc
  | give i =>
    exact he.giveBack (giveBack_cd l _) rfl (sameSetting_giveBack l _).channelEnd rfl
  | move i p paused ha hd =>
    refine he.of_same (sameChannels_set ?_ ?_ ?_ rfl (fun _ => rfl))
    · rw [leave_cd, join_cd]
    · rw [leave_utilization, join_utilization]
    · exact ((sameSetting_join l p paused).trans (sameSetting_leave _ _)).channelEnd
  | free i last causeIn causeOut ha =>
    refine he.giveBack ?_ ?_ ?_ rfl
    · rw [giveBack_cd, leave_cd]
    · rw [giveBack_utilization, giveBack_utilization, leave_utilization,
        (sameSetting_leave l _).channelEnd]
    · exact ((sameSetting_leave l _).trans (sameSetting_giveBack _ _)).channelEnd
  | holdInd i h hn => exact he.of_same (sameChannels_set rfl rfl rfl rfl (fun _ => rfl))
  | holdReq i h => exact he.of_same (sameChannels_set rfl rfl rfl rfl (fun _ => rfl))
  | unhold i => exact he.of_same (sameChannels_set rfl rfl rfl rfl (fun _ => rfl))
  | retrieveReq i hn => exact he.of_same (sameChannels_set rfl rfl rfl rfl (fun _ => rfl))
  | retrieveAck i => exact he.of_same (sameChannels_set rfl rfl rfl rfl (fun _ => rfl))
  | causeIn i cause h => exact he.of_same (sameChannels_set rfl rfl rfl rfl (fun _ => rfl))
  | causeOut i cause h => exact he.of_same (sameChannels_set rfl rfl rfl rfl (fun _ => rfl))
  | count i h => exact he.of_same (sameChannels_set rfl rfl rfl rfl (fun _ => rfl))
  | enter i new ha hf ho => exact he.of_same (sameChannels_set rfl rfl rfl rfl (fun _ => rfl))

/-- A descriptor that is allocated has no channel, before and after. -/
theorem Begin.exclusive {l l' : Line n} (h : Begin l l') (ht : l.Tidy) (he : l.Exclusive) :
    l'.Exclusive := by
  have hset : ∀ (m : Line n) (i : Fin n) (c : Call), m.cd = l.cd →
      m.utilization = l.utilization → m.channelEnd = l.channelEnd → ¬ (l.cd i).Allocated →
      c.channelAllocated = false → (m.set i c).Exclusive := by
    intro m i c hm hu hend hi hc
    have hno := ((ht i).freed hi).1
    exact he.of_same (sameChannels_set hm hu hend (hc.trans hno.symm) (by rw [hno]; exact nofun))
  cases h with
  | none => exact he
  | clear i hi => exact hset l i _ rfl rfl rfl hi rfl
  | dial i cdid paused hcon hi hc =>
    exact hset _ i _ (join_cd l _ paused) (join_utilization l _ paused)
      (sameSetting_join l _ paused).channelEnd hi rfl
  | ring i cdid p paused cr hcon hi hc hcr hp hm =>
    exact hset _ i _ (join_cd l p paused) (join_utilization l p paused)
      (sameSetting_join l p paused).channelEnd hi rfl

theorem exclusive_attach (l : Line n) (nt ptp : Bool) : (l.attach nt ptp).Exclusive where
  d1 := rfl
  held := nofun
  inj := fun _ _ _ h => nomatch h.1
  used := fun _ hc => .inl (of_decide_eq_true hc)

/-! ## Calls on hold -/

/-- A call on hold has no channel, and is not being retrieved; only a terminal asks for that. -/
structure HoldOk (ntMode : Bool) (c : Call) : Prop where
  channel : c.callIsOnHold = true → c.channelAllocated = false
  retrieving : c.callIsOnHold = true → c.callIsRetrieving = false
  terminal : c.callIsRetrieving = true → ntMode = false

theorem holdOk_of_flags {ntMode : Bool} {c : Call} (h : c.callIsOnHold = false)
    (hr : c.callIsRetrieving = false) : HoldOk ntMode c := by
  refine ⟨?_, ?_, ?_⟩
  · rw [h]
    exact nofun
  · rw [h]
    exact nofun
  · rw [hr]
    exact nofun

/-- Where no channel is taken for a call on hold. -/
theorem Change.holdOk {l : Line n} (hb : b.onHold = false) {c c' : Call} (h : Change b l c c')
    (hc : HoldOk l.ntMode c) : HoldOk l.ntMode c' := by
  -- the call is not on hold when it gets a channel
  have hfree : b.onHold = true ∨ c.callIsOnHold = false → ∀ channel : Bool,
      c.callIsOnHold = true → channel = false := by
    intro h channel hh
    rw [hb, hh] at h
    rcases h with h | h <;> cases h
  cases h with
  | take channel ha hn hb' => exact ⟨hfree hb' true, hc.retrieving, hc.terminal⟩
  | takeNone ha hn hb' => exact ⟨hfree hb' true, hc.retrieving, hc.terminal⟩
  | holdInd hn hnt =>
    refine ⟨fun _ => hn, fun _ => ?_, hc.terminal⟩
    cases hr : c.callIsRetrieving with
    | false => rfl
    | true =>
      have := hc.terminal hr
      rw [hnt] at this
      cases this
  | holdReq hn => exact ⟨fun _ => hn, fun _ => rfl, nofun⟩
  | unhold => exact ⟨nofun, nofun, hc.terminal⟩
  | retrieveReq hnt => exact ⟨nofun, nofun, fun _ => hnt⟩
  | retrieveAck => exact ⟨hc.channel, fun _ => rfl, nofun⟩
  | give => exact ⟨fun _ => rfl, hc.retrieving, hc.terminal⟩
  | free last causeIn causeOut ha => exact ⟨fun _ => rfl, hc.retrieving, hc.terminal⟩
  | name channel hn => exact ⟨hc.channel, hc.retrieving, hc.terminal⟩
  | causeIn cause h => exact ⟨hc.channel, hc.retrieving, hc.terminal⟩
  | causeOut cause h => exact ⟨hc.channel, hc.retrieving, hc.terminal⟩
  | move p ha hd => exact ⟨hc.channel, hc.retrieving, hc.terminal⟩
  | count h => exact ⟨hc.channel, hc.retrieving, hc.terminal⟩
  | enter new ha hf ho => exact ⟨hc.channel, hc.retrieving, hc.terminal⟩

/-- All calls. -/
def HoldsOk (l : Line n) : Prop := ∀ i, HoldOk l.ntMode (l.cd i)

theorem Step.holdsOk {l l' : Line n} (hb : b.onHold = false) (h : Step b l l') (hl : l.HoldsOk) :
    l'.HoldsOk := by
  rw [HoldsOk, h.sameSetting.ntMode]
  exact h.forall_cd (fun _ _ hc => hc.holdOk hb) hl

theorem Begin.holdsOk {l l' : Line n} (h : Begin l l') (hl : l.HoldsOk) : l'.HoldsOk := by
  rw [HoldsOk, h.sameSetting.ntMode]
  exact h.forall_cd (holdOk_of_flags rfl rfl) (fun _ _ _ _ _ _ => holdOk_of_flags rfl rfl) hl

end Line

namespace Cntl

variable {n : Nat} {env : Env}

theorem Reach.exclusive {s : Cntl n} (h : Reach env s) : s.line.Exclusive := by
  have hall := (h.line_induction (motive := fun l : Line n => l.Tidy ∧ l.Exclusive)
    (fun l nt ptp => ⟨(good_attach l nt ptp).tidy, Line.exclusive_attach l nt ptp⟩)
    (fun l hm => ⟨hm.1, hm.2.d1, hm.2.held, hm.2.inj, hm.2.used⟩)
    (fun l l' hb hm => ⟨hb.tidy hm.1, hb.exclusive hm.1 hm.2⟩)
    (fun l l' hs hm => ⟨hs.tidy hm.1, hs.exclusive hm.2⟩)).2
  exact hall.2

/-- **A channel is marked in `N_channel_utilization` iff it is the D channel or exactly one call has
it; and a descriptor that is free has none.** -/
theorem Reach.channel_exclusive {s : Cntl n} (h : Reach env s) :
    (∀ c < s.channelEnd, s.utilization c = true ↔ (c : Int) = chanD1 ∨
      ∃! i, (s.cd i).Allocated ∧ (s.cd i).channelAllocated = true ∧ (s.cd i).channelId = c) ∧
    (∀ i, ¬ (s.cd i).Allocated → (s.cd i).channelAllocated = false) ∧
    (∀ i, (s.cd i).channelAllocated = true → (s.cd i).channelId ≠ chanD1) := by
  have he := h.exclusive
  have ht := h.good.tidy
  have halloc : ∀ i, (s.cd i).channelAllocated = true → (s.cd i).Allocated := by
    intro i hc
    by_contra hn
    rw [show (s.cd i).channelAllocated = false from ((ht i).freed hn).1] at hc
    cases hc
  refine ⟨?_, ?_, ?_⟩
  · intro c hc
    constructor
    · intro hu
      rcases he.used c hu with rfl | ⟨i, hi⟩
      · exact .inl rfl
      · refine .inr ⟨i, ⟨halloc i hi.1, hi⟩, ?_⟩
        intro j hj
        exact he.inj j i c hj.2 hi
    · rintro (h0 | ⟨i, hi, -⟩)
      · rw [chanD1] at h0
        obtain rfl : c = 0 := by omega
        exact he.d1
      · exact (he.holds_range hi.2).2.2
  · intro i hn
    exact ((ht i).freed hn).1
  · intro i ha h0
    have := (he.holds_range (i := i) (c := 0) ⟨ha, h0⟩).1
    exact absurd this (lt_irrefl 0)

/-- The controller after an incoming call on the first B channel. -/
theorem channel_exclusive_ringing :
    ∃ s : Cntl 2, s.utilization 1 = true ∧
      ∃! i, (s.cd i).Allocated ∧ (s.cd i).channelAllocated = true ∧ (s.cd i).channelId = (1 : Nat) := by
  have h : (((fresh false true : Cntl 2).run plain
      [.dataInd 0 [0x08, 0x01, 0x05, 0x05, 0x18, 0x01, 0x89] false]).bind fun s =>
        some (decide (s.utilization 1 = true ∧ 1 < s.channelEnd))) = some true := by decide
  obtain ⟨s, hs, h⟩ := Option.bind_eq_some_iff.mp h
  obtain ⟨hu, hc⟩ := of_decide_eq_true (Option.some.inj h)
  have hx := Reach.channel_exclusive ((reach_fresh plain false true).run hs)
  exact ⟨s, hu, ((hx.1 1 hc).mp hu).resolve_left (by decide)⟩

/-! ## Calls on hold -/

/-- **In a run in which no message or request makes the controller look for a channel for a call that
is on hold, calls on hold have no channel.** -/
theorem ReachBy.held_has_no_channel {s : Cntl n} (h : ReachBy env (HoldSafe env) s) {i : Fin n}
    (hh : (s.cd i).callIsOnHold = true) : (s.cd i).channelAllocated = false := by
  have hall := (h.line_induction (b := ⟨false, true⟩) (motive := Line.HoldsOk)
    (fun s a hm hok => ⟨.inr ⟨hok, fun i => (hm i).retrieving⟩, .inl rfl⟩)
    (fun _ _ _ _ _ _ => Line.holdOk_of_flags rfl rfl)
    (fun _ _ _ _ _ => Line.holdOk_of_flags rfl rfl)
    (fun s l' _ hm hs _ => hs.preserves (fun _ _ hs => hs.holdsOk rfl) hm)
    (fun _ _ hb => hb.holdsOk)
    (fun _ _ hs => hs.holdsOk rfl)).2
  exact (hall i).channel hh

/-- An application dials a number. -/
def dialRequest : Action 1 :=
  .capi 1 0 (.connect
    { cip := .speech, bc := [], dstTelno := [0x80, 0x31], srcTelno := [], srcTelno2 := [],
      dstSubaddr := [], srcSubaddr := [], keypad := [], userUser := [], display := [],
      bProtocol := none, wantLateInband := false, sendingComplete := false })

/-- What a terminal does to hold a call that it has dialled, and the messages of the network: SETUP
ACKNOWLEDGE and, after the HOLD, CALL PROCEEDING, both with the first B channel. -/
def holdWhileDialling : List (Action 1) :=
  [dialRequest,
    .dataInd 0 [0x08, 0x01, 0x81, 0x0d, 0x18, 0x01, 0x89] false,
    .capi 1 64 .hold,
    .dataInd 0 [0x08, 0x01, 0x81, 0x02, 0x18, 0x01, 0x89] false]

/-- Until the HOLD, all is well. -/
theorem held_has_no_channel_dialling :
    ∃ s : Cntl 1, (s.cd 0).callIsOnHold = true ∧ (s.cd 0).channelAllocated = false := by
  have h : (((fresh false true).step plain dialRequest).bind fun s =>
      (s.step plain (.dataInd 0 [0x08, 0x01, 0x81, 0x0d, 0x18, 0x01, 0x89] false)).bind fun t =>
      (t.step plain (.capi 1 64 .hold)).bind fun u =>
      some (decide ((∀ i, (s.cd i).callIsOnHold = false) ∧ (u.cd 0).callIsOnHold = true)))
        = some true := by decide
  obtain ⟨s, hs, h⟩ := Option.bind_eq_some_iff.mp h
  obtain ⟨t, ht, h⟩ := Option.bind_eq_some_iff.mp h
  obtain ⟨u, hu, h⟩ := Option.bind_eq_some_iff.mp h
  obtain ⟨hn, hh⟩ := of_decide_eq_true (Option.some.inj h)
  have h1 : ReachBy plain (HoldSafe plain) s := by
    refine .step (.start 0 3 0 false true false) ?_ hs
    intro i hi
    cases hi
  have h2 : ReachBy plain (HoldSafe plain) t := by
    refine .step h1 ?_ ht
    intro i _ hi
    rw [hn i] at hi
    cases hi
  have h3 : ReachBy plain (HoldSafe plain) u :=
    .step (a := .capi 1 64 .hold) h2 trivial hu
  exact ⟨u, hh, h3.held_has_no_channel hh⟩

/-- The call that is on hold has a channel again. -/
theorem held_call_takes_channel :
    ∃ s : Cntl 1, Reach plain s ∧ (s.cd 0).Allocated ∧ (s.cd 0).callIsOnHold = true ∧
      (s.cd 0).channelAllocated = true := by
  have h : (((fresh false true).run plain holdWhileDialling).bind fun s =>
      some (decide ((s.cd 0).Allocated ∧ (s.cd 0).callIsOnHold = true ∧
        (s.cd 0).channelAllocated = true))) = some true := by decide
  obtain ⟨s, hs, h⟩ := Option.bind_eq_some_iff.mp h
  exact ⟨s, (reach_fresh plain false true).run hs, of_decide_eq_true (Option.some.inj h)⟩

end Cntl

end L3
end Isdn4bsd
