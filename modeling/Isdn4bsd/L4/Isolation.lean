import Isdn4bsd.L3.Ownership

/-!
# CAPI applications among each other

A CAPI message names a call by its PLCI, and `capi_write` lets an application use a call only if it
is its own, or nobody's yet.  The requests of the line interconnect name a second call, in a list
inside of a parameter, which may be on another controller; nobody asks whose call that is.

* `World`: all controllers; `World.write` : what a message of an application does to them.
* `write_isolates_iff`: **the calls of other applications are left as they are, if and only if the
  message does not connect a foreign call that has no partner, or disconnect one from its partner.**
* `foreign_bridged`: such a message.

## What isolation means

`View` is what others must leave alone: whose call it is, its state, its channel, its partner and the data of the
line interconnect.  A message of one application may have effects beyond its own call that are no
trespass: a SETUP may be sent once more for another call on the same pipe, and a call that was offered to all is
over for the others when one adopts it.  The first is not in the view, and the second is about a call that is
nobody's.

That a message for one call leaves the others alone comes from `Isdn4bsd.L3.Ownership`, where every command is
an adoption and an event of that call (`Commands`).  What remains are the two requests with a second call:
`isolates_otherEnd_iff` says for each when the other end keeps its view, by what the two functions test, which is
the partner that is written in the descriptors.
-/

set_option autoImplicit false

namespace Isdn4bsd
namespace Isolation

open L3 L3.Cntl

/-! ## Messages -/

/-- `CAPI_ID2CONTROLLER` -/
def capiId2Controller (cid : Nat) : Nat := cid &&& 0x7f

/-- `CAPI_ID2CDID` -/
def capiId2Cdid (cid : Nat) : Nat :=
  (cid % maxControllers) ||| ((cid >>> 8 &&& 0xff) * maxControllers)

/-- `CNTL_FIND` -/
def cntlFind (unit : Nat) : Fin maxControllers := ⟨unit % maxControllers, Nat.mod_lt _ (by decide)⟩

/-- A message for a PLCI, as `capi_decode` reads it.  Of the participants of a line interconnect
only the first one is read. -/
inductive Message where
  | request (r : CapiRequest)
  | liConnect (dwDataPath dwCid : Nat)
  | liDisconnect (dwCid : Nat)
  /-- DATA_B3, LISTEN, RESET_B3 and MANUFACTURER requests, what is asked about services, DTMF and
  echo cancellation, and all other responses: nothing in a call descriptor is changed. -/
  | other

/-- All controllers. -/
abbrev World (size : Fin maxControllers → Nat) := (c : Fin maxControllers) → Cntl (size c)

namespace World

variable {size : Fin maxControllers → Nat}

def set (W : World size) (c : Fin maxControllers) (s : Cntl (size c)) : World size :=
  Function.update W c s

/-- The call that a message is for, if the application may use it. -/
def primary (W : World size) (sc dwCid : Nat) :
    Option (Fin (size (cntlFind (capiId2Controller dwCid)))) :=
  let s := W (cntlFind (capiId2Controller dwCid))
  if s.connected then (s.cdByCdid (capiId2Cdid dwCid)).filter fun i => s.Owns i .capi sc else none

/-- The other end of a bridge, whoever it belongs to. -/
def otherEnd (W : World size) (dwCid : Nat) (f : {n : Nat} → Cntl n → Fin n → Cntl n) :
    World size :=
  let c := cntlFind (capiId2Controller dwCid)
  match (W c).cdByCdid (capiId2Cdid dwCid) with
  | some i => W.set c (f (W c) i)
  | none => W

/-- `capi_write` for all controllers. -/
def capiWrite (env : Env) (W : World size) (sc dwCid : Nat) : Message → World size
  | .request r =>
    let c := cntlFind (capiId2Controller dwCid)
    if (W c).connected then W.set c ((W c).capiWrite env sc (capiId2Cdid dwCid) r) else W
  | .liConnect dwDataPath part =>
    let c := cntlFind (capiId2Controller dwCid)
    match W.primary sc dwCid with
    | some i =>
      if dwDataPath ≠ 0 then W
      else
        (W.set c ((W c).capiConnectBridge env i sc (capiId2Cdid part))).otherEnd part
          fun s j => s.capiConnectBridge env j sc (capiId2Cdid dwCid)
    | none => W
  | .liDisconnect part =>
    let c := cntlFind (capiId2Controller dwCid)
    match W.primary sc dwCid with
    | some i =>
      (W.set c ((W c).capiDisconnectBridge i sc (capiId2Cdid part))).otherEnd part
        fun s j => s.capiDisconnectBridge j sc (capiId2Cdid dwCid)
    | none => W
  | .other => W

/-- There is nothing after a panic. -/
def write (env : Env) (W : World size) (sc dwCid : Nat) (m : Message) : Option (World size) :=
  let W' := W.capiWrite env sc dwCid m
  if ∀ c, (W' c).halted = false then some W' else none

/-- What happens to one controller, other than by a message of CAPI. -/
def Internal {n : Nat} : Action n → Prop
  | .capi .. | .bridge .. | .unbridge .. => False
  | _ => True

/-- The states of all controllers, from the attachment of them all on. -/
inductive Reached (env : Env) : World size → Prop where
  | start {W : World size}
      (h : ∀ c, ∃ unit channelEnd cdidCount ntMode pointToPoint primaryRate,
        W c = (boot unit channelEnd cdidCount).attach ntMode pointToPoint primaryRate) :
      Reached env W
  | act {W : World size} {c : Fin maxControllers} {a : Action (size c)} {s : Cntl (size c)}
      (h : Reached env W) (ha : Internal a) (hs : (W c).step env a = some s) :
      Reached env (W.set c s)
  | write {W W' : World size} {sc dwCid : Nat} {m : Message} (h : Reached env W)
      (hw : W.write env sc dwCid m = some W') : Reached env W'

/-! ## Calls of others -/

/-- The call belongs to another application. -/
def Foreign (W : World size) (sc : Nat) (c : Fin maxControllers) (i : Fin (size c)) : Prop :=
  ((W c).cd i).Allocated ∧ ¬ (W c).Owns i .capi sc

/-- What others must leave alone: whose call it is, its state, its channel, its partner and the
data of the line interconnect. -/
structure View where
  cdid : Nat
  aiType : AiType
  aiPtr : Nat
  state : State
  channelId : Int
  channelAllocated : Bool
  liCdid : Nat
  liData : Bool

def view (cd : CallDesc) : View where
  cdid := cd.cdid
  aiType := cd.aiType
  aiPtr := cd.aiPtr
  state := cd.state
  channelId := cd.channelId
  channelAllocated := cd.channelAllocated
  liCdid := cd.liCdid
  liData := cd.liData

/-- The calls of others are as they were. -/
def Isolates (sc : Nat) (W W' : World size) : Prop :=
  ∀ c i, W.Foreign sc c i → view ((W' c).cd i) = view ((W c).cd i)

/-- The other end of a bridge is a call of another application, in this condition. -/
def Takes (W : World size) (sc dwCid : Nat) (P : CallDesc → Prop) : Prop :=
  ∃ j, (W (cntlFind (capiId2Controller dwCid))).cdByCdid (capiId2Cdid dwCid) = some j ∧
    W.Foreign sc (cntlFind (capiId2Controller dwCid)) j ∧
    P ((W (cntlFind (capiId2Controller dwCid))).cd j)

/-- The message is for a call that the application may use, and names a call of another one: to
connect it, as it has no partner, or to disconnect it from the first one, which is its partner. -/
def Trespasses (W : World size) (sc dwCid : Nat) : Message → Prop
  | .liConnect dwDataPath part =>
    (W.primary sc dwCid).isSome ∧ dwDataPath = 0 ∧
      W.Takes sc part fun cd => cd.liCdid = cdidUnused ∧ cd.liData = false
  | .liDisconnect part =>
    (W.primary sc dwCid).isSome ∧ W.Takes sc part fun cd => cd.liCdid = capiId2Cdid dwCid
  | _ => False

end World

variable {size : Fin maxControllers → Nat} {W W' : World size}

/-! ## What is spared -/

/-- At most the SETUP of calls of others is repeated. -/
def Spares (sc : Nat) (W W' : World size) : Prop :=
  ∀ c i, W.Foreign sc c i → Aside ((W c).cd i) ((W' c).cd i)

theorem Spares.refl (sc : Nat) : Spares sc W W := fun _ _ _ => .refl

theorem view_of_aside {cd cd' : CallDesc} (h : Aside cd cd') : World.view cd' = World.view cd := by
  obtain ⟨k, p, rfl⟩ := h
  rfl

theorem Spares.isolates {sc : Nat} (h : Spares sc W W') : World.Isolates sc W W' :=
  fun c i hi => view_of_aside (h c i hi)

/-- Whatever is done with a call that the application may use, or with a free descriptor. -/
theorem Spares.set {sc : Nat} (h : Spares sc W W') {c : Fin maxControllers} {i : Fin (size c)}
    {t : Cntl (size c)} (ht : Touches i (W' c) t) (hi : ¬ W.Foreign sc c i) :
    Spares sc W (W'.set c t) := by
  intro c' i' hf
  by_cases hc : c' = c
  · subst hc
    have hne : i' ≠ i := by
      rintro rfl
      exact hi hf
    rw [World.set, Function.update_self]
    exact (h c' i' hf).trans (ht.others i' hne)
  · rw [World.set, Function.update_of_ne hc]
    exact h c' i' hf

theorem set_eq_self (c : Fin maxControllers) : W.set c (W c) = W := Function.update_eq_self c W

/-! ## Messages for one call -/

/-- A message for a PLCI deals with the call that it is for, or with a new one. -/
theorem capiWrite_cases {n : Nat} (env : Env) (s : Cntl n) (sc cdid : Nat) (r : CapiRequest) :
    s.capiWrite env sc cdid r = s ∨
      ∃ i, (¬ (s.cd i).Allocated ∨ s.Owns i .capi sc) ∧
        Touches i s (s.capiWrite env sc cdid r) := by
  rw [capiWrite.eq_def]
  cases hi : s.cdByCdid cdid with
  | some i =>
    dsimp only
    split
    · rename_i hown
      refine .inr ⟨i, .inr hown, ?_⟩
      by_cases hr : r.Ignore
      · rcases refuses_capiCommand True env s i sc hr with
          ⟨-, heq⟩ | ⟨-, ⟨-, h⟩ | h⟩
        · rw [heq]
          exact .refl
        · exact h.touches
        · exact h.toTouches
      · exact (acts_capiCommand True env s i sc hr).touches
    · exact .inl rfl
  | none =>
    dsimp only
    split
    · rename_i r
      rcases nAllocateCd_effect env s none 0 .capi sc with
        ⟨t, ht, heq | ⟨i, hq, hs, -⟩⟩ | ⟨i, t, ht, hb⟩
      · rw [ht]
        exact .inl heq
      · rw [ht]
        exact .inr ⟨i, .inl hs, hq.toTouches⟩
      · rw [ht]
        exact .inr ⟨i, .inl hb.before,
          hb.toTouches.trans (acts_capiConnect True env t i sc r).touches⟩
    · exact .inl rfl

theorem not_foreign_of_owns {sc : Nat} {c : Fin maxControllers} {i : Fin (size c)}
    (h : ¬ ((W c).cd i).Allocated ∨ (W c).Owns i .capi sc) : ¬ W.Foreign sc c i := by
  rintro ⟨ha, hn⟩
  exact h.elim (fun h => h ha) hn

theorem spares_request (env : Env) (W : World size) (sc dwCid : Nat) (r : CapiRequest) :
    Spares sc W (W.capiWrite env sc dwCid (.request r)) := by
  rw [World.capiWrite]
  split
  · rcases capiWrite_cases env (W (cntlFind (capiId2Controller dwCid))) sc (capiId2Cdid dwCid) r
      with h | ⟨i, hi, ht⟩
    · rw [h, set_eq_self]
      exact .refl sc
    · exact (Spares.refl sc).set ht (not_foreign_of_owns hi)
  · exact .refl sc

/-! ## The two ends of a bridge -/

section Bridge

variable {n : Nat} (s : Cntl n) (i : Fin n)

theorem liCdid_unlinkBchandrvr : ((s.unlinkBchandrvr i).cd i).liCdid = (s.cd i).liCdid := by
  have h : ((s.modify i fun cd => { cd with bLinkWantActive := false }).cd i).liCdid
      = (s.cd i).liCdid := by rw [modify_cd_self]
  rw [Cntl.unlinkBchandrvr]
  split
  · exact h
  · exact h

theorem liCdid_i4bLinkBchandrvr (activate : Bool) :
    ((s.i4bLinkBchandrvr i activate).cd i).liCdid = (s.cd i).liCdid := by
  have h : (((s.unlinkBchandrvr i).modify i fun cd =>
      { cd with
        driverTypeCopy := cd.driverType
        driverUnitCopy := cd.driverUnit
        bLinkWantActive := true }).cd i).liCdid = (s.cd i).liCdid := by
    rw [modify_cd_self]
    exact liCdid_unlinkBchandrvr s i
  rw [Cntl.i4bLinkBchandrvr]
  split
  · dsimp only
    split
    · exact h
    · exact h
  · exact liCdid_unlinkBchandrvr s i

/-- A call without a partner gets one. -/
theorem liCdid_capiConnectBridge (env : Env) (sc : Nat) {dst : Nat} (hd : dst ≠ cdidUnused)
    (hf : (s.cd i).liCdid = cdidUnused ∧ (s.cd i).liData = false) :
    ((s.capiConnectBridge env i sc dst).cd i).liCdid = dst := by
  have h : (((s.adopt i .capi sc).modify i fun cd =>
      { cd with liCdid := dst, driverType := drvrCapiBridge, driverUnit := 0 }).cd i).liCdid
      = dst := by rw [modify_cd_self]
  rw [capiConnectBridge, if_pos ⟨hd, hf⟩]
  dsimp only
  split
  · rw [liCdid_i4bLinkBchandrvr, liAlloc, modify_cd_self]
    exact h
  · exact h

/-- A call loses its partner. -/
theorem liCdid_capiDisconnectBridge (sc : Nat) {dst : Nat} (hd : dst ≠ cdidUnused)
    (hf : (s.cd i).liCdid = dst) :
    ((s.capiDisconnectBridge i sc dst).cd i).liCdid = cdidUnused := by
  rw [capiDisconnectBridge, if_pos ⟨hd, hf⟩, liCdid_i4bLinkBchandrvr, modify_cd_self]

theorem cdByCdid_congr {s t : Cntl n} (h : t.line = s.line) (cdid : Nat) :
    t.cdByCdid cdid = s.cdByCdid cdid := by
  have hcd : ∀ j, (t.cd j).cdid = (s.cd j).cdid := fun j =>
    congrArg (fun c : Line n => (c.cd j).cdid) h
  rw [cdByCdid, cdByCdid]
  simp only [hcd]

end Bridge

/-- The other end of a bridge is spared, unless it is taken. -/
theorem isolates_otherEnd_iff {sc : Nat} (h : Spares sc W W') (hl : ∀ c, (W' c).line = (W c).line)
    (part : Nat) {P : CallDesc → Prop} (hP : ∀ {cd cd'}, Aside cd cd' → (P cd' ↔ P cd))
    {f : {n : Nat} → Cntl n → Fin n → Cntl n}
    (hf : ∀ {n : Nat} (s : Cntl n) (i : Fin n), Touches i s (f s i))
    (hskip : ∀ {n : Nat} (s : Cntl n) (i : Fin n), ¬ P (s.cd i) → f s i = s)
    (htake : ∀ {n : Nat} (s : Cntl n) (i : Fin n), P (s.cd i) →
      ((f s i).cd i).liCdid ≠ (s.cd i).liCdid) :
    World.Isolates sc W (W'.otherEnd part f) ↔ ¬ W.Takes sc part P := by
  have hcd := cdByCdid_congr (hl (cntlFind (capiId2Controller part))) (capiId2Cdid part)
  rw [World.otherEnd, hcd]
  cases hj : (W (cntlFind (capiId2Controller part))).cdByCdid (capiId2Cdid part) with
  | none =>
    refine ⟨fun _ => ?_, fun _ => h.isolates⟩
    rintro ⟨j, hj', -⟩
    rw [hj] at hj'
    cases hj'
  | some j =>
    dsimp only
    by_cases hfor : W.Foreign sc (cntlFind (capiId2Controller part)) j
    · have haside := h _ j hfor
      by_cases hp : P ((W (cntlFind (capiId2Controller part))).cd j)
      · -- it is taken
        refine ⟨fun hi => absurd ?_ (htake (W' (cntlFind (capiId2Controller part))) j
          ((hP haside).mpr hp)), fun hn => absurd ⟨j, hj, hfor, hp⟩ hn⟩
        have hv := congrArg World.View.liCdid ((hi _ j hfor).trans (view_of_aside haside).symm)
        rwa [World.set, Function.update_self] at hv
      · rw [hskip _ j fun h' => hp ((hP haside).mp h'), set_eq_self]
        refine ⟨fun _ => ?_, fun _ => h.isolates⟩
        rintro ⟨j', hj', -, hp'⟩
        obtain rfl : j = j' := Option.some.inj (hj.symm.trans hj')
        exact hp hp'
    · refine ⟨fun _ => ?_, fun _ => (h.set (hf _ j) hfor).isolates⟩
      rintro ⟨j', hj', hfor', -⟩
      obtain rfl : j = j' := Option.some.inj (hj.symm.trans hj')
      exact hfor hfor'

/-! ## The calls of others -/

theorem line_set (c : Fin maxControllers) {t : Cntl (size c)} (ht : t.line = (W c).line) :
    ∀ c', ((W.set c t) c').line = (W c').line := by
  intro c'
  by_cases hc : c' = c
  · subst hc
    rw [World.set, Function.update_self]
    exact ht
  · rw [World.set, Function.update_of_ne hc]

/-- The call that a message is for. -/
theorem primary_cases {sc dwCid : Nat} {i : Fin (size (cntlFind (capiId2Controller dwCid)))}
    (h : W.primary sc dwCid = some i) :
    capiId2Cdid dwCid ≠ cdidUnused ∧ ¬ W.Foreign sc (cntlFind (capiId2Controller dwCid)) i := by
  rw [World.primary] at h
  split at h
  · obtain ⟨hi, hown⟩ := Option.filter_eq_some_iff.mp h
    refine ⟨fun hd => ?_, not_foreign_of_owns (.inr (by simpa using hown))⟩
    rw [hd] at hi
    cases hi
  · cases h

theorem isolates_capiWrite_iff (env : Env) (W : World size) (sc dwCid : Nat) (m : Message) :
    World.Isolates sc W (W.capiWrite env sc dwCid m) ↔ ¬ W.Trespasses sc dwCid m := by
  cases m with
  | request r =>
    exact ⟨fun _ h => h, fun _ => (spares_request env W sc dwCid r).isolates⟩
  | liConnect dwDataPath part =>
    rw [World.capiWrite, World.Trespasses]
    cases hi : W.primary sc dwCid with
    | none => exact ⟨fun _ h => (by cases h.1), fun _ => (Spares.refl sc).isolates⟩
    | some i =>
      obtain ⟨hd, hfor⟩ := primary_cases hi
      dsimp only
      by_cases hp : dwDataPath = 0
      · rw [if_neg (not_not_intro hp)]
        have hs := (Spares.refl sc).set
          (commands_capiConnectBridge True env _ i sc (capiId2Cdid part)).touches hfor
        have ho := isolates_otherEnd_iff (P := fun cd => cd.liCdid = cdidUnused ∧ cd.liData = false)
          (f := fun s j => s.capiConnectBridge env j sc (capiId2Cdid dwCid)) hs
          (line_set _ (line_capiConnectBridge _ i sc _)) part
          (by rintro _ _ ⟨_, _, rfl⟩; rfl)
          (fun s j => (commands_capiConnectBridge True env s j sc _).touches)
          (fun s j hn => if_neg fun h => hn h.2)
          (fun s j h => by rw [liCdid_capiConnectBridge s j env sc hd h, h.1]; exact hd)
        rw [ho]
        exact not_congr ⟨fun h => ⟨rfl, hp, h⟩, fun h => h.2.2⟩
      · rw [if_pos hp]
        exact ⟨fun _ h => hp h.2.1, fun _ => (Spares.refl sc).isolates⟩
  | liDisconnect part =>
    rw [World.capiWrite, World.Trespasses]
    cases hi : W.primary sc dwCid with
    | none => exact ⟨fun _ h => (by cases h.1), fun _ => (Spares.refl sc).isolates⟩
    | some i =>
      obtain ⟨hd, hfor⟩ := primary_cases hi
      have hs := (Spares.refl sc).set
        (commands_capiDisconnectBridge True _ i sc (capiId2Cdid part)).touches hfor
      have ho := isolates_otherEnd_iff (P := fun cd => cd.liCdid = capiId2Cdid dwCid)
        (f := fun s j => s.capiDisconnectBridge j sc (capiId2Cdid dwCid)) hs
        (line_set _ (line_capiDisconnectBridge _ i sc _)) part
        (by rintro _ _ ⟨_, _, rfl⟩; rfl)
        (fun s j => (commands_capiDisconnectBridge True s j sc _).touches)
        (fun s j hn => if_neg fun h => hn h.2)
        (fun s j h => by rw [liCdid_capiDisconnectBridge s j sc hd h, h]; exact hd.symm)
      dsimp only
      rw [ho]
      exact not_congr ⟨fun h => ⟨rfl, h⟩, fun h => h.2⟩
  | other => exact ⟨fun _ h => h, fun _ => (Spares.refl sc).isolates⟩

/-- **The calls of other applications are left as they are, if and only if the message does not
connect a foreign call that has no partner, or disconnect one from its partner.** -/
theorem write_isolates_iff {env : Env} {sc dwCid : Nat} {m : Message}
    (h : W.write env sc dwCid m = some W') :
    World.Isolates sc W W' ↔ ¬ W.Trespasses sc dwCid m := by
  rw [World.write] at h
  split at h
  · rw [← Option.some.inj h]
    exact isolates_capiWrite_iff env W sc dwCid m
  · cases h

/-! ## Two applications -/

/-- Controllers with two call descriptors each. -/
abbrev Duo := World fun _ => 2

/-- The first controller. -/
abbrev first : Fin maxControllers := cntlFind 0

/-- Point-to-point controllers, just attached. -/
def fresh : Duo := fun c => (boot c 3 0).attach false true false

/-- An outgoing call. -/
def call : Message := .request (.connect
  { cip := .speech, bc := [], dstTelno := [], srcTelno := [], srcTelno2 := [], dstSubaddr := []
    srcSubaddr := [], keypad := [], userUser := [], display := [], bProtocol := none
    wantLateInband := false, sendingComplete := false })

/-- The first application places a call, and the second one. -/
def bothCall : Option Duo := (fresh.write plain 1 0 call).bind fun W => W.write plain 2 0 call

theorem reached_of_bothCall {W : Duo} (h : bothCall = some W) : World.Reached plain W := by
  obtain ⟨V, hV, hW⟩ := Option.bind_eq_some_iff.mp h
  exact ((World.Reached.start fun c => ⟨c, 3, 0, false, true, false, rfl⟩).write hV).write hW

/-- Each application may connect its own call to one of its own. -/
theorem write_isolates_own :
    ∃ W W' : Duo, W.Foreign 1 first (1 : Fin 2) ∧
      W.write plain 1 0x100 (.liConnect 0 0x100) = some W' ∧ World.Isolates 1 W W' := by
  have h : (bothCall.bind fun W => (W.write plain 1 0x100 (.liConnect 0 0x100)).bind fun _ =>
      some (decide (((W first).cd 1).Allocated ∧ ¬ (W first).Owns 1 .capi 1 ∧
        (W first).Owns 0 .capi 1 ∧ (W first).cdByCdid 64 = some 0))) = some true := by
    decide +kernel
  obtain ⟨W, hW, h⟩ := Option.bind_eq_some_iff.mp h
  obtain ⟨W', hW', h⟩ := Option.bind_eq_some_iff.mp h
  obtain ⟨ha, hn, hown, hi⟩ := of_decide_eq_true (Option.some.inj h)
  refine ⟨W, W', ⟨ha, hn⟩, hW', (write_isolates_iff hW').mpr ?_⟩
  rintro ⟨-, -, j, hj, hfor, -⟩
  obtain rfl : (0 : Fin 2) = j := Option.some.inj (hi.symm.trans hj)
  exact hfor.2 hown

/-- **The first application makes its call the partner of the call of the second one, which it may
not use.** -/
theorem foreign_bridged :
    ∃ W W' : Duo, World.Reached plain W ∧
      W.write plain 1 0x100 (.liConnect 0 0x200) = some W' ∧ W.Foreign 1 first (1 : Fin 2) ∧
      ((W first).cd 1).liCdid = cdidUnused ∧ ((W' first).cd 1).liCdid = 64 ∧
      ¬ World.Isolates 1 W W' := by
  have h : (bothCall.bind fun W => (W.write plain 1 0x100 (.liConnect 0 0x200)).bind fun W' =>
      some (decide (((W first).cd 1).Allocated ∧ ¬ (W first).Owns 1 .capi 1 ∧
        ((W first).cd 1).liCdid = cdidUnused ∧ ((W' first).cd 1).liCdid = 64))) = some true := by
    decide +kernel
  obtain ⟨W, hW, h⟩ := Option.bind_eq_some_iff.mp h
  obtain ⟨W', hW', h⟩ := Option.bind_eq_some_iff.mp h
  obtain ⟨ha, hn, h0, h1⟩ := of_decide_eq_true (Option.some.inj h)
  refine ⟨W, W', reached_of_bothCall hW, hW', ⟨ha, hn⟩, h0, h1, fun hi => ?_⟩
  have hv : ((W' first).cd 1).liCdid = ((W first).cd 1).liCdid :=
    congrArg World.View.liCdid (hi first (1 : Fin 2) ⟨ha, hn⟩)
  rw [h0, h1] at hv
  cases hv

end Isolation
end Isdn4bsd
