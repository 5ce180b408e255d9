import Isdn4bsd.L3.Effects

/-!
# Layer 3: who owns a call

What the messages from layer 2 and the requests of applications do to the application a call belongs
to.  `Isdn4bsd.L3.Effects` has the events; here are the functions that make them, up to all actions of a
controller.

* `Adopts`: a call that was offered to all applications becomes the own call of one; `Declines`: one
  application less may still answer it.
* `acts_i4bCommand` and `acts_capiCommand`: **a command is at most an adoption, followed by what an
  event does or by a refusal.**
* `Effect` and `effect_perform`: what an action does to the controller: it deals with one call, begins one, or
  goes through all calls in a loop (`Rounds`).
* `Fate` and `fate_perform`: what an action does to a call, whatever the action is: it stays whose it was,
  is adopted, is offered, loses an application, or is over and its application was told.

## Adoption

An incoming call is offered to all applications at once, and the first command that is not a refusal makes it
the application's own; the others are told that it is over for them.  Both interfaces do so, `i4b_ioctl` and
`capi_write`, each in the cases of the commands that ask for it, and then go on with the command.  `Commands`
is what both come to.

An application that does not want the call is only counted.  The last one ends the call, if the count of
those that were told is right; that count is an answer of the surroundings here, and
`Isdn4bsd.L4.Broadcast` is about where it comes from.

## No panic

`Peaceful` is an invariant over all calls: nothing panicked, and no call makes anything panic, since each has
a pipe and causes that are known.  An action keeps it if the cause of its command is known
(`Effect.peaceful`); what may be said beyond that is the subject of `Isdn4bsd.L3.Causes`.
-/

set_option autoImplicit false

namespace Isdn4bsd
namespace L3

open L2 (PipeNo adapter)

namespace Cntl

variable {n : Nat} {env : Env} {ok : Prop} {i : Fin n} {r s t : Cntl n}

/-! ## Messages

The elements of a message are stored in the descriptor first, and then the event is dealt with.  Neither of them
makes a call belong to anybody.
-/

/-- What a call is to the applications. -/
def offer (cd : CallDesc) : AiType × Nat × Nat := (cd.aiType, cd.aiPtr, cd.connectIndCount)

theorem offer_ite {c : Prop} [Decidable c] {cd cd' cd'' : CallDesc} (h : offer cd' = offer cd)
    (h' : offer cd'' = offer cd) : offer (if c then cd' else cd'') = offer cd := by
  split
  · exact h
  · exact h'

theorem offer_appendCalledpn (w : Buf) (cd : CallDesc) (telno : Str) :
    offer { (if cd.dirIncoming then appendCalledpn w cd else cd) with dstTelnoPart := telno }
      = offer cd := by
  split
  · rfl
  · rfl

theorem offer_dss1DecodeQ931Cs0IeCd (ntMode : Bool) (cd : CallDesc) (w : Buf) :
    offer (dss1DecodeQ931Cs0IeCd env ntMode cd w) = offer cd := by
  rw [dss1DecodeQ931Cs0IeCd]
  dsimp only
  refine offer_ite (offer_ite rfl rfl) ?_
  refine offer_ite (offer_ite rfl rfl) ?_
  refine offer_ite rfl ?_
  refine offer_ite rfl ?_
  refine offer_ite (offer_ite rfl rfl) ?_
  refine offer_ite (offer_ite rfl (offer_ite rfl rfl)) ?_
  refine offer_ite rfl ?_
  refine offer_ite (offer_ite rfl rfl) ?_
  refine offer_ite (offer_ite rfl (offer_ite rfl rfl)) ?_
  refine offer_ite (offer_ite rfl (offer_ite rfl rfl)) ?_
  refine offer_ite (offer_appendCalledpn w cd _) ?_
  exact offer_ite (offer_ite rfl rfl) (offer_ite rfl rfl)

theorem offer_decodeIeLoop {f : CallDesc → Buf → CallDesc} (hf : ∀ cd w, offer (f cd w) = offer cd) :
    ∀ (fuel codeset next : Nat) (cd : CallDesc) (w : Buf),
      offer (decodeIeLoop f fuel codeset next cd w) = offer cd
  | 0, _, _, _, _ => rfl
  | fuel + 1, codeset, next, cd, w => by
    rw [decodeIeLoop]
    dsimp only
    split
    · split
      · rw [offer_decodeIeLoop hf fuel]
        split
        · exact hf cd _
        · rfl
      · rw [offer_decodeIeLoop hf fuel]
        split
        · exact hf cd _
        · rfl
    · rfl

theorem Keeps.readMessage (h : Keeps ok i r s) (event : Event) (elements : Buf) :
    Keeps ok i r (s.readMessage env i event elements) := by
  have hreads := reads_readMessage env s i event elements
  have hoffer : offer ((s.readMessage env i event elements).cd i) = offer (s.cd i) := by
    rw [Cntl.readMessage, modify_cd_self, dss1DecodeIe,
      offer_decodeIeLoop (offer_dss1DecodeQ931Cs0IeCd s.ntMode)]
    split
    · split <;> rfl
    · split <;> rfl
  obtain ⟨⟨ch, k, he⟩, -, hk⟩ := hreads
  have hq : Quiet i s (s.readMessage env i event elements) := Quiet.refl.modify _
  refine h.trans (hq.keeps ?_)
  generalize (s.readMessage env i event elements).cd i = cd at hoffer he hk ⊢
  obtain ⟨h1, h2, h3⟩ : cd.aiType = (s.cd i).aiType ∧ cd.aiPtr = (s.cd i).aiPtr ∧
      cd.connectIndCount = (s.cd i).connectIndCount := by
    simpa only [offer, Prod.mk.injEq] using hoffer
  refine ⟨?_, h3, ?_, ?_, ?_⟩
  · rw [Cntl.holder, Cntl.holder, h1, h2, congrArg Call.cdid he]
  · rw [congrArg Call.pipe he]
    exact id
  · intro hs
    rcases hk with hk | hk
    · rw [hk]
      exact hs
    · exact hk
  · rw [congrArg Call.causeOut he]
    exact id

/-- A message for a call is an event of the call, and at most offers it. -/
theorem acts_receive (ok : Prop) (env : Env) (s : Cntl n) (i : Fin n) (p : PipeNo) (event : Event)
    (elements : Buf) :
    Acts ok i s (s.receive env i p event elements) ∨
      Offers ok env i s (s.receive env i p event elements) := by
  have h : Keeps ok i s (s.readMessage env i (eventFor (s.cd i) event) elements) :=
    Keeps.refl.readMessage _ elements
  rw [receive]
  split
  · exact .inl (.inl h)
  · exact (acts_cdUpdate env _ i (some p) _ fun _ => Option.some_ne_none p).imp h.acts
      fun h' => h.offers h'.2

/-! ## Requests

A command may set causes, and then there is an event.  That of a refusal is different: it is dealt with
only if nobody else is left who may answer.
-/

/-- Causes are stored in the descriptor. -/
theorem Keeps.store (h : Keeps ok i r s) {f : CallDesc → CallDesc}
    (hh : Cntl.holder (f (s.cd i)) = Cntl.holder (s.cd i))
    (hk : (f (s.cd i)).connectIndCount = (s.cd i).connectIndCount)
    (hp : (f (s.cd i)).pipe = (s.cd i).pipe)
    (hin : ok → Handled (s.cd i).causeIn → Handled (f (s.cd i)).causeIn)
    (hout : ok → Handled (s.cd i).causeOut → Handled (f (s.cd i)).causeOut) :
    Keeps ok i r (s.modify i f) := by
  refine h.trans ⟨(Quiet.refl.modify f).toTouches, ?_, ?_, ?_⟩
  · rw [modify_cd_self, hh]
  · rw [modify_cd_self, hk]
  · intro hc
    refine ⟨hc.ok, hc.halted, ?_, ?_, ?_⟩
    · rw [modify_cd_self, hp]
      exact hc.pipe
    · rw [modify_cd_self]
      exact hin hc.ok hc.causeIn
    · rw [modify_cd_self]
      exact hout hc.ok hc.causeOut

/-- An application hangs up: that is an event of the call. -/
theorem acts_nDisconnectRequest (env : Env) (s : Cntl n) (i : Fin n) {cause : Nat}
    (hc : ok → Handled cause) : Acts ok i s (s.nDisconnectRequest env i cause) := by
  rw [nDisconnectRequest]
  exact (Keeps.refl.store rfl rfl rfl (fun _ => id) fun ho _ => hc ho).acts
    (acts_request env _ i (by decide) (by decide))

/-- The same after both causes were set. -/
theorem acts_disconnect (env : Env) (s : Cntl n) (i : Fin n) {cause cause' : Nat}
    (hc : ok → Handled cause) (hc' : ok → Handled cause') :
    Acts ok i s ((s.modify i fun cd => { cd with causeIn := cause, causeOut := cause })
      |>.nDisconnectRequest env i cause') :=
  (Keeps.refl.store rfl rfl rfl (fun ho _ => hc ho) fun ho _ => hc ho).acts
    (acts_nDisconnectRequest env _ i hc')

/-- One application less may still answer the call. -/
structure Declines (ok : Prop) (i : Fin n) (s t : Cntl n) : Prop extends Touches i s t where
  holder : holder (t.cd i) = holder (s.cd i)
  before : 2 ≤ (s.cd i).connectIndCount
  count : (t.cd i).connectIndCount + 1 = (s.cd i).connectIndCount
  calm : Calm ok s i → Calm ok t i

theorem Keeps.declines (h : Keeps ok i r s) (h' : Declines ok i s t) : Declines ok i r t :=
  ⟨h.toTouches.trans h'.toTouches, h'.holder.trans h.holder, h'.before.trans_eq h.count,
    h'.count.trans h.count, fun hc => h'.calm (h.calm hc)⟩

/-- An application does not want the call: the last one ends it. -/
def Refuses (ok : Prop) (i : Fin n) (s t : Cntl n) : Prop :=
  ((s.cd i).connectIndCount < 2 ∧ Acts ok i s t) ∨ Declines ok i s t

/-- The response of an application that does not want the call. -/
theorem refuses_nConnectResponse (env : Env) (s : Cntl n) (i : Fin n) {response : Response}
    {cause : Nat} (hr : response = .dontCare ∨ response = .unknown) (hc : ok → Handled cause) :
    Refuses ok i s (s.nConnectResponse env i response cause) := by
  have h : Keeps ok i s (s.modify i fun cd => { cd with causeOut := cause }) :=
    Keeps.refl.store rfl rfl rfl (fun _ => id) fun ho _ => hc ho
  have heq : s.nConnectResponse env i response cause =
      if ((s.modify i fun cd => { cd with causeOut := cause }).cd i).connectIndCount < 2 then
        (s.modify i fun cd => { cd with causeOut := cause }).cdUpdate env i none .release
      else (s.modify i fun cd => { cd with causeOut := cause }).modify i fun cd =>
        { cd with connectIndCount := cd.connectIndCount - 1 } := by
    rcases hr with rfl | rfl <;> rfl
  rw [heq]
  generalize s.modify i (fun cd => { cd with causeOut := cause }) = m at h
  split
  · rename_i hlt
    exact .inl ⟨h.count ▸ hlt, h.acts (acts_request env m i (by decide) (by decide))⟩
  · rename_i hge
    refine .inr (h.declines ⟨(Quiet.refl.modify _).toTouches, ?_, by omega, ?_, ?_⟩)
    · rw [modify_cd_self]
      rfl
    · rw [modify_cd_self]
      exact Nat.sub_add_cancel (by omega)
    · intro hm
      refine ⟨hm.ok, hm.halted, ?_, ?_, ?_⟩
      · rw [modify_cd_self]
        exact hm.pipe
      · rw [modify_cd_self]
        exact hm.causeIn
      · rw [modify_cd_self]
        exact hm.causeOut

/-- A response of an application. -/
theorem acts_nConnectResponse (env : Env) (s : Cntl n) (i : Fin n) (response : Response)
    {cause : Nat} (hc : ok → Handled cause) :
    Acts ok i s (s.nConnectResponse env i response cause) ∨
      Declines ok i s (s.nConnectResponse env i response cause) := by
  have h : Keeps ok i s (s.modify i fun cd => { cd with causeOut := cause }) :=
    Keeps.refl.store rfl rfl rfl (fun _ => id) fun ho _ => hc ho
  cases response with
  | accept => exact .inl (h.acts (acts_request env _ i (by decide) (by decide)))
  | reject => exact .inl (h.acts (acts_request env _ i (by decide) (by decide)))
  | dontCare => exact (refuses_nConnectResponse env s i (.inl rfl) hc).imp_left fun h => h.2
  | unknown => exact (refuses_nConnectResponse env s i (.inr rfl) hc).imp_left fun h => h.2

theorem acts_nAlertRequest (env : Env) (s : Cntl n) (i : Fin n) (proceeding : Bool) :
    Acts ok i s (s.nAlertRequest env i proceeding) := by
  rw [nAlertRequest]
  split
  · exact acts_request env s i (by decide) (by decide)
  · exact acts_request env s i (by decide) (by decide)

theorem acts_i4bL3InformationReq (env : Env) (s : Cntl n) (i : Fin n) (digits : List UInt8) :
    Acts ok i s (s.i4bL3InformationReq env i digits) := by
  rw [i4bL3InformationReq]
  dsimp only
  generalize hf : (fun cd : CallDesc => _) = f
  have h : Keeps ok i s (s.modify i f) := by
    refine Keeps.refl.modify ?_
    rw [← hf]
    dsimp only
    split
    · exact ⟨rfl, rfl, id, id, id⟩
    · exact ⟨rfl, rfl, id, id, id⟩
  exact h.acts (acts_request env _ i (by decide) (by decide))

theorem acts_connectOn (env : Env) (s : Cntl n) (i : Fin n) (channel : Int) :
    Acts ok i s (s.connectOn env i channel) := by
  have h : Keeps ok i s (s.modify i fun cd => { cd with channelId := channel }) :=
    Keeps.refl.modify ⟨rfl, rfl, id, id, id⟩
  have h1 := h.cdAllocateChannel env
  rw [connectOn]
  refine Acts.ite (acts_request env s i (by decide) (by decide)) ?_
  refine Acts.ite (Acts.ite (h1.acts (acts_request env _ i (by decide) (by decide))) ?_)
    (h.acts (acts_request env _ i (by decide) (by decide)))
  exact .inr ((h1.modify ⟨rfl, rfl, id, fun _ => (by decide : Handled causeI4bNochan), id⟩).ends
    (ends_nFreeCd env _ i))

/-! ## Adoption -/

/-- The call becomes the own call of an application, and all others are told that it is over. -/
structure Adopts (ok : Prop) (i : Fin n) (aiType : AiType) (sc : Nat) (s t : Cntl n) : Prop
    extends Touches i s t where
  before : (s.cd i).aiType = .broadcast
  holder : holder (t.cd i) = ((s.cd i).cdid, aiType, sc)
  count : (t.cd i).connectIndCount = (s.cd i).connectIndCount
  told : ∃ cause done, t.out = s.out ++ done ∧
    .ind (s.cd i).cdid aiType sc (.disconnect cause true) ∈ done
  calm : Calm ok s i → Calm ok t i

/-- The call gets its application, and the others are told. -/
theorem adopts_cdSetApplInterface (ok : Prop) (s : Cntl n) (i : Fin n) (aiType : AiType) (sc : Nat)
    (hb : (s.cd i).aiType = .broadcast) :
    Adopts ok i aiType sc s ((s.cdSetApplInterface i aiType sc).i4bL4DisconnectInd i true) := by
  have hq : Quiet i s (s.cdSetApplInterface i aiType sc) := Quiet.refl.modify _
  have hcd : (s.cdSetApplInterface i aiType sc).cd i
      = { s.cd i with aiType := aiType, aiPtr := sc } := modify_cd_self s i _
  have hcalm : Calm ok s i → Calm ok (s.cdSetApplInterface i aiType sc) i := by
    intro hc
    refine ⟨hc.ok, hc.halted, ?_, ?_, ?_⟩
    · rw [hcd]
      exact hc.pipe
    · rw [hcd]
      exact hc.causeIn
    · rw [hcd]
      exact hc.causeOut
  generalize s.cdSetApplInterface i aiType sc = m at hq hcd hcalm
  have h1 : Keeps ok i m (m.i4bL4DisconnectInd i true) := Keeps.refl.i4bL4DisconnectInd true
  refine ⟨hq.toTouches.trans h1.toTouches, hb, ?_, ?_, ?_, fun hc => h1.calm (hcalm hc)⟩
  · rw [h1.holder, hcd]
    rfl
  · rw [h1.count, hcd]
  · have ht : Told i m (m.i4bL4DisconnectInd i true) (.disconnect (m.cd i).causeIn true) := by
      rw [i4bL4DisconnectInd, if_pos rfl]
      have ht := told_tell m i (.disconnect (m.cd i).causeIn true)
      split
      · exact ht.mono (by rw [out_halt])
      · exact ht
    obtain ⟨done, hd, hm⟩ := ht
    obtain ⟨before, hbef⟩ := hq.out
    rw [hcd] at hm
    exact ⟨_, before ++ done, by rw [hd, ← hbef, List.append_assoc], List.mem_append_right _ hm⟩

/-- Nothing happens, or the call is adopted. -/
theorem adopt_cases (ok : Prop) (s : Cntl n) (i : Fin n) (aiType : AiType) (sc : Nat) :
    s.adopt i aiType sc = s ∨ Adopts ok i aiType sc s (s.adopt i aiType sc) := by
  rw [adopt]
  split
  · rename_i hb
    exact .inr (adopts_cdSetApplInterface _ s i aiType sc hb)
  · exact .inl rfl

/-- What a command does: the call may become the application's own, and then there is an event of the
call, or it is refused. -/
def Commands (ok : Prop) (i : Fin n) (aiType : AiType) (sc : Nat) (s t : Cntl n) : Prop :=
  ∃ m, (m = s ∨ Adopts ok i aiType sc s m) ∧
    (Acts ok i m t ∨ Declines ok i m t ∧ (m.cd i).aiType ≠ .broadcast)

theorem Acts.commands (h : Acts ok i s t) (aiType : AiType) (sc : Nat) :
    Commands ok i aiType sc s t := ⟨s, .inl rfl, .inl h⟩

theorem aiType_adopt (s : Cntl n) (i : Fin n) {aiType : AiType} (sc : Nat)
    (hk : aiType ≠ .broadcast) : ((s.adopt i aiType sc).cd i).aiType ≠ .broadcast := by
  rw [adopt]
  split
  · rename_i hb
    have hh := (adopts_cdSetApplInterface True s i aiType sc hb).holder
    have ht : (((s.cdSetApplInterface i aiType sc).i4bL4DisconnectInd i true).cd i).aiType
        = aiType := congrArg (fun h : Nat × AiType × Nat => h.2.1) hh
    rw [ht]
    exact hk
  · rename_i hb
    exact hb

theorem commands_adopt (s : Cntl n) (i : Fin n) {aiType : AiType} (sc : Nat)
    (hk : aiType ≠ .broadcast)
    (h : Acts ok i (s.adopt i aiType sc) t ∨ Declines ok i (s.adopt i aiType sc) t) :
    Commands ok i aiType sc s t :=
  ⟨_, adopt_cases ok s i aiType sc, h.imp_right fun h => ⟨h, aiType_adopt s i sc hk⟩⟩

theorem Keeps.commands (h : Keeps ok i r s) {aiType : AiType} {sc : Nat}
    (h' : Commands ok i aiType sc s t) : Commands ok i aiType sc r t := by
  obtain ⟨m, rfl | ha, hm⟩ := h'
  · refine ⟨r, .inl rfl, hm.imp h.acts fun hd => ⟨h.declines hd.1, ?_⟩⟩
    have hb : (m.cd i).aiType = (r.cd i).aiType :=
      congrArg (fun x : Nat × AiType × Nat => x.2.1) h.holder
    rw [← hb]
    exact hd.2
  · obtain ⟨cause, done, hd, hmem⟩ := ha.told
    obtain ⟨before, hb⟩ := h.out
    obtain ⟨h1, h2, h3⟩ : (s.cd i).cdid = (r.cd i).cdid ∧ (s.cd i).aiType = (r.cd i).aiType ∧
        (s.cd i).aiPtr = (r.cd i).aiPtr := by
      simpa only [Cntl.holder, Prod.mk.injEq] using h.holder
    refine ⟨m, .inr ⟨h.toTouches.trans ha.toTouches, h2.symm.trans ha.before, ?_,
      ha.count.trans h.count, ?_, fun hc => ha.calm (h.calm hc)⟩, hm⟩
    · rw [ha.holder, h1]
    · rw [h1] at hmem
      exact ⟨cause, before ++ done, by rw [hd, ← hb, List.append_assoc],
        List.mem_append_right _ hmem⟩

theorem Commands.touches {aiType : AiType} {sc : Nat} (h : Commands ok i aiType sc s t) :
    Touches i s t := by
  obtain ⟨m, hm, ht⟩ := h
  have h1 : Touches i s m := by
    rcases hm with rfl | hm
    · exact .refl
    · exact hm.toTouches
  rcases ht with ht | ht
  · exact h1.trans ht.touches
  · exact h1.trans ht.1.toTouches

theorem Commands.calm {aiType : AiType} {sc : Nat} (h : Commands ok i aiType sc s t)
    (hc : Calm ok s i) : t.halted = false := by
  obtain ⟨m, hm, ht⟩ := h
  have h1 : Calm ok m i := by
    rcases hm with rfl | hm
    · exact hc
    · exact hm.calm hc
  rcases ht with ht | ht
  · exact ht.calm h1
  · exact (ht.1.calm h1).halted

/-! ## Commands of `/dev/i4b`

The command comes with the id of a call and with the application that issues it.
-/

/-- The cause of the command is known to `i4b_make_q850_cause`. -/
def I4bRequest.CauseHandled : I4bRequest → Prop
  | .connectResp _ cause _ _ _ => Handled cause
  | .disconnectReq cause => Handled cause
  | _ => True

/-- The command says that the application does not want the call. -/
def I4bRequest.Ignore : I4bRequest → Prop
  | .connectResp .dontCare _ _ _ _ => True
  | _ => False

theorem refuses_i4bCommand (env : Env) (s : Cntl n) (i : Fin n) (sc : Nat) {r : I4bRequest}
    (hr : r.Ignore) (hc : ok → r.CauseHandled) : Refuses ok i s (s.i4bCommand env i sc r) := by
  cases r with
  | connectResp response cause driver driverUnit maxIdleTime =>
    cases response with
    | dontCare => exact refuses_nConnectResponse env s i (.inl rfl) hc
    | _ => exact hr.elim
  | _ => exact hr.elim

/-- The driver that a command names is stored. -/
theorem keeps_adoptDriver (s : Cntl n) (i : Fin n) (sc driver driverUnit : Nat) :
    Keeps ok i (s.adopt i .i4b sc) (s.adoptDriver i sc driver driverUnit) := by
  rw [adoptDriver]
  split
  · exact Keeps.refl.modify ⟨rfl, rfl, id, id, id⟩
  · rename_i hb
    rw [adopt, if_neg hb]
    exact .refl

/-- **A command of `/dev/i4b`.** -/
theorem acts_i4bCommand (env : Env) (s : Cntl n) (i : Fin n) (sc : Nat) {r : I4bRequest}
    (hr : ¬ r.Ignore) (hc : ok → r.CauseHandled) : Commands ok i .i4b sc s (s.i4bCommand env i sc r) := by
  have h : Keeps ok i s s := .refl
  cases r with
  | cdidReq => exact Acts.commands (.inl h) _ _
  | connectReq r =>
    have h1 : Keeps ok i s (s.modify i (storeConnectReq r)) :=
      h.modify ⟨rfl, rfl, id, fun _ => (by decide : Handled causeI4bNormal), id⟩
    exact (h1.acts (acts_connectOn env _ i r.channel)).commands _ _
  | informationReq digits => exact (acts_i4bL3InformationReq env s i _).commands _ _
  | connectReplayReq => exact Acts.commands (.inl ((h.put _).ite h)) _ _
  | connectResp response cause driver driverUnit maxIdleTime =>
    rw [i4bCommand]
    split
    · rename_i hd
      subst hd
      exact absurd trivial hr
    · have h1 : Keeps ok i (s.adopt i .i4b sc) ((s.adoptDriver i sc driver driverUnit).modify i
          fun cd => { cd with shorthold := { idleTime := maxIdleTime } }) :=
        (keeps_adoptDriver s i sc driver driverUnit).modify ⟨rfl, rfl, id, id, id⟩
      exact commands_adopt s i _ (by decide)
        ((acts_nConnectResponse env _ i response hc).imp h1.acts h1.declines)
  | linkBChannelDriverReq driver driverUnit activate =>
    exact commands_adopt s i _ (by decide)
      (.inl (.inl ((keeps_adoptDriver s i sc driver driverUnit).i4bLinkBchandrvr _)))
  | disconnectReq cause => exact (acts_disconnect env s i hc hc).commands _ _
  | alertReq proceeding => exact (acts_nAlertRequest env s i proceeding).commands _ _
  | timeoutUpd shorthold =>
    have h1 : Keeps ok i s (s.modify i fun cd => { cd with shorthold := shorthold }) :=
      h.modify ⟨rfl, rfl, id, id, id⟩
    exact Acts.commands (.inl (h1.i4bL4SetupTimeout.ite h1)) _ _

/-! ## Commands of CAPI

A response tells whether the application takes the call, and with which protocol for its B channel, before
the rest of the command is carried out.
-/

theorem acts_confirmed (env : Env) (s : Cntl n) {f : Cntl n → Cntl n}
    (hf : ∀ t, Acts ok i t (f t)) : Acts ok i s (s.confirmed env f) := by
  have h : Keeps ok i s s.ask.2 := Keeps.refl.ask
  rw [confirmed]
  exact Acts.ite (h.acts (hf _)) (.inl h)

theorem commands_capiConnectBridge (ok : Prop) (env : Env) (s : Cntl n) (i : Fin n) (sc dst : Nat) :
    Commands ok i .capi sc s (s.capiConnectBridge env i sc dst) := by
  have h : Keeps ok i s s := .refl
  have h1 : Keeps ok i (s.adopt i .capi sc) ((s.adopt i .capi sc).modify i fun cd =>
      { cd with liCdid := dst, driverType := drvrCapiBridge, driverUnit := 0 }) :=
    Keeps.refl.modify ⟨rfl, rfl, id, id, id⟩
  rw [capiConnectBridge]
  split
  · exact commands_adopt s i _ (by decide) (.inl (.inl ((h1.liAlloc.i4bLinkBchandrvr true).ite h1)))
  · exact Acts.commands (.inl h) _ _

theorem commands_capiDisconnectBridge (ok : Prop) (s : Cntl n) (i : Fin n) (sc dst : Nat) :
    Commands ok i .capi sc s (s.capiDisconnectBridge i sc dst) := by
  have h : Keeps ok i s s := .refl
  have h1 : Keeps ok i (s.adopt i .capi sc) ((s.adopt i .capi sc).modify i fun cd =>
      { cd with
        liData := false
        liCdid := cdidUnused
        driverType := drvrCapiB3
        driverUnit := 0 }) := Keeps.refl.modify ⟨rfl, rfl, id, id, id⟩
  rw [capiDisconnectBridge]
  split
  · exact ⟨_, adopt_cases ok s i .capi sc, .inl (.inl (h1.i4bLinkBchandrvr true))⟩
  · exact Acts.commands (.inl h) _ _

/-- The command says that the application does not want the call. -/
def CapiRequest.Ignore : CapiRequest → Prop
  | .connectResp reject _ _ => reject = 1
  | _ => False

theorem refuses_capiCommand (ok : Prop) (env : Env) (s : Cntl n) (i : Fin n) (sc : Nat) {r : CapiRequest}
    (hr : r.Ignore) :
    (s.cd i).dirIncoming = false ∧ s.capiCommand env i sc r = s ∨
      (s.cd i).dirIncoming = true ∧ Refuses ok i s (s.capiCommand env i sc r) := by
  cases r with
  | connectResp reject bProtocol dateTime =>
    obtain rfl : reject = 1 := hr
    rw [capiCommand, capiConnectResp]
    split
    · rename_i hd
      exact .inl ⟨hd, rfl⟩
    · rename_i hd
      exact .inr ⟨by simpa using hd,
        refuses_nConnectResponse env s i (.inl rfl) fun _ => handled_capiCause 1⟩
  | _ => exact hr.elim

theorem commands_capiConnectResp (env : Env) (s : Cntl n) (i : Fin n) (sc : Nat) {reject : Nat}
    (hr : reject ≠ 1) (bProtocol : Option BProtocol) (dateTime : List UInt8) :
    Commands ok i .capi sc s (s.capiConnectResp env i sc reject bProtocol dateTime) := by
  have hc : ok → Handled (capiCause reject) := fun _ => handled_capiCause reject
  have h : Keeps ok i s s := .refl
  have h1 : Keeps ok i s (s.modify i fun cd =>
      { cd with channelBprot := bProtocol.elim cd.channelBprot (capiDecodeBProtocol 0xff) }) :=
    h.modify ⟨rfl, rfl, id, id, id⟩
  rw [capiConnectResp, if_neg hr]
  split
  · exact Acts.commands (.inl h) _ _
  · dsimp only
    generalize s.modify i (fun cd =>
      { cd with channelBprot := bProtocol.elim cd.channelBprot (capiDecodeBProtocol 0xff) })
      = m at h1
    have h2 : Keeps ok i (m.adopt i .capi sc) ((m.adopt i .capi sc).modify i fun cd =>
        { cd with
          driverType := drvrCapiB3
          driverUnit := 0
          shorthold := {}
          odateTimeLen := min dateTime.length 8
          odateTime := Vector.ofFn fun k => dateTime.getD k cd.odateTime[k] }) :=
      Keeps.refl.modify ⟨rfl, rfl, id, id, id⟩
    exact h1.commands (commands_adopt m i _ (by decide)
      ((acts_nConnectResponse env _ i _ hc).imp h2.acts h2.declines))

theorem commands_capiSelectBProtocol (s : Cntl n) (i : Fin n) (sc : Nat)
    (bProtocol : Option BProtocol) :
    Commands ok i .capi sc s (s.capiSelectBProtocol i sc bProtocol) := by
  have h1 : Keeps ok i s (s.modify i fun cd =>
      { cd with channelBprot := bProtocol.elim cd.channelBprot (capiDecodeBProtocol 0xff) }) :=
    Keeps.refl.modify ⟨rfl, rfl, id, id, id⟩
  rw [capiSelectBProtocol]
  split
  · exact Acts.commands (.inl h1) _ _
  · exact h1.commands ⟨_, adopt_cases ok _ i .capi sc,
      .inl (.inl (Keeps.refl.modify ⟨rfl, rfl, id, id, id⟩))⟩

theorem acts_capiConnect (ok : Prop) (env : Env) (s : Cntl n) (i : Fin n) (sc : Nat) (r : CapiConnect) :
    Acts ok i s (s.capiCommand env i sc (.connect r)) := by
  refine Acts.ite (.inl .refl) (acts_confirmed env s fun t => ?_)
  have h1 : Keeps ok i t (t.modify i (storeCapiConnect r)) :=
    Keeps.refl.modify ⟨rfl, rfl, id, fun _ => (by decide : Handled causeI4bNormal), id⟩
  exact h1.acts (acts_connectOn env _ i chanAny)

/-- **A command of CAPI.** -/
theorem acts_capiCommand (ok : Prop) (env : Env) (s : Cntl n) (i : Fin n) (sc : Nat) {r : CapiRequest}
    (hr : ¬ r.Ignore) : Commands ok i .capi sc s (s.capiCommand env i sc r) := by
  have h : Keeps ok i s s := .refl
  have hn : ok → Handled causeI4bNormal := fun _ => by decide
  cases r with
  | alert sendingComplete =>
    exact Acts.commands (Acts.ite
      (acts_confirmed env s fun t => acts_nAlertRequest env t i sendingComplete) (.inl h)) _ _
  | connect r => exact (acts_capiConnect _ env s i sc r).commands _ _
  | connectB3 =>
    have h1 : Keeps ok i (s.adopt i .capi sc) ((s.adopt i .capi sc).modify i fun cd =>
        { cd with driverType := drvrCapiB3, driverUnit := 0 }) :=
      Keeps.refl.modify ⟨rfl, rfl, id, id, id⟩
    exact commands_adopt s i _ (by decide) (.inl (.inl (h1.i4bLinkBchandrvr true)))
  | disconnectB3 => exact Acts.commands (.inl ((h.i4bLinkBchandrvr false).ite h)) _ _
  | disconnect =>
    exact ((h.i4bLinkBchandrvr false).acts (acts_disconnect env _ i hn hn)).commands _ _
  | info facility dstTelno =>
    refine Acts.commands (Acts.ite (acts_confirmed env s fun t => ?_)
      (acts_confirmed env s fun t => acts_i4bL3InformationReq env t i _)) _ _
    exact (acts_request env t i (by decide) (by decide)).ite (.inl .refl)
  | hold => exact (acts_request env s i (by decide) (by decide)).commands _ _
  | retrieve => exact (acts_request env s i (by decide) (by decide)).commands _ _
  | deflect dstTelno =>
    have h1 : Keeps ok i s (s.modify i fun cd =>
        { cd with dstTelnoPart := cstr ((dstTelno.drop 3).take (telnoMax - 1)) }) :=
      h.modify ⟨rfl, rfl, id, id, id⟩
    exact (h1.acts (acts_request env _ i (by decide) (by decide))).commands _ _
  | mcid => exact (acts_request env s i (by decide) (by decide)).commands _ _
  | liConnect dst => exact commands_capiConnectBridge _ env s i sc dst
  | liDisconnect dst => exact commands_capiDisconnectBridge _ s i sc dst
  | selectBProtocol bProtocol => exact commands_capiSelectBProtocol s i sc bProtocol
  | connectResp reject bProtocol dateTime =>
    exact commands_capiConnectResp env s i sc hr bProtocol dateTime
  | connectB3Resp reject =>
    have hr : ok → Handled causeI4bReject := fun _ => by decide
    exact Acts.commands (Acts.ite
      (Acts.ite (acts_disconnect env s i hr hr) (.inl (h.i4bLinkBchandrvr true))) (.inl h)) _ _

/-! ## New calls

`n_allocate_cd` looks for a free descriptor, an id and a pipe.  If there is no pipe it gives the descriptor
back, so that an id was used up and there is no call.
-/

/-- A free descriptor becomes a call of an application, or of nobody. -/
structure Begins (i : Fin n) (aiType : AiType) (aiPtr : Nat) (s t : Cntl n) : Prop
    extends Touches i s t where
  before : ¬ (s.cd i).Allocated
  allocated : (t.cd i).Allocated
  owner : (t.cd i).aiType = aiType ∧ (t.cd i).aiPtr = aiPtr
  calm : s.halted = false → Calm True t i

/-- There is no new call: at most a descriptor was tried in vain. -/
def Fails (s t : Cntl n) : Prop :=
  t = s ∨ ∃ i, Quiet i s t ∧ ¬ (s.cd i).Allocated ∧ ¬ (t.cd i).Allocated

theorem Quiet.getCdid (h : Quiet i r s) : Quiet i r s.getCdid.2 := by
  rw [Cntl.getCdid]
  dsimp only
  split
  · exact h.data rfl rfl rfl
  · exact h.data rfl rfl rfl

theorem cd_getCdid (s : Cntl n) : s.getCdid.2.cd = s.cd := by
  rw [Cntl.getCdid]
  dsimp only
  split
  · rfl
  · rfl

/-- A descriptor with an id, which is nobody's call yet. -/
theorem i4bAllocateCd_effect (s : Cntl n) :
    (s.i4bAllocateCd.1 = none ∧ Fails s s.i4bAllocateCd.2) ∨
      ∃ i cdid, s.i4bAllocateCd.1 = some i ∧ ¬ (s.cd i).Allocated ∧ cdid ≠ cdidUnused ∧
        Quiet i s s.i4bAllocateCd.2 ∧ s.i4bAllocateCd.2.cd i = { cdid := cdid } := by
  rw [i4bAllocateCd]
  split
  · exact .inl ⟨rfl, .inl rfl⟩
  · rename_i i hf
    have hun : (s.cd i).cdid = cdidUnused := by simpa using List.find?_some hf
    have hq : Quiet i s (s.modify i fun _ => {}).getCdid.2 := (Quiet.refl.modify _).getCdid
    have hcd : (s.modify i fun _ => {}).getCdid.2.cd i = {} := by
      rw [cd_getCdid, modify_cd_self]
    generalize (s.modify i fun _ => {}).getCdid = r at hq hcd
    have hq1 := hq.modify fun cd => { cd with cdid := r.1 }
    have hcd1 : (r.2.modify i fun cd => { cd with cdid := r.1 }).cd i = { cdid := r.1 } := by
      rw [modify_cd_self, hcd]
    dsimp only
    split
    · rename_i hu
      refine .inl ⟨rfl, .inr ⟨i, hq1, fun h => h hun, fun h => h ?_⟩⟩
      rw [hcd1]
      exact hu
    · rename_i hu
      exact .inr ⟨i, r.1, rfl, fun h => h hun, hu, hq1, hcd1⟩

/-- Nothing panics when a call gets its first pipe. -/
theorem calm_cdSetPipe (env : Env) {s : Cntl n} {i : Fin n} (p : PipeNo) (hh : s.halted = false)
    (hin : Handled (s.cd i).causeIn) (hout : Handled (s.cd i).causeOut) :
    Calm True (s.cdSetPipe env i (some p)) i := by
  have hj : Resends s (s.joinPipe env (some p)) := Resends.refl.joinPipe _
  have hl : Quiet i (s.joinPipe env (some p)) (s.cdSetPipe env i (some p)) := by
    rw [cdSetPipe]
    exact (Quiet.refl.leavePipe _).modify _
  have hcd : (s.cdSetPipe env i (some p)).cd i
      = { (s.joinPipe env (some p)).cd i with pipe := some p } := by
    rw [cdSetPipe, modify_cd_self, cd_leavePipe]
  refine ⟨trivial, hl.halted.trans (hj.halted.trans hh), ?_, ?_, ?_⟩
  · rw [hcd]
    exact Option.some_ne_none p
  · rw [hcd]
    exact (hj.cd i).inert.causeIn hin
  · rw [hcd]
    exact (hj.cd i).inert.causeOut hout

/-- The call is set up on its pipe. -/
theorem begins_setupCall (env : Env) {s t : Cntl n} {i : Fin n} {cdid : Nat}
    (hun : ¬ (s.cd i).Allocated) (hne : cdid ≠ cdidUnused) (hq : Quiet i s t)
    (hcd : t.cd i = { cdid := cdid }) (p : Option PipeNo) (crval : Nat) (aiType : AiType)
    (aiPtr : Nat) :
    Begins i aiType aiPtr s (((t.setupCall i p crval aiType aiPtr).cdSetPipe env i
      (some (p.getD adapter))).cdSetState env i (if p.isSome then .incoming else .outgoing)) := by
  have hq1 : Quiet i s (t.setupCall i p crval aiType aiPtr) := hq.modify _
  have hcd1 : (t.setupCall i p crval aiType aiPtr).cd i =
      { cdid := cdid, dirIncoming := p.isSome, channelId := chanAny, channelBprot := bprotNone,
        cr := if p.isSome then crval else cdid2Callreference cdid, dstTelnoPtr := 0,
        aiType := aiType, aiPtr := aiPtr } := by
    rw [setupCall, modify_cd_self, hcd]
  have hin : Handled ((t.setupCall i p crval aiType aiPtr).cd i).causeIn := by
    rw [hcd1]
    exact (by decide : Handled 0)
  have hout : Handled ((t.setupCall i p crval aiType aiPtr).cd i).causeOut := by
    rw [hcd1]
    exact (by decide : Handled 0)
  generalize t.setupCall i p crval aiType aiPtr = m at hq1 hcd1 hin hout
  have hn : (if p.isSome then State.incoming else State.outgoing) ≠ .u0 := by
    split <;> decide
  have hset : Keeps True i m (m.cdSetPipe env i (some (p.getD adapter))) :=
    Keeps.refl.cdSetPipe (Option.some_ne_none _)
  have hstate : Keeps True i (m.cdSetPipe env i (some (p.getD adapter)))
      ((m.cdSetPipe env i (some (p.getD adapter))).cdSetState env i
        (if p.isSome then .incoming else .outgoing)) := Keeps.refl.cdSetState hn
  have hh := (hset.trans hstate).holder
  rw [hcd1, Cntl.holder, Cntl.holder, Prod.mk.injEq, Prod.mk.injEq] at hh
  refine ⟨hq1.toTouches.trans (hset.trans hstate).toTouches, hun, ?_, hh.2, ?_⟩
  · rw [Call.Allocated, hh.1]
    exact hne
  · intro h0
    exact hstate.calm (calm_cdSetPipe env _ (hq1.halted.trans h0) hin hout)

/-- What `n_allocate_cd` does. -/
theorem nAllocateCd_effect (env : Env) (s : Cntl n) (p : Option PipeNo) (crval : Nat)
    (aiType : AiType) (aiPtr : Nat) :
    (∃ t, s.nAllocateCd env p crval aiType aiPtr = (none, t) ∧ Fails s t) ∨
      ∃ i t, s.nAllocateCd env p crval aiType aiPtr = (some i, t) ∧ Begins i aiType aiPtr s t := by
  rw [nAllocateCd]
  rcases i4bAllocateCd_effect s with ⟨h1, h2⟩ | ⟨i, cdid, h1, hun, hne, hq, hcd⟩
  · generalize s.i4bAllocateCd = r at h1 h2
    obtain ⟨o, t⟩ := r
    obtain rfl : o = none := h1
    exact .inl ⟨t, rfl, h2⟩
  · generalize s.i4bAllocateCd = r at h1 hq hcd
    obtain ⟨o, t⟩ := r
    obtain rfl : o = some i := h1
    exact .inr ⟨i, _, rfl, begins_setupCall env hun hne hq hcd p crval aiType aiPtr⟩

/-! ## Several calls

Layer 2 may report something about a whole pipe, and then each call on it is dealt with in turn.  The loop
goes by the descriptors, while the calls change in its course.  `Rounds` says of each call that it either
stayed or is over; an order of the calls does not matter, since what is done for one of them is no more
than `Aside` for the others.
-/

/-- The call goes on with whom it belonged to. -/
structure Stays (i : Fin n) (s t : Cntl n) : Prop where
  out : s.out <+: t.out
  holder : holder (t.cd i) = holder (s.cd i)
  count : (t.cd i).connectIndCount = (s.cd i).connectIndCount

/-- The call is over, and the application it belonged to was told. -/
structure Ended (i : Fin n) (s t : Cntl n) : Prop where
  free : ¬ (t.cd i).Allocated
  told : ∃ cause, Told i s t (.disconnect cause false)

theorem Stays.refl : Stays i s s := ⟨List.prefix_rfl, rfl, rfl⟩

theorem Stays.trans (h : Stays i r s) (h' : Stays i s t) : Stays i r t :=
  ⟨h.out.trans h'.out, h'.holder.trans h.holder, h'.count.trans h.count⟩

theorem Keeps.stays (h : Keeps ok i s t) : Stays i s t := ⟨h.out, h.holder, h.count⟩

theorem Ends.ended (h : Ends ok i s t) : Ended i s t := ⟨fun ha => ha h.free, h.told⟩

/-- A call stays when another one is dealt with. -/
theorem Touches.stays {j : Fin n} (h : Touches j s t) (hj : i ≠ j) : Stays i s t := by
  have ha := h.others i hj
  refine ⟨h.out, ha.holder, ?_⟩
  obtain ⟨k, p, he⟩ := ha
  rw [he]

theorem Resends.stays (h : Resends s t) : Stays i s t :=
  (h.keeps : Keeps True i s t).stays

theorem Stays.allocated (h : Stays i s t) : (t.cd i).Allocated ↔ (s.cd i).Allocated := by
  have hc : (t.cd i).cdid = (s.cd i).cdid := congrArg Prod.fst h.holder
  rw [Call.Allocated, Call.Allocated, hc]

theorem Stays.ended (h : Stays i r s) (h' : Ended i s t) : Ended i r t := by
  obtain ⟨cause, ht⟩ := h'.told
  exact ⟨h'.free, cause, ht.after h.out h.holder⟩

/-- A call that makes nothing panic. -/
structure Tame (cd : CallDesc) : Prop where
  pipe : cd.pipe ≠ none
  causeIn : Handled cd.causeIn
  causeOut : Handled cd.causeOut

/-- Nothing panicked, and no call makes anything panic. -/
structure Peaceful (s : Cntl n) : Prop where
  halted : s.halted = false
  call : ∀ i, (s.cd i).Allocated → Tame (s.cd i)

theorem Inert.tame {cd cd' : CallDesc} (h : Inert cd cd') (ht : Tame cd) : Tame cd' :=
  ⟨h.pipe ht.pipe, h.causeIn ht.causeIn, h.causeOut ht.causeOut⟩

theorem Calm.tame (h : Calm ok s i) : Tame (s.cd i) := ⟨h.pipe, h.causeIn, h.causeOut⟩

theorem Peaceful.calm (h : Peaceful s) (ho : ok) (hi : (s.cd i).Allocated) : Calm ok s i :=
  ⟨ho, h.halted, (h.call i hi).pipe, (h.call i hi).causeIn, (h.call i hi).causeOut⟩

/-- It is enough to look at the call that is dealt with. -/
theorem Peaceful.touches (h : Peaceful s) (ht : Touches i s t) (hh : t.halted = false)
    (hi : (t.cd i).Allocated → Tame (t.cd i)) : Peaceful t := by
  refine ⟨hh, ?_⟩
  intro j hj
  by_cases hji : j = i
  · subst hji
    exact hi hj
  · exact (ht.others j hji).inert.tame (h.call j ((ht.stays hji).allocated.mp hj))

theorem Calm.peaceful (hc : Calm ok t i) (h : Peaceful s) (ht : Touches i s t) : Peaceful t :=
  h.touches ht hc.halted fun _ => hc.tame

theorem Acts.peaceful (h : Acts ok i s t) (ho : ok) (hs : Peaceful s) (hi : (s.cd i).Allocated) :
    Peaceful t := by
  have hc : Calm ok s i := hs.calm ho hi
  rcases h with h | h
  · exact (h.calm hc).peaceful hs h.toTouches
  · exact hs.touches h.toTouches (h.calm hc) fun ha => absurd h.free ha

/-- What becomes of the calls in a loop over them. -/
structure Rounds (ok : Prop) (s t : Cntl n) : Prop where
  out : s.out <+: t.out
  call : ∀ i, (s.cd i).Allocated → Stays i s t ∨ Ended i s t
  free : ∀ i, ¬ (s.cd i).Allocated → ¬ (t.cd i).Allocated
  peaceful : ok → Peaceful s → Peaceful t

theorem Rounds.refl : Rounds ok s s :=
  ⟨List.prefix_rfl, fun _ _ => .inl .refl, fun _ h => h, fun _ h => h⟩

theorem Rounds.trans (h : Rounds ok r s) (h' : Rounds ok s t) : Rounds ok r t := by
  refine ⟨h.out.trans h'.out, ?_, fun i hi => h'.free i (h.free i hi), fun ho hp =>
    h'.peaceful ho (h.peaceful ho hp)⟩
  intro i hi
  rcases h.call i hi with hs | he
  · exact (h'.call i (hs.allocated.mpr hi)).imp hs.trans hs.ended
  · obtain ⟨cause, ht⟩ := he.told
    exact .inr ⟨h'.free i he.free, cause, ht.mono h'.out⟩

theorem Acts.rounds (h : Acts ok i s t) (hi : (s.cd i).Allocated) : Rounds ok s t := by
  refine ⟨h.touches.out, ?_, ?_, fun ho hs => h.peaceful ho hs hi⟩
  · intro j _
    by_cases hj : j = i
    · subst hj
      exact h.imp Keeps.stays Ends.ended
    · exact .inl (h.touches.stays hj)
  · intro j hj
    have hne : j ≠ i := by
      rintro rfl
      exact hj hi
    rw [(h.touches.stays hne).allocated]
    exact hj

theorem Resends.rounds (h : Resends s t) : Rounds ok s t := by
  refine ⟨h.out, fun _ _ => .inl h.stays, ?_, ?_⟩
  · intro j hj
    rw [(h.stays (i := j)).allocated]
    exact hj
  · intro _ hs
    refine ⟨h.halted.trans hs.halted, ?_⟩
    intro j hj
    exact (h.cd j).inert.tame (hs.call j (h.stays.allocated.mp hj))

/-- A descriptor that is tried in vain is no call. -/
theorem Fails.rounds (h : Fails s t) : Rounds ok s t := by
  rcases h with rfl | ⟨i, hq, hs, ht⟩
  · exact .refl
  · have hst : ∀ j, j ≠ i → Stays j s t := fun j hj => hq.toTouches.stays hj
    refine ⟨hq.out, ?_, ?_, ?_⟩
    · intro j hj
      refine .inl (hst j ?_)
      rintro rfl
      exact hs hj
    · intro j hj
      by_cases hji : j = i
      · subst hji
        exact ht
      · rw [(hst j hji).allocated]
        exact hj
    · intro _ hp
      exact hp.touches hq.toTouches (hq.halted.trans hp.halted) fun ha => absurd ha ht

/-- **A loop over calls**, each of which is dealt with once. -/
theorem Rounds.foldl {α : Type} {f : Cntl n → α → Cntl n} (hf : ∀ s a, Rounds ok s (f s a))
    (as : List α) (s : Cntl n) : Rounds ok s (as.foldl f s) := by
  induction as generalizing s with
  | nil => exact .refl
  | cons a as ih => exact (hf s a).trans (ih (f s a))

theorem rounds_resetCall (env : Env) (p : PipeNo) (s : Cntl n) (i : Fin n) :
    Rounds ok s (s.resetCall env p i) := by
  rw [resetCall]
  split
  · rename_i h
    exact (acts_request env s i (by decide) (by decide)).rounds h.1
  · exact .refl

theorem rounds_dss1PipeResetInd (env : Env) (s : Cntl n) (p : PipeNo) :
    Rounds ok s (s.dss1PipeResetInd env p) := Rounds.foldl (rounds_resetCall env p) _ _

theorem rounds_pause (env : Env) (s : Cntl n) (p : PipeNo) : Rounds ok s (s.pause env p) := by
  have h : Resends s ({ s with paused := Function.update s.paused p true } : Cntl n) :=
    Resends.refl.data rfl rfl rfl
  exact h.rounds.trans (rounds_dss1PipeResetInd env _ p)

theorem rounds_disconnectCall (env : Env) (aiType : AiType) (sc : Nat) (s : Cntl n) (i : Fin n) :
    Rounds ok s (s.disconnectCall env aiType sc i) := by
  rw [disconnectCall]
  split
  · rename_i h
    have hc : ok → Handled causeI4bNormal := fun _ => by decide
    exact (acts_disconnect env s i hc hc).rounds h.1
  · exact .refl

/-! ## All actions

`Effect` has a case for each kind of action, and is what the results about panics are proved from; `Fate` is
the same from the side of one call.
-/

/-- An application does not want the call. -/
def Ignores (s : Cntl n) (i : Fin n) : Action n → AiType → Nat → Prop
  | .i4b sc cdid (.connectResp .dontCare _ _ _ _), .i4b, x =>
    x = sc ∧ s.cdByCdid cdid = some i ∧ s.Owns i .i4b sc
  | .capi sc cdid (.connectResp 1 _ _), .capi, x =>
    x = sc ∧ s.cdByCdid cdid = some i ∧ s.Owns i .capi sc ∧ (s.cd i).dirIncoming = true
  | _, _, _ => False

/-- The application that issues a command. -/
def By : Action n → AiType → Nat → Prop
  | .i4b sc _ _, .i4b, x => x = sc
  | .capi sc _ _, .capi, x => x = sc
  | .bridge sc _ _, .capi, x => x = sc
  | .unbridge sc _ _, .capi, x => x = sc
  | _, _, _ => False

/-- The cause of a command that is carried out is known to `i4b_make_q850_cause`. -/
def CauseKnown (s : Cntl n) : Action n → Prop
  | .i4b sc cdid r => ∀ i, s.cdByCdid cdid = some i → s.Owns i .i4b sc → r.CauseHandled
  | _ => True

/-- What an action does. -/
inductive Effect (ok : Prop) (env : Env) (a : Action n) (s t : Cntl n) : Prop where
  /-- Calls go on or end. -/
  | rounds (h : Rounds ok s t)
  /-- There is a new call. -/
  | begins (i : Fin n) (aiType : AiType) (aiPtr : Nat) {m : Cntl n} (h : Begins i aiType aiPtr s m)
      (h' : Acts ok i m t ∨ Offers ok env i m t)
  /-- A call is offered again. -/
  | offers (i : Fin n) (ha : (s.cd i).Allocated) (hd : ∃ p buf broadcast, a = .dataInd p buf broadcast)
      (h : Offers ok env i s t)
  | commands (i : Fin n) (ha : (s.cd i).Allocated) (k : AiType) (x : Nat) (hb : By a k x)
      (h : Commands ok i k x s t)
  | refuses (i : Fin n) (ha : (s.cd i).Allocated) (k : AiType) (x : Nat) (hi : Ignores s i a k x)
      (h : Refuses ok i s t)

/-- A message for a call. -/
theorem effect_receive (env : Env) (s : Cntl n) (i : Fin n) (p p' : PipeNo) (event : Event)
    (elements : Buf) (buf : List UInt8) (broadcast : Bool) (ha : (s.cd i).Allocated) :
    Effect ok env (.dataInd p' buf broadcast) s (s.receive env i p event elements) := by
  rcases acts_receive ok env s i p event elements with h | h
  · exact .rounds (h.rounds ha)
  · exact .offers i ha ⟨p', buf, broadcast, rfl⟩ h

/-- A message for no call ends calls, or is answered. -/
theorem rounds_receiveUnknown (env : Env) (s : Cntl n) (p : PipeNo) (m : Start) (broadcast : Bool) :
    Rounds ok s (s.receiveUnknown env p m broadcast) := by
  have htx : ∀ (mt : UInt8) (cause restart : Option Nat), (∀ c, cause = some c → Handled c) →
      Resends s (s.dss1L3TxMessageByPipeCr env p m.crval mt cause restart) := by
    intro mt cause restart hc
    have hask : Resends s s.ask.2 := Resends.refl.data rfl rfl rfl
    rw [dss1L3TxMessageByPipeCr]
    refine Resends.ite ?_ hask
    split
    · rename_i hm
      rw [messageByPipeCr, Option.map_eq_none_iff] at hm
      cases cause with
      | none => cases hm
      | some c =>
        have h := hc c rfl
        rw [Option.elim_some, causeElement, Option.map_eq_none_iff] at hm
        rw [Handled, hm] at h
        cases h
    · exact hask.put _
  rw [receiveUnknown]
  split
  · split
    · exact (htx _ _ _ fun _ h => by cases h).rounds.trans (rounds_dss1PipeResetInd env _ p)
    · exact .refl
  · split
    · refine (htx _ _ _ ?_).rounds
      rintro c ⟨⟩
      decide
    · exact .refl

theorem effect_dss1PipeDataInd (env : Env) (s : Cntl n) (p : PipeNo) (buf : List UInt8)
    (broadcast : Bool) :
    Effect ok env (.dataInd p buf broadcast) s (s.dss1PipeDataInd env p buf broadcast) := by
  rw [dss1PipeDataInd]
  split
  · exact .rounds .refl
  · dsimp only
    split
    · rename_i i hi
      exact effect_receive env s i p p _ _ buf broadcast (matches_of_cdByUnitcr hi).1
    · split
      · rcases nAllocateCd_effect env s (some p) (readStart (Buf.init buf)).crval .broadcast 0
          with ⟨t, ht, hf⟩ | ⟨i, t, ht, hb⟩
        · rw [ht]
          exact .rounds hf.rounds
        · rw [ht]
          exact .begins i .broadcast 0 hb (acts_receive _ env t i p _ _)
      · exact .rounds (rounds_receiveUnknown env s p _ broadcast)

/-- A command of `/dev/i4b`, on any descriptor. -/
theorem effect_i4bIoctl (env : Env) (s : Cntl n) (sc cdid : Nat) (r : I4bRequest)
    (hc : ok → s.CauseKnown (.i4b sc cdid r)) :
    Effect ok env (.i4b sc cdid r) s (s.i4bIoctl env sc cdid r) := by
  rw [i4bIoctl.eq_def]
  cases hi : s.cdByCdid cdid with
  | some i =>
    have ha : (s.cd i).Allocated := allocated_of_cdByCdid hi
    dsimp only
    split
    · rename_i hown
      have hk : ok → r.CauseHandled := fun ho => hc ho i hi hown
      by_cases hr : r.Ignore
      · refine .refuses i ha .i4b sc ?_ (refuses_i4bCommand env s i sc hr hk)
        cases r with
        | connectResp response cause driver driverUnit maxIdleTime =>
          cases response with
          | dontCare => exact ⟨rfl, hi, hown⟩
          | _ => exact hr.elim
        | _ => exact hr.elim
      · exact .commands i ha .i4b sc rfl (acts_i4bCommand env s i sc hr hk)
    · exact .rounds .refl
  | none =>
    dsimp only
    split
    · rcases nAllocateCd_effect env s none 0 .i4b sc with ⟨t, ht, hf⟩ | ⟨i, t, ht, hb⟩
      · rw [ht]
        exact .rounds hf.rounds
      · rw [ht]
        exact .begins i .i4b sc hb (.inl (.inl .refl))
    · exact .rounds .refl

/-- A command of CAPI. -/
theorem effect_capiWrite (env : Env) (s : Cntl n) (sc cdid : Nat) (r : CapiRequest) :
    Effect ok env (.capi sc cdid r) s (s.capiWrite env sc cdid r) := by
  rw [capiWrite.eq_def]
  cases hi : s.cdByCdid cdid with
  | some i =>
    have ha : (s.cd i).Allocated := allocated_of_cdByCdid hi
    dsimp only
    split
    · rename_i hown
      by_cases hr : r.Ignore
      · rcases refuses_capiCommand ok env s i sc hr with ⟨-, heq⟩ | ⟨hd, h⟩
        · rw [heq]
          exact .rounds .refl
        · refine .refuses i ha .capi sc ?_ h
          cases r with
          | connectResp reject bProtocol dateTime =>
            obtain rfl : reject = 1 := hr
            exact ⟨rfl, hi, hown, hd⟩
          | _ => exact hr.elim
      · exact .commands i ha .capi sc rfl (acts_capiCommand _ env s i sc hr)
    · exact .rounds .refl
  | none =>
    dsimp only
    split
    · rename_i r
      rcases nAllocateCd_effect env s none 0 .capi sc with ⟨t, ht, hf⟩ | ⟨i, t, ht, hb⟩
      · rw [ht]
        exact .rounds hf.rounds
      · rw [ht]
        exact .begins i .capi sc hb (.inl (acts_capiConnect _ env t i sc r))
    · exact .rounds .refl

theorem acts_i4bIdleCheck (env : Env) (s : Cntl n) (i : Fin n) : Acts ok i s (s.i4bIdleCheck env i) := by
  have h : Keeps ok i s s := .refl
  rw [i4bIdleCheck]
  split
  · split
    · exact .inl h
    · exact .inl h.idleStarted
    · dsimp only
      split
      · exact .inl (h.ask.idleStarted.ite (h.ask.modify ⟨rfl, rfl, id, id, id⟩))
      · have h1 : Keeps ok i s ((s.ask.2.modify i fun cd =>
            { cd with idleState := .notStarted }).tell i .idleTimeout) :=
          (h.ask.modify ⟨rfl, rfl, id, id, id⟩).tell _
        exact h1.acts (acts_nDisconnectRequest env _ i fun _ => by decide)
  · exact .inl h

theorem i4bIdleCheck_of_free (env : Env) {s : Cntl n} {i : Fin n} (h : ¬ (s.cd i).Allocated) :
    s.i4bIdleCheck env i = s := by
  rw [i4bIdleCheck, if_neg fun hc => h hc.2]

/-- Every action but attachment. -/
theorem effect_perform (ok : Prop) (env : Env) {s : Cntl n} {a : Action n} (ht : s.line.Tidy)
    (hen : s.Enabled a) (hna : ∀ nt ptp pr, a ≠ .attach nt ptp pr) (hc : ok → s.CauseKnown a) :
    Effect ok env a s (s.perform env a) := by
  have h0 : Resends s s := .refl
  cases a with
  | dataInd p buf broadcast => exact effect_dss1PipeDataInd env s p buf broadcast
  | activate p => exact .rounds (Resends.refl.dss1PipeActivateReq p).rounds
  | resend => exact .rounds (Resends.refl.dss1PipeResendInd _ adapter).rounds
  | pause p => exact .rounds (rounds_pause env s p)
  | stateTimeout i =>
    have ha : (s.cd i).Allocated := (ht i).callout.mp hen
    have h1 : Keeps ok i s (s.modify i fun cd => { cd with setStateCallout := false }) :=
      Keeps.refl.modify ⟨rfl, rfl, id, id, id⟩
    have h2 : Acts ok i s (s.perform env (.stateTimeout i)) := by
      rw [perform, cdSetStateTimeout]
      exact Acts.ite (h1.acts (acts_cdSetState env _ i _)) (.inl h1)
    exact .rounds (h2.rounds ha)
  | idleTimeout i =>
    have h1 : Keeps ok i s (s.modify i fun cd => { cd with idleCallout := false }) :=
      Keeps.refl.modify ⟨rfl, rfl, id, id, id⟩
    by_cases ha : (s.cd i).Allocated
    · exact .rounds ((h1.acts (acts_i4bIdleCheck env _ i)).rounds ha)
    · have hf : ¬ ((s.modify i fun cd => { cd with idleCallout := false }).cd i).Allocated := by
        rw [modify_cd_self]
        exact ha
      rw [perform, i4bIdleCheck_of_free env hf]
      exact .rounds (Fails.rounds (.inr ⟨i, Quiet.refl.modify _, ha, hf⟩))
  | l1Activity up => exact .rounds (h0.data (t := { s with l1Activity := up }) rfl rfl rfl).rounds
  | receivedFrame => exact .rounds (h0.data (t := { s with receivedFrame := true }) rfl rfl rfl).rounds
  | l1ActivityTimeout =>
    have h1 : Resends s ({ s with l1ActivityCallout := false } : Cntl n) := h0.data rfl rfl rfl
    exact .rounds h1.dss1L1ActivityTimeout.rounds
  | options nt nd np ns =>
    have h1 : Resends s (s.perform env (.options nt nd np ns)) := h0.data rfl rfl rfl
    exact .rounds h1.rounds
  | i4b sc cdid r => exact effect_i4bIoctl env s sc cdid r hc
  | capi sc cdid r => exact effect_capiWrite env s sc cdid r
  | bridge sc cdid dst =>
    rw [perform]
    split
    · rename_i i hi
      exact .commands i (allocated_of_cdByCdid hi) .capi sc rfl
        (commands_capiConnectBridge _ env s i sc dst)
    · exact .rounds .refl
  | unbridge sc cdid dst =>
    rw [perform]
    split
    · rename_i i hi
      exact .commands i (allocated_of_cdByCdid hi) .capi sc rfl
        (commands_capiDisconnectBridge _ s i sc dst)
    · exact .rounds .refl
  | closed aiType sc => exact .rounds (Rounds.foldl (rounds_disconnectCall env aiType sc) _ s)
  | attach nt ptp pr => exact absurd rfl (hna nt ptp pr)
  | detach =>
    have h1 : Resends s ({ s with
        connected := false
        l1Activity := false
        l1AutoActivate := 0
        l1DeactivateCount := false
        l1ActivityCallout := false } : Cntl n) := h0.data rfl rfl rfl
    exact .rounds (h1.rounds.trans (Rounds.foldl (rounds_pause env) _ _))

/-! ## No panic

Whether something panics depends on the call that is dealt with, so an invariant for all calls is
needed.  A call that is begun in an action has a pipe and no causes yet.
-/

theorem Begins.peaceful {aiType : AiType} {aiPtr : Nat} (h : Begins i aiType aiPtr s t)
    (hs : Peaceful s) : Peaceful t := (h.calm hs.halted).peaceful hs h.toTouches

theorem Offers.peaceful (h : Offers ok env i s t) (ho : ok) (hs : Peaceful s)
    (hi : (s.cd i).Allocated) : Peaceful t := (h.calm (hs.calm ho hi)).peaceful hs h.toTouches

theorem Declines.peaceful (h : Declines ok i s t) (ho : ok) (hs : Peaceful s)
    (hi : (s.cd i).Allocated) : Peaceful t := (h.calm (hs.calm ho hi)).peaceful hs h.toTouches

theorem Adopts.allocated {aiType : AiType} {sc : Nat} (h : Adopts ok i aiType sc s t)
    (hi : (s.cd i).Allocated) : (t.cd i).Allocated := by
  have hc : (t.cd i).cdid = (s.cd i).cdid := congrArg Prod.fst h.holder
  rw [Call.Allocated, hc]
  exact hi

theorem Commands.peaceful {aiType : AiType} {sc : Nat} (h : Commands ok i aiType sc s t) (ho : ok)
    (hs : Peaceful s) (hi : (s.cd i).Allocated) : Peaceful t := by
  obtain ⟨m, hm, ht⟩ := h
  obtain ⟨hpm, him⟩ : Peaceful m ∧ (m.cd i).Allocated := by
    rcases hm with rfl | hm
    · exact ⟨hs, hi⟩
    · exact ⟨(hm.calm (hs.calm ho hi)).peaceful hs hm.toTouches, hm.allocated hi⟩
  rcases ht with ht | ⟨ht, -⟩
  · exact ht.peaceful ho hpm him
  · exact ht.peaceful ho hpm him

/-- An action does not panic, and leaves nothing behind that makes anything panic. -/
theorem Effect.peaceful {a : Action n} (h : Effect ok env a s t) (ho : ok) (hs : Peaceful s) :
    Peaceful t := by
  cases h with
  | rounds h => exact h.peaceful ho hs
  | begins i k x h h' =>
    rcases h' with h' | h'
    · exact h'.peaceful ho (h.peaceful hs) h.allocated
    · exact h'.peaceful ho (h.peaceful hs) h.allocated
  | offers i ha hd h => exact h.peaceful ho hs ha
  | commands i ha k x hb h => exact h.peaceful ho hs ha
  | refuses i ha k x hi h =>
    rcases h with ⟨-, h⟩ | h
    · exact h.peaceful ho hs ha
    · exact h.peaceful ho hs ha

/-! ## What happens to a call -/

/-- The call was nobody's before and is an application's own now, or it was ended by it at once. -/
structure Adopted (i : Fin n) (aiType : AiType) (sc : Nat) (s t : Cntl n) : Prop where
  before : (s.cd i).aiType = .broadcast
  told : ∃ cause done, t.out = s.out ++ done ∧
    .ind (s.cd i).cdid aiType sc (.disconnect cause true) ∈ done
  after : holder (t.cd i) = ((s.cd i).cdid, aiType, sc) ∨
    (¬ (t.cd i).Allocated ∧ ∃ cause done, t.out = s.out ++ done ∧
      .ind (s.cd i).cdid aiType sc (.disconnect cause false) ∈ done)

/-- What an action does to a call. -/
inductive Fate (a : Action n) (i : Fin n) (s t : Cntl n) : Prop where
  | stays (h : Stays i s t)
  | offers (hd : ∃ p buf broadcast, a = .dataInd p buf broadcast) (ht : Told i s t .connect)
      (hh : holder (t.cd i) = holder (s.cd i))
      (hc : ∃ k env, (t.cd i).connectIndCount = Env.copies env k % 2 ^ 16)
  | declines (hi : (∃ k x, Ignores s i a k x) ∨ (s.cd i).aiType ≠ .broadcast)
      (ho : s.out <+: t.out) (hh : holder (t.cd i) = holder (s.cd i))
      (h2 : 2 ≤ (s.cd i).connectIndCount)
      (hc : (t.cd i).connectIndCount + 1 = (s.cd i).connectIndCount)
  | ends (h : Ended i s t)
  | adopts (k : AiType) (x : Nat) (hb : By a k x) (h : Adopted i k x s t)

theorem Acts.fate {a : Action n} (h : Acts ok i s t) : Fate a i s t := by
  rcases h with h | h
  · exact .stays h.stays
  · exact .ends h.ended

theorem Touches.fate {a : Action n} {j : Fin n} (h : Touches j s t) (hj : i ≠ j) : Fate a i s t :=
  .stays (h.stays hj)

/-- After the adoption the call goes on, or ends. -/
theorem Adopts.adopted {k : AiType} {x : Nat} {m : Cntl n} (h : Adopts ok i k x s m)
    (ht : m.out <+: t.out)
    (h' : Cntl.holder (t.cd i) = Cntl.holder (m.cd i) ∨ Ends ok i m t) : Adopted i k x s t := by
  obtain ⟨cause, done, hd, hmem⟩ := h.told
  obtain ⟨more, hm⟩ := ht
  refine ⟨h.before, ⟨cause, done ++ more, ?_, List.mem_append_left _ hmem⟩, ?_⟩
  · rw [← hm, hd, List.append_assoc]
  · rcases h' with h' | h'
    · exact .inl (h'.trans h.holder)
    · obtain ⟨cause', done', hd', hmem'⟩ := h'.told
      obtain ⟨h1, h2, h3⟩ : (m.cd i).cdid = (s.cd i).cdid ∧ (m.cd i).aiType = k ∧
          (m.cd i).aiPtr = x := by simpa only [Cntl.holder, Prod.mk.injEq] using h.holder
      rw [h1, h2, h3] at hmem'
      refine .inr ⟨fun ha => ha h'.free, cause', done ++ done', ?_, List.mem_append_right _ hmem'⟩
      rw [hd', hd, List.append_assoc]

theorem Commands.fate {a : Action n} {k : AiType} {x : Nat} (h : Commands ok i k x s t)
    (hb : By a k x) : Fate a i s t := by
  obtain ⟨m, rfl | hm, ht⟩ := h
  · rcases ht with ht | ⟨ht, hne⟩
    · exact ht.fate
    · exact .declines (.inr hne) ht.out ht.holder ht.before ht.count
  · refine .adopts k x hb ?_
    rcases ht with (ht | ht) | ⟨ht, -⟩
    · exact hm.adopted ht.out (.inl ht.holder)
    · exact hm.adopted ht.out (.inr ht)
    · exact hm.adopted ht.out (.inl ht.holder)

theorem Offers.fate {a : Action n} (h : Offers ok env i s t)
    (hd : ∃ p buf broadcast, a = .dataInd p buf broadcast) : Fate a i s t := by
  obtain ⟨k, hk⟩ := h.count
  exact .offers hd h.told h.holder ⟨k, env, hk⟩

/-- From the kind of action to the call. -/
theorem Effect.fate {a : Action n} (h : Effect ok env a s t) (hi : (s.cd i).Allocated) :
    Fate a i s t := by
  cases h with
  | rounds h =>
    rcases h.call i hi with h | h
    · exact .stays h
    · exact .ends h
  | begins j k x h h' =>
    have hij : i ≠ j := by
      rintro rfl
      exact h.before hi
    rcases h' with h' | h'
    · exact (h.toTouches.trans h'.touches).fate hij
    · exact (h.toTouches.trans h'.toTouches).fate hij
  | offers j ha hd h =>
    by_cases hij : i = j
    · subst hij
      exact h.fate hd
    · exact h.toTouches.fate hij
  | commands j ha k x hb h =>
    by_cases hij : i = j
    · subst hij
      exact h.fate hb
    · exact h.touches.fate hij
  | refuses j ha k x hg h =>
    by_cases hij : i = j
    · subst hij
      rcases h with ⟨-, h⟩ | h
      · exact h.fate
      · exact .declines (.inl ⟨k, x, hg⟩) h.out h.holder h.before h.count
    · rcases h with ⟨-, h⟩ | h
      · exact h.touches.fate hij
      · exact h.toTouches.fate hij

/-- **What an action does to a call.** -/
theorem fate_perform (env : Env) {s : Cntl n} {a : Action n} (ht : s.line.Tidy) (hen : s.Enabled a)
    (hna : ∀ nt ptp pr, a ≠ .attach nt ptp pr) (hi : (s.cd i).Allocated) :
    Fate a i s (s.perform env a) :=
  (effect_perform False env ht hen hna False.elim).fate hi

/-- An application that does not want the call ends it only as the last one. -/
theorem refuses_perform (env : Env) {s : Cntl n} {a : Action n} {k : AiType} {x : Nat}
    (h : Ignores s i a k x) : Refuses False i s (s.perform env a) := by
  rw [Ignores.eq_def] at h
  split at h
  · obtain ⟨rfl, hi, hown⟩ := h
    rw [perform, i4bIoctl.eq_def, hi]
    dsimp only
    rw [if_pos hown]
    refine refuses_i4bCommand env s i _ ?_ False.elim
    exact trivial
  · rename_i cdid bProtocol dateTime
    obtain ⟨rfl, hi, hown, hd⟩ := h
    rw [perform, capiWrite.eq_def, hi]
    dsimp only
    rw [if_pos hown]
    have hr : (CapiRequest.connectResp 1 bProtocol dateTime).Ignore := rfl
    rcases refuses_capiCommand False env s i _ hr with ⟨hd', -⟩ | ⟨-, h⟩
    · rw [hd] at hd'
      cases hd'
    · exact h
  · exact h.elim

end Cntl

end L3
end Isdn4bsd
