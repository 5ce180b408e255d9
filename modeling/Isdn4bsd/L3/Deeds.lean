import Isdn4bsd.L3.Moves
import Isdn4bsd.L3.References

/-!
# Layer 3: the deeds of a controller

What happens to a controller consists of moves of the state machine, and of what requests and
messages write into descriptors.

* `Write`: what is written, for each action: its cases are the places in the source where the numbers and texts
  of a descriptor are written other than by a move.
* `Turn`: a deed, with the messages it hands to layer 2 and the references it names.
* `turns_perform`, `deeds_perform`: **an action is a sequence of deeds**, which are moves and writes.
* `Deeds.rel` and `Lasting.reach`: the rules for relations and invariants of descriptors.

## Turns and deeds

`Deed` is enough for what is said about descriptors alone: an invariant of a descriptor that is kept by moves
and by what is written (`Lasting`) holds at any time, in the course of an action too.  The latter is needed
since messages are made and queues are cut in the middle of an action, where no state is reached yet.

`Turn` says in addition what was sent, and what was written about the reference of a call (`Named`): nothing,
a reference of one's own, or the one of a message.  That is what two controllers need to know of each other
(`Isdn4bsd.L3.Peers`).
-/

set_option autoImplicit false

namespace Isdn4bsd
namespace L3

open L2 (PipeNo adapter)

/-- The message in a request to layer 2. -/
def Output.message? : Output → Option (List UInt8)
  | .down (.request (.dataReq _ body)) => some body
  | _ => none

namespace Cntl

variable {n : Nat} {env : Env} {i : Fin n} {r s t : Cntl n}

/-! ## What is written

An action begins with strings that come from a message or from a request, and these are written to a
descriptor.
-/

/-- What a message writes into the descriptor of its call. -/
def heard (env : Env) (ntMode : Bool) (event : Event) (elements : Buf) (cd : CallDesc) : CallDesc :=
  let cd := if event = .connect then { cd with idateTimeLen := 0 } else cd
  let cd := if event = .setup then { cd with dstTelnoPtr := 0 } else cd
  let cd := { cd with dstTelnoPart := [], peerResponded := true }
  dss1DecodeIe (dss1DecodeQ931Cs0IeCd env ntMode) cd elements

theorem readMessage_eq (env : Env) (s : Cntl n) (i : Fin n) (event : Event) (elements : Buf) :
    s.readMessage env i event elements = s.modify i (heard env s.ntMode event elements) := rfl

theorem reads_heard (env : Env) (ntMode : Bool) (event : Event) (elements : Buf) (cd : CallDesc) :
    Reads cd.toCall (heard env ntMode event elements cd).toCall := by
  rw [heard]
  refine .trans ?_ (reads_decodeIeLoop (reads_dss1DecodeQ931Cs0IeCd ntMode) _ 0 0 _ elements)
  exact reads_ite (c := cd.toCall) (reads_ite .rfl .rfl) (reads_ite .rfl .rfl)

/-- What a request for more digits writes. -/
def dialled (digits : List UInt8) (cd : CallDesc) : CallDesc :=
  let digits := digits.take (telnoMax - 1)
  let cd := { cd with dstTelnoPart := cstr digits }
  if cd.dirIncoming then cd
  else
    let dst := min cd.dstTelnoPtr (telnoMax - 1)
    let digits := digits.take (telnoMax - 1 - dst)
    { cd with
      dstTelno := writeAt cd.dstTelno dst (digits ++ [0])
      dstTelnoPtr := dst + digits.length }

theorem toCall_dialled (digits : List UInt8) (cd : CallDesc) :
    (dialled digits cd).toCall = cd.toCall := by
  rw [dialled]
  dsimp only
  split
  · rfl
  · rfl

theorem i4bL3InformationReq_eq (env : Env) (s : Cntl n) (i : Fin n) (digits : List UInt8) :
    s.i4bL3InformationReq env i digits = (s.modify i (dialled digits)).cdUpdate env i none .inforq :=
  rfl

/-- The descriptor of a call that begins. -/
def begun (incoming : Bool) (crval : Nat) (aiType : AiType) (aiPtr : Nat) (cd : CallDesc) : CallDesc :=
  { cd with
    dirIncoming := incoming
    channelId := chanAny
    channelBprot := bprotNone
    cr := if incoming then crval else cdid2Callreference cd.cdid
    dstTelnoPtr := 0
    aiType := aiType
    aiPtr := aiPtr }

theorem setupCall_eq (s : Cntl n) (i : Fin n) (p : Option PipeNo) (crval : Nat) (aiType : AiType)
    (aiPtr : Nat) :
    s.setupCall i p crval aiType aiPtr = s.modify i (begun p.isSome crval aiType aiPtr) := rfl

/-- What an action writes into a descriptor. -/
inductive Write (env : Env) (ntMode : Bool) : Action n → CallDesc → CallDesc → Prop where
  /-- A descriptor that is allocated is cleared. -/
  | clear (a : Action n) (cd : CallDesc) (cdid : Nat) :
      Write env ntMode a cd { ({} : CallDesc) with cdid := cdid }
  | beginOutgoing (a : Action n) (cd : CallDesc) (crval : Nat) (aiType : AiType) (aiPtr : Nat) :
      Write env ntMode a cd (begun false crval aiType aiPtr cd)
  | beginIncoming (p : PipeNo) (buf : List UInt8) (broadcast : Bool) (cd : CallDesc) :
      Write env ntMode (.dataInd p buf broadcast) cd
        (begun true (readStart (Buf.init buf)).crval .broadcast 0 cd)
  | hear (p : PipeNo) (buf : List UInt8) (broadcast : Bool) (event : Event) (cd : CallDesc) :
      Write env ntMode (.dataInd p buf broadcast) cd
        (heard env ntMode event (readStart (Buf.init buf)).elements cd)
  | connectReq (sc cdid : Nat) (r : ConnectReq) (cd : CallDesc) :
      Write env ntMode (.i4b sc cdid (.connectReq r)) cd (storeConnectReq r cd)
  | informationReq (sc cdid : Nat) (digits : Str) (cd : CallDesc) :
      Write env ntMode (.i4b sc cdid (.informationReq digits)) cd (dialled (cstr digits) cd)
  | capiConnect (sc cdid : Nat) (r : CapiConnect) (cd : CallDesc) :
      Write env ntMode (.capi sc cdid (.connect r)) cd (storeCapiConnect r cd)
  | capiInfo (sc cdid : Nat) (facility : Option UInt8) (dstTelno : List UInt8) (cd : CallDesc) :
      Write env ntMode (.capi sc cdid (.info facility dstTelno)) cd (dialled (dstTelno.drop 1) cd)
  | deflect (sc cdid : Nat) (dstTelno : List UInt8) (cd : CallDesc) :
      Write env ntMode (.capi sc cdid (.deflect dstTelno)) cd
        { cd with dstTelnoPart := cstr ((dstTelno.drop 3).take (telnoMax - 1)) }

/-- What an action consists of. -/
inductive Deed (env : Env) (a : Action n) : Cntl n → Cntl n → Prop where
  | moves {s t : Cntl n} (i : Fin n) (h : Moves env i True s t) : Deed env a s t
  | write {s t : Cntl n} (i : Fin n) (h : Write env s.ntMode a (s.cd i) (t.cd i))
      (hrest : ∀ j, j ≠ i → t.cd j = s.cd j) (hmode : t.mode = s.mode) : Deed env a s t
  /-- The controller is attached. -/
  | attach {s t : Cntl n} (h : ∀ j, t.cd j = {}) : Deed env a s t
  /-- Other data of the controller. -/
  | data {s t : Cntl n} (h : t.cd = s.cd) : Deed env a s t

/-- Several of them. -/
abbrev Deeds (env : Env) (a : Action n) : Cntl n → Cntl n → Prop :=
  Relation.ReflTransGen (Deed env a)

/-! ## What is said

What else an action does is a sequence of moves, so a deed is one or the other.
-/

/-- The messages that were handed to layer 2. -/
def messages (s : Cntl n) : List (List UInt8) := s.out.filterMap Output.message?

theorem messages_of_out {o : Output} (hout : t.out = s.out ++ [o]) (ho : o.message? = none) :
    t.messages = s.messages := by
  rw [messages, hout, List.filterMap_append, List.filterMap_cons_none ho, List.filterMap_nil,
    List.append_nil]
  rfl

theorem messages_of_message {p : PipeNo} {body : List UInt8}
    (hout : t.out = s.out ++ [.down (.request (.dataReq p body))]) : t.messages = s.messages ++ [body] := by
  rw [messages, hout, List.filterMap_append]
  rfl

/-- What is written about the reference of a call: nothing, a reference of one's own, which is small
if `N_cdid_end` is in order, or the one of a message, with the flag. -/
inductive Named (ok : Prop) (a : Action n) (cd cd' : CallDesc) : Prop where
  | same (hcr : cd'.cr = cd.cr) (hd : cd'.dirIncoming = cd.dirIncoming)
  | own (hcr : ok → cd'.cr < 0x80) (hd : cd'.dirIncoming = false)
  | read (p : PipeNo) (buf : List UInt8) (broadcast : Bool) (ha : a = .dataInd p buf broadcast)
      (hcr : cd'.cr = (readStart (Buf.init buf)).crval) (hd : cd'.dirIncoming = true)
      (hflag : (readStart (Buf.init buf)).crval &&& 0x80 ≠ 0)

/-- A deed, with what it says about references: apart from the moves, only messages that belong to no
call are answered. -/
inductive Turn (env : Env) (ok : Prop) (a : Action n) : Cntl n → Cntl n → Prop where
  | moves {s t : Cntl n} (i : Fin n) (h : Moves env i True s t) : Turn env ok a s t
  | write {s t : Cntl n} (i : Fin n) (h : Write env s.ntMode a (s.cd i) (t.cd i))
      (hnamed : Named ok a (s.cd i) (t.cd i)) (hrest : ∀ j, j ≠ i → t.cd j = s.cd j)
      (hmode : t.mode = s.mode) (hsaid : t.messages = s.messages) :
      Turn env ok a s t
  | attach {s t : Cntl n} (h : ∀ j, t.cd j = {}) (hsaid : t.messages = s.messages) : Turn env ok a s t
  | data {s t : Cntl n} (h : t.cd = s.cd) (hsaid : t.messages = s.messages) : Turn env ok a s t
  | answer {s t : Cntl n} (p : PipeNo) (buf : List UInt8) (broadcast : Bool)
      (ha : a = .dataInd p buf broadcast) (mt : UInt8) (els : List UInt8) (h : t.cd = s.cd)
      (hsaid : t.messages
        = s.messages ++ [header s.primaryRate (readStart (Buf.init buf)).crval mt ++ els]) :
      Turn env ok a s t

theorem Turn.deed {ok : Prop} {a : Action n} (h : Turn env ok a s t) : Deed env a s t := by
  cases h with
  | moves i h => exact .moves i h
  | write i h hnamed hrest hmode hsaid => exact .write i h hrest hmode
  | attach h hsaid => exact .attach h
  | data h hsaid => exact .data h
  | answer p buf broadcast ha mt els h hsaid => exact .data h

/-- Several of them. -/
abbrev Turns (env : Env) (ok : Prop) (a : Action n) : Cntl n → Cntl n → Prop :=
  Relation.ReflTransGen (Turn env ok a)

theorem Turns.deeds {ok : Prop} {a : Action n} (h : Turns env ok a s t) : Deeds env a s t := by
  induction h with
  | refl => exact .refl
  | tail _ ht ih => exact ih.tail ht.deed

/-- Taking an id changes counters only. -/
theorem getCdid_rest (s : Cntl n) :
    s.getCdid.2.cd = s.cd ∧ s.getCdid.2.mode = s.mode ∧ s.getCdid.2.out = s.out := by
  rw [getCdid]
  split
  · exact ⟨rfl, rfl, rfl⟩
  · exact ⟨rfl, rfl, rfl⟩

theorem cd_dss1L3TxMessageByPipeCr (env : Env) (s : Cntl n) (p : PipeNo) (cr : Nat)
    (messageType : UInt8) (causeOut restartIndication : Option Nat) :
    (s.dss1L3TxMessageByPipeCr env p cr messageType causeOut restartIndication).cd = s.cd := by
  rw [dss1L3TxMessageByPipeCr]
  split
  · split
    · rfl
    · rfl
  · rfl

/-- The ids that are given to calls have references without the flag. -/
def SmallIds (s : Cntl n) : Prop := s.CdidEndOk ∧ s.cdidEnd ≤ 0x80

theorem cdid2Callreference_small (hs : s.SmallIds) (h : s.i4bAllocateCd = (some i, t)) :
    cdid2Callreference (t.cd i).cdid < 0x80 := by
  rcases i4bAllocateCd_cases s hs.1 with ⟨t', h', -⟩ | ⟨j, t', cdid, h', -, hfresh, hline⟩
  · rw [h] at h'
    cases h'
  · rw [h] at h'
    cases h'
    obtain ⟨ref, -, hlt, rfl⟩ := hfresh.range
    have hcdid := congrArg (fun l : Line n => (l.cd i).cdid) hline
    simp only [Line.set_cd_self, line_cd] at hcdid
    rw [hcdid, cdid2Callreference_makeCdid]
    exact hlt.trans_le hs.2

theorem named_dialled {ok : Prop} {a : Action n} (digits : List UInt8) (cd : CallDesc) :
    Named ok a cd (dialled digits cd) :=
  .same (congrArg Call.cr (toCall_dialled digits cd))
    (congrArg Call.dirIncoming (toCall_dialled digits cd))

theorem named_heard {ok : Prop} {a : Action n} (env : Env) (ntMode : Bool) (event : Event)
    (elements : Buf) (cd : CallDesc) : Named ok a cd (heard env ntMode event elements cd) := by
  obtain ⟨⟨channelId, causeIn, heq⟩, -, -⟩ := reads_heard env ntMode event elements cd
  exact .same (by rw [heq]) (by rw [heq])

namespace Turns

variable {ok : Prop} {a : Action n}

theorem moves (i : Fin n) (h : Turns env ok a r s) (hm : Moves env i True s t) : Turns env ok a r t :=
  h.tail (.moves i hm)

theorem data (h : Turns env ok a r s) (hcd : t.cd = s.cd) (hout : t.out = s.out) : Turns env ok a r t :=
  h.tail (.data hcd (congrArg (List.filterMap Output.message?) hout))

theorem write (h : Turns env ok a r s) (i : Fin n) {f : CallDesc → CallDesc}
    (hw : Write env s.ntMode a (s.cd i) (f (s.cd i))) (hn : Named ok a (s.cd i) (f (s.cd i))) :
    Turns env ok a r (s.modify i f) := by
  refine h.tail (.write i ?_ ?_ (fun j hj => modify_cd_of_ne s f hj) rfl rfl)
  · rw [modify_cd_self]
    exact hw
  · rw [modify_cd_self]
    exact hn

theorem ite {c : Prop} [Decidable c] {t' : Cntl n} (h : Turns env ok a r s) (h' : Turns env ok a r t') :
    Turns env ok a r (if c then s else t') := by
  split
  · exact h
  · exact h'

theorem foldl {α : Type} {f : Cntl n → α → Cntl n}
    (hf : ∀ s b, Turns env ok a r s → Turns env ok a r (f s b)) (bs : List α)
    (h : Turns env ok a r s) : Turns env ok a r (bs.foldl f s) := by
  induction bs generalizing s with
  | nil => exact h
  | cons b bs ih => exact ih (hf s b h)

/-- A descriptor is cleared, and has an id or not. -/
theorem i4bAllocateCd (h : Turns env ok a r s) : Turns env ok a r s.i4bAllocateCd.2 := by
  rw [Cntl.i4bAllocateCd]
  split
  · exact h
  · rename_i i _
    obtain ⟨hcd, hmode, hout⟩ := getCdid_rest (s.modify i fun _ => {})
    refine h.tail (.write i ?_ ?_ ?_ hmode (congrArg (List.filterMap Output.message?) hout))
    · dsimp only
      rw [modify_cd_self, hcd, modify_cd_self]
      exact .clear a _ _
    · dsimp only
      rw [modify_cd_self, hcd, modify_cd_self]
      exact .own (fun _ => show 0 < 0x80 by decide) rfl
    · intro j hj
      dsimp only
      rw [modify_cd_of_ne _ _ hj, hcd, modify_cd_of_ne s _ hj]

/-- A call begins. -/
theorem nAllocateCd (env : Env) (h : Turns env ok a r s) (hids : ok → s.SmallIds) (p : Option PipeNo)
    (crval : Nat) (aiType : AiType) (aiPtr : Nat)
    (hw : ∀ ntMode cd, Write env ntMode a cd (begun p.isSome crval aiType aiPtr cd))
    (hin : p.isSome = true → ∀ cd, Named ok a cd (begun true crval aiType aiPtr cd)) :
    Turns env ok a r (s.nAllocateCd env p crval aiType aiPtr).2 := by
  have h1 : Turns env ok a r s.i4bAllocateCd.2 := h.i4bAllocateCd
  rw [Cntl.nAllocateCd]
  split
  · rename_i ha
    rwa [ha] at h1
  · rename_i i m ha
    rw [ha] at h1
    have hn : Named ok a (m.cd i) (begun p.isSome crval aiType aiPtr (m.cd i)) := by
      cases hp : p.isSome with
      | false => exact .own (fun hok => cdid2Callreference_small (hids hok) ha) rfl
      | true => exact hin hp _
    have h2 : Turns env ok a r (m.setupCall i p crval aiType aiPtr) := h1.write i (hw _ _) hn
    exact h2.moves i ((Moves.cdSetPipe .refl i _).cdSetState _)

theorem i4bL3InformationReq (h : Turns env ok a r s) (i : Fin n) (digits : List UInt8)
    (hw : ∀ cd, Write env s.ntMode a cd (dialled digits cd)) :
    Turns env ok a r (s.i4bL3InformationReq env i digits) := by
  rw [i4bL3InformationReq_eq]
  exact (h.write i (hw _) (named_dialled _ _)).moves i (Moves.cdUpdate .refl none .inforq)

/-- A message that belongs to a call. -/
theorem receive {p : PipeNo} {buf : List UInt8} {broadcast : Bool}
    (h : Turns env ok (.dataInd p buf broadcast) r s) (i : Fin n) (event : Event) :
    Turns env ok (.dataInd p buf broadcast) r
      (s.receive env i p event (readStart (Buf.init buf)).elements) := by
  rw [Cntl.receive, readMessage_eq]
  have hw : Write (n := n) env s.ntMode (.dataInd p buf broadcast) (s.cd i)
      (heard env s.ntMode (eventFor (s.cd i) event) (readStart (Buf.init buf)).elements (s.cd i)) :=
    .hear p buf broadcast _ _
  have h1 := h.write i hw (named_heard env _ _ _ _)
  exact Turns.ite h1 (h1.moves i (Moves.cdUpdate .refl _ _))

/-- A message that belongs to no call is answered. -/
theorem answer {p : PipeNo} {buf : List UInt8} {broadcast : Bool}
    (h : Turns env ok (.dataInd p buf broadcast) r s) (messageType : UInt8)
    (causeOut restartIndication : Option Nat) :
    Turns env ok (.dataInd p buf broadcast) r (s.dss1L3TxMessageByPipeCr env p
      (readStart (Buf.init buf)).crval messageType causeOut restartIndication) := by
  rw [Cntl.dss1L3TxMessageByPipeCr]
  refine Turns.ite ?_ (h.data rfl rfl)
  split
  · exact h.data rfl rfl
  · rename_i body hbody
    rw [messageByPipeCr] at hbody
    obtain ⟨cause, -, rfl⟩ := Option.map_eq_some_iff.mp hbody
    rw [List.append_assoc]
    exact h.tail (.answer p buf broadcast rfl messageType _ rfl (messages_of_message rfl))

theorem dss1PipeResetInd (h : Turns env ok a r s) (p : PipeNo) :
    Turns env ok a r (s.dss1PipeResetInd env p) := by
  refine foldl (fun s i h => ?_) _ h
  rw [resetCall]
  exact Turns.ite (h.moves i (Moves.cdUpdate .refl none .release)) h

theorem dss1PipeDataInd (hids : ok → s.SmallIds) (p : PipeNo) (buf : List UInt8) (broadcast : Bool) :
    Turns env ok (.dataInd p buf broadcast) s (s.dss1PipeDataInd env p buf broadcast) := by
  rw [Cntl.dss1PipeDataInd]
  refine Turns.ite .refl ?_
  dsimp only
  split
  · exact receive .refl _ _
  · split
    · rename_i hsetup
      have h1 := nAllocateCd env (.refl (a := s)) hids (some p) (readStart (Buf.init buf)).crval
        .broadcast 0 (fun _ cd => .beginIncoming p buf broadcast cd)
        fun _ _ => .read p buf broadcast rfl rfl rfl hsetup.1
      split
      · rename_i ha
        rw [ha] at h1
        exact h1.receive _ _
      · rename_i ha
        rwa [ha] at h1
    · rw [receiveUnknown]
      refine Turns.ite (Turns.ite ?_ .refl) (Turns.ite ?_ .refl)
      · exact (answer .refl _ none _).dss1PipeResetInd p
      · exact answer .refl _ _ none

theorem i4bCommand (i : Fin n) (sc cdid : Nat) (q : I4bRequest) :
    Turns env ok (.i4b sc cdid q) s (s.i4bCommand env i sc q) := by
  have h : Moves env i True s s := .refl
  cases q with
  | cdidReq => exact .refl
  | connectReq q =>
    rw [Cntl.i4bCommand]
    exact (write .refl i (.connectReq sc cdid q _) (.same rfl rfl)).moves i (Moves.connectOn .refl _)
  | informationReq digits =>
    rw [Cntl.i4bCommand]
    exact i4bL3InformationReq .refl i _ fun cd => .informationReq sc cdid digits cd
  | connectReplayReq =>
    rw [Cntl.i4bCommand]
    exact moves i .refl (Moves.ite (h.put fun _ _ => Output.noConfusion) h)
  | connectResp response cause driver driverUnit maxIdleTime =>
    rw [Cntl.i4bCommand]
    have h1 : Moves env i True s ((s.adoptDriver i sc driver driverUnit).modify i fun cd =>
        { cd with shorthold := { idleTime := maxIdleTime } }) :=
      (h.adoptDriver sc driver driverUnit).note i rfl rfl
    exact moves i .refl (Moves.ite (h.nConnectResponse _ _) (h1.nConnectResponse _ _))
  | linkBChannelDriverReq driver driverUnit activate =>
    rw [Cntl.i4bCommand]
    exact moves i .refl ((h.adoptDriver sc driver driverUnit).i4bLinkBchandrvr i activate)
  | disconnectReq cause =>
    rw [Cntl.i4bCommand]
    exact moves i .refl (Moves.nDisconnectRequest (h.note i rfl rfl) cause)
  | alertReq proceeding =>
    rw [Cntl.i4bCommand]
    exact moves i .refl (h.cdUpdate none _)
  | timeoutUpd shorthold =>
    rw [Cntl.i4bCommand]
    have h1 : Moves env i True s (s.modify i fun cd => { cd with shorthold := shorthold }) :=
      h.note i rfl rfl
    exact moves i .refl (Moves.ite (h1.i4bL4SetupTimeout i) h1)

theorem i4bIoctl (hids : ok → s.SmallIds) (sc cdid : Nat) (q : I4bRequest) :
    Turns env ok (.i4b sc cdid q) s (s.i4bIoctl env sc cdid q) := by
  rw [Cntl.i4bIoctl.eq_def]
  split
  · exact Turns.ite (i4bCommand _ sc cdid q) .refl
  · split
    · exact nAllocateCd env .refl hids none 0 .i4b sc (fun _ cd => .beginOutgoing _ cd 0 .i4b sc)
        fun h => absurd h Bool.false_ne_true
    · exact .refl

theorem capiInfo (i : Fin n) (sc cdid : Nat) (facility : Option UInt8) (dstTelno : List UInt8) :
    Turns env ok (.capi sc cdid (.info facility dstTelno)) s (s.capiInfo env i facility dstTelno) := by
  have h : Moves env i True s s := .refl
  have hask : Turns env ok (.capi sc cdid (.info facility dstTelno)) s s.ask.2 :=
      data .refl rfl rfl
  rw [Cntl.capiInfo]
  split
  · refine moves i .refl (h.confirmed fun h => ?_)
    exact Moves.ite (h.cdUpdate none _) h
  · rw [Cntl.confirmed]
    refine Turns.ite ?_ hask
    exact hask.i4bL3InformationReq i _ fun cd => .capiInfo sc cdid facility dstTelno cd

theorem capiCommand (i : Fin n) (sc cdid : Nat) (q : CapiRequest) :
    Turns env ok (.capi sc cdid q) s (s.capiCommand env i sc q) := by
  have h : Moves env i True s s := .refl
  cases q with
  | alert sendingComplete =>
    rw [Cntl.capiCommand]
    exact moves i .refl (Moves.ite (h.confirmed fun h => h.cdUpdate none _) h)
  | connect q =>
    rw [Cntl.capiCommand, Cntl.confirmed]
    have hask : Turns env ok (.capi sc cdid (.connect q)) s s.ask.2 :=
      data .refl rfl rfl
    refine Turns.ite .refl (Turns.ite ?_ hask)
    exact (hask.write i (.capiConnect sc cdid q _) (.same rfl rfl)).moves i (Moves.connectOn .refl _)
  | connectB3 =>
    rw [Cntl.capiCommand]
    exact moves i .refl (Moves.i4bLinkBchandrvr ((h.adopt i .capi sc).note i rfl rfl) i true)
  | disconnectB3 =>
    rw [Cntl.capiCommand]
    exact moves i .refl (Moves.ite (h.i4bLinkBchandrvr i false) h)
  | disconnect =>
    rw [Cntl.capiCommand]
    exact moves i .refl (Moves.nDisconnectRequest
      ((h.i4bLinkBchandrvr i false).note i rfl rfl) _)
  | info facility dstTelno => exact capiInfo i sc cdid facility dstTelno
  | hold => exact moves i .refl (h.cdUpdate none .holdReq)
  | retrieve => exact moves i .refl (h.cdUpdate none .retrieveReq)
  | deflect dstTelno =>
    rw [Cntl.capiCommand]
    exact (write .refl i (.deflect sc cdid dstTelno _) (.same rfl rfl)).moves i
      (Moves.cdUpdate .refl none .deflectrq)
  | mcid => exact moves i .refl (h.cdUpdate none .mcidrq)
  | liConnect dst => exact moves i .refl (h.capiConnectBridge sc dst)
  | liDisconnect dst => exact moves i .refl (h.capiDisconnectBridge sc dst)
  | selectBProtocol bProtocol => exact moves i .refl (h.capiSelectBProtocol sc bProtocol)
  | connectResp reject bProtocol dateTime =>
    exact moves i .refl (h.capiConnectResp sc reject bProtocol dateTime)
  | connectB3Resp reject =>
    rw [Cntl.capiCommand]
    refine moves i .refl (Moves.ite (Moves.ite ?_ (h.i4bLinkBchandrvr i true)) h)
    exact Moves.nDisconnectRequest (h.note i rfl rfl) _

theorem capiWrite (hids : ok → s.SmallIds) (sc cdid : Nat) (q : CapiRequest) :
    Turns env ok (.capi sc cdid q) s (s.capiWrite env sc cdid q) := by
  rw [Cntl.capiWrite.eq_def]
  split
  · exact Turns.ite (capiCommand _ sc cdid q) .refl
  · split
    · rename_i q
      have h1 := nAllocateCd env (a := .capi sc cdid (.connect q)) (.refl (a := s)) hids none
        0 .capi sc (fun _ cd => .beginOutgoing _ cd 0 .capi sc) fun h => absurd h Bool.false_ne_true
      split
      · rename_i ha
        rw [ha] at h1
        exact h1.trans (capiCommand _ sc cdid (.connect q))
      · rename_i ha
        rwa [ha] at h1
    · exact .refl

/-- Moves that are made for no call in particular. -/
theorem of_moves (h : ∀ i, Moves env i True s t) (hnone : n = 0 → t.messages = s.messages) :
    Turns env ok a s t := by
  cases n with
  | zero => exact .single (.data (funext fun j => j.elim0) (hnone rfl))
  | succ n => exact moves 0 .refl (h 0)

theorem pause (h : Turns env ok a r s) (p : PipeNo) : Turns env ok a r (s.pause env p) := by
  have h1 : Turns env ok a r ({ s with paused := Function.update s.paused p true } : Cntl n) :=
    h.data rfl rfl
  exact h1.dss1PipeResetInd p

theorem disconnectCall (h : Turns env ok a r s) (aiType : AiType) (sc : Nat) (i : Fin n) :
    Turns env ok a r (s.disconnectCall env aiType sc i) := by
  have h1 : Moves env i True s
      (s.modify i fun cd => { cd with causeIn := causeI4bNormal, causeOut := causeI4bNormal }) :=
    Moves.note .refl i rfl rfl
  rw [Cntl.disconnectCall]
  exact Turns.ite (h.moves i (h1.nDisconnectRequest _)) h

end Turns

theorem dss1PipeResendInd_of_none (hn : n = 0) (env : Env) (s : Cntl n) (p : PipeNo) :
    s.dss1PipeResendInd env p = s := by
  subst hn
  rfl

/-- **An action is a sequence of turns.** -/
theorem turns_perform {ok : Prop} (env : Env) (s : Cntl n) (hids : ok → s.SmallIds) (a : Action n) :
    Turns env ok a s (s.perform env a) := by
  cases a with
  | dataInd p buf broadcast => exact Turns.dss1PipeDataInd hids p buf broadcast
  | activate p =>
    refine Turns.of_moves (fun i => Moves.dss1PipeActivateReq .refl p) fun hn => ?_
    rw [perform, dss1PipeActivateReq]
    dsimp only
    split
    · rw [dss1PipeResendInd_of_none hn, ite_self]
      exact messages_of_out rfl rfl
    · exact messages_of_out rfl rfl
  | resend =>
    refine Turns.of_moves (fun i => Moves.dss1PipeResendInd .refl (.inl trivial) adapter) fun hn => ?_
    rw [perform, dss1PipeResendInd_of_none hn]
  | pause p => exact Turns.pause .refl p
  | stateTimeout i =>
    have h1 : Moves env i True s (s.modify i fun cd => { cd with setStateCallout := false }) :=
      Moves.note .refl i rfl rfl
    rw [perform, cdSetStateTimeout]
    exact Turns.moves i .refl (Moves.ite (h1.cdSetState _) h1)
  | idleTimeout i =>
    have h1 : Moves env i True s (s.modify i fun cd => { cd with idleCallout := false }) :=
      Moves.note .refl i rfl rfl
    exact Turns.moves i .refl h1.i4bIdleCheck
  | l1Activity up => exact .single (.data rfl rfl)
  | receivedFrame => exact .single (.data rfl rfl)
  | l1ActivityTimeout =>
    refine Turns.of_moves (fun i => Moves.dss1L1ActivityTimeout ?_) fun _ => ?_
    · exact Moves.data .refl rfl rfl rfl rfl rfl
    · rw [perform, dss1L1ActivityTimeout]
      split
      · split
        · split
          · exact messages_of_out rfl rfl
          · rfl
        · rfl
      · rfl
  | options nNtMode noDialtone noPowerSave noStatusEnquiry => exact .single (.data rfl rfl)
  | i4b sc cdid q => exact Turns.i4bIoctl hids sc cdid q
  | capi sc cdid q => exact Turns.capiWrite hids sc cdid q
  | bridge sc cdid dst =>
    rw [perform]
    split
    · rename_i i _
      exact Turns.moves i .refl (Moves.capiConnectBridge .refl sc dst)
    · exact .refl
  | unbridge sc cdid dst =>
    rw [perform]
    split
    · rename_i i _
      exact Turns.moves i .refl (Moves.capiDisconnectBridge .refl sc dst)
    · exact .refl
  | closed aiType sc => exact Turns.foldl (fun _ i h => h.disconnectCall aiType sc i) _ .refl
  | attach ntMode pointToPoint primaryRate => exact .single (.attach (fun _ => rfl) rfl)
  | detach => exact Turns.foldl (fun _ p h => h.pause p) _ (.single (.data rfl rfl))

/-- **An action is a sequence of deeds.** -/
theorem deeds_perform (env : Env) (s : Cntl n) (a : Action n) : Deeds env a s (s.perform env a) :=
  (turns_perform env s False.elim a).deeds

/-! ## The rules

As for moves, but for whole actions, and from there for runs: what is so for a descriptor that is free,
and what the moves and the writing keep, is so at any time.
-/

/-- **The rule for deeds**: a relation that the moves and what is written keep to holds between a
descriptor before them and after them. -/
theorem Deeds.rel {R : CallDesc → CallDesc → Prop} (hR : Lax R) {a : Action n}
    (hattach : ∀ cd, R cd {})
    (hw : ∀ ntMode cd cd', Write env ntMode a cd cd' → R cd cd') (h : Deeds env a s t) (j : Fin n) :
    R (s.cd j) (t.cd j) := by
  induction h with
  | refl => exact hR.refl _
  | tail _ hd ih =>
    refine hR.trans _ _ _ ih ?_
    cases hd with
    | moves i hm => exact hm.rel hR j
    | write i hwrite hrest hmode =>
      by_cases hj : j = i
      · subst hj
        exact hw _ _ _ hwrite
      · rw [hrest j hj]
        exact hR.refl _
    | attach hnew =>
      rw [hnew j]
      exact hattach _
    | data hcd =>
      rw [hcd]
      exact hR.refl _

/-- An invariant of descriptors: it is kept by the moves and by what is written. -/
structure Lasting (env : Env) (n : Nat) (P : CallDesc → Prop) : Prop where
  empty : P {}
  drift : ∀ cd cd', Drift cd cd' → P cd → P cd'
  write : ∀ (a : Action n) ntMode cd cd', Write env ntMode a cd cd' → P cd → P cd'

/-- It is kept by all that happens in the course of an action. -/
theorem Lasting.deeds {P : CallDesc → Prop} (hP : Lasting env n P) {a : Action n} (h : Deeds env a s t)
    (j : Fin n) (hj : P (s.cd j)) : P (t.cd j) :=
  h.rel (R := fun cd cd' => P cd → P cd') ⟨fun _ => id, fun _ _ _ h h' => h' ∘ h, hP.drift⟩
    (fun _ _ => hP.empty) (fun nt cd cd' => hP.write a nt cd cd') j hj

/-- **It holds at any time.** -/
theorem Lasting.reach {P : CallDesc → Prop} (hP : Lasting env n P) (h : Reach env s) (j : Fin n) :
    P (s.cd j) := by
  induction h with
  | start => exact hP.empty
  | @step s t a hs hstep ih =>
    rw [Cntl.step] at hstep
    split at hstep
    · dsimp only at hstep
      split at hstep
      · cases hstep
      · cases hstep
        exact hP.deeds (deeds_perform env s a) j ih
    · cases hstep

end Cntl
end L3
end Isdn4bsd
