import Isdn4bsd.L2.Fsm
import Isdn4bsd.L3.Deeds
import Isdn4bsd.L3.References
import Isdn4bsd.L3.Setup

/-!
# Layer 3: what the release of a call does to queued frames

A call that enters `ST_L3_U0` has its frames in the queue of its pipe cut down to their headers, which
keeps the numbers of all frames as they are.

A frame in the queue cannot simply be taken out: it has been numbered, or will be by its place, and the other
end waits for each number.  So a frame that need not be sent any more goes out without its message.  Which
frames are those of the call is read off the frames themselves, by the call reference in them.

* `getCallreference_makeCallreference`: a call reference is read back.
* `FrameOf`: a frame of a call, on a pipe that the call sends on.
* `release_spares`: **the frames of the call are cut, and those of all other calls stay as they are.**

## What has to be known

That no other call has a frame with this reference on this pipe is the invariant of
`Isdn4bsd.L3.References`, but it is needed in the middle of an action: the call is released after other things
were done to it.  `Course` is a state in the course of an action, with what was done so far.

The references of incoming calls come from messages, and are as wide as the message says.  That they have 32
bits at most, so that what is compared is all there is, is an invariant of descriptors (`Narrow`).

The queue itself is not the controller's; `release_spares` is for any queues of layer 2, on all pipes.
-/

set_option autoImplicit false

namespace Isdn4bsd
namespace L3

open L2 (PipeNo adapter pdQ931 getCallreference Mbuf)

/-! ## Call references -/

/-- Where none of the upper bits is set, the number is small. -/
theorem lt_of_and_eq_zero {cr mask lo hi : Nat} (hcr : cr < 2 ^ hi)
    (hmask : ∀ k < hi, lo ≤ k → mask.testBit k = true) (h : cr &&& mask = 0) : cr < 2 ^ lo := by
  by_contra hge
  obtain ⟨k, hk, hbit⟩ := Nat.exists_ge_and_testBit_of_ge_two_pow (Nat.le_of_not_lt hge)
  have hlt : k < hi := by
    by_contra hle
    have hsmall := Nat.testBit_lt_two_pow
      (Nat.lt_of_lt_of_le hcr (Nat.pow_le_pow_right Nat.two_pos (Nat.le_of_not_lt hle)))
    rw [hsmall] at hbit
    cases hbit
  have hand : (cr &&& mask).testBit k = true := by
    rw [Nat.testBit_and, hbit, hmask k hlt hk]
    rfl
  rw [h, Nat.zero_testBit] at hand
  cases hand

/-- The octetts that are sent are enough. -/
theorem lt_callreferenceLength (primaryRate : Bool) {cr : Nat} (hcr : cr < 2 ^ 32) :
    cr < 256 ^ callreferenceLength primaryRate cr := by
  have h3 : cr &&& 0xff000000 = 0 → cr < 2 ^ 24 := lt_of_and_eq_zero hcr (by decide)
  have h2 : cr < 2 ^ 24 → cr &&& 0x00ff0000 = 0 → cr < 2 ^ 16 :=
    fun h => lt_of_and_eq_zero h (by decide)
  have h1 : cr < 2 ^ 16 → cr &&& 0x0000ff00 = 0 → cr < 2 ^ 8 :=
    fun h => lt_of_and_eq_zero h (by decide)
  have hlen : cr < 256 ^ (if cr &&& 0xff000000 ≠ 0 then 4
      else if cr &&& 0x00ff0000 ≠ 0 then 3
      else if cr &&& 0x0000ff00 ≠ 0 then 2
      else 1) := by
    split
    · exact hcr
    · split
      · exact h3 (by omega)
      · split
        · exact h2 (h3 (by omega)) (by omega)
        · exact h1 (h2 (h3 (by omega)) (by omega)) (by omega)
  rw [callreferenceLength]
  generalize (if cr &&& 0xff000000 ≠ 0 then 4
      else if cr &&& 0x00ff0000 ≠ 0 then 3
      else if cr &&& 0x0000ff00 ≠ 0 then 2
      else 1) = len at hlen ⊢
  split
  · rename_i hshort
    exact hlen.trans (Nat.pow_lt_pow_right (by decide) hshort.2)
  · exact hlen

/-- The octetts are put together again. -/
theorem foldr_callreferenceBytes : ∀ (len cr : Nat), len ≤ 4 →
    (callreferenceBytes len cr).foldr (fun b cr => (cr * 256 ||| b.toNat) % 2 ^ 32) 0 = cr % 256 ^ len
  | 0, cr, _ => by rw [callreferenceBytes, List.foldr_nil, Nat.pow_zero, Nat.mod_one]
  | len + 1, cr, h => by
    have hlt : cr % 256 < 2 ^ 8 := Nat.mod_lt _ (by decide)
    have hor : cr / 256 % 256 ^ len * 256 ||| cr % 256 = 256 * (cr / 256 % 256 ^ len) + cr % 256 := by
      rw [Nat.mul_comm]
      exact (Nat.two_pow_add_eq_or_of_lt hlt _).symm
    have hmod : cr % 256 ^ (len + 1) = cr % 256 + 256 * (cr / 256 % 256 ^ len) := by
      rw [Nat.pow_succ', Nat.mod_mul]
    have hbound : cr % 256 ^ (len + 1) < 2 ^ 32 := by
      refine (Nat.mod_lt _ (Nat.pow_pos (by decide))).trans_le ?_
      exact Nat.pow_le_pow_right (n := 256) (by decide) h
    rw [callreferenceBytes, List.foldr_cons, foldr_callreferenceBytes len _ (by omega),
      UInt8.toNat_ofNat', hor, Nat.add_comm, ← hmod, Nat.mod_eq_of_lt hbound]

/-- **A call reference is read back.** -/
theorem getCallreference_makeCallreference (primaryRate : Bool) {cr : Nat} (hcr : cr < 2 ^ 32)
    (rest : List UInt8) : getCallreference (makeCallreference primaryRate cr ++ rest) = cr := by
  obtain ⟨-, hhi⟩ := callreferenceLength_bounds primaryRate cr
  have hlt := lt_callreferenceLength primaryRate hcr
  generalize hk : callreferenceLength primaryRate cr = k at hhi hlt
  have hmask : k &&& 0x0f = k := by
    have hall : ∀ k < 5, k &&& 0x0f = k := by decide
    exact hall k (by omega)
  have hk8 : k % 2 ^ 8 = k := Nat.mod_eq_of_lt (by omega)
  rw [getCallreference, makeCallreference, hk]
  rw [List.cons_append, List.tail_cons, List.headD_cons, UInt8.toNat_ofNat', hk8, hmask,
    List.take_left' (length_callreferenceBytes k cr), foldr_callreferenceBytes k cr hhi,
    Nat.mod_eq_of_lt hlt]

/-! ## Frames -/

/-- A frame that is a message with this call reference. -/
def CarriesRef (m : Mbuf) (cr : Nat) : Prop :=
  m.body.head? = some pdQ931 ∧ getCallreference m.body.tail = cr

instance (m : Mbuf) (cr : Nat) : Decidable (CarriesRef m cr) := inferInstanceAs (Decidable (_ ∧ _))

/-- What is left of a frame that need not be sent: the header, which may have been adjusted. -/
def bareHeader (m : Mbuf) : Mbuf :=
  { m with len := if m.proto1 then L2.iHeaderLen - 1 else L2.iHeaderLen }

theorem carriesRef_of_message {m : Mbuf} {primaryRate : Bool} {cr : Nat} (hcr : cr < 2 ^ 32)
    {mt : UInt8} {els : List UInt8} (h : m.body = header primaryRate cr mt ++ els) (cr' : Nat) :
    CarriesRef m cr' ↔ cr = cr' := by
  have hbody : m.body = pdQ931 :: (makeCallreference primaryRate cr ++ ([mt] ++ els)) := by
    rw [h, header, List.cons_append, List.append_assoc]
  rw [CarriesRef, hbody, List.head?_cons, List.tail_cons,
    getCallreference_makeCallreference primaryRate hcr]
  exact and_iff_right rfl

namespace Cntl

variable {n : Nat} {env : Env} {i : Fin n} {all : Prop} {s t : Cntl n}

/-- A frame of a call in the queue of a pipe: a message with its reference; an incoming call sends on
its own pipe only. -/
structure FrameOf (s : Cntl n) (j : Fin n) (p : PipeNo) (body : List UInt8) : Prop where
  sends : (s.cd j).pipe = some p ∨ (s.cd j).dirIncoming = false
  message : ∃ mt els, body = header s.primaryRate (s.cd j).cr mt ++ els

theorem message_header {ntMode primaryRate : Bool} {cd : CallDesc} {mt : UInt8} {f : Tx}
    {body : List UInt8} (h : message env ntMode primaryRate cd mt f = some body) :
    ∃ els, body = header primaryRate cd.cr mt ++ els := by
  rw [message] at h
  obtain ⟨cause, -, rfl⟩ := Option.map_eq_some_iff.mp h
  exact ⟨_, List.append_assoc _ _ _⟩

/-- What is handed to layer 2 by a function that sends through a pipe. -/
theorem out_txThrough (env : Env) (s : Cntl n) (j : Fin n) (p : PipeNo) (mt : UInt8) (f : Tx) :
    (s.txThrough env j p mt f).out = s.out ∨
      ∃ els, (s.txThrough env j p mt f).out
        = s.out ++ [.down (.request (.dataReq p (header s.primaryRate (s.cd j).cr mt ++ els)))] := by
  rw [txThrough]
  split
  · split
    · exact .inl rfl
    · rename_i body hbody
      obtain ⟨els, rfl⟩ := message_header hbody
      exact .inr ⟨els, rfl⟩
  · exact .inl rfl

/-! ## References of 32 bits -/

theorem getCallreference_lt (ptr : List UInt8) : getCallreference ptr < 2 ^ 32 := by
  rw [getCallreference]
  cases ptr.tail.take ((ptr.headD 0).toNat &&& 0x0f) with
  | nil => decide
  | cons b bs =>
    rw [List.foldr_cons]
    exact Nat.mod_lt _ (by decide)

theorem crval_lt (b : Buf) : (readStart b).crval < 2 ^ 32 := by
  rw [readStart]
  exact Nat.xor_lt_two_pow (getCallreference_lt _) (by decide)

/-- The reference of the other end has been read from a message. -/
def Narrow (cd : CallDesc) : Prop := cd.dirIncoming = true → cd.cr < 2 ^ 32

theorem Narrow.congr {cd cd' : CallDesc} (h : Narrow cd) (hd : cd'.dirIncoming = cd.dirIncoming)
    (hcr : cd'.cr = cd.cr) : Narrow cd' := by
  rw [Narrow, hd, hcr]
  exact h

theorem Narrow.words {cd cd' : CallDesc} (h : Narrow cd) (hw : cd'.words = cd.words) : Narrow cd' :=
  h.congr (congrArg Words.dirIncoming hw) (congrArg Words.cr hw)

theorem Narrow.toCall {cd cd' : CallDesc} (h : Narrow cd) (hc : cd'.toCall = cd.toCall) :
    Narrow cd' := h.congr (congrArg Call.dirIncoming hc) (congrArg Call.cr hc)

theorem Narrow.heard {cd : CallDesc} (h : Narrow cd) (ntMode : Bool) (event : Event)
    (elements : Buf) : Narrow (heard env ntMode event elements cd) := by
  obtain ⟨⟨channelId, causeIn, heq⟩, -, -⟩ := reads_heard env ntMode event elements cd
  exact h.congr (by rw [heq]) (by rw [heq])

theorem lasting_narrow (env : Env) (n : Nat) : Lasting env n Narrow := by
  refine ⟨fun h => absurd h Bool.false_ne_true, fun cd cd' hd h => ?_, fun a nt cd cd' hw h => ?_⟩
  · cases hd with
    | mute hm => exact h.words hm.words
    | placed hm => exact Narrow.words (show Narrow cd.placed from h) hm.words
    | flushed hm => exact Narrow.words (show Narrow cd.flushed from h) hm.words
    | collected hm => exact Narrow.words (show Narrow cd.collected from h) hm.words
  · cases hw with
    | clear => exact fun h => absurd h Bool.false_ne_true
    | beginOutgoing => exact fun h => absurd h Bool.false_ne_true
    | beginIncoming => exact fun _ => crval_lt _
    | hear => exact h.heard _ _ _
    | connectReq => exact h.congr rfl rfl
    | informationReq => exact h.toCall (toCall_dialled _ _)
    | capiConnect => exact h.congr rfl rfl
    | capiInfo => exact h.toCall (toCall_dialled _ _)
    | deflect => exact h.congr rfl rfl

/-! ## The release of a call -/

/-- A state in the course of an action: the action consists of deeds, and what was done so far is a
part of what it does to the line. -/
structure Course (env : Env) (s t : Cntl n) : Prop where
  deeds : ∃ a, Deeds env a s t
  act : Line.Act .all s.line t.line

theorem Course.refl (env : Env) (s : Cntl n) : Course env s s :=
  ⟨⟨.receivedFrame, .refl⟩, Line.Steps.act .refl⟩

/-- The references of the calls, in the course of an action. -/
theorem Course.refs (h : Reach env s) (ht : Course env s t) :
    t.line.Refs ∧ t.line.cdidEnd ≤ 0x80 ∧ ∀ j, (t.cd j).Allocated → (t.cd j).cr < 2 ^ 32 := by
  have hrefs : t.line.Refs :=
    ht.act.preserves (fun _ _ hb => hb.refs) (fun _ _ hs => hs.refs) h.refs
  have hend : t.line.cdidEnd = 0x7f := (h.good.act ht.act).cdidEnd
  refine ⟨hrefs, by rw [hend]; decide, fun j hj => ?_⟩
  obtain ⟨a, hdeeds⟩ := ht.deeds
  cases hd : (t.cd j).dirIncoming with
  | false =>
    have hrange := (hrefs.outgoing_range hj hd).2
    rw [hend] at hrange
    exact Nat.lt_trans hrange (by decide)
  | true => exact (lasting_narrow env n).deeds hdeeds j ((lasting_narrow env n).reach h j) hd

/-- What a request does to the queue of the pipe that a call is released on. -/
structure Spares (t : Cntl n) (i : Fin n) (p : PipeNo) (q q' : L2.Pipe) : Prop where
  /-- No frame is added or removed, and none changes its place. -/
  order : q'.queue.map Mbuf.id = q.queue.map Mbuf.id
  /-- The numbers and the window stay. -/
  numbers : q'.txNr = q.txNr ∧ q'.rxNr = q.rxNr ∧ q'.txWindowSize = q.txWindowSize ∧
    q'.txWindowLength = q.txWindowLength
  /-- The frames with the reference of the call are cut down to their headers, and no others. -/
  cut : ∀ (k : Nat) (m : Mbuf), q.queue[k]? = some m →
    q'.queue[k]? = some (if CarriesRef m (t.cd i).cr then bareHeader m else m)
  /-- The frames of the call are such frames. -/
  own : ∀ m : Mbuf, FrameOf t i p m.body → CarriesRef m (t.cd i).cr
  /-- The frames of all other calls stay as they are. -/
  others : ∀ (j : Fin n) (k : Nat) (m : Mbuf), j ≠ i → (t.cd j).Allocated → FrameOf t j p m.body →
    q.queue[k]? = some m → q'.queue[k]? = some m

theorem acknowledge_queue (cr : Nat) (q : L2.Pipe) :
    (q.acknowledge cr).queue = q.queue.map fun m => if CarriesRef m cr then bareHeader m else m := rfl

theorem bareHeader_id (m : Mbuf) : (bareHeader m).id = m.id := rfl

theorem spares_acknowledge (hrefs : t.line.Refs) (hend : t.line.cdidEnd ≤ 0x80)
    (hnarrow : ∀ j, (t.cd j).Allocated → (t.cd j).cr < 2 ^ 32) {p : PipeNo}
    (hi : (t.cd i).Allocated) (hp : (t.cd i).pipe = some p) (q : L2.Pipe) :
    Spares t i p q (q.acknowledge (t.cd i).cr) := by
  have hget : ∀ (k : Nat) (m : Mbuf), q.queue[k]? = some m →
      (q.acknowledge (t.cd i).cr).queue[k]?
        = some (if CarriesRef m (t.cd i).cr then bareHeader m else m) := by
    intro k m hm
    rw [acknowledge_queue, List.getElem?_map, hm]
    rfl
  refine ⟨?_, ⟨rfl, rfl, rfl, rfl⟩, hget, fun m hm => ?_, fun j k m hj ha hm hk => ?_⟩
  · rw [acknowledge_queue, List.map_map]
    refine List.map_congr_left fun m _ => ?_
    rw [Function.comp_apply]
    split
    · exact bareHeader_id m
    · rfl
  · obtain ⟨mt, els, hbody⟩ := hm.message
    exact (carriesRef_of_message (hnarrow i hi) hbody _).mpr rfl
  · obtain ⟨mt, els, hbody⟩ := hm.message
    rw [hget k m hk, if_neg]
    intro hcarries
    have hcr : (t.cd j).cr = (t.cd i).cr :=
      (carriesRef_of_message (hnarrow j ha) hbody _).mp hcarries
    refine hj (hrefs.eq_of_cr hend ha hi hcr fun hdj _ => ?_)
    -- an incoming call has frames on its own pipe only
    rcases hm.sends with hpipe | hout
    · exact hpipe.trans hp.symm
    · exact absurd hdj (by rw [line_cd, hout]; exact Bool.false_ne_true)

/-- **The release of a call spares all others.**  When a call enters `ST_L3_U0`, layer 2 is asked for
one thing, and whatever is queued on whatever pipes, that leaves the number, the order and the
numbering of the frames as they are, and cuts the frames with the reference of the call down to their
headers; no frame of another call is among them, and no other pipe is changed. -/
theorem release_spares (h : Reach env s) (ht : Course env s t) {i : Fin n} {p : PipeNo}
    (hi : (t.cd i).Allocated) (hp : (t.cd i).pipe = some p) (sc : L2.Softc) :
    ∃ r, (t.abandon i p).out = t.out ++ [.down (.request r)] ∧
      Spares t i p (sc.pipe p) ((sc.request r).pipe p) ∧
      ∀ p', p' ≠ p → (sc.request r).pipe p' = sc.pipe p' := by
  obtain ⟨hrefs, hend, hnarrow⟩ := Course.refs h ht
  refine ⟨.dataAcknowledge p (t.cd i).cr, ?_, ?_, fun p' hne => ?_⟩
  · rw [abandon, Cntl.put, modify_cd_self]
    rfl
  · rw [L2.Softc.request, L2.Softc.modify_pipe_self]
    exact spares_acknowledge hrefs hend hnarrow hi hp (sc.pipe p)
  · rw [L2.Softc.request, L2.Softc.modify_pipe_of_ne _ _ hne]

/-- Two calls of applications, with a frame of each queued; the first one is released. -/
theorem release_spares_two :
    ∃ (s : Cntl 2) (sc : L2.Softc), Reach plain s ∧ (s.cd 0).cr ≠ (s.cd 1).cr ∧
      (s.cd 1).Allocated ∧
      (sc.pipe adapter).queue.map Mbuf.body =
        [header s.primaryRate (s.cd 0).cr mtSetup, header s.primaryRate (s.cd 1).cr mtSetup] ∧
      (∃ r, (s.abandon 0 adapter).out = s.out ++ [.down (.request r)] ∧
        Spares s 0 adapter (sc.pipe adapter) ((sc.request r).pipe adapter) ∧
        ∀ p', p' ≠ adapter → (sc.request r).pipe p' = sc.pipe p') := by
  have hrun : (((fresh false true : Cntl 2).run plain
      [.i4b 1 0 .cdidReq, .i4b 1 0 .cdidReq]).map fun s =>
        decide ((s.cd 0).Allocated ∧ (s.cd 0).pipe = some adapter ∧ (s.cd 1).Allocated ∧
          (s.cd 0).cr ≠ (s.cd 1).cr)) = some true := by decide +kernel
  obtain ⟨s, hs, hd⟩ := Option.map_eq_some_iff.mp hrun
  obtain ⟨h0, hp, h1, hne⟩ := of_decide_eq_true hd
  have hr := (reach_fresh plain false true).run hs
  let frame (i : Fin 2) : Mbuf :=
    ⟨i.val, L2.iHeaderLen + 4, false, header s.primaryRate (s.cd i).cr mtSetup⟩
  let sc := (L2.Softc.setup false true false false 0 2).modify adapter fun q =>
    { q with queue := [frame 0, frame 1] }
  refine ⟨s, sc, hr, hne, h1, ?_, release_spares hr (Course.refl plain s) h0 hp sc⟩
  rw [L2.Softc.modify_pipe_self]
  rfl

end Cntl
end L3
end Isdn4bsd
