import Isdn4bsd.L3.Release
import Isdn4bsd.Lib.Naming
import Mathlib.Data.List.GetD

/-!
# Layer 3: the references of two controllers that talk to each other

The end that begins a call chooses its reference, and the flag in a message says which end that was.
The flag is inverted by `dss1_pipe_data_ind`, so each end sees it in its own way.

* `crval_header`: what is read from a message is the reference that was put into it, with the flag
  inverted.
* `Peers`: two controllers; each is handed messages that the other one sent, in any order, once, more
  often or not at all.
* `Shows`: what a controller stores and sends, as `Naming.Exchange` has it.
* `Peers.Reach.talk`: **whatever happens to two controllers is such an exchange.**

## The abstract exchange

Who names what, and that a name is understood as it was meant, has nothing to do with ISDN.  It is in
`Lib.Naming`: two sides store names for things, with a mark for who has chosen them, and send messages with
names in them, in a code that turns the mark over.  An exchange keeps two facts: a name in a message is one
that its sender has stored, and a stored name is one's own or was in a message of the other side.

Here it is shown that a controller does nothing else.  A turn of `Isdn4bsd.L3.Deeds` is a few steps of the
exchange: a move sends a message for a call, with the reference of its descriptor; a call is begun with a
reference of one's own, which has no flag as ids are small (`SmallIds`), or with the one of a message; a
descriptor is cleared.  Only answers to messages that belong to no call do not fit, as they repeat a reference
that is not stored; their reference was read from a message of the other side, which is as good.

`callreferences_agree` is what follows for the calls at both ends.
-/

set_option autoImplicit false

namespace Isdn4bsd
namespace L3

open L2 (PipeNo adapter pdQ931 getCallreference)
open Naming (Side Codec Exchange)

/-! ## References in messages -/

/-- A reference takes as many octetts as the first one says, and that one. -/
theorem length_makeCallreference (primaryRate : Bool) (cr : Nat) :
    (makeCallreference primaryRate cr).length
      = ((makeCallreference primaryRate cr).headD 0).toNat + 1 := by
  obtain ⟨-, hhi⟩ := callreferenceLength_bounds primaryRate cr
  rw [makeCallreference, List.length_cons, length_callreferenceBytes, List.headD_cons,
    UInt8.toNat_ofNat', Nat.mod_eq_of_lt (by omega)]

/-- An octett behind the first one of a message. -/
theorem get1_init (msg : List UInt8) {k : Nat} (hk : k < 2 ^ 15) :
    (⟨msg, 1, msg.length⟩ : Buf).get1 k = (msg.getD (k + 1) 0).toNat := by
  have hmod : (k + 1) % 2 ^ 16 = k + 1 := Nat.mod_eq_of_lt (by omega)
  have hvalid : (⟨msg, 1, msg.length⟩ : Buf).getValid k ↔ k + 1 < msg.length := by
    simp only [Buf.getValid, hmod]
    omega
  rw [Buf.get1, hmod]
  by_cases hin : k + 1 < msg.length
  · rw [if_pos (hvalid.mpr hin)]
  · rw [if_neg (mt hvalid.mp hin), List.getD_eq_default _ _ (Nat.le_of_not_lt hin)]
    rfl

/-- The first few of the octetts that are read. -/
theorem take_getD {bs : List UInt8} {k : Nat} (hk : k ≤ 4) (hlen : k ≤ bs.length) :
    [bs.getD 0 0, bs.getD 1 0, bs.getD 2 0, bs.getD 3 0].take k = bs.take k := by
  refine List.ext_getElem ?_ fun i hi hi' => ?_
  · simp only [List.length_take, List.length_cons, List.length_nil]
    omega
  · rw [List.length_take] at hi hi'
    rw [List.getElem_take, List.getElem_take]
    obtain rfl | rfl | rfl | rfl : i = 0 ∨ i = 1 ∨ i = 2 ∨ i = 3 := by
      simp only [List.length_cons, List.length_nil] at hi
      omega
    all_goals exact List.getD_eq_getElem bs 0 (by omega)

theorem length_mask : ∀ k < 5, (UInt8.ofNat k).toNat &&& 0x0f = k ∧ min k 4 = k := by decide

/-- The five octetts that are kept of a message are enough for its reference. -/
theorem getCallreference_kept {k : Nat} {bs : List UInt8} (hk : k ≤ 4) (hlen : k ≤ bs.length) :
    getCallreference [UInt8.ofNat k, bs.getD 0 0, bs.getD 1 0, bs.getD 2 0, bs.getD 3 0]
      = getCallreference (UInt8.ofNat k :: bs) := by
  rw [getCallreference, getCallreference, List.headD_cons, List.headD_cons, List.tail_cons,
    List.tail_cons, (length_mask k (by omega)).1, take_getD hk hlen]

/-- **The reference of a message is read with its flag inverted.** -/
theorem crval_header (primaryRate : Bool) {cr : Nat} (hcr : cr < 2 ^ 32) (mt : UInt8)
    (els : List UInt8) :
    (readStart (Buf.init (header primaryRate cr mt ++ els))).crval = cr ^^^ 0x80 := by
  obtain ⟨-, hhi⟩ := callreferenceLength_bounds primaryRate cr
  have hget := getCallreference_makeCallreference primaryRate hcr (mt :: els)
  have hmsg : header primaryRate cr mt ++ els
      = pdQ931 :: (makeCallreference primaryRate cr ++ mt :: els) := by
    rw [header, List.cons_append, List.append_assoc]
    rfl
  rw [hmsg]
  rw [makeCallreference, List.cons_append] at hget ⊢
  generalize callreferenceLength primaryRate cr = k at hhi hget ⊢
  obtain ⟨hmask, hmin⟩ := length_mask k (by omega)
  have hlen : k ≤ (callreferenceBytes k cr ++ mt :: els).length := by
    rw [List.length_append, length_callreferenceBytes]
    exact Nat.le_add_right _ _
  generalize callreferenceBytes k cr ++ mt :: els = bs at hget hlen ⊢
  rw [readStart, Buf.init]
  dsimp only
  rw [Nat.zero_add, Nat.mod_eq_of_lt (show 1 < 2 ^ 16 by decide), get1_init _ (by decide),
    get1_init _ (by decide), get1_init _ (by decide), get1_init _ (by decide),
    get1_init _ (by decide)]
  simp only [List.getD_cons_succ, List.getD_cons_zero, List.map_cons, List.map_nil,
    UInt8.ofNat_toNat, hmask, hmin]
  rw [getCallreference_kept hhi hlen, hget]

theorem toNat_toggle (r : BitVec 32) : (r ^^^ 0x80#32).toNat = r.toNat ^^^ 0x80 := BitVec.toNat_xor r _

/-- References of 32 bits, in the messages that start with them. -/
def codec : Codec (BitVec 32) (List UInt8) where
  carries r body := ∃ primaryRate mt els, body = header primaryRate r.toNat mt ++ els
  read body := BitVec.ofNat 32 (readStart (Buf.init body)).crval
  toggle r := r ^^^ 0x80#32
  toggle_toggle r := by rw [BitVec.xor_assoc, BitVec.xor_self, BitVec.xor_zero]
  read_of_carries := by
    rintro r body ⟨primaryRate, mt, els, rfl⟩
    rw [crval_header primaryRate r.isLt, ← toNat_toggle, BitVec.ofNat_toNat, BitVec.setWidth_eq]

theorem toNat_read (body : List UInt8) :
    (codec.read body).toNat = (readStart (Buf.init body)).crval :=
  (BitVec.toNat_ofNat _ _).trans (Nat.mod_eq_of_lt (Cntl.crval_lt _))

/-! ## What a controller says -/

namespace Cntl

variable {n : Nat} {env : Env} {i : Fin n} {all : Prop} {s t : Cntl n}

theorem Drift.cr {cd cd' : CallDesc} (h : Drift cd cd') : cd'.cr = cd.cr := by
  cases h with
  | mute h => exact congrArg Words.cr h.words
  | placed h => exact congrArg Words.cr h.words
  | flushed h => exact congrArg Words.cr h.words
  | collected h => exact congrArg Words.cr h.words

theorem messages_txThrough (env : Env) (s : Cntl n) (j : Fin n) (p : PipeNo) (mt : UInt8) (f : Tx) :
    (s.txThrough env j p mt f).messages = s.messages ∨
      ∃ els, (s.txThrough env j p mt f).messages
        = s.messages ++ [header s.primaryRate (s.cd j).cr mt ++ els] := by
  rcases out_txThrough env s j p mt f with hout | ⟨els, hout⟩
  · exact .inl (congrArg (List.filterMap Output.message?) hout)
  · exact .inr ⟨els, messages_of_message hout⟩

/-- A move says nothing, or one message of a call. -/
theorem Move.messages (h : Move env i all s t) : t.messages = s.messages ∨
    ∃ j mt els, t.messages = s.messages ++ [header s.primaryRate (s.cd j).cr mt ++ els] := by
  cases h with
  | data hcd hout => exact .inl (congrArg (List.filterMap Output.message?) hout)
  | halt => exact .inl rfl
  | note => exact .inl rfl
  | put o ho =>
    refine .inl (messages_of_out rfl ?_)
    rw [Output.message?.eq_def]
    split
    · exact absurd rfl (ho _ _)
    · rfl
  | message p mt f => exact (messages_txThrough env s i p mt f).imp_right fun h => ⟨i, mt, h⟩
  | setup j =>
    rw [dss1L3TxSetup]
    split
    · split
      · exact .inl rfl
      · exact .inr ⟨j, mtSetup, _, messages_of_message rfl⟩
    · exact .inl rfl
  | flush =>
    rw [dss1L3TxInformation, dss1L3TxMessage]
    split
    · exact .inl rfl
    · exact (messages_txThrough env s i _ _ _).imp_right fun h => ⟨i, _, h⟩
  | collect => exact .inl rfl

end Cntl

/-! ## A controller in an exchange -/

variable {n : Side → Nat}

/-- The calls and messages of two controllers. -/
abbrev Talk (n : Side → Nat) := Exchange (BitVec 32) (List UInt8) fun x => Fin (n x)

/-- What a controller stores and has sent, as it is in an exchange. -/
structure Shows (e : Talk n) (x : Side) (s : Cntl (n x)) : Prop where
  name : ∀ j, (e.leg x j).name.toNat = (s.cd j).cr
  originator : ∀ j, e.calls[(e.leg x j).call]?.map Prod.fst
    = some (if (s.cd j).dirIncoming then x.other else x)
  wire : (e.wire x).map Prod.snd = s.messages
  /-- The references of its own calls are without the flag. -/
  small : ∀ r, (x, r) ∈ e.calls → r.toNat < 0x80

namespace Shows

variable {e : Talk n} {x : Side} {s t : Cntl (n x)}

/-- Nothing is said, and no call begins. -/
theorem same (h : Shows e x s) (hcr : ∀ j, (t.cd j).cr = (s.cd j).cr)
    (hd : ∀ j, (t.cd j).dirIncoming = (s.cd j).dirIncoming) (hm : t.messages = s.messages) :
    Shows e x t where
  name := fun j => (h.name j).trans (hcr j).symm
  originator := by
    intro j
    rw [hd j]
    exact h.originator j
  wire := h.wire.trans hm.symm
  small := h.small

/-- The other end does something. -/
theorem frame {y : Side} {s : Cntl (n y.other)} {e e' : Talk n} (h : Shows e y.other s)
    (hf : Exchange.Frame y e e') : Shows e' y.other s := by
  obtain ⟨more, hmore, hown⟩ := hf.calls
  refine ⟨fun j => ?_, fun j => ?_, ?_, fun r hr => ?_⟩
  · rw [hf.leg]
    exact h.name j
  · obtain ⟨o, ho, hfst⟩ := Option.map_eq_some_iff.mp (h.originator j)
    rw [hf.leg, Exchange.getElem?_of_prefix ⟨more, hmore.symm⟩ ho, Option.map_some, hfst]
  · rw [hf.wire]
    exact h.wire
  · rw [hmore, List.mem_append] at hr
    exact hr.elim (h.small r) fun hr => absurd (hown _ hr) y.other_ne

/-- A message is said for a call. -/
theorem send (h : Shows e x s) (g : Nat) {body : List UInt8} (hcr : ∀ j, (t.cd j).cr = (s.cd j).cr)
    (hd : ∀ j, (t.cd j).dirIncoming = (s.cd j).dirIncoming)
    (hm : t.messages = s.messages ++ [body]) : Shows (e.send x g body) x t where
  name := fun j => (h.name j).trans (hcr j).symm
  originator := by
    intro j
    rw [hd j]
    exact h.originator j
  wire := by
    rw [Exchange.send_self, List.map_append, h.wire, hm]
    rfl
  small := h.small

/-- A descriptor is used for another call. -/
theorem store (h : Shows e x s) (i : Fin (n x)) {l : Naming.Leg (BitVec 32)} {y : Side}
    {calls : List (Side × BitVec 32)} (hcalls : e.calls <+: calls)
    (hl : calls[l.call]?.map Prod.fst = some y) (hsmall : ∀ r, (x, r) ∈ calls → r.toNat < 0x80)
    (hcr : l.name.toNat = (t.cd i).cr) (hd : y = if (t.cd i).dirIncoming then x.other else x)
    (hrest : ∀ j, j ≠ i → t.cd j = s.cd j) (hm : t.messages = s.messages) :
    Shows { e.store x i l with calls := calls } x t where
  name := by
    intro j
    change ((e.store x i l).leg x j).name.toNat = (t.cd j).cr
    rw [Exchange.store_leg]
    by_cases hj : j = i
    · subst hj
      rw [Function.update_self]
      exact hcr
    · rw [Function.update_of_ne hj, hrest j hj]
      exact h.name j
  originator := by
    intro j
    change calls[((e.store x i l).leg x j).call]?.map Prod.fst = _
    rw [Exchange.store_leg]
    by_cases hj : j = i
    · subst hj
      rw [Function.update_self, hl, hd]
    · rw [Function.update_of_ne hj, hrest j hj]
      obtain ⟨o, ho, hfst⟩ := Option.map_eq_some_iff.mp (h.originator j)
      rw [Exchange.getElem?_of_prefix hcalls ho, Option.map_some, hfst]
  wire := h.wire.trans hm.symm
  small := hsmall

/-- A call of one's own. -/
theorem originate (h : Shows e x s) (i : Fin (n x)) (hcr : (t.cd i).cr < 0x80)
    (hd : (t.cd i).dirIncoming = false) (hrest : ∀ j, j ≠ i → t.cd j = s.cd j)
    (hm : t.messages = s.messages) :
    Shows (e.originate x i (BitVec.ofNat 32 (t.cd i).cr)) x t := by
  have hname : (BitVec.ofNat 32 (t.cd i).cr).toNat = (t.cd i).cr :=
    (BitVec.toNat_ofNat _ _).trans (Nat.mod_eq_of_lt (by omega))
  refine h.store i (List.prefix_append _ _) ?_ (fun r hr => ?_) hname ?_ hrest hm (y := x)
  · rw [List.getElem?_concat_length]
    rfl
  · rw [List.mem_append, List.mem_singleton] at hr
    rcases hr with hr | hr
    · exact h.small r hr
    · cases hr
      rwa [hname]
  · rw [hd]
    rfl

/-- A call of the other end, under the reference that was read. -/
theorem accept (hr : e.Agrees codec) (h : Shows e x s) (i : Fin (n x)) {g : Nat} {buf : List UInt8}
    (hg : (g, buf) ∈ e.wire x.other) (hcr : (t.cd i).cr = (readStart (Buf.init buf)).crval)
    (hd : (t.cd i).dirIncoming = true) (hflag : (readStart (Buf.init buf)).crval &&& 0x80 ≠ 0)
    (hrest : ∀ j, j ≠ i → t.cd j = s.cd j) (hm : t.messages = s.messages) :
    Shows (e.store x i ⟨g, codec.read buf⟩) x t := by
  obtain ⟨⟨y, r⟩, ho, hread⟩ := Option.map_eq_some_iff.mp (hr.heard hg)
  -- references of one's own have no flag
  have hy : y ≠ x := by
    rintro rfl
    rw [if_pos rfl] at hread
    have hsmall := h.small r (List.mem_of_getElem? ho)
    rw [show r = codec.read buf from hread, toNat_read] at hsmall
    exact hflag (flag_clear_of_lt _ hsmall)
  refine h.store i (List.prefix_rfl) ?_ h.small ((toNat_read buf).trans hcr.symm) ?_ hrest hm
    (y := x.other)
  · rw [ho, (x.eq_or_eq_other y).resolve_left hy]
    rfl
  · rw [hd]
    rfl

end Shows

namespace Cntl

variable {e : Talk n} {x : Side} {env : Env} {a : Action (n x)} {s t : Cntl (n x)}

/-- A move is nothing to the exchange, or a message. -/
theorem Move.shows {i : Fin (n x)} {all : Prop} (hm : Move env i all s t) (h : Shows e x s) :
    ∃ e', Exchange.Steps codec x e e' ∧ Shows e' x t := by
  have hcr : ∀ j, (t.cd j).cr = (s.cd j).cr := fun j => (hm.drift j).cr
  have hd : ∀ j, (t.cd j).dirIncoming = (s.cd j).dirIncoming := fun j => (hm.drift j).dirIncoming
  rcases hm.messages with hsame | ⟨j, mt, els, hsaid⟩
  · exact ⟨e, .refl, h.same hcr hd hsame⟩
  · refine ⟨_, .single (.say j _ ⟨s.primaryRate, mt, els, ?_⟩), h.send _ hcr hd hsaid⟩
    rw [h.name j]

theorem Moves.shows {i : Fin (n x)} {all : Prop} (hm : Moves env i all s t) (h : Shows e x s) :
    ∃ e', Exchange.Steps codec x e e' ∧ Shows e' x t := by
  induction hm with
  | refl => exact ⟨e, .refl, h⟩
  | tail _ hm ih =>
    obtain ⟨e1, hs1, h1⟩ := ih
    obtain ⟨e2, hs2, h2⟩ := hm.shows h1
    exact ⟨e2, hs1.trans hs2, h2⟩

/-- Some descriptors are cleared. -/
def cleared {n : Nat} (s : Cntl n) (js : List (Fin n)) : Cntl n :=
  { s with cd := fun j => if j ∈ js then {} else s.cd j }

/-- Each of them has a reference of its own then, which is zero. -/
theorem shows_cleared (h : Shows e x s) (js : List (Fin (n x))) :
    ∃ e', Exchange.Steps codec x e e' ∧ Shows e' x (s.cleared js) := by
  induction js with
  | nil => exact ⟨e, .refl, h⟩
  | cons k js ih =>
    obtain ⟨e1, hs1, h1⟩ := ih
    have hk : (s.cleared (k :: js)).cd k = {} := if_pos List.mem_cons_self
    have hrest : ∀ j, j ≠ k → (s.cleared (k :: js)).cd j = (s.cleared js).cd j := by
      intro j hj
      simp only [cleared, List.mem_cons, hj, false_or]
    refine ⟨_, hs1.tail (.originate k _), h1.originate k ?_ ?_ hrest rfl⟩
    · rw [hk]
      decide
    · rw [hk]

/-- What is heard was sent by the other end. -/
def Hears (e : Talk n) (x : Side) (a : Action (n x)) : Prop :=
  ∀ p buf broadcast, a = .dataInd p buf broadcast → ∃ g, (g, buf) ∈ e.wire x.other

/-- **A turn is some steps of the exchange.** -/
theorem Turn.shows (ht : Turn env True a s t) (hr : e.Agrees codec) (hh : Hears e x a)
    (h : Shows e x s) : ∃ e', Exchange.Steps codec x e e' ∧ Shows e' x t := by
  cases ht with
  | moves i hm => exact hm.shows h
  | write i hw hnamed hrest hmode hsaid =>
    cases hnamed with
    | same hcr hd =>
      refine ⟨e, .refl, h.same (fun j => ?_) (fun j => ?_) hsaid⟩
      · by_cases hj : j = i
        · rw [hj, hcr]
        · rw [hrest j hj]
      · by_cases hj : j = i
        · rw [hj, hd]
        · rw [hrest j hj]
    | own hcr hd =>
      exact ⟨_, .single (.originate i _), h.originate i (hcr trivial) hd hrest hsaid⟩
    | read p buf broadcast ha hcr hd hflag =>
      obtain ⟨g, hg⟩ := hh p buf broadcast ha
      exact ⟨_, .single (.accept i g buf hg), h.accept hr i hg hcr hd hflag hrest hsaid⟩
  | attach hnew hsaid =>
    obtain ⟨e', hs', h'⟩ := shows_cleared h (List.finRange (n x))
    have hcd : ∀ j, t.cd j = (s.cleared (List.finRange (n x))).cd j :=
      fun j => (hnew j).trans (if_pos (List.mem_finRange j)).symm
    exact ⟨e', hs', h'.same (fun j => by rw [hcd j]) (fun j => by rw [hcd j]) hsaid⟩
  | data hcd hsaid => exact ⟨e, .refl, h.same (fun j => by rw [hcd]) (fun j => by rw [hcd]) hsaid⟩
  | answer p buf broadcast ha mt els hcd hsaid =>
    obtain ⟨g, hg⟩ := hh p buf broadcast ha
    refine ⟨_, .single (.answer g buf _ hg ⟨s.primaryRate, mt, els, ?_⟩),
      h.send g (fun j => by rw [hcd]) (fun j => by rw [hcd]) hsaid⟩
    rw [toNat_read]

theorem Turns.shows (ht : Turns env True a s t) (hr : e.Reach codec) (hh : Hears e x a)
    (h : Shows e x s) : ∃ e', Exchange.Steps codec x e e' ∧ Shows e' x t := by
  induction ht with
  | refl => exact ⟨e, .refl, h⟩
  | tail _ ht ih =>
    obtain ⟨e1, hs1, h1⟩ := ih
    have hh1 : Hears e1 x a := by
      intro p buf broadcast ha
      rw [hs1.frame.wire]
      exact hh p buf broadcast ha
    obtain ⟨e2, hs2, h2⟩ := ht.shows (hr.steps hs1).agrees hh1 h1
    exact ⟨e2, hs1.trans hs2, h2⟩

end Cntl

/-! ## Two controllers -/

/-- The controllers at both ends of a line. -/
abbrev Peers (n : Side → Nat) := (x : Side) → Cntl (n x)

/-- Whatever may happen to one of them happens, with messages that the other one has sent. -/
inductive Peers.Reach (env : Side → Env) : Peers n → Prop where
  | start (unit channelEnd cdidCount : Side → Nat) (ntMode pointToPoint primaryRate : Side → Bool) :
      Reach env fun x => (Cntl.boot (unit x) (channelEnd x) (cdidCount x)).attach (ntMode x)
        (pointToPoint x) (primaryRate x)
  | step {S : Peers n} (x : Side) {a : Action (n x)} {t : Cntl (n x)} (h : Reach env S)
      (hs : (S x).step (env x) a = some t)
      (hheard : ∀ p buf broadcast, a = .dataInd p buf broadcast → buf ∈ (S x.other).messages) :
      Reach env (Function.update S x t)

namespace Peers.Reach

variable {env : Side → Env} {S : Peers n}

theorem cntl (h : Reach env S) (x : Side) : Cntl.Reach (env x) (S x) := by
  induction h with
  | start => exact .start _ _ _ _ _ _
  | step y _ hs _ ih =>
    rcases y.eq_or_eq_other x with rfl | rfl
    · rw [Function.update_self]
      exact ih.step hs
    · rw [Function.update_of_ne y.other_ne]
      exact ih

end Peers.Reach

/-- A run, and an exchange that goes with it, step by step. -/
inductive Peers.Runs (env : Side → Env) : Peers n → Talk n → Prop where
  | start {S : Peers n} {e : Talk n} (unit channelEnd cdidCount : Side → Nat)
      (ntMode pointToPoint primaryRate : Side → Bool)
      (hS : S = fun x => (Cntl.boot (unit x) (channelEnd x) (cdidCount x)).attach (ntMode x)
        (pointToPoint x) (primaryRate x))
      (he : e.Start) (hshows : ∀ x, Shows e x (S x)) : Runs env S e
  | step {S : Peers n} {e e' : Talk n} (x : Side) {a : Action (n x)} {t : Cntl (n x)}
      (h : Runs env S e) (hs : (S x).step (env x) a = some t)
      (hheard : ∀ p buf broadcast, a = .dataInd p buf broadcast → buf ∈ (S x.other).messages)
      (hsteps : Exchange.Steps codec x e e') (hshows : Shows e' x t) :
      Runs env (Function.update S x t) e'

namespace Peers.Runs

variable {env : Side → Env} {S : Peers n} {e : Talk n}

theorem reach (h : Runs env S e) : Peers.Reach env S := by
  induction h with
  | start unit channelEnd cdidCount ntMode pointToPoint primaryRate hS =>
    rw [hS]
    exact .start _ _ _ _ _ _
  | step x _ hs hheard _ _ ih => exact ih.step x hs hheard

theorem talk (h : Runs env S e) : e.Reach codec := by
  induction h with
  | start _ _ _ _ _ _ _ he => exact .start he
  | step x _ _ _ hsteps _ ih => exact ih.steps hsteps

theorem shows (h : Runs env S e) (y : Side) : Shows e y (S y) := by
  induction h with
  | start _ _ _ _ _ _ _ _ hshows => exact hshows y
  | step x _ _ _ hsteps hshows ih =>
    rcases x.eq_or_eq_other y with rfl | rfl
    · rw [Function.update_self]
      exact hshows
    · rw [Function.update_of_ne x.other_ne]
      exact ih.frame hsteps.frame

/-- **Whatever a controller does is some steps of the exchange.** -/
theorem extend (h : Runs env S e) (x : Side) {a : Action (n x)} {t : Cntl (n x)}
    (hs : (S x).step (env x) a = some t)
    (hheard : ∀ p buf broadcast, a = .dataInd p buf broadcast → buf ∈ (S x.other).messages) :
    ∃ e', Runs env (Function.update S x t) e' := by
  have hh : Cntl.Hears e x a := by
    intro p buf broadcast ha
    have hbuf := hheard p buf broadcast ha
    rw [← (h.shows x.other).wire] at hbuf
    obtain ⟨m, hm, rfl⟩ := List.mem_map.mp hbuf
    exact ⟨m.1, hm⟩
  have hgood := (h.reach.cntl x).good
  have hids : (S x).SmallIds :=
    ⟨hgood.cdidEndOk, (show (S x).cdidEnd = 0x7f from hgood.cdidEnd).trans_le (by decide)⟩
  have hturns : Cntl.Turns (env x) True a (S x) t := by
    rw [(Cntl.step_eq_some hs).2.1]
    exact Cntl.turns_perform (env x) (S x) (fun _ => hids) a
  obtain ⟨e', hsteps, hshows⟩ := hturns.shows h.talk hh (h.shows x)
  exact ⟨e', h.step x hs hheard hsteps hshows⟩

end Peers.Runs

/-- Every run is one of an exchange. -/
theorem Peers.Reach.runs {env : Side → Env} {S : Peers n} (h : Peers.Reach env S) :
    ∃ e, Peers.Runs env S e := by
  induction h with
  | start unit channelEnd cdidCount ntMode pointToPoint primaryRate =>
    refine ⟨⟨fun x _ => ⟨x.casesOn 0 1, 0⟩, [(.near, 0), (.far, 0)], fun _ => []⟩,
      .start unit channelEnd cdidCount ntMode pointToPoint primaryRate rfl ⟨?_, fun _ => rfl⟩
        fun x => ⟨fun _ => rfl, ?_, rfl, ?_⟩⟩
    · intro x i
      cases x <;> rfl
    · intro j
      cases x <;> rfl
    · intro r hr
      simp only [List.mem_cons, Prod.mk.injEq, List.not_mem_nil, or_false] at hr
      rcases hr with ⟨-, rfl⟩ | ⟨-, rfl⟩ <;> decide
  | step x _ hs hheard ih =>
    obtain ⟨e, he⟩ := ih
    exact he.extend x hs hheard

/-! ## Agreement -/

/-- The lookup finds the call that matches. -/
theorem Cntl.Reach.cdByUnitcr_eq {n : Nat} {env : Env} {s : Cntl n} (h : Cntl.Reach env s) {p : PipeNo}
    {cr : Nat} {i : Fin n} (hi : s.Matches p cr i) : s.cdByUnitcr p cr = some i := by
  have hend : s.line.cdidEnd = 0x7f := h.good.cdidEnd
  cases hf : s.cdByUnitcr p cr with
  | none => exact absurd hi (Cntl.not_matches_of_cdByUnitcr hf i)
  | some j =>
    have hj : s.Matches p cr j := Cntl.matches_of_cdByUnitcr hf
    rw [h.refs.matches_unique (by rw [hend]; decide) hj hi]

/-- Two controllers agree about the references of their calls. -/
structure Agreement (S : Peers n) (e : Talk n) : Prop where
  /-- A call that an end originated is stored there under the reference that was chosen, and by the
  other end under the same one with the flag inverted. -/
  stored : ∀ x i, ∃ r, e.calls[(e.leg x i).call]?
      = some (if ((S x).cd i).dirIncoming then x.other else x, r) ∧
    ((S x).cd i).cr = if ((S x).cd i).dirIncoming then r.toNat ^^^ 0x80 else r.toNat
  /-- The references of a call at both ends differ in the flag. -/
  toggled : ∀ x i j, (e.leg x i).call = (e.leg x.other j).call →
    ((S x.other).cd j).cr = ((S x).cd i).cr ^^^ 0x80
  /-- What is read from a message is the reference that the receiver has for its call. -/
  heard : ∀ x g buf, (g, buf) ∈ e.wire x.other → ∃ y r, e.calls[g]? = some (y, r) ∧
    (readStart (Buf.init buf)).crval = if y = x then r.toNat else r.toNat ^^^ 0x80
  /-- A message is handed to the call that it belongs to, if that sends on its pipe. -/
  routed : ∀ x g buf i p, (g, buf) ∈ e.wire x.other → (e.leg x i).call = g →
    ((S x).cd i).Allocated → ((S x).cd i).pipe = some adapter ∨ ((S x).cd i).pipe = some p →
    (S x).cdByUnitcr p (readStart (Buf.init buf)).crval = some i

theorem Peers.Runs.agreement {env : Side → Env} {S : Peers n} {e : Talk n} (h : Peers.Runs env S e) :
    Agreement S e := by
  have hagrees := h.talk.agrees
  refine ⟨fun x i => ?_, fun x i j hcall => ?_, fun x g buf hg => ?_,
    fun x g buf i p hg hcall ha hp => ?_⟩
  · obtain ⟨⟨y, r⟩, ho, hname⟩ := Option.map_eq_some_iff.mp (hagrees.stored x i)
    have hy := (h.shows x).originator i
    rw [ho, Option.map_some, Option.some_inj] at hy
    dsimp only at hy hname
    refine ⟨r, by rw [ho, hy], ?_⟩
    rw [← (h.shows x).name i, ← hname, hy]
    cases ((S x).cd i).dirIncoming with
    | false => exact congrArg BitVec.toNat (if_pos rfl)
    | true => exact (congrArg BitVec.toNat (if_neg x.other_ne)).trans (toNat_toggle r)
  · have hname := hagrees.stored x.other j
    rw [← hcall, Exchange.nameAt_other, hagrees.stored x i, Option.map_some,
      Option.some_inj] at hname
    rw [← (h.shows x).name i, ← (h.shows x.other).name j, ← hname]
    exact toNat_toggle _
  · obtain ⟨⟨y, r⟩, ho, hname⟩ := Option.map_eq_some_iff.mp (hagrees.heard hg)
    refine ⟨y, r, ho, ?_⟩
    rw [← toNat_read, ← hname]
    dsimp only
    split
    · rfl
    · exact toNat_toggle r
  · refine (h.reach.cntl x).cdByUnitcr_eq ⟨ha, ?_, hp⟩
    have hname := hagrees.stored x i
    rw [hcall, hagrees.heard hg, Option.some_inj] at hname
    rw [← (h.shows x).name i, ← hname, toNat_read]

/-- **Call references.**  Every reference of 32 bits is read back from the octetts that are written for
it, for basic and for primary rate, and these are as many as the first one says, and that one.  Whoever
stores such references and puts them into messages, and reads them with the flag inverted, has for each
call the reference that its originator chose, or the same one with the flag inverted, whatever is sent
and received in both directions.  Two controllers do so, whatever happens to them. -/
theorem callreferences_agree :
    (∀ (primaryRate : Bool) (cr : BitVec 32) (rest : List UInt8),
      getCallreference (makeCallreference primaryRate cr.toNat ++ rest) = cr.toNat ∧
      (makeCallreference primaryRate cr.toNat).length
        = ((makeCallreference primaryRate cr.toNat).headD 0).toNat + 1) ∧
    (∀ (n : Side → Nat) (e : Talk n), e.Reach codec → e.Agrees codec) ∧
    ∀ (n : Side → Nat) (env : Side → Env) (S : Peers n),
      (Peers.Reach env S → ∃ e, Peers.Runs env S e) ∧ ∀ e, Peers.Runs env S e → Agreement S e :=
  ⟨fun primaryRate cr rest => ⟨getCallreference_makeCallreference primaryRate cr.isLt rest,
      length_makeCallreference primaryRate cr.toNat⟩,
    fun _ _ hr => hr.agrees, fun _ _ _ => ⟨fun h => h.runs, fun _ h => h.agreement⟩⟩

/-- An application of the near end begins a call; the far end takes the SETUP and answers it. -/
theorem callreferences_agree_setup :
    ∃ (S : Peers fun _ => 1) (e : Talk fun _ => 1), Peers.Reach (fun _ => Cntl.plain) S ∧
      ((S .near).cd 0).cr = 1 ∧ ((S .far).cd 0).cr = 0x81 ∧ ((S .near).cd 0).state = .u3 ∧
      Agreement S e := by
  let near0 : Cntl 1 := (Cntl.boot 0 3 0).attach true true false
  let far0 : Cntl 1 := (Cntl.boot 0 3 0).attach false true false
  let setup : List UInt8 := [8, 1, 1, 5, 161, 4, 2, 136, 144, 24, 1, 137, 112, 2, 129, 49]
  let answer : List UInt8 := [8, 1, 129, 2]
  have hrun : ((near0.step Cntl.plain (.i4b 1 0 .cdidReq)).bind fun near1 =>
      (near1.step Cntl.plain (.i4b 1 64 (.connectReq
        ⟨1, 0, 0, 0, {}, false, [0x31], [], [], [], [], false⟩))).bind fun near2 =>
      (far0.step Cntl.plain (.dataInd 0 setup false)).bind fun far1 =>
      (near2.step Cntl.plain (.dataInd 0 answer false)).bind fun near3 =>
      some (decide (setup ∈ near2.messages ∧ answer ∈ far1.messages ∧ (near3.cd 0).cr = 1 ∧
        (far1.cd 0).cr = 0x81 ∧ (near3.cd 0).state = .u3))) = some true := by decide
  simp only [Option.bind_eq_some_iff, Option.some_inj, decide_eq_true_eq] at hrun
  obtain ⟨near1, h1, near2, h2, far1, h3, near3, h4, hsetup, hanswer, hnear, hfar, hstate⟩ := hrun
  let pair (a b : Cntl 1) : Peers fun _ => 1 := fun x => x.casesOn a b
  have hupdate : ∀ a b t, Function.update (pair a b) .near t = pair t b ∧
      Function.update (pair a b) .far t = pair a t := by
    intro a b t
    constructor <;> funext x <;> cases x <;> simp [pair]
  have hr0 : Peers.Reach (fun _ => Cntl.plain) (pair near0 far0) := by
    have hstart : Peers.Reach (n := fun _ => 1) (fun _ => Cntl.plain) _ :=
      .start (fun _ => 0) (fun _ => 3) (fun _ => 0) (fun x => x.casesOn true false) (fun _ => true)
        fun _ => false
    convert hstart using 1
    funext x
    cases x <;> rfl
  have hr1 := hr0.step .near h1 nofun
  rw [(hupdate near0 far0 near1).1] at hr1
  have hr2 := hr1.step .near h2 nofun
  rw [(hupdate near1 far0 near2).1] at hr2
  have hr3 := hr2.step .far h3 fun _ _ _ ha => by
    cases ha
    exact hsetup
  rw [(hupdate near2 far0 far1).2] at hr3
  have hr4 := hr3.step .near h4 fun _ _ _ ha => by
    cases ha
    exact hanswer
  rw [(hupdate near2 far1 near3).1] at hr4
  obtain ⟨e, he⟩ := (callreferences_agree.2.2 _ _ _).1 hr4
  exact ⟨_, e, hr4, hnear, hfar, hstate, (callreferences_agree.2.2 _ _ _).2 e he⟩

end L3
end Isdn4bsd
