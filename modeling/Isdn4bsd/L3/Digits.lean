import Isdn4bsd.L3.Strings
import Isdn4bsd.L3.Ownership
import Mathlib.Data.List.TakeWhile

/-!
# Layer 3: the digits of incoming calls

The number of an incoming call comes in pieces: the first one in its SETUP, more of them in
INFORMATION messages.

* `calledDigits` and `calledNumbers`: the digits of an element, and the pieces in a message.
* `CallDesc.HasNumber`: the number in a descriptor is these digits, as many as there is room for,
  and the next ones go behind them.
* `reading_heard`: a message appends its pieces.
* `Heard`: runs, with the digits that were received for each descriptor; `Heard.numbered`:
  **the descriptor of an incoming call has the number that was received.**

## What may go wrong

The digits are put behind those that are there, at `dst_telno_ptr`, and a SETUP sets the pointer back to the
start.  A descriptor that was just allocated is clear, so its first SETUP finds nothing there.  A SETUP that is
repeated without a number, for a call that has digits already, leaves them there with the pointer in front of
them.  The other way to lose the digits is a request to dial (`I4B_CONNECT_REQ`) for a call that is an incoming
one: nothing asks for the direction before the number is overwritten.  `KeepsNumbers` leaves out these two, and
nothing else.

`Reading` is the invariant of the loop over the elements of one message: so many pieces were in it so far.
All that happens between two messages is left to `Isdn4bsd.L3.Moves`: moves do not touch the number of an
incoming call, since they place digits behind those that were sent, and an incoming call sends none.
-/

set_option autoImplicit false

namespace Isdn4bsd
namespace L3

open L2 (PipeNo adapter)

/-! ## Strings

Digits are appended to a string as long as there is room in its array, and what does not fit is dropped.
-/

theorem cstr_take (str : List UInt8) (k : Nat) : cstr (str.take k) = (cstr str).take k := by
  induction str generalizing k with
  | nil => rw [List.take_nil, cstr, List.takeWhile_nil, List.take_nil]
  | cons c str ih =>
    cases k with
    | zero => rfl
    | succ k =>
      simp only [cstr, List.take_succ_cons, List.takeWhile_cons] at ih ⊢
      split
      · rw [ih, List.take_succ_cons]
      · rfl

theorem filterString_take (bytes : List UInt8) (k : Nat) :
    filterString (bytes.take k) = (filterString bytes).take k := by
  induction bytes generalizing k with
  | nil => rw [List.take_nil, filterString, List.take_nil]
  | cons c bytes ih =>
    cases k with
    | zero => rfl
    | succ k =>
      rw [List.take_succ_cons, filterString, filterString]
      split
      · rfl
      · rw [List.take_succ_cons, ih]

theorem getBytes_take (b : Buf) {j k : Nat} (h : j ≤ k) (offset : Nat) :
    b.getBytes j offset = (b.getBytes k offset).take j := by
  induction j generalizing k offset with
  | zero => rw [Buf.getBytes, List.take_zero]
  | succ j ih =>
    obtain ⟨k, rfl⟩ : ∃ l, k = l + 1 := ⟨k - 1, by omega⟩
    rw [Buf.getBytes, Buf.getBytes]
    split
    · rw [List.take_succ_cons, ih (Nat.le_of_succ_le_succ h)]
    · rw [List.take_nil]

theorem mem_cstr_ne_zero {str : List UInt8} {c : UInt8} (h : c ∈ cstr str) : c ≠ 0 := by
  simpa using List.mem_takeWhile_imp h

/-- A string ends with its zero. -/
theorem cstr_append_zero_cons (chars rest : List UInt8) : cstr (chars ++ 0 :: rest) = cstr chars := by
  induction chars with
  | nil => rfl
  | cons c chars ih =>
    simp only [cstr, List.cons_append, List.takeWhile_cons] at ih ⊢
    rw [ih]

theorem cstr_append {chars : List UInt8} (h : ∀ c ∈ chars, c ≠ 0) (rest : List UInt8) :
    cstr (chars ++ rest) = chars ++ cstr rest := by
  rw [cstr, cstr, List.takeWhile_append_of_pos fun c hc => by simpa using h c hc]

/-! ## The digits of a message

A message may have any number of elements with digits in them, in any order with others.
-/

/-- The digits of a called party number; an element has no more than 255 octetts after its length. -/
def calledDigits (b : Buf) : Str := cstr (filterString (b.getBytes 255 3))

/-- The pieces of the number in a message. -/
def calledNumbers (elements : Buf) : List Str :=
  dss1DecodeIe (fun ds b => if b.get1 0 = ieiCalledpn.toNat then ds ++ [calledDigits b] else ds) []
    elements

/-- What `get_multi_1` makes of them, with room for some of them and a zero. -/
theorem getMulti1_calledDigits (b : Buf) {room : Nat} (h : room ≤ 255) :
    ∃ chars, getMulti1 b 3 (room + 1) true = (chars ++ [0], (cstr chars).length) ∧
      cstr chars = (calledDigits b).take room ∧ chars.length ≤ room := by
  have hbytes := getBytes_take b h 3
  refine ⟨filterString (b.getBytes room 3), ?_, ?_, ?_⟩
  · rw [getMulti1, if_neg (Nat.succ_ne_zero room), if_pos rfl, Nat.add_sub_cancel]
    dsimp only
    rw [cstr_append_zero_cons]
  · rw [hbytes, filterString_take, cstr_take, calledDigits]
  · rw [length_filterString]
    exact length_getBytes_le b room 3

theorem getString_calledDigits (b : Buf) :
    getString b 3 telnoMax true = (calledDigits b).take (telnoMax - 1) := by
  obtain ⟨chars, hmulti, hchars, -⟩ := @getMulti1_calledDigits b (telnoMax - 1) (by decide)
  rw [getString, show telnoMax = telnoMax - 1 + 1 from rfl, hmulti, cstr_append_zero_cons, hchars]
  rfl

/-! ## The number of a call

The number of an incoming call is the digits of its SETUP, and of each message with digits afterwards, as
far as there is room for them.
-/

namespace CallDesc

/-- The number in a descriptor is these digits, as many as there is room for, and more of them are
put behind these. -/
structure HasNumber (cd : CallDesc) (digits : Str) : Prop where
  ended : Ended telnoMax cd.dstTelno
  number : cstr cd.dstTelno = digits.take (telnoMax - 1)
  ptr : cd.dstTelnoPtr = (cstr cd.dstTelno).length

/-- More digits are put behind these, whatever is there now. -/
structure Appends (cd : CallDesc) (digits : Str) : Prop where
  ended : Ended telnoMax cd.dstTelno
  start : cd.dstTelno.take cd.dstTelnoPtr = digits.take (telnoMax - 1)
  ptr : cd.dstTelnoPtr = (digits.take (telnoMax - 1)).length
  digits : ∀ c ∈ digits.take (telnoMax - 1), c ≠ 0

theorem HasNumber.congr {cd cd' : CallDesc} {digits : Str} (h : cd.HasNumber digits)
    (htelno : cd'.dstTelno = cd.dstTelno) (hptr : cd'.dstTelnoPtr = cd.dstTelnoPtr) :
    cd'.HasNumber digits := by
  refine ⟨?_, ?_, ?_⟩
  · rw [htelno]
    exact h.ended
  · rw [htelno]
    exact h.number
  · rw [htelno, hptr]
    exact h.ptr

theorem Appends.congr {cd cd' : CallDesc} {digits : Str} (h : cd.Appends digits)
    (htelno : cd'.dstTelno = cd.dstTelno) (hptr : cd'.dstTelnoPtr = cd.dstTelnoPtr) :
    cd'.Appends digits := by
  refine ⟨?_, ?_, ?_, h.digits⟩
  · rw [htelno]
    exact h.ended
  · rw [htelno, hptr]
    exact h.start
  · rw [hptr]
    exact h.ptr

theorem HasNumber.appends {cd : CallDesc} {digits : Str} (h : cd.HasNumber digits) :
    cd.Appends digits := by
  refine ⟨h.ended, ?_, ?_, ?_⟩
  · rw [h.ptr, ← h.number]
    exact List.prefix_iff_eq_take.mp (List.takeWhile_prefix _) |>.symm
  · rw [h.ptr, h.number]
  · rw [← h.number]
    exact fun c hc => mem_cstr_ne_zero hc

/-- The pointer stays in bounds. -/
theorem HasNumber.ptr_lt {cd : CallDesc} {digits : Str} (h : cd.HasNumber digits) :
    cd.dstTelnoPtr < telnoMax := by
  rw [h.ptr]
  exact h.ended.cstr_length_lt

/-- The digits of an element are put behind the others. -/
theorem Appends.appendCalledpn {cd : CallDesc} {digits : Str} (h : cd.Appends digits) (b : Buf) :
    (appendCalledpn b cd).HasNumber (digits ++ calledDigits b) := by
  have hmax : telnoMax = 41 := rfl
  have hptr : cd.dstTelnoPtr = min (telnoMax - 1) digits.length := by
    rw [h.ptr, List.length_take]
  obtain ⟨chars, hmulti, hchars, hlen⟩ :=
    @getMulti1_calledDigits b (telnoMax - 1 - cd.dstTelnoPtr) (by omega)
  have hroom : telnoMax - cd.dstTelnoPtr = telnoMax - 1 - cd.dstTelnoPtr + 1 := by omega
  have hnumber : cstr (writeAt cd.dstTelno cd.dstTelnoPtr (chars ++ [0]))
      = (digits ++ calledDigits b).take (telnoMax - 1) := by
    have hrest : telnoMax - 1 - cd.dstTelnoPtr = telnoMax - 1 - digits.length := by omega
    rw [writeAt, h.start, List.append_assoc, List.append_assoc, List.singleton_append,
      cstr_append h.digits, cstr_append_zero_cons, hchars, hrest, List.take_append]
  rw [L3.appendCalledpn, hroom, hmulti]
  refine ⟨h.ended.writeAt (by omega), hnumber, ?_⟩
  dsimp only
  rw [hnumber, hchars, List.length_take, List.length_take, List.length_append]
  omega

/-- What is said about the number of a call. -/
def dialling (cd : CallDesc) : Bool × List UInt8 × Nat × Str :=
  (cd.dirIncoming, cd.dstTelno, cd.dstTelnoPtr, cd.dstTelnoPart)

theorem dialling_ite {q : Prop} [Decidable q] {cd cd' cd'' : CallDesc}
    (h : cd.dialling = cd''.dialling) (h' : cd'.dialling = cd''.dialling) :
    (if q then cd else cd').dialling = cd''.dialling := by
  split
  · exact h
  · exact h'

/-- No other element says anything about it. -/
theorem dialling_dss1DecodeQ931Cs0IeCd (env : Env) (ntMode : Bool) (cd : CallDesc) {b : Buf}
    (h : b.get1 0 ≠ ieiCalledpn.toNat) :
    (dss1DecodeQ931Cs0IeCd env ntMode cd b).dialling = cd.dialling := by
  rw [dss1DecodeQ931Cs0IeCd]
  dsimp only
  refine dialling_ite (dialling_ite rfl rfl) ?_
  refine dialling_ite (dialling_ite rfl rfl) ?_
  refine dialling_ite rfl (dialling_ite rfl ?_)
  refine dialling_ite (dialling_ite rfl rfl) ?_
  refine dialling_ite (dialling_ite rfl (dialling_ite rfl rfl)) ?_
  refine dialling_ite rfl (dialling_ite (dialling_ite rfl rfl) ?_)
  refine dialling_ite (dialling_ite rfl (dialling_ite rfl rfl)) ?_
  refine dialling_ite (dialling_ite rfl (dialling_ite rfl rfl)) ?_
  rw [if_neg h]
  exact dialling_ite (dialling_ite rfl rfl) (dialling_ite rfl rfl)

/-- A called party number is kept apart, and appended in an incoming call. -/
theorem dss1DecodeQ931Cs0IeCd_calledpn (env : Env) (ntMode : Bool) (cd : CallDesc) {b : Buf}
    (h : b.get1 0 = ieiCalledpn.toNat) :
    dss1DecodeQ931Cs0IeCd env ntMode cd b =
      { (if cd.dirIncoming then L3.appendCalledpn b cd else cd) with
        dstTelnoPart := (calledDigits b).take (telnoMax - 1) } := by
  rw [dss1DecodeQ931Cs0IeCd, ← getString_calledDigits, h]
  dsimp only
  rw [if_neg (by decide), if_neg (by decide), if_neg (by decide), if_neg (by decide),
    if_neg (by decide), if_neg (by decide), if_neg (by decide), if_neg (by decide),
    if_neg (by decide), if_neg (by decide), if_pos rfl]

end CallDesc

/-! ## A message

The pieces of a message are appended in the order in which they come.
-/

/-- Two functions that are shown the same elements. -/
theorem decodeIeLoop_rel {α β : Type} {R : α → β → Prop} {f : α → Buf → α} {g : β → Buf → β}
    (hR : ∀ a c b, R a c → R (f a b) (g c b)) :
    ∀ (fuel codeset next : Nat) (a : α) (c : β) (b : Buf), R a c →
      R (decodeIeLoop f fuel codeset next a b) (decodeIeLoop g fuel codeset next c b)
  | 0, _, _, _, _, _, h => h
  | fuel + 1, codeset, next, a, c, b, h => by
    by_cases hv : b.getValid 0
    · rw [decodeIeLoop_of_valid hv, decodeIeLoop_of_valid hv]
      refine decodeIeLoop_rel hR fuel _ _ _ _ _ ?_
      rw [dispatch, dispatch]
      split
      · exact hR a c _ h
      · exact h
    · rw [decodeIeLoop_of_invalid hv, decodeIeLoop_of_invalid hv]
      exact h

/-- What is known of the descriptor of an incoming call while a message is read: these pieces were
in it so far.  Until there is one, the number may be an old one. -/
structure Reading (fresh : Prop) (digits : Str) (cd : CallDesc) (pieces : List Str) : Prop where
  incoming : cd.dirIncoming = true
  appends : cd.Appends (digits ++ pieces.flatten)
  number : fresh ∨ pieces ≠ [] → cd.HasNumber (digits ++ pieces.flatten)

theorem Reading.start {fresh : Prop} {digits : Str} {cd : CallDesc} (hin : cd.dirIncoming = true)
    (ha : cd.Appends digits) (hn : fresh → cd.HasNumber digits) : Reading fresh digits cd [] := by
  have hdigits : digits ++ ([] : List Str).flatten = digits := List.append_nil digits
  refine ⟨hin, ?_, fun hf => ?_⟩
  · rw [hdigits]
    exact ha
  · rw [hdigits]
    exact hn (hf.resolve_right fun h => h rfl)

theorem Reading.element {fresh : Prop} {digits : Str} {cd : CallDesc} {pieces : List Str}
    (h : Reading fresh digits cd pieces) (env : Env) (ntMode : Bool) (b : Buf) :
    Reading fresh digits (dss1DecodeQ931Cs0IeCd env ntMode cd b)
      (if b.get1 0 = ieiCalledpn.toNat then pieces ++ [calledDigits b] else pieces) := by
  by_cases hb : b.get1 0 = ieiCalledpn.toNat
  · have happ := h.appends.appendCalledpn b
    rw [List.append_assoc, ← List.flatten_concat] at happ
    have hnew : CallDesc.HasNumber
        { L3.appendCalledpn b cd with dstTelnoPart := (calledDigits b).take (telnoMax - 1) }
        (digits ++ (pieces ++ [calledDigits b]).flatten) := ⟨happ.ended, happ.number, happ.ptr⟩
    rw [if_pos hb, CallDesc.dss1DecodeQ931Cs0IeCd_calledpn env ntMode cd hb, if_pos h.incoming]
    exact ⟨h.incoming, hnew.appends, fun _ => hnew⟩
  · have hd := CallDesc.dialling_dss1DecodeQ931Cs0IeCd env ntMode cd hb
    simp only [CallDesc.dialling, Prod.mk.injEq] at hd
    obtain ⟨hin, htelno, hptr, -⟩ := hd
    rw [if_neg hb]
    exact ⟨hin.trans h.incoming, h.appends.congr htelno hptr,
      fun hf => (h.number hf).congr htelno hptr⟩

/-- **A message for an incoming call appends its pieces.**  A SETUP has to say a number, unless there
is none yet. -/
theorem reading_heard (env : Env) (ntMode : Bool) (event : Event) (elements : Buf) {cd : CallDesc}
    {digits : Str} (hin : cd.dirIncoming = true) (h : cd.HasNumber digits) :
    Reading (event = .setup → cstr cd.dstTelno = []) (if event = .setup then [] else digits)
      (Cntl.heard env ntMode event elements cd) (calledNumbers elements) := by
  rw [Cntl.heard, calledNumbers, dss1DecodeIe, dss1DecodeIe]
  refine decodeIeLoop_rel (fun cd pieces b h => h.element env ntMode b) _ 0 0 _ _ _ ?_
  have h1 : (if event = .connect then { cd with idateTimeLen := 0 } else cd).dirIncoming = true ∧
      (if event = .connect then { cd with idateTimeLen := 0 } else cd).dstTelno = cd.dstTelno ∧
      (if event = .connect then { cd with idateTimeLen := 0 } else cd).dstTelnoPtr
        = cd.dstTelnoPtr := by
    split
    · exact ⟨hin, rfl, rfl⟩
    · exact ⟨hin, rfl, rfl⟩
  generalize (if event = .connect then { cd with idateTimeLen := 0 } else cd) = c at h1 ⊢
  obtain ⟨hcin, htelno, hptr⟩ := h1
  by_cases hs : event = .setup
  · have hended : Ended telnoMax c.dstTelno := htelno ▸ h.ended
    rw [if_pos hs, if_pos hs]
    refine .start hcin ⟨hended, rfl, rfl, fun c hc => absurd hc List.not_mem_nil⟩ fun hf => ?_
    have hnil : cstr c.dstTelno = [] := by
      rw [htelno]
      exact hf hs
    refine ⟨hended, hnil, ?_⟩
    dsimp only
    rw [hnil]
    rfl
  · have hn : CallDesc.HasNumber { c with dstTelnoPart := [], peerResponded := true } digits :=
      h.congr htelno hptr
    rw [if_neg hs, if_neg hs]
    exact .start hcin hn.appends fun _ => hn

/-- The last piece of a message is kept apart. -/
theorem part_heard (env : Env) (ntMode : Bool) (event : Event) (elements : Buf) (cd : CallDesc) :
    (Cntl.heard env ntMode event elements cd).dstTelnoPart
      = ((calledNumbers elements).getLast?.getD []).take (telnoMax - 1) := by
  rw [Cntl.heard, calledNumbers, dss1DecodeIe, dss1DecodeIe]
  refine decodeIeLoop_rel (R := fun (cd : CallDesc) (pieces : List Str) =>
    cd.dstTelnoPart = (pieces.getLast?.getD []).take (telnoMax - 1)) ?_ _ 0 0 _ _ _ rfl
  intro cd pieces b h
  by_cases hb : b.get1 0 = ieiCalledpn.toNat
  · rw [if_pos hb, CallDesc.dss1DecodeQ931Cs0IeCd_calledpn env ntMode cd hb, List.getLast?_concat]
    rfl
  · rw [if_neg hb, ← h]
    exact congrArg (fun d => d.2.2.2) (CallDesc.dialling_dss1DecodeQ931Cs0IeCd env ntMode cd hb)

/-! ## What keeps the number

Moves that can be made at any time do not touch the number of an incoming call.
-/

/-- If this is an incoming call afterwards it was one before, and has the number that it had. -/
def CallDesc.Same (cd cd' : CallDesc) : Prop :=
  cd'.dirIncoming = true →
    cd.dirIncoming = true ∧ ∀ digits, cd.HasNumber digits → cd'.HasNumber digits

namespace CallDesc

theorem Same.refl (cd : CallDesc) : cd.Same cd := fun hin => ⟨hin, fun _ h => h⟩

theorem Same.trans {cd cd' cd'' : CallDesc} (h : cd.Same cd') (h' : cd'.Same cd'') : cd.Same cd'' := by
  intro hin
  obtain ⟨hin', hkeep'⟩ := h' hin
  obtain ⟨hin'', hkeep⟩ := h hin'
  exact ⟨hin'', fun digits hn => hkeep' digits (hkeep digits hn)⟩

theorem Same.of_outgoing {cd cd' : CallDesc} (h : cd'.dirIncoming = false) : cd.Same cd' :=
  fun hin => absurd hin (by rw [h]; exact Bool.false_ne_true)

theorem Same.of_eq {cd cd' : CallDesc} (hin : cd'.dirIncoming = cd.dirIncoming)
    (htelno : cd'.dstTelno = cd.dstTelno) (hptr : cd'.dstTelnoPtr = cd.dstTelnoPtr) : cd.Same cd' :=
  fun h => ⟨hin ▸ h, fun _ hn => hn.congr htelno hptr⟩

theorem Same.mute {cd cd' cd'' : CallDesc} (hs : cd.Same cd') (h : Mute cd' cd'') : cd.Same cd'' :=
  hs.trans (.of_eq h.dirIncoming (congrArg Words.dstTelno h.words)
    (congrArg Words.dstTelnoPtr h.words))

/-- More digits would be put behind the number anyway. -/
theorem HasNumber.placed {cd : CallDesc} {digits : Str} (h : cd.HasNumber digits) :
    cd.placed.HasNumber digits := by
  refine ⟨h.ended, h.number, ?_⟩
  rw [CallDesc.placed]
  dsimp only
  split
  · rfl
  · exact h.ptr

theorem Same.drift {cd cd' : CallDesc} (h : Cntl.Drift cd cd') : cd.Same cd' := by
  cases h with
  | mute h => exact (Same.refl cd).mute h
  | placed h =>
    have hplaced : cd.Same cd.placed := fun hin => ⟨hin, fun _ hn => hn.placed⟩
    exact hplaced.mute h
  | flushed h =>
    have hflushed : cd.Same cd.flushed := .of_eq rfl rfl rfl
    exact hflushed.mute h
  | collected h =>
    have hcollected : cd.Same cd.collected := .of_eq rfl rfl rfl
    exact hcollected.mute h

end CallDesc

/-- The actions that may write a number into the descriptor of an incoming call. -/
def Action.Writes {n : Nat} : Action n → Prop
  | .dataInd .. | .i4b _ _ (.connectReq _) | .capi _ _ (.connect _) => True
  | _ => False

namespace Cntl

open CallDesc (Same HasNumber)

variable {n : Nat} {env : Env} {i : Fin n} {all : Prop} {r s t : Cntl n}

theorem lax_same : Lax Same := ⟨Same.refl, fun _ _ _ h h' => h.trans h', fun _ _ h => .drift h⟩

theorem Moves.same (h : Moves env i all s t) (j : Fin n) : Same (s.cd j) (t.cd j) := h.rel lax_same j

theorem same_dialled (digits : List UInt8) (cd : CallDesc) : Same cd (dialled digits cd) := by
  rw [dialled]
  dsimp only
  split
  · exact .of_eq rfl rfl rfl
  · rename_i hin
    exact .of_outgoing (by simpa using hin)

theorem Write.same {a : Action n} (ha : ¬ a.Writes) {ntMode : Bool} {cd cd' : CallDesc}
    (h : Write env ntMode a cd cd') : Same cd cd' := by
  cases h with
  | clear => exact .of_outgoing rfl
  | beginOutgoing => exact .of_outgoing rfl
  | beginIncoming => exact absurd trivial ha
  | hear => exact absurd trivial ha
  | connectReq => exact absurd trivial ha
  | informationReq => exact same_dialled _ cd
  | capiConnect => exact absurd trivial ha
  | capiInfo => exact same_dialled _ cd
  | deflect => exact .of_eq rfl rfl rfl

/-- All other actions leave the numbers as they are. -/
theorem Deeds.same {a : Action n} (ha : ¬ a.Writes) (h : Deeds env a s t) (j : Fin n) :
    Same (s.cd j) (t.cd j) :=
  h.rel lax_same (fun _ => .of_outgoing rfl) (fun _ _ _ hw => hw.same ha) j

/-! ## Requests to dial

A request to dial writes to the same field.  It does so for outgoing calls, and for others if it is made
to.
-/

/-- A request to dial, for an outgoing call. -/
theorem same_dial {f : CallDesc → CallDesc} (hf : ∀ cd, (f cd).dirIncoming = cd.dirIncoming)
    (hout : (s.cd i).dirIncoming = false) (channel : Int) (j : Fin n) :
    Same (s.cd j) (((s.modify i f).connectOn env i channel).cd j) := by
  have hm : Moves env i True (s.modify i f) ((s.modify i f).connectOn env i channel) :=
    Moves.connectOn .refl channel
  by_cases hj : j = i
  · subst hj
    refine .of_outgoing ?_
    rw [hm.dirIncoming, modify_cd_self, hf, hout]
  · have h := hm.same j
    rwa [modify_cd_of_ne s f hj] at h

/-- `I4B_CONNECT_REQ` does not look whether the call is an incoming one. -/
theorem same_i4bIoctl_connectReq {sc cdid : Nat} {q : ConnectReq}
    (h : ∀ i, s.cdByCdid cdid = some i → s.Owns i .i4b sc → (s.cd i).dirIncoming = false) (j : Fin n) :
    Same (s.cd j) ((s.i4bIoctl env sc cdid (.connectReq q)).cd j) := by
  rw [i4bIoctl.eq_def]
  split
  · rename_i i hi
    split
    · rename_i hown
      rw [i4bCommand]
      exact same_dial (f := storeConnectReq q) (fun _ => rfl) (h i hi hown) q.channel j
    · exact .refl _
  · exact .refl _

theorem same_capiCommand_connect (sc : Nat) (q : CapiConnect) (j : Fin n) :
    Same (s.cd j) ((s.capiCommand env i sc (.connect q)).cd j) := by
  rw [capiCommand]
  split
  · exact .refl _
  · rename_i hin
    have hout : (s.cd i).dirIncoming = false := by simpa using hin
    rw [confirmed]
    split
    · exact same_dial (s := s.ask.2) (f := storeCapiConnect q) (fun _ => rfl) hout chanAny j
    · exact .refl _

theorem same_capiWrite_connect (sc cdid : Nat) (q : CapiConnect) (j : Fin n) :
    Same (s.cd j) ((s.capiWrite env sc cdid (.connect q)).cd j) := by
  rw [capiWrite.eq_def]
  split
  · split
    · exact same_capiCommand_connect sc q j
    · exact .refl _
  · have h1 : Deeds env (.detach : Action n) s (s.nAllocateCd env none 0 .capi sc).2 :=
      (Turns.nAllocateCd env .refl False.elim none 0 .capi sc
        (fun _ cd => .beginOutgoing _ cd 0 .capi sc) fun h => absurd h Bool.false_ne_true).deeds
    have h2 := h1.same id j
    dsimp only
    split
    · rename_i ha
      rw [ha] at h2
      exact h2.trans (same_capiCommand_connect sc q j)
    · rename_i ha
      rwa [ha] at h2

/-! ## Messages -/

/-- The descriptor that a message is for; a SETUP may take a new one. -/
def recipient (env : Env) (s : Cntl n) (p : PipeNo) (buf : List UInt8) (broadcast : Bool) :
    Option (Fin n) :=
  let b := Buf.init buf
  if ¬ b.getValid 0 ∨ (s.ntMode ∧ broadcast) ∨ b.get1 0 ≠ L2.pdQ931.toNat then none
  else
    let m := readStart b
    match s.cdByUnitcr p m.crval with
    | some i => some i
    | none =>
      if m.crval &&& 0x80 ≠ 0 ∧ messageEvent m.mt = .setup then
        (s.nAllocateCd env (some p) m.crval .broadcast 0).1
      else none

/-- A new incoming call has no number yet. -/
theorem nAllocateCd_incoming (env : Env) (s : Cntl n) (p : PipeNo) (crval : Nat) :
    (∃ t, s.nAllocateCd env (some p) crval .broadcast 0 = (none, t) ∧ ∀ j, Same (s.cd j) (t.cd j)) ∨
      ∃ i t, s.nAllocateCd env (some p) crval .broadcast 0 = (some i, t) ∧
        ¬ (s.cd i).Allocated ∧ (∀ j, j ≠ i → Same (s.cd j) (t.cd j)) ∧
        (t.cd i).dirIncoming = true ∧ (t.cd i).HasNumber [] := by
  have hturns : Turns env False (.detach : Action n) s s.i4bAllocateCd.2 := Turns.i4bAllocateCd .refl
  have hsame := hturns.deeds.same id
  rw [nAllocateCd]
  rcases i4bAllocateCd_effect s with ⟨h1, -⟩ | ⟨i, cdid, h1, hun, -, -, hcd⟩
  · generalize s.i4bAllocateCd = r at h1 hsame
    obtain ⟨o, t⟩ := r
    obtain rfl : o = none := h1
    exact .inl ⟨t, rfl, hsame⟩
  · generalize s.i4bAllocateCd = r at h1 hsame hcd
    obtain ⟨o, t⟩ := r
    obtain rfl : o = some i := h1
    have hm : Moves env i True (t.setupCall i (some p) crval .broadcast 0)
        (((t.setupCall i (some p) crval .broadcast 0).cdSetPipe env i (some p)).cdSetState env i
          .incoming) := (Moves.cdSetPipe .refl i _).cdSetState _
    have hbegun : (t.setupCall i (some p) crval .broadcast 0).cd i
        = begun true crval .broadcast 0 { cdid := cdid } := by
      rw [setupCall_eq, modify_cd_self, ← hcd]
      rfl
    have hnew : HasNumber (begun true crval .broadcast 0 { cdid := cdid }) [] :=
      ⟨ended_replicate 40, rfl, rfl⟩
    have hin := (hm.dirIncoming i).trans (congrArg (fun cd : CallDesc => cd.dirIncoming) hbegun)
    refine .inr ⟨i, _, rfl, hun, fun j hj => ?_, ?_, ?_⟩
    · have h := hm.same j
      rw [setupCall_eq, modify_cd_of_ne t _ hj] at h
      exact (hsame j).trans h
    · exact hin
    · refine (hm.same i hin).2 [] ?_
      rw [hbegun]
      exact hnew

/-- A message is for no call, or for one that there is, or it begins one. -/
theorem dss1PipeDataInd_cases (env : Env) (s : Cntl n) (p : PipeNo) (buf : List UInt8)
    (broadcast : Bool) :
    (s.recipient env p buf broadcast = none ∧
        ∀ j, Same (s.cd j) ((s.dss1PipeDataInd env p buf broadcast).cd j)) ∨
      ∃ i m, s.recipient env p buf broadcast = some i ∧
        s.dss1PipeDataInd env p buf broadcast =
          m.receive env i p (messageEvent (readStart (Buf.init buf)).mt)
            (readStart (Buf.init buf)).elements ∧
        ((m = s ∧ (s.cd i).Allocated) ∨
          (messageEvent (readStart (Buf.init buf)).mt = .setup ∧ ¬ (s.cd i).Allocated ∧
            (∀ j, j ≠ i → Same (s.cd j) (m.cd j)) ∧ (m.cd i).dirIncoming = true ∧
            (m.cd i).HasNumber [])) := by
  rw [recipient, dss1PipeDataInd]
  dsimp only
  split
  · exact .inl ⟨rfl, fun j => .refl _⟩
  · cases hi : s.cdByUnitcr p (readStart (Buf.init buf)).crval with
    | some i =>
      have hmatch : s.Matches p (readStart (Buf.init buf)).crval i := by
        simpa using List.find?_some hi
      exact .inr ⟨i, s, rfl, rfl, .inl ⟨rfl, hmatch.1⟩⟩
    | none =>
      dsimp only
      split
      · rename_i hsetup
        rcases nAllocateCd_incoming env s p (readStart (Buf.init buf)).crval with
          ⟨t, ht, hsame⟩ | ⟨i, t, ht, hun, hsame, hin, hnew⟩
        · rw [ht]
          exact .inl ⟨rfl, hsame⟩
        · rw [ht]
          exact .inr ⟨i, t, rfl, rfl, .inr ⟨hsetup.2, hun, hsame, hin, hnew⟩⟩
      · refine .inl ⟨rfl, ?_⟩
        have hreset : ∀ m : Cntl n, Turns env False .detach m (m.dss1PipeResetInd env p) :=
          fun m => Turns.dss1PipeResetInd .refl p
        have hdeeds : Deeds env (.detach : Action n) s
            (s.receiveUnknown env p (readStart (Buf.init buf)) broadcast) := by
          rw [receiveUnknown]
          split
          · split
            · exact .head (.data (cd_dss1L3TxMessageByPipeCr env s p _ _ none _)) (hreset _).deeds
            · exact .refl
          · split
            · exact .single (.data (cd_dss1L3TxMessageByPipeCr env s p _ _ _ none))
            · exact .refl
        exact hdeeds.same id

/-! ## Runs

The number is that which was received, in each state of a run whose steps keep it.
-/

/-- The digits that were received for each descriptor, after an action: a SETUP starts a number, and
any message may go on with it. -/
def received (env : Env) (s : Cntl n) (digits : Fin n → Str) : Action n → Fin n → Str
  | .dataInd p buf broadcast =>
    match s.recipient env p buf broadcast with
    | some i =>
      let m := readStart (Buf.init buf)
      Function.update digits i
        ((if messageEvent m.mt = .setup then [] else digits i) ++ (calledNumbers m.elements).flatten)
    | none => digits
  | _ => digits

/-- Runs all of whose steps are allowed, with the digits that were received. -/
inductive Heard (env : Env) (ok : Cntl n → Action n → Prop) : Cntl n → (Fin n → Str) → Prop where
  | start (unit channelEnd cdidCount : Nat) (ntMode pointToPoint primaryRate : Bool) :
      Heard env ok ((boot unit channelEnd cdidCount).attach ntMode pointToPoint primaryRate)
        fun _ => []
  | step {s s' : Cntl n} {a : Action n} {digits : Fin n → Str} (h : Heard env ok s digits)
      (hok : ok s a) (hs : s.step env a = some s') : Heard env ok s' (s.received env digits a)

/-- What is needed for the number of an incoming call to be kept: it is not dialled by
`I4B_CONNECT_REQ`, and its SETUP is not repeated without a number once there are digits. -/
structure KeepsNumbers (env : Env) (s : Cntl n) (a : Action n) : Prop where
  connectReq : ∀ sc cdid q i, a = .i4b sc cdid (.connectReq q) → s.cdByCdid cdid = some i →
    s.Owns i .i4b sc → (s.cd i).dirIncoming = false
  setup : ∀ p buf broadcast i, a = .dataInd p buf broadcast →
    s.recipient env p buf broadcast = some i → (s.cd i).Allocated → (s.cd i).dirIncoming = true →
    messageEvent (readStart (Buf.init buf)).mt = .setup →
    calledNumbers (readStart (Buf.init buf)).elements ≠ [] ∨ cstr (s.cd i).dstTelno = []

/-- Every incoming call has the number that was received for it. -/
def Numbered (s : Cntl n) (digits : Fin n → Str) : Prop :=
  ∀ i, (s.cd i).dirIncoming = true → (s.cd i).HasNumber (digits i)

theorem Numbered.same {digits : Fin n → Str} (h : Numbered s digits)
    (hs : ∀ j, Same (s.cd j) (t.cd j)) : Numbered t digits := by
  intro i hin
  obtain ⟨hin', hkeep⟩ := hs i hin
  exact hkeep _ (h i hin')

theorem eventFor_eq_setup (cd : CallDesc) (event : Event) :
    eventFor cd event = .setup ↔ event = .setup := by
  rw [eventFor]
  split
  · rename_i h
    rw [h.1]
    decide
  · rfl

theorem receive_same (env : Env) (s : Cntl n) (i : Fin n) (p : PipeNo) (event : Event) (elements : Buf) :
    ∃ m : Cntl n, m = s.readMessage env i (eventFor (s.cd i) event) elements ∧
      Moves env i True m (s.receive env i p event elements) := by
  refine ⟨_, rfl, ?_⟩
  rw [receive]
  exact Moves.ite .refl (Moves.cdUpdate .refl _ _)

/-- A message for a call: its number goes on, and the others stay. -/
theorem Numbered.receive {digits : Fin n → Str} (p : PipeNo) {event : Event} {elements : Buf}
    (h : Numbered s digits)
    (hsetup : (s.cd i).dirIncoming = true → event = .setup →
      calledNumbers elements ≠ [] ∨ cstr (s.cd i).dstTelno = []) :
    Numbered (s.receive env i p event elements) (Function.update digits i
      ((if event = .setup then [] else digits i) ++ (calledNumbers elements).flatten)) := by
  obtain ⟨m, hm, hmoves⟩ := receive_same env s i p event elements
  refine Numbered.same ?_ fun j => hmoves.same j
  intro j hin
  rw [hm, readMessage_eq] at hin ⊢
  by_cases hj : j = i
  · subst hj
    rw [modify_cd_self] at hin ⊢
    rw [Function.update_self]
    have hin' : (s.cd j).dirIncoming = true := by
      obtain ⟨_, _, he⟩ := (reads_heard env s.ntMode (eventFor (s.cd j) event) elements (s.cd j)).eq
      rw [← hin, he]
    have hr := reading_heard env s.ntMode (eventFor (s.cd j) event) elements hin' (h j hin')
    simp only [eventFor_eq_setup] at hr
    refine hr.number ?_
    by_cases hs : event = .setup
    · exact (hsetup hin' hs).symm.imp (fun hnil _ => hnil) id
    · exact .inl fun h => absurd h hs
  · rw [modify_cd_of_ne _ _ hj] at hin ⊢
    rw [Function.update_of_ne hj]
    exact h j hin

theorem Numbered.step {digits : Fin n → Str} (h : Numbered s digits) {a : Action n}
    (hok : KeepsNumbers env s a) : Numbered (s.perform env a) (s.received env digits a) := by
  by_cases ha : a.Writes
  · cases a with
    | dataInd p buf broadcast =>
      rw [received, perform]
      rcases dss1PipeDataInd_cases env s p buf broadcast with
        ⟨hr, hsame⟩ | ⟨i, m, hr, hm, ⟨rfl, hun⟩ | ⟨hsetup, hun, hsame, hin, hnew⟩⟩
      · rw [hr]
        exact h.same hsame
      · rw [hr, hm]
        exact h.receive p fun hin hs => hok.setup p buf broadcast i rfl hr hun hin hs
      · rw [hr, hm]
        -- the descriptor is new, whatever was in it
        have hm : Numbered m (Function.update digits i []) := by
          intro j hj
          by_cases hji : j = i
          · subst hji
            rw [Function.update_self]
            exact hnew
          · obtain ⟨hj', hkeep⟩ := hsame j hji hj
            rw [Function.update_of_ne hji]
            exact hkeep _ (h j hj')
        have hend : Numbered (m.receive env i p (messageEvent (readStart (Buf.init buf)).mt)
            (readStart (Buf.init buf)).elements) _ := hm.receive p fun _ _ => .inr hnew.number
        rw [Function.update_idem, if_pos hsetup] at hend
        dsimp only
        rwa [if_pos hsetup]
    | i4b sc cdid q =>
      cases q with
      | connectReq q => exact h.same (same_i4bIoctl_connectReq (hok.connectReq sc cdid q · rfl))
      | _ => exact ha.elim
    | capi sc cdid q =>
      cases q with
      | connect q => exact h.same (same_capiWrite_connect sc cdid q)
      | _ => exact ha.elim
    | _ => exact ha.elim
  · have hr : s.received env digits a = digits := by
      cases a with
      | dataInd => exact absurd trivial ha
      | _ => rfl
    rw [hr]
    exact h.same (Deeds.same ha (deeds_perform env s a))

/-- **The descriptor of an incoming call has the number that was received**, in every run whose steps
keep it. -/
theorem Heard.numbered {digits : Fin n → Str} (h : Heard env (KeepsNumbers env) s digits) :
    Numbered s digits := by
  induction h with
  | start unit channelEnd cdidCount nt ptp pr => exact fun i hin => nomatch hin
  | step h hok hs ih =>
    obtain ⟨-, rfl, -⟩ := step_eq_some hs
    exact ih.step hok

end Cntl

end L3
end Isdn4bsd
