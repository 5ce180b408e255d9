import Isdn4bsd.L3.Digits

/-!
# More digits for the applications

`i4b_l4_information_ind` passes on the digits of an INFORMATION message, through a buffer of
`TELNO_MAX` octetts that has the type of number before the digits and a zero behind them.

* `i4bL4InformationInd`: what the applications are sent.
* `passesOn_iff`: they are sent all digits of a message if and only if it has them in one element,
  and there are fewer of them than fit into `dst_telno`.
* `incoming_digits`: **the digits of incoming calls are kept, and are passed on.**

The array that the digits come from, `dst_telno_part`, has `TELNO_MAX` octetts as well, digits and zero.  With the
type of number in front there is one octett less for digits, so that the last digit of an element that fills
the array is cut off.  Applications of I4B get one digit less then, and those of CAPI an element with the zero
where the digit should be (`passed_i4b`, `passed_capi`).

`dst_telno_part` has the last piece of a message only.  If there are several, those before it are in the number of
the call, but are passed on to nobody.

That the number in the descriptor is what was received is the result of `Isdn4bsd.L3.Digits`; `incoming_digits`
puts the two together, for all runs.
-/

set_option autoImplicit false

namespace Isdn4bsd
namespace L3

open L2 (PipeNo)

/-! ## `i4b_l4_information_ind` -/

/-- The octett for the type of number, with the extension bit. -/
def tonOctett (ton : Nat) : UInt8 :=
  if ton = tonInternat then 0x80 ||| 0x10 ||| 0x01
  else if ton = tonNational then 0x80 ||| 0x20 ||| 0x01
  else 0x80 ||| 0x00 ||| 0x01

/-- What `snprintf` writes into a buffer of that size. -/
def snprintf (size : Nat) (str : Str) : List UInt8 := str.take (size - 1) ++ [0]

/-- What the applications are sent: `dst_telno` of `MSG_INFORMATION_IND`, and the information element
of `INFO_IND`. -/
structure Passed where
  i4b : Option (List UInt8)
  capi : Option (List UInt8)
  deriving DecidableEq, Repr

/-- `i4b_l4_information_ind`, if there is a buffer for each message or not. -/
def i4bL4InformationInd (mbuf : Bool) (aiType : AiType) (dstTon : Nat) (dstTelnoPart : Str) : Passed :=
  if dstTelnoPart = [] then ⟨none, none⟩
  else
    let buffer := snprintf telnoMax (tonOctett dstTon :: dstTelnoPart)
    -- `snprintf` returns how many there would be in a buffer that is large enough
    let len := dstTelnoPart.length
    { i4b :=
        if (aiType = .i4b ∨ aiType = .broadcast) ∧ mbuf then
          some ((buffer.drop 1).take (min len (telnoMax - 1)) ++ [0])
        else none
      capi :=
        if (aiType = .capi ∨ aiType = .broadcast) ∧ mbuf then some (buffer.take (len + 1)) else none }

/-- The applications a call belongs to, or is offered to, are sent these digits, complete and
unchanged. -/
structure Passed.Whole (w : Passed) (aiType : AiType) (dstTon : Nat) (digits : Str) : Prop where
  i4b : aiType = .i4b ∨ aiType = .broadcast → w.i4b.map cstr = some digits
  capi : aiType = .capi ∨ aiType = .broadcast → w.capi = some (tonOctett dstTon :: digits)

/-- The digits of a message are in one element, and there is one octett left in `dst_telno` for the
type of number. -/
def Short (pieces : List Str) : Prop :=
  (∀ digits ∈ pieces.dropLast, digits = []) ∧ pieces.flatten.length < telnoMax - 1

instance (pieces : List Str) : Decidable (Short pieces) := inferInstanceAs (Decidable (_ ∧ _))

theorem cstr_of_plain {chars : List UInt8} (h : ∀ c ∈ chars, c ≠ 0) : cstr (chars ++ [0]) = chars := by
  rw [cstr_append h]
  exact List.append_nil chars

/-- The buffer has the type of number, and the last digit is cut off if there is no room for it. -/
theorem snprintf_information (ton : Nat) (part : Str) :
    snprintf telnoMax (tonOctett ton :: part) = tonOctett ton :: (part.take (telnoMax - 2) ++ [0]) := rfl

theorem take_information (part : Str) :
    (part.take (telnoMax - 2) ++ [(0 : UInt8)]).take (min part.length (telnoMax - 1))
      = if part.length < telnoMax - 1 then part else part.take (telnoMax - 2) ++ [0] := by
  have hmax : telnoMax = 41 := rfl
  split
  · rw [List.take_of_length_le (l := part) (by omega), Nat.min_eq_left (by omega)]
    exact List.take_left' rfl
  · refine List.take_of_length_le ?_
    rw [List.length_append, List.length_take, List.length_singleton]
    omega

/-- I4B applications are sent all digits but the last one of a part that fills the array. -/
theorem passed_i4b {aiType : AiType} (ha : aiType = .i4b ∨ aiType = .broadcast) (ton : Nat) {part : Str}
    (hne : part ≠ []) (hplain : ∀ c ∈ part, c ≠ 0) :
    (i4bL4InformationInd true aiType ton part).i4b.map cstr = some (part.take (telnoMax - 2)) := by
  have hmax : telnoMax = 41 := rfl
  rw [i4bL4InformationInd, if_neg hne, snprintf_information]
  dsimp only
  rw [if_pos ⟨ha, rfl⟩, List.drop_one, List.tail_cons, take_information, Option.map_some]
  split
  · rw [cstr_of_plain hplain, List.take_of_length_le (by omega)]
  · rw [List.append_assoc, List.singleton_append, cstr_append_zero_cons, ← cstr_append_zero_cons _ [],
      cstr_of_plain fun c hc => hplain c (List.mem_of_mem_take hc)]

/-- CAPI applications are sent the element, which has a zero in place of the last digit then. -/
theorem passed_capi {aiType : AiType} (ha : aiType = .capi ∨ aiType = .broadcast) (ton : Nat) {part : Str}
    (hne : part ≠ []) (hlen : part.length < telnoMax) :
    (i4bL4InformationInd true aiType ton part).capi = some (tonOctett ton ::
      if part.length < telnoMax - 1 then part else part.take (telnoMax - 2) ++ [0]) := by
  have hmax : telnoMax = 41 := rfl
  rw [i4bL4InformationInd, if_neg hne, snprintf_information]
  dsimp only
  rw [if_pos ⟨ha, rfl⟩, List.take_succ_cons, ← take_information, Nat.min_eq_left (by omega)]

/-- **All digits of a message are passed on if and only if it is a short one.** -/
theorem whole_iff (aiType : AiType) (ton : Nat) (pieces : List Str) {last : Str} (hne : last ≠ [])
    (hplain : ∀ c ∈ last, c ≠ 0) :
    (i4bL4InformationInd true aiType ton (last.take (telnoMax - 1))).Whole aiType ton
        (pieces ++ [last]).flatten ↔ Short (pieces ++ [last]) := by
  have hmax : telnoMax = 41 := rfl
  have hpos := List.length_pos_of_ne_nil hne
  have hlen : (last.take (telnoMax - 1)).length = min (telnoMax - 1) last.length := List.length_take
  have hpart : last.take (telnoMax - 1) ≠ [] := by
    refine List.ne_nil_of_length_pos ?_
    omega
  have hi4b := fun ha => @passed_i4b aiType ha ton _ hpart
    fun c hc => hplain c (List.mem_of_mem_take hc)
  have hcapi := fun ha => @passed_capi aiType ha ton _ hpart (by omega)
  have htake : (last.take (telnoMax - 1)).take (telnoMax - 2) = last.take (telnoMax - 2) := by
    rw [List.take_take]
    rfl
  rw [htake] at hi4b hcapi
  rw [Short, List.dropLast_concat, List.flatten_concat, ← List.flatten_eq_nil_iff]
  constructor
  · intro h
    have hi4b' : aiType = .i4b ∨ aiType = .broadcast →
        pieces.flatten ++ last = last.take (telnoMax - 2) := by
      intro ha
      have h1 := h.i4b ha
      rw [hi4b ha] at h1
      exact (Option.some.inj h1).symm
    have hcapi' : aiType = .capi → pieces.flatten ++ last = last.take (telnoMax - 1) ∧
        last.length < telnoMax - 1 := by
      intro ha
      have h1 := h.capi (.inl ha)
      rw [hcapi (.inl ha)] at h1
      have h2 := (List.cons.inj (Option.some.inj h1)).2
      split at h2
      · exact ⟨h2.symm, by omega⟩
      · -- the zero is not one of the digits
        have h3 : (0 : UInt8) ∈ last := by
          have h4 := congrArg List.getLast? h2
          rw [List.getLast?_concat, List.getLast?_append_of_ne_nil _ hne] at h4
          exact List.mem_of_getLast? h4.symm
        exact absurd rfl (hplain 0 h3)
    have hcut : (pieces.flatten ++ last).length ≤ last.length ∧ last.length < telnoMax - 1 := by
      by_cases ha : aiType = .capi
      · obtain ⟨h1, h2⟩ := hcapi' ha
        have := congrArg List.length h1
        rw [List.length_take] at this
        omega
      · have h1 := hi4b' (by
          cases aiType with
          | broadcast => exact .inr rfl
          | i4b => exact .inl rfl
          | capi => exact absurd rfl ha)
        have := congrArg List.length h1
        rw [List.length_take] at this
        rw [List.length_append] at this ⊢
        omega
    rw [List.length_append] at hcut ⊢
    exact ⟨List.eq_nil_of_length_eq_zero (by omega), by omega⟩
  · rintro ⟨hnil, hshort⟩
    rw [hnil, List.nil_append] at hshort ⊢
    refine ⟨fun ha => ?_, fun ha => ?_⟩
    · rw [hi4b ha, List.take_of_length_le (by omega)]
    · rw [hcapi ha, if_pos (by omega), List.take_of_length_le (by omega)]

/-! ## INFORMATION messages -/

theorem calledNumbers_plain (elements : Buf) : ∀ piece ∈ calledNumbers elements, ∀ c ∈ piece, c ≠ 0 := by
  refine decodeIeLoop_ind (P := fun pieces : List Str => ∀ piece ∈ pieces, ∀ c ∈ piece, c ≠ 0)
    (fun pieces b h => ?_) _ 0 0 _ _ fun _ h => nomatch h
  split
  · intro piece hpiece
    rcases List.mem_append.mp hpiece with hold | hnew
    · exact h piece hold
    · rw [List.mem_singleton.mp hnew]
      exact fun c hc => mem_cstr_ne_zero hc
  · exact h

namespace Cntl

variable {n : Nat} {env : Env} {i : Fin n} {s : Cntl n}

/-- The digits are passed on: the last thing that is done is to call `i4b_l4_information_ind`, and
what it sends is all of them. -/
def PassesOn (s s' : Cntl n) (i : Fin n) (digits : Str) : Prop :=
  ∃ outs part,
    s'.out = s.out ++ outs ++ [.ind (s.cd i).cdid (s.cd i).aiType (s.cd i).aiPtr (.information part)] ∧
      ∀ ton, (i4bL4InformationInd true (s.cd i).aiType ton part).Whole (s.cd i).aiType ton digits

/-- This is an INFORMATION message for an incoming call. -/
structure Information (env : Env) (s : Cntl n) (p : PipeNo) (buf : List UInt8) (broadcast : Bool)
    (i : Fin n) : Prop where
  recipient : s.recipient env p buf broadcast = some i
  allocated : (s.cd i).Allocated
  incoming : (s.cd i).dirIncoming = true
  event : messageEvent (readStart (Buf.init buf)).mt = .info

theorem Moves.dstTelnoPart {all : Prop} {t : Cntl n} (h : Moves env i all s t) (j : Fin n) :
    (t.cd j).dstTelnoPart = (s.cd j).dstTelnoPart := by
  refine h.rel (R := fun cd cd' => cd'.dstTelnoPart = cd.dstTelnoPart) ⟨fun _ => rfl,
    fun _ _ _ h h' => h'.trans h, fun cd cd' h => ?_⟩ j
  cases h with
  | mute h => exact congrArg Words.dstTelnoPart h.words
  | placed h => exact congrArg Words.dstTelnoPart h.words
  | flushed h => exact congrArg Words.dstTelnoPart h.words
  | collected h => exact congrArg Words.dstTelnoPart h.words

/-- Digits that are catched are told to the holder of the call. -/
theorem out_onInfo (env : Env) (s : Cntl n) (i : Fin n) :
    if (s.cd i).dstTelnoPart = [] then s.onInfo env i = s
    else ∃ outs, (s.onInfo env i).out = s.out ++ outs ++
      [.ind (s.cd i).cdid (s.cd i).aiType (s.cd i).aiPtr (.information (s.cd i).dstTelnoPart)] := by
  rw [onInfo]
  by_cases hnil : (s.cd i).dstTelnoPart = []
  · rw [if_pos hnil, if_neg (not_not_intro hnil)]
  · rw [if_neg hnil, if_pos hnil]
    have hm : Moves env i True s
        (if (s.cd i).state = .inAck then s.cdSetState env i .inAck else s) :=
      Moves.ite (Moves.cdSetState .refl _) .refl
    have hk : Keeps True i s (if (s.cd i).state = .inAck then s.cdSetState env i .inAck else s) :=
      (Keeps.refl.cdSetState (by decide)).ite .refl
    generalize (if (s.cd i).state = .inAck then s.cdSetState env i .inAck else s) = t at hm hk ⊢
    obtain ⟨outs, houts⟩ := hk.out
    obtain ⟨h1, h2, h3⟩ : (t.cd i).cdid = (s.cd i).cdid ∧ (t.cd i).aiType = (s.cd i).aiType ∧
        (t.cd i).aiPtr = (s.cd i).aiPtr := by simpa only [holder, Prod.mk.injEq] using hk.holder
    refine ⟨outs, ?_⟩
    rw [houts, ← h1, ← h2, ← h3, ← hm.dstTelnoPart i]
    rfl

/-- The last piece is passed on, if there are digits in it. -/
theorem Information.told {p : PipeNo} {buf : List UInt8} {broadcast : Bool}
    (h : Information env s p buf broadcast i) {last : Str}
    (hlast : (calledNumbers (readStart (Buf.init buf)).elements).getLast?.getD [] = last) :
    if last = [] then (s.dss1PipeDataInd env p buf broadcast).out = s.out
    else ∃ outs, (s.dss1PipeDataInd env p buf broadcast).out = s.out ++ outs ++
      [.ind (s.cd i).cdid (s.cd i).aiType (s.cd i).aiPtr
        (.information (last.take (telnoMax - 1)))] := by
  rcases dss1PipeDataInd_cases env s p buf broadcast with
    ⟨hr, -⟩ | ⟨j, m, hr, hm, ⟨rfl, -⟩ | ⟨hsetup, -⟩⟩
  · rw [h.recipient] at hr
    cases hr
  · obtain rfl : i = j := Option.some.inj (h.recipient.symm.trans hr)
    have hevent : eventFor (m.cd i) .info = .info := if_neg fun h => nomatch h.1
    have hkeeps : Keeps True i m (m.readMessage env i .info (readStart (Buf.init buf)).elements) :=
      Keeps.refl.readMessage _ _
    have hin : ((m.readMessage env i .info (readStart (Buf.init buf)).elements).cd i).dirIncoming
        = true := by
      obtain ⟨_, _, he⟩ := (reads_readMessage env m i .info (readStart (Buf.init buf)).elements).eq
      rw [he]
      exact h.incoming
    have hpart : ((m.readMessage env i .info (readStart (Buf.init buf)).elements).cd i).dstTelnoPart
        = last.take (telnoMax - 1) := by
      rw [readMessage_eq, modify_cd_self, part_heard, hlast]
    have hout : (m.readMessage env i .info (readStart (Buf.init buf)).elements).out = m.out := rfl
    rw [hm, h.event, receive, hevent]
    generalize m.readMessage env i .info (readStart (Buf.init buf)).elements = t at *
    have hignored : ¬ t.ignored i .info := by
      rintro ⟨-, -, ⟨h, -⟩ | h⟩
      · cases h
      · cases h
    have hupdate : t.cdUpdate env i (some p) .info = t.onInfo env i := by
      rw [cdUpdate, if_neg]
      rw [if_pos hin]
      decide
    obtain ⟨h1, h2, h3⟩ : (t.cd i).cdid = (m.cd i).cdid ∧ (t.cd i).aiType = (m.cd i).aiType ∧
        (t.cd i).aiPtr = (m.cd i).aiPtr := by simpa only [holder, Prod.mk.injEq] using hkeeps.holder
    have hinfo := out_onInfo env t i
    rw [hpart, h1, h2, h3, hout] at hinfo
    rw [if_neg hignored, hupdate]
    by_cases hnil : last = []
    · rw [if_pos (by rw [hnil]; rfl)] at hinfo
      rw [if_pos hnil, hinfo, hout]
    · have hne : last.take (telnoMax - 1) ≠ [] := by
        rw [Ne, List.take_eq_nil_iff]
        exact fun h => h.elim (by decide) hnil
      rw [if_neg hne] at hinfo
      rw [if_neg hnil]
      exact hinfo
  · rw [h.event] at hsetup
    cases hsetup

/-- **The digits of an INFORMATION message are passed on if and only if it is a short one.** -/
theorem Information.passesOn_iff {p : PipeNo} {buf : List UInt8} {broadcast : Bool}
    (h : Information env s p buf broadcast i)
    (hne : (calledNumbers (readStart (Buf.init buf)).elements).flatten ≠ []) :
    PassesOn s (s.dss1PipeDataInd env p buf broadcast) i
        (calledNumbers (readStart (Buf.init buf)).elements).flatten ↔
      Short (calledNumbers (readStart (Buf.init buf)).elements) := by
  have htold := h.told rfl
  have hplain := calledNumbers_plain (readStart (Buf.init buf)).elements
  generalize calledNumbers (readStart (Buf.init buf)).elements = pieces at htold hplain hne ⊢
  rcases List.eq_nil_or_concat pieces with rfl | ⟨before, last, rfl⟩
  · exact absurd rfl hne
  · rw [List.concat_eq_append] at *
    rw [List.getLast?_concat, Option.getD_some] at htold
    by_cases hlast : last = []
    · rw [if_pos hlast] at htold
      constructor
      · rintro ⟨outs, part, hout, -⟩
        have := congrArg List.length (htold.symm.trans hout)
        rw [List.append_assoc, List.length_append, List.length_append, List.length_singleton] at this
        omega
      · rintro ⟨hbefore, -⟩
        rw [List.dropLast_concat] at hbefore
        refine absurd (List.flatten_eq_nil_iff.mpr fun piece hpiece => ?_) hne
        rcases List.mem_append.mp hpiece with hold | hnew
        · exact hbefore piece hold
        · exact (List.mem_singleton.mp hnew).trans hlast
    · rw [if_neg hlast] at htold
      obtain ⟨outs, htold⟩ := htold
      have hwhole := fun ton => whole_iff (s.cd i).aiType ton before hlast
        (hplain last (List.mem_append_right _ (List.mem_singleton_self last)))
      constructor
      · rintro ⟨outs', part, hout, hw⟩
        have hind := (List.append_inj' (htold.symm.trans hout) rfl).2
        obtain rfl : last.take (telnoMax - 1) = part := by simpa using hind
        exact (hwhole 0).mp (hw 0)
      · intro hshort
        exact ⟨outs, _, htold, fun ton => (hwhole ton).mpr hshort⟩

/-! ## The result -/

/-- **The digits of an incoming call are kept**, as many as there is room for, with a zero and the
pointer behind them, in every run whose steps keep numbers; **and those of a message are passed on**
if and only if it is a short one. -/
theorem incoming_digits {digits : Fin n → Str} (h : Heard env (KeepsNumbers env) s digits) :
    (∀ i, (s.cd i).dirIncoming = true →
      cstr (s.cd i).dstTelno = (digits i).take (telnoMax - 1) ∧ L3.Ended telnoMax (s.cd i).dstTelno ∧
        (s.cd i).dstTelnoPtr = (cstr (s.cd i).dstTelno).length ∧ (s.cd i).dstTelnoPtr < telnoMax) ∧
    ∀ (p : PipeNo) (buf : List UInt8) (broadcast : Bool) (i : Fin n) (s' : Cntl n),
      s.step env (.dataInd p buf broadcast) = some s' → Information env s p buf broadcast i →
        (calledNumbers (readStart (Buf.init buf)).elements).flatten ≠ [] →
          (PassesOn s s' i (calledNumbers (readStart (Buf.init buf)).elements).flatten ↔
            Short (calledNumbers (readStart (Buf.init buf)).elements)) := by
  refine ⟨fun i hin => ?_, fun p buf broadcast i s' hs hinfo hne => ?_⟩
  · have hn := h.numbered i hin
    exact ⟨hn.number, hn.ended, hn.ptr, hn.ptr_lt⟩
  · obtain ⟨-, rfl, -⟩ := step_eq_some hs
    exact hinfo.passesOn_iff hne

/-- A SETUP with two digits, and then two more. -/
def setupTwelve : Action 1 :=
  .dataInd 0 [0x08, 0x01, 0x05, 0x05, 0x70, 0x03, 0x81, 0x31, 0x32] false
def informationThirtyFour : Action 1 :=
  .dataInd 0 [0x08, 0x01, 0x05, 0x7b, 0x70, 0x03, 0x81, 0x33, 0x34] false

/-- They are in the descriptor. -/
theorem incoming_digits_twice :
    ∃ s : Cntl 1, (s.cd 0).dirIncoming = true ∧ cstr (s.cd 0).dstTelno = [0x31, 0x32, 0x33, 0x34] := by
  have h : ((fresh false true).step plain setupTwelve).bind (fun s =>
      (s.step plain informationThirtyFour).bind fun t =>
        some (decide ((t.cd 0).dirIncoming = true ∧
          s.received plain ((fresh false true : Cntl 1).received plain (fun _ => []) setupTwelve)
            informationThirtyFour 0 = [0x31, 0x32, 0x33, 0x34]))) = some true := by decide
  obtain ⟨s, hs, h⟩ := Option.bind_eq_some_iff.mp h
  obtain ⟨t, ht, h⟩ := Option.bind_eq_some_iff.mp h
  obtain ⟨hin, hdigits⟩ := of_decide_eq_true (Option.some.inj h)
  have h1 : KeepsNumbers plain (fresh false true : Cntl 1) setupTwelve := by
    exact ⟨fun _ _ _ _ h => (nomatch h), fun _ _ _ _ _ _ hun => absurd rfl hun⟩
  have h2 : KeepsNumbers plain s informationThirtyFour := by
    refine ⟨fun _ _ _ _ h => (nomatch h), fun _ _ _ _ h _ _ _ hsetup => ?_⟩
    cases h
    exact absurd hsetup (by decide)
  have hstart : Heard plain (KeepsNumbers plain) (fresh false true : Cntl 1) fun _ => [] :=
    .start 0 3 0 false true false
  obtain ⟨hnumber, -⟩ := (incoming_digits ((hstart.step h1 hs).step h2 ht)).1 0 hin
  rw [hdigits] at hnumber
  exact ⟨t, hin, hnumber⟩

/-- An INFORMATION message with forty digits. -/
def informationForty : List UInt8 :=
  [0x08, 0x01, 0x05, 0x7b, 0x70, 41, 0x81] ++ List.replicate 40 0x31

/-- The last one of them gets lost. -/
theorem fortieth_digit_lost :
    ∃ (s s' : Cntl 1) (digits : Fin 1 → Str), Heard plain (fun _ _ => True) s digits ∧
      s.step plain (.dataInd 0 informationForty false) = some s' ∧
      Information plain s 0 informationForty false 0 ∧
      calledNumbers (readStart (Buf.init informationForty)).elements = [List.replicate 40 0x31] ∧
      ¬ PassesOn s s' 0 (List.replicate 40 0x31) := by
  have h : ((fresh false true).step plain setupTwelve).bind (fun s =>
      (s.step plain (.dataInd 0 informationForty false)).bind fun _ =>
        some (decide (s.recipient plain 0 informationForty false = some 0 ∧ (s.cd 0).Allocated ∧
          (s.cd 0).dirIncoming = true))) = some true := by decide
  obtain ⟨s, hs, h⟩ := Option.bind_eq_some_iff.mp h
  obtain ⟨t, ht, h⟩ := Option.bind_eq_some_iff.mp h
  obtain ⟨hr, hun, hin⟩ := of_decide_eq_true (Option.some.inj h)
  have hinfo : Information plain s 0 informationForty false 0 := ⟨hr, hun, hin, by decide⟩
  have hpieces : calledNumbers (readStart (Buf.init informationForty)).elements
      = [List.replicate 40 0x31] := by decide
  have hiff := hinfo.passesOn_iff (by rw [hpieces]; decide)
  rw [hpieces] at hiff
  obtain ⟨-, rfl, -⟩ := step_eq_some ht
  exact ⟨s, _, _, (Heard.start 0 3 0 false true false).step trivial hs, ht, hinfo, hpieces,
    fun hpasses => absurd (hiff.mp hpasses) (by decide)⟩

end Cntl

end L3
end Isdn4bsd
