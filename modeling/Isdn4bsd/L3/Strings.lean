import Isdn4bsd.L3.Elements
import Isdn4bsd.L3.Deeds

/-!
# Layer 3: strings and their arrays

Numbers and texts are copied into arrays of a descriptor, from messages and from requests.

* `Ended`: memory with a terminating zero at its end, whatever is written into it.
* `CallDesc.Fits`: every string of a descriptor fits its array, and the pointer into `dst_telno`
  stays in bounds.
* `lasting_fits`: **that is so for every descriptor at any time.**

There are several ways of copying: `get_multi_1` with the size of the array, `strlcpy`, loops that cut a string
of a CAPI message, and the digits of a call, which are put behind one another through `dst_telno_ptr`, with
the room that is left.  Each of them has a lemma here, and `Write` of `Isdn4bsd.L3.Deeds` is the list of places
where one of them is used.

`dst_telno` is memory and not a string: a number that is shorter than the last one leaves the end of that one
behind its zero.  What is an invariant of it is that its last octett is zero, whatever is written before it,
and that the pointer is no further than this octett.
-/

set_option autoImplicit false

namespace Isdn4bsd
namespace L3

/-! ## Memory with a zero at its end

An array that ends in a zero, at whatever place, holds a string that fits.  The functions that write
strings in pieces keep the last octett zero rather than the string short, so this is what is carried
along.
-/

/-- So many octetts, and the last one is zero. -/
def Ended (room : Nat) (mem : List UInt8) : Prop :=
  ∃ chars, mem = chars ++ [0] ∧ chars.length + 1 = room

theorem cstr_length_le (mem : List UInt8) : (cstr mem).length ≤ mem.length :=
  (List.takeWhile_prefix _).length_le

theorem cstr_append_zero_length_le (chars : List UInt8) : (cstr (chars ++ [0])).length ≤ chars.length := by
  induction chars with
  | nil => exact le_refl _
  | cons c chars ih =>
    rw [cstr] at ih ⊢
    rw [List.cons_append, List.takeWhile_cons]
    split
    · exact Nat.succ_le_succ ih
    · exact Nat.zero_le _

/-- What is written there is a string that fits. -/
theorem Ended.cstr_length_lt {room : Nat} {mem : List UInt8} (h : Ended room mem) :
    (cstr mem).length < room := by
  obtain ⟨chars, rfl, hlen⟩ := h
  have := cstr_append_zero_length_le chars
  omega

/-- Writing a string with its zero, inside the array, leaves the last zero there. -/
theorem Ended.writeAt {room offset : Nat} {mem : List UInt8} (h : Ended room mem) {x : List UInt8}
    (hx : offset + x.length < room) : Ended room (writeAt mem offset (x ++ [0])) := by
  obtain ⟨chars, rfl, hlen⟩ := h
  have htake : (chars ++ [(0 : UInt8)]).take offset = chars.take offset :=
    List.take_append_of_le_length (by omega)
  rw [L3.writeAt, htake, List.length_append, List.length_singleton]
  rcases Nat.lt_or_ge (offset + (x.length + 1)) room with hlt | hge
  · have hdrop : (chars ++ [(0 : UInt8)]).drop (offset + (x.length + 1))
        = chars.drop (offset + (x.length + 1)) ++ [0] :=
      List.drop_append_of_le_length (by omega)
    refine ⟨chars.take offset ++ (x ++ [0]) ++ chars.drop (offset + (x.length + 1)), ?_, ?_⟩
    · rw [hdrop, List.append_assoc _ _ [0]]
    · simp only [List.length_append, List.length_take, List.length_drop, List.length_singleton]
      omega
  · have hdrop : (chars ++ [(0 : UInt8)]).drop (offset + (x.length + 1)) = [] := by
      refine List.drop_eq_nil_of_le ?_
      rw [List.length_append, List.length_singleton]
      omega
    refine ⟨chars.take offset ++ x, ?_, ?_⟩
    · rw [hdrop, List.append_nil, List.append_assoc]
    · rw [List.length_append, List.length_take]
      omega

theorem ended_replicate (room : Nat) : Ended (room + 1) (List.replicate (room + 1) 0) :=
  ⟨List.replicate room 0, by rw [List.replicate_succ'], by rw [List.length_replicate]⟩

/-! ## Copies

Strings are copied with `strlcpy`, from octetts of a message, or through a filter that leaves characters
out.  Each of these writes less than the size of the array.
-/

theorem strlcpy_length_lt (src : Str) {size : Nat} (h : 0 < size) :
    (Cntl.strlcpy src size).length < size := by
  rw [Cntl.strlcpy]
  have := List.length_take_le (size - 1) (cstr src)
  omega

theorem length_getBytes_le (b : Buf) (k offset : Nat) : (b.getBytes k offset).length ≤ k := by
  induction k generalizing offset with
  | zero => exact le_refl _
  | succ k ih =>
    rw [Buf.getBytes]
    split
    · exact Nat.succ_le_succ (ih _)
    · exact Nat.zero_le _

theorem length_filterString (bytes : List UInt8) : (filterString bytes).length = bytes.length := by
  induction bytes with
  | nil => rfl
  | cons c bytes ih =>
    rw [filterString]
    split
    · rfl
    · rw [List.length_cons, List.length_cons, ih]

/-- What `get_multi_1` writes ends in a zero and fits, and its result is inside. -/
theorem getMulti1_written (b : Buf) (offset : Nat) {len : Nat} (filter : Bool) (h : 0 < len) :
    ∃ chars, (getMulti1 b offset len filter).1 = chars ++ [0] ∧ chars.length < len ∧
      (getMulti1 b offset len filter).2 ≤ chars.length := by
  have hbytes := length_getBytes_le b (len - 1) offset
  rw [getMulti1, if_neg (by omega)]
  split
  · refine ⟨_, rfl, ?_, cstr_append_zero_length_le _⟩
    rw [length_filterString]
    omega
  · exact ⟨_, rfl, by omega, le_refl _⟩

theorem getString_length_lt (b : Buf) (offset : Nat) {len : Nat} (filter : Bool) (h : 0 < len) :
    (getString b offset len filter).length < len := by
  obtain ⟨chars, hw, hlen, -⟩ := getMulti1_written b offset filter h
  rw [getString, hw]
  exact lt_of_le_of_lt (cstr_append_zero_length_le chars) hlen

/-! ## Descriptors

All strings of a descriptor are words, so the rule for moves can be used.
-/

/-- The number and the subaddress of a calling party fit their arrays. -/
structure SrcTelno.Fits (src : SrcTelno) : Prop where
  telno : src.telno.length < telnoMax
  subaddr : src.subaddr.length < subaddrMax

/-- The strings of a descriptor fit their arrays. -/
structure Words.Fits (w : Words) : Prop where
  dstTelno : Ended telnoMax w.dstTelno
  dstTelnoPtr : w.dstTelnoPtr < telnoMax
  dstTelnoPart : w.dstTelnoPart.length < telnoMax
  dstTelnoEarly : w.dstTelnoEarly.length < telnoMax
  dstSubaddr : w.dstSubaddr.length < subaddrMax
  src0 : w.src0.Fits
  src1 : w.src1.Fits
  keypad : w.keypad.length < keypadMax
  userUser : w.userUser.length < userUserMax
  display : w.display.length < displayMax

def CallDesc.Fits (cd : CallDesc) : Prop := cd.words.Fits

namespace CallDesc

theorem fits_default : Fits {} := by
  have hsrc : SrcTelno.Fits {} := ⟨by decide, by decide⟩
  exact ⟨ended_replicate 40, by decide, by decide, by decide, by decide, hsrc, hsrc, by decide,
    by decide, by decide⟩

/-- Only the words count. -/
theorem Fits.congr {cd cd' : CallDesc} (h : cd.Fits) (hw : cd'.words = cd.words) : cd'.Fits := by
  rw [Fits, hw]
  exact h

/-- **Nothing that becomes of a descriptor makes a string too long.** -/
theorem Fits.drift {cd cd' : CallDesc} (h : cd.Fits) (hd : Cntl.Drift cd cd') : cd'.Fits := by
  cases hd with
  | mute hm => exact h.congr hm.words
  | placed hm =>
    have hplaced : cd.placed.Fits := by
      refine { h with dstTelnoPtr := ?_ }
      have := h.dstTelno.cstr_length_lt
      have := h.dstTelnoPtr
      rw [placed, words]
      dsimp only [words] at *
      split
      · assumption
      · assumption
    exact hplaced.congr hm.words
  | flushed hm =>
    have hflushed : cd.flushed.Fits := { h with dstTelnoEarly := (by decide : 0 < telnoMax) }
    exact hflushed.congr hm.words
  | collected hm =>
    have hcollected : cd.collected.Fits := by
      refine { h with dstTelnoEarly := ?_ }
      exact lt_of_le_of_lt (List.length_take_le _ _) (by decide)
    exact hcollected.congr hm.words

theorem fits_ite {q : Prop} [Decidable q] {cd cd' : CallDesc} (h : cd.Fits) (h' : cd'.Fits) :
    (if q then cd else cd').Fits := by
  split
  · exact h
  · exact h'

/-! ## What is heard

A number from a message is written to the array from its start, but more digits of a called number go
behind those that are there.
-/

/-- A calling number and its subaddress. -/
theorem fits_decodeCallingpn {src : SrcTelno} (h : src.Fits) (b : Buf) : (decodeCallingpn b src).Fits := by
  rw [decodeCallingpn]
  split
  · exact ⟨getString_length_lt b 3 true (by decide), h.subaddr⟩
  · exact ⟨getString_length_lt b 4 true (by decide), h.subaddr⟩

/-- More digits of a called number are written as far as there is room. -/
theorem Fits.appendCalledpn {cd : CallDesc} (h : cd.Fits) (b : Buf) : (appendCalledpn b cd).Fits := by
  have hptr : cd.dstTelnoPtr < telnoMax := h.dstTelnoPtr
  have hroom : 0 < telnoMax - cd.dstTelnoPtr := Nat.sub_pos_of_lt hptr
  obtain ⟨chars, hw, hlen, hresult⟩ := getMulti1_written b 3 true hroom
  have htelno : Ended telnoMax (L3.appendCalledpn b cd).dstTelno := by
    rw [L3.appendCalledpn]
    dsimp only
    rw [hw]
    exact Ended.writeAt h.dstTelno (by omega)
  have hnew : (L3.appendCalledpn b cd).dstTelnoPtr < telnoMax := by
    rw [L3.appendCalledpn]
    dsimp only
    omega
  exact { h with dstTelno := htelno, dstTelnoPtr := hnew }

/-- Any element of a message. -/
theorem Fits.dss1DecodeQ931Cs0IeCd {cd : CallDesc} (h : cd.Fits) (env : Env) (ntMode : Bool) (b : Buf) :
    (dss1DecodeQ931Cs0IeCd env ntMode cd b).Fits := by
  have hsub : (getString b 3 subaddrMax true).length < subaddrMax :=
    getString_length_lt b 3 true (by decide)
  have hdisplay : Fits { cd with display := getString b 2 1 true } :=
    { h with
      display := Nat.lt_of_lt_of_le (getString_length_lt b 2 true Nat.one_pos)
        (by decide : 1 ≤ displayMax) }
  have hsrc1 : Fits { cd with receivedSrcTelno2 := true, src1 := decodeCallingpn b cd.src1 } :=
    { h with src1 := fits_decodeCallingpn h.src1 b }
  have hsrc0 : Fits { cd with receivedSrcTelno1 := true, src0 := decodeCallingpn b cd.src0 } :=
    { h with src0 := fits_decodeCallingpn h.src0 b }
  have hsub1 : Fits { cd with src1 := { cd.src1 with subaddr := getString b 3 subaddrMax true } } :=
    { h with src1 := ⟨h.src1.telno, hsub⟩ }
  have hsub0 : Fits { cd with src0 := { cd.src0 with subaddr := getString b 3 subaddrMax true } } :=
    { h with src0 := ⟨h.src0.telno, hsub⟩ }
  have hcalled : Fits { (if cd.dirIncoming then L3.appendCalledpn b cd else cd) with
      dstTelnoPart := getString b 3 telnoMax true } :=
    { fits_ite (q := cd.dirIncoming = true) (h.appendCalledpn b) h with
      dstTelnoPart := getString_length_lt b 3 true (by decide) }
  have hdst : Fits { cd with dstSubaddr := getString b 3 subaddrMax true } :=
    { h with dstSubaddr := hsub }
  have huser : Fits { cd with userUser := getString b 2 userUserMax false } :=
    { h with userUser := getString_length_lt b 2 false (by decide) }
  rw [L3.dss1DecodeQ931Cs0IeCd]
  dsimp only
  refine fits_ite (fits_ite (h.congr rfl) h) ?_
  refine fits_ite (fits_ite (h.congr rfl) h) ?_
  refine fits_ite (h.congr rfl) (fits_ite (h.congr rfl) ?_)
  refine fits_ite (fits_ite h (h.congr rfl)) ?_
  refine fits_ite (fits_ite (h.congr rfl) (fits_ite (h.congr rfl) h)) ?_
  refine fits_ite hdisplay (fits_ite (fits_ite h (h.congr rfl)) ?_)
  refine fits_ite (fits_ite h (fits_ite hsrc1 hsrc0)) ?_
  refine fits_ite (fits_ite h (fits_ite hsub1 hsub0)) (fits_ite hcalled ?_)
  exact fits_ite (fits_ite hdst h) (fits_ite huser h)

/-- All elements of a message. -/
theorem Fits.heard {cd : CallDesc} (h : cd.Fits) (env : Env) (ntMode : Bool) (event : Event)
    (elements : Buf) : (Cntl.heard env ntMode event elements cd).Fits := by
  rw [Cntl.heard]
  refine decodeIeLoop_ind (fun cd b h => h.dss1DecodeQ931Cs0IeCd env ntMode b) _ 0 0 _ _ ?_
  have h1 : (if event = .connect then { cd with idateTimeLen := 0 } else cd).Fits :=
    fits_ite (h.congr rfl) h
  generalize (if event = .connect then { cd with idateTimeLen := 0 } else cd) = c at h1 ⊢
  have h2 : (if event = .setup then { c with dstTelnoPtr := 0 } else c).Fits :=
    fits_ite { h1 with dstTelnoPtr := (by decide : 0 < telnoMax) } h1
  exact { h2 with dstTelnoPart := (by decide : 0 < telnoMax) }

/-! ## What is requested

An application gives strings in arrays of its own, which need not end in a zero; what is copied is cut to
the size of the array in the descriptor.
-/

theorem length_cstr_take_lt (str : List UInt8) {k room : Nat} (h : k < room) :
    (cstr (str.take k)).length < room := by
  have h1 := cstr_length_le (str.take k)
  have h2 := List.length_take_le k str
  omega

/-- Digits that were dialled. -/
theorem Fits.dialled {cd : CallDesc} (h : cd.Fits) (digits : List UInt8) :
    (Cntl.dialled digits cd).Fits := by
  have hpart : (cstr (digits.take (telnoMax - 1))).length < telnoMax :=
    length_cstr_take_lt digits (by decide)
  have h1 : Fits { cd with dstTelnoPart := cstr (digits.take (telnoMax - 1)) } :=
    { h with dstTelnoPart := hpart }
  have hmin : min cd.dstTelnoPtr (telnoMax - 1) ≤ telnoMax - 1 := Nat.min_le_right _ _
  have hlen := List.length_take_le (telnoMax - 1 - min cd.dstTelnoPtr (telnoMax - 1))
    (digits.take (telnoMax - 1))
  have hroom : telnoMax = 41 := rfl
  rw [Cntl.dialled]
  dsimp only
  refine fits_ite h1 ?_
  refine { h1 with dstTelno := ?_, dstTelnoPtr := ?_ }
  · exact Ended.writeAt h.dstTelno (by omega)
  · dsimp only [words]
    omega

/-- The numbers of a request of `/dev/i4b`. -/
theorem Fits.storeConnectReq {cd : CallDesc} (h : cd.Fits) (r : Cntl.ConnectReq) :
    (Cntl.storeConnectReq r cd).Fits := by
  have htelno : (Cntl.strlcpy r.dstTelno telnoMax).length < telnoMax := strlcpy_length_lt _ (by decide)
  exact
    { dstTelno := Ended.writeAt h.dstTelno (by omega)
      dstTelnoPtr := h.dstTelnoPtr
      dstTelnoPart := h.dstTelnoPart
      dstTelnoEarly := h.dstTelnoEarly
      dstSubaddr := strlcpy_length_lt _ (by decide)
      src0 := ⟨strlcpy_length_lt _ (by decide), strlcpy_length_lt _ (by decide)⟩
      src1 := h.src1
      keypad := strlcpy_length_lt _ (by decide)
      userUser := h.userUser
      display := (by decide : 0 < displayMax) }

theorem fits_capiGetSrcTelno {src : SrcTelno} (h : src.Fits) (bytes : List UInt8) :
    (Cntl.capiGetSrcTelno bytes src).Fits := by
  rw [Cntl.capiGetSrcTelno.eq_def]
  split
  · exact ⟨(by decide : 0 < telnoMax), h.subaddr⟩
  · split
    · exact ⟨(by decide : 0 < telnoMax), h.subaddr⟩
    · exact ⟨length_cstr_take_lt _ (by decide), h.subaddr⟩

/-- The numbers of a request of CAPI. -/
theorem Fits.storeCapiConnect {cd : CallDesc} (h : cd.Fits) (r : Cntl.CapiConnect) :
    (Cntl.storeCapiConnect r cd).Fits := by
  have hsub : ∀ bytes, (cstr (Cntl.capiGetTelno bytes (subaddrMax - 1))).length < subaddrMax :=
    fun bytes => length_cstr_take_lt _ (by decide)
  have htelno : (Cntl.capiGetTelno r.dstTelno (telnoMax - 1)).length < telnoMax :=
    lt_of_le_of_lt (List.length_take_le _ _) (by decide)
  exact
    { dstTelno := Ended.writeAt h.dstTelno (by omega)
      dstTelnoPtr := h.dstTelnoPtr
      dstTelnoPart := h.dstTelnoPart
      dstTelnoEarly := h.dstTelnoEarly
      dstSubaddr := hsub _
      src0 := ⟨(fits_capiGetSrcTelno h.src0 _).telno, hsub _⟩
      src1 := fits_capiGetSrcTelno h.src1 _
      keypad := strlcpy_length_lt _ (by decide)
      userUser := strlcpy_length_lt _ (by decide)
      display := strlcpy_length_lt _ (by decide) }

/-- Whatever an action writes fits. -/
theorem Fits.write {n : Nat} {env : Env} {ntMode : Bool} {a : Action n} {cd cd' : CallDesc}
    (h : cd.Fits) (hw : Cntl.Write env ntMode a cd cd') : cd'.Fits := by
  cases hw with
  | clear => exact fits_default.congr rfl
  | beginOutgoing => exact { h with dstTelnoPtr := (by decide : 0 < telnoMax) }
  | beginIncoming => exact { h with dstTelnoPtr := (by decide : 0 < telnoMax) }
  | hear => exact h.heard _ _ _ _
  | connectReq => exact h.storeConnectReq _
  | informationReq => exact h.dialled _
  | capiConnect => exact h.storeCapiConnect _
  | capiInfo => exact h.dialled _
  | deflect => exact { h with dstTelnoPart := length_cstr_take_lt _ (by decide) }

end CallDesc

/-- **The strings of every descriptor fit their arrays at any time.** -/
theorem Cntl.lasting_fits (env : Env) (n : Nat) : Cntl.Lasting env n CallDesc.Fits :=
  ⟨CallDesc.fits_default, fun _ _ hd h => h.drift hd, fun _ _ _ _ hw h => h.write hw⟩

end L3
end Isdn4bsd
