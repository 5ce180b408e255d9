import Isdn4bsd.L3.Controller
import Isdn4bsd.L3.Elements

/-!
# Layer 3: what a SETUP message says

The SETUP that one side sends is read back by the other: encoder and decoder share the identifiers
of the information elements and nothing else.  They are in two files, and lengths, octetts for the kind of a
number, and the coding of a channel are written in the one and taken apart in the other, without a
table in common.

* `Buf.Shows` : a window of a message that holds one element.
* `Decodes` : the loop over the elements, cut at any element.  A message is put together from pieces
  by `Decodes.append`, and each piece is read on its own.
* `setup_round_trip` : everything that is in the SETUP of a valid call descriptor is found again in
  a descriptor that is fresh.
* `display_found_iff` : except for the text for the display, which is never found.

## The argument

`Decodes bs a a'` says that the octetts `bs`, wherever they are in a message, turn `a` into `a'`.  It composes,
so each function of the encoder has a lemma `decodes_*`: what it writes is read into these fields, and
into no others.  `decodes_setup` puts them one behind the other, in the order in which the SETUP has them, and
the start of the message is read by itself (`readStart_header`).

## What is asked of a descriptor

`CallDesc.Valid` is what the writers of the descriptor see to: strings that fit, characters of a telephone
number, indicators that are both there or both not, and a second calling party only together with the first.
`CallDesc.Fresh` is the descriptor of the reader; that `n_allocate_cd` makes such a one is `fresh_setupCall`.

A channel is coded by the chip of the sender and decoded by that of the reader; `ChannelAgrees` is what the
two have to have in common, and `ihfc_channelAgrees` that the HFC chips do.

The text for the display is read into an array whose size is taken from its first element, `display[0]`,
instead of from the array.
-/

set_option autoImplicit false

namespace Isdn4bsd
namespace L3

/-! ## Windows

The decoder sees an element through a window on the message, and a byte beyond its end reads as zero.
-/

/-- The window holds these octetts, and is well within the range of 16 bits. -/
structure Buf.Shows (b : Buf) (el : List UInt8) : Prop where
  len : b.len = b.offset + el.length
  small : b.len < 2 ^ 15
  bytes : (b.start.drop b.offset).take el.length = el

namespace Buf.Shows

variable {b : Buf} {el : List UInt8}

theorem getValid_iff (h : b.Shows el) {k : Nat} (hk : k < 2 ^ 15) : b.getValid k ↔ k < el.length := by
  have hlen := h.len
  have hsmall := h.small
  rw [Buf.getValid, Nat.mod_eq_of_lt (by omega)]
  omega

theorem get1_eq (h : b.Shows el) {k : Nat} (hk : k < 2 ^ 15) : b.get1 k = (el.getD k 0).toNat := by
  have hlen := h.len
  have hsmall := h.small
  rw [Buf.get1]
  by_cases hlt : k < el.length
  · rw [if_pos ((h.getValid_iff hk).mpr hlt), Nat.mod_eq_of_lt (by omega)]
    conv_rhs => rw [← h.bytes]
    rw [List.getD_eq_getElem?_getD, List.getD_eq_getElem?_getD, List.getElem?_take, if_pos hlt,
      List.getElem?_drop, Nat.add_comm k]
  · rw [if_neg (mt (h.getValid_iff hk).mp hlt), List.getD_eq_getElem?_getD,
      List.getElem?_eq_none (by omega)]
    rfl

theorem getBytes_eq (h : b.Shows el) {k offset : Nat} (hk : offset + k < 2 ^ 15) :
    b.getBytes k offset = (el.drop offset).take k := by
  induction k generalizing offset with
  | zero => rw [Buf.getBytes, List.take_zero]
  | succ k ih =>
    rw [Buf.getBytes]
    by_cases hlt : offset < el.length
    · rw [if_pos ((h.getValid_iff (by omega)).mpr hlt), Nat.mod_eq_of_lt (by omega),
        ih (by omega), h.get1_eq (by omega), List.drop_eq_getElem_cons hlt, List.take_succ_cons,
        List.getD_eq_getElem?_getD, List.getElem?_eq_getElem hlt, Option.getD_some,
        UInt8.ofNat_toNat]
    · rw [if_neg (mt (h.getValid_iff (by omega)).mp hlt), List.drop_of_length_le (by omega),
        List.take_nil]

end Buf.Shows

theorem shows_drop {mem : List UInt8} {offset : Nat} (hoff : offset ≤ mem.length)
    (hlen : mem.length < 2 ^ 15) : (⟨mem, offset, mem.length⟩ : Buf).Shows (mem.drop offset) := by
  refine ⟨?_, hlen, List.take_length⟩
  rw [List.length_drop]
  simp only
  omega

/-! ## Strings

A number is an element with one or two octetts in front of the digits; the highest bit of the first one
says how many.
-/

/-- The characters of a telephone number, and no more of them than there is room for. -/
structure Digits (room : Nat) (str : Str) : Prop where
  digits : ∀ c ∈ str, isDigit c = true
  length_lt : str.length < room

theorem isDigit_ne_zero {c : UInt8} (h : isDigit c = true) : c ≠ 0 := by
  rintro rfl
  exact absurd h (by decide)

theorem cstr_append_zero {str : Str} (h : ∀ c ∈ str, isDigit c = true) : cstr (str ++ [0]) = str := by
  rw [cstr, List.takeWhile_append_of_pos (fun c hc => by simpa using isDigit_ne_zero (h c hc))]
  exact List.append_nil _

theorem filterString_digits {str : Str} (h : ∀ c ∈ str, isDigit c = true) :
    filterString str = str := by
  induction str with
  | nil => rfl
  | cons c str ih =>
    have hc := h c (by simp)
    rw [filterString, if_neg (isDigit_ne_zero hc), if_pos hc, ih (fun d hd => h d (by simp [hd]))]

/-- **A string is read back**, through the filter or not. -/
theorem getMulti1_eq {b : Buf} {lead : List UInt8} {str : Str} {room : Nat}
    (h : b.Shows (lead ++ str)) (hstr : Digits room str) (hroom : lead.length + room < 2 ^ 15)
    (filter : Bool) : getMulti1 b lead.length room filter = (str ++ [0], str.length) := by
  have hlt := hstr.length_lt
  have hbytes : b.getBytes (room - 1) lead.length = str := by
    rw [h.getBytes_eq (by omega), List.drop_left, List.take_of_length_le (by omega)]
  rw [getMulti1, if_neg (by omega), hbytes]
  simp only [filterString_digits hstr.digits, cstr_append_zero hstr.digits, ite_self]

theorem getString_eq {b : Buf} {lead : List UInt8} {str : Str} {room : Nat}
    (h : b.Shows (lead ++ str)) (hstr : Digits room str) (hroom : lead.length + room < 2 ^ 15)
    (filter : Bool) : getString b lead.length room filter = str := by
  rw [getString, getMulti1_eq h hstr hroom, cstr_append_zero hstr.digits]

/-! ## The loop over the elements

The loop cuts out the elements one after the other, and shows each one to the function for its identifier.
-/

/-- A single octett, or an identifier, a length and that many octetts; and no shift to another
codeset. -/
inductive IsElement : List UInt8 → Prop where
  | single (t : UInt8) (h : t.toNat &&& 0x80 ≠ 0) (hshift : t.toNat &&& 0xf0 ≠ 0x90) :
      IsElement [t]
  | multi (t : UInt8) (content : List UInt8) (h : t.toNat &&& 0x80 = 0)
      (hlen : content.length < 256) : IsElement (element t content)

/-- An element at the start of what is left is cut out, and leaves the codeset as it is. -/
theorem IsElement.cut {bs mem rest : List UInt8} {offset : Nat} (hel : IsElement bs)
    (hmem : mem.drop offset = bs ++ rest) (hoff : offset ≤ mem.length) (hlen : mem.length < 2 ^ 15) :
    (⟨mem, offset, mem.length⟩ : Buf).getValid 0 ∧
      (⟨mem, offset, mem.length⟩ : Buf).element = ⟨mem, offset, offset + bs.length⟩ ∧
      (⟨mem, offset, offset + bs.length⟩ : Buf).Shows bs ∧
      shiftCodeset ((⟨mem, offset, mem.length⟩ : Buf).get1 0) 0 0 = (0, 0) := by
  have hcount := congrArg List.length hmem
  rw [List.length_drop, List.length_append] at hcount
  have hpos : 0 < bs.length := by cases hel <;> exact Nat.succ_pos _
  -- the window before it is cut
  have hall : (⟨mem, offset, mem.length⟩ : Buf).Shows (bs ++ rest) := hmem ▸ shows_drop hoff hlen
  have hvalid : (⟨mem, offset, mem.length⟩ : Buf).getValid 0 :=
    (hall.getValid_iff (by decide)).mpr (by rw [List.length_append]; omega)
  have hzero := hall.get1_eq (k := 0) (by decide)
  have hone := hall.get1_eq (k := 1) (by decide)
  have hcut : ∀ n, n = bs.length →
      (⟨mem, offset, mem.length⟩ : Buf).setLength ((offset + n) % 2 ^ 16)
        = ⟨mem, offset, offset + bs.length⟩ := by
    rintro n rfl
    rw [Buf.setLength, Nat.mod_eq_of_lt (by omega)]
    split
    next => rfl
    next hge =>
      simp only at hge
      rw [show mem.length = offset + bs.length by omega]
  have hshows : (⟨mem, offset, offset + bs.length⟩ : Buf).Shows bs := by
    refine ⟨rfl, by simp only; omega, ?_⟩
    rw [hmem, List.take_left]
  rw [Buf.element, shiftCodeset, hzero, hone]
  cases hel with
  | single t hbit hshift =>
    simp only [List.cons_append, List.getD_cons_zero, if_neg hbit, if_neg hshift]
    exact ⟨hvalid, hcut 1 rfl, hshows, trivial⟩
  | multi t content hbit hcontent =>
    have hshift : ¬ t.toNat &&& 0xf0 = 0x90 := by
      intro h90
      have hand : t.toNat &&& 0x80 = (t.toNat &&& 0xf0) &&& 0x80 := by
        rw [Nat.and_assoc]
        rfl
      rw [h90] at hand
      exact absurd (hbit.symm.trans hand) (by decide)
    have hlength : (UInt8.ofNat content.length).toNat + 2 = (L3.element t content).length := by
      rw [UInt8.toNat_ofNat', Nat.mod_eq_of_lt hcontent]
      rfl
    simp only [L3.element, putElement, List.cons_append, List.getD_cons_zero, List.getD_cons_succ, if_pos hbit,
      if_neg hshift]
    exact ⟨hvalid, hcut _ hlength, hshows, trivial⟩

/-- The octetts `bs`, wherever they are in a message, turn `a` into `a'`. -/
def Decodes {α : Type} (f : α → Buf → α) (bs : List UInt8) (a a' : α) : Prop :=
  ∀ (mem rest : List UInt8) (offset fuel : Nat), mem.drop offset = bs ++ rest → offset ≤ mem.length →
    mem.length < 2 ^ 15 → bs.length + rest.length ≤ fuel →
    ∃ fuel', rest.length ≤ fuel' ∧
      decodeIeLoop f fuel 0 0 a ⟨mem, offset, mem.length⟩
        = decodeIeLoop f fuel' 0 0 a' ⟨mem, offset + bs.length, mem.length⟩

namespace Decodes

variable {α : Type} {f : α → Buf → α} {a a' a'' : α} {bs bs' : List UInt8}

theorem nil : Decodes f [] a a := fun mem rest offset fuel _ _ _ hfuel =>
  ⟨fuel, by simpa using hfuel, rfl⟩

theorem append (h : Decodes f bs a a') (h' : Decodes f bs' a' a'') :
    Decodes f (bs ++ bs') a a'' := by
  intro mem rest offset fuel hmem hoff hlen hfuel
  rw [List.append_assoc] at hmem
  rw [List.length_append] at hfuel
  obtain ⟨fuel', hfuel', heq⟩ := h mem (bs' ++ rest) offset fuel hmem hoff hlen
    (by rw [List.length_append]; omega)
  have hdrop : mem.drop (offset + bs.length) = bs' ++ rest := by
    rw [← List.drop_drop, hmem, List.drop_left]
  have hcount := congrArg List.length hmem
  rw [List.length_drop, List.length_append] at hcount
  obtain ⟨fuel'', hfuel'', heq'⟩ := h' mem rest (offset + bs.length) fuel' hdrop (by omega) hlen
    (by rwa [List.length_append] at hfuel')
  refine ⟨fuel'', hfuel'', ?_⟩
  rw [heq, heq', List.length_append, Nat.add_assoc]

/-- **One element**: it is cut out and shown to the function. -/
theorem element (hel : IsElement bs) (hf : ∀ b : Buf, b.Shows bs → f a b = a') :
    Decodes f bs a a' := by
  intro mem rest offset fuel hmem hoff hlen hfuel
  obtain ⟨hvalid, hcut, hshows, hshift⟩ := hel.cut hmem hoff hlen
  have hpos : 0 < bs.length := by cases hel <;> exact Nat.succ_pos _
  obtain ⟨k, rfl⟩ := Nat.exists_eq_add_of_le' (show 1 ≤ fuel by omega)
  refine ⟨k, by omega, ?_⟩
  rw [decodeIeLoop_of_valid hvalid, hshift, hcut, dispatch, if_pos rfl, hf _ hshows]

/-- All of the elements. -/
theorem dss1DecodeIe_eq (h : Decodes f bs a a') {mem : List UInt8} {offset : Nat}
    (hmem : mem.drop offset = bs) (hoff : offset ≤ mem.length) (hlen : mem.length < 2 ^ 15) :
    dss1DecodeIe f a ⟨mem, offset, mem.length⟩ = a' := by
  have hcount := congrArg List.length hmem
  rw [List.length_drop] at hcount
  obtain ⟨fuel, -, heq⟩ := h mem [] offset mem.length (by rw [List.append_nil, hmem]) hoff hlen
    (by rw [List.length_nil]; omega)
  rw [dss1DecodeIe, heq]
  cases fuel with
  | zero => rfl
  | succ fuel =>
    rw [decodeIeLoop, if_neg]
    intro hvalid
    have := hvalid.2
    simp only at this
    rw [Nat.mod_eq_of_lt (by omega)] at this
    omega

end Decodes

/-! ## The elements of a SETUP

For each element that is written, what is read from it; the elements are independent of each other.
-/

/-- An element for a string; without the string there is no element. -/
theorem Decodes.stringElement {α : Type} {f : α → Buf → α} {a a' : α} {iei : UInt8}
    {more : Nat} {lead : List UInt8} {str : Str} (hmore : more = lead.length)
    (hbit : iei.toNat &&& 0x80 = 0) (hlen : lead.length + str.length < 256) (hnil : str = [] → a = a')
    (hf : str ≠ [] → ∀ (b : Buf) (len : UInt8), b.Shows (iei :: len :: lead ++ str) → f a b = a') :
    Decodes f (stringElement iei more lead str) a a' := by
  rw [hmore, stringElement_eq]
  split
  next hstr =>
    rw [hnil hstr]
    exact .nil
  next hstr =>
    exact .element (.multi iei _ hbit (by rw [List.length_append]; omega)) fun b h => hf hstr b _ h

/-- What a call descriptor promises about a calling party.  The indicators are both there or both
not. -/
structure SrcTelno.Valid (src : SrcTelno) : Prop where
  telno : Digits telnoMax src.telno
  subaddr : Digits subaddrMax src.subaddr
  /-- One of the constants `TON_OTHER`, `TON_INTERNAT` and `TON_NATIONAL`. -/
  ton : src.ton ≤ tonNational
  indicators : (src.prsInd = prsNone ∧ src.scrInd = scrNone) ∨
    ((src.prsInd = prsAllowed ∨ src.prsInd = prsRestrict) ∧ scrUsrNosc ≤ src.scrInd ∧
      src.scrInd ≤ scrNet)

theorem decodeTon_numberType {ton : Nat} (h : ton ≤ tonNational) :
    decodeTon (numberType ton).toNat = ton ∧ decodeTon (numberType ton &&& 0x7f).toNat = ton ∧
      (numberType ton).toNat &&& 0x80 ≠ 0 ∧ (numberType ton &&& 0x7f).toNat &&& 0x80 = 0 := by
  have hall : ∀ t < 3, decodeTon (numberType t).toNat = t ∧
      decodeTon (numberType t &&& 0x7f).toNat = t ∧ (numberType t).toNat &&& 0x80 ≠ 0 ∧
      (numberType t &&& 0x7f).toNat &&& 0x80 = 0 := by decide
  exact hall ton (Nat.lt_succ_of_le h)

theorem decode_screening {src : SrcTelno}
    (h : (src.prsInd = prsAllowed ∨ src.prsInd = prsRestrict) ∧ scrUsrNosc ≤ src.scrInd ∧
      src.scrInd ≤ scrNet) :
    ((screening src).toNat &&& 0x03) + scrUsrNosc = src.scrInd ∧
      (((screening src).toNat >>> 5) &&& 0x03) + prsAllowed = src.prsInd := by
  obtain ⟨hprs, hlo, hhi⟩ := h
  have hall : ∀ scr < 5, ∀ prs < 3, 1 ≤ scr → 1 ≤ prs →
      ((screening { scrInd := scr, prsInd := prs }).toNat &&& 0x03) + scrUsrNosc = scr ∧
        (((screening { scrInd := scr, prsInd := prs }).toNat >>> 5) &&& 0x03) + prsAllowed
          = prs := by
    decide
  have hprs' : src.prsInd < 3 ∧ 1 ≤ src.prsInd := by
    rcases hprs with hp | hp <;> rw [hp] <;> decide
  exact hall src.scrInd (Nat.lt_succ_of_le hhi) src.prsInd hprs'.1 hlo hprs'.2

/-- What is heard of a calling number. -/
def SrcTelno.hear (src old : SrcTelno) : SrcTelno :=
  { src with subaddr := old.subaddr }

/-- **A calling party number is read back**, with its type and its indicators. -/
theorem decodeCallingpn_eq {src old : SrcTelno} (hsrc : src.Valid) {b : Buf} {iei len : UInt8}
    (h : b.Shows (iei :: len :: callingLead src ++ src.telno)) :
    decodeCallingpn b old = src.hear old := by
  obtain ⟨hton, hton', hext, hext'⟩ := decodeTon_numberType hsrc.ton
  rcases hsrc.indicators with ⟨hprs, hscr⟩ | hind
  · rw [callingLead, if_neg (by simp [hprs, hscr])] at h
    have h2 : b.get1 2 = (numberType src.ton).toNat := h.get1_eq (by decide)
    have hstr : getString b 3 telnoMax true = src.telno :=
      @getString_eq b [iei, len, numberType src.ton] src.telno telnoMax h hsrc.telno
        (show 3 + 41 < 2 ^ 15 by decide) true
    rw [decodeCallingpn, h2]
    simp only [if_pos hext, hton, hstr]
    rw [SrcTelno.hear, ← hprs, ← hscr]
  · have hsome : src.prsInd ≠ prsNone ∨ src.scrInd ≠ scrNone := by
      left
      rcases hind.1 with hp | hp <;> rw [hp] <;> decide
    rw [callingLead, if_pos hsome] at h
    obtain ⟨hscr, hprs⟩ := decode_screening hind
    have h2 : b.get1 2 = (numberType src.ton &&& 0x7f).toNat := h.get1_eq (by decide)
    have h3 : b.get1 3 = (screening src).toNat := h.get1_eq (by decide)
    have hstr : getString b 4 telnoMax true = src.telno :=
      @getString_eq b [iei, len, numberType src.ton &&& 0x7f, screening src] src.telno telnoMax h
        hsrc.telno (show 4 + 41 < 2 ^ 15 by decide) true
    rw [decodeCallingpn, h2, h3]
    simp only [hext', ne_eq, not_true_eq_false, if_false, hton', hstr, hscr, hprs]
    rfl

section Elements

variable {env env' : Env} {ntMode : Bool} {cd : CallDesc}

theorem decodes_sendcompl (hdir : cd.dirIncoming = true) :
    Decodes (dss1DecodeQ931Cs0IeCd env ntMode) [ieiSendcompl] cd
      { cd with sendingComplete := true } := by
  refine .element (.single _ (by decide) (by decide)) fun b h => ?_
  have h0 : b.get1 0 = 0xa1 := h.get1_eq (by decide)
  simp [dss1DecodeQ931Cs0IeCd, h0, ieiSendcompl, hdir]

/-- The bearer capability: the protocol, and the coding of speech if it is one of the two. -/
theorem decodes_bearer (bprot bsubprot : Nat) :
    ∃ x y, (∀ cd : CallDesc, cd.dirIncoming = true →
        Decodes (dss1DecodeQ931Cs0IeCd env ntMode) (bearer bprot bsubprot) cd
          { cd with channelBprot := x, channelBsubprot := y }) ∧
      (bprot = bprotNone ∨ bprot = bprotNone31Khz →
        bsubprot = bsubprotG711Alaw ∨ bsubprot = bsubprotG711Ulaw →
          x = bprot ∧ y = bsubprot) ∧
      (bprot = bprotRhdlc → x = bprotRhdlc) := by
  have hread : ∀ (content : List UInt8), content.length < 256 → ∀ cd : CallDesc,
      cd.dirIncoming = true →
      Decodes (dss1DecodeQ931Cs0IeCd env ntMode) (element ieiBearercap content) cd
        { cd with
          channelBprot := decodeBprot (content.getD 0 0).toNat
          channelBsubprot := decodeBsubprot (content.getD 2 0).toNat } := by
    intro content hlen cd hdir
    refine .element (.multi _ _ (by decide) hlen) fun b h => ?_
    have h0 : b.get1 0 = 0x04 := h.get1_eq (by decide)
    have h2 : b.get1 2 = (content.getD 0 0).toNat := h.get1_eq (by decide)
    have h4 : b.get1 4 = (content.getD 2 0).toNat := h.get1_eq (by decide)
    simp [dss1DecodeQ931Cs0IeCd, h0, h2, h4, ieiBearercap, hdir]
  have hlaw : bsubprot = bsubprotG711Alaw ∨ bsubprot = bsubprotG711Ulaw →
      decodeBsubprot (bearerLayer1 bsubprot).toNat = bsubprot := by
    rintro (rfl | rfl)
    · decide
    · decide
  rw [bearer_eq]
  split
  next h31 =>
    refine ⟨_, _, hread _ (by simp), fun _ hsub => ⟨?_, hlaw hsub⟩, fun hr => ?_⟩
    · rw [h31]
      rfl
    · exact absurd (h31.symm.trans hr) (by decide)
  next h31 =>
    split
    next hspeech =>
      refine ⟨_, _, hread _ (by simp), fun hnone hsub => ⟨?_, hlaw hsub⟩, fun hr => ?_⟩
      · rw [hnone.resolve_right h31]
        rfl
      · rcases hspeech with hs | hs
        · exact absurd (hs.symm.trans hr) (by decide)
        · exact absurd (hs.symm.trans hr) (by decide)
    next hspeech =>
      refine ⟨_, _, hread _ (by simp), fun hnone => ?_, fun _ => by decide⟩
      exact absurd (hnone.resolve_right h31) (fun hn => hspeech (.inl hn))

/-- The chips at both ends agree about a channel.  On a basic rate interface there are the
D-channel and two B-channels; on a primary rate interface the command of the one chip undoes that of
the other, and the channel fits the seven bits there are for it. -/
structure ChannelAgrees (env env' : Env) (primaryRate : Bool) (channelId : Int) : Prop where
  range : chanNotAny ≤ channelId
  basic : primaryRate = false → channelId ≤ chanB2
  primary : primaryRate = true → chanB1 ≤ channelId →
    0 ≤ env.encodeChannel channelId ∧ env.encodeChannel channelId < 128 ∧
      env'.decodeChannel (env.encodeChannel channelId) = channelId

theorem ofInt_or_and {x : Int} (h0 : 0 ≤ x) (h : x < 128) :
    (((UInt8.ofInt x ||| 0x80).toNat &&& (0x7f : Nat) : Nat) : Int) = x := by
  obtain ⟨k, rfl⟩ := Int.eq_ofNat_of_zero_le h0
  have hall : ∀ k : Nat, k < 128 → (UInt8.ofInt (k : Int) ||| 0x80).toNat &&& (0x7f : Nat) = k := by
    decide
  exact_mod_cast hall k (by omega)

/-- The octetts that name a channel by its time slot. -/
theorem decodeChannelId_slot {b : Buf} {iei len : UInt8} {channelId old : Int}
    (h : ChannelAgrees env env' true channelId) (hb1 : chanB1 ≤ channelId)
    (hb : b.Shows [iei, len, ((channelOctet channelId ||| 0x20) &&& 0xfc) ||| 0x01, 0x80 ||| 0x03,
      UInt8.ofInt (env.encodeChannel channelId) ||| 0x80]) :
    decodeChannelId env' ntMode b old = channelId := by
  obtain ⟨h0, h128, hdecode⟩ := h.primary rfl hb1
  have hpos : (1 : Int) ≤ channelId := hb1
  have hoctet : ((channelOctet channelId ||| 0x20) &&& 0xfc) ||| 0x01 = 0xa9 := by
    have hcases : channelId = 1 ∨ channelId = 2 ∨ 2 < channelId := by omega
    rcases hcases with rfl | rfl | hgt
    · decide
    · decide
    · rw [channelOctet, if_neg, if_neg, if_neg, if_neg]
      · decide
      all_goals
        simp only [chanNotAny, chanD1, chanB1, chanB2]
        omega
  rw [hoctet] at hb
  have h2 : b.get1 2 = 0xa9 := hb.get1_eq (by decide)
  have h3 : b.get1 3 = 0x83 := hb.get1_eq (by decide)
  have h4 : b.get1 4 = (UInt8.ofInt (env.encodeChannel channelId) ||| 0x80).toNat :=
    hb.get1_eq (by decide)
  have hslot : env'.decodeChannel ((b.get1 4 &&& 0x7f : Nat) : Int) = channelId := by
    rw [h4, ofInt_or_and h0 h128, hdecode]
  simp only [decodeChannelId, h2]
  simpa [h3] using hslot

/-- **The channel identification is read back.** -/
theorem decodes_channelid {primaryRate : Bool} {channelId : Int}
    (h : ChannelAgrees env env' primaryRate channelId) (hfree : cd.channelAllocated = false) :
    Decodes (dss1DecodeQ931Cs0IeCd env' ntMode) (ieiChannelid env primaryRate channelId) cd
      { cd with channelId := channelId } := by
  have hrange : (-2 : Int) ≤ channelId := h.range
  have hread : ∀ (content : List UInt8), content.length < 256 →
      (∀ (b : Buf) (len : UInt8), b.Shows (ieiChannelId :: len :: content) →
        decodeChannelId env' ntMode b cd.channelId = channelId) →
      Decodes (dss1DecodeQ931Cs0IeCd env' ntMode) (element ieiChannelId content) cd
        { cd with channelId := channelId } := by
    intro content hlen hdecode
    refine .element (.multi _ _ (by decide) hlen) fun b hb => ?_
    have h0 : b.get1 0 = 0x18 := hb.get1_eq (by decide)
    rw [← hdecode b _ hb]
    simp [dss1DecodeQ931Cs0IeCd, h0, ieiBearercap, ieiCause, ieiCallstate, ieiChannelId, hfree]
  rw [ieiChannelid]
  cases primaryRate with
  | false =>
    have hle : channelId ≤ 2 := h.basic rfl
    have hcases : channelId = -2 ∨ channelId = -1 ∨ channelId = 0 ∨ channelId = 1 ∨
        channelId = 2 := by omega
    refine hread _ (by simp) fun b len hb => ?_
    have h2 : b.get1 2 = (channelOctet channelId).toNat := hb.get1_eq (by decide)
    rcases hcases with rfl | rfl | rfl | rfl | rfl <;>
      simp [decodeChannelId, h2, channelOctet, chanNotAny, chanD1, chanB1, chanB2, chanAny]
  | true =>
    rw [if_pos rfl]
    split
    next hb1 => exact hread _ (by simp) fun b len hb => decodeChannelId_slot h hb1 hb
    next hb1 =>
      have hcases : channelId = -2 ∨ channelId = -1 ∨ channelId = 0 := by
        simp only [chanB1] at hb1
        omega
      refine hread _ (by simp) fun b len hb => ?_
      have h2 : b.get1 2 = (channelOctet channelId ||| 0x20).toNat := hb.get1_eq (by decide)
      rcases hcases with rfl | rfl | rfl <;>
        simp [decodeChannelId, h2, channelOctet, chanNotAny, chanD1, chanB1, chanB2, chanAny]

/-- The keypad is not read. -/
theorem decodes_keypad {str : Str} (hlen : str.length < keypadMax) :
    Decodes (dss1DecodeQ931Cs0IeCd env ntMode) (stringElement ieiKeypad 0 [] str) cd cd := by
  have hroom : keypadMax = 35 := rfl
  refine .stringElement rfl (by decide) (by rw [List.length_nil]; omega) (fun _ => rfl) ?_
  intro _ b len h
  have h0 : b.get1 0 = 0x2c := h.get1_eq (by decide)
  rw [dss1DecodeQ931Cs0IeCd]
  simp only [h0]
  rfl

/-- The display is read into an array of one octett. -/
theorem decodes_display {str : Str} (hlen : str.length < displayMax) :
    Decodes (dss1DecodeQ931Cs0IeCd env ntMode) (stringElement ieiDisplay 0 [] str) cd
      { cd with display := if str = [] then cd.display else [] } := by
  have hroom : displayMax = 91 := rfl
  refine .stringElement rfl (by decide) (by rw [List.length_nil]; omega) (fun hnil => ?_) ?_
  · rw [if_pos hnil]
  · intro hne b len h
    have h0 : b.get1 0 = 0x28 := h.get1_eq (by decide)
    rw [dss1DecodeQ931Cs0IeCd, if_neg hne]
    simp only [h0]
    rfl

theorem decodes_dstSubaddr {str : Str} (hstr : Digits subaddrMax str)
    (hdir : cd.dirIncoming = true) (hold : cd.dstSubaddr = []) :
    Decodes (dss1DecodeQ931Cs0IeCd env ntMode) (stringElement ieiCalledps numberTypeLen [numberTypeNsap] str)
      cd { cd with dstSubaddr := str } := by
  have hroom : subaddrMax = 21 := rfl
  have hlen := hstr.length_lt
  refine .stringElement rfl (by decide) (by rw [List.length_singleton]; omega) ?_ ?_
  · rintro rfl
    rw [← hold]
  · intro _ b len h
    have h0 : b.get1 0 = 0x71 := h.get1_eq (by decide)
    have hget : getString b 3 subaddrMax true = str :=
      @getString_eq b [ieiCalledps, len, numberTypeNsap] str subaddrMax h hstr
        (show 3 + 21 < 2 ^ 15 by decide) true
    rw [dss1DecodeQ931Cs0IeCd]
    simp only [h0, hdir, hget]
    rfl

theorem decodes_userUser {str : Str} (hstr : Digits userUserMax str) (hold : cd.userUser = []) :
    Decodes (dss1DecodeQ931Cs0IeCd env ntMode) (stringElement ieiUseruser ieiUseruserLen [] str) cd
      { cd with userUser := str } := by
  have hroom : userUserMax = 129 := rfl
  have hlen := hstr.length_lt
  refine .stringElement rfl (by decide) (by rw [List.length_nil]; omega) ?_ ?_
  · rintro rfl
    rw [← hold]
  · intro _ b len h
    have h0 : b.get1 0 = 0x7e := h.get1_eq (by decide)
    have hget : getString b 2 userUserMax false = str :=
      @getString_eq b [ieiUseruser, len] str userUserMax h hstr
        (show 2 + 129 < 2 ^ 15 by decide) false
    rw [dss1DecodeQ931Cs0IeCd]
    simp only [h0, hget]
    rfl

/-- The memory of a number after it was written to the start of it. -/
def heardTelno (str : Str) (mem : List UInt8) : List UInt8 :=
  if str = [] then mem else writeAt mem 0 (str ++ [0])

theorem cstr_heardTelno {str : Str} (hstr : ∀ c ∈ str, isDigit c = true) {mem : List UInt8}
    (hmem : cstr mem = []) : cstr (heardTelno str mem) = str := by
  rw [heardTelno]
  split
  next hnil => rw [hmem, hnil]
  next hne =>
    rw [writeAt, List.take_zero, List.nil_append, List.append_assoc, cstr,
      List.takeWhile_append_of_pos (fun c hc => by simpa using isDigit_ne_zero (hstr c hc))]
    exact List.append_nil _

/-- The called number goes to the start of the memory there is for it. -/
theorem decodes_calledpn {str : Str} (hstr : Digits telnoMax str) (hdir : cd.dirIncoming = true)
    (hptr : cd.dstTelnoPtr = 0) :
    Decodes (dss1DecodeQ931Cs0IeCd env ntMode) (stringElement ieiCalledpn numberTypeLen [numberTypePlan] str)
      cd { cd with
        dstTon := if str = [] then cd.dstTon else decodeTon numberTypePlan.toNat
        dstTelno := heardTelno str cd.dstTelno
        dstTelnoPtr := str.length
        dstTelnoPart := if str = [] then cd.dstTelnoPart else str } := by
  have hroom : telnoMax = 41 := rfl
  have hlen := hstr.length_lt
  refine .stringElement rfl (by decide) (by rw [List.length_singleton]; omega) (fun hnil => ?_) ?_
  · rw [heardTelno, if_pos hnil, if_pos hnil, if_pos hnil, hnil, List.length_nil, ← hptr]
  · intro hne b len h
    have h0 : b.get1 0 = 0x70 := h.get1_eq (by decide)
    have h2 : b.get1 2 = numberTypePlan.toNat := h.get1_eq (by decide)
    have hmulti : getMulti1 b 3 telnoMax true = (str ++ [0], str.length) :=
      @getMulti1_eq b [ieiCalledpn, len, numberTypePlan] str telnoMax h hstr
        (show 3 + 41 < 2 ^ 15 by decide) true
    have hget : getString b 3 telnoMax true = str := by
      rw [getString, hmulti, cstr_append_zero hstr.digits]
    rw [dss1DecodeQ931Cs0IeCd, heardTelno, if_neg hne, if_neg hne, if_neg hne]
    simp only [h0, hdir, hget, appendCalledpn, hptr, h2, Nat.sub_zero, hmulti, Nat.zero_add]
    rfl

theorem length_callingLead_le (src : SrcTelno) : (callingLead src).length ≤ 2 := by
  rw [callingLead]
  split
  · exact le_refl _
  · exact Nat.le_succ 1

theorem callingNumber_length {src : SrcTelno} (hsrc : src.Valid) :
    (callingLead src).length + src.telno.length < 256 := by
  have hroom : telnoMax = 41 := rfl
  have hlen := hsrc.telno.length_lt
  have hlead := length_callingLead_le src
  omega

/-- The number of the first calling party, and its subaddress. -/
theorem decodes_src0 {src : SrcTelno} (hsrc : src.Valid) (hdir : cd.dirIncoming = true)
    (hfirst : cd.receivedSrcTelno1 = false) (hsecond : cd.receivedSrcTelno2 = false)
    (hold : cd.src0.subaddr = []) :
    Decodes (dss1DecodeQ931Cs0IeCd env ntMode) (callingParty src) cd
      { cd with
        receivedSrcTelno1 := decide (src.telno ≠ [])
        src0 := if src.telno = [] then { cd.src0 with subaddr := src.subaddr } else src } := by
  have hsub : subaddrMax = 21 := rfl
  have hlen := hsrc.subaddr.length_lt
  have hnumber : Decodes (dss1DecodeQ931Cs0IeCd env ntMode) (callingNumber src) cd
      { cd with
        receivedSrcTelno1 := decide (src.telno ≠ [])
        src0 := if src.telno = [] then cd.src0 else src.hear cd.src0 } := by
    rw [callingNumber_eq]
    refine .stringElement rfl (by decide) (callingNumber_length hsrc) (fun hnil => ?_) ?_
    · rw [if_pos hnil, decide_eq_false (fun hne => hne hnil), ← hfirst]
    · intro hne b len h
      have h0 : b.get1 0 = 0x6c := h.get1_eq (by decide)
      rw [dss1DecodeQ931Cs0IeCd, if_neg hne, decide_eq_true hne, ← decodeCallingpn_eq hsrc h]
      simp only [h0, hdir, hfirst]
      rfl
  refine hnumber.append (.stringElement rfl (by decide) (by rw [List.length_singleton]; omega)
    (fun hnil => ?_) ?_)
  · congr 1
    split
    · rw [hnil, ← hold]
    · rw [SrcTelno.hear, hold, ← hnil]
  · intro _ b len h
    have h0 : b.get1 0 = 0x6d := h.get1_eq (by decide)
    have hget : getString b 3 subaddrMax true = src.subaddr :=
      @getString_eq b [ieiCallingps, len, numberTypeNsap] src.subaddr subaddrMax h hsrc.subaddr
        (show 3 + 21 < 2 ^ 15 by decide) true
    rw [dss1DecodeQ931Cs0IeCd]
    simp only [h0, hdir, hsecond, hget]
    by_cases hnil : src.telno = []
    · rw [if_pos hnil, if_pos hnil]
      rfl
    · rw [if_neg hnil, if_neg hnil]
      rfl

/-- Those of the second, which has a number if it is there at all. -/
theorem decodes_src1 {src : SrcTelno} (hsrc : src.Valid) (hdir : cd.dirIncoming = true)
    (hfirst : src.telno ≠ [] → cd.receivedSrcTelno1 = true)
    (hsecond : cd.receivedSrcTelno2 = false) (hold : cd.src1.subaddr = [])
    (huse : src.subaddr ≠ [] → src.telno ≠ []) :
    Decodes (dss1DecodeQ931Cs0IeCd env ntMode) (callingParty src) cd
      { cd with
        receivedSrcTelno2 := decide (src.telno ≠ [])
        src1 := if src.telno = [] then cd.src1 else src } := by
  have hsub : subaddrMax = 21 := rfl
  have hlen := hsrc.subaddr.length_lt
  have hnumber : Decodes (dss1DecodeQ931Cs0IeCd env ntMode) (callingNumber src) cd
      { cd with
        receivedSrcTelno2 := decide (src.telno ≠ [])
        src1 := if src.telno = [] then cd.src1 else src.hear cd.src1 } := by
    rw [callingNumber_eq]
    refine .stringElement rfl (by decide) (callingNumber_length hsrc) (fun hnil => ?_) ?_
    · rw [if_pos hnil, decide_eq_false (fun hne => hne hnil), ← hsecond]
    · intro hne b len h
      have h0 : b.get1 0 = 0x6c := h.get1_eq (by decide)
      rw [dss1DecodeQ931Cs0IeCd, if_neg hne, decide_eq_true hne, ← decodeCallingpn_eq hsrc h]
      simp only [h0, hdir, hfirst hne]
      rfl
  refine hnumber.append (.stringElement rfl (by decide) (by rw [List.length_singleton]; omega)
    (fun hnil => ?_) ?_)
  · congr 1
    split
    · rfl
    · rw [SrcTelno.hear, hold, ← hnil]
  · intro hne b len h
    have h0 : b.get1 0 = 0x6d := h.get1_eq (by decide)
    have hget : getString b 3 subaddrMax true = src.subaddr :=
      @getString_eq b [ieiCallingps, len, numberTypeNsap] src.subaddr subaddrMax h hsrc.subaddr
        (show 3 + 21 < 2 ^ 15 by decide) true
    rw [dss1DecodeQ931Cs0IeCd]
    simp only [h0, hdir, hget, if_neg (huse hne), decide_eq_true (huse hne)]
    rfl

end Elements

/-! ## The message

All elements together, as the encoder writes them: those that are not there leave the descriptor as it
was.
-/

/-- What a call descriptor promises about the strings in it.  The second calling party is used when
both parties have a number. -/
structure CallDesc.Valid (cd : CallDesc) : Prop where
  src0 : cd.src0.Valid
  src1 : cd.src1.Valid
  second : cd.src1.telno ≠ [] ∨ cd.src1.subaddr ≠ [] → cd.src0.telno ≠ [] ∧ cd.src1.telno ≠ []
  dstTelno : Digits telnoMax (cstr cd.dstTelno)
  dstSubaddr : Digits subaddrMax cd.dstSubaddr
  userUser : Digits userUserMax cd.userUser
  keypad : cd.keypad.length < keypadMax
  display : cd.display.length < displayMax

/-- A descriptor that was cleared, for an incoming call. -/
structure CallDesc.Fresh (cd : CallDesc) : Prop where
  dirIncoming : cd.dirIncoming = true
  channelAllocated : cd.channelAllocated = false
  sendingComplete : cd.sendingComplete = false
  receivedSrcTelno1 : cd.receivedSrcTelno1 = false
  receivedSrcTelno2 : cd.receivedSrcTelno2 = false
  src0 : cd.src0 = {}
  src1 : cd.src1 = {}
  dstTelno : cd.dstTelno = List.replicate telnoMax 0
  dstTelnoPtr : cd.dstTelnoPtr = 0
  dstSubaddr : cd.dstSubaddr = []
  userUser : cd.userUser = []

/-- `n_allocate_cd` makes such a descriptor for a message that comes in on a pipe. -/
theorem fresh_setupCall {n : Nat} {s : Cntl n} {i : Fin n} {cdid : Nat}
    (h : s.cd i = { cdid := cdid }) (p : L2.PipeNo) (crval : Nat) (aiType : AiType) (aiPtr : Nat) :
    ((s.setupCall i (some p) crval aiType aiPtr).cd i).Fresh := by
  have hcd : (s.setupCall i (some p) crval aiType aiPtr).cd i
      = { (s.cd i) with
          dirIncoming := true, channelId := chanAny, channelBprot := bprotNone, cr := crval
          dstTelnoPtr := 0, aiType := aiType, aiPtr := aiPtr } := by
    simp [Cntl.setupCall, Cntl.modify]
  rw [hcd, h]
  exact ⟨rfl, rfl, rfl, rfl, rfl, rfl, rfl, rfl, rfl, rfl, rfl⟩

/-- A calling party is found again: its number and its subaddress, and with a number the type of it
and the indicators. -/
structure SameParty (src r : SrcTelno) : Prop where
  telno : r.telno = src.telno
  subaddr : r.subaddr = src.subaddr
  number : src.telno ≠ [] → r.ton = src.ton ∧ r.prsInd = src.prsInd ∧ r.scrInd = src.scrInd

/-- What the other side has found out about a call. -/
structure Recovered (cd r : CallDesc) : Prop where
  sendingComplete : r.sendingComplete = cd.sendingComplete
  speech : cd.channelBprot = bprotNone ∨ cd.channelBprot = bprotNone31Khz →
    cd.channelBsubprot = bsubprotG711Alaw ∨ cd.channelBsubprot = bsubprotG711Ulaw →
      r.channelBprot = cd.channelBprot ∧ r.channelBsubprot = cd.channelBsubprot
  rhdlc : cd.channelBprot = bprotRhdlc → r.channelBprot = bprotRhdlc
  channelId : cd.channelAllocated = true → r.channelId = cd.channelId
  src0 : SameParty cd.src0 r.src0
  src1 : SameParty cd.src1 r.src1
  dstTelno : cstr r.dstTelno = cstr cd.dstTelno
  dstSubaddr : r.dstSubaddr = cd.dstSubaddr
  userUser : r.userUser = cd.userUser

/-- **The elements of a SETUP**, one after the other. -/
theorem decodes_setup {env env' : Env} {ntMode primaryRate : Bool} {cd new : CallDesc}
    (hcd : cd.Valid) (hnew : new.Fresh)
    (hchan : cd.channelAllocated = true → ChannelAgrees env env' primaryRate cd.channelId) :
    ∃ r, Decodes (dss1DecodeQ931Cs0IeCd env' ntMode) (setupElements env primaryRate cd) new r ∧
      Recovered cd r := by
  obtain ⟨hdir, halloc, hsc, hfirst, hsecond, hsrc0, hsrc1, htelno, hptr, hsub, huu⟩ := hnew
  obtain ⟨x, y, hbearer, hspeech, hrhdlc⟩ :=
    @decodes_bearer env' ntMode cd.channelBprot cd.channelBsubprot
  have hsend : Decodes (dss1DecodeQ931Cs0IeCd env' ntMode)
      (if cd.sendingComplete then [ieiSendcompl] else []) new
      { new with sendingComplete := cd.sendingComplete } := by
    cases cd.sendingComplete with
    | true => exact decodes_sendcompl hdir
    | false =>
      conv =>
        arg 4
        rw [← hsc]
      exact .nil
  have hchannel : ∀ c : CallDesc, c.channelAllocated = false →
      Decodes (dss1DecodeQ931Cs0IeCd env' ntMode)
        (if cd.channelAllocated then ieiChannelid env primaryRate cd.channelId else []) c
        { c with channelId := if cd.channelAllocated then cd.channelId else c.channelId } := by
    intro c hfree
    cases halloc' : cd.channelAllocated with
    | true => exact decodes_channelid (hchan halloc') hfree
    | false => exact .nil
  have h := ((((((((hsend.append (hbearer _ hdir)).append (hchannel _ halloc)).append
    (decodes_keypad hcd.keypad)).append
    (decodes_src0 hcd.src0 hdir hfirst hsecond (by rw [hsrc0]))).append
    (decodes_src1 hcd.src1 hdir (fun hne => decide_eq_true (hcd.second (.inl hne)).1) hsecond
      (by rw [hsrc1]) (fun hne => (hcd.second (.inr hne)).2))).append
    (decodes_calledpn hcd.dstTelno hdir hptr)).append
    (decodes_dstSubaddr hcd.dstSubaddr hdir hsub)).append
    (decodes_userUser hcd.userUser huu)).append (decodes_display hcd.display)
  refine ⟨_, h, rfl, hspeech, hrhdlc, fun hall => if_pos hall, ?_, ?_, ?_, rfl, rfl⟩
  · simp only
    split
    next hnil => exact ⟨by rw [hsrc0, hnil], rfl, fun hne => absurd hnil hne⟩
    next hne => exact ⟨rfl, rfl, fun _ => ⟨rfl, rfl, rfl⟩⟩
  · simp only
    split
    next hnil =>
      have hnone : cd.src1.subaddr = [] := by
        by_contra hne
        exact (hcd.second (.inr hne)).2 hnil
      exact ⟨by rw [hsrc1, hnil], by rw [hsrc1, hnone], fun hne => absurd hnil hne⟩
    next hne => exact ⟨rfl, rfl, fun _ => ⟨rfl, rfl, rfl⟩⟩
  · exact cstr_heardTelno hcd.dstTelno.digits (by rw [htelno]; rfl)

/-! ## The whole message

With the protocol discriminator, the call reference and the message type in front.
-/

theorem length_callreferenceBytes (len cr : Nat) : (callreferenceBytes len cr).length = len := by
  induction len generalizing cr with
  | zero => rfl
  | succ len ih => rw [callreferenceBytes, List.length_cons, ih]

theorem callreferenceLength_bounds (primaryRate : Bool) (cr : Nat) :
    1 ≤ callreferenceLength primaryRate cr ∧ callreferenceLength primaryRate cr ≤ 4 := by
  rw [callreferenceLength]
  split_ifs <;> decide

theorem length_header (primaryRate : Bool) (cr : Nat) (mt : UInt8) :
    (header primaryRate cr mt).length = callreferenceLength primaryRate cr + 3 := by
  rw [header, makeCallreference]
  simp only [List.length_cons, List.length_append, length_callreferenceBytes, List.length_nil]

/-- **The start of a message is read back**: the message type, and where the elements begin. -/
theorem readStart_header (primaryRate : Bool) (cr : Nat) (mt : UInt8) (els : List UInt8)
    (hlen : (header primaryRate cr mt ++ els).length < 2 ^ 15) :
    (readStart (Buf.init (header primaryRate cr mt ++ els))).mt = mt.toNat &&& 0x7f ∧
      (readStart (Buf.init (header primaryRate cr mt ++ els))).elements
        = ⟨header primaryRate cr mt ++ els, (header primaryRate cr mt).length,
            (header primaryRate cr mt ++ els).length⟩ := by
  obtain ⟨hlo, hhi⟩ := callreferenceLength_bounds primaryRate cr
  have hheader := length_header primaryRate cr mt
  generalize hk : callreferenceLength primaryRate cr = k at hlo hhi hheader
  have hmsg : header primaryRate cr mt ++ els
      = L2.pdQ931 :: UInt8.ofNat k :: (callreferenceBytes k cr ++ mt :: els) := by
    rw [header, makeCallreference, hk]
    simp
  have hdrop : (L2.pdQ931 :: UInt8.ofNat k :: (callreferenceBytes k cr ++ mt :: els)).drop (k + 2)
      = mt :: els := by
    rw [List.drop_succ_cons, List.drop_succ_cons]
    exact List.drop_left' (length_callreferenceBytes k cr)
  rw [hheader]
  rw [hmsg] at hlen ⊢
  have hcount : k + 2 < (L2.pdQ931 :: UInt8.ofNat k ::
      (callreferenceBytes k cr ++ mt :: els)).length := by
    simp only [List.length_cons, List.length_append, length_callreferenceBytes]
    omega
  have hfirst : (⟨L2.pdQ931 :: UInt8.ofNat k :: (callreferenceBytes k cr ++ mt :: els), 1,
      (L2.pdQ931 :: UInt8.ofNat k :: (callreferenceBytes k cr ++ mt :: els)).length⟩ : Buf).get1 0
        = k := by
    rw [(shows_drop (by omega) hlen).get1_eq (by decide), List.drop_succ_cons, List.drop_zero,
      List.getD_cons_zero, UInt8.toNat_ofNat', Nat.mod_eq_of_lt (by omega)]
  generalize L2.pdQ931 :: UInt8.ofNat k :: (callreferenceBytes k cr ++ mt :: els) = msg at *
  have hmt : (⟨msg, k + 2, msg.length⟩ : Buf).get1 0 = mt.toNat := by
    rw [(shows_drop hcount.le hlen).get1_eq (by decide), hdrop, List.getD_cons_zero]
  have hmask : k &&& 0x0f = k := by
    have hall : ∀ k < 5, k &&& 0x0f = k := by decide
    exact hall k (by omega)
  have hoff : (1 + k + 1) % 2 ^ 16 = k + 2 := by omega
  have hone : (0 + 1) % 2 ^ 16 = 1 := rfl
  rw [readStart, Buf.init]
  simp only [hone, hfirst, hmask, hoff, hmt]
  exact ⟨trivial, by rw [Nat.mod_eq_of_lt (by omega)]⟩

theorem length_element (iei : UInt8) (content : List UInt8) :
    (element iei content).length = content.length + 2 := rfl

theorem length_stringElement_le (iei : UInt8) (more : Nat) (lead : List UInt8) (str : Str) :
    (stringElement iei more lead str).length ≤ 2 + lead.length + str.length := by
  rw [stringElement]
  split
  · exact Nat.zero_le _
  · rw [putElement, List.length_cons, List.length_cons, List.length_append]
    omega

/-- The strings of a descriptor that a SETUP is made of fit their arrays. -/
structure CallDesc.Short (cd : CallDesc) : Prop where
  telno0 : cd.src0.telno.length < telnoMax
  subaddr0 : cd.src0.subaddr.length < subaddrMax
  telno1 : cd.src1.telno.length < telnoMax
  subaddr1 : cd.src1.subaddr.length < subaddrMax
  dstTelno : (cstr cd.dstTelno).length < telnoMax
  dstSubaddr : cd.dstSubaddr.length < subaddrMax
  keypad : cd.keypad.length < keypadMax
  userUser : cd.userUser.length < userUserMax
  display : cd.display.length < displayMax

theorem CallDesc.Valid.short {cd : CallDesc} (h : cd.Valid) : cd.Short :=
  ⟨h.src0.telno.length_lt, h.src0.subaddr.length_lt, h.src1.telno.length_lt,
    h.src1.subaddr.length_lt, h.dstTelno.length_lt, h.dstSubaddr.length_lt, h.keypad,
    h.userUser.length_lt, h.display⟩

theorem length_callingParty_le (src : SrcTelno) :
    (callingParty src).length ≤ 7 + src.telno.length + src.subaddr.length := by
  have hlead := length_callingLead_le src
  have hfirst := length_stringElement_le ieiCallingpn (callingLead src).length (callingLead src) src.telno
  have hsecond := length_stringElement_le ieiCallingps numberTypeLen [numberTypeNsap] src.subaddr
  rw [List.length_singleton] at hsecond
  rw [callingParty, List.length_append, callingNumber_eq]
  omega

/-- A SETUP is short. -/
theorem length_setupMessage_le {env : Env} {primaryRate : Bool} {cd : CallDesc} (hcd : cd.Short) :
    (setupMessage env primaryRate cd).length ≤ 476 := by
  have h0 := length_header primaryRate cd.cr mtSetup
  have hcr := (callreferenceLength_bounds primaryRate cd.cr).2
  have h1 : (if cd.sendingComplete then [ieiSendcompl] else []).length ≤ 1 := by
    split <;> simp
  have h2 : (bearer cd.channelBprot cd.channelBsubprot).length ≤ 5 := by
    rw [bearer_eq, length_element]
    split_ifs <;> simp
  have h3 : (if cd.channelAllocated then ieiChannelid env primaryRate cd.channelId
      else []).length ≤ 5 := by
    rw [ieiChannelid]
    split_ifs <;> simp [length_element]
  have h4 := length_stringElement_le ieiKeypad 0 [] cd.keypad
  have h5 := length_callingParty_le cd.src0
  have h6 := length_callingParty_le cd.src1
  have h7 := length_stringElement_le ieiCalledpn numberTypeLen [numberTypePlan] (cstr cd.dstTelno)
  have h8 := length_stringElement_le ieiCalledps numberTypeLen [numberTypeNsap] cd.dstSubaddr
  have h9 := length_stringElement_le ieiUseruser ieiUseruserLen [] cd.userUser
  have h10 := length_stringElement_le ieiDisplay 0 [] cd.display
  obtain ⟨ht0, hs0, ht1, hs1, ht, hs, hk, hu, hd⟩ := hcd
  simp only [List.length_singleton, List.length_nil, telnoMax, subaddrMax, keypadMax, userUserMax,
    displayMax] at *
  rw [setupMessage, setupElements]
  simp only [List.length_append]
  omega

/-- It is by far in the range of 16 bits. -/
theorem length_setupMessage_lt {env : Env} {primaryRate : Bool} {cd : CallDesc} (hcd : cd.Valid) :
    (setupMessage env primaryRate cd).length < 2 ^ 15 :=
  lt_of_le_of_lt (length_setupMessage_le hcd.short) (by decide)

/-- **The SETUP round trip.**  The SETUP that is sent for a valid call descriptor is taken for one
by the other side, whichever of the two is the network, and what it reads from it into a fresh
descriptor is what the sender's descriptor says: whether the number is complete, the bearer, the
channel that was allocated, both calling parties, the called party and the text. -/
theorem setup_round_trip {n : Nat} (env env' : Env) (s : Cntl n) (i : Fin n) (p : L2.PipeNo)
    (ntMode : Bool) (new : CallDesc) (hpipe : (s.cd i).pipe = some p)
    (hbuf : env.avail s.asks = true) (hcd : (s.cd i).Valid)
    (hchan : (s.cd i).channelAllocated = true →
      ChannelAgrees env env' s.primaryRate (s.cd i).channelId)
    (hnew : new.Fresh) :
    ∃ bytes, (s.dss1L3TxSetup env i).out = s.out ++ [.down (.request (.dataReq p bytes))] ∧
      messageEvent (readStart (Buf.init bytes)).mt = .setup ∧
      Recovered (s.cd i) (dss1DecodeIe (dss1DecodeQ931Cs0IeCd env' ntMode) new
        (readStart (Buf.init bytes)).elements) := by
  refine ⟨setupMessage env s.primaryRate (s.cd i), ?_, ?_⟩
  · simp only [Cntl.dss1L3TxSetup, Cntl.ask, hbuf, if_true, hpipe, Cntl.dss1PipeDataReq, Cntl.put,
      Cntl.modify]
  · have hlen := @length_setupMessage_lt env s.primaryRate _ hcd
    obtain ⟨r, hr, hrec⟩ := @decodes_setup env env' ntMode s.primaryRate _ new hcd hnew hchan
    rw [setupMessage] at hlen ⊢
    obtain ⟨hmt, hels⟩ := readStart_header s.primaryRate (s.cd i).cr mtSetup _ hlen
    refine ⟨by rw [hmt]; rfl, ?_⟩
    rw [hels, hr.dss1DecodeIe_eq List.drop_left (by rw [List.length_append]; omega) hlen]
    exact hrec

/-! ## The chips

A channel is coded by the chip of the sender, and decoded by that of the reader.
-/

/-- `CMR_ENCODE_CHANNEL` of the HFC chips: the D-channel of a primary rate interface is in the time
slot in the middle. -/
def ihfcEncodeChannel (channelId : Int) : Int :=
  if channelId < 0 then -1
  else if channelId = chanD1 then 0x10
  else if chanD1 + 0x10 ≤ channelId then channelId + 1
  else channelId

/-- `CMR_DECODE_CHANNEL` of them. -/
def ihfcDecodeChannel (slot : Int) : Int :=
  if slot = 0x10 then chanD1
  else if slot ≤ 0 then chanNotAny
  else if 0x10 < slot then slot - 1
  else slot

/-- **They agree**, about all the channels that have a time slot of seven bits. -/
theorem ihfc_channelAgrees {env env' : Env} (henv : env.encodeChannel = ihfcEncodeChannel)
    (henv' : env'.decodeChannel = ihfcDecodeChannel) {channelId : Int} (hlo : chanB1 ≤ channelId)
    (hhi : channelId < 127) : ChannelAgrees env env' true channelId := by
  simp only [chanB1] at hlo
  refine ⟨by simp only [chanNotAny]; omega, fun h => absurd h (by decide), fun _ _ => ?_⟩
  rw [henv, henv', ihfcEncodeChannel, if_neg (by omega), if_neg (by simp only [chanD1]; omega)]
  have hd1 : chanD1 = 0 := rfl
  by_cases h16 : chanD1 + 0x10 ≤ channelId
  · rw [if_pos h16, ihfcDecodeChannel, if_neg (by omega), if_neg (by omega), if_pos (by omega)]
    omega
  · rw [if_neg h16, ihfcDecodeChannel, if_neg (by omega), if_neg (by omega), if_neg (by omega)]
    omega

/-- A controller with a call to be set up, on the 17th B-channel of a primary rate interface. -/
def ringing : Cntl 1 :=
  { (Cntl.boot 0 31 0 : Cntl 1) with
    primaryRate := true
    cd := fun _ =>
      { cdid := 64, pipe := some L2.adapter, cr := 1, channelId := 17, channelAllocated := true
        channelBprot := bprotNone, channelBsubprot := bsubprotG711Alaw, sendingComplete := true
        src0 := { ton := tonNational, scrInd := scrNet, prsInd := prsRestrict, telno := [0x34, 0x32]
                  subaddr := [0x41] }
        src1 := { telno := [0x37] }
        dstTelno := [0x30, 0x23] ++ List.replicate 39 0 } }

/-- The other side, with a call descriptor that was just allocated. -/
def answering : Cntl 1 := { (Cntl.fresh false true : Cntl 1) with cd := fun _ => { cdid := makeCdid 0 1 } }

/-- It gets all of that call in the descriptor that `n_allocate_cd` has prepared. -/
theorem setup_round_trip_ringing :
    ∃ bytes, (ringing.dss1L3TxSetup { Cntl.plain with encodeChannel := ihfcEncodeChannel } 0).out
        = [.down (.request (.dataReq L2.adapter bytes))] ∧
      messageEvent (readStart (Buf.init bytes)).mt = .setup ∧
      Recovered (ringing.cd 0) (dss1DecodeIe
        (dss1DecodeQ931Cs0IeCd { Cntl.plain with decodeChannel := ihfcDecodeChannel } true)
        ((answering.setupCall 0 (some L2.adapter) 0x81 .broadcast 0).cd 0)
        (readStart (Buf.init bytes)).elements) := by
  have hdigits : ∀ (room : Nat) (str : Str), str.all isDigit = true → str.length < room →
      Digits room str := fun room str hall hlen => ⟨List.all_eq_true.mp hall, hlen⟩
  refine setup_round_trip _ _ ringing 0 L2.adapter true _ rfl rfl ?_ (fun _ => ?_) ?_
  · refine ⟨⟨?_, ?_, by decide, by decide⟩, ⟨?_, ?_, by decide, by decide⟩, by decide, ?_, ?_, ?_,
      by decide, by decide⟩ <;> exact hdigits _ _ (by decide) (by decide)
  · exact ihfc_channelAgrees rfl rfl (by decide) (by decide)
  · exact fresh_setupCall rfl L2.adapter 0x81 .broadcast 0

/-! ## The text for the display -/

/-- There is room for one octett, and the terminating zero is put there. -/
theorem getString_one (b : Buf) (offset : Nat) (filter : Bool) : getString b offset 1 filter = [] := by
  cases filter <;> rfl

theorem display_ite {q : Prop} [Decidable q] {cd cd' : CallDesc} (h : cd.display = [])
    (h' : cd'.display = []) : (if q then cd else cd').display = [] := by
  split
  · exact h
  · exact h'

/-- No element puts a text there. -/
theorem display_dss1DecodeQ931Cs0IeCd (env : Env) (ntMode : Bool) (cd : CallDesc) (b : Buf)
    (h : cd.display = []) : (dss1DecodeQ931Cs0IeCd env ntMode cd b).display = [] := by
  rw [dss1DecodeQ931Cs0IeCd]
  dsimp only
  refine display_ite (display_ite h h) (display_ite (display_ite h h) (display_ite h ?_))
  refine display_ite h (display_ite (display_ite h h) ?_)
  refine display_ite (display_ite h (display_ite h h)) (display_ite (getString_one b 2 true) ?_)
  refine display_ite (display_ite h h) (display_ite (display_ite h (display_ite h h)) ?_)
  refine display_ite (display_ite h (display_ite h h)) (display_ite ?_ ?_)
  · have hcalled : (appendCalledpn b cd).display = [] := h
    exact display_ite (q := cd.dirIncoming = true) hcalled h
  · exact display_ite (display_ite h h) (display_ite h h)

/-- **A text for the display is lost**: what is read from a SETUP into a descriptor without a text is
the text of the sender only if that has none either, whatever else is in the message. -/
theorem display_found_iff (env env' : Env) (ntMode primaryRate : Bool) (cd : CallDesc)
    {new : CallDesc} (hnew : new.display = []) :
    (dss1DecodeIe (dss1DecodeQ931Cs0IeCd env' ntMode) new
      (readStart (Buf.init (setupMessage env primaryRate cd))).elements).display = cd.display ↔
      cd.display = [] := by
  have h := decodeIeLoop_ind (P := fun cd : CallDesc => cd.display = [])
    (fun cd b h => display_dss1DecodeQ931Cs0IeCd env' ntMode cd b h)
    (readStart (Buf.init (setupMessage env primaryRate cd))).elements.len 0 0 new
    (readStart (Buf.init (setupMessage env primaryRate cd))).elements hnew
  rw [dss1DecodeIe, h]
  exact eq_comm

/-- A call without a text. -/
theorem display_found_iff_ringing :
    (dss1DecodeIe (dss1DecodeQ931Cs0IeCd Cntl.plain true) ({ dirIncoming := true } : CallDesc)
      (readStart (Buf.init (setupMessage Cntl.plain true (ringing.cd 0)))).elements).display
        = (ringing.cd 0).display :=
  (display_found_iff Cntl.plain Cntl.plain true true (ringing.cd 0) rfl).mpr rfl

/-- With a text of two letters: they are in the message, and not found. -/
theorem display_not_found :
    ¬ ∀ (cd new : CallDesc), cd.Valid → (∀ c ∈ cd.display, isDigit c = true) → new.Fresh →
      new.display = [] →
      (dss1DecodeIe (dss1DecodeQ931Cs0IeCd Cntl.plain true) new
        (readStart (Buf.init (setupMessage Cntl.plain false cd))).elements).display = cd.display := by
  intro h
  have hlost := h { display := [0x48, 0x69] } { dirIncoming := true } ?_
    (List.all_eq_true.mp (by decide)) ⟨rfl, rfl, rfl, rfl, rfl, rfl, rfl, rfl, rfl, rfl, rfl⟩ rfl
  · exact absurd hlost (by decide)
  · have hnil : ∀ room, 0 < room → Digits room [] :=
      fun room hroom => ⟨fun c hc => absurd hc List.not_mem_nil, hroom⟩
    have hsrc : SrcTelno.Valid {} := ⟨hnil _ (by decide), hnil _ (by decide), by decide, by decide⟩
    exact ⟨hsrc, hsrc, by decide, hnil _ (by decide), hnil _ (by decide), hnil _ (by decide),
      by decide, by decide⟩

end L3
end Isdn4bsd
