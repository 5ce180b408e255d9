import Isdn4bsd.L3.Types
import Isdn4bsd.Lib.Memory
import Isdn4bsd.Lib.Tlv
import Isdn4bsd.Lite.Call

/-!
# DSS1 lite: the encoder

A message is made in two passes over the same table.  In the first one the functions get no pointer and only
tell how many bytes there will be; in the second one they write, and the pointer is moved by what they tell.
Nothing but the functions themselves sees to it that they tell the same both times, and write as much as
they tell: if one did not, the mbuf, which is as long as the first pass says, would be too short, or have
rubbish at its end.

* `ieTab`, `firstPass`, `secondPass` : what the source does, with the memory of the mbuf.
* `elements` : the elements that are selected, and present.
* `Agrees` : a function writes an element, and tells its length in both passes.
* `message_split` : **any message** is as long as was computed, and consists of its elements.

The runs of `Lite.Call` have the bytes of a message at once (`encodeMessage`), with those numbers and texts
left out that are never set there.  `encodeMessage_eq` shows that these are the bytes that the table makes,
so that **what a call queues is such a message** (`Lite.sendMessage_split`).
-/

set_option autoImplicit false

namespace Isdn4bsd
namespace Dss1Lite

open L3 (Str cstr)
open Tlv (Element)

/-! ## The call descriptor

What the functions of the table read.
-/

/-- `struct dss1_lite_num` of a calling number. -/
structure Num where
  telno : Str
  subaddr : Str
  prsInd : ℕ
  ton : ℕ

/-- `struct dss1_lite_time` -/
structure Time where
  len : UInt8
  data : List UInt8
  size : data.length = 8

/-- `struct dss1_lite_call_desc`, with all numbers and texts. -/
structure Desc extends CallDesc where
  src0 : Num
  src1 : Num
  /-- `dl_part.subaddr` -/
  subaddr : Str
  otime : Time
  keypad : Str
  display : Str
  useruser : Str

/-- A call of which no numbers and texts were set but the one that is dialled. -/
def Desc.ofCall (cd : CallDesc) : Desc where
  toCallDesc := cd
  src0 := ⟨[], [], 0, 0⟩
  src1 := ⟨[], [], 0, 0⟩
  subaddr := []
  otime := ⟨0, List.replicate 8 0, rfl⟩
  keypad := []
  display := []
  useruser := []

/-- What a function writes if it has a pointer, and what it returns, as `uint8_t`.  There is nothing if it
reads through a pointer that is not there. -/
abbrev Written := Option (Mbuf × ℕ)

/-- The bytes are written if there is a pointer. -/
def writeIf (ptr : Bool) (m : Mbuf) (count : ℕ) : Written := some (if ptr then m else [], count % 256)

namespace Desc

variable (isNtMode : Bool) (cd : Desc) (ptr : Bool)

/-! ## The functions of the table

Each function is called twice for its element: with no buffer, to tell the length, and with one, to
write.  The source has one body for both, and so has the model.
-/

/-- `dss1_lite_ie_header` -/
def ieHeader : Written :=
  writeIf ptr [0, 0, 0, 0, 0x08, 1, UInt8.ofNat cd.currCallref, UInt8.ofNat cd.messageType] 8

/-- `dss1_lite_ie_sending_complete` -/
def ieSendingComplete : Written := writeIf ptr [0xa1] 1

/-- `dss1_lite_ie_bearer_cap` -/
def ieBearerCap : Written :=
  writeIf ptr (Dss1Lite.ieBearerCap cd.toCallDesc)
    (match cd.channelBprot with
      | .none => 5
      | .rhdlc => 4)

/-- `dss1_lite_ie_channel_id` -/
def ieChannelId : Written :=
  if !cd.channelAllocated then some ([], 0)
  else writeIf ptr (Dss1Lite.ieChannelId cd.toCallDesc) 3

end Desc

/-- What several functions do: a string behind some bytes, with its length increased in the length octet and
in what is returned. -/
def ieString (ptr : Bool) (id : UInt8) (front : Mbuf) (more total : ℕ) (str : Str) : Written :=
  let len := (cstr str).length
  if len ≤ 0 ∨ len ≥ 128 then some ([], 0)
  else writeIf ptr ([id, UInt8.ofNat (more + len)] ++ front ++ cstr str) (len + total)

namespace Desc

variable (isNtMode : Bool) (cd : Desc) (ptr : Bool)

/-- `dss1_lite_ie_keypad` -/
def ieKeypad : Written := ieString ptr 0x2c [] 0 2 cd.keypad

/-- `dss1_lite_ie_calling_party_sub` -/
def ieCallingPartySub (src : Num) : Written :=
  let ton : UInt8 := if src.ton = 1 then 0x81 ||| 0x10 else if src.ton = 2 then 0x81 ||| 0x20 else 0x81
  if src.prsInd ≠ 0 then
    -- clear extension bit
    ieString ptr 0x6c [ton &&& 0x7f, if src.prsInd = 2 then 0x20 ||| 0x80 else 0x80] 2 4 src.telno
  else ieString ptr 0x6c [ton] 1 3 src.telno

/-- `dss1_lite_ie_calling_party0` -/
def ieCallingParty0 : Written := ieCallingPartySub ptr cd.src0

/-- `dss1_lite_ie_calling_party1` -/
def ieCallingParty1 : Written := ieCallingPartySub ptr cd.src1

/-- `dss1_lite_ie_calling_subaddr0` -/
def ieCallingSubaddr0 : Written := ieString ptr 0x6d [0x80] 1 3 cd.src0.subaddr

/-- `dss1_lite_ie_calling_subaddr1` -/
def ieCallingSubaddr1 : Written := ieString ptr 0x6d [0x80] 1 3 cd.src1.subaddr

/-- `dss1_lite_ie_useruser` -/
def ieUseruser : Written := ieString ptr 0x7e [] 0 2 cd.useruser

/-- `dss1_lite_ie_display` -/
def ieDisplay : Written := ieString ptr 0x28 [] 0 2 cd.display

/-- `dss1_lite_ie_cause` -/
def ieCause : Written :=
  writeIf ptr [0x08, 2, location isNtMode, UInt8.ofNat (cd.causeOut ||| 0x80)] 4

/-- `dss1_lite_ie_callstate`; the state is only read if it is written. -/
def ieCallstate : Written :=
  if ptr then cd.pstate.bind fun st => writeIf ptr [0x14, 1, UInt8.ofNat st.q931State] 3
  else writeIf ptr [] 3

/-- `dss1_lite_ie_progress` -/
def ieProgress : Written := writeIf ptr [0x1e, 2, location isNtMode, 0x88] 4

/-- `dss1_lite_ie_called_party` -/
def ieCalledParty : Written := ieString ptr 0x70 [0x81] 1 3 cd.telno

/-- `dss1_lite_ie_called_subaddr` -/
def ieCalledSubaddr : Written := ieString ptr 0x71 [0x80] 1 3 cd.subaddr

/-- `dss1_lite_ie_deflect` -/
def ieDeflect : Written :=
  let len := (cstr cd.telno).length
  ieString ptr 0x1c
    [0x91, 0xa1, UInt8.ofNat (0x0D + len), 0x02, 0x02, 0x22, 0x00, 0x02, 0x01, 0x0d, 0x30,
      UInt8.ofNat (0x04 + len), 0x30, UInt8.ofNat (0x02 + len), 0x80, UInt8.ofNat (0x00 + len)]
    0x10 0x12 cd.telno

/-- `dss1_lite_ie_mcid` -/
def ieMcid : Written := writeIf ptr Dss1Lite.ieMcid 0x0C

/-- `dss1_lite_ie_date` -/
def ieDate : Written :=
  let len := if cd.otime.len.toNat > 8 then 8 else cd.otime.len.toNat
  if len = 0 then some ([], 0)
  else writeIf ptr ([0x29, UInt8.ofNat len] ++ cd.otime.data.take len) (2 + len)

end Desc

/-! ## The table

The rows are in the order in which the elements are sent.
-/

/-- `struct dss1_lite_ie_func`, for the mode of the controller and a call. -/
structure IeFunc where
  pfunc : Bool → Written
  mask : UInt32

/-- `1UL << n` -/
def bit (n : UInt32) : UInt32 := 1 <<< n

/-- `dss1_lite_ie_tab` -/
def ieTab (isNtMode : Bool) (cd : Desc) : List IeFunc :=
  [⟨cd.ieHeader, bit 0⟩, ⟨Desc.ieSendingComplete, bit 1⟩, ⟨cd.ieBearerCap, bit 2⟩,
    ⟨cd.ieChannelId, bit 3⟩, ⟨cd.ieKeypad, bit 4⟩, ⟨cd.ieCallingParty0, bit 5⟩,
    ⟨cd.ieCallingSubaddr0, bit 5⟩, ⟨cd.ieCallingParty1, bit 5⟩, ⟨cd.ieCallingSubaddr1, bit 5⟩,
    ⟨cd.ieUseruser, bit 6⟩, ⟨cd.ieDisplay, bit 7⟩, ⟨cd.ieCause isNtMode, bit 8⟩,
    ⟨cd.ieCallstate, bit 9⟩, ⟨Desc.ieProgress isNtMode, bit 10⟩, ⟨cd.ieCalledParty, bit 11⟩,
    ⟨cd.ieCalledSubaddr, bit 11⟩, ⟨cd.ieDeflect, bit 12⟩, ⟨Desc.ieMcid, bit 13⟩,
    ⟨cd.ieDate, bit 14⟩]

/-- A row is selected by a mask. -/
def selected (mask rowMask : UInt32) : Prop := rowMask &&& mask ≠ 0

instance (mask rowMask : UInt32) : Decidable (selected mask rowMask) :=
  inferInstanceAs (Decidable (_ ≠ _))

/-- The first pass, over the rest of the table.  The length is `uint16_t`. -/
def firstPass (mask : UInt32) : List IeFunc → ℕ → Option ℕ
  | [], len => some len
  | row :: rows, len =>
    if selected mask row.mask then do
      let r ← row.pfunc false
      firstPass mask rows ((len + r.2) % 65536)
    else firstPass mask rows len

/-- The second pass, into memory of which nothing was written. -/
def secondPass (mask : UInt32) : List IeFunc → (ℕ → Option UInt8) → ℕ → Option ((ℕ → Option UInt8) × ℕ)
  | [], mem, ptr => some (mem, ptr)
  | row :: rows, mem, ptr =>
    if selected mask row.mask then do
      let r ← row.pfunc true
      secondPass mask rows (Memory.store mem ptr (r.1.map some)) (ptr + r.2)
    else secondPass mask rows mem ptr

/-! ## The elements of a message

What the table should come to, as elements and not as octets.
-/

/-- A string that is neither empty nor too long, behind some bytes. -/
def stringElement (id : UInt8) (front : Mbuf) (str : Str) : Option Element :=
  let len := (cstr str).length
  if 0 < len ∧ len < 128 then some (.long id (front ++ cstr str)) else none

/-- The type of a calling number, and whether it may be presented. -/
def callingFront (src : Num) : Mbuf :=
  let ton : UInt8 := if src.ton = 1 then 0x91 else if src.ton = 2 then 0xa1 else 0x81
  if src.prsInd = 0 then [ton] else [ton &&& 0x7f, if src.prsInd = 2 then 0xa0 else 0x80]

/-- Speech and its law, or data; at 64 kbit/s. -/
def bearerContent (cd : CallDesc) : Mbuf :=
  match cd.channelBprot, cd.channelBsubprot with
  | .none, .alaw => [0x80, 0x90, 0xa3]
  | .none, .ulaw => [0x80, 0x90, 0xa2]
  | .none, .unknown => [0x80, 0x90, 0xa0]
  | .rhdlc, _ => [0x88, 0x90]

/-- The channel, and that no other one is accepted. -/
def channelContent (cd : CallDesc) : UInt8 :=
  if cd.channelId = chanNotAny then 0x88
  else if cd.channelId = chanD1 then 0x8c
  else if cd.channelId = chanB1 then 0x89
  else if cd.channelId = chanB2 then 0x8a
  else 0x8b

/-- The invocation of a call deflection to a number of so many digits. -/
def deflectFront (len : ℕ) : Mbuf :=
  [0x91, 0xa1, UInt8.ofNat (0x0D + len), 0x02, 0x02, 0x22, 0x00, 0x02, 0x01, 0x0d, 0x30,
    UInt8.ofNat (0x04 + len), 0x30, UInt8.ofNat (0x02 + len), 0x80, UInt8.ofNat len]

/-- The channel, if there is one. -/
def channelElement (cd : CallDesc) : Option Element :=
  if cd.channelAllocated then some (.long 0x18 [channelContent cd]) else none

/-- The call state, if there is a call. -/
def callstateElement (cd : CallDesc) : Option Element :=
  cd.pstate.map fun st => .long 0x14 [UInt8.ofNat st.q931State]

/-- The date, if there is one.  There are at most eight bytes of it. -/
def dateElement (time : Time) : Option Element :=
  if time.len = 0 then none else some (.long 0x29 (time.data.take time.len.toNat))

/-- The elements, as far as they are present, in the order of the table. -/
def elementTab (isNtMode : Bool) (cd : Desc) : List (Option Element × UInt32) :=
  [(some (.single 0xa1), bit 1),
    (some (.long 0x04 (bearerContent cd.toCallDesc)), bit 2),
    (channelElement cd.toCallDesc, bit 3),
    (stringElement 0x2c [] cd.keypad, bit 4),
    (stringElement 0x6c (callingFront cd.src0) cd.src0.telno, bit 5),
    (stringElement 0x6d [0x80] cd.src0.subaddr, bit 5),
    (stringElement 0x6c (callingFront cd.src1) cd.src1.telno, bit 5),
    (stringElement 0x6d [0x80] cd.src1.subaddr, bit 5),
    (stringElement 0x7e [] cd.useruser, bit 6),
    (stringElement 0x28 [] cd.display, bit 7),
    (some (.long 0x08 [location isNtMode, UInt8.ofNat (cd.causeOut ||| 0x80)]), bit 8),
    (callstateElement cd.toCallDesc, bit 9),
    (some (.long 0x1e [location isNtMode, 0x88]), bit 10),
    (stringElement 0x70 [0x81] cd.telno, bit 11),
    (stringElement 0x71 [0x80] cd.subaddr, bit 11),
    (stringElement 0x1c (deflectFront (cstr cd.telno).length) cd.telno, bit 12),
    (some (.long 0x1c [0x91, 0xa1, 0x07, 0x02, 0x02, 0x22, 0x00, 0x02, 0x01, 0x03]), bit 13),
    (dateElement cd.otime, bit 14)]

/-- The elements that are selected. -/
def elements (isNtMode : Bool) (cd : Desc) (mask : UInt32) : List Element :=
  ((elementTab isNtMode cd).filter fun x => selected mask x.2).filterMap Prod.fst

/-- The header of layers 2 and 3. -/
def header (cd : Desc) : Mbuf :=
  [0, 0, 0, 0, 0x08, 1, UInt8.ofNat cd.currCallref, UInt8.ofNat cd.messageType]

/-- What is in front of the elements. -/
def headerOf (cd : Desc) (mask : UInt32) : Mbuf := if selected mask (bit 0) then header cd else []

/-- The whole message. -/
def messageOf (isNtMode : Bool) (cd : Desc) (mask : UInt32) : Mbuf :=
  headerOf cd mask ++ Tlv.bytes (elements isNtMode cd mask)

/-! ## The functions agree with the elements

For each function, both passes: the length that is told is that of the element, and the octets that are
written are those of the element.
-/

/-- The bytes of an element, if it is present. -/
def bytesOf (e : Option Element) : Mbuf := e.elim [] Element.bytes

/-- What is written is as long as was told without a pointer. -/
structure Agrees (pfunc : Bool → Written) (m : Mbuf) : Prop where
  counted : pfunc false = some ([], m.length)
  written : pfunc true = some (m, m.length)
  short : m.length < 256

theorem agrees_writeIf {m : Mbuf} {count : ℕ} (hcount : count = m.length) (hshort : m.length < 256) :
    Agrees (fun ptr => writeIf ptr m count) m where
  counted := by rw [writeIf, hcount, Nat.mod_eq_of_lt hshort]; rfl
  written := by rw [writeIf, hcount, Nat.mod_eq_of_lt hshort]; rfl
  short := hshort

theorem agrees_absent {pfunc : Bool → Written} (h : ∀ ptr, pfunc ptr = some ([], 0)) :
    Agrees pfunc [] :=
  ⟨h false, h true, by decide⟩

/-- **A string** behind so many bytes. -/
theorem agrees_ieString (id : UInt8) {front : Mbuf} {more total : ℕ} (str : Str)
    (hmore : more = front.length) (htotal : total = front.length + 2) (hfront : front.length ≤ 16) :
    Agrees (fun ptr => ieString ptr id front more total str) (bytesOf (stringElement id front str)) := by
  by_cases hlen : 0 < (cstr str).length ∧ (cstr str).length < 128
  · have hbytes : bytesOf (stringElement id front str) =
        [id, UInt8.ofNat (more + (cstr str).length)] ++ front ++ cstr str := by
      rw [stringElement, if_pos hlen, hmore, ← List.length_append]
      rfl
    have hcode : (fun ptr => ieString ptr id front more total str) = fun ptr =>
        writeIf ptr ([id, UInt8.ofNat (more + (cstr str).length)] ++ front ++ cstr str)
          ((cstr str).length + total) := by
      funext ptr
      rw [ieString]
      exact if_neg (by omega)
    rw [hbytes, hcode]
    refine agrees_writeIf ?_ ?_
    all_goals simp only [List.length_append, List.length_cons, List.length_nil]
    all_goals omega
  · rw [stringElement, if_neg hlen]
    refine agrees_absent fun ptr => ?_
    rw [ieString]
    exact if_pos (by omega)

theorem valid_stringElement {id : UInt8} {front : Mbuf} {str : Str} (hid : 0 < id.toNat)
    (hid' : id.toNat < 0x80) (hfront : front.length ≤ 16) :
    ∀ e ∈ stringElement id front str, e.Valid := by
  intro e he
  rw [stringElement] at he
  split_ifs at he with hlen
  · cases he
    refine ⟨hid, hid', ?_⟩
    rw [List.length_append]
    omega
  · cases he

theorem bearerCap_eq (cd : CallDesc) :
    Dss1Lite.ieBearerCap cd = Element.bytes (.long 0x04 (bearerContent cd)) := by
  rw [Dss1Lite.ieBearerCap, bearerContent]
  cases cd.channelBprot with
  | none =>
    cases cd.channelBsubprot with
    | unknown => rfl
    | ulaw => rfl
    | alaw => rfl
  | rhdlc => rfl

theorem channelId_eq {cd : CallDesc} (h : cd.channelAllocated = true) :
    Dss1Lite.ieChannelId cd = Element.bytes (.long 0x18 [channelContent cd]) := by
  rw [Dss1Lite.ieChannelId, channelContent, h]
  simp only [Bool.not_true, Bool.false_eq_true, if_false]
  split_ifs
  all_goals rfl

/-- The chunks of a message: the header and the elements. -/
def chunkTab (isNtMode : Bool) (cd : Desc) : List (Mbuf × UInt32) :=
  (header cd, bit 0) :: (elementTab isNtMode cd).map fun x => (bytesOf x.1, x.2)

theorem agrees_callingParty (src : Num) :
    Agrees (fun ptr => Desc.ieCallingPartySub ptr src)
      (bytesOf (stringElement 0x6c (callingFront src) src.telno)) := by
  have hton : (if src.ton = 1 then (0x81 : UInt8) ||| 0x10 else if src.ton = 2 then 0x81 ||| 0x20 else 0x81) =
      if src.ton = 1 then 0x91 else if src.ton = 2 then 0xa1 else 0x81 := rfl
  have hcode : (fun ptr => Desc.ieCallingPartySub ptr src) = fun ptr =>
      ieString ptr 0x6c (callingFront src) (callingFront src).length ((callingFront src).length + 2)
        src.telno := by
    funext ptr
    rw [Desc.ieCallingPartySub, callingFront, hton]
    by_cases hprs : src.prsInd = 0
    · simp only [ne_eq, hprs, not_true_eq_false, if_false, if_true]
      rfl
    · simp only [ne_eq, hprs, not_false_eq_true, if_true, if_false]
      rfl
  have hlen : (callingFront src).length ≤ 16 := by
    rw [callingFront]
    split_ifs
    all_goals simp
  rw [hcode]
  exact agrees_ieString 0x6c src.telno rfl rfl hlen

theorem agrees_date (cd : Desc) :
    Agrees cd.ieDate (bytesOf (dateElement cd.otime)) := by
  have hsize := cd.otime.size
  rw [dateElement]
  by_cases hzero : cd.otime.len = 0
  · rw [if_pos hzero]
    refine agrees_absent fun ptr => ?_
    rw [Desc.ieDate, hzero]
    rfl
  · have hpos : cd.otime.len.toNat ≠ 0 := fun h => hzero (UInt8.toNat_inj.mp h)
    have hlen : (cd.otime.data.take cd.otime.len.toNat).length =
        if cd.otime.len.toNat > 8 then 8 else cd.otime.len.toNat := by
      rw [List.length_take, hsize]
      split_ifs <;> omega
    have htake : cd.otime.data.take (if cd.otime.len.toNat > 8 then 8 else cd.otime.len.toNat) =
        cd.otime.data.take cd.otime.len.toNat := by
      split_ifs with hlong
      · rw [List.take_of_length_le (by omega), List.take_of_length_le (by omega)]
      · rfl
    have hne : (if cd.otime.len.toNat > 8 then 8 else cd.otime.len.toNat) ≠ 0 := by
      split_ifs <;> omega
    have hcode : cd.ieDate = fun ptr =>
        writeIf ptr (bytesOf (some (.long 0x29 (cd.otime.data.take cd.otime.len.toNat))))
          (2 + if cd.otime.len.toNat > 8 then 8 else cd.otime.len.toNat) := by
      funext ptr
      rw [Desc.ieDate]
      simp only [htake]
      rw [if_neg hne, ← hlen]
      rfl
    rw [if_neg hzero, hcode]
    refine agrees_writeIf ?_ ?_
    all_goals rw [bytesOf, Option.elim_some, Element.bytes, List.length_cons, List.length_cons, hlen]
    all_goals split_ifs <;> omega

theorem agrees_callstate {cd : Desc} (h : cd.pstate ≠ none) :
    Agrees cd.ieCallstate (bytesOf (callstateElement cd.toCallDesc)) := by
  obtain ⟨st, hst⟩ := Option.ne_none_iff_exists'.mp h
  have hshort : (3 : ℕ) < 256 := by decide
  refine ⟨?_, ?_, ?_⟩
  · rw [Desc.ieCallstate, callstateElement, hst]
    rfl
  · rw [Desc.ieCallstate, callstateElement, hst]
    rfl
  · rw [callstateElement, hst]
    exact hshort

theorem agrees_channelId (cd : Desc) :
    Agrees cd.ieChannelId (bytesOf (channelElement cd.toCallDesc)) := by
  have hshort : (3 : ℕ) < 256 := by decide
  rw [channelElement]
  cases halloc : cd.channelAllocated with
  | true =>
    have hcode : cd.ieChannelId = fun ptr =>
        writeIf ptr (bytesOf (some (.long 0x18 [channelContent cd.toCallDesc]))) 3 := by
      funext ptr
      rw [Desc.ieChannelId, halloc, channelId_eq halloc]
      rfl
    rw [hcode, if_pos rfl]
    exact agrees_writeIf rfl hshort
  | false =>
    rw [if_neg (by decide)]
    refine agrees_absent fun ptr => ?_
    rw [Desc.ieChannelId, halloc]
    rfl

theorem agrees_bearerCap (cd : Desc) :
    Agrees cd.ieBearerCap (bytesOf (some (.long 0x04 (bearerContent cd.toCallDesc)))) := by
  have hcode : cd.ieBearerCap = fun ptr =>
      writeIf ptr (bytesOf (some (.long 0x04 (bearerContent cd.toCallDesc))))
        (match cd.channelBprot with
          | .none => 5
          | .rhdlc => 4) := by
    funext ptr
    rw [Desc.ieBearerCap, bearerCap_eq]
    rfl
  have h4 : (4 : ℕ) < 256 := by decide
  rw [hcode, bearerContent]
  cases cd.channelBprot with
  | none =>
    cases cd.channelBsubprot with
    | unknown => exact agrees_writeIf rfl (by decide)
    | ulaw => exact agrees_writeIf rfl (by decide)
    | alaw => exact agrees_writeIf rfl (by decide)
  | rhdlc => exact agrees_writeIf rfl h4

/-- **Each row of the table** writes its element, and tells its length in both passes. -/
theorem agrees_ieTab (isNtMode : Bool) (cd : Desc) (mask : UInt32)
    (hcall : selected mask (bit 9) → cd.pstate ≠ none) :
    List.Forall₂ (fun row x => row.mask = x.2 ∧ (selected mask x.2 → Agrees row.pfunc x.1))
      (ieTab isNtMode cd) (chunkTab isNtMode cd) := by
  have hshort : ∀ {n : ℕ}, n < 16 → n < 256 := fun h => by omega
  have h1 : (1 : ℕ) < 16 := by decide
  have h4 : (4 : ℕ) < 16 := by decide
  have h8 : (8 : ℕ) < 16 := by decide
  have h12 : (12 : ℕ) < 16 := by decide
  have hnil : ([] : Mbuf).length ≤ 16 := by decide
  have hone : ([0x80] : Mbuf).length ≤ 16 := by decide
  refine .cons ⟨rfl, fun _ => agrees_writeIf rfl (hshort h8)⟩ ?_
  refine .cons ⟨rfl, fun _ => agrees_writeIf rfl (hshort h1)⟩ ?_
  refine .cons ⟨rfl, fun _ => agrees_bearerCap cd⟩ ?_
  refine .cons ⟨rfl, fun _ => agrees_channelId cd⟩ ?_
  refine .cons ⟨rfl, fun _ => agrees_ieString 0x2c cd.keypad rfl rfl hnil⟩ ?_
  refine .cons ⟨rfl, fun _ => agrees_callingParty cd.src0⟩ ?_
  refine .cons ⟨rfl, fun _ => agrees_ieString 0x6d cd.src0.subaddr rfl rfl hone⟩ ?_
  refine .cons ⟨rfl, fun _ => agrees_callingParty cd.src1⟩ ?_
  refine .cons ⟨rfl, fun _ => agrees_ieString 0x6d cd.src1.subaddr rfl rfl hone⟩ ?_
  refine .cons ⟨rfl, fun _ => agrees_ieString 0x7e cd.useruser rfl rfl hnil⟩ ?_
  refine .cons ⟨rfl, fun _ => agrees_ieString 0x28 cd.display rfl rfl hnil⟩ ?_
  refine .cons ⟨rfl, fun _ => agrees_writeIf rfl (hshort h4)⟩ ?_
  refine .cons ⟨rfl, fun hsel => agrees_callstate (hcall hsel)⟩ ?_
  refine .cons ⟨rfl, fun _ => agrees_writeIf rfl (hshort h4)⟩ ?_
  refine .cons ⟨rfl, fun _ => agrees_ieString 0x70 cd.telno rfl rfl hone⟩ ?_
  refine .cons ⟨rfl, fun _ => agrees_ieString 0x71 cd.subaddr rfl rfl hone⟩ ?_
  refine .cons ⟨rfl, fun _ => ?_⟩ ?_
  · have hfront : (deflectFront (cstr cd.telno).length).length ≤ 16 := Nat.le_refl 16
    have hcode : cd.ieDeflect = fun ptr => ieString ptr 0x1c (deflectFront (cstr cd.telno).length) 0x10
        0x12 cd.telno := by
      funext ptr
      rw [Desc.ieDeflect]
      simp only [Nat.zero_add]
      rfl
    rw [hcode]
    exact agrees_ieString 0x1c cd.telno rfl rfl hfront
  refine .cons ⟨rfl, fun _ => agrees_writeIf rfl (hshort h12)⟩ ?_
  exact .cons ⟨rfl, fun _ => agrees_date cd⟩ .nil

/-! ## The passes

A pass goes over the table.  The first one adds up the lengths, and the second one writes behind what was
written.
-/

/-- The chunks that are selected, one behind the other. -/
def chunks (mask : UInt32) (tab : List (Mbuf × UInt32)) : Mbuf :=
  (tab.filter fun x => selected mask x.2).flatMap Prod.fst

theorem chunks_cons_selected {mask : UInt32} {x : Mbuf × UInt32} (h : selected mask x.2)
    (tab : List (Mbuf × UInt32)) : chunks mask (x :: tab) = x.1 ++ chunks mask tab := by
  rw [chunks, List.filter_cons, if_pos (decide_eq_true h), List.flatMap_cons]
  rfl

theorem chunks_cons_not_selected {mask : UInt32} {x : Mbuf × UInt32} (h : ¬ selected mask x.2)
    (tab : List (Mbuf × UInt32)) : chunks mask (x :: tab) = chunks mask tab := by
  rw [chunks, List.filter_cons, if_neg (by simpa using h)]
  rfl

/-- The rows agree with their chunks, as far as they are selected. -/
def TabAgrees (mask : UInt32) (rows : List IeFunc) (tab : List (Mbuf × UInt32)) : Prop :=
  List.Forall₂ (fun row x => row.mask = x.2 ∧ (selected mask x.2 → Agrees row.pfunc x.1)) rows tab

/-- **The first pass** tells the length of all chunks; sixteen bits are enough. -/
theorem firstPass_eq {mask : UInt32} {rows : List IeFunc} {tab : List (Mbuf × UInt32)}
    (h : TabAgrees mask rows tab) {len : ℕ} (hlen : len + 256 * rows.length < 65536) :
    firstPass mask rows len = some (len + (chunks mask tab).length) := by
  induction h generalizing len with
  | nil => rfl
  | @cons row x rows tab hrow _ ih =>
    rw [List.length_cons] at hlen
    rw [firstPass, hrow.1]
    by_cases hsel : selected mask x.2
    · have hagrees := hrow.2 hsel
      have hshort := hagrees.short
      rw [if_pos hsel, hagrees.counted, Option.bind_eq_bind, Option.bind_some,
        Nat.mod_eq_of_lt (by omega), ih (by omega), chunks_cons_selected hsel, List.length_append,
        Nat.add_assoc]
    · rw [if_neg hsel, ih (by omega), chunks_cons_not_selected hsel]

/-- **The second pass** writes all chunks, one behind the other. -/
theorem secondPass_eq {mask : UInt32} {rows : List IeFunc} {tab : List (Mbuf × UInt32)}
    (h : TabAgrees mask rows tab) (mem : ℕ → Option UInt8) (ptr : ℕ) :
    secondPass mask rows mem ptr =
      some (Memory.store mem ptr ((chunks mask tab).map some), ptr + (chunks mask tab).length) := by
  induction h generalizing mem ptr with
  | nil => rfl
  | @cons row x rows tab hrow _ ih =>
    rw [secondPass, hrow.1]
    by_cases hsel : selected mask x.2
    · have hstore := Memory.store_append mem ptr (x.1.map some) ((chunks mask tab).map some)
      rw [List.length_map] at hstore
      rw [if_pos hsel, (hrow.2 hsel).written, Option.bind_eq_bind, Option.bind_some, ih, hstore,
        chunks_cons_selected hsel, List.map_append, List.length_append, Nat.add_assoc]
    · rw [if_neg hsel, ih, chunks_cons_not_selected hsel]

/-! ## The message

Both passes, and what is put in front of the elements.
-/

theorem chunks_elements (mask : UInt32) (tab : List (Option Element × UInt32)) :
    chunks mask (tab.map fun x => (bytesOf x.1, x.2)) =
      Tlv.bytes ((tab.filter fun x => selected mask x.2).filterMap Prod.fst) := by
  induction tab with
  | nil => rfl
  | cons x tab ih =>
    rw [List.map_cons]
    by_cases hsel : selected mask x.2
    · rw [chunks_cons_selected hsel, ih, List.filter_cons, if_pos (decide_eq_true hsel)]
      cases hx : x.1 with
      | none => rw [List.filterMap_cons_none hx]; rfl
      | some e => rw [List.filterMap_cons_some hx]; rfl
    · rw [chunks_cons_not_selected hsel, ih, List.filter_cons, if_neg (by simpa using hsel)]

/-- The chunks are the header and the elements. -/
theorem chunks_eq_messageOf (isNtMode : Bool) (cd : Desc) (mask : UInt32) :
    chunks mask (chunkTab isNtMode cd) = messageOf isNtMode cd mask := by
  rw [messageOf, headerOf, elements, ← chunks_elements, chunkTab]
  by_cases hsel : selected mask (bit 0)
  · rw [chunks_cons_selected hsel, if_pos hsel]
  · rw [chunks_cons_not_selected hsel, if_neg hsel, List.nil_append]

theorem length_bearerContent (cd : CallDesc) : (bearerContent cd).length < 256 := by
  have h : (bearerContent cd).length ≤ 3 := by
    rw [bearerContent]
    split
    all_goals simp
  omega

theorem length_callingFront (src : Num) : (callingFront src).length ≤ 16 := by
  rw [callingFront]
  split_ifs
  all_goals simp

/-- The elements of all rows can be read back. -/
theorem valid_elementTab (isNtMode : Bool) (cd : Desc) :
    ∀ x ∈ elementTab isNtMode cd, ∀ e ∈ x.1, e.Valid := by
  have hlong : ∀ {id : UInt8} {content : Mbuf}, 0 < id.toNat → id.toNat < 0x80 → content.length < 256 →
      ∀ e ∈ some (Element.long id content), e.Valid := by
    intro id content hpos hlt hlen e he
    cases he
    exact ⟨hpos, hlt, hlen⟩
  have hnil : ([] : Mbuf).length ≤ 16 := by decide
  have hone : ∀ c : UInt8, ([c] : Mbuf).length ≤ 16 := fun _ => by simp
  have h1 : (1 : ℕ) < 256 := by decide
  have h2 : (2 : ℕ) < 256 := by decide
  intro x hx
  simp only [elementTab, List.mem_cons, List.not_mem_nil, or_false] at hx
  rcases hx with rfl | rfl | rfl | rfl | rfl | rfl | rfl | rfl | rfl | rfl | rfl | rfl | rfl | rfl | rfl |
    rfl | rfl | rfl
  · rintro e ⟨⟩
    exact (by decide : 0x80 ≤ (0xa1 : UInt8).toNat)
  · exact hlong (by decide) (by decide) (length_bearerContent cd.toCallDesc)
  · intro e he
    simp only [channelElement] at he
    split_ifs at he
    · cases he
      exact ⟨by decide, by decide, h1⟩
    · cases he
  · exact valid_stringElement (by decide) (by decide) hnil
  · exact valid_stringElement (by decide) (by decide) (length_callingFront cd.src0)
  · exact valid_stringElement (by decide) (by decide) (hone _)
  · exact valid_stringElement (by decide) (by decide) (length_callingFront cd.src1)
  · exact valid_stringElement (by decide) (by decide) (hone _)
  · exact valid_stringElement (by decide) (by decide) hnil
  · exact valid_stringElement (by decide) (by decide) hnil
  · exact hlong (by decide) (by decide) h2
  · intro e he
    obtain ⟨st, -, rfl⟩ := Option.map_eq_some_iff.mp he
    exact ⟨by decide, by decide, h1⟩
  · exact hlong (by decide) (by decide) h2
  · exact valid_stringElement (by decide) (by decide) (hone _)
  · exact valid_stringElement (by decide) (by decide) (hone _)
  · exact valid_stringElement (by decide) (by decide) (Nat.le_refl 16)
  · exact hlong (by decide) (by decide) (by decide)
  · intro e he
    simp only [dateElement] at he
    split_ifs at he
    · cases he
    · refine hlong (by decide) (by decide) ?_ e he
      have hsize := cd.otime.size
      rw [List.length_take]
      omega

theorem valid_elements (isNtMode : Bool) (cd : Desc) (mask : UInt32) :
    ∀ e ∈ elements isNtMode cd mask, e.Valid := by
  intro e he
  obtain ⟨x, hx, hxe⟩ := List.mem_filterMap.mp he
  exact valid_elementTab isNtMode cd x (List.mem_filter.mp hx).1 e hxe

theorem peekMbuf_append (front m : Mbuf) (i : ℕ) :
    peekMbuf (front ++ m) (front.length + i) = peekMbuf m i := by
  rw [peekMbuf, peekMbuf, List.getD_eq_getElem?_getD, List.getD_eq_getElem?_getD,
    List.getElem?_append_right (Nat.le_add_right _ _), Nat.add_sub_cancel_left]

/-- `dss1_lite_find_ie_mbuf` finds the first element with an identifier, or none. -/
theorem findIe_position {es : List Element} (h : ∀ e ∈ es, e.Valid) (front : Mbuf) (ie : ℕ) {fuel : ℕ}
    (hfuel : es.length < fuel) :
    findIe (front ++ Tlv.bytes es) ie fuel front.length = Tlv.position ie front.length es := by
  induction es generalizing front fuel with
  | nil =>
    obtain ⟨fuel, rfl⟩ := Nat.exists_eq_add_one_of_ne_zero (Nat.ne_of_gt hfuel)
    have hpeek := peekMbuf_append front [] 0
    rw [Nat.add_zero] at hpeek
    rw [findIe, show Tlv.bytes [] = [] from rfl, hpeek]
    rfl
  | cons e es ih =>
    obtain ⟨fuel, rfl⟩ := Nat.exists_eq_add_one_of_ne_zero (Nat.ne_of_gt (Nat.zero_lt_of_lt hfuel))
    have he := h e List.mem_cons_self
    have hid := he.id_ne
    have hrest := @ih (fun x hx => h x (List.mem_cons_of_mem e hx)) (front ++ e.bytes) fuel
      (Nat.lt_of_succ_lt_succ hfuel)
    rw [List.length_append, List.append_assoc] at hrest
    have hpeek : peekMbuf (front ++ (e.bytes ++ Tlv.bytes es)) front.length = e.id.toNat := by
      have hfirst := peekMbuf_append front (e.bytes ++ Tlv.bytes es) 0
      rw [Nat.add_zero] at hfirst
      rw [hfirst]
      cases e with
      | single id => rfl
      | long id content => rfl
    rw [Tlv.bytes_cons, findIe, Tlv.position]
    simp only [hpeek, if_neg hid]
    by_cases hie : e.id.toNat = ie
    · rw [if_pos hie, if_pos hie]
    · rw [if_neg hie, if_neg hie, ← hrest]
      cases e with
      | single id => exact if_pos he
      | long id content =>
        obtain ⟨-, hlt, hlen⟩ := he
        have hoctet : peekMbuf (front ++ (Element.bytes (.long id content) ++ Tlv.bytes es))
            (front.length + 1) = content.length := by
          rw [peekMbuf_append]
          exact UInt8.toNat_ofNat_of_lt' hlen
        rw [hoctet]
        refine (if_neg (Nat.not_le_of_lt hlt)).trans (congrArg _ ?_)
        rw [Element.bytes, List.length_cons, List.length_cons]
        omega

/-- Both passes are about the same bytes. -/
theorem passes_eq (isNtMode : Bool) (cd : Desc) (mask : UInt32)
    (hcall : selected mask (bit 9) → cd.pstate ≠ none) :
    firstPass mask (ieTab isNtMode cd) 0 = some (messageOf isNtMode cd mask).length ∧
    secondPass mask (ieTab isNtMode cd) (fun _ => none) 0 =
      some (Memory.store (fun _ => none) 0 ((messageOf isNtMode cd mask).map some),
        (messageOf isNtMode cd mask).length) := by
  have htab : TabAgrees mask (ieTab isNtMode cd) (chunkTab isNtMode cd) :=
    agrees_ieTab isNtMode cd mask hcall
  have hsmall : 0 + 256 * 19 < 65536 := by decide
  have hfirst := @firstPass_eq mask _ _ htab 0 hsmall
  have hsecond := secondPass_eq htab (fun _ => none) 0
  rw [chunks_eq_messageOf, Nat.zero_add] at hfirst hsecond
  exact ⟨hfirst, hsecond⟩

/-- What was written is the message. -/
theorem slice_message (m : Mbuf) :
    Memory.slice (Memory.store (fun _ => none) 0 (m.map some)) 0 m.length = m.map some := by
  have hslice := Memory.slice_store_self (fun _ => none) 0 (m.map some)
  rwa [List.length_map] at hslice

/-- **Any message**: the second pass writes as many bytes as the first one has told, in the order of the
table.  Behind the header there are exactly the elements that are selected and present, each with its
length, and `dss1_lite_find_ie_mbuf` finds them.  The call state can only be told of a call. -/
theorem message_split (isNtMode : Bool) (cd : Desc) (mask : UInt32)
    (hcall : selected mask (bit 9) → cd.pstate ≠ none) :
    firstPass mask (ieTab isNtMode cd) 0 = some (messageOf isNtMode cd mask).length ∧
    (∃ mem, secondPass mask (ieTab isNtMode cd) (fun _ => none) 0 =
        some (mem, (messageOf isNtMode cd mask).length) ∧
      Memory.slice mem 0 (messageOf isNtMode cd mask).length = (messageOf isNtMode cd mask).map some ∧
      ∀ i, (messageOf isNtMode cd mask).length ≤ i → mem i = none) ∧
    messageOf isNtMode cd mask = headerOf cd mask ++ Tlv.bytes (elements isNtMode cd mask) ∧
    (∀ fuel, (elements isNtMode cd mask).length < fuel →
      Tlv.split fuel (Tlv.bytes (elements isNtMode cd mask)) = some (elements isNtMode cd mask)) ∧
    (selected mask (bit 0) → ∀ ie, findIeMbuf (messageOf isNtMode cd mask) 8 ie =
      Tlv.position ie 8 (elements isNtMode cd mask)) := by
  obtain ⟨hfirst, hsecond⟩ := passes_eq isNtMode cd mask hcall
  have hvalid := valid_elements isNtMode cd mask
  refine ⟨hfirst, ⟨_, hsecond, slice_message _, fun i hi => ?_⟩, rfl,
    fun fuel hfuel => Tlv.split_bytes hvalid hfuel, fun hheader ie => ?_⟩
  · exact Memory.store_of_outside _ (.inr (by rw [List.length_map]; omega))
  · have hfront : headerOf cd mask = header cd := if_pos hheader
    have hlen : (elements isNtMode cd mask).length < (messageOf isNtMode cd mask).length + 1 := by
      have hle := Tlv.length_le_bytes (elements isNtMode cd mask)
      rw [messageOf, List.length_append]
      omega
    rw [messageOf, hfront] at hlen ⊢
    exact findIe_position hvalid (header cd) ie hlen

/-- A status message of an outgoing call has fifteen bytes. -/
theorem message_split_status :
    firstPass (bit 0 ||| bit 8 ||| bit 9)
      (ieTab false (Desc.ofCall { CallDesc.zero with pstate := some (stateEntry 0) })) 0 = some 15 :=
  (message_split false (Desc.ofCall { CallDesc.zero with pstate := some (stateEntry 0) })
    (bit 0 ||| bit 8 ||| bit 9) fun _ => Option.some_ne_none _).1.trans (by decide)

/-! ## The messages that are sent

The rest of the stack has the messages as lists of bytes; here they are compared with what the two passes
write.
-/

/-- `dss1_lite_send_message`: the descriptor, what is in the mbuf that is sent, and what is returned if
there is none. -/
def Desc.sendMessage (isNtMode : Bool) (cd : Desc) (msgType : ℕ) (mask : UInt32) (getmbuf : Bool) :
    Option (Desc × Except Bool (List (Option UInt8))) := do
  let cd := { cd with messageType := msgType }
  let len ← firstPass mask (ieTab isNtMode cd) 0
  if len = 0 then some (cd, .error true)
  else if getmbuf = false then some (cd, .error false)
  else do
    let r ← secondPass mask (ieTab isNtMode cd) (fun _ => none) 0
    some (cd, .ok (Memory.slice r.1 0 len))

/-- A message is sent, unless there is nothing to send or no mbuf. -/
theorem sendMessage_eq (isNtMode : Bool) (cd : Desc) (msgType : ℕ) (mask : UInt32) (getmbuf : Bool)
    (hcall : selected mask (bit 9) → cd.pstate ≠ none) :
    cd.sendMessage isNtMode msgType mask getmbuf =
      some ({ cd with messageType := msgType },
        if (messageOf isNtMode { cd with messageType := msgType } mask).length = 0 then .error true
        else if getmbuf = false then .error false
        else .ok ((messageOf isNtMode { cd with messageType := msgType } mask).map some)) := by
  obtain ⟨hfirst, hsecond⟩ := passes_eq isNtMode { cd with messageType := msgType } mask hcall
  rw [Desc.sendMessage]
  simp only [hfirst, hsecond, Option.bind_eq_bind, Option.bind_some, slice_message]
  split_ifs
  all_goals rfl

/-- The mask of a message that has a header. -/
def Mask.bits (mask : Mask) : UInt32 :=
  bit 0 ||| (if mask.sendingComplete then bit 1 else 0) ||| (if mask.bearerCap then bit 2 else 0) |||
    (if mask.channelId then bit 3 else 0) ||| (if mask.cause then bit 8 else 0) |||
    (if mask.callstate then bit 9 else 0) ||| (if mask.progress then bit 10 else 0) |||
    (if mask.calledParty then bit 11 else 0) ||| (if mask.deflect then bit 12 else 0) |||
    (if mask.mcid then bit 13 else 0)

theorem selected_bits (mask : Mask) :
    selected mask.bits (bit 0) ∧ (selected mask.bits (bit 1) ↔ mask.sendingComplete = true) ∧
    (selected mask.bits (bit 2) ↔ mask.bearerCap = true) ∧
    (selected mask.bits (bit 3) ↔ mask.channelId = true) ∧
    (selected mask.bits (bit 8) ↔ mask.cause = true) ∧
    (selected mask.bits (bit 9) ↔ mask.callstate = true) ∧
    (selected mask.bits (bit 10) ↔ mask.progress = true) ∧
    (selected mask.bits (bit 11) ↔ mask.calledParty = true) ∧
    (selected mask.bits (bit 12) ↔ mask.deflect = true) ∧
    (selected mask.bits (bit 13) ↔ mask.mcid = true) := by
  obtain ⟨a, b, c, d, e, f, g, h, i⟩ := mask
  revert a b c d e f g h i
  decide

theorem chunks_cons (mask : UInt32) (x : Mbuf × UInt32) (tab : List (Mbuf × UInt32)) :
    chunks mask (x :: tab) = (if selected mask x.2 then x.1 else []) ++ chunks mask tab := by
  by_cases hsel : selected mask x.2
  · rw [chunks_cons_selected hsel, if_pos hsel]
  · rw [chunks_cons_not_selected hsel, if_neg hsel, List.nil_append]

theorem calledParty_eq {cd : CallDesc} (htelno : cstr cd.telno = cd.telno) :
    Dss1Lite.ieCalledParty cd = bytesOf (stringElement 0x70 [0x81] cd.telno) := by
  rw [Dss1Lite.ieCalledParty, stringElement, htelno]
  by_cases hlen : cd.telno.length = 0 ∨ 128 ≤ cd.telno.length
  · rw [if_pos hlen, if_neg (by omega)]
    rfl
  · rw [if_neg hlen, if_pos (by omega), bytesOf, Option.elim_some, Element.bytes, List.length_append]
    rfl

theorem deflect_eq {cd : CallDesc} (htelno : cstr cd.telno = cd.telno) :
    Dss1Lite.ieDeflect cd = bytesOf (stringElement 0x1c (deflectFront cd.telno.length) cd.telno) := by
  rw [Dss1Lite.ieDeflect, stringElement, htelno]
  by_cases hlen : cd.telno.length = 0 ∨ 128 ≤ cd.telno.length
  · rw [if_pos hlen, if_neg (by omega)]
    rfl
  · rw [if_neg hlen, if_pos (by omega), bytesOf, Option.elim_some, Element.bytes, List.length_append]
    rfl

/-- **The messages of the calls** are those that the table makes. -/
theorem encodeMessage_eq (isNtMode : Bool) (cd : CallDesc) (mask : Mask) (htelno : cstr cd.telno = cd.telno)
    (hcall : mask.callstate = true → cd.pstate ≠ none) :
    encodeMessage isNtMode cd mask = messageOf isNtMode (Desc.ofCall cd) mask.bits := by
  obtain ⟨h0, h1, h2, h3, h8, h9, h10, h11, h12, h13⟩ := selected_bits mask
  have hempty : ∀ id front, bytesOf (stringElement id front []) = [] := fun _ _ => rfl
  have hchannel : bytesOf (channelElement cd) = Dss1Lite.ieChannelId cd := by
    rw [channelElement]
    cases halloc : cd.channelAllocated with
    | true => exact (channelId_eq halloc).symm
    | false =>
      rw [Dss1Lite.ieChannelId, halloc]
      rfl
  have hstate : (if mask.callstate = true then
        ([0x14, 1, UInt8.ofNat ((cd.pstate.map StateEntry.q931State).getD 0)] : Mbuf) else []) =
      if mask.callstate = true then bytesOf (callstateElement cd) else [] := by
    by_cases hsel : mask.callstate = true
    · obtain ⟨st, hst⟩ := Option.ne_none_iff_exists'.mp (hcall hsel)
      rw [if_pos hsel, if_pos hsel, callstateElement, hst]
      rfl
    · rw [if_neg hsel, if_neg hsel]
  have hdate : bytesOf (dateElement ⟨0, List.replicate 8 0, rfl⟩) = [] := rfl
  have hend : chunks mask.bits [] = [] := rfl
  rw [← chunks_eq_messageOf, chunkTab, elementTab, encodeMessage]
  simp only [List.map_cons, List.map_nil, chunks_cons, h0, h1, h2, h3, h8, h9, h10, h11, h12, h13,
    Desc.ofCall, hempty, ite_self, List.nil_append, List.append_nil, if_true, hchannel, htelno,
    ← calledParty_eq htelno, ← deflect_eq htelno, hstate, hdate, hend, List.append_assoc, bearerCap_eq]
  rfl

/-- An I-frame is queued if there is room. -/
theorem Link.sendMbuf_data (l : Link) (isNtMode : Bool) {m : Mbuf} (h : peekMbuf m 2 % 2 = 0) :
    ((l.sendMbuf isNtMode m).2 = true ↔ l.inQueue < dlQueueMax - 1) ∧
    ((l.sendMbuf isNtMode m).2 = true → (l.sendMbuf isNtMode m).1.queued = l.queued ++ [m]) := by
  rw [Link.sendMbuf, if_pos h]
  split
  · rename_i hroom
    exact ⟨⟨fun _ => hroom, fun _ => rfl⟩, fun _ => rfl⟩
  · rename_i hroom
    exact ⟨⟨fun hf => Bool.noConfusion hf, fun hr => absurd hr hroom⟩, fun hf => Bool.noConfusion hf⟩

/-- **A message of a call**: it is queued as an I-frame if there is an mbuf and room, and then what is
queued is what the two passes write, a header and the elements that are selected and present. -/
theorem Lite.sendMessage_split (s : Lite) (i msgType : ℕ) (mask : Mask)
    (htelno : cstr (s.cd i).telno = (s.cd i).telno)
    (hcall : mask.callstate = true → (s.cd i).pstate ≠ none) :
    ((s.sendMessage i msgType mask).2 = true ↔ s.mem 0 = true ∧ s.link.inQueue < dlQueueMax - 1) ∧
    ((s.sendMessage i msgType mask).2 = true → ∃ cd m,
      (Desc.ofCall (s.cd i)).sendMessage s.isNtMode msgType mask.bits true = some (cd, .ok (m.map some)) ∧
      (s.sendMessage i msgType mask).1.link.queued = s.link.queued ++ [m] ∧
      m = header cd ++ Tlv.bytes (elements s.isNtMode cd mask.bits) ∧
      ∀ fuel, (elements s.isNtMode cd mask.bits).length < fuel →
        Tlv.split fuel (m.drop 8) = some (elements s.isNtMode cd mask.bits)) := by
  obtain ⟨hheader, -, -, -, -, hstatus, -⟩ := selected_bits mask
  let cd : CallDesc := { s.cd i with messageType := msgType }
  let m : Mbuf := messageOf s.isNtMode (Desc.ofCall cd) mask.bits
  have hm : m = header (Desc.ofCall cd) ++ Tlv.bytes (elements s.isNtMode (Desc.ofCall cd) mask.bits) :=
    congrArg (· ++ Tlv.bytes (elements s.isNtMode (Desc.ofCall cd) mask.bits)) (if_pos hheader)
  have hcd : (s.modify i fun cd => { cd with messageType := msgType }).cd i = cd :=
    Function.update_self i _ s.cd
  have hpasses : (Desc.ofCall (s.cd i)).sendMessage s.isNtMode msgType mask.bits true =
      some (Desc.ofCall cd, if m.length = 0 then .error true
        else if true = false then .error false else .ok (m.map some)) :=
    sendMessage_eq s.isNtMode (Desc.ofCall (s.cd i)) msgType mask.bits true
      fun h => hcall (hstatus.mp h)
  have hne : m.length ≠ 0 := by
    rw [hm, List.length_append]
    exact Nat.ne_of_gt (Nat.add_pos_left (Nat.succ_pos 7) _)
  have hencode : encodeMessage s.isNtMode cd mask = m := encodeMessage_eq s.isNtMode cd mask htelno hcall
  -- the octet of N(S) is still zero, so it is an I-frame
  have hframe : peekMbuf m 2 % 2 = 0 := by
    rw [hm]
    rfl
  rw [if_neg hne, if_neg (by decide)] at hpasses
  rw [Lite.sendMessage, hcd]
  cases hmem : s.mem 0 with
  | false =>
    have hnone : ¬ (s.modify i fun cd => { cd with messageType := msgType }).getmbuf.1 = true :=
      Bool.eq_false_iff.mp hmem
    rw [if_neg hnone]
    exact ⟨⟨fun h => Bool.noConfusion h, fun h => Bool.noConfusion h.1⟩, fun h => Bool.noConfusion h⟩
  | true =>
    have hsome : (s.modify i fun cd => { cd with messageType := msgType }).getmbuf.1 = true := hmem
    have henc : encodeMessage (s.modify i fun cd => { cd with messageType := msgType }).isNtMode cd mask
        = m := hencode
    rw [if_pos hsome, henc]
    obtain ⟨hroom, hqueued⟩ := Link.sendMbuf_data s.link s.isNtMode hframe
    refine ⟨⟨fun h => ⟨rfl, hroom.mp h⟩, fun h => hroom.mpr h.2⟩, fun h => ?_⟩
    refine ⟨_, m, hpasses, hqueued h, hm, fun fuel hfuel => ?_⟩
    have hdrop : m.drop 8 = Tlv.bytes (elements s.isNtMode (Desc.ofCall cd) mask.bits) := by
      rw [hm]
      rfl
    rw [hdrop]
    exact Tlv.split_bytes (valid_elements s.isNtMode (Desc.ofCall cd) mask.bits) hfuel

end Dss1Lite
end Isdn4bsd
