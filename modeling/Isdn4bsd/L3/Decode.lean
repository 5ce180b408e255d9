import Isdn4bsd.L3.Encode

/-!
# Layer 3: reading messages

The functions of `dss1_l3decoder.h` that read a message, up to what to do about it.

* `Buf` is `struct dss1_buffer`: a window of the memory, and an offset in it.  No function reads
  outside the window; what is not there reads as zero.
* `dss1DecodeIe` splits what is left of a message into information elements, and shows each one
  that is in codeset 0 to a function.
* `dss1DecodeQ931Cs0IeCd` is the function that stores an element in a call descriptor.
* `readStart` is what `dss1_pipe_data_ind` reads before it looks for the call.

## Windows

The window of a buffer can be made smaller for one element and moved on behind it, with offsets of 16 bits
that wrap.  A test of an offset (`dss1_get_valid`) is always made against the window, never against the
message, so an element whose length is too large is cut at the end of the message, and its function sees
fewer octetts than the length says.  Nothing is refused for that.

## Strings

`get_multi_1` copies what is left of a window into an array, with or without a filter that replaces what
cannot be in a telephone number.  `getMulti1` is what it writes, and its result: with the filter, how many
octetts there are up to the first zero, and without it all that were copied.  `getString` is the string the
array then holds.  The code for `dst_telno`, which is written through a pointer, does its arithmetic with the
result (`appendCalledpn`).
-/

set_option autoImplicit false

namespace Isdn4bsd
namespace L3

/-! ## Buffers -/

/-- `struct dss1_buffer`; offsets and lengths have 16 bits. -/
structure Buf where
  start : List UInt8
  offset : Nat
  len : Nat
  deriving DecidableEq, Repr

namespace Buf

/-- `dss1_buf_init`. -/
def init (start : List UInt8) : Buf := ⟨start, 0, start.length⟩

/-- `dss1_get_valid`. -/
def getValid (b : Buf) (offset : Nat) : Prop :=
  b.offset ≤ (offset + b.offset) % 2 ^ 16 ∧ (offset + b.offset) % 2 ^ 16 < b.len

instance (b : Buf) (offset : Nat) : Decidable (b.getValid offset) :=
  inferInstanceAs (Decidable (_ ∧ _))

/-- `dss1_get_1`. -/
def get1 (b : Buf) (offset : Nat) : Nat :=
  if b.getValid offset then (b.start.getD ((offset + b.offset) % 2 ^ 16) 0).toNat else 0

/-- `dss1_set_length`. -/
def setLength (b : Buf) (newLen : Nat) : Buf := if newLen < b.len then { b with len := newLen } else b

/-- The first loop of `get_multi_1`, with that many octetts to go. -/
def getBytes (b : Buf) : Nat → Nat → List UInt8
  | 0, _ => []
  | k + 1, offset =>
    if b.getValid offset then UInt8.ofNat (b.get1 offset) :: b.getBytes k ((offset + 1) % 2 ^ 16)
    else []

end Buf

/-- The characters that may be in a telephone number. -/
def isDigit (c : UInt8) : Bool :=
  (0x61 ≤ c && c ≤ 0x7a) || (0x41 ≤ c && c ≤ 0x5a) || (0x30 ≤ c && c ≤ 0x39) || c == 0x2a || c == 0x23

/-- The second loop: other characters of the string become underscores. -/
def filterString : List UInt8 → List UInt8
  | [] => []
  | c :: cs => if c = 0 then c :: cs else (if isDigit c then c else 0x5f) :: filterString cs

/-- `get_multi_1` with room for `len` octetts: what is written, and the result. -/
def getMulti1 (b : Buf) (offset len : Nat) (filter : Bool) : List UInt8 × Nat :=
  if len = 0 then ([], 0)
  else
    let bytes := b.getBytes (len - 1) offset
    if filter then
      let written := filterString bytes ++ [0]
      (written, (cstr written).length)
    else (bytes ++ [0], bytes.length)

/-- The string that `get_multi_1` leaves in an array of `len` octetts. -/
def getString (b : Buf) (offset len : Nat) (filter : Bool) : Str :=
  cstr (getMulti1 b offset len filter).1

/-- Octetts are written into memory. -/
def writeAt (mem : List UInt8) (offset : Nat) (bytes : List UInt8) : List UInt8 :=
  mem.take offset ++ bytes ++ mem.drop (offset + bytes.length)

/-! ## One information element -/

/-- The bearer capability, as `channel_bprot`. -/
def decodeBprot (temp : Nat) : Nat :=
  if temp = 0x90 then bprotNone31Khz
  else if temp = 0x80 ∨ temp = 0x89 then bprotNone
  else if temp = 0x88 then bprotRhdlc
  else bprotNone

/-- The bearer capability, as `channel_bsubprot`. -/
def decodeBsubprot (temp : Nat) : Nat :=
  if temp &&& 0x1f = 0x02 then bsubprotG711Ulaw
  else if temp &&& 0x1f = 0x03 then bsubprotG711Alaw
  else bsubprotUnknown

/-- The channel identification, as `channel_id`; the old one stays where no channel is named, or
where the one that is named is not the only one that will do. -/
def decodeChannelId (env : Env) (ntMode : Bool) (b : Buf) (channelId : Int) : Int :=
  let temp := b.get1 2
  let exclusive := temp &&& 0x08 ≠ 0 ∨ ntMode = false
  let iid := temp &&& 0x40 ≠ 0
  if temp &&& 0x04 ≠ 0 then if exclusive then chanD1 else channelId
  else if temp &&& 0x20 ≠ 0 then
    -- primary rate
    if temp &&& 0x03 = 3 then chanAny
    else if temp &&& 0x03 = 1 then
      if b.get1 (if iid then 4 else 3) &&& 0x2f = 0x03 ∧ exclusive then
        env.decodeChannel (b.get1 (if iid then 5 else 4) &&& 0x7f : Nat)
      else channelId
    else if temp &&& 0x03 = 0 then chanNotAny
    else channelId
  else
    -- basic rate
    if temp &&& 0x03 = 0 then chanNotAny
    else if temp &&& 0x03 = 3 then chanAny
    else if exclusive then if temp &&& 0x03 = 1 then chanB1 else chanB2
    else channelId

/-- The type of a number. -/
def decodeTon (temp : Nat) : Nat :=
  if (temp &&& 0x70) >>> 4 = 1 then tonInternat
  else if (temp &&& 0x70) >>> 4 = 2 then tonNational
  else tonOther

/-- A calling party number. -/
def decodeCallingpn (b : Buf) (src : SrcTelno) : SrcTelno :=
  let temp := b.get1 2
  if temp &&& 0x80 ≠ 0 then
    { src with
      ton := decodeTon temp
      scrInd := scrNone
      prsInd := prsNone
      telno := getString b 3 telnoMax true }
  else
    { src with
      ton := decodeTon temp
      scrInd := (b.get1 3 &&& 0x03) + scrUsrNosc
      prsInd := ((b.get1 3 >>> 5) &&& 0x03) + prsAllowed
      telno := getString b 4 telnoMax true }

/-- A called party number of an incoming call: its digits are appended to those received before. -/
def appendCalledpn (b : Buf) (cd : CallDesc) : CallDesc :=
  let r := getMulti1 b 3 (telnoMax - cd.dstTelnoPtr) true
  { cd with
    dstTon := decodeTon (b.get1 2)
    dstTelno := writeAt cd.dstTelno cd.dstTelnoPtr r.1
    dstTelnoPtr := cd.dstTelnoPtr + r.2 }

/-- `dss1_decode_q931_cs0_ie_cd`. -/
def dss1DecodeQ931Cs0IeCd (env : Env) (ntMode : Bool) (cd : CallDesc) (b : Buf) : CallDesc :=
  let temp := b.get1 2
  let msgType := b.get1 0
  if msgType &&& 0x80 ≠ 0 then
    if msgType = ieiSendcompl.toNat ∧ cd.dirIncoming then { cd with sendingComplete := true } else cd
  else if msgType = ieiBearercap.toNat then
    if cd.dirIncoming then
      { cd with channelBprot := decodeBprot temp, channelBsubprot := decodeBsubprot (b.get1 4) }
    else cd
  else if msgType = ieiCause.toNat then
    { cd with causeIn := b.get1 (if temp &&& 0x80 ≠ 0 then 3 else 4) &&& 0x7f }
  else if msgType = ieiCallstate.toNat then { cd with callState := temp &&& 0x3f }
  else if msgType = ieiChannelId.toNat then
    if cd.channelAllocated then cd
    else { cd with channelId := decodeChannelId env ntMode b cd.channelId }
  else if msgType = ieiProgressi.toNat then
    let progress := b.get1 3 &&& 0x7f
    if progress = 1 ∨ progress = 2 ∨ progress = 3 then { cd with notEndToEndDigital := true }
    else if progress = 4 then { cd with notEndToEndDigital := false }
    else cd
  else if msgType = ieiDisplay.toNat then
    -- the room is `sizeof(cd->display[0])`
    { cd with display := getString b 2 1 true }
  else if msgType = ieiDatetime.toNat then
    if cd.dirIncoming ∨ ntMode then cd
    else
      { cd with
        idateTimeLen := 6
        idateTime := [2, 3, 4, 5, 6, 7].map fun k => UInt8.ofNat (b.get1 k) }
  else if msgType = ieiCallingpn.toNat then
    if cd.dirIncoming = false then cd
    else if cd.receivedSrcTelno1 then
      { cd with receivedSrcTelno2 := true, src1 := decodeCallingpn b cd.src1 }
    else { cd with receivedSrcTelno1 := true, src0 := decodeCallingpn b cd.src0 }
  else if msgType = ieiCallingps.toNat then
    if cd.dirIncoming = false then cd
    else if cd.receivedSrcTelno2 then
      { cd with src1 := { cd.src1 with subaddr := getString b 3 subaddrMax true } }
    else { cd with src0 := { cd.src0 with subaddr := getString b 3 subaddrMax true } }
  else if msgType = ieiCalledpn.toNat then
    let cd := if cd.dirIncoming then appendCalledpn b cd else cd
    { cd with dstTelnoPart := getString b 3 telnoMax true }
  else if msgType = ieiCalledps.toNat then
    if cd.dirIncoming then { cd with dstSubaddr := getString b 3 subaddrMax true } else cd
  else if msgType = ieiUseruser.toNat then { cd with userUser := getString b 2 userUserMax false }
  else cd

/-! ## All information elements -/

/-- The loop of `dss1_decode_ie`, with that many rounds left, in a codeset and with the one that
comes next. -/
def decodeIeLoop {α : Type} (f : α → Buf → α) : Nat → Nat → Nat → α → Buf → α
  | 0, _, _, a, _ => a
  | fuel + 1, codeset, next, a, b =>
    if b.getValid 0 then
      let msgType := b.get1 0
      let msgLen := if msgType &&& 0x80 = 0 then b.get1 1 + 2 else 1
      let w := b.setLength ((b.offset + msgLen) % 2 ^ 16)
      let a := if codeset = 0 then f a w else a
      let b := { b with offset := w.len }
      if msgType &&& 0xf0 = 0x90 then
        let shifted := msgType &&& 0x07
        decodeIeLoop f fuel shifted (if msgType &&& 0x08 ≠ 0 then shifted else codeset) a b
      else decodeIeLoop f fuel next next a b
    else a

/-- `dss1_decode_ie`.  An element has one octett at least, so there are no more rounds than
octetts. -/
def dss1DecodeIe {α : Type} (f : α → Buf → α) (a : α) (b : Buf) : α :=
  decodeIeLoop f b.len 0 0 a b

/-! ## The start of a message -/

/-- What `dss1_pipe_data_ind` reads before it looks for the call: the call reference with its flag
inverted, the message type, and the buffer at the information elements. -/
structure Start where
  crval : Nat
  mt : Nat
  elements : Buf

/-- The call reference and the message type, after the protocol discriminator. -/
def readStart (b : Buf) : Start :=
  let b := { b with offset := (b.offset + 1) % 2 ^ 16 }
  let len := b.get1 0 &&& 0x0f
  let cr := [min len 4, b.get1 1, b.get1 2, b.get1 3, b.get1 4].map UInt8.ofNat
  let b' := { b with offset := (b.offset + len + 1) % 2 ^ 16 }
  { crval := L2.getCallreference cr ^^^ 0x80
    mt := b'.get1 0 &&& 0x7f
    elements := { b' with offset := (b'.offset + 1) % 2 ^ 16 } }

end L3
end Isdn4bsd
