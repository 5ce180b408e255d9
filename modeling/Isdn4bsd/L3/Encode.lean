import Isdn4bsd.L3.Types

/-!
# Layer 3: sending messages

The functions of `dss1_l3encoder.h`.  A message is the protocol discriminator, the call reference,
the message type and then information elements, each with an identifier and, if it is longer than
one octett, a length.

## Lengths

The functions write each length before they write what follows it, as a constant or from the length
of a string, and only `IEI_channelid` looks at what it has written.  That the lengths are right is
therefore a property of these functions: `bearer_eq`, `callingNumber_eq` and `stringElement_eq` have it for
the parts of a SETUP, and `L3.Messages` for all messages.

* `putElement` : an element with the length octett that is written, whatever follows.
* `stringElement` : the same for an element that ends with a string: the source adds a constant to the
  length of the string, for the octetts that it has written before it.

## Messages

* `setupMessage` and `message` are the bytes of a message, and `messageByPipeCr` those of one that
  belongs to no call.
* `dss1L3TxSetup`, `dss1L3TxMessage` and the rest ask for a buffer and hand the bytes to layer 2.  Without a
  buffer nothing is sent; the source only prints that.
* The messages by name are `message` with the flags that the source gives.  Those with a cause of their own
  set `cause_out` for the message and clear it afterwards (`txWithCause`).

A cause that `i4b_make_q850_cause` does not know makes the kernel panic.  This is why `causeElement` and
`message` may have no result; who puts such a cause into a descriptor is the subject of
`Isdn4bsd.L3.Causes`.
-/

set_option autoImplicit false

namespace Isdn4bsd
namespace L3

open L2 (PipeNo adapter pdQ931)

/-! ## Information elements -/

/-- `IEI_SENDCOMPL` and the identifiers of the elements that are longer. -/
def ieiSendcompl : UInt8 := 0xa1
def ieiBearercap : UInt8 := 0x04
def ieiCause : UInt8 := 0x08
def ieiCallstate : UInt8 := 0x14
def ieiChannelId : UInt8 := 0x18
def ieiFacility : UInt8 := 0x1c
def ieiProgressi : UInt8 := 0x1e
def ieiDisplay : UInt8 := 0x28
def ieiDatetime : UInt8 := 0x29
def ieiKeypad : UInt8 := 0x2c
def ieiCallingpn : UInt8 := 0x6c
def ieiCallingps : UInt8 := 0x6d
def ieiCalledpn : UInt8 := 0x70
def ieiCalledps : UInt8 := 0x71
def ieiRestarti : UInt8 := 0x79
def ieiUseruser : UInt8 := 0x7e

/-- `NUMBER_TYPE_NSAP` and `NUMBER_TYPE_PLAN`. -/
def numberTypeNsap : UInt8 := 0x80
def numberTypePlan : UInt8 := 0x81

/-- `IEI_BEARERCAP_LEN` and the lengths of the other elements, of which those with a string have it
besides. -/
def ieiBearercapLen : Nat := 2
def ieiCauseLen : Nat := 2
def ieiCallstateLen : Nat := 1
def numberTypeLen : Nat := 1
def ieiUseruserLen : Nat := 0

/-- An element of more than one octett, with the length octett that is written. -/
def putElement (iei : UInt8) (len : Nat) (content : List UInt8) : List UInt8 :=
  iei :: UInt8.ofNat len :: content

/-- An element whose length octett tells how long it is. -/
def element (iei : UInt8) (content : List UInt8) : List UInt8 := putElement iei content.length content

/-- An element for a string, after some octetts of its own, of which it says how many there are; it
is left out if the string is empty. -/
def stringElement (iei : UInt8) (more : Nat) (lead : List UInt8) (str : Str) : List UInt8 :=
  if str = [] then [] else putElement iei (more + str.length) (lead ++ str)

/-- With the right number it tells how long it is. -/
theorem stringElement_eq (iei : UInt8) (lead : List UInt8) (str : Str) :
    stringElement iei lead.length lead str = if str = [] then [] else element iei (lead ++ str) := by
  rw [stringElement, element, List.length_append]

/-- The octett for a channel, with `ext_exclusive`. -/
def channelOctet (channelId : Int) : UInt8 :=
  if channelId = chanNotAny then 0x00 ||| 0x88
  else if channelId = chanD1 then 0x04 ||| 0x88
  else if channelId = chanB1 then 0x01 ||| 0x88
  else if channelId = chanB2 then 0x02 ||| 0x88
  else 0x03 ||| 0x88

/-- `IEI_channelid`: the length is put in when the element is complete. -/
def ieiChannelid (env : Env) (primaryRate : Bool) (channelId : Int) : List UInt8 :=
  element ieiChannelId
    (if primaryRate then
      if chanB1 ≤ channelId then
        [((channelOctet channelId ||| 0x20) &&& 0xfc) ||| 0x01, 0x80 ||| 0x03,
          UInt8.ofInt (env.encodeChannel channelId) ||| 0x80]
      else [channelOctet channelId ||| 0x20]
    else [channelOctet channelId])

/-- `I4B_CAUSES_Q850_CONV`. -/
def i4bCausesQ850Conv : List UInt8 :=
  [0x10, 0x11, 0x22, 0x58, 0x15, 0x1b, 0x29, 0x11, 0x11, 0x11]

/-- `i4b_make_q850_cause`; there is no result where it panics. -/
def i4bMakeQ850Cause (cause : Nat) : Option UInt8 :=
  let val := cause % 256
  match cause / 256 % 256 with
  | 0 => some (UInt8.ofNat (val % 128))
  | 1 => some (i4bCausesQ850Conv.getD (if i4bCausesQ850Conv.length ≤ val then 0 else val) 0)
  | _ => none

/-! ## Call references -/

/-- The number of octetts of a call reference; primary rate requires two. -/
def callreferenceLength (primaryRate : Bool) (cr : Nat) : Nat :=
  let len :=
    if cr &&& 0xff000000 ≠ 0 then 4
    else if cr &&& 0x00ff0000 ≠ 0 then 3
    else if cr &&& 0x0000ff00 ≠ 0 then 2
    else 1
  if primaryRate ∧ len < 2 then 2 else len

/-- The octetts, the lowest one first. -/
def callreferenceBytes : Nat → Nat → List UInt8
  | 0, _ => []
  | len + 1, cr => UInt8.ofNat cr :: callreferenceBytes len (cr / 256)

/-- `make_callreference`. -/
def makeCallreference (primaryRate : Bool) (cr : Nat) : List UInt8 :=
  let len := callreferenceLength primaryRate cr
  UInt8.ofNat len :: callreferenceBytes len cr

/-- What a message starts with. -/
def header (primaryRate : Bool) (cr : Nat) (messageType : UInt8) : List UInt8 :=
  pdQ931 :: (makeCallreference primaryRate cr ++ [messageType])

/-! ## SETUP -/

/-- The octett for the coding of speech, in a bearer capability. -/
def bearerLayer1 (bsubprot : Nat) : UInt8 :=
  if bsubprot = bsubprotG711Alaw then 0xa3
  else if bsubprot = bsubprotG711Ulaw then 0xa2
  else 0xa0

/-- The bearer capability. -/
def bearer (bprot bsubprot : Nat) : List UInt8 :=
  if bprot = bprotNone31Khz then
    putElement ieiBearercap (ieiBearercapLen + 1) [0x90, 0x90, bearerLayer1 bsubprot]
  else if bprot = bprotNone ∨ bprot = bprotRhdlcDov then
    putElement ieiBearercap (ieiBearercapLen + 1) [0x80, 0x90, bearerLayer1 bsubprot]
  else putElement ieiBearercap ieiBearercapLen [0x88, 0x90]

/-- The two lengths are right. -/
theorem bearer_eq (bprot bsubprot : Nat) :
    bearer bprot bsubprot = element ieiBearercap
      (if bprot = bprotNone31Khz then [0x90, 0x90, bearerLayer1 bsubprot]
      else if bprot = bprotNone ∨ bprot = bprotRhdlcDov then [0x80, 0x90, bearerLayer1 bsubprot]
      else [0x88, 0x90]) := by
  rw [bearer]
  split
  · rfl
  · split
    · rfl
    · rfl

/-- Type of number and numbering plan. -/
def numberType (ton : Nat) : UInt8 :=
  if ton = tonInternat then numberTypePlan ||| 0x10
  else if ton = tonNational then numberTypePlan ||| 0x20
  else numberTypePlan

/-- Presentation and screening indicator. -/
def screening (src : SrcTelno) : UInt8 :=
  let temp : UInt8 := 0x80 ||| if src.prsInd = prsRestrict then 0x20 else 0x00
  if src.scrInd = scrUsrPass then temp ||| 0x01
  else if src.scrInd = scrUsrFail then temp ||| 0x02
  else if src.scrInd = scrNet then temp ||| 0x03
  else temp

/-- A calling party number; 2 or 1 is added to the length of the string. -/
def callingNumber (src : SrcTelno) : List UInt8 :=
  if src.prsInd ≠ prsNone ∨ src.scrInd ≠ scrNone then
    stringElement ieiCallingpn 2 [numberType src.ton &&& 0x7f, screening src] src.telno
  else stringElement ieiCallingpn 1 [numberType src.ton] src.telno

/-- What a calling party number has before the digits. -/
def callingLead (src : SrcTelno) : List UInt8 :=
  if src.prsInd ≠ prsNone ∨ src.scrInd ≠ scrNone then
    [numberType src.ton &&& 0x7f, screening src]
  else [numberType src.ton]

/-- It has as many octetts as are added. -/
theorem callingNumber_eq (src : SrcTelno) :
    callingNumber src =
      stringElement ieiCallingpn (callingLead src).length (callingLead src) src.telno := by
  rw [callingNumber, callingLead]
  split
  · rfl
  · rfl

/-- One round of `repeat_src_telno`. -/
def callingParty (src : SrcTelno) : List UInt8 :=
  callingNumber src ++ stringElement ieiCallingps numberTypeLen [numberTypeNsap] src.subaddr

/-- The elements of the message that `dss1_l3_tx_setup` sends. -/
def setupElements (env : Env) (primaryRate : Bool) (cd : CallDesc) : List UInt8 :=
  (if cd.sendingComplete then [ieiSendcompl] else [])
    ++ bearer cd.channelBprot cd.channelBsubprot
    ++ (if cd.channelAllocated then ieiChannelid env primaryRate cd.channelId else [])
    ++ stringElement ieiKeypad 0 [] cd.keypad
    ++ callingParty cd.src0
    ++ callingParty cd.src1
    ++ stringElement ieiCalledpn numberTypeLen [numberTypePlan] (cstr cd.dstTelno)
    ++ stringElement ieiCalledps numberTypeLen [numberTypeNsap] cd.dstSubaddr
    ++ stringElement ieiUseruser ieiUseruserLen [] cd.userUser
    ++ stringElement ieiDisplay 0 [] cd.display

/-- That message. -/
def setupMessage (env : Env) (primaryRate : Bool) (cd : CallDesc) : List UInt8 :=
  header primaryRate cd.cr mtSetup ++ setupElements env primaryRate cd

/-! ## Other messages -/

/-- The flags `L3_TX_*`. -/
structure Tx where
  cause : Bool := false
  callstate : Bool := false
  channelid : Bool := false
  calledpn : Bool := false
  progressi : Bool := false
  deflect : Bool := false
  mcidReq : Bool := false
  dateTime : Bool := false
  deriving DecidableEq, Repr

/-- `CAUSE_STD_LOC_PUBLIC` or `CAUSE_STD_LOC_OUT`. -/
def location (ntMode : Bool) : UInt8 := if ntMode then 0x82 else 0x80

/-- The invocation of a call deflection. -/
def deflection (telno : Str) : List UInt8 :=
  let len := telno.length
  if telno = [] then []
  else
    [ieiFacility, UInt8.ofNat (0x10 + len), 0x91, 0xa1, UInt8.ofNat (0x0d + len), 0x02, 0x02, 0x22,
      0x00, 0x02, 0x01, 0x0d, 0x30, UInt8.ofNat (0x04 + len), 0x30, UInt8.ofNat (0x02 + len), 0x80,
      UInt8.ofNat len] ++ telno

/-- The invocation of a malicious call identification. -/
def mcidRequest : List UInt8 :=
  [ieiFacility, 0x0a, 0x91, 0xa1, 0x07, 0x02, 0x02, 0x22, 0x00, 0x02, 0x01, 0x03]

/-- The cause element, unless `i4b_make_q850_cause` panics. -/
def causeElement (ntMode : Bool) (cause : Nat) : Option (List UInt8) :=
  (i4bMakeQ850Cause cause).map fun c => putElement ieiCause ieiCauseLen [location ntMode, c ||| 0x80]

/-- The elements of a message, after its cause. -/
def messageElements (env : Env) (ntMode primaryRate : Bool) (cd : CallDesc) (f : Tx) : List UInt8 :=
  (if f.callstate then putElement ieiCallstate ieiCallstateLen [cd.state.q931Conv] else [])
    ++ (if f.channelid ∧ cd.channelAllocated then ieiChannelid env primaryRate cd.channelId else [])
    ++ (if f.progressi then putElement ieiProgressi 2 [location ntMode, 0x88] else [])
    ++ (if f.calledpn then
          stringElement ieiCalledpn numberTypeLen [numberTypePlan] cd.dstTelnoEarly else [])
    ++ (if f.deflect then deflection cd.dstTelnoPart else [])
    ++ (if f.mcidReq then mcidRequest else [])
    ++ (if f.dateTime ∧ cd.odateTimeLen ≠ 0 then
          let len := min cd.odateTimeLen 8
          putElement ieiDatetime len (cd.odateTime.toList.take len)
        else [])

/-- The message that `dss1_l3_tx_message` sends. -/
def message (env : Env) (ntMode primaryRate : Bool) (cd : CallDesc) (messageType : UInt8) (f : Tx) :
    Option (List UInt8) :=
  (if f.cause then causeElement ntMode cd.causeOut else some []).map fun cause =>
    header primaryRate cd.cr messageType ++ cause ++ messageElements env ntMode primaryRate cd f

/-- The message that `dss1_l3_tx_message_by_pipe_cr` sends: with a cause, or with a restart
indication. -/
def messageByPipeCr (ntMode primaryRate : Bool) (cr : Nat) (messageType : UInt8)
    (causeOut restartIndication : Option Nat) : Option (List UInt8) :=
  (causeOut.elim (some []) (causeElement ntMode)).map fun cause =>
    header primaryRate cr messageType ++ cause ++
      restartIndication.elim [] fun r => putElement ieiRestarti 1 [UInt8.ofNat r ||| 0x80]

namespace Cntl

variable {n : Nat}

/-! ## Handing a message to layer 2 -/

/-- `dss1_pipe_data_req`. -/
def dss1PipeDataReq (s : Cntl n) (p : PipeNo) (body : List UInt8) : Cntl n :=
  s.put (.down (.request (.dataReq p body)))

/-- `dss1_l3_tx_setup`. -/
def dss1L3TxSetup (env : Env) (s : Cntl n) (i : Fin n) : Cntl n :=
  let cd := s.cd i
  let r := s.ask
  if env.avail r.1 then
    match cd.pipe with
    | none => r.2.halt
    | some p =>
      let len := (cstr cd.dstTelno).length
      (r.2.modify i fun cd => { cd with dstTelnoPtr := if len ≠ 0 then len else cd.dstTelnoPtr })
        |>.dss1PipeDataReq p (setupMessage env s.primaryRate cd)
  else r.2

/-- `dss1_l3_tx_message` for the call, through a pipe of its own or another one. -/
def txThrough (env : Env) (s : Cntl n) (i : Fin n) (p : PipeNo) (messageType : UInt8) (f : Tx) :
    Cntl n :=
  let cd := s.cd i
  let r := s.ask
  if env.avail r.1 then
    match message env s.ntMode s.primaryRate cd messageType f with
    | none => r.2.halt
    | some body =>
      (r.2.modify i fun cd =>
          { cd with odateTimeLen := if f.dateTime then min cd.odateTimeLen 8 else cd.odateTimeLen })
        |>.dss1PipeDataReq p body
  else r.2

/-- `dss1_l3_tx_message`. -/
def dss1L3TxMessage (env : Env) (s : Cntl n) (i : Fin n) (messageType : UInt8) (f : Tx) : Cntl n :=
  match (s.cd i).pipe with
  | none => s.halt
  | some p => s.txThrough env i p messageType f

/-- `dss1_l3_tx_message_complement`: the message goes to every pipe that is not skipped and does not
pause. -/
def dss1L3TxMessageComplement (env : Env) (s : Cntl n) (i : Fin n) (skip1 skip2 : Option PipeNo)
    (messageType : UInt8) (f : Tx) : Cntl n :=
  (List.finRange 16).foldl
    (fun s p =>
      if some p ≠ skip1 ∧ some p ≠ skip2 ∧ s.paused p = false then s.txThrough env i p messageType f
      else s)
    s

/-- `dss1_l3_tx_message_by_pipe_cr`. -/
def dss1L3TxMessageByPipeCr (env : Env) (s : Cntl n) (p : PipeNo) (cr : Nat) (messageType : UInt8)
    (causeOut restartIndication : Option Nat) : Cntl n :=
  let r := s.ask
  if env.avail r.1 then
    match messageByPipeCr s.ntMode s.primaryRate cr messageType causeOut restartIndication with
    | none => r.2.halt
    | some body => r.2.dss1PipeDataReq p body
  else r.2

/-! ## The messages by name -/

def dss1L3TxAlert (env : Env) (s : Cntl n) (i : Fin n) : Cntl n :=
  s.dss1L3TxMessage env i mtAlert {}

def dss1L3TxSetupAcknowledge (env : Env) (s : Cntl n) (i : Fin n) (chanId progress : Bool) : Cntl n :=
  s.dss1L3TxMessage env i mtSetupAcknowledge ⟨false, false, chanId, false, progress, false, false,
    false⟩

def dss1L3TxCallProceeding (env : Env) (s : Cntl n) (i : Fin n) (chanId progress : Bool) : Cntl n :=
  s.dss1L3TxMessage env i mtCallProceeding ⟨false, false, chanId, false, progress, false, false,
    false⟩

def dss1L3TxInformation (env : Env) (s : Cntl n) (i : Fin n) : Cntl n :=
  s.dss1L3TxMessage env i mtInformation { calledpn := true }

def dss1L3TxConnect (env : Env) (s : Cntl n) (i : Fin n) (dateTime : Bool) : Cntl n :=
  s.dss1L3TxMessage env i mtConnect ⟨false, false, false, false, false, false, false, dateTime⟩

def dss1L3TxConnectAcknowledge (env : Env) (s : Cntl n) (i : Fin n) : Cntl n :=
  s.dss1L3TxMessage env i mtConnectAcknowledge {}

def dss1L3TxReleaseComplete (env : Env) (s : Cntl n) (i : Fin n) : Cntl n :=
  s.dss1L3TxMessage env i mtReleaseComplete { cause := true }

def dss1L3TxReleaseCompleteComplement (env : Env) (s : Cntl n) (i : Fin n)
    (skip1 skip2 : Option PipeNo) : Cntl n :=
  s.dss1L3TxMessageComplement env i skip1 skip2 mtReleaseComplete { cause := true }

def dss1L3TxStatusEnquiry (env : Env) (s : Cntl n) (i : Fin n) : Cntl n :=
  s.dss1L3TxMessage env i mtStatusEnquiry {}

def dss1L3TxProgress (env : Env) (s : Cntl n) (i : Fin n) : Cntl n :=
  s.dss1L3TxMessage env i mtProgress { progressi := true }

def dss1L3TxHold (env : Env) (s : Cntl n) (i : Fin n) : Cntl n :=
  s.dss1L3TxMessage env i mtHold {}

def dss1L3TxHoldAcknowledge (env : Env) (s : Cntl n) (i : Fin n) : Cntl n :=
  s.dss1L3TxMessage env i mtHoldAcknowledge {}

def dss1L3TxRetrieve (env : Env) (s : Cntl n) (i : Fin n) : Cntl n :=
  s.dss1L3TxMessage env i mtRetrieve {}

def dss1L3TxRetrieveAcknowledge (env : Env) (s : Cntl n) (i : Fin n) : Cntl n :=
  s.dss1L3TxMessage env i mtRetrieveAcknowledge { channelid := true }

def dss1L3TxDeflectCall (env : Env) (s : Cntl n) (i : Fin n) : Cntl n :=
  s.dss1L3TxMessage env i mtFacility { deflect := true }

def dss1L3TxMcidCall (env : Env) (s : Cntl n) (i : Fin n) : Cntl n :=
  s.dss1L3TxMessage env i mtFacility { mcidReq := true }

/-- A message with a cause of its own: `cause_out` is set for it, and cleared afterwards. -/
def txWithCause (env : Env) (s : Cntl n) (i : Fin n) (messageType : UInt8) (f : Tx) (cause : Nat) :
    Cntl n :=
  ((s.modify i fun cd => { cd with causeOut := cause }).dss1L3TxMessage env i messageType f).modify i
    fun cd => { cd with causeOut := 0 }

def dss1L3TxStatus (env : Env) (s : Cntl n) (i : Fin n) (cause : Nat) : Cntl n :=
  s.txWithCause env i mtStatus { cause := true, callstate := true } cause

def dss1L3TxHoldReject (env : Env) (s : Cntl n) (i : Fin n) (cause : Nat) : Cntl n :=
  s.txWithCause env i mtHoldReject { cause := true } cause

def dss1L3TxRetrieveReject (env : Env) (s : Cntl n) (i : Fin n) (cause : Nat) : Cntl n :=
  s.txWithCause env i mtRetrieveReject { cause := true } cause

end Cntl

end L3
end Isdn4bsd
