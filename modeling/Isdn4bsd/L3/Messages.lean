import Isdn4bsd.L3.Setup
import Isdn4bsd.L3.Strings

/-!
# Layer 3: the messages that are sent

A message is a list of elements, and each length in it is that of what follows.  The functions that
send messages write the lengths as they go, some as constants and some from the length of a string.
Here the elements are given as they are meant, an identifier and a content, and the messages are
those of these elements, with the lengths that they should have.

* `Item`: an element as it is meant; `setupItems` and `messageItems` are those of a message.
* `Ber`: what is in a FACILITY element, component in component.
* `Parses`: `dss1_decode_ie` steps over the elements of a message, one after the other, to its end.
* `WellFormed`: it does so, the lengths are right, and the message fits its buffer.
* `messages_wellFormed`: **all messages are well formed**, whatever the descriptors hold.

## What is proved, and from what

For each element that the encoder writes there is a lemma that its octetts are those of an `Item`, with the
length that the item has (`bytes_bearerItem`, `flatMap_callingItems`, ...); this is where the constants of
`Isdn4bsd.L3.Encode` are checked.  A FACILITY element has lengths inside of its content, one inside the other,
which a call deflection computes from the number of digits; `ber_deflectionComponent` says that they nest.

A list of items is split into these items by the loop of the decoder, whatever is in them (`parses_items`).

That everything fits, in the element, whose length has one octett, and in the buffer of the message, is not
checked by the encoder at all.  It comes from the strings of the descriptors, which fit their arrays at
any time (`Isdn4bsd.L3.Strings`), so the theorem is about all messages that can be sent in a run.
-/

set_option autoImplicit false

namespace Isdn4bsd
namespace L3

/-! ## Elements as they are meant

`Item` is an element before it is written.  `Item.Ok` is what it needs to be found again: the first octett
tells what kind of element it is, and the length is one octett.
-/

/-- An element: a single octett, or an identifier and what follows the length. -/
inductive Item where
  | single (t : UInt8)
  | multi (iei : UInt8) (content : List UInt8)
  deriving DecidableEq, Repr

namespace Item

def bytes : Item → List UInt8
  | single t => [t]
  | multi iei content => element iei content

/-- The item can be told by its first octett, is no shift, and has a length of one octett. -/
def Ok : Item → Prop
  | single t => t.toNat &&& 0x80 ≠ 0 ∧ t.toNat &&& 0xf0 ≠ 0x90
  | multi iei content => iei.toNat &&& 0x80 = 0 ∧ content.length < 256

/-- The decoder takes the item for an element. -/
theorem Ok.isElement {x : Item} (h : x.Ok) : IsElement x.bytes := by
  cases x with
  | single t => exact .single t h.1 h.2
  | multi iei content => exact .multi iei content h.1 h.2

theorem bytes_length_pos (x : Item) : 0 < x.bytes.length := by
  cases x with
  | single t => exact Nat.one_pos
  | multi iei content => exact Nat.succ_pos _

/-- An element for a string, if there is one. -/
def ofString (iei : UInt8) (lead : List UInt8) (str : Str) : List Item :=
  if str = [] then [] else [multi iei (lead ++ str)]

theorem flatMap_ofString (iei : UInt8) (lead : List UInt8) (str : Str) :
    (ofString iei lead str).flatMap bytes = stringElement iei lead.length lead str := by
  rw [ofString, stringElement_eq]
  split
  · rfl
  · exact List.append_nil _

end Item

/-! ## Splitting

The decoder is given a message in memory and makes a window of each element that it finds.  That the
windows are the items that were written is shown along the list of items, with whatever stands before.
-/

/-- From there on, `dss1_decode_ie` steps over these elements in codeset 0, each in a window of its
own, comes to the end, and shows them to its function. -/
structure Parses (mem : List UInt8) (offset : Nat) (xs : List Item) (steps : List (Nat × Buf)) :
    Prop where
  windows : List.Forall₂ (fun step x => step.1 = 0 ∧ step.2.Shows x.bytes) steps xs
  consumed : ∀ fuel, mem.length < offset + fuel →
    decodeIeSteps fuel 0 0 ⟨mem, offset, mem.length⟩ = some (steps, ⟨mem, mem.length, mem.length⟩)
  shown : ∀ {α : Type} (f : α → Buf → α) (a : α),
    dss1DecodeIe f a ⟨mem, offset, mem.length⟩ = steps.foldl (dispatch f) a

/-- The elements are found, each in its own window. -/
theorem decodeIeSteps_items {mem : List UInt8} (hlen : mem.length < 2 ^ 15) :
    ∀ (xs : List Item) (offset : Nat), (∀ x ∈ xs, x.Ok) → offset ≤ mem.length →
      mem.drop offset = xs.flatMap Item.bytes → ∃ steps, offset + steps.length ≤ mem.length ∧
        List.Forall₂ (fun step x => step.1 = 0 ∧ step.2.Shows x.bytes) steps xs ∧
        ∀ fuel, mem.length < offset + fuel →
          decodeIeSteps fuel 0 0 ⟨mem, offset, mem.length⟩ =
            some (steps, ⟨mem, mem.length, mem.length⟩)
  | [], offset, _, hoff, hmem => by
    have hcount := congrArg List.length hmem
    rw [List.length_drop, List.flatMap_nil, List.length_nil] at hcount
    obtain rfl : offset = mem.length := by omega
    refine ⟨[], le_refl _, .nil, fun fuel hfuel => ?_⟩
    obtain ⟨k, rfl⟩ := Nat.exists_eq_add_of_le' (show 1 ≤ fuel by omega)
    refine decodeIeSteps_of_invalid (fun hv => ?_) _ _ _
    have := hv.2
    simp only at this
    rw [Nat.mod_eq_of_lt (by omega)] at this
    omega
  | x :: xs, offset, hok, hoff, hmem => by
    rw [List.flatMap_cons] at hmem
    obtain ⟨hvalid, hcut, hshows, hshift⟩ := (hok x List.mem_cons_self).isElement.cut hmem hoff hlen
    have hcount := congrArg List.length hmem
    rw [List.length_drop, List.length_append] at hcount
    have hpos := x.bytes_length_pos
    have hdrop : mem.drop (offset + x.bytes.length) = xs.flatMap Item.bytes := by
      rw [← List.drop_drop, hmem, List.drop_left]
    obtain ⟨steps, hin, hall, hsteps⟩ := decodeIeSteps_items hlen xs (offset + x.bytes.length)
      (fun y hy => hok y (List.mem_cons_of_mem _ hy)) (by omega) hdrop
    refine ⟨(0, ⟨mem, offset, offset + x.bytes.length⟩) :: steps, ?_, .cons ⟨rfl, hshows⟩ hall,
      fun fuel hfuel => ?_⟩
    · rw [List.length_cons]
      omega
    · obtain ⟨k, rfl⟩ := Nat.exists_eq_add_of_le' (show 1 ≤ fuel by omega)
      rw [decodeIeSteps_of_valid hvalid, hshift, hcut, hsteps k (by omega)]
      rfl

/-- **A list of elements is split into these elements.** -/
theorem parses_items {mem : List UInt8} {offset : Nat} {xs : List Item} (hlen : mem.length < 2 ^ 15)
    (hpos : 0 < offset) (hoff : offset ≤ mem.length) (hok : ∀ x ∈ xs, x.Ok)
    (hmem : mem.drop offset = xs.flatMap Item.bytes) : ∃ steps, Parses mem offset xs steps := by
  obtain ⟨steps, hin, hall, hsteps⟩ := decodeIeSteps_items hlen xs offset hok hoff hmem
  refine ⟨steps, hall, hsteps, fun f a => ?_⟩
  exact decodeIeLoop_eq_foldl f (hsteps mem.length (by omega)) _ a (by simp only; omega)

/-! ## Components

A FACILITY element has a structure of its own, with lengths inside of lengths.  The encoder writes them by
going back to where the length should be, after the content is there; here the content comes first, and
the theorem is that both are the same octetts.
-/

/-- A component in a FACILITY element: a tag, a length and that many octetts, which are components
again if the tag says so. -/
inductive Ber : List UInt8 → Prop where
  | primitive (tag : UInt8) (content : List UInt8) (htag : tag.toNat &&& 0x20 = 0)
      (hlen : content.length < 0x80) : Ber (element tag content)
  | constructed (tag : UInt8) (parts : List (List UInt8)) (htag : tag.toNat &&& 0x20 ≠ 0)
      (hlen : parts.flatten.length < 0x80) (hparts : ∀ p ∈ parts, Ber p) :
      Ber (element tag parts.flatten)

/-- The invocation of an operation: its id, its number and what is given to it. -/
theorem ber_invocation (operation : UInt8) {arguments : List (List UInt8)}
    (hlen : arguments.flatten.length < 0x70) (hargs : ∀ p ∈ arguments, Ber p) :
    Ber (element 0xa1 ([0x02, 0x02, 0x22, 0x00, 0x02, 0x01, operation] ++ arguments.flatten)) := by
  refine .constructed 0xa1 ([0x02, 0x02, 0x22, 0x00] :: [0x02, 0x01, operation] :: arguments)
    (by decide) ?_ ?_
  · simp only [List.flatten_cons, List.length_append, List.length_cons, List.length_nil]
    omega
  · intro p hp
    rcases List.mem_cons.mp hp with rfl | hp
    · exact .primitive 0x02 [0x22, 0x00] (by decide) (by decide)
    · rcases List.mem_cons.mp hp with rfl | hp
      · exact .primitive 0x02 [operation] (by decide) (by simp)
      · exact hargs p hp

/-- The invocation of a call deflection. -/
def deflectionComponent (telno : Str) : List UInt8 :=
  element 0xa1 ([0x02, 0x02, 0x22, 0x00, 0x02, 0x01, 0x0d] ++
    element 0x30 (element 0x30 (element 0x80 telno)))

/-- The invocation of a malicious call identification. -/
def mcidComponent : List UInt8 := element 0xa1 [0x02, 0x02, 0x22, 0x00, 0x02, 0x01, 0x03]

theorem ber_deflectionComponent {telno : Str} (hlen : telno.length < telnoMax) :
    Ber (deflectionComponent telno) := by
  have hroom : telnoMax = 41 := rfl
  have h0 : Ber (element 0x80 telno) := .primitive 0x80 telno (by decide) (by omega)
  have h1 : Ber (element 0x30 [element 0x80 telno].flatten) := by
    refine .constructed 0x30 _ (by decide) ?_ ?_
    · simp [length_element]
      omega
    · simpa using h0
  have h2 : Ber (element 0x30 [element 0x30 [element 0x80 telno].flatten].flatten) := by
    refine .constructed 0x30 _ (by decide) ?_ ?_
    · simp [length_element]
      omega
    · simpa using h1
  have h3 := @ber_invocation 0x0d [element 0x30 [element 0x30 [element 0x80 telno].flatten].flatten]
    (by simp [length_element]; omega) (by simpa using h2)
  simpa [deflectionComponent] using h3

theorem ber_mcidComponent : Ber mcidComponent :=
  @ber_invocation 0x03 [] (by decide) fun p hp => absurd hp List.not_mem_nil

/-- The lengths of a call deflection, written out. -/
theorem deflection_eq {telno : Str} (hne : telno ≠ []) :
    deflection telno = element ieiFacility (0x91 :: deflectionComponent telno) := by
  rw [deflection, if_neg hne, deflectionComponent]
  simp only [element, putElement, List.length_cons, List.cons_append, List.nil_append,
    Nat.reduceAdd, Nat.add_assoc]
  simp only [Nat.add_comm _ telno.length]

theorem mcidRequest_eq : mcidRequest = element ieiFacility (0x91 :: mcidComponent) := by decide

/-! ## What messages consist of

The items of each message, with the conditions under which the encoder writes them, from the fields of a
descriptor. The encoder writes octetts one by one; `bytes_bearerItem` and what follows it compare the two.
-/

/-- `BCH_MAX_DATALEN` and `DCH_MAX_DATALEN`. -/
def bchMaxDatalen : Nat := 2048
def dchMaxDatalen : Nat := 264

/-- The bearer capability. -/
def bearerItem (bprot bsubprot : Nat) : Item :=
  .multi ieiBearercap
    (if bprot = bprotNone31Khz then [0x90, 0x90, bearerLayer1 bsubprot]
    else if bprot = bprotNone ∨ bprot = bprotRhdlcDov then [0x80, 0x90, bearerLayer1 bsubprot]
    else [0x88, 0x90])

/-- The channel identification. -/
def channelItem (env : Env) (primaryRate : Bool) (channelId : Int) : Item :=
  .multi ieiChannelId
    (if primaryRate then
      if chanB1 ≤ channelId then
        [((channelOctet channelId ||| 0x20) &&& 0xfc) ||| 0x01, 0x80 ||| 0x03,
          UInt8.ofInt (env.encodeChannel channelId) ||| 0x80]
      else [channelOctet channelId ||| 0x20]
    else [channelOctet channelId])

/-- A calling party: a number and a subaddress. -/
def callingItems (src : SrcTelno) : List Item :=
  Item.ofString ieiCallingpn (callingLead src) src.telno ++
    Item.ofString ieiCallingps [numberTypeNsap] src.subaddr

/-- The elements of a SETUP. -/
def setupItems (env : Env) (primaryRate : Bool) (cd : CallDesc) : List Item :=
  (if cd.sendingComplete then [.single ieiSendcompl] else [])
    ++ [bearerItem cd.channelBprot cd.channelBsubprot]
    ++ (if cd.channelAllocated then [channelItem env primaryRate cd.channelId] else [])
    ++ Item.ofString ieiKeypad [] cd.keypad
    ++ callingItems cd.src0
    ++ callingItems cd.src1
    ++ Item.ofString ieiCalledpn [numberTypePlan] (cstr cd.dstTelno)
    ++ Item.ofString ieiCalledps [numberTypeNsap] cd.dstSubaddr
    ++ Item.ofString ieiUseruser [] cd.userUser
    ++ Item.ofString ieiDisplay [] cd.display

/-- The elements of another message, if `i4b_make_q850_cause` knows the cause. -/
def messageItems (env : Env) (ntMode primaryRate : Bool) (cd : CallDesc) (f : Tx) : List Item :=
  (if f.cause then
      [.multi ieiCause [location ntMode, (i4bMakeQ850Cause cd.causeOut).getD 0 ||| 0x80]]
    else [])
    ++ (if f.callstate then [.multi ieiCallstate [cd.state.q931Conv]] else [])
    ++ (if f.channelid ∧ cd.channelAllocated then [channelItem env primaryRate cd.channelId] else [])
    ++ (if f.progressi then [.multi ieiProgressi [location ntMode, 0x88]] else [])
    ++ (if f.calledpn then Item.ofString ieiCalledpn [numberTypePlan] cd.dstTelnoEarly else [])
    ++ (if f.deflect ∧ cd.dstTelnoPart ≠ [] then
          [.multi ieiFacility (0x91 :: deflectionComponent cd.dstTelnoPart)] else [])
    ++ (if f.mcidReq then [.multi ieiFacility (0x91 :: mcidComponent)] else [])
    ++ (if f.dateTime ∧ cd.odateTimeLen ≠ 0 then
          [.multi ieiDatetime (cd.odateTime.toList.take (min cd.odateTimeLen 8))] else [])

theorem Item.bytes_single (t : UInt8) : (Item.single t).bytes = [t] := rfl

theorem Item.bytes_multi (iei : UInt8) (content : List UInt8) :
    (Item.multi iei content).bytes = element iei content := rfl

theorem bytes_bearerItem (bprot bsubprot : Nat) :
    (bearerItem bprot bsubprot).bytes = bearer bprot bsubprot := by
  rw [bearerItem, bearer_eq, Item.bytes]

theorem bytes_channelItem (env : Env) (primaryRate : Bool) (channelId : Int) :
    (channelItem env primaryRate channelId).bytes = ieiChannelid env primaryRate channelId := rfl

theorem flatMap_callingItems (src : SrcTelno) :
    (callingItems src).flatMap Item.bytes = callingParty src := by
  rw [callingItems, List.flatMap_append, Item.flatMap_ofString, Item.flatMap_ofString, callingParty,
    callingNumber_eq]
  rfl

/-- Items that are there under a condition. -/
theorem flatMap_ite (c : Prop) [Decidable c] (xs : List Item) :
    (if c then xs else []).flatMap Item.bytes = if c then xs.flatMap Item.bytes else [] := by
  split
  · rfl
  · rfl

/-- The octetts of a SETUP are those of its items. -/
theorem flatMap_setupItems (env : Env) (primaryRate : Bool) (cd : CallDesc) :
    (setupItems env primaryRate cd).flatMap Item.bytes = setupElements env primaryRate cd := by
  simp only [setupItems, setupElements, List.flatMap_append, flatMap_ite, Item.flatMap_ofString,
    flatMap_callingItems, List.flatMap_singleton, bytes_bearerItem, bytes_channelItem,
    Item.bytes_single]
  -- what is left is that `NUMBER_TYPE_LEN` and `IEI_USERUSER_LEN` are the lengths of what they stand for
  rfl

/-- So are those of other messages. -/
theorem flatMap_messageItems {env : Env} {ntMode primaryRate : Bool} {cd : CallDesc} {f : Tx}
    {messageType : UInt8} {msg : List UInt8}
    (h : message env ntMode primaryRate cd messageType f = some msg) :
    msg = header primaryRate cd.cr messageType ++
      (messageItems env ntMode primaryRate cd f).flatMap Item.bytes := by
  have hdefl : (if f.deflect = true ∧ cd.dstTelnoPart ≠ [] then
      element ieiFacility (0x91 :: deflectionComponent cd.dstTelnoPart) else []) =
      if f.deflect then deflection cd.dstTelnoPart else [] := by
    by_cases hnil : cd.dstTelnoPart = []
    · rw [if_neg fun h => h.2 hnil, hnil, deflection, if_pos rfl, ite_self]
    · rw [deflection_eq hnil]
      simp only [ne_eq, hnil, not_false_eq_true, and_true]
  have hdate : putElement ieiDatetime (min cd.odateTimeLen 8)
      (cd.odateTime.toList.take (min cd.odateTimeLen 8)) =
      element ieiDatetime (cd.odateTime.toList.take (min cd.odateTimeLen 8)) := by
    rw [element, List.length_take, Vector.length_toList, Nat.min_eq_left (Nat.min_le_right _ _)]
  have hels : (messageItems env ntMode primaryRate cd f).flatMap Item.bytes =
      (if f.cause then
        element ieiCause [location ntMode, (i4bMakeQ850Cause cd.causeOut).getD 0 ||| 0x80] else []) ++
        messageElements env ntMode primaryRate cd f := by
    simp only [messageItems, messageElements, List.flatMap_append, flatMap_ite,
      Item.flatMap_ofString, List.flatMap_singleton, bytes_channelItem, Item.bytes_multi, hdefl,
      mcidRequest_eq, hdate, List.append_assoc]
    -- the constants of the other elements are right
    rfl
  rw [message] at h
  obtain ⟨cause, hcause, rfl⟩ := Option.map_eq_some_iff.mp h
  rw [hels, ← List.append_assoc]
  congr 2
  by_cases hf : f.cause = true
  · rw [if_pos hf, causeElement] at hcause
    obtain ⟨c, hc, rfl⟩ := Option.map_eq_some_iff.mp hcause
    rw [if_pos hf, hc, Option.getD_some]
    rfl
  · rw [if_neg hf] at hcause ⊢
    exact (Option.some.inj hcause).symm

/-! ## Well-formed messages

A message is well formed if it can be split into what it should consist of, if its lengths are right down
to the components, and if it fits into an mbuf.  The last part is a sum over all items that may be there at
once, with the length that the arrays of a descriptor allow for each.
-/

/-- A message in a buffer: `dss1_pipe_data_ind` finds its elements after the call reference and the
message type, the octett after each identifier is the length of what follows, also in FACILITY
elements, and it all fits. -/
structure WellFormed (room : Nat) (msg : List UInt8) (xs : List Item) : Prop where
  parses : ∃ offset steps, (readStart (Buf.init msg)).elements = ⟨msg, offset, msg.length⟩ ∧
    Parses msg offset xs steps
  lengths : ∀ before iei content after, xs = before ++ .multi iei content :: after →
    ∃ front len, msg = front ++ iei :: len :: (content ++ after.flatMap Item.bytes) ∧
      len.toNat = content.length
  facility : ∀ content, .multi ieiFacility content ∈ xs →
    ∃ component, content = 0x91 :: component ∧ Ber component
  room : L2.iHeaderLen + msg.length ≤ room

/-- An item that can be told, and is made of components if it is a FACILITY element. -/
structure Item.Good (x : Item) : Prop where
  ok : x.Ok
  facility : ∀ content, x = .multi ieiFacility content →
    ∃ component, content = 0x91 :: component ∧ Ber component

theorem Item.good_multi {iei : UInt8} {content : List UInt8} (hbit : iei.toNat &&& 0x80 = 0)
    (hlen : content.length < 256) (hne : iei ≠ ieiFacility) : (Item.multi iei content).Good := by
  refine ⟨⟨hbit, hlen⟩, fun c h => ?_⟩
  injection h with hiei
  exact absurd hiei hne

theorem Item.good_ofString {iei : UInt8} {lead : List UInt8} {str : Str}
    (hbit : iei.toNat &&& 0x80 = 0) (hlen : lead.length + str.length < 256)
    (hne : iei ≠ ieiFacility) : ∀ x ∈ Item.ofString iei lead str, x.Good := by
  intro x hx
  rw [ofString] at hx
  split at hx
  · exact absurd hx List.not_mem_nil
  · rw [List.mem_singleton.mp hx]
    exact good_multi hbit (by rwa [List.length_append]) hne

theorem Item.good_facility {component : List UInt8} (hber : Ber component)
    (hlen : component.length < 255) : (Item.multi ieiFacility (0x91 :: component)).Good := by
  refine ⟨⟨by decide, by rw [List.length_cons]; omega⟩, fun c h => ?_⟩
  injection h with _ hc
  exact ⟨component, hc.symm, hber⟩

theorem forall_mem_ite {P : Item → Prop} {c : Prop} [Decidable c] {xs : List Item}
    (h : c → ∀ x ∈ xs, P x) : ∀ x ∈ (if c then xs else []), P x := by
  split
  · exact h ‹c›
  · exact fun x hx => absurd hx List.not_mem_nil

theorem forall_mem_singleton_ite {P : Item → Prop} {c : Prop} [Decidable c] {x : Item}
    (h : c → P x) : ∀ y ∈ (if c then [x] else []), P y :=
  forall_mem_ite fun hc => List.forall_mem_singleton.mpr (h hc)

/-- A bearer capability is read as it was meant. -/
theorem good_bearerItem (bprot bsubprot : Nat) : (bearerItem bprot bsubprot).Good := by
  refine Item.good_multi (by decide) ?_ (by decide)
  split_ifs <;> simp

theorem good_channelItem (env : Env) (primaryRate : Bool) (channelId : Int) :
    (channelItem env primaryRate channelId).Good := by
  refine Item.good_multi (by decide) ?_ (by decide)
  split_ifs <;> simp

theorem good_callingItems {src : SrcTelno} (htelno : src.telno.length < telnoMax)
    (hsub : src.subaddr.length < subaddrMax) : ∀ x ∈ callingItems src, x.Good := by
  have hlead := length_callingLead_le src
  have htmax : telnoMax = 41 := rfl
  have hsmax : subaddrMax = 21 := rfl
  refine List.forall_mem_append.mpr ⟨?_, ?_⟩
  · exact Item.good_ofString (by decide) (by omega) (by decide)
  · exact Item.good_ofString (by decide) (by rw [List.length_singleton]; omega) (by decide)

/-- All items of a SETUP are good. -/
theorem good_setupItems {env : Env} {primaryRate : Bool} {cd : CallDesc} (h : cd.Short) :
    ∀ x ∈ setupItems env primaryRate cd, x.Good := by
  obtain ⟨ht0, hs0, ht1, hs1, ht, hs, hk, hu, hd⟩ := h
  simp only [telnoMax, subaddrMax, keypadMax, userUserMax, displayMax] at ht hs hk hu hd
  simp only [setupItems, List.forall_mem_append]
  refine ⟨⟨⟨⟨⟨⟨⟨⟨⟨?_, ?_⟩, ?_⟩, ?_⟩, ?_⟩, ?_⟩, ?_⟩, ?_⟩, ?_⟩, ?_⟩
  · refine forall_mem_singleton_ite fun _ => ⟨⟨by decide, by decide⟩, fun c h => ?_⟩
    cases h
  · exact List.forall_mem_singleton.mpr (good_bearerItem _ _)
  · exact forall_mem_singleton_ite fun _ => good_channelItem _ _ _
  · exact Item.good_ofString (by decide) (by rw [List.length_nil]; omega) (by decide)
  · exact good_callingItems ht0 hs0
  · exact good_callingItems ht1 hs1
  · exact Item.good_ofString (by decide) (by rw [List.length_singleton]; omega) (by decide)
  · exact Item.good_ofString (by decide) (by rw [List.length_singleton]; omega) (by decide)
  · exact Item.good_ofString (by decide) (by rw [List.length_nil]; omega) (by decide)
  · exact Item.good_ofString (by decide) (by rw [List.length_nil]; omega) (by decide)

theorem length_deflectionComponent (telno : Str) :
    (deflectionComponent telno).length = 15 + telno.length := by
  simp only [deflectionComponent, length_element, List.length_cons, List.length_append,
    List.length_nil]
  omega

/-- So are those of other messages. -/
theorem good_messageItems {env : Env} {ntMode primaryRate : Bool} {cd : CallDesc} (h : cd.Fits)
    (f : Tx) : ∀ x ∈ messageItems env ntMode primaryRate cd f, x.Good := by
  have hearly : cd.dstTelnoEarly.length < telnoMax := h.dstTelnoEarly
  have hpart : cd.dstTelnoPart.length < telnoMax := h.dstTelnoPart
  have htmax : telnoMax = 41 := rfl
  simp only [messageItems, List.forall_mem_append]
  refine ⟨⟨⟨⟨⟨⟨⟨?_, ?_⟩, ?_⟩, ?_⟩, ?_⟩, ?_⟩, ?_⟩, ?_⟩
  · exact forall_mem_singleton_ite fun _ => Item.good_multi (by decide) (by simp) (by decide)
  · exact forall_mem_singleton_ite fun _ => Item.good_multi (by decide) (by simp) (by decide)
  · exact forall_mem_singleton_ite fun _ => good_channelItem _ _ _
  · exact forall_mem_singleton_ite fun _ => Item.good_multi (by decide) (by simp) (by decide)
  · refine forall_mem_ite fun _ => Item.good_ofString (by decide) ?_ (by decide)
    rw [List.length_singleton]
    omega
  · refine forall_mem_singleton_ite fun _ => Item.good_facility (ber_deflectionComponent hpart) ?_
    rw [length_deflectionComponent]
    omega
  · exact forall_mem_singleton_ite fun _ => Item.good_facility ber_mcidComponent (by decide)
  · refine forall_mem_singleton_ite fun _ => Item.good_multi (by decide) ?_ (by decide)
    have := List.length_take_le (min cd.odateTimeLen 8) cd.odateTime.toList
    omega

theorem wellFormed_of {room : Nat} {primaryRate : Bool} {cr : Nat} {mt : UInt8} {xs : List Item}
    {msg : List UInt8} (hmsg : msg = header primaryRate cr mt ++ xs.flatMap Item.bytes)
    (hgood : ∀ x ∈ xs, x.Good) (hlen : msg.length < 2 ^ 15) (hroom : L2.iHeaderLen + msg.length ≤ room) :
    WellFormed room msg xs := by
  subst hmsg
  obtain ⟨-, hels⟩ := readStart_header primaryRate cr mt (xs.flatMap Item.bytes) hlen
  have hpos : 0 < (header primaryRate cr mt).length := by
    rw [length_header]
    omega
  obtain ⟨steps, hparses⟩ := parses_items hlen hpos (by rw [List.length_append]; omega)
    (fun x hx => (hgood x hx).ok) List.drop_left
  refine ⟨⟨_, steps, hels, hparses⟩, fun before iei content after hxs => ?_,
    fun content hx => (hgood _ hx).facility content rfl, hroom⟩
  have hlt : content.length < 256 := (hgood (.multi iei content) (by rw [hxs]; simp)).ok.2
  refine ⟨header primaryRate cr mt ++ before.flatMap Item.bytes, UInt8.ofNat content.length, ?_, ?_⟩
  · rw [hxs, List.flatMap_append, List.flatMap_cons, Item.bytes_multi, List.append_assoc]
    rfl
  · rw [UInt8.toNat_ofNat', Nat.mod_eq_of_lt hlt]

/-- Strings that fit their arrays fit into an element. -/
theorem CallDesc.Fits.short {cd : CallDesc} (h : cd.Fits) : cd.Short :=
  ⟨h.src0.telno, h.src0.subaddr, h.src1.telno, h.src1.subaddr, h.dstTelno.cstr_length_lt,
    h.dstSubaddr, h.keypad, h.userUser, h.display⟩

/-- **A SETUP is well formed.** -/
theorem wellFormed_setup {env : Env} {primaryRate : Bool} {cd : CallDesc} (h : cd.Short) :
    WellFormed bchMaxDatalen (setupMessage env primaryRate cd) (setupItems env primaryRate cd) := by
  have hlen : (setupMessage env primaryRate cd).length ≤ 476 := length_setupMessage_le h
  have heq : setupMessage env primaryRate cd = header primaryRate cd.cr mtSetup ++
      (setupItems env primaryRate cd).flatMap Item.bytes := by
    rw [flatMap_setupItems]
    rfl
  refine wellFormed_of heq (good_setupItems h) (by omega) ?_
  · simp only [L2.iHeaderLen, bchMaxDatalen]
    omega

theorem length_ite_le {c : Prop} [Decidable c] {bytes : List UInt8} {k : Nat} (h : bytes.length ≤ k) :
    (if c then bytes else []).length ≤ k := by
  split
  · exact h
  · exact Nat.zero_le _

/-- Other messages are shorter. -/
theorem length_message_le {env : Env} {ntMode primaryRate : Bool} {cd : CallDesc} (h : cd.Fits)
    (mt : UInt8) (f : Tx) :
    (header primaryRate cd.cr mt ++
      (messageItems env ntMode primaryRate cd f).flatMap Item.bytes).length ≤ 146 := by
  have hearly : cd.dstTelnoEarly.length < telnoMax := h.dstTelnoEarly
  have hpart : cd.dstTelnoPart.length < telnoMax := h.dstTelnoPart
  have htmax : telnoMax = 41 := rfl
  have h0 := length_header primaryRate cd.cr mt
  have hcr := (callreferenceLength_bounds primaryRate cd.cr).2
  have hchan : (ieiChannelid env primaryRate cd.channelId).length ≤ 5 := by
    rw [ieiChannelid, length_element]
    split_ifs <;> simp
  have h1 : (if f.cause = true then element ieiCause
      [location ntMode, (i4bMakeQ850Cause cd.causeOut).getD 0 ||| 0x80] else []).length ≤ 4 :=
    length_ite_le (by simp [length_element])
  have h2 : (if f.callstate = true then element ieiCallstate [cd.state.q931Conv] else []).length ≤ 3 :=
    length_ite_le (by simp [length_element])
  have h3 : (if f.channelid = true ∧ cd.channelAllocated = true then
      ieiChannelid env primaryRate cd.channelId else []).length ≤ 5 := length_ite_le hchan
  have h4 : (if f.progressi = true then element ieiProgressi [location ntMode, 0x88] else []).length
      ≤ 4 := length_ite_le (by simp [length_element])
  have h5 : (if f.calledpn = true then
      stringElement ieiCalledpn [numberTypePlan].length [numberTypePlan] cd.dstTelnoEarly
        else []).length ≤ 43 := by
    refine length_ite_le ((length_stringElement_le _ _ _ _).trans ?_)
    rw [List.length_singleton]
    omega
  have h6 : (if f.deflect = true ∧ cd.dstTelnoPart ≠ [] then
      element ieiFacility (0x91 :: deflectionComponent cd.dstTelnoPart) else []).length ≤ 58 := by
    refine length_ite_le ?_
    rw [length_element, List.length_cons, length_deflectionComponent]
    omega
  have h7 : (if f.mcidReq = true then element ieiFacility (0x91 :: mcidComponent) else []).length
      ≤ 12 := length_ite_le (by decide)
  have h8 : (if f.dateTime = true ∧ cd.odateTimeLen ≠ 0 then
      element ieiDatetime (cd.odateTime.toList.take (min cd.odateTimeLen 8)) else []).length
        ≤ 10 := by
    have := List.length_take_le (min cd.odateTimeLen 8) cd.odateTime.toList
    refine length_ite_le ?_
    rw [length_element]
    omega
  simp only [messageItems, List.flatMap_append, flatMap_ite, List.flatMap_singleton,
    Item.flatMap_ofString, Item.bytes_multi, bytes_channelItem, List.length_append]
  omega

/-- **So is any other message.** -/
theorem wellFormed_message {env : Env} {ntMode primaryRate : Bool} {cd : CallDesc} (h : cd.Fits)
    {mt : UInt8} {f : Tx} {msg : List UInt8}
    (hmsg : message env ntMode primaryRate cd mt f = some msg) :
    WellFormed dchMaxDatalen msg (messageItems env ntMode primaryRate cd f) := by
  have heq := flatMap_messageItems hmsg
  have hlen : msg.length ≤ 146 := heq ▸ length_message_le h mt f
  refine wellFormed_of heq (good_messageItems h f) (by omega) ?_
  simp only [L2.iHeaderLen, dchMaxDatalen]
  omega

/-- **Every message is well formed.**  Whenever one may be sent in the course of an action, the SETUP
of a call, and any other message with any of its optional elements, is split into the elements that
are meant, to its end; each length is that of what follows, also inside FACILITY elements; and the
message fits its buffer. -/
theorem messages_wellFormed {n : Nat} {env : Env} {s t : Cntl n} (h : Cntl.Reach env s) {a : Action n}
    (ht : Cntl.Deeds env a s t) (i : Fin n) :
    WellFormed bchMaxDatalen (setupMessage env t.primaryRate (t.cd i))
        (setupItems env t.primaryRate (t.cd i)) ∧
      ∀ (mt : UInt8) (f : Tx) (msg : List UInt8),
        message env t.ntMode t.primaryRate (t.cd i) mt f = some msg →
          WellFormed dchMaxDatalen msg (messageItems env t.ntMode t.primaryRate (t.cd i) f) := by
  have hfits : (t.cd i).Fits :=
    (Cntl.lasting_fits env n).deeds ht i ((Cntl.lasting_fits env n).reach h i)
  exact ⟨wellFormed_setup hfits.short, fun _ _ _ hmsg => wellFormed_message hfits hmsg⟩

/-- A request with both numbers, a subaddress and keypad digits. -/
def numbersReq : Cntl.ConnectReq where
  channel := chanAny
  bprot := bprotNone
  driver := 0
  driverUnit := 0
  shorthold := {}
  dynamic := false
  dstTelno := [0x31, 0x32]
  srcTelno := [0x33]
  dstSubaddr := [0x61]
  srcSubaddr := []
  keypad := [0x2a]
  sendingNotComplete := true

/-- A call that is asked for with it, on a controller that was just attached. -/
def numbersCall : Cntl 1 :=
  ((Cntl.fresh false true : Cntl 1).run Cntl.plain
    [.i4b 1 0 .cdidReq, .i4b 1 (makeCdid 0 1) (.connectReq numbersReq)]).get (by decide)

/-- One more digit, which would be deflected to. -/
theorem messages_wellFormed_numbers :
    let cd := (numbersCall.perform Cntl.plain (.i4b 1 (makeCdid 0 1) (.informationReq [0x34]))).cd 0
    cstr cd.dstTelno = [0x31, 0x32, 0x34] ∧ cd.dstTelnoPart = [0x34] ∧
      WellFormed bchMaxDatalen (setupMessage Cntl.plain false cd) (setupItems Cntl.plain false cd) ∧
      ∃ msg, message Cntl.plain false false cd mtFacility { deflect := true } = some msg ∧
        WellFormed dchMaxDatalen msg (messageItems Cntl.plain false false cd { deflect := true }) := by
  have hreach : Cntl.Reach Cntl.plain numbersCall :=
    (Cntl.reach_fresh Cntl.plain false true).run (Option.some_get _).symm
  obtain ⟨hsetup, hmessage⟩ := messages_wellFormed hreach
    (Cntl.deeds_perform Cntl.plain numbersCall (.i4b 1 (makeCdid 0 1) (.informationReq [0x34]))) (0 : Fin 1)
  exact ⟨by decide, by decide, hsetup, _, rfl, hmessage mtFacility { deflect := true } _ rfl⟩

end L3
end Isdn4bsd
