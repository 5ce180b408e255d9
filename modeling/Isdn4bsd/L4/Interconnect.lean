import Mathlib.Data.Sym.Sym2
import Isdn4bsd.Lib.Bitmap

/-!
# The PCM slots of a line interconnect

Two B channels are bridged over a PCM cable. Each end holds an entry of its controller's line
interconnect table, which names the cable and the two slots the end sends and receives in. The slots
of a cable come in pairs, and the end that joins a bridge uses its partner's pair the other way.

* `i4bSlotLiAlloc`, `i4bSlotLiFree` : the two calls, over the bitmaps and the tables.
* `Inv` : what the bitmaps and the live entries have to do with each other.
* `slots_of_reach` : **whatever was allocated and freed before, the bitmaps are those of the live
  entries, pairs are shared only by the two ends of a bridge, and a free pair is found.**
* `cables_of_reach` : **the entries stay on the cables of their controllers exactly as long as no
  end joins a bridge on a cable it does not have.**

## The invariant

A bit of a bitmap is set by the end that receives in the slot.  So a pair has no bit, one bit, or two if both ends
of a bridge are there, and a search for a free pair looks for two bits that are clear.  That this is enough is
`Inv`: bits are those of live entries, one for each; the two slots of an entry are a pair; and two entries in
one pair are the ends of a bridge, with the slots exchanged.

A bridge is not written down as such.  An entry was allocated with the descriptor of the other end as its
destination, which the source does not keep; `Origin` is a history of it, and with it `Bridged` can say what
two ends have to do with each other, also after one of them was freed and something else was allocated.

## The search

The bitmaps are searched by words of 32 bits, with a word skipped if all its slots are in use, and then bit
by bit (`searchWords`, `scanSlots`).  The word that is looked at has both slots of each pair folded into it, so a
scan of a word that is not full finds something before it leaves the word (`exists_clear`).

## The cables

The end that starts a bridge looks for a cable both controllers have.  The end that joins takes the cable of the
entry it finds for its partner as it is, without a test of its own.
-/

set_option autoImplicit false

namespace Isdn4bsd
namespace Interconnect

/-! ## Controllers, cables and entries -/

/-- `CDID_UNUSED` -/
def cdidUnused : Nat := 0

/-- `I4B_MAX_CONTROLLERS` -/
def maxControllers : Nat := 64

/-- `I4B_PCM_CABLE_MAX` -/
def pcmCableMax : Nat := 8

/-- `I4B_PCM_SLOT_MAX` -/
def pcmSlotMax : Nat := 128

/-- What was configured: the length of each controller's line interconnect table, the valid part of
its cable map, and the number of slots of each cable, which `I4B_CTL_SET_PCM_SLOT_END` checks. -/
structure Config where
  liCount : Fin maxControllers → Nat
  pcmCableMap : Fin maxControllers → List Nat
  slotEnd : Nat → Nat
  slotEnd_le : ∀ c, slotEnd c ≤ pcmSlotMax
  slotEnd_even : ∀ c, slotEnd c % 2 = 0

/-- `CNTL_FIND` -/
def cntlFind (cdid : Nat) : Fin maxControllers := ⟨cdid % maxControllers, Nat.mod_lt _ (by decide)⟩

/-- `struct i4b_line_interconnect` -/
structure Li where
  cdid : Nat
  pcmCable : Nat
  pcmSlotRx : Nat
  pcmSlotTx : Nat
  deriving DecidableEq

/-- The cleared entry. -/
def Li.zero : Li := ⟨cdidUnused, 0, 0, 0⟩

/-- A place in one of the tables. -/
abbrev Entry (cfg : Config) := (u : Fin maxControllers) × Fin (cfg.liCount u)

/-- The bitmaps of the cables and the tables of the controllers. -/
structure Slots (cfg : Config) where
  slotBitmap : Nat → Nat → BitVec 32
  li : Entry cfg → Li

variable {cfg : Config}

namespace Slots

/-- At the start nothing is in use. -/
def init (cfg : Config) : Slots cfg := ⟨fun _ _ => 0, fun _ => Li.zero⟩

/-- The entry is in use. -/
def Live (s : Slots cfg) (e : Entry cfg) : Prop := (s.li e).cdid ≠ cdidUnused

instance (s : Slots cfg) (e : Entry cfg) : Decidable (s.Live e) :=
  inferInstanceAs (Decidable ((s.li e).cdid ≠ cdidUnused))

/-- Is a slot of a cable in use, as the bitmap has it? -/
def bit (s : Slots cfg) (c b : Nat) : Bool := Bitmap.getBit (s.slotBitmap c) b

/-- Write one bit. -/
def setBit (s : Slots cfg) (c b : Nat) (v : Bool) : Slots cfg :=
  { s with slotBitmap :=
      Function.update s.slotBitmap c (Bitmap.setBit (s.slotBitmap c) b v) }

/-- Write one entry. -/
def setLi (s : Slots cfg) (e : Entry cfg) (l : Li) : Slots cfg :=
  { s with li := Function.update s.li e l }

end Slots

/-! ## The source -/

/-- The first entry of a table with a given `cdid`. -/
def liFind (s : Slots cfg) (u : Fin maxControllers) (cdid : Nat) : Option (Entry cfg) :=
  ((List.finRange (cfg.liCount u)).find? fun i => (s.li ⟨u, i⟩).cdid = cdid).map fun i => ⟨u, i⟩

/-- `i4b_li_alloc` -/
def i4bLiAlloc (s : Slots cfg) (cdid : Nat) : Option (Entry cfg) × Slots cfg :=
  if cdid = cdidUnused then (none, s)
  else
    match liFind s (cntlFind cdid) cdidUnused with
    | none => (none, s)
    | some e => (some e, s.setLi e { s.li e with cdid := cdid })

/-- `i4b_li_search` -/
def i4bLiSearch (s : Slots cfg) (cdid : Nat) : Option (Entry cfg) :=
  if cdid = cdidUnused then none else liFind s (cntlFind cdid) cdid

/-- Half the slots of a cable: the distance of the two slots of a pair. -/
def pcmEnd (cfg : Config) (c : Nat) : Nat := cfg.slotEnd c / 2

/-- The other slot of a pair. -/
def peerSlot (cfg : Config) (c slot : Nat) : Nat :=
  if slot < pcmEnd cfg c then slot + pcmEnd cfg c else slot - pcmEnd cfg c

/-- `__i4b_slot_li_alloc` -/
def slotLiAlloc (s : Slots cfg) (cdid c slot : Nat) : Option (Entry cfg) × Slots cfg :=
  let pcmSlotRx := peerSlot cfg c slot
  -- full
  if s.bit c pcmSlotRx then (none, s)
  else
    match i4bLiAlloc s cdid with
    | (none, s) => (none, s)
    | (some e, s) =>
      (some e, (s.setBit c pcmSlotRx true).setLi e
        { s.li e with pcmCable := c, pcmSlotRx := pcmSlotRx, pcmSlotTx := slot })

/-- The slots of a word from `y` on, at most `n` of them: which is the first free one? -/
def scanSlots (t : BitVec 32) : Nat → Nat → Option Nat
  | 0, _ => none
  | n + 1, y => if t.getLsbD (y % 32) then scanSlots t n (y + 1) else some y

/-- The words of a cable's bitmap from the slot `y` on, at most `n` of them. A slot of `t` is free
if both slots of its pair are. -/
def searchWords (words : Nat → BitVec 32) (pcmEnd : Nat) : Nat → Nat → Option Nat
  | 0, _ => none
  | n + 1, y =>
    if y < pcmEnd then
      let t := Bitmap.getWord words y ||| Bitmap.getWord words (y + pcmEnd)
      if t = BitVec.allOnes 32 then searchWords words pcmEnd n (y + 32)
      -- the loop over the slots ends the loop over the words
      else scanSlots t (pcmEnd - y) y
    else none

/-- The first free pair of a cable, on the first cable that both controllers have and that has one.
Invalid cable numbers are skipped. -/
def searchCables (s : Slots cfg) (src dst : Fin maxControllers) : Option (Nat × Nat) :=
  (cfg.pcmCableMap src).findSome? fun c =>
    if pcmCableMax ≤ c then none
    else if c ∈ cfg.pcmCableMap dst then
      (searchWords (s.slotBitmap c) (pcmEnd cfg c) (pcmEnd cfg c) 0).map fun y => (c, y)
    else none

/-- `i4b_slot_li_alloc` -/
def i4bSlotLiAlloc (s : Slots cfg) (cdidSrc cdidDst : Nat) : Option (Entry cfg) × Slots cfg :=
  match i4bLiSearch s cdidDst with
  -- the other end has already allocated a cable
  | some d => slotLiAlloc s cdidSrc (s.li d).pcmCable (s.li d).pcmSlotRx
  | none =>
    match searchCables s (cntlFind cdidSrc) (cntlFind cdidDst) with
    | some (c, y) => slotLiAlloc s cdidSrc c y
    | none => (none, s)

/-- `i4b_slot_li_free` -/
def i4bSlotLiFree (s : Slots cfg) (e : Entry cfg) : Slots cfg :=
  (s.setBit (s.li e).pcmCable (s.li e).pcmSlotRx false).setLi e Li.zero

/-! ## Runs -/

/-- The destination each entry was allocated with. -/
abbrev Origin (cfg : Config) := Entry cfg → Nat

/-- The destination of a call that returned an entry is the entry's. -/
def record (o : Origin cfg) (dst : Nat) : Option (Entry cfg) → Origin cfg
  | none => o
  | some e => Function.update o e dst

/-- What calls lead to, if each allocation meets `P`. An entry is freed by its holder, who forgets
it: it is live. -/
inductive Reach (cfg : Config) (P : Slots cfg → Nat → Nat → Prop) :
    Slots cfg → Origin cfg → Prop
  | init : Reach cfg P (Slots.init cfg) fun _ => cdidUnused
  | alloc {s : Slots cfg} {o : Origin cfg} (src dst : Nat) (h : Reach cfg P s o) (hp : P s src dst) :
      Reach cfg P (i4bSlotLiAlloc s src dst).2 (record o dst (i4bSlotLiAlloc s src dst).1)
  | free {s : Slots cfg} {o : Origin cfg} (e : Entry cfg) (h : Reach cfg P s o) (he : s.Live e) :
      Reach cfg P (i4bSlotLiFree s e) o

/-- Any call is allowed. -/
def AnyCall (_ : Slots cfg) (_ _ : Nat) : Prop := True

theorem Reach.mono {P Q : Slots cfg → Nat → Nat → Prop} (hpq : ∀ s a b, P s a b → Q s a b)
    {s : Slots cfg} {o : Origin cfg} (h : Reach cfg P s o) : Reach cfg Q s o := by
  induction h with
  | init => exact .init
  | alloc src dst _ hp ih => exact .alloc src dst ih (hpq _ _ _ hp)
  | free e _ he ih => exact .free e ih he

/-! ## What the functions do -/

namespace Slots

@[simp] theorem li_setBit (s : Slots cfg) (c b : Nat) (v : Bool) : (s.setBit c b v).li = s.li := rfl

@[simp] theorem bit_setLi (s : Slots cfg) (e : Entry cfg) (l : Li) : (s.setLi e l).bit = s.bit := rfl

@[simp] theorem li_setLi (s : Slots cfg) (e : Entry cfg) (l : Li) :
    (s.setLi e l).li = Function.update s.li e l := rfl

theorem bit_setBit (s : Slots cfg) (c b : Nat) (v : Bool) (c' b' : Nat) :
    (s.setBit c b v).bit c' b' = if c' = c ∧ b' = b then v else s.bit c' b' := by
  rw [bit, setBit]
  by_cases hc : c' = c
  · subst hc
    simp only [Function.update_self]
    rw [Bitmap.getBit_setBit (by decide)]
    simp [bit]
  · simp [hc, bit]

end Slots

theorem liFind_some {s : Slots cfg} {u : Fin maxControllers} {cdid : Nat} {e : Entry cfg}
    (h : liFind s u cdid = some e) : e.1 = u ∧ (s.li e).cdid = cdid := by
  obtain ⟨i, hi, rfl⟩ := Option.map_eq_some_iff.mp h
  exact ⟨rfl, by simpa using List.find?_some hi⟩

theorem liFind_none {s : Slots cfg} {u : Fin maxControllers} {cdid : Nat}
    (h : liFind s u cdid = none) (i : Fin (cfg.liCount u)) : (s.li ⟨u, i⟩).cdid ≠ cdid := by
  rw [liFind, Option.map_eq_none_iff, List.find?_eq_none] at h
  simpa using h i (List.mem_finRange i)

theorem i4bLiSearch_some {s : Slots cfg} {cdid : Nat} {d : Entry cfg}
    (h : i4bLiSearch s cdid = some d) : s.Live d ∧ (s.li d).cdid = cdid := by
  rw [i4bLiSearch] at h
  split at h
  · exact absurd h (by simp)
  · rename_i hne
    obtain ⟨-, hd⟩ := liFind_some h
    exact ⟨by rw [Slots.Live, hd]; exact hne, hd⟩

/-- The entry an allocation returns and what it writes to it. -/
structure Stored (s : Slots cfg) (cdid c slot : Nat) (e : Entry cfg) (t : Slots cfg) : Prop where
  cdid_ne : cdid ≠ cdidUnused
  table : e.1 = cntlFind cdid
  free : (s.li e).cdid = cdidUnused
  clear : s.bit c (peerSlot cfg c slot) = false
  eq : t = (s.setBit c (peerSlot cfg c slot) true).setLi e ⟨cdid, c, peerSlot cfg c slot, slot⟩

/-- Can an entry be had for a slot of a cable? -/
def Room (s : Slots cfg) (cdid c slot : Nat) : Prop :=
  cdid ≠ cdidUnused ∧ s.bit c (peerSlot cfg c slot) = false ∧
    ∃ i, (s.li ⟨cntlFind cdid, i⟩).cdid = cdidUnused

instance (s : Slots cfg) (cdid c slot : Nat) : Decidable (Room s cdid c slot) :=
  inferInstanceAs (Decidable (_ ∧ _ ∧ _))

/-- **One slot is taken, or nothing is changed.** -/
theorem slotLiAlloc_cases (s : Slots cfg) (cdid c slot : Nat) :
    (Room s cdid c slot ∧ ∃ e, (slotLiAlloc s cdid c slot).1 = some e ∧
        Stored s cdid c slot e (slotLiAlloc s cdid c slot).2) ∨
      (¬ Room s cdid c slot ∧ slotLiAlloc s cdid c slot = (none, s)) := by
  by_cases hbit : s.bit c (peerSlot cfg c slot) = true
  · refine .inr ⟨fun h => ?_, by simp [slotLiAlloc, hbit]⟩
    rw [h.2.1] at hbit
    exact absurd hbit (by simp)
  · rw [Bool.not_eq_true] at hbit
    by_cases hne : cdid = cdidUnused
    · exact .inr ⟨fun h => h.1 hne, by simp [slotLiAlloc, hbit, i4bLiAlloc, hne]⟩
    · cases hfind : liFind s (cntlFind cdid) cdidUnused with
      | none =>
        refine .inr ⟨fun h => ?_, by simp [slotLiAlloc, hbit, i4bLiAlloc, hne, hfind]⟩
        obtain ⟨i, hi⟩ := h.2.2
        exact liFind_none hfind i hi
      | some e =>
        obtain ⟨⟨u, i⟩, rfl⟩ : ∃ e', e = e' := ⟨e, rfl⟩
        obtain ⟨hu, hfree⟩ := liFind_some hfind
        obtain rfl : u = cntlFind cdid := hu
        refine .inl ⟨⟨hne, hbit, i, hfree⟩, _, ?_, hne, rfl, hfree, hbit, ?_⟩
        · simp [slotLiAlloc, hbit, i4bLiAlloc, hne, hfind]
        · simp [slotLiAlloc, hbit, i4bLiAlloc, hne, hfind, Slots.setLi, Slots.setBit]

/-! ## The search -/

theorem scanSlots_some {t : BitVec 32} {n y z : Nat} (h : scanSlots t n y = some z) :
    y ≤ z ∧ z < y + n ∧ t.getLsbD (z % 32) = false ∧
      ∀ x, y ≤ x → x < z → t.getLsbD (x % 32) = true := by
  induction n generalizing y with
  | zero => simp [scanSlots] at h
  | succ n ih =>
    rw [scanSlots] at h
    split at h
    · rename_i hbit
      obtain ⟨h1, h2, h3, h4⟩ := ih h
      refine ⟨by omega, by omega, h3, fun x hx hlt => ?_⟩
      rcases Nat.eq_or_lt_of_le hx with rfl | hx
      · exact hbit
      · exact h4 x hx hlt
    · rename_i hbit
      obtain rfl : y = z := by simpa using h
      exact ⟨le_rfl, by omega, by simpa using hbit, fun x hx hlt => by omega⟩

theorem scanSlots_none {t : BitVec 32} {n y : Nat} (h : scanSlots t n y = none) {z : Nat}
    (hy : y ≤ z) (hz : z < y + n) : t.getLsbD (z % 32) = true := by
  induction n generalizing y with
  | zero => omega
  | succ n ih =>
    rw [scanSlots] at h
    split at h
    · rename_i hbit
      rcases Nat.eq_or_lt_of_le hy with rfl | hlt
      · exact hbit
      · exact ih h hlt (by omega)
    · exact absurd h (by simp)

/-- A word whose slots are all in use is skipped, so the scan of a word finds a slot before it
leaves it. -/
theorem exists_clear {t : BitVec 32} (ht : t ≠ BitVec.allOnes 32) {y : Nat} (hy : y % 32 = 0) :
    ∃ z, y ≤ z ∧ z < y + 32 ∧ t.getLsbD (z % 32) = false := by
  by_contra hall
  push Not at hall
  apply ht
  rw [Bitmap.eq_allOnes_iff]
  intro i hi
  have h := hall (y + i) (by omega) (by omega)
  rw [show (y + i) % 32 = i by omega] at h
  simpa using h

/-- A bit of the word the search looks at. -/
theorem getLsbD_pair (words : Nat → BitVec 32) (pcmEnd : Nat) {y z : Nat} (hy : y % 32 = 0)
    (hz : y ≤ z) (hlt : z < y + 32) :
    (Bitmap.getWord words y ||| Bitmap.getWord words (y + pcmEnd)).getLsbD (z % 32)
      = (Bitmap.getBit words z || Bitmap.getBit words (z + pcmEnd)) := by
  obtain ⟨i, rfl⟩ := Nat.exists_eq_add_of_le hz
  have hi : i < 32 := by omega
  rw [show (y + i) % 32 = i by omega, BitVec.getLsbD_or, Bitmap.getLsbD_getWord _ _ hi,
    Bitmap.getLsbD_getWord _ _ hi, Nat.add_right_comm]

theorem searchWords_some {words : Nat → BitVec 32} {pcmEnd n y z : Nat} (hy : y % 32 = 0)
    (h : searchWords words pcmEnd n y = some z) :
    z < pcmEnd ∧ Bitmap.getBit words z = false ∧ Bitmap.getBit words (z + pcmEnd) = false := by
  induction n generalizing y with
  | zero => simp [searchWords] at h
  | succ n ih =>
    rw [searchWords] at h
    split at h
    · dsimp only at h
      split at h
      · exact ih (by omega) h
      · rename_i hlt ht
        obtain ⟨h1, h2, h3, h4⟩ := scanSlots_some h
        obtain ⟨x, hx, hx32, hxc⟩ := exists_clear ht hy
        -- the free slot of the word is not before the one found
        have hzx : z ≤ x := by
          by_contra hgt
          rw [h4 x hx (by omega)] at hxc
          exact absurd hxc (by simp)
        rw [getLsbD_pair words pcmEnd hy h1 (by omega), Bool.or_eq_false_iff] at h3
        exact ⟨by omega, h3⟩
    · exact absurd h (by simp)

theorem searchWords_none {words : Nat → BitVec 32} {pcmEnd n y : Nat} (hy : y % 32 = 0)
    (hn : pcmEnd ≤ y + n) (h : searchWords words pcmEnd n y = none) {z : Nat} (hz : y ≤ z)
    (hlt : z < pcmEnd) : (Bitmap.getBit words z || Bitmap.getBit words (z + pcmEnd)) = true := by
  induction n generalizing y with
  | zero => omega
  | succ n ih =>
    rw [searchWords, if_pos (by omega)] at h
    dsimp only at h
    split at h
    · rename_i ht
      by_cases hz32 : z < y + 32
      · rw [← getLsbD_pair words pcmEnd hy hz hz32, ht, BitVec.getLsbD_allOnes]
        exact decide_eq_true (Nat.mod_lt _ (by decide))
      · exact ih (by omega) (by omega) h (by omega)
    · rename_i ht
      obtain ⟨x, hx, hx32, hxc⟩ := exists_clear ht hy
      -- the free slot of the word is behind the end
      have hend : pcmEnd ≤ x := by
        by_contra hgt
        rw [scanSlots_none h hx (by omega)] at hxc
        exact absurd hxc (by simp)
      rw [← getLsbD_pair words pcmEnd hy hz (by omega)]
      exact scanSlots_none h hz (by omega)

/-- A cable that both controllers have. -/
def Common (cfg : Config) (src dst : Fin maxControllers) (c : Nat) : Prop :=
  c < pcmCableMax ∧ c ∈ cfg.pcmCableMap src ∧ c ∈ cfg.pcmCableMap dst

theorem searchCables_some {s : Slots cfg} {src dst : Fin maxControllers} {c y : Nat}
    (h : searchCables s src dst = some (c, y)) :
    Common cfg src dst c ∧ y < pcmEnd cfg c ∧ s.bit c y = false ∧
      s.bit c (y + pcmEnd cfg c) = false := by
  obtain ⟨c', hc', h⟩ := List.exists_of_findSome?_eq_some h
  split at h
  · exact absurd h (by simp)
  · rename_i hlt
    split at h
    · rename_i hdst
      obtain ⟨y', hy', heq⟩ := Option.map_eq_some_iff.mp h
      obtain ⟨rfl, rfl⟩ := Prod.mk.inj heq
      exact ⟨⟨by omega, hc', hdst⟩, searchWords_some (by rfl) hy'⟩
    · exact absurd h (by simp)

theorem searchCables_none {s : Slots cfg} {src dst : Fin maxControllers}
    (h : searchCables s src dst = none) {c y : Nat} (hc : Common cfg src dst c)
    (hy : y < pcmEnd cfg c) : (s.bit c y || s.bit c (y + pcmEnd cfg c)) = true := by
  rw [searchCables, List.findSome?_eq_none_iff] at h
  have hnone := h c hc.2.1
  rw [if_neg (Nat.not_le.mpr hc.1), if_pos hc.2.2, Option.map_eq_none_iff] at hnone
  exact searchWords_none (by rfl) (by omega) hnone (Nat.zero_le y) hy

/-! ## The invariant -/

/-- The two slots are `y` and `y + pcmEnd`, in one order or the other. -/
def Aligned (cfg : Config) (l : Li) : Prop :=
  ∃ y < pcmEnd cfg l.pcmCable, (l.pcmSlotTx = y ∧ l.pcmSlotRx = y + pcmEnd cfg l.pcmCable) ∨
    (l.pcmSlotTx = y + pcmEnd cfg l.pcmCable ∧ l.pcmSlotRx = y)

/-- The pair of slots an entry uses. -/
def Li.pair (l : Li) : Sym2 Nat := s(l.pcmSlotTx, l.pcmSlotRx)

/-- One of the entries was allocated with the other's descriptor as its destination, and uses the
slots the other way. -/
def Bridged (s : Slots cfg) (o : Origin cfg) (e e' : Entry cfg) : Prop :=
  (s.li e).pcmSlotTx = (s.li e').pcmSlotRx ∧ (s.li e).pcmSlotRx = (s.li e').pcmSlotTx ∧
    (o e = (s.li e').cdid ∨ o e' = (s.li e).cdid)

theorem Bridged.symm {s : Slots cfg} {o : Origin cfg} {e e' : Entry cfg} (h : Bridged s o e e') :
    Bridged s o e' e := ⟨h.2.1.symm, h.1.symm, h.2.2.symm⟩

/-- What holds between the bitmaps, the entries and the destinations they were allocated with. -/
structure Inv (s : Slots cfg) (o : Origin cfg) : Prop where
  valid : ∀ e, s.Live e → (s.li e).pcmCable < pcmCableMax
  table : ∀ e, s.Live e → e.1 = cntlFind (s.li e).cdid
  aligned : ∀ e, s.Live e → Aligned cfg (s.li e)
  bits : ∀ c b, s.bit c b = true ↔ ∃ e, s.Live e ∧ (s.li e).pcmCable = c ∧ (s.li e).pcmSlotRx = b
  inj : ∀ e e', s.Live e → s.Live e' → (s.li e).pcmCable = (s.li e').pcmCable →
    (s.li e).pcmSlotRx = (s.li e').pcmSlotRx → e = e'
  shared : ∀ e e', s.Live e → s.Live e' → e ≠ e' → (s.li e).pcmCable = (s.li e').pcmCable →
    (s.li e).pair = (s.li e').pair → Bridged s o e e'

theorem peerSlot_of_lt {c y : Nat} (h : y < pcmEnd cfg c) :
    peerSlot cfg c y = y + pcmEnd cfg c := if_pos h

theorem peerSlot_add (cfg : Config) (c y : Nat) : peerSlot cfg c (y + pcmEnd cfg c) = y := by
  rw [peerSlot, if_neg (by omega), Nat.add_sub_cancel]

theorem Aligned.peer {l : Li} (h : Aligned cfg l) :
    peerSlot cfg l.pcmCable l.pcmSlotRx = l.pcmSlotTx := by
  obtain ⟨y, hy, ⟨htx, hrx⟩ | ⟨htx, hrx⟩⟩ := h
  · rw [htx, hrx, peerSlot_add]
  · rw [htx, hrx, peerSlot_of_lt hy]

/-- Entries that share a cable and a pair but not the receive slot use the pair the other way. -/
theorem exchanged_of_pair {l l' : Li} (h : l.pair = l'.pair) (hne : l.pcmSlotRx ≠ l'.pcmSlotRx) :
    l.pcmSlotTx = l'.pcmSlotRx ∧ l.pcmSlotRx = l'.pcmSlotTx := by
  rcases Sym2.eq_iff.mp h with ⟨-, hrx⟩ | h
  · exact absurd hrx hne
  · exact h

theorem inv_init (cfg : Config) : Inv (Slots.init cfg) fun _ => cdidUnused where
  valid e he := absurd rfl he
  table e he := absurd rfl he
  aligned e he := absurd rfl he
  bits c b := by
    refine ⟨fun h => ?_, fun ⟨e, he, _⟩ => absurd rfl he⟩
    simp [Slots.bit, Bitmap.getBit, Slots.init] at h
  inj e e' he := absurd rfl he
  shared e e' he := absurd rfl he

section store

variable {s t : Slots cfg} {o : Origin cfg} {cdid dst c slot : Nat} {e : Entry cfg}

theorem Stored.li_self (h : Stored s cdid c slot e t) :
    t.li e = ⟨cdid, c, peerSlot cfg c slot, slot⟩ := by
  rw [h.eq, Slots.li_setLi, Function.update_self]

theorem Stored.li_of_ne (h : Stored s cdid c slot e t) {e' : Entry cfg} (hne : e' ≠ e) :
    t.li e' = s.li e' := by
  rw [h.eq, Slots.li_setLi, Function.update_of_ne hne, Slots.li_setBit]

theorem Stored.live_self (h : Stored s cdid c slot e t) : t.Live e := by
  rw [Slots.Live, h.li_self]
  exact h.cdid_ne

theorem Stored.live_of_ne (h : Stored s cdid c slot e t) {e' : Entry cfg} (hne : e' ≠ e) :
    t.Live e' ↔ s.Live e' := by
  rw [Slots.Live, Slots.Live, h.li_of_ne hne]

/-- **An entry is stored.** Its slots are a pair, and whoever uses the pair already is the
destination. -/
theorem Inv.store (hi : Inv s o) (h : Stored s cdid c slot e t) (hc : c < pcmCableMax)
    (hal : Aligned cfg (t.li e))
    (hdst : ∀ e', s.Live e' → (s.li e').pcmCable = c → (s.li e').pcmSlotRx = slot →
      (s.li e').cdid = dst) :
    Inv t (Function.update o e dst) := by
  have hself := h.li_self
  -- nobody received in this slot
  have hfresh : ∀ e', s.Live e' → (s.li e').pcmCable = c →
      (s.li e').pcmSlotRx ≠ peerSlot cfg c slot := by
    intro e' he' hc' hrx
    have := (hi.bits c (peerSlot cfg c slot)).mpr ⟨e', he', hc', hrx⟩
    rw [h.clear] at this
    exact absurd this (by simp)
  have hnew : ∀ e', e' ≠ e → t.Live e' → (t.li e').pcmCable = (t.li e).pcmCable →
      (t.li e').pcmSlotRx ≠ (t.li e).pcmSlotRx := by
    intro e' hne he' hcab
    rw [h.li_of_ne hne, hself] at hcab
    rw [h.li_of_ne hne, hself]
    exact hfresh e' ((h.live_of_ne hne).mp he') hcab
  have hbridge : ∀ e', e' ≠ e → t.Live e' → (t.li e').pcmCable = (t.li e).pcmCable →
      (t.li e').pair = (t.li e).pair → Bridged t (Function.update o e dst) e' e := by
    intro e' hne he' hcab hpair
    obtain ⟨htx, hrx⟩ := exchanged_of_pair hpair (hnew e' hne he' hcab)
    refine ⟨htx, hrx, .inr ?_⟩
    rw [h.li_of_ne hne, hself] at hcab hrx
    rw [Function.update_self, h.li_of_ne hne]
    exact (hdst e' ((h.live_of_ne hne).mp he') hcab hrx).symm
  constructor
  · intro e' he'
    by_cases hne : e' = e
    · subst hne
      rw [hself]
      exact hc
    · rw [h.li_of_ne hne]
      exact hi.valid e' ((h.live_of_ne hne).mp he')
  · intro e' he'
    by_cases hne : e' = e
    · subst hne
      rw [hself]
      exact h.table
    · rw [h.li_of_ne hne]
      exact hi.table e' ((h.live_of_ne hne).mp he')
  · intro e' he'
    by_cases hne : e' = e
    · subst hne
      exact hal
    · rw [h.li_of_ne hne]
      exact hi.aligned e' ((h.live_of_ne hne).mp he')
  · intro c' b
    rw [h.eq, Slots.bit_setLi, Slots.bit_setBit, ← h.eq]
    split
    · rename_i hcb
      refine ⟨fun _ => ⟨e, h.live_self, ?_⟩, fun _ => rfl⟩
      rw [hself]
      exact ⟨hcb.1.symm, hcb.2.symm⟩
    · rename_i hcb
      rw [hi.bits]
      constructor
      · rintro ⟨e', he', hrest⟩
        have hne : e' ≠ e := fun heq => he' (by rw [heq]; exact h.free)
        exact ⟨e', (h.live_of_ne hne).mpr he', by rwa [h.li_of_ne hne]⟩
      · rintro ⟨e', he', hc', hb'⟩
        have hne : e' ≠ e := by
          rintro rfl
          rw [hself] at hc' hb'
          exact hcb ⟨hc'.symm, hb'.symm⟩
        rw [h.li_of_ne hne] at hc' hb'
        exact ⟨e', (h.live_of_ne hne).mp he', hc', hb'⟩
  · intro e₁ e₂ h₁ h₂ hcab hrx
    by_cases hne₁ : e₁ = e
    · by_contra hne
      subst hne₁
      exact hnew e₂ (Ne.symm hne) h₂ hcab.symm hrx.symm
    · by_cases hne₂ : e₂ = e
      · subst hne₂
        exact absurd hrx (hnew e₁ hne₁ h₁ hcab)
      · rw [h.li_of_ne hne₁, h.li_of_ne hne₂] at hcab hrx
        exact hi.inj e₁ e₂ ((h.live_of_ne hne₁).mp h₁) ((h.live_of_ne hne₂).mp h₂) hcab hrx
  · intro e₁ e₂ h₁ h₂ hne hcab hpair
    by_cases hne₁ : e₁ = e
    · subst hne₁
      exact (hbridge e₂ (Ne.symm hne) h₂ hcab.symm hpair.symm).symm
    · by_cases hne₂ : e₂ = e
      · subst hne₂
        exact hbridge e₁ hne₁ h₁ hcab hpair
      · rw [h.li_of_ne hne₁, h.li_of_ne hne₂] at hcab hpair
        rw [Bridged, h.li_of_ne hne₁, h.li_of_ne hne₂, Function.update_of_ne hne₁,
          Function.update_of_ne hne₂]
        exact hi.shared e₁ e₂ ((h.live_of_ne hne₁).mp h₁) ((h.live_of_ne hne₂).mp h₂) hne hcab hpair

end store

/-! ## One call -/

section call

variable {s : Slots cfg} {o : Origin cfg}

theorem Inv.slotLiAlloc (hi : Inv s o) {cdid dst c slot : Nat} (hc : c < pcmCableMax)
    (hal : Aligned cfg ⟨cdid, c, peerSlot cfg c slot, slot⟩)
    (hdst : ∀ e', s.Live e' → (s.li e').pcmCable = c → (s.li e').pcmSlotRx = slot →
      (s.li e').cdid = dst) :
    Inv (slotLiAlloc s cdid c slot).2 (record o dst (slotLiAlloc s cdid c slot).1) := by
  rcases slotLiAlloc_cases s cdid c slot with ⟨-, e, he, hst⟩ | ⟨-, hnone⟩
  · rw [he]
    refine hi.store hst hc ?_ hdst
    rw [hst.li_self]
    exact hal
  · rw [hnone]
    exact hi

/-- The pair a joining end gets is its partner's, the other way. -/
theorem aligned_join {l : Li} (h : Aligned cfg l) (cdid : Nat) :
    Aligned cfg ⟨cdid, l.pcmCable, peerSlot cfg l.pcmCable l.pcmSlotRx, l.pcmSlotRx⟩ := by
  rw [h.peer]
  obtain ⟨y, hy, h | h⟩ := h
  · exact ⟨y, hy, .inr h.symm⟩
  · exact ⟨y, hy, .inl h.symm⟩

theorem Inv.alloc (hi : Inv s o) (src dst : Nat) :
    Inv (i4bSlotLiAlloc s src dst).2 (record o dst (i4bSlotLiAlloc s src dst).1) := by
  rw [i4bSlotLiAlloc]
  cases hsearch : i4bLiSearch s dst with
  | some d =>
    obtain ⟨hd, hcd⟩ := i4bLiSearch_some hsearch
    refine hi.slotLiAlloc (hi.valid d hd) (aligned_join (hi.aligned d hd) src) ?_
    -- the only entry that receives in the partner's slot is the partner
    intro e' he' hc' hrx
    rw [hi.inj e' d he' hd hc' hrx]
    exact hcd
  | none =>
    dsimp only
    cases hcab : searchCables s (cntlFind src) (cntlFind dst) with
    | none => exact hi
    | some cy =>
      obtain ⟨c, y⟩ := cy
      obtain ⟨hcom, hy, hbit, -⟩ := searchCables_some hcab
      refine hi.slotLiAlloc hcom.1 ⟨y, hy, .inl ⟨rfl, peerSlot_of_lt hy⟩⟩ ?_
      intro e' he' hc' hrx
      have := (hi.bits c y).mpr ⟨e', he', hc', hrx⟩
      rw [hbit] at this
      exact absurd this (by simp)

theorem li_free_self (s : Slots cfg) (e : Entry cfg) : (i4bSlotLiFree s e).li e = Li.zero := by
  rw [i4bSlotLiFree, Slots.li_setLi, Function.update_self]

theorem li_free_of_ne (s : Slots cfg) {e e' : Entry cfg} (hne : e' ≠ e) :
    (i4bSlotLiFree s e).li e' = s.li e' := by
  rw [i4bSlotLiFree, Slots.li_setLi, Function.update_of_ne hne, Slots.li_setBit]

/-- What is live after an entry was freed. -/
theorem live_free {e e' : Entry cfg} :
    (i4bSlotLiFree s e).Live e' ↔ e' ≠ e ∧ s.Live e' := by
  by_cases hne : e' = e
  · subst hne
    rw [Slots.Live, li_free_self]
    simp [Li.zero]
  · rw [Slots.Live, li_free_of_ne s hne]
    simp [hne, Slots.Live]

theorem Inv.free (hi : Inv s o) {e : Entry cfg} (he : s.Live e) : Inv (i4bSlotLiFree s e) o := by
  constructor
  · intro e' he'
    obtain ⟨hne, he'⟩ := live_free.mp he'
    rw [li_free_of_ne s hne]
    exact hi.valid e' he'
  · intro e' he'
    obtain ⟨hne, he'⟩ := live_free.mp he'
    rw [li_free_of_ne s hne]
    exact hi.table e' he'
  · intro e' he'
    obtain ⟨hne, he'⟩ := live_free.mp he'
    rw [li_free_of_ne s hne]
    exact hi.aligned e' he'
  · intro c b
    rw [i4bSlotLiFree, Slots.bit_setLi, Slots.bit_setBit, ← i4bSlotLiFree]
    split
    · rename_i hcb
      refine ⟨fun h => absurd h (by simp), ?_⟩
      -- no other entry receives in the slot that was freed
      rintro ⟨e', he', hc', hb'⟩
      obtain ⟨hne, he'⟩ := live_free.mp he'
      rw [li_free_of_ne s hne, hcb.1] at hc'
      rw [li_free_of_ne s hne, hcb.2] at hb'
      exact absurd (hi.inj e' e he' he hc' hb') hne
    · rename_i hcb
      rw [hi.bits]
      constructor
      · rintro ⟨e', he', hc', hb'⟩
        have hne : e' ≠ e := by
          rintro rfl
          exact hcb ⟨hc'.symm, hb'.symm⟩
        exact ⟨e', live_free.mpr ⟨hne, he'⟩, by rw [li_free_of_ne s hne]; exact ⟨hc', hb'⟩⟩
      · rintro ⟨e', he', hrest⟩
        obtain ⟨hne, he'⟩ := live_free.mp he'
        rw [li_free_of_ne s hne] at hrest
        exact ⟨e', he', hrest⟩
  · intro e₁ e₂ h₁ h₂ hcab hrx
    obtain ⟨hne₁, h₁⟩ := live_free.mp h₁
    obtain ⟨hne₂, h₂⟩ := live_free.mp h₂
    rw [li_free_of_ne s hne₁, li_free_of_ne s hne₂] at hcab hrx
    exact hi.inj e₁ e₂ h₁ h₂ hcab hrx
  · intro e₁ e₂ h₁ h₂ hne hcab hpair
    obtain ⟨hne₁, h₁⟩ := live_free.mp h₁
    obtain ⟨hne₂, h₂⟩ := live_free.mp h₂
    rw [li_free_of_ne s hne₁, li_free_of_ne s hne₂] at hcab hpair
    rw [Bridged, li_free_of_ne s hne₁, li_free_of_ne s hne₂]
    exact hi.shared e₁ e₂ h₁ h₂ hne hcab hpair

end call

theorem Reach.inv {P : Slots cfg → Nat → Nat → Prop} {s : Slots cfg} {o : Origin cfg}
    (h : Reach cfg P s o) : Inv s o := by
  induction h with
  | init => exact inv_init cfg
  | alloc src dst _ _ ih => exact ih.alloc src dst
  | free e _ he ih => exact ih.free he

/-! ## The slots -/

/-- Nobody uses the pair of `y` on this cable. -/
def PairFree (s : Slots cfg) (c y : Nat) : Prop :=
  y < pcmEnd cfg c ∧ ∀ e, s.Live e → (s.li e).pcmCable = c →
    (s.li e).pair ≠ s(y, y + pcmEnd cfg c)

/-- A slot of a pair nobody uses is clear in the bitmap. -/
theorem Inv.clear_of_pairFree {s : Slots cfg} {o : Origin cfg} (hi : Inv s o) {c y : Nat}
    (h : PairFree s c y) : (s.bit c y || s.bit c (y + pcmEnd cfg c)) = false := by
  have hclear : ∀ b, peerSlot cfg c b = y ∧ b = y + pcmEnd cfg c ∨
      peerSlot cfg c b = y + pcmEnd cfg c ∧ b = y → s.bit c b = false := by
    intro b hb
    by_contra hset
    obtain ⟨e, he, hc, hrx⟩ := (hi.bits c b).mp (by simpa using hset)
    have htx := (hi.aligned e he).peer
    rw [hc, hrx] at htx
    apply h.2 e he hc
    rw [Li.pair, ← htx, hrx, Sym2.eq_iff]
    exact hb
  rw [hclear y (.inr ⟨peerSlot_of_lt h.1, rfl⟩),
    hclear _ (.inl ⟨peerSlot_add cfg c y, rfl⟩), Bool.or_self]

/-- A pair that both controllers can reach is found, and there is a place for it in the table. -/
theorem Inv.alloc_isSome {s : Slots cfg} {o : Origin cfg} (hi : Inv s o) {src dst : Nat}
    (hsrc : src ≠ cdidUnused) (hdst : ∀ e, s.Live e → (s.li e).cdid ≠ dst)
    (hfree : ∃ i, (s.li ⟨cntlFind src, i⟩).cdid = cdidUnused)
    (hpair : ∃ c y, Common cfg (cntlFind src) (cntlFind dst) c ∧ PairFree s c y) :
    (i4bSlotLiAlloc s src dst).1.isSome = true := by
  obtain ⟨c, y, hcom, hpf⟩ := hpair
  have hsearch : i4bLiSearch s dst = none := by
    cases h : i4bLiSearch s dst with
    | none => rfl
    | some d => exact absurd (i4bLiSearch_some h).2 (hdst d (i4bLiSearch_some h).1)
  rw [i4bSlotLiAlloc, hsearch]
  dsimp only
  cases hcab : searchCables s (cntlFind src) (cntlFind dst) with
  | none =>
    have := searchCables_none hcab hcom hpf.1
    rw [hi.clear_of_pairFree hpf] at this
    exact absurd this (by simp)
  | some cy =>
    obtain ⟨c', y'⟩ := cy
    obtain ⟨-, hy', -, hbit⟩ := searchCables_some hcab
    rw [← peerSlot_of_lt hy'] at hbit
    rcases slotLiAlloc_cases s src c' y' with ⟨-, e, he, -⟩ | ⟨hno, -⟩
    · rw [he]
      rfl
    · exact absurd ⟨hsrc, hbit, hfree⟩ hno

/-- **The slots of the cables.** After any calls, for any lengths of the cables that are even and
not over 128: a bit is set if and only if one live entry, and no other, receives in its slot; the
two slots of a live entry are a pair; a pair is shared only the other way, with an entry whose
descriptor was the destination, or that was allocated for this one; and a call for an end that holds
no entry gets one if the table has room and both controllers reach a free pair. -/
theorem slots_of_reach (cfg : Config) (s : Slots cfg) (o : Origin cfg)
    (h : Reach cfg AnyCall s o) :
    (∀ c b, s.bit c b = true ↔
      ∃! e, s.Live e ∧ (s.li e).pcmCable = c ∧ (s.li e).pcmSlotRx = b) ∧
    (∀ e, s.Live e → (s.li e).pcmCable < pcmCableMax ∧ Aligned cfg (s.li e)) ∧
    (∀ e e', s.Live e → s.Live e' → e ≠ e' → (s.li e).pcmCable = (s.li e').pcmCable →
      (s.li e).pair = (s.li e').pair → Bridged s o e e') ∧
    (∀ src dst, src ≠ cdidUnused → (∀ e, s.Live e → (s.li e).cdid ≠ dst) →
      (∃ i, (s.li ⟨cntlFind src, i⟩).cdid = cdidUnused) →
      (∃ c y, Common cfg (cntlFind src) (cntlFind dst) c ∧ PairFree s c y) →
      (i4bSlotLiAlloc s src dst).1.isSome = true) := by
  have hi := h.inv
  refine ⟨fun c b => ?_, fun e he => ⟨hi.valid e he, hi.aligned e he⟩, hi.shared,
    fun src dst => hi.alloc_isSome⟩
  rw [hi.bits]
  constructor
  · rintro ⟨e, he, hc, hb⟩
    refine ⟨e, ⟨he, hc, hb⟩, fun e' he' => ?_⟩
    exact hi.inj e' e he'.1 he (he'.2.1.trans hc.symm) (he'.2.2.trans hb.symm)
  · rintro ⟨e, he, -⟩
    exact ⟨e, he⟩

/-- Three controllers, two of which are on a cable the third is not on. -/
def threeControllers : Config where
  liCount := fun _ => 2
  pcmCableMap := fun u => if u = cntlFind 66 then [1] else [0]
  slotEnd := fun _ => 64
  slotEnd_le := fun _ => by decide
  slotEnd_even := fun _ => rfl

/-- One end of a bridge between the first two. -/
def firstEnd : Option (Entry threeControllers) × Slots threeControllers :=
  i4bSlotLiAlloc (Slots.init threeControllers) 65 64

theorem reach_firstEnd {P : Slots threeControllers → Nat → Nat → Prop}
    (hp : P (Slots.init threeControllers) 65 64) :
    Reach threeControllers P firstEnd.2 (record (fun _ => cdidUnused) 64 firstEnd.1) :=
  .alloc 65 64 .init hp

theorem slots_of_reach_firstEnd :
    firstEnd.2.bit 0 32 = true ∧
      ∃! e, firstEnd.2.Live e ∧ (firstEnd.2.li e).pcmCable = 0 ∧ (firstEnd.2.li e).pcmSlotRx = 32 :=
  have hbit : firstEnd.2.bit 0 32 = true := by decide
  ⟨hbit, ((slots_of_reach _ _ _ (reach_firstEnd trivial)).1 0 32).mp hbit⟩

/-! ## The cables -/

/-- Every live entry is on a cable of the controller whose table it is in. -/
def CablesOwn (s : Slots cfg) : Prop := ∀ e, s.Live e → (s.li e).pcmCable ∈ cfg.pcmCableMap e.1

/-- If the other end holds an entry whose peer slot can be had, its cable is one of the source's. -/
def JoinOk (s : Slots cfg) (src dst : Nat) : Prop :=
  ∀ d, i4bLiSearch s dst = some d → Room s src (s.li d).pcmCable (s.li d).pcmSlotRx →
    (s.li d).pcmCable ∈ cfg.pcmCableMap (cntlFind src)

section cables

variable {s t : Slots cfg}

theorem cablesOwn_stored (h : CablesOwn s) {cdid c slot : Nat} {e : Entry cfg}
    (hst : Stored s cdid c slot e t) : CablesOwn t ↔ c ∈ cfg.pcmCableMap (cntlFind cdid) := by
  constructor
  · intro ht
    have := ht e hst.live_self
    rwa [hst.li_self, hst.table] at this
  · intro hc e' he'
    by_cases hne : e' = e
    · subst hne
      rwa [hst.li_self, hst.table]
    · rw [hst.li_of_ne hne]
      exact h e' ((hst.live_of_ne hne).mp he')

/-- **One allocation.** Only a joining end can leave its controller's cables. -/
theorem cablesOwn_alloc (h : CablesOwn s) (src dst : Nat) :
    CablesOwn (i4bSlotLiAlloc s src dst).2 ↔ JoinOk s src dst := by
  rw [i4bSlotLiAlloc, JoinOk]
  cases hsearch : i4bLiSearch s dst with
  | some d =>
    have hjoin : (∀ d', some d = some d' → Room s src (s.li d').pcmCable (s.li d').pcmSlotRx →
          (s.li d').pcmCable ∈ cfg.pcmCableMap (cntlFind src)) ↔
        (Room s src (s.li d).pcmCable (s.li d).pcmSlotRx →
          (s.li d).pcmCable ∈ cfg.pcmCableMap (cntlFind src)) := by simp
    rw [hjoin]
    rcases slotLiAlloc_cases s src (s.li d).pcmCable (s.li d).pcmSlotRx
      with ⟨hroom, e, -, hst⟩ | ⟨hno, heq⟩
    · exact (cablesOwn_stored h hst).trans ⟨fun hc _ => hc, fun hc => hc hroom⟩
    · dsimp only
      rw [heq]
      exact ⟨fun _ hroom => absurd hroom hno, fun _ => h⟩
  | none =>
    refine ⟨fun _ d hd => absurd hd (by simp), fun _ => ?_⟩
    dsimp only
    cases hcab : searchCables s (cntlFind src) (cntlFind dst) with
    | none => exact h
    | some cy =>
      obtain ⟨c, y⟩ := cy
      have hcom := (searchCables_some hcab).1
      rcases slotLiAlloc_cases s src c y with ⟨-, e, -, hst⟩ | ⟨-, heq⟩
      · exact (cablesOwn_stored h hst).mpr hcom.2.1
      · dsimp only
        rw [heq]
        exact h

theorem cablesOwn_free (h : CablesOwn s) (e : Entry cfg) : CablesOwn (i4bSlotLiFree s e) := by
  intro e' he'
  obtain ⟨hne, he'⟩ := live_free.mp he'
  rw [li_free_of_ne s hne]
  exact h e' he'

end cables

/-- **The cables of the entries.** In a run in which every end that joins a bridge has the bridge's
cable, every live entry is on a cable of its controller; and the first call that does not meet this
puts an entry on a cable its controller does not have. -/
theorem cables_of_reach (cfg : Config) (s : Slots cfg) (o : Origin cfg)
    (h : Reach cfg JoinOk s o) :
    CablesOwn s ∧ ∀ src dst, CablesOwn (i4bSlotLiAlloc s src dst).2 ↔ JoinOk s src dst := by
  have hown : CablesOwn s := by
    induction h with
    | init => exact fun e he => absurd rfl he
    | alloc src dst _ hp ih => exact (cablesOwn_alloc ih src dst).mpr hp
    | free e _ _ ih => exact cablesOwn_free ih e
  exact ⟨hown, cablesOwn_alloc hown⟩

theorem joinOk_firstEnd : JoinOk (Slots.init threeControllers) 65 64 := by
  intro d hd
  have : i4bLiSearch (Slots.init threeControllers) 64 = none := by decide
  rw [this] at hd
  exact absurd hd (by simp)

/-- The second end joins on the cable it shares with the first. -/
theorem cables_of_reach_firstEnd :
    JoinOk firstEnd.2 64 65 ∧ CablesOwn (i4bSlotLiAlloc firstEnd.2 64 65).2 := by
  have hown := (cables_of_reach _ _ _ (reach_firstEnd joinOk_firstEnd)).2 64 65
  have hjoin : JoinOk firstEnd.2 64 65 := by
    intro d hd _
    have hfind : i4bLiSearch firstEnd.2 65 = some ⟨cntlFind 65, 0, by decide⟩ := by
      decide
    rw [hfind] at hd
    obtain rfl := Option.some.inj hd
    decide
  exact ⟨hjoin, hown.mpr hjoin⟩

/-- A controller that is only on the second cable joins a bridge on the first. -/
theorem join_foreign_cable :
    ¬ ∀ (cfg : Config) (s : Slots cfg) (o : Origin cfg), Reach cfg AnyCall s o → CablesOwn s := by
  intro hall
  have hown := hall _ _ _ (Reach.alloc 66 65 (reach_firstEnd trivial) trivial)
  exact absurd (hown ⟨cntlFind 66, 0, by decide⟩ (by decide)) (by decide)

end Interconnect
end Isdn4bsd
