import Isdn4bsd.Hdlc.Decode

/-!
# What the HDLC decoder does to its buffer

The results so far are about lines that carry frames.  This file is about any line at all: noise, a
line cut off in the middle of a frame, or buffers of any length, and also none.  It looks at the
commands `HDLC_DECODE` executes for a byte, in their order (`hdlcActions`).

* `Legal` is what the header of `i4b_hdlc.h` promises of them: a buffer is asked for, written at most
  as often as it has bytes, and given back by exactly one of three commands.
* `Decoder.Room` ties the decoder's variables to a buffer that is in use.
* `decode_safe` : **every line is decoded legally.**  A frame of a single byte is handed over with
  one byte more left than there was, which the receive filter throws away.

## The commands as a protocol

The macro is used with commands of the caller: `nfr` for a new frame, a write to `dst`, `cfr` for a frame that is
complete, `rab` and `rdo` for one that is not.  The macro has no buffer of its own, so all it can do right or wrong is
the order of these commands, and how often it writes.  `Action.track` follows a buffer through a list of commands, and
`Allowed` says which may come next.

The length of the buffer is what `nfr` sets `len` to; it may be zero, for want of a buffer, and then nothing may be
written.  What is left is `len` when the frame is complete, plus the two bytes of the check sequence, which were
stored as well if there was room.  Of a frame that has only one byte these two cannot have been stored, and the sum
is larger than the buffer.
-/

set_option autoImplicit false

namespace Isdn4bsd
namespace Hdlc

/-! ## The commands -/

/-- The commands of `HDLC_DECODE`, the writes to `dst` and the updates of `crc`. -/
inductive Action where
  /-- `nfr`, with the length of the buffer that was set up, or a reset. -/
  | nfr (answer : Option UInt16)
  /-- Label `j3`. -/
  | store
  /-- Label `j4`. -/
  | check
  /-- `cfr`, with `len` and `crc` as they are then. -/
  | cfr (len crc : Nat)
  | rab
  | rdo
  deriving DecidableEq, Repr

namespace Decoder

/-- `len` when a frame is complete. -/
def remaining (s : Decoder) : Nat := (s.len + ((4 + 2 ^ 8 - s.flag) &&& 3)) % 2 ^ 16

/-- Label `j00`. -/
def completeActions (s : Decoder) : List Action := [.cfr s.remaining (s.crc ^^^ 0xf0b8)]

/-- Label `j0`. -/
def flagSeqActions (s : Decoder) : List Action := if 2 ≤ s.flag then s.completeActions else []

/-- The abort branch. -/
def abortActions (s : Decoder) (ib : Nat) : List Action :=
  if 2 ≤ s.flag then if lo8 ib = 0x16 then s.completeActions else [.rab] else []

/-- `case 2`. -/
def newFrameActions : Option UInt16 → List Action
  | some m => if m.toNat = 0 then [.nfr (some m), .check] else [.nfr (some m), .store, .check]
  | none => [.nfr none, .check]

/-- From `if (!len--)` to label `j5`. -/
def storeActions (nfr : Option UInt16) (s : Decoder) : List Action :=
  if s.len ≠ 0 then [.store, .check]
  else if s.flag = 0 then []
  else
    match (s.flag + 1) % 2 ^ 8 with
    | 2 => newFrameActions nfr
    | 3 => [.check]
    | 4 => [.check]
    | 5 => [.rdo]
    | _ => []

end Decoder

/-- The commands one `HDLC_DECODE` executes. -/
def hdlcActions (nfr : Option UInt16) (s : Decoder) (b : UInt8) : List Action :=
  match destuff s.ib b.toNat with
  | .plain _ => s.storeActions nfr
  | .data _ _ drop => if 7 < (s.blevel + 2 ^ 8 - drop) % 2 ^ 8 then [] else s.storeActions nfr
  | .flag _ _ => s.flagSeqActions
  | .abort ib _ _ => s.abortActions ib

/-! ## Which commands are legal -/

/-- A buffer in use: its length, how often it was written, and how many bytes of the frame came. -/
structure InUse where
  len : Nat
  stored : Nat
  taken : Nat
  deriving DecidableEq, Repr

/-- What a command does to the buffer in use. -/
def Action.track : Option InUse → Action → Option InUse
  | _, .nfr answer => answer.map fun m => ⟨m.toNat, 0, 0⟩
  | o, .store => o.map fun u => { u with stored := u.stored + 1 }
  | o, .check => o.map fun u => { u with taken := u.taken + 1 }
  | _, .cfr _ _ => none
  | _, .rab => none
  | _, .rdo => none

/-- May the command come now?  `ok` is what is asked of the length of the buffer, the bytes of the
frame and the remaining length at `cfr`. -/
def Action.Allowed (ok : Nat → Nat → Nat → Prop) : Option InUse → Action → Prop
  | none, .nfr _ => True
  | none, .check => True
  | none, _ => False
  | some _, .nfr _ => False
  | some u, .store => u.stored < u.len
  | some _, .check => True
  | some u, .cfr len _ => ok u.len u.taken len
  | some _, .rab => True
  | some _, .rdo => True

/-- Every command of the list may come when it does. -/
def Legal (ok : Nat → Nat → Nat → Prop) : Option InUse → List Action → Prop
  | _, [] => True
  | o, a :: as => a.Allowed ok o ∧ Legal ok (a.track o) as

/-- The buffer in use after the list. -/
def after (o : Option InUse) (as : List Action) : Option InUse := as.foldl Action.track o

theorem legal_append (ok : Nat → Nat → Nat → Prop) (o : Option InUse) (as bs : List Action) :
    Legal ok o (as ++ bs) ↔ Legal ok o as ∧ Legal ok (after o as) bs := by
  induction as generalizing o with
  | nil => simp [Legal, after]
  | cons a as ih =>
    simp only [List.cons_append, Legal, ih, and_assoc]
    rfl

/-- The remaining length is not over the length of the buffer.  Only where the frame was a single
byte it is over it by one. -/
def RoomLeft (m taken len : Nat) : Prop := len ≤ m ∨ taken = 1 ∧ len = (m + 1) % 2 ^ 16

/-! ## The invariant -/

/-- The variables of the decoder, and the buffer in use.  Bytes that do not fit are counted in
`flag`, since the last two of a frame need no room. -/
def Decoder.Room (d : Decoder) : Option InUse → Prop
  | none => d.flag ≤ 1 ∧ d.len = 0
  | some u => d.mlen = u.len ∧ u.len < 2 ^ 16 ∧ d.buf.length = u.stored ∧ 1 ≤ u.taken ∧
    (d.flag = 2 ∧ u.stored = u.taken ∧ d.len + u.taken = u.len ∨
      d.flag = 3 ∧ u.stored = u.len ∧ d.len = 0 ∧ u.taken = u.len + 1 ∨
      d.flag = 4 ∧ u.stored = u.len ∧ d.len = 0 ∧ u.taken = u.len + 2)

namespace Decoder.Room

variable {d : Decoder} {o : Option InUse}

/-- The register, its level and the count of ones are of no account. -/
theorem congr {e : Decoder} (h : d.Room o) (hflag : e.flag = d.flag) (hlen : e.len = d.len)
    (hmlen : e.mlen = d.mlen) (hbuf : e.buf = d.buf) : e.Room o := by
  cases o with
  | none => exact ⟨by rw [hflag]; exact h.1, by rw [hlen]; exact h.2⟩
  | some u =>
    rw [Room] at h ⊢
    rwa [hflag, hlen, hmlen, hbuf]

theorem flag_le (h : d.Room o) : d.flag ≤ 4 := by
  cases o with
  | none => exact h.1.trans (by decide)
  | some u =>
    obtain ⟨-, -, -, -, h | h | h⟩ := h <;> omega

theorem isSome_iff (h : d.Room o) : o.isSome = true ↔ 2 ≤ d.flag := by
  cases o with
  | none =>
    have := h.1
    simp only [Option.isSome_none, Bool.false_eq_true, false_iff]
    omega
  | some u =>
    obtain ⟨-, -, -, -, h | h | h⟩ := h <;> simp <;> omega

/-- A complete frame. -/
theorem roomLeft {u : InUse} (h : d.Room (some u)) : RoomLeft u.len u.taken d.remaining := by
  obtain ⟨-, hlt, -, hpos, ⟨hf, -, hl⟩ | ⟨hf, -, hl, ht⟩ | ⟨hf, -, hl, ht⟩⟩ := h
  · rw [RoomLeft, remaining, hf, show (4 + 2 ^ 8 - 2) &&& 3 = 2 from rfl]
    omega
  · rw [RoomLeft, remaining, hf, hl, show (4 + 2 ^ 8 - 3) &&& 3 = 1 from rfl]
    omega
  · rw [RoomLeft, remaining, hf, hl, show (4 + 2 ^ 8 - 4) &&& 3 = 0 from rfl]
    omega

theorem complete_legal (h : d.Room o) (hflag : 2 ≤ d.flag) :
    Legal RoomLeft o d.completeActions ∧ after o d.completeActions = none := by
  cases o with
  | none =>
    have := h.1
    omega
  | some u => exact ⟨⟨h.roomLeft, trivial⟩, rfl⟩

/-- After a flag no buffer is in use. -/
theorem restart (ib tmp2 : Nat) (hlen : d.len = 0) : (d.restart ib tmp2).Room none :=
  ⟨Nat.le_refl 1, hlen⟩

theorem flagSeq_spec (h : d.Room o) (ib tmp2 : Nat) :
    Legal RoomLeft o d.flagSeqActions ∧
      (d.flagSeq ib tmp2).1.Room (after o d.flagSeqActions) := by
  rw [flagSeq, flagSeqActions]
  split
  · rename_i hflag
    obtain ⟨hlegal, hafter⟩ := h.complete_legal hflag
    rw [hafter]
    exact ⟨hlegal, Room.restart ib tmp2 rfl⟩
  · rename_i hflag
    cases o with
    | none => exact ⟨trivial, Room.restart ib tmp2 h.2⟩
    | some u => exact absurd (h.isSome_iff.mp rfl) hflag

theorem abort_spec (h : d.Room o) (ib tmp2 drop : Nat) :
    Legal RoomLeft o (d.abortActions ib) ∧
      (d.abort ib tmp2 drop).1.Room (after o (d.abortActions ib)) := by
  rw [abort, abortActions]
  dsimp only
  split
  · rename_i hflag
    split
    · obtain ⟨hlegal, hafter⟩ := h.complete_legal hflag
      rw [hafter]
      exact ⟨hlegal, Room.restart ib tmp2 rfl⟩
    · cases o with
      | none =>
        have := h.1
        omega
      | some u => exact ⟨⟨trivial, trivial⟩, Nat.zero_le 1, rfl⟩
  · rename_i hflag
    cases o with
    | none => exact ⟨trivial, Nat.zero_le 1, h.2⟩
    | some u => exact absurd (h.isSome_iff.mp rfl) hflag

/-- The first byte of a frame. -/
theorem newFrame_spec (h : d.Room none) (nfr : Option UInt16) :
    Legal RoomLeft none (newFrameActions nfr) ∧
      (d.newFrame (nfr.map UInt16.toNat)).Room (after none (newFrameActions nfr)) := by
  cases nfr with
  | none => exact ⟨⟨trivial, trivial, trivial⟩, Nat.zero_le 1, h.2⟩
  | some m =>
    have hm : m.toNat < 2 ^ 16 := m.toNat_lt
    simp only [newFrameActions, Option.map_some, newFrame]
    by_cases hzero : m.toNat = 0
    · rw [if_pos hzero, if_pos hzero]
      refine ⟨⟨trivial, trivial, trivial⟩, ?_⟩
      refine ⟨rfl, hm, rfl, Nat.le_refl 1, .inr (.inl ⟨rfl, hzero.symm, hzero, ?_⟩)⟩
      change 0 + 1 = m.toNat + 1
      rw [hzero]
    · rw [if_neg hzero, if_neg hzero]
      refine ⟨⟨trivial, Nat.pos_of_ne_zero hzero, trivial, trivial⟩, ?_⟩
      exact ⟨rfl, hm, rfl, Nat.le_refl 1,
        .inl ⟨rfl, rfl, Nat.sub_add_cancel (Nat.pos_of_ne_zero hzero)⟩⟩

theorem store_spec (h : d.Room o) (nfr : Option UInt16) :
    Legal RoomLeft o (d.storeActions nfr) ∧
      (d.store (nfr.map UInt16.toNat)).1.Room (after o (d.storeActions nfr)) := by
  rw [store, storeActions]
  by_cases hlen : d.len = 0
  · rw [if_neg (not_not.mpr hlen), if_neg (not_not.mpr hlen)]
    cases o with
    | none =>
      by_cases hflag : d.flag = 0
      · rw [if_pos hflag, if_pos hflag]
        exact ⟨trivial, by rw [hflag]; exact Nat.zero_le 1, hlen⟩
      · obtain hone : d.flag = 1 := by
          have := h.1
          omega
        rw [if_neg hflag, if_neg hflag, hone]
        exact newFrame_spec h nfr
    | some u =>
      obtain ⟨hmlen, hlt, hbuf, hpos, ⟨hf, hst, hl⟩ | ⟨hf, hst, -, ht⟩ | ⟨hf, hst, -, ht⟩⟩ := h
      · rw [hf]
        refine ⟨⟨trivial, trivial⟩, hmlen, hlt, hbuf, Nat.le_add_left 1 _, .inr (.inl ?_)⟩
        have hall : u.taken = u.len := by omega
        exact ⟨rfl, hst.trans hall, hlen, congrArg (· + 1) hall⟩
      · rw [hf]
        refine ⟨⟨trivial, trivial⟩, hmlen, hlt, hbuf, Nat.le_add_left 1 _, .inr (.inr ?_)⟩
        exact ⟨rfl, hst, hlen, congrArg (· + 1) ht⟩
      · rw [hf]
        exact ⟨⟨trivial, trivial⟩, Nat.zero_le 1, hlen⟩
  · rw [if_pos hlen, if_pos hlen]
    cases o with
    | none => exact absurd h.2 hlen
    | some u =>
      obtain ⟨hmlen, hlt, hbuf, hpos, ⟨hf, hst, hl⟩ | ⟨-, -, hl, -⟩ | ⟨-, -, hl, -⟩⟩ := h
      · have hroom : u.stored < u.len := by omega
        refine ⟨⟨hroom, trivial, trivial⟩, hmlen, hlt, ?_, Nat.le_add_left 1 _, .inl ?_⟩
        · change (d.buf ++ [UInt8.ofNat d.tmp]).length = u.stored + 1
          rw [List.length_append, hbuf, List.length_singleton]
        · refine ⟨hf, congrArg (· + 1) hst, ?_⟩
          change d.len - 1 + (u.taken + 1) = u.len
          omega
      · exact absurd hl hlen
      · exact absurd hl hlen

/-- A byte that fills the register. -/
theorem full_spec (h : d.Room o) (nfr : Option UInt16) (ib tmp2 blevel : Nat) :
    Legal RoomLeft o (d.storeActions nfr) ∧
      (d.full (nfr.map UInt16.toNat) ib tmp2 blevel).1.Room (after o (d.storeActions nfr)) := by
  let e : Decoder :=
    { d with blevel := blevel, tmp := d.tmp ||| (lo8 tmp2 <<< blevel) % 2 ^ 16 }
  have he : e.Room o := h.congr rfl rfl rfl rfl
  obtain ⟨hlegal, hroom⟩ := he.store_spec nfr
  exact ⟨hlegal, hroom.congr rfl rfl rfl rfl⟩

end Decoder.Room

/-- **One byte.** -/
theorem Decoder.Room.step {d : Decoder} {o : Option InUse} (h : d.Room o) (nfr : Option UInt16)
    (b : UInt8) :
    Legal RoomLeft o (hdlcActions nfr d b) ∧
      (hdlcDecode (nfr.map UInt16.toNat) d b).1.Room (after o (hdlcActions nfr d b)) := by
  rw [hdlcDecode, hdlcActions]
  cases destuff d.ib b.toNat with
  | plain ib => exact h.full_spec nfr ib b.toNat d.blevel
  | data ib tmp2 drop =>
    dsimp only
    split
    · exact ⟨trivial, h.congr rfl rfl rfl rfl⟩
    · exact h.full_spec nfr ib tmp2 _
  | flag ib tmp2 => exact h.flagSeq_spec ib tmp2
  | abort ib tmp2 drop => exact h.abort_spec ib tmp2 drop

/-! ## Runs -/

/-- The commands of a line.  Each byte comes with what `nfr` would set up, should it be executed. -/
def lineActions : Decoder → List (UInt8 × Option UInt16) → List Action
  | _, [] => []
  | s, (b, nfr) :: bs =>
    hdlcActions nfr s b ++ lineActions (hdlcDecode (nfr.map UInt16.toNat) s b).1 bs

theorem Decoder.Room.run {d : Decoder} {o : Option InUse} (h : d.Room o)
    (bs : List (UInt8 × Option UInt16)) : Legal RoomLeft o (lineActions d bs) := by
  induction bs generalizing d o with
  | nil => exact trivial
  | cons p bs ih =>
    obtain ⟨b, nfr⟩ := p
    obtain ⟨hlegal, hroom⟩ := h.step nfr b
    rw [lineActions, legal_append]
    exact ⟨hlegal, ih hroom⟩

theorem room_zero : Decoder.zero.Room none := ⟨Nat.zero_le 1, rfl⟩

/-- **Every line is decoded legally**, whatever it carries and whatever buffers there are: a buffer
is written at most as often as it has bytes, it is given back once before the next one is asked for,
and at `cfr` no more bytes remain than it has, but for a frame of a single byte. -/
theorem decode_safe (bs : List (UInt8 × Option UInt16)) :
    Legal RoomLeft none (lineActions .zero bs) :=
  room_zero.run bs

/-- A single byte between two flags: five of four bytes remain. -/
theorem decode_one_byte_frame :
    ¬ ∀ bs : List (UInt8 × Option UInt16),
      Legal (fun m _ len => len ≤ m) none (lineActions .zero bs) := by
  intro h
  have hline : lineActions .zero [(0x7e, none), (0, some 4), (0x7e, none)]
      = [.nfr (some 4), .store, .check, .cfr 5 0xff3f] := by decide
  have hlegal := h [(0x7e, none), (0, some 4), (0x7e, none)]
  rw [hline] at hlegal
  have hle : 5 ≤ 4 := hlegal.2.2.2.1
  omega

end Hdlc
end Isdn4bsd
