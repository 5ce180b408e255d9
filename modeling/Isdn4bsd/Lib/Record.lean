import Mathlib.Data.List.Basic
import Mathlib.Data.List.Infix
import Mathlib.Tactic.Common

/-!
# Records of octets, and streams of them

A record has a fixed length, and its fields are written at offsets, numbers with the highest octet first.  Records
are sent one behind the other and received in pieces of any length.

* `write`, `read` : some octets at an offset.
* `read_writeAll` : **fields that are apart are all read back**.
* `be16`, `be32`, `toBe16`, `toBe32` : numbers.
* `Framing` : records that tell their length.
* `Framing.first` : **what has arrived of a stream begins with what was sent**.

## Fields

`write` puts octets into a list, at an offset, and the list keeps its length: what would go beyond its end is lost.
So a field is read back only if it fits, which is a matter of its offset and the length of the record.

A field that is written last is there.  One that was written before is there if none of those behind it has an
octet in common with it, and for a whole list of fields this is `List.Pairwise`, which for given fields is decided by
their offsets and lengths.

## Strings

A string is written to a field of a fixed length, with a zero behind it, and cut if it is too long.  The reader has a
pointer to where the field begins and reads up to a zero: `cstr`.

## Streams

The reader of a stream has what has arrived so far.  It can tell the length of the first record when its header is
there, and the record itself when all of it is there.  `Framing` asks for just this: the length that is read from
the first octets of anything that continues a record is the length of the record.  Then what has arrived is the first
record with the beginning of the others behind it, and this can be repeated.
-/

set_option autoImplicit false

namespace Isdn4bsd
namespace Record

/-! ## Fields -/

section
variable {α : Type*}

/-- Some octets are written, from an offset on. -/
def write (r : List α) (off : ℕ) : List α → List α
  | [] => r
  | b :: bs => write (r.set off b) (off + 1) bs

/-- The octets of a field. -/
def read (r : List α) (off n : ℕ) : List α := (r.drop off).take n

@[simp] theorem length_write (r : List α) (off : ℕ) (bs : List α) : (write r off bs).length = r.length := by
  induction bs generalizing r off with
  | nil => rfl
  | cons b bs ih => rw [write, ih, List.length_set]

/-- What is written does not reach what lies before it, or behind. -/
theorem getElem?_write_of_outside {r : List α} {off i : ℕ} {bs : List α} (h : i < off ∨ off + bs.length ≤ i) :
    (write r off bs)[i]? = r[i]? := by
  induction bs generalizing r off with
  | nil => rfl
  | cons b bs ih =>
    rw [List.length_cons] at h
    rw [write, ih (by omega), List.getElem?_set_ne (by omega)]

theorem getElem?_write {r : List α} {off i : ℕ} {bs : List α} (hr : off + bs.length ≤ r.length)
    (hi : i < bs.length) : (write r off bs)[off + i]? = bs[i]? := by
  induction bs generalizing r off i with
  | nil => exact absurd hi (Nat.not_lt_zero i)
  | cons b bs ih =>
    rw [List.length_cons] at hr hi
    rw [write]
    cases i with
    | zero =>
      show (write (r.set off b) (off + 1) bs)[off]? = some b
      rw [getElem?_write_of_outside (.inl (Nat.lt_add_one off)), List.getElem?_set_self (by omega)]
    | succ i =>
      have h := @ih (r.set off b) (off + 1) i (by rw [List.length_set]; omega) (by omega)
      rw [List.getElem?_cons_succ, ← h, Nat.add_right_comm off 1 i]
      rfl

theorem getElem?_read (r : List α) (off n i : ℕ) : (read r off n)[i]? = if i < n then r[off + i]? else none := by
  rw [read, List.getElem?_take]
  split
  next => rw [List.getElem?_drop]
  next => rfl

theorem read_write {r : List α} {off : ℕ} {bs : List α} (hr : off + bs.length ≤ r.length) :
    read (write r off bs) off bs.length = bs := by
  refine List.ext_getElem? fun i => ?_
  rw [getElem?_read]
  split
  next hi => exact getElem?_write hr hi
  next hi => exact (List.getElem?_eq_none (not_lt.mp hi)).symm

theorem read_write_of_apart {r : List α} {off off' n : ℕ} {bs : List α}
    (h : off' + n ≤ off ∨ off + bs.length ≤ off') : read (write r off bs) off' n = read r off' n := by
  refine List.ext_getElem? fun i => ?_
  rw [getElem?_read, getElem?_read]
  split
  next hi => exact getElem?_write_of_outside (by omega)
  next => rfl

/-- What is written at the beginning is read there. -/
theorem read_write_zero {r bs : List α} {off n : ℕ} (hr : bs.length ≤ r.length) (hn : off + n ≤ bs.length) :
    read (write r 0 bs) off n = read bs off n := by
  refine List.ext_getElem? fun i => ?_
  rw [getElem?_read, getElem?_read]
  split
  next hi =>
    have h := @getElem?_write _ r 0 (off + i) bs (by omega) (by omega)
    rwa [Nat.zero_add] at h
  next => rfl

/-- A field, and what is written to it. -/
structure Put (α : Type*) where
  off : ℕ
  bytes : List α

/-- Two fields have no octet in common. -/
def Put.Apart (p q : Put α) : Prop := p.off + p.bytes.length ≤ q.off ∨ q.off + q.bytes.length ≤ p.off

/-- One field after the other is written. -/
def writeAll (r : List α) (ps : List (Put α)) : List α := ps.foldl (fun r p => write r p.off p.bytes) r

@[simp] theorem length_writeAll (r : List α) (ps : List (Put α)) : (writeAll r ps).length = r.length := by
  induction ps generalizing r with
  | nil => rfl
  | cons p ps ih => exact (ih _).trans (length_write _ _ _)

theorem read_writeAll_of_apart {r : List α} {off n : ℕ} {ps : List (Put α)}
    (h : ∀ p ∈ ps, off + n ≤ p.off ∨ p.off + p.bytes.length ≤ off) :
    read (writeAll r ps) off n = read r off n := by
  induction ps generalizing r with
  | nil => rfl
  | cons p ps ih =>
    refine (ih fun q hq => h q (List.mem_cons_of_mem p hq)).trans ?_
    exact read_write_of_apart (h p List.mem_cons_self)

/-- **Fields that are apart are all read back.** -/
theorem read_writeAll {r : List α} {ps : List (Put α)} (hps : ps.Pairwise Put.Apart) {p : Put α} (hp : p ∈ ps)
    (hr : p.off + p.bytes.length ≤ r.length) : read (writeAll r ps) p.off p.bytes.length = p.bytes := by
  induction ps generalizing r with
  | nil => exact absurd hp List.not_mem_nil
  | cons q ps ih =>
    rw [List.pairwise_cons] at hps
    rcases List.mem_cons.mp hp with rfl | hp
    · exact (read_writeAll_of_apart fun q hq => hps.1 q hq).trans (read_write hr)
    · exact ih hps.2 hp (by rwa [length_write])

end

/-! ## Numbers and strings -/

/-- The lowest octet. -/
def low {w : ℕ} (v : BitVec w) : UInt8 := ⟨v.setWidth 8⟩

/-- Two octets, the higher one first. -/
def be16 (v : BitVec 16) : List UInt8 := [low (v >>> 8), low v]

/-- Four octets, the highest one first. -/
def be32 (v : BitVec 32) : List UInt8 := [low (v >>> 24), low (v >>> 16), low (v >>> 8), low v]

/-- An octet of a number. -/
def wide (w : ℕ) (b : UInt8) : BitVec w := b.toBitVec.setWidth w

/-- The number in two octets. -/
def toBe16 (r : List UInt8) (off : ℕ) : BitVec 16 :=
  wide 16 (r.getD off 0) <<< 8 ||| wide 16 (r.getD (off + 1) 0)

/-- The number in four octets. -/
def toBe32 (r : List UInt8) (off : ℕ) : BitVec 32 :=
  wide 32 (r.getD off 0) <<< 24 ||| wide 32 (r.getD (off + 1) 0) <<< 16 ||| wide 32 (r.getD (off + 2) 0) <<< 8
    ||| wide 32 (r.getD (off + 3) 0)

theorem getLsbD_wide_low {w : ℕ} (v : BitVec w) (i : ℕ) :
    (wide w (low v)).getLsbD i = (decide (i < 8) && v.getLsbD i) := by
  by_cases hw : i < w
  · simp [wide, low, hw]
  · simp [wide, low, hw, BitVec.getLsbD_of_ge v i (not_lt.mp hw)]

theorem wide_low_16 (v : BitVec 16) : wide 16 (low (v >>> 8)) <<< 8 ||| wide 16 (low v) = v := by
  refine BitVec.eq_of_getLsbD_eq fun i hi => ?_
  simp only [BitVec.getLsbD_or, BitVec.getLsbD_shiftLeft, getLsbD_wide_low, BitVec.getLsbD_ushiftRight]
  by_cases h : i < 8
  · simp [hi, h]
  · simp [hi, h, show i - 8 < 8 by omega, show 8 + (i - 8) = i by omega]

theorem wide_low_32 (v : BitVec 32) :
    wide 32 (low (v >>> 24)) <<< 24 ||| wide 32 (low (v >>> 16)) <<< 16 ||| wide 32 (low (v >>> 8)) <<< 8
      ||| wide 32 (low v) = v := by
  refine BitVec.eq_of_getLsbD_eq fun i hi => ?_
  simp only [BitVec.getLsbD_or, BitVec.getLsbD_shiftLeft, getLsbD_wide_low, BitVec.getLsbD_ushiftRight]
  rcases lt_or_ge i 8 with h | h
  · simp [hi, h, show i < 24 by omega, show i < 16 by omega]
  · rcases lt_or_ge i 16 with h' | h'
    · simp [hi, not_lt.mpr h, h', show i < 24 by omega, show i - 8 < 8 by omega, show 8 + (i - 8) = i by omega]
    · rcases lt_or_ge i 24 with h'' | h''
      · simp [hi, not_lt.mpr h, not_lt.mpr h', h'', show ¬ i - 8 < 8 by omega, show i - 16 < 8 by omega,
          show 16 + (i - 16) = i by omega]
      · simp [hi, not_lt.mpr h, not_lt.mpr h', not_lt.mpr h'', show ¬ i - 8 < 8 by omega,
          show ¬ i - 16 < 8 by omega, show i - 24 < 8 by omega, show 24 + (i - 24) = i by omega]

/-- The octets of a field, one by one. -/
theorem getD_of_read {r bs : List UInt8} {off : ℕ} (h : read r off bs.length = bs) {i : ℕ} (hi : i < bs.length) :
    r.getD (off + i) 0 = bs.getD i 0 := by
  have hget := getElem?_read r off bs.length i
  rw [if_pos hi, h] at hget
  rw [List.getD_eq_getElem?_getD, List.getD_eq_getElem?_getD, hget]

theorem length_be16 (v : BitVec 16) : (be16 v).length = 2 := rfl

theorem length_be32 (v : BitVec 32) : (be32 v).length = 4 := rfl

theorem toBe16_of_read {r : List UInt8} {off : ℕ} {v : BitVec 16} (h : read r off 2 = be16 v) :
    toBe16 r off = v := by
  have h0 := @getD_of_read r (be16 v) off h 0 (by rw [length_be16]; decide)
  have h1 := @getD_of_read r (be16 v) off h 1 (by rw [length_be16]; decide)
  rw [Nat.add_zero] at h0
  rw [toBe16, h0, h1]
  exact wide_low_16 v

theorem toBe32_of_read {r : List UInt8} {off : ℕ} {v : BitVec 32} (h : read r off 4 = be32 v) :
    toBe32 r off = v := by
  have h0 := @getD_of_read r (be32 v) off h 0 (by rw [length_be32]; decide)
  have h1 := @getD_of_read r (be32 v) off h 1 (by rw [length_be32]; decide)
  have h2 := @getD_of_read r (be32 v) off h 2 (by rw [length_be32]; decide)
  have h3 := @getD_of_read r (be32 v) off h 3 (by rw [length_be32]; decide)
  rw [Nat.add_zero] at h0
  rw [toBe32, h0, h1, h2, h3]
  exact wide_low_32 v

/-- A string up to the zero that ends it. -/
def cstr (s : List UInt8) : List UInt8 := s.takeWhile (· ≠ 0)

/-- A string in a field of `n` octets: `strncpy`, and a zero at the end. -/
def strBytes (n : ℕ) (s : List UInt8) : List UInt8 :=
  (cstr s).take (n - 1) ++ List.replicate (n - ((cstr s).take (n - 1)).length) 0

/-- What a pointer into a record is the beginning of. -/
def toStr (r : List UInt8) (off : ℕ) : List UInt8 := cstr (r.drop off)

theorem length_strBytes {n : ℕ} (hn : 0 < n) (s : List UInt8) : (strBytes n s).length = n := by
  have hle : ((cstr s).take (n - 1)).length ≤ n - 1 := List.length_take_le _ _
  rw [strBytes, List.length_append, List.length_replicate]
  omega

theorem toStr_of_read {r s : List UInt8} {off n : ℕ} (hn : 0 < n) (h : read r off n = strBytes n s) :
    toStr r off = (cstr s).take (n - 1) := by
  have hle : ((cstr s).take (n - 1)).length ≤ n - 1 := List.length_take_le _ _
  obtain ⟨k, hk⟩ : ∃ k, n - ((cstr s).take (n - 1)).length = k + 1 := ⟨_, (Nat.succ_pred (by omega)).symm⟩
  have hall : ∀ b ∈ (cstr s).take (n - 1), decide (b ≠ 0) = true := by
    intro b hb
    have hmem : b ∈ cstr s := List.mem_of_mem_take hb
    exact List.all_eq_true.mp (List.all_takeWhile (p := fun b : UInt8 => decide (b ≠ 0))) b hmem
  rw [toStr, cstr, ← List.take_append_drop n (r.drop off), show (r.drop off).take n = strBytes n s from h, strBytes,
    hk, List.replicate_succ, List.append_assoc, List.takeWhile_append_of_pos hall, List.cons_append,
    List.takeWhile_cons_of_neg (by decide), List.append_nil]

/-! ## Streams of records -/

/-- Records that begin with a header, which tells how long they are. -/
structure Framing (α : Type*) where
  hdr : ℕ
  hdr_pos : 0 < hdr
  size : List α → ℕ
  Frame : List α → Prop
  hdr_le : ∀ {f : List α}, Frame f → hdr ≤ f.length
  size_eq : ∀ {f p more rest : List α}, Frame f → p ++ more = f ++ rest → hdr ≤ p.length → size p = f.length

/-- **What has arrived of a stream begins with the first record that was sent**, when all of that is there. -/
theorem Framing.first {α : Type*} (fr : Framing α) {fs : List (List α)} (hfs : ∀ f ∈ fs, fr.Frame f)
    {p more : List α} (h : p ++ more = fs.flatten) :
    p.length < fr.hdr ∨
      ∃ f fs', fs = f :: fs' ∧ fr.hdr ≤ p.length ∧ fr.size p = f.length ∧
        (p.length < f.length ∨
          p.take f.length = f ∧ f.length ≤ p.length ∧ p.drop f.length ++ more = fs'.flatten) := by
  rcases lt_or_ge p.length fr.hdr with hshort | hlong
  · exact .inl hshort
  cases fs with
  | nil =>
    have hp : p = [] := (List.append_eq_nil_iff.mp h).1
    rw [hp] at hlong
    exact absurd hlong (not_le.mpr fr.hdr_pos)
  | cons f fs =>
    rw [List.flatten_cons] at h
    refine .inr ⟨f, fs, rfl, hlong, fr.size_eq (hfs f List.mem_cons_self) h hlong, ?_⟩
    rcases lt_or_ge p.length f.length with hlt | hle
    · exact .inl hlt
    · have htake := congrArg (List.take f.length) h
      have hdrop := congrArg (List.drop f.length) h
      rw [List.take_append_of_le_length hle, List.take_left] at htake
      rw [List.drop_append_of_le_length hle, List.drop_left] at hdrop
      exact .inr ⟨htake, hle, hdrop⟩

end Record
end Isdn4bsd
