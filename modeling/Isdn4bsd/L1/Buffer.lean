import Mathlib.Tactic
import Isdn4bsd.Lib.Memory

/-!
# The ring buffer of layer 1

`struct buffer` has four pointers and no counter.  Whether it is empty, full or wrapped is the order of two
of them, and the macros that tell how many bytes can be read or written may move these two.

* `Buffer` : the pointers, relative to `Buf_start`, with the memory.
* `Buffer.unread` : the bytes that the pointers stand for.
* `System.Valid` : **the invariant**, also between a macro that tells a length, and the use of that length.
* `System.step_valid`, `System.step_fifo` : **one step** keeps it, and is one of a bounded queue.
* `System.ring_fifo` : **any interleaving** of a writer and a reader.

## Asking and using

A writer first asks for the room there is in one piece, writes, and then moves the pointer by what it has
written, which may be less.  A reader does the same.  Between the question and the move the other one may do
whatever it does, so a state has what both were told (`writelen`, `readlen`), and the invariant says that it
still is true: room that was promised is not given to anybody else, and bytes that were promised stay where
they are.

What makes this delicate is that a question may move a pointer.  When the piece up to the end of the buffer was
read, the reader goes back to the start, and when there is nothing free up to the end, so does the writer,
unless the unread bytes start there.  These moves change which of the two pointers is the larger one, and with
it what the pointers mean. Neither changes the bytes that they stand for (`valid_getReadlen`,
`valid_getWritelen`).

`tx_transparent_ring` starts over at the beginning when there is nothing to read; it does so only while nobody
writes, which is a guard of the step.
-/

set_option autoImplicit false

namespace Isdn4bsd
namespace L1

open Memory

/-! ## The macros -/

/-- `struct buffer`, and its memory.  The addresses are relative to `Buf_start`. -/
structure Buffer where
  bufEnd : ℕ
  datStart : ℕ
  datEnd : ℕ
  mem : ℕ → UInt8

namespace Buffer

/-- `BUF_SETUP_WRITELEN`. -/
def setupWritelen (mem : ℕ → UInt8) (bufEnd : ℕ) : Buffer := ⟨bufEnd, 0, 0, mem⟩

/-- `BUF_GET_READLEN`. -/
def getReadlen (buf : Buffer) : Buffer × ℤ :=
  if buf.datStart > buf.datEnd then
    if (buf.bufEnd : ℤ) - buf.datStart ≤ 0 then
      let buf := { buf with datStart := 0 }
      (buf, buf.datEnd - buf.datStart)
    else (buf, buf.bufEnd - buf.datStart)
  else (buf, buf.datEnd - buf.datStart)

/-- `BUF_UPD_READPTR`. -/
def updReadptr (buf : Buffer) (len : ℕ) : Buffer := { buf with datStart := buf.datStart + len }

/-- `BUF_GET_WRAPPED_READLEN`. -/
def getWrappedReadlen (buf : Buffer) : ℤ :=
  if buf.datStart > buf.datEnd then (buf.bufEnd : ℤ) - (buf.datStart - buf.datEnd)
  else buf.datEnd - buf.datStart

/-- `BUF_GET_WRITELEN`. -/
def getWritelen (buf : Buffer) : Buffer × ℤ :=
  if buf.datEnd ≥ buf.datStart then
    if (buf.bufEnd : ℤ) - buf.datEnd ≤ 0 ∧ buf.datStart ≠ 0 then
      let buf := { buf with datEnd := 0 }
      (buf, buf.datStart - buf.datEnd - 1)
    else (buf, buf.bufEnd - buf.datEnd)
  else (buf, buf.datStart - buf.datEnd - 1)

/-- `BUF_UPD_WRITEPTR`. -/
def updWriteptr (buf : Buffer) (len : ℕ) : Buffer := { buf with datEnd := buf.datEnd + len }

/-- Bytes are written at `Dat_end`. -/
def write (buf : Buffer) (bytes : List UInt8) : Buffer :=
  { buf with mem := store buf.mem buf.datEnd bytes }

/-- Bytes are read at `Dat_start`. -/
def read (buf : Buffer) (len : ℕ) : List UInt8 := slice buf.mem buf.datStart len

/-- `tx_transparent_ring` starts over, if there is nothing to read. -/
def restart (buf : Buffer) : Buffer := { buf with datStart := 0, datEnd := 0 }

/-! ## What is in the buffer -/

/-- The bytes that were written, and not read yet. -/
def unread (buf : Buffer) : List UInt8 :=
  if buf.datStart > buf.datEnd then
    slice buf.mem buf.datStart (buf.bufEnd - buf.datStart) ++ slice buf.mem 0 buf.datEnd
  else slice buf.mem buf.datStart (buf.datEnd - buf.datStart)

/-- Both pointers are within the buffer. -/
structure Inside (buf : Buffer) : Prop where
  datStart : buf.datStart ≤ buf.bufEnd
  datEnd : buf.datEnd ≤ buf.bufEnd

theorem length_unread {buf : Buffer} (h : buf.Inside) :
    (buf.unread.length : ℤ) = buf.getWrappedReadlen := by
  obtain ⟨hs, he⟩ := h
  rw [unread, getWrappedReadlen]
  split_ifs with hwrap
  · rw [List.length_append, length_slice, length_slice]
    omega
  · rw [length_slice]
    omega

theorem length_unread_le {buf : Buffer} (h : buf.Inside) : buf.unread.length ≤ buf.bufEnd := by
  have hlen := length_unread h
  obtain ⟨hs, he⟩ := h
  rw [getWrappedReadlen] at hlen
  split_ifs at hlen <;> omega

/-! ## What the macros tell -/

theorem unread_straight {buf : Buffer} (h : buf.datStart ≤ buf.datEnd) :
    buf.unread = slice buf.mem buf.datStart (buf.datEnd - buf.datStart) := if_neg (by omega)

theorem unread_wrapped {buf : Buffer} (h : buf.datEnd < buf.datStart) :
    buf.unread = slice buf.mem buf.datStart (buf.bufEnd - buf.datStart) ++ slice buf.mem 0 buf.datEnd :=
  if_pos h

/-- To read.  If the piece up to `Buf_end` was read, `Dat_start` is moved to `Buf_start`. -/
theorem getReadlen_cases (buf : Buffer) :
    (buf.datEnd < buf.datStart ∧ buf.bufEnd ≤ buf.datStart ∧
      buf.getReadlen = ({ buf with datStart := 0 }, (buf.datEnd : ℤ))) ∨
    (buf.datEnd < buf.datStart ∧ buf.datStart < buf.bufEnd ∧
      buf.getReadlen = (buf, (buf.bufEnd : ℤ) - buf.datStart)) ∨
    (buf.datStart ≤ buf.datEnd ∧ buf.getReadlen = (buf, (buf.datEnd : ℤ) - buf.datStart)) := by
  rw [getReadlen]
  by_cases hwrap : buf.datStart > buf.datEnd
  · rw [if_pos hwrap]
    by_cases hend : (buf.bufEnd : ℤ) - buf.datStart ≤ 0
    · rw [if_pos hend]
      exact .inl ⟨hwrap, by omega, by simp⟩
    · rw [if_neg hend]
      exact .inr (.inl ⟨hwrap, by omega, rfl⟩)
  · rw [if_neg hwrap]
    exact .inr (.inr ⟨by omega, rfl⟩)

/-- To write.  If there is nothing free up to `Buf_end`, `Dat_end` is moved to `Buf_start`, unless the bytes
start there. -/
theorem getWritelen_cases (buf : Buffer) :
    (buf.datStart ≤ buf.datEnd ∧ buf.bufEnd ≤ buf.datEnd ∧ buf.datStart ≠ 0 ∧
      buf.getWritelen = ({ buf with datEnd := 0 }, (buf.datStart : ℤ) - 1)) ∨
    (buf.datStart ≤ buf.datEnd ∧ buf.getWritelen = (buf, (buf.bufEnd : ℤ) - buf.datEnd)) ∨
    (buf.datEnd < buf.datStart ∧
      buf.getWritelen = (buf, (buf.datStart : ℤ) - buf.datEnd - 1)) := by
  rw [getWritelen]
  by_cases hwrap : buf.datEnd ≥ buf.datStart
  · rw [if_pos hwrap]
    by_cases hend : (buf.bufEnd : ℤ) - buf.datEnd ≤ 0 ∧ buf.datStart ≠ 0
    · rw [if_pos hend]
      exact .inl ⟨hwrap, by omega, hend.2, by simp⟩
    · rw [if_neg hend]
      exact .inr (.inl ⟨hwrap, rfl⟩)
  · rw [if_neg hwrap]
    exact .inr (.inr ⟨by omega, rfl⟩)

theorem bufEnd_getReadlen (buf : Buffer) : buf.getReadlen.1.bufEnd = buf.bufEnd := by
  rcases buf.getReadlen_cases with ⟨_, _, heq⟩ | ⟨_, _, heq⟩ | ⟨_, heq⟩ <;> rw [heq]

theorem bufEnd_getWritelen (buf : Buffer) : buf.getWritelen.1.bufEnd = buf.bufEnd := by
  rcases buf.getWritelen_cases with ⟨_, _, _, heq⟩ | ⟨_, heq⟩ | ⟨_, heq⟩ <;> rw [heq]

/-- **Nothing to read** is found only if there is nothing. -/
theorem getReadlen_eq_zero {buf : Buffer} (h : buf.Inside) :
    buf.getReadlen.2 = 0 ↔ buf.unread = [] := by
  have hlen := length_unread h
  rw [getWrappedReadlen] at hlen
  rw [← List.length_eq_zero_iff]
  obtain ⟨hs, he⟩ := h
  rcases getReadlen_cases buf with ⟨hwrap, hend, heq⟩ | ⟨hwrap, hend, heq⟩ | ⟨hstraight, heq⟩
  · rw [if_pos hwrap] at hlen
    rw [heq]
    omega
  · rw [if_pos hwrap] at hlen
    rw [heq]
    omega
  · rw [if_neg (by omega)] at hlen
    rw [heq]
    omega

end Buffer

/-! ## A writer and a reader -/

/-- The buffer with what both were told: the writer has room for `writelen` bytes at `Dat_end`, and the
reader has `readlen` bytes at `Dat_start`.  All bytes that were written and read are recorded. -/
structure System where
  buf : Buffer
  writelen : ℤ
  readlen : ℤ
  written : List UInt8
  bytesRead : List UInt8

/-- What both may do.  None of them has to use all that it was told at once. -/
inductive Act where
  | getWritelen
  | write (bytes : List UInt8)
  | getReadlen
  | read (len : ℕ)
  | restart

namespace System

/-- After `BUF_SETUP_WRITELEN`. -/
def setup (mem : ℕ → UInt8) (bufEnd : ℕ) : System := ⟨.setupWritelen mem bufEnd, 0, 0, [], []⟩

/-- One step, if it is allowed.  `tx_transparent_ring` starts over while nobody writes. -/
def step (s : System) : Act → Option System
  | .getWritelen =>
    let (buf, len) := s.buf.getWritelen
    some { s with buf := buf, writelen := len }
  | .write bytes =>
    if bytes.length ≤ s.writelen then
      some { s with
        buf := (s.buf.write bytes).updWriteptr bytes.length
        writelen := s.writelen - bytes.length
        written := s.written ++ bytes }
    else none
  | .getReadlen =>
    let (buf, len) := s.buf.getReadlen
    some { s with buf := buf, readlen := len }
  | .read len =>
    if len ≤ s.readlen then
      some { s with
        buf := s.buf.updReadptr len
        readlen := s.readlen - len
        bytesRead := s.bytesRead ++ s.buf.read len }
    else none
  | .restart =>
    let (buf, len) := s.buf.getReadlen
    if len = 0 ∧ s.writelen = 0 then some { s with buf := buf.restart, readlen := len } else none

/-- So many steps. -/
def run (s : System) : List Act → Option System
  | [] => some s
  | act :: acts => (s.step act).bind fun s' => s'.run acts

/-- **The invariant.**  What the writer was told is free, and what the reader was told is not. -/
structure Valid (s : System) : Prop where
  inside : s.buf.Inside
  writelen_nonneg : 0 ≤ s.writelen
  readlen_nonneg : 0 ≤ s.readlen
  free : s.buf.datEnd + s.writelen ≤ s.buf.bufEnd
  free_wrapped : s.buf.datEnd < s.buf.datStart → s.buf.datEnd + s.writelen < s.buf.datStart
  used : s.buf.datStart + s.readlen ≤ s.buf.bufEnd
  used_straight : s.buf.datStart ≤ s.buf.datEnd → s.buf.datStart + s.readlen ≤ s.buf.datEnd
  fifo : s.written = s.bytesRead ++ s.buf.unread

/-! ## One step -/

theorem valid_setup (mem : ℕ → UInt8) (bufEnd : ℕ) : (setup mem bufEnd).Valid where
  inside := ⟨Nat.zero_le _, Nat.zero_le _⟩
  writelen_nonneg := le_rfl
  readlen_nonneg := le_rfl
  free := by simp [setup, Buffer.setupWritelen]
  free_wrapped h := absurd h (Nat.lt_irrefl 0)
  used := by simp [setup, Buffer.setupWritelen]
  used_straight _ := by simp [setup, Buffer.setupWritelen]
  fifo := rfl

/-- To ask for room does not change what is in the buffer. -/
theorem valid_getWritelen {s : System} (h : s.Valid) :
    ({ s with buf := s.buf.getWritelen.1, writelen := s.buf.getWritelen.2 } : System).Valid ∧
      s.buf.getWritelen.1.unread = s.buf.unread := by
  obtain ⟨⟨hs, he⟩, hw, hr, hfree, hwrapped, hused, hstraight, hfifo⟩ := h
  rcases s.buf.getWritelen_cases with ⟨hle, hend, h0, heq⟩ | ⟨hle, heq⟩ | ⟨hlt, heq⟩
  · have hunread : ({ s.buf with datEnd := 0 } : Buffer).unread = s.buf.unread := by
      rw [Buffer.unread_straight hle, Buffer.unread_wrapped (Nat.pos_of_ne_zero h0)]
      have hE : s.buf.datEnd = s.buf.bufEnd := by omega
      rw [hE]
      exact List.append_nil _
    rw [heq]
    refine ⟨⟨⟨hs, Nat.zero_le _⟩, ?_, hr, ?_, ?_, hused, ?_, hfifo.trans (by rw [hunread])⟩, hunread⟩
    all_goals simp only
    all_goals omega
  · rw [heq]
    refine ⟨⟨⟨hs, he⟩, ?_, hr, ?_, ?_, hused, hstraight, hfifo⟩, rfl⟩
    all_goals simp only
    all_goals omega
  · rw [heq]
    refine ⟨⟨⟨hs, he⟩, ?_, hr, ?_, ?_, hused, hstraight, hfifo⟩, rfl⟩
    all_goals simp only
    all_goals omega

/-- To ask for bytes does not change what is in the buffer. -/
theorem valid_getReadlen {s : System} (h : s.Valid) :
    ({ s with buf := s.buf.getReadlen.1, readlen := s.buf.getReadlen.2 } : System).Valid ∧
      s.buf.getReadlen.1.unread = s.buf.unread := by
  obtain ⟨⟨hs, he⟩, hw, hr, hfree, hwrapped, hused, hstraight, hfifo⟩ := h
  rcases s.buf.getReadlen_cases with ⟨hlt, hend, heq⟩ | ⟨hlt, hend, heq⟩ | ⟨hle, heq⟩
  · have hunread : ({ s.buf with datStart := 0 } : Buffer).unread = s.buf.unread := by
      have hS : s.buf.bufEnd - s.buf.datStart = 0 := by omega
      rw [Buffer.unread_wrapped hlt, hS, Buffer.unread_straight (Nat.zero_le _)]
      rfl
    rw [heq]
    refine ⟨⟨⟨Nat.zero_le _, he⟩, hw, ?_, hfree, ?_, ?_, ?_, hfifo.trans (by rw [hunread])⟩, hunread⟩
    all_goals simp only
    all_goals omega
  · rw [heq]
    refine ⟨⟨⟨hs, he⟩, hw, ?_, hfree, hwrapped, ?_, ?_, hfifo⟩, rfl⟩
    all_goals simp only
    all_goals omega
  · rw [heq]
    refine ⟨⟨⟨hs, he⟩, hw, ?_, hfree, hwrapped, ?_, ?_, hfifo⟩, rfl⟩
    all_goals simp only
    all_goals omega

/-- What is written is behind what is in the buffer. -/
theorem unread_write {s : System} (h : s.Valid) {bytes : List UInt8} (hlen : bytes.length ≤ s.writelen) :
    ((s.buf.write bytes).updWriteptr bytes.length).unread = s.buf.unread ++ bytes := by
  obtain ⟨⟨hs, he⟩, hw, hr, hfree, hwrapped, hused, hstraight, hfifo⟩ := h
  have hself := slice_store_self s.buf.mem s.buf.datEnd bytes
  rcases Nat.lt_or_ge s.buf.datEnd s.buf.datStart with hlt | hle
  · have hlt' : s.buf.datEnd + bytes.length < s.buf.datStart := by
      have := hwrapped hlt
      omega
    rw [Buffer.unread_wrapped hlt, Buffer.unread_wrapped hlt']
    change slice (store s.buf.mem s.buf.datEnd bytes) s.buf.datStart (s.buf.bufEnd - s.buf.datStart) ++
      slice (store s.buf.mem s.buf.datEnd bytes) 0 (s.buf.datEnd + bytes.length) = _
    rw [slice_store_of_disjoint _ (.inr (by omega)), ← slice_append, Nat.zero_add, hself,
      slice_store_of_disjoint _ (.inl (by omega)), List.append_assoc]
  · rw [Buffer.unread_straight hle, Buffer.unread_straight (Nat.le_add_right_of_le hle)]
    change slice (store s.buf.mem s.buf.datEnd bytes) s.buf.datStart
      (s.buf.datEnd + bytes.length - s.buf.datStart) = _
    have hsplit : s.buf.datEnd + bytes.length - s.buf.datStart =
        s.buf.datEnd - s.buf.datStart + bytes.length := by omega
    rw [hsplit, ← slice_append, Nat.add_sub_cancel' hle, hself,
      slice_store_of_disjoint _ (.inl (by omega))]

/-- What is read is the start of what is in the buffer. -/
theorem read_unread {s : System} (h : s.Valid) {len : ℕ} (hlen : len ≤ s.readlen) :
    s.buf.read len ++ (s.buf.updReadptr len).unread = s.buf.unread := by
  obtain ⟨⟨hs, he⟩, hw, hr, hfree, hwrapped, hused, hstraight, hfifo⟩ := h
  rcases Nat.lt_or_ge s.buf.datEnd s.buf.datStart with hlt | hle
  · have hsplit : s.buf.bufEnd - s.buf.datStart = len + (s.buf.bufEnd - (s.buf.datStart + len)) := by
      omega
    have hlt' : (s.buf.updReadptr len).datEnd < (s.buf.updReadptr len).datStart :=
      Nat.lt_add_right len hlt
    rw [Buffer.unread_wrapped hlt, Buffer.unread_wrapped hlt', ← List.append_assoc, hsplit,
      ← slice_append]
    rfl
  · have hend := hstraight hle
    have hle' : (s.buf.updReadptr len).datStart ≤ (s.buf.updReadptr len).datEnd := by
      change s.buf.datStart + len ≤ s.buf.datEnd
      omega
    have hsplit : s.buf.datEnd - s.buf.datStart = len + (s.buf.datEnd - (s.buf.datStart + len)) := by
      omega
    rw [Buffer.unread_straight hle, Buffer.unread_straight hle', hsplit, ← slice_append]
    rfl

/-- **One step keeps the invariant.** -/
theorem step_valid {s s' : System} (h : s.Valid) {act : Act} (hstep : s.step act = some s') :
    s'.Valid := by
  cases act with
  | getWritelen =>
    cases hstep
    exact (valid_getWritelen h).1
  | getReadlen =>
    cases hstep
    exact (valid_getReadlen h).1
  | write bytes =>
    rw [step] at hstep
    split_ifs at hstep with hlen
    cases hstep
    have hunread := unread_write h hlen
    obtain ⟨⟨hs, he⟩, hw, hr, hfree, hwrapped, hused, hstraight, hfifo⟩ := h
    refine ⟨⟨hs, ?_⟩, ?_, hr, ?_, ?_, hused, ?_, ?_⟩
    · change s.buf.datEnd + bytes.length ≤ s.buf.bufEnd
      omega
    · exact sub_nonneg.mpr hlen
    · change ((s.buf.datEnd + bytes.length : ℕ) : ℤ) + (s.writelen - bytes.length) ≤ s.buf.bufEnd
      omega
    · change s.buf.datEnd + bytes.length < s.buf.datStart →
        ((s.buf.datEnd + bytes.length : ℕ) : ℤ) + (s.writelen - bytes.length) < s.buf.datStart
      omega
    · change s.buf.datStart ≤ s.buf.datEnd + bytes.length →
        s.buf.datStart + s.readlen ≤ ((s.buf.datEnd + bytes.length : ℕ) : ℤ)
      omega
    · rw [hunread, ← List.append_assoc, ← hfifo]
  | read len =>
    rw [step] at hstep
    split_ifs at hstep with hlen
    cases hstep
    have hunread := read_unread h hlen
    obtain ⟨⟨hs, he⟩, hw, hr, hfree, hwrapped, hused, hstraight, hfifo⟩ := h
    refine ⟨⟨?_, he⟩, hw, ?_, hfree, ?_, ?_, ?_, ?_⟩
    · change s.buf.datStart + len ≤ s.buf.bufEnd
      omega
    · exact sub_nonneg.mpr hlen
    · change s.buf.datEnd < s.buf.datStart + len →
        s.buf.datEnd + s.writelen < ((s.buf.datStart + len : ℕ) : ℤ)
      omega
    · change ((s.buf.datStart + len : ℕ) : ℤ) + (s.readlen - len) ≤ s.buf.bufEnd
      omega
    · change s.buf.datStart + len ≤ s.buf.datEnd →
        ((s.buf.datStart + len : ℕ) : ℤ) + (s.readlen - len) ≤ s.buf.datEnd
      omega
    · rw [List.append_assoc, hunread, hfifo]
  | restart =>
    have hzero := Buffer.getReadlen_eq_zero h.inside
    have hread := valid_getReadlen h
    rw [step] at hstep
    simp only at hstep
    split_ifs at hstep with hlen
    cases hstep
    have hempty : s.buf.unread = [] := hzero.mp hlen.1
    refine ⟨⟨Nat.zero_le _, Nat.zero_le _⟩, h.writelen_nonneg, hread.1.readlen_nonneg, ?_, ?_, ?_, ?_, ?_⟩
    · change ((0 : ℕ) : ℤ) + s.writelen ≤ s.buf.getReadlen.1.bufEnd
      omega
    · exact fun hlt => absurd hlt (Nat.lt_irrefl 0)
    · change ((0 : ℕ) : ℤ) + s.buf.getReadlen.2 ≤ s.buf.getReadlen.1.bufEnd
      omega
    · intro _
      change ((0 : ℕ) : ℤ) + s.buf.getReadlen.2 ≤ ((0 : ℕ) : ℤ)
      omega
    · rw [h.fifo, hempty]
      rfl

/-- **One step is one of a bounded queue.** -/
theorem step_fifo {s s' : System} (h : s.Valid) {act : Act} (hstep : s.step act = some s') :
    ∃ xs ys, Fifo s.buf.bufEnd s.buf.unread xs ys s'.buf.unread ∧
      s'.written = s.written ++ xs ∧ s'.bytesRead = s.bytesRead ++ ys ∧
        s'.buf.bufEnd = s.buf.bufEnd := by
  have hvalid := step_valid h hstep
  have stays : ∀ {q : List UInt8}, q = s.buf.unread → Fifo s.buf.bufEnd s.buf.unread [] [] q := by
    rintro q rfl
    exact @Fifo.take _ _ _ []
  cases act with
  | getWritelen =>
    cases hstep
    exact ⟨[], [], stays (valid_getWritelen h).2, (List.append_nil _).symm, (List.append_nil _).symm,
      s.buf.bufEnd_getWritelen⟩
  | getReadlen =>
    cases hstep
    exact ⟨[], [], stays (valid_getReadlen h).2, (List.append_nil _).symm, (List.append_nil _).symm,
      s.buf.bufEnd_getReadlen⟩
  | write bytes =>
    rw [step] at hstep
    split_ifs at hstep with hlen
    cases hstep
    have hunread := unread_write h hlen
    refine ⟨bytes, [], ?_, rfl, (List.append_nil _).symm, rfl⟩
    rw [hunread]
    refine Fifo.put ?_
    rw [← hunread]
    exact Buffer.length_unread_le hvalid.inside
  | read len =>
    rw [step] at hstep
    split_ifs at hstep with hlen
    cases hstep
    refine ⟨[], s.buf.read len, ?_, (List.append_nil _).symm, rfl, rfl⟩
    rw [← read_unread h hlen]
    exact Fifo.take
  | restart =>
    have hzero := Buffer.getReadlen_eq_zero h.inside
    rw [step] at hstep
    simp only at hstep
    split_ifs at hstep with hlen
    cases hstep
    exact ⟨[], [], stays (hzero.mp hlen.1).symm, (List.append_nil _).symm, (List.append_nil _).symm,
      s.buf.bufEnd_getReadlen⟩

/-! ## Any interleaving -/

theorem run_valid {s s' : System} (h : s.Valid) {acts : List Act} (hrun : s.run acts = some s') :
    s'.Valid ∧ s'.buf.bufEnd = s.buf.bufEnd := by
  induction acts generalizing s with
  | nil =>
    cases hrun
    exact ⟨h, rfl⟩
  | cons act acts ih =>
    obtain ⟨next, hstep, hrest⟩ := Option.bind_eq_some_iff.mp hrun
    obtain ⟨_, _, _, _, _, hend⟩ := step_fifo h hstep
    obtain ⟨hvalid, hend'⟩ := ih (step_valid h hstep) hrest
    exact ⟨hvalid, hend'.trans hend⟩

/-- **The ring is a bounded queue.**  After any interleaving, what was read is the start of what was written,
and the rest of it is in the buffer; both pointers, and what both were told, are within the buffer; the bytes
that are left are counted, and none are found only if there are none. -/
theorem ring_fifo {mem : ℕ → UInt8} {bufEnd : ℕ} {acts : List Act} {s : System}
    (h : (setup mem bufEnd).run acts = some s) :
    s.bytesRead <+: s.written ∧ s.written = s.bytesRead ++ s.buf.unread ∧
      s.buf.unread.length ≤ bufEnd ∧
      s.buf.datStart ≤ bufEnd ∧ s.buf.datEnd ≤ bufEnd ∧
      s.buf.datEnd + s.writelen ≤ bufEnd ∧ s.buf.datStart + s.readlen ≤ bufEnd ∧
      s.buf.getWrappedReadlen = s.buf.unread.length ∧
      (s.buf.getReadlen.2 = 0 ↔ s.buf.unread = []) := by
  obtain ⟨hvalid, hend⟩ := run_valid (valid_setup mem bufEnd) h
  have hend' : s.buf.bufEnd = bufEnd := hend
  subst hend'
  exact ⟨⟨_, hvalid.fifo.symm⟩, hvalid.fifo, Buffer.length_unread_le hvalid.inside, hvalid.inside.datStart,
    hvalid.inside.datEnd, hvalid.free, hvalid.used, (Buffer.length_unread hvalid.inside).symm,
    Buffer.getReadlen_eq_zero hvalid.inside⟩

/-- Two bytes are written, one is read, and a third one is written at the start. -/
def wrapping : List Act :=
  [.getWritelen, .write [1, 2, 3], .getReadlen, .read 2, .getWritelen, .write [4]]

theorem ring_fifo_wrapping : ∃ s : System, (setup (fun _ => 0) 3).run wrapping = some s ∧
    s.bytesRead <+: s.written ∧ s.written = s.bytesRead ++ s.buf.unread ∧
      s.buf.unread.length ≤ 3 ∧
      s.buf.datStart ≤ 3 ∧ s.buf.datEnd ≤ 3 ∧
      s.buf.datEnd + s.writelen ≤ 3 ∧ s.buf.datStart + s.readlen ≤ 3 ∧
      s.buf.getWrappedReadlen = s.buf.unread.length ∧
      (s.buf.getReadlen.2 = 0 ↔ s.buf.unread = []) :=
  ⟨_, rfl, @ring_fifo _ 3 wrapping _ rfl⟩

end System
end L1
end Isdn4bsd
