import Mathlib.Tactic
import Isdn4bsd.Lib.Transfer

/-!
# The FIFO filters

`i4b_filter.h` has the functions that move frames between mbufs and a FIFO of a chip, as much of a frame at
a time as the FIFO takes or has.  The ones here are for chips that do HDLC themselves, `rx_hdlc` and
`tx_hdlc`, and the receive filter for audio, `rx_transparent`.

* `Fifo`, `RxFifo`, `TxFifo` : what a filter has to do with.
* `RxFifo.rxHdlc_eq` : **what `rx_hdlc` does**, for every state it can be called in.
* `TxFifo.txHdlc_eq` : **what `tx_hdlc` does**.  It ends a frame when the next piece is asked for, and has
fetched the next frame by then.
* `RxFifo.rxTransparent_stream` : the mbufs of a stream are full, and are the stream.

## Loops with `goto`

Each filter is one loop, which is left by `goto` to one of several labels.  Here the top of the loop is a
function of its own, that says where it goes (`Goes`), and the loop is a recursion with fuel; it has no result
when the fuel is used up.  `RxFifo.rxHdlc_eq` and `TxFifo.txHdlc_eq` also say that there is one, so that
nobody has to think of the fuel again.  Two rounds are enough to receive: a frame that does not fit in the
buffer is found in the second one.

## Frames and pieces

The source keeps a pointer into a buffer and how much room is left.  The lemmas speak of the bytes instead.

* `RxFifo.got` is what was received of the frame so far, and `RxFifo.fresh` what the chip says there is to read.
* `RxFifo.Took` lists what may become of the two of them together: there is no buffer for them, they do not fit in it,
they are a piece of a frame, or they are a frame, which goes to the upper layer if the check for its
checksum lets it pass.
* `TxFifo.sent` and `TxFifo.pending` are the same for the other direction, and `TxFifo.Gave` lists what a
call may have written.

A frame that has to be given up is a branch of these, not an exception: what the programs of the chips do with
it is the matter of the modules that use the filters, which need the lists only.

## What else there is

`Fifo.other` is a FIFO without what the filters change.  The lemmas `*_other` say that they leave the rest
alone, and so it is enough to know of a filter what is in `Took` or `Gave`.
-/

set_option autoImplicit false

namespace Isdn4bsd
namespace L1

/-- What the filters and the programs use of `struct sc_fifo`. -/
structure Fifo where
  /-- `ST_FRAME_END`, `ST_FRAME_ERROR` and `ST_RUNNING` of `state`. -/
  frameEnd : Bool
  frameError : Bool
  running : Bool
  /-- `program_state != 0`. -/
  reset : Bool
  /-- `i_ista`. -/
  istaErr : Bool
  istaXpr : Bool
  istaRpf : Bool
  istaRme : Bool
  /-- `i_cmdr`. -/
  cmdrXres : Bool
  cmdrXme : Bool
  cmdrXtf : Bool
  cmdrRres : Bool
  cmdrRmc : Bool
  zChip : ℕ
  fChip : ℕ
  /-- `fm.i.block_size` and `fm.i.remove_stat`. -/
  blockSize : ℕ
  removeStat : Bool
  /-- What `m_data` of `mbuf` points to; the first `buf_size` bytes of it are the buffer. -/
  mbuf : Option (List UInt8)
  bufSize : ℕ
  bufLen : ℕ
  /-- `buf_ptr`, from `m_data`. -/
  bufPtr : ℕ
  deriving DecidableEq, Repr

/-- What the filters leave alone. -/
def Fifo.other (f : Fifo) : Fifo :=
  { f with frameEnd := false, zChip := 0, mbuf := none, bufSize := 0, bufLen := 0, bufPtr := 0 }

/-- A field that the filters leave alone is as before. -/
theorem Fifo.other_field {α : Type} {f g : Fifo} (h : g.other = f.other) (field : Fifo → α)
    (hf : field f.other = field f) (hg : field g.other = field g) : field g = field f := by
  rw [← hf, ← hg, h]

/-- A receive FIFO. -/
structure RxFifo extends Fifo where
  /-- What the chip has to be read. -/
  chip : List UInt8
  /-- How often `L5_ALLOC_MBUF` was called. -/
  allocs : ℕ
  /-- The frames that were handed to `ihfc_i4b_putmbuf`. -/
  put : List (List UInt8)
  deriving DecidableEq, Repr

/-- A packet of an upper layer: an mbuf, and those that `m_next` leads to. -/
abbrev Packet := List UInt8 × List (List UInt8)

/-- All of its bytes. -/
def Packet.bytes (m : Packet) : List UInt8 := m.1 ++ m.2.flatten

/-- A transmit FIFO. -/
structure TxFifo extends Fifo where
  /-- What was written to the chip in this call. -/
  chip : List UInt8
  /-- How often a buffer was asked for. -/
  pullups : ℕ
  /-- What the upper layer has to be sent. -/
  queue : List Packet
  deriving DecidableEq, Repr

namespace RxFifo

/-! ## The receive filters -/

/-- `FIFO_READ_MULTI_1` to `buf_ptr`. -/
def store (mem : List UInt8) (ptr : ℕ) (bytes : List UInt8) : List UInt8 :=
  mem.take ptr ++ bytes ++ mem.drop (ptr + bytes.length)

/-- `filter_rx`. -/
def filterRx (f : RxFifo) : RxFifo :=
  let ioLen := min f.zChip f.bufLen
  if ioLen = 0 then f
  else
    { f with
      mbuf := f.mbuf.map fun mem => store mem f.bufPtr (f.chip.take ioLen)
      chip := f.chip.drop ioLen
      bufPtr := f.bufPtr + ioLen
      bufLen := f.bufLen - ioLen
      zChip := f.zChip - ioLen }

/-- `get_mbuf_rx`; `alloc` gives the memory of the `n`-th mbuf, if there is one. -/
def getMbufRx (alloc : ℕ → Option (List UInt8)) (f : RxFifo) : RxFifo :=
  let size := ((alloc f.allocs).map List.length).getD 0
  { f with
    mbuf := alloc f.allocs
    allocs := f.allocs + 1
    bufSize := size
    bufLen := size
    bufPtr := 0 }

/-- The pointers are those of an empty buffer again. -/
def restore (f : RxFifo) : RxFifo :=
  { f with bufPtr := f.bufPtr - (f.bufSize - f.bufLen), bufLen := f.bufSize }

/-- Where `rx_hdlc` goes from the top of its loop. -/
inductive Goes where
  | on
  | wait
  | error
  | done
  deriving DecidableEq, Repr

/-- The top of the loop of `rx_hdlc`. -/
def rxHdlcTop (alloc : ℕ → Option (List UInt8)) (f : RxFifo) : RxFifo × Goes :=
  if f.bufLen = 0 then
    if f.mbuf.isSome then if f.zChip ≠ 0 then (f, .error) else (f, .wait)
    else
      let f := f.getMbufRx alloc
      (f, if f.mbuf.isSome then .on else .done)
  else (f, .on)

/-- What follows the loop of `rx_hdlc`: the frame may end. -/
def rxHdlcEnd (check : List UInt8 → Option (List UInt8)) (f : RxFifo) : RxFifo :=
  if f.frameEnd then
    match check ((f.mbuf.getD []).take (f.bufSize - f.bufLen)) with
    | some frame => { f with put := f.put ++ [frame], mbuf := none, bufPtr := 0, bufLen := 0, bufSize := 0 }
    | none => f.restore
  else f

/-- The loop of `rx_hdlc`, with that many rounds to go. -/
def rxHdlcFrom (alloc : ℕ → Option (List UInt8)) (check : List UInt8 → Option (List UInt8)) :
    ℕ → RxFifo → Option RxFifo
  | 0, _ => none
  | n + 1, f =>
    match f.rxHdlcTop alloc with
    | (f, .error) => some f.restore
    | (f, .wait) => some (f.rxHdlcEnd check)
    | (f, .done) => some f
    | (f, .on) =>
      let f := f.filterRx
      if f.zChip ≠ 0 then rxHdlcFrom alloc check n f else some (f.rxHdlcEnd check)

/-- The rounds that are ever needed. -/
def rxHdlcRounds : ℕ := 2

/-- `rx_hdlc`; `check` is `FIFO_FRAME_CHECK`, which may shorten a frame that is valid. -/
def rxHdlc (alloc : ℕ → Option (List UInt8)) (check : List UInt8 → Option (List UInt8))
    (f : RxFifo) : Option RxFifo :=
  rxHdlcFrom alloc check rxHdlcRounds (if f.frameError then f.restore else f)

/-- The loop of `rx_transparent`, without what echo canceller and DTMF detector do. -/
def rxTransparentFrom (alloc : ℕ → Option (List UInt8)) : ℕ → RxFifo → Option RxFifo
  | 0, _ => none
  | n + 1, f =>
    let f :=
      if f.bufLen = 0 then
        ({ f with put := f.put ++ f.mbuf.toList, mbuf := none } : RxFifo).getMbufRx alloc
      else f
    if f.mbuf.isNone then some f
    else
      let f := f.filterRx
      if f.zChip ≠ 0 then rxTransparentFrom alloc n f else some f

/-- `rx_transparent`.  Every round but the first reads a byte. -/
def rxTransparent (alloc : ℕ → Option (List UInt8)) (f : RxFifo) : Option RxFifo :=
  rxTransparentFrom alloc (f.zChip + 1) f

/-! ## What is in the buffer -/

/-- The buffer is that of the mbuf. -/
structure BufOk (f : RxFifo) : Prop where
  size : f.bufSize = (f.mbuf.getD []).length
  len : f.bufPtr + f.bufLen = f.bufSize

/-- What is to be read. -/
def fresh (f : RxFifo) : List UInt8 := f.chip.take f.zChip

/-- What has been received of the frame. -/
def got (f : RxFifo) : List UInt8 := (f.mbuf.getD []).take f.bufPtr

theorem BufOk.length_got {f : RxFifo} (h : f.BufOk) : f.got.length = f.bufPtr := by
  have hlen := h.len
  rw [h.size] at hlen
  rw [got, List.length_take]
  omega

theorem BufOk.restore {f : RxFifo} (h : f.BufOk) : f.restore.BufOk ∧ f.restore.got = [] := by
  have hlen := h.len
  have hptr : f.bufPtr - (f.bufSize - f.bufLen) = 0 := by omega
  refine ⟨⟨h.size, ?_⟩, ?_⟩
  · simp only [RxFifo.restore, hptr, Nat.zero_add]
  · simp only [got, RxFifo.restore, hptr, List.take_zero]

theorem take_store {mem : List UInt8} {ptr : ℕ} {bytes : List UInt8} (h : ptr ≤ mem.length) :
    (store mem ptr bytes).take (ptr + bytes.length) = mem.take ptr ++ bytes := by
  rw [store, List.take_append_of_le_length]
  · rw [List.take_of_length_le]
    simp
  · rw [List.length_append, List.length_take]
    omega

theorem length_store {mem : List UInt8} {ptr : ℕ} {bytes : List UInt8}
    (h : ptr + bytes.length ≤ mem.length) : (store mem ptr bytes).length = mem.length := by
  simp only [store, List.length_append, List.length_take, List.length_drop]
  omega

/-- What `filter_rx` reads is put behind what was received. -/
theorem BufOk.filterRx {f : RxFifo} (h : f.BufOk) (hz : f.zChip = f.fresh.length) :
    f.filterRx.BufOk ∧ f.filterRx.got = f.got ++ f.fresh.take f.bufLen ∧
      f.filterRx.fresh = f.fresh.drop f.bufLen ∧ f.filterRx.zChip = f.filterRx.fresh.length ∧
      f.filterRx.bufSize = f.bufSize ∧ f.filterRx.bufLen = f.bufLen - f.fresh.length ∧
      f.filterRx.mbuf.isSome = f.mbuf.isSome ∧ f.filterRx.put = f.put ∧
      f.filterRx.frameEnd = f.frameEnd ∧ f.filterRx.allocs = f.allocs := by
  have hlen := h.len
  have hsize := h.size
  rw [RxFifo.filterRx]
  split
  next hzero =>
    rw [hz] at hzero
    rcases Nat.min_eq_zero_iff.mp hzero with hnil | hfull
    · have hchip : f.fresh = [] := List.length_eq_zero_iff.mp hnil
      simp [h, hz, hchip]
    · simp [h, hz, hfull]
  next hpos =>
    have hle : f.zChip ≤ f.chip.length := by
      rw [fresh, List.length_take] at hz
      omega
    have hio : (f.chip.take (min f.zChip f.bufLen)).length = min f.zChip f.bufLen := by
      rw [List.length_take]
      omega
    obtain ⟨mem, hmem⟩ : ∃ mem, f.mbuf = some mem := by
      cases hm : f.mbuf with
      | some mem => exact ⟨mem, rfl⟩
      | none =>
        rw [hm, Option.getD_none, List.length_nil] at hsize
        omega
    rw [hmem, Option.getD_some] at hsize
    have htake : f.chip.take (min f.zChip f.bufLen) = f.fresh.take f.bufLen := by
      rw [fresh, List.take_take, Nat.min_comm]
    have hdrop : (f.chip.drop (min f.zChip f.bufLen)).take (f.zChip - min f.zChip f.bufLen)
        = f.fresh.drop f.bufLen := by
      rw [fresh, ← List.drop_take]
      rcases Nat.le_total f.zChip f.bufLen with hall | hall
      · rw [Nat.min_eq_left hall, List.drop_of_length_le, List.drop_of_length_le]
        · rw [List.length_take]
          omega
        · rw [List.length_take]
          omega
      · rw [Nat.min_eq_right hall]
    refine ⟨⟨?_, ?_⟩, ?_, hdrop, ?_, rfl, ?_, ?_, rfl, rfl, rfl⟩
    · simp only [hmem, Option.map_some, Option.getD_some]
      rw [length_store (by rw [hio]; omega), hsize]
    · simp only
      omega
    · simp only [got, hmem, Option.map_some, Option.getD_some]
      have hstore := @take_store mem f.bufPtr (f.chip.take (min f.zChip f.bufLen)) (by omega)
      rw [hio] at hstore
      rw [hstore, htake]
    · simp only [fresh, List.length_take, List.length_drop]
      omega
    · simp only [← hz]
      omega
    · simp [hmem]

/-- The size of the buffer that a piece of a frame is put in, if there is one. -/
def sizeFor (alloc : ℕ → Option (List UInt8)) (f : RxFifo) : Option ℕ :=
  if f.mbuf.isSome then some f.bufSize else (alloc f.allocs).map List.length

/-- What the piece is put behind. -/
def begun (f : RxFifo) : List UInt8 := if f.frameError then [] else f.got

/-- What may become of a piece of a frame. -/
inductive Took (alloc : ℕ → Option (List UInt8)) (check : List UInt8 → Option (List UInt8))
    (f f' : RxFifo) : Prop where
  /-- There is no buffer. -/
  | noMbuf (hsize : f.sizeFor alloc = none) (hz : f'.zChip = f.fresh.length) (hgot : f'.got = [])
      (hput : f'.put = f.put)
  /-- The frame does not fit. -/
  | overflow {n : ℕ} (hsize : f.sizeFor alloc = some n) (hlt : n < (f.begun ++ f.fresh).length)
      (hz : f'.zChip ≠ 0) (hgot : f'.got = []) (hput : f'.put = f.put)
  | piece {n : ℕ} (hsize : f.sizeFor alloc = some n) (hle : (f.begun ++ f.fresh).length ≤ n)
      (hend : f.frameEnd = false) (hz : f'.zChip = 0) (hgot : f'.got = f.begun ++ f.fresh)
      (hput : f'.put = f.put)
  /-- The frame ends. -/
  | frame {n : ℕ} (hsize : f.sizeFor alloc = some n) (hle : (f.begun ++ f.fresh).length ≤ n)
      (hend : f.frameEnd = true) (hz : f'.zChip = 0) (hgot : f'.got = [])
      (hput : f'.put = f.put ++ (check (f.begun ++ f.fresh)).toList)

/-- The state between two calls. -/
structure Ready (alloc : ℕ → Option (List UInt8)) (f f' : RxFifo) : Prop where
  buf : f'.BufOk
  mbuf : f'.mbuf = none ∨ f.sizeFor alloc = some f'.bufSize

theorem got_of_none {f : RxFifo} (h : f.mbuf = none) : f.got = [] := by
  rw [got, h, Option.getD_none, List.take_nil]

/-- The end of a frame, or of a piece that fits. -/
theorem BufOk.rxHdlcEnd (check : List UInt8 → Option (List UInt8)) {f : RxFifo} (h : f.BufOk) :
    (f.rxHdlcEnd check).BufOk ∧ (f.rxHdlcEnd check).zChip = f.zChip ∧
    ((f.rxHdlcEnd check).mbuf = none ∨ (f.rxHdlcEnd check).bufSize = f.bufSize) ∧
    (f.frameEnd = false → (f.rxHdlcEnd check).got = f.got ∧ (f.rxHdlcEnd check).put = f.put) ∧
    (f.frameEnd = true → (f.rxHdlcEnd check).got = [] ∧
      (f.rxHdlcEnd check).put = f.put ++ (check f.got).toList) := by
  have hlen := h.len
  have hgot : (f.mbuf.getD []).take (f.bufSize - f.bufLen) = f.got := by
    rw [got]
    congr 1
    omega
  obtain ⟨hrestore, hempty⟩ := h.restore
  rw [RxFifo.rxHdlcEnd]
  split
  next hend =>
    rw [hgot]
    split
    next frame hcheck =>
      refine ⟨⟨rfl, rfl⟩, rfl, .inl rfl, fun hne => absurd (hend.symm.trans hne) (by decide), fun _ => ?_⟩
      exact ⟨got_of_none rfl, by rw [hcheck]; rfl⟩
    next hcheck =>
      refine ⟨hrestore, rfl, .inr rfl, fun hne => absurd (hend.symm.trans hne) (by decide), fun _ => ?_⟩
      exact ⟨hempty, by rw [hcheck]; simp [RxFifo.restore]⟩
  next hend =>
    exact ⟨h, rfl, .inr rfl, fun _ => ⟨rfl, rfl⟩, fun htrue => absurd htrue hend⟩

/-- A round of the loop that has a buffer, and the round after it. -/
theorem BufOk.rxHdlcFrom (alloc : ℕ → Option (List UInt8)) (check : List UInt8 → Option (List UInt8))
    {f : RxFifo} (h : f.BufOk) (hz : f.zChip = f.fresh.length) (hmbuf : f.mbuf.isSome) :
    ∃ f', (if f.filterRx.zChip ≠ 0 then rxHdlcFrom alloc check 1 f.filterRx
        else some (f.filterRx.rxHdlcEnd check)) = some f' ∧
      f'.BufOk ∧ (f'.mbuf = none ∨ f'.bufSize = f.bufSize) ∧
      ((f.bufSize < (f.got ++ f.fresh).length ∧ f'.zChip ≠ 0 ∧ f'.got = [] ∧ f'.put = f.put) ∨
        ((f.got ++ f.fresh).length ≤ f.bufSize ∧ f'.zChip = 0 ∧
          (f.frameEnd = false → f'.got = f.got ++ f.fresh ∧ f'.put = f.put) ∧
          (f.frameEnd = true → f'.got = [] ∧ f'.put = f.put ++ (check (f.got ++ f.fresh)).toList))) := by
  obtain ⟨h1, hgot1, hchip1, hz1, hsize1, hlen1, hmbuf1, hput1, hend1, _⟩ := h.filterRx hz
  have hlen := h.len
  have htotal : (f.got ++ f.fresh).length = f.bufPtr + f.fresh.length := by
    rw [List.length_append, h.length_got]
  split
  next hleft =>
    -- the buffer is full, and the frame goes on
    rw [hz1, hchip1, List.length_drop] at hleft
    obtain ⟨hrestore, hempty⟩ := h1.restore
    have hfull : f.filterRx.bufLen = 0 := by omega
    refine ⟨f.filterRx.restore, ?_, hrestore, .inr hsize1, .inl ⟨by omega, ?_, hempty, hput1⟩⟩
    · have hz1' : f.filterRx.zChip ≠ 0 := by
        rw [hz1, hchip1, List.length_drop]
        exact hleft
      have htop : f.filterRx.rxHdlcTop alloc = (f.filterRx, .error) := by
        rw [rxHdlcTop, if_pos hfull, hmbuf1, if_pos hmbuf, if_pos hz1']
      rw [RxFifo.rxHdlcFrom, htop]
    · simp only [RxFifo.restore, hz1, hchip1, List.length_drop]
      exact hleft
  next hdone =>
    rw [not_not, hz1, hchip1, List.length_drop] at hdone
    obtain ⟨h2, hz2, hmbuf2, hpart, hframe⟩ := h1.rxHdlcEnd check
    have htake : f.fresh.take f.bufLen = f.fresh := List.take_of_length_le (by omega)
    rw [hgot1, hput1, htake, hend1] at hpart hframe
    rw [hsize1] at hmbuf2
    refine ⟨_, rfl, h2, hmbuf2, .inr ⟨by omega, ?_, hpart, hframe⟩⟩
    rw [hz2, hz1, hchip1, List.length_drop]
    exact hdone

/-- A round with the buffer of `g`, which is `f` without a frame that was given up. -/
theorem BufOk.took (alloc : ℕ → Option (List UInt8)) (check : List UInt8 → Option (List UInt8))
    {f g : RxFifo} (h : g.BufOk) (hz : g.zChip = g.fresh.length) (hmbuf : g.mbuf.isSome)
    (hgot : g.got = f.begun) (hchip : g.fresh = f.fresh) (hput : g.put = f.put)
    (hend : g.frameEnd = f.frameEnd) (hsize : f.sizeFor alloc = some g.bufSize) :
    ∃ f', (if g.filterRx.zChip ≠ 0 then RxFifo.rxHdlcFrom alloc check 1 g.filterRx
        else some (g.filterRx.rxHdlcEnd check)) = some f' ∧ Ready alloc f f' ∧ Took alloc check f f' := by
  obtain ⟨f', hrun, hf', hbuf, hres⟩ := h.rxHdlcFrom alloc check hz hmbuf
  rw [hgot, hchip, hput, hend] at hres
  refine ⟨f', hrun, ⟨hf', hbuf.imp_right fun heq => by rw [heq, hsize]⟩, ?_⟩
  obtain ⟨hlt, hne, hempty, hsameput⟩ | ⟨hle, hzero, hpart, hframe⟩ := hres
  · exact .overflow hsize hlt hne hempty hsameput
  · by_cases hfe : f.frameEnd = true
    · exact .frame hsize hle hfe hzero (hframe hfe).1 (hframe hfe).2
    · have hfe' : f.frameEnd = false := by simpa using hfe
      exact .piece hsize hle hfe' hzero (hpart hfe').1 (hpart hfe').2

/-- **What `rx_hdlc` does.** -/
theorem rxHdlc_eq (alloc : ℕ → Option (List UInt8)) (check : List UInt8 → Option (List UInt8))
    {f : RxFifo} (h : f.BufOk) (hz : f.zChip = f.fresh.length) :
    ∃ f', f.rxHdlc alloc check = some f' ∧ Ready alloc f f' ∧ Took alloc check f f' := by
  -- the frame that was begun is given up first
  obtain ⟨g, hg, hgok, hgot, hsame⟩ : ∃ g, (if f.frameError then f.restore else f) = g ∧ g.BufOk ∧
      g.got = f.begun ∧ (g.fresh = f.fresh ∧ g.zChip = f.zChip ∧ g.mbuf = f.mbuf ∧ g.put = f.put ∧
        g.bufSize = f.bufSize ∧ g.frameEnd = f.frameEnd ∧ g.allocs = f.allocs) := by
    obtain ⟨hrestore, hempty⟩ := h.restore
    by_cases herr : f.frameError = true
    · exact ⟨f.restore, by rw [if_pos herr], hrestore, by rw [hempty, begun, if_pos herr],
        rfl, rfl, rfl, rfl, rfl, rfl, rfl⟩
    · exact ⟨f, by rw [if_neg herr], h, by rw [begun, if_neg herr], rfl, rfl, rfl, rfl, rfl, rfl, rfl⟩
  obtain ⟨hchip, hzg, hmbuf, hput, hsize, hend, hallocs⟩ := hsame
  have hlen := hgok.len
  have hgz : g.zChip = g.fresh.length := by rw [hzg, hz, hchip]
  rw [rxHdlc, hg, rxHdlcRounds, RxFifo.rxHdlcFrom]
  by_cases hm : g.mbuf.isSome
  · have hsizeFor : f.sizeFor alloc = some g.bufSize := by rw [sizeFor, ← hmbuf, if_pos hm, hsize]
    by_cases hfull : g.bufLen = 0
    · have hgotlen := hgok.length_got
      obtain ⟨hrestore, hempty⟩ := hgok.restore
      by_cases hmore : g.zChip = 0
      · -- the buffer is full, and nothing is left to be read
        have htop : g.rxHdlcTop alloc = (g, .wait) := by
          rw [rxHdlcTop, if_pos hfull, if_pos hm, if_neg (not_not.mpr hmore)]
        have hnil : f.fresh = [] := by
          rw [← hchip]
          exact List.length_eq_zero_iff.mp (hgz.symm.trans hmore)
        obtain ⟨h2, hz2, hmbuf2, hpart, hframe⟩ := hgok.rxHdlcEnd check
        have hfit : (f.begun ++ f.fresh).length ≤ g.bufSize := by
          rw [hnil, List.append_nil, ← hgot]
          omega
        rw [htop]
        refine ⟨_, rfl, ⟨h2, hmbuf2.imp_right fun heq => by rw [heq, hsizeFor]⟩, ?_⟩
        by_cases hfe : f.frameEnd = true
        · obtain ⟨hgot2, hput2⟩ := hframe (hend.trans hfe)
          refine .frame hsizeFor hfit hfe (hz2.trans hmore) hgot2 ?_
          rw [hput2, hput, hgot, hnil, List.append_nil]
        · have hfe' : f.frameEnd = false := by simpa using hfe
          obtain ⟨hgot2, hput2⟩ := hpart (hend.trans hfe')
          refine .piece hsizeFor hfit hfe' (hz2.trans hmore) ?_ (hput2.trans hput)
          rw [hgot2, hgot, hnil, List.append_nil]
      · have htop : g.rxHdlcTop alloc = (g, .error) := by
          rw [rxHdlcTop, if_pos hfull, if_pos hm, if_pos hmore]
        rw [htop]
        refine ⟨_, rfl, ⟨hrestore, .inr hsizeFor⟩, .overflow hsizeFor ?_ hmore hempty hput⟩
        rw [List.length_append, ← hgot, ← hchip]
        omega
    · have htop : g.rxHdlcTop alloc = (g, .on) := by rw [rxHdlcTop, if_neg hfull]
      rw [htop]
      exact hgok.took alloc check hgz hm hgot hchip hput hend hsizeFor
  · -- a frame begins, and needs a buffer
    have hnone : g.mbuf = none := by simpa using hm
    have hgsize : g.bufSize = 0 := by rw [hgok.size, hnone]; rfl
    have hbegun : f.begun = [] := by rw [← hgot, got_of_none hnone]
    have hfull : g.bufLen = 0 := by omega
    have hsizeFor : f.sizeFor alloc = (alloc f.allocs).map List.length := by
      rw [sizeFor, ← hmbuf, if_neg hm]
    have htop : g.rxHdlcTop alloc
        = (g.getMbufRx alloc, if (g.getMbufRx alloc).mbuf.isSome then .on else .done) := by
      rw [rxHdlcTop, if_pos hfull, if_neg hm]
    rw [htop]
    cases halloc : alloc g.allocs with
    | none =>
      have hmb : (g.getMbufRx alloc).mbuf = none := halloc
      have hsz : (g.getMbufRx alloc).bufSize = 0 := by simp [getMbufRx, halloc]
      rw [hmb]
      rw [← hallocs, halloc] at hsizeFor
      refine ⟨_, rfl, ⟨⟨by rw [hmb, hsz]; rfl, ?_⟩, .inl hmb⟩, .noMbuf hsizeFor (hzg.trans hz)
        (got_of_none hmb) hput⟩
      simp [getMbufRx, halloc]
    | some mem =>
      have hmb : (g.getMbufRx alloc).mbuf = some mem := halloc
      have hsz : (g.getMbufRx alloc).bufSize = mem.length := by simp [getMbufRx, halloc]
      rw [← hallocs, halloc] at hsizeFor
      have hok : (g.getMbufRx alloc).BufOk := by
        refine ⟨by rw [hmb, hsz]; rfl, ?_⟩
        simp [getMbufRx, halloc]
      rw [hmb, Option.isSome_some, if_pos rfl]
      refine hok.took alloc check hgz (by rw [hmb]; rfl) ?_ hchip hput hend (by rw [hsizeFor, hsz]; rfl)
      rw [hbegun, got, getMbufRx, List.take_zero]

theorem filterRx_other (f : RxFifo) : f.filterRx.other = f.other := by
  rw [filterRx]
  split <;> rfl

theorem rxHdlcTop_other (alloc : ℕ → Option (List UInt8)) (f : RxFifo) :
    (f.rxHdlcTop alloc).1.other = f.other := by
  rw [rxHdlcTop]
  split
  · split
    · split <;> rfl
    · rfl
  · rfl

theorem rxHdlcEnd_other (check : List UInt8 → Option (List UInt8)) (f : RxFifo) :
    (f.rxHdlcEnd check).other = f.other := by
  rw [rxHdlcEnd]
  split
  · split <;> rfl
  · rfl

theorem rxHdlcFrom_other (alloc : ℕ → Option (List UInt8)) (check : List UInt8 → Option (List UInt8))
    (n : ℕ) {f f' : RxFifo} (h : rxHdlcFrom alloc check n f = some f') : f'.other = f.other := by
  induction n generalizing f with
  | zero => simp [rxHdlcFrom] at h
  | succ n ih =>
    have htop := rxHdlcTop_other alloc f
    rw [rxHdlcFrom] at h
    split at h
    next g hg =>
      rw [hg] at htop
      obtain rfl := Option.some.inj h
      exact htop
    next g hg =>
      rw [hg] at htop
      obtain rfl := Option.some.inj h
      exact (rxHdlcEnd_other check g).trans htop
    next g hg =>
      rw [hg] at htop
      obtain rfl := Option.some.inj h
      exact htop
    next g hg =>
      rw [hg] at htop
      simp only at h
      split at h
      next => exact (ih h).trans ((filterRx_other g).trans htop)
      next =>
        obtain rfl := Option.some.inj h
        exact (rxHdlcEnd_other check _).trans ((filterRx_other g).trans htop)

/-- What else there is of a FIFO stays as it is. -/
theorem rxHdlc_other {alloc : ℕ → Option (List UInt8)} {check : List UInt8 → Option (List UInt8)}
    {f f' : RxFifo} (h : f.rxHdlc alloc check = some f') : f'.other = f.other := by
  have hrun := rxHdlcFrom_other alloc check _ h
  rw [hrun]
  split <;> rfl

/-! ## A stream -/

/-- The stream that was received so far. -/
def stream (f : RxFifo) : List UInt8 := f.put.flatten ++ f.got

/-- A full mbuf is passed on, and the next one is not full. -/
theorem BufOk.passOn {alloc : ℕ → Option (List UInt8)} (halloc : ∀ n, ∃ mem, alloc n = some mem ∧ mem ≠ [])
    {f : RxFifo} (h : f.BufOk) (hfull : f.bufLen = 0) :
    let f' := ({ f with put := f.put ++ f.mbuf.toList, mbuf := none } : RxFifo).getMbufRx alloc
    f'.BufOk ∧ f'.mbuf.isSome ∧ f'.bufLen ≠ 0 ∧ f'.stream = f.stream ∧ f'.fresh = f.fresh ∧
      f'.zChip = f.zChip := by
  obtain ⟨mem, hmem, hne⟩ := halloc f.allocs
  have hlen := h.len
  have hsize := h.size
  have hgot : f.mbuf.toList.flatten = f.got := by
    rw [got]
    cases hm : f.mbuf with
    | none => simp
    | some mem' =>
      rw [hm, Option.getD_some] at hsize
      simp only [Option.toList_some, List.flatten_singleton, Option.getD_some]
      rw [List.take_of_length_le (by omega)]
  refine ⟨⟨?_, ?_⟩, ?_, ?_, ?_, rfl, rfl⟩
  · simp [getMbufRx, hmem]
  · simp [getMbufRx, hmem]
  · simp [getMbufRx, hmem]
  · simpa [getMbufRx, hmem] using hne
  · rw [got] at hgot
    simpa [stream, getMbufRx, got, hmem] using hgot

/-- **The mbufs of a stream are the stream**, when there are mbufs: the bytes that are passed on, and those
of the mbuf that is not full yet, are all that the chip had, in order. -/
theorem rxTransparent_stream {alloc : ℕ → Option (List UInt8)}
    (halloc : ∀ n, ∃ mem, alloc n = some mem ∧ mem ≠ []) {f : RxFifo} (h : f.BufOk)
    (hz : f.zChip = f.fresh.length) :
    ∃ f', f.rxTransparent alloc = some f' ∧ f'.BufOk ∧ f'.zChip = 0 ∧
      f'.stream = f.stream ++ f.fresh := by
  suffices hloop : ∀ n (f : RxFifo), f.BufOk → f.zChip = f.fresh.length → f.zChip < n →
      ∃ f', rxTransparentFrom alloc n f = some f' ∧ f'.BufOk ∧ f'.zChip = 0 ∧
        f'.stream = f.stream ++ f.fresh from
    hloop (f.zChip + 1) f h hz (Nat.lt_succ_self _)
  intro n
  induction n with
  | zero => exact fun f _ _ hlt => absurd hlt (Nat.not_lt_zero _)
  | succ n ih =>
    intro f h hz hlt
    obtain ⟨g, hg, hok, hstream, hchip, hgz, hroom⟩ : ∃ g, (if f.bufLen = 0 then
        ({ f with put := f.put ++ f.mbuf.toList, mbuf := none } : RxFifo).getMbufRx alloc else f) = g ∧
        g.BufOk ∧ g.stream = f.stream ∧ g.fresh = f.fresh ∧ g.zChip = f.zChip ∧
        g.mbuf.isSome ∧ g.bufLen ≠ 0 := by
      by_cases hfull : f.bufLen = 0
      · obtain ⟨hok, hm, hlen, hstream, hchip, hgz⟩ := h.passOn halloc hfull
        exact ⟨_, by rw [if_pos hfull], hok, hstream, hchip, hgz, hm, hlen⟩
      · refine ⟨f, by rw [if_neg hfull], h, rfl, rfl, rfl, ?_, hfull⟩
        have hlen := h.len
        have hsize := h.size
        cases hm : f.mbuf with
        | some mem => rfl
        | none =>
          rw [hm, Option.getD_none, List.length_nil] at hsize
          omega
    obtain ⟨hm, hlen⟩ := hroom
    obtain ⟨h1, hgot1, hchip1, hz1, _, _, _, hput1, _, _⟩ := hok.filterRx (by rw [hgz, hz, hchip])
    have hstream1 : g.filterRx.stream ++ g.filterRx.fresh = f.stream ++ f.fresh := by
      rw [stream, hput1, hgot1, hchip1, ← List.append_assoc, List.append_assoc,
        List.take_append_drop, ← hstream, hchip, stream]
    have hnone : ¬ g.mbuf.isNone = true := by
      obtain ⟨mem, hmem⟩ := Option.isSome_iff_exists.mp hm
      simp [hmem]
    rw [rxTransparentFrom]
    simp only [hg, if_neg hnone]
    split
    next hmore =>
      have hless : g.filterRx.zChip < n := by
        rw [hz1, hchip1, List.length_drop, hchip] at hmore ⊢
        omega
      obtain ⟨f', hrun, hf', hzero, hres⟩ := ih g.filterRx h1 hz1 hless
      exact ⟨f', hrun, hf', hzero, hres.trans hstream1⟩
    next hdone =>
      rw [not_not] at hdone
      have hnil : g.filterRx.fresh = [] := List.length_eq_zero_iff.mp (hz1.symm.trans hdone)
      rw [hnil, List.append_nil] at hstream1
      exact ⟨_, rfl, h1, hdone, hstream1⟩

/-- What else there is of a FIFO stays as it is. -/
theorem rxTransparent_other {alloc : ℕ → Option (List UInt8)} {f f' : RxFifo}
    (h : f.rxTransparent alloc = some f') : f'.other = f.other := by
  suffices hloop : ∀ n (f : RxFifo), rxTransparentFrom alloc n f = some f' → f'.other = f.other from
    hloop _ f h
  intro n
  induction n with
  | zero => exact fun f hrun => nomatch hrun
  | succ n ih =>
    intro f hrun
    obtain ⟨g, hg, hother⟩ : ∃ g, (if f.bufLen = 0 then
        ({ f with put := f.put ++ f.mbuf.toList, mbuf := none } : RxFifo).getMbufRx alloc else f) = g ∧
        g.other = f.other := by
      refine ⟨_, rfl, ?_⟩
      split <;> rfl
    rw [rxTransparentFrom] at hrun
    simp only [hg] at hrun
    split at hrun
    next =>
      obtain rfl := Option.some.inj hrun
      exact hother
    next =>
      split at hrun
      next => exact (ih _ hrun).trans ((filterRx_other g).trans hother)
      next =>
        obtain rfl := Option.some.inj hrun
        exact (filterRx_other g).trans hother

end RxFifo

namespace TxFifo

/-! ## The transmit filter -/

/-- `filter_tx`. -/
def filterTx (f : TxFifo) : TxFifo :=
  let ioLen := min f.zChip f.bufLen
  if ioLen = 0 then f
  else
    { f with
      chip := f.chip ++ ((f.mbuf.getD []).drop f.bufPtr).take ioLen
      bufPtr := f.bufPtr + ioLen
      bufLen := f.bufLen - ioLen
      zChip := f.zChip - ioLen }

/-- `ihfc_i4b_getmbuf`: chained mbufs are copied to one, if there is one, and otherwise dropped. -/
def ihfcGetmbuf (avail : ℕ → Bool) : ℕ → List Packet → Option (List UInt8) × ℕ × List Packet
  | n, [] => (none, n, [])
  | n, m :: ms =>
    if m.2 = [] then (some m.1, n, ms)
    else if avail n then (some m.bytes, n + 1, ms)
    else ihfcGetmbuf avail (n + 1) ms

/-- `get_mbuf_tx`. -/
def getMbufTx (avail : ℕ → Bool) (f : TxFifo) : TxFifo :=
  let r := ihfcGetmbuf avail f.pullups f.queue
  let size := (r.1.getD []).length
  { f with
    mbuf := r.1
    pullups := r.2.1
    queue := r.2.2
    bufSize := size
    bufLen := size
    bufPtr := 0 }

/-- The pointers are those of a frame that was not begun. -/
def restore (f : TxFifo) : TxFifo :=
  { f with bufPtr := f.bufPtr - (f.bufSize - f.bufLen), bufLen := f.bufSize }

/-- The top of the loop of `tx_hdlc`; the flag says that it goes to `done`. -/
def txHdlcTop (avail : ℕ → Bool) (f : TxFifo) : TxFifo × Bool :=
  if f.bufLen = 0 then
    let f := if f.mbuf.isSome then { f with frameEnd := true } else f
    let f := f.getMbufTx avail
    (f, f.mbuf.isNone || f.frameEnd)
  else (f, false)

/-- The loop of `tx_hdlc`, with that many rounds to go. -/
def txHdlcFrom (avail : ℕ → Bool) : ℕ → TxFifo → Option TxFifo
  | 0, _ => none
  | n + 1, f =>
    match f.txHdlcTop avail with
    | (f, true) => some f
    | (f, false) =>
      let f := f.filterTx
      if f.zChip ≠ 0 then txHdlcFrom avail n f else some f

/-- The rounds that are ever needed. -/
def txHdlcRounds : ℕ := 2

/-- `tx_hdlc`. -/
def txHdlc (avail : ℕ → Bool) (f : TxFifo) : Option TxFifo :=
  txHdlcFrom avail txHdlcRounds (if f.frameError then f.restore else f)

/-- The buffer is that of the mbuf. -/
structure BufOk (f : TxFifo) : Prop where
  size : f.bufSize = (f.mbuf.getD []).length
  len : f.bufPtr + f.bufLen = f.bufSize

/-- What has been sent of the frame. -/
def sent (f : TxFifo) : List UInt8 := (f.mbuf.getD []).take f.bufPtr

/-- The frames that are still to be sent, the one that was begun included. -/
def pending (f : TxFifo) : List (List UInt8) := f.mbuf.toList ++ f.queue.map Packet.bytes

/-- What is left of frames, when chained ones may be dropped for want of a buffer. -/
def Leaves (avail : ℕ → Bool) (frames frames' : List (List UInt8)) : Prop :=
  List.Sublist frames' frames ∧ ((∀ n, avail n = true) → frames' = frames)

theorem Leaves.refl (avail : ℕ → Bool) (frames : List (List UInt8)) : Leaves avail frames frames :=
  ⟨List.Sublist.refl _, fun _ => rfl⟩

theorem Leaves.trans {avail : ℕ → Bool} {l l' l'' : List (List UInt8)} (h : Leaves avail l l')
    (h' : Leaves avail l' l'') : Leaves avail l l'' :=
  ⟨h'.1.trans h.1, fun hall => (h'.2 hall).trans (h.2 hall)⟩

theorem Leaves.append_left {avail : ℕ → Bool} {l l' : List (List UInt8)} (h : Leaves avail l l')
    (pre : List (List UInt8)) : Leaves avail (pre ++ l) (pre ++ l') :=
  ⟨(List.append_sublist_append_left pre).mpr h.1, fun hall => by rw [h.2 hall]⟩

theorem Leaves.append_right {avail : ℕ → Bool} {l l' : List (List UInt8)} (h : Leaves avail l l')
    (post : List (List UInt8)) : Leaves avail (l ++ post) (l' ++ post) :=
  ⟨(List.append_sublist_append_right post).mpr h.1, fun hall => by rw [h.2 hall]⟩

theorem ihfcGetmbuf_leaves (avail : ℕ → Bool) (n : ℕ) (queue : List Packet) :
    Leaves avail (queue.map Packet.bytes)
      ((ihfcGetmbuf avail n queue).1.toList ++ (ihfcGetmbuf avail n queue).2.2.map Packet.bytes) := by
  induction queue generalizing n with
  | nil => exact .refl _ _
  | cons m ms ih =>
    rw [ihfcGetmbuf]
    split
    next hone =>
      have hbytes : m.bytes = m.1 := by rw [Packet.bytes, hone, List.flatten_nil, List.append_nil]
      rw [List.map_cons, hbytes]
      exact .refl _ _
    next =>
      split
      next => exact .refl _ _
      next hno =>
        have hrest := ih (n + 1)
        rw [List.map_cons]
        refine ⟨hrest.1.cons _, fun hall => absurd (hall n) hno⟩

/-- The next frame. -/
theorem getMbufTx_ready (avail : ℕ → Bool) (f : TxFifo) :
    (f.getMbufTx avail).BufOk ∧ (f.getMbufTx avail).sent = [] ∧
      Leaves avail (f.queue.map Packet.bytes) (f.getMbufTx avail).pending :=
  ⟨⟨rfl, Nat.zero_add _⟩, List.take_zero, ihfcGetmbuf_leaves avail f.pullups f.queue⟩

theorem BufOk.restore {f : TxFifo} (h : f.BufOk) : f.restore.BufOk ∧ f.restore.sent = [] := by
  have hlen := h.len
  have hptr : f.bufPtr - (f.bufSize - f.bufLen) = 0 := by omega
  refine ⟨⟨h.size, ?_⟩, ?_⟩
  · simp only [TxFifo.restore, hptr, Nat.zero_add]
  · simp only [sent, TxFifo.restore, hptr, List.take_zero]

/-- What `filter_tx` writes follows what was sent of the frame. -/
theorem BufOk.filterTx {f : TxFifo} (h : f.BufOk) :
    f.filterTx.BufOk ∧ f.filterTx.pending = f.pending ∧ f.filterTx.mbuf = f.mbuf ∧
      f.filterTx.queue = f.queue ∧ f.filterTx.frameEnd = f.frameEnd ∧
      (∃ data, f.filterTx.chip = f.chip ++ data ∧ f.filterTx.sent = f.sent ++ data ∧
        f.filterTx.zChip + data.length = f.zChip) ∧
      (f.filterTx.zChip ≠ 0 → f.filterTx.bufLen = 0) := by
  have hlen := h.len
  have hsize := h.size
  rw [TxFifo.filterTx]
  split
  next hzero =>
    refine ⟨h, rfl, rfl, rfl, rfl, ⟨[], by simp, by simp, rfl⟩, ?_⟩
    intro hne
    exact (Nat.min_eq_zero_iff.mp hzero).resolve_left hne
  next hpos =>
    refine ⟨⟨hsize, by simp only; omega⟩, rfl, rfl, rfl, rfl, ⟨_, rfl, ?_, ?_⟩, ?_⟩
    · simp only [sent, List.take_add]
    · simp only [List.length_take, List.length_drop]
      omega
    · simp only
      omega

/-- What `tx_hdlc` goes on from. -/
def begun (f : TxFifo) : List UInt8 := if f.frameError then [] else f.sent

/-- What one call writes. -/
inductive Gave (avail : ℕ → Bool) (f f' : TxFifo) (data : List UInt8) : Prop
  /-- The end of a frame. -/
  | frame (hend : f'.frameEnd = true) (hsent : f'.sent = [])
      (hleaves : Leaves avail f.pending ((f.begun ++ data) :: f'.pending))
  /-- Part of a frame, as much as the FIFO takes; or there is none. -/
  | piece (hend : f'.frameEnd = false) (hsent : f'.sent = f.begun ++ data)
      (hleaves : Leaves avail f.pending f'.pending) (hstop : f'.zChip ≠ 0 → f'.pending = [])

theorem BufOk.sent_all {f : TxFifo} (h : f.BufOk) (hfull : f.bufLen = 0) : f.mbuf.getD [] = f.sent := by
  have hlen := h.len
  have hsize := h.size
  rw [sent, List.take_of_length_le]
  omega

/-- The frame in the buffer has been sent. -/
theorem BufOk.txHdlcTop_end (avail : ℕ → Bool) {f : TxFifo} (h : f.BufOk) (hfull : f.bufLen = 0)
    (hmbuf : f.mbuf.isSome) :
    ∃ f', f.txHdlcTop avail = (f', true) ∧ f'.BufOk ∧ f'.frameEnd = true ∧ f'.sent = [] ∧
      f'.chip = f.chip ∧ f'.zChip = f.zChip ∧ Leaves avail f.pending (f.sent :: f'.pending) := by
  obtain ⟨hok, hsent, hleaves⟩ := getMbufTx_ready avail { f with frameEnd := true }
  refine ⟨({ f with frameEnd := true } : TxFifo).getMbufTx avail, ?_, hok, rfl, hsent, rfl, rfl, ?_⟩
  · rw [txHdlcTop, if_pos hfull]
    simp only [hmbuf, if_true]
    rw [show (({ f with frameEnd := true } : TxFifo).getMbufTx avail).frameEnd = true from rfl,
      Bool.or_true]
  · have hall := h.sent_all hfull
    obtain ⟨mem, hmem⟩ := Option.isSome_iff_exists.mp hmbuf
    rw [hmem, Option.getD_some] at hall
    rw [pending, hmem, hall]
    exact hleaves.append_left [f.sent]

/-- Nothing is fetched from a queue only when there is nothing to be fetched. -/
theorem ihfcGetmbuf_none (avail : ℕ → Bool) (n : ℕ) (queue : List Packet)
    (h : (ihfcGetmbuf avail n queue).1 = none) : (ihfcGetmbuf avail n queue).2.2 = [] := by
  induction queue generalizing n with
  | nil => rfl
  | cons m ms ih =>
    rw [ihfcGetmbuf] at h ⊢
    split at h
    next => simp at h
    next hchain =>
      split at h
      next => simp at h
      next hno =>
        rw [if_neg hchain, if_neg hno]
        exact ih (n + 1) h

/-- **What `tx_hdlc` does.** -/
theorem txHdlc_eq (avail : ℕ → Bool) {f : TxFifo} (h : f.BufOk) (hend : f.frameEnd = false) :
    ∃ f' data, f.txHdlc avail = some f' ∧ f'.BufOk ∧ f'.chip = f.chip ++ data ∧
      f'.zChip + data.length = f.zChip ∧ Gave avail f f' data := by
  -- the frame that was begun is repeated
  obtain ⟨g, hg, hok, hsent, hpend, hgend, hqueue, hchip, hz⟩ : ∃ g,
      (if f.frameError then f.restore else f) = g ∧ g.BufOk ∧ g.sent = f.begun ∧ g.pending = f.pending ∧
        g.frameEnd = false ∧ g.queue = f.queue ∧ g.chip = f.chip ∧ g.zChip = f.zChip := by
    obtain ⟨hrestore, hempty⟩ := h.restore
    by_cases herr : f.frameError = true
    · exact ⟨f.restore, by rw [if_pos herr], hrestore, by rw [hempty, begun, if_pos herr], rfl, hend, rfl,
        rfl, rfl⟩
    · exact ⟨f, by rw [if_neg herr], h, by rw [begun, if_neg herr], rfl, hend, rfl, rfl, rfl⟩
  -- a round with the frame of `g'`
  have hround : ∀ g' : TxFifo, g'.BufOk → g'.frameEnd = false → g'.mbuf.isSome → g'.sent = f.begun →
      Leaves avail f.pending g'.pending → g'.chip = f.chip → g'.zChip = f.zChip →
      ∃ f' data, (if g'.filterTx.zChip ≠ 0 then TxFifo.txHdlcFrom avail 1 g'.filterTx
        else some g'.filterTx) = some f' ∧ f'.BufOk ∧ f'.chip = f.chip ++ data ∧
        f'.zChip + data.length = f.zChip ∧ Gave avail f f' data := by
    intro g' hok' hend' hm hsent' hleaves hchip' hz'
    obtain ⟨h1, hpend1, hmbuf1, _, hend1, ⟨data, hchip1, hsent1, hz1⟩, hfull1⟩ := hok'.filterTx
    rw [hsent'] at hsent1
    rw [hchip'] at hchip1
    rw [hz'] at hz1
    split
    next hmore =>
      -- the frame is in the FIFO, and there is room
      obtain ⟨f', htop, hok'', hend'', hsent'', hchip'', hz'', hleaves'⟩ :=
        h1.txHdlcTop_end avail (hfull1 hmore) (by rw [hmbuf1]; exact hm)
      rw [hpend1, hsent1] at hleaves'
      exact ⟨f', data, by rw [TxFifo.txHdlcFrom, htop], hok'', by rw [hchip'', hchip1], by rw [hz'', hz1],
        .frame hend'' hsent'' (hleaves.trans hleaves')⟩
    next hdone =>
      rw [not_not] at hdone
      refine ⟨_, data, rfl, h1, hchip1, hz1, .piece (hend1.trans hend') hsent1 ?_ ?_⟩
      · rw [hpend1]
        exact hleaves
      · exact fun hne => absurd hdone hne
  rw [txHdlc, hg, txHdlcRounds, TxFifo.txHdlcFrom]
  by_cases hfull : g.bufLen = 0
  · by_cases hm : g.mbuf.isSome
    · obtain ⟨f', htop, hok', hend', hsent', hchip', hz', hleaves⟩ := hok.txHdlcTop_end avail hfull hm
      rw [htop]
      refine ⟨f', [], rfl, hok', by rw [hchip', hchip, List.append_nil],
        by rw [hz', hz, List.length_nil, Nat.add_zero], .frame hend' hsent' ?_⟩
      rw [List.append_nil, ← hsent, ← hpend]
      exact hleaves
    · -- the next frame
      have hnone : g.mbuf = none := by simpa using hm
      have hbegun : f.begun = [] := by rw [← hsent, sent, hnone, Option.getD_none, List.take_nil]
      have htop : g.txHdlcTop avail = (g.getMbufTx avail, (g.getMbufTx avail).mbuf.isNone) := by
        rw [txHdlcTop, if_pos hfull, if_neg hm]
        have hfe : (g.getMbufTx avail).frameEnd = false := hgend
        simp only [hfe, Bool.or_false]
      obtain ⟨hok', hsent', hleaves⟩ := getMbufTx_ready avail g
      have hall : Leaves avail f.pending (g.getMbufTx avail).pending := by
        rw [← hpend, pending, hnone]
        exact hleaves
      rw [htop]
      cases hget : (g.getMbufTx avail).mbuf with
      | none =>
        have hempty : (g.getMbufTx avail).pending = [] := by
          have hqueue' : (g.getMbufTx avail).queue = [] := ihfcGetmbuf_none avail g.pullups g.queue hget
          rw [pending, hget, hqueue']
          rfl
        refine ⟨_, [], rfl, hok', by rw [List.append_nil]; exact hchip, hz, .piece hgend ?_ hall ?_⟩
        · rw [hsent', hbegun, List.append_nil]
        · exact fun _ => hempty
      | some mem =>
        exact hround _ hok' hgend (by rw [hget]; rfl) (by rw [hsent', hbegun]) hall hchip hz
  · have htop : g.txHdlcTop avail = (g, false) := by rw [txHdlcTop, if_neg hfull]
    have hm : g.mbuf.isSome := by
      have hlen := hok.len
      have hsize := hok.size
      cases hmem : g.mbuf with
      | some mem => rfl
      | none =>
        rw [hmem, Option.getD_none, List.length_nil] at hsize
        omega
    rw [htop]
    refine hround g hok hgend hm hsent ?_ hchip hz
    rw [hpend]
    exact .refl _ _

theorem filterTx_other (f : TxFifo) : f.filterTx.other = f.other := by
  rw [filterTx]
  split <;> rfl

theorem txHdlcTop_other (avail : ℕ → Bool) (f : TxFifo) : (f.txHdlcTop avail).1.other = f.other := by
  rw [txHdlcTop]
  split
  · simp only
    split <;> rfl
  · rfl

theorem txHdlcFrom_other (avail : ℕ → Bool) (n : ℕ) {f f' : TxFifo}
    (h : TxFifo.txHdlcFrom avail n f = some f') : f'.other = f.other := by
  induction n generalizing f with
  | zero => simp [TxFifo.txHdlcFrom] at h
  | succ n ih =>
    have htop := txHdlcTop_other avail f
    rw [TxFifo.txHdlcFrom] at h
    split at h
    next g hg =>
      rw [hg] at htop
      obtain rfl := Option.some.inj h
      exact htop
    next g hg =>
      rw [hg] at htop
      simp only at h
      split at h
      next => exact (ih h).trans ((filterTx_other g).trans htop)
      next =>
        obtain rfl := Option.some.inj h
        exact (filterTx_other g).trans htop

/-- What else there is of a FIFO stays as it is. -/
theorem txHdlc_other {avail : ℕ → Bool} {f f' : TxFifo} (h : f.txHdlc avail = some f') :
    f'.other = f.other := by
  have hrun := txHdlcFrom_other avail _ h
  rw [hrun]
  split <;> rfl

end TxFifo
end L1
end Isdn4bsd
