import Mathlib.Tactic
import Isdn4bsd.L1.Filter

/-!
# The programs of the ISAC, HSCX and IPAC

`i4b_ipac_rx_program` and `i4b_ipac_tx_program` move frames between the filters and chips that have a FIFO of
two blocks.  The chip says what it has by interrupts: a block that is full (RPF), the last block of a frame
(RME), room for a block (XPR), or that it failed.  It is told what to do by commands.

* `RxFifo.ipacRxProgram_eq` : what one interrupt does to a receiver.
* `RxFifo.listen_sublist` : **only whole frames without an error are received, and in order**, whatever
  becomes of the other ones.
* `RxFifo.listen_eq` : with mbufs of `n` bytes they are exactly those of at most `n` bytes.
* `RxFifo.hear_transparent` : nothing of a stream is lost.
* `TxFifo.transmit_leaves` : **what was queued is sent, in order and whole**, a frame that the chip gave up
  once more.
* `TxFifo.transmit_end` : a frame that is given up and one that ends are never in one command to the chip,
  unless there are frames without data.
* `TxFifo.transmit_done` : it is all sent when there were enough interrupts.
* `TxFifo.watch_awake` : and there will be one while there is something to be sent.
* `received_sublist`, `received_eq` : **a transmitter and a receiver** with a bad line between them, and with a
  good one.

## The chip

The chip is what the program can see of it.  A frame that it hears comes as full blocks and a last one, with a length
and a status byte; the line may break a frame off, or damage it, and the chip may overflow and drop the rest
(`Heard`, `Fate`).  What the program reads has the right length for the interrupt that is served; beyond that,
nothing is assumed.

A transmitter gives a block to the chip, with or without the end of the frame, or tells it to forget the frame it has
begun.  On the line that is a sequence of frames, complete or given up (`Lib.Transfer`).

## One call

Both programs begin with a reset that may be due, look at their interrupts in turn, and then call the filter with the
room or the bytes there are.  `serves_*` are the ways through the receive program, and `Filled.*` what follows from
the filter's result in the transmit program.  What the filters do to their mbufs is `rxHdlc_eq` and `txHdlc_eq` of
`Isdn4bsd.L1.Filter`; the programs never look into an mbuf themselves.

## Runs

A frame is a list of interrupts, and a line a list of frames, so what becomes of a line is an induction over frames
in which each begins with a receiver that is at rest (`Rest`).  For a transmitter there is a count of the calls that
are left (`work`), and a record of whether the chip owes an interrupt (`owes`): a chip that was given nothing, and has
nothing in its FIFO, will never interrupt again, so the program must not return like that while frames are queued.
-/

set_option autoImplicit false

namespace Isdn4bsd
namespace L1

/-- `ihfc_fifo_setup` of a FIFO with blocks of `bs` bytes: there are no mbufs, and the program is going to be
reset. -/
def Fifo.setup (bs : ℕ) (removeStat : Bool) : Fifo where
  frameEnd := false
  frameError := false
  running := false
  reset := true
  istaErr := false
  istaXpr := false
  istaRpf := false
  istaRme := false
  cmdrXres := false
  cmdrXme := false
  cmdrXtf := false
  cmdrRres := false
  cmdrRmc := false
  zChip := 0
  fChip := 0
  blockSize := bs
  removeStat := removeStat
  mbuf := none
  bufSize := 0
  bufLen := 0
  bufPtr := 0

/-- The reset of a program: `ST_PROGRAM_MASK` is cleared. -/
def Fifo.programReset (f : Fifo) : Fifo :=
  if f.reset then
    { f with reset := false, istaErr := true, frameEnd := false, frameError := false, running := false }
  else f

namespace RxFifo

/-! ## The receive program -/

/-- `rx_error` of `i4b_ipac_rx_program`. -/
def rxError (f : RxFifo) : RxFifo :=
  { f with
    frameEnd := false, frameError := true
    istaErr := false, istaRme := false, istaRpf := false
    cmdrRres := true, cmdrRmc := true }

/-- The end of `i4b_ipac_rx_program`, when nothing is left of the block. -/
def rxComplete (f : RxFifo) : RxFifo :=
  { f with
    frameEnd := false, frameError := false
    istaErr := false, istaRme := false, istaRpf := false
    cmdrRmc := true }

/-- How much there is to be read, and whether it goes to `rx_error`. -/
def ipacRxStatus (f : RxFifo) : RxFifo × Bool :=
  if f.istaErr then (f, true)
  else if f.istaRme then
    let z := f.zChip &&& (f.blockSize - 1)
    let z := if z = 0 then f.blockSize else z
    let f := { f with zChip := if f.removeStat then z - 1 else z }
    -- RDO, CRC and RAB
    if (f.fChip ^^^ 0x20) &&& 0x70 ≠ 0 then (f, true) else ({ f with frameEnd := true }, false)
  else ({ f with zChip := f.blockSize }, false)

/-- `i4b_ipac_rx_program`. -/
def ipacRxProgram (filter : RxFifo → Option RxFifo) (f : RxFifo) : Option RxFifo :=
  let f := { f with toFifo := f.programReset }
  if ¬ (f.istaRme ∨ f.istaRpf ∨ f.istaErr) then some f
  else
    match f.ipacRxStatus with
    | (f, true) => some f.rxError
    | (f, false) => (filter f).map fun f => if f.zChip ≠ 0 then f.rxError else f.rxComplete

/-! ## What the chip says -/

/-- An interrupt of a receiver, with what is to be read. -/
inductive Event where
  | rpf (block : List UInt8)
  | rme (block : List UInt8) (rbcl rsta : ℕ)
  | err
  deriving DecidableEq, Repr

/-- `CHIP_STATUS_READ`. -/
def statusRead (f : RxFifo) : Event → RxFifo
  | .rpf block => { f with istaRpf := true, chip := block }
  | .rme block rbcl rsta => { f with istaRme := true, chip := block, zChip := rbcl, fChip := rsta }
  | .err => { f with istaErr := true }

/-- `CHIP_UNSELECT` : the commands are given to the chip. -/
def chipUnselect (f : RxFifo) : RxFifo := { f with cmdrRres := false, cmdrRmc := false }

/-- The interrupts of a frame.  The rest of it is dropped when the receiver is reset. -/
def hear (filter : RxFifo → Option RxFifo) : List Event → RxFifo → Option RxFifo
  | [], f => some f
  | e :: es, f =>
    match ipacRxProgram filter (f.statusRead e) with
    | none => none
    | some f' => if f'.cmdrRres then some f'.chipUnselect else hear filter es f'.chipUnselect

/-- The full blocks of a frame. -/
def full (bs k : ℕ) (bytes : List UInt8) : List (List UInt8) :=
  (List.range k).map fun i => (bytes.drop (i * bs)).take bs

/-- What becomes of a frame. -/
inductive Fate where
  | whole
  /-- After so many blocks, but before the last, the receiver fails. -/
  | fails (n : ℕ)
  /-- The chip does not take it, as after a reset. -/
  | lost
  deriving DecidableEq, Repr

/-- A frame that a chip hears. -/
structure Heard where
  data : List UInt8
  /-- `RSTA`. -/
  rsta : ℕ
  fate : Fate
  deriving DecidableEq, Repr

namespace Heard

/-- What there is of the frame in the FIFO; it may end with the status. -/
def stored (removeStat : Bool) (h : Heard) : List UInt8 :=
  if removeStat then h.data ++ [UInt8.ofNat h.rsta] else h.data

/-- The interrupts. -/
def events (bs : ℕ) (removeStat : Bool) (h : Heard) : List Event :=
  let bytes := h.stored removeStat
  let k := (bytes.length - 1) / bs
  match h.fate with
  | .whole => (full bs k bytes).map .rpf ++ [.rme (bytes.drop (k * bs)) bytes.length h.rsta]
  | .fails n => ((full bs k bytes).take n).map .rpf ++ [.err]
  | .lost => []

/-- `RSTA` says that there is no error. -/
def Ok (h : Heard) : Prop := (h.rsta ^^^ 0x20) &&& 0x70 = 0

instance (h : Heard) : Decidable h.Ok := inferInstanceAs (Decidable (_ = _))

/-- The frames that should be received. -/
def Intact (h : Heard) : Prop := h.fate = .whole ∧ h.Ok

instance (h : Heard) : Decidable h.Intact := inferInstanceAs (Decidable (_ ∧ _))

end Heard

/-- The receiver of a line. -/
def listen (filter : RxFifo → Option RxFifo) : List Heard → RxFifo → Option RxFifo
  | [], f => some f
  | h :: hs, f =>
    match hear filter (h.events f.blockSize f.removeStat) f with
    | none => none
    | some f' => listen filter hs f'

/-! ## One interrupt -/

/-- The data of an interrupt. -/
def Event.data (removeStat : Bool) : Event → List UInt8
  | .rpf block => block
  | .rme block _ _ => if removeStat then block.dropLast else block
  | .err => []

def Event.Ok : Event → Prop
  | .rpf _ => True
  | .rme _ _ rsta => (rsta ^^^ 0x20) &&& 0x70 = 0
  | .err => False

def Event.last : Event → Bool
  | .rpf _ => false
  | _ => true

/-- The FIFO has what the interrupt says. -/
def Event.Valid (bs : ℕ) : Event → Prop
  | .rpf block => block.length = bs
  | .rme block rbcl _ => 0 < block.length ∧ block.length ≤ bs ∧ rbcl % bs = block.length % bs
  | .err => True

/-- The receiver waits for an interrupt. -/
structure Idle (bs : ℕ) (removeStat : Bool) (f : RxFifo) : Prop where
  buf : f.BufOk
  blockSize : f.blockSize = bs
  removeStat : f.removeStat = removeStat
  rres : f.cmdrRres = false
  quiet : f.reset = false →
    f.frameEnd = false ∧ f.istaErr = false ∧ f.istaRme = false ∧ f.istaRpf = false

/-- The receiver is reset. -/
theorem BufOk.rxError {f : RxFifo} (h : f.BufOk) :
    f.rxError.chipUnselect.Idle f.blockSize f.removeStat ∧ f.rxError.chipUnselect.begun = [] :=
  ⟨⟨⟨h.size, h.len⟩, rfl, rfl, rfl, fun _ => ⟨rfl, rfl, rfl, rfl⟩⟩, if_pos rfl⟩

/-- The block is taken. -/
theorem BufOk.rxComplete {f : RxFifo} (h : f.BufOk) :
    f.rxComplete.chipUnselect.Idle f.blockSize f.removeStat ∧ f.rxComplete.chipUnselect.begun = f.got :=
  ⟨⟨⟨h.size, h.len⟩, rfl, rfl, rfl, fun _ => ⟨rfl, rfl, rfl, rfl⟩⟩, rfl⟩

/-- What becomes of the bytes `data` of a block. -/
inductive Heeds (alloc : ℕ → Option (List UInt8)) (f : RxFifo) (data : List UInt8) (last : Bool)
    (f' : RxFifo) : Prop
  | more {n : ℕ} (hsize : f.sizeFor alloc = some n) (hle : (f.begun ++ data).length ≤ n)
      (hlast : last = false) (hrres : f'.cmdrRres = false)
      (hbegun : f'.chipUnselect.begun = f.begun ++ data) (hput : f'.put = f.put)
  | frame {n : ℕ} (hsize : f.sizeFor alloc = some n) (hle : (f.begun ++ data).length ≤ n)
      (hlast : last = true) (hbegun : f'.chipUnselect.begun = [])
      (hput : f'.put = f.put ++ [f.begun ++ data])
  | dropped (hwhy : ∀ n, f.sizeFor alloc = some n → n < (f.begun ++ data).length)
      (hrres : data ≠ [] → f'.cmdrRres = true) (hbegun : f'.chipUnselect.begun = []) (hput : f'.put = f.put)

/-- The filter is called, and the program ends. -/
theorem BufOk.heeds (alloc : ℕ → Option (List UInt8)) {f : RxFifo} (h : f.BufOk)
    (hz : f.zChip = f.fresh.length) (hrres : f.cmdrRres = false) :
    ∃ f', ((f.rxHdlc alloc some).map fun f => if f.zChip ≠ 0 then f.rxError else f.rxComplete) = some f' ∧
      f'.chipUnselect.Idle f.blockSize f.removeStat ∧ f'.reset = f.reset ∧
      (f'.mbuf = none ∨ f.sizeFor alloc = some f'.bufSize) ∧ Heeds alloc f f.fresh f.frameEnd f' := by
  obtain ⟨g, hrun, hready, htook⟩ := rxHdlc_eq alloc some h hz
  have hother := rxHdlc_other hrun
  have hbs : g.blockSize = f.blockSize := Fifo.other_field hother Fifo.blockSize rfl rfl
  have hrs : g.removeStat = f.removeStat := Fifo.other_field hother Fifo.removeStat rfl rfl
  have hreset : g.reset = f.reset := Fifo.other_field hother Fifo.reset rfl rfl
  have hrres' : g.cmdrRres = false := (Fifo.other_field hother Fifo.cmdrRres rfl rfl).trans hrres
  obtain ⟨hidleE, hbegunE⟩ := hready.buf.rxError
  obtain ⟨hidleC, hbegunC⟩ := hready.buf.rxComplete
  rw [hbs, hrs] at hidleE hidleC
  rw [hrun, Option.map_some]
  refine ⟨_, rfl, ?_⟩
  cases htook with
  | noMbuf hsize hz' hgot hput =>
    have hwhy : ∀ n, f.sizeFor alloc = some n → n < (f.begun ++ f.fresh).length := by
      intro n hn
      rw [hsize] at hn
      exact nomatch hn
    split
    next => exact ⟨hidleE, hreset, hready.mbuf, .dropped hwhy (fun _ => rfl) hbegunE hput⟩
    next hzero =>
      rw [not_not, hz'] at hzero
      refine ⟨hidleC, hreset, hready.mbuf, .dropped hwhy (fun hne => ?_) (hbegunC.trans hgot) hput⟩
      exact absurd (List.length_eq_zero_iff.mp hzero) hne
  | overflow hsize hlt hz' hgot hput =>
    rw [if_pos hz']
    refine ⟨hidleE, hreset, hready.mbuf, .dropped (fun m hm => ?_) (fun _ => rfl) hbegunE hput⟩
    obtain rfl : _ = m := Option.some.inj (hsize.symm.trans hm)
    exact hlt
  | piece hsize hle hend hz' hgot hput =>
    rw [if_neg (not_not.mpr hz')]
    exact ⟨hidleC, hreset, hready.mbuf, .more hsize hle hend hrres' (hbegunC.trans hgot) hput⟩
  | frame hsize hle hend hz' hgot hput =>
    rw [if_neg (not_not.mpr hz')]
    exact ⟨hidleC, hreset, hready.mbuf, .frame hsize hle hend (hbegunC.trans hgot) hput⟩

theorem Heeds.congr {alloc : ℕ → Option (List UInt8)} {f g f' : RxFifo} {data : List UInt8} {last : Bool}
    (h : Heeds alloc g data last f') (hsize : g.sizeFor alloc = f.sizeFor alloc) (hbegun : g.begun = f.begun)
    (hput : g.put = f.put) : Heeds alloc f data last f' := by
  cases h with
  | more hs hle hlast hrres hb hp =>
    rw [hsize] at hs
    rw [hbegun] at hle hb
    exact .more hs hle hlast hrres hb (hp.trans hput)
  | frame hs hle hlast hb hp =>
    rw [hsize] at hs
    rw [hbegun] at hle hp
    rw [hput] at hp
    exact .frame hs hle hlast hb hp
  | dropped hwhy hrres hb hp =>
    rw [hsize, hbegun] at hwhy
    exact .dropped hwhy hrres hb (hp.trans hput)

/-- `RBCL`, as the program reads it, is the length of the last block. -/
theorem rbcl_eq {k rbcl : ℕ} {block : List UInt8} (hpos : 0 < block.length) (hle : block.length ≤ 2 ^ k)
    (hmod : rbcl % 2 ^ k = block.length % 2 ^ k) :
    (if rbcl &&& (2 ^ k - 1) = 0 then 2 ^ k else rbcl &&& (2 ^ k - 1)) = block.length := by
  rw [Nat.and_two_pow_sub_one_eq_mod, hmod]
  rcases Nat.lt_or_eq_of_le hle with hlt | heq
  · rw [Nat.mod_eq_of_lt hlt, if_neg (Nat.pos_iff_ne_zero.mp hpos)]
  · rw [heq, Nat.mod_self, if_pos rfl]

/-- The program need not be reset, and the interrupt does not say that there is an error. -/
def Event.Good (f : RxFifo) (e : Event) : Prop := f.reset = false ∧ e.Ok

/-- **What one interrupt does**: the program ends in a state where the receiver waits for the next one.
Either the data of the interrupt were heeded, or all that was begun is given up and the chip is reset. -/
def Serves (alloc : ℕ → Option (List UInt8)) (k : ℕ) (rs : Bool) (f : RxFifo) (e : Event) : Prop :=
  ∃ f', (f.statusRead e).ipacRxProgram (rxHdlc alloc some) = some f' ∧ f'.chipUnselect.Idle (2 ^ k) rs ∧
    f'.reset = false ∧ (f'.mbuf = none ∨ f.sizeFor alloc = some f'.bufSize) ∧
    ((e.Good f ∧ Heeds alloc f (e.data rs) e.last f') ∨
      (¬ e.Good f ∧ f'.cmdrRres = true ∧ f'.chipUnselect.begun = [] ∧ f'.put = f.put))

section Interrupt

variable {alloc : ℕ → Option (List UInt8)} {k : ℕ} {rs : Bool} {f g : RxFifo} {e : Event}

/-- The interrupt changes only what it is about. -/
theorem Idle.statusRead (h : f.Idle (2 ^ k) rs) (e : Event) :
    (f.statusRead e).BufOk ∧ (f.statusRead e).blockSize = 2 ^ k ∧ (f.statusRead e).removeStat = rs ∧
      (f.statusRead e).reset = f.reset := by
  cases e <;> exact ⟨⟨h.buf.size, h.buf.len⟩, h.blockSize, h.removeStat, rfl⟩

theorem statusRead_buf (f : RxFifo) (e : Event) :
    (f.statusRead e).mbuf = f.mbuf ∧ (f.statusRead e).bufSize = f.bufSize ∧
      (f.statusRead e).put = f.put := by
  cases e <;> exact ⟨rfl, rfl, rfl⟩

/-- Without a reset of the program there is nothing to do before it looks at the interrupt. -/
theorem statusRead_programReset (hr : (f.statusRead e).reset = false) :
    ({ f.statusRead e with toFifo := (f.statusRead e).programReset } : RxFifo) = f.statusRead e := by
  simp [Fifo.programReset, hr]

/-- The ways to `rx_error`. -/
theorem serves_error (hg : g.BufOk) (hbs : g.blockSize = 2 ^ k) (hrs : g.removeStat = rs)
    (hreset : g.reset = false) (hbuf : g.mbuf = f.mbuf ∧ g.bufSize = f.bufSize ∧ g.put = f.put)
    (hbad : ¬ e.Good f)
    (hrun : (f.statusRead e).ipacRxProgram (rxHdlc alloc some) = some g.rxError) :
    Serves alloc k rs f e := by
  obtain ⟨hmbuf, hsize, hput⟩ := hbuf
  obtain ⟨hidle, hbegun⟩ := hg.rxError
  rw [hbs, hrs] at hidle
  refine ⟨_, hrun, hidle, hreset, ?_, .inr ⟨hbad, rfl, hbegun, hput⟩⟩
  cases hm : f.mbuf with
  | none => exact .inl (hmbuf.trans hm)
  | some mem =>
    right
    rw [sizeFor, hm]
    exact congrArg some hsize.symm

/-- The ways to the filter. -/
theorem serves_filter (hg : g.BufOk) (hbs : g.blockSize = 2 ^ k) (hrs : g.removeStat = rs)
    (hreset : g.reset = false) (hrres : g.cmdrRres = false) (hz : g.zChip = g.fresh.length)
    (hfresh : g.fresh = e.data rs) (hend : g.frameEnd = e.last) (hbegun : g.begun = f.begun)
    (hsize : g.sizeFor alloc = f.sizeFor alloc) (hput : g.put = f.put) (hgood : e.Good f)
    (hrun : (f.statusRead e).ipacRxProgram (rxHdlc alloc some) = (g.rxHdlc alloc some).map fun f =>
      if f.zChip ≠ 0 then f.rxError else f.rxComplete) :
    Serves alloc k rs f e := by
  obtain ⟨f', hrun', hidle, hreset', hsize', hheeds⟩ := hg.heeds alloc hz hrres
  rw [hbs, hrs] at hidle
  rw [hfresh, hend] at hheeds
  rw [hsize] at hsize'
  exact ⟨f', hrun.trans hrun', hidle, hreset'.trans hreset, hsize',
    .inl ⟨hgood, hheeds.congr hsize hbegun hput⟩⟩

/-- The program is reset first, whatever the interrupt says. -/
theorem serves_reset (h : f.Idle (2 ^ k) rs) (hr : f.reset = true) : Serves alloc k rs f e := by
  obtain ⟨hbuf, hbs, hrs, hreset⟩ := h.statusRead e
  obtain ⟨hmbuf, hsize, hput⟩ := f.statusRead_buf e
  rw [hr] at hreset
  have hbad : ¬ e.Good f := fun hgood => Bool.noConfusion (hr.symm.trans hgood.1)
  refine serves_error (g := { f.statusRead e with toFifo := (f.statusRead e).programReset }) ?_ ?_ ?_ ?_
    ⟨?_, ?_, hput⟩ hbad ?_
  all_goals simp only [Fifo.programReset, hreset, if_true, ipacRxProgram, ipacRxStatus]
  · exact ⟨hbuf.size, hbuf.len⟩
  · exact hbs
  · exact hrs
  · exact hmbuf
  · exact hsize
  · simp

theorem serves_err (h : f.Idle (2 ^ k) rs) (hr : f.reset = false) : Serves alloc k rs f .err := by
  obtain ⟨hbuf, hbs, hrs, hreset⟩ := h.statusRead .err
  rw [hr] at hreset
  refine serves_error hbuf hbs hrs hreset (f.statusRead_buf .err) (fun hgood => hgood.2) ?_
  rw [ipacRxProgram, statusRead_programReset hreset]
  simp [statusRead, ipacRxStatus]

/-- A full block goes to the filter. -/
theorem serves_rpf (h : f.Idle (2 ^ k) rs) (hr : f.reset = false) {block : List UInt8}
    (hlen : block.length = 2 ^ k) : Serves alloc k rs f (.rpf block) := by
  obtain ⟨hbuf, hbs, hrs, hreset⟩ := h.statusRead (.rpf block)
  obtain ⟨-, herr, hrme, -⟩ := h.quiet hr
  rw [hr] at hreset
  have hfresh : ({ f.statusRead (.rpf block) with zChip := 2 ^ k } : RxFifo).fresh = block := by
    simp [fresh, statusRead, ← hlen]
  refine serves_filter (g := { f.statusRead (.rpf block) with zChip := 2 ^ k }) ⟨hbuf.size, hbuf.len⟩ hbs
    hrs hreset h.rres ?_ hfresh ?_ rfl rfl rfl ⟨hr, trivial⟩ ?_
  · rw [hfresh, hlen]
  · exact (h.quiet hr).1
  · rw [ipacRxProgram, statusRead_programReset hreset]
    simp [statusRead, ipacRxStatus, herr, hrme, h.blockSize]

/-- The last block goes to the filter, if the chip does not say that the frame is bad. -/
theorem serves_rme (h : f.Idle (2 ^ k) rs) (hr : f.reset = false) {block : List UInt8}
    {rbcl rsta : ℕ} (hvalid : (Event.rme block rbcl rsta).Valid (2 ^ k)) :
    Serves alloc k rs f (.rme block rbcl rsta) := by
  obtain ⟨hbuf, hbs, hrs, hreset⟩ := h.statusRead (.rme block rbcl rsta)
  obtain ⟨-, herr, -, -⟩ := h.quiet hr
  rw [hr] at hreset
  obtain ⟨hpos, hle, hmod⟩ := hvalid
  have hstatus : ((f.statusRead (.rme block rbcl rsta)).ipacRxStatus) =
      if (rsta ^^^ 0x20) &&& 0x70 ≠ 0 then
        ({ f.statusRead (.rme block rbcl rsta) with
            zChip := if rs then block.length - 1 else block.length }, true)
      else
        ({ f.statusRead (.rme block rbcl rsta) with
            zChip := if rs then block.length - 1 else block.length, frameEnd := true }, false) := by
    simp only [statusRead, ipacRxStatus, herr, h.blockSize, h.removeStat, rbcl_eq hpos hle hmod, if_true]
    rfl
  by_cases hok : (rsta ^^^ 0x20) &&& 0x70 = 0
  · rw [if_neg (not_not.mpr hok)] at hstatus
    have hfresh : ({ f.statusRead (.rme block rbcl rsta) with
        zChip := if rs then block.length - 1 else block.length, frameEnd := true } : RxFifo).fresh
        = (Event.rme block rbcl rsta).data rs := by
      cases rs with
      | true => simp [fresh, statusRead, Event.data, List.dropLast_eq_take]
      | false => simp [fresh, statusRead, Event.data]
    refine serves_filter (g := { f.statusRead (.rme block rbcl rsta) with
      zChip := if rs then block.length - 1 else block.length, frameEnd := true })
      ⟨hbuf.size, hbuf.len⟩ hbs hrs hreset h.rres ?_ hfresh rfl rfl rfl rfl ⟨hr, hok⟩ ?_
    · rw [hfresh]
      cases rs <;> simp [Event.data]
    · rw [ipacRxProgram, statusRead_programReset hreset, hstatus]
      simp [statusRead]
  · rw [if_pos hok] at hstatus
    refine serves_error (g := { f.statusRead (.rme block rbcl rsta) with
      zChip := if rs then block.length - 1 else block.length })
      ⟨hbuf.size, hbuf.len⟩ hbs hrs hreset (f.statusRead_buf _) (fun hgood => hok hgood.2) ?_
    rw [ipacRxProgram, statusRead_programReset hreset, hstatus]
    simp [statusRead]

end Interrupt

/-- **One interrupt**, of any kind. -/
theorem ipacRxProgram_eq (alloc : ℕ → Option (List UInt8)) {k : ℕ} {rs : Bool} {f : RxFifo} {e : Event}
    (h : f.Idle (2 ^ k) rs) (hvalid : e.Valid (2 ^ k)) : Serves alloc k rs f e := by
  cases hr : f.reset with
  | true => exact serves_reset h hr
  | false =>
    cases e with
    | err => exact serves_err h hr
    | rpf block => exact serves_rpf h hr hvalid
    | rme block rbcl rsta => exact serves_rme h hr hvalid

/-! ## Frames -/

/-- All mbufs have `n` bytes, and there are enough of them. -/
def Sized (alloc : ℕ → Option (List UInt8)) (n : ℕ) (f : RxFifo) : Prop :=
  (∀ i, (alloc i).map List.length = some n) ∧ (f.mbuf = none ∨ f.bufSize = n)

theorem Sized.sizeFor {alloc : ℕ → Option (List UInt8)} {n : ℕ} {f : RxFifo} (h : f.Sized alloc n) :
    f.sizeFor alloc = some n := by
  rw [RxFifo.sizeFor]
  split
  next hsome =>
    rcases h.2 with hnone | hsize
    · rw [hnone] at hsome
      exact absurd hsome (by simp)
    · rw [hsize]
  next => exact h.1 _

theorem Sized.step {alloc : ℕ → Option (List UInt8)} {n : ℕ} {f f' : RxFifo} (h : f.Sized alloc n)
    (hsize : f'.mbuf = none ∨ f.sizeFor alloc = some f'.bufSize) : f'.chipUnselect.Sized alloc n := by
  refine ⟨h.1, hsize.imp_right fun hs => ?_⟩
  rw [h.sizeFor] at hs
  exact (Option.some.inj hs).symm

theorem length_full {bs k : ℕ} {bytes : List UInt8} (h : k * bs ≤ bytes.length) :
    ∀ block ∈ full bs k bytes, block.length = bs := by
  intro block hmem
  obtain ⟨i, hi, rfl⟩ := List.mem_map.mp hmem
  have hle : (i + 1) * bs ≤ k * bs := Nat.mul_le_mul_right bs (List.mem_range.mp hi)
  rw [Nat.add_mul, Nat.one_mul] at hle
  rw [List.length_take, List.length_drop]
  omega

theorem flatten_full (bs k : ℕ) (bytes : List UInt8) : (full bs k bytes).flatten = bytes.take (k * bs) := by
  induction k with
  | zero => simp [full]
  | succ k ih =>
    rw [full, List.range_succ, List.map_append, List.flatten_append, ← full, ih, Nat.add_mul, Nat.one_mul,
      List.take_add]
    simp

/-- The full blocks of a frame are put behind each other, or it is dropped. -/
theorem hear_rpf (alloc : ℕ → Option (List UInt8)) {k : ℕ} {rs : Bool} (blocks : List (List UInt8))
    (hlen : ∀ block ∈ blocks, block.length = 2 ^ k) {f : RxFifo} (h : f.Idle (2 ^ k) rs) :
    ∃ f', f'.Idle (2 ^ k) rs ∧ f'.put = f.put ∧ (∀ n, f.Sized alloc n → f'.Sized alloc n) ∧
      (((∀ es, hear (rxHdlc alloc some) (blocks.map .rpf ++ es) f = some f') ∧ f'.reset = false ∧
          f'.begun = [] ∧
          (f.reset = false → ∀ n, f.Sized alloc n → n < (f.begun ++ blocks.flatten).length)) ∨
        ((∀ es, hear (rxHdlc alloc some) (blocks.map .rpf ++ es) f = hear (rxHdlc alloc some) es f') ∧
          f'.reset = f.reset ∧ f'.begun = f.begun ++ blocks.flatten)) := by
  induction blocks generalizing f with
  | nil => exact ⟨f, h, rfl, fun _ hs => hs, .inr ⟨fun _ => rfl, rfl, by simp⟩⟩
  | cons block blocks ih =>
    have hblock : block.length = 2 ^ k := hlen block List.mem_cons_self
    obtain ⟨f₁, hrun, hidle, hreset, hsize, hcase⟩ :=
      ipacRxProgram_eq alloc (e := .rpf block) h hblock
    have hsized : ∀ n, f.Sized alloc n → f₁.chipUnselect.Sized alloc n := fun n hs => hs.step hsize
    -- the frame is dropped
    have hdrop : f₁.cmdrRres = true →
        ∀ es, hear (rxHdlc alloc some) ((block :: blocks).map .rpf ++ es) f = some f₁.chipUnselect := by
      intro hrres es
      rw [List.map_cons, List.cons_append, hear, hrun]
      simp [hrres]
    rcases hcase with ⟨hgood, hheeds⟩ | ⟨hbad, hrres, hbegun, hput⟩
    · cases hheeds with
      | more _ _ _ hrres hbegun hput =>
        obtain ⟨f', hidle', hput', hsized', hcase'⟩ :=
          ih (fun b hb => hlen b (List.mem_cons_of_mem _ hb)) hidle
        have hnext : ∀ es, hear (rxHdlc alloc some) ((block :: blocks).map .rpf ++ es) f
            = hear (rxHdlc alloc some) (blocks.map .rpf ++ es) f₁.chipUnselect := by
          intro es
          rw [List.map_cons, List.cons_append, hear, hrun]
          simp [hrres]
        have htotal : f₁.chipUnselect.begun ++ blocks.flatten
            = f.begun ++ (block :: blocks).flatten := by
          rw [hbegun, List.flatten_cons, Event.data, List.append_assoc]
        refine ⟨f', hidle', hput'.trans hput, fun n hs => hsized' n (hsized n hs), ?_⟩
        rw [htotal] at hcase'
        rcases hcase' with ⟨hall, hr, hb, hwhy⟩ | ⟨hall, hr, hb⟩
        · exact .inl ⟨fun es => (hnext es).trans (hall es), hr, hb,
            fun _ n hs => hwhy hreset n (hsized n hs)⟩
        · exact .inr ⟨fun es => (hnext es).trans (hall es), (hr.trans hreset).trans hgood.1.symm, hb⟩
      | frame _ _ hlast => exact nomatch hlast
      | dropped hwhy hrres hbegun hput =>
        have hne : block ≠ [] := by
          rintro rfl
          exact absurd hblock (Nat.two_pow_pos k).ne
        refine ⟨_, hidle, hput, hsized, .inl ⟨hdrop (hrres hne), hreset, hbegun, fun _ n hs => ?_⟩⟩
        have hlt := hwhy n hs.sizeFor
        simp only [Event.data, List.flatten_cons, List.length_append] at hlt ⊢
        omega
    · refine ⟨_, hidle, hput, hsized, .inl ⟨hdrop hrres, hreset, hbegun, fun hr => ?_⟩⟩
      exact absurd ⟨hr, trivial⟩ hbad

/-- The receiver waits for a frame. -/
structure Rest (bs : ℕ) (removeStat : Bool) (f : RxFifo) : Prop extends f.Idle bs removeStat where
  begun : f.reset = false → f.begun = []

/-- A receiver that was set up is at rest, with the reset of its program still to come. -/
theorem rest_setup (bs : ℕ) (removeStat : Bool) :
    ({ Fifo.setup bs removeStat with chip := [], allocs := 0, put := [] } : RxFifo).Rest bs removeStat where
  buf := ⟨rfl, rfl⟩
  blockSize := rfl
  removeStat := rfl
  rres := rfl
  quiet := fun hreset => Bool.noConfusion hreset
  begun := fun hreset => Bool.noConfusion hreset

/-- The frame that is received, with mbufs of `n` bytes. -/
def Heard.taken (n : ℕ) (h : Heard) : List (List UInt8) :=
  if h.Intact ∧ h.data.length ≤ n then [h.data] else []

/-- The frame has a byte in the FIFO. -/
def Heard.Valid (removeStat : Bool) (h : Heard) : Prop := h.data ≠ [] ∨ removeStat = true

/-- The last interrupt of a frame. -/
theorem hear_last (alloc : ℕ → Option (List UInt8)) {k : ℕ} {rs : Bool} {f : RxFifo} {e : Event}
    (h : f.Idle (2 ^ k) rs) (hvalid : e.Valid (2 ^ k)) (hlast : e.last = true) :
    ∃ f', hear (rxHdlc alloc some) [e] f = some f' ∧ f'.Rest (2 ^ k) rs ∧ f'.reset = false ∧
      (∀ n, f.Sized alloc n → f'.Sized alloc n) ∧
      ((e.Good f ∧ f'.put = f.put ++ [f.begun ++ e.data rs] ∧
          ∀ n, f.Sized alloc n → (f.begun ++ e.data rs).length ≤ n) ∨
        (f'.put = f.put ∧ (e.Good f → ∀ n, f.Sized alloc n → n < (f.begun ++ e.data rs).length))) := by
  obtain ⟨f', hrun, hidle, hreset, hsize, hcase⟩ := ipacRxProgram_eq alloc h hvalid
  have hhear : hear (rxHdlc alloc some) [e] f = some f'.chipUnselect := by
    simp only [hear, hrun, ite_self]
  have hsized : ∀ n, f.Sized alloc n → f'.chipUnselect.Sized alloc n := fun n hs => hs.step hsize
  rcases hcase with ⟨hgood, hheeds⟩ | ⟨hbad, _, hbegun, hput⟩
  · cases hheeds with
    | more _ _ hlast' => exact Bool.noConfusion (hlast.symm.trans hlast')
    | frame hs hle _ hbegun hput =>
      refine ⟨_, hhear, ⟨hidle, fun _ => hbegun⟩, hreset, hsized, .inl ⟨hgood, hput, fun n hn => ?_⟩⟩
      rw [hn.sizeFor] at hs
      rw [Option.some.inj hs]
      exact hle
    | dropped hwhy _ hbegun hput =>
      exact ⟨_, hhear, ⟨hidle, fun _ => hbegun⟩, hreset, hsized,
        .inr ⟨hput, fun _ n hn => hwhy n hn.sizeFor⟩⟩
  · exact ⟨_, hhear, ⟨hidle, fun _ => hbegun⟩, hreset, hsized, .inr ⟨hput, fun hgood => absurd hgood hbad⟩⟩

/-- The full blocks of a frame, and the rest of it. -/
theorem Heard.stored_split {k : ℕ} {rs : Bool} {h : Heard} (hvalid : h.Valid rs) :
    let bytes := h.stored rs
    let m := (bytes.length - 1) / 2 ^ k
    m * 2 ^ k ≤ h.data.length ∧ m * 2 ^ k < bytes.length ∧
      Event.Valid (2 ^ k) (.rme (bytes.drop (m * 2 ^ k)) bytes.length h.rsta) ∧
      bytes.take (m * 2 ^ k) ++ Event.data rs (.rme (bytes.drop (m * 2 ^ k)) bytes.length h.rsta) = h.data := by
  intro bytes m
  have hpos : 0 < bytes.length := by
    rcases hvalid with hne | hrs
    · refine Nat.lt_of_lt_of_le (List.length_pos_of_ne_nil hne) ?_
      cases rs <;> simp [bytes, stored]
    · simp [bytes, stored, hrs]
  have hdata : bytes.length - 1 ≤ h.data.length := by
    cases rs <;> simp [bytes, stored]
  have hmul : m * 2 ^ k ≤ bytes.length - 1 := Nat.div_mul_le_self _ _
  have hrest : (bytes.length - 1) % 2 ^ k < 2 ^ k := Nat.mod_lt _ (Nat.two_pow_pos k)
  have hdivmod : m * 2 ^ k + (bytes.length - 1) % 2 ^ k = bytes.length - 1 := Nat.div_add_mod' _ _
  refine ⟨hmul.trans hdata, by omega, ⟨?_, ?_, ?_⟩, ?_⟩
  · rw [List.length_drop]
    omega
  · rw [List.length_drop]
    omega
  · have hsum : bytes.length = (bytes.drop (m * 2 ^ k)).length + m * 2 ^ k := by
      rw [List.length_drop]
      omega
    calc bytes.length % 2 ^ k = ((bytes.drop (m * 2 ^ k)).length + m * 2 ^ k) % 2 ^ k := by rw [← hsum]
      _ = (bytes.drop (m * 2 ^ k)).length % 2 ^ k := Nat.add_mul_mod_self_right _ _ _
  · have hne : bytes.drop (m * 2 ^ k) ≠ [] := by
      rw [Ne, List.drop_eq_nil_iff]
      omega
    cases rs with
    | false => exact List.take_append_drop _ _
    | true =>
      simp only [Event.data, if_true]
      rw [← List.dropLast_append_of_ne_nil hne, List.take_append_drop]
      exact List.dropLast_concat

/-- **What becomes of a frame.** -/
theorem hear_events (alloc : ℕ → Option (List UInt8)) {k : ℕ} {rs : Bool} {f : RxFifo} {h : Heard}
    (hf : f.Rest (2 ^ k) rs) (hvalid : h.Valid rs) :
    ∃ f' got, hear (rxHdlc alloc some) (h.events (2 ^ k) rs) f = some f' ∧ f'.Rest (2 ^ k) rs ∧
      f'.put = f.put ++ got ∧ (got = [] ∨ h.Intact ∧ got = [h.data]) ∧
      (∀ n, f.Sized alloc n → f'.Sized alloc n) ∧
      (f.reset = false → f'.reset = false ∧ ∀ n, f.Sized alloc n → got = h.taken n) := by
  obtain ⟨hle, hlt, hrme, hdata⟩ := h.stored_split (k := k) hvalid
  cases hfate : h.fate with
  | lost =>
    have hnot : ¬ h.Intact := fun hin => nomatch hfate.symm.trans hin.1
    refine ⟨f, [], by rw [Heard.events, hfate]; rfl, hf, (List.append_nil _).symm, .inl rfl,
      fun _ hs => hs, fun hr => ⟨hr, fun n _ => ?_⟩⟩
    rw [Heard.taken, if_neg fun hin => hnot hin.1]
  | fails m =>
    have hnot : ¬ h.Intact := fun hin => nomatch hfate.symm.trans hin.1
    have hnone : ∀ n, h.taken n = [] := fun n => if_neg fun hin => hnot hin.1
    obtain ⟨f₁, hidle, hput, hsized, hcase⟩ := @hear_rpf alloc k rs
      ((full (2 ^ k) (((h.stored rs).length - 1) / 2 ^ k) (h.stored rs)).take m)
      (fun b hb => length_full hlt.le b (List.mem_of_mem_take hb)) f hf.toIdle
    rw [Heard.events, hfate]
    rcases hcase with ⟨hall, hr, hb, _⟩ | ⟨hall, _, _⟩
    · exact ⟨f₁, [], hall _, ⟨hidle, fun _ => hb⟩, by rw [hput, List.append_nil], .inl rfl, hsized,
        fun _ => ⟨hr, fun n _ => (hnone n).symm⟩⟩
    · obtain ⟨f', hrun, hrest, hr', hsized', hcase'⟩ := hear_last alloc (e := .err) hidle trivial rfl
      have hput' : f'.put = f₁.put := by
        rcases hcase' with ⟨hgood, _⟩ | ⟨hput', _⟩
        · exact hgood.2.elim
        · exact hput'
      exact ⟨f', [], (hall _).trans hrun, hrest, by rw [hput', hput, List.append_nil], .inl rfl,
        fun n hs => hsized' n (hsized n hs), fun _ => ⟨hr', fun n _ => (hnone n).symm⟩⟩
  | whole =>
    obtain ⟨f₁, hidle, hput, hsized, hcase⟩ := @hear_rpf alloc k rs
      (full (2 ^ k) (((h.stored rs).length - 1) / 2 ^ k) (h.stored rs)) (length_full hlt.le) f hf.toIdle
    rw [flatten_full] at hcase
    rw [Heard.events, hfate]
    rcases hcase with ⟨hall, hr, hb, hwhy⟩ | ⟨hall, hr, hb⟩
    · refine ⟨f₁, [], hall _, ⟨hidle, fun _ => hb⟩, by rw [hput, List.append_nil], .inl rfl, hsized,
        fun hreset => ⟨hr, fun n hs => ?_⟩⟩
      have hlong := hwhy hreset n hs
      rw [hf.begun hreset, List.nil_append, List.length_take] at hlong
      rw [Heard.taken, if_neg]
      rintro ⟨_, hfit⟩
      omega
    · obtain ⟨f', hrun, hrest, hr', hsized', hcase'⟩ := hear_last alloc hidle hrme rfl
      have hwhole : f.reset = false → f₁.begun ++ Event.data rs (.rme ((h.stored rs).drop
          (((h.stored rs).length - 1) / 2 ^ k * 2 ^ k)) (h.stored rs).length h.rsta) = h.data := by
        intro hreset
        rw [hb, hf.begun hreset, List.nil_append, hdata]
      rcases hcase' with ⟨hgood, hput', hfit⟩ | ⟨hput', hwhy⟩
      · have hreset : f.reset = false := hr.symm.trans hgood.1
        rw [hwhole hreset] at hput' hfit
        refine ⟨f', [h.data], (hall _).trans hrun, hrest, by rw [hput', hput], .inr ⟨⟨hfate, hgood.2⟩, rfl⟩,
          fun n hs => hsized' n (hsized n hs), fun _ => ⟨hr', fun n hs => ?_⟩⟩
        rw [Heard.taken, if_pos ⟨⟨hfate, hgood.2⟩, hfit n (hsized n hs)⟩]
      · refine ⟨f', [], (hall _).trans hrun, hrest, by rw [hput', hput, List.append_nil], .inl rfl,
          fun n hs => hsized' n (hsized n hs), fun hreset => ⟨hr', fun n hs => ?_⟩⟩
        rw [hwhole hreset] at hwhy
        rw [Heard.taken, if_neg]
        rintro ⟨⟨_, hok⟩, hfit⟩
        have hlong := hwhy ⟨hr.trans hreset, hok⟩ n (hsized n hs)
        omega

/-- The frames of a line that may be received. -/
def intact (line : List Heard) : List (List UInt8) := (line.filter (·.Intact)).map Heard.data

/-- **Only whole frames without an error are received, and in order**, each at most once; whether there are
mbufs or not, and whatever the receiver was in the middle of. -/
theorem listen_sublist (alloc : ℕ → Option (List UInt8)) {k : ℕ} {f : RxFifo} {line : List Heard}
    (hf : f.Rest (2 ^ k) f.removeStat) (hvalid : ∀ h ∈ line, h.Valid f.removeStat) :
    ∃ f' got, listen (rxHdlc alloc some) line f = some f' ∧ f'.Rest (2 ^ k) f.removeStat ∧
      f'.put = f.put ++ got ∧ List.Sublist got (intact line) := by
  induction line generalizing f with
  | nil => exact ⟨f, [], rfl, hf, (List.append_nil _).symm, List.nil_sublist _⟩
  | cons h hs ih =>
    obtain ⟨f₁, got₁, hrun₁, hrest₁, hput₁, hgot₁, _, _⟩ :=
      hear_events alloc hf (hvalid h List.mem_cons_self)
    have hrs : f₁.removeStat = f.removeStat := hrest₁.removeStat
    rw [← hrs] at hrest₁
    obtain ⟨f', got, hrun, hrest, hput, hsub⟩ :=
      ih hrest₁ fun x hx => by rw [hrs]; exact hvalid x (List.mem_cons_of_mem _ hx)
    rw [hrs] at hrest
    refine ⟨f', got₁ ++ got, ?_, hrest, by rw [hput, hput₁, List.append_assoc], ?_⟩
    · rw [listen, hf.blockSize, hrun₁]
      exact hrun
    · rcases hgot₁ with rfl | ⟨hin, rfl⟩
      · rw [List.nil_append]
        refine hsub.trans ?_
        rw [intact, intact]
        exact ((List.sublist_cons_self h hs).filter _).map _
      · rw [intact, List.filter_cons_of_pos (by simpa using hin), List.map_cons]
        exact hsub.cons_cons _

/-- **With mbufs of `n` bytes, what is received is what is whole, has no error, and fits.** -/
theorem listen_eq {alloc : ℕ → Option (List UInt8)} {k n : ℕ} {f : RxFifo} {line : List Heard}
    (hf : f.Rest (2 ^ k) f.removeStat) (hreset : f.reset = false) (hsized : f.Sized alloc n)
    (hvalid : ∀ h ∈ line, h.Valid f.removeStat) :
    ∃ f', listen (rxHdlc alloc some) line f = some f' ∧ f'.Rest (2 ^ k) f.removeStat ∧
      f'.put = f.put ++ (intact line).filter (·.length ≤ n) := by
  induction line generalizing f with
  | nil => exact ⟨f, rfl, hf, (List.append_nil _).symm⟩
  | cons h hs ih =>
    obtain ⟨f₁, got₁, hrun₁, hrest₁, hput₁, _, hsized₁, hexact⟩ :=
      hear_events alloc hf (hvalid h List.mem_cons_self)
    obtain ⟨hreset₁, hgot₁⟩ := hexact hreset
    have hrs : f₁.removeStat = f.removeStat := hrest₁.removeStat
    rw [← hrs] at hrest₁
    obtain ⟨f', hrun, hrest, hput⟩ := ih hrest₁ hreset₁ (hsized₁ n hsized) fun x hx => by
      rw [hrs]
      exact hvalid x (List.mem_cons_of_mem _ hx)
    rw [hrs] at hrest
    refine ⟨f', ?_, hrest, ?_⟩
    · rw [listen, hf.blockSize, hrun₁]
      exact hrun
    · rw [hput, hput₁, hgot₁ n hsized, List.append_assoc]
      congr 1
      by_cases hin : h.Intact <;> by_cases hle : h.data.length ≤ n <;>
        simp [intact, Heard.taken, hin, hle]

/-! ## A stream -/

/-- A block of a stream. -/
theorem ipacRxProgram_transparent {alloc : ℕ → Option (List UInt8)}
    (halloc : ∀ n, ∃ mem, alloc n = some mem ∧ mem ≠ []) {bs : ℕ} {rs : Bool} {f : RxFifo}
    {block : List UInt8} (h : f.Idle bs rs) (hreset : f.reset = false) (hblock : block.length = bs) :
    ∃ f', (f.statusRead (.rpf block)).ipacRxProgram (rxTransparent alloc) = some f' ∧
      f'.cmdrRres = false ∧ f'.chipUnselect.Idle bs rs ∧ f'.reset = false ∧
      f'.chipUnselect.stream = f.stream ++ block := by
  obtain ⟨_, herr, hrme, _⟩ := h.quiet hreset
  have hfresh : ({ f.statusRead (.rpf block) with zChip := bs } : RxFifo).fresh = block := by
    simp [fresh, statusRead, ← hblock]
  obtain ⟨g, hrun, hok, hz, hstream⟩ := rxTransparent_stream halloc
    (f := { f.statusRead (.rpf block) with zChip := bs }) ⟨h.buf.size, h.buf.len⟩ (by rw [hfresh, hblock])
  have hother := rxTransparent_other hrun
  have hbs : g.blockSize = bs := (Fifo.other_field hother Fifo.blockSize rfl rfl).trans h.blockSize
  have hrs : g.removeStat = rs := (Fifo.other_field hother Fifo.removeStat rfl rfl).trans h.removeStat
  have hreset' : g.reset = false := (Fifo.other_field hother Fifo.reset rfl rfl).trans hreset
  have hrres : g.cmdrRres = false := (Fifo.other_field hother Fifo.cmdrRres rfl rfl).trans h.rres
  obtain ⟨hidle, _⟩ := hok.rxComplete
  rw [hbs, hrs] at hidle
  have hcall : (f.statusRead (.rpf block)).ipacRxProgram (rxTransparent alloc) =
      (rxTransparent alloc { f.statusRead (.rpf block) with zChip := bs }).map fun f =>
        if f.zChip ≠ 0 then f.rxError else f.rxComplete := by
    simp [ipacRxProgram, ipacRxStatus, Fifo.programReset, statusRead, hreset, herr, hrme, h.blockSize]
  refine ⟨g.rxComplete, ?_, hrres, hidle, hreset', ?_⟩
  · rw [hcall, hrun, Option.map_some, if_neg (not_not.mpr hz)]
  · rw [hfresh] at hstream
    exact hstream

/-- **Nothing of a stream is lost.**  In transparent mode, with mbufs of whatever sizes, the mbufs that were
passed on and the one that is being filled are all blocks of the chip, in order; the receiver is never
reset. -/
theorem hear_transparent {alloc : ℕ → Option (List UInt8)}
    (halloc : ∀ n, ∃ mem, alloc n = some mem ∧ mem ≠ []) {bs : ℕ} {rs : Bool} {f : RxFifo}
    (h : f.Idle bs rs) (hreset : f.reset = false) {blocks : List (List UInt8)}
    (hblocks : ∀ block ∈ blocks, block.length = bs) :
    ∃ f', hear (rxTransparent alloc) (blocks.map .rpf) f = some f' ∧ f'.Idle bs rs ∧ f'.reset = false ∧
      f'.stream = f.stream ++ blocks.flatten := by
  induction blocks generalizing f with
  | nil => exact ⟨f, rfl, h, hreset, by simp⟩
  | cons block blocks ih =>
    obtain ⟨f₁, hrun₁, hrres₁, hidle₁, hreset₁, hstream₁⟩ :=
      ipacRxProgram_transparent halloc h hreset (hblocks block List.mem_cons_self)
    obtain ⟨f', hrun, hidle, hreset', hstream⟩ :=
      ih hidle₁ hreset₁ fun b hb => hblocks b (List.mem_cons_of_mem _ hb)
    refine ⟨f', ?_, hidle, hreset', ?_⟩
    · rw [List.map_cons, hear, hrun₁]
      simpa [hrres₁] using hrun
    · rw [hstream, hstream₁, List.flatten_cons, List.append_assoc]

theorem hear_transparent_three :
    ∃ f', hear (rxTransparent fun n => some (List.replicate (3 + n) 0)) ([[1, 2, 3, 4], [5, 6, 7, 8]].map .rpf)
        { Fifo.setup 4 false with reset := false, chip := [], allocs := 0, put := [] } = some f' ∧
      f'.Idle 4 false ∧ f'.reset = false ∧ f'.stream = [] ++ [1, 2, 3, 4, 5, 6, 7, 8] :=
  hear_transparent (f := { Fifo.setup 4 false with reset := false, chip := [], allocs := 0, put := [] })
    (fun _ => ⟨_, rfl, by simp⟩) ⟨⟨rfl, rfl⟩, rfl, rfl, rfl, fun _ => ⟨rfl, rfl, rfl, rfl⟩⟩ rfl (by decide)

end RxFifo

namespace TxFifo

/-! ## The transmit program -/

/-- `i4b_ipac_tx_program`; `hdlc` is `PROT_IS_HDLC`. -/
def ipacTxProgram (hdlc : Bool) (filter : TxFifo → Option TxFifo) (f : TxFifo) : Option TxFifo :=
  let f := { f with toFifo := f.programReset }
  if ¬ (f.istaXpr ∨ f.istaErr) then some f
  else
    let f := { f with frameEnd := false, frameError := false }
    let f :=
      if f.istaErr then { f with cmdrXres := true, frameError := true, zChip := 0 }
      else { f with zChip := f.blockSize }
    let f := { f with istaXpr := false, istaErr := false }
    (filter f).map fun f =>
      if hdlc ∧ f.frameEnd then { f with cmdrXme := true, cmdrXtf := true }
      else if f.zChip < f.blockSize then
        let f :=
          -- only in extended transparent mode
          if 0 < f.zChip ∧ ¬ hdlc then
            { f with chip := f.chip ++ List.replicate f.zChip 0xff, zChip := 0 }
          else f
        { f with cmdrXtf := true }
      else { f with istaXpr := true, running := false }

/-- What a transmitter has to deal with. -/
inductive Event where
  /-- There is room for a block. -/
  | xpr
  /-- Underrun, or a collision. -/
  | err
  /-- A packet of the upper layer; `ihfc_fifo_call` calls the program when nothing else will. -/
  | queue (m : Packet)
  deriving DecidableEq, Repr

/-- What was given to the chip, if anything was.  With `XRES` an end of a frame that comes with it is the end
of a frame without data: the program says in one place that the chip forgets such an end, and in another one
that it is up to the chip to send a frame of length zero.  `transmit_end` is that it comes only from a frame
of length zero. -/
def given (f : TxFifo) : List (Transfer UInt8) :=
  if f.cmdrXtf then [⟨f.cmdrXres, f.chip, f.cmdrXme⟩] else []

/-- `CHIP_UNSELECT` : the commands are given to the chip. -/
def chipUnselect (f : TxFifo) : TxFifo :=
  { f with cmdrXres := false, cmdrXme := false, cmdrXtf := false, chip := [] }

/-- The program is called for an event, if it has to be; with what was given to the chip. -/
def handle (filter : TxFifo → Option TxFifo) (f : TxFifo) :
    Event → Option (List (Transfer UInt8) × TxFifo)
  | .xpr => (ipacTxProgram true filter { f with istaXpr := true }).map fun f => (f.given, f.chipUnselect)
  | .err => (ipacTxProgram true filter { f with istaErr := true }).map fun f => (f.given, f.chipUnselect)
  | .queue m =>
    let f := { f with queue := f.queue ++ [m] }
    if f.running then some ([], f)
    else (ipacTxProgram true filter { f with running := true }).map fun f => (f.given, f.chipUnselect)

/-- A transmitter, and all that it gave to the chip. -/
def transmit (filter : TxFifo → Option TxFifo) :
    List Event → TxFifo → Option (List (Transfer UInt8) × TxFifo)
  | [], f => some ([], f)
  | e :: es, f =>
    match f.handle filter e with
    | none => none
    | some (ts, f) => (transmit filter es f).map fun r => (ts ++ r.1, r.2)

/-- The frames that are queued. -/
def queued : List Event → List (List UInt8)
  | [] => []
  | .queue m :: es => m.bytes :: queued es
  | _ :: es => queued es

/-! ## One call -/

/-- The program gives up what it was doing. -/
def failed (f : TxFifo) : Bool := f.reset || f.istaErr

/-- The transmitter waits for an event. -/
structure Idle (f : TxFifo) : Prop where
  buf : f.BufOk
  block : 0 < f.blockSize
  xres : f.cmdrXres = false
  xme : f.cmdrXme = false
  xtf : f.cmdrXtf = false
  chip : f.chip = []

/-- What is to be done for the frames that are pending: a call for each byte, at most, and one for each
end. -/
def work (f : TxFifo) : ℕ := (f.pending.map (·.length + 1)).sum - f.sent.length

theorem sum_le_of_sublist {l l' : List (List UInt8)} (h : List.Sublist l' l) :
    (l'.map (·.length + 1)).sum ≤ (l.map (·.length + 1)).sum :=
  (h.map _).sum_le_sum fun _ _ => Nat.zero_le _

/-- What a call of the program does. -/
structure Called (avail : ℕ → Bool) (f f' : TxFifo) : Prop where
  idle : f'.chipUnselect.Idle
  ok : f'.failed = false
  rest : Transfer.rest f.sent f'.given = f'.chipUnselect.sent
  leaves : Leaves avail f.pending
    (Transfer.complete (Transfer.line f.sent f'.given) ++ f'.chipUnselect.pending)
  less : f.failed = false → f'.chipUnselect.work ≤ f.work - 1
  /-- There is no data with `XRES`. -/
  empty : ∀ t ∈ f'.given, t.abort = true → t.data = []
  /-- Nothing is given to the chip only when there is nothing. -/
  still : f'.given = [] → f'.istaXpr = true ∧ f'.running = false ∧ f'.chipUnselect.pending = []

/-- What the filter is called with. -/
def prepared (f : TxFifo) : TxFifo :=
  { f with
    reset := false
    running := if f.reset then false else f.running
    frameEnd := false
    frameError := f.failed
    istaErr := false
    istaXpr := false
    cmdrXres := f.failed || f.cmdrXres
    zChip := if f.failed then 0 else f.blockSize }

/-- What follows the filter. -/
def finished (f : TxFifo) : TxFifo :=
  if f.frameEnd then { f with cmdrXme := true, cmdrXtf := true }
  else if f.zChip < f.blockSize then { f with cmdrXtf := true }
  else { f with istaXpr := true, running := false }

theorem ipacTxProgram_prepared (filter : TxFifo → Option TxFifo) {f : TxFifo}
    (hista : f.istaXpr = true ∨ f.failed = true) :
    f.ipacTxProgram true filter = (filter f.prepared).map finished := by
  have hfinish : ∀ g : TxFifo, finished g =
      if true = true ∧ g.frameEnd = true then { g with cmdrXme := true, cmdrXtf := true }
      else if g.zChip < g.blockSize then
        let g :=
          if 0 < g.zChip ∧ ¬ true = true then
            { g with chip := g.chip ++ List.replicate g.zChip 0xff, zChip := 0 }
          else g
        { g with cmdrXtf := true }
      else { g with istaXpr := true, running := false } := by
    intro g
    simp [finished]
  rw [show finished = _ from funext hfinish]
  cases hreset : f.reset <;> cases herr : f.istaErr <;> cases hxpr : f.istaXpr <;>
    simp_all [ipacTxProgram, Fifo.programReset, prepared, failed]

/-- The program has nothing to do. -/
theorem ipacTxProgram_quiet (filter : TxFifo → Option TxFifo) {f : TxFifo} (hxpr : f.istaXpr = false)
    (hfail : f.failed = false) : f.ipacTxProgram true filter = some f := by
  obtain ⟨hreset, herr⟩ := Bool.or_eq_false_iff.mp hfail
  simp [ipacTxProgram, Fifo.programReset, hreset, herr, hxpr]

/-- What the filter leaves, when it is called with `f.prepared` and writes `data`. -/
structure Filled (avail : ℕ → Bool) (f g : TxFifo) (data : List UInt8) : Prop where
  buf : g.BufOk
  blockSize : g.blockSize = f.blockSize
  ok : g.failed = false
  xres : g.cmdrXres = f.failed
  xme : g.cmdrXme = false
  xtf : g.cmdrXtf = false
  chip : g.chip = data
  room : g.zChip + data.length = if f.failed then 0 else f.blockSize
  gave : Gave avail f.prepared g data

/-- **The filter** is called in a state it can be called in. -/
theorem txHdlc_filled (avail : ℕ → Bool) {f : TxFifo} (h : f.Idle) :
    ∃ g data, f.prepared.txHdlc avail = some g ∧ Filled avail f g data := by
  have hbuf : f.prepared.BufOk := ⟨h.buf.size, h.buf.len⟩
  obtain ⟨g, data, hrun, hok, hchip, hz, hgave⟩ := txHdlc_eq avail hbuf rfl
  have hother := txHdlc_other hrun
  have hreset : g.reset = false := Fifo.other_field hother Fifo.reset rfl rfl
  have hista : g.istaErr = false := Fifo.other_field hother Fifo.istaErr rfl rfl
  have hxres : g.cmdrXres = (f.failed || f.cmdrXres) := Fifo.other_field hother Fifo.cmdrXres rfl rfl
  refine ⟨g, data, hrun, hok, Fifo.other_field hother Fifo.blockSize rfl rfl, ?_, ?_,
    (Fifo.other_field hother Fifo.cmdrXme rfl rfl).trans h.xme,
    (Fifo.other_field hother Fifo.cmdrXtf rfl rfl).trans h.xtf, ?_, hz, hgave⟩
  · rw [failed, hreset, hista, Bool.or_false]
  · rw [hxres, h.xres, Bool.or_false]
  · rw [hchip]
    exact (congrArg (· ++ data) h.chip).trans (List.nil_append _)

/-- What follows the filter leaves the frames as they are. -/
theorem finished_same (g : TxFifo) :
    g.finished.chipUnselect.sent = g.sent ∧ g.finished.chipUnselect.pending = g.pending ∧
      g.finished.failed = g.failed := by
  rw [finished]
  split
  · exact ⟨rfl, rfl, rfl⟩
  · split <;> exact ⟨rfl, rfl, rfl⟩

section Finished

variable {avail : ℕ → Bool} {f g : TxFifo} {data : List UInt8}

theorem Filled.idle (hg : Filled avail f g data) (h : f.Idle) : g.finished.chipUnselect.Idle := by
  have hpos := h.block
  rw [← hg.blockSize] at hpos
  refine ⟨?_, ?_, rfl, rfl, rfl, rfl⟩
  · rw [finished]
    split
    · exact ⟨hg.buf.size, hg.buf.len⟩
    · split <;> exact ⟨hg.buf.size, hg.buf.len⟩
  · rw [finished]
    split
    · exact hpos
    · split <;> exact hpos

/-- What the chip is given. -/
theorem Filled.given (hg : Filled avail f g data) :
    g.finished.given = if g.frameEnd then [⟨f.failed, data, true⟩]
      else if g.zChip < f.blockSize then [⟨f.failed, data, false⟩] else [] := by
  rw [finished, hg.blockSize]
  split
  · simp [TxFifo.given, hg.xres, hg.chip]
  · split
    · simp [TxFifo.given, hg.xres, hg.chip, hg.xme]
    · simp [TxFifo.given, hg.xtf]

/-- There is no room when the frame before is given up. -/
theorem Filled.data_eq_nil (hg : Filled avail f g data) (hfail : f.failed = true) : data = [] := by
  have hroom := hg.room
  rw [if_pos hfail] at hroom
  exact List.length_eq_zero_iff.mp (by omega)

theorem Filled.empty (hg : Filled avail f g data) :
    ∀ t ∈ g.finished.given, t.abort = true → t.data = [] := by
  intro t ht habort
  rw [hg.given] at ht
  split_ifs at ht
  · rw [List.mem_singleton] at ht
    subst ht
    exact hg.data_eq_nil habort
  · rw [List.mem_singleton] at ht
    subst ht
    exact hg.data_eq_nil habort
  · exact absurd ht List.not_mem_nil

/-- **A frame ends**: the chip is given its last block. -/
theorem Filled.frame (hg : Filled avail f g data) (h : f.Idle) (hend : g.frameEnd = true)
    (hsent' : g.sent = [])
    (hleaves : Leaves avail f.prepared.pending ((f.prepared.begun ++ data) :: g.pending)) :
    Called avail f g.finished := by
  obtain ⟨hsent, hpending, hfailed⟩ := finished_same g
  have hbegun : f.prepared.begun = if f.failed then [] else f.sent := rfl
  have hpend : f.prepared.pending = f.pending := rfl
  rw [hbegun, hpend] at hleaves
  have hgiven := hg.given
  rw [if_pos hend] at hgiven
  refine ⟨hg.idle h, hfailed.trans hg.ok, ?_, ?_, fun hfail => ?_, hg.empty, fun hnone => ?_⟩
  · rw [hgiven, hsent, hsent']
    rfl
  · rw [hgiven, Transfer.complete_line_single, hpending, if_pos rfl]
    exact hleaves
  · have hsum := sum_le_of_sublist hleaves.1
    simp only [hfail, Bool.false_eq_true, if_false, List.map_cons, List.sum_cons, List.length_append] at hsum
    rw [work, work, hsent, hpending, hsent', List.length_nil]
    omega
  · rw [hgiven] at hnone
    exact absurd hnone (List.cons_ne_nil _ _)

/-- **A block in a frame**, or what there is of it. -/
theorem Filled.piece (hg : Filled avail f g data) (h : f.Idle) (hend : g.frameEnd = false)
    (hsent' : g.sent = f.prepared.begun ++ data) (hleaves : Leaves avail f.prepared.pending g.pending)
    (hstop : g.zChip ≠ 0 → g.pending = []) (hfull : g.zChip < f.blockSize) :
    Called avail f g.finished := by
  obtain ⟨hsent, hpending, hfailed⟩ := finished_same g
  have hbegun : f.prepared.begun = if f.failed then [] else f.sent := rfl
  have hpend : f.prepared.pending = f.pending := rfl
  have hroom := hg.room
  rw [hbegun] at hsent'
  rw [hpend] at hleaves
  have hgiven := hg.given
  rw [if_neg (by simp [hend]), if_pos hfull] at hgiven
  refine ⟨hg.idle h, hfailed.trans hg.ok, ?_, ?_, fun hfail => ?_, hg.empty, fun hnone => ?_⟩
  · rw [hgiven, hsent, hsent']
    rfl
  · rw [hgiven, Transfer.complete_line_single, hpending]
    exact hleaves
  · have hsum := sum_le_of_sublist hleaves.1
    simp only [hfail, Bool.false_eq_true, if_false] at hroom hsent'
    have hlen : g.sent.length = f.sent.length + data.length := by rw [hsent', List.length_append]
    rw [work, work, hsent, hpending]
    by_cases hz0 : g.zChip = 0
    · have hpos := h.block
      omega
    · rw [hstop hz0]
      simp
  · rw [hgiven] at hnone
    exact absurd hnone (List.cons_ne_nil _ _)

/-- **Nothing is written**, as nothing is pending. -/
theorem Filled.still (hg : Filled avail f g data) (h : f.Idle) (hend : g.frameEnd = false)
    (hsent' : g.sent = f.prepared.begun ++ data) (hleaves : Leaves avail f.prepared.pending g.pending)
    (hstop : g.zChip ≠ 0 → g.pending = []) (hfull : ¬ g.zChip < f.blockSize) :
    Called avail f g.finished := by
  obtain ⟨hsent, hpending, hfailed⟩ := finished_same g
  have hbegun : f.prepared.begun = if f.failed then [] else f.sent := rfl
  have hpend : f.prepared.pending = f.pending := rfl
  have hroom := hg.room
  have hpos := h.block
  rw [hbegun] at hsent'
  rw [hpend] at hleaves
  have hne : ¬ g.frameEnd = true := by simp [hend]
  have hgiven := hg.given
  rw [if_neg hne, if_neg hfull] at hgiven
  have hfail : f.failed = false := by
    cases hfail : f.failed with
    | false => rfl
    | true =>
      rw [if_pos hfail] at hroom
      omega
  simp only [hfail, Bool.false_eq_true, if_false] at hroom hsent'
  have hnil : data = [] := List.length_eq_zero_iff.mp (by omega)
  have hempty : g.pending = [] := hstop (by omega)
  rw [hnil, List.append_nil] at hsent'
  refine ⟨hg.idle h, hfailed.trans hg.ok, ?_, ?_, fun _ => ?_, hg.empty, fun _ => ?_⟩
  · rw [hgiven, hsent, hsent']
    rfl
  · rw [hgiven, hpending]
    exact hleaves
  · rw [work, hpending, hempty]
    simp
  · have hdone : g.finished = { g with istaXpr := true, running := false } := by
      rw [finished, if_neg hne, hg.blockSize, if_neg hfull]
    rw [hpending, hdone]
    exact ⟨rfl, rfl, hempty⟩

end Finished

/-- **What one call does**, when the program has to do something. -/
theorem ipacTxProgram_eq (avail : ℕ → Bool) {f : TxFifo} (h : f.Idle)
    (hista : f.istaXpr = true ∨ f.failed = true) :
    ∃ f', f.ipacTxProgram true (txHdlc avail) = some f' ∧ Called avail f f' := by
  obtain ⟨g, data, hrun, hg⟩ := txHdlc_filled avail h
  refine ⟨g.finished, by rw [ipacTxProgram_prepared _ hista, hrun]; rfl, ?_⟩
  cases hg.gave with
  | frame hend hsent hleaves => exact hg.frame h hend hsent hleaves
  | piece hend hsent hleaves hstop =>
    by_cases hfull : g.zChip < f.blockSize
    · exact hg.piece h hend hsent hleaves hstop hfull
    · exact hg.still h hend hsent hleaves hstop hfull

/-- With `XRES` only a frame of length zero ends. -/
theorem Called.mem_pending {avail : ℕ → Bool} {f f' : TxFifo} (h : Called avail f f') {t : Transfer UInt8}
    (ht : t ∈ f'.given) (habort : t.abort = true) (hlast : t.last = true) : [] ∈ f.pending := by
  have hgiven : f'.given = [t] := by
    rw [given] at ht ⊢
    split_ifs at ht ⊢
    · rw [List.mem_singleton.mp ht]
    · exact absurd ht List.not_mem_nil
  refine h.leaves.1.subset (List.mem_append_left _ ?_)
  rw [hgiven, Transfer.complete_line_single, if_pos hlast, if_pos habort, h.empty t ht habort]
  exact List.mem_singleton_self _

/-! ## Runs -/

/-- What an event does. -/
theorem handle_eq (avail : ℕ → Bool) {f : TxFifo} (h : f.Idle) (e : Event) :
    ∃ ts f', f.handle (txHdlc avail) e = some (ts, f') ∧ f'.Idle ∧ Transfer.rest f.sent ts = f'.sent ∧
      Leaves avail (f.pending ++ queued [e])
        (Transfer.complete (Transfer.line f.sent ts) ++ f'.pending) ∧
      ∀ t ∈ ts, t.abort = true → t.last = true → [] ∈ f.pending ++ queued [e] := by
  -- the program is called in the state `g`
  have hcall : ∀ g : TxFifo, g.Idle → g.sent = f.sent → g.pending = f.pending ++ queued [e] →
      ∃ ts f', (g.ipacTxProgram true (txHdlc avail)).map (fun f => (f.given, f.chipUnselect)) = some (ts, f') ∧
        f'.Idle ∧ Transfer.rest f.sent ts = f'.sent ∧
        Leaves avail (f.pending ++ queued [e])
          (Transfer.complete (Transfer.line f.sent ts) ++ f'.pending) ∧
        ∀ t ∈ ts, t.abort = true → t.last = true → [] ∈ f.pending ++ queued [e] := by
    intro g hg hsent hpend
    by_cases hista : g.istaXpr = true ∨ g.failed = true
    · obtain ⟨f', hrun, hcalled⟩ := ipacTxProgram_eq avail hg hista
      have hrest := hcalled.rest
      have hleaves := hcalled.leaves
      rw [hsent] at hrest hleaves
      rw [hpend] at hleaves
      refine ⟨f'.given, f'.chipUnselect, by rw [hrun]; rfl, hcalled.idle, hrest, hleaves, ?_⟩
      intro t ht habort hlast
      rw [← hpend]
      exact hcalled.mem_pending ht habort hlast
    · obtain ⟨hxpr, hfail⟩ := not_or.mp hista
      rw [Bool.not_eq_true] at hxpr hfail
      refine ⟨[], g.chipUnselect, ?_, ⟨⟨hg.buf.size, hg.buf.len⟩, hg.block, rfl, rfl, rfl, rfl⟩,
        hsent.symm, ?_, fun t ht => absurd ht List.not_mem_nil⟩
      · rw [ipacTxProgram_quiet _ hxpr hfail]
        simp [given, hg.xtf]
      · rw [← hpend]
        exact .refl _ _
  cases e with
  | xpr =>
    exact hcall { f with istaXpr := true } ⟨⟨h.buf.size, h.buf.len⟩, h.block, h.xres, h.xme, h.xtf, h.chip⟩ rfl
      (List.append_nil _).symm
  | err =>
    exact hcall { f with istaErr := true } ⟨⟨h.buf.size, h.buf.len⟩, h.block, h.xres, h.xme, h.xtf, h.chip⟩ rfl
      (List.append_nil _).symm
  | queue m =>
    have hpend : ({ f with queue := f.queue ++ [m] } : TxFifo).pending = f.pending ++ queued [.queue m] := by
      simp [pending, queued]
    rw [handle]
    split
    next =>
      refine ⟨[], _, rfl, ⟨⟨h.buf.size, h.buf.len⟩, h.block, h.xres, h.xme, h.xtf, h.chip⟩, rfl, ?_,
        fun t ht => absurd ht List.not_mem_nil⟩
      rw [hpend]
      exact .refl _ _
    next =>
      exact hcall { f with queue := f.queue ++ [m], running := true }
        ⟨⟨h.buf.size, h.buf.len⟩, h.block, h.xres, h.xme, h.xtf, h.chip⟩ rfl hpend

theorem queued_cons (e : Event) (es : List Event) : queued (e :: es) = queued [e] ++ queued es := by
  cases e <;> rfl

/-- **What was queued is sent, in order and whole.**  The frames that the chip was given up to their end, and
then those that are still pending, are what was pending and what was queued: a frame of several mbufs may be
missing when there was no buffer for it, and nothing else is.  A frame that the chip gave up is not among
them before it was sent once more. -/
theorem transmit_leaves (avail : ℕ → Bool) {f : TxFifo} (h : f.Idle) (es : List Event) :
    ∃ ts f', transmit (txHdlc avail) es f = some (ts, f') ∧ f'.Idle ∧ Transfer.rest f.sent ts = f'.sent ∧
      Leaves avail (f.pending ++ queued es)
        (Transfer.complete (Transfer.line f.sent ts) ++ f'.pending) := by
  induction es generalizing f with
  | nil => exact ⟨[], f, rfl, h, rfl, by rw [queued, List.append_nil]; exact .refl _ _⟩
  | cons e es ih =>
    obtain ⟨ts₁, f₁, hrun₁, hidle₁, hrest₁, hleaves₁, -⟩ := handle_eq avail h e
    obtain ⟨ts, f', hrun, hidle, hrest, hleaves⟩ := ih hidle₁
    refine ⟨ts₁ ++ ts, f', ?_, hidle, ?_, ?_⟩
    · rw [transmit, hrun₁]
      simp only [hrun, Option.map_some]
    · rw [Transfer.rest_append, hrest₁, hrest]
    · have hfirst := hleaves₁.append_right (queued es)
      rw [List.append_assoc, ← queued_cons, List.append_assoc] at hfirst
      rw [Transfer.line_append, hrest₁, Transfer.complete_append, List.append_assoc]
      exact hfirst.trans (hleaves.append_left _)

/-- **A frame ends together with `XRES` only if it has no data.**  If there is no such frame, it does not matter
what the chip makes of the two commands. -/
theorem transmit_end (avail : ℕ → Bool) {f f' : TxFifo} (h : f.Idle) {es : List Event}
    {ts : List (Transfer UInt8)} (hrun : transmit (txHdlc avail) es f = some (ts, f'))
    (hne : ∀ m ∈ f.pending ++ queued es, m ≠ []) : ∀ t ∈ ts, t.abort = true → t.last = false := by
  induction es generalizing f ts with
  | nil =>
    cases hrun
    exact fun t ht => absurd ht List.not_mem_nil
  | cons e es ih =>
    obtain ⟨ts₁, f₁, hrun₁, hidle₁, -, hleaves₁, hend₁⟩ := handle_eq avail h e
    rw [transmit, hrun₁] at hrun
    obtain ⟨⟨ts₂, f₂⟩, hrun₂, heq⟩ := Option.map_eq_some_iff.mp hrun
    cases heq
    rw [queued_cons, ← List.append_assoc] at hne
    intro t ht habort
    rcases List.mem_append.mp ht with ht | ht
    · by_contra hlast
      rw [Bool.not_eq_false] at hlast
      exact hne [] (List.mem_append_left _ (hend₁ t ht habort hlast)) rfl
    · refine ih hidle₁ hrun₂ (fun m hm => ?_) t ht habort
      rcases List.mem_append.mp hm with hm | hm
      · exact hne m (List.mem_append_left _ (hleaves₁.1.subset (List.mem_append_right _ hm)))
      · exact hne m (List.mem_append_right _ hm)

theorem pending_of_work {f : TxFifo} (h : f.work = 0) : f.pending = [] := by
  have hle : (f.pending.map (·.length + 1)).sum ≤ f.sent.length := Nat.sub_eq_zero_iff_le.mp h
  rw [sent] at hle
  rw [pending] at hle ⊢
  cases hm : f.mbuf with
  | none =>
    cases hq : f.queue with
    | nil => rfl
    | cons m ms => simp [hm, hq] at hle
  | some mem =>
    have htake : (mem.take f.bufPtr).length ≤ mem.length := by simp
    simp only [hm, Option.getD_some, Option.toList_some, List.singleton_append, List.map_cons,
      List.sum_cons] at hle
    omega

/-- **What is pending is sent when there were enough interrupts**: for each frame, one for each byte, and one
more. -/
theorem transmit_done (avail : ℕ → Bool) {f : TxFifo} (h : f.Idle) (hok : f.failed = false) {n : ℕ}
    (hn : f.work ≤ n) :
    ∃ ts f', transmit (txHdlc avail) (List.replicate n .xpr) f = some (ts, f') ∧ f'.pending = [] ∧
      Leaves avail f.pending (Transfer.complete (Transfer.line f.sent ts)) := by
  suffices hrun : ∃ ts f', transmit (txHdlc avail) (List.replicate n .xpr) f = some (ts, f') ∧
      f'.pending = [] by
    obtain ⟨ts, f', hts, hempty⟩ := hrun
    obtain ⟨ts', f'', hts', _, _, hleaves⟩ := transmit_leaves avail h (List.replicate n .xpr)
    obtain ⟨rfl, rfl⟩ : ts = ts' ∧ f' = f'' := by simpa using hts.symm.trans hts'
    refine ⟨ts, f', hts, hempty, ?_⟩
    have hqueued : queued (List.replicate n .xpr) = [] := by
      clear hn hts hts' hleaves
      induction n with
      | zero => rfl
      | succ n ih => exact ih
    rw [hqueued, hempty, List.append_nil, List.append_nil] at hleaves
    exact hleaves
  induction n generalizing f with
  | zero => exact ⟨[], f, rfl, pending_of_work (Nat.le_zero.mp hn)⟩
  | succ n ih =>
    obtain ⟨f₁, hcall, hcalled⟩ := ipacTxProgram_eq avail (f := { f with istaXpr := true })
      ⟨⟨h.buf.size, h.buf.len⟩, h.block, h.xres, h.xme, h.xtf, h.chip⟩ (.inl rfl)
    have hless : f₁.chipUnselect.work ≤ f.work - 1 := hcalled.less hok
    obtain ⟨ts, f', hts, hempty⟩ := ih hcalled.idle hcalled.ok (by omega)
    refine ⟨f₁.given ++ ts, f', ?_, hempty⟩
    rw [List.replicate_succ, transmit, handle, hcall]
    simp only [Option.map_some, hts]

/-- Two frames. -/
theorem transmit_done_two :
    ∃ ts f', transmit (txHdlc fun _ => true) (List.replicate 9 .xpr)
        { Fifo.setup 4 false with reset := false, chip := [], pullups := 0, queue := [([1, 2, 3], [[4]]), ([5, 6], [])] }
          = some (ts, f') ∧ f'.pending = [] ∧
      Leaves (fun _ => true) [[1, 2, 3, 4], [5, 6]] (Transfer.complete (Transfer.line [] ts)) :=
  transmit_done (f := { Fifo.setup 4 false with
      reset := false, chip := [], pullups := 0, queue := [([1, 2, 3], [[4]]), ([5, 6], [])] }) _
    ⟨⟨rfl, rfl⟩, by decide, rfl, rfl, rfl, rfl⟩ rfl (by decide)

/-! ## The transmitter does not sleep -/

/-- Whether the chip owes an interrupt after an event: it was given something, or it was busy and nothing was
heard of it. -/
def owes (busy : Bool) (ts : List (Transfer UInt8)) : Event → Bool
  | .queue _ => busy || !ts.isEmpty
  | _ => !ts.isEmpty

/-- A transmitter, and whether the chip owes an interrupt. -/
def watch (filter : TxFifo → Option TxFifo) : List Event → Bool × TxFifo → Option (Bool × TxFifo)
  | [], s => some s
  | e :: es, s =>
    match s.2.handle filter e with
    | none => none
    | some (ts, f) => watch filter es (owes s.1 ts e, f)

/-- When the chip owes nothing, the program will not return without doing something, it is going to be called,
and there is nothing to be sent. -/
structure Awake (busy : Bool) (f : TxFifo) : Prop where
  idle : f.Idle
  call : busy = false → (f.istaXpr = true ∨ f.failed = true) ∧ f.running = false ∧ f.pending = []

theorem awake_setup {bs : ℕ} (hbs : 0 < bs) :
    Awake false { Fifo.setup bs false with chip := [], pullups := 0, queue := [] } where
  idle := ⟨⟨rfl, rfl⟩, hbs, rfl, rfl, rfl, rfl⟩
  call := fun _ => ⟨.inr rfl, rfl, rfl⟩

theorem Awake.handle (avail : ℕ → Bool) {busy : Bool} {f : TxFifo} (h : Awake busy f) (e : Event) :
    ∃ ts f', f.handle (txHdlc avail) e = some (ts, f') ∧ Awake (owes busy ts e) f' := by
  -- the program is called in the state `g`, and has something to do
  have hcall : ∀ g : TxFifo, g.Idle → (g.istaXpr = true ∨ g.failed = true) →
      ∃ ts f', (g.ipacTxProgram true (txHdlc avail)).map (fun f => (f.given, f.chipUnselect)) = some (ts, f') ∧
        Awake (!ts.isEmpty) f' := by
    intro g hg hista
    obtain ⟨f', hrun, hcalled⟩ := ipacTxProgram_eq avail hg hista
    refine ⟨f'.given, f'.chipUnselect, by rw [hrun]; rfl, hcalled.idle, fun hnone => ?_⟩
    have hnil : f'.given = [] := by simpa using hnone
    obtain ⟨hxpr, hrunning, hempty⟩ := hcalled.still hnil
    exact ⟨.inl hxpr, hrunning, hempty⟩
  have hi := h.idle
  cases e with
  | xpr =>
    exact hcall { f with istaXpr := true }
      ⟨⟨hi.buf.size, hi.buf.len⟩, hi.block, hi.xres, hi.xme, hi.xtf, hi.chip⟩ (.inl rfl)
  | err =>
    exact hcall { f with istaErr := true }
      ⟨⟨hi.buf.size, hi.buf.len⟩, hi.block, hi.xres, hi.xme, hi.xtf, hi.chip⟩ (.inr (Bool.or_true _))
  | queue m =>
    rw [TxFifo.handle]
    split
    next hrunning =>
      have hbusy : busy = true := by
        cases busy with
        | true => rfl
        | false => exact Bool.noConfusion (hrunning.symm.trans (h.call rfl).2.1)
      refine ⟨[], _, rfl, ⟨⟨hi.buf.size, hi.buf.len⟩, hi.block, hi.xres, hi.xme, hi.xtf, hi.chip⟩, ?_⟩
      rw [hbusy]
      exact fun hne => Bool.noConfusion hne
    next =>
      by_cases hista : f.istaXpr = true ∨ f.failed = true
      · obtain ⟨ts, f', hrun, hawake⟩ := hcall { f with queue := f.queue ++ [m], running := true }
          ⟨⟨hi.buf.size, hi.buf.len⟩, hi.block, hi.xres, hi.xme, hi.xtf, hi.chip⟩ hista
        refine ⟨ts, f', hrun, hawake.idle, fun hnone => hawake.call ?_⟩
        exact (Bool.or_eq_false_iff.mp hnone).2
      · have hbusy : busy = true := by
          cases busy with
          | true => rfl
          | false => exact absurd (h.call rfl).1 hista
        obtain ⟨hxpr, hfail⟩ := not_or.mp hista
        rw [Bool.not_eq_true] at hxpr hfail
        rw [ipacTxProgram_quiet _ (f := { f with queue := f.queue ++ [m], running := true }) hxpr hfail]
        refine ⟨_, _, rfl, ⟨⟨hi.buf.size, hi.buf.len⟩, hi.block, rfl, rfl, rfl, rfl⟩, ?_⟩
        rw [hbusy]
        exact fun hne => Bool.noConfusion hne

/-- **The transmitter does not sleep while there is something to be sent**: as long as a frame is pending, the
chip owes an interrupt, after which the program goes on. -/
theorem watch_awake (avail : ℕ → Bool) {busy : Bool} {f : TxFifo} (h : Awake busy f) (es : List Event) :
    ∃ busy' f', watch (txHdlc avail) es (busy, f) = some (busy', f') ∧ Awake busy' f' ∧
      (f'.pending ≠ [] → busy' = true) := by
  induction es generalizing busy f with
  | nil =>
    refine ⟨busy, f, rfl, h, fun hne => ?_⟩
    cases busy with
    | true => rfl
    | false => exact absurd (h.call rfl).2.2 hne
  | cons e es ih =>
    obtain ⟨ts, f₁, hrun, hawake⟩ := h.handle avail e
    obtain ⟨busy', f', hwatch, hrest⟩ := ih hawake
    refine ⟨busy', f', ?_, hrest⟩
    rw [watch, hrun]
    exact hwatch

theorem watch_awake_setup :
    ∃ busy' f', watch (txHdlc fun _ => true) [.queue ([1], []), .xpr, .queue ([2], [])]
        (false, { Fifo.setup 4 false with chip := [], pullups := 0, queue := [] }) = some (busy', f') ∧
      Awake busy' f' ∧ (f'.pending ≠ [] → busy' = true) :=
  watch_awake _ (@awake_setup 4 (by decide)) [.queue ([1], []), .xpr, .queue ([2], [])]

end TxFifo

/-! ## From one end to the other -/

open RxFifo (listen Heard Heard.Intact Heard.Valid intact)

theorem intact_sublist {frames : List (List UInt8 × Bool)} {line : List Heard}
    (h : List.Forall₂ (fun frame heard => heard.Intact → frame.2 = true ∧ heard.data = frame.1) frames line) :
    List.Sublist (intact line) (Transfer.complete frames) := by
  induction h with
  | nil => exact List.nil_sublist _
  | @cons frame heard frames line hhead _ ih =>
    obtain ⟨data, complete⟩ := frame
    by_cases hin : heard.Intact
    · obtain ⟨hc, hd⟩ := hhead hin
      simp only at hc hd
      rw [intact, List.filter_cons_of_pos (by simpa using hin), List.map_cons, hc, hd,
        Transfer.complete_cons_true]
      exact ih.cons_cons _
    · rw [intact, List.filter_cons_of_neg (by simpa using hin)]
      cases complete with
      | true => exact ih.cons _
      | false => exact ih

/-- **Two ends and a bad line.**  Whatever becomes of the frames on the line, as long as the chip of the
receiver sees that a frame is damaged: what is received is what was queued for the transmitter, in order, each
frame at most once and whole, and it comes before what is still pending. -/
theorem received_sublist (alloc : ℕ → Option (List UInt8)) (avail : ℕ → Bool) {k : ℕ} {r : RxFifo} {f : TxFifo}
    (hr : r.Rest (2 ^ k) r.removeStat) (hf : f.Idle) (hsent : f.sent = []) {es : List TxFifo.Event}
    {ts : List (Transfer UInt8)} {f' : TxFifo} (hrun : f.transmit (TxFifo.txHdlc avail) es = some (ts, f'))
    {line : List Heard} (hvalid : ∀ h ∈ line, h.Valid r.removeStat)
    (hline : List.Forall₂ (fun frame heard => heard.Intact → frame.2 = true ∧ heard.data = frame.1)
      (Transfer.line [] ts) line) :
    ∃ r' got, listen (RxFifo.rxHdlc alloc some) line r = some r' ∧ r'.put = r.put ++ got ∧
      List.Sublist (got ++ f'.pending) (f.pending ++ TxFifo.queued es) := by
  obtain ⟨r', got, hlisten, _, hput, hsub⟩ := RxFifo.listen_sublist alloc hr hvalid
  obtain ⟨ts', f'', hrun', _, _, hleaves⟩ := TxFifo.transmit_leaves avail hf es
  obtain ⟨rfl, rfl⟩ : ts = ts' ∧ f' = f'' := by simpa using hrun.symm.trans hrun'
  rw [hsent] at hleaves
  refine ⟨r', got, hlisten, hput, ?_⟩
  exact ((hsub.trans (intact_sublist hline)).append_right _).trans hleaves.1

/-- The frame is begun twice, and the second time it arrives. -/
theorem received_sublist_twice :
    ∃ r' got, listen (RxFifo.rxHdlc (fun _ => some (List.replicate 8 0)) some)
        [⟨[1, 2, 3, 4], 0x60, .whole⟩, ⟨[1, 2, 3, 4, 5], 0x20, .whole⟩]
        { Fifo.setup 4 true with reset := false, chip := [], allocs := 0, put := [] } = some r' ∧
      r'.put = [] ++ got ∧ List.Sublist (got ++ []) ([] ++ [[1, 2, 3, 4, 5]]) :=
  @received_sublist _ (fun _ => true) 2
    { Fifo.setup 4 true with reset := false, chip := [], allocs := 0, put := [] }
    { Fifo.setup 4 false with reset := false, chip := [], pullups := 0, queue := [] }
    ⟨⟨⟨rfl, rfl⟩, rfl, rfl, rfl, fun _ => ⟨rfl, rfl, rfl, rfl⟩⟩, fun _ => rfl⟩
    ⟨⟨rfl, rfl⟩, by decide, rfl, rfl, rfl, rfl⟩ rfl
    [.queue ([1, 2, 3, 4, 5], []), .xpr, .err, .xpr, .xpr]
    [⟨false, [1, 2, 3, 4], false⟩, ⟨true, [], false⟩, ⟨false, [1, 2, 3, 4], false⟩, ⟨false, [5], true⟩]
    { Fifo.setup 4 false with
      reset := false, running := true, frameEnd := true, zChip := 3, chip := [], pullups := 0, queue := [] }
    (by decide +kernel) _ (fun _ _ => .inr rfl) (.cons (by decide) (.cons (by decide) .nil))

theorem complete_of_good {frames : List (List UInt8 × Bool)} {line : List Heard}
    (h : List.Forall₂ (fun frame heard => (heard.Intact ↔ frame.2 = true) ∧ heard.data = frame.1)
      frames line) : intact line = Transfer.complete frames := by
  induction h with
  | nil => rfl
  | @cons frame heard frames line hhead _ ih =>
    obtain ⟨data, complete⟩ := frame
    obtain ⟨hin, hd⟩ := hhead
    cases complete with
    | true =>
      rw [intact, List.filter_cons_of_pos (by simpa using hin), List.map_cons, hd,
        Transfer.complete_cons_true, ← ih, intact]
    | false =>
      rw [intact, List.filter_cons_of_neg (by simpa using hin), Transfer.complete_cons_false, ← ih, intact]

/-- **Two ends and a good line.**  What is received, and what is still pending, is what was queued. -/
theorem received_eq {alloc : ℕ → Option (List UInt8)} {avail : ℕ → Bool} {k n : ℕ} {r : RxFifo} {f : TxFifo}
    (hr : r.Rest (2 ^ k) r.removeStat) (hreset : r.reset = false) (hsized : r.Sized alloc n)
    (havail : ∀ i, avail i = true) (hf : f.Idle) (hsent : f.sent = []) {es : List TxFifo.Event}
    (hfit : ∀ data ∈ f.pending ++ TxFifo.queued es, data.length ≤ n)
    {ts : List (Transfer UInt8)} {f' : TxFifo} (hrun : f.transmit (TxFifo.txHdlc avail) es = some (ts, f'))
    {line : List Heard} (hvalid : ∀ h ∈ line, h.Valid r.removeStat)
    (hline : List.Forall₂ (fun frame heard => (heard.Intact ↔ frame.2 = true) ∧ heard.data = frame.1)
      (Transfer.line [] ts) line) :
    ∃ r', listen (RxFifo.rxHdlc alloc some) line r = some r' ∧
      r'.put ++ f'.pending = r.put ++ (f.pending ++ TxFifo.queued es) := by
  obtain ⟨r', hlisten, _, hput⟩ := RxFifo.listen_eq hr hreset hsized hvalid
  obtain ⟨ts', f'', hrun', _, _, hleaves⟩ := TxFifo.transmit_leaves avail hf es
  obtain ⟨rfl, rfl⟩ : ts = ts' ∧ f' = f'' := by simpa using hrun.symm.trans hrun'
  have hall := hleaves.2 havail
  rw [hsent] at hall
  refine ⟨r', hlisten, ?_⟩
  have hfits : (intact line).filter (·.length ≤ n) = intact line := by
    refine List.filter_eq_self.mpr fun data hmem => ?_
    rw [complete_of_good hline] at hmem
    refine decide_eq_true (hfit data ?_)
    rw [← hall]
    exact List.mem_append_left _ hmem
  rw [hput, hfits, complete_of_good hline, List.append_assoc, hall]

theorem received_eq_waiting :
    ∃ r', listen (RxFifo.rxHdlc (fun _ => some (List.replicate 8 0)) some) [⟨[1, 2, 3, 4, 5], 0x20, .whole⟩]
        { Fifo.setup 4 true with reset := false, chip := [], allocs := 0, put := [] } = some r' ∧
      r'.put ++ [[6]] = [] ++ ([] ++ [[1, 2, 3, 4, 5], [6]]) :=
  @received_eq _ (fun _ => true) 2 8
    { Fifo.setup 4 true with reset := false, chip := [], allocs := 0, put := [] }
    { Fifo.setup 4 false with reset := false, chip := [], pullups := 0, queue := [] }
    ⟨⟨⟨rfl, rfl⟩, rfl, rfl, rfl, fun _ => ⟨rfl, rfl, rfl, rfl⟩⟩, fun _ => rfl⟩ rfl
    ⟨fun _ => rfl, .inl rfl⟩ (fun _ => rfl) ⟨⟨rfl, rfl⟩, by decide, rfl, rfl, rfl, rfl⟩ rfl
    [.queue ([1, 2, 3, 4, 5], []), .xpr, .xpr, .queue ([6], [])] (by decide)
    [⟨false, [1, 2, 3, 4], false⟩, ⟨false, [5], true⟩]
    { Fifo.setup 4 false with
      reset := false, running := true, frameEnd := true, zChip := 3, chip := [], pullups := 0
      queue := [([6], [])] }
    (by decide +kernel) _ (fun _ _ => .inr rfl) (.cons (by decide) .nil)

end L1
end Isdn4bsd
