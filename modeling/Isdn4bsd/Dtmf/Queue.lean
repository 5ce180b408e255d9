import Isdn4bsd.Lib.Machine
import Isdn4bsd.Lib.Ring
import Isdn4bsd.Dtmf.Generate

/-!
# DTMF: the ring of the generator

A digit takes two entries of a ring, its tone and its gap.  It may be queued while the generator is anywhere
in the ring, and the generator stops wherever the buffer ends that it writes to.

Here each access has a result only within its array, also where the sine is looked up.

* `entries` : what the ring stands for.
* `queueDigit_some` : **a digit** is two more entries, or the ring stays as it is.
* `Plays` : **what was played**, and what is left of it: the invariant.
* `generateLoop_plays` : **the generator** plays on.
* `Valid.run` : **one call** keeps this, whichever it is.

## The ring as a list

Both positions move, and the durations of the entry that is being played are counted down in place.  `entries` reads
the ring from the one position to the other as a list, by `Lib.Ring`.  A digit is put behind it only if there is room
for both of its entries, with a cell left over, as a ring that is quite full could not be told from an empty one.

## What was played

The history of a run has the digits that were accepted and the samples that were played.  `Plays` splits the entries
of the accepted digits: those at the front were played to their end, and the samples of the history are theirs, one
entry behind the other; the rest wait in the ring, the first of them with some samples taken off (`Entry.Left`).
A sample is known by the frequencies of its entry and the two angles, so it can be said that an entry starts at
angle zero and goes on by its frequencies; an entry that is interrupted at the end of a buffer goes on where it was.

The table of sines has 8000 values, and the angles are reduced by one subtraction after each addition; that they
stay within the table (`Plays.omega_lt`) needs that the frequencies of all digits are below 8000.
-/

set_option autoImplicit false

namespace Isdn4bsd
namespace Dtmf
namespace Queue

/-! ## The ring -/

/-- `struct i4b_dtmf_info_tx`. -/
structure DtmfInfoTx where
  freq0 : ℕ → ℕ
  freq1 : ℕ → ℕ
  duration : ℕ → ℕ
  omega0 : ℕ
  omega1 : ℕ
  inputPos : ℕ
  outputPos : ℕ
  bsubprot : Bsubprot

/-- `i4b_dtmf_init_tx`. -/
def init (bsubprot : Bsubprot) : DtmfInfoTx where
  freq0 := fun _ => 0
  freq1 := fun _ => 0
  duration := fun _ => 0
  omega0 := 0
  omega1 := 0
  inputPos := 0
  outputPos := 0
  bsubprot := bsubprot

/-- `I4B_DTMF_N_DIGITS`. -/
def nDigits : ℕ := 32

/-- An array is read. -/
def load (xs : ℕ → ℕ) (i : ℕ) : Option ℕ := if i < nDigits then some (xs i) else none

/-- 16 bits are written to an array. -/
def store (xs : ℕ → ℕ) (i x : ℕ) : Option (ℕ → ℕ) :=
  if i < nDigits then some (Function.update xs i (x % 65536)) else none

/-- One entry is written. -/
def storeEntry (tx : DtmfInfoTx) (i freq0 freq1 duration : ℕ) : Option DtmfInfoTx := do
  let freq0s ← store tx.freq0 i freq0
  let freq1s ← store tx.freq1 i freq1
  let durations ← store tx.duration i duration
  return { tx with freq0 := freq0s, freq1 := freq1s, duration := durations }

/-- `i4b_dtmf_queue_digit`. -/
def queueDigit (tx : DtmfInfoTx) (digit : UInt8) (toneDuration gapDuration : UInt16) :
    Option DtmfInfoTx :=
  let nextPos0 := (tx.outputPos + 1) % nDigits
  let nextPos1 := (nextPos0 + 1) % nDigits
  if nextPos0 = tx.inputPos ∨ nextPos1 = tx.inputPos then some tx
  else do
    let (freq0, freq1) := lookup digit
    let tx ← storeEntry tx tx.outputPos freq0 freq1 (numSamples toneDuration.toNat)
    let tx ← storeEntry tx nextPos0 0 0 (numSamples gapDuration.toNat)
    return { tx with outputPos := nextPos1 }

/-! ## The generator -/

/-- What a sample is made of: the frequencies of the entry, and where the sines are looked up. -/
structure Sample where
  freq0 : ℕ
  freq1 : ℕ
  omega0 : ℕ
  omega1 : ℕ
  deriving DecidableEq, Repr

/-- `i4b_sine_to_signed` has 8000 values. -/
def sine (xlaw : Xlaw) (omega : ℕ) : Option ℤ :=
  if omega < 8000 then some (xlaw.sineToSigned omega) else none

/-- An angle, one sample later. -/
def advance (omega freq : ℕ) : ℕ :=
  let omega := (omega + freq) % 65536
  if omega ≥ 8000 then omega - 8000 else omega

/-- A sample of the entry that `input_pos` is at. -/
def playSample (xlaw : Xlaw) (tx : DtmfInfoTx) : Option (DtmfInfoTx × UInt8 × Sample) := do
  let sine0 ← sine xlaw tx.omega0
  let sine1 ← sine xlaw tx.omega1
  let byte := compand xlaw tx.bsubprot ((sine0 + sine1).tdiv 4)
  let freq0 ← load tx.freq0 tx.inputPos
  let freq1 ← load tx.freq1 tx.inputPos
  let next := { tx with omega0 := advance tx.omega0 freq0, omega1 := advance tx.omega1 freq1 }
  return (next, byte, ⟨freq0, freq1, tx.omega0, tx.omega1⟩)

/-- The sample is counted, or it is the first one of the next entry; it tells whether there is none. -/
def countSample (tx : DtmfInfoTx) : Option (DtmfInfoTx × Bool) := do
  let duration ← load tx.duration tx.inputPos
  if duration = 0 then
    let i := tx.inputPos + 1
    let i := if i ≥ nDigits then 0 else i
    return ({ tx with omega0 := 0, omega1 := 0, inputPos := i }, i = tx.outputPos)
  else
    let durations ← store tx.duration tx.inputPos (duration - 1)
    return ({ tx with duration := durations }, false)

/-- The loop of `i4b_dtmf_generate`, with what is left of the buffer. -/
def generateLoop (xlaw : Xlaw) (silence : UInt8) (allocated : Bool) :
    List Cell → DtmfInfoTx → Option (DtmfInfoTx × List Cell × List Sample)
  | [], tx => some (tx, [], [])
  | cell :: cells, tx => do
    let (tx, isEnd) ← countSample tx
    if isEnd then
      -- `*ptr = silence` does not move `ptr`, but `len` is one less already
      return (tx, if allocated then fillSilence silence cells.length (some silence :: cells)
        else cell :: cells, [])
    else
      let (tx, byte, sample) ← playSample xlaw tx
      let (tx, cells, samples) ← generateLoop xlaw silence allocated cells tx
      return (tx, some byte :: cells, sample :: samples)

/-- `i4b_dtmf_generate`: the buffer that the caller has, and whether memory can be had if it has none. -/
def generate (xlaw : Xlaw) (tx : DtmfInfoTx) (ppM : Option (List Cell)) (memory : Bool) :
    Option (DtmfInfoTx × Option (List Cell) × List Sample) :=
  if tx.inputPos = tx.outputPos then some (tx, ppM, [])
  else
    match ppM with
    | some m => do
      let (tx, m, samples) ← generateLoop xlaw 0 false m tx
      return (tx, some m, samples)
    | none =>
      if memory then do
        let (tx, m, samples) ←
          generateLoop xlaw (compand xlaw tx.bsubprot 0) true (List.replicate 800 none) tx
        return (tx, some m, samples)
      else some (tx, none, [])

/-! ## Calls -/

/-- A digit with its durations. -/
structure Digit where
  digit : UInt8
  toneDuration : UInt16
  gapDuration : UInt16
  deriving DecidableEq, Repr

/-- What is called. -/
inductive Call
  | queueDigit (digit : Digit)
  | generate (ppM : Option (List Cell)) (memory : Bool)

/-- What comes of it: a digit that was accepted, or a sample that was played. -/
inductive Event
  | accepted (digit : Digit)
  | played (sample : Sample)
  deriving DecidableEq, Repr

/-- One call.  A digit is accepted if `output_pos` is moved. -/
def Call.run (xlaw : Xlaw) (tx : DtmfInfoTx) : Call → Option (DtmfInfoTx × List Event)
  | .queueDigit d => do
    let next ← Queue.queueDigit tx d.digit d.toneDuration d.gapDuration
    return (next, if next.outputPos = tx.outputPos then [] else [.accepted d])
  | .generate ppM memory => do
    let (next, _, samples) ← Queue.generate xlaw tx ppM memory
    return (next, samples.map .played)

/-! ## What the ring stands for -/

/-- An entry of the ring. -/
structure Entry where
  freq0 : ℕ
  freq1 : ℕ
  duration : ℕ
  deriving DecidableEq, Repr

/-- The tone of a digit, and its gap. -/
def Digit.entries (d : Digit) : List Entry :=
  [⟨(lookup d.digit).1, (lookup d.digit).2, numSamples d.toneDuration.toNat⟩,
    ⟨0, 0, numSamples d.gapDuration.toNat⟩]

def entryAt (tx : DtmfInfoTx) (i : ℕ) : Entry := ⟨tx.freq0 i, tx.freq1 i, tx.duration i⟩

/-- The entries that are not yet played to their end. -/
def entries (tx : DtmfInfoTx) : List Entry :=
  Ring.contents (entryAt tx) nDigits tx.inputPos (Ring.dist nDigits tx.inputPos tx.outputPos)

/-- Both positions are within the ring. -/
structure InRange (tx : DtmfInfoTx) : Prop where
  input : tx.inputPos < nDigits
  output : tx.outputPos < nDigits

theorem numSamples_le (duration : ℕ) : numSamples duration ≤ 65528 := by
  rw [numSamples]
  split_ifs <;> omega

theorem lookup_lt (digit : UInt8) : (lookup digit).1 < 8000 ∧ (lookup digit).2 < 8000 := by
  have hall : ∀ line ∈ dtmfToFreq, line.1 < 8000 ∧ line.2.1 < 8000 := by decide
  rw [lookup]
  cases hline : dtmfToFreq.find? fun line => line.2.2 == digit with
  | none => decide
  | some line => exact hall line (List.mem_of_find?_eq_some hline)

theorem Digit.freq_lt {d : Digit} {e : Entry} (h : e ∈ d.entries) :
    e.freq0 < 8000 ∧ e.freq1 < 8000 := by
  rcases List.mem_pair.mp h with rfl | rfl
  · exact lookup_lt d.digit
  · exact ⟨Nat.zero_lt_succ _, Nat.zero_lt_succ _⟩

theorem Digit.duration_le {d : Digit} {e : Entry} (h : e ∈ d.entries) : e.duration ≤ 65528 := by
  rcases List.mem_pair.mp h with rfl | rfl <;> exact numSamples_le _

theorem nDigits_eq : nDigits = 32 := rfl

/-- The next position, as the source has it. -/
theorem succ_mod {i : ℕ} (h : i < nDigits) : (i + 1) % nDigits = Ring.next nDigits i := by
  rw [nDigits_eq] at h
  rw [Ring.next, nDigits_eq]
  split_ifs <;> omega

/-- **One entry is written**, and no other one is changed. -/
theorem storeEntry_some {tx : DtmfInfoTx} {i freq0 freq1 duration : ℕ} (hi : i < nDigits)
    (h0 : freq0 < 65536) (h1 : freq1 < 65536) (hd : duration < 65536) :
    ∃ next, storeEntry tx i freq0 freq1 duration = some next ∧
      entryAt next = Function.update (entryAt tx) i ⟨freq0, freq1, duration⟩ ∧
      next.inputPos = tx.inputPos ∧ next.outputPos = tx.outputPos ∧
      next.omega0 = tx.omega0 ∧ next.omega1 = tx.omega1 := by
  refine ⟨{ tx with
    freq0 := Function.update tx.freq0 i freq0
    freq1 := Function.update tx.freq1 i freq1
    duration := Function.update tx.duration i duration }, ?_, ?_, rfl, rfl, rfl, rfl⟩
  · rw [storeEntry, store, store, store, if_pos hi, if_pos hi, if_pos hi, Nat.mod_eq_of_lt h0,
      Nat.mod_eq_of_lt h1, Nat.mod_eq_of_lt hd]
    rfl
  · funext j
    by_cases hj : j = i
    · subst hj
      simp [entryAt]
    · simp [entryAt, hj]

/-- **A digit** that is accepted is two more entries, and one that is not accepted leaves all as it is.  No
entry that waits is changed. -/
theorem queueDigit_some {tx : DtmfInfoTx} (h : InRange tx) (d : Digit) :
    ∃ next, queueDigit tx d.digit d.toneDuration d.gapDuration = some next ∧ InRange next ∧
      next.omega0 = tx.omega0 ∧ next.omega1 = tx.omega1 ∧
      (next = tx ∧ 30 ≤ (entries tx).length ∨
        next.outputPos ≠ tx.outputPos ∧ entries next = entries tx ++ d.entries) := by
  have hnext := Ring.next_lt h.output
  rw [queueDigit, succ_mod h.output, succ_mod hnext]
  by_cases hfull : Ring.next nDigits tx.outputPos = tx.inputPos ∨
      Ring.next nDigits (Ring.next nDigits tx.outputPos) = tx.inputPos
  · refine ⟨tx, if_pos hfull, h, rfl, rfl, .inl ⟨rfl, ?_⟩⟩
    rw [entries, Ring.length_contents]
    have hone := Ring.dist_of_next_eq h.input h.output
    have htwo := Ring.dist_of_next_eq h.input hnext
    have hsucc := Ring.dist_next_right h.input h.output
    rw [nDigits_eq] at *
    by_cases hzero : Ring.next 32 tx.outputPos = tx.inputPos
    · have := hone hzero
      omega
    · have := htwo (hfull.resolve_left hzero)
      have := hsucc hzero
      omega
  · rw [not_or] at hfull
    obtain ⟨tx₁, heq₁, hat₁, hi₁, ho₁, hw₁, hv₁⟩ := storeEntry_some h.output
      ((lookup_lt d.digit).1.trans (by decide)) ((lookup_lt d.digit).2.trans (by decide))
      ((numSamples_le d.toneDuration.toNat).trans_lt (by decide))
    obtain ⟨tx₂, heq₂, hat₂, hi₂, ho₂, hw₂, hv₂⟩ := @storeEntry_some tx₁ _ 0 0 _ hnext (by decide)
      (by decide) ((numSamples_le d.gapDuration.toNat).trans_lt (by decide))
    refine ⟨{ tx₂ with outputPos := Ring.next nDigits (Ring.next nDigits tx.outputPos) }, ?_,
      ⟨?_, Ring.next_lt hnext⟩, hw₂.trans hw₁, hv₂.trans hv₁, .inr ⟨?_, ?_⟩⟩
    · rw [if_neg (not_or.mpr hfull)]
      simp only [heq₁, heq₂, Option.bind_eq_bind, Option.bind_some]
      rfl
    · change tx₂.inputPos < nDigits
      rw [hi₂, hi₁]
      exact h.input
    · change Ring.next nDigits (Ring.next nDigits tx.outputPos) ≠ tx.outputPos
      have ho := h.output
      rw [Ring.next, Ring.next, nDigits_eq] at *
      split_ifs <;> omega
    · change Ring.contents (entryAt tx₂) nDigits tx₂.inputPos
        (Ring.dist nDigits tx₂.inputPos (Ring.next nDigits (Ring.next nDigits tx.outputPos))) = _
      rw [hi₂, hi₁, hat₂, Ring.contents_push _ h.input hnext hfull.2, hat₁,
        Ring.contents_push _ h.input h.output hfull.1, List.append_assoc]
      rfl

/-! ## What is played -/

/-- The first samples of an entry: its angles start at zero. -/
def Entry.samples (e : Entry) (n : ℕ) : List Sample :=
  (List.range n).map fun k => ⟨e.freq0, e.freq1, k * e.freq0 % 8000, k * e.freq1 % 8000⟩

/-- An entry of which `n` samples were played, and `left` are not.  Where it follows another one at once, the
sample at which it begins is not counted. -/
def Entry.Left (e : Entry) (n left : ℕ) : Prop :=
  n + left = e.duration ∨ 0 < n ∧ n + left = e.duration + 1

/-- The entries that wait in the ring, with what was already played of the first one. -/
inductive Waits (tx : DtmfInfoTx) : List Entry → List Sample → Prop
  | none (hring : entries tx = []) (h0 : tx.omega0 = 0) (h1 : tx.omega1 = 0) : Waits tx [] []
  | first {e : Entry} {rest : List Entry} {n left : ℕ}
      (hring : entries tx = { e with duration := left } :: rest) (hleft : e.Left n left)
      (h0 : tx.omega0 = n * e.freq0 % 8000) (h1 : tx.omega1 = n * e.freq1 % 8000) :
      Waits tx (e :: rest) (e.samples n)

/-- **What was played.**  Of the entries, those at the start were played to their end, one behind the other,
and the others wait in the ring. -/
def Plays (accepted : List Entry) (played : List Sample) (tx : DtmfInfoTx) : Prop :=
  ∃ (done : List (Entry × ℕ)) (waiting : List Entry) (begun : List Sample),
    accepted = done.map Prod.fst ++ waiting ∧ (∀ p ∈ done, p.1.Left p.2 0) ∧
    played = (done.map fun p => p.1.samples p.2).flatten ++ begun ∧ Waits tx waiting begun

theorem Entry.samples_succ (e : Entry) (n : ℕ) : e.samples (n + 1) =
    e.samples n ++ [⟨e.freq0, e.freq1, n * e.freq0 % 8000, n * e.freq1 % 8000⟩] := by
  rw [samples, List.range_succ, List.map_append]
  rfl

theorem Entry.omega_lt {e : Entry} {n : ℕ} {s : Sample} (h : s ∈ e.samples n) :
    s.omega0 < 8000 ∧ s.omega1 < 8000 := by
  obtain ⟨k, -, rfl⟩ := List.mem_map.mp h
  exact ⟨Nat.mod_lt _ (by decide), Nat.mod_lt _ (by decide)⟩

/-- **Each sine is looked up within its table.** -/
theorem Plays.omega_lt {accepted : List Entry} {played : List Sample} {tx : DtmfInfoTx}
    (h : Plays accepted played tx) {s : Sample} (hs : s ∈ played) :
    s.omega0 < 8000 ∧ s.omega1 < 8000 := by
  obtain ⟨done, waiting, begun, -, -, rfl, hwaits⟩ := h
  rcases List.mem_append.mp hs with hdone | hbegun
  · obtain ⟨samples, hmem, hsample⟩ := List.mem_flatten.mp hdone
    obtain ⟨p, -, rfl⟩ := List.mem_map.mp hmem
    exact Entry.omega_lt hsample
  · cases hwaits with
    | none => exact absurd hbegun (by simp)
    | first => exact Entry.omega_lt hbegun

/-! ## One sample -/

theorem entries_of_ne {tx : DtmfInfoTx} (h : InRange tx) (hne : tx.inputPos ≠ tx.outputPos) :
    entries tx = entryAt tx tx.inputPos :: Ring.contents (entryAt tx) nDigits
      (Ring.next nDigits tx.inputPos)
      (Ring.dist nDigits (Ring.next nDigits tx.inputPos) tx.outputPos) := by
  rw [entries, Ring.dist_next_left h.input h.output hne]
  rfl

theorem entries_eq_nil {tx : DtmfInfoTx} (h : InRange tx) :
    entries tx = [] ↔ tx.inputPos = tx.outputPos := by
  constructor
  · intro hnil
    by_contra hne
    rw [entries_of_ne h hne] at hnil
    exact absurd hnil (by simp)
  · intro heq
    rw [entries, heq, Ring.dist_self]
    rfl

theorem advance_eq {n freq : ℕ} (h : freq < 8000) :
    advance (n * freq % 8000) freq = (n + 1) * freq % 8000 := by
  have hlt := Nat.mod_lt (n * freq) (show 0 < 8000 by decide)
  have hmod : (n * freq % 8000 + freq) % 8000 = (n + 1) * freq % 8000 := by
    rw [Nat.mod_add_mod, Nat.succ_mul]
  rw [advance, ← hmod]
  generalize n * freq % 8000 = w at hlt
  rw [Nat.mod_eq_of_lt (show w + freq < 65536 by omega)]
  by_cases hge : w + freq ≥ 8000
  · rw [if_pos hge]
    omega
  · rw [if_neg hge]
    omega

/-- The first entry of a ring that is not empty. -/
theorem entries_eq_cons {tx : DtmfInfoTx} (h : InRange tx) {f : Entry} {rest : List Entry}
    (hring : entries tx = f :: rest) : tx.inputPos ≠ tx.outputPos ∧ entryAt tx tx.inputPos = f ∧
      Ring.contents (entryAt tx) nDigits (Ring.next nDigits tx.inputPos)
        (Ring.dist nDigits (Ring.next nDigits tx.inputPos) tx.outputPos) = rest := by
  have hne : tx.inputPos ≠ tx.outputPos := fun heq => by
    rw [(entries_eq_nil h).mpr heq] at hring
    exact absurd hring (by simp)
  rw [entries_of_ne h hne] at hring
  exact ⟨hne, List.cons.inj hring⟩

theorem load_eq {xs : ℕ → ℕ} {i : ℕ} (h : i < nDigits) : load xs i = some (xs i) := if_pos h

/-- A sample within an entry. -/
theorem countSample_within {tx : DtmfInfoTx} (h : InRange tx) {f : Entry} {rest : List Entry}
    (hring : entries tx = f :: rest) (hd : f.duration ≠ 0) (hle : f.duration ≤ 65536) :
    ∃ next, countSample tx = some (next, false) ∧ InRange next ∧
      entries next = { f with duration := f.duration - 1 } :: rest ∧
      next.omega0 = tx.omega0 ∧ next.omega1 = tx.omega1 := by
  obtain ⟨hne, hfirst, hrest⟩ := entries_eq_cons h hring
  have hdur : tx.duration tx.inputPos = f.duration := congrArg Entry.duration hfirst
  refine ⟨{ tx with duration := Function.update tx.duration tx.inputPos (f.duration - 1) }, ?_,
    ⟨h.input, h.output⟩, ?_, rfl, rfl⟩
  · have hmod : (f.duration - 1) % 65536 = f.duration - 1 := Nat.mod_eq_of_lt (by omega)
    simp only [countSample, load_eq h.input, hdur, Option.bind_eq_bind, Option.bind_some, if_neg hd,
      store, if_pos h.input, hmod]
    rfl
  · have hat : entryAt { tx with duration := Function.update tx.duration tx.inputPos (f.duration - 1) } =
        Function.update (entryAt tx) tx.inputPos { f with duration := f.duration - 1 } := by
      funext j
      by_cases hj : j = tx.inputPos
      · subst hj
        simp [entryAt, ← hfirst]
      · simp [entryAt, hj]
    change Ring.contents (entryAt _) nDigits tx.inputPos
      (Ring.dist nDigits tx.inputPos tx.outputPos) = _
    have hlt := Ring.dist_lt h.input h.output
    rw [Ring.dist_next_left h.input h.output hne] at hlt
    rw [hat, Ring.dist_next_left h.input h.output hne,
      Ring.contents_update_first _ h.input (by omega), hrest]

/-- The sample at which an entry has none left. -/
theorem countSample_next {tx : DtmfInfoTx} (h : InRange tx) {f : Entry} {rest : List Entry}
    (hring : entries tx = f :: rest) (hd : f.duration = 0) :
    ∃ next, countSample tx = some (next, decide (rest = [])) ∧ InRange next ∧ entries next = rest ∧
      next.omega0 = 0 ∧ next.omega1 = 0 := by
  obtain ⟨hne, hfirst, hrest⟩ := entries_eq_cons h hring
  have hdur : tx.duration tx.inputPos = 0 := (congrArg Entry.duration hfirst).trans hd
  have hpos : (if tx.inputPos + 1 ≥ nDigits then 0 else tx.inputPos + 1) =
      Ring.next nDigits tx.inputPos := by
    rw [Ring.next]
    split_ifs <;> omega
  have hrange : InRange { tx with
      omega0 := 0, omega1 := 0, inputPos := Ring.next nDigits tx.inputPos } :=
    ⟨Ring.next_lt h.input, h.output⟩
  refine ⟨{ tx with omega0 := 0, omega1 := 0, inputPos := Ring.next nDigits tx.inputPos }, ?_,
    hrange, hrest, rfl, rfl⟩
  have hempty : (Ring.next nDigits tx.inputPos = tx.outputPos) ↔ rest = [] := by
    rw [← entries_eq_nil hrange]
    exact iff_of_eq (congrArg (· = []) hrest)
  rw [countSample, load_eq h.input, hdur]
  simp only [Option.bind_eq_bind, Option.bind_some, if_true, hpos, hempty]
  rfl

/-- A sample of the first entry. -/
theorem playSample_some (xlaw : Xlaw) {tx : DtmfInfoTx} (h : InRange tx) {f : Entry} {rest : List Entry}
    (hring : entries tx = f :: rest) (h0 : tx.omega0 < 8000) (h1 : tx.omega1 < 8000) :
    ∃ next byte, playSample xlaw tx = some (next, byte, ⟨f.freq0, f.freq1, tx.omega0, tx.omega1⟩) ∧
      InRange next ∧ entries next = f :: rest ∧ next.omega0 = advance tx.omega0 f.freq0 ∧
      next.omega1 = advance tx.omega1 f.freq1 := by
  obtain ⟨-, rfl, -⟩ := entries_eq_cons h hring
  refine ⟨{ tx with
    omega0 := advance tx.omega0 (tx.freq0 tx.inputPos)
    omega1 := advance tx.omega1 (tx.freq1 tx.inputPos) },
    compand xlaw tx.bsubprot ((xlaw.sineToSigned tx.omega0 + xlaw.sineToSigned tx.omega1).tdiv 4),
    ?_, ⟨h.input, h.output⟩, hring, rfl, rfl⟩
  rw [playSample, sine, sine, if_pos h0, if_pos h1, load_eq h.input, load_eq h.input]
  rfl

/-- An entry as a digit has it. -/
structure Entry.Fits (e : Entry) : Prop where
  freq0 : e.freq0 < 8000
  freq1 : e.freq1 < 8000
  duration : e.duration ≤ 65528

theorem Digit.fits {d : Digit} {e : Entry} (h : e ∈ d.entries) : e.Fits :=
  ⟨(Digit.freq_lt h).1, (Digit.freq_lt h).2, Digit.duration_le h⟩

/-- **The next sample of an entry.** -/
theorem Waits.play (xlaw : Xlaw) {tx : DtmfInfoTx} (h : InRange tx) {e : Entry} {rest : List Entry}
    {n left : ℕ} (he : e.Fits) (hring : entries tx = { e with duration := left } :: rest)
    (hleft : e.Left (n + 1) left) (h0 : tx.omega0 = n * e.freq0 % 8000)
    (h1 : tx.omega1 = n * e.freq1 % 8000) :
    ∃ next byte s, playSample xlaw tx = some (next, byte, s) ∧ InRange next ∧ entries next ≠ [] ∧
      e.samples (n + 1) = e.samples n ++ [s] ∧ Waits next (e :: rest) (e.samples (n + 1)) := by
  have hlt0 : tx.omega0 < 8000 := h0 ▸ Nat.mod_lt _ (by decide)
  have hlt1 : tx.omega1 < 8000 := h1 ▸ Nat.mod_lt _ (by decide)
  obtain ⟨next, byte, heq, hrange, hentries, hnext0, hnext1⟩ :=
    playSample_some xlaw h hring hlt0 hlt1
  refine ⟨next, byte, _, heq, hrange, by rw [hentries]; simp, ?_, .first hentries hleft ?_ ?_⟩
  · rw [Entry.samples_succ, h0, h1]
  · rw [hnext0, h0, advance_eq he.freq0]
  · rw [hnext1, h1, advance_eq he.freq1]

/-- **One round of the generator**: either the ring is at its end, or a sample is played. -/
theorem Plays.round (xlaw : Xlaw) {accepted : List Entry} {played : List Sample} {tx : DtmfInfoTx}
    (hp : Plays accepted played tx) (hfits : ∀ e ∈ accepted, e.Fits) (h : InRange tx)
    (hne : entries tx ≠ []) :
    ∃ counted isEnd, countSample tx = some (counted, isEnd) ∧ InRange counted ∧
      (isEnd = true → Plays accepted played counted) ∧
      (isEnd = false → ∃ next byte s, playSample xlaw counted = some (next, byte, s) ∧
        InRange next ∧ entries next ≠ [] ∧ Plays accepted (played ++ [s]) next) := by
  obtain ⟨done, waiting, begun, rfl, hdone, rfl, hwaits⟩ := hp
  cases hwaits with
  | none hring => exact absurd hring hne
  | @first e rest n left hring hleft h0 h1 =>
    have he : e.Fits := hfits e (List.mem_append_right _ List.mem_cons_self)
    have hle : left ≤ e.duration := by
      rcases hleft with hleft | hleft <;> omega
    have hmax := he.duration
    by_cases hzero : left = 0
    · -- the entry was played to its end
      subst hzero
      obtain ⟨counted, heq, hrange, hentries, hcount0, hcount1⟩ := countSample_next h hring rfl
      have hdone' : ∀ p ∈ done ++ [(e, n)], p.1.Left p.2 0 := by
        intro p hp
        rcases List.mem_append.mp hp with hp | hp
        · exact hdone p hp
        · rw [List.mem_singleton.mp hp]
          exact hleft
      have hplayed : (done.map fun p => p.1.samples p.2).flatten ++ e.samples n =
          ((done ++ [(e, n)]).map fun p => p.1.samples p.2).flatten := by
        rw [List.map_append, List.flatten_append]
        simp
      refine ⟨counted, _, heq, hrange, fun hend => ?_, fun hend => ?_⟩
      · have hnil : rest = [] := of_decide_eq_true hend
        subst hnil
        exact ⟨done ++ [(e, n)], [], [], by simp, hdone', by rw [hplayed, List.append_nil],
          .none hentries hcount0 hcount1⟩
      · cases rest with
        | nil => exact absurd hend (by decide)
        | cons e' rest =>
          have he' : e'.Fits :=
            hfits e' (List.mem_append_right _ (List.mem_cons_of_mem _ List.mem_cons_self))
          obtain ⟨next, byte, s, hplay, hnext, hne', hs, hwaits'⟩ :=
            Waits.play xlaw hrange he' hentries (n := 0) (.inr ⟨Nat.one_pos, Nat.add_comm 1 _⟩)
              (by rw [hcount0, Nat.zero_mul]) (by rw [hcount1, Nat.zero_mul])
          refine ⟨next, byte, s, hplay, hnext, hne', done ++ [(e, n)], e' :: rest, _, by simp, hdone',
            ?_, hwaits'⟩
          rw [hplayed, hs]
          rfl
    · -- the entry goes on
      obtain ⟨counted, heq, hrange, hentries, hcount0, hcount1⟩ :=
        countSample_within h hring hzero (by change left ≤ 65536; omega)
      refine ⟨counted, false, heq, hrange, fun hend => absurd hend (by decide), fun _ => ?_⟩
      have hleft' : e.Left (n + 1) (left - 1) := by
        rcases hleft with hleft | hleft
        · exact .inl (by omega)
        · exact .inr (by omega)
      obtain ⟨next, byte, s, hplay, hnext, hne', hs, hwaits'⟩ :=
        Waits.play xlaw hrange he hentries hleft' (hcount0.trans h0) (hcount1.trans h1)
      refine ⟨next, byte, s, hplay, hnext, hne', done, e :: rest, _, rfl, hdone, ?_, hwaits'⟩
      rw [hs, List.append_assoc]

/-! ## Any calls -/

/-- **The generator plays on**, whatever buffer it writes to. -/
theorem generateLoop_plays (xlaw : Xlaw) (silence : UInt8) (allocated : Bool) (cells : List Cell)
    {accepted : List Entry} {played : List Sample} {tx : DtmfInfoTx} (hp : Plays accepted played tx)
    (hfits : ∀ e ∈ accepted, e.Fits) (h : InRange tx) (hne : entries tx ≠ []) :
    ∃ next cells' samples, generateLoop xlaw silence allocated cells tx = some (next, cells', samples) ∧
      InRange next ∧ Plays accepted (played ++ samples) next := by
  induction cells generalizing tx played with
  | nil => exact ⟨tx, [], [], rfl, h, by rwa [List.append_nil]⟩
  | cons cell cells ih =>
    obtain ⟨counted, isEnd, heq, hrange, hend, hplay⟩ := hp.round xlaw hfits h hne
    rw [generateLoop, heq, Option.bind_eq_bind, Option.bind_some]
    cases isEnd with
    | true =>
      exact ⟨counted, _, [], rfl, hrange, by rw [List.append_nil]; exact hend rfl⟩
    | false =>
      obtain ⟨next, byte, s, hsample, hnext, hne', hp'⟩ := hplay rfl
      obtain ⟨last, cells', samples, hrest, hlast, hp''⟩ := ih hp' hnext hne'
      refine ⟨last, some byte :: cells', s :: samples, ?_, hlast, ?_⟩
      · simp only [hsample, hrest, Bool.false_eq_true, if_false, Option.bind_eq_bind, Option.bind_some]
        rfl
      · rwa [List.append_assoc] at hp''

theorem generate_plays (xlaw : Xlaw) (ppM : Option (List Cell)) (memory : Bool)
    {accepted : List Entry} {played : List Sample} {tx : DtmfInfoTx} (hp : Plays accepted played tx)
    (hfits : ∀ e ∈ accepted, e.Fits) (h : InRange tx) :
    ∃ next m samples, generate xlaw tx ppM memory = some (next, m, samples) ∧ InRange next ∧
      Plays accepted (played ++ samples) next := by
  have hstay : InRange tx ∧ Plays accepted (played ++ []) tx := ⟨h, by rwa [List.append_nil]⟩
  by_cases hempty : tx.inputPos = tx.outputPos
  · exact ⟨tx, ppM, [], if_pos hempty, hstay⟩
  · have hne : entries tx ≠ [] := fun hnil => hempty ((entries_eq_nil h).mp hnil)
    cases ppM with
    | some m =>
      obtain ⟨next, m', samples, heq, hnext⟩ := generateLoop_plays xlaw 0 false m hp hfits h hne
      refine ⟨next, some m', samples, ?_, hnext⟩
      rw [generate, if_neg hempty]
      simp only [heq, Option.bind_eq_bind, Option.bind_some]
      rfl
    | none =>
      cases memory with
      | false => exact ⟨tx, none, [], if_neg hempty, hstay⟩
      | true =>
        obtain ⟨next, m', samples, heq, hnext⟩ := generateLoop_plays xlaw
          (compand xlaw tx.bsubprot 0) true (List.replicate 800 none) hp hfits h hne
        refine ⟨next, some m', samples, ?_, hnext⟩
        rw [generate, if_neg hempty]
        simp only [heq, Option.bind_eq_bind, Option.bind_some, if_true]
        rfl

/-- The digits that were accepted. -/
def acceptedOf (events : List Event) : List Digit :=
  events.filterMap fun | .accepted d => some d | .played _ => none

/-- The samples that were played. -/
def playedOf (events : List Event) : List Sample :=
  events.filterMap fun | .accepted _ => none | .played s => some s

/-- The invariant: the positions, and what was played of the digits that were accepted. -/
def Valid (tx : DtmfInfoTx) (events : List Event) : Prop :=
  InRange tx ∧ Plays ((acceptedOf events).flatMap Digit.entries) (playedOf events) tx

theorem valid_init (bsubprot : Bsubprot) : Valid (init bsubprot) [] :=
  ⟨⟨Nat.zero_lt_succ 31, Nat.zero_lt_succ 31⟩, [], [], [], rfl, by simp, rfl, .none rfl rfl rfl⟩

theorem playedOf_map (samples : List Sample) : playedOf (samples.map .played) = samples := by
  induction samples with
  | nil => rfl
  | cons s samples ih => exact congrArg (s :: ·) ih

theorem acceptedOf_map (samples : List Sample) : acceptedOf (samples.map .played) = [] := by
  induction samples with
  | nil => rfl
  | cons s samples ih => exact ih

/-- More digits wait behind those that wait. -/
theorem Plays.queue {accepted new : List Entry} {played : List Sample} {tx next : DtmfInfoTx}
    (hp : Plays accepted played tx) (hring : entries next = entries tx ++ new) (hnew : new ≠ [])
    (h0 : next.omega0 = tx.omega0) (h1 : next.omega1 = tx.omega1) :
    Plays (accepted ++ new) played next := by
  obtain ⟨done, waiting, begun, rfl, hdone, rfl, hwaits⟩ := hp
  refine ⟨done, waiting ++ new, begun, List.append_assoc _ _ _, hdone, rfl, ?_⟩
  cases hwaits with
  | none hempty hz0 hz1 =>
    obtain ⟨e, rest, rfl⟩ := List.exists_cons_of_ne_nil hnew
    rw [hempty] at hring
    exact @Waits.first next e rest 0 e.duration hring (.inl (Nat.zero_add _))
      (by rw [h0, hz0, Nat.zero_mul]) (by rw [h1, hz1, Nat.zero_mul])
  | first hentries hleft hw0 hw1 =>
    rw [hentries] at hring
    exact .first hring hleft (h0.trans hw0) (h1.trans hw1)

/-- **One call.** -/
theorem Valid.run (xlaw : Xlaw) {tx : DtmfInfoTx} {events : List Event} (h : Valid tx events)
    (call : Call) : ∃ next new, call.run xlaw tx = some (next, new) ∧ Valid next (events ++ new) := by
  obtain ⟨hrange, hp⟩ := h
  cases call with
  | queueDigit d =>
    obtain ⟨next, heq, hnext, h0, h1, hcase⟩ := queueDigit_some hrange d
    rcases hcase with ⟨rfl, -⟩ | ⟨hmoved, hring⟩
    · refine ⟨next, [], ?_, hrange, by rwa [List.append_nil]⟩
      simp only [Call.run, heq, Option.bind_eq_bind, Option.bind_some, if_true]
      rfl
    · refine ⟨next, [.accepted d], ?_, hnext, ?_⟩
      · simp only [Call.run, heq, Option.bind_eq_bind, Option.bind_some, if_neg hmoved]
        rfl
      · have haccepted : (acceptedOf (events ++ [.accepted d])).flatMap Digit.entries =
            (acceptedOf events).flatMap Digit.entries ++ d.entries := by
          rw [acceptedOf, List.filterMap_append, List.flatMap_append]
          simp [acceptedOf]
        have hplayed : playedOf (events ++ [.accepted d]) = playedOf events := by
          rw [playedOf, List.filterMap_append]
          exact List.append_nil _
        rw [haccepted, hplayed]
        exact hp.queue hring (by simp [Digit.entries]) h0 h1
  | generate ppM memory =>
    have hfits : ∀ e ∈ (acceptedOf events).flatMap Digit.entries, e.Fits := by
      intro e he
      obtain ⟨d, -, hd⟩ := List.mem_flatMap.mp he
      exact Digit.fits hd
    obtain ⟨next, m, samples, heq, hnext, hp'⟩ := generate_plays xlaw ppM memory hp hfits hrange
    refine ⟨next, samples.map .played, ?_, hnext, ?_⟩
    · simp only [Call.run, heq, Option.bind_eq_bind, Option.bind_some]
      rfl
    · have haccepted : acceptedOf (events ++ samples.map .played) = acceptedOf events := by
        rw [acceptedOf, List.filterMap_append]
        exact (congrArg (acceptedOf events ++ ·) (acceptedOf_map samples)).trans (List.append_nil _)
      have hplayed : playedOf (events ++ samples.map .played) = playedOf events ++ samples := by
        rw [playedOf, List.filterMap_append]
        exact congrArg (playedOf events ++ ·) (playedOf_map samples)
      rw [haccepted, hplayed]
      exact hp'

end Queue
end Dtmf
end Isdn4bsd
