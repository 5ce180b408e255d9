import Mathlib.Tactic

/-!
# DTMF: the generator

Digits wait in a ring of entries, a tone and a gap for each digit.  `i4b_dtmf_generate` writes their
samples into a buffer that was handed in, or into one that it allocates.  A buffer of its own starts out
with whatever the memory holds, so that all of it has to be written.

* `samples` : how many samples the ring still stands for.
* `generateLoop_supplied` : **what is behind the samples stays**, if the buffer was handed in.
* `written_iff` : **a buffer of its own is written to its end** if and only if the ring ends at its last
  byte, or behind it.
* `generator_fills` : the same of every sequence of calls.

## The memory of a buffer

A byte is a `Cell`, which has a value once it was written.  In a buffer that was just allocated no cell has one.
When the ring is empty before the buffer is full, the source fills up with silence, but by one byte too few: the
length has been counted down for the byte at hand before the loop for the rest is entered.  So the last byte is the
one that is never written, unless a sample is at it.

## How many samples a ring has

An entry has a number of samples, which is counted down, and when it is zero the next entry is taken at the
same sample.  This sample is not counted for the new entry, so an entry that follows another one has one sample more
than its duration says, and the first one has not.  `samples` adds them up; it goes down by one with each
round of the loop (`samples_counted`, `samples_nextEntry`), which is all that is needed of the ring here.
-/

set_option autoImplicit false

namespace Isdn4bsd
namespace Dtmf

/-- The tables of `i4b_convert_xlaw.c`: the sine, and the companding by `i4b_signed_to_ulaw` and
`i4b_signed_to_alaw`. -/
structure Xlaw where
  sineToSigned : ℕ → ℤ
  signedToUlaw : ℤ → UInt8
  signedToAlaw : ℤ → UInt8

/-- `I4B_B_SUB_PROTOCOLS`. -/
inductive Bsubprot
  | unknown
  | g711Alaw
  | g711Ulaw
  | plainAlaw
  | plainUlaw
  | signed8bit
  | muted
  deriving DecidableEq, Repr

/-- `struct i4b_dtmf_info_tx`. -/
structure DtmfTx where
  freq0 : Fin 32 → ℕ
  freq1 : Fin 32 → ℕ
  duration : Fin 32 → ℕ
  omega0 : ℕ
  omega1 : ℕ
  inputPos : Fin 32
  outputPos : Fin 32
  bsubprot : Bsubprot

/-- `i4b_dtmf_init_tx`. -/
def i4bDtmfInitTx (bsubprot : Bsubprot) : DtmfTx where
  freq0 := fun _ => 0
  freq1 := fun _ => 0
  duration := fun _ => 0
  omega0 := 0
  omega1 := 0
  inputPos := 0
  outputPos := 0
  bsubprot := bsubprot

/-- `dtmf_to_freq`, without its last line. -/
def dtmfToFreq : List (ℕ × ℕ × UInt8) :=
  [(941, 1477, 0x23), (941, 1209, 0x2A), (941, 1336, 0x30), (697, 1209, 0x31), (697, 1336, 0x32),
   (697, 1477, 0x33), (770, 1209, 0x34), (770, 1336, 0x35), (770, 1477, 0x36), (852, 1209, 0x37),
   (852, 1336, 0x38), (852, 1477, 0x39), (697, 1633, 0x41), (770, 1633, 0x42), (852, 1633, 0x43),
   (941, 1633, 0x44)]

/-- The two frequencies of a key.  A key that is not in the table has those of the last line. -/
def lookup (digit : UInt8) : ℕ × ℕ :=
  match dtmfToFreq.find? (fun line => line.2.2 == digit) with
  | some line => (line.1, line.2.1)
  | none => (0, 0)

/-- From milliseconds to samples. -/
def numSamples (duration : ℕ) : ℕ :=
  let duration := if duration > 0x1FFF then 0x1FFF else duration
  (if duration = 0 then 40 else duration) * 8

/-- `i4b_dtmf_queue_digit`. -/
def i4bDtmfQueueDigit (tx : DtmfTx) (digit : UInt8) (toneDuration gapDuration : UInt16) : DtmfTx :=
  let nextPos0 := tx.outputPos + 1
  let nextPos1 := nextPos0 + 1
  if nextPos0 = tx.inputPos ∨ nextPos1 = tx.inputPos then tx
  else
    { tx with
      freq0 := Function.update (Function.update tx.freq0 tx.outputPos (lookup digit).1) nextPos0 0
      freq1 := Function.update (Function.update tx.freq1 tx.outputPos (lookup digit).2) nextPos0 0
      duration := Function.update
        (Function.update tx.duration tx.outputPos (numSamples toneDuration.toNat))
        nextPos0 (numSamples gapDuration.toNat)
      outputPos := nextPos1 }

/-! ## The generator -/

/-- A byte of memory, if it was written. -/
abbrev Cell := Option UInt8

/-- One value for the line. -/
def compand (xlaw : Xlaw) (bsubprot : Bsubprot) (temp : ℤ) : UInt8 :=
  if bsubprot = .g711Ulaw then xlaw.signedToUlaw temp else xlaw.signedToAlaw temp

/-- The value of both sines. -/
def tone (xlaw : Xlaw) (tx : DtmfTx) : UInt8 :=
  compand xlaw tx.bsubprot
    ((xlaw.sineToSigned tx.omega0 + xlaw.sineToSigned tx.omega1).tdiv 4)

/-- An angle, one sample later. -/
def turn (omega freq : ℕ) : ℕ :=
  let omega := omega + freq
  if omega ≥ 8000 then omega - 8000 else omega

/-- Both angles, one sample later. -/
def turned (tx : DtmfTx) : DtmfTx :=
  { tx with
    omega0 := turn tx.omega0 (tx.freq0 tx.inputPos)
    omega1 := turn tx.omega1 (tx.freq1 tx.inputPos) }

/-- The next entry. -/
def nextEntry (tx : DtmfTx) : DtmfTx :=
  { tx with omega0 := 0, omega1 := 0, inputPos := tx.inputPos + 1 }

/-- One sample less of the entry. -/
def counted (tx : DtmfTx) : DtmfTx :=
  { tx with duration := Function.update tx.duration tx.inputPos (tx.duration tx.inputPos - 1) }

/-- `while (len--) *ptr++ = silence`. -/
def fillSilence (silence : UInt8) : ℕ → List Cell → List Cell
  | len + 1, _ :: cells => some silence :: fillSilence silence len cells
  | _, cells => cells

/-- The loop of `i4b_dtmf_generate`, with what is left of the buffer: `ptr` is at its first cell, and
`len` is its length. -/
def generateLoop (xlaw : Xlaw) (silence : UInt8) (allocated : Bool) :
    List Cell → DtmfTx → DtmfTx × List Cell
  | [], tx => (tx, [])
  | cell :: cells, tx =>
    if tx.duration tx.inputPos = 0 then
      let tx := nextEntry tx
      if tx.inputPos = tx.outputPos then
        -- `*ptr = silence` does not move `ptr`, but `len` is one less already
        (tx, if allocated then fillSilence silence cells.length (some silence :: cells)
          else cell :: cells)
      else
        let rest := generateLoop xlaw silence allocated cells (turned tx)
        (rest.1, some (tone xlaw tx) :: rest.2)
    else
      let tx := counted tx
      let rest := generateLoop xlaw silence allocated cells (turned tx)
      (rest.1, some (tone xlaw tx) :: rest.2)

/-- `i4b_dtmf_generate`: the buffer that the caller has, and whether memory can be had if it has none. -/
def i4bDtmfGenerate (xlaw : Xlaw) (tx : DtmfTx) (ppM : Option (List Cell)) (memory : Bool) :
    DtmfTx × Option (List Cell) :=
  if tx.inputPos = tx.outputPos then (tx, ppM)
  else
    match ppM with
    | some m =>
      let out := generateLoop xlaw 0 false m tx
      (out.1, some out.2)
    | none =>
      if memory then
        let out := generateLoop xlaw (compand xlaw tx.bsubprot 0) true (List.replicate 800 none) tx
        (out.1, some out.2)
      else (tx, none)

/-! ## The samples of the ring -/

/-- The samples of so many entries, from one on.  An entry that is not the first has one more than its
duration, because the sample at which it is entered is not counted. -/
def samplesFrom (duration : Fin 32 → ℕ) : ℕ → Fin 32 → ℕ
  | 0, _ => 0
  | 1, i => duration i
  | n + 2, i => duration i + 1 + samplesFrom duration (n + 1) (i + 1)

/-- The samples that are left. -/
def samples (tx : DtmfTx) : ℕ :=
  samplesFrom tx.duration (tx.outputPos - tx.inputPos).val tx.inputPos

/-- The distance to the end goes down with every entry. -/
theorem sub_val_eq {i o : Fin 32} (h : i ≠ o) : (o - i).val = (o - (i + 1)).val + 1 := by
  revert i o
  decide

theorem samplesFrom_congr {d d' : Fin 32 → ℕ} {n : ℕ} {i : Fin 32}
    (h : ∀ k < n, d (i + Fin.ofNat 32 k) = d' (i + Fin.ofNat 32 k)) :
    samplesFrom d n i = samplesFrom d' n i := by
  induction n generalizing i with
  | zero => rfl
  | succ n ih =>
    have h0 : d i = d' i := by
      have := h 0 (Nat.succ_pos n)
      rwa [show Fin.ofNat 32 0 = 0 from rfl, add_zero] at this
    cases n with
    | zero => exact h0
    | succ n =>
      rw [samplesFrom, samplesFrom, h0, ih]
      intro k hk
      have hk1 := h (k + 1) (by omega)
      have hsucc : i + Fin.ofNat 32 (k + 1) = i + 1 + Fin.ofNat 32 k := by
        rw [add_assoc]
        congr 1
        apply Fin.ext
        simp only [Fin.val_add, Fin.val_ofNat, Fin.val_one]
        omega
      rwa [hsucc] at hk1

theorem samples_turned (tx : DtmfTx) : samples (turned tx) = samples tx := rfl

/-- The last entry has no sample left. -/
theorem samples_last {tx : DtmfTx} (hne : tx.inputPos ≠ tx.outputPos)
    (h0 : tx.duration tx.inputPos = 0) (hlast : (nextEntry tx).inputPos = tx.outputPos) :
    samples tx = 0 := by
  have hnext : tx.inputPos + 1 = tx.outputPos := hlast
  rw [samples, sub_val_eq hne, ← hnext, sub_self]
  exact h0

/-- The sample at which the next entry begins. -/
theorem samples_nextEntry {tx : DtmfTx} (hne : tx.inputPos ≠ tx.outputPos)
    (h0 : tx.duration tx.inputPos = 0) (hnext : (nextEntry tx).inputPos ≠ tx.outputPos) :
    samples tx = samples (nextEntry tx) + 1 := by
  have hnext' : tx.inputPos + 1 ≠ tx.outputPos := hnext
  rw [samples, samples, sub_val_eq hne]
  change samplesFrom _ ((tx.outputPos - (tx.inputPos + 1)).val + 1) _ =
    samplesFrom _ (tx.outputPos - (tx.inputPos + 1)).val _ + 1
  rw [sub_val_eq hnext', samplesFrom, h0, Nat.zero_add, Nat.add_comm]
  rfl

/-- A sample within an entry. -/
theorem samples_counted {tx : DtmfTx} (hne : tx.inputPos ≠ tx.outputPos)
    (h0 : tx.duration tx.inputPos ≠ 0) : samples tx = samples (counted tx) + 1 := by
  have hself : (counted tx).duration tx.inputPos = tx.duration tx.inputPos - 1 :=
    Function.update_self _ _ _
  rw [samples, samples, sub_val_eq hne]
  change _ = samplesFrom _ ((tx.outputPos - tx.inputPos).val) tx.inputPos + 1
  rw [sub_val_eq hne]
  rcases hn : (tx.outputPos - (tx.inputPos + 1)).val with _ | n
  · rw [samplesFrom, samplesFrom, hself]
    omega
  · have hlt : n + 1 < 32 := hn ▸ (tx.outputPos - (tx.inputPos + 1)).isLt
    have hrest : samplesFrom tx.duration (n + 1) (tx.inputPos + 1) =
        samplesFrom (counted tx).duration (n + 1) (tx.inputPos + 1) := by
      refine samplesFrom_congr fun k hk => ?_
      refine (Function.update_of_ne (fun h => ?_) _ _).symm
      have hval := congrArg Fin.val h
      simp only [Fin.val_add, Fin.val_ofNat, Fin.val_one] at hval
      omega
    rw [samplesFrom, samplesFrom, hself, hrest]
    omega

/-! ## What the loop writes -/

@[simp] theorem fillSilence_cells (silence : UInt8) (n : ℕ) (cells : List Cell) :
    fillSilence silence n cells =
      List.replicate (min n cells.length) (some silence) ++ cells.drop n := by
  induction n generalizing cells with
  | zero => cases cells <;> simp [fillSilence]
  | succ n ih =>
    cases cells with
    | nil => simp [fillSilence]
    | cons cell cells =>
      rw [fillSilence, ih, List.length_cons, Nat.succ_min_succ, List.replicate_succ]
      rfl

/-- What the loop leaves behind the samples of the ring. -/
def rest (silence : UInt8) (allocated : Bool) (cells : List Cell) : List Cell :=
  match cells with
  | [] => []
  | _ :: cells' =>
    if allocated then fillSilence silence cells'.length (some silence :: cells') else cells

/-- **The samples of the ring come first**, as far as the buffer goes. -/
theorem generateLoop_cells (xlaw : Xlaw) (silence : UInt8) (allocated : Bool) (cells : List Cell)
    {tx : DtmfTx} (hne : tx.inputPos ≠ tx.outputPos) :
    ∃ tones : List UInt8, tones.length = min (samples tx) cells.length ∧
      (generateLoop xlaw silence allocated cells tx).2 =
        tones.map some ++ rest silence allocated (cells.drop (samples tx)) := by
  induction cells generalizing tx with
  | nil => exact ⟨[], by simp, by simp [generateLoop, rest]⟩
  | cons cell cells ih =>
    rw [generateLoop]
    have cons : ∀ {tx' : DtmfTx}, tx'.inputPos ≠ tx'.outputPos → samples tx = samples tx' + 1 →
        ∃ tones : List UInt8, tones.length = min (samples tx) (cell :: cells).length ∧
          some (tone xlaw tx') :: (generateLoop xlaw silence allocated cells (turned tx')).2 =
            tones.map some ++ rest silence allocated ((cell :: cells).drop (samples tx)) := by
      intro tx' hne' hs
      obtain ⟨tones, hlen, heq⟩ := @ih (turned tx') hne'
      rw [samples_turned] at hlen heq
      refine ⟨tone xlaw tx' :: tones, ?_, ?_⟩
      · rw [List.length_cons, hlen, hs, List.length_cons, Nat.succ_min_succ]
      · rw [heq, hs]
        rfl
    by_cases h0 : tx.duration tx.inputPos = 0
    · rw [if_pos h0]
      by_cases hlast : (nextEntry tx).inputPos = tx.outputPos
      · refine ⟨[], ?_, ?_⟩
        · rw [samples_last hne h0 hlast, Nat.zero_min]
          rfl
        · rw [samples_last hne h0 hlast]
          exact congrArg Prod.snd (if_pos hlast)
      · obtain ⟨tones, hlen, heq⟩ := cons hlast (samples_nextEntry hne h0 hlast)
        exact ⟨tones, hlen, (congrArg Prod.snd (if_neg hlast)).trans heq⟩
    · rw [if_neg h0]
      exact cons hne (samples_counted hne h0)

/-- **What is behind the samples stays**, if the buffer was handed in. -/
theorem generateLoop_supplied (xlaw : Xlaw) (silence : UInt8) (cells : List Cell) {tx : DtmfTx}
    (hne : tx.inputPos ≠ tx.outputPos) :
    ∃ tones : List UInt8, tones.length = min (samples tx) cells.length ∧
      (generateLoop xlaw silence false cells tx).2 =
        tones.map some ++ cells.drop (samples tx) := by
  obtain ⟨tones, hlen, heq⟩ := generateLoop_cells xlaw silence false cells hne
  refine ⟨tones, hlen, heq.trans ?_⟩
  rcases cells.drop (samples tx) with _ | ⟨cell, rest⟩ <;> rfl

/-- Behind the samples, all but the last byte is silence. -/
theorem mem_rest_replicate {silence : UInt8} {n : ℕ} :
    (none : Cell) ∈ rest silence true (List.replicate n none) ↔ 2 ≤ n := by
  match n with
  | 0 => simp [rest]
  | 1 => simp [rest]
  | n + 2 =>
    refine iff_of_true ?_ (by omega)
    have hlast : (some silence :: List.replicate (n + 1) (none : Cell)).drop (n + 1) = [none] := by
      rw [List.drop_succ_cons, List.drop_replicate, Nat.add_sub_cancel_left]
      rfl
    rw [List.replicate_succ]
    change none ∈ fillSilence silence _ (some silence :: List.replicate (n + 1) none)
    rw [fillSilence_cells, List.length_replicate, hlast]
    exact List.mem_append_right _ (List.mem_singleton.mpr rfl)

/-- **A buffer of its own is written to its end** if and only if the ring ends at its last byte, or
behind it. -/
theorem written_iff (xlaw : Xlaw) (silence : UInt8) {n : ℕ} {tx : DtmfTx}
    (hne : tx.inputPos ≠ tx.outputPos) :
    (∀ cell ∈ (generateLoop xlaw silence true (List.replicate n none) tx).2, cell ≠ none) ↔
      n ≤ samples tx + 1 := by
  obtain ⟨tones, -, heq⟩ := generateLoop_cells xlaw silence true (List.replicate n none) hne
  rw [heq, List.drop_replicate]
  constructor
  · intro h
    by_contra hlt
    exact h none (List.mem_append_right _ (mem_rest_replicate.mpr (by omega))) rfl
  · rintro hle cell hcell rfl
    rcases List.mem_append.mp hcell with htone | hrest
    · obtain ⟨b, -, hb⟩ := List.mem_map.mp htone
      exact absurd hb (by simp)
    · have := mem_rest_replicate.mp hrest
      omega

/-! ## Sequences of calls -/

/-- What is called. -/
inductive Call
  | initTx (bsubprot : Bsubprot)
  | queueDigit (digit : UInt8) (toneDuration gapDuration : UInt16)
  | generate (ppM : Option (List Cell)) (memory : Bool)

def Call.run (xlaw : Xlaw) (tx : DtmfTx) : Call → DtmfTx
  | .initTx bsubprot => i4bDtmfInitTx bsubprot
  | .queueDigit digit toneDuration gapDuration => i4bDtmfQueueDigit tx digit toneDuration gapDuration
  | .generate ppM memory => (i4bDtmfGenerate xlaw tx ppM memory).1

/-- A property of every call of the generator, in a sequence of calls. -/
def EachGenerate (xlaw : Xlaw) (P : DtmfTx → Option (List Cell) → Bool → Prop) :
    DtmfTx → List Call → Prop
  | _, [] => True
  | tx, call :: calls =>
    (∀ ppM memory, call = .generate ppM memory → P tx ppM memory) ∧
      EachGenerate xlaw P (call.run xlaw tx) calls

/-- What a call of the generator is to do.  If it allocates the buffer, every byte is written.  If the
buffer was handed in, it has the samples of the ring at its start, as far as it goes, and behind them what
it had. -/
def Fills (xlaw : Xlaw) (tx : DtmfTx) (ppM : Option (List Cell)) (memory : Bool) : Prop :=
  match ppM with
  | none => ∀ m, (i4bDtmfGenerate xlaw tx none memory).2 = some m → ∀ cell ∈ m, cell ≠ none
  | some m => tx.inputPos = tx.outputPos ∧ (i4bDtmfGenerate xlaw tx ppM memory).2 = some m ∨
    tx.inputPos ≠ tx.outputPos ∧ ∃ tones : List UInt8, tones.length = min (samples tx) m.length ∧
      (i4bDtmfGenerate xlaw tx ppM memory).2 = some (tones.map some ++ m.drop (samples tx))

/-- If it allocates the buffer, the ring ends at the last byte of the buffer, or behind it. -/
def Reaches (tx : DtmfTx) (ppM : Option (List Cell)) (memory : Bool) : Prop :=
  ppM = none → memory = true → tx.inputPos ≠ tx.outputPos → 799 ≤ samples tx

/-- **One call of the generator.** -/
theorem fills_iff (xlaw : Xlaw) (tx : DtmfTx) (ppM : Option (List Cell)) (memory : Bool) :
    Fills xlaw tx ppM memory ↔ Reaches tx ppM memory := by
  rw [Reaches]
  by_cases hne : tx.inputPos = tx.outputPos
  · refine iff_of_true ?_ fun _ _ h => absurd hne h
    cases ppM with
    | none =>
      intro m hm
      rw [i4bDtmfGenerate, if_pos hne] at hm
      exact absurd hm (by simp)
    | some m =>
      refine .inl ⟨hne, ?_⟩
      rw [i4bDtmfGenerate, if_pos hne]
  · cases ppM with
    | some m =>
      refine iff_of_true (.inr ⟨hne, ?_⟩) fun h => absurd h (by simp)
      obtain ⟨tones, hlen, heq⟩ := generateLoop_supplied xlaw 0 m hne
      refine ⟨tones, hlen, ?_⟩
      rw [i4bDtmfGenerate, if_neg hne]
      exact congrArg some heq
    | none =>
      cases memory with
      | false =>
        refine iff_of_true (fun m hm => ?_) fun _ h => absurd h (by simp)
        rw [i4bDtmfGenerate, if_neg hne] at hm
        exact absurd hm (by simp)
      | true =>
        have hw := written_iff xlaw (compand xlaw tx.bsubprot 0) (n := 800) hne
        constructor
        · intro h _ _ _
          have := hw.mp (h _ (by rw [i4bDtmfGenerate, if_neg hne, if_pos rfl]))
          omega
        · intro h m hm
          rw [i4bDtmfGenerate, if_neg hne, if_pos rfl] at hm
          rw [← Option.some.inj hm]
          exact hw.mpr (by have := h rfl rfl hne; omega)

/-- **The generator fills what it hands out** in a sequence of calls, from any ring, if and only if the
ring reaches the last byte of each buffer that it allocates. -/
theorem generator_fills (xlaw : Xlaw) (tx : DtmfTx) (calls : List Call) :
    EachGenerate xlaw (Fills xlaw) tx calls ↔ EachGenerate xlaw Reaches tx calls := by
  have h : Fills xlaw = Reaches := by
    funext tx ppM memory
    exact propext (fills_iff xlaw tx ppM memory)
  rw [h]

/-- One digit, with the default durations: its 641 samples end within the buffer. -/
theorem generator_short_digit : ∃ calls : List Call, ∀ xlaw : Xlaw,
    ¬ EachGenerate xlaw (Fills xlaw) (i4bDtmfInitTx .g711Alaw) calls := by
  refine ⟨[.queueDigit 0x31 0 0, .generate none true], fun xlaw h => ?_⟩
  have hreach : Reaches (i4bDtmfQueueDigit (i4bDtmfInitTx .g711Alaw) 0x31 0 0) none true :=
    (fills_iff xlaw _ _ _).mp (h.2.1 none true rfl)
  exact absurd (hreach rfl rfl (by decide)) (by decide)

end Dtmf
end Isdn4bsd
