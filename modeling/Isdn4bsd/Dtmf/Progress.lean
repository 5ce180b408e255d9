import Isdn4bsd.Dtmf.Queue

/-!
# DTMF: how far the generator gets

`Isdn4bsd.Dtmf.Queue` tells which samples are played, and in which order.  This file tells how many: a call
of the generator stops only where its buffer ends, or the ring.

The ring was embedded twice.  In `DtmfTx` an index cannot leave its array, and in `DtmfInfoTx` it can, and
the access then has no result.  Where the indices are within the arrays both do the same, call by call, so
the number of samples that a ring stands for, which was found for the first one, is that of the second one
as well.

* `DtmfInfoTx.toTx` : the one ring, seen as the other.
* `DtmfInfoTx.Bounded` : all that is looked up is within its table; it is kept by every call.
* `queueDigit_toTx`, `generate_toTx` : **both embeddings agree**.
* `Generated` : what a call of the generator does, with the bytes that it writes.
* `run_drains` : **buffers that are long enough empty the ring**.
* `digits_played` : any calls, in any order.

## Two embeddings, and why

That nothing outside of the ring is accessed cannot be said where an index cannot leave its array, and what the
memory of a buffer holds is easier to say where it cannot.  So each has its own theorem, C-like accesses with
`Option` in the one and total functions in the other, and a refinement joins them: if all that is looked up is within
its table, one call has a result, and the same one (`Call.run_toTx`, `run_toTx`).

## Progress

One round of the loop writes one byte, which is the value of one sample.  `Generated` has for a whole call: the samples
that were played are as many as both the buffer and the ring have, the bytes at the start of the buffer are their
values, and if the ring has more, the buffer is full.  Hence a sequence of calls without new digits plays, in all,
as many samples as the buffers have room for, until the ring has none (`run_drains`).
-/

set_option autoImplicit false

namespace Isdn4bsd
namespace Dtmf
namespace Queue

/-! ## Two embeddings of one ring -/

/-- A position, as an index that cannot leave the ring. -/
def index (i : ℕ) : Fin 32 := ⟨i % 32, Nat.mod_lt i (Nat.zero_lt_succ 31)⟩

theorem val_index (i : ℕ) : (index i).val = i % 32 := rfl

/-- The same ring, with indices that cannot leave it. -/
def DtmfInfoTx.toTx (tx : DtmfInfoTx) : DtmfTx where
  freq0 := fun i => tx.freq0 i.val
  freq1 := fun i => tx.freq1 i.val
  duration := fun i => tx.duration i.val
  omega0 := tx.omega0
  omega1 := tx.omega1
  inputPos := index tx.inputPos
  outputPos := index tx.outputPos
  bsubprot := tx.bsubprot

/-- All that is looked up is within its table, and what is stored fits into 16 bits. -/
structure DtmfInfoTx.Bounded (tx : DtmfInfoTx) : Prop extends InRange tx where
  freq0 : ∀ i, tx.freq0 i < 8000
  freq1 : ∀ i, tx.freq1 i < 8000
  duration : ∀ i, tx.duration i < 65536
  omega0 : tx.omega0 < 8000
  omega1 : tx.omega1 < 8000

theorem bounded_init (bsubprot : Bsubprot) : (init bsubprot).Bounded :=
  ⟨⟨Nat.zero_lt_succ _, Nat.zero_lt_succ _⟩, fun _ => Nat.zero_lt_succ _, fun _ => Nat.zero_lt_succ _,
    fun _ => Nat.zero_lt_succ _, Nat.zero_lt_succ _, Nat.zero_lt_succ _⟩

theorem index_inj {i j : ℕ} (hi : i < nDigits) (hj : j < nDigits) :
    index i = index j ↔ i = j := by
  rw [nDigits_eq] at hi hj
  rw [Fin.ext_iff, val_index, val_index, Nat.mod_eq_of_lt hi, Nat.mod_eq_of_lt hj]

/-- The next position is the next index. -/
theorem index_next {i : ℕ} (h : i < nDigits) :
    index (Ring.next nDigits i) = index i + 1 := by
  rw [← succ_mod h]
  rw [nDigits_eq] at *
  apply Fin.ext
  simp only [Fin.val_add, val_index, Fin.val_one]
  omega

theorem val_inputPos {tx : DtmfInfoTx} (h : InRange tx) : tx.toTx.inputPos.val = tx.inputPos :=
  Nat.mod_eq_of_lt h.input

/-- The ring is empty in both embeddings, or in none. -/
theorem toTx_empty {tx : DtmfInfoTx} (h : InRange tx) :
    tx.toTx.inputPos = tx.toTx.outputPos ↔ tx.inputPos = tx.outputPos := index_inj h.input h.output

/-- An array is written in both embeddings. -/
theorem update_val {xs : ℕ → ℕ} {i x : ℕ} (h : i < nDigits) :
    (fun k : Fin 32 => Function.update xs i x k.val) =
      Function.update (fun k : Fin 32 => xs k.val) (index i) x := by
  have hi : (index i).val = i := Nat.mod_eq_of_lt h
  funext k
  by_cases hk : k = index i
  · subst hk
    rw [Function.update_self, hi, Function.update_self]
  · have hne : k.val ≠ i := fun h' => hk (Fin.ext (h'.trans hi.symm))
    rw [Function.update_of_ne hne, Function.update_of_ne hk]

theorem update_lt {xs : ℕ → ℕ} {i x n : ℕ} (h : ∀ k, xs k < n) (hx : x < n) (k : ℕ) :
    Function.update xs i x k < n := by
  by_cases hk : k = i
  · subst hk
    rwa [Function.update_self]
  · rw [Function.update_of_ne hk]
    exact h k

/-- The entry that is written, in full. -/
theorem storeEntry_eq {tx : DtmfInfoTx} {i freq0 freq1 duration : ℕ} (hi : i < nDigits)
    (h0 : freq0 < 8000) (h1 : freq1 < 8000) (hd : duration < 65536) :
    storeEntry tx i freq0 freq1 duration = some { tx with
      freq0 := Function.update tx.freq0 i freq0
      freq1 := Function.update tx.freq1 i freq1
      duration := Function.update tx.duration i duration } := by
  rw [storeEntry, store, store, store, if_pos hi, if_pos hi, if_pos hi, Nat.mod_eq_of_lt (by omega),
    Nat.mod_eq_of_lt (by omega), Nat.mod_eq_of_lt hd]
  rfl

theorem bounded_storeEntry {tx : DtmfInfoTx} (h : tx.Bounded) {i freq0 freq1 duration : ℕ}
    (h0 : freq0 < 8000) (h1 : freq1 < 8000) (hd : duration < 65536) :
    DtmfInfoTx.Bounded { tx with
      freq0 := Function.update tx.freq0 i freq0
      freq1 := Function.update tx.freq1 i freq1
      duration := Function.update tx.duration i duration } :=
  ⟨⟨h.input, h.output⟩, update_lt h.freq0 h0, update_lt h.freq1 h1, update_lt h.duration hd, h.omega0,
    h.omega1⟩

/-- **A digit is queued alike** in both embeddings. -/
theorem queueDigit_toTx {tx : DtmfInfoTx} (h : tx.Bounded) (digit : UInt8)
    (toneDuration gapDuration : UInt16) :
    ∃ next, queueDigit tx digit toneDuration gapDuration = some next ∧ next.Bounded ∧
      next.bsubprot = tx.bsubprot ∧
      next.toTx = i4bDtmfQueueDigit tx.toTx digit toneDuration gapDuration := by
  have hnext := Ring.next_lt h.output
  have hnext' := Ring.next_lt hnext
  have h0 : tx.toTx.outputPos + 1 = index (Ring.next nDigits tx.outputPos) :=
    (index_next h.output).symm
  have h1 : index (Ring.next nDigits tx.outputPos) + 1 =
      index (Ring.next nDigits (Ring.next nDigits tx.outputPos)) := (index_next hnext).symm
  have hfull : (index (Ring.next nDigits tx.outputPos) = tx.toTx.inputPos ∨
      index (Ring.next nDigits (Ring.next nDigits tx.outputPos)) = tx.toTx.inputPos) ↔
      (Ring.next nDigits tx.outputPos = tx.inputPos ∨
        Ring.next nDigits (Ring.next nDigits tx.outputPos) = tx.inputPos) :=
    or_congr (index_inj hnext h.input) (index_inj hnext' h.input)
  rw [queueDigit, i4bDtmfQueueDigit, succ_mod h.output, succ_mod hnext]
  simp only [h0, h1, hfull]
  by_cases hf : Ring.next nDigits tx.outputPos = tx.inputPos ∨
      Ring.next nDigits (Ring.next nDigits tx.outputPos) = tx.inputPos
  · rw [if_pos hf, if_pos hf]
    exact ⟨tx, rfl, h, rfl, rfl⟩
  · rw [if_neg hf, if_neg hf]
    obtain ⟨hl0, hl1⟩ := lookup_lt digit
    have ht := (numSamples_le toneDuration.toNat).trans_lt (show 65528 < 65536 by decide)
    have hg := (numSamples_le gapDuration.toNat).trans_lt (show 65528 < 65536 by decide)
    have hz : 0 < 8000 := by decide
    have hb := bounded_storeEntry (bounded_storeEntry h hl0 hl1 ht (i := tx.outputPos)) hz hz hg
      (i := Ring.next nDigits tx.outputPos)
    simp only [storeEntry_eq h.output hl0 hl1 ht, storeEntry_eq hnext hz hz hg, Option.bind_eq_bind,
      Option.bind_some]
    refine ⟨_, rfl, ⟨⟨h.input, hnext'⟩, hb.freq0, hb.freq1, hb.duration, h.omega0, h.omega1⟩, rfl, ?_⟩
    simp only [DtmfInfoTx.toTx, update_val hnext, update_val h.output]

/-! ## One sample -/

/-- The value of a sample for the line. -/
def Sample.byte (xlaw : Xlaw) (bsubprot : Bsubprot) (s : Sample) : UInt8 :=
  compand xlaw bsubprot ((xlaw.sineToSigned s.omega0 + xlaw.sineToSigned s.omega1).tdiv 4)

theorem advance_turn {omega freq : ℕ} (h : omega < 8000) (hf : freq < 8000) :
    advance omega freq = turn omega freq ∧ turn omega freq < 8000 := by
  rw [advance, turn, Nat.mod_eq_of_lt (by omega)]
  refine ⟨rfl, ?_⟩
  split_ifs <;> omega

/-- **A sample is played alike.** -/
theorem playSample_toTx (xlaw : Xlaw) {tx : DtmfInfoTx} (h : tx.Bounded) :
    ∃ next s, playSample xlaw tx = some (next, s.byte xlaw tx.bsubprot, s) ∧ next.Bounded ∧
      next.bsubprot = tx.bsubprot ∧ next.toTx = turned tx.toTx ∧ next.inputPos = tx.inputPos ∧
      next.outputPos = tx.outputPos ∧ tone xlaw tx.toTx = s.byte xlaw tx.bsubprot := by
  obtain ⟨he0, hl0⟩ := advance_turn h.omega0 (h.freq0 tx.inputPos)
  obtain ⟨he1, hl1⟩ := advance_turn h.omega1 (h.freq1 tx.inputPos)
  refine ⟨{ tx with
      omega0 := advance tx.omega0 (tx.freq0 tx.inputPos)
      omega1 := advance tx.omega1 (tx.freq1 tx.inputPos) },
    ⟨tx.freq0 tx.inputPos, tx.freq1 tx.inputPos, tx.omega0, tx.omega1⟩, ?_,
    ⟨⟨h.input, h.output⟩, h.freq0, h.freq1, h.duration, he0.trans_lt hl0, he1.trans_lt hl1⟩, rfl, ?_,
    rfl, rfl, rfl⟩
  · rw [playSample, sine, sine, if_pos h.omega0, if_pos h.omega1, load_eq h.input, load_eq h.input]
    rfl
  · rw [turned, he0, he1]
    simp only [DtmfInfoTx.toTx, val_index, Nat.mod_eq_of_lt (show tx.inputPos < 32 from h.input)]

/-- **A sample is counted alike**, within an entry. -/
theorem countSample_counted {tx : DtmfInfoTx} (h : tx.Bounded) (hd : tx.duration tx.inputPos ≠ 0) :
    ∃ next, countSample tx = some (next, false) ∧ next.Bounded ∧ next.bsubprot = tx.bsubprot ∧
      next.toTx = counted tx.toTx ∧ next.inputPos = tx.inputPos ∧ next.outputPos = tx.outputPos := by
  have hlt : tx.duration tx.inputPos - 1 < 65536 := (Nat.sub_le _ _).trans_lt (h.duration _)
  refine ⟨{ tx with
    duration := Function.update tx.duration tx.inputPos (tx.duration tx.inputPos - 1) }, ?_,
    ⟨⟨h.input, h.output⟩, h.freq0, h.freq1, update_lt h.duration hlt, h.omega0, h.omega1⟩, rfl, ?_, rfl,
    rfl⟩
  · rw [countSample, load_eq h.input, Option.bind_eq_bind, Option.bind_some, if_neg hd, store,
      if_pos h.input, Nat.mod_eq_of_lt hlt]
    rfl
  · have hval := val_inputPos h.toInRange
    simp only [DtmfInfoTx.toTx] at hval ⊢
    simp only [counted, update_val h.input, hval]

/-- **The next entry is entered alike**, and it is known whether there is one. -/
theorem countSample_nextEntry {tx : DtmfInfoTx} (h : tx.Bounded) (hd : tx.duration tx.inputPos = 0) :
    ∃ next, countSample tx = some (next, decide (next.inputPos = next.outputPos)) ∧ next.Bounded ∧
      next.bsubprot = tx.bsubprot ∧ next.toTx = nextEntry tx.toTx := by
  have hpos : (if tx.inputPos + 1 ≥ nDigits then 0 else tx.inputPos + 1) =
      Ring.next nDigits tx.inputPos := by
    have := h.input
    rw [Ring.next]
    split_ifs <;> omega
  refine ⟨{ tx with omega0 := 0, omega1 := 0, inputPos := Ring.next nDigits tx.inputPos }, ?_,
    ⟨⟨Ring.next_lt h.input, h.output⟩, h.freq0, h.freq1, h.duration, Nat.zero_lt_succ _,
      Nat.zero_lt_succ _⟩, rfl, ?_⟩
  · rw [countSample, load_eq h.input, Option.bind_eq_bind, Option.bind_some, if_pos hd]
    simp only [hpos]
    rfl
  · simp only [DtmfInfoTx.toTx, nextEntry, index_next h.input]

/-! ## The loop -/

/-- **What the loop does** with a buffer: it does what the other embedding does, and it plays what the ring
and the buffer have both, writing the value of each sample.  It ends at the end of the ring if there is
still a byte left then. -/
structure Generated (xlaw : Xlaw) (silence : UInt8) (allocated : Bool) (cells : List Cell)
    (tx next : DtmfInfoTx) (cells' : List Cell) (played : List Sample) : Prop where
  bounded : next.Bounded
  bsubprot : next.bsubprot = tx.bsubprot
  agrees : Dtmf.generateLoop xlaw silence allocated cells tx.toTx = (next.toTx, cells')
  bytes : cells' = (played.map fun s => some (s.byte xlaw tx.bsubprot)) ++
    rest silence allocated (cells.drop played.length)
  length : played.length = min (samples tx.toTx) cells.length
  left : samples next.toTx = samples tx.toTx - cells.length
  ends : samples tx.toTx < cells.length → next.inputPos = next.outputPos

theorem samples_of_empty {tx : DtmfTx} (h : tx.inputPos = tx.outputPos) : samples tx = 0 := by
  rw [samples, h, sub_self]
  rfl

/-- One more sample before those of the rest of the buffer. -/
theorem Generated.cons {xlaw : Xlaw} {silence : UInt8} {allocated : Bool} {cell : Cell}
    {cells cells' : List Cell} {tx mid after next : DtmfInfoTx} {s : Sample} {played : List Sample}
    (h : Generated xlaw silence allocated cells after next cells' played)
    (hs : samples tx.toTx = samples mid.toTx + 1) (hafter : after.toTx = turned mid.toTx)
    (hmid : mid.bsubprot = tx.bsubprot) (hsub : after.bsubprot = mid.bsubprot)
    (hbyte : tone xlaw mid.toTx = s.byte xlaw mid.bsubprot)
    (hplain : Dtmf.generateLoop xlaw silence allocated (cell :: cells) tx.toTx =
      let rest := Dtmf.generateLoop xlaw silence allocated cells (turned mid.toTx)
      (rest.1, some (tone xlaw mid.toTx) :: rest.2)) :
    Generated xlaw silence allocated (cell :: cells) tx next
      (some (s.byte xlaw tx.bsubprot) :: cells') (s :: played) := by
  have hsub' := hsub.trans hmid
  have hs' : samples tx.toTx = samples after.toTx + 1 := by rw [hs, hafter, samples_turned]
  refine ⟨h.bounded, h.bsubprot.trans hsub', ?_, ?_, ?_, ?_, fun hlt => h.ends ?_⟩
  · rw [hplain, ← hafter, h.agrees, hbyte, hmid]
  · rw [h.bytes, hsub']
    rfl
  · rw [List.length_cons, h.length, hs', List.length_cons, Nat.succ_min_succ]
  · rw [h.left, hs', List.length_cons, Nat.add_sub_add_right]
  · rw [hs', List.length_cons] at hlt
    exact Nat.lt_of_succ_lt_succ hlt

/-- **The loop**, over any buffer. -/
theorem generateLoop_generated (xlaw : Xlaw) (silence : UInt8) (allocated : Bool) (cells : List Cell)
    {tx : DtmfInfoTx} (h : tx.Bounded) (hne : tx.inputPos ≠ tx.outputPos) :
    ∃ next cells' played, generateLoop xlaw silence allocated cells tx = some (next, cells', played) ∧
      Generated xlaw silence allocated cells tx next cells' played := by
  induction cells generalizing tx with
  | nil =>
    exact ⟨tx, [], [], rfl, h, rfl, rfl, rfl, by simp, rfl, fun hlt => absurd hlt (Nat.not_lt_zero _)⟩
  | cons cell cells ih =>
    have hne' : tx.toTx.inputPos ≠ tx.toTx.outputPos := fun heq => hne ((toTx_empty h.toInRange).mp heq)
    have hval : tx.toTx.duration tx.toTx.inputPos = tx.duration tx.inputPos :=
      congrArg tx.duration (val_inputPos h.toInRange)
    -- the rest of the buffer, once it is known which sample is at its first byte
    have play : ∀ {mid : DtmfInfoTx}, mid.Bounded → mid.inputPos ≠ mid.outputPos →
        mid.bsubprot = tx.bsubprot → samples tx.toTx = samples mid.toTx + 1 →
        countSample tx = some (mid, false) →
        (Dtmf.generateLoop xlaw silence allocated (cell :: cells) tx.toTx =
          let rest := Dtmf.generateLoop xlaw silence allocated cells (turned mid.toTx)
          (rest.1, some (tone xlaw mid.toTx) :: rest.2)) →
        ∃ next cells' played,
          generateLoop xlaw silence allocated (cell :: cells) tx = some (next, cells', played) ∧
            Generated xlaw silence allocated (cell :: cells) tx next cells' played := by
      intro mid hmid hmidne hsub hs hcount hplain
      obtain ⟨after, s, hplay, hafter, hsub', hturned, hi, ho, hbyte⟩ := playSample_toTx xlaw hmid
      obtain ⟨next, cells', played, heq, hg⟩ := ih hafter (by rwa [hi, ho])
      refine ⟨next, _, s :: played, ?_, hg.cons hs hturned hsub hsub' hbyte hplain⟩
      rw [generateLoop, hcount, Option.bind_eq_bind, Option.bind_some]
      simp only [hplay, heq, hsub, Bool.false_eq_true, if_false, Option.bind_eq_bind, Option.bind_some]
      rfl
    by_cases hd : tx.duration tx.inputPos = 0
    · obtain ⟨mid, hcount, hmid, hsub, hto⟩ := countSample_nextEntry h hd
      have hd' := hval.trans hd
      have hiff := toTx_empty hmid.toInRange
      rw [hto] at hiff
      by_cases hend : mid.inputPos = mid.outputPos
      · -- the ring is at its end, and one byte of the buffer is lost
        have hlast : (nextEntry tx.toTx).inputPos = tx.toTx.outputPos := hiff.mpr hend
        have hzero := samples_last hne' hd' hlast
        rw [decide_eq_true hend] at hcount
        refine ⟨mid, _, [], ?_, hmid, hsub, ?_, rfl, ?_, ?_, fun _ => hend⟩
        · rw [generateLoop, hcount]
          rfl
        · rw [Dtmf.generateLoop, if_pos hd']
          dsimp only
          rw [if_pos (hiff.mpr hend), hto]
          rfl
        · rw [hzero, Nat.zero_min]
          rfl
        · rw [hzero, Nat.zero_sub, samples_of_empty (by rw [hto]; exact hlast)]
      · have hlast : (nextEntry tx.toTx).inputPos ≠ tx.toTx.outputPos := fun h => hend (hiff.mp h)
        rw [decide_eq_false hend] at hcount
        refine play hmid hend hsub (by rw [hto]; exact samples_nextEntry hne' hd' hlast) hcount ?_
        rw [Dtmf.generateLoop, if_pos hd']
        dsimp only
        rw [if_neg fun h => hend (hiff.mp h), hto]
    · obtain ⟨mid, hcount, hmid, hsub, hto, hi, ho⟩ := countSample_counted h hd
      have hd' : tx.toTx.duration tx.toTx.inputPos ≠ 0 := fun h => hd (hval.symm.trans h)
      refine play hmid (by rwa [hi, ho]) hsub (by rw [hto]; exact samples_counted hne' hd') hcount ?_
      rw [Dtmf.generateLoop, if_neg hd', hto]

/-! ## One call -/

/-- The bytes of the buffer that a call of the generator has. -/
def room : Option (List Cell) → Bool → ℕ
  | some m, _ => m.length
  | none, true => 800
  | none, false => 0

/-- **What a call of the generator does.**  It plays as many samples as both the ring and the buffer have,
and the bytes at the start of the buffer are their values.  Behind them a buffer that was handed in stays as
it was.  Where the buffer has more bytes than the ring has samples, the ring is empty afterwards. -/
structure Generates (xlaw : Xlaw) (ppM : Option (List Cell)) (memory : Bool) (tx next : DtmfInfoTx)
    (m : Option (List Cell)) (played : List Sample) : Prop where
  bounded : next.Bounded
  bsubprot : next.bsubprot = tx.bsubprot
  agrees : i4bDtmfGenerate xlaw tx.toTx ppM memory = (next.toTx, m)
  supplied : ∀ cells, ppM = some cells →
    m = some ((played.map fun s => some (s.byte xlaw tx.bsubprot)) ++ cells.drop played.length)
  allocated : ppM = none → played = [] ∨
    ∃ behind, m = some ((played.map fun s => some (s.byte xlaw tx.bsubprot)) ++ behind)
  length : played.length = min (samples tx.toTx) (room ppM memory)
  left : samples next.toTx = samples tx.toTx - room ppM memory
  ends : samples tx.toTx < room ppM memory → next.inputPos = next.outputPos

/-- There is nothing to play. -/
theorem generates_empty (xlaw : Xlaw) (ppM : Option (List Cell)) (memory : Bool) {tx : DtmfInfoTx}
    (h : tx.Bounded) (hempty : tx.inputPos = tx.outputPos) :
    generate xlaw tx ppM memory = some (tx, ppM, []) ∧ Generates xlaw ppM memory tx tx ppM [] := by
  have hplain : tx.toTx.inputPos = tx.toTx.outputPos := (toTx_empty h.toInRange).mpr hempty
  have hzero := samples_of_empty hplain
  refine ⟨if_pos hempty, h, rfl, if_pos hplain, fun cells hcells => hcells, fun _ => .inl rfl, ?_, ?_,
    fun _ => hempty⟩
  · rw [hzero, Nat.zero_min]
    rfl
  · rw [hzero, Nat.zero_sub]

/-- **The generator**, in both embeddings. -/
theorem generate_toTx (xlaw : Xlaw) (ppM : Option (List Cell)) (memory : Bool) {tx : DtmfInfoTx}
    (h : tx.Bounded) :
    ∃ next m played, generate xlaw tx ppM memory = some (next, m, played) ∧
      Generates xlaw ppM memory tx next m played := by
  by_cases hempty : tx.inputPos = tx.outputPos
  · exact ⟨tx, ppM, [], generates_empty xlaw ppM memory h hempty⟩
  · have hplain : tx.toTx.inputPos ≠ tx.toTx.outputPos := fun heq =>
      hempty ((toTx_empty h.toInRange).mp heq)
    cases ppM with
    | some cells =>
      obtain ⟨next, cells', played, heq, hg⟩ := generateLoop_generated xlaw 0 false cells h hempty
      have hrest : rest 0 false (cells.drop played.length) = cells.drop played.length := by
        rcases cells.drop played.length with _ | ⟨cell, cells⟩ <;> rfl
      refine ⟨next, some cells', played, ?_, hg.bounded, hg.bsubprot, ?_, ?_,
        fun hnone => absurd hnone (Option.some_ne_none cells), hg.length, hg.left, hg.ends⟩
      · rw [generate, if_neg hempty]
        simp only [heq, Option.bind_eq_bind, Option.bind_some]
        rfl
      · rw [i4bDtmfGenerate, if_neg hplain]
        simp only [hg.agrees]
      · rintro _ ⟨⟩
        rw [hg.bytes, hrest]
    | none =>
      cases memory with
      | false =>
        exact ⟨tx, none, [], if_neg hempty, h, rfl, if_neg hplain,
          fun cells hcells => absurd hcells.symm (Option.some_ne_none cells), fun _ => .inl rfl,
          (Nat.min_zero _).symm, rfl, fun hlt => absurd hlt (Nat.not_lt_zero _)⟩
      | true =>
        obtain ⟨next, cells', played, heq, hg⟩ := generateLoop_generated xlaw
          (compand xlaw tx.bsubprot 0) true (List.replicate 800 none) h hempty
        have hroom : (List.replicate 800 (none : Cell)).length = room none true := List.length_replicate
        refine ⟨next, some cells', played, ?_, hg.bounded, hg.bsubprot, ?_,
          fun cells hcells => absurd hcells.symm (Option.some_ne_none cells),
          fun _ => .inr ⟨_, congrArg some hg.bytes⟩, hroom ▸ hg.length, hroom ▸ hg.left,
          hroom ▸ hg.ends⟩
        · rw [generate, if_neg hempty]
          simp only [heq, Option.bind_eq_bind, Option.bind_some, if_true]
          rfl
        · rw [i4bDtmfGenerate, if_neg hplain]
          have hplain' := hg.agrees
          simp only [if_true]
          exact Prod.ext (congrArg (fun out => out.1) hplain')
            (congrArg (fun out => some out.2) hplain')

/-! ## Any calls -/

/-- The same call, of the other embedding. -/
def Call.plain : Call → Dtmf.Call
  | .queueDigit d => .queueDigit d.digit d.toneDuration d.gapDuration
  | .generate ppM memory => .generate ppM memory

/-- **One call in both embeddings.** -/
theorem Call.run_toTx (xlaw : Xlaw) {tx : DtmfInfoTx} (h : tx.Bounded) (call : Call) :
    ∃ next new, call.run xlaw tx = some (next, new) ∧ next.Bounded ∧ next.bsubprot = tx.bsubprot ∧
      next.toTx = call.plain.run xlaw tx.toTx := by
  cases call with
  | queueDigit d =>
    obtain ⟨next, heq, hb, hsub, hto⟩ := queueDigit_toTx h d.digit d.toneDuration d.gapDuration
    refine ⟨next, if next.outputPos = tx.outputPos then [] else [.accepted d], ?_, hb, hsub, hto⟩
    rw [Call.run, heq]
    rfl
  | generate ppM memory =>
    obtain ⟨next, m, played, heq, hg⟩ := generate_toTx xlaw ppM memory h
    refine ⟨next, played.map .played, ?_, hg.bounded, hg.bsubprot, (congrArg Prod.fst hg.agrees).symm⟩
    rw [Call.run, heq]
    rfl

/-- **Any calls in both embeddings.** -/
theorem run_toTx (xlaw : Xlaw) {tx : DtmfInfoTx} (h : tx.Bounded) (calls : List Call) :
    ∃ last events, Machine.run (Call.run xlaw) tx calls = some (last, events) ∧ last.Bounded ∧
      last.bsubprot = tx.bsubprot ∧
      last.toTx = (calls.map Call.plain).foldl (Dtmf.Call.run xlaw) tx.toTx := by
  induction calls generalizing tx with
  | nil => exact ⟨tx, [], rfl, h, rfl, rfl⟩
  | cons call calls ih =>
    obtain ⟨next, new, heq, hb, hsub, hto⟩ := call.run_toTx xlaw h
    obtain ⟨last, events, heq', hb', hsub', hto'⟩ := ih hb
    refine ⟨last, new ++ events, ?_, hb', hsub'.trans hsub, ?_⟩
    · rw [Machine.run_cons, heq, Option.bind_some, heq']
      rfl
    · rw [hto', hto]
      rfl

/-- **Buffers that are long enough empty the ring**, however they are cut, and nothing is accepted
meanwhile. -/
theorem run_drains (xlaw : Xlaw) {tx : DtmfInfoTx} (h : tx.Bounded)
    (buffers : List (Option (List Cell) × Bool))
    (hlong : samples tx.toTx < (buffers.map fun b => room b.1 b.2).sum ∨ tx.inputPos = tx.outputPos) :
    ∃ last more, Machine.run (Call.run xlaw) tx (buffers.map fun b => .generate b.1 b.2) =
        some (last, more) ∧ last.inputPos = last.outputPos ∧ acceptedOf more = [] := by
  induction buffers generalizing tx with
  | nil => exact ⟨tx, [], rfl, hlong.resolve_left (Nat.not_lt_zero _), rfl⟩
  | cons b buffers ih =>
    obtain ⟨next, m, played, heq, hg⟩ := generate_toTx xlaw b.1 b.2 h
    have hnext : samples next.toTx < (buffers.map fun b => room b.1 b.2).sum ∨
        next.inputPos = next.outputPos := by
      by_cases hempty : tx.inputPos = tx.outputPos
      · have heq' := (generates_empty xlaw b.1 b.2 h hempty).1
        obtain ⟨rfl, -⟩ := Prod.mk.inj (Option.some.inj (heq.symm.trans heq'))
        exact .inr hempty
      · have hlt := hlong.resolve_right hempty
        rw [List.map_cons, List.sum_cons] at hlt
        rcases Nat.lt_or_ge (samples tx.toTx) (room b.1 b.2) with hroom | hroom
        · exact .inr (hg.ends hroom)
        · rw [hg.left]
          exact .inl (by omega)
    obtain ⟨last, more, heq', hempty, hnone⟩ := ih hg.bounded hnext
    have hcall : Call.run xlaw tx (.generate b.1 b.2) = some (next, played.map .played) := by
      rw [Call.run, heq]
      rfl
    refine ⟨last, played.map .played ++ more, ?_, hempty, ?_⟩
    · rw [List.map_cons, Machine.run_cons, hcall, Option.bind_some, heq']
      rfl
    · rw [acceptedOf, List.filterMap_append]
      exact congrArg₂ (· ++ ·) (acceptedOf_map played) hnone

/-- All entries were played to their end, one behind the other. -/
def PlayedAll (accepted : List Entry) (played : List Sample) : Prop :=
  ∃ done : List (Entry × ℕ), accepted = done.map Prod.fst ∧ (∀ p ∈ done, p.1.Left p.2 0) ∧
    played = (done.map fun p => p.1.samples p.2).flatten

/-- In an empty ring nothing waits. -/
theorem Plays.all {accepted : List Entry} {played : List Sample} {tx : DtmfInfoTx}
    (h : Plays accepted played tx) (hempty : entries tx = []) : PlayedAll accepted played := by
  obtain ⟨done, waiting, begun, rfl, hdone, rfl, hwaits⟩ := h
  cases hwaits with
  | none => exact ⟨done, List.append_nil _, hdone, List.append_nil _⟩
  | first hring =>
    rw [hempty] at hring
    cases hring

/-- **The digits are played in their order.**  Any calls, with buffers of any length, access nothing outside of
the ring and of the table of sines.  The positions stay within the ring, what is looked up stays below 8000,
another digit leaves the entries that wait as they are, and what was played is the tone and the gap of each
digit that was accepted, in this order, as far as they do not wait in the ring.

Each call of the generator plays all that the ring and the buffer have both, and writes it, and buffers that
are longer than what the ring has are enough to play all that was accepted. -/
theorem digits_played (xlaw : Xlaw) (bsubprot : Bsubprot) (calls : List Call) :
    ∃ tx events, Machine.run (Call.run xlaw) (init bsubprot) calls = some (tx, events) ∧
      tx.inputPos < nDigits ∧ tx.outputPos < nDigits ∧ tx.bsubprot = bsubprot ∧
      (∀ s ∈ playedOf events, s.omega0 < 8000 ∧ s.omega1 < 8000) ∧
      (∀ d : Digit, ∃ next, queueDigit tx d.digit d.toneDuration d.gapDuration = some next ∧
        (next = tx ∧ 30 ≤ (entries tx).length ∨ entries next = entries tx ++ d.entries)) ∧
      Plays ((acceptedOf events).flatMap Digit.entries) (playedOf events) tx ∧
      (∀ ppM memory, ∃ next m played, generate xlaw tx ppM memory = some (next, m, played) ∧
        Generates xlaw ppM memory tx next m played) ∧
      ∀ buffers : List (Option (List Cell) × Bool),
        samples tx.toTx < (buffers.map fun b => room b.1 b.2).sum →
          ∃ last more, Machine.run (Call.run xlaw) tx (buffers.map fun b => .generate b.1 b.2) =
              some (last, more) ∧ last.inputPos = last.outputPos ∧
            PlayedAll ((acceptedOf events).flatMap Digit.entries) (playedOf (events ++ more)) := by
  have hstep : ∀ tx events (call : Call), Valid tx events →
      ∃ next new, call.run xlaw tx = some (next, new) ∧ Valid next (events ++ new) :=
    fun _ _ call h => h.run xlaw call
  obtain ⟨tx, events, heq, hrange, hp⟩ := Machine.run_outputs hstep (valid_init bsubprot) calls
  obtain ⟨tx', events', heq', hb, hsub, -⟩ := run_toTx xlaw (bounded_init bsubprot) calls
  rw [List.nil_append] at hp
  obtain ⟨rfl, rfl⟩ : tx = tx' ∧ events = events' :=
    Prod.mk.inj (Option.some.inj (heq.symm.trans heq'))
  refine ⟨tx, events, heq, hrange.input, hrange.output, hsub, fun s hs => hp.omega_lt hs, fun d => ?_, hp,
    fun ppM memory => generate_toTx xlaw ppM memory hb, fun buffers hlong => ?_⟩
  · obtain ⟨next, hqueue, -, -, -, hcase⟩ := queueDigit_some hrange d
    exact ⟨next, hqueue, hcase.imp_right And.right⟩
  · obtain ⟨last, more, hrun, hempty, hnone⟩ := run_drains xlaw hb buffers (.inl hlong)
    obtain ⟨last', more', hrun', hrange', hp'⟩ := Machine.run_outputs hstep ⟨hrange, hp⟩
      (buffers.map fun b => .generate b.1 b.2)
    obtain ⟨rfl, rfl⟩ : last = last' ∧ more = more' :=
      Prod.mk.inj (Option.some.inj (hrun.symm.trans hrun'))
    have haccepted : acceptedOf (events ++ more) = acceptedOf events := by
      rw [acceptedOf, List.filterMap_append]
      exact (congrArg (acceptedOf events ++ ·) hnone).trans (List.append_nil _)
    rw [haccepted] at hp'
    exact ⟨last, more, hrun, hempty, hp'.all ((entries_eq_nil hrange').mpr hempty)⟩

end Queue
end Dtmf
end Isdn4bsd
