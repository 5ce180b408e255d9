import Isdn4bsd.Lib.Machine
import Isdn4bsd.Dtmf.Detect

/-!
# DTMF: the detector, call by call

The samples come in pieces of any length, as the hardware has them.  What does not fill a block waits in a
buffer for the next call.  Here is all of `struct i4b_dtmf_info_rx`, with what a block before has left in the
buffer and in the filters.

* `feed` : the detector, one sample at a time.
* `detectLoop_eq` : **one call** takes its samples one at a time.
* `detect_chunks` : the digits and the state **do not depend on how the samples are cut**.
* `fullBlock_some` : **a full block** always has a result, by the bounds of the block before.

The source copies as much of a call as fits into the block, goes through the block if it is full, and begins
again with what is left.  `feed` is the same detector with a buffer that is filled sample by sample, so a call is a
run of `feed` over its samples, and calls in a row are a run over all of them.

The state that is compared is the whole structure.  That includes what is of no further use: the old samples behind
the fill level, which the next block overwrites, and the filters, which a block starts at zero.  It also has
the codes of the last blocks, on which it depends whether a digit is put.
-/

set_option autoImplicit false

namespace Isdn4bsd
namespace Dtmf

/-- `struct i4b_dtmf_info_rx`. -/
structure DtmfInfoRx where
  w0 : List ℤ
  w1 : List ℤ
  buffer : Vector UInt8 102
  count : ℕ
  code : UInt8
  codeCount : ℕ
  noCodeCount : ℕ
  bsubprot : Bsubprot
  detectedFaxOrModem : Bool

/-- `i4b_dtmf_init_rx`. -/
def DtmfInfoRx.init (bsubprot : Bsubprot) : DtmfInfoRx where
  w0 := List.replicate 18 0
  w1 := List.replicate 18 0
  buffer := Vector.replicate 102 0
  count := 0
  code := 0
  codeCount := 0
  noCodeCount := 0
  bsubprot := bsubprot
  detectedFaxOrModem := false

/-- What is known of the codes, without the samples. -/
def DtmfInfoRx.codes (rx : DtmfInfoRx) : DtmfCodes where
  code := rx.code
  codeCount := rx.codeCount
  noCodeCount := rx.noCodeCount
  detectedFaxOrModem := rx.detectedFaxOrModem

/-- The filters after the samples of a block. -/
def filtersAfter (bsubprot : Bsubprot) (buffer : List UInt8) : Option (List Filter) := do
  let samples := buffer.map (decode bsubprot)
  let maxGain ← samples.foldlM agc 0x1000
  samples.foldlM (fun filters sample => do
    let sample ← normalize maxGain sample
    filters.mapM (goertzel sample)) (K.map fun k => ⟨k, 0, 0⟩)

/-- A full block. -/
def fullBlock (rx : DtmfInfoRx) : Option (DtmfInfoRx × List UInt8) := do
  let filters ← filtersAfter rx.bsubprot rx.buffer.toList
  let energies ← filters.mapM energy
  let w2 ← energies.mapM fun e => i4bSqrt32 16 (UInt32.ofInt e)
  let code := toneCode rx.detectedFaxOrModem (found (w2.map UInt16.toNat))
  let (codes, code) := jitter rx.codes code
  let (codes, digits) := putCode codes code
  return ({ rx with
    w0 := filters.map fun f => f.w0.tdiv 128
    w1 := filters.map fun f => f.w1.tdiv 128
    count := 0
    code := codes.code
    codeCount := codes.codeCount
    noCodeCount := codes.noCodeCount
    detectedFaxOrModem := codes.detectedFaxOrModem }, digits)

/-- `memcpy` into the buffer, from a position on. -/
def memcpy (buffer : Vector UInt8 102) (pos : ℕ) : List UInt8 → Option (Vector UInt8 102)
  | [] => some buffer
  | byte :: data => if h : pos < 102 then memcpy (buffer.set pos byte h) (pos + 1) data else none

/-- The loop of `i4b_dtmf_detect`, for at most so many rounds. -/
def detectLoop : ℕ → DtmfInfoRx → List UInt8 → Option (DtmfInfoRx × List UInt8)
  | 0, _, _ => none
  | fuel + 1, rx, data =>
    -- `delta` and `count` have 16 bits and 8 bits
    let delta := (65536 + 102 - rx.count) % 65536
    let delta := if delta > data.length then data.length else delta
    (memcpy rx.buffer rx.count (data.take delta)).bind fun buffer =>
      let rx := { rx with buffer := buffer, count := (rx.count + delta) % 256 }
      if rx.count ≠ 102 then some (rx, [])
      else (fullBlock rx).bind fun p =>
        (detectLoop fuel p.1 (data.drop delta)).map fun q => (q.1, p.2 ++ q.2)

/-- What a call is given: `data_len` has 16 bits. -/
abbrev Data := { data : List UInt8 // data.length < 65536 }

/-- `i4b_dtmf_detect`, if there is an `L5_PUT_DTMF` or not: the detector afterwards, and the digits that are
put. -/
def detectCall (l5PutDtmf : Bool) (rx : DtmfInfoRx) (data : Data) :
    Option (DtmfInfoRx × List UInt8) :=
  if l5PutDtmf then detectLoop (data.1.length + 1) rx data.1 else some (rx, [])

/-! ## One sample at a time -/

/-- The detector, for one sample. -/
def feed (rx : DtmfInfoRx) (byte : UInt8) : Option (DtmfInfoRx × List UInt8) :=
  if h : rx.count < 102 then
    let rx := { rx with buffer := rx.buffer.set rx.count byte h, count := rx.count + 1 }
    if rx.count ≠ 102 then some (rx, []) else fullBlock rx
  else none

theorem energies_eq (bsubprot : Bsubprot) (buffer : List UInt8) :
    energies bsubprot buffer = (filtersAfter bsubprot buffer).bind fun fs => fs.mapM energy := by
  rw [energies, filtersAfter]
  cases (buffer.map (decode bsubprot)).foldlM agc 0x1000 <;> rfl

/-- **A full block** has a result, and leaves an empty buffer. -/
theorem fullBlock_some (rx : DtmfInfoRx) :
    ∃ next digits, fullBlock rx = some (next, digits) ∧ next.count = 0 := by
  obtain ⟨es, hes, -, -⟩ := energies_some rx.bsubprot
    (show rx.buffer.toList.length ≤ 102 by rw [Vector.length_toList])
  rw [energies_eq] at hes
  obtain ⟨filters, hfilters, henergies⟩ := Option.bind_eq_some_iff.mp hes
  obtain ⟨w2, hw2⟩ := roots_some es
  simp only [fullBlock, hfilters, henergies, hw2, Option.bind_eq_bind, Option.bind_some]
  exact ⟨_, _, rfl, rfl⟩

/-- A sample that does not fill the block waits. -/
theorem feed_lt {rx : DtmfInfoRx} (byte : UInt8) (h : rx.count + 1 < 102) : feed rx byte =
    some ({ rx with buffer := rx.buffer.set rx.count byte (by omega), count := rx.count + 1 }, []) := by
  rw [feed, dif_pos (by omega)]
  exact if_pos h.ne

/-- The sample that fills the block. -/
theorem feed_eq {rx : DtmfInfoRx} (byte : UInt8) (h : rx.count + 1 = 102) : feed rx byte =
    fullBlock { rx with buffer := rx.buffer.set rx.count byte (by omega), count := 102 } := by
  rw [feed, dif_pos (by omega)]
  simp only [h, ne_eq, not_true, if_false]

/-- **One sample** has a result, and the buffer is not full after it. -/
theorem feed_some (rx : DtmfInfoRx) (byte : UInt8) (h : rx.count < 102) :
    ∃ next digits, feed rx byte = some (next, digits) ∧ next.count < 102 := by
  by_cases hfull : rx.count + 1 = 102
  · obtain ⟨next, digits, heq, hcount⟩ := fullBlock_some
      { rx with buffer := rx.buffer.set rx.count byte h, count := 102 }
    exact ⟨next, digits, (feed_eq byte hfull).trans heq, by omega⟩
  · have hlt : rx.count + 1 < 102 := by omega
    exact ⟨_, [], feed_lt byte hlt, hlt⟩

theorem memcpy_append (buffer : Vector UInt8 102) (pos : ℕ) (xs ys : List UInt8) :
    memcpy buffer pos (xs ++ ys) =
      (memcpy buffer pos xs).bind fun buffer => memcpy buffer (pos + xs.length) ys := by
  induction xs generalizing buffer pos with
  | nil => rfl
  | cons x xs ih =>
    rw [List.cons_append, memcpy, memcpy]
    by_cases h : pos < 102
    · rw [dif_pos h, dif_pos h, ih, List.length_cons, Nat.add_right_comm, Nat.add_assoc pos]
    · rw [dif_neg h, dif_neg h, Option.bind_none]

/-- Samples that do not fill the block wait. -/
theorem run_feed_lt {data : List UInt8} {rx : DtmfInfoRx} (h : rx.count + data.length < 102) :
    ∃ buffer, memcpy rx.buffer rx.count data = some buffer ∧ Machine.run feed rx data =
      some ({ rx with buffer := buffer, count := rx.count + data.length }, []) := by
  induction data generalizing rx with
  | nil => exact ⟨rx.buffer, rfl, rfl⟩
  | cons byte data ih =>
    rw [List.length_cons] at h
    have hlt : rx.count < 102 := by omega
    obtain ⟨buffer, hcopy, hrun⟩ :=
      @ih { rx with buffer := rx.buffer.set rx.count byte hlt, count := rx.count + 1 }
        (by change rx.count + 1 + data.length < 102; omega)
    refine ⟨buffer, ?_, ?_⟩
    · rw [memcpy, dif_pos hlt]
      exact hcopy
    · rw [Machine.run_cons, feed_lt byte (by omega), Option.bind_some, hrun, List.length_cons,
        Nat.add_comm data.length, ← Nat.add_assoc]
      rfl

/-- Samples that fill the block. -/
theorem run_feed_eq {data : List UInt8} {rx : DtmfInfoRx} (hlt : rx.count < 102)
    (h : rx.count + data.length = 102) :
    ∃ buffer, memcpy rx.buffer rx.count data = some buffer ∧
      Machine.run feed rx data = fullBlock { rx with buffer := buffer, count := 102 } := by
  obtain ⟨xs, x, rfl⟩ : ∃ xs x, data = xs ++ [x] := by
    rcases List.eq_nil_or_concat' data with rfl | h
    · exact absurd h hlt.ne
    · exact h
  rw [List.length_append, List.length_singleton] at h
  obtain ⟨buffer, hcopy, hrun⟩ := @run_feed_lt xs rx (by omega)
  have hpos : rx.count + xs.length < 102 := by omega
  refine ⟨buffer.set (rx.count + xs.length) x hpos, ?_, ?_⟩
  · rw [memcpy_append, hcopy, Option.bind_some, memcpy, dif_pos hpos, memcpy]
  · rw [Machine.run_append, hrun, Option.bind_some, Machine.run_singleton, feed_eq x (by omega)]
    exact Option.map_id'

/-- **One call** takes its samples one at a time. -/
theorem detectLoop_eq {fuel : ℕ} {rx : DtmfInfoRx} {data : List UInt8} (hlt : rx.count < 102)
    (hfuel : data.length < fuel) : detectLoop fuel rx data = Machine.run feed rx data := by
  induction fuel generalizing rx data with
  | zero => exact absurd hfuel (Nat.not_lt_zero _)
  | succ fuel ih =>
    have hdelta : (65536 + 102 - rx.count) % 65536 = 102 - rx.count := by omega
    rw [detectLoop, hdelta]
    by_cases hroom : rx.count + data.length < 102
    · -- the block does not get full
      obtain ⟨buffer, hcopy, hrun⟩ := run_feed_lt hroom
      have hcount : (rx.count + data.length) % 256 = rx.count + data.length := by omega
      simp only [if_pos (show 102 - rx.count > data.length by omega), List.take_length, hcopy,
        Option.bind_some, hcount, ne_eq, if_pos hroom.ne, hrun]
    · obtain ⟨buffer, hcopy, hrun⟩ := @run_feed_eq (data.take (102 - rx.count)) rx hlt
        (by rw [List.length_take]; omega)
      have hcount : (rx.count + (102 - rx.count)) % 256 = 102 := by omega
      obtain ⟨next, digits, hblock, hzero⟩ := fullBlock_some { rx with buffer := buffer, count := 102 }
      have hrest : detectLoop fuel next (data.drop (102 - rx.count)) =
          Machine.run feed next (data.drop (102 - rx.count)) :=
        ih (by omega) (by rw [List.length_drop]; omega)
      conv_rhs => rw [← List.take_append_drop (102 - rx.count) data, Machine.run_append, hrun]
      simp only [if_neg (show ¬ 102 - rx.count > data.length by omega), hcopy, Option.bind_some,
        hcount, ne_eq, not_true, if_false, hblock, hrest]

/-! ## Any calls -/

/-- A call, as so many samples. -/
theorem detectCall_eq {rx : DtmfInfoRx} (h : rx.count < 102) (data : Data) :
    detectCall true rx data = Machine.run feed rx data.1 :=
  detectLoop_eq h (Nat.lt_succ_self _)

/-- Without an `L5_PUT_DTMF` nothing is done. -/
theorem run_detectCall_false (rx : DtmfInfoRx) (calls : List Data) :
    Machine.run (detectCall false) rx calls = some (rx, []) := by
  induction calls with
  | nil => rfl
  | cons data calls ih =>
    rw [Machine.run_cons, show detectCall false rx data = some (rx, []) from rfl, Option.bind_some, ih]
    rfl

/-- **The detector does not depend on how the samples are cut.**  Any calls have a result, the block is not
full after them, and one call with all of the samples has the same result, and so do any other calls with the
same samples. -/
theorem detect_chunks (l5PutDtmf : Bool) (bsubprot : Bsubprot) (calls : List Data) :
    ∃ rx digits, Machine.run (detectCall l5PutDtmf) (.init bsubprot) calls = some (rx, digits) ∧
      rx.count < 102 ∧
      (∀ whole : Data, whole.1 = (calls.map Subtype.val).flatten →
        detectCall l5PutDtmf (.init bsubprot) whole = some (rx, digits)) ∧
      (∀ calls' : List Data, (calls'.map Subtype.val).flatten = (calls.map Subtype.val).flatten →
        Machine.run (detectCall l5PutDtmf) (.init bsubprot) calls' = some (rx, digits)) := by
  have h0 : (DtmfInfoRx.init bsubprot).count < 102 := Nat.zero_lt_succ 101
  cases l5PutDtmf with
  | false =>
    exact ⟨_, [], run_detectCall_false _ calls, h0, fun _ _ => rfl,
      fun calls' _ => run_detectCall_false _ calls'⟩
  | true =>
    have hrun : ∀ calls : List Data, Machine.run (detectCall true) (.init bsubprot) calls =
        Machine.run feed (.init bsubprot) (calls.map Subtype.val).flatten :=
      Machine.run_eq_flatten feed_some (fun _ data h => detectCall_eq h data) h0
    obtain ⟨rx, digits, heq, hcount⟩ :=
      Machine.run_some feed_some h0 (calls.map Subtype.val).flatten
    refine ⟨rx, digits, (hrun calls).trans heq, hcount, fun whole hwhole => ?_,
      fun calls' hcalls => ?_⟩
    · rw [detectCall_eq h0, hwhole, heq]
    · rw [hrun, hcalls, heq]

end Dtmf
end Isdn4bsd
