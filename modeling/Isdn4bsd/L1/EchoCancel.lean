import Isdn4bsd.L1.Fft

/-!
# The echo canceller

What is sent to the speaker is fed into one end of `buf_X0`, and an echo is computed from its other end.
Three offsets into three buffers run downward.  They are changed by different functions, and the filter
looks at one of them only when another one is zero.

The values in the buffers are left out, and so is what is computed from them: the result of the adaption is
a parameter.  Each access has to be within its array, and no offset may be decremented below zero.

* `Ec.Valid` : **the invariant**.
* `feed_valid`, `updateMerger_valid`, `merge_valid` : **what is called** keeps it; the loop of
  `i4b_echo_cancel_merge` ends.
* `calls_valid` : **any interleaving** of these calls.

## Accesses

A function that works on a buffer has a result here only if all of its accesses are within it; a loop over an
array is the condition on its last index.  So each function of the filter has a lemma `*_some`, and the index
expressions of the source can be compared with it one by one.

## The offsets

All of them go down while samples are worked on.

* `offsetWr` is where the next sample is fed in.  At zero the lower half of `buf_X0` is copied to the upper one, and
the offset is back at the end of the lower one; `offsetRd` is moved along with it, and cut off at its bound.
* `offsetRd` is how far the merger has come; what lies between the two has been fed in and not been used.
* `offsetX` is how much of the echo that was computed is left, and `offsetE` where the result of the next
subtraction goes.  More echo is computed when `offsetX` is zero, and the filter is adapted when `offsetE` is
small, so that nothing but the sizes keeps them from passing each other: that is `x_le_e`.

The distance of `offsetRd` and `offsetWr` should be the delay of the line.  `updateMerger` compares it with the
difference of two times, of 16 bits each and set by interrupts, so any value may come out of it; it is cut off
before it is used, and adjusted by one sample at a time, unless it is wrong by more than 16.

The callers come from different places: the transmit path feeds, the receive path merges, and an update of either
time may come in between.  `Valid` has to hold between any two calls, in any order.
-/

set_option autoImplicit false

namespace Isdn4bsd
namespace L1

/-! ## Sizes -/

/-- `I4B_ECHO_CANCEL_N_TAPS`. -/
def nTaps : ℕ := nComplex / 2

/-- `I4B_ECHO_CANCEL_T_MAX`. -/
def tMax : ℕ := 2048

/-- `I4B_ECHO_CANCEL_F_SIZE`. -/
def fSize : ℕ := nComplex + tMax

/-- `I4B_ECHO_CANCEL_R_SIZE`. -/
def rSize : ℕ := fSize + tMax

/-- The size of `buf_X0`. -/
def sizeX0 : ℕ := 2 * fSize

/-- The size of `buf_E0`, and of `buf_HR` and `buf_state`. -/
def sizeE0 : ℕ := nTaps

/-- The size of `buf_ET`. -/
def sizeET : ℕ := 4 * nTaps

/-- The size of `buf_XC`, `buf_EC` and `buf_HC`. -/
def sizeXC : ℕ := nComplex

theorem nComplex_eq : nComplex = 1024 := rfl
theorem nTaps_eq : nTaps = 512 := rfl
theorem fSize_eq : fSize = 3072 := rfl
theorem rSize_eq : rSize = 5120 := rfl
theorem sizeX0_eq : sizeX0 = 6144 := rfl
theorem sizeE0_eq : sizeE0 = 512 := rfl
theorem sizeET_eq : sizeET = 2048 := rfl
theorem sizeXC_eq : sizeXC = 1024 := rfl

/-! ## The state -/

/-- What is stored in 16 bits, without a sign and with one. -/
def u16 (x : ℤ) : ℕ := (x % 65536).toNat

def i16 (x : ℤ) : ℤ := Int.bmod x 65536

/-- The offsets and times of `struct i4b_echo_cancel`, and how often the filter was adapted. -/
structure Ec where
  offsetX : ℕ
  offsetWr : ℕ
  offsetRd : ℕ
  preDelay : ℕ
  offsetE : ℕ
  rxTime : ℕ
  txTime : ℕ
  offsetAdjust : ℤ
  adapted : ℕ

/-- `i4b_echo_cancel_init`. -/
def echoCancelInit (preDelay : ℕ) : Ec where
  offsetX := nTaps
  offsetWr := fSize - 1
  offsetRd := rSize - 1
  preDelay := preDelay
  offsetE := 4 * nTaps
  rxTime := 0
  txTime := 0
  offsetAdjust := 0
  adapted := 0

/-- `i4b_echo_cancel_coeffs_reset`. -/
def coeffsReset (ec : Ec) : Ec := { ec with offsetX := nTaps, offsetE := 4 * nTaps }

/-! ## The filter -/

/-- `i4b_echo_cancel_load_complex_x`. -/
def loadComplexX (ec : Ec) (maxSamples : ℕ) : Option Unit := do
  times nComplex fun k => touch sizeXC k
  let pb : ℤ := ec.offsetRd + nTaps - maxSamples
  times nTaps fun k => do
    touch sizeX0 (pb - k)
    touch sizeXC k
    touch sizeX0 (pb - k + nTaps)
    touch sizeXC (k + nTaps)
  fft 0

/-- `i4b_echo_cancel_load_complex_e`. -/
def loadComplexE (ec : Ec) : Option Unit := do
  times nComplex fun k => touch sizeXC k
  let pb : ℤ := ec.offsetE + nTaps - 1
  times nTaps fun k => do
    touch sizeET (pb - k)
    touch sizeXC k
    touch sizeET (pb - k + nTaps)
    touch sizeXC (k + nTaps)
  fft 0

/-- The loop over all pairs of conjugate values, from 1 on, in `buf_XC` and in `buf_EC`. -/
def conjugates : Option Unit :=
  times (nTaps - 1) fun k => do
    let i := k + 1
    let j := nComplex - i
    touch sizeXC i
    touch sizeXC j
    touch sizeXC i
    touch sizeXC j

/-- `i4b_echo_cancel_convolute_fir`, from `buf_HC` to `buf_E0`. -/
def convoluteFir : Option Unit := do
  times nComplex fun k => touch sizeXC k
  conjugates
  touch sizeXC 0
  touch sizeXC nTaps
  fft 3
  times nTaps fun k => do
    touch sizeE0 (nTaps - 1 - k)
    touch sizeXC k

/-- `i4b_echo_cancel_complex_adapt`. -/
def complexAdapt : Option Unit := do
  conjugates
  touch sizeXC 0
  touch sizeXC nTaps

/-- `i4b_echo_cancel_binary_adapt`. -/
def binaryAdapt : Option Unit := do
  fft 1
  times nTaps fun n => do
    touch sizeE0 n
    touch sizeXC n

/-- The impulse response is moved by one, in either direction. -/
def moveDown : Option Unit := do
  times (nTaps - 1) fun k => do
    touch sizeE0 (nTaps - 1 - k)
    touch sizeE0 (nTaps - 1 - k - 1)
  touch sizeE0 0

def moveUp : Option Unit := do
  times (nTaps - 1) fun n => do
    touch sizeE0 n
    touch sizeE0 (n + 1)
  touch sizeE0 (nTaps - 1)

/-- The end of `i4b_echo_cancel_compute_sub`: the echo that was recorded is moved to the end of `buf_ET`. -/
def finishSub (ec : Ec) : Option (Ec × Bool) := do
  times nTaps fun n => do
    touch sizeE0 n
    touch sizeXC n
  fft 0
  times (2 * nTaps) fun k => do
    touch sizeET k
    touch sizeET (2 * nTaps + k)
  return ({ ec with offsetE := u16 (ec.offsetE + 2 * nTaps) }, false)

/-- `binaryAdapt`, if the filter is to be adapted. -/
def adaptIf (adapt : Bool) : Option Unit := if adapt then binaryAdapt else some ()

/-- `i4b_echo_cancel_compute_sub`; it tells whether everything is to be reset. -/
def computeSub (adapt : ℕ → Bool) (ec : Ec) : Option (Ec × Bool) := do
  loadComplexE ec
  complexAdapt
  adaptIf (adapt ec.adapted)
  let ec := { ec with adapted := ec.adapted + 1 }
  if ec.offsetAdjust < -16 ∨ ec.offsetAdjust > 16 then
    let offsetRd := u16 (ec.offsetRd + ec.offsetAdjust)
    if offsetRd > rSize - 1 ∨ offsetRd < ec.offsetWr then
      finishSub { ec with offsetRd := u16 (offsetRd - ec.offsetAdjust) }
    else return ({ ec with offsetRd := offsetRd, offsetAdjust := 0 }, true)
  else if ec.offsetAdjust < 0 ∧ ec.offsetRd > ec.offsetWr then
    moveDown
    finishSub { ec with offsetRd := ec.offsetRd - 1, offsetAdjust := ec.offsetAdjust + 1 }
  else if ec.offsetAdjust > 0 ∧ ec.offsetRd < rSize - 1 then
    moveUp
    finishSub { ec with offsetRd := ec.offsetRd + 1, offsetAdjust := ec.offsetAdjust - 1 }
  else finishSub ec

/-- The second half of `i4b_echo_cancel_compute`. -/
def computeEcho (ec : Ec) : Option (Ec × Bool) :=
  if ec.offsetRd ≤ ec.offsetWr then some (ec, true)
  else do
    let maxSamples := u16 (ec.offsetRd - ec.offsetWr)
    let maxSamples := if maxSamples > nTaps then nTaps else maxSamples
    loadComplexX ec maxSamples
    convoluteFir
    return ({ ec with offsetX := maxSamples }, false)

/-- `i4b_echo_cancel_compute`; it tells whether there is no data. -/
def compute (adapt : ℕ → Bool) (ec : Ec) : Option (Ec × Bool) :=
  if ec.offsetE < nTaps then do
    let (ec, reset) ← computeSub adapt ec
    if reset then return (ec, true) else computeEcho ec
  else computeEcho ec

/-- `i4b_echo_cancel_subtract`. -/
def subtract (ec : Ec) : Option Ec :=
  if ec.offsetX = 0 ∨ ec.offsetE = 0 then none
  else do
    let ec := { ec with offsetX := ec.offsetX - 1, offsetE := ec.offsetE - 1 }
    touch sizeE0 ec.offsetX
    touch sizeET ec.offsetE
    return ec

/-- So many samples. -/
def subtracts : ℕ → Ec → Option Ec
  | 0, ec => some ec
  | n + 1, ec => do
    let ec ← subtract ec
    subtracts n ec

/-! ## What is called -/

/-- `i4b_echo_cancel_update_feeder`. -/
def updateFeeder (ec : Ec) (txTime : ℕ) : Ec := { ec with txTime := txTime }

/-- One sample of `i4b_echo_cancel_feed`. -/
def feedSample (ec : Ec) : Option Ec := do
  touch sizeX0 ec.offsetWr
  if ec.offsetWr = 0 then
    times fSize fun k => do
      touch sizeX0 k
      touch sizeX0 (fSize + k)
    let offsetRd := u16 (ec.offsetRd + fSize)
    return { ec with
      offsetWr := fSize - 1
      offsetRd := if offsetRd > rSize - 1 then rSize - 1 else offsetRd }
  else return { ec with offsetWr := ec.offsetWr - 1 }

def feedSamples : ℕ → Ec → Option Ec
  | 0, ec => some ec
  | len + 1, ec => do
    let ec ← feedSample ec
    feedSamples len ec

/-- `i4b_echo_cancel_feed`. -/
def feed (ec : Ec) (len : ℕ) : Option Ec :=
  feedSamples len { ec with offsetWr := if ec.offsetWr > fSize - 1 then fSize - 1 else ec.offsetWr }

/-- `i4b_echo_cancel_update_merger`. -/
def updateMerger (ec : Ec) (rxTime : ℕ) : Ec :=
  let ec := { ec with rxTime := rxTime }
  let dTime := u16 ((ec.txTime - ec.rxTime : ℤ) + ec.preDelay)
  let dTime := if dTime > tMax - 1 then tMax - 1 else dTime
  let ec := { ec with offsetWr := if ec.offsetWr > fSize - 1 then fSize - 1 else ec.offsetWr }
  let ec := { ec with offsetRd := if ec.offsetRd > rSize - 1 then rSize - 1 else ec.offsetRd }
  let ec := { ec with offsetRd := if ec.offsetRd < ec.offsetWr then ec.offsetWr else ec.offsetRd }
  let dLen := u16 (ec.offsetRd - ec.offsetWr)
  if (dTime > 4 ∧ dLen < dTime - 4) ∨ dLen > dTime + 4 then
    { ec with offsetAdjust := i16 (dTime - dLen) }
  else ec

/-- More echo is computed if all of it was used up. -/
def moreEcho (adapt : ℕ → Bool) (ec : Ec) : Option Ec :=
  if ec.offsetX = 0 then do
    let (ec, noData) ← compute adapt ec
    return if noData then coeffsReset ec else ec
  else some ec

/-- `i4b_echo_cancel_merge`, for at most so many rounds. -/
def merge (adapt : ℕ → Bool) : ℕ → Ec → ℕ → Option Ec
  | 0, _, _ => none
  | fuel + 1, ec, readLen =>
    if ec.offsetRd ≤ ec.offsetWr then some ec
    else do
      let ec ← moreEcho adapt ec
      let maxReadLen := u16 (ec.offsetRd - ec.offsetWr)
      let maxReadLen := if maxReadLen > readLen then readLen else maxReadLen
      let maxReadLen := if maxReadLen > ec.offsetX then ec.offsetX else maxReadLen
      if maxReadLen = 0 then some ec
      else do
        let ec ← subtracts maxReadLen ec
        merge adapt fuel { ec with offsetRd := u16 (ec.offsetRd - maxReadLen) } (readLen - maxReadLen)

/-! ## The invariant -/

/-- The bounds of the offsets.  There is always as much room for the echo as samples are computed. -/
structure Ec.Valid (ec : Ec) : Prop where
  wr : ec.offsetWr ≤ fSize - 1
  wr_le_rd : ec.offsetWr ≤ ec.offsetRd
  rd : ec.offsetRd ≤ rSize - 1
  x : ec.offsetX ≤ nTaps
  x_le_e : ec.offsetX ≤ ec.offsetE
  e : ec.offsetE ≤ 4 * nTaps

theorem valid_init (preDelay : ℕ) : (echoCancelInit preDelay).Valid := by
  have hle : fSize - 1 ≤ rSize - 1 := by decide
  have hroom : nTaps ≤ 4 * nTaps := by decide
  exact ⟨le_rfl, hle, le_rfl, le_rfl, hroom, le_rfl⟩

theorem valid_coeffsReset {ec : Ec} (h : ec.Valid) : (coeffsReset ec).Valid := by
  have hroom : nTaps ≤ 4 * nTaps := by decide
  exact ⟨h.wr, h.wr_le_rd, h.rd, le_rfl, hroom, le_rfl⟩

/-- Sixteen bits. -/
theorem u16_cast (x : ℤ) : (u16 x : ℤ) = x % 65536 := Int.toNat_of_nonneg (Int.emod_nonneg x (by decide))

/-- The distance of two offsets. -/
theorem u16_sub {a b : ℕ} (hle : b ≤ a) (ha : a ≤ rSize - 1) : u16 (a - b) = a - b := by
  have hu := u16_cast (a - b)
  have hmod : (a - b : ℤ) % 65536 = a - b :=
    Int.emod_eq_of_lt (by omega) (by simp only [rSize_eq] at ha; omega)
  omega

/-- What is too large is replaced by the bound. -/
theorem clamp_eq (x m : ℕ) : (if x > m then m else x) = min x m := by
  split_ifs <;> omega

/-! ## The filter stays within its arrays -/

theorem conjugates_some : conjugates = some () := by
  refine times_some fun k hk => ?_
  simp only [nTaps_eq, nComplex_eq, sizeXC_eq] at *
  exact seq_some (touch_some (by omega)) (seq_some (touch_some (by omega))
    (seq_some (touch_some (by omega)) (touch_some (by omega))))

theorem whole_some : (times nComplex fun k => touch sizeXC k) = some () :=
  times_some fun k hk => touch_some (by simp only [nComplex_eq, sizeXC_eq] at *; omega)

/-- The samples that are read back are those that were fed in, and those before them. -/
theorem loadComplexX_some {ec : Ec} {maxSamples : ℕ} (hrd : ec.offsetRd ≤ rSize - 1)
    (h1 : 1 ≤ maxSamples) (hle : maxSamples ≤ ec.offsetRd) : loadComplexX ec maxSamples = some () := by
  refine seq_some whole_some (seq_some (times_some fun k hk => ?_) (fft_some 0))
  simp only [nTaps_eq, rSize_eq, sizeX0_eq, sizeXC_eq] at *
  exact seq_some (touch_some (by omega)) (seq_some (touch_some (by omega))
    (seq_some (touch_some (by omega)) (touch_some (by omega))))

/-- The echo is read back only if there is little room left, and so all of it is there. -/
theorem loadComplexE_some {ec : Ec} (he : ec.offsetE < nTaps) : loadComplexE ec = some () := by
  refine seq_some whole_some (seq_some (times_some fun k hk => ?_) (fft_some 0))
  simp only [nTaps_eq, sizeET_eq, sizeXC_eq] at *
  exact seq_some (touch_some (by omega)) (seq_some (touch_some (by omega))
    (seq_some (touch_some (by omega)) (touch_some (by omega))))

theorem convoluteFir_some : convoluteFir = some () := by
  refine seq_some whole_some (seq_some conjugates_some (seq_some (touch_some (by decide))
    (seq_some (touch_some (by decide)) (seq_some (fft_some 3) (times_some fun k hk => ?_)))))
  simp only [nTaps_eq, sizeE0_eq, sizeXC_eq] at *
  exact seq_some (touch_some (by omega)) (touch_some (by omega))

theorem complexAdapt_some : complexAdapt = some () :=
  seq_some conjugates_some (seq_some (touch_some (by decide)) (touch_some (by decide)))

theorem taps_some : (times nTaps fun n => do touch sizeE0 n; touch sizeXC n) = some () := by
  refine times_some fun n hn => ?_
  simp only [nTaps_eq, sizeE0_eq, sizeXC_eq] at *
  exact seq_some (touch_some (by omega)) (touch_some (by omega))

theorem adaptIf_some (adapt : Bool) : adaptIf adapt = some () := by
  cases adapt with
  | true => exact seq_some (fft_some 1) taps_some
  | false => rfl

theorem moveDown_some : moveDown = some () := by
  refine seq_some (times_some fun k hk => ?_) (touch_some (by decide))
  simp only [nTaps_eq, sizeE0_eq] at *
  exact seq_some (touch_some (by omega)) (touch_some (by omega))

theorem moveUp_some : moveUp = some () := by
  refine seq_some (times_some fun k hk => ?_) (touch_some (by decide))
  simp only [nTaps_eq, sizeE0_eq] at *
  exact seq_some (touch_some (by omega)) (touch_some (by omega))

theorem finishSub_some (ec : Ec) :
    finishSub ec = some ({ ec with offsetE := u16 (ec.offsetE + 2 * nTaps) }, false) := by
  have hmove : (times (2 * nTaps) fun k => do touch sizeET k; touch sizeET (2 * nTaps + k)) = some () := by
    refine times_some fun k hk => ?_
    simp only [nTaps_eq, sizeET_eq] at *
    exact seq_some (touch_some (by omega)) (touch_some (by omega))
  rw [finishSub, taps_some, Option.bind_eq_bind, Option.bind_some, fft_some, Option.bind_some, hmove]
  rfl

/-! ## The computation keeps the offsets -/

/-- The filter is adapted when there is little room for the echo.  After it, either there is room again, or
everything is reset. -/
theorem computeSub_valid (adapt : ℕ → Bool) {ec : Ec} (h : ec.Valid) (he : ec.offsetE < nTaps) :
    ∃ ec' reset, computeSub adapt ec = some (ec', reset) ∧ ec'.Valid ∧
      (reset = false → nTaps ≤ ec'.offsetE) := by
  rw [computeSub, loadComplexE_some he, Option.bind_eq_bind, Option.bind_some, complexAdapt_some,
    Option.bind_some, adaptIf_some, Option.bind_some]
  simp only
  obtain ⟨hwr, hle, hrd, hx, hxe, hmax⟩ := h
  have hroom : ∀ ec' : Ec, ec'.offsetWr = ec.offsetWr → ec'.offsetX = ec.offsetX →
      ec'.offsetE = ec.offsetE → ec.offsetWr ≤ ec'.offsetRd → ec'.offsetRd ≤ rSize - 1 →
        ∃ ec'' reset, finishSub ec' = some (ec'', reset) ∧ ec''.Valid ∧
          (reset = false → nTaps ≤ ec''.offsetE) := by
    intro ec' hwr' hx' he' hle' hrd'
    have hu := u16_cast (ec'.offsetE + 2 * nTaps)
    refine ⟨_, _, finishSub_some ec', ⟨?_, ?_, ?_, ?_, ?_, ?_⟩, fun _ => ?_⟩
    all_goals simp only [nTaps_eq, fSize_eq, rSize_eq] at *
    all_goals omega
  split_ifs with hfar hbad hdown hup
  · -- the offset is out of range, and what it was before is restored
    have hu1 := u16_cast (ec.offsetRd + ec.offsetAdjust)
    have hu2 := u16_cast (u16 (ec.offsetRd + ec.offsetAdjust) - ec.offsetAdjust)
    refine hroom _ rfl rfl rfl ?_ ?_
    all_goals simp only [nTaps_eq, fSize_eq, rSize_eq] at *
    all_goals omega
  · refine ⟨_, _, rfl, ⟨hwr, ?_, ?_, hx, hxe, hmax⟩, fun hfalse => absurd hfalse (by decide)⟩
    all_goals simp only
    all_goals omega
  · rw [moveDown_some, Option.bind_some]
    refine hroom _ rfl rfl rfl ?_ ?_
    all_goals simp only
    all_goals omega
  · rw [moveUp_some, Option.bind_some]
    refine hroom _ rfl rfl rfl ?_ ?_
    all_goals simp only
    all_goals omega
  · exact hroom _ rfl rfl rfl hle hrd

/-- The samples to come are as many as there are, and never more than there is room for their echo. -/
theorem computeEcho_valid {ec : Ec} (h : ec.Valid) (he : nTaps ≤ ec.offsetE) :
    ∃ ec' noData, computeEcho ec = some (ec', noData) ∧ ec'.Valid ∧
      (noData = false → 0 < ec'.offsetX) := by
  obtain ⟨hwr, hle, hrd, hx, hxe, hmax⟩ := h
  rw [computeEcho]
  by_cases hempty : ec.offsetRd ≤ ec.offsetWr
  · rw [if_pos hempty]
    exact ⟨ec, true, rfl, ⟨hwr, hle, hrd, hx, hxe, hmax⟩, fun hfalse => absurd hfalse (by decide)⟩
  · rw [if_neg hempty]
    have hbounds : 1 ≤ min (ec.offsetRd - ec.offsetWr) nTaps ∧
        min (ec.offsetRd - ec.offsetWr) nTaps ≤ ec.offsetRd ∧
        min (ec.offsetRd - ec.offsetWr) nTaps ≤ nTaps := by
      simp only [nTaps_eq]
      omega
    rw [u16_sub hle hrd]
    simp only [clamp_eq]
    rw [loadComplexX_some hrd hbounds.1 hbounds.2.1, Option.bind_eq_bind, Option.bind_some,
      convoluteFir_some]
    exact ⟨_, _, rfl, ⟨hwr, hle, hrd, hbounds.2.2, hbounds.2.2.trans he, hmax⟩, fun _ => hbounds.1⟩

theorem compute_valid (adapt : ℕ → Bool) {ec : Ec} (h : ec.Valid) :
    ∃ ec' noData, compute adapt ec = some (ec', noData) ∧ ec'.Valid ∧
      (noData = false → 0 < ec'.offsetX) := by
  rw [compute]
  by_cases he : ec.offsetE < nTaps
  · obtain ⟨ec', reset, hsub, hvalid, hroom⟩ := computeSub_valid adapt h he
    rw [if_pos he, hsub]
    cases reset with
    | true => exact ⟨ec', true, rfl, hvalid, fun hfalse => absurd hfalse (by decide)⟩
    | false => exact computeEcho_valid hvalid (hroom rfl)
  · rw [if_neg he]
    exact computeEcho_valid h (Nat.le_of_not_lt he)

/-- So many samples are taken off both offsets. -/
theorem subtracts_some {n : ℕ} {ec : Ec} (h : ec.Valid) (hn : n ≤ ec.offsetX) :
    subtracts n ec = some { ec with offsetX := ec.offsetX - n, offsetE := ec.offsetE - n } := by
  induction n generalizing ec with
  | zero => rfl
  | succ n ih =>
    obtain ⟨hwr, hle, hrd, hx, hxe, hmax⟩ := h
    have hstep : subtract ec =
        some { ec with offsetX := ec.offsetX - 1, offsetE := ec.offsetE - 1 } := by
      have h1 : touch sizeE0 (ec.offsetX - 1 : ℕ) = some () :=
        touch_some (by simp only [nTaps_eq, sizeE0_eq] at *; omega)
      have h2 : touch sizeET (ec.offsetE - 1 : ℕ) = some () :=
        touch_some (by simp only [nTaps_eq, sizeET_eq] at *; omega)
      rw [subtract, if_neg (by omega)]
      simp only
      rw [h1, Option.bind_eq_bind, Option.bind_some, h2]
      rfl
    have hnext := @ih { ec with offsetX := ec.offsetX - 1, offsetE := ec.offsetE - 1 }
      ⟨hwr, hle, hrd, by simp only; omega, by simp only; omega, by simp only; omega⟩
      (by simp only; omega)
    rw [subtracts, hstep, Option.bind_eq_bind, Option.bind_some, hnext]
    simp only [Nat.sub_sub, Nat.add_comm 1 n]

/-! ## What is called keeps the offsets -/

/-- **One sample** of the feeder.  When the write offset gets to the end of the buffer, both offsets move on. -/
theorem feedSample_valid {ec : Ec} (h : ec.Valid) : ∃ ec', feedSample ec = some ec' ∧ ec'.Valid := by
  obtain ⟨hwr, hle, hrd, hx, hxe, hmax⟩ := h
  have htouch : touch sizeX0 ec.offsetWr = some () :=
    touch_some (by simp only [fSize_eq, sizeX0_eq] at *; omega)
  rw [feedSample, htouch, Option.bind_eq_bind, Option.bind_some]
  split_ifs with hzero
  · have hcopy : (times fSize fun k => do touch sizeX0 k; touch sizeX0 (fSize + k)) = some () := by
      refine times_some fun k hk => ?_
      simp only [fSize_eq, sizeX0_eq] at *
      exact seq_some (touch_some (by omega)) (touch_some (by omega))
    have hu : u16 (ec.offsetRd + fSize) = ec.offsetRd + fSize := by
      have hu := u16_cast (ec.offsetRd + fSize)
      simp only [fSize_eq, rSize_eq] at *
      omega
    rw [hcopy, Option.bind_some, hu]
    simp only [clamp_eq]
    refine ⟨_, rfl, ⟨le_rfl, ?_, ?_, hx, hxe, hmax⟩⟩
    all_goals simp only [fSize_eq, rSize_eq] at *
    all_goals omega
  · refine ⟨_, rfl, ⟨?_, ?_, hrd, hx, hxe, hmax⟩⟩
    all_goals simp only
    all_goals omega

theorem feedSamples_valid (len : ℕ) {ec : Ec} (h : ec.Valid) :
    ∃ ec', feedSamples len ec = some ec' ∧ ec'.Valid := by
  induction len generalizing ec with
  | zero => exact ⟨ec, rfl, h⟩
  | succ len ih =>
    obtain ⟨ec₁, hstep, h₁⟩ := feedSample_valid h
    rw [feedSamples, hstep, Option.bind_eq_bind, Option.bind_some]
    exact ih h₁

/-- **The feeder** keeps the offsets: the range check that is made first changes nothing. -/
theorem feed_valid (len : ℕ) {ec : Ec} (h : ec.Valid) : ∃ ec', feed ec len = some ec' ∧ ec'.Valid := by
  rw [feed, clamp_eq, min_eq_left h.wr]
  exact feedSamples_valid len h

/-- **The merger is updated**: the range checks change nothing, and only the adjustment is written. -/
theorem updateMerger_valid (rxTime : ℕ) {ec : Ec} (h : ec.Valid) : (updateMerger ec rxTime).Valid := by
  obtain ⟨hwr, hle, hrd, hx, hxe, hmax⟩ := h
  rw [updateMerger]
  simp only [clamp_eq, min_eq_left hwr, min_eq_left hrd, if_neg (Nat.not_lt_of_le hle)]
  split_ifs
  · exact ⟨hwr, hle, hrd, hx, hxe, hmax⟩
  · exact ⟨hwr, hle, hrd, hx, hxe, hmax⟩

/-- At the start of a round there is echo. -/
theorem moreEcho_valid (adapt : ℕ → Bool) {ec : Ec} (h : ec.Valid) :
    ∃ ec', moreEcho adapt ec = some ec' ∧ ec'.Valid := by
  rw [moreEcho]
  split_ifs with hzero
  · obtain ⟨ec', noData, hcompute, hvalid, -⟩ := compute_valid adapt h
    rw [hcompute]
    cases noData with
    | true => exact ⟨coeffsReset ec', rfl, valid_coeffsReset hvalid⟩
    | false => exact ⟨ec', rfl, hvalid⟩
  · exact ⟨ec, rfl, h⟩

/-- **The merger** ends: each round but the last takes at least one of the samples. -/
theorem merge_valid (adapt : ℕ → Bool) {fuel readLen : ℕ} (hfuel : readLen < fuel) {ec : Ec}
    (h : ec.Valid) : ∃ ec', merge adapt fuel ec readLen = some ec' ∧ ec'.Valid := by
  induction fuel generalizing ec readLen with
  | zero => exact absurd hfuel (Nat.not_lt_zero _)
  | succ fuel ih =>
    rw [merge]
    by_cases hempty : ec.offsetRd ≤ ec.offsetWr
    · rw [if_pos hempty]
      exact ⟨ec, rfl, h⟩
    · obtain ⟨ec₁, hecho, h₁⟩ := moreEcho_valid adapt h
      rw [if_neg hempty, hecho, Option.bind_eq_bind, Option.bind_some, u16_sub h₁.wr_le_rd h₁.rd]
      simp only [clamp_eq]
      obtain ⟨n, hn⟩ : ∃ n, n = min (min (ec₁.offsetRd - ec₁.offsetWr) readLen) ec₁.offsetX :=
        ⟨_, rfl⟩
      rw [← hn]
      by_cases hzero : n = 0
      · rw [if_pos hzero]
        exact ⟨ec₁, rfl, h₁⟩
      · obtain ⟨hwr, hle, hrd, hx, hxe, hmax⟩ := h₁
        have hsub := subtracts_some ⟨hwr, hle, hrd, hx, hxe, hmax⟩ (show n ≤ ec₁.offsetX by omega)
        rw [if_neg hzero, hsub, Option.bind_some]
        simp only
        rw [u16_sub (show n ≤ ec₁.offsetRd by omega) hrd]
        refine ih (by omega) ⟨hwr, ?_, ?_, ?_, ?_, ?_⟩
        all_goals simp only
        all_goals omega

/-! ## Any interleaving -/

/-- What is called from the outside. -/
inductive EcCall where
  | feed (len : ℕ)
  | updateFeeder (txTime : ℕ)
  | updateMerger (rxTime : ℕ)
  | merge (readLen : ℕ)

/-- One call.  A round of `i4b_echo_cancel_merge` is made for each of the samples, and one more. -/
def Ec.call (adapt : ℕ → Bool) (ec : Ec) : EcCall → Option Ec
  | .feed len => L1.feed ec len
  | .updateFeeder txTime => some (L1.updateFeeder ec txTime)
  | .updateMerger rxTime => some (L1.updateMerger ec rxTime)
  | .merge readLen => L1.merge adapt (readLen + 1) ec readLen

/-- Each call keeps the offsets. -/
theorem call_valid (adapt : ℕ → Bool) (c : EcCall) {ec : Ec} (h : ec.Valid) :
    ∃ ec', ec.call adapt c = some ec' ∧ ec'.Valid := by
  cases c with
  | feed len => exact feed_valid len h
  | updateFeeder txTime => exact ⟨_, rfl, ⟨h.wr, h.wr_le_rd, h.rd, h.x, h.x_le_e, h.e⟩⟩
  | updateMerger rxTime => exact ⟨_, rfl, updateMerger_valid rxTime h⟩
  | merge readLen => exact merge_valid adapt (Nat.lt_succ_self readLen) h

theorem calls_keep (adapt : ℕ → Bool) (cs : List EcCall) {ec : Ec} (h : ec.Valid) :
    ∃ ec', cs.foldlM (Ec.call adapt) ec = some ec' ∧ ec'.Valid := by
  induction cs generalizing ec with
  | nil => exact ⟨ec, rfl, h⟩
  | cons c cs ih =>
    obtain ⟨ec₁, hcall, h₁⟩ := call_valid adapt c h
    rw [List.foldlM_cons, hcall, Option.bind_eq_bind, Option.bind_some]
    exact ih h₁

/-- **Any interleaving of calls** stays within all arrays and takes nothing off an offset that is zero: it
runs to its end, the loops of `i4b_echo_cancel_merge` included, and all offsets are within their bounds. -/
theorem calls_valid (preDelay : ℕ) (adapt : ℕ → Bool) (cs : List EcCall) :
    ∃ ec, cs.foldlM (Ec.call adapt) (echoCancelInit preDelay) = some ec ∧
      ec.offsetWr ≤ fSize - 1 ∧ ec.offsetWr ≤ ec.offsetRd ∧ ec.offsetRd ≤ rSize - 1 ∧
      ec.offsetX ≤ nTaps ∧ ec.offsetE ≤ 4 * nTaps := by
  obtain ⟨ec, hrun, h⟩ := calls_keep adapt cs (valid_init preDelay)
  exact ⟨ec, hrun, h.wr, h.wr_le_rd, h.rd, h.x, h.e⟩

end L1
end Isdn4bsd
