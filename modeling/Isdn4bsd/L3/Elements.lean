import Isdn4bsd.L3.Decode

/-!
# Layer 3: the elements of a message

`dss1_decode_ie` once more, with the windows that it steps over and with the buffer that it leaves:
the length of the buffer is narrowed for an element and restored after it.

* `decodeIeSteps` : the windows, with the codeset in force at each of them.
* `Buf.Covers` : windows one after the other, that leave nothing out.
* `decodeIe_covers` : **the loop ends, its windows cover what is left of the message, and each element
  is read on its own.**

A message comes from the other end of the line, and nothing in it need be right.  An element may say that
it is longer than the message; then its window ends with the message, and the next round finds nothing left.
What is read in a window depends on the octetts of the window only (`dss1DecodeQ931Cs0IeCd_congr`), as reading
behind it gives zero, so a wrong length in one element does not make the function read another one.

The loop of the source has no counter.  `decodeIeLoop` has as many rounds as there are octetts, and
`decodeIeSteps_mono` says that more of them would change nothing, since each round moves the offset by
one octett at least.  The buffer of 16 bits is the only condition: the offset must not wrap.
-/

set_option autoImplicit false

namespace Isdn4bsd
namespace L3

namespace Buf

/-! ## Windows -/

/-- The octett is in the window. -/
def Holds (b : Buf) (i : Nat) : Prop := b.offset ≤ i ∧ i < b.len

/-- The windows, one after the other, hold the octetts that the buffer holds. -/
structure Covers (b : Buf) (ws : List Buf) : Prop where
  /-- Each window is of the same memory, and holds something. -/
  window : ∀ w ∈ ws, w.start = b.start ∧ w.offset < w.len
  ordered : ws.Pairwise fun v w => v.len ≤ w.offset
  holds_iff : ∀ i, (∃ w ∈ ws, w.Holds i) ↔ b.Holds i

/-- What is read in a window is in the window. -/
theorem get1_congr {w : Buf} {mem : List UInt8}
    (h : ∀ i, w.Holds i → mem.getD i 0 = w.start.getD i 0) (offset : Nat) :
    ({ w with start := mem } : Buf).get1 offset = w.get1 offset := by
  have hvalid : ({ w with start := mem } : Buf).getValid offset ↔ w.getValid offset := Iff.rfl
  rw [get1, get1]
  by_cases hv : w.getValid offset
  · rw [if_pos (hvalid.mpr hv), if_pos hv]
    exact congrArg UInt8.toNat (h _ hv)
  · rw [if_neg (mt hvalid.mp hv), if_neg hv]

theorem getBytes_congr {w : Buf} {mem : List UInt8}
    (h : ∀ i, w.Holds i → mem.getD i 0 = w.start.getD i 0) (k offset : Nat) :
    ({ w with start := mem } : Buf).getBytes k offset = w.getBytes k offset := by
  induction k generalizing offset with
  | zero => rfl
  | succ k ih =>
    rw [getBytes, getBytes, get1_congr h, ih]
    rfl

/-- Nothing is covered by no windows. -/
theorem covers_nil {b : Buf} (h : b.len ≤ b.offset) : b.Covers [] where
  window := fun w hw => absurd hw List.not_mem_nil
  ordered := .nil
  holds_iff := fun i =>
    iff_of_false (fun ⟨w, hw, _⟩ => absurd hw List.not_mem_nil) fun hi => by
      have := hi.1
      have := hi.2
      omega

/-- A window, and what covers the rest. -/
theorem Covers.cons {b w : Buf} {ws : List Buf} (hstart : w.start = b.start)
    (hoffset : w.offset = b.offset) (hpos : w.offset < w.len) (hlen : w.len ≤ b.len)
    (h : ({ b with offset := w.len } : Buf).Covers ws) : b.Covers (w :: ws) where
  window := by
    intro v hv
    rcases List.mem_cons.mp hv with rfl | hv
    · exact ⟨hstart, hpos⟩
    · exact h.window v hv
  ordered := by
    refine .cons (fun v hv => ?_) h.ordered
    exact ((h.holds_iff v.offset).mp ⟨v, hv, le_refl _, (h.window v hv).2⟩).1
  holds_iff := by
    intro i
    have hrest := h.holds_iff i
    simp only [Holds] at hrest ⊢
    simp only [List.mem_cons, exists_eq_or_imp, hrest]
    omega

end Buf

theorem getMulti1_congr {w : Buf} {mem : List UInt8}
    (h : ∀ i, w.Holds i → mem.getD i 0 = w.start.getD i 0) (offset len : Nat) (filter : Bool) :
    getMulti1 { w with start := mem } offset len filter = getMulti1 w offset len filter := by
  rw [getMulti1, getMulti1, Buf.getBytes_congr h]

/-- What the function stores in a call descriptor is in the window. -/
theorem dss1DecodeQ931Cs0IeCd_congr {w : Buf} {mem : List UInt8}
    (h : ∀ i, w.Holds i → mem.getD i 0 = w.start.getD i 0) (env : Env) (ntMode : Bool)
    (cd : CallDesc) :
    dss1DecodeQ931Cs0IeCd env ntMode cd { w with start := mem } =
      dss1DecodeQ931Cs0IeCd env ntMode cd w := by
  simp only [dss1DecodeQ931Cs0IeCd, decodeCallingpn, appendCalledpn, decodeChannelId, getString,
    Buf.get1_congr h, getMulti1_congr h]

/-! ## The loop -/

namespace Buf

/-- The element at the offset: the length of the buffer is narrowed to it. -/
def element (b : Buf) : Buf :=
  let msgLen := if b.get1 0 &&& 0x80 = 0 then b.get1 1 + 2 else 1
  b.setLength ((b.offset + msgLen) % 2 ^ 16)

theorem setLength_start (b : Buf) (newLen : Nat) : (b.setLength newLen).start = b.start := by
  rw [setLength]
  split
  · rfl
  · rfl

theorem element_start (b : Buf) : b.element.start = b.start := b.setLength_start _

theorem get1_lt (b : Buf) (offset : Nat) : b.get1 offset < 256 := by
  rw [get1]
  split
  · exact UInt8.toNat_lt _
  · decide

/-- The element holds its first octett, and no octett that the buffer does not hold. -/
theorem element_len (b : Buf) (hlen : b.len ≤ 65535 - 257) (hv : b.getValid 0) :
    b.element.offset = b.offset ∧ b.element.offset < b.element.len ∧ b.element.len ≤ b.len := by
  have hvalid := hv.2
  have hsecond := b.get1_lt 1
  rw [Nat.zero_add] at hvalid
  have hoff := hv.1
  rw [Nat.zero_add] at hoff
  have hmod := Nat.mod_le b.offset (2 ^ 16)
  have hmsg : 1 ≤ (if b.get1 0 &&& 0x80 = 0 then b.get1 1 + 2 else 1) ∧
      (if b.get1 0 &&& 0x80 = 0 then b.get1 1 + 2 else 1) ≤ 257 := by
    split <;> omega
  rw [element, setLength]
  generalize (if b.get1 0 &&& 0x80 = 0 then b.get1 1 + 2 else 1) = msgLen at hmsg ⊢
  rw [Nat.mod_eq_of_lt (by omega : b.offset + msgLen < 2 ^ 16)]
  split
  · exact ⟨rfl, by simp only; omega, by simp only; omega⟩
  · exact ⟨rfl, by omega, le_rfl⟩

end Buf

/-- The codesets after an element: the one that is in force, and the one that comes next. -/
def shiftCodeset (msgType codeset next : Nat) : Nat × Nat :=
  if msgType &&& 0xf0 = 0x90 then
    let shifted := msgType &&& 0x07
    (shifted, if msgType &&& 0x08 ≠ 0 then shifted else codeset)
  else (next, next)

/-- The loop of `dss1_decode_ie`, with that many rounds left: the windows that it steps over, each
with the codeset that is in force, and the buffer that it leaves. -/
def decodeIeSteps : Nat → Nat → Nat → Buf → Option (List (Nat × Buf) × Buf)
  | 0, _, _, _ => none
  | fuel + 1, codeset, next, b =>
    if b.getValid 0 then
      let msgType := b.get1 0
      let oldLen := b.len
      let b := b.element
      let after := shiftCodeset msgType codeset next
      (decodeIeSteps fuel after.1 after.2 { b with offset := b.len, len := oldLen }).map fun r =>
        ((codeset, b) :: r.1, r.2)
    else some ([], b)

/-- What is shown to the function. -/
def dispatch {α : Type} (f : α → Buf → α) (a : α) (step : Nat × Buf) : α :=
  if step.1 = 0 then f a step.2 else a

theorem decodeIeSteps_of_valid {b : Buf} (hv : b.getValid 0) (fuel codeset next : Nat) :
    decodeIeSteps (fuel + 1) codeset next b =
      (decodeIeSteps fuel (shiftCodeset (b.get1 0) codeset next).1
        (shiftCodeset (b.get1 0) codeset next).2 { b with offset := b.element.len }).map fun r =>
          ((codeset, b.element) :: r.1, r.2) := by
  have hsame : ({ b.element with offset := b.element.len, len := b.len } : Buf) =
      { b with offset := b.element.len } := by
    show (⟨b.element.start, b.element.len, b.len⟩ : Buf) = ⟨b.start, b.element.len, b.len⟩
    rw [b.element_start]
  rw [decodeIeSteps, if_pos hv]
  dsimp only
  rw [hsame]

theorem decodeIeSteps_of_invalid {b : Buf} (hv : ¬ b.getValid 0) (fuel codeset next : Nat) :
    decodeIeSteps (fuel + 1) codeset next b = some ([], b) := by
  rw [decodeIeSteps, if_neg hv]

theorem decodeIeLoop_of_valid {α : Type} {f : α → Buf → α} {b : Buf} (hv : b.getValid 0)
    (rounds codeset next : Nat) (a : α) :
    decodeIeLoop f (rounds + 1) codeset next a b =
      decodeIeLoop f rounds (shiftCodeset (b.get1 0) codeset next).1
        (shiftCodeset (b.get1 0) codeset next).2 (dispatch f a (codeset, b.element))
        { b with offset := b.element.len } := by
  rw [decodeIeLoop, if_pos hv, shiftCodeset]
  dsimp only
  split
  · rfl
  · rfl

theorem decodeIeLoop_of_invalid {α : Type} {f : α → Buf → α} {b : Buf} (hv : ¬ b.getValid 0)
    (rounds codeset next : Nat) (a : α) : decodeIeLoop f rounds codeset next a b = a := by
  cases rounds with
  | zero => rfl
  | succ rounds => rw [decodeIeLoop, if_neg hv]

/-- The elements are shown to the function in their order. -/
theorem decodeIeLoop_eq_foldl {α : Type} (f : α → Buf → α) :
    ∀ {fuel : Nat} {codeset next : Nat} {b b' : Buf} {steps : List (Nat × Buf)},
      decodeIeSteps fuel codeset next b = some (steps, b') → ∀ (rounds : Nat) (a : α),
        steps.length ≤ rounds →
          decodeIeLoop f rounds codeset next a b = steps.foldl (dispatch f) a
  | 0, _, _, _, _, _, h, _, _, _ => by cases h
  | fuel + 1, codeset, next, b, b', steps, h, rounds, a, hr => by
    by_cases hv : b.getValid 0
    · rw [decodeIeSteps_of_valid hv] at h
      obtain ⟨r, hrest, heq⟩ := Option.map_eq_some_iff.mp h
      cases heq
      cases rounds with
      | zero => exact absurd hr (by simp)
      | succ rounds =>
        rw [decodeIeLoop_of_valid hv, List.foldl_cons]
        exact decodeIeLoop_eq_foldl f hrest rounds _ (by simpa using hr)
    · rw [decodeIeSteps_of_invalid hv] at h
      cases h
      exact decodeIeLoop_of_invalid hv _ _ _ _

/-- An invariant of what an element does is one of all elements. -/
theorem decodeIeLoop_ind {α : Type} {P : α → Prop} {f : α → Buf → α} (hf : ∀ a b, P a → P (f a b)) :
    ∀ (fuel codeset next : Nat) (a : α) (b : Buf), P a → P (decodeIeLoop f fuel codeset next a b)
  | 0, _, _, _, _, h => h
  | fuel + 1, codeset, next, a, b, h => by
    rw [decodeIeLoop]
    dsimp only
    have h1 : P (if codeset = 0 then
        f a (b.setLength ((b.offset + if b.get1 0 &&& 0x80 = 0 then b.get1 1 + 2 else 1) % 2 ^ 16))
        else a) := by
      split
      · exact hf a _ h
      · exact h
    split
    · split
      · exact decodeIeLoop_ind hf fuel _ _ _ _ h1
      · exact decodeIeLoop_ind hf fuel _ _ _ _ h1
    · exact h

/-- The loop ends, after no more rounds than octetts are left. -/
theorem decodeIeSteps_covers : ∀ (fuel codeset next : Nat) (b : Buf), b.len ≤ 65535 - 257 →
    b.len - b.offset < fuel → ∃ steps b', decodeIeSteps fuel codeset next b = some (steps, b') ∧
      b'.len = b.len ∧ b.Covers (steps.map Prod.snd) ∧ steps.length ≤ b.len - b.offset
  | 0, _, _, _, _, hf => absurd hf (by omega)
  | fuel + 1, codeset, next, b, hlen, hf => by
    by_cases hv : b.getValid 0
    · obtain ⟨hoffset, hpos, hle⟩ := b.element_len hlen hv
      obtain ⟨steps, b', hsteps, hb', hcovers, hcount⟩ := decodeIeSteps_covers fuel
        (shiftCodeset (b.get1 0) codeset next).1 (shiftCodeset (b.get1 0) codeset next).2
        { b with offset := b.element.len } hlen (by simp only; omega)
      refine ⟨(codeset, b.element) :: steps, b', ?_, hb', ?_, ?_⟩
      · rw [decodeIeSteps_of_valid hv, hsteps]
        rfl
      · exact hcovers.cons b.element_start hoffset hpos hle
      · simp only [List.length_cons] at hcount ⊢
        omega
    · refine ⟨[], b, decodeIeSteps_of_invalid hv _ _ _, rfl, Buf.covers_nil ?_, by simp⟩
      by_contra hlt
      refine hv ⟨?_, ?_⟩
      · rw [Nat.mod_eq_of_lt (by omega)]
        omega
      · rw [Nat.mod_eq_of_lt (by omega)]
        omega

/-- More rounds than needed change nothing. -/
theorem decodeIeSteps_mono {r : List (Nat × Buf) × Buf} : ∀ {fuel fuel' codeset next : Nat} {b : Buf},
    decodeIeSteps fuel codeset next b = some r → fuel ≤ fuel' →
      decodeIeSteps fuel' codeset next b = some r
  | 0, _, _, _, _, h, _ => by cases h
  | fuel + 1, 0, _, _, _, _, hle => absurd hle (by omega)
  | fuel + 1, fuel' + 1, codeset, next, b, h, hle => by
    by_cases hv : b.getValid 0
    · rw [decodeIeSteps_of_valid hv] at h ⊢
      obtain ⟨r', hrest, heq⟩ := Option.map_eq_some_iff.mp h
      rw [decodeIeSteps_mono hrest (by omega), ← heq]
      rfl
    · rw [decodeIeSteps_of_invalid hv] at h ⊢
      exact h

/-- **`dss1_decode_ie` ends and stays in bounds**: its windows, of which it shows some to the
function, cover what is left of the message; what is read in a window depends on the octetts of that
window; and the buffer has its length again. -/
theorem decodeIe_covers (b : Buf) (hlen : b.len ≤ 65535 - 257) :
    ∃ steps b', (∀ fuel, b.len < fuel → decodeIeSteps fuel 0 0 b = some (steps, b')) ∧
      b'.len = b.len ∧ b.Covers (steps.map Prod.snd) ∧
      (∀ {α : Type} (f : α → Buf → α) (a : α), dss1DecodeIe f a b = steps.foldl (dispatch f) a) ∧
      ∀ w ∈ steps.map Prod.snd, ∀ mem : List UInt8,
        (∀ i, w.Holds i → mem.getD i 0 = b.start.getD i 0) →
          (∀ offset, ({ w with start := mem } : Buf).get1 offset = w.get1 offset) ∧
          (∀ offset len filter, getMulti1 { w with start := mem } offset len filter =
            getMulti1 w offset len filter) ∧
          ∀ env ntMode cd, dss1DecodeQ931Cs0IeCd env ntMode cd { w with start := mem } =
            dss1DecodeQ931Cs0IeCd env ntMode cd w := by
  obtain ⟨steps, b', hsteps, hb', hcovers, hcount⟩ := decodeIeSteps_covers (b.len + 1) 0 0 b hlen
    (by omega)
  refine ⟨steps, b', fun fuel hf => decodeIeSteps_mono hsteps hf, hb', hcovers, ?_, ?_⟩
  · intro α f a
    exact decodeIeLoop_eq_foldl f hsteps _ _ (by omega)
  · intro w hw mem hmem
    rw [← (hcovers.window w hw).1] at hmem
    exact ⟨Buf.get1_congr hmem, getMulti1_congr hmem, dss1DecodeQ931Cs0IeCd_congr hmem⟩

/-- A shift, an element that says more octetts than there are, and what is left of it. -/
theorem decodeIe_covers_truncated :
    ∃ steps b', decodeIeSteps 6 0 0 (Buf.init [0x96, 0x28, 0x7f, 0x41, 0x42]) = some (steps, b') ∧
      b'.len = 5 ∧ ∀ i, (∃ w ∈ steps.map Prod.snd, w.Holds i) ↔ 0 ≤ i ∧ i < 5 := by
  obtain ⟨steps, b', hsteps, hb', hcovers, -⟩ :=
    decodeIe_covers (Buf.init [0x96, 0x28, 0x7f, 0x41, 0x42]) (by decide)
  exact ⟨steps, b', hsteps 6 (by decide), hb', hcovers.holds_iff⟩

end L3
end Isdn4bsd
