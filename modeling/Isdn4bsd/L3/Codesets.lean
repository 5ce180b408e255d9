import Mathlib.Data.List.GetD
import Isdn4bsd.L3.Elements

/-!
# Layer 3: codesets

A shift changes the codeset: `0x90` to `0x97` for all that follows, and `0x98` to `0x9f` for one
element.  `dss1_decode_ie` reads the bit the other way round.

* `q931Codeset` : the codeset in force after some elements.
* `FollowsQ931` : exactly the elements that are in codeset 0 are shown to the function.
* `followsQ931_iff` : **the elements of a message are shown as they should be, if and only if no two
  of them come one after the other where the codeset that the code went back to is 0 and the one
  that was locked is not, or the other way round.**
* `element_misread` : the second element after a locking shift is read in codeset 0.

## Two readings

Both readings go through the elements with two codesets, the one in force and the one to go back to
(`q931Shift`, `codeShift`).  They differ in which shift sets the second one.  Right after a shift the two
agree, whichever kind it was, which is why most messages are read as they should be: after one shift there
usually is one element.  They can only differ at an element that has another one before it that is no shift,
and there both are back to the second codeset (`inForce_iff`).

`lastLocked` and `lastHeld` say which shift that was.  It does not matter for what is shown which codeset it
is, only whether it is 0: the condition (`ShiftsAgree`) is about that, for every two elements in a row.
-/

set_option autoImplicit false

namespace Isdn4bsd
namespace L3

/-! ## Shifts -/

/-- The octett is a shift. -/
def IsShift (o : Nat) : Prop := o &&& 0xf0 = 0x90

instance (o : Nat) : Decidable (IsShift o) := inferInstanceAs (Decidable (_ = _))

/-- The codesets after an element, as Q.931 has it: the one that is in force, and the one that is
locked. -/
def q931Shift (p : Nat × Nat) (o : Nat) : Nat × Nat :=
  if IsShift o then (o &&& 0x07, if o &&& 0x08 = 0 then o &&& 0x07 else p.2) else (p.2, p.2)

/-- The codeset in force after these elements, by their first octetts. -/
def q931Codeset (os : List Nat) : Nat := (os.foldl q931Shift (0, 0)).1

/-- The same for the code. -/
def codeShift (p : Nat × Nat) (o : Nat) : Nat × Nat := shiftCodeset o p.1 p.2

theorem codeShift_eq (p : Nat × Nat) (o : Nat) :
    codeShift p o =
      if IsShift o then (o &&& 0x07, if o &&& 0x08 ≠ 0 then o &&& 0x07 else p.1) else (p.2, p.2) :=
  rfl

/-- The codeset of the last locking shift. -/
def lastLocked (os : List Nat) : Nat :=
  os.foldl (fun l o => if IsShift o ∧ o &&& 0x08 = 0 then o &&& 0x07 else l) 0

/-- The codeset of the last shift that is not a locking one, or that another shift comes right
after. -/
def lastHeld (h : Nat) : List Nat → Nat
  | [] => h
  | o :: os =>
    lastHeld (if IsShift o ∧ (o &&& 0x08 ≠ 0 ∨ ∃ s ∈ os.head?, IsShift s) then o &&& 0x07 else h) os

theorem q931Shift_foldl_snd (os : List Nat) (p : Nat × Nat) :
    (os.foldl q931Shift p).2 =
      os.foldl (fun l o => if IsShift o ∧ o &&& 0x08 = 0 then o &&& 0x07 else l) p.2 := by
  induction os generalizing p with
  | nil => rfl
  | cons o os ih =>
    rw [List.foldl_cons, List.foldl_cons, ih]
    congr 1
    rw [q931Shift]
    by_cases hs : IsShift o
    · rw [if_pos hs]
      simp only [hs, true_and]
    · rw [if_neg hs, if_neg fun h => hs h.1]

/-- What the code goes back to. -/
theorem codeShift_foldl_snd (os : List Nat) (p : Nat × Nat) :
    (os.foldl codeShift p).2 = lastHeld (if ∃ s ∈ os.head?, IsShift s then p.1 else p.2) os := by
  induction os generalizing p with
  | nil => simp [lastHeld]
  | cons o os ih =>
    rw [List.foldl_cons, ih, lastHeld, codeShift_eq]
    congr 1
    by_cases hs : IsShift o
    · rw [if_pos hs, if_pos (show ∃ s ∈ (o :: os).head?, IsShift s from ⟨o, rfl, hs⟩)]
      by_cases hnext : ∃ s ∈ os.head?, IsShift s
      · have hheld : IsShift o ∧ (o &&& 0x08 ≠ 0 ∨ ∃ s ∈ os.head?, IsShift s) := ⟨hs, .inr hnext⟩
        rw [if_pos hnext, if_pos hheld]
      · by_cases hbit : o &&& 0x08 ≠ 0
        · have hheld : IsShift o ∧ (o &&& 0x08 ≠ 0 ∨ ∃ s ∈ os.head?, IsShift s) := ⟨hs, .inl hbit⟩
          rw [if_neg hnext, if_pos hbit, if_pos hheld]
        · rw [if_neg hnext, if_neg hbit, if_neg fun h => h.2.elim hbit hnext]
    · rw [if_neg hs, ite_self, if_neg fun h => hs h.1,
        if_neg (show ¬ ∃ s ∈ (o :: os).head?, IsShift s by simpa using hs)]

/-! ## Messages -/

/-- The elements of a message. -/
def elements (b : Buf) : List Buf :=
  ((decodeIeSteps (b.len + 1) 0 0 b).map fun r => r.1.map Prod.snd).getD []

/-- The elements that are shown to the function. -/
def dispatched (b : Buf) : List Buf := dss1DecodeIe (fun shown w => shown ++ [w]) [] b

/-- Of the elements that are not shifts, exactly those in codeset 0 are shown to the function, in
their order. -/
structure FollowsQ931 (b : Buf) : Prop where
  sublist : (dispatched b).Sublist (elements b)
  mem_iff : ∀ pre w post, elements b = pre ++ w :: post → ¬ IsShift (w.get1 0) →
    (w ∈ dispatched b ↔ q931Codeset (pre.map fun v => v.get1 0) = 0)

theorem element_get1 {b : Buf} (hlen : b.len ≤ 65535 - 257) (hv : b.getValid 0) :
    b.element.get1 0 = b.get1 0 := by
  obtain ⟨hoffset, hpos, hle⟩ := b.element_len hlen hv
  have hmod : (0 + b.offset) % 2 ^ 16 = b.offset := by
    rw [Nat.zero_add]
    exact Nat.mod_eq_of_lt (by omega)
  have hve : b.element.getValid 0 := by
    rw [Buf.getValid, hoffset, hmod]
    omega
  rw [Buf.get1, Buf.get1, if_pos hve, if_pos hv, b.element_start, hoffset]

/-- The codeset that each window is stepped over in. -/
theorem decodeIeSteps_codeset : ∀ {fuel : Nat} {p : Nat × Nat} {b b' : Buf}
    {steps : List (Nat × Buf)}, b.len ≤ 65535 - 257 → decodeIeSteps fuel p.1 p.2 b = some (steps, b') →
      ∀ pre s post, steps = pre ++ s :: post →
        s.1 = ((pre.map fun t => t.2.get1 0).foldl codeShift p).1
  | 0, _, _, _, _, _, h, _, _, _, _ => by cases h
  | fuel + 1, p, b, b', steps, hlen, h, pre, s, post, hsplit => by
    by_cases hv : b.getValid 0
    · rw [decodeIeSteps_of_valid hv] at h
      obtain ⟨r, hrest, heq⟩ := Option.map_eq_some_iff.mp h
      cases heq
      cases pre with
      | nil =>
        cases hsplit
        rfl
      | cons t pre =>
        rw [List.cons_append, List.cons.injEq] at hsplit
        obtain ⟨rfl, hsplit⟩ := hsplit
        rw [List.map_cons, List.foldl_cons, element_get1 hlen hv]
        exact decodeIeSteps_codeset (p := codeShift p (b.get1 0))
          (b := { b with offset := b.element.len }) hlen hrest pre s post hsplit
    · rw [decodeIeSteps_of_invalid hv] at h
      cases h
      exact absurd hsplit (by simp)

/-- A window is at one place only. -/
theorem Buf.Covers.eq_of_mem {b w : Buf} {pre post : List Buf} (h : b.Covers (pre ++ w :: post)) :
    w ∉ pre ∧ w ∉ post := by
  have hpos := (h.window w (by simp)).2
  have hordered := List.pairwise_append.mp h.ordered
  refine ⟨fun hw => ?_, fun hw => ?_⟩
  · have := hordered.2.2 w hw w (by simp)
    omega
  · have := (List.pairwise_cons.mp hordered.2.1).1 w hw
    omega

theorem foldl_dispatch (steps : List (Nat × Buf)) (shown : List Buf) :
    steps.foldl (dispatch fun shown w => shown ++ [w]) shown =
      shown ++ (steps.filter fun s => s.1 = 0).map Prod.snd := by
  induction steps generalizing shown with
  | nil => simp
  | cons s steps ih =>
    rw [List.foldl_cons, ih, dispatch]
    by_cases hs : s.1 = 0
    · rw [if_pos hs, List.filter_cons_of_pos (by simpa using hs), List.map_cons, List.append_assoc]
      rfl
    · rw [if_neg hs, List.filter_cons_of_neg (by simpa using hs)]

/-- The elements of a message, and those that are shown. -/
theorem exists_steps {b : Buf} (hlen : b.len ≤ 65535 - 257) :
    ∃ steps : List (Nat × Buf), elements b = steps.map Prod.snd ∧ b.Covers (elements b) ∧
      dispatched b = (steps.filter fun s => s.1 = 0).map Prod.snd ∧
      ∀ pre s post, steps = pre ++ s :: post →
        s.1 = ((pre.map fun t => t.2.get1 0).foldl codeShift (0, 0)).1 := by
  obtain ⟨steps, b', hsteps, -, hcovers, hcount⟩ := decodeIeSteps_covers (b.len + 1) 0 0 b hlen
    (by omega)
  have hel : elements b = steps.map Prod.snd := by
    rw [elements, hsteps]
    rfl
  refine ⟨steps, hel, hel ▸ hcovers, ?_, decodeIeSteps_codeset (p := (0, 0)) hlen hsteps⟩
  rw [dispatched, dss1DecodeIe, decodeIeLoop_eq_foldl _ hsteps _ _ (by omega), foldl_dispatch]
  rfl

/-- An element is shown if the code has codeset 0 in force. -/
theorem mem_dispatched_iff {b : Buf} (hlen : b.len ≤ 65535 - 257) {pre post : List Buf} {w : Buf}
    (h : elements b = pre ++ w :: post) :
    w ∈ dispatched b ↔ ((pre.map fun v => v.get1 0).foldl codeShift (0, 0)).1 = 0 := by
  obtain ⟨steps, hel, hcovers, hdisp, hcodeset⟩ := exists_steps hlen
  rw [h] at hcovers hel
  obtain ⟨pre', rest, rfl, rfl, hrest⟩ := List.map_eq_append_iff.mp hel.symm
  obtain ⟨s, post', rfl, rfl, rfl⟩ := List.map_eq_cons_iff.mp hrest
  have hs : s.1 = ((pre'.map ((fun v => v.get1 0) ∘ Prod.snd)).foldl codeShift (0, 0)).1 :=
    hcodeset pre' s post' rfl
  rw [List.map_map, ← hs, hdisp, List.mem_map]
  refine ⟨?_, fun hs => ⟨s, List.mem_filter.mpr ⟨by simp, by simpa using hs⟩, rfl⟩⟩
  rintro ⟨t, ht, hts⟩
  obtain ⟨hmem, hzero⟩ := List.mem_filter.mp ht
  rcases List.mem_append.mp hmem with hpre | hpost
  · exact absurd (hts ▸ List.mem_map_of_mem hpre) hcovers.eq_of_mem.1
  · rcases List.mem_cons.mp hpost with rfl | hpost
    · simpa using hzero
    · exact absurd (hts ▸ List.mem_map_of_mem hpost) hcovers.eq_of_mem.2

/-! ## When the codesets are right -/

/-- Where two elements come one after the other, the codeset that was locked before them and the one
that the code goes back to are both 0, or none of them is. -/
def ShiftsAgree (os : List Nat) : Prop :=
  ∀ k < os.length - 1, ¬ IsShift (os.getD k 0) → ¬ IsShift (os.getD (k + 1) 0) →
    (lastHeld 0 (os.take k) = 0 ↔ lastLocked (os.take k) = 0)

instance (os : List Nat) : Decidable (ShiftsAgree os) := inferInstanceAs (Decidable (∀ k < _, _))

theorem shiftsAgree_iff (os : List Nat) :
    ShiftsAgree os ↔ ∀ pre x y post, os = pre ++ x :: y :: post → ¬ IsShift x → ¬ IsShift y →
      (lastHeld 0 pre = 0 ↔ lastLocked pre = 0) := by
  constructor
  · rintro h pre x y post rfl hx hy
    have hk := h pre.length (by simp) (by simpa using hx) (by simpa using hy)
    rwa [List.take_left] at hk
  · intro h k hk hx hy
    have hsplit : os = os.take k ++ os.getD k 0 :: os.getD (k + 1) 0 :: os.drop (k + 2) := by
      rw [List.getD_eq_getElem _ _ (by omega), List.getD_eq_getElem _ _ (by omega),
        ← List.drop_eq_getElem_cons, ← List.drop_eq_getElem_cons, List.take_append_drop]
    exact h _ _ _ _ hsplit hx hy

/-- The codesets in force are the same right after a shift, and otherwise those that the two sides
go back to. -/
theorem inForce_iff (pre : List Nat) (x : Nat) :
    ((((pre ++ [x]).foldl codeShift (0, 0)).1 = 0 ↔ q931Codeset (pre ++ [x]) = 0)) ↔
      (¬ IsShift x → (lastHeld 0 pre = 0 ↔ lastLocked pre = 0)) := by
  rw [q931Codeset, List.foldl_append, List.foldl_append, List.foldl_cons, List.foldl_cons,
    List.foldl_nil, List.foldl_nil, codeShift_eq, q931Shift]
  by_cases hs : IsShift x
  · rw [if_pos hs, if_pos hs]
    simp [hs]
  · rw [if_neg hs, if_neg hs, codeShift_foldl_snd, q931Shift_foldl_snd]
    simp only [ite_self, hs, not_false_eq_true, forall_true_left]
    rfl

/-- **When exactly the elements of codeset 0 are shown**. -/
theorem followsQ931_iff (b : Buf) (hlen : b.len ≤ 65535 - 257) :
    FollowsQ931 b ↔ ShiftsAgree ((elements b).map fun w => w.get1 0) := by
  constructor
  · refine fun h => (shiftsAgree_iff _).mpr fun pre x y post hos hx hy => ?_
    obtain ⟨vs, rest, hel, rfl, hrest⟩ := List.map_eq_append_iff.mp hos
    obtain ⟨v, rest', rfl, rfl, hrest'⟩ := List.map_eq_cons_iff.mp hrest
    obtain ⟨w, post', rfl, rfl, -⟩ := List.map_eq_cons_iff.mp hrest'
    have hsplit : elements b = (vs ++ [v]) ++ w :: post' := by
      rw [hel, List.append_assoc]
      rfl
    have hmem := (mem_dispatched_iff hlen hsplit).symm.trans (h.mem_iff _ _ _ hsplit hy)
    rw [List.map_append] at hmem
    exact (inForce_iff _ _).mp hmem hx
  · intro h
    refine ⟨?_, fun pre w post hsplit hw => ?_⟩
    · obtain ⟨steps, hel, -, hdisp, -⟩ := exists_steps hlen
      rw [hel, hdisp]
      exact List.filter_sublist.map _
    · rw [mem_dispatched_iff hlen hsplit]
      rcases List.eq_nil_or_concat pre with rfl | ⟨vs, v, rfl⟩
      · exact Iff.rfl
      · rw [List.concat_eq_append, List.map_append]
        refine (inForce_iff _ _).mpr fun hx =>
          (shiftsAgree_iff _).mp h _ _ _ (post.map fun w => w.get1 0) ?_ hx hw
        rw [hsplit, List.concat_eq_append]
        simp

/-- Two elements, a locking shift to codeset 6, and one element: what is shown is right. -/
theorem followsQ931_iff_last :
    FollowsQ931 (Buf.init [0x28, 0x01, 0x41, 0x28, 0x01, 0x42, 0x96, 0x28, 0x01, 0x43]) :=
  (followsQ931_iff _ (by decide)).mpr (by decide)

/-- **The second element after a locking shift is read in codeset 0.** -/
theorem element_misread :
    ¬ FollowsQ931 (Buf.init [0x96, 0x28, 0x01, 0x41, 0x28, 0x01, 0x42]) := by
  have hel : elements (Buf.init [0x96, 0x28, 0x01, 0x41, 0x28, 0x01, 0x42]) =
      [⟨[0x96, 0x28, 0x01, 0x41, 0x28, 0x01, 0x42], 0, 1⟩,
        ⟨[0x96, 0x28, 0x01, 0x41, 0x28, 0x01, 0x42], 1, 4⟩] ++
      ⟨[0x96, 0x28, 0x01, 0x41, 0x28, 0x01, 0x42], 4, 7⟩ :: [] := by
    decide
  intro h
  exact absurd ((h.mem_iff _ _ _ hel (by decide)).mp (by decide)) (by decide)

end L3
end Isdn4bsd
