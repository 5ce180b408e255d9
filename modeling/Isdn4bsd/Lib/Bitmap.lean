import Mathlib.Tactic
import Mathlib.Logic.Function.Basic

/-!
# Bitmaps in words

A bitmap is kept in words of `w` bits, the lowest bit first.

* `getBit_setBit` : the words behave as one row of bits.
* `getLsbD_getWord` : a word may be read at any bit, from two words of the bitmap.

## Reading across words

A program that looks for some bits in a row that are all clear, or takes several channels at once, wants a
word that begins in the middle of another one.  It shifts the word where its first bit is to the right, and the
next word to the left, and puts both together; where the first bit is the first one of a word, the next one is shifted
out as a whole.  `getLsbD_getWord` says that each bit of the result is the bit of the row that it should be.

The bitmap is a function from the number of a word to the word, and so has no end.
-/

set_option autoImplicit false

namespace Isdn4bsd
namespace Bitmap

variable {w : Nat}

/-- The bit at an offset. -/
def getBit (words : Nat → BitVec w) (b : Nat) : Bool := (words (b / w)).getLsbD (b % w)

/-- Set or clear it. -/
def setBit (words : Nat → BitVec w) (b : Nat) (v : Bool) : Nat → BitVec w :=
  Function.update words (b / w)
    (if v then words (b / w) ||| (1#w <<< (b % w)) else words (b / w) &&& ~~~(1#w <<< (b % w)))

/-- The word that starts at an offset. -/
def getWord (words : Nat → BitVec w) (b : Nat) : BitVec w :=
  let t := words (b / w) >>> (b % w)
  if b % w ≠ 0 then t ||| (words (b / w + 1) <<< (w - b % w)) else t

theorem getLsbD_one_shiftLeft {k i : Nat} (hi : i < w) :
    (1#w <<< k).getLsbD i = decide (i = k) := by
  by_cases hlt : i < k
  · simp [hi, hlt, Nat.ne_of_lt hlt]
  · obtain ⟨j, rfl⟩ := Nat.exists_eq_add_of_le (Nat.le_of_not_lt hlt)
    rw [BitVec.getLsbD_shiftLeft, BitVec.getLsbD_one]
    simp [hi, show 0 < w by omega]

/-- **One row of bits.** -/
theorem getBit_setBit (hw : 0 < w) (words : Nat → BitVec w) (b b' : Nat) (v : Bool) :
    getBit (setBit words b v) b' = if b' = b then v else getBit words b' := by
  have hlt : b' % w < w := Nat.mod_lt _ hw
  by_cases hword : b' / w = b / w
  · have hsame : b' % w = b % w ↔ b' = b := by
      refine ⟨fun h => ?_, fun h => by rw [h]⟩
      rw [← Nat.div_add_mod b' w, ← Nat.div_add_mod b w, hword, h]
    rw [getBit, setBit, hword, Function.update_self, getBit, hword]
    cases v with
    | true =>
      rw [if_pos rfl, BitVec.getLsbD_or, getLsbD_one_shiftLeft hlt]
      by_cases h : b' = b
      · simp [h]
      · simp [h, mt hsame.mp h]
    | false =>
      rw [if_neg (by simp), BitVec.getLsbD_and, BitVec.getLsbD_not, getLsbD_one_shiftLeft hlt]
      by_cases h : b' = b
      · simp [h]
      · simp [h, mt hsame.mp h, hlt]
  · have hne : b' ≠ b := fun h => hword (by rw [h])
    rw [getBit, setBit, Function.update_of_ne hword, if_neg hne, getBit]

/-- **A word at any bit.** -/
theorem getLsbD_getWord (words : Nat → BitVec w) (b : Nat) {i : Nat} (hi : i < w) :
    (getWord words b).getLsbD i = getBit words (b + i) := by
  have hw : 0 < w := by omega
  have hlt : b % w < w := Nat.mod_lt _ hw
  have hb : w * (b / w) + b % w = b := Nat.div_add_mod b w
  rw [getWord, getBit]
  by_cases hzero : b % w = 0
  · have hdiv : (b + i) / w = b / w := by
      rw [← hb, hzero, Nat.add_zero, Nat.mul_add_div hw, Nat.div_eq_of_lt hi, Nat.add_zero]
      simp [Nat.mul_div_cancel_left _ hw]
    have hmod : (b + i) % w = i := by rw [Nat.add_mod, hzero, Nat.zero_add, Nat.mod_mod,
      Nat.mod_eq_of_lt hi]
    simp only [hzero, hdiv, hmod]
    simp
  · simp only [ne_eq, hzero, not_false_eq_true, if_true, BitVec.getLsbD_or,
      BitVec.getLsbD_ushiftRight, BitVec.getLsbD_shiftLeft]
    by_cases hin : b % w + i < w
    · have hdiv : (b + i) / w = b / w := by
        conv_lhs => rw [← hb, Nat.add_assoc, Nat.mul_add_div hw, Nat.div_eq_of_lt hin]
        rfl
      have hmod : (b + i) % w = b % w + i := by
        conv_lhs => rw [← hb, Nat.add_assoc, Nat.mul_add_mod, Nat.mod_eq_of_lt hin]
      have hlow : i < w - b % w := by omega
      simp [hdiv, hmod, hlow]
    · have hsum : b % w + i - w < w := by omega
      have hdiv : (b + i) / w = b / w + 1 := by
        have hsplit : b + i = w * (b / w + 1) + (b % w + i - w) := by
          rw [Nat.mul_add, Nat.mul_one]
          omega
        rw [hsplit, Nat.mul_add_div hw, Nat.div_eq_of_lt hsum, Nat.add_zero]
      have hmod : (b + i) % w = i - (w - b % w) := by
        have hsplit : b + i = w * (b / w + 1) + (b % w + i - w) := by
          rw [Nat.mul_add, Nat.mul_one]
          omega
        rw [hsplit, Nat.mul_add_mod, Nat.mod_eq_of_lt hsum]
        omega
      have hout : (words (b / w)).getLsbD (b % w + i) = false :=
        BitVec.getLsbD_of_ge _ _ (by omega)
      have hnlow : ¬ i < w - b % w := by omega
      simp [hdiv, hmod, hout, hnlow, hi]

theorem eq_allOnes_iff (t : BitVec w) : t = BitVec.allOnes w ↔ ∀ i < w, t.getLsbD i = true := by
  refine ⟨fun h i hi => by rw [h, BitVec.getLsbD_allOnes]; exact decide_eq_true hi, fun h => ?_⟩
  apply BitVec.eq_of_getLsbD_eq
  intro i hi
  rw [h i hi, BitVec.getLsbD_allOnes]
  exact (decide_eq_true hi).symm

end Bitmap
end Isdn4bsd
