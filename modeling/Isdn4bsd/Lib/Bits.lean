import Mathlib.Tactic

/-!
# Bit strings, least significant bit first

A serial line sends the least significant bit of a byte first, so a byte stream is read here as
the concatenation of the eight-bit strings `bitsOf 8 b`.  `ofBits` is the number a bit string
stands for, and the pair is inverse on strings and numbers of the right width.

What the shift registers of a byte-wise coder need is one fact: or-ing a number, shifted up by the
length of a bit string, onto the value of that string is the value of the concatenation
(`ofBits_lor_shiftLeft`).  The second half of the file is its converse, taking eight bits off the
low end of a register (`ofBits_mod`, `ofBits_shiftRight`).

## Why lists

A coder that works on whole bytes has some bits left over after each of them: the register it keeps
them in is a number, and how many there are is another one.  Both together are a list of booleans, and as
a list it has what numbers do not have: it can be cut and put together, its length is a part of it, and
leading zeros count.  So a register is always spoken of as `ofBits xs`, and `xs` is what the proofs are about.
-/

set_option autoImplicit false

namespace Isdn4bsd
namespace Bits

/-- The low `w` bits of `n`, least significant first. -/
def bitsOf : Nat → Nat → List Bool
  | 0, _ => []
  | w + 1, n => n.testBit 0 :: bitsOf w (n / 2)

/-- The number a bit string stands for. -/
def ofBits : List Bool → Nat
  | [] => 0
  | b :: bs => b.toNat + 2 * ofBits bs

@[simp] theorem length_bitsOf (w n : Nat) : (bitsOf w n).length = w := by
  induction w generalizing n with
  | zero => rfl
  | succ w ih => rw [bitsOf, List.length_cons, ih]

@[simp] theorem ofBits_nil : ofBits [] = 0 := rfl

@[simp] theorem ofBits_cons (b : Bool) (bs : List Bool) :
    ofBits (b :: bs) = b.toNat + 2 * ofBits bs := rfl

theorem ofBits_append (xs ys : List Bool) :
    ofBits (xs ++ ys) = ofBits xs + 2 ^ xs.length * ofBits ys := by
  induction xs with
  | nil => simp
  | cons x xs ih =>
    rw [List.cons_append, ofBits_cons, ih, ofBits_cons, List.length_cons, Nat.pow_succ]
    ring

theorem ofBits_lt (xs : List Bool) : ofBits xs < 2 ^ xs.length := by
  induction xs with
  | nil => simp
  | cons x xs ih =>
    have hx : x.toNat ≤ 1 := Bool.toNat_le x
    rw [ofBits_cons, List.length_cons, Nat.pow_succ]
    omega

theorem ofBits_bitsOf (w n : Nat) : ofBits (bitsOf w n) = n % 2 ^ w := by
  induction w generalizing n with
  | zero => simp [bitsOf, Nat.mod_one]
  | succ w ih =>
    have hbit : (n.testBit 0).toNat = n % 2 := by
      rw [Nat.testBit_zero]
      rcases Nat.mod_two_eq_zero_or_one n with h | h <;> simp [h]
    rw [bitsOf, ofBits_cons, ih, hbit, Nat.pow_succ', Nat.mod_mul]

theorem bitsOf_ofBits (xs : List Bool) : bitsOf xs.length (ofBits xs) = xs := by
  induction xs with
  | nil => rfl
  | cons x xs ih =>
    have hdiv : ofBits (x :: xs) / 2 = ofBits xs := by
      have hx : x.toNat ≤ 1 := Bool.toNat_le x
      rw [ofBits_cons]
      omega
    have hbit : (ofBits (x :: xs)).testBit 0 = x := by
      rw [Nat.testBit_zero, ofBits_cons]
      cases x <;> simp
    rw [List.length_cons, bitsOf, hdiv, hbit, ih]

theorem bitsOf_injective {w m n : Nat} (hm : m < 2 ^ w) (hn : n < 2 ^ w)
    (h : bitsOf w m = bitsOf w n) : m = n := by
  have hv := congrArg ofBits h
  rwa [ofBits_bitsOf, ofBits_bitsOf, Nat.mod_eq_of_lt hm, Nat.mod_eq_of_lt hn] at hv

/-! ## Shift registers -/

/-- **Appending to a shift register**: the register holds the bits `xs`, and `v` is or-ed on just
above them. -/
theorem ofBits_lor_shiftLeft (xs : List Bool) (v : Nat) :
    ofBits xs ||| (v <<< xs.length) = ofBits xs + 2 ^ xs.length * v := by
  rw [Nat.or_comm, ← Nat.shiftLeft_add_eq_or_of_lt (ofBits_lt xs), Nat.shiftLeft_eq]
  ring

theorem ofBits_lor_append (xs ys : List Bool) :
    ofBits xs ||| (ofBits ys <<< xs.length) = ofBits (xs ++ ys) := by
  rw [ofBits_lor_shiftLeft, ofBits_append]

theorem ofBits_mod (xs ys : List Bool) : ofBits (xs ++ ys) % 2 ^ xs.length = ofBits xs := by
  rw [ofBits_append, Nat.add_mul_mod_self_left, Nat.mod_eq_of_lt (ofBits_lt xs)]

theorem ofBits_shiftRight (xs ys : List Bool) : ofBits (xs ++ ys) >>> xs.length = ofBits ys := by
  rw [ofBits_append, Nat.shiftRight_eq_div_pow, Nat.add_mul_div_left _ _ (Nat.two_pow_pos _),
    Nat.div_eq_of_lt (ofBits_lt xs), Nat.zero_add]

/-- The same when the top bit of the register is or-ed on a second time. -/
theorem ofBits_lor_overlap {xs : List Bool} (h : xs.getLast? = some true) (v : Nat) :
    ofBits xs ||| (2 ^ (xs.length - 1) + 2 ^ xs.length * v) = ofBits xs + 2 ^ xs.length * v := by
  obtain ⟨ys, rfl⟩ := List.getLast?_eq_some_iff.mp h
  have hodd : 1 ||| (1 + 2 * v) = 1 + 2 * v := by
    have h2 : 1 + 2 * v = v <<< 1 ||| 1 := by
      rw [← Nat.shiftLeft_add_eq_or_of_lt (by decide), Nat.shiftLeft_eq]
      ring
    rw [h2, Nat.or_comm, Nat.or_assoc, Nat.or_self]
  have hone : ofBits (ys ++ [true]) = ofBits ys ||| (1 <<< ys.length) := by
    rw [ofBits_lor_shiftLeft, ofBits_append]
    simp
  have htop : 2 ^ ((ys ++ [true]).length - 1) + 2 ^ (ys ++ [true]).length * v
      = (1 + 2 * v) <<< ys.length := by
    rw [List.length_append, List.length_singleton, Nat.add_sub_cancel, Nat.pow_succ,
      Nat.shiftLeft_eq]
    ring
  calc ofBits (ys ++ [true]) ||| (2 ^ ((ys ++ [true]).length - 1) + 2 ^ (ys ++ [true]).length * v)
      = ofBits ys ||| ((1 ||| (1 + 2 * v)) <<< ys.length) := by
        rw [hone, htop, Nat.or_assoc, ← Nat.shiftLeft_or_distrib]
    _ = ofBits ys + 2 ^ ys.length * (1 + 2 * v) := by rw [hodd, ofBits_lor_shiftLeft]
    _ = ofBits (ys ++ [true]) + 2 ^ (ys ++ [true]).length * v := by
        rw [ofBits_append, List.length_append, List.length_singleton, Nat.pow_succ]
        simp
        ring

/-! ## Bytes on the line -/

/-- A byte string as the bits the line carries. -/
def bytesBits (p : List UInt8) : List Bool := p.flatMap (fun b => bitsOf 8 b.toNat)

@[simp] theorem bytesBits_nil : bytesBits [] = [] := rfl

theorem bytesBits_append (p q : List UInt8) : bytesBits (p ++ q) = bytesBits p ++ bytesBits q :=
  List.flatMap_append

theorem bytesBits_singleton (b : UInt8) : bytesBits [b] = bitsOf 8 b.toNat := by
  rw [bytesBits, List.flatMap_cons, List.flatMap_nil, List.append_nil]

theorem length_bytesBits (p : List UInt8) : (bytesBits p).length = 8 * p.length := by
  induction p with
  | nil => rfl
  | cons b p ih =>
    rw [bytesBits, List.flatMap_cons, ← bytesBits, List.length_append, length_bitsOf, ih,
      List.length_cons]
    ring

/-- Two byte strings with the same bits are the same. -/
theorem bytesBits_injective {p q : List UInt8} (h : bytesBits p = bytesBits q) : p = q := by
  have hlen : p.length = q.length := by
    have hl := congrArg List.length h
    rw [length_bytesBits, length_bytesBits] at hl
    omega
  induction p generalizing q with
  | nil => exact (List.eq_nil_of_length_eq_zero hlen.symm).symm
  | cons b p ih =>
    cases q with
    | nil => exact absurd hlen (by simp)
    | cons c q =>
      rw [bytesBits, bytesBits, List.flatMap_cons, List.flatMap_cons] at h
      obtain ⟨hb, hr⟩ := List.append_inj h (by rw [length_bitsOf, length_bitsOf])
      have hbc : b.toNat = c.toNat := bitsOf_injective b.toNat_lt c.toNat_lt hb
      rw [UInt8.toNat_inj.mp hbc, ih hr (by simpa using hlen)]

/-- **Taking a byte off a shift register**: the low eight bits of the register and what is left. -/
theorem register_shift {reg : List Bool} (h : 8 ≤ reg.length) :
    bitsOf 8 (UInt8.ofNat (ofBits reg)).toNat = reg.take 8 ∧
      ofBits reg >>> 8 = ofBits (reg.drop 8) := by
  have hlen : (reg.take 8).length = 8 := by rw [List.length_take, Nat.min_eq_left h]
  have hsplit : reg = reg.take 8 ++ reg.drop 8 := (List.take_append_drop 8 reg).symm
  have hmod := ofBits_mod (reg.take 8) (reg.drop 8)
  have hshift := ofBits_shiftRight (reg.take 8) (reg.drop 8)
  rw [← hsplit, hlen] at hmod hshift
  refine ⟨?_, hshift⟩
  rw [UInt8.toNat_ofNat', hmod]
  have hinv := bitsOf_ofBits (reg.take 8)
  rwa [hlen] at hinv

end Bits
end Isdn4bsd
