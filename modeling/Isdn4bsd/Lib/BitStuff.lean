import Isdn4bsd.Lib.Bits

/-!
# Zero-bit insertion and flags, one bit at a time

The reference for any HDLC coder.  A frame is sent as its bits with a zero inserted after every
fifth consecutive one (`stuff`), so that the eight bits of `flag`, with their six ones in a row,
occur only between frames.

`Rx` is the receiver that takes the line one bit at a time: it counts the ones in the current run,
leaves out the zero that ends a run of five, and takes a run of six ended by a zero for a flag.  It
does not hold the flag back while it is arriving, so when the flag is complete the seven bits that
came before its last zero have to come off the end of what was collected.

* `bits_stuff` and `bits_flag` are the round trip: the receiver collects the bits of a stuffed
  frame and hands them over at the flag.
* `Rx.Ok` collects what a byte-wise receiver may rely on: no run of seven ones, a whole number of
  bytes between two flags, and no more of them than its buffer holds.
* `scan` is the part of the receiver's work on a short bit string that depends only on the run of
  ones it starts with: which bits are data, and where the flag ends.  A receiver that looks at a
  whole byte at once has to get exactly this right, for every byte and every run.
-/

set_option autoImplicit false

namespace Isdn4bsd
namespace BitStuff

/-- The flag sequence `01111110`. -/
def flag : List Bool := [false, true, true, true, true, true, true, false]

/-- Insert a zero after every fifth consecutive one; `c` ones are pending. -/
def stuff : Nat → List Bool → List Bool
  | _, [] => []
  | _, false :: bs => false :: stuff 0 bs
  | c, true :: bs => if c = 4 then true :: false :: stuff 0 bs else true :: stuff (c + 1) bs

/-- The run of ones at the end of `stuff c bs`. -/
def stuffOnes : Nat → List Bool → Nat
  | c, [] => c
  | _, false :: bs => stuffOnes 0 bs
  | c, true :: bs => if c = 4 then stuffOnes 0 bs else stuffOnes (c + 1) bs

theorem stuff_append (c : Nat) (xs ys : List Bool) :
    stuff c (xs ++ ys) = stuff c xs ++ stuff (stuffOnes c xs) ys := by
  induction xs generalizing c with
  | nil => rfl
  | cons x xs ih =>
    cases x with
    | false => rw [List.cons_append, stuff, stuff, stuffOnes, ih, List.cons_append]
    | true =>
      rw [List.cons_append, stuff, stuff, stuffOnes]
      split <;> rw [ih] <;> simp only [List.cons_append]

theorem stuffOnes_append (c : Nat) (xs ys : List Bool) :
    stuffOnes c (xs ++ ys) = stuffOnes (stuffOnes c xs) ys := by
  induction xs generalizing c with
  | nil => rfl
  | cons x xs ih =>
    cases x with
    | false => rw [List.cons_append, stuffOnes, stuffOnes, ih]
    | true =>
      rw [List.cons_append, stuffOnes, stuffOnes]
      split <;> rw [ih]

theorem stuffOnes_le {c : Nat} (hc : c ≤ 4) (bs : List Bool) : stuffOnes c bs ≤ 4 := by
  induction bs generalizing c with
  | nil => exact hc
  | cons b bs ih =>
    cases b with
    | false => rw [stuffOnes]; exact ih (by omega)
    | true =>
      rw [stuffOnes]
      split
      · exact ih (by omega)
      · exact ih (by omega)

/-! ## The receiver -/

/-- The receiver: the run of ones it is in, whether it has seen a flag since the last abort, and
the bits it has collected since that flag. -/
structure Rx where
  /-- Consecutive ones received last. -/
  ones : Nat
  /-- A flag was seen, and no abort since. -/
  synced : Bool
  /-- The bits since then, inserted zeros left out. -/
  data : List Bool

namespace Rx

/-- One bit; the second component is the frame a closing flag completes. -/
def bit (s : Rx) : Bool → Rx × List (List Bool)
  | true =>
    ({ ones := s.ones + 1, synced := s.synced && decide (s.ones < 6), data := s.data ++ [true] }, [])
  | false =>
    if s.ones = 5 then ({ s with ones := 0 }, [])
    else if s.ones = 6 then
      ({ ones := 0, synced := true, data := [] },
        if s.synced then [s.data.take (s.data.length - 7)] else [])
    else ({ s with ones := 0, data := s.data ++ [false] }, [])

/-- A bit string. -/
def bits (s : Rx) : List Bool → Rx × List (List Bool)
  | [] => (s, [])
  | b :: bs => (((s.bit b).1.bits bs).1, (s.bit b).2 ++ ((s.bit b).1.bits bs).2)

@[simp] theorem bits_nil (s : Rx) : s.bits [] = (s, []) := rfl

theorem bits_cons (s : Rx) (b : Bool) (bs : List Bool) :
    s.bits (b :: bs) = (((s.bit b).1.bits bs).1, (s.bit b).2 ++ ((s.bit b).1.bits bs).2) := rfl

theorem bits_append (s : Rx) (xs ys : List Bool) :
    s.bits (xs ++ ys)
      = (((s.bits xs).1.bits ys).1, (s.bits xs).2 ++ ((s.bits xs).1.bits ys).2) := by
  induction xs generalizing s with
  | nil => rfl
  | cons x xs ih =>
    rw [List.cons_append, bits_cons, ih, bits_cons, List.append_assoc]

/-- **Stuffed bits are collected as they were**, and the run of ones is the sender's. -/
theorem bits_stuff {c : Nat} (hc : c ≤ 4) (d bs : List Bool) :
    bits ⟨c, true, d⟩ (stuff c bs) = (⟨stuffOnes c bs, true, d ++ bs⟩, []) := by
  induction bs generalizing c d with
  | nil => rw [stuff, stuffOnes, bits_nil, List.append_nil]
  | cons b bs ih =>
    cases b with
    | false =>
      have hbit : bit ⟨c, true, d⟩ false = (⟨0, true, d ++ [false]⟩, []) := by
        rw [bit, if_neg (by simp only; omega), if_neg (by simp only; omega)]
      rw [stuff, bits_cons, hbit, stuffOnes, ih (by omega), List.append_assoc]
      rfl
    | true =>
      have hbit : bit ⟨c, true, d⟩ true = (⟨c + 1, true, d ++ [true]⟩, []) := by
        rw [bit, decide_eq_true (by simp only; omega), Bool.and_true]
      rw [stuff, stuffOnes]
      split
      next h4 =>
        have hdrop : bit ⟨c + 1, true, d ++ [true]⟩ false = (⟨0, true, d ++ [true]⟩, []) := by
          rw [bit, if_pos (by simp only; omega)]
        rw [bits_cons, hbit, bits_cons, hdrop, ih (by omega), List.append_assoc]
        rfl
      next h4 =>
        rw [bits_cons, hbit, ih (by omega), List.append_assoc]
        rfl

/-- **A flag hands over what was collected.** -/
theorem bits_flag {c : Nat} (hc : c ≤ 4) (d : List Bool) :
    bits ⟨c, true, d⟩ flag = (⟨0, true, []⟩, [d]) := by
  have h5 : ¬ c = 5 := by omega
  have h6 : ¬ c = 6 := by omega
  simp [flag, bits, bit, h5, h6]

/-! ## What a byte-wise receiver may rely on -/

/-- The next bit does not end a frame that a receiver with room for `cap` bytes cannot take, and
does not start an abort. -/
def Ok (cap : Nat) (s : Rx) : Bool → Prop
  | true => s.ones < 6 ∧ (s.synced → s.data.length < 8 * cap + 7)
  | false =>
    (s.ones = 6 → s.synced → 7 ≤ s.data.length ∧ (s.data.length - 7) % 8 = 0) ∧
      (s.synced → s.ones < 5 → s.data.length < 8 * cap + 7)

/-- The same for a bit string. -/
def Oks (cap : Nat) (s : Rx) : List Bool → Prop
  | [] => True
  | b :: bs => s.Ok cap b ∧ (s.bit b).1.Oks cap bs

theorem oks_append (cap : Nat) (s : Rx) (xs ys : List Bool) :
    s.Oks cap (xs ++ ys) ↔ s.Oks cap xs ∧ (s.bits xs).1.Oks cap ys := by
  induction xs generalizing s with
  | nil => simp [Oks]
  | cons x xs ih => rw [List.cons_append, Oks, Oks, ih, bits_cons, and_assoc]

theorem oks_stuff {cap c : Nat} (hc : c ≤ 4) {d bs : List Bool}
    (hlen : d.length + bs.length ≤ 8 * cap) : Oks cap ⟨c, true, d⟩ (stuff c bs) := by
  induction bs generalizing c d with
  | nil => trivial
  | cons b bs ih =>
    rw [List.length_cons] at hlen
    cases b with
    | false =>
      have hbit : (bit ⟨c, true, d⟩ false).1 = ⟨0, true, d ++ [false]⟩ := by
        rw [bit, if_neg (by simp only; omega), if_neg (by simp only; omega)]
      rw [stuff, Oks, hbit]
      refine ⟨⟨fun h => ?_, fun _ _ => ?_⟩, ih (by omega) ?_⟩
      · simp only at h; omega
      · simp only; omega
      · rw [List.length_append, List.length_singleton]; omega
    | true =>
      have hbit : (bit ⟨c, true, d⟩ true).1 = ⟨c + 1, true, d ++ [true]⟩ := by
        rw [bit, decide_eq_true (by simp only; omega), Bool.and_true]
      have hok : Ok cap ⟨c, true, d⟩ true := ⟨by simp only; omega, fun _ => by simp only; omega⟩
      have hlen' : (d ++ [true]).length + bs.length ≤ 8 * cap := by
        rw [List.length_append, List.length_singleton]; omega
      rw [stuff]
      split
      next h4 =>
        have hdrop : (bit ⟨c + 1, true, d ++ [true]⟩ false).1 = ⟨0, true, d ++ [true]⟩ := by
          rw [bit, if_pos (by simp only; omega)]
        have hokd : Ok cap ⟨c + 1, true, d ++ [true]⟩ false :=
          ⟨fun h => by simp only at h; omega, fun _ h => by simp only at h; omega⟩
        rw [Oks, hbit, Oks, hdrop]
        exact ⟨hok, hokd, ih (by omega) hlen'⟩
      next h4 =>
        rw [Oks, hbit]
        exact ⟨hok, ih (by omega) hlen'⟩

theorem oks_flag {cap c : Nat} (hc : c ≤ 4) {d : List Bool} (hlen : d.length ≤ 8 * cap)
    (hmod : d.length % 8 = 0) : Oks cap ⟨c, true, d⟩ flag := by
  have h5 : ¬ c = 5 := by omega
  have h6 : ¬ c = 6 := by omega
  simp [flag, Oks, Ok, bit, h5, h6]
  omega

/-- What such a line keeps true of the receiver. -/
structure Wf (cap : Nat) (s : Rx) : Prop where
  ones_le : s.ones ≤ 6
  last : 1 ≤ s.ones → s.data.getLast? = some true
  room : s.synced → s.data.length ≤ 8 * cap + 7

theorem Wf.bit {cap : Nat} {s : Rx} (h : s.Wf cap) {b : Bool} (hok : s.Ok cap b) :
    (s.bit b).1.Wf cap := by
  cases b with
  | true =>
    have h6 : s.ones < 6 := hok.1
    rw [Rx.bit, decide_eq_true h6, Bool.and_true]
    refine ⟨h6, fun _ => List.getLast?_concat, fun hs => ?_⟩
    have := hok.2 hs
    simp only [List.length_append, List.length_singleton]
    omega
  | false =>
    rw [Rx.bit]
    split
    next => exact ⟨Nat.zero_le _, fun h0 => absurd h0 (by simp), h.room⟩
    next h5 =>
      split
      next => exact ⟨Nat.zero_le _, fun h0 => absurd h0 (by simp), fun _ => Nat.zero_le _⟩
      next h6 =>
        refine ⟨Nat.zero_le _, fun h0 => absurd h0 (by simp), fun hs => ?_⟩
        have := hok.2 hs (by have := h.ones_le; omega)
        simp only [List.length_append, List.length_singleton]
        omega

theorem Wf.bits {cap : Nat} {s : Rx} (h : s.Wf cap) {bs : List Bool} (hok : s.Oks cap bs) :
    (s.bits bs).1.Wf cap := by
  induction bs generalizing s with
  | nil => exact h
  | cons b bs ih => exact ih (h.bit hok.1) hok.2

end Rx

/-! ## A short bit string at a time -/

/-- What a bit string does to a receiver, as far as the run of ones before it decides: the data
bits in it, and if a flag ends in it the data bits before and after that point; `other` when a run
of seven ones or a second flag turns up. -/
inductive Scan where
  | data (pre : List Bool) (ones : Nat)
  | flag (pre post : List Bool) (ones : Nat)
  | other
  deriving DecidableEq, Repr

/-- `scan c pre post bs` continues a scan that has collected `pre`, and `post` after a flag. -/
def scan : Nat → List Bool → Option (List Bool) → List Bool → Scan
  | c, pre, none, [] => .data pre c
  | c, pre, some post, [] => .flag pre post c
  | c, pre, none, true :: bs => if c < 6 then scan (c + 1) (pre ++ [true]) none bs else .other
  | c, pre, some post, true :: bs =>
    if c < 6 then scan (c + 1) pre (some (post ++ [true])) bs else .other
  | c, pre, none, false :: bs =>
    if c = 5 then scan 0 pre none bs
    else if c = 6 then scan 0 pre (some []) bs
    else scan 0 (pre ++ [false]) none bs
  | c, pre, some post, false :: bs =>
    if c = 5 then scan 0 pre (some post) bs
    else if c = 6 then .other
    else scan 0 pre (some (post ++ [false])) bs

theorem scan_pre_of_some {c : Nat} {pre post bs pre' post' : List Bool} {c' : Nat}
    (h : scan c pre (some post) bs = .flag pre' post' c') : pre' = pre := by
  induction bs generalizing c post with
  | nil =>
    rw [scan] at h
    exact (Scan.flag.inj h).1.symm
  | cons b bs ih =>
    cases b with
    | true =>
      rw [scan] at h
      split at h
      · exact ih h
      · cases h
    | false =>
      rw [scan] at h
      split at h
      · exact ih h
      · split at h
        · cases h
        · exact ih h

/-- The receiver a scan result describes, started from `s`. -/
def Scan.apply (s : Rx) : Scan → Rx × List (List Bool)
  | .data pre ones => ({ s with ones := ones, data := s.data ++ pre }, [])
  | .flag pre post ones =>
    ({ ones := ones, synced := true, data := post },
      if s.synced then [(s.data ++ pre).take ((s.data ++ pre).length - 7)] else [])
  | .other => (s, [])

/-- A scan that is under way, as a result. -/
def Scan.ofParts (c : Nat) (pre : List Bool) : Option (List Bool) → Scan
  | none => .data pre c
  | some post => .flag pre post c

/-- **A scan is what the receiver does**, unless it gave up. -/
theorem bits_ofParts_scan (s : Rx) (c : Nat) (pre : List Bool) (post : Option (List Bool))
    (bs : List Bool) (h : scan c pre post bs ≠ .other) :
    (scan c pre post bs).apply s
      = ((((Scan.ofParts c pre post).apply s).1.bits bs).1,
          ((Scan.ofParts c pre post).apply s).2
            ++ (((Scan.ofParts c pre post).apply s).1.bits bs).2) := by
  induction bs generalizing c pre post with
  | nil => cases post <;> simp [scan, Scan.ofParts]
  | cons b bs ih =>
    cases post with
    | none =>
      cases b with
      | true =>
        rw [scan] at h ⊢
        split at h
        next hc =>
          rw [if_pos hc, ih _ _ _ h]
          simp [Scan.ofParts, Scan.apply, Rx.bits, Rx.bit, hc]
        next => exact absurd rfl h
      | false =>
        rw [scan] at h ⊢
        split at h
        next h5 =>
          rw [if_pos h5, ih _ _ _ h]
          simp [Scan.ofParts, Scan.apply, Rx.bits, Rx.bit, h5]
        next h5 =>
          split at h
          next h6 =>
            rw [if_neg h5, if_pos h6, ih _ _ _ h]
            simp [Scan.ofParts, Scan.apply, Rx.bits, Rx.bit, h6]
          next h6 =>
            rw [if_neg h5, if_neg h6, ih _ _ _ h]
            simp [Scan.ofParts, Scan.apply, Rx.bits, Rx.bit, h5, h6]
    | some post =>
      cases b with
      | true =>
        rw [scan] at h ⊢
        split at h
        next hc =>
          rw [if_pos hc, ih _ _ _ h]
          simp [Scan.ofParts, Scan.apply, Rx.bits, Rx.bit, hc]
        next => exact absurd rfl h
      | false =>
        rw [scan] at h ⊢
        split at h
        next h5 =>
          rw [if_pos h5, ih _ _ _ h]
          simp [Scan.ofParts, Scan.apply, Rx.bits, Rx.bit, h5]
        next h5 =>
          split at h
          next h6 => exact absurd rfl h
          next h6 =>
            rw [if_neg h5, if_neg h6, ih _ _ _ h]
            simp [Scan.ofParts, Scan.apply, Rx.bits, Rx.bit, h5, h6]

/-- A second flag needs eight bits after the first, so within a byte a scan gives up on a run of
seven ones only. -/
theorem scan_ne_other_of_oks (cap : Nat) (s : Rx) (c : Nat) (pre : List Bool)
    (post : Option (List Bool)) (bs : List Bool)
    (hlen : ∀ p, post = some p → p.length + bs.length ≤ 7) (hbs : bs.length ≤ 8)
    (h : ((Scan.ofParts c pre post).apply s).1.Oks cap bs) : scan c pre post bs ≠ .other := by
  induction bs generalizing c pre post with
  | nil => cases post <;> simp [scan]
  | cons b bs ih =>
    rw [List.length_cons] at hbs
    rw [Rx.Oks] at h
    obtain ⟨hok, h⟩ := h
    cases post with
    | none =>
      cases b with
      | true =>
        have hc : c < 6 := hok.1
        rw [scan, if_pos hc]
        refine ih _ _ _ (fun p hp => absurd hp (by simp)) (by omega) ?_
        simpa [Scan.ofParts, Scan.apply, Rx.bit, hc] using h
      | false =>
        rw [scan]
        split
        next h5 =>
          refine ih _ _ _ (fun p hp => absurd hp (by simp)) (by omega) ?_
          simpa [Scan.ofParts, Scan.apply, Rx.bit, h5] using h
        next h5 =>
          split
          next h6 =>
            refine ih _ _ _ (fun p hp => ?_) (by omega) ?_
            · obtain rfl := Option.some.inj hp
              simp only [List.length_nil]
              omega
            · simpa [Scan.ofParts, Scan.apply, Rx.bit, h6] using h
          next h6 =>
            refine ih _ _ _ (fun p hp => absurd hp (by simp)) (by omega) ?_
            simpa [Scan.ofParts, Scan.apply, Rx.bit, h5, h6] using h
    | some post =>
      have hpost : post.length + (bs.length + 1) ≤ 7 := hlen post rfl
      cases b with
      | true =>
        have hc : c < 6 := hok.1
        rw [scan, if_pos hc]
        refine ih _ _ _ (fun p hp => ?_) (by omega) ?_
        · obtain rfl := Option.some.inj hp
          rw [List.length_append, List.length_singleton]
          omega
        · simpa [Scan.ofParts, Scan.apply, Rx.bit, hc] using h
      | false =>
        rw [scan]
        split
        next h5 =>
          refine ih _ _ _ (fun p hp => ?_) (by omega) ?_
          · obtain rfl := Option.some.inj hp
            omega
          · simpa [Scan.ofParts, Scan.apply, Rx.bit, h5] using h
        next h5 =>
          split
          next h6 =>
            have h7 : 7 ≤ post.length := (hok.1 h6 rfl).1
            omega
          next h6 =>
            refine ih _ _ _ (fun p hp => ?_) (by omega) ?_
            · obtain rfl := Option.some.inj hp
              rw [List.length_append, List.length_singleton]
              omega
            · simpa [Scan.ofParts, Scan.apply, Rx.bit, h5, h6] using h

/-- At the end of a flag the receiver has seven of its bits and a whole number of bytes. -/
theorem scan_flag_of_oks (cap : Nat) (s : Rx) (c : Nat) (pre bs : List Bool)
    (h : ((Scan.ofParts c pre none).apply s).1.Oks cap bs) {pre' post' : List Bool} {c' : Nat}
    (hscan : scan c pre none bs = .flag pre' post' c') (hs : s.synced = true) :
    7 ≤ (s.data ++ pre').length ∧ ((s.data ++ pre').length - 7) % 8 = 0 := by
  induction bs generalizing c pre with
  | nil => exact absurd hscan (by simp [scan])
  | cons b bs ih =>
    rw [Rx.Oks] at h
    obtain ⟨hok, h⟩ := h
    cases b with
    | true =>
      have hc : c < 6 := hok.1
      rw [scan, if_pos hc] at hscan
      exact ih _ _ (by simpa [Scan.ofParts, Scan.apply, Rx.bit, hc] using h) hscan
    | false =>
      rw [scan] at hscan
      split at hscan
      next h5 => exact ih _ _ (by simpa [Scan.ofParts, Scan.apply, Rx.bit, h5] using h) hscan
      next h5 =>
        split at hscan
        next h6 =>
          rw [scan_pre_of_some hscan]
          exact hok.1 h6 hs
        next h6 =>
          exact ih _ _ (by simpa [Scan.ofParts, Scan.apply, Rx.bit, h5, h6] using h) hscan

/-- **A byte at a time**: on eight bits it may rely on, the receiver does what the scan says. -/
theorem bits_eq_apply_scan {cap : Nat} {s : Rx} {bs : List Bool} (hbs : bs.length = 8)
    (h : s.Oks cap bs) :
    scan s.ones [] none bs ≠ .other ∧ s.bits bs = (scan s.ones [] none bs).apply s := by
  have hstart : (Scan.ofParts s.ones [] none).apply s = (s, []) := by
    rw [Scan.ofParts, Scan.apply, List.append_nil]
  have hne : scan s.ones [] none bs ≠ .other := by
    refine scan_ne_other_of_oks cap s s.ones [] none bs (fun p hp => absurd hp (by simp))
      (by omega) ?_
    rw [hstart]
    exact h
  refine ⟨hne, ?_⟩
  rw [bits_ofParts_scan s _ _ _ _ hne, hstart, List.nil_append]

end BitStuff
end Isdn4bsd
