import Isdn4bsd.Lib.BitStuff

/-!
# Lines that idle

Between frames a line may also carry nothing but ones.  To a receiver that is an abort, which does
no harm if no byte was collected since the last flag.  Two flags may share a zero.

* `Rx.Fit` is what a byte-wise receiver may rely on where `Rx.Ok` is too much: seven ones in a row
come right after a flag, or when the receiver is out of step anyway.
* `Rx.bits_hunt`: out of step, only the run of ones matters, and of that only whether it is longer
than seven.
* `aborts`: the run of seven ones comes before any flag.

## Out of step

After an abort a receiver waits for a flag and collects nothing that counts.  What it has in its
register then is of no interest to anybody, but it is there, and two receivers that have seen the same
line since may differ in it.  `Rx.Alike` is equality up to that: it is kept by each bit, and receivers
that are alike hand over the same frames.  A receiver that works on whole bytes is compared with the
reference up to `Alike`, not up to equality.

## Fill

What may stand between two frames is any mixture of flags, flags that share a zero, and ones.
`Rx.Ready` is a receiver that the next flag brings to the start of a frame, and each of these keeps it:

* seven ones or more put a receiver out of step, and it is ready then (`Ready.idle`);
* a flag brings it to the start of a frame, where it is ready as well (`Ready.flag`);
* a flag that begins with the last zero of the flag before has seven bits of its own (`bits_shared_flag`).

So the fill in front of a frame can be of any length, and it need not begin or end where a byte does.
-/

set_option autoImplicit false

namespace Isdn4bsd
namespace BitStuff

open Bits

namespace Rx

/-- The next bit may come after a flag, a frame that a receiver with room for `cap` bytes can take,
or idle ones. -/
def Fit (cap : Nat) (s : Rx) : Bool → Prop
  | true => s.synced = true →
    (s.ones < 6 → s.data.length < 8 * cap + 7) ∧ (6 ≤ s.ones → s.data.length = 6)
  | false => s.synced = true →
    (s.ones = 6 → s.data.length = 6 ∨ 7 ≤ s.data.length ∧ (s.data.length - 7) % 8 = 0) ∧
      (s.ones < 5 → s.data.length < 8 * cap + 7)

/-- The same for a bit string. -/
def Fits (cap : Nat) (s : Rx) : List Bool → Prop
  | [] => True
  | b :: bs => s.Fit cap b ∧ (s.bit b).1.Fits cap bs

theorem fits_append (cap : Nat) (s : Rx) (xs ys : List Bool) :
    s.Fits cap (xs ++ ys) ↔ s.Fits cap xs ∧ (s.bits xs).1.Fits cap ys := by
  induction xs generalizing s with
  | nil => simp [Fits]
  | cons x xs ih => rw [List.cons_append, Fits, Fits, ih, bits_cons, and_assoc]

theorem fit_of_ok {cap : Nat} {s : Rx} {b : Bool} (h : s.Ok cap b) : s.Fit cap b := by
  cases b with
  | true => exact fun hs => ⟨fun _ => h.2 hs, fun h6 => absurd h.1 (by omega)⟩
  | false => exact fun hs => ⟨fun h6 => .inr (h.1 h6 hs), fun h5 => h.2 hs h5⟩

theorem fits_of_oks {cap : Nat} {s : Rx} {bs : List Bool} (h : s.Oks cap bs) : s.Fits cap bs := by
  induction bs generalizing s with
  | nil => trivial
  | cons b bs ih => exact ⟨fit_of_ok h.1, ih h.2⟩

/-- What such a line keeps true of a receiver in step. -/
theorem wf_bit_of_fit {cap : Nat} {s : Rx} (h : s.synced = true → s.Wf cap) {b : Bool}
    (hf : s.Fit cap b) (hs : (s.bit b).1.synced = true) : (s.bit b).1.Wf cap := by
  cases b with
  | true =>
    obtain ⟨hsync, h6⟩ := Bool.and_eq_true_iff.mp hs
    have h6 : s.ones < 6 := of_decide_eq_true h6
    exact (h hsync).bit ⟨h6, fun _ => (hf hsync).1 h6⟩
  | false =>
    rw [bit] at hs ⊢
    split at hs
    next h5 =>
      rw [if_pos h5]
      exact ⟨Nat.zero_le _, fun h0 => absurd h0 (by simp), (h hs).room⟩
    next h5 =>
      rw [if_neg h5]
      split at hs
      next h6 =>
        rw [if_pos h6]
        exact ⟨Nat.zero_le _, fun h0 => absurd h0 (by simp), fun _ => Nat.zero_le _⟩
      next h6 =>
        rw [if_neg h6]
        refine ⟨Nat.zero_le _, fun h0 => absurd h0 (by simp), fun _ => ?_⟩
        have := (hf hs).2 (by have := (h hs).ones_le; omega)
        simp only [List.length_append, List.length_singleton]
        omega

theorem wf_bits_of_fits {cap : Nat} {s : Rx} (h : s.synced = true → s.Wf cap) {bs : List Bool}
    (hf : s.Fits cap bs) : (s.bits bs).1.synced = true → (s.bits bs).1.Wf cap := by
  induction bs generalizing s with
  | nil => exact h
  | cons b bs ih => exact ih (wf_bit_of_fit h hf.1) hf.2

/-! ## Out of step -/

/-- Two receivers that are out of step, or in step since the same flag. -/
structure Alike (s t : Rx) : Prop where
  ones : min s.ones 8 = min t.ones 8
  synced : s.synced = t.synced
  data : s.synced = true → s.data = t.data ∧ s.ones = t.ones

theorem alike_refl (s : Rx) : s.Alike s := ⟨rfl, rfl, fun _ => ⟨rfl, rfl⟩⟩

/-- They stay so, and hand over the same frames. -/
theorem Alike.bit {s t : Rx} (h : s.Alike t) (b : Bool) :
    (s.bit b).1.Alike (t.bit b).1 ∧ (s.bit b).2 = (t.bit b).2 := by
  obtain ⟨c, sy, d⟩ := s
  obtain ⟨c', sy', d'⟩ := t
  obtain ⟨hones, rfl, hdata⟩ := h
  simp only at hones hdata
  cases sy with
  | true =>
    obtain ⟨rfl, rfl⟩ := hdata rfl
    exact ⟨alike_refl _, rfl⟩
  | false =>
    cases b with
    | true =>
      refine ⟨⟨?_, rfl, fun hs => absurd hs (by simp [Rx.bit])⟩, rfl⟩
      simp only [Rx.bit]
      omega
    | false =>
      simp only [Rx.bit]
      by_cases h5 : c = 5
      · have h5' : c' = 5 := by omega
        rw [if_pos h5, if_pos h5']
        exact ⟨⟨rfl, rfl, fun hs => absurd hs (by simp)⟩, rfl⟩
      · have h5' : ¬ c' = 5 := by omega
        rw [if_neg h5, if_neg h5']
        by_cases h6 : c = 6
        · have h6' : c' = 6 := by omega
          rw [if_pos h6, if_pos h6']
          exact ⟨alike_refl _, rfl⟩
        · have h6' : ¬ c' = 6 := by omega
          rw [if_neg h6, if_neg h6']
          exact ⟨⟨rfl, rfl, fun hs => absurd hs (by simp)⟩, rfl⟩

theorem Alike.bits {s t : Rx} (h : s.Alike t) (bs : List Bool) :
    (s.bits bs).1.Alike (t.bits bs).1 ∧ (s.bits bs).2 = (t.bits bs).2 := by
  induction bs generalizing s t with
  | nil => exact ⟨h, rfl⟩
  | cons b bs ih =>
    obtain ⟨hb, hf⟩ := h.bit b
    obtain ⟨hbs, hfs⟩ := ih hb
    rw [bits_cons, bits_cons]
    exact ⟨hbs, by rw [hf, hfs]⟩

/-- **Out of step, only the run of ones matters**, up to eight. -/
theorem bits_hunt {s : Rx} (h : s.synced = false) (bs : List Bool) :
    (s.bits bs).1.Alike (bits ⟨min s.ones 8, false, []⟩ bs).1 ∧
      (s.bits bs).2 = (bits ⟨min s.ones 8, false, []⟩ bs).2 := by
  refine Alike.bits ⟨?_, h, fun hs => absurd (h.symm.trans hs) (by simp)⟩ bs
  simp only
  omega

/-! ## Aborts -/

end Rx

/-- A seventh one comes before a flag does; there are `c` ones to begin with. -/
def aborts : Nat → List Bool → Bool
  | _, [] => false
  | c, true :: bs => decide (6 ≤ c) || aborts (c + 1) bs
  | c, false :: bs => if c = 6 then false else aborts 0 bs

namespace Rx

/-- That is only so right after a flag. -/
theorem length_le_of_aborts {cap : Nat} {s : Rx} {bs : List Bool} (h : s.Fits cap bs)
    (hs : s.synced = true) (ha : aborts s.ones bs = true) : s.data.length ≤ 6 := by
  induction bs generalizing s with
  | nil => cases ha
  | cons b bs ih =>
    cases b with
    | true =>
      rw [aborts, Bool.or_eq_true] at ha
      by_cases h6 : 6 ≤ s.ones
      · exact ((h.1 hs).2 h6).le
      · have ha := ha.resolve_left (fun hd => h6 (of_decide_eq_true hd))
        have hd := ih h.2 (by simp only [bit, hs, Bool.true_and]; exact decide_eq_true (by omega)) ha
        simp only [bit, List.length_append, List.length_singleton] at hd
        omega
    | false =>
      have hf := h.2
      rw [aborts] at ha
      rw [bit] at hf
      split at ha
      · cases ha
      next h6 =>
        split at hf
        · exact ih (s := { s with ones := 0 }) hf hs ha
        · have hd := ih hf hs ha
          simp only [List.length_append, List.length_singleton] at hd
          omega

/-- With an abort, a bit string that is too short for a flag after it hands over nothing, and leaves
the receiver out of step, whatever it had collected. -/
theorem bits_of_synced {c : Nat} (d : List Bool) (bs : List Bool) :
    (bits ⟨c, true, d⟩ bs).1.ones = (bits ⟨c, true, []⟩ bs).1.ones ∧
      (bits ⟨c, true, d⟩ bs).1.synced = (bits ⟨c, true, []⟩ bs).1.synced ∧
      (bits ⟨c, true, d⟩ bs).2.length = (bits ⟨c, true, []⟩ bs).2.length := by
  have key : ∀ (bs : List Bool) (c : Nat) (sy : Bool) (d e : List Bool),
      (bits ⟨c, sy, d⟩ bs).1.ones = (bits ⟨c, sy, e⟩ bs).1.ones ∧
        (bits ⟨c, sy, d⟩ bs).1.synced = (bits ⟨c, sy, e⟩ bs).1.synced ∧
        (bits ⟨c, sy, d⟩ bs).2.length = (bits ⟨c, sy, e⟩ bs).2.length := by
    intro bs
    induction bs with
    | nil => exact fun _ _ _ _ => ⟨rfl, rfl, rfl⟩
    | cons b bs ih =>
      intro c sy d e
      rw [bits_cons, bits_cons]
      cases b with
      | true => exact ih _ _ _ _
      | false =>
        rw [bit, bit]
        simp only
        split
        · exact ih _ _ _ _
        · split
          · obtain ⟨h1, h2, h3⟩ := ih 0 true [] []
            refine ⟨h1, h2, ?_⟩
            rw [List.length_append, List.length_append, h3]
            split
            · rfl
            · rfl
          · exact ih _ _ _ _
  exact key bs c true d []

end Rx

/-! ## Fill

What may stand between two frames, and what it does to a receiver. -/

namespace Rx

/-- A receiver that a flag brings to the start of a frame, whatever it was doing. -/
def Ready (s : Rx) : Prop := s.synced = false ∨ s = ⟨0, true, []⟩

/-- So is one that has just been switched on, and after a few bits of anything. -/
theorem ready_lead {lead : List Bool} (h : lead.length < 8) :
    (bits ⟨0, false, []⟩ lead).1.Ready := by
  have hall : ∀ k < 8, ∀ v < 2 ^ k,
      (bits ⟨0, false, []⟩ (bitsOf k v)).1.synced = false ∨
        (bits ⟨0, false, []⟩ (bitsOf k v)).1.ones = 0 ∧
        (bits ⟨0, false, []⟩ (bitsOf k v)).1.synced = true ∧
        (bits ⟨0, false, []⟩ (bitsOf k v)).1.data = [] := by
    decide
  have hlead := hall lead.length h (ofBits lead) (ofBits_lt lead)
  rw [bitsOf_ofBits] at hlead
  refine hlead.imp id fun hzero => ?_
  generalize (bits ⟨0, false, []⟩ lead).1 = r at hzero
  obtain ⟨c, sy, d⟩ := r
  obtain ⟨rfl, rfl, rfl⟩ := hzero
  rfl

/-- After a flag, the first seven bits of anything are no frame. -/
theorem fits_short {cap : Nat} {s : Rx} {bs : List Bool} (hbs : bs.length ≤ 7)
    (h : s.synced = true → s.ones ≤ s.data.length ∧ s.data.length + bs.length ≤ 7) :
    s.Fits cap bs ∧ ∀ f ∈ (s.bits bs).2, f = [] := by
  induction bs generalizing s with
  | nil => exact ⟨trivial, fun f hf => absurd hf (by simp)⟩
  | cons b bs ih =>
    rw [List.length_cons] at hbs h
    cases b with
    | true =>
      obtain ⟨hfits, hframes⟩ := ih (s := (s.bit true).1) (by omega) (fun hs => by
        have := h (Bool.and_eq_true_iff.mp hs).1
        simp only [bit, List.length_append, List.length_singleton]
        omega)
      refine ⟨⟨fun hs => ?_, hfits⟩, hframes⟩
      have := h hs
      exact ⟨fun _ => by omega, fun _ => by omega⟩
    | false =>
      have hfit : s.Fit cap false := fun hs => by
        have := h hs
        exact ⟨fun _ => .inl (by omega), fun _ => by omega⟩
      rw [bits_cons]
      simp only [List.mem_append]
      by_cases h5 : s.ones = 5
      · have hbit : s.bit false = ({ s with ones := 0 }, []) := by rw [bit, if_pos h5]
        obtain ⟨hfits, hframes⟩ := ih (s := { s with ones := 0 }) (by omega) (fun hs => by
          have := h hs
          simp only
          omega)
        rw [Fits, hbit]
        exact ⟨⟨hfit, hfits⟩, fun f hf => hf.elim (fun hf => absurd hf (by simp)) (hframes f)⟩
      · by_cases h6 : s.ones = 6
        · have hbit : (s.bit false).1 = ⟨0, true, []⟩ := by rw [bit, if_neg h5, if_pos h6]
          obtain ⟨hfits, hframes⟩ := ih (s := ⟨0, true, []⟩) (by omega)
            (fun _ => ⟨Nat.zero_le _, by simp only [List.length_nil]; omega⟩)
          rw [Fits, hbit]
          refine ⟨⟨hfit, hfits⟩, fun f hf => hf.elim (fun hf => ?_) (hframes f)⟩
          rw [bit, if_neg h5, if_pos h6] at hf
          simp only at hf
          split at hf
          next hs =>
            have := h hs
            rw [List.mem_singleton.mp hf, show s.data.length - 7 = 0 by omega, List.take_zero]
          next => exact absurd hf (by simp)
        · have hbit : s.bit false = ({ s with ones := 0, data := s.data ++ [false] }, []) := by
            rw [bit, if_neg h5, if_neg h6]
          obtain ⟨hfits, hframes⟩ := ih (s := { s with ones := 0, data := s.data ++ [false] })
            (by omega) (fun hs => by
              have := h hs
              simp only [List.length_append, List.length_singleton]
              omega)
          rw [Fits, hbit]
          exact ⟨⟨hfit, hfits⟩, fun f hf => hf.elim (fun hf => absurd hf (by simp)) (hframes f)⟩

theorem Ready.fits_short {s : Rx} (h : s.Ready) (cap : Nat) {bs : List Bool}
    (hbs : bs.length ≤ 7) : s.Fits cap bs ∧ ∀ f ∈ (s.bits bs).2, f = [] := by
  refine Rx.fits_short hbs fun hs => ?_
  rcases h with hf | rfl
  · exact absurd (hf.symm.trans hs) (by simp)
  · exact ⟨Nat.zero_le _, by simp only [List.length_nil]; omega⟩

/-- Ones alone complete no frame. -/
theorem bits_ones_frames (s : Rx) (n : Nat) : (s.bits (List.replicate n true)).2 = [] := by
  induction n generalizing s with
  | zero => rfl
  | succ n ih =>
    rw [List.replicate_succ, bits_cons]
    exact ih (s.bit true).1

theorem synced_ones_of_hunt {s : Rx} (hs : s.synced = false) (n : Nat) :
    (s.bits (List.replicate n true)).1.synced = false := by
  induction n generalizing s with
  | zero => exact hs
  | succ n ih =>
    rw [List.replicate_succ, bits_cons]
    exact ih (s := (s.bit true).1) (by simp only [bit, hs, Bool.false_and])

theorem fits_ones_of_hunt {cap : Nat} {s : Rx} (hs : s.synced = false) (n : Nat) :
    s.Fits cap (List.replicate n true) := by
  induction n generalizing s with
  | zero => trivial
  | succ n ih =>
    refine ⟨fun h => absurd (hs.symm.trans h) (by simp), ih ?_⟩
    simp only [bit, hs, Bool.false_and]

/-- **Idle ones**, seven of them or more, put a receiver out of step. -/
theorem Ready.idle {s : Rx} (h : s.Ready) (cap : Nat) {n : Nat} (hn : 7 ≤ n) :
    s.Fits cap (List.replicate n true) ∧
      (s.bits (List.replicate n true)).1.synced = false := by
  rcases h with hs | rfl
  · exact ⟨fits_ones_of_hunt hs n, synced_ones_of_hunt hs n⟩
  · obtain ⟨k, rfl⟩ := Nat.exists_eq_add_of_le hn
    have hsplit : List.replicate (7 + k) true = List.replicate 7 true ++ List.replicate k true :=
      List.replicate_append_replicate.symm
    have hfirst : bits ⟨0, true, []⟩ (List.replicate 7 true)
        = (⟨7, false, List.replicate 7 true⟩, []) := rfl
    have hfits : Fits cap ⟨0, true, []⟩ (List.replicate 7 true) := by
      simp [List.replicate, Fits, Fit, bit]
    rw [hsplit, fits_append, bits_append, hfirst]
    exact ⟨⟨hfits, fits_ones_of_hunt rfl k⟩, synced_ones_of_hunt rfl k⟩

/-- **A flag** brings the receiver to the start of a frame. -/
theorem Ready.flag {s : Rx} (h : s.Ready) (cap : Nat) :
    s.Fits cap flag ∧ (s.bits flag).1 = ⟨0, true, []⟩ ∧ ∀ f ∈ (s.bits flag).2, f = [] := by
  rcases h with hs | rfl
  · obtain ⟨c, sy, d⟩ := s
    simp only at hs
    subst hs
    by_cases h6 : c = 6
    · subst h6
      simp [BitStuff.flag, Fits, Fit, bits, bit]
    · by_cases h5 : c = 5
      · subst h5
        simp [BitStuff.flag, Fits, Fit, bits, bit]
      · simp [BitStuff.flag, Fits, Fit, bits, bit, h5, h6]
  · simp [BitStuff.flag, Fits, Fit, bits, bit]

/-- A flag that shares its first zero with the flag before. -/
theorem bits_shared_flag (cap : Nat) :
    Fits cap ⟨0, true, []⟩ BitStuff.flag.tail ∧
      bits ⟨0, true, []⟩ BitStuff.flag.tail = (⟨0, true, []⟩, [[]]) := by
  simp [BitStuff.flag, Fits, Fit, bits, bit]

end Rx

/-! ## Bytes -/

/-- At the end of a flag the receiver has seven of its bits and a whole number of bytes, or six ones
after the flag before. -/
theorem scan_flag_of_fits (cap : Nat) (s : Rx) (c : Nat) (pre bs : List Bool)
    (h : ((Scan.ofParts c pre none).apply s).1.Fits cap bs) {pre' post' : List Bool} {c' : Nat}
    (hscan : scan c pre none bs = .flag pre' post' c') (hs : s.synced = true) :
    (s.data ++ pre').length = 6 ∨
      7 ≤ (s.data ++ pre').length ∧ ((s.data ++ pre').length - 7) % 8 = 0 := by
  induction bs generalizing c pre with
  | nil => exact absurd hscan (by simp [scan])
  | cons b bs ih =>
    rw [Rx.Fits] at h
    obtain ⟨hok, h⟩ := h
    cases b with
    | true =>
      rw [scan] at hscan
      split at hscan
      next hc => exact ih _ _ (by simpa [Scan.ofParts, Scan.apply, Rx.bit, hc] using h) hscan
      next hc => cases hscan
    | false =>
      rw [scan] at hscan
      split at hscan
      next h5 => exact ih _ _ (by simpa [Scan.ofParts, Scan.apply, Rx.bit, h5] using h) hscan
      next h5 =>
        split at hscan
        next h6 =>
          rw [scan_pre_of_some hscan]
          exact (hok hs).1 h6
        next h6 =>
          exact ih _ _ (by simpa [Scan.ofParts, Scan.apply, Rx.bit, h5, h6] using h) hscan

end BitStuff
end Isdn4bsd
