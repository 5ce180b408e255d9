import Mathlib.Data.List.TakeWhile
import Isdn4bsd.Isdnd.Rates

/-!
# The ISDN daemon: the lines of the rates file

* `Entry`, `RateLine` : the text of a line.
* `readEntry_body`, `readEntry_space` : **an entry** is read if and only if a space follows it.
* `readLine_line` : **a line** is read into the table.
* `readLine_take` : **of a line that is cut off** not all entries are read, or nothing is.

## Well-formed text

`Entry` has digits, not characters, and times that make sense, so the text that is made from it is always
that of an entry: hours and minutes are two digits each, a rate has at least one, and the end is behind
the start.  `RateLine` is one or more of these, with blanks or tabulators before each one.

## Reading

The parser has a pointer into the line and moves on, character by character.  Here it is the list of what
follows, and a step that would go beyond it is a fault.  `atoi` reads digits up to something that is none,
and `skipRate` goes on to the next space, so behind the last digit there has to be one; the end of the text
is no space for it.

* Forwards, each function is computed on the text of an entry with whatever follows it: `number_two`,
`expect_self`, `rateOf_digits`, and from these `readEntry_body`.
* Backwards, whatever is read as an entry leaves something that begins with a space: `readEntry_space`.
Since there is no space in an entry, this one can only be what follows it.

The two of them decide what happens to a line that was cut off anywhere.  If that is within an entry, or
right behind it, this entry is not read, and neither is what would have followed.  `space_of_entriesText`
is for the entries before it.
-/

set_option autoImplicit false

namespace Isdn4bsd
namespace Isdnd

open L3 (Str)
open Chains

/-! ## The text -/

/-- A decimal digit. -/
def digit (n : ℕ) : UInt8 := UInt8.ofNat (48 + n)

def digits (ds : List (Fin 10)) : Str := ds.map fun d : Fin 10 => digit d.val

/-- What decimal digits stand for. -/
def value (ds : List (Fin 10)) : ℕ := ds.foldl (fun v d => 10 * v + d.val) 0

/-- `hh.mm-hh.mm:rate`.  A section that ends in the hour 0 ends in the hour after midnight. -/
structure Entry where
  startHour : Fin 24
  startMin : Fin 60
  endHour : Fin 25
  endMin : Fin 60
  rate : List (Fin 10)
  rate_ne : rate ≠ []
  rate_lt : value rate < 2 ^ 31
  lt : startHour.val * 60 + startMin < (if endHour.val = 0 then 24 else endHour.val) * 60 + endMin

namespace Entry

def startTime (e : Entry) : ℕ := e.startHour * 60 + e.startMin

def endTime (e : Entry) : ℕ := (if e.endHour.val = 0 then 24 else e.endHour.val) * 60 + e.endMin

/-- The half-open window. -/
def Covers (e : Entry) (t : ℕ) : Prop := e.startTime ≤ t ∧ t < e.endTime

instance (e : Entry) (t : ℕ) : Decidable (e.Covers t) := inferInstanceAs (Decidable (_ ∧ _))

/-- What is written of it. -/
def times (e : Entry) : Times := ⟨some e.startTime, some e.endTime, some (value e.rate)⟩

def body (e : Entry) : Str :=
  digit (e.startHour / 10) :: digit (e.startHour % 10) :: 46 ::
  digit (e.startMin / 10) :: digit (e.startMin % 10) :: 45 ::
  digit (e.endHour / 10) :: digit (e.endHour % 10) :: 46 ::
  digit (e.endMin / 10) :: digit (e.endMin % 10) :: 58 :: digits e.rate

end Entry

/-- At least one blank or tabulator. -/
structure Gap where
  text : Str
  ne : text ≠ []
  blank : ∀ c ∈ text, c = 32 ∨ c = 9

/-- The entries of a line, each of them behind a gap. -/
def entriesText (es : List (Gap × Entry)) : Str := es.flatMap fun x => x.1.text ++ x.2.body

/-- `raN D hh.mm-hh.mm:rate ...` -/
structure RateLine where
  type : Fin nrates
  gap : Gap
  day : Fin ndays
  entries : List (Gap × Entry)
  entries_ne : entries ≠ []

namespace RateLine

def key (l : RateLine) : Key := (l.type, l.day)

def text (l : RateLine) : Str :=
  114 :: 97 :: digit l.type :: (l.gap.text ++ digit l.day :: entriesText l.entries)

end RateLine

/-! ## Characters -/

theorem digit_toNat {n : ℕ} (h : n < 10) : (digit n).toNat = 48 + n := by
  rw [digit, UInt8.toNat_ofNat_of_lt' (by simp only [UInt8.size]; omega)]

@[simp] theorem isdigit_digit {n : ℕ} (h : n < 10) : isdigit (digit n) = true := by
  rw [isdigit, digit_toNat h]
  exact decide_eq_true (by omega)

@[simp] theorem isspace_digit {n : ℕ} (h : n < 10) : isspace (digit n) = false := by
  rw [isspace, digit_toNat h]
  exact decide_eq_false (by omega)

theorem isdigit_of_isspace {c : UInt8} (h : isspace c = true) : isdigit c = false := by
  rw [isspace, decide_eq_true_iff] at h
  rw [isdigit]
  exact decide_eq_false (by omega)

theorem Gap.isspace (g : Gap) {c : UInt8} (h : c ∈ g.text) : isspace c = true := by
  rcases g.blank c h with rfl | rfl
  · rfl
  · rfl

/-- Digits, up to something else. -/
theorem takeWhile_digits (ds : List (Fin 10)) {c : UInt8} (hc : isdigit c = false) (rest : Str) :
    (digits ds ++ c :: rest).takeWhile isdigit = digits ds := by
  rw [List.takeWhile_append_of_pos, List.takeWhile_cons_of_neg (by simp [hc]), List.append_nil]
  intro x hx
  obtain ⟨d, -, rfl⟩ := List.mem_map.mp hx
  exact isdigit_digit d.isLt

theorem foldl_digits (ds : List (Fin 10)) (v : ℕ) :
    (digits ds).foldl (fun v c => 10 * v + (c.toNat - 48)) v =
      ds.foldl (fun v d => 10 * v + d.val) v := by
  induction ds generalizing v with
  | nil => rfl
  | cons d ds ih =>
    have hd : digits (d :: ds) = digit d :: digits ds := rfl
    rw [hd, List.foldl_cons, List.foldl_cons, ih, digit_toNat d.isLt, Nat.add_sub_cancel_left]

theorem atoi_digits {ds : List (Fin 10)} (hv : value ds < 2 ^ 31) {c : UInt8} (hc : isdigit c = false)
    (rest : Str) : atoi (digits ds ++ c :: rest) = .ok (value ds) := by
  rw [atoi, takeWhile_digits ds hc, foldl_digits]
  exact if_pos hv

/-- A number of two digits. -/
theorem number_two {n : ℕ} (hn : n < 100) {c : UInt8} (hc : isdigit c = false) (rest : Str) :
    number (digit (n / 10) :: digit (n % 10) :: c :: rest) = .ok (n, c :: rest) := by
  have h1 : n / 10 < 10 := by omega
  have h2 : n % 10 < 10 := by omega
  have hvalue : value [⟨n / 10, h1⟩, ⟨n % 10, h2⟩] = n := by
    simp only [value, List.foldl_cons, List.foldl_nil]
    omega
  have hatoi := @atoi_digits [⟨n / 10, h1⟩, ⟨n % 10, h2⟩] (by rw [hvalue]; omega) c hc rest
  rw [hvalue] at hatoi
  rw [number, isdigit_digit h1, isdigit_digit h2]
  simp only [Bool.and_self, if_true]
  have htext : digits [⟨n / 10, h1⟩, ⟨n % 10, h2⟩] ++ c :: rest =
      digit (n / 10) :: digit (n % 10) :: c :: rest := rfl
  rw [← htext, hatoi]
  rfl

theorem expect_self (c : UInt8) (rest : Str) : expect c (c :: rest) = .ok rest := if_pos rfl

/-- The rate, up to what follows it. -/
theorem skipRate_digits (ds : List (Fin 10)) {c : UInt8} (hc : isspace c = true) (rest : Str) :
    skipRate (digits ds ++ c :: rest) = .ok (c :: rest) := by
  induction ds with
  | nil => exact if_pos hc
  | cons d ds ih =>
    have hd : digits (d :: ds) ++ c :: rest = digit d :: (digits ds ++ c :: rest) := rfl
    rw [hd, skipRate, isspace_digit d.isLt]
    exact ih

theorem rateOf_digits {ds : List (Fin 10)} (hne : ds ≠ []) (hv : value ds < 2 ^ 31) {c : UInt8}
    (hc : isspace c = true) (rest : Str) :
    rateOf (digits ds ++ c :: rest) = .ok (value ds, c :: rest) := by
  have hatoi := atoi_digits hv (isdigit_of_isspace hc) rest
  have hskip := skipRate_digits ds hc rest
  cases ds with
  | nil => exact absurd rfl hne
  | cons d ds =>
    have hd : digits (d :: ds) ++ c :: rest = digit d :: (digits ds ++ c :: rest) := rfl
    rw [hd] at hatoi hskip ⊢
    rw [rateOf]
    simp only [isdigit_digit d.isLt, if_true, hatoi, hskip]
    rfl

/-! ## An entry -/

namespace RatesState

@[simp] theorem ok_bind {α β : Type} (a : α) (f : α → Except RatesFault β) :
    (Except.ok a >>= f) = f a := rfl

/-- **An entry** is read if a space follows it. -/
theorem readEntry_body {st : RatesState} {old : List (Node Times)} {vs : List Times} {v : Times}
    (h : st.Tail old vs v) (e : Entry) {c : UInt8} (hc : isspace c = true) (rest : Str) :
    ∃ st', st.readEntry (e.body ++ c :: rest) = .ok (st', skipSpace (c :: rest)) ∧
      st'.Tail old vs e.times ∧ st'.rates = st.rates := by
  obtain ⟨st₁, hst₁, h₁, hr₁⟩ := writeRt_tail h fun r => { r with startTime := some e.startTime }
  obtain ⟨st₂, hst₂, h₂, hr₂⟩ := writeRt_tail h₁ fun r => { r with endTime := some e.endTime }
  obtain ⟨st₃, hst₃, h₃, hr₃⟩ := writeRt_tail h₂ fun r => { r with rate := some (value e.rate) }
  refine ⟨st₃, ?_, h₃, by rw [hr₃, hr₂, hr₁]⟩
  have hcheck : checkTimes e.startTime e.endTime = .ok () := if_neg (Nat.not_le_of_lt e.lt)
  have hrate := rateOf_digits e.rate_ne e.rate_lt hc rest
  have hsh := e.startHour.isLt
  have hsm := e.startMin.isLt
  have heh := e.endHour.isLt
  have hem := e.endMin.isLt
  rw [readEntry, Entry.body]
  simp only [List.cons_append]
  -- the start
  rw [number_two (by omega) (by decide), ok_bind]
  simp only [expect_self, ok_bind]
  rw [number_two (by omega) (by decide), ok_bind]
  simp only
  rw [show e.startHour.val * 60 + e.startMin.val = e.startTime from rfl, hst₁, ok_bind]
  -- the end
  simp only [expect_self, ok_bind]
  rw [number_two (by omega) (by decide), ok_bind]
  simp only [expect_self, ok_bind]
  rw [number_two (by omega) (by decide), ok_bind]
  simp only
  rw [show (if e.endHour.val = 0 then 24 else e.endHour.val) * 60 + e.endMin.val = e.endTime from rfl,
    hst₂, ok_bind, hcheck, ok_bind]
  -- the rate
  simp only [expect_self, ok_bind]
  rw [hrate, ok_bind]
  simp only
  rw [hst₃]
  rfl

/-- Both parts of a computation have ended well. -/
theorem bind_eq_ok {α β : Type} {x : Except RatesFault α} {f : α → Except RatesFault β} {b : β}
    (h : (x >>= f) = .ok b) : ∃ a, x = .ok a ∧ f a = .ok b := by
  cases x with
  | error e => cases h
  | ok a => exact ⟨a, rfl, h⟩

theorem number_subset {bp rest : Str} {n : ℕ} (h : number bp = .ok (n, rest)) : rest ⊆ bp := by
  rcases bp with _ | ⟨a, _ | ⟨b, more⟩⟩
  · cases h
  · cases h
  · rw [number] at h
    split_ifs at h
    cases hv : atoi (a :: b :: more) with
    | error f =>
      rw [hv] at h
      cases h
    | ok v =>
      rw [hv] at h
      cases h
      exact List.subset_cons_of_subset a (List.subset_cons_self b _)

theorem expect_subset {c : UInt8} {bp rest : Str} (h : expect c bp = .ok rest) : rest ⊆ bp := by
  cases bp with
  | nil => cases h
  | cons a bp =>
    rw [expect] at h
    split_ifs at h
    cases h
    exact List.subset_cons_self a _

theorem skipRate_space {bp rest : Str} (h : skipRate bp = .ok rest) : ∃ c ∈ bp, isspace c = true := by
  induction bp with
  | nil => cases h
  | cons c bp ih =>
    rw [skipRate] at h
    split_ifs at h with hc
    · exact ⟨c, List.mem_cons_self, hc⟩
    · obtain ⟨c', hc', hspace⟩ := ih h
      exact ⟨c', List.mem_cons_of_mem _ hc', hspace⟩

theorem rateOf_space {bp : Str} {r : ℕ × Str} (h : rateOf bp = .ok r) : ∃ c ∈ bp, isspace c = true := by
  cases bp with
  | nil => cases h
  | cons c bp =>
    rw [rateOf] at h
    split_ifs at h
    obtain ⟨rate, -, h⟩ := bind_eq_ok h
    obtain ⟨rest, hskip, -⟩ := bind_eq_ok h
    exact skipRate_space hskip

/-- **An entry is left** only where there is a space. -/
theorem readEntry_space {st : RatesState} {bp : Str} {r : RatesState × Str}
    (h : st.readEntry bp = .ok r) : ∃ c ∈ bp, isspace c = true := by
  rw [readEntry] at h
  obtain ⟨⟨_, bp₁⟩, h₁, h⟩ := bind_eq_ok h
  obtain ⟨bp₂, h₂, h⟩ := bind_eq_ok h
  obtain ⟨⟨_, bp₃⟩, h₃, h⟩ := bind_eq_ok h
  obtain ⟨_, -, h⟩ := bind_eq_ok h
  obtain ⟨bp₄, h₄, h⟩ := bind_eq_ok h
  obtain ⟨⟨_, bp₅⟩, h₅, h⟩ := bind_eq_ok h
  obtain ⟨bp₆, h₆, h⟩ := bind_eq_ok h
  obtain ⟨⟨_, bp₇⟩, h₇, h⟩ := bind_eq_ok h
  obtain ⟨_, -, h⟩ := bind_eq_ok h
  obtain ⟨_, -, h⟩ := bind_eq_ok h
  obtain ⟨bp₈, h₈, h⟩ := bind_eq_ok h
  obtain ⟨_, hrate, -⟩ := bind_eq_ok h
  obtain ⟨c, hc, hspace⟩ := rateOf_space hrate
  have hstart : bp₃ ⊆ bp := fun c hc => number_subset h₁ (expect_subset h₂ (number_subset h₃ hc))
  have hend : bp₇ ⊆ bp₃ := fun c hc =>
    expect_subset h₄ (number_subset h₅ (expect_subset h₆ (number_subset h₇ hc)))
  exact ⟨c, hstart (hend (expect_subset h₈ hc)), hspace⟩

/-- There is none in its text. -/
theorem isspace_body (e : Entry) : ∀ c ∈ e.body, isspace c = false := by
  have hsh := e.startHour.isLt
  have hsm := e.startMin.isLt
  have heh := e.endHour.isLt
  have hem := e.endMin.isLt
  intro c hc
  simp only [Entry.body, List.mem_cons] at hc
  rcases hc with rfl | rfl | rfl | rfl | rfl | rfl | rfl | rfl | rfl | rfl | rfl | rfl | hc
  any_goals exact isspace_digit (by omega)
  any_goals rfl
  obtain ⟨d, -, rfl⟩ := List.mem_map.mp hc
  exact isspace_digit d.isLt

/-! ## The entries of a line -/

theorem skipSpace_gap (g : Gap) (rest : Str) : skipSpace (g.text ++ rest) = skipSpace rest := by
  rw [skipSpace, List.dropWhile_append_of_pos fun c hc => g.isspace hc]
  rfl

theorem skipSpace_digit {n : ℕ} (h : n < 10) (rest : Str) :
    skipSpace (digit n :: rest) = digit n :: rest :=
  List.dropWhile_cons_of_neg (by simp [isspace_digit h])

theorem skipSpace_blanks {bp : Str} (h : ∀ c ∈ bp, isspace c = true) : skipSpace bp = [] :=
  List.dropWhile_eq_nil_iff.mpr h

/-- What an entry begins with. -/
theorem body_eq_cons (e : Entry) :
    ∃ rest, e.body = digit (e.startHour / 10) :: rest ∧ e.startHour.val / 10 < 10 :=
  ⟨_, rfl, by omega⟩

theorem entryFor_tail {st : RatesState} {old : List (Node Times)} {vs : List Times} {v : Times}
    (h : st.Tail old vs v) (first : Bool) :
    ∃ st' vs' w, st.entryFor first = .ok st' ∧ st'.Tail old vs' w ∧ st'.rates = st.rates ∧
      ∀ x, vs' ++ [x] = Tariffs.entered first (vs ++ [v]) [x] := by
  cases first with
  | true => exact ⟨st, vs, v, rfl, h, rfl, fun x => by simp [Tariffs.entered]⟩
  | false =>
    obtain ⟨st', hst', h', hr⟩ := nextRates_tail h
    exact ⟨st', vs ++ [v], .unset, hst', h', hr, fun x => by simp [Tariffs.entered]⟩

/-- The loop reads one entry if a space follows it. -/
theorem readEntries_body {st : RatesState} {old : List (Node Times)} {vs : List Times} {v : Times}
    (h : st.Tail old vs v) (first : Bool) (fuel : ℕ) (e : Entry) {c : UInt8} (hc : isspace c = true)
    (rest : Str) :
    ∃ st' vs', readEntries (fuel + 1) first st (e.body ++ c :: rest) =
        readEntries fuel false st' (skipSpace (c :: rest)) ∧
      st'.Tail old vs' e.times ∧ st'.rates = st.rates ∧
      vs' ++ [e.times] = Tariffs.entered first (vs ++ [v]) [e.times] := by
  obtain ⟨st₁, vs₁, w, hst₁, h₁, hr₁, hvs₁⟩ := entryFor_tail h first
  obtain ⟨st₂, hst₂, h₂, hr₂⟩ := readEntry_body h₁ e hc rest
  refine ⟨st₂, vs₁, ?_, h₂, hr₂.trans hr₁, hvs₁ e.times⟩
  obtain ⟨more, hbody, hdigit⟩ := body_eq_cons e
  rw [hbody, List.cons_append] at hst₂ ⊢
  rw [readEntries, isdigit_digit hdigit]
  simp only [if_true, hst₁, ok_bind, hst₂]

/-- The loop fails on what has no space in it. -/
theorem readEntries_fault {st : RatesState} {first : Bool} {fuel : ℕ} {c : UInt8} {cs : Str}
    (hc : isdigit c = true) (hspace : ∀ x ∈ c :: cs, isspace x = false) :
    ∃ f, readEntries fuel first st (c :: cs) = .error f := by
  cases fuel with
  | zero => exact ⟨_, rfl⟩
  | succ fuel =>
    rw [readEntries, hc]
    simp only [if_true]
    cases hentry : st.entryFor first with
    | error f => exact ⟨f, rfl⟩
    | ok st₁ =>
      rw [ok_bind]
      cases hread : st₁.readEntry (c :: cs) with
      | error f => exact ⟨f, rfl⟩
      | ok r =>
        obtain ⟨x, hx, hxs⟩ := readEntry_space hread
        exact absurd hxs (by simp [hspace x hx])

/-- What is entered for the entries of a line. -/
def entryTimes (es : List (Gap × Entry)) : List Times := es.map fun x => x.2.times

theorem entriesText_cons (x : Gap × Entry) (es : List (Gap × Entry)) :
    entriesText (x :: es) = x.1.text ++ (x.2.body ++ entriesText es) := by
  rw [entriesText, List.flatMap_cons, List.append_assoc]
  rfl

/-- What follows an entry begins with a space. -/
theorem space_of_entriesText {es : List (Gap × Entry)} {c : UInt8} {rest : Str}
    (h : entriesText es = c :: rest) : isspace c = true := by
  cases es with
  | nil => cases h
  | cons x es =>
    rw [entriesText_cons] at h
    obtain ⟨d, ds, hgap⟩ := List.exists_cons_of_ne_nil x.1.ne
    rw [hgap, List.cons_append] at h
    cases h
    exact x.1.isspace (hgap ▸ List.mem_cons_self)

/-- **All entries** of a line are read if the line ends. -/
theorem readEntries_line (es : List (Gap × Entry)) {st : RatesState} {old : List (Node Times)}
    {vs : List Times} {v : Times} (h : st.Tail old vs v) (first : Bool) {fuel : ℕ}
    (hfuel : es.length < fuel) :
    ∃ st' vs' v', readEntries fuel first st (skipSpace (entriesText es ++ [10])) = .ok st' ∧
      st'.Tail old vs' v' ∧ st'.rates = st.rates ∧
      vs' ++ [v'] = Tariffs.entered first (vs ++ [v]) (entryTimes es) := by
  induction es generalizing st vs v first fuel with
  | nil =>
    obtain ⟨fuel, rfl⟩ := Nat.exists_eq_add_one_of_ne_zero (Nat.ne_of_gt hfuel)
    exact ⟨st, vs, v, rfl, h, rfl, rfl⟩
  | cons x es ih =>
    obtain ⟨fuel, rfl⟩ := Nat.exists_eq_add_one_of_ne_zero (Nat.ne_of_gt (Nat.zero_lt_of_lt hfuel))
    obtain ⟨more, hbody, hdigit⟩ := body_eq_cons x.2
    obtain ⟨c, rest, hrest, hc⟩ : ∃ c rest, entriesText es ++ [10] = c :: rest ∧ isspace c = true := by
      cases htext : entriesText es with
      | nil => exact ⟨10, [], rfl, rfl⟩
      | cons c rest => exact ⟨c, rest ++ [10], rfl, space_of_entriesText htext⟩
    obtain ⟨st₁, vs₁, hread, h₁, hr₁, hvs₁⟩ := readEntries_body h first fuel x.2 hc rest
    obtain ⟨st', vs', v', hmore, h', hr', hvs'⟩ := ih h₁ false (Nat.lt_of_succ_lt_succ hfuel)
    refine ⟨st', vs', v', ?_, h', hr'.trans hr₁, ?_⟩
    · rw [entriesText_cons, List.append_assoc, skipSpace_gap, List.append_assoc, hrest]
      rw [hrest] at hmore
      rw [← hmore, ← hread, hbody, List.cons_append, skipSpace_digit hdigit]
    · rw [hvs', hvs₁]
      exact (Tariffs.entered_cons ..).symm

/-- **Of a line that is cut off**, some entries are read, and not all of them; or it cannot be read. -/
theorem readEntries_take {es : List (Gap × Entry)} (hes : es ≠ []) {n : ℕ}
    (hn : n ≤ (entriesText es).length) {st : RatesState} {old : List (Node Times)} {vs : List Times}
    {v : Times} (h : st.Tail old vs v) (first : Bool) (fuel : ℕ) :
    (∃ f, readEntries fuel first st (skipSpace ((entriesText es).take n)) = .error f) ∨
    ∃ k < es.length, ∃ st' vs' v',
      readEntries fuel first st (skipSpace ((entriesText es).take n)) = .ok st' ∧
      st'.Tail old vs' v' ∧ st'.rates = st.rates ∧
      vs' ++ [v'] = Tariffs.entered first (vs ++ [v]) (entryTimes (es.take k)) := by
  induction es generalizing st vs v first fuel n with
  | nil => exact absurd rfl hes
  | cons x es ih =>
    cases fuel with
    | zero => exact .inl ⟨_, rfl⟩
    | succ fuel =>
    obtain ⟨more, hbody, hdigit⟩ := body_eq_cons x.2
    rw [entriesText_cons] at hn ⊢
    rw [List.length_append] at hn
    rcases Nat.lt_or_ge x.1.text.length n with hgap | hgap
    · obtain ⟨m, rfl⟩ := Nat.exists_eq_add_of_lt hgap
      rw [Nat.add_assoc, List.take_length_add_append, skipSpace_gap]
      rcases Nat.lt_or_ge x.2.body.length (m + 1) with hlong | hshort
      · -- the entry is complete, and something follows it
        obtain ⟨j, hj⟩ := Nat.exists_eq_add_of_lt hlong
        rw [List.length_append] at hn
        rw [hj, Nat.add_assoc, List.take_length_add_append]
        obtain ⟨c, rest, hrest⟩ : ∃ c rest, entriesText es = c :: rest :=
          List.exists_cons_of_length_pos (by omega)
        have hc := space_of_entriesText hrest
        have hne : es ≠ [] := by
          rintro rfl
          cases hrest
        obtain ⟨st₁, vs₁, hread, h₁, hr₁, hvs₁⟩ := readEntries_body h first fuel x.2 hc (rest.take j)
        have hih := @ih hne (j + 1) (by omega) st₁ vs₁ x.2.times h₁ false fuel
        rw [hrest, List.take_succ_cons] at hih ⊢
        rw [← hread] at hih
        rw [hbody, List.cons_append] at hih ⊢
        rw [skipSpace_digit hdigit]
        rcases hih with hfault | ⟨k, hk, st', vs', v', hst', h', hr', hvs'⟩
        · exact .inl hfault
        · refine .inr ⟨k + 1, Nat.succ_lt_succ hk, st', vs', v', hst', h', hr'.trans hr₁, ?_⟩
          rw [hvs', hvs₁]
          exact (Tariffs.entered_cons ..).symm
      · -- the entry is cut off
        rw [List.take_append_of_le_length hshort, hbody, List.take_succ_cons, skipSpace_digit hdigit]
        refine .inl (readEntries_fault (isdigit_digit hdigit) fun y hy => isspace_body x.2 y ?_)
        rw [← List.take_succ_cons, ← hbody] at hy
        exact List.mem_of_mem_take hy
    · rw [List.take_append_of_le_length hgap,
        skipSpace_blanks fun c hc => x.1.isspace (List.mem_of_mem_take hc)]
      exact .inr ⟨0, Nat.zero_lt_succ _, st, vs, v, rfl, h, rfl, rfl⟩

/-! ## A line -/

theorem readLine_header (st : RatesState) (l : RateLine) (more : Str) :
    st.readLine (114 :: 97 :: digit l.type :: (l.gap.text ++ digit l.day :: more)) =
      readEntries ((skipSpace more).length + 1) true (st.openDay l.type l.day) (skipSpace more) := by
  have htype := l.type.isLt
  have hday := l.day.isLt
  have htype10 : l.type.val < 10 := by simp only [nrates] at htype; omega
  have hday10 : l.day.val < 10 := by simp only [ndays] at hday; omega
  have hdayle : 48 + l.day.val ≤ 54 := by
    simp only [ndays] at hday
    omega
  have hsub : ∀ n : ℕ, 48 + n - 48 = n := Nat.add_sub_cancel_left 48
  rw [readLine, List.headD_cons, if_neg (by decide), readType]
  simp only [isdigit_digit htype10, and_self, if_true, digit_toNat htype10, hsub,
    if_neg (Nat.not_le_of_lt htype)]
  rw [skipSpace_gap, skipSpace_digit hday10, readDay, isdigit_digit hday10]
  simp only [digit_toNat hday10, hdayle, decide_true, Bool.and_self, if_true, hsub]

/-- There are no more entries than characters. -/
theorem length_entries_le (es : List (Gap × Entry)) : es.length ≤ (entriesText es).length := by
  induction es with
  | nil => exact Nat.le_refl _
  | cons x es ih =>
    obtain ⟨more, hbody, -⟩ := body_eq_cons x.2
    rw [entriesText_cons, hbody, List.length_append, List.length_append, List.length_cons,
      List.length_cons]
    omega

theorem length_entries_lt (es : List (Gap × Entry)) :
    es.length < (skipSpace (entriesText es ++ [10])).length + 1 := by
  cases es with
  | nil => exact Nat.succ_pos _
  | cons x es =>
    have hle := length_entries_le es
    obtain ⟨more, hbody, hdigit⟩ := body_eq_cons x.2
    rw [entriesText_cons, List.append_assoc, skipSpace_gap, hbody, List.append_assoc, List.cons_append,
      skipSpace_digit hdigit, List.length_cons, List.length_cons, List.length_append,
      List.length_append]
    omega

end RatesState

/-- So many entries of a line are entered. -/
def Tariffs.line (T : Tariffs) (l : RateLine) (k : ℕ) : Tariffs :=
  (T.openDay l.key).put (RatesState.entryTimes (l.entries.take k))

namespace RatesState

/-- **A line** that ends within the buffer is entered. -/
theorem readLine_line {st : RatesState} {T : Tariffs} (h : st.Reps T) (l : RateLine) :
    ∃ st', st.readLine (l.text ++ [10]) = .ok st' ∧ st'.Reps (T.line l l.entries.length) := by
  obtain ⟨hopen, hcur⟩ := openDay_reps h l.key
  have hread : st.readLine (l.text ++ [10]) =
      readEntries ((skipSpace (entriesText l.entries ++ [10])).length + 1) true
        (st.openDay l.type l.day) (skipSpace (entriesText l.entries ++ [10])) := by
    rw [← readLine_header st l, RateLine.text]
    simp only [List.cons_append, List.append_assoc]
  obtain ⟨old, vs, v, htail, hput⟩ := hopen.put hcur
  obtain ⟨st', vs', v', hst', htail', hrates, hvs'⟩ :=
    readEntries_line l.entries htail true (length_entries_lt l.entries)
  refine ⟨st', hread.trans hst', ?_⟩
  rw [Tariffs.line, List.take_length]
  exact hput st' vs' v' _ htail' hrates hvs'

/-- **Of a line that is cut off** not all entries are entered, or it cannot be read. -/
theorem readLine_take {st : RatesState} {T : Tariffs} (h : st.Reps T) (l : RateLine) {n : ℕ}
    (hn : 3 ≤ n) (hle : n ≤ l.text.length) :
    (∃ f, st.readLine (l.text.take n) = .error f) ∨
    ∃ k < l.entries.length, ∃ st', st.readLine (l.text.take n) = .ok st' ∧ st'.Reps (T.line l k) := by
  obtain ⟨hopen, hcur⟩ := openDay_reps h l.key
  obtain ⟨n, rfl⟩ := Nat.exists_eq_add_of_le' hn
  rw [RateLine.text] at hle ⊢
  simp only [List.take_succ_cons]
  simp only [List.length_cons, List.length_append] at hle
  rcases Nat.lt_or_ge l.gap.text.length n with hgap | hgap
  · obtain ⟨m, rfl⟩ := Nat.exists_eq_add_of_lt hgap
    rw [Nat.add_assoc, List.take_length_add_append, List.take_succ_cons, readLine_header]
    obtain ⟨old, vs, v, htail, hput⟩ := hopen.put hcur
    rcases readEntries_take l.entries_ne (show m ≤ _ by omega) htail true _ with
      hfault | ⟨k, hk, st', vs', v', hst', htail', hrates, hvs'⟩
    · exact .inl hfault
    · exact .inr ⟨k, hk, st', hst', hput st' vs' v' _ htail' hrates hvs'⟩
  · -- there is no day
    rw [List.take_append_of_le_length hgap]
    refine .inl ⟨.exit, ?_⟩
    have htype := l.type.isLt
    have htype10 : l.type.val < 10 := by simp only [nrates] at htype; omega
    have hsub : 48 + l.type.val - 48 = l.type.val := Nat.add_sub_cancel_left ..
    rw [readLine, List.headD_cons, if_neg (by decide), readType]
    simp only [isdigit_digit htype10, and_self, if_true, digit_toNat htype10, hsub,
      if_neg (Nat.not_le_of_lt htype),
      skipSpace_blanks fun c hc => l.gap.isspace (List.mem_of_mem_take hc)]
    rfl

end RatesState

end Isdnd
end Isdn4bsd
