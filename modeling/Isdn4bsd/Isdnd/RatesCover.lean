import Mathlib.Algebra.BigOperators.Group.Finset.Piecewise
import Mathlib.Algebra.Order.BigOperators.Group.Finset
import Mathlib.Data.Finset.Card
import Isdn4bsd.Isdnd.RatesText

/-!
# The ISDN daemon: which minutes are covered

Entries that are overwritten are lost, and minutes they covered with them, unless others cover these too.

* `given`, `firstRate` : the entries of lines for a type and a day, and the rate they give for a minute.
* `Tariffs.Covers`, `Tariffs.total` : the minutes of the table, and how many each of its entries covers.
* `Gain` : **lines** that are entered never add more than their entries cover, and exactly as much only if
all of them are new and complete.

## Counting minutes

That a file which is not sound is read wrongly has to be shown for every way in which it may be unsound, and
for whatever comes before and behind the line at fault.  To follow one entry through all that would be
hopeless: it may be overwritten, found in another list, or overwritten there.

Instead the minutes are counted.  Each entry covers at least one minute.  A line adds to the table no more
minutes than its entries cover, since it has nothing else to enter, and fewer if one of its entries takes
the place of another one, or is never reached.  These numbers can be added up for a whole file.

* `weights` counts the minutes of each entry on its own, and `covered` is the set of them together.
* `Tariffs.total` is the sum over all types and days, and `RateLine.size` is that of one line.
* If a file gives no minute twice, both ways of counting agree for what is given (`card_covered_eq`).
* If every minute that is given is found, then what is covered is at least as much as what was given.

So a file that is read correctly has lost nothing, and `Gain` turns that into a statement about its lines:
there was no list for any of them, no two are for the same type and day, and each one was read to its end.

## The other direction

`Tariffs.list_wholeLines` is what a sound file comes to: each line begins a list of its own, and finds
its entries there.  The lookup in a list takes the first entry that covers the minute (`look_times`), and
that is what `firstRate` says of the file.
-/

set_option autoImplicit false

namespace Isdn4bsd
namespace Isdnd

/-! ## The entries that are given -/

/-- The number of minutes of a day. -/
def minutes : ℕ := 24 * 60

/-- The entries of these lines for a type and a day, one behind the other. -/
def given (ls : List RateLine) (κ : Key) : List Entry :=
  (ls.filter fun l => l.key = κ).flatMap fun l => l.entries.map fun x => x.2

/-- The rate of the first of the entries that covers a minute. -/
def firstRate (es : List Entry) (t : ℕ) : ℤ :=
  match es.find? fun e => e.Covers t with
  | some e => value e.rate
  | none => -1

theorem given_cons (l : RateLine) (ls : List RateLine) (κ : Key) :
    given (l :: ls) κ = (if l.key = κ then l.entries.map fun x => x.2 else []) ++ given ls κ := by
  rw [given, given, List.filter_cons]
  by_cases hκ : l.key = κ
  · rw [if_pos hκ, decide_eq_true hκ, if_pos rfl, List.flatMap_cons]
  · rw [if_neg hκ, decide_eq_false hκ, if_neg (by decide), List.nil_append]

/-- The rate of an entry that covers the minute is not `-1`. -/
theorem firstRate_ne {es : List Entry} {e : Entry} (he : e ∈ es) {t : ℕ} (ht : e.Covers t) :
    firstRate es t ≠ -1 := by
  rw [firstRate]
  cases hfind : es.find? fun e => e.Covers t with
  | none => exact absurd (decide_eq_true ht) (List.find?_eq_none.mp hfind e he)
  | some e' =>
    simp only
    omega

/-- **The lookup** in a list of complete entries. -/
theorem look_times (es : List Entry) (t : ℕ) :
    Tariffs.look t (es.map Entry.times) = .ok (firstRate es t) := by
  induction es with
  | nil => rfl
  | cons e es ih =>
    rw [List.map_cons, Tariffs.look, firstRate, List.find?_cons]
    simp only [Entry.times, written, RatesState.ok_bind]
    by_cases hs : e.startTime ≤ t
    · by_cases he : t < e.endTime
      · rw [if_pos hs, if_pos he, decide_eq_true ⟨hs, he⟩]
        rfl
      · rw [if_pos hs, if_neg he, decide_eq_false fun h : e.Covers t => he h.2]
        exact ih
    · rw [if_neg hs, decide_eq_false fun h : e.Covers t => hs h.1]
      exact ih

/-! ## Minutes -/

namespace Times

/-- The minutes of the day that an entry of the table covers. -/
def window (v : Times) : Finset ℕ :=
  match v.startTime, v.endTime with
  | some s, some e => (Finset.range minutes).filter fun t => s ≤ t ∧ t < e
  | _, _ => ∅

/-- How many these are. -/
def weight (v : Times) : ℕ := v.window.card

end Times

/-- How many minutes entries cover, each on its own. -/
def weights (vs : List Times) : ℕ := (vs.map Times.weight).sum

/-- The minutes that entries cover. -/
def covered (vs : List Times) : Finset ℕ := vs.foldr (fun v s => v.window ∪ s) ∅

theorem weights_append (vs vs' : List Times) : weights (vs ++ vs') = weights vs + weights vs' := by
  rw [weights, List.map_append, List.sum_append]
  rfl

theorem weights_cons (v : Times) (vs : List Times) : weights (v :: vs) = v.weight + weights vs := rfl

theorem mem_covered {vs : List Times} {t : ℕ} : t ∈ covered vs ↔ ∃ v ∈ vs, t ∈ v.window := by
  induction vs with
  | nil => simp [covered]
  | cons v vs ih =>
    rw [show covered (v :: vs) = v.window ∪ covered vs from rfl, Finset.mem_union, ih]
    simp

theorem card_covered_le (vs : List Times) : (covered vs).card ≤ weights vs := by
  induction vs with
  | nil => exact Nat.le_refl _
  | cons v vs ih => exact (Finset.card_union_le _ _).trans (Nat.add_le_add_left ih _)

theorem mem_window {e : Entry} {t : ℕ} : t ∈ e.times.window ↔ t < minutes ∧ e.Covers t := by
  rw [Times.window, Entry.times, Finset.mem_filter, Finset.mem_range]
  rfl

/-- An entry of a file covers at least one minute, the one it starts at. -/
theorem weight_pos (e : Entry) : 0 < e.times.weight := by
  refine Finset.card_pos.mpr ⟨e.startTime, mem_window.mpr ⟨?_, Nat.le_refl _, e.lt⟩⟩
  have hh := e.startHour.isLt
  have hm := e.startMin.isLt
  rw [minutes, Entry.startTime]
  omega

/-- Entries that never overlap cover as many minutes together as each on its own. -/
theorem card_covered_eq {es : List Entry}
    (h : es.Pairwise fun e e' => ∀ t < minutes, ¬ (e.Covers t ∧ e'.Covers t)) :
    (covered (es.map Entry.times)).card = weights (es.map Entry.times) := by
  induction es with
  | nil => rfl
  | cons e es ih =>
    obtain ⟨hfirst, hrest⟩ := List.pairwise_cons.mp h
    have hdisj : Disjoint e.times.window (covered (es.map Entry.times)) := by
      refine Finset.disjoint_left.mpr fun t ht hts => ?_
      obtain ⟨v, hv, htv⟩ := mem_covered.mp hts
      obtain ⟨e', he', rfl⟩ := List.mem_map.mp hv
      obtain ⟨hlt, hcov⟩ := mem_window.mp ht
      exact hfirst e' he' t hlt ⟨hcov, (mem_window.mp htv).2⟩
    rw [List.map_cons, weights_cons, ← ih hrest]
    exact Finset.card_union_of_disjoint hdisj

/-- If the lookup finds a rate, some entry covers the minute. -/
theorem covered_of_look {vs : List Times} {t : ℕ} (ht : t < minutes) {r : ℤ}
    (h : Tariffs.look t vs = .ok r) (hr : r ≠ -1) : t ∈ covered vs := by
  induction vs with
  | nil =>
    cases h
    exact absurd rfl hr
  | cons v vs ih =>
    have hrest : Tariffs.look t vs = .ok r → t ∈ covered (v :: vs) := fun h =>
      Finset.mem_union_right _ (ih h)
    rw [Tariffs.look] at h
    obtain ⟨s, hs, h⟩ := RatesState.bind_eq_ok h
    split_ifs at h with hst
    · obtain ⟨e, he, h⟩ := RatesState.bind_eq_ok h
      split_ifs at h with het
      · refine Finset.mem_union_left _ ?_
        have hvs : v.startTime = some s := by
          cases hv : v.startTime with
          | none =>
            rw [hv] at hs
            cases hs
          | some s' =>
            rw [hv] at hs
            cases hs
            rfl
        have hve : v.endTime = some e := by
          cases hv : v.endTime with
          | none =>
            rw [hv] at he
            cases he
          | some e' =>
            rw [hv] at he
            cases he
            rfl
        rw [Times.window, hvs, hve]
        exact Finset.mem_filter.mpr ⟨Finset.mem_range.mpr ht, hst, het⟩
      · exact hrest h
    · exact hrest h

/-- The entries of a line cover so many minutes, each on its own. -/
def RateLine.size (l : RateLine) : ℕ := weights (RatesState.entryTimes l.entries)

def sizes (ls : List RateLine) : ℕ := (ls.map RateLine.size).sum

theorem sizes_append (ls ls' : List RateLine) : sizes (ls ++ ls') = sizes ls + sizes ls' := by
  rw [sizes, List.map_append, List.sum_append]
  rfl

/-- The entries of all lines, for one type and day after the other. -/
theorem sum_given (ls : List RateLine) :
    ∑ κ : Key, weights ((given ls κ).map Entry.times) = sizes ls := by
  induction ls with
  | nil => exact Finset.sum_eq_zero fun _ _ => rfl
  | cons l ls ih =>
    have hsplit : ∀ κ : Key, weights ((given (l :: ls) κ).map Entry.times) =
        (if l.key = κ then l.size else 0) + weights ((given ls κ).map Entry.times) := by
      intro κ
      rw [given_cons, List.map_append, weights_append]
      by_cases hκ : l.key = κ
      · rw [if_pos hκ, if_pos hκ, List.map_map]
        rfl
      · rw [if_neg hκ, if_neg hκ]
        rfl
    rw [Finset.sum_congr rfl fun κ _ => hsplit κ, Finset.sum_add_distrib, ih,
      Finset.sum_ite_eq Finset.univ l.key fun _ => l.size, if_pos (Finset.mem_univ _)]
    rfl

/-! ## The table -/

namespace Tariffs

/-- How many minutes the entries of the table cover, each on its own. -/
def total (T : Tariffs) : ℕ := ∑ κ : Key, weights (T.list κ)

/-- Each entry covers a minute, and `rt` points to one. -/
structure Full (T : Tariffs) : Prop where
  pos : ∀ κ, ∀ v ∈ T.list κ, 0 < v.weight
  cur : ∀ κ, T.cur = some κ → T.list κ ≠ []

theorem full_empty : Tariffs.empty.Full := ⟨fun κ v hv => absurd hv (by simp [empty]), fun κ h => by cases h⟩

theorem total_empty : Tariffs.empty.total = 0 := Finset.sum_eq_zero fun _ _ => rfl

/-- One list is replaced. -/
theorem total_update (list : Key → List Times) (κ : Key) (vs : List Times) (cur cur' : Option Key) :
    total ⟨Function.update list κ vs, cur'⟩ + weights (list κ) = total ⟨list, cur⟩ + weights vs := by
  have hfun : (fun κ' => weights (Function.update list κ vs κ')) =
      Function.update (fun κ' => weights (list κ')) κ (weights vs) := by
    funext κ'
    exact Function.apply_update (fun _ => weights) list κ vs κ'
  have hsum := Finset.sum_update_of_mem (Finset.mem_univ κ) (fun κ' => weights (list κ')) (weights vs)
  have hsplit := Finset.sum_eq_add_sum_sdiff_singleton_of_mem (Finset.mem_univ κ) fun κ' => weights (list κ')
  rw [total, total]
  simp only
  rw [hfun, hsum, hsplit]
  omega

theorem entered_ne_nil {first : Bool} {l vs : List Times} (h : l ≠ [] ∨ vs ≠ []) :
    entered first l vs ≠ [] := by
  rw [entered]
  split_ifs with hvs hfirst
  · exact h.resolve_right (not_not_intro hvs)
  all_goals exact List.append_ne_nil_of_right_ne_nil _ hvs

theorem put_ne_nil {T : Tariffs} {κ : Key} (h : T.list κ ≠ []) (vs : List Times) :
    (T.put vs).list κ ≠ [] := by
  rw [put]
  cases T.cur with
  | none => exact h
  | some cur =>
    by_cases hκ : κ = cur
    · rw [hκ] at h ⊢
      simp only [Function.update_self]
      exact entered_ne_nil (.inl h)
    · simp only [Function.update_of_ne hκ]
      exact h

theorem openDay_ne_nil {T : Tariffs} {κ : Key} (h : T.list κ ≠ []) (κ' : Key) :
    (T.openDay κ').list κ ≠ [] := by
  rw [openDay]
  split_ifs with hκ'
  · have hne : κ ≠ κ' := fun heq => h (heq ▸ hκ')
    simp only [Function.update_of_ne hne]
    exact h
  · exact h

theorem openDay_self (T : Tariffs) (κ : Key) : (T.openDay κ).list κ ≠ [] := by
  rw [openDay]
  split_ifs with hκ
  · simp only [Function.update_self]
    exact List.cons_ne_nil _ _
  · exact hκ

/-- A new list has nothing in it that covers a minute. -/
theorem total_openDay (T : Tariffs) (κ : Key) : (T.openDay κ).total = T.total := by
  rw [openDay]
  split_ifs with hκ
  · have h := total_update T.list κ [.unset] T.cur (some κ)
    have hnil : weights ([] : List Times) = 0 := rfl
    have hunset : weights [Times.unset] = 0 := rfl
    rw [hκ, hnil, hunset, Nat.add_zero, Nat.add_zero] at h
    rw [h]
  · rfl

theorem weights_entered (first : Bool) (l vs : List Times) :
    weights (entered first l vs) ≤ weights l + weights vs := by
  rw [entered]
  split_ifs with hvs hfirst
  · exact Nat.le_add_right _ _
  · rw [weights_append]
    rcases List.eq_nil_or_concat' l with rfl | ⟨l', v, rfl⟩
    · exact Nat.le_refl _
    · rw [List.dropLast_concat, weights_append]
      omega
  · rw [weights_append]

theorem total_put_le (T : Tariffs) (vs : List Times) : (T.put vs).total ≤ T.total + weights vs := by
  rw [put]
  cases T.cur with
  | none => exact Nat.le_add_right _ _
  | some κ =>
    have h := total_update T.list κ (entered true (T.list κ) vs) T.cur (some κ)
    have hle := weights_entered true (T.list κ) vs
    simp only at h ⊢
    have htotal : total ⟨T.list, T.cur⟩ = T.total := rfl
    omega

end Tariffs

/-- All entries of a file cover a minute. -/
theorem pos_of_mem_entryTimes {es : List (Gap × Entry)} {v : Times}
    (h : v ∈ RatesState.entryTimes es) : 0 < v.weight := by
  obtain ⟨x, -, rfl⟩ := List.mem_map.mp h
  exact weight_pos x.2

theorem weights_take_lt {es : List (Gap × Entry)} {k : ℕ} (hk : k < es.length) :
    weights (RatesState.entryTimes (es.take k)) < weights (RatesState.entryTimes es) := by
  have hsplit : RatesState.entryTimes es =
      RatesState.entryTimes (es.take k) ++ RatesState.entryTimes (es.drop k) := by
    rw [RatesState.entryTimes, RatesState.entryTimes, RatesState.entryTimes, ← List.map_append,
      List.take_append_drop]
  obtain ⟨x, xs, hdrop⟩ := @List.exists_cons_of_length_pos _ (es.drop k)
    (by rw [List.length_drop]; omega)
  have hpos := weight_pos x.2
  rw [hsplit, weights_append, hdrop]
  rw [show RatesState.entryTimes (x :: xs) = x.2.times :: RatesState.entryTimes xs from rfl,
    weights_cons]
  omega

/-- **A whole line** that loses nothing begins a new list. -/
theorem Tariffs.put_tight {T : Tariffs} (hfull : T.Full) {κ : Key} {es : List (Gap × Entry)}
    (hes : es ≠ [])
    (h : T.total + weights (RatesState.entryTimes es) ≤
      ((T.openDay κ).put (RatesState.entryTimes es)).total) :
    T.list κ = [] ∧ ((T.openDay κ).put (RatesState.entryTimes es)).Full := by
  have hne : RatesState.entryTimes es ≠ [] := mt List.map_eq_nil_iff.mp hes
  have hpos : 0 < weights (RatesState.entryTimes es) := by
    obtain ⟨x, xs, rfl⟩ := List.exists_cons_of_ne_nil hes
    exact Nat.lt_of_lt_of_le (weight_pos x.2) (Nat.le_add_right _ _)
  by_cases hκ : T.list κ = []
  · refine ⟨hκ, ?_⟩
    rw [openDay, if_pos hκ, put]
    simp only [Function.update_self, Function.update_idem, entered, if_neg hne, if_true]
    refine ⟨fun κ' v hv => ?_, fun κ' hcur => ?_⟩
    · by_cases hκ' : κ' = κ
      · rw [hκ'] at hv
        simp only [Function.update_self] at hv
        exact pos_of_mem_entryTimes hv
      · simp only [Function.update_of_ne hκ'] at hv
        exact hfull.pos κ' v hv
    · cases hcur
      simp only [Function.update_self]
      exact hne
  · -- the last entry of a list is overwritten
    exfalso
    rw [openDay, if_neg hκ, put] at h
    cases hcur : T.cur with
    | none =>
      rw [hcur] at h
      simp only at h
      omega
    | some cur =>
      rw [hcur] at h
      simp only at h
      obtain ⟨l, v, hl⟩ := (List.eq_nil_or_concat' (T.list cur)).resolve_left (hfull.cur cur hcur)
      have hv := hfull.pos cur v (by rw [hl]; exact List.mem_append_right _ (List.mem_singleton_self v))
      have hupdate := total_update T.list cur (entered true (T.list cur) (RatesState.entryTimes es))
        T.cur (some cur)
      have htotal : total ⟨T.list, T.cur⟩ = T.total := rfl
      rw [entered, if_neg hne, if_pos rfl, hl, List.dropLast_concat, weights_append, weights_append,
        weights_cons, htotal] at hupdate
      rw [entered, if_neg hne, if_pos rfl, hl, List.dropLast_concat] at h
      omega

namespace Tariffs

/-- Whole lines are entered. -/
def wholeLines (T : Tariffs) (ls : List RateLine) : Tariffs :=
  ls.foldl (fun T l => T.line l l.entries.length) T

/-- **A line for a new list** is found there, and nothing else changes. -/
theorem list_line_new {T : Tariffs} {l : RateLine} (hnew : T.list l.key = []) (κ : Key) :
    (T.line l l.entries.length).list κ =
      if l.key = κ then RatesState.entryTimes l.entries else T.list κ := by
  have hne : RatesState.entryTimes l.entries ≠ [] := mt List.map_eq_nil_iff.mp l.entries_ne
  rw [line, List.take_length, openDay, if_pos hnew, put]
  simp only [Function.update_self, Function.update_idem, entered, if_neg hne, if_true]
  by_cases hκ : l.key = κ
  · rw [if_pos hκ, hκ, Function.update_self]
    rfl
  · rw [if_neg hκ, Function.update_of_ne (Ne.symm hκ)]

/-- If no type and day is given twice, the table is what the lines give. -/
theorem list_wholeLines {ls : List RateLine} (hnodup : (ls.map RateLine.key).Nodup) {T : Tariffs}
    (hnew : ∀ l ∈ ls, T.list l.key = []) (κ : Key) :
    (T.wholeLines ls).list κ = T.list κ ++ (given ls κ).map Entry.times := by
  induction ls generalizing T with
  | nil => exact (List.append_nil _).symm
  | cons l ls ih =>
    rw [List.map_cons, List.nodup_cons] at hnodup
    have hl := hnew l List.mem_cons_self
    have hrest : ∀ l' ∈ ls, (T.line l l.entries.length).list l'.key = [] := by
      intro l' hl'
      have hne : l.key ≠ l'.key := fun heq => hnodup.1 (heq ▸ List.mem_map_of_mem hl')
      rw [list_line_new hl, if_neg hne]
      exact hnew l' (List.mem_cons_of_mem l hl')
    rw [wholeLines, List.foldl_cons]
    refine (ih hnodup.2 hrest).trans ?_
    rw [list_line_new hl, given_cons, List.map_append, ← List.append_assoc]
    by_cases hκ : l.key = κ
    · rw [if_pos hκ, if_pos hκ, ← hκ, hl, List.nil_append, List.map_map]
      rfl
    · rw [if_neg hκ, if_neg hκ, List.map_nil, List.append_nil]

end Tariffs

/-! ## What is entered -/

/-- The lines that were entered cover no more minutes than their entries.  If it is as many, then there was
no list for any of them, no two are for the same type and day, and they are sound. -/
structure Gain (T : Tariffs) (ls : List RateLine) (sound : Prop) (T' : Tariffs) : Prop where
  le : T'.total ≤ T.total + sizes ls
  mono : ∀ κ, T.list κ ≠ [] → T'.list κ ≠ []
  opened : ∀ l ∈ ls, T'.list l.key ≠ []
  tight : T.Full → T.total + sizes ls ≤ T'.total →
    T'.Full ∧ sound ∧ (ls.map RateLine.key).Nodup ∧ ∀ l ∈ ls, T.list l.key = []

namespace Gain

theorem nil (T : Tariffs) : Gain T [] True T where
  le := Nat.le_add_right _ _
  mono _ h := h
  opened _ h := absurd h (by simp)
  tight hfull _ := ⟨hfull, trivial, List.nodup_nil, fun _ h => absurd h (by simp)⟩

theorem imp {T T' : Tariffs} {ls : List RateLine} {sound sound' : Prop} (h : Gain T ls sound T')
    (himp : sound → sound') : Gain T ls sound' T' where
  le := h.le
  mono := h.mono
  opened := h.opened
  tight hfull htotal := by
    obtain ⟨hfull', hsound, hrest⟩ := h.tight hfull htotal
    exact ⟨hfull', himp hsound, hrest⟩

/-- One after the other. -/
theorem append {T T₁ T₂ : Tariffs} {ls ls' : List RateLine} {sound sound' : Prop}
    (h : Gain T ls sound T₁) (h' : Gain T₁ ls' sound' T₂) :
    Gain T (ls ++ ls') (sound ∧ sound') T₂ where
  le := by
    have hle := h.le
    have hle' := h'.le
    rw [sizes_append]
    omega
  mono κ hκ := h'.mono κ (h.mono κ hκ)
  opened l hl := by
    rcases List.mem_append.mp hl with hl | hl
    · exact h'.mono _ (h.opened l hl)
    · exact h'.opened l hl
  tight hfull htotal := by
    have hle := h.le
    have hle' := h'.le
    rw [sizes_append] at htotal
    obtain ⟨hfull₁, hsound, hnodup, hnew⟩ := h.tight hfull (by omega)
    obtain ⟨hfull₂, hsound', hnodup', hnew'⟩ := h'.tight hfull₁ (by omega)
    refine ⟨hfull₂, ⟨hsound, hsound'⟩, ?_, fun l hl => ?_⟩
    · rw [List.map_append]
      refine List.nodup_append.mpr ⟨hnodup, hnodup', fun κ hκ κ' hκ' heq => ?_⟩
      obtain ⟨l, hl, rfl⟩ := List.mem_map.mp hκ
      obtain ⟨l', hl', rfl⟩ := List.mem_map.mp hκ'
      exact h.opened l hl (heq ▸ hnew' l' hl')
    · rcases List.mem_append.mp hl with hl | hl
      · exact hnew l hl
      · exact not_not.mp fun hne => h.mono _ hne (hnew' l hl)

/-- **One line.** -/
theorem line (T : Tariffs) (l : RateLine) {k : ℕ} (hk : k ≤ l.entries.length) {sound : Prop}
    (hsound : k = l.entries.length → sound) : Gain T [l] sound (T.line l k) where
  le := by
    have hput := Tariffs.total_put_le (T.openDay l.key) (RatesState.entryTimes (l.entries.take k))
    rw [Tariffs.total_openDay] at hput
    have hsize : sizes [l] = weights (RatesState.entryTimes l.entries) := Nat.add_zero _
    rcases Nat.eq_or_lt_of_le hk with rfl | hlt
    · rw [List.take_length] at hput
      rw [hsize, Tariffs.line, List.take_length]
      exact hput
    · have hlt := weights_take_lt hlt
      rw [hsize, Tariffs.line]
      omega
  mono κ hκ := Tariffs.put_ne_nil (Tariffs.openDay_ne_nil hκ l.key) _
  opened l' hl' := by
    rw [List.mem_singleton.mp hl']
    exact Tariffs.put_ne_nil (Tariffs.openDay_self T l.key) _
  tight hfull htotal := by
    have hsize : sizes [l] = weights (RatesState.entryTimes l.entries) := Nat.add_zero _
    have hput := Tariffs.total_put_le (T.openDay l.key) (RatesState.entryTimes (l.entries.take k))
    rw [Tariffs.total_openDay] at hput
    rw [hsize] at htotal
    rcases Nat.eq_or_lt_of_le hk with rfl | hlt
    · rw [Tariffs.line, List.take_length] at htotal ⊢
      obtain ⟨hnew, hfull'⟩ := Tariffs.put_tight hfull l.entries_ne htotal
      refine ⟨hfull', hsound rfl, List.nodup_singleton _, fun l' hl' => ?_⟩
      rw [List.mem_singleton.mp hl']
      exact hnew
    · have hless := weights_take_lt hlt
      rw [Tariffs.line] at htotal
      omega

end Gain

end Isdnd
end Isdn4bsd
