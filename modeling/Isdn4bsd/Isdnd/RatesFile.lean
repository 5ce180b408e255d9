import Isdn4bsd.Isdnd.RatesCover

/-!
# The ISDN daemon: the rates of a file

* `RatesFile` : a file of comments and rates, whose last line may have no end.
* `RatesFile.Correct` : `readrates` stays within the lines, and `getrate` returns the rate of the first
entry for a minute.
* `RatesFile.Sound` : no type and day is given twice, each line fits, the last one ends.
* `readBuffers_line` : **any line**; if it is cut off or has no end, it is not entered completely.
* `readrates_correct` : **the rates of a file** are found if it is sound, and, if no minute is given twice,
only then.

## Which files

A line of a file is a comment or gives rates, for one of the four types and one day, each entry behind some
blanks, and nothing behind the last one.  Lines may be of any length, and there may be any number of them.
What the parser refuses with a message and an exit is not in here: that is what it was written for.

A comment may have anything in it as long as it fits into the buffer.  A longer one would be read in pieces
that need not be comments.

## What can go wrong

* A second line for a type and a day is written over the line before it.
* A line that does not fit into the buffer ends in the middle of an entry, or between two of them.  The
parser looks for a space behind an entry, which is not there, and goes on beyond the buffer's text.
* The same happens at the end of a file without a new line, since that is the space behind the last entry.

In the last two cases there may be a fault, or the part that was cut off is missing, or it is
taken for something else.  `readBuffers_line` says what they have in common: not all of the entries are
entered.  That is all that has to be known, as minutes are counted afterwards.

Two lines may give the same minute.  Then the first one counts, and what is lost may not be missed; this is
where the condition is enough and need not be necessary.
-/

set_option autoImplicit false

namespace Isdn4bsd
namespace Isdnd

open L3 (Str)
open Chains

/-! ## Files -/

/-- A line that is skipped.  It fits into the buffer. -/
structure Comment where
  text : Str
  noNewline : ∀ c ∈ text, c ≠ 10
  start : ∀ c ∈ text.head?, RatesState.isComment c = true
  fits : text.length + 2 ≤ maxpathlen

inductive Line where
  | comment (c : Comment)
  | rates (l : RateLine)

namespace Line

def text : Line → Str
  | .comment c => c.text
  | .rates l => l.text

def rateLines : Line → List RateLine
  | .comment _ => []
  | .rates l => [l]

end Line

/-- The last line may have no new line at its end. -/
structure RatesFile where
  lines : List Line
  last : Option Line

namespace RatesFile

def text (f : RatesFile) : Str :=
  (f.lines.flatMap fun l => l.text ++ [10]) ++ (f.last.elim [] Line.text)

def rateLines (f : RatesFile) : List RateLine :=
  f.lines.flatMap Line.rateLines ++ f.last.elim [] Line.rateLines

/-- The file is read, and for each type, on each weekday and at each time its rate is found. -/
def Correct (f : RatesFile) : Prop :=
  ∃ st, readrates f.text = .ok st ∧ ∀ κ : Key, ∀ t < minutes,
    st.getrate κ.1.val κ.2 t = .ok (firstRate (given f.rateLines κ) t)

/-- No type and day is given twice, each line fits into the buffer, and the last line has an end. -/
structure Sound (f : RatesFile) : Prop where
  noRepeat : (f.rateLines.map RateLine.key).Nodup
  fits : ∀ l ∈ f.rateLines, l.text.length + 2 ≤ maxpathlen
  ended : f.last.elim [] Line.rateLines = []

/-- No minute is covered by two entries for the same type and day. -/
def Once (f : RatesFile) : Prop :=
  ∀ κ, (given f.rateLines κ).Pairwise fun e e' => ∀ t < minutes, ¬ (e.Covers t ∧ e'.Covers t)

end RatesFile

/-! ## The buffers -/

/-- A line that fits is one buffer. -/
theorem buffers_line {t : Str} (ht : ∀ c ∈ t, c ≠ 10) (rest : Str) {acc : Str}
    (hfit : acc.length + t.length + 2 ≤ maxpathlen) :
    buffers acc (t ++ 10 :: rest) = (acc ++ t ++ [10]) :: buffers [] rest := by
  induction t generalizing acc with
  | nil => rw [List.nil_append, buffers, if_pos (.inl rfl), List.append_nil]
  | cons c t ih =>
    rw [List.length_cons] at hfit
    have hc : ¬ (c = 10 ∨ acc.length + 2 ≥ maxpathlen) := by
      rintro (hc | hc)
      · exact ht c List.mem_cons_self hc
      · omega
    have hih := @ih (fun d hd => ht d (List.mem_cons_of_mem c hd)) (acc ++ [c])
      (by rw [List.length_append, List.length_singleton]; omega)
    rw [List.cons_append, buffers, if_neg hc, hih, ← List.append_cons]

/-- So is one at the end of the file. -/
theorem buffers_end {t : Str} (ht : ∀ c ∈ t, c ≠ 10) {acc : Str} (hne : acc ++ t ≠ [])
    (hfit : acc.length + t.length + 1 ≤ maxpathlen) : buffers acc t = [acc ++ t] := by
  induction t generalizing acc with
  | nil =>
    rw [List.append_nil] at hne ⊢
    exact if_neg hne
  | cons c t ih =>
    rw [List.length_cons] at hfit
    rw [buffers]
    by_cases hc : c = 10 ∨ acc.length + 2 ≥ maxpathlen
    · -- there is no more room, but nothing follows
      obtain rfl : t = [] := by
        rcases hc with hc | hc
        · exact absurd hc (ht c List.mem_cons_self)
        · exact List.length_eq_zero_iff.mp (by omega)
      rw [if_pos hc]
      rfl
    · have hih := @ih (fun d hd => ht d (List.mem_cons_of_mem c hd)) (acc ++ [c]) (by simp)
        (by rw [List.length_append, List.length_singleton]; omega)
      rw [if_neg hc, hih, ← List.append_cons]

/-- A line that does not fit is cut off. -/
theorem buffers_cut {t : Str} (ht : ∀ c ∈ t, c ≠ 10) (rest : Str) {acc : Str} {n : ℕ} (hn : 0 < n)
    (hlen : acc.length + n + 1 = maxpathlen) (hle : n ≤ t.length) :
    buffers acc (t ++ rest) = (acc ++ t.take n) :: buffers [] (t.drop n ++ rest) := by
  induction t generalizing acc n with
  | nil => exact absurd (Nat.lt_of_lt_of_le hn hle) (Nat.lt_irrefl _)
  | cons c t ih =>
    obtain ⟨n, rfl⟩ := Nat.exists_eq_add_of_le' hn
    rw [List.cons_append, buffers, List.take_succ_cons, List.drop_succ_cons]
    rcases Nat.eq_zero_or_pos n with rfl | hpos
    · rw [if_pos (.inr (by omega))]
      rfl
    · have hc : ¬ (c = 10 ∨ acc.length + 2 ≥ maxpathlen) := by
        rintro (hc | hc)
        · exact ht c List.mem_cons_self hc
        · omega
      have hih := @ih (fun d hd => ht d (List.mem_cons_of_mem c hd)) (acc ++ [c]) n hpos
        (by rw [List.length_append, List.length_singleton]; omega)
        (Nat.le_of_succ_le_succ hle)
      rw [if_neg hc, hih, ← List.append_cons]

/-- How a line ends, and what follows it. -/
def Ends (tail rest : Str) : Prop := tail = 10 :: rest ∨ tail = [] ∧ rest = []

/-- What has no `r` in it has none in any of its buffers. -/
theorem buffers_harmless {t tail rest : Str} (hend : Ends tail rest) (ht : ∀ c ∈ t, c ≠ 114) {acc : Str}
    (hacc : ∀ c ∈ acc, c ≠ 114) :
    ∃ bs, buffers acc (t ++ tail) = bs ++ buffers [] rest ∧ ∀ b ∈ bs, ∀ c ∈ b, c ≠ 114 := by
  induction t generalizing acc with
  | nil =>
    rcases hend with rfl | ⟨rfl, rfl⟩
    · refine ⟨[acc ++ [10]], ?_, fun b hb c hc => ?_⟩
      · rw [List.nil_append, buffers, if_pos (.inl rfl)]
        rfl
      · rw [List.mem_singleton.mp hb, List.mem_append, List.mem_singleton] at hc
        rcases hc with hc | rfl
        · exact hacc c hc
        · decide
    · refine ⟨buffers acc [], by simp [buffers], fun b hb => ?_⟩
      rw [buffers] at hb
      split_ifs at hb
      · cases hb
      · rw [List.mem_singleton.mp hb]
        exact hacc
  | cons c t ih =>
    have hrest : ∀ d ∈ t, d ≠ 114 := fun d hd => ht d (List.mem_cons_of_mem c hd)
    have hnext : ∀ d ∈ acc ++ [c], d ≠ 114 := by
      intro d hd
      rw [List.mem_append, List.mem_singleton] at hd
      rcases hd with hd | rfl
      · exact hacc d hd
      · exact ht d List.mem_cons_self
    rw [List.cons_append, buffers]
    split_ifs with hc
    · obtain ⟨bs, hbs, hall⟩ := @ih hrest [] (fun d hd => absurd hd (by simp))
      refine ⟨(acc ++ [c]) :: bs, by rw [hbs, List.cons_append], fun b hb => ?_⟩
      rcases List.mem_cons.mp hb with rfl | hb
      · exact hnext
      · exact hall b hb
    · exact ih hrest hnext

/-! ## What is read of a line -/

namespace RatesState

/-- What does not begin with an `r` is skipped, or nothing more is read. -/
theorem readLine_harmless (st : RatesState) {b : Str} (h : ∀ c ∈ b, c ≠ 114) :
    (∃ f, st.readLine b = .error f) ∨ st.readLine b = .ok st := by
  rw [readLine]
  split_ifs with hcomment
  · exact .inr rfl
  · have hinvalid : ∃ f, invalidType b = .error f := by
      rw [invalidType]
      split_ifs
      · exact ⟨_, rfl⟩
      · exact ⟨_, rfl⟩
    rcases b with _ | ⟨r, _ | ⟨a, _ | ⟨d, bp⟩⟩⟩
    · exact .inl hinvalid
    · exact .inl hinvalid
    · exact .inl hinvalid
    · rw [readType, if_neg fun hc => h r List.mem_cons_self hc.1]
      exact .inl hinvalid

theorem readBuffers_cons (st : RatesState) (b : Str) (bs : List Str) :
    st.readBuffers (b :: bs) =
      (st.readLine (b.takeWhile (· ≠ 0)) >>= fun st => st.readBuffers bs) := List.foldlM_cons ..

theorem readBuffers_append (st : RatesState) (bs bs' : List Str) :
    st.readBuffers (bs ++ bs') = (st.readBuffers bs >>= fun st => st.readBuffers bs') :=
  List.foldlM_append ..

theorem readBuffers_harmless (st : RatesState) {bs : List Str} (h : ∀ b ∈ bs, ∀ c ∈ b, c ≠ 114) :
    (∃ f, st.readBuffers bs = .error f) ∨ st.readBuffers bs = .ok st := by
  induction bs with
  | nil => exact .inr rfl
  | cons b bs ih =>
    rw [readBuffers_cons]
    rcases st.readLine_harmless fun c hc =>
        h b List.mem_cons_self c ((List.takeWhile_subset _) hc) with ⟨f, hf⟩ | hok
    · exact .inl ⟨f, by rw [hf]; rfl⟩
    · rw [hok, ok_bind]
      exact ih fun b' hb' => h b' (List.mem_cons_of_mem b hb')

/-- Characters behind the type: no end of a buffer or line, and no `r`. -/
def Plain (c : UInt8) : Prop := c ≠ 0 ∧ c ≠ 10 ∧ c ≠ 114

theorem plain_digit {n : ℕ} (h : n < 10) : Plain (digit n) := by
  have hd := digit_toNat h
  refine ⟨fun hc => ?_, fun hc => ?_, fun hc => ?_⟩
  all_goals rw [hc] at hd
  all_goals simp at hd
  all_goals omega

theorem plain_gap (g : Gap) : ∀ c ∈ g.text, Plain c := by
  intro c hc
  rcases g.blank c hc with rfl | rfl
  · exact ⟨by decide, by decide, by decide⟩
  · exact ⟨by decide, by decide, by decide⟩

theorem plain_body (e : Entry) : ∀ c ∈ e.body, Plain c := by
  have hsh := e.startHour.isLt
  have hsm := e.startMin.isLt
  have heh := e.endHour.isLt
  have hem := e.endMin.isLt
  intro c hc
  simp only [Entry.body, List.mem_cons] at hc
  rcases hc with rfl | rfl | rfl | rfl | rfl | rfl | rfl | rfl | rfl | rfl | rfl | rfl | hc
  any_goals exact plain_digit (by omega)
  · exact ⟨by decide, by decide, by decide⟩
  · exact ⟨by decide, by decide, by decide⟩
  · exact ⟨by decide, by decide, by decide⟩
  · exact ⟨by decide, by decide, by decide⟩
  · obtain ⟨d, -, rfl⟩ := List.mem_map.mp hc
    exact plain_digit d.isLt

theorem plain_entriesText (es : List (Gap × Entry)) : ∀ c ∈ entriesText es, Plain c := by
  intro c hc
  obtain ⟨x, -, hx⟩ := List.mem_flatMap.mp hc
  rcases List.mem_append.mp hx with hx | hx
  · exact plain_gap x.1 c hx
  · exact plain_body x.2 c hx

/-- The text of a line, behind `ra`. -/
theorem plain_text (l : RateLine) : ∃ rest, l.text = 114 :: 97 :: rest ∧ ∀ c ∈ rest, Plain c := by
  have htype := l.type.isLt
  have hday := l.day.isLt
  simp only [nrates, ndays] at htype hday
  refine ⟨_, rfl, fun c hc => ?_⟩
  rw [List.mem_cons, List.mem_append, List.mem_cons] at hc
  rcases hc with rfl | hc | rfl | hc
  · exact plain_digit (by omega)
  · exact plain_gap l.gap c hc
  · exact plain_digit (by omega)
  · exact plain_entriesText l.entries c hc

theorem text_no_newline (l : RateLine) : ∀ c ∈ l.text, c ≠ 10 := by
  obtain ⟨rest, htext, hrest⟩ := plain_text l
  intro c hc
  rw [htext, List.mem_cons, List.mem_cons] at hc
  rcases hc with rfl | rfl | hc
  · decide
  · decide
  · exact (hrest c hc).2.1

/-- The end of the buffer is where its text ends. -/
theorem takeWhile_text (l : RateLine) {b : Str} (hb : ∀ c ∈ b, c ∈ l.text ∨ c = 10) :
    b.takeWhile (· ≠ 0) = b := by
  obtain ⟨rest, htext, hrest⟩ := plain_text l
  refine List.takeWhile_eq_self_iff.mpr fun c hc => decide_eq_true ?_
  rcases hb c hc with hc | rfl
  · rw [htext, List.mem_cons, List.mem_cons] at hc
    rcases hc with rfl | rfl | hc
    · decide
    · decide
    · exact (hrest c hc).1
  · decide

/-- A comment is skipped. -/
theorem readBuffers_comment (st : RatesState) (c : Comment) {tail rest : Str} (hend : Ends tail rest) :
    ∃ bs, buffers [] (c.text ++ tail) = bs ++ buffers [] rest ∧ st.readBuffers bs = .ok st := by
  have hskip : ∀ b : Str, (∀ x ∈ b.head?, isComment x = true) → b ≠ [] →
      st.readBuffers [b] = .ok st := by
    intro b hb hne
    obtain ⟨x, xs, rfl⟩ := List.exists_cons_of_ne_nil hne
    have hx : isComment x = true := hb x rfl
    have hzero : decide (x ≠ 0) = true := by
      refine decide_eq_true fun hx0 => ?_
      rw [hx0] at hx
      exact absurd hx (by decide)
    rw [readBuffers_cons, List.takeWhile_cons, hzero]
    simp only [if_true]
    rw [readLine, List.headD_cons, hx]
    rfl
  rcases hend with rfl | ⟨rfl, rfl⟩
  · refine ⟨[c.text ++ [10]], ?_, hskip _ ?_ (by simp)⟩
    · exact buffers_line c.noNewline rest (by simpa using c.fits)
    · intro x hx
      cases htext : c.text with
      | nil =>
        rw [htext] at hx
        cases hx
        decide
      | cons y ys =>
        rw [htext] at hx
        cases hx
        exact c.start x (by rw [htext]; rfl)
  · by_cases hne : c.text = []
    · exact ⟨[], by rw [hne]; rfl, rfl⟩
    · refine ⟨[c.text], ?_, hskip _ c.start hne⟩
      rw [List.append_nil]
      have hfits := c.fits
      exact buffers_end c.noNewline (by simpa using hne) (by rw [List.length_nil]; omega)

/-- **A line that fits** is entered. -/
theorem readBuffers_fits {st : RatesState} {T : Tariffs} (h : st.Reps T) {l : RateLine}
    (hfit : l.text.length + 2 ≤ maxpathlen) (rest : Str) :
    ∃ bs, buffers [] (l.text ++ 10 :: rest) = bs ++ buffers [] rest ∧
      ∃ st', st.readBuffers bs = .ok st' ∧ st'.Reps (T.line l l.entries.length) := by
  obtain ⟨st', hst', h'⟩ := readLine_line h l
  refine ⟨[l.text ++ [10]], buffers_line (text_no_newline l) rest (by simpa using hfit), st', ?_, h'⟩
  rw [readBuffers_cons, takeWhile_text l, hst']
  · rfl
  · intro c hc
    rwa [List.mem_append, List.mem_singleton] at hc

/-- **Any line**: if it does not fit or has no end, then not all of its entries are entered. -/
theorem readBuffers_line {st : RatesState} {T : Tariffs} (h : st.Reps T) (l : RateLine)
    {tail rest : Str} (hend : Ends tail rest) :
    ∃ bs, buffers [] (l.text ++ tail) = bs ++ buffers [] rest ∧
      ((∃ f, st.readBuffers bs = .error f) ∨
        ∃ k ≤ l.entries.length, (k = l.entries.length → l.text.length + 2 ≤ maxpathlen ∧ tail ≠ []) ∧
          ∃ st', st.readBuffers bs = .ok st' ∧ st'.Reps (T.line l k)) := by
  obtain ⟨rest', htext, hrest'⟩ := plain_text l
  have hne : l.text ≠ [] := by
    rw [htext]
    exact List.cons_ne_nil _ _
  have h3 : 3 ≤ l.text.length := by
    rw [RateLine.text]
    simp only [List.length_cons]
    omega
  -- what is read of a beginning of it, and of other buffers that are harmless
  have hcut : ∀ n, 3 ≤ n → n ≤ l.text.length → ∀ bs : List Str, (∀ b ∈ bs, ∀ c ∈ b, c ≠ 114) →
      (∃ f, st.readBuffers (l.text.take n :: bs) = .error f) ∨
        ∃ k < l.entries.length, ∃ st', st.readBuffers (l.text.take n :: bs) = .ok st' ∧
          st'.Reps (T.line l k) := by
    intro n hn hle bs hbs
    rw [readBuffers_cons, takeWhile_text l fun c hc => .inl (List.mem_of_mem_take hc)]
    rcases readLine_take h l hn hle with ⟨f, hf⟩ | ⟨k, hk, st', hst', h'⟩
    · exact .inl ⟨f, by rw [hf]; rfl⟩
    · rw [hst', ok_bind]
      rcases st'.readBuffers_harmless hbs with hfault | hok
      · exact .inl hfault
      · exact .inr ⟨k, hk, st', hok, h'⟩
  by_cases hlong : maxpathlen ≤ l.text.length + 1
  · have hdrop : ∀ c ∈ l.text.drop (maxpathlen - 1), c ≠ 114 := by
      intro c hc
      rw [htext] at hc
      exact (hrest' c (@List.mem_of_mem_drop _ _ (maxpathlen - 3) _ hc)).2.2
    obtain ⟨bs, hbs, hall⟩ := buffers_harmless hend hdrop fun c (hc : c ∈ []) => absurd hc (by simp)
    refine ⟨l.text.take (maxpathlen - 1) :: bs, ?_, ?_⟩
    · have hlen : ([] : Str).length + (maxpathlen - 1) + 1 = maxpathlen := by decide
      rw [buffers_cut (text_no_newline l) tail (by decide) hlen (by omega), hbs,
        List.nil_append, List.cons_append]
    · rcases hcut (maxpathlen - 1) (by decide) (by omega) bs hall with hfault | ⟨k, hk, hst'⟩
      · exact .inl hfault
      · exact .inr ⟨k, Nat.le_of_lt hk, fun heq => absurd heq (Nat.ne_of_lt hk), hst'⟩
  · rcases hend with rfl | ⟨rfl, rfl⟩
    · obtain ⟨bs, hbs, hst'⟩ := readBuffers_fits h (show l.text.length + 2 ≤ maxpathlen by omega) rest
      exact ⟨bs, hbs, .inr ⟨_, Nat.le_refl _, fun _ => ⟨by omega, List.cons_ne_nil _ _⟩, hst'⟩⟩
    · refine ⟨[l.text], ?_, ?_⟩
      · rw [List.append_nil]
        exact buffers_end (text_no_newline l) hne (by rw [List.length_nil]; omega)
      · have hwhole := hcut _ h3 (Nat.le_refl _) [] fun b hb => absurd hb (by simp)
        rw [List.take_length] at hwhole
        rcases hwhole with hfault | ⟨k, hk, hst'⟩
        · exact .inl hfault
        · exact .inr ⟨k, Nat.le_of_lt hk, fun heq => absurd heq (Nat.ne_of_lt hk), hst'⟩

/-! ## The whole file -/

/-- Any line, or a comment, and what is gained by it. -/
theorem readBuffers_gain {st : RatesState} {T : Tariffs} (h : st.Reps T) (l : Line) {tail rest : Str}
    (hend : Ends tail rest) :
    ∃ bs, buffers [] (l.text ++ tail) = bs ++ buffers [] rest ∧
      ((∃ f, st.readBuffers bs = .error f) ∨ ∃ st' T', st.readBuffers bs = .ok st' ∧ st'.Reps T' ∧
        Gain T l.rateLines (∀ x ∈ l.rateLines, x.text.length + 2 ≤ maxpathlen ∧ tail ≠ []) T') := by
  cases l with
  | comment c =>
    obtain ⟨bs, hbs, hst⟩ := readBuffers_comment st c hend
    exact ⟨bs, hbs, .inr ⟨st, T, hst, h, (Gain.nil T).imp fun _ x hx => absurd hx (by simp [Line.rateLines])⟩⟩
  | rates l =>
    obtain ⟨bs, hbs, hst⟩ := readBuffers_line h l hend
    refine ⟨bs, hbs, hst.imp_right ?_⟩
    rintro ⟨k, hk, hsound, st', hst', h'⟩
    refine ⟨st', T.line l k, hst', h', Gain.line T l hk fun heq x hx => ?_⟩
    rw [List.mem_singleton.mp hx]
    exact hsound heq

/-- All lines but the last. -/
theorem readLines_gain (lines : List Line) {st : RatesState} {T : Tariffs} (h : st.Reps T) (more : Str) :
    ∃ bs, buffers [] ((lines.flatMap fun l => l.text ++ [10]) ++ more) = bs ++ buffers [] more ∧
      ((∃ f, st.readBuffers bs = .error f) ∨ ∃ st' T', st.readBuffers bs = .ok st' ∧ st'.Reps T' ∧
        Gain T (lines.flatMap Line.rateLines)
          (∀ x ∈ lines.flatMap Line.rateLines, x.text.length + 2 ≤ maxpathlen) T') := by
  induction lines generalizing st T with
  | nil => exact ⟨[], rfl, .inr ⟨st, T, rfl, h, (Gain.nil T).imp fun _ x hx => absurd hx (by simp)⟩⟩
  | cons l lines ih =>
    obtain ⟨bs, hbs, hline⟩ := @readBuffers_gain st T h l
      (10 :: ((lines.flatMap fun l => l.text ++ [10]) ++ more)) _ (.inl rfl)
    have htext : ((l :: lines).flatMap fun l => l.text ++ [10]) ++ more =
        l.text ++ 10 :: ((lines.flatMap fun l => l.text ++ [10]) ++ more) := by
      simp only [List.flatMap_cons, List.append_assoc, List.cons_append, List.nil_append]
    rw [htext, hbs]
    rcases hline with ⟨f, hf⟩ | ⟨st₁, T₁, hst₁, h₁, hgain⟩
    · obtain ⟨bs', hbs', -⟩ := ih h
      exact ⟨bs ++ bs', by rw [hbs', List.append_assoc],
        .inl ⟨f, by rw [readBuffers_append, hf]; rfl⟩⟩
    · obtain ⟨bs', hbs', hlines⟩ := ih h₁
      refine ⟨bs ++ bs', by rw [hbs', List.append_assoc], ?_⟩
      rw [readBuffers_append, hst₁, ok_bind]
      refine hlines.imp_right ?_
      rintro ⟨st', T', hst', h', hgain'⟩
      refine ⟨st', T', hst', h', (hgain.append hgain').imp ?_⟩
      rintro ⟨hl, hls⟩ x hx
      rcases List.mem_append.mp hx with hx | hx
      · exact (hl x hx).1
      · exact hls x hx

/-- **Of any file** no more minutes are entered than its entries cover, and as many only if it is sound. -/
theorem readFile_gain (f : RatesFile) {st : RatesState} (h : start.readBuffers (buffers [] f.text) = .ok st) :
    ∃ T, st.Reps T ∧ Gain .empty f.rateLines
      ((∀ x ∈ f.rateLines, x.text.length + 2 ≤ maxpathlen) ∧ f.last.elim [] Line.rateLines = []) T := by
  obtain ⟨bs, hbs, hlines⟩ := readLines_gain f.lines start_reps (f.last.elim [] Line.text)
  rw [RatesFile.text, hbs, readBuffers_append] at h
  rcases hlines with ⟨e, he⟩ | ⟨st₁, T₁, hst₁, h₁, hgain⟩
  · rw [he] at h
    cases h
  · rw [hst₁, ok_bind] at h
    cases hlast : f.last with
    | none =>
      rw [hlast] at h
      cases h
      refine ⟨T₁, h₁, ?_⟩
      rw [RatesFile.rateLines, hlast, Option.elim_none, List.append_nil]
      exact hgain.imp fun hfits => ⟨hfits, rfl⟩
    | some l =>
      obtain ⟨bs', hbs', hline⟩ := @readBuffers_gain st₁ T₁ h₁ l [] [] (.inr ⟨rfl, rfl⟩)
      rw [List.append_nil] at hbs'
      rw [hlast, Option.elim_some, hbs', show buffers [] [] = [] from rfl, List.append_nil] at h
      rcases hline with ⟨e, he⟩ | ⟨st', T', hst', h', hgain'⟩
      · rw [he] at h
        cases h
      · rw [hst'] at h
        cases h
        refine ⟨T', h', ?_⟩
        rw [RatesFile.rateLines, hlast, Option.elim_some]
        refine (hgain.append hgain').imp ?_
        rintro ⟨hfits, hended⟩
        have hnil : l.rateLines = [] :=
          List.eq_nil_iff_forall_not_mem.mpr fun x hx => (hended x hx).2 rfl
        rw [hnil, List.append_nil]
        exact ⟨hfits, rfl⟩

/-- **All lines of a file that is sound** are entered. -/
theorem readLines_sound (lines : List Line) {st : RatesState} {T : Tariffs} (h : st.Reps T)
    (hfits : ∀ x ∈ lines.flatMap Line.rateLines, x.text.length + 2 ≤ maxpathlen) (more : Str) :
    ∃ bs st', buffers [] ((lines.flatMap fun l => l.text ++ [10]) ++ more) = bs ++ buffers [] more ∧
      st.readBuffers bs = .ok st' ∧ st'.Reps (T.wholeLines (lines.flatMap Line.rateLines)) := by
  induction lines generalizing st T with
  | nil => exact ⟨[], st, rfl, rfl, h⟩
  | cons l lines ih =>
    have htext : ((l :: lines).flatMap fun l => l.text ++ [10]) ++ more =
        l.text ++ 10 :: ((lines.flatMap fun l => l.text ++ [10]) ++ more) := by
      simp only [List.flatMap_cons, List.append_assoc, List.cons_append, List.nil_append]
    have hrest : ∀ x ∈ lines.flatMap Line.rateLines, x.text.length + 2 ≤ maxpathlen := fun x hx =>
      hfits x (List.mem_append_right _ hx)
    obtain ⟨bs, hbs, st₁, hst₁, h₁⟩ : ∃ bs, buffers [] (l.text ++
        10 :: ((lines.flatMap fun l => l.text ++ [10]) ++ more)) =
          bs ++ buffers [] ((lines.flatMap fun l => l.text ++ [10]) ++ more) ∧
        ∃ st₁, st.readBuffers bs = .ok st₁ ∧ st₁.Reps (T.wholeLines l.rateLines) := by
      cases l with
      | comment c =>
        obtain ⟨bs, hbs, hst⟩ := readBuffers_comment st c (.inl rfl)
        exact ⟨bs, hbs, st, hst, h⟩
      | rates l => exact readBuffers_fits h (hfits l (List.mem_append_left _ (List.mem_singleton_self l))) _
    obtain ⟨bs', st', hbs', hst', h'⟩ := ih h₁ hrest
    refine ⟨bs ++ bs', st', by rw [htext, hbs, hbs', List.append_assoc], ?_, ?_⟩
    · rw [readBuffers_append, hst₁, ok_bind]
      exact hst'
    · rw [Tariffs.wholeLines, List.flatMap_cons, List.foldl_append]
      exact h'

/-- The flag is not part of the table. -/
theorem Reps.gotRate {st : RatesState} {T : Tariffs} (h : st.Reps T) (b : Bool) :
    ({ st with gotRate := b } : RatesState).Reps T := by
  rw [Reps] at h ⊢
  cases hT : T.cur with
  | none =>
    rw [hT] at h
    exact h
  | some cur =>
    rw [hT] at h
    obtain ⟨old, vs, v, htail, hrest⟩ := h
    exact ⟨old, vs, v, ⟨htail.nodes, htail.rt⟩, hrest⟩

end RatesState

namespace RatesFile

/-- **A file that is sound**: `getrate` finds what is given. -/
theorem correct_of_sound {f : RatesFile} (h : f.Sound) : f.Correct := by
  have hlines : f.lines.flatMap Line.rateLines = f.rateLines := by
    rw [rateLines, h.ended, List.append_nil]
  obtain ⟨bs, st, hbs, hst, hreps⟩ := RatesState.readLines_sound f.lines RatesState.start_reps
    (hlines ▸ h.fits) (f.last.elim [] Line.text)
  rw [hlines] at hreps
  have hlast : st.readBuffers (buffers [] (f.last.elim [] Line.text)) = .ok st := by
    have hended := h.ended
    cases hlast : f.last with
    | none => rfl
    | some l =>
      rw [hlast] at hended
      cases l with
      | comment c =>
        obtain ⟨bs', hbs', hst'⟩ := RatesState.readBuffers_comment st c (.inr ⟨rfl, rfl⟩)
        rw [List.append_nil, show buffers [] [] = [] from rfl, List.append_nil] at hbs'
        rw [Option.elim_some, Line.text, hbs']
        exact hst'
      | rates l => exact absurd hended (by simp [Line.rateLines])
  have hread : readrates f.text = .ok { st with gotRate := true } := by
    rw [readrates, text, hbs, RatesState.readBuffers_append, hst, RatesState.ok_bind, hlast]
    rfl
  refine ⟨_, hread, fun κ t _ => ?_⟩
  rw [RatesState.getrate_reps (hreps.gotRate true) rfl κ t,
    Tariffs.list_wholeLines h.noRepeat fun _ _ => rfl]
  exact look_times _ t

/-- **A file that gives no minute twice** has to be sound. -/
theorem sound_of_correct {f : RatesFile} (honce : f.Once) (h : f.Correct) : f.Sound := by
  obtain ⟨st', hread, hrates⟩ := h
  obtain ⟨st, hst, hgot⟩ := RatesState.bind_eq_ok hread
  cases hgot
  obtain ⟨T, hreps, hgain⟩ := RatesState.readFile_gain f hst
  -- each minute that is given is covered by the table
  have hcovered : ∀ κ, covered ((given f.rateLines κ).map Entry.times) ⊆ covered (T.list κ) := by
    intro κ t ht
    obtain ⟨v, hv, htv⟩ := mem_covered.mp ht
    obtain ⟨e, he, rfl⟩ := List.mem_map.mp hv
    obtain ⟨hlt, hcov⟩ := mem_window.mp htv
    have hlook := hrates κ t hlt
    rw [RatesState.getrate_reps (hreps.gotRate true) rfl κ t] at hlook
    exact covered_of_look hlt hlook (firstRate_ne he hcov)
  have hweights : ∀ κ : Key, weights ((given f.rateLines κ).map Entry.times) ≤ weights (T.list κ) := by
    intro κ
    rw [← card_covered_eq (honce κ)]
    exact (Finset.card_le_card (hcovered κ)).trans (card_covered_le _)
  have htotal : Tariffs.empty.total + sizes f.rateLines ≤ T.total := by
    rw [Tariffs.total_empty, Nat.zero_add, ← sum_given]
    exact Finset.sum_le_sum fun κ _ => hweights κ
  obtain ⟨-, ⟨hfits, hended⟩, hnodup, -⟩ := hgain.tight Tariffs.full_empty htotal
  exact ⟨hnodup, hfits, hended⟩

end RatesFile

/-- **The rates of a file**: those of a file that is sound are found.  If the file gives no minute twice, they
are found only if it is. -/
theorem readrates_correct (f : RatesFile) :
    (f.Sound → f.Correct) ∧ (f.Once → (f.Correct ↔ f.Sound)) :=
  ⟨RatesFile.correct_of_sound,
    fun honce => ⟨RatesFile.sound_of_correct honce, RatesFile.correct_of_sound⟩⟩

/-- A blank. -/
def blank : Gap := ⟨[32], List.cons_ne_nil _ _, fun _ hc => .inl (List.mem_singleton.mp hc)⟩

/-- `ra0 D aa.00-bb.00:90`. -/
def sectionLine (day : Fin 7) (a : Fin 24) (b : Fin 25)
    (h : a.val * 60 + (0 : Fin 60).val < (if b.val = 0 then 24 else b.val) * 60 + (0 : Fin 60).val) :
    RateLine where
  type := (0 : Fin 4)
  gap := blank
  day := day
  entries := [(blank, ⟨a, 0, b, 0, [9, 0], by decide, by decide, h⟩)]
  entries_ne := List.cons_ne_nil _ _

/-- From eight to eighteen. -/
def dayLine (day : Fin 7) : RateLine := sectionLine day 8 18 (Nat.lt_of_sub_pos (Nat.succ_pos 599))

/-- `#`. -/
def emptyComment : Comment where
  text := [35]
  noNewline := List.forall_mem_singleton.mpr (by decide)
  start := fun c hc => by
    obtain rfl := Option.mem_some.mp hc
    rfl
  fits := by decide

/-- Monday and Tuesday, with a comment before them. -/
def mondayTuesday : RatesFile where
  lines := [.comment emptyComment, .rates (dayLine 1), .rates (dayLine 2)]
  last := none

/-- The rates of both days are found. -/
theorem mondayTuesday_correct : mondayTuesday.Sound ∧ mondayTuesday.Correct := by
  have hsound : mondayTuesday.Sound := ⟨by decide, by decide, rfl⟩
  exact ⟨hsound, (readrates_correct mondayTuesday).1 hsound⟩

/-- Monday, Tuesday, and Monday again.  The second line for the Monday takes the place of the rates of the
Tuesday. -/
def mondayTwice : RatesFile where
  lines := [.rates (sectionLine 1 8 18 (by decide)), .rates (sectionLine 2 8 18 (by decide)),
    .rates (sectionLine 1 18 22 (by decide))]
  last := none

/-- A line without an end. -/
def noNewline : RatesFile := ⟨[], some (.rates (sectionLine 1 8 18 (by decide)))⟩

/-- Tuesday at noon there is no rate; and a line without an end is not read within its bounds. -/
theorem mondayTwice_wrong : ¬ mondayTwice.Correct ∧ ¬ noNewline.Correct := by
  refine ⟨fun ⟨st, hst, hrates⟩ => ?_, fun ⟨st, hst, _⟩ => ?_⟩
  · have hnoon : (readrates mondayTwice.text >>= fun st => st.getrate 0 2 720) = .ok (-1) := by
      decide
    have hgiven : firstRate (given mondayTwice.rateLines ((0 : Fin 4), (2 : Fin 7))) 720 = 90 := by decide
    rw [hst, RatesState.ok_bind] at hnoon
    have hcorrect := hrates ((0 : Fin 4), (2 : Fin 7)) 720 (by decide)
    rw [hgiven] at hcorrect
    exact absurd (hnoon.symm.trans hcorrect) (by simp)
  · have hfault : (readrates noNewline.text).toBool = false := by decide
    rw [hst] at hfault
    cases hfault

end Isdnd
end Isdn4bsd
