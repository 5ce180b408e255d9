import Isdn4bsd.L3.Types
import Isdn4bsd.Lib.Chain

/-!
# The ISDN daemon: reading the rates file

The file is read line by line into a table of lists, one for each type of rate and each day of the week.
The pointer `rt` to the entry that is filled in outlives its line.  A line gets a new entry for it only if
the list of its type and day is empty.

* `readLine`, `readrates`, `getrate` : what the source does, over memory with allocated entries.
* `Tariffs` : the table as lists, and the list that `rt` is in.
* `Reps` : what is in memory is this table.
* `openDay_reps`, `Reps.put`, `getrate_reps` : **the lines** and the lookup, on the table.

## Memory

The entries are allocated one after the other and never freed, so memory is a list that grows at its
end, and a pointer is an index.  An entry has a pointer to the next one, and times that may not have been
written yet.  To write where there is no entry, or to read beyond the end of a buffer, is a fault, and so
is what makes the daemon exit; after a fault nothing is said any more.

A line of the file is not a line of the buffer: `fgets` reads as much as there is room for, and a line that
is longer than that is read in pieces, each of which is taken for a line (`buffers`).

## Two readings of `rt`

When a line begins, its list is either empty, and gets a new entry that `rt` points to, or it is not, and
`rt` stays where it was: at the last entry of the line before.  The first entry of the line is then written
over that one, and the others behind it, into a list that may be for another type and another day.

The table of lists has this in `Tariffs.put`: entries go to the list that was begun last, and the first of
them takes the place of the last entry there.  `Tail` is the reason why this is all: the entry that `rt`
points to is the last one that was allocated, and no list but one has it.

What a file with its lines and comments should mean, and when it does, is in the modules that follow.
-/

set_option autoImplicit false

namespace Isdn4bsd
namespace Isdnd

open L3 (Str)
open Chains

/-! ## Memory -/

/-- `NRATES`. -/
def nrates : ℕ := 4

/-- `NDAYS`. -/
def ndays : ℕ := 7

/-- `MAXPATHLEN`, the size of the buffer for a line. -/
def maxpathlen : ℕ := 1024

/-- Why nothing can be said any more, or that the daemon has ended. -/
inductive RatesFault where
  | outOfLine
  | nullDeref
  | unset
  | overflow
  | endless
  | exit
  deriving DecidableEq, Repr

/-- The times and the rate of `struct rates`, as far as they were written. -/
@[ext] structure Times where
  startTime : Option ℕ
  endTime : Option ℕ
  rate : Option ℕ
  deriving DecidableEq, Repr

/-- What `malloc` returns. -/
def Times.unset : Times := ⟨none, none, none⟩

structure RatesState where
  nodes : List (Node Times)
  rates : ℕ → ℕ → Option ℕ
  rt : Option ℕ
  gotRate : Bool

/-- Before the file is read. -/
def RatesState.start : RatesState := ⟨[], fun _ _ => none, none, false⟩

/-- What was written. -/
def written : Option ℕ → Except RatesFault ℕ
  | none => .error .unset
  | some n => .ok n

namespace RatesState

/-- Something of `*rt` is written. -/
def writeRt (st : RatesState) (f : Times → Times) : Except RatesFault RatesState :=
  match st.rt with
  | none => .error .nullDeref
  | some a =>
    match st.nodes[a]? with
    | none => .error .nullDeref
    | some n => .ok { st with nodes := st.nodes.set a { n with val := f n.val } }

/-- A new entry behind `*rt`, and `rt` is moved to it. -/
def nextRates (st : RatesState) : Except RatesFault RatesState :=
  match st.rt with
  | none => .error .nullDeref
  | some ort =>
    match st.nodes[ort]? with
    | none => .error .nullDeref
    | some n => .ok { st with
        nodes := st.nodes.set ort { n with next := some st.nodes.length } ++ [⟨.unset, none⟩]
        rt := some st.nodes.length }

/-- A new entry for the type and the day, if there is none. -/
def openDay (st : RatesState) (rateindx indx : ℕ) : RatesState :=
  if st.rates rateindx indx = none then
    { st with
      nodes := st.nodes ++ [⟨.unset, none⟩]
      rates := fun i j => if i = rateindx ∧ j = indx then some st.nodes.length else st.rates i j
      rt := some st.nodes.length }
  else st

end RatesState

/-! ## Characters -/

def isdigit (c : UInt8) : Bool := decide (48 ≤ c.toNat ∧ c.toNat ≤ 57)

def isspace (c : UInt8) : Bool := decide (c.toNat = 32 ∨ 9 ≤ c.toNat ∧ c.toNat ≤ 13)

/-- `atoi`, from a digit on. -/
def atoi (bp : Str) : Except RatesFault ℕ :=
  let v := (bp.takeWhile isdigit).foldl (fun v c => 10 * v + (c.toNat - 48)) 0
  if v < 2 ^ 31 then .ok v else .error .overflow

/-- Two digits. -/
def number (bp : Str) : Except RatesFault (ℕ × Str) :=
  match bp with
  | a :: b :: rest =>
    if isdigit a && isdigit b then (atoi bp).map fun v => (v, rest) else .error .exit
  | _ => .error .exit

/-- One character. -/
def expect (c : UInt8) : Str → Except RatesFault Str
  | [] => .error .exit
  | a :: rest => if a = c then .ok rest else .error .exit

/-- `while(isspace(*bp)) bp++`; the end of the line is not a space. -/
def skipSpace (bp : Str) : Str := bp.dropWhile isspace

/-- `while(!isspace(*bp)) bp++`; nor does this one end at the end of the line. -/
def skipRate : Str → Except RatesFault Str
  | [] => .error .outOfLine
  | c :: cs => if isspace c then .ok (c :: cs) else skipRate cs

/-- The rate, and what follows it. -/
def rateOf (bp : Str) : Except RatesFault (ℕ × Str) :=
  match bp with
  | [] => .error .exit
  | c :: _ =>
    if isdigit c then do
      let rate ← atoi bp
      let bp ← skipRate bp
      return (rate, bp)
    else .error .exit

/-! ## A line -/

namespace RatesState

/-- The end of a section has to be greater than its start. -/
def checkTimes (startTime endTime : ℕ) : Except RatesFault Unit :=
  if endTime ≤ startTime then .error .exit else .ok ()

/-- One entry. -/
def readEntry (st : RatesState) (bp : Str) : Except RatesFault (RatesState × Str) := do
  let (hour, bp) ← number bp
  let bp ← expect 46 bp
  let (min, bp) ← number bp
  let startTime := hour * 60 + min
  let st ← st.writeRt fun r => { r with startTime := some startTime }
  let bp ← expect 45 bp
  let (hour, bp) ← number bp
  let bp ← expect 46 bp
  let (min, bp) ← number bp
  -- if hour is 0 assume it means midnight
  let hour := if hour = 0 then 24 else hour
  let endTime := hour * 60 + min
  let st ← st.writeRt fun r => { r with endTime := some endTime }
  checkTimes startTime endTime
  let bp ← expect 58 bp
  let (rate, bp) ← rateOf bp
  let st ← st.writeRt fun r => { r with rate := some rate }
  return (st, skipSpace bp)

/-- The first entry of a line is written to where `rt` points to. -/
def entryFor (st : RatesState) (first : Bool) : Except RatesFault RatesState :=
  if first then .ok st else st.nextRates

/-- The entries of a line.  Each of them is longer than the bound is lowered by. -/
def readEntries : ℕ → Bool → RatesState → Str → Except RatesFault RatesState
  | 0, _, _, _ => .error .endless
  | _ + 1, _, st, [] => .ok st
  | fuel + 1, first, st, c :: cs =>
    if isdigit c then do
      let st ← st.entryFor first
      let (st, bp) ← st.readEntry (c :: cs)
      readEntries fuel false st bp
    else .ok st

/-- The day, and the entries. -/
def readDay (st : RatesState) (rateindx : ℕ) : Str → Except RatesFault RatesState
  | [] => .error .exit
  | d :: bp =>
    if isdigit d && decide (d.toNat ≤ 54) then
      let bp := skipSpace bp
      readEntries (bp.length + 1) true (st.openDay rateindx (d.toNat - 48)) bp
    else .error .exit

/-- The type is not valid: three characters are logged. -/
def invalidType (buffer : Str) : Except RatesFault RatesState :=
  if buffer.length < 2 then .error .outOfLine else .error .exit

/-- A line that is not a comment. -/
def readType (st : RatesState) (buffer : Str) : Except RatesFault RatesState :=
  match buffer with
  | r :: a :: d :: bp =>
    if r = 114 ∧ a = 97 ∧ isdigit d then
      let rateindx := d.toNat - 48
      if rateindx ≥ nrates then .error .exit else st.readDay rateindx (skipSpace bp)
    else invalidType buffer
  | _ => invalidType buffer

/-- `#`, a blank, a tabulator, or a new line. -/
def isComment (c : UInt8) : Bool := decide (c = 35 ∨ c = 32 ∨ c = 9 ∨ c = 10)

/-- What is done with a buffer that was read. -/
def readLine (st : RatesState) (buffer : Str) : Except RatesFault RatesState :=
  if isComment (buffer.headD 0) then .ok st else st.readType buffer

end RatesState

/-! ## The file -/

/-- What `fgets` reads, again and again: up to the end of the line, as far as there is room. -/
def buffers (acc : Str) : Str → List Str
  | [] => if acc = [] then [] else [acc]
  | c :: cs =>
    if c = 10 ∨ acc.length + 2 ≥ maxpathlen then (acc ++ [c]) :: buffers [] cs
    else buffers (acc ++ [c]) cs

/-- All buffers, each up to its end. -/
def RatesState.readBuffers (st : RatesState) (bs : List Str) : Except RatesFault RatesState :=
  bs.foldlM (fun st b => st.readLine (b.takeWhile (· ≠ 0))) st

/-- `readrates`, for a file that can be opened. -/
def readrates (file : Str) : Except RatesFault RatesState := do
  let st ← RatesState.start.readBuffers (buffers [] file)
  return { st with gotRate := true }

namespace RatesState

/-- The loop of `getrate`. -/
def scan (st : RatesState) (timeNow : ℕ) : ℕ → Option ℕ → Except RatesFault ℤ
  | 0, _ => .error .endless
  | _ + 1, none => .ok (-1)
  | fuel + 1, some hd =>
    match st.nodes[hd]? with
    | none => .error .nullDeref
    | some n => do
      let startTime ← written n.val.startTime
      if startTime ≤ timeNow then do
        let endTime ← written n.val.endTime
        if timeNow < endTime then do
          let rate ← written n.val.rate
          return (rate : ℤ)
        else st.scan timeNow fuel n.next
      else st.scan timeNow fuel n.next

/-- `getrate`, on a weekday at a time; `INVALID_RATE` is `-1`. -/
def getrate (st : RatesState) (rateType : ℤ) (wday timeNow : ℕ) : Except RatesFault ℤ :=
  if st.gotRate = false ∨ rateType ≥ nrates ∨ rateType = -1 then .ok (-1)
  else st.scan timeNow (st.nodes.length + 1) (st.rates rateType.toNat wday)

end RatesState

/-! ## The table -/

/-- A type of rate and a day. -/
abbrev Key := Fin nrates × Fin ndays

/-- All lists, and the one that `rt` is in. -/
structure Tariffs where
  list : Key → List Times
  cur : Option Key

namespace Tariffs

def empty : Tariffs := ⟨fun _ => [], none⟩

/-- A line for this type and day begins. -/
def openDay (T : Tariffs) (κ : Key) : Tariffs :=
  if T.list κ = [] then ⟨Function.update T.list κ [.unset], some κ⟩ else T

/-- Entries at the end of a list.  The first entry of a line takes the place of the one that is last. -/
def entered (first : Bool) (l vs : List Times) : List Times :=
  if vs = [] then l else (if first then l.dropLast else l) ++ vs

/-- The entries of a line are entered into the list that `rt` is in. -/
def put (T : Tariffs) (vs : List Times) : Tariffs :=
  match T.cur with
  | none => T
  | some κ => { T with list := Function.update T.list κ (entered true (T.list κ) vs) }

/-- The loop of `getrate`, on a list. -/
def look (timeNow : ℕ) : List Times → Except RatesFault ℤ
  | [] => .ok (-1)
  | v :: vs => do
    let startTime ← written v.startTime
    if startTime ≤ timeNow then do
      let endTime ← written v.endTime
      if timeNow < endTime then do
        let rate ← written v.rate
        return (rate : ℤ)
      else look timeNow vs
    else look timeNow vs

/-- All but the first entry go behind. -/
theorem entered_cons (first : Bool) (l : List Times) (v : Times) (vs : List Times) :
    entered first l (v :: vs) = entered false (entered first l [v]) vs := by
  cases vs with
  | nil => rfl
  | cons u vs => simp [entered]

end Tariffs

namespace RatesState

/-- The last entry that was allocated is the one that `rt` points to; those of its list are behind the
nodes of all other lists. -/
structure Tail (st : RatesState) (old : List (Node Times)) (vs : List Times) (v : Times) : Prop where
  nodes : st.nodes = old ++ linked old.length vs ++ [⟨v, none⟩]
  rt : st.rt = some (old.length + vs.length)

/-- What is in memory is the table. -/
def Reps (st : RatesState) (T : Tariffs) : Prop :=
  match T.cur with
  | none => st.nodes = [] ∧ (∀ i j, st.rates i j = none) ∧ ∀ κ, T.list κ = []
  | some cur => ∃ old vs v, st.Tail old vs v ∧ st.rates cur.1 cur.2 = some old.length ∧
      T.list cur = vs ++ [v] ∧ ∀ κ ≠ cur, Chain old (st.rates κ.1 κ.2) (T.list κ)

theorem start_reps : start.Reps .empty := ⟨rfl, fun _ _ => rfl, fun _ => rfl⟩

theorem length_tail (old : List (Node Times)) (vs : List Times) :
    (old ++ linked old.length vs).length = old.length + vs.length := by
  rw [List.length_append, length_linked]

/-- The entry that `rt` points to. -/
theorem Tail.getElem {st : RatesState} {old : List (Node Times)} {vs : List Times} {v : Times}
    (h : st.Tail old vs v) : st.nodes[old.length + vs.length]? = some ⟨v, none⟩ := by
  rw [h.nodes, ← length_tail, List.getElem?_concat_length]

/-- It is overwritten. -/
theorem Tail.set {st : RatesState} {old : List (Node Times)} {vs : List Times} {v : Times}
    (h : st.Tail old vs v) (n : Node Times) :
    st.nodes.set (old.length + vs.length) n = old ++ linked old.length vs ++ [n] := by
  rw [h.nodes, ← length_tail, List.set_append_right _ _ (Nat.le_refl _), Nat.sub_self]
  rfl

theorem writeRt_tail {st : RatesState} {old : List (Node Times)} {vs : List Times} {v : Times}
    (h : st.Tail old vs v) (f : Times → Times) :
    ∃ st', st.writeRt f = .ok st' ∧ st'.Tail old vs (f v) ∧ st'.rates = st.rates := by
  refine ⟨{ st with nodes := old ++ linked old.length vs ++ [⟨f v, none⟩] }, ?_, ⟨rfl, h.rt⟩, rfl⟩
  rw [writeRt, h.rt]
  simp only [h.getElem, h.set]

theorem nextRates_tail {st : RatesState} {old : List (Node Times)} {vs : List Times} {v : Times}
    (h : st.Tail old vs v) :
    ∃ st', st.nextRates = .ok st' ∧ st'.Tail old (vs ++ [v]) .unset ∧ st'.rates = st.rates := by
  have hlen : st.nodes.length = old.length + vs.length + 1 := by
    rw [h.nodes, List.length_append, length_tail, List.length_singleton]
  refine ⟨{ st with
      nodes := old ++ linked old.length (vs ++ [v]) ++ [⟨.unset, none⟩]
      rt := some (old.length + vs.length + 1) }, ?_, ⟨rfl, ?_⟩, rfl⟩
  · rw [nextRates, h.rt]
    simp only [h.getElem, h.set, hlen, linked_concat, List.append_assoc]
  · rw [List.length_append, List.length_singleton, Nat.add_assoc]

/-- The list of each type and day is found from the table on. -/
theorem Reps.chain {st : RatesState} {T : Tariffs} (h : st.Reps T) (κ : Key) :
    Chain st.nodes (st.rates κ.1 κ.2) (T.list κ) := by
  rw [Reps] at h
  cases hT : T.cur with
  | none =>
    rw [hT] at h
    obtain ⟨-, hrates, hlist⟩ := h
    rw [hrates, hlist]
    rfl
  | some cur =>
    rw [hT] at h
    obtain ⟨old, vs, v, htail, hcur, hlist, hothers⟩ := h
    rw [htail.nodes]
    by_cases hκ : κ = cur
    · rw [hκ, hcur, hlist]
      exact chain_linked old vs v
    · rw [List.append_assoc]
      exact (hothers κ hκ).append _

/-- There is no list where the table has no pointer. -/
theorem Reps.none_iff {st : RatesState} {T : Tariffs} (h : st.Reps T) (κ : Key) :
    st.rates κ.1 κ.2 = none ↔ T.list κ = [] := by
  have hchain := h.chain κ
  cases hvs : T.list κ with
  | nil =>
    rw [hvs] at hchain
    exact ⟨fun _ => rfl, fun _ => hchain⟩
  | cons v vs =>
    rw [hvs] at hchain
    obtain ⟨i, next, hi, -⟩ := hchain
    rw [hi]
    exact ⟨fun hnone => absurd hnone (by simp), fun hnil => absurd hnil (by simp)⟩

/-- **A line begins.** -/
theorem openDay_reps {st : RatesState} {T : Tariffs} (h : st.Reps T) (κ : Key) :
    (st.openDay κ.1 κ.2).Reps (T.openDay κ) ∧ (T.openDay κ).cur ≠ none := by
  rw [openDay, Tariffs.openDay]
  by_cases hnone : st.rates κ.1 κ.2 = none
  · rw [if_pos hnone, if_pos ((h.none_iff κ).mp hnone)]
    refine ⟨⟨st.nodes, [], .unset, ⟨?_, rfl⟩, ?_, ?_, fun κ' hne => ?_⟩, by simp⟩
    · rw [linked, List.append_nil]
    · simp
    · exact Function.update_self ..
    · have hkey : ¬ ((κ'.1 : ℕ) = κ.1 ∧ (κ'.2 : ℕ) = κ.2) := fun heq =>
        hne (Prod.ext (Fin.ext heq.1) (Fin.ext heq.2))
      simp only [if_neg hkey, Function.update_of_ne hne]
      exact h.chain κ'
  · have hlist := mt (h.none_iff κ).mpr hnone
    rw [if_neg hnone, if_neg hlist]
    refine ⟨h, fun hcur => hlist ?_⟩
    rw [Reps, hcur] at h
    exact h.2.2 κ

/-- **The entries of a line** are entered where `rt` points to. -/
theorem Reps.put {st : RatesState} {T : Tariffs} (h : st.Reps T) (hT : T.cur ≠ none) :
    ∃ old vs v, st.Tail old vs v ∧ ∀ (st' : RatesState) (vs' : List Times) (v' : Times)
      (entries : List Times), st'.Tail old vs' v' → st'.rates = st.rates →
      vs' ++ [v'] = Tariffs.entered true (vs ++ [v]) entries → st'.Reps (T.put entries) := by
  obtain ⟨cur, hcur⟩ := Option.ne_none_iff_exists'.mp hT
  rw [Reps, hcur] at h
  obtain ⟨old, vs, v, htail, hkey, hlist, hothers⟩ := h
  refine ⟨old, vs, v, htail, fun st' vs' v' entries htail' hrates hvs' => ?_⟩
  rw [Tariffs.put, hcur]
  refine ⟨old, vs', v', htail', ?_, ?_, fun κ hne => ?_⟩
  · rw [hrates, hkey]
  · simp only [Function.update_self]
    rw [hlist, hvs']
  · simp only [Function.update_of_ne hne]
    rw [hrates]
    exact hothers κ hne

/-- The loop of `getrate` goes along the list. -/
theorem scan_chain (st : RatesState) (timeNow : ℕ) {fuel : ℕ} {a : Option ℕ} {vs : List Times}
    (h : Chain st.nodes a vs) (hfuel : vs.length < fuel) :
    st.scan timeNow fuel a = Tariffs.look timeNow vs := by
  induction vs generalizing fuel a with
  | nil =>
    cases fuel with
    | zero => exact absurd hfuel (Nat.not_lt_zero _)
    | succ fuel =>
      cases h
      rfl
  | cons v vs ih =>
    cases fuel with
    | zero => exact absurd hfuel (Nat.not_lt_zero _)
    | succ fuel =>
      obtain ⟨i, next, rfl, hnode, -, hrest⟩ := h
      have hnext := ih hrest (Nat.lt_of_succ_lt_succ hfuel)
      rw [scan, Tariffs.look]
      simp only [hnode, hnext]

/-- **The lookup** is made in the list of the type and the day. -/
theorem getrate_reps {st : RatesState} {T : Tariffs} (h : st.Reps T) (hgot : st.gotRate = true) (κ : Key)
    (timeNow : ℕ) : st.getrate κ.1.val κ.2 timeNow = Tariffs.look timeNow (T.list κ) := by
  have hrange : ¬ (st.gotRate = false ∨ (κ.1.val : ℤ) ≥ nrates ∨ (κ.1.val : ℤ) = -1) := by
    have hlt := κ.1.isLt
    rw [hgot]
    simp only [Bool.true_eq_false, false_or]
    omega
  have hlen : (T.list κ).length < st.nodes.length + 1 := by
    have hchain := h.chain κ
    cases hkey : st.rates κ.1 κ.2 with
    | none => simp [(h.none_iff κ).mp hkey]
    | some i =>
      rw [hkey] at hchain
      have hle := hchain.length_le
      omega
  rw [getrate, if_neg hrange, Int.toNat_natCast]
  exact scan_chain st timeNow (h.chain κ) hlen

end RatesState

end Isdnd
end Isdn4bsd
