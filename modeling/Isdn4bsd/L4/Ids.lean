import Isdn4bsd.L3.Refine
import Isdn4bsd.L3.References
import Isdn4bsd.L4.Isolation

/-!
# The ids of call descriptors

An id is made of the unit of its controller and of a call reference, which `get_cdid` takes from a
counter that wraps around.  The search goes past the end of the range once: what it has not seen
before that it sees afterwards.

* `World.Issued`: the ids in use are those of their controllers, and different.
* `getCdidLoop_search`: the search ends, and finds a reference that is not in use if there is one.
* `issued_ids`: **ids are different at all times, `get_cdid` fails only when all of them are in use,
  and an id survives its way through CAPI.**

## The search

`get_cdid` is a loop made of `goto`s.  It counts up `N_cdid_count`, tests whether the number is taken, and at the
end of the range starts over from the bottom, unless it has done so before.  There is no other limit, so
that it ends is part of what is to be shown: it does after no more than twice as many rounds as there are
numbers.  `Finds` is what a search among the references after the given one may find, and it is proved for the
second time through the range first (`getCdidLoop_second`), then for the first (`getCdidLoop_first`), which
leads to the second.

The counter is kept from call to call, so an id that was just given back is not given again at once, as long as
there are others: the other end may still have messages for the call that had it.

## All controllers

`I4B_MAX_CONTROLLERS` controllers have one range each, and the unit in the id keeps them apart.  Ids go to
CAPI with the unit in other bits; `capiId2Cdid_cdid2CapiId` is the way there and back.
-/

set_option autoImplicit false

namespace Isdn4bsd
namespace Isolation

open L3 L3.Cntl

/-! ## Ids of CAPI -/

/-- `CDID2CAPI_ID` -/
def cdid2CapiId (cdid : Nat) : Nat := (cdid % maxControllers) ||| ((cdid / maxControllers) <<< 8)

theorem makeCdid_mod (unit ref : Nat) : makeCdid unit ref % maxControllers = unit % maxControllers := by
  rw [makeCdid_eq_add, Nat.mul_add_mod, Nat.mod_mod]

theorem capiId2Cdid_cdid2CapiId {cdid : Nat} (h : cdid / maxControllers < cdidRefMax) :
    capiId2Cdid (cdid2CapiId cdid) = cdid := by
  have hlt : cdid % maxControllers < 2 ^ 8 :=
    lt_trans (Nat.mod_lt cdid (by decide : 0 < maxControllers)) (by decide)
  have hid : cdid2CapiId cdid = 2 ^ 8 * (cdid / maxControllers) + cdid % maxControllers := by
    rw [cdid2CapiId, Nat.or_comm, Nat.shiftLeft_eq, Nat.mul_comm]
    exact (Nat.two_pow_add_eq_or_of_lt hlt _).symm
  have href : cdid2CapiId cdid >>> 8 &&& 0xff = cdid / maxControllers := by
    rw [hid, Nat.shiftRight_eq_div_pow, Nat.mul_add_div (by decide), Nat.div_eq_of_lt hlt,
      Nat.add_zero, show (0xff : Nat) = 2 ^ 8 - 1 from rfl, Nat.and_two_pow_sub_one_eq_mod]
    exact Nat.mod_eq_of_lt h
  have hunit : cdid2CapiId cdid % maxControllers = cdid % maxControllers := by
    rw [hid, maxControllers]
    omega
  have hsum := makeCdid_eq_add cdid (cdid / maxControllers)
  rw [capiId2Cdid, href, hunit]
  rw [makeCdid] at hsum
  rw [hsum, Nat.div_add_mod]

/-! ## The search -/

section search

variable {n : Nat} (s : Cntl n)

/-- The id with that reference is in use. -/
def Taken (ref : Nat) : Prop := ∃ i, (s.cd i).cdid = makeCdid s.unit ref

/-- What a search among the references after the given one may find. -/
def Finds (after : Nat) (r : Nat × Nat) : Prop :=
  (r.1 = cdidUnused ∧ ∀ ref, after < ref → ref < s.cdidEnd → Taken s ref) ∨
    ∃ ref, after < ref ∧ ref < s.cdidEnd ∧ ¬ Taken s ref ∧ r.1 = makeCdid s.unit ref

variable {s}

theorem Finds.of_taken {count : Nat} {r : Nat × Nat} (h : Finds s (count + 1) r)
    (ht : Taken s (count + 1)) : Finds s count r := by
  rcases h with ⟨hr, hall⟩ | ⟨ref, h1, h2, h3⟩
  · refine .inl ⟨hr, fun ref h1 h2 => ?_⟩
    rcases Nat.eq_or_lt_of_le h1 with rfl | hlt
    · exact ht
    · exact hall ref hlt h2
  · exact .inr ⟨ref, by omega, h2, h3⟩

/-- More rounds than needed change nothing. -/
theorem getCdidLoop_mono {r : Nat × Nat} : ∀ {fuel fuel' : Nat} {timeout : Bool} {count : Nat},
    s.getCdidLoop fuel timeout count = some r → fuel ≤ fuel' →
      s.getCdidLoop fuel' timeout count = some r
  | 0, _, _, _, h, _ => by cases h
  | fuel + 1, 0, _, _, _, hle => absurd hle (by omega)
  | fuel + 1, fuel' + 1, timeout, count, h, hle => by
    rw [getCdidLoop] at h ⊢
    dsimp only at h ⊢
    split
    · rename_i hend
      rwa [if_pos hend] at h
    · rename_i hend
      rw [if_neg hend] at h
      generalize decide ((count + 1) % 2 ^ 32 = 0 ∨ s.cdidEnd ≤ (count + 1) % 2 ^ 32) = o at h ⊢
      generalize (if o = true then 1 else (count + 1) % 2 ^ 32) = c at h ⊢
      split
      · rename_i ht
        rw [if_pos ht] at h
        exact getCdidLoop_mono h (by omega)
      · rename_i ht
        rwa [if_neg ht] at h

theorem next_of_lt (hend : s.CdidEndOk) {count : Nat} (hc : count < s.cdidEnd) :
    (count + 1) % 2 ^ 32 = count + 1 := by
  have hmax := hend.2
  rw [cdidRefMax] at hmax
  exact Nat.mod_eq_of_lt (by omega)

/-- A round within the range. -/
theorem getCdidLoop_inside {count c : Nat} (hc : (count + 1) % 2 ^ 32 = c) (hpos : 0 < c)
    (hlt : c < s.cdidEnd) (fuel : Nat) (timeout : Bool) :
    s.getCdidLoop (fuel + 1) timeout count =
      if ∃ i, (s.cd i).cdid = makeCdid s.unit c then s.getCdidLoop fuel timeout c
      else some (makeCdid s.unit c, c) := by
  have hin : ¬ (c = 0 ∨ s.cdidEnd ≤ c) := by omega
  rw [getCdidLoop]
  simp only [hc, hin, decide_false, Bool.false_eq_true, false_and, if_false, Bool.not_false,
    Bool.and_true]

/-- The end of the range, for the second time. -/
theorem getCdidLoop_end {count : Nat} (hc : (count + 1) % 2 ^ 32 = 0 ∨
    s.cdidEnd ≤ (count + 1) % 2 ^ 32) (fuel : Nat) :
    ∃ c, s.getCdidLoop (fuel + 1) false count = some (cdidUnused, c) := by
  rw [getCdidLoop]
  dsimp only
  rw [if_pos ⟨decide_eq_true hc, rfl⟩]
  exact ⟨_, rfl⟩

/-- The end of the range, for the first time. -/
theorem getCdidLoop_wrap {count : Nat} (hc : (count + 1) % 2 ^ 32 = 0 ∨
    s.cdidEnd ≤ (count + 1) % 2 ^ 32) (fuel : Nat) :
    s.getCdidLoop (fuel + 1) true count =
      if ∃ i, (s.cd i).cdid = makeCdid s.unit 1 then s.getCdidLoop fuel false 1
      else some (makeCdid s.unit 1, 1) := by
  rw [getCdidLoop]
  dsimp only
  simp only [hc, decide_true, if_true, Bool.true_eq_false, and_false, if_false, Bool.not_true,
    Bool.and_false]

/-- The search after it went past the end. -/
theorem getCdidLoop_second (hend : s.CdidEndOk) : ∀ (fuel count : Nat), count < s.cdidEnd →
    s.cdidEnd ≤ count + fuel →
      ∃ r, s.getCdidLoop fuel false count = some r ∧ Finds s count r
  | 0, count, hc, hf => absurd hc (by omega)
  | fuel + 1, count, hc, hf => by
    have hnext := next_of_lt hend hc
    by_cases hin : count + 1 < s.cdidEnd
    · rw [getCdidLoop_inside hnext (by omega) hin]
      split
      · rename_i ht
        obtain ⟨r, hr, hfinds⟩ := getCdidLoop_second hend fuel (count + 1) hin (by omega)
        exact ⟨r, hr, hfinds.of_taken ht⟩
      · rename_i ht
        exact ⟨_, rfl, .inr ⟨count + 1, by omega, hin, ht, rfl⟩⟩
    · obtain ⟨c, hr⟩ := getCdidLoop_end (.inr (show s.cdidEnd ≤ (count + 1) % 2 ^ 32 by omega)) fuel
      exact ⟨_, hr, .inl ⟨rfl, fun ref h1 h2 => absurd h1 (by omega)⟩⟩

/-- The search from the start of the range. -/
theorem getCdidLoop_restart (hend : s.CdidEndOk) {fuel count : Nat} (hf : s.cdidEnd ≤ fuel)
    (hc : (count + 1) % 2 ^ 32 = 0 ∨ s.cdidEnd ≤ (count + 1) % 2 ^ 32) :
    ∃ r, s.getCdidLoop (fuel + 1) true count = some r ∧ Finds s 0 r := by
  rw [getCdidLoop_wrap hc]
  split
  · rename_i ht
    obtain ⟨r, hr, hfinds⟩ := getCdidLoop_second hend fuel 1 hend.1 (by omega)
    exact ⟨r, hr, hfinds.of_taken ht⟩
  · rename_i ht
    exact ⟨_, rfl, .inr ⟨1, one_pos, hend.1, ht, rfl⟩⟩

/-- The search before it goes past the end, which is at most that many rounds away. -/
theorem getCdidLoop_first (hend : s.CdidEndOk) : ∀ (d fuel count : Nat),
    s.cdidEnd ≤ (count + 1) % 2 ^ 32 + d → s.cdidEnd + d < fuel →
      ∃ r, s.getCdidLoop fuel true count = some r ∧ Finds s 0 r
  | d, 0, count, _, hf => absurd hf (by omega)
  | 0, fuel + 1, count, hd, hf => getCdidLoop_restart hend (by omega) (.inr (by omega))
  | d + 1, fuel + 1, count, hd, hf => by
    by_cases hout : (count + 1) % 2 ^ 32 = 0 ∨ s.cdidEnd ≤ (count + 1) % 2 ^ 32
    · exact getCdidLoop_restart hend (by omega) hout
    · generalize hc : (count + 1) % 2 ^ 32 = c at hd hout
      rw [getCdidLoop_inside hc (by omega) (by omega)]
      split
      · have hnext := next_of_lt hend (show c < s.cdidEnd by omega)
        exact getCdidLoop_first hend d fuel c (by omega) (by omega)
      · rename_i ht
        exact ⟨_, rfl, .inr ⟨c, by omega, by omega, ht, rfl⟩⟩

/-- **The search ends, and finds a reference if there is one.** -/
theorem getCdidLoop_search (hend : s.CdidEndOk) :
    ∃ r, (∀ fuel, 2 * s.cdidEnd + 1 ≤ fuel → s.getCdidLoop fuel true s.cdidCount = some r) ∧
      s.getCdid.1 = r.1 ∧ Finds s 0 r := by
  obtain ⟨r, hr, hfinds⟩ := getCdidLoop_first hend s.cdidEnd (2 * s.cdidEnd + 1) s.cdidCount
    (by omega) (by omega)
  have hall : ∀ fuel, 2 * s.cdidEnd + 1 ≤ fuel → s.getCdidLoop fuel true s.cdidCount = some r :=
    fun fuel hf => getCdidLoop_mono hr hf
  refine ⟨r, hall, ?_, hfinds⟩
  have hmin : ({ s with cdidEnd := min s.cdidEnd cdidRefMax } : Cntl n) = s := by
    rw [min_eq_left hend.2]
  rw [getCdid, hmin, hall _ (by omega)]

theorem makeCdid_ne_unused (unit : Nat) {ref : Nat} (h : 0 < ref) :
    makeCdid unit ref ≠ cdidUnused := by
  rw [makeCdid_eq_add, cdidUnused, maxControllers]
  omega

/-- There is no id exactly when all references are in use. -/
theorem getCdid_eq_unused_iff (hend : s.CdidEndOk) :
    s.getCdid.1 = cdidUnused ↔ ∀ ref, 1 ≤ ref → ref < s.cdidEnd → Taken s ref := by
  obtain ⟨r, -, hr, hfinds⟩ := getCdidLoop_search hend
  rw [hr]
  rcases hfinds with ⟨hu, hall⟩ | ⟨ref, h1, h2, hfree, hid⟩
  · exact iff_of_true hu hall
  · refine iff_of_false ?_ fun h => hfree (h ref h1 h2)
    rw [hid]
    exact makeCdid_ne_unused _ h1

end search

/-! ## All controllers -/

/-- What is done to the call descriptors of a controller. -/
inductive IdAction (size : Fin maxControllers → Nat) where
  | allocate (c : Fin maxControllers)
  | free (c : Fin maxControllers) (i : Fin (size c))

namespace World

variable {size : Fin maxControllers → Nat} {W : World size}

/-- `i4b_allocate_cd` and `i4b_free_cd`. -/
def perform (W : World size) : IdAction size → World size
  | .allocate c => W.set c (W c).i4bAllocateCd.2
  | .free c i => W.set c ((W c).i4bFreeCd i)

/-- The ids in use are those of their controllers, and different on each of them. -/
structure Issued (W : World size) : Prop where
  unit : ∀ c, (W c).unit = c
  cdidEnd : ∀ c, (W c).CdidEndOk
  /-- `CDID2CONTROLLER` -/
  own : ∀ c i, ((W c).cd i).Allocated → ((W c).cd i).cdid % maxControllers = c
  distinct : ∀ c i j, ((W c).cd i).Allocated → ((W c).cd i).cdid = ((W c).cd j).cdid → i = j

/-- An id is in use once, on all controllers. -/
theorem Issued.pairwise (h : Issued W) {c c' : Fin maxControllers} {i : Fin (size c)}
    {j : Fin (size c')} (hi : ((W c).cd i).Allocated)
    (hij : ((W c).cd i).cdid = ((W c').cd j).cdid) :
    (⟨c, i⟩ : (c : Fin maxControllers) × Fin (size c)) = ⟨c', j⟩ := by
  have hj : ((W c').cd j).Allocated := hij.symm.trans_ne hi
  have hc : c = c' := by
    rw [Fin.ext_iff, ← h.own c i hi, hij, h.own c' j hj]
  subst hc
  rw [h.distinct c i j hi hij]

/-- One controller changes its descriptors. -/
theorem Issued.set (h : Issued W) {c : Fin maxControllers} {s : Cntl (size c)}
    (hunit : s.unit = (W c).unit) (hend : s.cdidEnd = (W c).cdidEnd)
    (hown : ∀ i, (s.cd i).Allocated → (s.cd i).cdid % maxControllers = c)
    (hdistinct : ∀ i j, (s.cd i).Allocated → (s.cd i).cdid = (s.cd j).cdid → i = j) :
    Issued (W.set c s) := by
  have hset : ∀ P : (c : Fin maxControllers) → Cntl (size c) → Prop,
      (∀ c, P c (W c)) → P c s → ∀ c', P c' (W.set c s c') := by
    intro P hW hs c'
    rw [World.set]
    by_cases hc : c' = c
    · subst hc
      rwa [Function.update_self]
    · rw [Function.update_of_ne hc]
      exact hW c'
  refine ⟨hset (fun c s => s.unit = c) h.unit (hunit.trans (h.unit c)),
    hset (fun _ s => s.CdidEndOk) h.cdidEnd ?_,
    hset (fun c s => ∀ i, (s.cd i).Allocated → (s.cd i).cdid % maxControllers = c) h.own hown,
    hset (fun _ s => ∀ i j, (s.cd i).Allocated → (s.cd i).cdid = (s.cd j).cdid → i = j) h.distinct
      hdistinct⟩
  rw [Cntl.CdidEndOk, hend]
  exact h.cdidEnd c

theorem Issued.free (h : Issued W) (c : Fin maxControllers) (i : Fin (size c)) :
    Issued (W.set c ((W c).i4bFreeCd i)) := by
  have hcd : ∀ j, (((W c).i4bFreeCd i).cd j).Allocated →
      (((W c).i4bFreeCd i).cd j).cdid = ((W c).cd j).cdid := by
    intro j hj
    by_cases hji : j = i
    · subst hji
      rw [i4bFreeCd, modify_cd_self] at hj
      exact absurd rfl hj
    · rw [i4bFreeCd, modify_cd_of_ne _ _ hji]
  refine h.set rfl rfl (fun j hj => ?_) fun j k hj hjk => ?_
  · rw [hcd j hj]
    exact h.own c j ((hcd j hj).symm.trans_ne hj)
  · have hk := hjk.symm.trans_ne hj
    rw [hcd j hj, hcd k hk] at hjk
    exact h.distinct c j k ((hcd j hj).symm.trans_ne hj) hjk

theorem Issued.allocate (h : Issued W) (c : Fin maxControllers) :
    Issued (W.set c (W c).i4bAllocateCd.2) := by
  rw [i4bAllocateCd]
  cases hf : (List.finRange (size c)).find? fun i => ((W c).cd i).cdid = cdidUnused with
  | none =>
    rw [set_eq_self]
    exact h
  | some i =>
    have hun : ((W c).cd i).cdid = cdidUnused := by simpa using List.find?_some hf
    obtain ⟨hl, hcd, hr⟩ := getCdid_cases ((W c).modify i fun _ => {}) (h.cdidEnd c)
    dsimp only
    generalize ((W c).modify i fun _ => {}).getCdid = r at hl hcd hr
    have hother : ∀ j, j ≠ i → (r.2.modify i fun cd => { cd with cdid := r.1 }).cd j =
        (W c).cd j := by
      intro j hj
      rw [modify_cd_of_ne _ _ hj, hcd, modify_cd_of_ne _ _ hj]
    have hself : ((r.2.modify i fun cd => { cd with cdid := r.1 }).cd i).cdid = r.1 := by
      rw [modify_cd_self]
    have hfree : ∀ j, j ≠ i → r.1 ≠ cdidUnused → ((W c).cd j).cdid ≠ r.1 := by
      intro j hj hn
      have hunused := (hr.resolve_left hn).unused j
      rwa [line_cd, modify_cd_of_ne _ _ hj] at hunused
    refine h.set (congrArg Line.unit hl) (congrArg Line.cdidEnd hl) (fun j hj => ?_)
      fun j k hj hjk => ?_
    · by_cases hji : j = i
      · subst hji
        rw [Call.Allocated, hself] at hj
        obtain ⟨ref, -, -, hid⟩ := (hr.resolve_left hj).range
        rw [hself, hid, makeCdid_mod]
        exact (congrArg (· % maxControllers) (h.unit c)).trans (Nat.mod_eq_of_lt c.isLt)
      · rw [hother j hji] at hj ⊢
        exact h.own c j hj
    · by_cases hji : j = i
      · subst hji
        by_contra hne
        rw [Call.Allocated, hself] at hj
        rw [hself, hother k (Ne.symm hne)] at hjk
        exact hfree k (Ne.symm hne) hj hjk.symm
      · rw [hother j hji] at hj hjk
        by_cases hki : k = i
        · subst hki
          rw [hself] at hjk
          exact absurd hjk (hfree j hji (hjk.symm.trans_ne hj))
        · rw [hother k hki] at hjk
          exact h.distinct c j k hj hjk

/-- No action makes two ids alike. -/
theorem Issued.run (h : Issued W) (actions : List (IdAction size)) :
    Issued (actions.foldl perform W) := by
  induction actions generalizing W with
  | nil => exact h
  | cons a actions ih =>
    cases a with
    | allocate c => exact ih (h.allocate c)
    | free c i => exact ih (h.free c i)

/-- Nothing is in use at first. -/
theorem issued_of_idle (hunit : ∀ c, (W c).unit = c) (hend : ∀ c, (W c).CdidEndOk)
    (hidle : ∀ c i, ¬ ((W c).cd i).Allocated) : Issued W :=
  ⟨hunit, hend, fun c i hi => absurd hi (hidle c i), fun c i _ hi => absurd hi (hidle c i)⟩

/-- What `get_cdid` gives is in range, and held by no descriptor of any controller. -/
theorem Issued.getCdid (h : Issued W) (c : Fin maxControllers)
    (hn : (W c).getCdid.1 ≠ cdidUnused) :
    (∃ ref, 1 ≤ ref ∧ ref < (W c).cdidEnd ∧ (W c).getCdid.1 = makeCdid c ref) ∧
      ∀ c' j, ((W c').cd j).cdid ≠ (W c).getCdid.1 := by
  obtain ⟨-, -, hr⟩ := getCdid_cases (W c) (h.cdidEnd c)
  obtain ⟨⟨ref, h1, h2, hid⟩, hunused⟩ := hr.resolve_left hn
  have hunit : (W c).line.unit = c := h.unit c
  rw [hunit] at hid
  refine ⟨⟨ref, h1, h2, hid⟩, fun c' j hj => ?_⟩
  have hc : c' = c := by
    have hown := h.own c' j (hj.trans_ne hn)
    rw [hj, hid, makeCdid_mod, Nat.mod_eq_of_lt c.isLt] at hown
    exact Fin.ext hown.symm
  subst hc
  exact hunused j hj

end World

/-! ## Ids at all times -/

/-- **The ids of call descriptors**: the search ends, and fails only when all references are in use;
otherwise it gives an id in range that no descriptor of any controller has, and that survives its
way through CAPI.  Whatever is allocated and freed, the ids in use are different. -/
theorem issued_ids {size : Fin maxControllers → Nat} {W : World size} (h : W.Issued) :
    (∀ c, ∃ r, (∀ fuel, 2 * (W c).cdidEnd + 1 ≤ fuel →
        (W c).getCdidLoop fuel true (W c).cdidCount = some r) ∧ (W c).getCdid.1 = r.1) ∧
    (∀ c, (W c).getCdid.1 = cdidUnused ↔
      ∀ ref, 1 ≤ ref → ref < (W c).cdidEnd → ∃ i, ((W c).cd i).cdid = makeCdid c ref) ∧
    (∀ c, (W c).getCdid.1 ≠ cdidUnused →
      (∃ ref, 1 ≤ ref ∧ ref < (W c).cdidEnd ∧ (W c).getCdid.1 = makeCdid c ref) ∧
        (∀ c' j, ((W c').cd j).cdid ≠ (W c).getCdid.1) ∧
        capiId2Cdid (cdid2CapiId (W c).getCdid.1) = (W c).getCdid.1) ∧
    ∀ (actions : List (IdAction size)) (c c' : Fin maxControllers) (i : Fin (size c))
      (j : Fin (size c')), ((actions.foldl World.perform W c).cd i).Allocated →
        ((actions.foldl World.perform W c).cd i).cdid =
          ((actions.foldl World.perform W c').cd j).cdid →
        (⟨c, i⟩ : (c : Fin maxControllers) × Fin (size c)) = ⟨c', j⟩ := by
  refine ⟨fun c => ?_, fun c => ?_, fun c hn => ?_, fun actions c c' i j hi hij => ?_⟩
  · obtain ⟨r, hall, hr, -⟩ := getCdidLoop_search (h.cdidEnd c)
    exact ⟨r, hall, hr⟩
  · rw [getCdid_eq_unused_iff (h.cdidEnd c)]
    simp only [Taken, h.unit c]
  · obtain ⟨⟨ref, h1, h2, hid⟩, hunused⟩ := h.getCdid c hn
    refine ⟨⟨ref, h1, h2, hid⟩, hunused, capiId2Cdid_cdid2CapiId ?_⟩
    have href := cdid2Callreference_makeCdid c ref
    rw [cdid2Callreference, ← hid] at href
    rw [href]
    exact lt_of_lt_of_le h2 (h.cdidEnd c).2
  · exact (h.run actions).pairwise hi hij

/-- Three call descriptors and three references on each controller, none of them in use. -/
def idle : World fun _ => 3 := fun c => { (boot c 2 0 : Cntl 3) with cdidEnd := 4 }

/-- The controller with unit 1. -/
def second : Fin maxControllers := ⟨1, by decide⟩

/-- All of its references were given, and then the one in the middle was given back. -/
def busy : World fun _ => 3 :=
  [.allocate second, .allocate second, .allocate second, .free second 1].foldl World.perform idle

/-- The counter is at its end.  It wraps around, the first reference is in use, and the second one is given;
after that there is none. -/
theorem issued_ids_busy :
    (busy second).cdidCount = 3 ∧ ((busy second).cd 0).cdid = makeCdid 1 1 ∧
      (busy second).getCdid.1 = makeCdid 1 2 ∧
      (∀ c j, ((busy c).cd j).cdid ≠ makeCdid 1 2) ∧
      capiId2Cdid (cdid2CapiId (makeCdid 1 2)) = makeCdid 1 2 ∧
      ((busy.perform (.allocate second)) second).getCdid.1 = cdidUnused := by
  have hidle : idle.Issued := World.issued_of_idle (fun _ => rfl)
    (fun _ => ⟨show 1 < 4 by decide, show 4 ≤ cdidRefMax by decide⟩) fun _ _ h => h rfl
  have hbusy : busy.Issued := hidle.run _
  have hid : (busy second).getCdid.1 = makeCdid 1 2 := by decide
  obtain ⟨-, hfree, hcapi⟩ := (issued_ids hbusy).2.2.1 second (by decide)
  rw [hid] at hfree hcapi
  refine ⟨by decide, by decide, hid, hfree, hcapi, ?_⟩
  -- the search fails, as all references are in use
  refine ((issued_ids (hbusy.run [.allocate second])).2.1 second).mpr fun ref h1 h2 => ?_
  have hcases : ref = 1 ∨ ref = 2 ∨ ref = 3 := by
    have hend : ref < 4 := h2
    omega
  rcases hcases with rfl | rfl | rfl
  · exact ⟨0, by decide⟩
  · exact ⟨1, by decide⟩
  · exact ⟨2, by decide⟩

end Isolation
end Isdn4bsd
