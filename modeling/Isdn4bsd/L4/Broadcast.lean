import Isdn4bsd.L3.Ownership
import Mathlib.Data.Finset.Card
import Mathlib.Data.Finset.Prod

/-!
# Calls that are offered to all applications

A call that comes in belongs to nobody: every application that is sent the connect indication may
answer it.  The descriptor has one pointer for the application the call belongs to, and one counter
for the answers that are still to come.  Who was sent the indication, and who answered, is kept
nowhere; here it is recorded beside the controller, as `Notes`.

* `Notes.next`: what an action adds to the record of a call.
* `Proper`: nobody ignores a call twice, or unasked, and no indication is lost.
* `Reached.broadcast`: **where all steps are proper, a call has one owner at most, all others are
  told that it is over, and what they do then has no effect; and an ignored call ends when all have
  ignored it.**
* `ignored_twice`: an application that ignores a call twice ends it for one that did not answer yet.

## The record

An indication is a message into the queues of applications, some of which get it and some of which have no
room; so an event is an action of the controller together with who got its connect indication and who lost
its disconnect indication.  `Fits` says that these are applications the indication was for, and that of an
offer as many got it as the answer of `i4b_l4_connect_ind` counts.  Nothing that the controller does depends on
the record (`Reached.reach`).

From the record it is plain what the counter should be: those that were told of the call, less those that have
parted from it, because they ignored it or were told that it is over.  `Fair` is the invariant: while the call is
nobody's, no more are pending than are counted, and when it is somebody's or over, nobody else is.

## The step

`Isdn4bsd.L3.Ownership` has for each action what becomes of a call (`Fate`), and for each fate there is a lemma
`Orderly.fair_*` here.  `Orderly` is what `Fits` and `Proper` say about one call, and is all that these lemmas
need of the event.
-/

set_option autoImplicit false

namespace Isdn4bsd
namespace Broadcast

open L3 L3.Cntl

variable {n : Nat} {env : Env}

/-! ## Applications -/

/-- An application: the driver it uses and its softc. -/
abbrev App := AiType × Nat

/-- What happened to applications about a call. -/
structure Notes where
  /-- The applications that were sent a connect indication. -/
  told : Finset App := ∅
  /-- Those that ignored the call since. -/
  ignored : Finset App := ∅
  /-- Those that were sent a disconnect indication. -/
  parted : Finset App := ∅
  /-- Those that the call belonged to. -/
  owners : Finset App := ∅

/-- Who may still answer. -/
def Notes.pending (r : Notes) : Finset App := r.told \ r.ignored

/-- A controller, and what happened to applications about its calls. -/
structure World (n : Nat) where
  cntl : Cntl n
  notes : Fin n → Notes

/-- Something happens to the controller.  If there is a connect indication for it, some applications
get it; if there are disconnect indications, some are lost. -/
structure Event (n : Nat) where
  action : Action n
  took : Finset App := ∅
  lost : Finset App := ∅

/-! ## Indications -/

/-- What a step did. -/
def added (s t : Cntl n) : List Output := t.out.drop s.out.length

/-- The call and whom it belonged to; a new call belongs to whom it does afterwards. -/
def party (s t : Cntl n) (i : Fin n) : Nat × AiType × Nat :=
  if (s.cd i).Allocated then holder (s.cd i) else holder (t.cd i)

/-- `i4b_l4_connect_ind`: a message made the call be offered to whom it belongs to. -/
def offered (s t : Cntl n) (i : Fin n) : Action n → Bool
  | .dataInd .. =>
    decide (.ind (party s t i).1 (party s t i).2.1 (party s t i).2.2 .connect ∈ added s t)
  | _ => false

/-- `I4B_CONNECT_REPLAY_REQ`: an application gets the indication of a call that it asked for. -/
def replayed (s : Cntl n) (i : Fin n) : Action n → Bool
  | .i4b _ cdid .connectReplayReq =>
    decide (s.cdByCdid cdid = some i ∧ (s.cd i).dirIncoming = true ∧ (s.cd i).aiType = .broadcast)
  | _ => false

/-- The application goes away. -/
def closes (x : App) : Action n → Bool
  | .closed k sc => decide (x = (k, sc))
  | _ => false

/-- The disconnect indication goes to the application: it is for all, for the one the call belongs
to, or for all others. -/
def reaches (cdid : Nat) (x : App) : Output → Bool
  | .ind c k p (.disconnect _ complement) =>
    decide (c = cdid) && if complement then decide (x ≠ (k, p)) else decide (k = .broadcast ∨ x = (k, p))
  | _ => false

/-- The application that does not want the call. -/
def ignorer (s : Cntl n) (i : Fin n) : Action n → Finset App
  | .i4b sc cdid (.connectResp .dontCare _ _ _ _) =>
    if s.cdByCdid cdid = some i ∧ s.Owns i .i4b sc then {(.i4b, sc)} else ∅
  | .capi sc cdid (.connectResp 1 _ _) =>
    if s.cdByCdid cdid = some i ∧ s.Owns i .capi sc ∧ (s.cd i).dirIncoming = true then {(.capi, sc)}
    else ∅
  | _ => ∅

/-- Whom the call belongs to. -/
def owner (cd : CallDesc) : Finset App :=
  if cd.Allocated ∧ cd.aiType ≠ .broadcast then {(cd.aiType, cd.aiPtr)} else ∅

/-! ## Steps -/

/-- What a step adds to the record of a call. -/
def Notes.next (r : Notes) (s t : Cntl n) (i : Fin n) (e : Event n) : Notes :=
  let told := (r.told ∪ if offered s t i e.action || replayed s i e.action then e.took else ∅).filter
    fun x => closes x e.action = false
  { told := told
    ignored := (if offered s t i e.action then r.ignored \ e.took else r.ignored) ∪
      ignorer s i e.action
    parted := r.parted ∪ told.filter fun x =>
      x ∉ e.lost ∧ (added s t).any (reaches (party s t i).1 x) = true
    owners := r.owners ∪ owner (t.cd i) }

/-- The record that a step adds to: a new call has none. -/
def World.before (w : World n) (i : Fin n) : Notes :=
  if (w.cntl.cd i).Allocated then w.notes i else {}

/-- The record of a descriptor that stays free is kept. -/
def World.next (w : World n) (t : Cntl n) (e : Event n) : World n where
  cntl := t
  notes i :=
    if (w.cntl.cd i).Allocated ∨ (t.cd i).Allocated then (w.before i).next w.cntl t i e
    else w.notes i

/-- An indication that is sent again goes to who asked for it. -/
def sentTo (took : Finset App) : Action n → Bool
  | .i4b sc _ .connectReplayReq => decide (took ⊆ {(.i4b, sc)})
  | _ => true

/-- Only those are sent an indication that it is for, and of an offer they are counted. -/
def Fits (s t : Cntl n) (e : Event n) : Prop :=
  sentTo e.took e.action = true ∧
    (∀ i, offered s t i e.action = true → (t.cd i).Allocated →
      (t.cd i).connectIndCount = e.took.card % 2 ^ 16) ∧
    (∀ i, offered s t i e.action = true → (party s t i).2.1 ≠ .broadcast →
      e.took ⊆ {(party s t i).2})

instance (s t : Cntl n) (e : Event n) : Decidable (Fits s t e) := inferInstanceAs (Decidable (_ ∧ _))

/-- One step.  There is no state after a panic. -/
def World.step (env : Env) (w : World n) (e : Event n) : Option (World n) :=
  (w.cntl.step env e.action).bind fun t => if Fits w.cntl t e then some (w.next t e) else none

/-- The states of a controller in runs all of whose steps are allowed. -/
inductive Reached (env : Env) (ok : World n → Event n → World n → Prop) : World n → Prop where
  | start (unit channelEnd cdidCount : Nat) (ntMode pointToPoint primaryRate : Bool) :
      Reached env ok ⟨(boot unit channelEnd cdidCount).attach ntMode pointToPoint primaryRate,
        fun _ => {}⟩
  | step {w w' : World n} {e : Event n} (h : Reached env ok w) (hs : w.step env e = some w')
      (hok : ok w e w') : Reached env ok w'

/-- Applications that do not get into each other's way, and indications that are not lost. -/
structure Proper (w : World n) (e : Event n) (w' : World n) : Prop where
  /-- Who ignores a call that is nobody's has been asked and did not ignore it yet, or nobody else
  is to answer. -/
  ignores : ∀ i k x, Ignores w.cntl i e.action k x → (w.cntl.cd i).aiType = .broadcast →
    (k, x) ∈ (w.notes i).pending ∨ (w.notes i).pending = ∅
  /-- When a call is offered again, those that did not answer yet are asked again; and there are
  not too many to be counted. -/
  offers : ∀ i, offered w.cntl w'.cntl i e.action = true →
    (party w.cntl w'.cntl i).2.1 = .broadcast →
    (w.before i).pending ⊆ e.took ∧ e.took.card < 2 ^ 16
  /-- The indication is sent again only to who got it before. -/
  replays : ∀ i, replayed w.cntl i e.action = true → e.took ⊆ (w.notes i).told
  /-- No disconnect indication is lost. -/
  lost : ∀ i, Disjoint (w'.notes i).told e.lost

/-! ## What the record says -/

variable {s t : Cntl n} {i : Fin n} {e : Event n} {r : Notes} {w w' : World n}

theorem mem_ignorer_of_ignores {a : Action n} {k : AiType} {x : Nat} (h : Ignores s i a k x) :
    ignorer s i a = {(k, x)} := by
  rw [Ignores.eq_def] at h
  split at h
  · obtain ⟨rfl, hi, hown⟩ := h
    exact if_pos ⟨hi, hown⟩
  · obtain ⟨rfl, hi, hown, hd⟩ := h
    exact if_pos ⟨hi, hown, hd⟩
  · exact h.elim

/-- Indications are not sent when an application ignores a call. -/
theorem quiet_of_ignores {a : Action n} {k : AiType} {x : Nat} (h : Ignores s i a k x) :
    offered s t i a = false ∧ replayed s i a = false ∧ ∀ y, closes y a = false := by
  rw [Ignores.eq_def] at h
  split at h
  · exact ⟨rfl, rfl, fun _ => rfl⟩
  · exact ⟨rfl, rfl, fun _ => rfl⟩
  · exact h.elim

theorem step_eq_some (h : w.step env e = some w') :
    ∃ t, w.cntl.step env e.action = some t ∧ Fits w.cntl t e ∧ w' = w.next t e := by
  obtain ⟨t, ht, h⟩ := Option.bind_eq_some_iff.mp h
  split at h
  · rename_i hf
    exact ⟨t, ht, hf, (Option.some.inj h).symm⟩
  · cases h

/-- Nothing is known about the controller because of the record. -/
theorem Reached.reach {ok : World n → Event n → World n → Prop} (h : Reached env ok w) :
    Reach env w.cntl := by
  induction h with
  | start unit channelEnd cdidCount nt ptp pr => exact .start unit channelEnd cdidCount nt ptp pr
  | step _ hs _ ih =>
    obtain ⟨t, ht, -, rfl⟩ := step_eq_some hs
    exact ih.step ht

/-- What holds of the record of a call. -/
structure Fair (cd : CallDesc) (r : Notes) : Prop where
  one : r.owners.card ≤ 1
  ended : ¬ cd.Allocated → r.told ⊆ r.parted
  nobody : cd.Allocated → cd.aiType = .broadcast →
    r.owners = ∅ ∧ r.pending.card ≤ cd.connectIndCount
  somebody : cd.Allocated → cd.aiType ≠ .broadcast →
    r.owners = {(cd.aiType, cd.aiPtr)} ∧ r.told.erase (cd.aiType, cd.aiPtr) ⊆ r.parted

/-! ## One call -/

theorem mem_told_next {x : App} : x ∈ (r.next s t i e).told ↔
    (x ∈ r.told ∨ ((offered s t i e.action || replayed s i e.action) = true ∧ x ∈ e.took)) ∧
      closes x e.action = false := by
  rw [Notes.next]
  dsimp only
  rw [Finset.mem_filter, Finset.mem_union]
  split
  · rename_i h
    rw [h]
    simp only [true_and]
  · rename_i h
    simp only [h, Finset.notMem_empty, Bool.false_eq_true, false_and]

theorem parted_subset_next : r.parted ⊆ (r.next s t i e).parted := Finset.subset_union_left

/-- Who is told and reached by an indication that is not lost has parted. -/
theorem mem_parted_next {x : App} (hx : x ∈ (r.next s t i e).told) (hl : x ∉ e.lost) {o : Output}
    (ho : o ∈ added s t) (hr : reaches (party s t i).1 x o = true) :
    x ∈ (r.next s t i e).parted := by
  refine Finset.mem_union_right _ (Finset.mem_filter.mpr ⟨hx, hl, ?_⟩)
  rw [List.any_eq_true]
  exact ⟨o, ho, hr⟩

/-- After an offer those are still to answer that were sent it. -/
theorem pending_of_offered (ho : offered s t i e.action = true) (hp : r.pending ⊆ e.took) :
    (r.next s t i e).pending ⊆ e.took := by
  intro x hx
  rw [Notes.pending, Finset.mem_sdiff] at hx
  obtain ⟨ht, hi⟩ := hx
  by_contra hne
  obtain ⟨ht, -⟩ := mem_told_next.mp ht
  have hxt : x ∈ r.told := ht.resolve_right fun h => hne h.2
  refine hne (hp (Finset.mem_sdiff.mpr ⟨hxt, ?_⟩))
  intro hxi
  refine hi (Finset.mem_union_left _ ?_)
  rw [if_pos ho, Finset.mem_sdiff]
  exact ⟨hxi, hne⟩

/-- Otherwise nobody else is to answer. -/
theorem pending_of_not_offered (ho : offered s t i e.action = false)
    (hr : replayed s i e.action = true → e.took ⊆ r.told) :
    (r.next s t i e).pending ⊆ r.pending \ ignorer s i e.action := by
  intro x hx
  rw [Notes.pending, Finset.mem_sdiff] at hx
  obtain ⟨ht, hi⟩ := hx
  obtain ⟨ht, -⟩ := mem_told_next.mp ht
  rw [Notes.next] at hi
  dsimp only at hi
  rw [ho, if_neg Bool.false_ne_true, Finset.mem_union, not_or] at hi
  rw [ho, Bool.false_or] at ht
  refine Finset.mem_sdiff.mpr ⟨Finset.mem_sdiff.mpr ⟨?_, hi.1⟩, hi.2⟩
  rcases ht with ht | ⟨hrep, ht⟩
  · exact ht
  · exact hr hrep ht

/-- What `Fits` and `Proper` say about one call. -/
structure Orderly (r : Notes) (s t : Cntl n) (i : Fin n) (e : Event n) : Prop where
  count : offered s t i e.action = true → (t.cd i).Allocated →
    (t.cd i).connectIndCount = e.took.card % 2 ^ 16
  own : offered s t i e.action = true → (party s t i).2.1 ≠ .broadcast → e.took ⊆ {(party s t i).2}
  offers : offered s t i e.action = true → (party s t i).2.1 = .broadcast →
    r.pending ⊆ e.took ∧ e.took.card < 2 ^ 16
  ignores : ∀ k x, Ignores s i e.action k x → (s.cd i).aiType = .broadcast →
    (k, x) ∈ r.pending ∨ r.pending = ∅
  replays : replayed s i e.action = true → e.took ⊆ r.told
  lost : Disjoint (r.next s t i e).told e.lost

theorem Orderly.not_lost (ho : Orderly r s t i e) {x : App} (hx : x ∈ (r.next s t i e).told) :
    x ∉ e.lost := Finset.disjoint_left.mp ho.lost hx

/-- Those that are told were told before, or are sent an offer. -/
theorem Orderly.told (ho : Orderly r s t i e) {x : App} (hx : x ∈ (r.next s t i e).told) :
    x ∈ r.told ∨ offered s t i e.action = true ∧ x ∈ e.took := by
  obtain ⟨hx | ⟨hx, ht⟩, -⟩ := mem_told_next.mp hx
  · exact .inl hx
  · rw [Bool.or_eq_true] at hx
    rcases hx with hx | hx
    · exact .inr ⟨hx, ht⟩
    · exact .inl (ho.replays hx ht)

/-- Not more are to answer than are counted. -/
theorem Orderly.card_pending (ho : Orderly r s t i e) (hb : (party s t i).2.1 = .broadcast)
    (ha : (t.cd i).Allocated)
    (hp : offered s t i e.action = false → r.pending.card ≤ (t.cd i).connectIndCount) :
    (r.next s t i e).pending.card ≤ (t.cd i).connectIndCount := by
  cases hof : offered s t i e.action with
  | true =>
    obtain ⟨hsub, hlt⟩ := ho.offers hof hb
    rw [ho.count hof ha, Nat.mod_eq_of_lt hlt]
    exact Finset.card_le_card (pending_of_offered hof hsub)
  | false =>
    refine le_trans (Finset.card_le_card ?_) (hp hof)
    exact (pending_of_not_offered hof ho.replays).trans Finset.sdiff_subset

/-- What is an application's own is offered to nobody else. -/
theorem Orderly.told_somebody (ho : Orderly r s t i e) (hk : (party s t i).2.1 ≠ .broadcast)
    (hr : r.told.erase (party s t i).2 ⊆ r.parted) :
    (r.next s t i e).told.erase (party s t i).2 ⊆ (r.next s t i e).parted := by
  intro x hx
  obtain ⟨hne, hx⟩ := Finset.mem_erase.mp hx
  rcases ho.told hx with hx | ⟨hof, hx⟩
  · exact parted_subset_next (hr (Finset.mem_erase.mpr ⟨hne, hx⟩))
  · exact absurd (Finset.mem_singleton.mp (ho.own hof hk hx)) hne

theorem party_of_allocated (ha : (s.cd i).Allocated) : party s t i = holder (s.cd i) := if_pos ha

/-- An indication that a step adds. -/
theorem mem_added {done : List Output} {o : Output} (h : t.out = s.out ++ done) (ho : o ∈ done) :
    o ∈ added s t := by
  rw [added, h, List.drop_left]
  exact ho

/-- When a call ends, all that it was offered to have parted. -/
theorem Orderly.told_ended (ho : Orderly r s t i e) (ha : (s.cd i).Allocated)
    (hf : Fair (s.cd i) r) (h : Ended i s t) :
    (r.next s t i e).told ⊆ (r.next s t i e).parted := by
  obtain ⟨cause, done, hd, hmem⟩ := h.told
  have hadd := mem_added hd hmem
  have hparty := party_of_allocated (t := t) ha
  by_cases hb : (s.cd i).aiType = .broadcast
  · intro x hx
    refine mem_parted_next hx (ho.not_lost hx) hadd ?_
    rw [hparty, hb]
    simp [reaches, holder]
  · have hsome := ho.told_somebody (by rw [hparty]; exact hb) (by
      rw [hparty]
      exact (hf.somebody ha hb).2)
    intro x hx
    by_cases hx2 : x = (party s t i).2
    · refine mem_parted_next hx (ho.not_lost hx) hadd ?_
      rw [hx2, hparty]
      simp [reaches, holder]
    · exact hsome (Finset.mem_erase.mpr ⟨hx2, hx⟩)

theorem owners_next : (r.next s t i e).owners = r.owners ∪ owner (t.cd i) := rfl

/-- The call goes on with whom it belonged to. -/
theorem Orderly.fair_same (ho : Orderly r s t i e) (ha : (s.cd i).Allocated)
    (hf : Fair (s.cd i) r) (hh : holder (t.cd i) = holder (s.cd i))
    (hp : (t.cd i).aiType = .broadcast →
      (r.next s t i e).pending.card ≤ (t.cd i).connectIndCount) :
    Fair (t.cd i) (r.next s t i e) := by
  have hparty := party_of_allocated (t := t) ha
  obtain ⟨h1, h2, h3⟩ : (t.cd i).cdid = (s.cd i).cdid ∧ (t.cd i).aiType = (s.cd i).aiType ∧
      (t.cd i).aiPtr = (s.cd i).aiPtr := by simpa only [holder, Prod.mk.injEq] using hh
  have hat : (t.cd i).Allocated := by
    rw [Call.Allocated, h1]
    exact ha
  by_cases hb : (s.cd i).aiType = .broadcast
  · have hbt : (t.cd i).aiType = .broadcast := h2.trans hb
    have hown : (r.next s t i e).owners = ∅ := by
      rw [owners_next, owner, if_neg fun h => h.2 hbt, (hf.nobody ha hb).1, Finset.union_empty]
    refine ⟨?_, fun hn => absurd hat hn, fun _ _ => ⟨hown, hp hbt⟩, fun _ hn => absurd hbt hn⟩
    rw [hown, Finset.card_empty]
    exact Nat.zero_le 1
  · have hbt : (t.cd i).aiType ≠ .broadcast := h2.trans_ne hb
    obtain ⟨hone, hsub⟩ := hf.somebody ha hb
    have hown : (r.next s t i e).owners = {((t.cd i).aiType, (t.cd i).aiPtr)} := by
      rw [owners_next, owner, if_pos ⟨hat, hbt⟩, hone, h2, h3, Finset.union_self]
    have hsome := ho.told_somebody (by rw [hparty]; exact hb) (by rw [hparty]; exact hsub)
    refine ⟨?_, fun hn => absurd hat hn, fun _ h => absurd h hbt, fun _ _ => ⟨hown, ?_⟩⟩
    · rw [hown, Finset.card_singleton]
    · rw [hparty] at hsome
      rw [h2, h3]
      exact hsome

/-- The call is over. -/
theorem Orderly.fair_ended (hf : Fair (s.cd i) r) (hn : ¬ (t.cd i).Allocated)
    (hsub : (r.next s t i e).told ⊆ (r.next s t i e).parted) : Fair (t.cd i) (r.next s t i e) := by
  refine ⟨?_, fun _ => hsub, fun h => absurd h hn, fun h => absurd h hn⟩
  rw [owners_next, owner, if_neg fun h => hn h.1, Finset.union_empty]
  exact hf.one

/-- The call becomes an application's own, and ends perhaps. -/
theorem Orderly.fair_adopted (ho : Orderly r s t i e) (ha : (s.cd i).Allocated)
    (hf : Fair (s.cd i) r) {k : AiType} {x : Nat} (hk : k ≠ .broadcast)
    (h : Adopted i k x s t) : Fair (t.cd i) (r.next s t i e) := by
  have hparty := party_of_allocated (t := t) ha
  -- all others are reached
  have hothers : (r.next s t i e).told.erase (k, x) ⊆ (r.next s t i e).parted := by
    obtain ⟨cause, done, hd, hmem⟩ := h.told
    intro y hy
    obtain ⟨hne, hy⟩ := Finset.mem_erase.mp hy
    refine mem_parted_next hy (ho.not_lost hy) (mem_added hd hmem) ?_
    rw [hparty]
    simpa [reaches, holder] using hne
  rcases h.after with hh | ⟨hn, cause, done, hd, hmem⟩
  · obtain ⟨h1, h2, h3⟩ : (t.cd i).cdid = (s.cd i).cdid ∧ (t.cd i).aiType = k ∧
        (t.cd i).aiPtr = x := by simpa only [holder, Prod.mk.injEq] using hh
    have hat : (t.cd i).Allocated := by
      rw [Call.Allocated, h1]
      exact ha
    have hbt : (t.cd i).aiType ≠ .broadcast := h2.trans_ne hk
    have hown : (r.next s t i e).owners = {(k, x)} := by
      rw [owners_next, owner, if_pos ⟨hat, hbt⟩, (hf.nobody ha h.before).1, Finset.empty_union, h2,
        h3]
    refine ⟨?_, fun hn => absurd hat hn, fun _ h => absurd h hbt, fun _ _ => ?_⟩
    · rw [hown, Finset.card_singleton]
    · rw [h2, h3]
      exact ⟨hown, hothers⟩
  · refine Orderly.fair_ended hf hn ?_
    intro y hy
    by_cases hyx : y = (k, x)
    · refine mem_parted_next hy (ho.not_lost hy) (mem_added hd hmem) ?_
      rw [hparty, hyx]
      simp [reaches, holder]
    · exact hothers (Finset.mem_erase.mpr ⟨hyx, hy⟩)

theorem ne_broadcast_of_by {a : Action n} {k : AiType} {x : Nat} (h : By a k x) :
    k ≠ .broadcast := by
  rintro rfl
  cases a <;> exact h

/-- **A step leaves the record of a call as it should be.** -/
theorem Orderly.fair_of_fate (ho : Orderly r s t i e) (ha : (s.cd i).Allocated)
    (hf : Fair (s.cd i) r) (h : Fate e.action i s t) : Fair (t.cd i) (r.next s t i e) := by
  have hparty := party_of_allocated (t := t) ha
  have hat : ∀ {t : Cntl n}, holder (t.cd i) = holder (s.cd i) → (t.cd i).Allocated := by
    intro t hh
    have h1 : (t.cd i).cdid = (s.cd i).cdid := congrArg Prod.fst hh
    rw [Call.Allocated, h1]
    exact ha
  have haiType : holder (t.cd i) = holder (s.cd i) → (t.cd i).aiType = (s.cd i).aiType :=
    fun hh => congrArg (fun p : Nat × AiType × Nat => p.2.1) hh
  cases h with
  | stays h =>
    refine ho.fair_same ha hf h.holder fun hb => ?_
    have hbs : (s.cd i).aiType = .broadcast := (haiType h.holder).symm.trans hb
    refine ho.card_pending (by rw [hparty]; exact hbs) (hat h.holder) fun _ => ?_
    rw [h.count]
    exact (hf.nobody ha hbs).2
  | offers hd ht hh hc =>
    refine ho.fair_same ha hf hh fun hb => ?_
    have hbs : (s.cd i).aiType = .broadcast := (haiType hh).symm.trans hb
    refine ho.card_pending (by rw [hparty]; exact hbs) (hat hh) fun hof => ?_
    obtain ⟨p, buf, broadcast, hd⟩ := hd
    obtain ⟨done, hdone, hmem⟩ := ht
    have htrue : offered s t i e.action = true := by
      rw [hd, offered, hparty]
      exact decide_eq_true (mem_added hdone hmem)
    rw [htrue] at hof
    cases hof
  | declines hi hout hh h2 hc =>
    refine ho.fair_same ha hf hh fun hb => ?_
    have hbs : (s.cd i).aiType = .broadcast := (haiType hh).symm.trans hb
    obtain ⟨k, x, hi⟩ := hi.resolve_right fun hne => hne hbs
    obtain ⟨hof, hrep, -⟩ := quiet_of_ignores (t := t) hi
    have hsub := pending_of_not_offered (r := r) (t := t) hof ho.replays
    rw [mem_ignorer_of_ignores hi] at hsub
    have hcard := (hf.nobody ha hbs).2
    refine le_trans (Finset.card_le_card hsub) ?_
    rcases ho.ignores k x hi hbs with hmem | hnone
    · rw [Finset.sdiff_singleton_eq_erase, Finset.card_erase_of_mem hmem]
      omega
    · rw [hnone, Finset.empty_sdiff, Finset.card_empty]
      exact Nat.zero_le _
  | ends h => exact Orderly.fair_ended hf h.free (ho.told_ended ha hf h)
  | adopts k x hb h => exact ho.fair_adopted ha hf (ne_broadcast_of_by hb) h

theorem Orderly.fair_new (ho : Orderly {} s t i e) (hn : ¬ (s.cd i).Allocated)
    (ha : (t.cd i).Allocated) : Fair (t.cd i) (Notes.next {} s t i e) := by
  have hparty : party s t i = holder (t.cd i) := if_neg hn
  by_cases hb : (t.cd i).aiType = .broadcast
  · have hown : (Notes.next {} s t i e).owners = ∅ := by
      rw [owners_next, owner, if_neg fun h => h.2 hb, Finset.union_empty]
    refine ⟨?_, fun hn => absurd ha hn, fun _ _ => ⟨hown, ?_⟩, fun _ h => absurd hb h⟩
    · rw [hown, Finset.card_empty]
      exact Nat.zero_le 1
    · exact ho.card_pending (by rw [hparty]; exact hb) ha fun _ => Nat.zero_le _
  · have hown : (Notes.next {} s t i e).owners = {((t.cd i).aiType, (t.cd i).aiPtr)} := by
      rw [owners_next, owner, if_pos ⟨ha, hb⟩, Finset.empty_union]
    have hsome := ho.told_somebody (by rw [hparty]; exact hb) (Finset.erase_subset _ _)
    refine ⟨?_, fun hn => absurd ha hn, fun _ h => absurd h hb, fun _ _ => ⟨hown, ?_⟩⟩
    · rw [hown, Finset.card_singleton]
    · rw [hparty] at hsome
      exact hsome

/-! ## Runs -/

theorem allocated_of_ignores {a : Action n} {k : AiType} {x : Nat} (h : Ignores s i a k x) :
    (s.cd i).Allocated := by
  rw [Ignores.eq_def] at h
  split at h
  · exact allocated_of_cdByCdid h.2.1
  · exact allocated_of_cdByCdid h.2.1
  · exact h.elim

theorem allocated_of_replayed {a : Action n} (h : replayed s i a = true) : (s.cd i).Allocated := by
  rw [replayed.eq_def] at h
  split at h
  · exact allocated_of_cdByCdid (of_decide_eq_true h).1
  · cases h

theorem Proper.orderly {t : Cntl n} (hp : Proper w e (w.next t e)) (hf : Fits w.cntl t e)
    (ha : (w.cntl.cd i).Allocated ∨ (t.cd i).Allocated) : Orderly (w.before i) w.cntl t i e := by
  have hnotes : ((w.next t e).notes i) = (w.before i).next w.cntl t i e := if_pos ha
  have hbefore : (w.cntl.cd i).Allocated → w.before i = w.notes i := fun h => if_pos h
  refine ⟨hf.2.1 i, hf.2.2 i, hp.offers i, ?_, ?_, ?_⟩
  · intro k x hi hb
    rw [hbefore (allocated_of_ignores hi)]
    exact hp.ignores i k x hi hb
  · intro hr
    rw [hbefore (allocated_of_replayed hr)]
    exact hp.replays i hr
  · rw [← hnotes]
    exact hp.lost i

/-- One step. -/
theorem fair_step (hg : Good w.cntl.line) (hw : ∀ i, Fair (w.cntl.cd i) (w.notes i))
    (hs : w.step env e = some w') (hp : Proper w e w') (i : Fin n) :
    Fair (w'.cntl.cd i) (w'.notes i) := by
  obtain ⟨t, ht, hf, rfl⟩ := step_eq_some hs
  obtain ⟨hen, rfl, -⟩ := Cntl.step_eq_some ht
  have hnotes : ((w.cntl.cd i).Allocated ∨ ((w.cntl.perform env e.action).cd i).Allocated) →
      ((w.next (w.cntl.perform env e.action) e).notes i)
        = (w.before i).next w.cntl (w.cntl.perform env e.action) i e := fun h => if_pos h
  by_cases ha : (w.cntl.cd i).Allocated
  · have hna : ∀ nt ptp pr, e.action ≠ .attach nt ptp pr := by
      intro nt ptp pr hat
      rw [hat] at hen
      have hc : w.cntl.connected = true := hg.live i ha
      rw [show w.cntl.connected = false from hen] at hc
      cases hc
    have hbefore : w.before i = w.notes i := if_pos ha
    have ho := hp.orderly hf (.inl ha)
    rw [hnotes (.inl ha)]
    rw [hbefore] at ho ⊢
    exact ho.fair_of_fate ha (hw i) (fate_perform env hg.tidy hen hna ha)
  · by_cases hat : ((w.cntl.perform env e.action).cd i).Allocated
    · have hbefore : w.before i = {} := if_neg ha
      have ho := hp.orderly hf (.inr hat)
      rw [hnotes (.inr hat)]
      rw [hbefore] at ho ⊢
      exact ho.fair_new ha hat
    · have hkept : (w.next (w.cntl.perform env e.action) e).notes i = w.notes i :=
        if_neg fun h => h.elim ha hat
      rw [hkept]
      exact ⟨(hw i).one, fun _ => (hw i).ended ha, fun h => absurd h hat, fun h => absurd h hat⟩

/-- Every run. -/
theorem Reached.fair (h : Reached env Proper w) (i : Fin n) : Fair (w.cntl.cd i) (w.notes i) := by
  induction h generalizing i with
  | start unit channelEnd cdidCount nt ptp pr =>
    exact ⟨Nat.zero_le 1, fun _ => Finset.empty_subset _, fun h => absurd rfl h,
      fun h => absurd rfl h⟩
  | step h hs hp ih => exact fair_step h.reach.good ih hs hp i

/-- An application cannot use a call that belongs to another one. -/
theorem perform_of_not_owns (env : Env) {cdid : Nat} (hi : s.cdByCdid cdid = some i)
    {k : AiType} {sc : Nat} (ho : ¬ s.Owns i k sc) :
    (k = .i4b → ∀ r, s.perform env (.i4b sc cdid r) = s) ∧
      (k = .capi → ∀ r, s.perform env (.capi sc cdid r) = s) := by
  refine ⟨?_, ?_⟩
  · rintro rfl r
    rw [perform, i4bIoctl.eq_def, hi]
    exact if_neg ho
  · rintro rfl r
    rw [perform, capiWrite.eq_def, hi]
    exact if_neg ho

/-- The last application that ignores a call is the last one that was to answer. -/
theorem told_subset_ignored (hf : Fair (w.cntl.cd i) (w.notes i)) (hs : w.step env e = some w')
    (hp : Proper w e w') (hb : (w.cntl.cd i).aiType = .broadcast) {k : AiType} {x : Nat}
    (hi : Ignores w.cntl i e.action k x) (hn : ¬ (w'.cntl.cd i).Allocated) :
    (w'.notes i).told ⊆ (w'.notes i).ignored := by
  obtain ⟨t, ht, -, rfl⟩ := step_eq_some hs
  obtain ⟨-, rfl, -⟩ := Cntl.step_eq_some ht
  have ha := allocated_of_ignores hi
  obtain ⟨hof, hrep, -⟩ := quiet_of_ignores (t := w.cntl.perform env e.action) hi
  -- the call ended, so at most one answer was still counted
  have hone : (w.notes i).pending.card ≤ 1 := by
    refine le_trans (hf.nobody ha hb).2 ?_
    rcases refuses_perform env hi with ⟨hlt, -⟩ | h
    · omega
    · have h1 : ((w.cntl.perform env e.action).cd i).cdid = (w.cntl.cd i).cdid :=
        congrArg Prod.fst h.holder
      refine absurd ?_ hn
      intro hfree
      exact ha (h1.symm.trans hfree)
  have hnotes : (w.next (w.cntl.perform env e.action) e).notes i
      = (w.notes i).next w.cntl (w.cntl.perform env e.action) i e := by
    have hbefore : w.before i = w.notes i := if_pos ha
    rw [← hbefore]
    exact if_pos (.inl ha)
  rw [hnotes]
  intro y hy
  have hyt : y ∈ (w.notes i).told := by
    obtain ⟨hy | ⟨h, -⟩, -⟩ := mem_told_next.mp hy
    · exact hy
    · rw [hof, hrep] at h
      cases h
  rw [Notes.next]
  dsimp only
  rw [hof, if_neg Bool.false_ne_true, mem_ignorer_of_ignores hi, Finset.mem_union]
  by_cases hyi : y ∈ (w.notes i).ignored
  · exact .inl hyi
  · have hyp : y ∈ (w.notes i).pending := Finset.mem_sdiff.mpr ⟨hyt, hyi⟩
    rcases hp.ignores i k x hi hb with hx | hnone
    · exact .inr (Finset.mem_singleton.mpr (Finset.card_le_one.mp hone y hyp (k, x) hx))
    · rw [hnone] at hyp
      exact absurd hyp (Finset.notMem_empty y)

/-- **A call has one owner at most; all others are told that it is over; what they do then has no
effect; and it does not end by being ignored before all have ignored it.** -/
theorem Reached.broadcast (h : Reached env Proper w) (i : Fin n) :
    (w.notes i).owners.card ≤ 1 ∧
    (∀ x ∈ (w.notes i).owners,
      (∀ y ∈ (w.notes i).told, y ≠ x → y ∈ (w.notes i).parted) ∧
      ∀ cdid sc, w.cntl.cdByCdid cdid = some i →
        ((.i4b, sc) ≠ x → ∀ r, w.cntl.perform env (.i4b sc cdid r) = w.cntl) ∧
        ((.capi, sc) ≠ x → ∀ r, w.cntl.perform env (.capi sc cdid r) = w.cntl)) ∧
    ∀ e w', w.step env e = some w' → Proper w e w' → (w.cntl.cd i).aiType = .broadcast →
      (∃ k x, Ignores w.cntl i e.action k x) → ¬ (w'.cntl.cd i).Allocated →
        (w'.notes i).told ⊆ (w'.notes i).ignored := by
  have hf := h.fair i
  refine ⟨hf.one, ?_, ?_⟩
  · intro x hx
    have hsome : (w.cntl.cd i).Allocated → (w.cntl.cd i).aiType ≠ .broadcast ∧
        x = ((w.cntl.cd i).aiType, (w.cntl.cd i).aiPtr) := by
      intro ha
      have hb : (w.cntl.cd i).aiType ≠ .broadcast := by
        intro hb
        rw [(hf.nobody ha hb).1] at hx
        exact absurd hx (Finset.notMem_empty x)
      rw [(hf.somebody ha hb).1] at hx
      exact ⟨hb, Finset.mem_singleton.mp hx⟩
    refine ⟨?_, ?_⟩
    · intro y hy hne
      by_cases ha : (w.cntl.cd i).Allocated
      · obtain ⟨hb, rfl⟩ := hsome ha
        exact (hf.somebody ha hb).2 (Finset.mem_erase.mpr ⟨hne, hy⟩)
      · exact hf.ended ha hy
    · intro cdid sc hi
      obtain ⟨hb, rfl⟩ := hsome (allocated_of_cdByCdid hi)
      have hown : ∀ k, (k, sc) ≠ ((w.cntl.cd i).aiType, (w.cntl.cd i).aiPtr) →
          ¬ w.cntl.Owns i k sc := by
        rintro k hne (hbr | ⟨h1, h2⟩)
        · exact hb hbr
        · exact hne (by rw [h1, h2])
      exact ⟨fun hne => (perform_of_not_owns env hi (hown _ hne)).1 rfl,
        fun hne => (perform_of_not_owns env hi (hown _ hne)).2 rfl⟩
  · rintro e w' hs hp hb ⟨k, x, hi⟩ hn
    exact told_subset_ignored hf hs hp hb hi hn

/-! ## Two applications -/

/-- A call comes in, and two applications get the connect indication. -/
def ring : Event 1 := { action := completeSetup, took := {(.i4b, 1), (.i4b, 2)} }

/-- The application ignores the first call. -/
def ignore (sc : Nat) : Event 1 := { action := .i4b sc 64 (.connectResp .dontCare 0 0 0 0) }

/-- The application accepts the first call. -/
def accept (sc : Nat) : Event 1 := { action := .i4b sc 64 (.connectResp .accept 0 0 0 0) }

/-- The controller before the call. -/
def idle : World 1 := ⟨fresh false true, fun _ => {}⟩

theorem reached_idle (env : Env) (ok : World 1 → Event 1 → World 1 → Prop) : Reached env ok idle :=
  .start 0 3 0 false true false

theorem proper_ring (w : World 1) : Proper idle ring w where
  ignores _ _ _ hi := hi.elim
  offers i _ _ := by
    have hbefore : idle.before i = {} := if_neg fun h => h rfl
    rw [hbefore]
    exact ⟨Finset.empty_subset _, by decide⟩
  replays _ hr := nomatch hr
  lost _ := Finset.disjoint_empty_right _

theorem proper_accept (v w : World 1) (sc : Nat) : Proper v (accept sc) w where
  ignores _ k _ hi := by cases k <;> exact hi.elim
  offers _ ho := nomatch ho
  replays _ hr := nomatch hr
  lost _ := Finset.disjoint_empty_right _

/-- One of two applications accepts the call; the other one is told, and can do nothing more. -/
theorem broadcast_accepted :
    ∃ w : World 1, (w.cntl.cd 0).Allocated ∧ (.i4b, 1) ∈ (w.notes 0).owners ∧
      (.i4b, 2) ∈ (w.notes 0).parted ∧
      ∀ r, w.cntl.perform plain (.i4b 2 64 r) = w.cntl := by
  have h : ((idle.step plain ring).bind fun v => (v.step plain (accept 1)).bind fun w =>
      some (decide ((w.cntl.cd 0).Allocated ∧ w.cntl.cdByCdid 64 = some 0 ∧
        (.i4b, 1) ∈ (w.notes 0).owners ∧ (.i4b, 2) ∈ (w.notes 0).told))) = some true := by
    decide
  obtain ⟨v, hv, h⟩ := Option.bind_eq_some_iff.mp h
  obtain ⟨w, hw, h⟩ := Option.bind_eq_some_iff.mp h
  obtain ⟨ha, hi, hown, ht⟩ := of_decide_eq_true (Option.some.inj h)
  have hreach : Reached plain Proper w :=
    ((reached_idle _ _).step hv (proper_ring v)).step hw (proper_accept v w 1)
  obtain ⟨-, h1, -⟩ := hreach.broadcast 0
  obtain ⟨hothers, hnone⟩ := h1 _ hown
  exact ⟨w, ha, hown, hothers _ ht (by decide), (hnone 64 2 hi).1 (by decide)⟩

/-- **One of two applications ignores the call twice, and it ends, though the other one did not
answer.** -/
theorem ignored_twice :
    ∃ w w' : World 1, Reached plain (fun _ _ _ => True) w ∧ w.step plain (ignore 1) = some w' ∧
      (w.cntl.cd 0).aiType = .broadcast ∧ Ignores w.cntl 0 (ignore 1).action .i4b 1 ∧
      ¬ (w'.cntl.cd 0).Allocated ∧ (.i4b, 2) ∈ (w'.notes 0).told ∧
      (.i4b, 2) ∉ (w'.notes 0).ignored := by
  have h : ((idle.step plain ring).bind fun v => (v.step plain (ignore 1)).bind fun w =>
      (w.step plain (ignore 1)).bind fun w' =>
      some (decide ((w.cntl.cd 0).aiType = .broadcast ∧ (w.cntl.cdByCdid 64 = some 0 ∧
        w.cntl.Owns 0 .i4b 1) ∧ ¬ (w'.cntl.cd 0).Allocated ∧ (.i4b, 2) ∈ (w'.notes 0).told ∧
        (.i4b, 2) ∉ (w'.notes 0).ignored))) = some true := by decide +kernel
  obtain ⟨v, hv, h⟩ := Option.bind_eq_some_iff.mp h
  obtain ⟨w, hw, h⟩ := Option.bind_eq_some_iff.mp h
  obtain ⟨w', hw', h⟩ := Option.bind_eq_some_iff.mp h
  obtain ⟨hb, ⟨hi, hown⟩, hn, ht, hni⟩ := of_decide_eq_true (Option.some.inj h)
  exact ⟨w, w', ((reached_idle _ _).step hv trivial).step hw trivial, hw', hb, ⟨rfl, hi, hown⟩, hn,
    ht, hni⟩

end Broadcast
end Isdn4bsd
