import Isdn4bsd.L3.Actions

/-!
# Call references

A message names its call by the pipe it came on and a call reference.  The references of outgoing
calls are taken from the ids of the descriptors, and those of incoming calls are chosen by the other
end, on each pipe separately.

* `Line.Refs`: the references of two calls are different, or both calls are incoming and on
  different pipes, none of which is the adapter.
* `Refs.matches_unique`: then at most one call matches in `cd_by_unitcr`, and the order in which the
  descriptors are looked through is of no importance.
* `Reach.lookup_unambiguous`: **this is so in every reachable state**.

## Why they do not collide

An outgoing call has a reference from 1 to `0x7e`, below the flag, since `get_cdid` counts up to `N_cdid_end`
and takes no id that is in use.  An incoming call has the flag: the reference in a message is kept with the
flag inverted, from the point of view of this end.  So only calls of one direction can be confused.

Two outgoing calls have different ids.  An incoming call is allocated when a SETUP comes for which
`cd_by_unitcr` has found nothing, so there was no call with its reference on its pipe, and none on the
adapter, which counts for all pipes.  And incoming calls stay on their pipe: only an outgoing call moves,
from the adapter to the pipe of the terminal that answers it (`Keeps`).
-/

set_option autoImplicit false

namespace Isdn4bsd
namespace L3

open L2 (PipeNo adapter)

/-! ## Ids -/

theorem makeCdid_eq_add (unit ref : Nat) :
    makeCdid unit ref = maxControllers * ref + unit % maxControllers := by
  have hlt : unit % maxControllers < 2 ^ 6 := Nat.mod_lt unit (by decide : 0 < maxControllers)
  rw [makeCdid, Nat.or_comm, Nat.mul_comm]
  exact (Nat.two_pow_add_eq_or_of_lt hlt ref).symm

theorem cdid2Callreference_makeCdid (unit ref : Nat) :
    cdid2Callreference (makeCdid unit ref) = ref := by
  have hlt : unit % maxControllers < maxControllers := Nat.mod_lt _ (by decide)
  have hpos : 0 < maxControllers := by decide
  rw [cdid2Callreference, makeCdid_eq_add, Nat.mul_add_div hpos, Nat.div_eq_of_lt hlt, Nat.add_zero]

theorem flag_clear_of_lt : ∀ r < 0x80, r &&& 0x80 = 0 := by decide

namespace Line

variable {n : Nat} {b : Permit}

/-! ## What a change leaves of a call -/

/-- The descriptor is free afterwards, or what the call is known by is as before.  Only outgoing
calls change their pipe. -/
structure Keeps (c c' : Call) : Prop where
  cdid : c'.cdid = c.cdid
  cr : c'.cr = c.cr
  dirIncoming : c'.dirIncoming = c.dirIncoming
  pipe : c'.pipe = c.pipe ∨ c.dirIncoming = false

theorem Keeps.rfl {c : Call} : Keeps c c := ⟨Eq.refl _, Eq.refl _, Eq.refl _, .inl (Eq.refl _)⟩

theorem Keeps.allocated {c c' : Call} (h : Keeps c c') (ha : c'.Allocated) : c.Allocated :=
  h.cdid.symm.trans_ne ha

theorem Change.keeps {l : Line n} {c c' : Call} (h : Change b l c c') (ha : c'.Allocated) :
    Keeps c c' := by
  cases h with
  | free last causeIn causeOut ha' => exact absurd (Eq.refl _) ha
  | move p ha' hd => exact ⟨Eq.refl _, Eq.refl _, Eq.refl _, .inr hd⟩
  | _ => exact ⟨Eq.refl _, Eq.refl _, Eq.refl _, .inl (Eq.refl _)⟩

theorem Step.keeps {l l' : Line n} (h : Step b l l') {j : Fin n} (ha : (l'.cd j).Allocated) :
    Keeps (l.cd j) (l'.cd j) := by
  rcases h.change with hcd | ⟨i, hc, hne⟩
  · rw [hcd]
    exact .rfl
  · by_cases hj : j = i
    · subst hj
      exact hc.keeps ha
    · rw [hne j hj]
      exact .rfl

/-! ## The invariant -/

/-- The references of the calls. -/
structure Refs (l : Line n) : Prop where
  /-- The reference in an id is one of `1 .. N_cdid_end - 1`. -/
  range : ∀ i, (l.cd i).Allocated →
    ∃ ref, 1 ≤ ref ∧ ref < l.cdidEnd ∧ (l.cd i).cdid = makeCdid l.unit ref
  inj : ∀ i j, (l.cd i).Allocated → (l.cd i).cdid = (l.cd j).cdid → i = j
  /-- An outgoing call is known by the reference in its id. -/
  outgoing : ∀ i, (l.cd i).Allocated → (l.cd i).dirIncoming = false →
    (l.cd i).cr = cdid2Callreference (l.cd i).cdid
  /-- An incoming call is known by a reference of the other end. -/
  incoming : ∀ i, (l.cd i).Allocated → (l.cd i).dirIncoming = true → (l.cd i).cr &&& 0x80 ≠ 0
  /-- Incoming calls stay on the pipe that the SETUP came on. -/
  pipe : ∀ i, (l.cd i).Allocated → (l.cd i).dirIncoming = true →
    ((l.cd i).pipe = some adapter ↔ l.pointToPoint = true ∨ l.ntMode = false)
  /-- On one pipe, the other end uses a reference for one call only. -/
  apart : ∀ i j, (l.cd i).Allocated → (l.cd j).Allocated → (l.cd i).dirIncoming = true →
    (l.cd j).dirIncoming = true → (l.cd i).cr = (l.cd j).cr → (l.cd i).pipe = (l.cd j).pipe → i = j

theorem Refs.of_keeps {l l' : Line n} (hr : l.Refs) (hs : SameSetting l l')
    (hk : ∀ j, (l'.cd j).Allocated → Keeps (l.cd j) (l'.cd j)) : l'.Refs where
  range := by
    intro i hi
    obtain ⟨ref, h1, h2, h3⟩ := hr.range i ((hk i hi).allocated hi)
    refine ⟨ref, h1, ?_, ?_⟩
    · rw [hs.cdidEnd]
      exact h2
    · rw [(hk i hi).cdid, hs.unit]
      exact h3
  inj := by
    intro i j hi hij
    have hj : (l'.cd j).Allocated := hij.symm.trans_ne hi
    rw [(hk i hi).cdid, (hk j hj).cdid] at hij
    exact hr.inj i j ((hk i hi).allocated hi) hij
  outgoing := by
    intro i hi hd
    rw [(hk i hi).cr, (hk i hi).cdid]
    exact hr.outgoing i ((hk i hi).allocated hi) ((hk i hi).dirIncoming ▸ hd)
  incoming := by
    intro i hi hd
    rw [(hk i hi).cr]
    exact hr.incoming i ((hk i hi).allocated hi) ((hk i hi).dirIncoming ▸ hd)
  pipe := by
    intro i hi hd
    have hd' : (l.cd i).dirIncoming = true := (hk i hi).dirIncoming ▸ hd
    have hp := (hk i hi).pipe.resolve_right (by rw [hd']; decide)
    rw [hp, hs.pointToPoint, hs.ntMode]
    exact hr.pipe i ((hk i hi).allocated hi) hd'
  apart := by
    intro i j hi hj hdi hdj hcr hp
    have hdi' : (l.cd i).dirIncoming = true := (hk i hi).dirIncoming ▸ hdi
    have hdj' : (l.cd j).dirIncoming = true := (hk j hj).dirIncoming ▸ hdj
    have hpi := (hk i hi).pipe.resolve_right (by rw [hdi']; decide)
    have hpj := (hk j hj).pipe.resolve_right (by rw [hdj']; decide)
    rw [(hk i hi).cr, (hk j hj).cr] at hcr
    rw [hpi, hpj] at hp
    exact hr.apart i j ((hk i hi).allocated hi) ((hk j hj).allocated hj) hdi' hdj' hcr hp

theorem Step.refs {l l' : Line n} (h : Step b l l') (hr : l.Refs) : l'.Refs :=
  hr.of_keeps h.sameSetting fun _ => h.keeps

theorem refs_attach (l : Line n) (nt ptp : Bool) : (l.attach nt ptp).Refs where
  range := fun _ h => absurd rfl h
  inj := fun _ _ h => absurd rfl h
  outgoing := fun _ h => absurd rfl h
  incoming := fun _ h => absurd rfl h
  pipe := fun _ h => absurd rfl h
  apart := fun _ _ h => absurd rfl h

theorem refs_detach {l : Line n} (h : l.Refs) : l.detach.Refs :=
  ⟨h.range, h.inj, h.outgoing, h.incoming, h.pipe, h.apart⟩

/-- A new call has an id of its own, and is not confused with the calls there are. -/
theorem Refs.allocate {l : Line n} (hr : l.Refs) (i : Fin n) (cdid : Nat) (p : PipeNo)
    (paused : Bool) (cr : Nat) (incoming : Bool) (hc : l.Fresh cdid)
    (hout : incoming = false → cr = cdid2Callreference cdid)
    (hin : incoming = true → cr &&& 0x80 ≠ 0 ∧
      (p = adapter ↔ l.pointToPoint = true ∨ l.ntMode = false) ∧ ∀ j, ¬ l.Matches p cr j) :
    (l.allocate i cdid p paused cr incoming).Refs := by
  have hself : (l.allocate i cdid p paused cr incoming).cd i = newCall cdid p cr incoming :=
    set_cd_self _ i _
  have hother : ∀ j, j ≠ i → (l.allocate i cdid p paused cr incoming).cd j = l.cd j := by
    intro j hj
    rw [Line.allocate, set_cd_of_ne _ _ hj, join_cd]
  have hs : SameSetting l (l.allocate i cdid p paused cr incoming) :=
    (sameSetting_join l p paused).trans (sameSetting_set _ i _)
  generalize l.allocate i cdid p paused cr incoming = l' at hself hother hs
  have hnew : ∀ j, (l.cd j).Allocated → incoming = true → (l.cd j).cr = cr →
      (l.cd j).pipe ≠ some p := by
    intro j ha hinc hcr hp
    exact (hin hinc).2.2 j ⟨ha, hcr, .inr hp⟩
  constructor
  · intro j hj
    rw [hs.cdidEnd, hs.unit]
    by_cases hji : j = i
    · subst hji
      rw [hself]
      exact hc.range
    · rw [hother j hji] at hj ⊢
      exact hr.range j hj
  · intro j k hj hjk
    by_cases hji : j = i
    · subst hji
      by_cases hki : k = j
      · exact hki.symm
      · rw [hself, hother k hki] at hjk
        exact absurd hjk.symm (hc.unused k)
    · by_cases hki : k = i
      · subst hki
        rw [hself, hother j hji] at hjk
        exact absurd hjk (hc.unused j)
      · rw [hother j hji] at hj hjk
        rw [hother k hki] at hjk
        exact hr.inj j k hj hjk
  · intro j hj hd
    by_cases hji : j = i
    · subst hji
      rw [hself] at hd ⊢
      exact hout hd
    · rw [hother j hji] at hj hd ⊢
      exact hr.outgoing j hj hd
  · intro j hj hd
    by_cases hji : j = i
    · subst hji
      rw [hself] at hd ⊢
      exact (hin hd).1
    · rw [hother j hji] at hj hd ⊢
      exact hr.incoming j hj hd
  · intro j hj hd
    rw [hs.pointToPoint, hs.ntMode]
    by_cases hji : j = i
    · subst hji
      rw [hself] at hd ⊢
      rw [newCall, Option.some_inj]
      exact (hin hd).2.1
    · rw [hother j hji] at hj hd ⊢
      exact hr.pipe j hj hd
  · intro j k hj hk hdj hdk hcr hp
    by_cases hji : j = i
    · subst hji
      by_cases hki : k = j
      · exact hki.symm
      · rw [hself] at hdj hcr hp
        rw [hother k hki] at hk hdk hcr hp
        exact absurd hp.symm (hnew k hk hdj hcr.symm)
    · by_cases hki : k = i
      · subst hki
        rw [hself] at hdk hcr hp
        rw [hother j hji] at hj hdj hcr hp
        exact absurd hp (hnew j hj hdk hcr)
      · rw [hother j hji] at hj hdj hcr hp
        rw [hother k hki] at hk hdk hcr hp
        exact hr.apart j k hj hk hdj hdk hcr hp

theorem Begin.refs {l l' : Line n} (h : Begin l l') (hr : l.Refs) : l'.Refs := by
  cases h with
  | none => exact hr
  | clear i hi =>
    refine hr.of_keeps (sameSetting_set l i _) ?_
    intro j hj
    by_cases hji : j = i
    · subst hji
      rw [set_cd_self] at hj
      exact absurd rfl hj
    · rw [set_cd_of_ne l _ hji]
      exact .rfl
  | dial i cdid paused hl hi hc => exact hr.allocate i cdid _ _ _ _ hc (fun _ => rfl) nofun
  | ring i cdid p paused cr hl hi hc hcr hp hm =>
    exact hr.allocate i cdid _ _ _ _ hc nofun (fun _ => ⟨hcr, hp, hm⟩)

/-! ## What follows for the lookup -/

/-- The reference of an outgoing call, and its range. -/
theorem Refs.outgoing_range {l : Line n} (hr : l.Refs) {i : Fin n} (ha : (l.cd i).Allocated)
    (hd : (l.cd i).dirIncoming = false) : 1 ≤ (l.cd i).cr ∧ (l.cd i).cr < l.cdidEnd := by
  obtain ⟨ref, h1, h2, hid⟩ := hr.range i ha
  rw [hr.outgoing i ha hd, hid, cdid2Callreference_makeCdid]
  exact ⟨h1, h2⟩

/-- Two calls with one reference have one direction: the flag tells them apart. -/
theorem Refs.dirIncoming_eq {l : Line n} (hr : l.Refs) (hend : l.cdidEnd ≤ 0x80) {i j : Fin n}
    (hi : (l.cd i).Allocated) (hj : (l.cd j).Allocated) (hcr : (l.cd i).cr = (l.cd j).cr) :
    (l.cd i).dirIncoming = (l.cd j).dirIncoming := by
  have hout : ∀ k, (l.cd k).Allocated → (l.cd k).dirIncoming = false → (l.cd k).cr &&& 0x80 = 0 :=
    fun k hk hd => flag_clear_of_lt _ ((hr.outgoing_range hk hd).2.trans_le hend)
  cases hdi : (l.cd i).dirIncoming with
  | false =>
    cases hdj : (l.cd j).dirIncoming with
    | false => rfl
    | true => exact absurd (hcr ▸ hout i hi hdi) (hr.incoming j hj hdj)
  | true =>
    cases hdj : (l.cd j).dirIncoming with
    | false => exact absurd (hcr ▸ hout j hj hdj) (hr.incoming i hi hdi)
    | true => rfl

/-- Two calls with one reference, which are on one pipe if they are incoming, are one call. -/
theorem Refs.eq_of_cr {l : Line n} (hr : l.Refs) (hend : l.cdidEnd ≤ 0x80) {i j : Fin n}
    (hi : (l.cd i).Allocated) (hj : (l.cd j).Allocated) (hcr : (l.cd i).cr = (l.cd j).cr)
    (hp : (l.cd i).dirIncoming = true → (l.cd j).dirIncoming = true →
      (l.cd i).pipe = (l.cd j).pipe) : i = j := by
  have hdir := hr.dirIncoming_eq hend hi hj hcr
  cases hdi : (l.cd i).dirIncoming with
  | false =>
    -- the ids are determined by the references
    rw [hdi] at hdir
    obtain ⟨ri, -, -, hidi⟩ := hr.range i hi
    obtain ⟨rj, -, -, hidj⟩ := hr.range j hj
    rw [hr.outgoing i hi hdi, hr.outgoing j hj hdir.symm, hidi, hidj,
      cdid2Callreference_makeCdid, cdid2Callreference_makeCdid] at hcr
    exact hr.inj i j hi (by rw [hidi, hidj, hcr])
  | true =>
    rw [hdi] at hdir
    exact hr.apart i j hi hj hdi hdir.symm hcr (hp hdi hdir.symm)

/-- **At most one call matches.** -/
theorem Refs.matches_unique {l : Line n} (hr : l.Refs) (hend : l.cdidEnd ≤ 0x80) {p : PipeNo}
    {cr : Nat} {i j : Fin n} (hi : l.Matches p cr i) (hj : l.Matches p cr j) : i = j := by
  obtain ⟨hai, hcri, hpi⟩ := hi
  obtain ⟨haj, hcrj, hpj⟩ := hj
  refine hr.eq_of_cr hend hai haj (hcri.trans hcrj.symm) fun hdi hdj => ?_
  -- the setting decides whether both calls are on the adapter
  have hiff := (hr.pipe i hai hdi).trans (hr.pipe j haj hdj).symm
  rcases hpi with hpi | hpi
  · rw [hpi, hiff.mp hpi]
  · rcases hpj with hpj | hpj
    · rw [hpj, hiff.mpr hpj]
    · rw [hpi, hpj]

end Line

/-- Where at most one element has the property, the order of a list that has all elements does not
matter. -/
theorem find?_order_irrel {α : Type*} {q : α → Bool} (hq : ∀ a b, q a = true → q b = true → a = b)
    {l l' : List α} (hl : ∀ a, a ∈ l) (hl' : ∀ a, a ∈ l') : l.find? q = l'.find? q := by
  cases h : l.find? q with
  | none =>
    symm
    rw [List.find?_eq_none] at h ⊢
    exact fun a _ => h a (hl a)
  | some a =>
    have ha := List.find?_some h
    cases h' : l'.find? q with
    | none => exact absurd ha (List.find?_eq_none.mp h' a (hl' a))
    | some b => rw [hq a b ha (List.find?_some h')]

namespace Cntl

variable {n : Nat} {env : Env}

theorem Reach.refs {s : Cntl n} (h : Reach env s) : s.line.Refs :=
  (h.line_induction Line.refs_attach (fun _ => Line.refs_detach) (fun _ _ hb => hb.refs)
    (fun _ _ hs => hs.refs)).2

/-- **In every state of a controller, at most one call matches a pipe and a reference, the references
of outgoing calls are in `1 .. 0x7e`, those of incoming calls have the flag, and `cd_by_unitcr` finds
the same call in whatever order the descriptors are gone through.** -/
theorem Reach.lookup_unambiguous {s : Cntl n} (h : Reach env s) :
    (∀ p cr i j, s.Matches p cr i → s.Matches p cr j → i = j) ∧
    (∀ i, (s.cd i).Allocated → (s.cd i).dirIncoming = false →
      1 ≤ (s.cd i).cr ∧ (s.cd i).cr ≤ 0x7e ∧ (s.cd i).cr &&& 0x80 = 0) ∧
    (∀ i, (s.cd i).Allocated → (s.cd i).dirIncoming = true → (s.cd i).cr &&& 0x80 ≠ 0) ∧
    (∀ p cr (order : List (Fin n)), (∀ i, i ∈ order) →
      order.find? (fun i => s.Matches p cr i) = s.cdByUnitcr p cr) := by
  have hr := h.refs
  have hend : s.line.cdidEnd = 0x7f := h.good.cdidEnd
  have huniq : ∀ p cr i j, s.Matches p cr i → s.Matches p cr j → i = j := by
    intro p cr i j hi hj
    exact hr.matches_unique (by rw [hend]; decide) hi hj
  refine ⟨huniq, ?_, hr.incoming, ?_⟩
  · intro i ha hd
    obtain ⟨h1, h2⟩ := hr.outgoing_range ha hd
    rw [hend] at h2
    exact ⟨h1, Nat.le_of_lt_succ h2, flag_clear_of_lt _ (h2.trans (by decide))⟩
  · intro p cr order ho
    refine find?_order_irrel ?_ ho List.mem_finRange
    intro i j hi hj
    exact huniq p cr i j (of_decide_eq_true hi) (of_decide_eq_true hj)

/-- On a bus, two terminals call with the same reference. -/
theorem lookup_unambiguous_two_terminals :
    ∃ s : Cntl 2, s.Matches 1 0x85 0 ∧ s.Matches 2 0x85 1 ∧ s.cdByUnitcr 2 0x85 = some 1 ∧
      [1, 0].find? (fun i => s.Matches 2 0x85 i) = some 1 := by
  have h : (((fresh true false : Cntl 2).run plain
      [.dataInd 1 [0x08, 0x01, 0x05, 0x05] false, .dataInd 2 [0x08, 0x01, 0x05, 0x05] false]).bind
        fun s => some (decide (s.Matches 1 0x85 0 ∧ s.Matches 2 0x85 1 ∧
          s.cdByUnitcr 2 0x85 = some 1))) = some true := by decide +kernel
  obtain ⟨s, hs, h⟩ := Option.bind_eq_some_iff.mp h
  obtain ⟨h1, h2, h3⟩ := of_decide_eq_true (Option.some.inj h)
  have hx := (Reach.lookup_unambiguous ((reach_fresh plain true false).run hs)).2.2.2
  exact ⟨s, h1, h2, h3, (hx 2 0x85 [1, 0] (by decide)).trans h3⟩

end Cntl

end L3
end Isdn4bsd
