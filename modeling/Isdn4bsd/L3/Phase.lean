import Isdn4bsd.L3.Actions

/-!
# Layer 3: the course of a call

A call keeps its direction, and goes through the states of its direction in their order; only from
`X_TO` it may go back to `X`.

The states `X_TO` are those in which an answer to a status enquiry is waited for.  They stand right behind
the state `X` whose timer has expired, so the way back when an answer comes is `newstate--`, and it is the
only way down.

* `Line.Phase` is the invariant of one descriptor: the history of its states is in order, and all of them
  are states of its direction.
* `Line.Extends` is what a single change does to a call that goes on: the same id and direction, and a
  history that has become longer.
* `Cntl.Lives` is a run in which a descriptor is not freed, and `Cntl.Lives.direction_and_phase` the
  result about it: **from any point of the life of a call to any later one**.

The invariant alone would not be enough, as a descriptor may be freed and allocated again in one action, for
a call that has nothing to do with the old one.  So what is said about a life is said from action to action
(`step_extends`), for a call that is there before and after it.
-/

set_option autoImplicit false

namespace Isdn4bsd
namespace L3

namespace Line

variable {n : Nat} {b : Permit}

/-- The states of a call so far, the last one first: each may follow the one before. -/
def Ordered (history : List State) : Prop :=
  history.IsChain fun new old => old.Follows new

/-- The course of the call so far is right. -/
structure Phase (c : Call) : Prop where
  /-- The state it is in is the last one of its history. -/
  head : c.history.head? = some c.state
  ordered : Ordered c.history
  ok : ∀ st ∈ c.history, State.OkFor c.dirIncoming st

theorem Phase.okState {c : Call} (h : Phase c) : State.OkFor c.dirIncoming c.state :=
  h.ok _ (List.mem_of_mem_head? h.head)

theorem phase_newCall (cdid : Nat) (p : L2.PipeNo) (cr : Nat) (incoming : Bool) :
    Phase (newCall cdid p cr incoming) := by
  have hok : ∀ d : Bool, State.OkFor d (if d then .incoming else .outgoing) := by decide
  refine ⟨rfl, List.isChain_singleton _, ?_⟩
  intro st hst
  rw [newCall, List.mem_singleton] at hst
  subst hst
  exact hok incoming

theorem Phase.enter {c : Call} (h : Phase c) {new : State} (hf : c.state.Follows new)
    (ho : State.OkFor c.dirIncoming c.state → State.OkFor c.dirIncoming new) :
    Phase { c with state := new, setStateCallout := true, history := new :: c.history } := by
  refine ⟨rfl, ?_, ?_⟩
  · refine List.isChain_cons.mpr ⟨?_, h.ordered⟩
    intro old hold
    rw [h.head] at hold
    cases hold
    exact hf
  · intro st hst
    rcases List.mem_cons.mp hst with rfl | hst
    · exact ho h.okState
    · exact h.ok st hst

theorem Change.phase {l : Line n} {c c' : Call} (h : Change b l c c')
    (hp : c.Allocated → Phase c) (ha : c'.Allocated) : Phase c' := by
  cases h with
  | enter new ha' hf ho => exact (hp ha').enter hf ho
  | free last causeIn causeOut ha' => exact absurd rfl ha
  | give => exact ⟨(hp ha).head, (hp ha).ordered, (hp ha).ok⟩
  | _ => exact ⟨(hp ha).head, (hp ha).ordered, (hp ha).ok⟩

/-- A call goes on: it has the same direction, and its history has become longer. -/
structure Extends (c c' : Call) : Prop where
  dirIncoming : c'.dirIncoming = c.dirIncoming
  history : ∃ visited, c'.history = visited ++ c.history

theorem Extends.rfl {c : Call} : Extends c c := ⟨Eq.refl _, [], Eq.refl _⟩

theorem Extends.trans {c c' c'' : Call} (h : Extends c c') (h' : Extends c' c'') :
    Extends c c'' := by
  obtain ⟨v, hv⟩ := h.history
  obtain ⟨v', hv'⟩ := h'.history
  exact ⟨h'.dirIncoming.trans h.dirIncoming, v' ++ v, by rw [hv', hv, List.append_assoc]⟩

theorem Change.extends {l : Line n} {c c' : Call} (h : Change b l c c') (ha : c'.Allocated) :
    Extends c c' := by
  cases h with
  | enter new ha' hf ho => exact ⟨rfl, [new], rfl⟩
  | free last causeIn causeOut ha' => exact absurd rfl ha
  | _ => exact ⟨rfl, [], rfl⟩

/-- A call that is there after changes was there before them, and went on. -/
theorem Steps.extends {l l' : Line n} (h : Steps b l l') {i : Fin n} (ha : (l'.cd i).Allocated) :
    (l.cd i).Allocated ∧ Extends (l.cd i) (l'.cd i) := by
  induction h with
  | refl => exact ⟨ha, .rfl⟩
  | @tail m m' _ hs ih =>
    rcases hs.change with hcd | ⟨k, hc, hne⟩
    · rw [hcd] at ha ⊢
      exact ih ha
    · by_cases hk : i = k
      · subst hk
        obtain ⟨ha', he⟩ := ih (hc.allocated ha)
        exact ⟨ha', he.trans (hc.extends ha)⟩
      · rw [hne i hk] at ha ⊢
        exact ih ha

/-- The allocation of a descriptor leaves calls alone. -/
theorem Begin.cd_eq {l l' : Line n} (h : Begin l l') {i : Fin n} (ha : (l.cd i).Allocated) :
    l'.cd i = l.cd i := by
  have hset : ∀ (m : Line n) (k : Fin n) (c : Call), m.cd = l.cd → ¬ (l.cd k).Allocated →
      (m.set k c).cd i = l.cd i := by
    intro m k c hm hk
    have hne : i ≠ k := by
      rintro rfl
      exact hk ha
    rw [set_cd_of_ne m c hne, hm]
  cases h with
  | none => rfl
  | clear k hk => exact hset l k _ rfl hk
  | dial k cdid paused hcon hk hc => exact hset _ k _ (join_cd l _ paused) hk
  | ring k cdid p paused cr hcon hk hc hcr hp hm => exact hset _ k _ (join_cd l p paused) hk

end Line

namespace Cntl

variable {n : Nat} {env : Env}

/-- The course of every call is right. -/
theorem Reach.phase {s : Cntl n} (h : Reach env s) {i : Fin n} (ha : (s.cd i).Allocated) :
    Line.Phase (s.cd i).toCall := by
  have hall := (h.line_induction
    (motive := fun l : Line n => ∀ i, (l.cd i).Allocated → Line.Phase (l.cd i))
    (fun _ _ _ _ ha => absurd rfl ha)
    (fun _ hm => hm)
    (fun l l' hb hm => hb.forall_cd (motive := fun c => c.Allocated → Line.Phase c)
      (fun ha => absurd rfl ha)
      (fun cdid p cr incoming _ _ _ => Line.phase_newCall cdid p cr incoming) hm)
    (fun l l' hs hm => hs.forall_cd (motive := fun c => c.Allocated → Line.Phase c)
      (fun _ _ hc hp ha => hc.phase hp ha) hm)).2
  exact hall i ha

/-- One action, as seen from a call that is there before and after it. -/
theorem step_extends {s s' : Cntl n} {a : Action n} (h : Reach env s)
    (hs : s.step env a = some s') {i : Fin n} (ha : (s.cd i).Allocated)
    (ha' : (s'.cd i).Allocated) : Line.Extends (s.cd i).toCall (s'.cd i).toCall := by
  have hg := h.good
  obtain ⟨hen, rfl, -⟩ := step_eq_some hs
  by_cases hon : OnCalls a
  · have hact : Line.Act .all s.line (s.perform env a).line :=
      act_perform hg.tidy hg.live hg.cdidEndOk hen hon ⟨.inl rfl, .inl rfl⟩
    obtain ⟨m, hb, hsteps⟩ := hact
    have he := (hsteps.extends ha').2
    rwa [hb.cd_eq ha] at he
  · cases a with
    | attach nt ptp pr => exact absurd rfl ha'
    | detach => exact absurd ha' ((steps_detach (b := .all) env hg.tidy).2 i)
    | _ => exact absurd trivial hon

/-- A run in which a descriptor is not freed. -/
inductive Lives (env : Env) (i : Fin n) : Cntl n → Cntl n → Prop where
  | refl {s : Cntl n} (ha : (s.cd i).Allocated) : Lives env i s s
  | step {s t u : Cntl n} {a : Action n} (h : Lives env i s t) (hs : t.step env a = some u)
      (ha : (u.cd i).Allocated) : Lives env i s u

theorem Lives.reach {i : Fin n} {s t : Cntl n} (h : Reach env s) (hl : Lives env i s t) :
    Reach env t ∧ (t.cd i).Allocated := by
  induction hl with
  | refl ha => exact ⟨h, ha⟩
  | step _ hs ha ih => exact ⟨ih.1.step hs, ha⟩

theorem Lives.allocated {i : Fin n} {s t : Cntl n} (hl : Lives env i s t) :
    (s.cd i).Allocated := by
  induction hl with
  | refl ha => exact ha
  | step _ _ _ ih => exact ih

theorem Lives.extends {i : Fin n} {s t : Cntl n} (h : Reach env s) (hl : Lives env i s t) :
    Line.Extends (s.cd i).toCall (t.cd i).toCall := by
  induction hl with
  | refl _ => exact .rfl
  | step hl hs ha ih =>
    obtain ⟨hr, ha'⟩ := hl.reach h
    exact ih.trans (step_extends hr hs ha' ha)

/-- **A call keeps its direction and goes through states of that direction only, each with a number
no less than the one before, except for the step from `X_TO` back to `X`; from any point of its life
to any later one.** -/
theorem Lives.direction_and_phase {i : Fin n} {s t : Cntl n} (h : Reach env s)
    (hl : Lives env i s t) :
    (t.cd i).dirIncoming = (s.cd i).dirIncoming ∧
      (∃ visited, (t.cd i).history = visited ++ (s.cd i).history) ∧
      (t.cd i).history.head? = some (t.cd i).state ∧
      (s.cd i).history.head? = some (s.cd i).state ∧
      (∀ st ∈ (t.cd i).history, State.OkFor (s.cd i).dirIncoming st) ∧
      Line.Ordered (t.cd i).history := by
  obtain ⟨hr, ha⟩ := hl.reach h
  have he := hl.extends h
  have hp := hr.phase ha
  refine ⟨he.dirIncoming, he.history, hp.head, (h.phase hl.allocated).head, ?_, hp.ordered⟩
  intro st hst
  rw [← he.dirIncoming]
  exact hp.ok st hst

/-- A call that was answered by this end: SETUP is received, then the call is accepted. -/
theorem direction_and_phase_answered :
    ∃ s t : Cntl 1, Lives plain 0 s t ∧ (s.cd 0).state = .inAck ∧ (t.cd 0).state = .u8 ∧
      (t.cd 0).dirIncoming = (s.cd 0).dirIncoming ∧ Line.Ordered (t.cd 0).history := by
  have h : (((fresh false true : Cntl 1).run plain
      [.dataInd 0 [0x08, 0x01, 0x05, 0x05, 0x18, 0x01, 0x89] false]).bind fun s =>
      (s.step plain (.i4b 1 64 (.connectResp .accept 0 0 0 0))).bind fun t =>
        some (decide ((s.cd 0).Allocated ∧ (t.cd 0).Allocated ∧ (s.cd 0).state = .inAck ∧
          (t.cd 0).state = .u8))) = some true := by decide
  obtain ⟨s, hs, h⟩ := Option.bind_eq_some_iff.mp h
  obtain ⟨t, ht, h⟩ := Option.bind_eq_some_iff.mp h
  obtain ⟨ha, ha', h1, h2⟩ := of_decide_eq_true (Option.some.inj h)
  have hl : Lives plain 0 s t := .step (.refl ha) ht ha'
  obtain ⟨hd, -, -, -, -, ho⟩ :=
    Lives.direction_and_phase ((reach_fresh plain false true).run hs) hl
  exact ⟨s, t, hl, h1, h2, hd, ho⟩

end Cntl

end L3
end Isdn4bsd
