import Mathlib.Logic.Function.Basic
import Mathlib.Logic.Relation

/-!
# Names that are translated on their way

Two parties talk about the calls they share.  Whichever begins a call chooses a name for it, and every
message carries the name that its sender stores; on reception the name is translated.

* `Codec`: how a name is said in a message, how it is read, and the translation, which undoes itself.
* `Exchange`: what the places of both parties store, and all that was ever said.  A message can be
received at any time after it was sent, any number of times or never.
* `Agrees`: each party has the name of a call that its originator chose, or the translation of it.
* `Reach.agrees`: **that is so after any steps of both parties.**

## Which call is meant

A name alone does not say which call is meant: it may have been used before, and both parties may choose the
same one.  So `Exchange` remembers more than the parties do.  Each call has a number of its own, with the
party that began it and the name it chose; a place has the number of the call that it is used for, and so has
a message.  No step depends on these numbers, and a party could not look at them.

Then what should be shown can be said: a message about a call is read as the very name that its receiver has
for this call, no matter which of the two began it.  It is read with one translation, and a name that
was chosen by the other one has already been translated once.

## Steps

A party may begin a call in any place, under any name; it may use a place for a call that it was told of,
under the name it has read; it may send a message for a place, or answer one without having a place for its
call.  Places are used again and again, and that a message for an earlier use is still on its way does no
harm, as what is said of it is about the earlier call.

Nothing is lost by allowing too much here: what a program does is mapped to these steps, and must be one of them.
-/

set_option autoImplicit false

namespace Isdn4bsd
namespace Naming

/-- The two parties. -/
inductive Side where
  | near
  | far
  deriving DecidableEq, Repr

namespace Side

def other : Side → Side
  | near => far
  | far => near

@[simp] theorem other_other (x : Side) : x.other.other = x := by
  cases x <;> rfl

theorem other_ne (x : Side) : x.other ≠ x := by
  cases x <;> exact Side.noConfusion

theorem eq_or_eq_other (x y : Side) : y = x ∨ y = x.other := by
  cases x <;> cases y <;> decide

end Side

/-- Names in messages. -/
structure Codec (ν μ : Type*) where
  /-- The message is one of a call that its sender has under this name. -/
  carries : ν → μ → Prop
  read : μ → ν
  toggle : ν → ν
  toggle_toggle : ∀ r, toggle (toggle r) = r
  read_of_carries : ∀ r m, carries r m → read m = toggle r

/-- The use of a place for a call. -/
structure Leg (ν : Type*) where
  call : Nat
  name : ν

/-- What both parties have stored and said. -/
structure Exchange (ν μ : Type*) (ι : Side → Type*) where
  leg : (x : Side) → ι x → Leg ν
  /-- The originators of all calls, and the names they chose. -/
  calls : List (Side × ν)
  /-- The messages that a party sent, each with its call. -/
  wire : Side → List (Nat × μ)

namespace Exchange

variable {ν μ : Type*} {ι : Side → Type*}

/-! ## Names -/

/-- The name that a party has for a call. -/
def nameAt (c : Codec ν μ) (e : Exchange ν μ ι) (x : Side) (g : Nat) : Option ν :=
  e.calls[g]?.map fun o => if o.1 = x then o.2 else c.toggle o.2

/-- The names of both parties are the translations of each other. -/
theorem nameAt_other (c : Codec ν μ) (e : Exchange ν μ ι) (x : Side) (g : Nat) :
    nameAt c e x.other g = (nameAt c e x g).map c.toggle := by
  rw [nameAt, nameAt, Option.map_map]
  congr 1
  funext ⟨y, r⟩
  rw [Function.comp_apply]
  dsimp only
  rcases x.eq_or_eq_other y with rfl | rfl
  · rw [if_neg fun h => y.other_ne h.symm, if_pos rfl]
  · rw [if_pos rfl, if_neg x.other_ne, c.toggle_toggle]

/-- Calls are not forgotten. -/
theorem getElem?_of_prefix {calls calls' : List (Side × ν)} (h : calls <+: calls') {g : Nat}
    {o : Side × ν} (hg : calls[g]? = some o) : calls'[g]? = some o := by
  obtain ⟨more, rfl⟩ := h
  obtain ⟨hlt, -⟩ := List.getElem?_eq_some_iff.mp hg
  rw [List.getElem?_append_left hlt]
  exact hg

theorem nameAt_of_prefix {c : Codec ν μ} {e e' : Exchange ν μ ι} (h : e.calls <+: e'.calls)
    {x : Side} {g : Nat} {r : ν} (hg : nameAt c e x g = some r) : nameAt c e' x g = some r := by
  obtain ⟨o, ho, rfl⟩ := Option.map_eq_some_iff.mp hg
  rw [nameAt, getElem?_of_prefix h ho]
  rfl

/-! ## Agreement -/

/-- What is stored and said of a call is the name that the party has for it. -/
structure Agrees (c : Codec ν μ) (e : Exchange ν μ ι) : Prop where
  stored : ∀ x i, nameAt c e x (e.leg x i).call = some (e.leg x i).name
  said : ∀ x g m, (g, m) ∈ e.wire x → ∃ r, nameAt c e x g = some r ∧ c.carries r m

/-- What is read from a message is the name that the receiver has for its call. -/
theorem Agrees.heard {c : Codec ν μ} {e : Exchange ν μ ι} (h : Agrees c e) {x : Side} {g : Nat} {m : μ}
    (hm : (g, m) ∈ e.wire x.other) : nameAt c e x g = some (c.read m) := by
  obtain ⟨r, hr, hs⟩ := h.said x.other g m hm
  have hother := nameAt_other c e x.other g
  rw [Side.other_other, hr] at hother
  rw [hother, c.read_of_carries r m hs]
  rfl

/-- All places are used for calls of one's own, and nothing was said yet. -/
structure Start (e : Exchange ν μ ι) : Prop where
  own : ∀ x i, e.calls[(e.leg x i).call]? = some (x, (e.leg x i).name)
  silent : ∀ x, e.wire x = []

theorem agrees_start {c : Codec ν μ} {e : Exchange ν μ ι} (h : e.Start) : Agrees c e where
  stored := by
    intro x i
    rw [nameAt, h.own x i, Option.map_some, if_pos rfl]
  said := by
    intro x g m hm
    rw [h.silent x] at hm
    cases hm

/-- More calls make no difference for those there are. -/
theorem Agrees.of_prefix {c : Codec ν μ} {e e' : Exchange ν μ ι} (h : Agrees c e)
    (hcalls : e.calls <+: e'.calls) (hleg : e'.leg = e.leg) (hwire : e'.wire = e.wire) :
    Agrees c e' where
  stored := by
    intro x i
    rw [hleg]
    exact nameAt_of_prefix hcalls (h.stored x i)
  said := by
    intro x g m hm
    rw [hwire] at hm
    obtain ⟨r, hr, hs⟩ := h.said x g m hm
    exact ⟨r, nameAt_of_prefix hcalls hr, hs⟩

/-! ## Messages -/

/-- A message is sent for a call. -/
def send (e : Exchange ν μ ι) (x : Side) (g : Nat) (m : μ) : Exchange ν μ ι :=
  { e with wire := Function.update e.wire x (e.wire x ++ [(g, m)]) }

theorem send_self (e : Exchange ν μ ι) (x : Side) (g : Nat) (m : μ) :
    (e.send x g m).wire x = e.wire x ++ [(g, m)] := Function.update_self _ _ _

theorem send_other (e : Exchange ν μ ι) (x : Side) (g : Nat) (m : μ) :
    (e.send x g m).wire x.other = e.wire x.other := Function.update_of_ne x.other_ne _ _

theorem Agrees.send {c : Codec ν μ} {e : Exchange ν μ ι} (h : Agrees c e) {x : Side} {g : Nat} {r : ν}
    (hg : nameAt c e x g = some r) {m : μ} (hm : c.carries r m) : Agrees c (e.send x g m) where
  stored := h.stored
  said := by
    intro y g' m' hm'
    rcases x.eq_or_eq_other y with rfl | rfl
    · rw [send_self, List.mem_append, List.mem_singleton] at hm'
      rcases hm' with hold | hnew
      · exact h.said _ g' m' hold
      · cases hnew
        exact ⟨r, hg, hm⟩
    · rw [send_other] at hm'
      exact h.said _ g' m' hm'

/-- What the steps of a party leave alone. -/
structure Frame (x : Side) (e e' : Exchange ν μ ι) : Prop where
  leg : e'.leg x.other = e.leg x.other
  wire : e'.wire x.other = e.wire x.other
  calls : ∃ more, e'.calls = e.calls ++ more ∧ ∀ o ∈ more, o.1 = x

theorem Frame.of_calls_eq {x : Side} {e e' : Exchange ν μ ι} (hleg : e'.leg x.other = e.leg x.other)
    (hwire : e'.wire x.other = e.wire x.other) (hcalls : e'.calls = e.calls) : Frame x e e' :=
  ⟨hleg, hwire, [], hcalls.trans (List.append_nil _).symm, nofun⟩

theorem Frame.trans {x : Side} {e e' e'' : Exchange ν μ ι} (h : Frame x e e')
    (h' : Frame x e' e'') : Frame x e e'' := by
  obtain ⟨more, hmore, hown⟩ := h.calls
  obtain ⟨more', hmore', hown'⟩ := h'.calls
  refine ⟨h'.leg.trans h.leg, h'.wire.trans h.wire, more ++ more', ?_, fun o ho => ?_⟩
  · rw [hmore', hmore, List.append_assoc]
  · exact (List.mem_append.mp ho).elim (hown o) (hown' o)

/-! ## Places -/

variable [∀ x, DecidableEq (ι x)]

/-- A place is used for a call. -/
def store (e : Exchange ν μ ι) (x : Side) (i : ι x) (l : Leg ν) : Exchange ν μ ι :=
  { e with leg := Function.update e.leg x (Function.update (e.leg x) i l) }

theorem store_leg (e : Exchange ν μ ι) (x : Side) (i : ι x) (l : Leg ν) :
    (e.store x i l).leg x = Function.update (e.leg x) i l := Function.update_self _ _ _

theorem store_other (e : Exchange ν μ ι) (x : Side) (i : ι x) (l : Leg ν) :
    (e.store x i l).leg x.other = e.leg x.other := Function.update_of_ne x.other_ne _ _

/-- A place is used for a call under the name that the party has for it. -/
theorem Agrees.store {c : Codec ν μ} {e : Exchange ν μ ι} (h : Agrees c e) {x : Side} (i : ι x)
    {l : Leg ν} (hl : nameAt c e x l.call = some l.name) : Agrees c (e.store x i l) where
  stored := by
    intro y j
    change nameAt c e y ((e.store x i l).leg y j).call = some ((e.store x i l).leg y j).name
    rcases x.eq_or_eq_other y with rfl | rfl
    · rw [store_leg]
      by_cases hj : j = i
      · subst hj
        rw [Function.update_self]
        exact hl
      · rw [Function.update_of_ne hj]
        exact h.stored _ j
    · rw [store_other]
      exact h.stored _ j
  said := h.said

/-- A new call. -/
def originate (e : Exchange ν μ ι) (x : Side) (i : ι x) (r : ν) : Exchange ν μ ι :=
  { e.store x i ⟨e.calls.length, r⟩ with calls := e.calls ++ [(x, r)] }

/-! ## Steps -/

/-- What a party may do. -/
inductive Step (c : Codec ν μ) (x : Side) (e : Exchange ν μ ι) : Exchange ν μ ι → Prop where
  | originate (i : ι x) (r : ν) : Step c x e (e.originate x i r)
  /-- A place is used for the call of a message, under the name that is read. -/
  | accept (i : ι x) (g : Nat) (m : μ) (h : (g, m) ∈ e.wire x.other) :
      Step c x e (e.store x i ⟨g, c.read m⟩)
  | say (i : ι x) (m : μ) (h : c.carries (e.leg x i).name m) :
      Step c x e (e.send x (e.leg x i).call m)
  /-- A message is answered though no place is used for its call. -/
  | answer (g : Nat) (m m' : μ) (h : (g, m) ∈ e.wire x.other) (hs : c.carries (c.read m) m') :
      Step c x e (e.send x g m')

abbrev Steps (c : Codec ν μ) (x : Side) : Exchange ν μ ι → Exchange ν μ ι → Prop :=
  Relation.ReflTransGen (Step c x)

theorem Step.frame {c : Codec ν μ} {x : Side} {e e' : Exchange ν μ ι} (h : Step c x e e') :
    Frame x e e' := by
  cases h with
  | originate i r =>
    refine ⟨store_other e x i _, rfl, [(x, r)], rfl, fun o ho => ?_⟩
    rw [List.mem_singleton.mp ho]
  | accept i g m => exact .of_calls_eq (store_other e x i _) rfl rfl
  | say i m => exact .of_calls_eq rfl (send_other e x _ m) rfl
  | answer g m m' => exact .of_calls_eq rfl (send_other e x g m') rfl

theorem Steps.frame {c : Codec ν μ} {x : Side} {e e' : Exchange ν μ ι} (h : Steps c x e e') :
    Frame x e e' := by
  induction h with
  | refl => exact .of_calls_eq rfl rfl rfl
  | tail _ hs ih => exact ih.trans hs.frame

theorem Step.agrees {c : Codec ν μ} {x : Side} {e e' : Exchange ν μ ι} (hs : Step c x e e')
    (h : Agrees c e) : Agrees c e' := by
  cases hs with
  | originate i r =>
    have hmore : Agrees c { e with calls := e.calls ++ [(x, r)] } :=
      h.of_prefix (List.prefix_append _ _) rfl rfl
    refine hmore.store i (l := ⟨e.calls.length, r⟩) ?_
    rw [nameAt, List.getElem?_concat_length, Option.map_some, if_pos rfl]
  | accept i g m hm => exact h.store i (h.heard hm)
  | say i m hm => exact h.send (h.stored x i) hm
  | answer g m m' hm hm' => exact h.send (h.heard hm) hm'

/-- After any steps of both parties. -/
inductive Reach (c : Codec ν μ) : Exchange ν μ ι → Prop where
  | start {e : Exchange ν μ ι} (h : e.Start) : Reach c e
  | step {e e' : Exchange ν μ ι} (x : Side) (h : Reach c e) (hs : Step c x e e') : Reach c e'

theorem Reach.steps {c : Codec ν μ} {e e' : Exchange ν μ ι} {x : Side} (h : Reach c e)
    (hs : Steps c x e e') : Reach c e' := by
  induction hs with
  | refl => exact h
  | tail _ hs ih => exact ih.step x hs

/-- **Both parties agree about the names**, whatever they do and whichever messages are received. -/
theorem Reach.agrees {c : Codec ν μ} {e : Exchange ν μ ι} (h : Reach c e) : Agrees c e := by
  induction h with
  | start h => exact agrees_start h
  | step x _ hs ih => exact hs.agrees ih

end Exchange
end Naming
end Isdn4bsd
