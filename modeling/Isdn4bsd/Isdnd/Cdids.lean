import Isdn4bsd.Isdnd.Effects

/-!
# The ISDN daemon: which entry a call belongs to

An entry remembers the cdid of its call, and messages of the kernel are for the first entry that
remembers the cdid.  An entry forgets it when the call is disconnected, but not if the kernel refuses
to dial: then it goes on to remember a cdid that the kernel may give to another call.

* `Exclusive`: two entries remember one cdid only while they are offered the same call.
* `Fits`: the kernel gives no cdid to a call that another entry remembers.
* `exclusive_run`: **where that is so, the messages for a call in progress are for its entry.**
* `stale_cdid`: an entry that could not dial gets the messages for the call of another one.

## Calls that are shared

An incoming call is offered to each entry that it matches and that only rings, so several entries do
remember one cdid, and rightly so.  That ends when one of them takes the call: `ev_connect_from_user`
takes the call away from all others before it goes on.  So the invariant allows entries to share a cdid
as long as all of them are in the state `incoming`, and an entry with a call in progress (`Active`) is in
none of these.

## What the functions do

Most of them leave the cdid of an entry alone, or set it free together with the state: `Yields`.  There
are three that are different, and each has its own lemma.

* A parked entry dials.  What it remembers then is what the kernel said (`Exclusive.dials`).
* A parked entry is offered a call (`Exclusive.offer`).  All who remember this cdid already have to be
in the same position (`Reserved`), and stay there while the loop over the entries goes on.
* A call is connected, which was in progress before (`Exclusive.connects`).

The timer may dial for several entries in one step, so the cdids that it is given must differ among
each other as well: `Fresh` says both, and `Origin` follows through the loop where a cdid comes from.

## The condition

`Fits` speaks of the answers of the kernel and of the state before the step.  A kernel that gives out the
first cdid that is free on its own side meets it as long as the daemon forgets a cdid with its call; it
is the entry that failed to dial for which this is not so.
-/

set_option autoImplicit false

namespace Isdn4bsd
namespace Isdnd
namespace Cdids

open L3 (cdidUnused maxControllers causeI4bNormal)
open Daemon

variable {n : Nat} {env : Env n} {s t u : Daemon n} {e e' : Fin n} {c r : Cep}

/-! ## Exclusive use -/

/-- The entry has a call that is in progress. -/
def Active (c : Cep) : Prop := c.state = .dial ∨ c.state = .waitConnect ∨ c.state = .connected

instance (c : Cep) : Decidable (Active c) := inferInstanceAs (Decidable (_ ∨ _))

/-- Two entries remember one cdid only while they are offered the same call. -/
structure Exclusive (s : Daemon n) : Prop where
  shared : ∀ e e', e ≠ e' → (s.cep e).cdid = (s.cep e').cdid → (s.cep e).cdid ≠ cdidUnused →
    (s.cep e).state = .incoming
  used : ∀ e, ¬ (s.cep e).Parked → (s.cep e).cdid ≠ cdidUnused

theorem not_parked_of_active (h : Active c) : ¬ c.Parked := by
  rintro (hp | hp) <;> rcases h with h | h | h <;> rw [hp] at h <;> cases h

/-- No other entry remembers the cdid of a call in progress. -/
theorem Exclusive.others (h : Exclusive s) (ha : Active (s.cep e)) (he : e' ≠ e) :
    (s.cep e').cdid ≠ (s.cep e).cdid := by
  intro heq
  have hin := h.shared e e' he.symm heq.symm (h.used e (not_parked_of_active ha))
  rcases ha with ha | ha | ha <;> rw [hin] at ha <;> cases ha

/-- **Its messages are for it.** -/
theorem Exclusive.lookup (h : Exclusive s) (ha : Active (s.cep e)) :
    s.getCepByCdid (s.cep e).cdid = some e := by
  cases hf : s.getCepByCdid (s.cep e).cdid with
  | none =>
    have hn := List.find?_eq_none.mp hf e (List.mem_finRange e)
    simp at hn
  | some e' =>
    have hc : (s.cep e').cdid = (s.cep e).cdid := by simpa using List.find?_some hf
    by_contra hne
    exact h.others ha (fun heq => hne (by rw [heq])) hc

/-! ## Entries that keep or lose their calls -/

/-- The entry is as it was, or has no call any more. -/
def Yields (c r : Cep) : Prop := r = c ∨ (r.Parked ∧ r.cdid = cdidUnused)

theorem Exclusive.yields (h : Exclusive s) (hy : ∀ e, Yields (s.cep e) (t.cep e)) : Exclusive t := by
  refine ⟨fun e e' hne hc hu => ?_, fun e hp => ?_⟩
  · rcases hy e with h1 | ⟨-, h1⟩
    · rcases hy e' with h2 | ⟨-, h2⟩
      · rw [h1] at hc hu ⊢
        rw [h2] at hc
        exact h.shared e e' hne hc hu
      · exact absurd (hc.trans h2) hu
    · exact absurd h1 hu
  · rcases hy e with h1 | ⟨h1, -⟩
    · rw [h1] at hp ⊢
      exact h.used e hp
    · exact absurd h1 hp

theorem yields_of_dropped (h : Dropped env c r) : Yields c r := .inr ⟨h.parked, h.cdid⟩

theorem yields_evDisconnectFromI4b (env : Env n) (s : Daemon n) (cdid cause : Nat)
    (except : Option (Fin n)) (e : Fin n) :
    Yields (s.cep e) ((s.evDisconnectFromI4b env cdid cause except).cep e) := by
  rcases evDisconnectFromI4b_cep env s cdid cause except e with ⟨-, -, hd⟩ | ⟨-, heq⟩
  · exact yields_of_dropped hd
  · exact .inl heq

theorem yields_evDisconnectFromUser (env : Env n) (s : Daemon n) (e e' : Fin n) :
    Yields (s.cep e') ((s.evDisconnectFromUser env e).cep e') := by
  by_cases he : e' = e
  · subst he
    rw [evDisconnectFromUser_cep]
    exact .inr ⟨.inl rfl, rfl⟩
  · exact .inl (only_evDisconnectFromUser e' he)

theorem yields_evRejectFromUser (env : Env n) (s : Daemon n) (e e' : Fin n) :
    Yields (s.cep e') ((s.evRejectFromUser env e).cep e') := by
  rw [evRejectFromUser]
  split
  · exact yields_evDisconnectFromI4b env (s.put _) _ _ _ e'
  · exact .inl rfl

/-- The entry that answers a call keeps it, and all others lose it. -/
theorem exclusive_evConnectFromUser (h : Exclusive s) : Exclusive (s.evConnectFromUser env e) := by
  by_cases hin : (s.cep e).state = .incoming
  · have hself := evConnectFromUser_self env hin
    have hused : (s.cep e).cdid ≠ cdidUnused := h.used e (by rw [Cep.Parked, hin]; simp)
    have hc : ((s.evConnectFromUser env e).cep e).cdid = (s.cep e).cdid := by rw [hself]
    have hother : ∀ e', e' ≠ e →
        ((s.evConnectFromUser env e).cep e').Parked ∧
          ((s.evConnectFromUser env e).cep e').cdid = cdidUnused ∨
        (s.cep e').cdid ≠ (s.cep e).cdid ∧ (s.evConnectFromUser env e).cep e' = s.cep e' :=
      fun e' he => (evConnectFromUser_other env hin he).imp
        (fun hd => ⟨hd.2.parked, hd.2.cdid⟩) id
    refine ⟨fun e1 e2 hne heq hu => ?_, fun e1 hp => ?_⟩
    · by_cases h1 : e1 = e
      · subst h1
        rcases hother e2 hne.symm with ⟨-, h2⟩ | ⟨hn, h2⟩
        · exact absurd (heq.trans h2) hu
        · rw [hc, h2] at heq
          exact absurd heq.symm hn
      · rcases hother e1 h1 with ⟨-, h2⟩ | ⟨hn, h2⟩
        · exact absurd h2 hu
        · rw [h2] at heq hu ⊢
          by_cases h3 : e2 = e
          · subst h3
            rw [hc] at heq
            exact absurd heq hn
          · rcases hother e2 h3 with ⟨-, h4⟩ | ⟨-, h4⟩
            · exact absurd (heq.trans h4) hu
            · rw [h4] at heq
              exact h.shared e1 e2 hne heq hu
    · by_cases h1 : e1 = e
      · subst h1
        rwa [hc]
      · rcases hother e1 h1 with ⟨h2, -⟩ | ⟨-, h2⟩
        · exact absurd h2 hp
        · rw [h2] at hp ⊢
          exact h.used e1 hp
  · rw [evConnectFromUser, if_neg hin]
    exact h

/-! ## Dialling -/

/-- The kernel gives the entry no cdid that another one remembers. -/
def FreshFor (env : Env n) (s : Daemon n) (e : Fin n) : Prop :=
  ∀ cdid, env.cdid e = some cdid → cdid ≠ cdidUnused ∧ ∀ e', e' ≠ e → (s.cep e').cdid ≠ cdid

/-- A parked entry dials, or does not. -/
theorem Exclusive.dials (h : Exclusive s) (hf : FreshFor env s e) (ho : Only e s t)
    (hpark : (s.cep e).Parked)
    (hst : ((t.cep e).state = .dial ∧ (t.cep e).dirIncoming = false ∧
      env.cdid e = some (t.cep e).cdid) ∨ (t.cep e).Parked)
    (hc : (t.cep e).cdid = (s.cep e).cdid ∨ (t.cep e).cdid = cdidUnused ∨
      env.cdid e = some (t.cep e).cdid) : Exclusive t := by
  -- no other entry has the cdid that it has now
  have halone : ∀ e', e' ≠ e → (t.cep e).cdid ≠ cdidUnused → (t.cep e).cdid ≠ (s.cep e').cdid := by
    intro e' he hu heq
    rcases hc with hc | hc | hc
    · have hin := h.shared e e' he.symm (hc.symm.trans heq) (hc ▸ hu)
      exact (state_ne_of_parked hpark).2.1 hin
    · exact hu hc
    · exact (hf _ hc).2 e' he heq.symm
  refine ⟨fun e1 e2 hne heq hu => ?_, fun e1 hp => ?_⟩
  · by_cases h1 : e1 = e
    · subst h1
      rw [ho e2 hne.symm] at heq
      exact absurd heq (halone e2 hne.symm hu)
    · rw [ho e1 h1] at heq hu ⊢
      by_cases h2 : e2 = e
      · subst h2
        exact absurd heq.symm (halone e1 h1 (heq ▸ hu))
      · rw [ho e2 h2] at heq
        exact h.shared e1 e2 hne heq hu
  · by_cases h1 : e1 = e
    · subst h1
      rcases hst with ⟨-, -, hd⟩ | hd
      · exact (hf _ hd).1
      · exact absurd hd hp
    · rw [ho e1 h1] at hp ⊢
      exact h.used e1 hp

theorem exclusive_evDialFromUser (h : Exclusive s) (hf : FreshFor env s e) :
    Exclusive (s.evDialFromUser env e) := by
  by_cases hi : (s.cep e).state = .idle
  · have hr := evDialFromUser_cep env hi
    exact h.dials hf only_evDialFromUser (.inl hi) hr.state hr.cdid
  · rw [evDialFromUser, if_neg hi]
    exact h

theorem exclusive_evDialFromI4b (h : Exclusive s) (hf : FreshFor env s e) :
    Exclusive (s.evDialFromI4b env e) := by
  by_cases hi : (s.cep e).state = .dialFail
  · have hr := dialCode_cep env s e
    rw [evDialFromI4b, if_pos hi]
    exact h.dials hf only_dialCode (.inr hi) hr.state hr.cdid
  · rw [evDialFromI4b, if_neg hi]
    exact h

/-- An entry that calls back does not dial at once. -/
theorem exclusive_callback (h : Exclusive s) (hr : (s.cep e).dialinReaction = .callback) :
    Exclusive (s.evDialFromUser env e) := by
  by_cases hi : (s.cep e).state = .idle
  · obtain ⟨hp, hc⟩ := (evDialFromUser_cep env hi).callback hr
    have hfresh : FreshFor { env with cdid := fun _ => none } s e := fun _ hn => nomatch hn
    exact h.dials hfresh only_evDialFromUser (.inl hi) (.inr hp) (.inl hc)
  · rw [evDialFromUser, if_neg hi]
    exact h

/-! ## Incoming calls -/

/-- Only entries that are offered the call remember its cdid. -/
def Reserved (cdid : Nat) (s : Daemon n) : Prop :=
  ∀ e, (s.cep e).cdid = cdid → (s.cep e).state = .incoming

theorem Reserved.yields {cdid : Nat} (h : Reserved cdid s) (hu : cdid ≠ cdidUnused)
    (hy : ∀ e, Yields (s.cep e) (t.cep e)) : Reserved cdid t := by
  intro e hc
  rcases hy e with h1 | ⟨-, h1⟩
  · rw [h1] at hc ⊢
    exact h e hc
  · exact absurd (hc.symm.trans h1) hu

/-- A parked entry is offered the call. -/
theorem Exclusive.offer {cdid : Nat} (h : Exclusive s) (hr : Reserved cdid s) (hu : cdid ≠ cdidUnused)
    (ho : Only e s t) (hst : (t.cep e).state = .incoming) (hc : (t.cep e).cdid = cdid) :
    Exclusive t ∧ Reserved cdid t := by
  refine ⟨⟨fun e1 e2 hne heq hu1 => ?_, fun e1 hp => ?_⟩, fun e1 h1 => ?_⟩
  · by_cases h1 : e1 = e
    · subst h1
      exact hst
    · rw [ho e1 h1] at heq hu1 ⊢
      by_cases h2 : e2 = e
      · subst h2
        exact hr e1 (heq.trans hc)
      · rw [ho e2 h2] at heq
        exact h.shared e1 e2 hne heq hu1
  · by_cases h1 : e1 = e
    · subst h1
      rwa [hc]
    · rw [ho e1 h1] at hp ⊢
      exact h.used e1 hp
  · by_cases h2 : e1 = e
    · subst h2
      exact hst
    · rw [ho e1 h2] at h1 ⊢
      exact hr e1 h1

/-- **The call is offered to one entry**; where the loop goes on, others may be offered it as well. -/
theorem exclusive_answerCall (env : Env n) (e : Fin n) {m : ConnectInd} (h : Exclusive s)
    (hr : Reserved m.cdid s) (hu : m.cdid ≠ cdidUnused) :
    Exclusive (s.answerCall env m e).1 ∧
      ((s.answerCall env m e).2 = false → Reserved m.cdid (s.answerCall env m e).1) := by
  obtain ⟨s0, hs0, honly, hin⟩ := offered_entry env m s e
  rw [answerCall, hs0]
  have hst : (s0.cep e).state = .incoming := by rw [hin]
  have hc : (s0.cep e).cdid = m.cdid := by rw [hin]
  obtain ⟨h0, hr0⟩ := h.offer hr hu honly hst hc
  split
  · exact ⟨exclusive_evConnectFromUser h0, nofun⟩
  · exact ⟨h0.yields (yields_evRejectFromUser env s0 e), nofun⟩
  · have h1 := h.offer (t := s0.cepSetState env e .incoming 0 0) hr hu (honly.cepSetState _ _ _)
      (by rw [cepSetState_cep]) (by rw [cepSetState_cep]; exact hc)
    have hcep : ((((s0.cepSetState env e .incoming 0 0).responseToUser e
        .incomingCall).evAlertFromUser e)).cep = (s0.cepSetState env e .incoming 0 0).cep :=
      evAlertFromUser_cep _ e
    exact ⟨h1.1.yields fun e' => .inl (congrFun hcep e'), fun _ =>
      h1.2.yields hu fun e' => .inl (congrFun hcep e')⟩
  · exact ⟨h0.yields (yields_evDisconnectFromUser env s0 e), fun _ =>
      hr0.yields hu (yields_evDisconnectFromUser env s0 e)⟩
  · split
    · have hcep : ((s0.responseToUser e .incomingCall).evAlertFromUser e).cep = s0.cep :=
        evAlertFromUser_cep _ e
      exact ⟨h0.yields fun e' => .inl (congrFun hcep e'), fun _ =>
        hr0.yields hu fun e' => .inl (congrFun hcep e')⟩
    · exact ⟨exclusive_evConnectFromUser h0, nofun⟩
  · rename_i hcb
    refine ⟨exclusive_callback (h0.yields (yields_evRejectFromUser env s0 e)) ?_, nofun⟩
    rcases evRejectFromUser_cep env hst e with ⟨-, hd⟩ | ⟨hn, -⟩
    · rw [hd.config]
      exact hcb
    · exact absurd rfl hn

theorem exclusive_incomingLoop {m : ConnectInd} (es : List (Fin n)) (h : Exclusive s)
    (hr : Reserved m.cdid s) (hu : m.cdid ≠ cdidUnused) : Exclusive (incomingLoop env m es s) := by
  induction es generalizing s with
  | nil => exact h
  | cons e es ih =>
    have hanswer : ∀ {t : Daemon n}, Exclusive t → Reserved m.cdid t →
        Exclusive (if (t.answerCall env m e).2 = true then (t.answerCall env m e).1
          else incomingLoop env m es (t.answerCall env m e).1) := by
      intro t ht hrt
      obtain ⟨h1, h2⟩ := exclusive_answerCall env e ht hrt hu
      split
      · exact h1
      · rename_i hn
        exact ih h1 (h2 (Bool.eq_false_iff.mpr hn))
    rw [incomingLoop]
    split
    · exact ih h hr
    · split
      · split
        · exact hanswer h hr
        · exact ih h hr
      · split
        · have hy := yields_evDisconnectFromUser env s e
          exact hanswer (h.yields hy) (hr.yields hu hy)
        · exact ih h hr

/-! ## Connecting -/

theorem chargeBudget_cep (c : Cep) :
    (chargeBudget c).cdid = c.cdid ∧ (chargeBudget c).state = c.state := by
  rw [chargeBudget]
  split <;> exact ⟨rfl, rfl⟩

/-- A call in progress remains one. -/
theorem Exclusive.connects (h : Exclusive s) (ha : Active (s.cep e)) (ho : Only e s t)
    (hc : (t.cep e).cdid = (s.cep e).cdid) : Exclusive t := by
  refine ⟨fun e1 e2 hne heq hu => ?_, fun e1 hp => ?_⟩
  · by_cases h1 : e1 = e
    · subst h1
      rw [ho e2 hne.symm, hc] at heq
      exact absurd heq.symm (h.others ha hne.symm)
    · rw [ho e1 h1] at heq hu ⊢
      by_cases h2 : e2 = e
      · subst h2
        rw [hc] at heq
        exact absurd heq (h.others ha h1)
      · rw [ho e2 h2] at heq
        exact h.shared e1 e2 hne heq hu
  · by_cases h1 : e1 = e
    · subst h1
      rw [hc]
      exact h.used e1 (not_parked_of_active ha)
    · rw [ho e1 h1] at hp ⊢
      exact h.used e1 hp

theorem exclusive_evConnectFromI4b (env : Env n) (h : Exclusive s) (cdid : Nat) (channel : Int) :
    Exclusive (s.evConnectFromI4b env cdid channel) := by
  rw [evConnectFromI4b]
  cases hf : s.getCepByCdid cdid with
  | none => exact h
  | some e =>
    dsimp only
    split
    · have h1 := h.yields (yields_evDisconnectFromUser env s e)
      have hidle : ((s.evDisconnectFromUser env e).cep e).state = .idle := by
        rw [evDisconnectFromUser_cep]
      rw [if_neg (by rw [hidle]; decide)]
      exact h1
    · split
      · rename_i hst
        have ha : Active (s.cep e) := hst.elim (fun h => .inr (.inl h)) .inl
        have hs : ∀ {t : Daemon n}, Only e s t → (t.cep e).cdid = (s.cep e).cdid →
            ∀ (p : Prop) [Decidable p], Exclusive (if p then t else t.modify e chargeBudget) := by
          intro t ho hc p _
          split
          · exact h.connects ha ho hc
          · refine h.connects ha (ho.modify _) ?_
            rw [modify_cep_self, (chargeBudget_cep _).1]
            exact hc
        refine hs ((((Only.refl.put _).responseToUser _ _).cepSetState _ _ _).modify _) ?_ _
        rw [modify_cep_self, cepSetState_cep]
        rfl
      · exact h

/-! ## The timer -/

/-- What an entry remembers comes from before, or from the kernel at this moment. -/
def Origin (env : Env n) (s t : Daemon n) : Prop :=
  ∀ e, (t.cep e).cdid = (s.cep e).cdid ∨ (t.cep e).cdid = cdidUnused ∨
    env.cdid e = some (t.cep e).cdid

/-- The kernel gives no cdid that another entry remembers, and none to two entries. -/
def Fresh (env : Env n) (s : Daemon n) : Prop :=
  ∀ e cdid, env.cdid e = some cdid → cdid ≠ cdidUnused ∧
    ∀ e', e' ≠ e → (s.cep e').cdid ≠ cdid ∧ env.cdid e' ≠ some cdid

theorem Fresh.freshFor (h : Fresh env s) (ho : Origin env s t) (e : Fin n) : FreshFor env t e := by
  intro cdid hc
  obtain ⟨hu, hn⟩ := h e cdid hc
  refine ⟨hu, fun e' he heq => ?_⟩
  rcases ho e' with h1 | h1 | h1
  · exact (hn e' he).1 (h1.symm.trans heq)
  · exact hu (heq.symm.trans h1)
  · exact (hn e' he).2 (heq ▸ h1)

theorem Origin.yields (h : Origin env s t) (hy : ∀ e, Yields (t.cep e) (u.cep e)) :
    Origin env s u := by
  intro e
  rcases hy e with h1 | ⟨-, h1⟩
  · rw [h1]
    exact h e
  · exact .inr (.inl h1)

theorem Origin.only (h : Origin env s t) (ho : Only e t u)
    (hc : (u.cep e).cdid = (t.cep e).cdid ∨ (u.cep e).cdid = cdidUnused ∨
      env.cdid e = some (u.cep e).cdid) : Origin env s u := by
  intro e'
  by_cases he : e' = e
  · subst he
    rcases hc with hc | hc
    · rw [hc]
      exact h e'
    · exact .inr hc
  · rw [ho e' he]
    exact h e'

theorem origin_evConnectFromUser (h : Origin env s t) : Origin env s (t.evConnectFromUser env e) := by
  by_cases hin : (t.cep e).state = .incoming
  · intro e'
    by_cases he : e' = e
    · subst he
      rw [evConnectFromUser_self env hin]
      exact h e'
    · rcases evConnectFromUser_other env hin he with ⟨-, hd⟩ | ⟨-, heq⟩
      · exact .inr (.inl hd.cdid)
      · rw [heq]
        exact h e'
  · rw [evConnectFromUser, if_neg hin]
    exact h

theorem exclusive_recoveryLoop (es : List (Fin n)) (hf : Fresh env s) (ho : Origin env s u)
    (h : Exclusive u) : Exclusive (recoveryLoop env es u) := by
  induction es generalizing u with
  | nil => exact h
  | cons e es ih =>
    have hrenew : ∀ e', ((u.modify e (renewBudgets env.now)).cep e').cdid = (u.cep e').cdid ∧
        ((u.modify e (renewBudgets env.now)).cep e').state = (u.cep e').state := by
      intro e'
      by_cases he : e' = e
      · subst he
        rw [modify_cep_self]
        exact ⟨rfl, rfl⟩
      · rw [modify_cep_of_ne u _ he]
        exact ⟨rfl, rfl⟩
    have h0 : Exclusive (u.modify e (renewBudgets env.now)) := by
      refine ⟨fun e1 e2 hne => ?_, fun e1 => ?_⟩
      · rw [(hrenew e1).1, (hrenew e2).1, (hrenew e1).2]
        exact h.shared e1 e2 hne
      · rw [Cep.Parked, (hrenew e1).1, (hrenew e1).2]
        exact h.used e1
    have ho0 : Origin env s (u.modify e (renewBudgets env.now)) := by
      intro e'
      rw [(hrenew e').1]
      exact ho e'
    rw [recoveryLoop]
    generalize u.modify e (renewBudgets env.now) = u0 at h0 ho0 ⊢
    split
    · split
      · exact h0.yields (yields_evDisconnectFromUser env u0 e)
      · refine ih ?_ (exclusive_evDialFromI4b h0 (hf.freshFor ho0 e))
        refine ho0.only only_evDialFromI4b ?_
        rw [evDialFromI4b]
        split
        · exact (dialCode_cep env u0 e).cdid
        · exact .inl rfl
      · exact ih (origin_evConnectFromUser ho0) (exclusive_evConnectFromUser h0)
      · exact ih ho0 h0
    · exact ih ho0 h0

/-! ## Runs -/

/-- The kernel gives no cdid to a call that an entry remembers: an incoming call may be known to
entries that it is offered to already. -/
structure Fits (env : Env n) (s : Daemon n) (i : Input n) : Prop where
  dialled : Fresh env s
  offered : ∀ m, i = .connectInd m → m.cdid ≠ cdidUnused ∧ Reserved m.cdid s

/-- **One step.** -/
theorem exclusive_step {i : Input n} (h : Exclusive s) (hi : Fits env s i) :
    Exclusive (s.step env i) := by
  have hdial : ∀ e, Exclusive (s.evDialFromUser env e) := fun e =>
    exclusive_evDialFromUser h (hi.dialled.freshFor (fun _ => .inl rfl) e)
  have hdriver : ∀ {driver unit : Nat} {f : Fin n → Daemon n}, (∀ e, Exclusive (f e)) →
      Exclusive (s.forDriver driver unit f) := by
    intro driver unit f hf
    rw [forDriver]
    split
    · exact hf _
    · exact ⟨h.shared, h.used⟩
  cases i with
  | connectInd m =>
    obtain ⟨hu, hr⟩ := hi.offered m rfl
    rw [step, evIncomingFromI4b]
    split
    · exact h
    · exact exclusive_incomingLoop _ h hr hu
  | informationInd cdid => exact ⟨h.shared, h.used⟩
  | connectActiveInd cdid channel => exact exclusive_evConnectFromI4b env h cdid channel
  | disconnectInd cdid cause => exact h.yields (yields_evDisconnectFromI4b env s cdid cause none)
  | dialoutInd driver unit => exact hdriver hdial
  | dialoutnumberInd driver unit cmd subaddr =>
    refine hdriver fun e => ?_
    split
    · exact hdial e
    · exact h
  | keypadInd driver unit => exact hdriver hdial
  | drvrdiscReq driver unit =>
    rw [step]
    split
    · exact h.yields (yields_evDisconnectFromUser env s _)
    · exact h
  | drvranswerReq driver unit => exact hdriver fun _ => exclusive_evConnectFromUser h
  | drvrrejectReq driver unit => exact hdriver fun e => h.yields (yields_evRejectFromUser env s e)
  | hangup e => exact h.yields (yields_evDisconnectFromUser env s e)
  | recovery =>
    rw [step, handleRecovery]
    split
    · exact exclusive_recoveryLoop (s := s) _ hi.dialled (fun _ => .inl rfl) ⟨h.shared, h.used⟩
    · exact h
  | other => exact h

/-- All steps of a run fit. -/
def Orderly : Daemon n → List (Env n × Input n) → Prop
  | _, [] => True
  | s, ev :: evs => Fits ev.1 s ev.2 ∧ Orderly (s.step ev.1 ev.2) evs

theorem exclusive_start (cfg : Fin n → Config) : Exclusive (start cfg) :=
  ⟨fun _ _ _ _ hu => absurd rfl hu, fun _ hp => absurd (.inl rfl) hp⟩

theorem exclusive_run {evs : List (Env n × Input n)} (h : Exclusive s) (hr : Orderly s evs) :
    Exclusive (s.run evs) := by
  induction evs generalizing s with
  | nil => exact h
  | cons ev evs ih => exact ih (exclusive_step h hr.1) hr.2

/-- **Where the kernel gives no cdid to a call that another entry remembers, the messages for a call
in progress are for its entry, and no other entry remembers its cdid.** -/
theorem lookup_run {cfg : Fin n → Config} {evs : List (Env n × Input n)}
    (h : Orderly (start cfg) evs) {e : Fin n} (ha : Active (((start cfg).run evs).cep e)) :
    ((start cfg).run evs).getCepByCdid (((start cfg).run evs).cep e).cdid = some e ∧
      ∀ e', e' ≠ e →
        (((start cfg).run evs).cep e').cdid ≠ (((start cfg).run evs).cep e).cdid :=
  have hx := exclusive_run (exclusive_start cfg) h
  ⟨hx.lookup ha, fun _ he => hx.others ha he⟩

/-! ## Two entries -/

/-- An entry for outgoing calls. -/
def outgoing (unit : Nat) : Config where
  isdncontroller := 0
  isdnchannel := -1
  usrdevicename := 1
  usrdeviceunit := unit
  localPhoneIncoming := ⟨[], []⟩
  remotePhoneIncoming := []
  dialinReaction := .ignore
  bprotocol := 0
  callbackwait := 1
  calledbackwait := 2
  dialretries := 1
  recoverytime := 1
  dialrandincr := false
  usedown := false
  downtime := 0
  dialoutCalledback := false
  alert := 0
  inout := .outonly
  usesubaddr := false
  callback := ⟨0, 0⟩
  callout := ⟨0, 0⟩
  day := 0
  fromhr := 0
  frommin := 0
  tohr := 0
  tomin := 0
  maxconnecttime := 0

/-- Two of them. -/
abbrev two : Daemon 2 := start fun e => outgoing e

/-- A moment at which the kernel has a cdid for an entry that dials, and dials or refuses to. -/
def moment (now : Nat) (e : Fin 2) (cdid : Nat) (connect : Bool) : Env 2 where
  now := now
  hour := 0
  min := 0
  wday := 0
  holiday := false
  random _ := 0
  cdid e' := if e' = e then some cdid else none
  connect _ := connect

/-- The second entry dials. -/
theorem lookup_run_second :
    Active ((two.run [(moment 1 1 64 true, .dialoutInd 1 1)]).cep 1) ∧
      (two.run [(moment 1 1 64 true, .dialoutInd 1 1)]).getCepByCdid 64 = some 1 := by
  have h : Orderly two [(moment 1 1 64 true, .dialoutInd 1 1)] := by
    refine ⟨⟨fun e cdid hc => ?_, nofun⟩, trivial⟩
    have hc : (if e = 1 then some 64 else none) = some cdid := hc
    split at hc
    · rename_i he
      subst he
      obtain rfl : 64 = cdid := Option.some.inj hc
      exact ⟨by decide, fun e' he => ⟨nofun, by simp [moment, he]⟩⟩
    · cases hc
  have ha : Active ((two.run [(moment 1 1 64 true, .dialoutInd 1 1)]).cep 1) := by decide
  exact ⟨ha, (lookup_run h ha).1⟩

/-- **The kernel refuses to dial for the first entry, and gives the cdid to the second one**: the
answer is for the first entry, and the call is never connected. -/
theorem stale_cdid :
    Active ((two.run [(moment 1 0 64 false, .dialoutInd 1 0),
        (moment 2 1 64 true, .dialoutInd 1 1)]).cep 1) ∧
      ((two.run [(moment 1 0 64 false, .dialoutInd 1 0),
        (moment 2 1 64 true, .dialoutInd 1 1)]).cep 1).cdid = 64 ∧
      (two.run [(moment 1 0 64 false, .dialoutInd 1 0),
        (moment 2 1 64 true, .dialoutInd 1 1)]).getCepByCdid 64 = some 0 ∧
      ((two.run [(moment 1 0 64 false, .dialoutInd 1 0), (moment 2 1 64 true, .dialoutInd 1 1),
        (moment 3 1 64 true, .connectActiveInd 64 1)]).cep 1).state = .dial := by
  decide

end Cdids
end Isdnd
end Isdn4bsd
