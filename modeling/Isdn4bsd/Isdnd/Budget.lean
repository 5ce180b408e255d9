import Isdn4bsd.Isdnd.Effects

/-!
# The ISDN daemon: call budgets

An entry may have two budgets of so many calls in a period, one for calling back and one for calling
out.  Which of them is asked for depends on what the entry does with a call that comes in: an entry
that calls back asks for the first one, whoever wants it to dial, and all others ask for the second
one.  The budget is asked for when the user dials, and paid when the call is connected; in between the
call may be dialled several times, by the timer.

There are two ways around a budget.  A request for which there is no budget left fails like a dial
attempt does, so it is dialled again as well, then without anything to pay.  And an entry that calls
back never asks for its budget for calling out, although all of its calls are outgoing ones.

* `Sound`: calls that are dialled have a budget to be paid from.
* `Fits`: no request that was refused is dialled again.
* `Config.Asks`: the entry asks for the budget at all.
* `established_le`: **where that is so, there are no more calls in a period than the budget has.**
* `budget_exceeded`: budgets of one call, and two calls, in both ways.

## Asking and paying

These are far apart.  `ev_dial_from_user` compares the counter with zero and writes down in the entry
which budget the call is for; `ev_connect_from_i4b` decrements the counter of the budget that is
written down, if there is one.  What lies between is dialling, waiting for the timer, dialling again
and possibly another entry that loses its call, and none of that looks at a budget.  So the invariant
has to remember what was asked for: while a call is dialled, the budget it is for has at least one call
left (`Funded`), or nothing was asked for.

`Keeps` is what all functions do to an entry except for those that connect a call: the configuration
stays, a budget either stays or begins a new period, no call becomes a connected one, and `Sound` is
kept.  It is proved for each function from what `Effects` says of it, and the functions that connect are
the two other cases of `step_cases`: `Joins` for a call that came in, which costs nothing, and `Connects`.

## Counting

`established` counts, along a run, the steps in which an entry has an outgoing call connected.
`step_cost` compares this with what the counter loses in the step, and `run_cost` adds that up within
one period.  A period is recognized by the time at which it ends: that time only ever grows, so that
it is the same at two moments only if no period began between them.

Both directions of the exception are needed.  `Fits` is about the state before the step: it is a step of
the timer, and there is an entry that waits to be dialled again without anything to be paid.  `Asks` is
about the configuration only.
-/

set_option autoImplicit false

namespace Isdn4bsd
namespace Isdnd

open L3 (cdidUnused maxControllers causeI4bNormal)
open Daemon (renewAccount renewBudgets TimedOut chargeBudget)

variable {n : Nat} {env : Env n} {s t u : Daemon n} {e : Fin n} {c r : Cep}

/-! ## Entries -/

/-- What is to be paid for a call is there. -/
structure Funded (c : Cep) : Prop where
  paid : ∀ b, c.budgetCalltype = some b → b = c.kind ∧ (c.budget b).Given ∧ (c.account b).cnt ≠ 0
  bounds : ∀ b, 0 ≤ (c.account b).cnt ∧ (c.account b).cnt ≤ (c.budget b).ncalls

/-- A call that is dialled is an outgoing one, and is paid from the budget, if there is one. -/
structure Sound (c : Cep) : Prop extends Funded c where
  dial : c.state = .dial →
    c.dirIncoming = false ∧ ((c.budget c.kind).Given → c.budgetCalltype = some c.kind)
  incoming : c.state = .incoming ∨ c.state = .waitConnect → c.dirIncoming = true

theorem Funded.of_config (h : Funded c) (hcfg : r.toConfig = c.toConfig) (hu : Unspent c r)
    (ht : ∀ b, r.budgetCalltype = some b →
      b = c.kind ∧ (c.budget b).Given ∧ (c.account b).cnt ≠ 0) : Funded r := by
  refine ⟨fun b hb => ?_, fun b => ?_⟩
  · rw [hcfg, (hu b).1]
    exact ht b hb
  · rw [hcfg, (hu b).1]
    exact h.bounds b

theorem Funded.of_paid (h : Funded c) (hp : Paid c r) : Funded r :=
  h.of_config hp.config hp.unspent fun b hb => h.paid b (hp.calltype ▸ hb)

/-- What may become of an entry, but for an outgoing connection. -/
structure Keeps (c r : Cep) : Prop where
  config : r.toConfig = c.toConfig
  accounts : ∀ b,
    ((r.account b).cnt = (c.account b).cnt ∧ (r.account b).periodTime = (c.account b).periodTime) ∨
      (c.account b).periodTime < (r.account b).periodTime
  connected : r.state = .connected → c.state = .connected
  sound : Sound c → Sound r

theorem Keeps.refl : Keeps c c := ⟨rfl, fun _ => .inl ⟨rfl, rfl⟩, id, id⟩

theorem Keeps.trans {d : Cep} (h : Keeps c d) (h' : Keeps d r) : Keeps c r := by
  refine ⟨h'.config.trans h.config, fun b => ?_, h.connected ∘ h'.connected, h'.sound ∘ h.sound⟩
  rcases h.accounts b with ⟨h1, h2⟩ | h1 <;> rcases h'.accounts b with ⟨h1', h2'⟩ | h1'
  · exact .inl ⟨h1'.trans h1, h2'.trans h2⟩
  · exact .inr (h2 ▸ h1')
  · exact .inr (h2'.symm ▸ h1)
  · exact .inr (h1.trans h1')

/-- The entry is in a state without an outgoing call. -/
theorem Paid.keeps (h : Paid c r) (hd : r.state ≠ .dial) (hc : r.state ≠ .connected)
    (hi : Sound c → r.state = .incoming ∨ r.state = .waitConnect → r.dirIncoming = true) :
    Keeps c r :=
  ⟨h.config, fun b => .inl (h.unspent b), fun h => absurd h hc, fun hs =>
    ⟨hs.toFunded.of_paid h, fun h => absurd h hd, hi hs⟩⟩

theorem Paid.keeps_of_parked (h : Paid c r) (hp : r.Parked) : Keeps c r := by
  obtain ⟨hd, hi, hw, hc⟩ := Daemon.state_ne_of_parked hp
  exact h.keeps hd hc fun _ h => absurd h (not_or.mpr ⟨hi, hw⟩)

theorem Dropped.keeps (h : Dropped env c r) : Keeps c r := h.toPaid.keeps_of_parked h.parked

theorem Dialled.keeps (h : Dialled env e c r)
    (hg : (c.budget c.kind).Given → c.budgetCalltype ≠ none) : Keeps c r := by
  rcases h.state with ⟨hd, hdir, -⟩ | hp
  · have hc : r.state ≠ .connected := by
      rw [hd]
      decide
    refine ⟨h.config, fun b => .inl (h.unspent b), fun h => absurd h hc, fun hs =>
      ⟨hs.toFunded.of_paid h.toPaid, fun _ => ⟨hdir, fun hgiven => ?_⟩, fun hi => ?_⟩⟩
    · rw [h.config] at hgiven ⊢
      obtain ⟨b, hb⟩ := Option.ne_none_iff_exists'.mp (hg hgiven)
      rw [h.calltype, hb, (hs.paid b hb).1]
    · rw [hd] at hi
      simp at hi
  · exact h.toPaid.keeps_of_parked hp

theorem Requested.keeps (h : Requested env e c r) : Keeps c r := by
  have hc : r.state ≠ .connected := by
    rcases h.state with ⟨hd, -⟩ | hp
    · rw [hd]
      decide
    · exact (Daemon.state_ne_of_parked hp).2.2.2
  refine ⟨h.config, fun b => .inl (h.unspent b), fun h => absurd h hc, fun hs => ⟨?_, fun hd => ?_,
    fun hi => ?_⟩⟩
  · refine hs.toFunded.of_config h.config h.unspent fun b hb => ?_
    rcases h.calltype with ⟨ht, hg⟩ | ⟨ht, -⟩
    · obtain rfl : c.kind = b := Option.some.inj (ht.symm.trans hb)
      exact ⟨rfl, hg⟩
    · rw [ht] at hb
      cases hb
  · rcases h.state with ⟨-, hdir, -⟩ | hp
    · rw [h.config]
      rcases h.calltype with ⟨ht, -⟩ | ⟨-, hg⟩
      · exact ⟨hdir, fun _ => ht⟩
      · exact ⟨hdir, fun hgiven => absurd hd (hg hgiven)⟩
    · exact absurd hd (Daemon.state_ne_of_parked hp).1
  · rcases h.state with ⟨hd, -⟩ | hp
    · rw [hd] at hi
      simp at hi
    · obtain ⟨-, hin, hw, -⟩ := Daemon.state_ne_of_parked hp
      exact absurd hi (not_or.mpr ⟨hin, hw⟩)

/-! ## While the timer is looked at -/

/-- Nothing was decided about the entry since then, or its state was set at this moment. -/
structure Waits (env : Env n) (c r : Cep) : Prop where
  config : r.toConfig = c.toConfig
  calltype : r.budgetCalltype = c.budgetCalltype
  stamp : Stamp env c r

theorem Waits.refl : Waits env c c := ⟨rfl, rfl, .inr ⟨rfl, rfl, rfl, rfl⟩⟩

theorem Waits.trans {d : Cep} (h : Waits env c d) (h' : Waits env d r) : Waits env c r := by
  refine ⟨h'.config.trans h.config, h'.calltype.trans h.calltype, ?_⟩
  rcases h'.stamp with h1 | ⟨h1, h2, h3, h4⟩
  · exact .inl h1
  · rcases h.stamp with h5 | ⟨h5, h6, h7, h8⟩
    · exact .inl (h4.trans h5)
    · exact .inr ⟨h1.trans h5, h2.trans h6, h3.trans h7, h4.trans h8⟩

theorem keeps_renewBudgets (now : Nat) (c : Cep) : Keeps c (renewBudgets now c) := by
  have hrenew : ∀ (b : Budget) (a : Account),
      ((renewAccount now b a).cnt = a.cnt ∧ (renewAccount now b a).periodTime = a.periodTime) ∨
        a.periodTime < (renewAccount now b a).periodTime ∧ b.Given ∧
          (renewAccount now b a).cnt = b.ncalls := by
    intro b a
    rw [renewAccount]
    split
    · rename_i h
      have hpos := Nat.pos_of_ne_zero h.1.1
      exact .inr ⟨by dsimp only; omega, h.1, rfl⟩
    · exact .inl ⟨rfl, rfl⟩
  have hacc : ∀ b, ((renewBudgets now c).account b) = renewAccount now (c.budget b) (c.account b) :=
    fun b => by cases b <;> rfl
  refine ⟨rfl, fun b => ?_, id, fun hs => ⟨⟨fun b hb => ?_, fun b => ?_⟩, hs.dial, hs.incoming⟩⟩
  · rw [hacc]
    exact (hrenew _ _).imp id And.left
  · obtain ⟨hk, hg, h0⟩ := hs.paid b hb
    refine ⟨hk, hg, ?_⟩
    rw [hacc]
    rcases hrenew (c.budget b) (c.account b) with ⟨h, -⟩ | ⟨-, -, h⟩
    · rwa [h]
    · rw [h]
      exact Int.natCast_ne_zero.mpr hg.2
  · rw [hacc]
    have hb := hs.bounds b
    have hcfg : (renewBudgets now c).budget b = c.budget b := by cases b <;> rfl
    rw [hcfg]
    rcases hrenew (c.budget b) (c.account b) with ⟨h, -⟩ | ⟨-, -, h⟩
    · rwa [h]
    · rw [h]
      omega

theorem waits_renewBudgets (env : Env n) (now : Nat) (c : Cep) : Waits env c (renewBudgets now c) :=
  ⟨rfl, rfl, .inr ⟨rfl, rfl, rfl, rfl⟩⟩

theorem Dropped.waits (h : Dropped env c r) : Waits env c r := ⟨h.config, h.calltype, h.stamp⟩

/-- It is time to dial again for a request that was refused. -/
def Redials (env : Env n) (c : Cep) : Prop :=
  c.state = .dialFail ∧ c.waitfunc = 2 ∧ TimedOut env c ∧ (c.budget c.kind).Given ∧
    c.budgetCalltype = none

theorem Waits.redials (h : Waits env c r) (hr : Redials env r) : Redials env c := by
  obtain ⟨h1, h2, ⟨h3, h4⟩, h5, h6⟩ := hr
  rcases h.stamp with hs | ⟨hs1, hs2, hs3, hs4⟩
  · omega
  · rw [h.config] at h5
    rw [hs3, hs4] at h4
    exact ⟨hs1.symm.trans h1, hs2.symm.trans h2, ⟨hs1 ▸ h3, h4⟩, h5, h.calltype.symm.trans h6⟩

/-- `ev_dial_from_user` asks for this budget, if the calls that it is there for can be made at all: an
entry that calls back does not ask for its budget for calling out. -/
def Config.Asks (c : Config) : BudgetType → Prop
  | .cout => c.dialinReaction ≠ .callback
  | .cback => True

/-! ## All entries -/

namespace Daemon

/-- What a function may do that connects no outgoing call. -/
def KeepsAll (s t : Daemon n) : Prop := ∀ e, Keeps (s.cep e) (t.cep e)

theorem KeepsAll.refl : KeepsAll s s := fun _ => .refl

theorem KeepsAll.trans (h : KeepsAll s t) (h' : KeepsAll t u) : KeepsAll s u := fun e =>
  (h e).trans (h' e)

theorem KeepsAll.of_only (h : Only e s t) (h' : Keeps (s.cep e) (t.cep e)) : KeepsAll s t := by
  intro e'
  by_cases he : e' = e
  · subst he
    exact h'
  · rw [h e' he]
    exact .refl

theorem keeps_evDisconnectFromI4b (env : Env n) (s : Daemon n) (cdid cause : Nat)
    (except : Option (Fin n)) : KeepsAll s (s.evDisconnectFromI4b env cdid cause except) := by
  intro e
  rcases evDisconnectFromI4b_cep env s cdid cause except e with ⟨-, -, hd⟩ | ⟨-, heq⟩
  · exact hd.keeps
  · rw [heq]
    exact .refl

theorem keeps_evDisconnectFromUser (env : Env n) (s : Daemon n) (e : Fin n) :
    KeepsAll s (s.evDisconnectFromUser env e) := by
  refine .of_only only_evDisconnectFromUser (Paid.keeps_of_parked ?_ ?_)
  · rw [evDisconnectFromUser_cep]
    exact ⟨rfl, rfl, rfl, rfl⟩
  · rw [evDisconnectFromUser_cep]
    exact .inl rfl

theorem keeps_evRejectFromUser (env : Env n) (s : Daemon n) (e : Fin n) :
    KeepsAll s (s.evRejectFromUser env e) := by
  rw [evRejectFromUser]
  split
  · exact keeps_evDisconnectFromI4b env (s.put _) _ _ _
  · exact .refl

theorem keeps_evConnectFromUser (env : Env n) (s : Daemon n) (e : Fin n) :
    KeepsAll s (s.evConnectFromUser env e) := by
  by_cases h : (s.cep e).state = .incoming
  · intro e'
    by_cases he : e' = e
    · subst he
      rw [evConnectFromUser_self env h]
      exact Paid.keeps ⟨rfl, rfl, rfl, rfl⟩ nofun nofun fun hs _ => hs.incoming (.inl h)
    · rcases evConnectFromUser_other env h he with ⟨-, hd⟩ | ⟨-, heq⟩
      · exact hd.keeps
      · rw [heq]
        exact .refl
  · rw [evConnectFromUser, if_neg h]
    exact .refl

theorem keeps_evDialFromUser (env : Env n) (s : Daemon n) (e : Fin n) :
    KeepsAll s (s.evDialFromUser env e) := by
  by_cases h : (s.cep e).state = .idle
  · exact .of_only only_evDialFromUser (evDialFromUser_cep env h).keeps
  · rw [evDialFromUser, if_neg h]
    exact .refl

theorem keeps_answerCall (env : Env n) (m : ConnectInd) (s : Daemon n) (e : Fin n) :
    KeepsAll s (s.answerCall env m e).1 := by
  obtain ⟨s0, hs0, honly, hin⟩ := offered_entry env m s e
  have h0 : KeepsAll s s0 := by
    refine .of_only honly ?_
    rw [hin]
    exact Paid.keeps ⟨rfl, rfl, rfl, rfl⟩ nofun nofun fun _ _ => rfl
  rw [answerCall, hs0]
  split
  · exact h0.trans (keeps_evConnectFromUser env s0 e)
  · exact h0.trans (keeps_evRejectFromUser env s0 e)
  · refine h0.trans ?_
    have h1 : KeepsAll s0 (s0.cepSetState env e .incoming 0 0) := by
      refine .of_only (Only.refl.cepSetState _ _ _) ?_
      rw [cepSetState_cep, hin]
      exact Paid.keeps ⟨rfl, rfl, rfl, rfl⟩ nofun nofun fun _ _ => rfl
    intro e'
    rw [evAlertFromUser_cep, responseToUser_cep]
    exact h1 e'
  · exact h0.trans (keeps_evDisconnectFromUser env s0 e)
  · split
    · intro e'
      rw [evAlertFromUser_cep, responseToUser_cep]
      exact h0 e'
    · exact h0.trans (keeps_evConnectFromUser env s0 e)
  · exact (h0.trans (keeps_evRejectFromUser env s0 e)).trans (keeps_evDialFromUser env _ e)

theorem keeps_incomingLoop (env : Env n) (m : ConnectInd) (es : List (Fin n)) (s : Daemon n) :
    KeepsAll s (incomingLoop env m es s) := by
  induction es generalizing s with
  | nil => exact .refl
  | cons e es ih =>
    rw [incomingLoop]
    split
    · exact ih s
    · split
      · split
        · dsimp only
          split
          · exact keeps_answerCall env m s e
          · exact (keeps_answerCall env m s e).trans (ih _)
        · exact ih s
      · split
        · have h := (keeps_evDisconnectFromUser env s e).trans
            (keeps_answerCall env m (s.evDisconnectFromUser env e) e)
          dsimp only
          split
          · exact h
          · exact h.trans (ih _)
        · exact ih s

/-! ## The timer -/

theorem waits_evConnectFromUser (env : Env n) (s : Daemon n) {e e' : Fin n} (he : e' ≠ e) :
    Waits env (s.cep e') ((s.evConnectFromUser env e).cep e') := by
  by_cases h : (s.cep e).state = .incoming
  · rcases evConnectFromUser_other env h he with ⟨-, hd⟩ | ⟨-, heq⟩
    · exact hd.waits
    · rw [heq]
      exact .refl
  · rw [evConnectFromUser, if_neg h]
    exact .refl

theorem keeps_recoveryLoop (env : Env n) {es : List (Fin n)} (hnd : es.Nodup) (s u : Daemon n)
    (hw : ∀ e ∈ es, Waits env (s.cep e) (u.cep e)) (hr : ∀ e, ¬ Redials env (s.cep e)) :
    KeepsAll u (recoveryLoop env es u) := by
  induction es generalizing u with
  | nil => exact .refl
  | cons e es ih =>
    obtain ⟨hn, hnd⟩ := List.nodup_cons.mp hnd
    have hself : (u.modify e (renewBudgets env.now)).cep e = renewBudgets env.now (u.cep e) :=
      modify_cep_self _ _ _
    have honly : Only e u (u.modify e (renewBudgets env.now)) := Only.refl.modify _
    have h0 : KeepsAll u (u.modify e (renewBudgets env.now)) :=
      .of_only honly (hself ▸ keeps_renewBudgets env.now (u.cep e))
    have hredial : ¬ Redials env ((u.modify e (renewBudgets env.now)).cep e) := fun h =>
      hr e (((hw e List.mem_cons_self).trans (hself ▸ waits_renewBudgets env env.now _)).redials h)
    -- the entries that are still to come
    have hrest : ∀ {t : Daemon n}, (∀ e', e' ≠ e →
        Waits env ((u.modify e (renewBudgets env.now)).cep e') (t.cep e')) →
        ∀ e' ∈ es, Waits env (s.cep e') (t.cep e') := by
      intro t ht e' he'
      have hne : e' ≠ e := by
        rintro rfl
        exact hn he'
      have h := ht e' hne
      rw [honly e' hne] at h
      exact (hw e' (List.mem_cons_of_mem _ he')).trans h
    rw [recoveryLoop]
    generalize u.modify e (renewBudgets env.now) = u0 at h0 hredial hrest ⊢
    split
    · rename_i htime
      split
      · exact h0.trans (keeps_evDisconnectFromUser env u0 e)
      · rename_i hfunc
        refine (h0.trans ?_).trans (ih hnd _ (hrest fun e' he' => ?_))
        · refine .of_only only_evDialFromI4b ?_
          rw [evDialFromI4b]
          split
          · rename_i hst
            refine (dialCode_cep env u0 e).keeps fun hg ht => hredial ⟨hst, hfunc, htime, hg, ht⟩
          · exact .refl
        · rw [only_evDialFromI4b e' he']
          exact .refl
      · exact (h0.trans (keeps_evConnectFromUser env u0 e)).trans
          (ih hnd _ (hrest fun e' he' => waits_evConnectFromUser env u0 he'))
      · exact h0.trans (ih hnd _ (hrest fun _ _ => .refl))
    · exact h0.trans (ih hnd _ (hrest fun _ _ => .refl))

theorem keeps_handleRecovery (env : Env n) (s : Daemon n) (hr : ∀ e, ¬ Redials env (s.cep e)) :
    KeepsAll s (s.handleRecovery env) := by
  rw [handleRecovery]
  split
  · exact keeps_recoveryLoop env (List.nodup_finRange n) s { s with lastTime := env.now }
      (fun _ _ => .refl) hr
  · exact .refl

/-! ## The connection -/

/-- An incoming call is connected. -/
structure Joins (c r : Cep) : Prop extends Paid c r where
  dir : r.dirIncoming = true
  sound : Sound c → Sound r

/-- An outgoing call is connected, and paid. -/
structure Connects (c r : Cep) : Prop where
  config : r.toConfig = c.toConfig
  before : c.state = .dial
  after : r.state = .connected
  dir : r.dirIncoming = false
  account : Sound c → (c.budget c.kind).Given →
    (r.account c.kind).cnt = (c.account c.kind).cnt - 1
  periodTime : ∀ b, (r.account b).periodTime = (c.account b).periodTime
  sound : Sound c → Sound r

theorem chargeBudget_config (c : Cep) : (chargeBudget c).toConfig = c.toConfig ∧
    (chargeBudget c).state = c.state ∧ (chargeBudget c).dirIncoming = c.dirIncoming ∧
    (chargeBudget c).budgetCalltype = none ∧
    ∀ b, ((chargeBudget c).account b).periodTime = (c.account b).periodTime ∧
      ((chargeBudget c).account b).cnt =
        (c.account b).cnt - if c.budgetCalltype = some b then 1 else 0 := by
  rw [chargeBudget]
  cases h : c.budgetCalltype with
  | none => exact ⟨rfl, rfl, rfl, h, fun b => ⟨rfl, by simp⟩⟩
  | some b' =>
    cases b' <;> exact ⟨rfl, rfl, rfl, rfl, fun b => by cases b <;> simp [Cep.account]⟩

/-- An outgoing call that was dialled is connected. -/
theorem connects_chargeBudget {d : Cep} (hp : Paid c d) (hst : c.state = .dial)
    (hd : d.state = .connected) (hdir : d.dirIncoming = false) : Connects c (chargeBudget d) := by
  obtain ⟨hcfg, hs, hi, ht, hacc⟩ := chargeBudget_config d
  have hkind : ∀ b, d.budgetCalltype = some b ↔ c.budgetCalltype = some b := fun b => by
    rw [hp.calltype]
  refine ⟨hcfg.trans hp.config, hst, hs.trans hd, hi.trans hdir, fun hc hg => ?_, fun b => ?_,
    fun hc => ⟨⟨fun b hb => ?_, fun b => ?_⟩, fun h => ?_, fun h => ?_⟩⟩
  · rw [(hacc _).2, if_pos ((hkind _).mpr ((hc.dial hst).2 hg)), (hp.unspent _).1]
  · rw [(hacc b).1, (hp.unspent b).2]
  · rw [ht] at hb
    cases hb
  · rw [(hacc b).2, (hp.unspent b).1, hcfg, hp.config]
    have hb := hc.bounds b
    split
    · rename_i h
      have h0 := (hc.paid b ((hkind b).mp h)).2.2
      omega
    · omega
  · rw [hs, hd] at h
    cases h
  · rw [hs, hd] at h
    simp at h

/-- **`MSG_CONNECT_ACTIVE_IND` connects one entry at most**, and an outgoing call only if it was
dialled. -/
theorem evConnectFromI4b_cep (env : Env n) (s : Daemon n) (cdid : Nat) (channel : Int)
    (hs : ∀ e, Sound (s.cep e)) (e : Fin n) :
    Keeps (s.cep e) ((s.evConnectFromI4b env cdid channel).cep e) ∨
      Joins (s.cep e) ((s.evConnectFromI4b env cdid channel).cep e) ∨
      Connects (s.cep e) ((s.evConnectFromI4b env cdid channel).cep e) := by
  rw [evConnectFromI4b]
  cases hf : s.getCepByCdid cdid with
  | none => exact .inl .refl
  | some e0 =>
    dsimp only
    by_cases hb : (s.cep e0).state = .dial ∧ (s.cep e0).IsCalledBack
    · -- it is disconnected, and there is nothing to be connected
      have hidle : ((s.evDisconnectFromUser env e0).cep e0).state = .idle := by
        rw [evDisconnectFromUser_cep]
      rw [if_pos hb, if_neg (by rw [hidle]; decide)]
      exact .inl (keeps_evDisconnectFromUser env s e0 e)
    · rw [if_neg hb]
      split
      · rename_i hst
        have hcep := modify_cep_self (((s.put (.linkBChannelDriverReq cdid)).responseToUser e0
          .connected).cepSetState env e0 .connected (s.cep e0).maxconnecttime
            (if 0 < (s.cep e0).maxconnecttime then 1 else 0)) e0 fun c =>
          { c with isdncontrollerused := cdid % maxControllers, isdnchannelused := channel }
        have honly : Only e0 s ((((s.put (.linkBChannelDriverReq cdid)).responseToUser e0
            .connected).cepSetState env e0 .connected (s.cep e0).maxconnecttime
              (if 0 < (s.cep e0).maxconnecttime then 1 else 0)).modify e0 fun c =>
            { c with isdncontrollerused := cdid % maxControllers, isdnchannelused := channel }) :=
          (((Only.refl.put _).responseToUser _ _).cepSetState _ _ _).modify _
        rw [cepSetState_cep] at hcep
        have hmax : ((((s.put (.linkBChannelDriverReq cdid)).responseToUser e0 .connected).cep
            e0).maxconnecttime) = (s.cep e0).maxconnecttime := rfl
        rw [hmax]
        generalize ((((s.put (.linkBChannelDriverReq cdid)).responseToUser e0
          .connected).cepSetState env e0 .connected (s.cep e0).maxconnecttime
            (if 0 < (s.cep e0).maxconnecttime then 1 else 0)).modify e0 fun c =>
          { c with isdncontrollerused := cdid % maxControllers, isdnchannelused := channel }) = s1
          at hcep honly ⊢
        have hp : Paid (s.cep e0) (s1.cep e0) := by
          rw [hcep]
          exact ⟨rfl, rfl, rfl, rfl⟩
        have h1 : (s1.cep e0).state = .connected := by rw [hcep]
        have h2 : (s1.cep e0).dirIncoming = (s.cep e0).dirIncoming := by rw [hcep]; rfl
        by_cases he : e = e0
        · subst he
          right
          split
          · rename_i hdir
            refine .inl ⟨hp, hdir, fun hc => ⟨hc.toFunded.of_paid hp, fun h => ?_, fun _ => hdir⟩⟩
            rw [h1] at h
            cases h
          · rename_i hdir
            rw [modify_cep_self]
            have hdial : (s.cep e).state = .dial := by
              refine hst.resolve_left fun hw => hdir ?_
              rw [h2]
              exact (hs e).incoming (.inr hw)
            exact .inr (connects_chargeBudget hp hdial h1 (by simpa using hdir))
        · left
          split
          · rw [honly e he]
            exact .refl
          · rw [modify_cep_of_ne _ _ he, honly e he]
            exact .refl
      · exact .inl .refl

/-! ## Runs -/

/-- No request that was refused is dialled again. -/
def Fits (env : Env n) (s : Daemon n) : Input n → Prop
  | .recovery => ∀ e, ¬ Redials env (s.cep e)
  | _ => True

/-- **One step.** -/
theorem step_cases (env : Env n) (s : Daemon n) (i : Input n) (hi : Fits env s i)
    (hs : ∀ e, Sound (s.cep e)) (e : Fin n) :
    Keeps (s.cep e) ((s.step env i).cep e) ∨ Joins (s.cep e) ((s.step env i).cep e) ∨
      Connects (s.cep e) ((s.step env i).cep e) := by
  have hdriver : ∀ {driver unit : Nat} {f : Fin n → Daemon n}, (∀ e, KeepsAll s (f e)) →
      KeepsAll s (s.forDriver driver unit f) := by
    intro driver unit f hf
    rw [forDriver]
    split
    · exact hf _
    · exact .refl
  cases i with
  | connectInd m =>
    rw [step, evIncomingFromI4b]
    split
    · exact .inl .refl
    · exact .inl (keeps_incomingLoop env m _ s e)
  | informationInd cdid => exact .inl .refl
  | connectActiveInd cdid channel => exact evConnectFromI4b_cep env s cdid channel hs e
  | disconnectInd cdid cause => exact .inl (keeps_evDisconnectFromI4b env s cdid cause none e)
  | dialoutInd driver unit => exact .inl (hdriver (keeps_evDialFromUser env s) e)
  | dialoutnumberInd driver unit cmd subaddr =>
    refine .inl (hdriver (fun e => ?_) e)
    split
    · exact keeps_evDialFromUser env s e
    · exact .refl
  | keypadInd driver unit => exact .inl (hdriver (keeps_evDialFromUser env s) e)
  | drvrdiscReq driver unit =>
    rw [step]
    split
    · exact .inl (keeps_evDisconnectFromUser env s _ e)
    · exact .inl .refl
  | drvranswerReq driver unit => exact .inl (hdriver (keeps_evConnectFromUser env s) e)
  | drvrrejectReq driver unit => exact .inl (hdriver (keeps_evRejectFromUser env s) e)
  | hangup e' => exact .inl (keeps_evDisconnectFromUser env s e' e)
  | recovery => exact .inl (keeps_handleRecovery env s hi e)
  | other => exact .inl .refl

/-- An outgoing call of the entry is established. -/
def Establishes (s t : Daemon n) (e : Fin n) : Prop :=
  (s.cep e).state ≠ .connected ∧ (t.cep e).state = .connected ∧ (t.cep e).dirIncoming = false

instance (s t : Daemon n) (e : Fin n) : Decidable (Establishes s t e) :=
  inferInstanceAs (Decidable (_ ∧ _))

/-- The number of outgoing calls of an entry that are established in a run. -/
def established (e : Fin n) : Daemon n → List (Env n × Input n) → Nat
  | _, [] => 0
  | s, ev :: evs =>
    (if Establishes s (s.step ev.1 ev.2) e then 1 else 0) + established e (s.step ev.1 ev.2) evs

/-- All steps of a run fit. -/
def Orderly : Daemon n → List (Env n × Input n) → Prop
  | _, [] => True
  | s, ev :: evs => Fits ev.1 s ev.2 ∧ Orderly (s.step ev.1 ev.2) evs

theorem orderly_append {s : Daemon n} {evs evs' : List (Env n × Input n)} :
    Orderly s (evs ++ evs') ↔ Orderly s evs ∧ Orderly (s.run evs) evs' := by
  induction evs generalizing s with
  | nil => exact ⟨fun h => ⟨trivial, h⟩, And.right⟩
  | cons ev evs ih => exact (and_congr_right fun _ => ih).trans and_assoc.symm

/-- What a step does to the configuration, and to the current period of a budget. -/
theorem step_account (env : Env n) (s : Daemon n) (i : Input n) (hi : Fits env s i)
    (hs : ∀ e, Sound (s.cep e)) (e : Fin n) :
    Sound ((s.step env i).cep e) ∧ ((s.step env i).cep e).toConfig = (s.cep e).toConfig ∧
      ∀ b, ((s.cep e).account b).periodTime ≤ (((s.step env i).cep e).account b).periodTime := by
  rcases step_cases env s i hi hs e with h | h | h
  · refine ⟨h.sound (hs e), h.config, fun b => ?_⟩
    rcases h.accounts b with ⟨-, h⟩ | h
    · exact h.ge
    · exact h.le
  · exact ⟨h.sound (hs e), h.config, fun b => (h.toPaid.unspent b).2.ge⟩
  · exact ⟨h.sound (hs e), h.config, fun b => (h.periodTime b).ge⟩

/-- **What a step costs**: a call that is established is paid from the budget, and nothing else is. -/
theorem step_cost (env : Env n) (s : Daemon n) (i : Input n) (hi : Fits env s i)
    (hs : ∀ e, Sound (s.cep e)) (e : Fin n) (hg : ((s.cep e).budget (s.cep e).kind).Given)
    (hp : (((s.step env i).cep e).account (s.cep e).kind).periodTime =
      ((s.cep e).account (s.cep e).kind).periodTime) :
    (((s.step env i).cep e).account (s.cep e).kind).cnt +
        (if Establishes s (s.step env i) e then 1 else 0) =
      ((s.cep e).account (s.cep e).kind).cnt := by
  rcases step_cases env s i hi hs e with h | h | h
  · rw [if_neg fun he => he.1 (h.connected he.2.1)]
    rcases h.accounts (s.cep e).kind with ⟨h, -⟩ | h
    · simp [h]
    · omega
  · have hn : ¬ Establishes s (s.step env i) e := fun he =>
      Bool.false_ne_true (he.2.2.symm.trans h.dir)
    rw [if_neg hn, (h.toPaid.unspent _).1]
    simp
  · have hy : Establishes s (s.step env i) e := ⟨by rw [h.before]; decide, h.after, h.dir⟩
    rw [if_pos hy, h.account (hs e) hg]
    omega

/-- What a run does to the configuration, and to the current period of a budget. -/
theorem run_account {s : Daemon n} (hs : ∀ e, Sound (s.cep e)) {evs : List (Env n × Input n)}
    (h : Orderly s evs) (e : Fin n) :
    Sound ((s.run evs).cep e) ∧ ((s.run evs).cep e).toConfig = (s.cep e).toConfig ∧
      ∀ b, ((s.cep e).account b).periodTime ≤ (((s.run evs).cep e).account b).periodTime := by
  induction evs generalizing s with
  | nil => exact ⟨hs e, rfl, fun _ => le_rfl⟩
  | cons ev evs ih =>
    obtain ⟨hi, h⟩ := h
    obtain ⟨h1, h2, h3⟩ := ih (fun e => (step_account ev.1 s ev.2 hi hs e).1) h
    obtain ⟨-, h4, h5⟩ := step_account ev.1 s ev.2 hi hs e
    exact ⟨h1, h2.trans h4, fun b => (h5 b).trans (h3 b)⟩

/-- **What a run within one period costs.** -/
theorem run_cost {s : Daemon n} (hs : ∀ e, Sound (s.cep e)) {evs : List (Env n × Input n)}
    (h : Orderly s evs) (e : Fin n) (hg : ((s.cep e).budget (s.cep e).kind).Given)
    (hp : (((s.run evs).cep e).account (s.cep e).kind).periodTime =
      ((s.cep e).account (s.cep e).kind).periodTime) :
    (((s.run evs).cep e).account (s.cep e).kind).cnt + established e s evs =
      ((s.cep e).account (s.cep e).kind).cnt := by
  induction evs generalizing s with
  | nil => simp [established, Daemon.run]
  | cons ev evs ih =>
    obtain ⟨hi, h⟩ := h
    have hs1 : ∀ e, Sound ((s.step ev.1 ev.2).cep e) := fun e => (step_account ev.1 s ev.2 hi hs e).1
    obtain ⟨-, hcfg, hle⟩ := step_account ev.1 s ev.2 hi hs e
    obtain ⟨-, -, hle'⟩ := run_account hs1 h e
    have hmid : (((s.step ev.1 ev.2).cep e).account (s.cep e).kind).periodTime =
        ((s.cep e).account (s.cep e).kind).periodTime :=
      le_antisymm ((hle' _).trans hp.le) (hle _)
    have hcost := step_cost ev.1 s ev.2 hi hs e hg hmid
    have hrest := ih hs1 h (by rw [hcfg]; exact hg) (by rw [hcfg]; exact hp.trans hmid.symm)
    rw [hcfg] at hrest
    have hrun : s.run (ev :: evs) = (s.step ev.1 ev.2).run evs := rfl
    rw [established, ← hcost, ← hrest, hrun]
    push_cast
    ring

theorem sound_start (cfg : Fin n → Config) (e : Fin n) : Sound ((start cfg).cep e) :=
  ⟨⟨nofun, fun b => by cases b <;> exact ⟨le_rfl, Int.natCast_nonneg _⟩⟩, nofun,
    fun h => by rcases h with h | h <;> cases h⟩

/-- **A run within one period costs no more than there was at its start**, for the budget that the
entry asks for. -/
theorem established_le_kind {cfg : Fin n → Config} {evs evs' : List (Env n × Input n)}
    (h : Orderly (start cfg) (evs ++ evs')) {e : Fin n}
    (hg : ((cfg e).budget (cfg e).kind).Given)
    (hp : ((((start cfg).run (evs ++ evs')).cep e).account (cfg e).kind).periodTime =
      ((((start cfg).run evs).cep e).account (cfg e).kind).periodTime) :
    established e ((start cfg).run evs) evs' ≤ ((cfg e).budget (cfg e).kind).ncalls := by
  obtain ⟨h1, h2⟩ := orderly_append.mp h
  have hs : ∀ e, Sound (((start cfg).run evs).cep e) := fun e =>
    (run_account (sound_start cfg) h1 e).1
  have hcfg : (((start cfg).run evs).cep e).toConfig = cfg e :=
    (run_account (sound_start cfg) h1 e).2.1
  have hrun : (start cfg).run (evs ++ evs') = ((start cfg).run evs).run evs' := List.foldl_append
  rw [hrun] at hp
  obtain ⟨hsound, hcfg', -⟩ := run_account hs h2 e
  have hcost := run_cost hs h2 e (by rw [hcfg]; exact hg) (by rw [hcfg]; exact hp)
  have hlow := (hsound.bounds (cfg e).kind).1
  have hhigh := ((hs e).bounds (cfg e).kind).2
  rw [hcfg] at hcost hhigh
  omega

/-- The calls of an entry that a budget is there for: the one for calling out for every outgoing call,
the one for calling back for those of an entry that calls back. -/
def callsFor (cfg : Fin n → Config) (e : Fin n) (s : Daemon n) (evs : List (Env n × Input n)) :
    BudgetType → Nat
  | .cout => established e s evs
  | .cback => if (cfg e).dialinReaction = .callback then established e s evs else 0

/-- **No entry makes more calls in a period than a budget of it has**, where the entry asks for this
budget, and no request that was refused is dialled again. -/
theorem established_le {cfg : Fin n → Config} {evs evs' : List (Env n × Input n)}
    (h : Orderly (start cfg) (evs ++ evs')) {e : Fin n} {b : BudgetType}
    (hg : ((cfg e).budget b).Given) (ha : (cfg e).Asks b)
    (hp : ((((start cfg).run (evs ++ evs')).cep e).account b).periodTime =
      ((((start cfg).run evs).cep e).account b).periodTime) :
    callsFor cfg e ((start cfg).run evs) evs' b ≤ ((cfg e).budget b).ncalls := by
  cases b with
  | cout =>
    have hk : (cfg e).kind = .cout := if_neg ha
    have hle := @established_le_kind _ cfg evs evs' h e
    rw [hk] at hle
    exact hle hg hp
  | cback =>
    by_cases hr : (cfg e).dialinReaction = .callback
    · have hk : (cfg e).kind = .cback := if_pos hr
      have hle := @established_le_kind _ cfg evs evs' h e
      rw [hk] at hle
      exact (if_pos hr).le.trans (hle hg hp)
    · exact (if_neg hr).le.trans (Nat.zero_le _)

/-- An entry with a budget of one call in an hour, which is dialled three times at most. -/
def oneCall : Config where
  isdncontroller := 0
  isdnchannel := -1
  usrdevicename := 1
  usrdeviceunit := 0
  localPhoneIncoming := ⟨[], []⟩
  remotePhoneIncoming := []
  dialinReaction := .ignore
  bprotocol := 0
  callbackwait := 1
  calledbackwait := 2
  dialretries := 3
  recoverytime := 1
  dialrandincr := false
  usedown := false
  downtime := 0
  dialoutCalledback := false
  alert := 0
  inout := .inout
  usesubaddr := false
  callback := ⟨0, 0⟩
  callout := ⟨3600, 1⟩
  day := 0
  fromhr := 0
  frommin := 0
  tohr := 0
  tomin := 0
  maxconnecttime := 0

/-- A moment at which the kernel has that cdid for a call. -/
def moment (now cdid : Nat) : Env 1 where
  now := now
  hour := 0
  min := 0
  wday := 0
  holiday := false
  random _ := 0
  cdid _ := some cdid
  connect _ := true

/-- The period begins. -/
def begins : List (Env 1 × Input 1) := [(moment 1 64, .recovery)]

/-- One call, and a request for another one. -/
def twoRequests : List (Env 1 × Input 1) :=
  [(moment 2 64, .dialoutInd 1 0), (moment 3 64, .connectActiveInd 64 1),
    (moment 4 64, .disconnectInd 64 0), (moment 5 128, .dialoutInd 1 0)]

/-- The request is dialled again, and there is an answer. -/
def redialled : List (Env 1 × Input 1) :=
  [(moment 9 128, .recovery), (moment 10 128, .connectActiveInd 128 1)]

/-- An entry that calls back, with a budget of one call for that. -/
def oneCallback : Config :=
  { oneCall with dialinReaction := .callback, callback := ⟨3600, 1⟩, callout := ⟨0, 0⟩ }

/-- An entry that calls back, with a budget of one call for calling out. -/
def callbackOut : Config := { oneCall with dialinReaction := .callback }

/-- A call that is made by the timer, as a callback is, and hung up. -/
def calledBack (now cdid : Nat) : List (Env 1 × Input 1) :=
  [(moment now cdid, .dialoutInd 1 0), (moment (now + 3) cdid, .recovery),
    (moment (now + 4) cdid, .connectActiveInd cdid 1), (moment (now + 5) cdid, .disconnectInd cdid 0)]

instance decidableRedials (env : Env n) (c : Cep) : Decidable (Redials env c) :=
  inferInstanceAs (Decidable (_ ∧ _ ∧ _ ∧ _ ∧ _))

/-- The call that there is a budget for, of either kind. -/
theorem established_le_one :
    callsFor (fun _ => oneCall) 0 ((start fun _ => oneCall).run begins) twoRequests .cout ≤ 1 ∧
      callsFor (fun _ => oneCallback) 0 ((start fun _ => oneCallback).run begins)
        (calledBack 2 64) .cback ≤ 1 := by
  have hout : Orderly (start fun _ => oneCall) (begins ++ twoRequests) :=
    ⟨fun e h => (by cases h.1), trivial, trivial, trivial, trivial, trivial⟩
  have hback : Orderly (start fun _ => oneCallback) (begins ++ calledBack 2 64) :=
    ⟨fun e h => (by cases h.1), trivial, fun e => by revert e; decide, trivial, trivial, trivial⟩
  exact ⟨established_le hout (e := 0) (b := .cout) (by decide) (by decide : _ ≠ _)
      (by decide),
    established_le hback (e := 0) (b := .cback) (by decide) trivial (by decide)⟩

/-- **Two calls for a budget of one**, in one period: after a request that was refused is dialled
again, and where the entry that has the budget for calling out calls back. -/
theorem budget_exceeded :
    ((oneCall.budget .cout).ncalls = 1 ∧
      ((((start fun _ => oneCall).run (begins ++ (twoRequests ++ redialled))).cep 0).account
          .cout).periodTime =
        ((((start fun _ => oneCall).run begins).cep 0).account .cout).periodTime ∧
      callsFor (fun _ => oneCall) 0 ((start fun _ => oneCall).run begins)
        (twoRequests ++ redialled) .cout = 2) ∧
    ((callbackOut.budget .cout).ncalls = 1 ∧
      ((((start fun _ => callbackOut).run
          (begins ++ (calledBack 2 64 ++ calledBack 10 128))).cep 0).account .cout).periodTime =
        ((((start fun _ => callbackOut).run begins).cep 0).account .cout).periodTime ∧
      callsFor (fun _ => callbackOut) 0 ((start fun _ => callbackOut).run begins)
        (calledBack 2 64 ++ calledBack 10 128) .cout = 2) := by
  decide

end Daemon

end Isdnd
end Isdn4bsd
