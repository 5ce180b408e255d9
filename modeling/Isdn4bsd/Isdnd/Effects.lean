import Isdn4bsd.Isdnd.Fsm

/-!
# The ISDN daemon: what its functions do to the entries

Each function of the state machine deals with one entry, and takes a call away from others at most.
This is said once for each of them.

* `Only`: nothing is done to other entries.
* `Dropped`, `Dialled`, `Requested`: what becomes of an entry that loses its call, dials, and is asked
to dial by the user.
* `evDisconnectFromI4b_cep`: **all entries with the cdid are dropped, and no others.**

## Two questions

Of a function that is given an entry one wants to know what becomes of the other entries, and what becomes
of this one.  The first question has the same answer nearly everywhere, and `Only` is closed under
everything that functions are made of, so that its proofs follow the text of a function.  The second
question is answered by a structure with the fields that later modules ask for, and never by the new
entry itself: `Dropped` says that the cdid is gone and that the state is idle or waits to be dialled,
and not what its counters of tries are.

* `Dropped` has a field for each thing that a lost call can change, also for a call that is dialled
again.
* `Dialled` says whether the kernel has given a cdid, and where the entry is in either case.
* `Requested` is what the user has brought about: the call was dialled, or refused for lack of a budget,
or put off since the entry calls back.

## Loops over all entries

`ev_disconnect_from_i4b`, `ev_reject_from_user` and `ev_connect_from_user` go over the whole table and
look at each entry for the cdid of the call.  The loop changes the table while it goes on, but an entry
is changed only when it is its turn.  So what is done can be decided by the table as it was at first:
`foldl_cep`, which is proved once for a function that changes one entry and a condition on entries.

## Budgets

`Config.kind` is the budget that the calls of an entry are paid from, `Paid` and `Unspent` say that
nothing happened to it.  They are here as all functions but one leave the budgets alone, and this is the
place at which each function is looked at.
-/

set_option autoImplicit false

namespace Isdn4bsd
namespace Isdnd

open L3 (cdidUnused maxControllers causeI4bNormal)

variable {n : Nat} {env : Env n} {s t u : Daemon n} {e e' : Fin n} {c r : Cep}

/-! ## Entries -/

/-- There is no call in the entry, or one that is still to be dialled. -/
def Cep.Parked (c : Cep) : Prop := c.state = .idle ∨ c.state = .dialFail

/-- A state that was set now, or the one it was. -/
def Stamp (env : Env n) (c r : Cep) : Prop :=
  r.lastSetStateTime = env.now ∨
    (r.state = c.state ∧ r.waitfunc = c.waitfunc ∧ r.waittime = c.waittime ∧
      r.lastSetStateTime = c.lastSetStateTime)

/-- What was decided about the costs of a call is as it was. -/
structure Paid (c r : Cep) : Prop where
  config : r.toConfig = c.toConfig
  callback : r.callbackAccount = c.callbackAccount
  callout : r.calloutAccount = c.calloutAccount
  calltype : r.budgetCalltype = c.budgetCalltype

theorem Paid.refl : Paid c c := ⟨rfl, rfl, rfl, rfl⟩

theorem Paid.trans {d : Cep} (h : Paid c d) (h' : Paid d r) : Paid c r :=
  ⟨h'.config.trans h.config, h'.callback.trans h.callback, h'.callout.trans h.callout,
    h'.calltype.trans h.calltype⟩

/-- The entry has lost its call. -/
structure Dropped (env : Env n) (c r : Cep) : Prop extends Paid c r where
  parked : r.Parked
  cdid : r.cdid = cdidUnused
  stamp : Stamp env c r

/-- The entry has dialled, with or without success. -/
structure Dialled (env : Env n) (e : Fin n) (c r : Cep) : Prop extends Paid c r where
  stamp : r.lastSetStateTime = env.now
  state : (r.state = .dial ∧ r.dirIncoming = false ∧ env.cdid e = some r.cdid) ∨ r.Parked
  cdid : r.cdid = c.cdid ∨ r.cdid = cdidUnused ∨ env.cdid e = some r.cdid

/-- What the outgoing connections of an entry are paid from. -/
def Config.kind (c : Config) : BudgetType := if c.dialinReaction = .callback then .cback else .cout

def Config.budget (c : Config) : BudgetType → Budget
  | .cback => c.callback
  | .cout => c.callout

def Cep.account (c : Cep) : BudgetType → Account
  | .cback => c.callbackAccount
  | .cout => c.calloutAccount

/-- The calls that are left, and the time they are for, are as they were. -/
def Unspent (c r : Cep) : Prop :=
  ∀ b, (r.account b).cnt = (c.account b).cnt ∧ (r.account b).periodTime = (c.account b).periodTime

theorem Paid.unspent (h : Paid c r) : Unspent c r
  | .cback => by rw [Cep.account, h.callback]; exact ⟨rfl, rfl⟩
  | .cout => by rw [Cep.account, h.callout]; exact ⟨rfl, rfl⟩

theorem Unspent.trans {d : Cep} (h : Unspent c d) (h' : Unspent d r) : Unspent c r := fun b =>
  ⟨(h' b).1.trans (h b).1, (h' b).2.trans (h b).2⟩

/-- The user has asked the entry to dial. -/
structure Requested (env : Env n) (e : Fin n) (c r : Cep) : Prop where
  config : r.toConfig = c.toConfig
  unspent : Unspent c r
  stamp : r.lastSetStateTime = env.now
  state : (r.state = .dial ∧ r.dirIncoming = false ∧ env.cdid e = some r.cdid) ∨ r.Parked
  cdid : r.cdid = c.cdid ∨ r.cdid = cdidUnused ∨ env.cdid e = some r.cdid
  calltype :
    (r.budgetCalltype = some c.kind ∧ (c.budget c.kind).Given ∧ (c.account c.kind).cnt ≠ 0) ∨
      (r.budgetCalltype = none ∧ ((c.budget c.kind).Given → r.state ≠ .dial))
  callback : c.dialinReaction = .callback → r.Parked ∧ r.cdid = c.cdid

namespace Daemon

/-! ## Other entries -/

/-- Nothing is done to other entries. -/
def Only (e : Fin n) (s t : Daemon n) : Prop := ∀ e', e' ≠ e → t.cep e' = s.cep e'

theorem Only.refl : Only e s s := fun _ _ => rfl

theorem Only.trans (h : Only e s t) (h' : Only e t u) : Only e s u := fun e' he =>
  (h' e' he).trans (h e' he)

theorem Only.modify (h : Only e s t) (f : Cep → Cep) : Only e s (t.modify e f) := fun e' he =>
  (modify_cep_of_ne t f he).trans (h e' he)

theorem Only.cepSetState (h : Only e s t) (state : State) (waittime waitfunc : Nat) :
    Only e s (t.cepSetState env e state waittime waitfunc) := h.modify _

theorem Only.ite {p : Prop} [Decidable p] (h : Only e s t) (h' : Only e s u) :
    Only e s (if p then t else u) := by
  split
  · exact h
  · exact h'

theorem Only.put (h : Only e s t) (o : Output) : Only e s (t.put o) := h

theorem Only.responseToUser (h : Only e s t) (e' : Fin n) (status : Dstat) :
    Only e s (t.responseToUser e' status) := h

theorem only_dialFailCode : Only e s (s.dialFailCode env e) := by
  have h : Only e s (s.modify e fun c => { c with dialCount := c.dialCount + 1 }) := Only.refl.modify _
  rw [dialFailCode]
  split
  · exact h.cepSetState _ _ _
  · split
    · exact (h.responseToUser _ _).cepSetState _ _ _
    · exact (h.responseToUser _ _).cepSetState _ _ _

theorem only_disconnectEntry (cause : Nat) : Only e s (s.disconnectEntry env cause e) := by
  have h : Only e s (s.modify e fun c => { c with discCause := cause, discRemote := true }) :=
    Only.refl.modify _
  have hend : ∀ {t : Daemon n} {p : Prop} [Decidable p], Only e s t →
      Only e s (if p then (t.responseToUser e .notConnected).cepSetState env e .idle 0 0 else t) :=
    fun ht => ((ht.responseToUser _ _).cepSetState _ _ _).ite ht
  rw [disconnectEntry]
  exact (hend (hend ((h.trans only_dialFailCode).ite h))).modify _

theorem only_evDisconnectFromUser : Only e s (s.evDisconnectFromUser env e) := by
  have h : Only e s (s.modify e fun c => { c with discCause := causeI4bNormal, discRemote := false }) :=
    Only.refl.modify _
  rw [evDisconnectFromUser]
  exact ((((h.put _).ite h).responseToUser _ _).cepSetState _ _ _).modify _

theorem only_sendmConnectReq : Only e s (s.sendmConnectReq env e).1 := by
  have h : Only e s s := .refl
  rw [sendmConnectReq]
  split
  · dsimp only
    exact (h.put _).modify _
  · dsimp only
    exact ((h.put _).modify _).put _

theorem only_dialCode : Only e s (s.dialCode env e) := by
  have h : Only e s s := .refl
  rw [dialCode]
  split
  · exact (h.responseToUser _ _).cepSetState _ _ _
  · split
    · exact (h.responseToUser _ _).cepSetState _ _ _
    · exact (((h.modify _).trans only_sendmConnectReq).cepSetState _ _ _).ite
        (((h.modify _).trans only_sendmConnectReq).trans only_dialFailCode)

theorem only_evDialFromI4b : Only e s (s.evDialFromI4b env e) := only_dialCode.ite .refl

theorem only_evDialFromUser : Only e s (s.evDialFromUser env e) := by
  have h : Only e s (s.modify e fun c => { c with budgetCalltype := none, dialCount := 0 }) :=
    Only.refl.modify _
  rw [evDialFromUser]
  refine Only.ite (Only.ite (Only.ite (Only.ite ?_ ?_) ?_) (Only.ite (Only.ite ?_ ?_) ?_)) .refl
  · exact (h.modify _).trans only_dialFailCode
  · exact (h.modify _).cepSetState _ _ _
  · exact h.cepSetState _ _ _
  · exact (h.modify _).trans only_dialFailCode
  · exact (h.modify _).trans only_dialCode
  · exact h.trans only_dialCode

/-! ## The entry itself -/

theorem put_cep (o : Output) : (s.put o).cep = s.cep := rfl

theorem responseToUser_cep (e' : Fin n) (status : Dstat) : (s.responseToUser e' status).cep = s.cep :=
  rfl

theorem cepSetState_cep (state : State) (waittime waitfunc : Nat) :
    (s.cepSetState env e state waittime waitfunc).cep e =
      { s.cep e with
        state := state
        lastSetStateTime := env.now
        waitfunc := waitfunc
        waittime := waittime } := modify_cep_self _ _ _

theorem evAlertFromUser_cep (s : Daemon n) (e : Fin n) : (s.evAlertFromUser e).cep = s.cep := by
  rw [evAlertFromUser]
  split <;> rfl

/-- The entry of a call that is offered, and no other one. -/
theorem offered_entry (env : Env n) (m : ConnectInd) (s : Daemon n) (e : Fin n) :
    ∃ t, ((s.cepSetState env e .incoming (s.cep e).alert 3).modify e fun c =>
        { c with
          cdid := m.cdid
          isdncontrollerused := m.cdid % maxControllers
          isdnchannelused := m.channel
          dirIncoming := true }) = t ∧
      Only e s t ∧
      t.cep e = { s.cep e with
        state := .incoming
        lastSetStateTime := env.now
        waitfunc := 3
        waittime := (s.cep e).alert
        cdid := m.cdid
        isdncontrollerused := m.cdid % maxControllers
        isdnchannelused := m.channel
        dirIncoming := true } :=
  ⟨_, rfl, (Only.refl.cepSetState _ _ _).modify _, by rw [modify_cep_self, cepSetState_cep]⟩

/-- **Dialling failed**: the entry waits, or gives up. -/
theorem dialFailCode_cep (env : Env n) (s : Daemon n) (e : Fin n) :
    ∃ state waittime waitfunc, (state = .idle ∨ state = .dialFail) ∧
      (s.dialFailCode env e).cep e =
        { s.cep e with
          dialCount := (s.cep e).dialCount + 1
          state := state
          lastSetStateTime := env.now
          waitfunc := waitfunc
          waittime := waittime } := by
  rw [dialFailCode]
  split
  · exact ⟨_, _, _, .inr rfl, (cepSetState_cep _ _ _).trans (by rw [modify_cep_self])⟩
  · split
    · exact ⟨_, _, _, .inr rfl,
        (cepSetState_cep _ _ _).trans (by rw [responseToUser_cep, modify_cep_self])⟩
    · exact ⟨_, _, _, .inl rfl,
        (cepSetState_cep _ _ _).trans (by rw [responseToUser_cep, modify_cep_self])⟩

/-- What dialling in vain does to an entry, in short. -/
theorem dialFailCode_paid (env : Env n) (s : Daemon n) (e : Fin n) :
    Paid (s.cep e) ((s.dialFailCode env e).cep e) ∧ ((s.dialFailCode env e).cep e).Parked ∧
      ((s.dialFailCode env e).cep e).lastSetStateTime = env.now ∧
      ((s.dialFailCode env e).cep e).cdid = (s.cep e).cdid := by
  obtain ⟨state, waittime, waitfunc, hst, h⟩ := dialFailCode_cep env s e
  rw [h]
  exact ⟨⟨rfl, rfl, rfl, rfl⟩, hst, rfl, rfl⟩

theorem state_ne_of_parked (h : c.Parked) :
    c.state ≠ .dial ∧ c.state ≠ .incoming ∧ c.state ≠ .waitConnect ∧ c.state ≠ .connected := by
  rcases h with h | h <;> rw [h] <;> decide

/-- **The entry loses its call.** -/
theorem disconnectEntry_cep (env : Env n) (s : Daemon n) (cause : Nat) (e : Fin n) :
    Dropped env (s.cep e) ((s.disconnectEntry env cause e).cep e) := by
  rw [disconnectEntry]
  have h1 : (s.modify e fun c => { c with discCause := cause, discRemote := true }).cep e =
      { s.cep e with discCause := cause, discRemote := true } := modify_cep_self _ _ _
  generalize (s.modify e fun c => { c with discCause := cause, discRemote := true }) = s1 at h1 ⊢
  have hpaid : Paid (s.cep e) (s1.cep e) := by
    rw [h1]
    exact ⟨rfl, rfl, rfl, rfl⟩
  have hidle : ∀ u : Daemon n, u.cep e = s1.cep e →
      Dropped env (s.cep e) ((((u.responseToUser e .notConnected).cepSetState env e .idle 0 0).modify e
        fun c => { c with cdid := cdidUnused }).cep e) := by
    intro u hu
    rw [modify_cep_self, cepSetState_cep, responseToUser_cep, hu, h1]
    exact ⟨⟨rfl, rfl, rfl, rfl⟩, .inl rfl, rfl, .inl rfl⟩
  by_cases hd : (s1.cep e).state = .dial
  · -- the dial attempt fails, and nothing else is to be done
    obtain ⟨hp, hpark, hl, -⟩ := dialFailCode_paid env s1 e
    obtain ⟨-, hi, hw, hc⟩ := state_ne_of_parked hpark
    rw [if_pos hd, if_neg hc, if_neg (not_or.mpr ⟨hi, hw⟩), modify_cep_self]
    have hp := hpaid.trans hp
    exact ⟨⟨hp.config, hp.callback, hp.callout, hp.calltype⟩, hpark, rfl, .inl hl⟩
  · rw [if_neg hd]
    by_cases hc : (s1.cep e).state = .connected
    · rw [if_pos hc, if_neg (by rw [cepSetState_cep]; simp)]
      exact hidle s1 rfl
    · rw [if_neg hc]
      by_cases hi : (s1.cep e).state = .incoming ∨ (s1.cep e).state = .waitConnect
      · rw [if_pos hi]
        exact hidle s1 rfl
      · rw [if_neg hi, modify_cep_self]
        refine ⟨⟨hpaid.config, hpaid.callback, hpaid.callout, hpaid.calltype⟩, ?_, rfl, .inr ?_⟩
        · rw [Cep.Parked]
          cases hs : (s1.cep e).state <;> simp_all
        · rw [h1]
          exact ⟨rfl, rfl, rfl, rfl⟩

/-- The user hangs up. -/
theorem evDisconnectFromUser_cep (env : Env n) (s : Daemon n) (e : Fin n) :
    (s.evDisconnectFromUser env e).cep e =
      { s.cep e with
        discCause := causeI4bNormal
        discRemote := false
        state := .idle
        lastSetStateTime := env.now
        waitfunc := 0
        waittime := 0
        cdid := cdidUnused } := by
  have h : ∀ u : Daemon n, u.cep e = { s.cep e with discCause := causeI4bNormal, discRemote := false } →
      (((u.responseToUser e .notConnected).cepSetState env e .idle 0 0).modify e fun c =>
        { c with cdid := cdidUnused }).cep e =
      { s.cep e with
        discCause := causeI4bNormal
        discRemote := false
        state := .idle
        lastSetStateTime := env.now
        waitfunc := 0
        waittime := 0
        cdid := cdidUnused } := by
    intro u hu
    rw [modify_cep_self, cepSetState_cep, responseToUser_cep, hu]
  rw [evDisconnectFromUser]
  refine h _ ?_
  split
  · rw [put_cep, modify_cep_self]
  · rw [modify_cep_self]

/-! ## Taking a call from everybody -/

/-- A function is applied to the entries that are chosen by what they are at first. -/
theorem foldl_cep {p : Cep → Fin n → Prop} [∀ c e, Decidable (p c e)]
    {f : Daemon n → Fin n → Daemon n} (hf : ∀ s e, Only e s (f s e)) (l : List (Fin n))
    (hl : l.Nodup) (s : Daemon n) (e : Fin n) :
    (∃ u : Daemon n, u.cep e = s.cep e ∧
      (l.foldl (fun s e => if p (s.cep e) e then f s e else s) s).cep e =
        if e ∈ l ∧ p (s.cep e) e then (f u e).cep e else s.cep e) := by
  induction l generalizing s with
  | nil => exact ⟨s, rfl, by simp⟩
  | cons e' l ih =>
    obtain ⟨hn, hnd⟩ := List.nodup_cons.mp hl
    rw [List.foldl_cons]
    by_cases he : e = e'
    · subst he
      obtain ⟨u, hu, h⟩ := ih hnd (if p (s.cep e) e then f s e else s)
      refine ⟨s, rfl, ?_⟩
      rw [h, if_neg (fun h => hn h.1)]
      split
      · rw [if_pos ⟨List.mem_cons_self, ‹_›⟩]
      · rw [if_neg (fun h => ‹¬ _› h.2)]
    · have hsame : (if p (s.cep e') e' then f s e' else s).cep e = s.cep e := by
        split
        · exact hf s e' e he
        · rfl
      obtain ⟨u, hu, h⟩ := ih hnd (if p (s.cep e') e' then f s e' else s)
      rw [hsame] at hu h
      exact ⟨u, hu, by rw [h]; simp [he]⟩

/-- **All entries with the cdid are dropped, and no others.** -/
theorem evDisconnectFromI4b_cep (env : Env n) (s : Daemon n) (cdid cause : Nat)
    (except : Option (Fin n)) (e : Fin n) :
    ((s.cep e).cdid = cdid ∧ some e ≠ except ∧
      Dropped env (s.cep e) ((s.evDisconnectFromI4b env cdid cause except).cep e)) ∨
    (¬ ((s.cep e).cdid = cdid ∧ some e ≠ except) ∧
      (s.evDisconnectFromI4b env cdid cause except).cep e = s.cep e) := by
  obtain ⟨u, hu, h⟩ := foldl_cep (p := fun c e => c.cdid = cdid ∧ some e ≠ except)
    (f := fun s e => s.disconnectEntry env cause e) (fun s e => only_disconnectEntry cause)
    (List.finRange n) (List.nodup_finRange n) s e
  rw [evDisconnectFromI4b, h]
  by_cases hp : (s.cep e).cdid = cdid ∧ some e ≠ except
  · rw [if_pos ⟨List.mem_finRange e, hp⟩]
    exact .inl ⟨hp.1, hp.2, hu ▸ disconnectEntry_cep env u cause e⟩
  · rw [if_neg fun h => hp h.2]
    exact .inr ⟨hp, rfl⟩

/-- All entries that were offered the call are dropped. -/
theorem evRejectFromUser_cep (env : Env n) (h : (s.cep e).state = .incoming) (e' : Fin n) :
    ((s.cep e').cdid = (s.cep e).cdid ∧
      Dropped env (s.cep e') ((s.evRejectFromUser env e).cep e')) ∨
    ((s.cep e').cdid ≠ (s.cep e).cdid ∧ (s.evRejectFromUser env e).cep e' = s.cep e') := by
  rw [evRejectFromUser, if_pos h]
  rcases evDisconnectFromI4b_cep env (s.put (.connectResp (s.cep e).cdid false causeI4bReject))
    (s.cep e).cdid causeI4bReject none e' with ⟨hc, -, hd⟩ | ⟨hn, heq⟩
  · exact .inl ⟨hc, hd⟩
  · exact .inr ⟨fun hc => hn ⟨hc, by simp⟩, heq⟩

/-- The entry waits for the kernel. -/
theorem evConnectFromUser_self (env : Env n) (h : (s.cep e).state = .incoming) :
    (s.evConnectFromUser env e).cep e =
      { s.cep e with
        state := .waitConnect
        lastSetStateTime := env.now
        waitfunc := 1
        waittime := timeoutConnectActive } := by
  rw [evConnectFromUser, if_pos h]
  rcases evDisconnectFromI4b_cep env ((s.put (.connectResp (s.cep e).cdid true 0)).cepSetState env e
    .waitConnect timeoutConnectActive 1) (s.cep e).cdid causeI4bNormal (some e) e with
    ⟨-, hn, -⟩ | ⟨-, heq⟩
  · exact absurd rfl hn
  · rw [heq, cepSetState_cep, put_cep]

/-- Others lose the call. -/
theorem evConnectFromUser_other (env : Env n) (h : (s.cep e).state = .incoming) (he : e' ≠ e) :
    ((s.cep e').cdid = (s.cep e).cdid ∧
      Dropped env (s.cep e') ((s.evConnectFromUser env e).cep e')) ∨
    ((s.cep e').cdid ≠ (s.cep e).cdid ∧ (s.evConnectFromUser env e).cep e' = s.cep e') := by
  have hsame : ((s.put (.connectResp (s.cep e).cdid true 0)).cepSetState env e .waitConnect
      timeoutConnectActive 1).cep e' = s.cep e' :=
    (Only.refl.put _).cepSetState _ _ _ e' he
  rw [evConnectFromUser, if_pos h]
  have hcases := evDisconnectFromI4b_cep env ((s.put (.connectResp (s.cep e).cdid true
    0)).cepSetState env e .waitConnect timeoutConnectActive 1) (s.cep e).cdid causeI4bNormal
    (some e) e'
  rw [hsame] at hcases
  rcases hcases with ⟨hc, -, hd⟩ | ⟨hn, heq⟩
  · exact .inl ⟨hc, hd⟩
  · exact .inr ⟨fun hc => hn ⟨hc, by simpa using he⟩, heq⟩

/-! ## Dialling -/

theorem sendmConnectReq_cep (env : Env n) (s : Daemon n) (e : Fin n) :
    ∃ cdid, (cdid = cdidUnused ∨ env.cdid e = some cdid) ∧
      ((s.sendmConnectReq env e).2 = true → env.cdid e = some cdid) ∧
      (s.sendmConnectReq env e).1.cep e = { s.cep e with cdid := cdid } := by
  rw [sendmConnectReq]
  cases h : env.cdid e with
  | none =>
    refine ⟨cdidUnused, .inl rfl, nofun, ?_⟩
    rw [modify_cep_self, put_cep]
  | some cdid =>
    refine ⟨cdid, .inr rfl, fun _ => rfl, ?_⟩
    rw [put_cep, modify_cep_self, put_cep]

/-- **The entry dials.** -/
theorem dialCode_cep (env : Env n) (s : Daemon n) (e : Fin n) :
    Dialled env e (s.cep e) ((s.dialCode env e).cep e) := by
  have hidle : ∀ status, Dialled env e (s.cep e)
      (((s.responseToUser e status).cepSetState env e .idle 0 0).cep e) := by
    intro status
    rw [cepSetState_cep, responseToUser_cep]
    exact ⟨⟨rfl, rfl, rfl, rfl⟩, rfl, .inr (.inl rfl), .inl rfl⟩
  rw [dialCode]
  split
  · exact hidle _
  · split
    · exact hidle _
    · have h0 := modify_cep_self s e fun c =>
        { c with
          isdncontrollerused := c.isdncontroller
          isdnchannelused := c.isdnchannel
          discCause := causeI4bNormal
          discRemote := false
          dirIncoming := false }
      generalize (s.modify e fun c =>
        { c with
          isdncontrollerused := c.isdncontroller
          isdnchannelused := c.isdnchannel
          discCause := causeI4bNormal
          discRemote := false
          dirIncoming := false }) = s0 at h0 ⊢
      obtain ⟨cdid, hcdid, hok, h1⟩ := sendmConnectReq_cep env s0 e
      rw [h0] at h1
      have hcdid' : cdid = (s.cep e).cdid ∨ cdid = cdidUnused ∨ env.cdid e = some cdid := .inr hcdid
      by_cases ht : (s0.sendmConnectReq env e).2 = true
      · rw [if_pos ht, cepSetState_cep, h1]
        exact ⟨⟨rfl, rfl, rfl, rfl⟩, rfl, .inl ⟨rfl, rfl, hok ht⟩, hcdid'⟩
      · rw [if_neg ht]
        obtain ⟨hp, hpark, hl, hc⟩ := dialFailCode_paid env (s0.sendmConnectReq env e).1 e
        rw [h1] at hp hc
        exact ⟨⟨hp.config, hp.callback, hp.callout, hp.calltype⟩, hl, .inr hpark, by rwa [hc]⟩

/-- A dial request is on the way. -/
structure Asked (c r : Cep) : Prop where
  config : r.toConfig = c.toConfig
  unspent : Unspent c r
  cdid : r.cdid = c.cdid

theorem requestBudget_asked (b : BudgetType) (c : Cep) : Asked c (requestBudget b c) := by
  cases b <;> rw [requestBudget] <;> dsimp only <;> split <;>
    exact ⟨rfl, fun b => by cases b <;> exact ⟨rfl, rfl⟩, rfl⟩

theorem requestBudget_calltype (b : BudgetType) (c : Cep) :
    (requestBudget b c).budgetCalltype =
      if (c.account b).cnt = 0 then c.budgetCalltype else some b := by
  cases b <;> rw [requestBudget, Cep.account] <;> dsimp only <;> split <;> rfl

theorem Asked.dialFailCode (h : Asked c (s.cep e)) (hn : (s.cep e).budgetCalltype = none) :
    Requested env e c ((s.dialFailCode env e).cep e) := by
  obtain ⟨hp, hpark, hl, hc⟩ := dialFailCode_paid env s e
  exact ⟨hp.config.trans h.config, h.unspent.trans hp.unspent, hl, .inr hpark, .inl (hc.trans h.cdid),
    .inr ⟨hp.calltype.trans hn, fun _ => (state_ne_of_parked hpark).1⟩,
    fun _ => ⟨hpark, hc.trans h.cdid⟩⟩

theorem Asked.cepSetState (h : Asked c (s.cep e)) (waittime waitfunc : Nat)
    (ht : ((s.cep e).budgetCalltype = some c.kind ∧ (c.budget c.kind).Given ∧
      (c.account c.kind).cnt ≠ 0) ∨ (s.cep e).budgetCalltype = none) :
    Requested env e c ((s.cepSetState env e .dialFail waittime waitfunc).cep e) := by
  rw [cepSetState_cep]
  exact ⟨h.config, h.unspent.trans fun b => by cases b <;> exact ⟨rfl, rfl⟩, rfl, .inr (.inr rfl),
    .inl h.cdid, ht.imp id fun ht => ⟨ht, fun _ => nofun⟩, fun _ => ⟨.inr rfl, h.cdid⟩⟩

theorem Asked.dialCode (h : Asked c (s.cep e)) (hr : c.dialinReaction ≠ .callback)
    (ht : ((s.cep e).budgetCalltype = some c.kind ∧ (c.budget c.kind).Given ∧
      (c.account c.kind).cnt ≠ 0) ∨
        (s.cep e).budgetCalltype = none ∧ ¬ (c.budget c.kind).Given) :
    Requested env e c ((s.dialCode env e).cep e) := by
  have hd := dialCode_cep env s e
  refine ⟨hd.config.trans h.config, h.unspent.trans hd.toPaid.unspent, hd.stamp, hd.state, ?_, ?_,
    fun h => absurd h hr⟩
  · rw [← h.cdid]
    exact hd.cdid
  · rw [hd.calltype]
    exact ht.imp id fun ht => ⟨ht.1, fun hg => absurd hg ht.2⟩

/-- **The user asks an idle entry to dial**: it does so only if there is budget left. -/
theorem evDialFromUser_cep (env : Env n) (h : (s.cep e).state = .idle) :
    Requested env e (s.cep e) ((s.evDialFromUser env e).cep e) := by
  rw [evDialFromUser, if_pos h]
  have h1 := modify_cep_self s e fun c => { c with budgetCalltype := none, dialCount := 0 }
  generalize (s.modify e fun c => { c with budgetCalltype := none, dialCount := 0 }) = s1 at h1 ⊢
  have hasked : Asked (s.cep e) (s1.cep e) := by
    rw [h1]
    exact ⟨rfl, fun b => by cases b <;> exact ⟨rfl, rfl⟩, rfl⟩
  have hnone : (s1.cep e).budgetCalltype = none := by rw [h1]
  -- the budget that the entry has to ask for
  have hb : ∀ b, (s.cep e).kind = b → (((s.cep e).budget b).Given →
      Asked (s.cep e) ((s1.modify e (requestBudget b)).cep e) ∧
        (((s1.modify e (requestBudget b)).cep e).account b).cnt = ((s.cep e).account b).cnt ∧
        ((s1.modify e (requestBudget b)).cep e).budgetCalltype =
          if ((s.cep e).account b).cnt = 0 then none else some b) := by
    intro b hk hg
    have hr := requestBudget_asked b (s1.cep e)
    rw [modify_cep_self]
    refine ⟨⟨hr.config.trans hasked.config, hasked.unspent.trans hr.unspent,
      hr.cdid.trans hasked.cdid⟩, ((hasked.unspent.trans hr.unspent) b).1, ?_⟩
    rw [requestBudget_calltype, (hasked.unspent b).1, hnone]
  have hreact : (s1.cep e).dialinReaction = (s.cep e).dialinReaction := by rw [h1]
  have hback : (s1.cep e).callback = (s.cep e).callback := by rw [h1]
  have hout : (s1.cep e).callout = (s.cep e).callout := by rw [h1]
  dsimp only
  rw [hreact, hback, hout]
  by_cases hr : (s.cep e).dialinReaction = .callback
  · have hk : (s.cep e).kind = .cback := if_pos hr
    rw [if_pos hr]
    by_cases hg : (s.cep e).callback.Given
    · obtain ⟨ha, hcnt, htype⟩ := hb .cback hk hg
      rw [if_pos hg]
      split
      · rename_i h0
        exact ha.dialFailCode (htype.trans (if_pos (hcnt.symm.trans h0)))
      · rename_i h0
        refine ha.cepSetState _ _ (.inl ?_)
        rw [hk]
        exact ⟨htype.trans (if_neg fun h => h0 (hcnt.trans h)), hg, fun h => h0 (hcnt.trans h)⟩
    · rw [if_neg hg]
      exact hasked.cepSetState _ _ (.inr hnone)
  · have hk : (s.cep e).kind = .cout := if_neg hr
    rw [if_neg hr]
    by_cases hg : (s.cep e).callout.Given
    · obtain ⟨ha, hcnt, htype⟩ := hb .cout hk hg
      rw [if_pos hg]
      split
      · rename_i h0
        exact ha.dialFailCode (htype.trans (if_pos (hcnt.symm.trans h0)))
      · rename_i h0
        refine ha.dialCode hr (.inl ?_)
        rw [hk]
        exact ⟨htype.trans (if_neg fun h => h0 (hcnt.trans h)), hg, fun h => h0 (hcnt.trans h)⟩
    · rw [if_neg hg]
      refine hasked.dialCode hr (.inr ⟨hnone, ?_⟩)
      rw [hk]
      exact hg

end Daemon

end Isdnd
end Isdn4bsd
