import Mathlib.Tactic
import Isdn4bsd.Lib.Climb
import Isdn4bsd.L3.Types

/-!
# The rights of monitor clients

The configuration file says which hosts and nets may watch `isdnd`, and what each may do.  The entries are sorted
when all of it has been read, and a client has the rights of the first entry that it matches.  The sort is to
bring the most specific netmask to the front, but the comparison takes the mask of the entry that moves for the
less specific one.

* `monitorStartRights`, `monitorAddRights`, `monitorFixupRights` : the configuration.
* `clientRights` : the rights that a client is given when it connects.
* `clientRights_last` : **a client has the rights of the entry that comes last in the file**, whatever the masks
are, of those that it matches.
* `clientRights_any` : an entry for all hosts that comes first is the only one, for the local socket also.

## Reading the file

A line either begins an entry, for a host, a net or the local socket, or adds a right to the entry that was begun
last.  An entry that is there already is not made twice; the rights that follow are then added to whatever entry was
begun last, as they are after a line that could not be read.  What hosts and nets are called is up to the system, so
`System` has what it answers; it also has what a shift by the whole width of an `unsigned` comes to, which is how
a mask of 32 bits is made.

## Sorting

Each entry in turn goes in front of the first of those before it that it is greater than.  For two entries that both
apply to some client this is always the case, as of two masks with a net in common one is a part of the other, and the
comparison then comes out in favour of the entry that moves (`cmpRights_pos`).  So the later entry ends up before
the earlier one, whatever its mask, and the entry that a client finds first is the last one of the file.  Where an entry
goes in relation to others that do not apply to the client does not matter.

That is said for the whole list by `Lib.Climb`, which knows nothing of rights: elements that are greater than others
they are compared with climb past them.

What the argument needs is that no entry has an empty mask, as such an entry is for all hosts, and that there is one
entry for the local socket at most.  The second theorem is about an entry for all hosts.
-/

set_option autoImplicit false

namespace Isdn4bsd
namespace Isdnd

open L3 (Str)

/-! ## The configuration -/

/-- `struct monitor_rights` -/
structure MonitorRights where
  name : Str
  rights : BitVec 32
  net : BitVec 32
  mask : BitVec 32
  /-- `local` -/
  isLocal : Bool
  deriving DecidableEq, Repr

/-- What `monitor = ` is followed by. -/
inductive Clientspec where
  /-- It begins with a slash. -/
  | file (clientspec : Str)
  /-- There is no slash in it. -/
  | host (clientspec : Str)
  /-- What stands before the slash, and what `strtol` reads behind it. -/
  | cidr (hostname : Str) (num : ℤ)
  /-- Nothing is behind the slash. -/
  | slash (hostname : Str)
  deriving DecidableEq, Repr

/-- What the system says: addresses of hosts and nets, the sizes of two arrays, and what an `unsigned` is when it
is shifted by all of its bits. -/
structure System where
  gethostbyname : Str → Option (BitVec 32)
  /-- `getnetbyname`, and `inet_network` where it does not know the net. -/
  network : Str → BitVec 32
  sunPath : ℕ
  filenameMax : ℕ
  shift32 : BitVec 32

/-- `I4BMAR_…` -/
inductive Mar where
  | ok
  | length
  | dup
  | cidr
  | noip
  deriving DecidableEq, Repr

/-- The rights that were read so far. `cur_add_entry` is the last of them, or `NULL`. -/
structure RightsConfig where
  rights : List MonitorRights
  curAddEntry : Bool
  deriving DecidableEq, Repr

namespace RightsConfig

/-- `monitor_clear_rights` -/
def monitorClearRights : RightsConfig := ⟨[], false⟩

/-- The entry is added to the collection. -/
def add (cfg : RightsConfig) (r : MonitorRights) : RightsConfig := ⟨cfg.rights ++ [r], true⟩

/-- An entry for a host or a net, if there is none yet. -/
def addRemote (cfg : RightsConfig) (net mask : BitVec 32) : RightsConfig × Mar :=
  if cfg.rights.any fun rp => rp.mask == mask && rp.net == net && !rp.isLocal then (cfg, .dup)
  else (cfg.add ⟨[], 0, net, mask, false⟩, .ok)

end RightsConfig

section
variable (sys : System)

/-- `s = ~0U; s >>= num; s ^= ~0U;` -/
def cidrMask (num : ℕ) : BitVec 32 :=
  (if num < 32 then BitVec.allOnes 32 >>> num else sys.shift32) ^^^ BitVec.allOnes 32

/-- `monitor_start_rights` -/
def monitorStartRights (cfg : RightsConfig) : Clientspec → RightsConfig × Mar
  | .file clientspec =>
    if cfg.rights.any MonitorRights.isLocal then (cfg, .dup)
    else if sys.sunPath < clientspec.length then (cfg, .length)
    else (cfg.add ⟨clientspec, 0, 0, 0, true⟩, .ok)
  | .host clientspec =>
    match sys.gethostbyname clientspec with
    | none => (cfg, .noip)
    | some hn => cfg.addRemote hn (BitVec.allOnes 32)
  | .cidr hostname num =>
    if num < 0 ∨ 32 < num then (cfg, .cidr)
    else if sys.filenameMax ≤ hostname.length then (cfg, .length)
    else cfg.addRemote (sys.network hostname &&& cidrMask sys num.toNat) (cidrMask sys num.toNat)
  | .slash _ => (cfg, .cidr)

/-- `monitor_add_rights` -/
def monitorAddRights (cfg : RightsConfig) (rightsMask : BitVec 32) : RightsConfig :=
  if cfg.curAddEntry then
    { cfg with rights := cfg.rights.modify (cfg.rights.length - 1) fun r => { r with rights := r.rights ||| rightsMask } }
  else cfg

/-- A line of the file that is about monitors. -/
inductive RightsLine where
  /-- `monitor = ` -/
  | monitor (clientspec : Clientspec)
  /-- `monitor-access = ` -/
  | monitorAccess (rightsMask : BitVec 32)
  deriving DecidableEq, Repr

/-- What is configured when the file has been read. -/
def readRights (lines : List RightsLine) : RightsConfig :=
  lines.foldl
    (fun cfg line =>
      match line with
      | .monitor clientspec => (monitorStartRights sys cfg clientspec).1
      | .monitorAccess rightsMask => monitorAddRights cfg rightsMask)
    .monitorClearRights

/-- `cmp_rights` -/
def cmpRights (pa pb : MonitorRights) : ℤ :=
  if pa.isLocal then -1
  else
    let mask := if pb.mask &&& pa.mask = 0 then pb.mask else pa.mask
    if pa.net &&& mask ≠ pb.net &&& mask then
      if pa.net &&& mask < pb.net &&& mask then -1 else 1
    else if pa.mask = mask then 1 else -1

/-- `monitor_fixup_rights`: each entry moves up, to the place before the first one that it is greater than. -/
def monitorFixupRights (rights : List MonitorRights) : List MonitorRights :=
  climbAll (fun cur test => decide (0 < cmpRights cur test)) rights

/-! ## The rights of a client -/

/-- Does an entry apply to a client? It is at the local socket, or has an address; `ha` is zero for the local
socket. -/
def MonitorRights.applies (peer : Option (BitVec 32)) (rp : MonitorRights) : Bool :=
  if rp.isLocal then peer.isNone else decide (peer.getD 0 &&& rp.mask = rp.net)

/-- The check of `monitor_handle_connect`: `r_mask`. -/
def clientRights (rights : List MonitorRights) (peer : Option (BitVec 32)) : BitVec 32 :=
  match rights.find? (MonitorRights.applies peer) with
  | some rp => rp.rights
  | none => 0

/-! ## Netmasks -/

/-- The mask of a net, or of a host, where `k` is 32. -/
def netmask (k : ℕ) : BitVec 32 := (BitVec.allOnes 32 >>> k) ^^^ BitVec.allOnes 32

theorem getLsbD_netmask (k i : ℕ) : (netmask k).getLsbD i = decide (i < 32 ∧ 32 ≤ k + i) := by
  simp only [netmask, BitVec.getLsbD_xor, BitVec.getLsbD_ushiftRight, BitVec.getLsbD_allOnes]
  by_cases hi : i < 32 <;> by_cases hk : k + i < 32 <;> simp [hi, hk] <;> omega

/-- Of two netmasks, the one with fewer bits is part of the other. -/
theorem netmask_and {j k : ℕ} (h : j ≤ k) : netmask j &&& netmask k = netmask j := by
  refine BitVec.eq_of_getLsbD_eq fun i hi => ?_
  rw [BitVec.getLsbD_and, getLsbD_netmask, getLsbD_netmask]
  by_cases hj : 32 ≤ j + i
  · simp [hi, hj, show 32 ≤ k + i by omega]
  · simp [hj]

theorem netmask_ne_zero {k : ℕ} (h : 0 < k) : netmask k ≠ 0 := by
  intro hz
  have hbit : (netmask k).getLsbD 31 = true := by
    rw [getLsbD_netmask]
    simp
    omega
  rw [hz] at hbit
  exact absurd hbit (by decide)

/-! ## What is configured -/

/-- An entry that is not for all hosts. -/
structure MonitorRights.Proper (r : MonitorRights) : Prop where
  net : r.net &&& r.mask = r.net
  mask : r.isLocal = true ∨ ∃ k, 0 < k ∧ r.mask = netmask k

/-- The lines of entries that are not for all hosts: no netmask is without bits. -/
def RightsLine.Specific : RightsLine → Prop
  | .monitor (.cidr _ num) => 0 < num ∧ (num = 32 → sys.shift32 = 0)
  | _ => True

/-- There is one entry for the local socket at most. -/
def OneLocal (rights : List MonitorRights) : Prop :=
  rights.Pairwise fun r r' => ¬ (r.isLocal = true ∧ r'.isLocal = true)

end

section
variable {sys : System}

theorem cidrMask_eq {num : ℕ} (h : num < 32 ∨ num = 32 ∧ sys.shift32 = 0) : cidrMask sys num = netmask num := by
  rw [cidrMask, netmask]
  rcases h with h | ⟨rfl, h⟩
  · rw [if_pos h]
  · rw [if_neg (Nat.lt_irrefl 32), h]
    decide

theorem addRemote_keeps {P : MonitorRights → Prop} {cfg : RightsConfig} (h : ∀ r ∈ cfg.rights, P r)
    {net mask : BitVec 32} (hnew : P ⟨[], 0, net, mask, false⟩) :
    ∀ r ∈ (cfg.addRemote net mask).1.rights, P r := by
  rw [RightsConfig.addRemote]
  split
  next => exact h
  next =>
    intro r hr
    rcases List.mem_append.mp hr with hr | hr
    · exact h r hr
    · rw [List.mem_singleton.mp hr]
      exact hnew

/-- The entries of lines that are not for all hosts. -/
theorem monitorStartRights_proper {cfg : RightsConfig} (h : ∀ r ∈ cfg.rights, r.Proper) {spec : Clientspec}
    (hspec : (RightsLine.monitor spec).Specific sys) :
    ∀ r ∈ (monitorStartRights sys cfg spec).1.rights, r.Proper := by
  cases spec with
  | file clientspec =>
    simp only [monitorStartRights]
    split
    next => exact h
    next =>
      split
      next => exact h
      next =>
        intro r hr
        rcases List.mem_append.mp hr with hr | hr
        · exact h r hr
        · rw [List.mem_singleton.mp hr]
          exact ⟨BitVec.and_self, .inl rfl⟩
  | host clientspec =>
    simp only [monitorStartRights]
    split
    next => exact h
    next hn _ =>
      have hmask : BitVec.allOnes 32 = netmask 32 := by decide
      exact addRemote_keeps h ⟨BitVec.and_allOnes, .inr ⟨32, by decide, hmask⟩⟩
  | cidr hostname num =>
    simp only [monitorStartRights]
    split
    next => exact h
    next hnum =>
      split
      next => exact h
      next =>
        have hmask : cidrMask sys num.toNat = netmask num.toNat := by
          refine cidrMask_eq ?_
          rcases lt_or_eq_of_le (show num ≤ 32 by omega) with hlt | heq
          · exact .inl (by omega)
          · exact .inr ⟨by omega, hspec.2 heq⟩
        refine addRemote_keeps h ⟨?_, .inr ⟨num.toNat, ?_, hmask⟩⟩
        · show sys.network hostname &&& cidrMask sys num.toNat &&& cidrMask sys num.toNat = _
          rw [BitVec.and_assoc, BitVec.and_self]
        · have := hspec.1
          omega
  | slash hostname => exact h

/-- More rights are given to an entry, which stays what it is otherwise. -/
theorem monitorAddRights_proper {cfg : RightsConfig} (h : ∀ r ∈ cfg.rights, r.Proper) (rightsMask : BitVec 32) :
    ∀ r ∈ (monitorAddRights cfg rightsMask).rights, r.Proper := by
  rw [monitorAddRights]
  split
  next =>
    intro r hr
    obtain ⟨i, hi, rfl⟩ := List.mem_iff_getElem.mp hr
    rw [List.getElem_modify]
    split
    next => exact ⟨(h _ (List.getElem_mem _)).net, (h _ (List.getElem_mem _)).mask⟩
    next => exact h _ (List.getElem_mem _)
  next => exact h

theorem monitorStartRights_oneLocal {cfg : RightsConfig} (h : OneLocal cfg.rights) (spec : Clientspec) :
    OneLocal (monitorStartRights sys cfg spec).1.rights := by
  have hadd (net mask : BitVec 32) : OneLocal (cfg.addRemote net mask).1.rights := by
    rw [RightsConfig.addRemote]
    split
    next => exact h
    next =>
      refine List.pairwise_append.mpr ⟨h, List.pairwise_singleton _ _, fun r _ r' hr' hboth => ?_⟩
      rw [List.mem_singleton.mp hr'] at hboth
      exact Bool.false_ne_true hboth.2
  cases spec with
  | file clientspec =>
    simp only [monitorStartRights]
    split
    next => exact h
    next hnone =>
      split
      next => exact h
      next =>
        refine List.pairwise_append.mpr ⟨h, List.pairwise_singleton _ _, fun r hr r' _ hboth => ?_⟩
        exact hnone (List.any_eq_true.mpr ⟨r, hr, hboth.1⟩)
  | host clientspec =>
    simp only [monitorStartRights]
    split
    next => exact h
    next => exact hadd _ _
  | cidr hostname num =>
    simp only [monitorStartRights]
    split
    next => exact h
    next =>
      split
      next => exact h
      next => exact hadd _ _
  | slash hostname => exact h

theorem monitorAddRights_oneLocal {cfg : RightsConfig} (h : OneLocal cfg.rights) (rightsMask : BitVec 32) :
    OneLocal (monitorAddRights cfg rightsMask).rights := by
  have hsame : (monitorAddRights cfg rightsMask).rights.map MonitorRights.isLocal
      = cfg.rights.map MonitorRights.isLocal := by
    rw [monitorAddRights]
    split
    next =>
      refine List.ext_getElem (by simp) fun i hi hi' => ?_
      rw [List.getElem_map, List.getElem_map, List.getElem_modify]
      split <;> rfl
    next => rfl
  have hp : (cfg.rights.map MonitorRights.isLocal).Pairwise fun b b' => ¬ (b = true ∧ b' = true) :=
    List.pairwise_map.mpr h
  rw [← hsame] at hp
  exact List.pairwise_map.mp hp

/-- What holds of the entries of a file. -/
theorem readRights_spec (lines : List RightsLine) :
    OneLocal (readRights sys lines).rights ∧
      ((∀ line ∈ lines, line.Specific sys) → ∀ r ∈ (readRights sys lines).rights, r.Proper) := by
  induction lines using List.reverseRecOn with
  | nil => exact ⟨List.Pairwise.nil, fun _ r hr => absurd hr List.not_mem_nil⟩
  | append_singleton lines line ih =>
    rw [readRights, List.foldl_append]
    change OneLocal (List.foldl _ (readRights sys lines) [line]).rights ∧ _
    cases line with
    | monitor spec =>
      refine ⟨monitorStartRights_oneLocal ih.1 spec,
        fun h => monitorStartRights_proper (ih.2 fun line hline => ?_) ?_⟩
      · exact h line (List.mem_append_left _ hline)
      · exact h _ (List.mem_append_right _ (List.mem_singleton.mpr rfl))
    | monitorAccess rightsMask =>
      refine ⟨monitorAddRights_oneLocal ih.1 rightsMask,
        fun h => monitorAddRights_proper (ih.2 fun line hline => ?_) _⟩
      exact h line (List.mem_append_left _ hline)

/-! ## The order of the entries -/

/-- Of two entries that apply to one client, neither of them local, each is greater than the other. -/
theorem cmpRights_pos {pa pb : MonitorRights} {ha : BitVec 32} (hpa : pa.Proper) (hpb : pb.Proper)
    (hla : pa.isLocal = false) (hlb : pb.isLocal = false)
    (ha1 : ha &&& pa.mask = pa.net) (hb1 : ha &&& pb.mask = pb.net) : 0 < cmpRights pa pb := by
  obtain ⟨j, hj, hma⟩ := hpa.mask.resolve_left (by simp [hla])
  obtain ⟨k, hk, hmb⟩ := hpb.mask.resolve_left (by simp [hlb])
  have hmeet : ¬ pb.mask &&& pa.mask = 0 := by
    rw [hma, hmb]
    rcases le_total j k with h | h
    · rw [BitVec.and_comm, netmask_and h]
      exact netmask_ne_zero hj
    · rw [netmask_and h]
      exact netmask_ne_zero hk
  rw [cmpRights, if_neg (by simp [hla])]
  simp only [if_neg hmeet]
  split
  next hne =>
    -- the entry that moves is within the other one, and its address is not the smaller one
    have hlt : ¬ j ≤ k := by
      intro h
      refine hne ?_
      rw [hpa.net, ← ha1, ← hb1, BitVec.and_assoc, hma, hmb, BitVec.and_comm (netmask k), netmask_and h]
    have hnet : pb.net = pa.net &&& pb.mask := by
      rw [← ha1, ← hb1, BitVec.and_assoc, hma, hmb, BitVec.and_comm (netmask j), netmask_and (le_of_not_ge hlt)]
    have hle : ¬ pa.net &&& pa.mask < pb.net &&& pa.mask := by
      have hinner : pb.net &&& pa.mask = pb.net := by
        rw [← hb1, BitVec.and_assoc, hma, hmb, netmask_and (le_of_not_ge hlt)]
      rw [hpa.net, hinner, hnet, BitVec.lt_def, not_lt, BitVec.toNat_and]
      exact Nat.and_le_left
    rw [if_neg hle]
    exact Int.one_pos
  next => decide

/-- **A client has the rights of the entry that comes last in the file**, of those that apply to it. The local
socket is not taken for an address where no net begins with zero. -/
theorem clientRights_last {lines : List RightsLine} (hlines : ∀ line ∈ lines, line.Specific sys)
    {peer : Option (BitVec 32)}
    (hlocal : peer = none → ∀ r ∈ (readRights sys lines).rights, r.isLocal = false → r.net ≠ 0) :
    clientRights (monitorFixupRights (readRights sys lines).rights) peer
      = clientRights (readRights sys lines).rights.reverse peer := by
  obtain ⟨hone, hproper⟩ := @readRights_spec sys lines
  have hproper := hproper hlines
  -- an entry for a net does not apply where the one for the local socket does
  have hnot : ∀ r ∈ (readRights sys lines).rights, r.isLocal = false → peer.isNone = true →
      peer.getD 0 &&& r.mask ≠ r.net := by
    intro r hr hl hnone heq
    have hpeer := Option.isNone_iff_eq_none.mp hnone
    rw [hpeer, Option.getD_none] at heq
    exact hlocal hpeer r hr hl (heq.symm.trans BitVec.zero_and)
  have hpair : (readRights sys lines).rights.Pairwise fun test cur =>
      cur.applies peer = true → test.applies peer = true → decide (0 < cmpRights cur test) = true := by
    refine List.Pairwise.imp_of_mem (fun {test cur} htest hcur hone happ happ' => ?_) hone
    rw [MonitorRights.applies] at happ happ'
    cases hlc : cur.isLocal with
    | true =>
      rw [hlc, if_pos rfl] at happ
      cases hlt : test.isLocal with
      | true => exact absurd ⟨hlt, hlc⟩ hone
      | false =>
        rw [hlt, if_neg Bool.false_ne_true, decide_eq_true_eq] at happ'
        exact absurd happ' (hnot test htest hlt happ)
    | false =>
      rw [hlc, if_neg Bool.false_ne_true, decide_eq_true_eq] at happ
      cases hlt : test.isLocal with
      | true =>
        rw [hlt, if_pos rfl] at happ'
        exact absurd happ (hnot cur hcur hlc happ')
      | false =>
        rw [hlt, if_neg Bool.false_ne_true, decide_eq_true_eq] at happ'
        rw [decide_eq_true_eq]
        exact cmpRights_pos (hproper cur hcur) (hproper test htest) hlc hlt happ happ'
  rw [clientRights, monitorFixupRights, find?_climbAll hpair]
  rfl

/-- The host 10.1.2.3 may send all commands, and net 10 may see incoming calls. The net comes last in the file,
so the host has the rights of the net. -/
theorem clientRights_last_net :
    let sys : System := ⟨fun _ => some 0x0A010203, fun _ => 0x0A000000, 104, 1024, 0⟩
    let lines : List RightsLine :=
      [.monitor (.host [104]), .monitorAccess 1, .monitor (.cidr [110] 8), .monitorAccess 32]
    clientRights (monitorFixupRights (readRights sys lines).rights) (some 0x0A010203) = 32 := by
  intro sys lines
  have hlines : ∀ line ∈ lines, line.Specific sys := by
    intro line hline
    simp only [lines, List.mem_cons, List.not_mem_nil, or_false] at hline
    rcases hline with rfl | rfl | rfl | rfl
    · trivial
    · trivial
    · exact ⟨by decide, fun _ => rfl⟩
    · trivial
  rw [clientRights_last hlines fun h => absurd h (by decide)]
  decide

/-! ## An entry for all hosts -/

/-- The first entry is for all hosts, and no other one is. -/
def AnyFirst (rights : List MonitorRights) : Prop :=
  ∃ top rest, rights = top :: rest ∧ top.isLocal = false ∧ top.net = 0 ∧ top.mask = 0 ∧
    ∀ r ∈ rest, r.isLocal = true ∨ r.mask ≠ 0

theorem AnyFirst.add {cfg : RightsConfig} (h : AnyFirst cfg.rights) {r : MonitorRights}
    (hr : r.isLocal = true ∨ r.mask ≠ 0) : AnyFirst (cfg.add r).rights := by
  obtain ⟨top, rest, hrights, hlocal, hnet, hmask, hrest⟩ := h
  refine ⟨top, rest ++ [r], ?_, hlocal, hnet, hmask, fun r' hr' => ?_⟩
  · rw [RightsConfig.add, hrights, List.cons_append]
  · rcases List.mem_append.mp hr' with hr' | hr'
    · exact hrest r' hr'
    · rw [List.mem_singleton.mp hr']
      exact hr

/-- Another entry for all hosts would be the same one. -/
theorem AnyFirst.addRemote {cfg : RightsConfig} (h : AnyFirst cfg.rights) {net mask : BitVec 32}
    (hnet : mask = 0 → net = 0) : AnyFirst (cfg.addRemote net mask).1.rights := by
  rw [RightsConfig.addRemote]
  split
  next => exact h
  next hdup =>
    refine h.add (.inr fun hmask => hdup ?_)
    obtain ⟨top, rest, hrights, hlocal, htop, hzero, _⟩ := h
    have hmask : mask = 0 := hmask
    rw [hrights, List.any_cons, htop, hzero, hlocal, hnet hmask, hmask]
    rfl

theorem AnyFirst.monitorStartRights {cfg : RightsConfig} (h : AnyFirst cfg.rights) (spec : Clientspec) :
    AnyFirst (monitorStartRights sys cfg spec).1.rights := by
  cases spec with
  | file clientspec =>
    simp only [Isdnd.monitorStartRights]
    split
    next => exact h
    next =>
      split
      next => exact h
      next => exact h.add (.inl rfl)
  | host clientspec =>
    simp only [Isdnd.monitorStartRights]
    split
    next => exact h
    next => exact h.addRemote fun hmask => absurd hmask (by decide)
  | cidr hostname num =>
    simp only [Isdnd.monitorStartRights]
    split
    next => exact h
    next =>
      split
      next => exact h
      next =>
        refine h.addRemote fun hmask => ?_
        rw [hmask]
        exact BitVec.and_zero
  | slash hostname => exact h

theorem AnyFirst.monitorAddRights {cfg : RightsConfig} (h : AnyFirst cfg.rights) (rightsMask : BitVec 32) :
    AnyFirst (monitorAddRights cfg rightsMask).rights := by
  rw [Isdnd.monitorAddRights]
  split
  next =>
    obtain ⟨top, rest, hrights, hlocal, hnet, hmask, hrest⟩ := h
    simp only [hrights, List.length_cons, Nat.add_sub_cancel]
    cases rest with
    | nil => exact ⟨{ top with rights := top.rights ||| rightsMask }, [], rfl, hlocal, hnet, hmask, hrest⟩
    | cons r rest =>
      refine ⟨top, (r :: rest).modify rest.length fun r => { r with rights := r.rights ||| rightsMask }, rfl,
        hlocal, hnet, hmask, fun r' hr' => ?_⟩
      obtain ⟨i, hi, rfl⟩ := List.mem_iff_getElem.mp hr'
      rw [List.getElem_modify]
      have hi' : i < (r :: rest).length := by
        rw [List.length_modify] at hi
        exact hi
      have hold := hrest _ (List.getElem_mem hi')
      split
      next => exact hold
      next => exact hold
  next => exact h

/-- **An entry for all hosts that comes first is the only one that matters**, for the local socket also. -/
theorem clientRights_any {hostname : Str} (hlen : hostname.length < sys.filenameMax) (lines : List RightsLine)
    (peer : Option (BitVec 32)) :
    ∃ top, (readRights sys (.monitor (.cidr hostname 0) :: lines)).rights.head? = some top ∧
      clientRights (monitorFixupRights (readRights sys (.monitor (.cidr hostname 0) :: lines)).rights) peer
        = top.rights := by
  have hfirst : AnyFirst (readRights sys (.monitor (.cidr hostname 0) :: lines)).rights := by
    induction lines using List.reverseRecOn with
    | nil =>
      have hmask : cidrMask sys 0 = 0 := by
        rw [cidrMask, if_pos (by decide)]
        decide
      refine ⟨⟨[], 0, 0, 0, false⟩, [], ?_, rfl, rfl, rfl, fun r hr => absurd hr List.not_mem_nil⟩
      have hnum : ¬ ((0 : ℤ) < 0 ∨ (32 : ℤ) < 0) := by decide
      simp [readRights, monitorStartRights, RightsConfig.addRemote, RightsConfig.monitorClearRights,
        RightsConfig.add, hmask, not_le.mpr hlen]
    | append_singleton lines line ih =>
      rw [← List.cons_append, readRights, List.foldl_append]
      cases line with
      | monitor spec => exact ih.monitorStartRights spec
      | monitorAccess rightsMask => exact ih.monitorAddRights rightsMask
  obtain ⟨top, rest, hrights, hlocal, hnet, hmask, hrest⟩ := hfirst
  refine ⟨top, by rw [hrights, List.head?_cons], ?_⟩
  have hnone : ∀ cur ∈ rest, decide (0 < cmpRights cur top) = false := by
    intro cur hcur
    rw [decide_eq_false_iff_not, cmpRights]
    split
    next => decide
    next hl =>
      have hzero : ¬ cur.mask = 0#32 := (hrest cur hcur).resolve_left hl
      simp [hmask, hzero]
  have happ : top.applies peer = true := by
    rw [MonitorRights.applies, hlocal, if_neg Bool.false_ne_true, hmask, hnet, decide_eq_true_eq]
    exact BitVec.and_zero
  rw [hrights, monitorFixupRights, climbAll_cons hnone, clientRights, List.find?_cons, happ]

/-- All hosts may see incoming calls, and so the local socket may do no more, whatever its entry is. -/
theorem clientRights_any_local :
    let sys : System := ⟨fun _ => none, fun _ => 0, 104, 1024, 0⟩
    clientRights (monitorFixupRights (readRights sys
      [.monitor (.cidr [48] 0), .monitorAccess 32, .monitor (.file [47]), .monitorAccess 1]).rights) none = 32 := by
  intro sys
  obtain ⟨top, hhead, hrights⟩ := @clientRights_any sys [48] (by decide)
    [.monitorAccess 32, .monitor (.file [47]), .monitorAccess 1] none
  have htop : top.rights = 32 := by
    have hsome := hhead.symm.trans (show _ = some (⟨[], 32, 0, 0, false⟩ : MonitorRights) by decide)
    rw [Option.some.inj hsome]
  exact hrights.trans htop

end

end Isdnd
end Isdn4bsd
