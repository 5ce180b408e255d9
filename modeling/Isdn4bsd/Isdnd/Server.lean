import Mathlib.Tactic
import Isdn4bsd.Isdnd.Rights
import Isdn4bsd.Isdnd.Monitor

/-!
# `isdnd` and its monitors

Monitors connect to the daemon over a socket. The daemon tells each of them its configuration and its state, and
from then on what happens, as far as the monitor has asked for it and has the right to see it. A monitor may send
commands, and most of them need a right also.

* `MonitorServer.step` : a client connects, its octets arrive, it is served, it closes the connection; something
happens that monitors are told; the configuration is read again.
* `MonitorServer.run_rights` : **a command is carried out for a client with the right to it**, and a client that
has been told the state of the daemon is told what it has the right to see, and nothing else.
* `MonitorServer.run_shown` : **a monitor shows what it was told, in order**, in whatever pieces that arrives.
* `MonitorServer.run_handled` : **the daemon handles the commands that a monitor sent, in order.**

## Connections

A connection has what the daemon knows of it and what is on its way: the octets that have arrived and are not read,
and the packets that were sent. Some fields are history, and no function of the daemon looks at them: the entries of
the configuration when the client connected, how much of what it was sent is the description of the state, all
that arrived, and the commands that were handled.

`step_becomes` says what a step does to one connection, whichever step it is and whoever it is for: a connection is as
before, hears of some events, has octets added to what arrives, is closed by its peer, or has a command
handled. Each of the three results is an invariant of one connection that all these cases keep, and the cases are
gone through once for each of them, not once for each step.

## Rights

The rights are looked up once, when the client connects. A configuration that is read again does not change them,
so what a client may do is said with the entries of that time. A client that connects is told the state with the
very functions that tell of events later on, and these tell everybody who is connected: other clients hear of the
state once more. Before its own description is complete a client may be told things that it has not asked for yet.

## The end of a connection

When a peer has closed its connection, what has arrived before is still read, and `sock_read` does not wait for the
rest of a command. Such a command is made up in part of what was on the stack. It needs its right like any other, and
`run_rights` speaks about it also. `run_handled` does not: it is about peers that send whole commands
before they close the connection.

## Room

The monitor has arrays for what it is told, and does not look at their bounds. `Suits` says of a step that there is
room in them for what the daemon tells in this step; it speaks about the names and the controllers of the
configuration, and about the number of records of a dump. A run with other steps may leave a monitor in any state.
-/

set_option autoImplicit false

namespace Isdn4bsd
namespace Isdnd

open L3 (Str)

/-! ## The daemon -/

/-- `I4B_CA_COMMAND_FULL` -/
def caCommandFull : BitVec 32 := 1

/-- `I4B_CA_EVNT_CALLIN` -/
def caEvntCallin : BitVec 32 := 32

/-- `I4B_CA_EVNT_CALLOUT` -/
def caEvntCallout : BitVec 32 := 64

/-- `I4B_CA_EVNT_I4B` -/
def caEvntI4b : BitVec 32 := 128

/-- `CFG_ENTRY_MAX` -/
def cfgEntryMax : ℕ := 60

/-- `I4B_MAX_CONTROLLERS` -/
def monControllers : ℕ := 64

/-- A controller, as monitors are told of it. -/
structure MonitorController where
  name : Str
  tei : BitVec 32
  l1stat : BitVec 32
  l2stat : BitVec 32

/-- An entry of the configuration, as monitors are told of it. -/
structure MonitorEntry where
  /-- The driver and its unit. -/
  devname : Str
  /-- `state == ST_CONNECTED` -/
  connected : Bool
  dirIncoming : Bool
  isdncontrollerused : BitVec 32
  isdnchannelused : BitVec 32
  name : Str
  realPhoneIncoming : Str
  localPhoneIncoming : Str
  remotePhoneDialout : Str
  localPhoneDialout : Str
  charge : BitVec 32
  outbytes : BitVec 32
  outbps : BitVec 32
  inbytes : BitVec 32
  inbps : BitVec 32

/-- `monitor_evnt_…` -/
inductive Evnt where
  | log (prio : BitVec 32) (what msg : Str)
  | charge (cep : MonitorEntry) (units : BitVec 32) (estimate : Bool)
  | connect (cep : MonitorEntry)
  | disconnect (cep : MonitorEntry)
  | updown (cep : MonitorEntry) (up : BitVec 32)
  | l12stat (controller layer state : BitVec 32)
  | tei (controller value : BitVec 32)
  | acct (cep : MonitorEntry)

namespace Evnt

/-- The mask of calls. -/
def callMask (cep : MonitorEntry) : BitVec 32 := if cep.dirIncoming then caEvntCallin else caEvntCallout

/-- Which right it takes to see an event. -/
def mask : Evnt → BitVec 32
  | log .. => caEvntI4b
  | charge cep .. => callMask cep
  | connect cep => callMask cep
  | disconnect cep => callMask cep
  | updown cep _ => callMask cep
  | l12stat .. => caEvntI4b
  | tei .. => caEvntI4b
  | acct _ => caEvntI4b

/-- The packet, with the time. -/
def packet (now : BitVec 32) : Evnt → Packet
  | log prio what msg => .logevnt now prio what msg
  | charge cep units estimate => .chrg now cep.isdncontrollerused cep.isdnchannelused units estimate
  | connect cep =>
    .connect now cep.dirIncoming cep.isdncontrollerused cep.isdnchannelused cep.name (cep.devname.take 255)
      (if cep.dirIncoming then cep.realPhoneIncoming else cep.remotePhoneDialout)
      (if cep.dirIncoming then cep.localPhoneIncoming else cep.localPhoneDialout)
  | disconnect cep => .disconnect now cep.isdncontrollerused cep.isdnchannelused
  | updown cep up => .updown now cep.isdncontrollerused cep.isdnchannelused up
  | l12stat controller layer state => .l12stat now controller layer state
  | tei controller value => .tei now controller value
  | acct cep =>
    .acct now cep.isdncontrollerused cep.isdnchannelused cep.outbytes cep.outbps cep.inbytes cep.inbps

end Evnt

/-- `struct monitor_connection`. The last five fields are history: the entries when the client connected, how many
packets it was sent then, all packets with the right that an event needs, the octets that have arrived, and the
commands that were found in them. -/
structure Connection where
  sock : ℕ
  /-- The address, or nothing for the local socket. -/
  peer : Option (BitVec 32)
  rights : BitVec 32
  events : BitVec 32
  /-- What has arrived and has not been read. -/
  pending : List UInt8
  /-- The peer has closed the connection, and nothing more arrives. -/
  ended : Bool
  config : List MonitorRights
  opened : ℕ
  out : List (Packet × Option (BitVec 32))
  arrived : List UInt8
  handled : List ClientCommand

/-- The part of the daemon that serves monitors. The last field is history: the commands that were carried out,
with the address of the client and the entries when it connected. -/
structure MonitorServer where
  rights : List MonitorRights
  connections : List Connection
  accepted : Bool
  controllers : Fin monControllers → MonitorController
  entries : { l : List MonitorEntry // l.length ≤ cfgEntryMax }
  done : List (Option (BitVec 32) × List MonitorRights × ClientCommand)

namespace MonitorServer

/-- One connection changes. -/
def modify (s : MonitorServer) (sock : ℕ) (f : Connection → Connection) : MonitorServer :=
  { s with connections := s.connections.map fun con => if con.sock = sock then f con else con }

/-- `anybody` -/
def anybody (s : MonitorServer) (mask : BitVec 32) : Bool :=
  s.connections.any fun con => con.events &&& mask == mask

/-- `monitor_broadcast` -/
def monitorBroadcast (s : MonitorServer) (mask : BitVec 32) (pkt : Packet) : MonitorServer :=
  { s with
    connections := s.connections.map fun con =>
      if con.events &&& mask == mask then { con with out := con.out ++ [(pkt, some mask)] } else con }

/-- `monitor_evnt_…` -/
def monitorEvnt (now : BitVec 32) (s : MonitorServer) (e : Evnt) : MonitorServer :=
  if s.anybody e.mask then s.monitorBroadcast e.mask (e.packet now) else s

/-- The state of the controllers and of the entries, of which a client is told when it connects. -/
def stateEvnts (s : MonitorServer) : List Evnt :=
  ((List.finRange monControllers).flatMap fun i =>
    [.tei (BitVec.ofNat 32 i) (s.controllers i).tei, .l12stat (BitVec.ofNat 32 i) 1 (s.controllers i).l1stat,
      .l12stat (BitVec.ofNat 32 i) 2 (s.controllers i).l2stat]) ++
    (s.entries.val.filter fun cep => cep.connected).flatMap fun cep =>
      [.connect cep, .acct cep, .charge cep cep.charge true]

/-- The packets that a client is sent first. -/
def initialData (s : MonitorServer) (rMask : BitVec 32) : List Packet :=
  .idata (BitVec.ofNat 16 monControllers) (BitVec.ofNat 16 s.entries.val.length) rMask ::
    ((List.finRange monControllers).map fun i => Packet.ictrl (s.controllers i).name) ++
      s.entries.val.map fun cep => Packet.idev ((cep.devname ++ [32]).take 63)

/-- `monitor_handle_connect`. A descriptor that is open is not given to a new client. -/
def monitorHandleConnect (s : MonitorServer) (sock : ℕ) (peer : Option (BitVec 32)) (now : BitVec 32) :
    MonitorServer :=
  let rMask := clientRights s.rights peer
  if s.connections.any (fun con => con.sock == sock) || rMask == 0 then s
  else
    -- for the state the client is interested in everything
    let con : Connection :=
      { sock, peer, rights := rMask, events := BitVec.allOnes 32, pending := [], ended := false
        config := s.rights, opened := 0
        out := (s.initialData rMask).map fun p => (p, none), arrived := [], handled := [] }
    let s := { s with accepted := true, connections := s.connections ++ [con] }
    let s := s.stateEvnts.foldl (monitorEvnt now) s
    s.modify sock fun con => { con with events := 0, opened := con.out.length }

/-- What is sent in answer to a command. -/
def answer (s : MonitorServer) (who : ℕ → BitVec 32) : ClientCommand → List Packet
  | .dumprights =>
    .drini (BitVec.ofNat 16 s.rights.length) :: s.rights.map fun r => Packet.dr r.rights r.net r.mask r.isLocal
  | .dumpmcons =>
    .dcini (BitVec.ofNat 16 s.connections.length) ::
      s.connections.map fun con => Packet.dc con.rights (who con.sock)
  | _ => []

/-- The end of `monitor_command`, with the rights. `who` is the address of the peer of a socket. -/
def execute (s : MonitorServer) (who : ℕ → BitVec 32) (con : Connection) (c : ClientCommand) : MonitorServer :=
  match c with
  | .setmask events => s.modify con.sock fun con => { con with events := events &&& con.rights }
  | c =>
    if caCommandFull &&& con.rights = caCommandFull then
      { s with done := s.done ++ [(con.peer, con.config, c)] }.modify con.sock fun con =>
        { con with out := con.out ++ (s.answer who c).map fun p => (p, none) }
    else s

/-- `monitor_handle_input`, for one connection. -/
def monitorHandleInput (s : MonitorServer) (sock : ℕ) (stack : Fin 16 → UInt8) (who : ℕ → BitVec 32) :
    MonitorServer :=
  match s.connections.find? fun con => con.sock == sock with
  | none => s
  | some con =>
    if !s.accepted then s
    else
      match monitorCommand stack con.ended con.pending with
      | .wait => s
      | .close =>
        let connections := s.connections.filter fun con => con.sock != sock
        { s with connections, accepted := !connections.isEmpty }
      | .illegal rest => s.modify sock fun con => { con with pending := rest }
      | .command c rest =>
        (s.modify sock fun con => { con with pending := rest, handled := con.handled ++ [c] }).execute who con c

/-- What happens to the daemon. -/
inductive Step where
  | connect (sock : ℕ) (peer : Option (BitVec 32)) (now : BitVec 32)
  | arrive (sock : ℕ) (chunk : List UInt8)
  /-- The peer closes the connection. -/
  | finish (sock : ℕ)
  | input (sock : ℕ) (stack : Fin 16 → UInt8) (who : ℕ → BitVec 32)
  | evnt (e : Evnt) (now : BitVec 32)
  /-- The configuration is read again, or a controller or an entry has changed. -/
  | configure (rights : List MonitorRights) (controllers : Fin monControllers → MonitorController)
      (entries : { l : List MonitorEntry // l.length ≤ cfgEntryMax })

def step (s : MonitorServer) : Step → MonitorServer
  | .connect sock peer now => s.monitorHandleConnect sock peer now
  | .arrive sock chunk =>
    s.modify sock fun con =>
      if con.ended then con else { con with pending := con.pending ++ chunk, arrived := con.arrived ++ chunk }
  | .finish sock => s.modify sock fun con => { con with ended := true }
  | .input sock stack who => s.monitorHandleInput sock stack who
  | .evnt e now => monitorEvnt now s e
  | .configure rights controllers entries => { s with rights, controllers, entries }

def run (s : MonitorServer) : List Step → MonitorServer
  | [] => s
  | e :: es => (s.step e).run es

/-- No client is connected. -/
def start (rights : List MonitorRights) (controllers : Fin monControllers → MonitorController)
    (entries : { l : List MonitorEntry // l.length ≤ cfgEntryMax }) : MonitorServer where
  rights
  connections := []
  accepted := false
  controllers
  entries
  done := []

/-! ## What a step does to a connection -/

end MonitorServer

/-- What a client is told of some events. -/
def Connection.heard (con : Connection) (now : BitVec 32) (es : List Evnt) : List (Packet × Option (BitVec 32)) :=
  (es.filter fun e => con.events &&& e.mask == e.mask).map fun e => (e.packet now, some e.mask)

/-- It is told of some events. -/
def Connection.hears (con : Connection) (now : BitVec 32) (es : List Evnt) : Connection :=
  { con with out := con.out ++ con.heard now es }

namespace MonitorServer

theorem monitorEvnt_eq (now : BitVec 32) (s : MonitorServer) (e : Evnt) :
    monitorEvnt now s e = { s with connections := s.connections.map fun con => con.hears now [e] } := by
  have heach (con : Connection) :
      (if con.events &&& e.mask == e.mask then { con with out := con.out ++ [(e.packet now, some e.mask)] } else con)
        = con.hears now [e] := by
    rw [Connection.hears, Connection.heard, List.filter_cons]
    split
    next => rfl
    next => rw [List.filter_nil, List.map_nil, List.append_nil]
  rw [monitorEvnt]
  split
  next =>
    rw [monitorBroadcast]
    simp only [heach]
  next hnobody =>
    have hsame : s.connections.map (fun con => con.hears now [e]) = s.connections.map id := by
      refine List.map_congr_left fun con hcon => ?_
      rw [← heach con, if_neg fun h => hnobody (List.any_eq_true.mpr ⟨con, hcon, h⟩)]
      rfl
    rw [hsame, List.map_id]

/-- Some events, one after the other. -/
theorem foldl_monitorEvnt (now : BitVec 32) (es : List Evnt) (s : MonitorServer) :
    es.foldl (monitorEvnt now) s = { s with connections := s.connections.map fun con => con.hears now es } := by
  induction es generalizing s with
  | nil =>
    have hsame : (fun con : Connection => con.hears now []) = id := by
      funext con
      rw [Connection.hears, Connection.heard, List.filter_nil, List.map_nil, List.append_nil]
      rfl
    rw [hsame, List.map_id]
    rfl
  | cons e es ih =>
    have htwo (con : Connection) : (con.hears now [e]).hears now es = con.hears now (e :: es) := by
      have hcons : con.heard now (e :: es) = con.heard now [e] ++ con.heard now es := by
        rw [Connection.heard, Connection.heard, Connection.heard, ← List.map_append, ← List.filter_append]
        rfl
      have hall : con.hears now (e :: es) = { con with out := con.out ++ con.heard now (e :: es) } := rfl
      rw [hall, hcons, ← List.append_assoc]
      rfl
    rw [List.foldl_cons, ih, monitorEvnt_eq]
    simp only [List.map_map]
    exact congrArg (fun f => { s with connections := s.connections.map f }) (funext htwo)

/-- A client that connects, when it has been told everything. -/
def opening (s : MonitorServer) (sock : ℕ) (peer : Option (BitVec 32)) (now : BitVec 32) : Connection :=
  let rMask := clientRights s.rights peer
  let con : Connection :=
    { sock, peer, rights := rMask, events := BitVec.allOnes 32, pending := [], ended := false
      config := s.rights, opened := 0
      out := (s.initialData rMask).map fun p => (p, none), arrived := [], handled := [] }
  { con.hears now s.stateEvnts with events := 0, opened := (con.hears now s.stateEvnts).out.length }

/-- The clients that are connected hear of the state also. -/
theorem monitorHandleConnect_eq {s : MonitorServer} {sock : ℕ} {peer : Option (BitVec 32)} (now : BitVec 32)
    (hsock : ∀ con ∈ s.connections, con.sock ≠ sock) (hrights : clientRights s.rights peer ≠ 0) :
    s.monitorHandleConnect sock peer now =
      { s with
        accepted := true
        connections := (s.connections.map fun con => con.hears now s.stateEvnts) ++ [s.opening sock peer now] } := by
  have hnew : ¬ (s.connections.any (fun con => con.sock == sock) || clientRights s.rights peer == 0) = true := by
    rw [Bool.or_eq_true, not_or]
    refine ⟨fun hany => ?_, fun hz => hrights (beq_iff_eq.mp hz)⟩
    obtain ⟨con, hcon, heq⟩ := List.any_eq_true.mp hany
    exact hsock con hcon (beq_iff_eq.mp heq)
  rw [monitorHandleConnect]
  simp only [if_neg hnew]
  rw [foldl_monitorEvnt, modify]
  simp only [List.map_append, List.map_map, List.map_cons, List.map_nil]
  have hold : s.connections.map ((fun con => if con.sock = sock then
      { con with events := 0, opened := con.out.length } else con) ∘ fun con => con.hears now s.stateEvnts)
        = s.connections.map fun con => con.hears now s.stateEvnts := by
    refine List.map_congr_left fun con hcon => ?_
    exact if_neg (hsock con hcon)
  refine congrArg (fun l => { s with accepted := true, connections := l }) ?_
  exact congrArg₂ _ hold (congrArg (fun con => [con]) (if_pos rfl))

/-- A client without rights is sent away. -/
theorem monitorHandleConnect_same {s : MonitorServer} {sock : ℕ} {peer : Option (BitVec 32)} (now : BitVec 32)
    (hnew : ¬ ((∀ con ∈ s.connections, con.sock ≠ sock) ∧ clientRights s.rights peer ≠ 0)) :
    s.monitorHandleConnect sock peer now = s := by
  rw [monitorHandleConnect]
  refine if_pos ?_
  rw [not_and_or] at hnew
  rw [Bool.or_eq_true]
  rcases hnew with hsock | hrights
  · push Not at hsock
    obtain ⟨con, hcon, heq⟩ := hsock
    exact .inl (List.any_eq_true.mpr ⟨con, hcon, beq_iff_eq.mpr heq⟩)
  · exact .inr (beq_iff_eq.mpr (not_not.mp hrights))

/-- The events that clients are told of in a step. -/
def told (s : MonitorServer) : Step → List Evnt
  | .connect .. => s.stateEvnts
  | .evnt e _ => [e]
  | _ => []

/-- **What a step does to a connection.** -/
inductive Becomes (s : MonitorServer) : Step → Connection → Connection → Prop
  | same (e : Step) (con : Connection) : Becomes s e con con
  | hears (e : Step) (con : Connection) (now : BitVec 32) : Becomes s e con (con.hears now (s.told e))
  | arrives (chunk : List UInt8) (con : Connection) (h : con.ended = false) :
    Becomes s (.arrive con.sock chunk) con
      { con with pending := con.pending ++ chunk, arrived := con.arrived ++ chunk }
  | finishes (con : Connection) : Becomes s (.finish con.sock) con { con with ended := true }
  | illegal (stack : Fin 16 → UInt8) (who : ℕ → BitVec 32) (con : Connection) (rest : List UInt8)
    (h : monitorCommand stack con.ended con.pending = .illegal rest) :
    Becomes s (.input con.sock stack who) con { con with pending := rest }
  | setmask (stack : Fin 16 → UInt8) (who : ℕ → BitVec 32) (con : Connection) (events : BitVec 32)
    (rest : List UInt8) (h : monitorCommand stack con.ended con.pending = .command (.setmask events) rest) :
    Becomes s (.input con.sock stack who) con
      { con with
        pending := rest, handled := con.handled ++ [.setmask events], events := events &&& con.rights }
  | refused (stack : Fin 16 → UInt8) (who : ℕ → BitVec 32) (con : Connection) (c : ClientCommand)
    (rest : List UInt8) (h : monitorCommand stack con.ended con.pending = .command c rest)
    (hrights : caCommandFull &&& con.rights ≠ caCommandFull) :
    Becomes s (.input con.sock stack who) con { con with pending := rest, handled := con.handled ++ [c] }
  | answered (stack : Fin 16 → UInt8) (who : ℕ → BitVec 32) (con : Connection) (c : ClientCommand)
    (rest : List UInt8) (h : monitorCommand stack con.ended con.pending = .command c rest)
    (hrights : caCommandFull &&& con.rights = caCommandFull) :
    Becomes s (.input con.sock stack who) con
      { con with
        pending := rest, handled := con.handled ++ [c]
        out := con.out ++ (s.answer who c).map fun p => (p, none) }

/-- No two clients have the same descriptor. -/
def Distinct (s : MonitorServer) : Prop := (s.connections.map Connection.sock).Nodup

theorem Distinct.eq {s : MonitorServer} (hd : s.Distinct) {con con' : Connection} (h : con ∈ s.connections)
    (h' : con' ∈ s.connections) (hsock : con.sock = con'.sock) : con = con' :=
  List.inj_on_of_nodup_map hd h h' hsock

theorem mem_modify {s : MonitorServer} {sock : ℕ} {f : Connection → Connection} {con' : Connection}
    (h : con' ∈ (s.modify sock f).connections) :
    ∃ con ∈ s.connections, (con' = con ∧ con.sock ≠ sock) ∨ (con' = f con ∧ con.sock = sock) := by
  obtain ⟨con, hcon, rfl⟩ := List.mem_map.mp h
  refine ⟨con, hcon, ?_⟩
  split
  next heq => exact .inr ⟨rfl, heq⟩
  next hne => exact .inl ⟨rfl, hne⟩

/-- A connection changes twice. -/
theorem modify_modify (s : MonitorServer) (sock : ℕ) {f g : Connection → Connection}
    (hf : ∀ con, (f con).sock = con.sock) :
    (s.modify sock f).modify sock g = s.modify sock fun con => g (f con) := by
  rw [modify, modify, modify]
  simp only [List.map_map]
  refine congrArg (fun l => { s with connections := l }) (List.map_congr_left fun con _ => ?_)
  show (if (if con.sock = sock then f con else con).sock = sock then _ else _) = _
  by_cases h : con.sock = sock
  · simp only [if_pos h, if_pos ((hf con).trans h)]
  · simp only [if_neg h]

/-- The answer does not depend on what has been read. -/
theorem answer_modify (s : MonitorServer) (who : ℕ → BitVec 32) (sock : ℕ) (c : ClientCommand)
    {f : Connection → Connection} (hf : ∀ con, (f con).rights = con.rights ∧ (f con).sock = con.sock) :
    (s.modify sock f).answer who c = s.answer who c := by
  have hdc : (s.modify sock f).connections.map (fun con => Packet.dc con.rights (who con.sock))
      = s.connections.map fun con => Packet.dc con.rights (who con.sock) := by
    rw [modify, List.map_map]
    refine List.map_congr_left fun con _ => ?_
    show Packet.dc (if con.sock = sock then f con else con).rights
      (who (if con.sock = sock then f con else con).sock) = _
    split
    next => rw [(hf con).1, (hf con).2]
    next => rfl
  have hlen : (s.modify sock f).connections.length = s.connections.length := List.length_map _
  cases c with
  | dumpmcons => rw [answer, answer, hdc, hlen]
  | _ => rfl

theorem execute_of_ne {s : MonitorServer} {who : ℕ → BitVec 32} {con : Connection} {c : ClientCommand}
    (hc : ∀ events, c ≠ .setmask events) :
    s.execute who con c =
      if caCommandFull &&& con.rights = caCommandFull then
        { s with done := s.done ++ [(con.peer, con.config, c)] }.modify con.sock fun con =>
          { con with out := con.out ++ (s.answer who c).map fun p => (p, none) }
      else s := by
  cases c with
  | setmask events => exact absurd rfl (hc events)
  | _ => rfl

/-- A client is served. -/
theorem monitorHandleInput_becomes {s : MonitorServer} (hd : s.Distinct) {sock : ℕ} {stack : Fin 16 → UInt8}
    {who : ℕ → BitVec 32} {con' : Connection}
    (h : con' ∈ (s.monitorHandleInput sock stack who).connections) :
    ∃ con ∈ s.connections, s.Becomes (.input sock stack who) con con' := by
  rw [monitorHandleInput] at h
  cases hfind : s.connections.find? fun con => con.sock == sock with
  | none =>
    rw [hfind] at h
    exact ⟨con', h, .same _ _⟩
  | some con₀ =>
    rw [hfind] at h
    have hmem : con₀ ∈ s.connections := List.mem_of_find?_eq_some hfind
    have hsock : con₀.sock = sock := 
      beq_iff_eq.mp (List.find?_some (p := fun con : Connection => con.sock == sock) hfind)
    -- the client of this descriptor is the one that was found
    have hwrite {f : Connection → Connection} (hf : s.Becomes (.input sock stack who) con₀ (f con₀))
        (h : con' ∈ (s.modify sock f).connections) :
        ∃ con ∈ s.connections, s.Becomes (.input sock stack who) con con' := by
      obtain ⟨con, hcon, ⟨rfl, _⟩ | ⟨rfl, heq⟩⟩ := mem_modify h
      · exact ⟨_, hcon, .same _ _⟩
      · rw [hd.eq hcon hmem (heq.trans hsock.symm)]
        exact ⟨con₀, hmem, hf⟩
    subst hsock
    by_cases haccepted : (!s.accepted) = true
    · simp only [if_pos haccepted] at h
      exact ⟨con', h, .same _ _⟩
    simp only [if_neg haccepted] at h
    cases hcmd : monitorCommand stack con₀.ended con₀.pending with
    | wait =>
      rw [hcmd] at h
      exact ⟨con', h, .same _ _⟩
    | close =>
      rw [hcmd] at h
      exact ⟨con', List.mem_of_mem_filter h, .same _ _⟩
    | illegal rest =>
      rw [hcmd] at h
      exact hwrite (.illegal stack who con₀ rest hcmd) h
    | command c rest =>
      rw [hcmd] at h
      by_cases hmask : ∃ events, c = .setmask events
      · obtain ⟨events, rfl⟩ := hmask
        simp only [execute] at h
        rw [modify_modify s con₀.sock (f := fun con =>
          { con with pending := rest, handled := con.handled ++ [.setmask events] }) fun con => rfl] at h
        exact hwrite (.setmask stack who con₀ events rest hcmd) h
      · simp only at h
        rw [execute_of_ne (fun events hc => hmask ⟨events, hc⟩)] at h
        by_cases hrights : caCommandFull &&& con₀.rights = caCommandFull
        · rw [if_pos hrights, answer_modify s who con₀.sock c (f := fun con =>
            { con with pending := rest, handled := con.handled ++ [c] }) fun con => ⟨rfl, rfl⟩] at h
          have h : con' ∈ ((s.modify con₀.sock fun con =>
              { con with pending := rest, handled := con.handled ++ [c] }).modify con₀.sock fun con =>
                { con with out := con.out ++ (s.answer who c).map fun p => (p, none) }).connections := h
          rw [modify_modify s con₀.sock (f := fun con =>
            { con with pending := rest, handled := con.handled ++ [c] }) fun con => rfl] at h
          exact hwrite (.answered stack who con₀ c rest hcmd hrights) h
        · rw [if_neg hrights] at h
          exact hwrite (.refused stack who con₀ c rest hcmd hrights) h

theorem step_becomes {s : MonitorServer} (hd : s.Distinct) (e : Step) {con' : Connection}
    (h : con' ∈ (s.step e).connections) :
    (∃ sock peer now, e = .connect sock peer now ∧ clientRights s.rights peer ≠ 0 ∧
        con' = s.opening sock peer now) ∨
      ∃ con ∈ s.connections, s.Becomes e con con' := by
  cases e with
  | connect sock peer now =>
    by_cases hnew : (∀ con ∈ s.connections, con.sock ≠ sock) ∧ clientRights s.rights peer ≠ 0
    · rw [step, monitorHandleConnect_eq now hnew.1 hnew.2] at h
      rcases List.mem_append.mp h with h | h
      · obtain ⟨con, hcon, rfl⟩ := List.mem_map.mp h
        exact .inr ⟨con, hcon, .hears (.connect sock peer now) con now⟩
      · exact .inl ⟨sock, peer, now, rfl, hnew.2, List.mem_singleton.mp h⟩
    · rw [step, monitorHandleConnect_same now hnew] at h
      exact .inr ⟨con', h, .same _ _⟩
  | arrive sock chunk =>
    obtain ⟨con, hcon, ⟨rfl, _⟩ | ⟨rfl, rfl⟩⟩ := mem_modify h
    · exact .inr ⟨_, hcon, .same _ _⟩
    · refine .inr ⟨con, hcon, ?_⟩
      by_cases hended : con.ended = true
      · rw [if_pos hended]
        exact .same _ _
      · rw [if_neg hended]
        exact .arrives chunk con (Bool.eq_false_of_not_eq_true hended)
  | finish sock =>
    obtain ⟨con, hcon, ⟨rfl, _⟩ | ⟨rfl, rfl⟩⟩ := mem_modify h
    · exact .inr ⟨_, hcon, .same _ _⟩
    · exact .inr ⟨con, hcon, .finishes con⟩
  | input sock stack who => exact .inr (monitorHandleInput_becomes hd h)
  | evnt e now =>
    rw [step, monitorEvnt_eq] at h
    obtain ⟨con, hcon, rfl⟩ := List.mem_map.mp h
    exact .inr ⟨con, hcon, .hears (.evnt e now) con now⟩
  | configure rights controllers entries => exact .inr ⟨con', h, .same _ _⟩

theorem map_sock (s : MonitorServer) {f : Connection → Connection} (hf : ∀ con, (f con).sock = con.sock) :
    (s.connections.map f).map Connection.sock = s.connections.map Connection.sock := by
  rw [List.map_map]
  exact List.map_congr_left fun con _ => hf con

theorem Distinct.modify {s : MonitorServer} (hd : s.Distinct) (sock : ℕ) {f : Connection → Connection}
    (hf : ∀ con, (f con).sock = con.sock) : (s.modify sock f).Distinct := by
  have hsame := s.map_sock (f := fun con => if con.sock = sock then f con else con) fun con => by
    split
    next => exact hf con
    next => rfl
  rw [Distinct, MonitorServer.modify, hsame]
  exact hd

theorem Distinct.hears {s : MonitorServer} (hd : s.Distinct) (now : BitVec 32) (es : List Evnt) :
    ((s.connections.map fun con => con.hears now es).map Connection.sock).Nodup := by
  rw [s.map_sock (f := fun con => con.hears now es) fun con => rfl]
  exact hd

/-- A step leaves the descriptors apart. -/
theorem step_distinct {s : MonitorServer} (hd : s.Distinct) (e : Step) : (s.step e).Distinct := by
  cases e with
  | connect sock peer now =>
    by_cases hnew : (∀ con ∈ s.connections, con.sock ≠ sock) ∧ clientRights s.rights peer ≠ 0
    · rw [step, monitorHandleConnect_eq now hnew.1 hnew.2, Distinct, List.map_append, List.nodup_append]
      refine ⟨hd.hears now _, List.nodup_singleton _, fun a ha b hb => ?_⟩
      rw [s.map_sock (f := fun con => con.hears now s.stateEvnts) fun con => rfl] at ha
      obtain ⟨con, hcon, rfl⟩ := List.mem_map.mp ha
      rw [List.mem_singleton.mp hb]
      exact hnew.1 con hcon
    · rw [step, monitorHandleConnect_same now hnew]
      exact hd
  | arrive sock chunk =>
    refine hd.modify sock fun con => ?_
    split
    next => rfl
    next => rfl
  | finish sock => exact hd.modify sock fun con => rfl
  | input sock stack who =>
    rw [step, monitorHandleInput]
    split
    next => exact hd
    next con₀ _ =>
      split
      next => exact hd
      next =>
        split
        next => exact hd
        next => exact hd.sublist (List.filter_sublist.map _)
        next rest _ => exact hd.modify sock fun con => rfl
        next c rest _ =>
          have hread : (s.modify sock fun con =>
              { con with pending := rest, handled := con.handled ++ [c] }).Distinct :=
            hd.modify sock fun con => rfl
          by_cases hmask : ∃ events, c = .setmask events
          · obtain ⟨events, rfl⟩ := hmask
            exact hread.modify con₀.sock fun con => rfl
          · rw [execute_of_ne fun events hc => hmask ⟨events, hc⟩]
            split
            next => exact Distinct.modify (s := { s.modify sock _ with done := _ }) hread con₀.sock fun con => rfl
            next => exact hread
  | evnt e now =>
    rw [step, monitorEvnt_eq]
    exact hd.hears now [e]
  | configure rights controllers entries => exact hd

/-- **Commands are carried out for clients that have the right to them.** -/
theorem step_done (s : MonitorServer) (e : Step) :
    (s.step e).done = s.done ∨
      ∃ con ∈ s.connections, ∃ c, (s.step e).done = s.done ++ [(con.peer, con.config, c)] ∧
        caCommandFull &&& con.rights = caCommandFull := by
  cases e with
  | connect sock peer now =>
    by_cases hnew : (∀ con ∈ s.connections, con.sock ≠ sock) ∧ clientRights s.rights peer ≠ 0
    · rw [step, monitorHandleConnect_eq now hnew.1 hnew.2]
      exact .inl rfl
    · rw [step, monitorHandleConnect_same now hnew]
      exact .inl rfl
  | arrive sock chunk => exact .inl rfl
  | finish sock => exact .inl rfl
  | input sock stack who =>
    rw [step, monitorHandleInput]
    split
    next => exact .inl rfl
    next con₀ hfind =>
      split
      next => exact .inl rfl
      next =>
        split
        next => exact .inl rfl
        next => exact .inl rfl
        next => exact .inl rfl
        next c rest _ =>
          by_cases hmask : ∃ events, c = .setmask events
          · obtain ⟨events, rfl⟩ := hmask
            exact .inl rfl
          · rw [execute_of_ne fun events hc => hmask ⟨events, hc⟩]
            split
            next hrights => exact .inr ⟨con₀, List.mem_of_find?_eq_some hfind, c, rfl, hrights⟩
            next => exact .inl rfl
  | evnt e now =>
    rw [step, monitorEvnt_eq]
    exact .inl rfl
  | configure rights controllers entries => exact .inl rfl

/-! ## Rights -/

end MonitorServer

/-- What a client has been told since it was told the state of the daemon: events that it has the right to see,
and answers to commands that it has the right to give. -/
structure Connection.Granted (con : Connection) : Prop where
  rights : con.rights = clientRights con.config con.peer
  events : con.events &&& con.rights = con.events
  opened : con.opened ≤ con.out.length
  told : ∀ x ∈ con.out.drop con.opened, con.rights &&& x.2.getD caCommandFull = x.2.getD caCommandFull

/-- More is told. -/
theorem Connection.Granted.append {con : Connection} (h : con.Granted) {l : List (Packet × Option (BitVec 32))}
    (hl : ∀ x ∈ l, con.rights &&& x.2.getD caCommandFull = x.2.getD caCommandFull) :
    ∀ x ∈ (con.out ++ l).drop con.opened, con.rights &&& x.2.getD caCommandFull = x.2.getD caCommandFull := by
  intro x hx
  rw [List.drop_append_of_le_length h.opened] at hx
  rcases List.mem_append.mp hx with hx | hx
  · exact h.told x hx
  · exact hl x hx

namespace MonitorServer

theorem Becomes.granted {s : MonitorServer} {e : Step} {con con' : Connection} (hb : s.Becomes e con con')
    (h : con.Granted) : con'.Granted := by
  have hle (l : List (Packet × Option (BitVec 32))) : con.opened ≤ (con.out ++ l).length := by
    rw [List.length_append]
    exact h.opened.trans (Nat.le_add_right _ _)
  cases hb with
  | same => exact h
  | hears _ _ now =>
    refine ⟨h.rights, h.events, hle _, h.append fun x hx => ?_⟩
    obtain ⟨e, he, rfl⟩ := List.mem_map.mp hx
    have hwants : con.events &&& e.mask = e.mask := beq_iff_eq.mp (List.mem_filter.mp he).2
    show con.rights &&& e.mask = e.mask
    rw [← hwants, ← BitVec.and_assoc, BitVec.and_comm con.rights, h.events]
  | arrives chunk => exact ⟨h.rights, h.events, h.opened, h.told⟩
  | finishes => exact ⟨h.rights, h.events, h.opened, h.told⟩
  | illegal stack who _ rest _ => exact ⟨h.rights, h.events, h.opened, h.told⟩
  | setmask stack who _ events rest _ =>
    refine ⟨h.rights, ?_, h.opened, h.told⟩
    show events &&& con.rights &&& con.rights = events &&& con.rights
    rw [BitVec.and_assoc, BitVec.and_self]
  | refused stack who _ c rest _ _ => exact ⟨h.rights, h.events, h.opened, h.told⟩
  | answered stack who _ c rest _ hrights =>
    refine ⟨h.rights, h.events, hle _, h.append fun x hx => ?_⟩
    obtain ⟨p, _, rfl⟩ := List.mem_map.mp hx
    show con.rights &&& caCommandFull = caCommandFull
    rw [BitVec.and_comm]
    exact hrights

theorem opening_granted (s : MonitorServer) (sock : ℕ) (peer : Option (BitVec 32)) (now : BitVec 32) :
    (s.opening sock peer now).Granted := by
  refine ⟨rfl, BitVec.zero_and, le_refl _, fun x hx => ?_⟩
  rw [show (s.opening sock peer now).out.drop (s.opening sock peer now).opened = [] from
    List.drop_of_length_le (le_refl _)] at hx
  exact absurd hx List.not_mem_nil

/-- Everybody has what it was granted. -/
structure Fair (s : MonitorServer) : Prop where
  distinct : s.Distinct
  granted : ∀ con ∈ s.connections, con.Granted
  done : ∀ d ∈ s.done, caCommandFull &&& clientRights d.2.1 d.1 = caCommandFull

theorem Fair.step {s : MonitorServer} (h : s.Fair) (e : Step) : (s.step e).Fair := by
  refine ⟨step_distinct h.distinct e, fun con' hcon' => ?_, fun d hd => ?_⟩
  · rcases step_becomes h.distinct e hcon' with ⟨sock, peer, now, _, _, rfl⟩ | ⟨con, hcon, hb⟩
    · exact opening_granted s sock peer now
    · exact hb.granted (h.granted con hcon)
  · rcases step_done s e with heq | ⟨con, hcon, c, heq, hrights⟩
    · exact h.done d (heq ▸ hd)
    · rw [heq] at hd
      rcases List.mem_append.mp hd with hd | hd
      · exact h.done d hd
      · rw [List.mem_singleton.mp hd]
        rwa [(h.granted con hcon).rights] at hrights

theorem Fair.run {s : MonitorServer} (h : s.Fair) (es : List Step) : (s.run es).Fair := by
  induction es generalizing s with
  | nil => exact h
  | cons e es ih => exact ih (h.step e)

section
variable (rights : List MonitorRights) (controllers : Fin monControllers → MonitorController)
  (entries : { l : List MonitorEntry // l.length ≤ cfgEntryMax })

theorem fair_start : (start rights controllers entries).Fair :=
  ⟨List.nodup_nil, fun _ h => absurd h List.not_mem_nil, fun _ h => absurd h List.not_mem_nil⟩

/-- **In every run, a command is carried out for a client that was granted the right to all commands when it
connected, and what a client is told once it has been told the state of the daemon is what it was granted the
right to**: the events that it may see, and the answers to its commands. -/
theorem run_rights (es : List Step) :
    let s := (start rights controllers entries).run es
    (∀ d ∈ s.done, caCommandFull &&& clientRights d.2.1 d.1 = caCommandFull) ∧
      ∀ con ∈ s.connections, ∀ x ∈ con.out.drop con.opened,
        clientRights con.config con.peer &&& x.2.getD caCommandFull = x.2.getD caCommandFull := by
  intro s
  have hfair : s.Fair := (fair_start rights controllers entries).run es
  refine ⟨hfair.done, fun con hcon x hx => ?_⟩
  have hgranted := hfair.granted con hcon
  rw [← hgranted.rights]
  exact hgranted.told x hx

end

/-! ## What a monitor shows -/

end MonitorServer

/-- A monitor has room to note the calls of the controller that an event is about. -/
def Evnt.Known : Evnt → Prop
  | connect cep => cep.isdncontrollerused.toNat < maxCtrl
  | disconnect cep => cep.isdncontrollerused.toNat < maxCtrl
  | _ => True

namespace MonitorClient

theorem room_evnt (c : MonitorClient) (now : BitVec 32) {e : Evnt} (h : e.Known) : c.Room (e.packet now) := by
  cases e with
  | connect cep => exact h
  | disconnect cep => exact h
  | _ => trivial

/-- A packet of an event leaves a monitor as it is. -/
theorem after_evnt (c : MonitorClient) (now : BitVec 32) (e : Evnt) :
    stateOf (e.packet now) = .anyev ∧ c.after (e.packet now) = c := by
  cases e <;> exact ⟨rfl, rfl⟩

theorem inStep_evnts {c : MonitorClient} (hc : c.state = .anyev) (now : BitVec 32) {es : List Evnt}
    (hes : ∀ e ∈ es, e.Known) :
    c.InStep (es.map (Evnt.packet now)) ∧ c.afterAll (es.map (Evnt.packet now)) = c := by
  induction es with
  | nil => exact ⟨trivial, rfl⟩
  | cons e es ih =>
    obtain ⟨hstate, hafter⟩ := c.after_evnt now e
    obtain ⟨hin, hall⟩ := ih fun e' he' => hes e' (List.mem_cons_of_mem e he')
    rw [List.map_cons, InStep, afterAll, List.foldl_cons, hafter, hstate]
    exact ⟨⟨⟨hc, c.room_evnt now (hes e List.mem_cons_self)⟩, hin⟩, hall⟩

/-- Some packets of one kind, which the monitor counts. -/
theorem inStep_counted {st : MonitorState} {left : MonitorClient → ℕ} {P Q : MonitorClient → Prop}
    {ps : List Packet} (hst : ∀ p ∈ ps, stateOf p = st) (hroom : ∀ p ∈ ps, ∀ c : MonitorClient, c.Room p)
    (hP : ∀ c, P c → c.state = st)
    (hmore : ∀ p ∈ ps, ∀ c, P c → 1 < left c → P (c.after p) ∧ left (c.after p) + 1 = left c)
    (hlast : ∀ p ∈ ps, ∀ c, P c → left c = 1 → Q (c.after p)) {c : MonitorClient} (hc : P c)
    (hleft : left c = ps.length) (hne : ps ≠ []) : c.InStep ps ∧ Q (c.afterAll ps) := by
  induction ps generalizing c with
  | nil => exact absurd rfl hne
  | cons p ps ih =>
    have hstate : c.state = stateOf p ∧ c.Room p :=
      ⟨(hP c hc).trans (hst p List.mem_cons_self).symm, hroom p List.mem_cons_self c⟩
    rw [List.length_cons] at hleft
    cases ps with
    | nil => exact ⟨⟨hstate, trivial⟩, hlast p List.mem_cons_self c hc hleft⟩
    | cons q qs =>
      obtain ⟨hc', hleft'⟩ := hmore p List.mem_cons_self c hc (by rw [hleft]; simp)
      obtain ⟨hrest, hQ⟩ := ih (fun r hr => hst r (List.mem_cons_of_mem p hr))
        (fun r hr => hroom r (List.mem_cons_of_mem p hr))
        (fun r hr => hmore r (List.mem_cons_of_mem p hr)) (fun r hr => hlast r (List.mem_cons_of_mem p hr)) hc'
        (by omega) (by simp)
      exact ⟨⟨hstate, hrest⟩, hQ⟩

/-- The packets of the controllers. -/
theorem inStep_ictrl {c : MonitorClient} (hc : c.state = .ictrl) (hsub : c.subState = 0) {names : List Str}
    (hlen : c.nctrl = names.length) (hne : names ≠ []) :
    c.InStep (names.map .ictrl) ∧
      (c.afterAll (names.map .ictrl)).state = (if 0 < c.nentries then .idev else .anyev) ∧
      (c.afterAll (names.map .ictrl)).subState = 0 ∧ (c.afterAll (names.map .ictrl)).nentries = c.nentries ∧
      (c.afterAll (names.map .ictrl)).devbuf = c.devbuf := by
  have h := @inStep_counted .ictrl (fun c => c.nctrl - c.subState)
    (fun c' => c'.state = .ictrl ∧ c'.subState < c'.nctrl ∧ c'.nentries = c.nentries ∧ c'.devbuf = c.devbuf)
    (fun c' => c'.state = (if 0 < c.nentries then .idev else .anyev) ∧ c'.subState = 0 ∧
      c'.nentries = c.nentries ∧ c'.devbuf = c.devbuf)
    (names.map .ictrl) ?_ ?_ (fun c' h => h.1) ?_ ?_ c ⟨hc, ?_, rfl, rfl⟩ ?_ (by simpa using hne)
  · exact h
  · intro p hp
    obtain ⟨name, _, rfl⟩ := List.mem_map.mp hp
    rfl
  · intro p hp c'
    obtain ⟨name, _, rfl⟩ := List.mem_map.mp hp
    trivial
  · intro p hp c' hc' hleft
    obtain ⟨name, _, rfl⟩ := List.mem_map.mp hp
    have hnot : ¬ c'.nctrl ≤ c'.subState + 1 := by omega
    rw [after, if_neg hnot]
    exact ⟨⟨hc'.1, by show c'.subState + 1 < c'.nctrl; omega, hc'.2.2⟩,
      by show c'.nctrl - (c'.subState + 1) + 1 = _; omega⟩
  · intro p hp c' hc' hleft
    obtain ⟨name, _, rfl⟩ := List.mem_map.mp hp
    have hyes : c'.nctrl ≤ c'.subState + 1 := by omega
    rw [after, if_pos hyes, ← hc'.2.2.1]
    exact ⟨rfl, rfl, rfl, hc'.2.2.2⟩
  · have := List.length_pos_of_ne_nil hne
    omega
  · rw [List.length_map, hlen, hsub, Nat.sub_zero]

/-- The octets of some names, as a monitor hangs them together. -/
def namesLength (names : List Str) : ℕ := (names.map fun name => (monString name).length).sum

/-- The packets of the entries, whose names have room in `devbuf`. -/
theorem inStep_idev {c : MonitorClient} (hc : c.state = .idev) {names : List Str}
    (hlen : c.nentries = c.subState + names.length) (hfits : c.devbuf.length + namesLength names < devbufSize)
    (hne : names ≠ []) :
    c.InStep (names.map .idev) ∧ (c.afterAll (names.map .idev)).state = .anyev := by
  induction names generalizing c with
  | nil => exact absurd rfl hne
  | cons name names ih =>
    rw [namesLength, List.map_cons, List.sum_cons, ← namesLength, ← Nat.add_assoc] at hfits
    rw [List.length_cons] at hlen
    have hroom : c.Room (.idev name) := lt_of_le_of_lt (Nat.le_add_right _ _) hfits
    rw [List.map_cons, afterAll, List.foldl_cons]
    cases names with
    | nil =>
      have hyes : c.nentries ≤ c.subState + 1 := hlen.le
      refine ⟨⟨⟨hc, hroom⟩, trivial⟩, ?_⟩
      rw [after]
      dsimp only
      rw [if_pos hyes]
      rfl
    | cons name' names =>
      have hnot : ¬ c.nentries ≤ c.subState + 1 := by
        rw [hlen, List.length_cons]
        omega
      have hafter : c.after (.idev name) =
          { c with devbuf := c.devbuf ++ monString name, subState := c.subState + 1 } := by
        rw [after]
        dsimp only
        rw [if_neg hnot]
      have hrest := @ih (c.after (.idev name)) (by rw [hafter]; exact hc)
        (by rw [hafter]; exact hlen.trans (by rw [Nat.add_assoc, Nat.add_comm 1]))
        (by rw [hafter]; simpa only [List.length_append] using hfits) (by simp)
      exact ⟨⟨⟨hc, hroom⟩, hrest.1⟩, hrest.2⟩

/-- The records of an answer. -/
theorem inStep_records {st : MonitorState} {ps : List Packet} (hst : ∀ p ∈ ps, stateOf p = st)
    (hroom : ∀ p ∈ ps, ∀ c : MonitorClient, c.Room p)
    (hafter : ∀ p ∈ ps, ∀ c : MonitorClient,
      c.after p = { c with
        state := if c.subStateCount ≤ c.subState + 1 then .anyev else st, subState := c.subState + 1 })
    {c : MonitorClient} (hc : c.state = st) (hsub : c.subState = 0) (hlen : c.subStateCount = ps.length)
    (hne : ps ≠ []) : c.InStep ps ∧ (c.afterAll ps).state = .anyev := by
  refine @inStep_counted st (fun c => c.subStateCount - c.subState)
    (fun c => c.state = st ∧ c.subState < c.subStateCount) (fun c => c.state = .anyev) ps hst hroom (fun c h => h.1)
    ?_ ?_ c ⟨hc, ?_⟩ ?_ hne
  · intro p hp c hc hleft
    have hnot : ¬ c.subStateCount ≤ c.subState + 1 := by omega
    rw [hafter p hp, if_neg hnot]
    exact ⟨⟨rfl, by show c.subState + 1 < c.subStateCount; omega⟩,
      by show c.subStateCount - (c.subState + 1) + 1 = _; omega⟩
  · intro p hp c hc hleft
    have hyes : c.subStateCount ≤ c.subState + 1 := by omega
    rw [hafter p hp, if_pos hyes]
  · have := List.length_pos_of_ne_nil hne
    omega
  · rw [hlen, hsub, Nat.sub_zero]

end MonitorClient

/-- The packets that a client was sent. -/
def Connection.packets (con : Connection) : List Packet := con.out.map Prod.fst

/-- A monitor that was sent these packets is in step, and waits for any event. -/
structure Connection.Synced (con : Connection) : Prop where
  inStep : MonitorClient.start.InStep con.packets
  anyev : (MonitorClient.start.afterAll con.packets).state = .anyev

/-- More packets, after which the monitor waits for any event again. -/
theorem Connection.Synced.append {con con' : Connection} (h : con.Synced) {ps : List Packet}
    (hps : con'.packets = con.packets ++ ps)
    (hstep : ∀ c : MonitorClient, c.state = .anyev → c.InStep ps ∧ (c.afterAll ps).state = .anyev) :
    con'.Synced := by
  obtain ⟨hin, hany⟩ := hstep _ h.anyev
  refine ⟨?_, ?_⟩
  · rw [hps]
    exact MonitorClient.inStep_append.mpr ⟨h.inStep, hin⟩
  · rw [hps, MonitorClient.afterAll_append]
    exact hany

theorem Connection.Synced.hears {con : Connection} (h : con.Synced) (now : BitVec 32) {es : List Evnt}
    (hes : ∀ e ∈ es, e.Known) : (con.hears now es).Synced := by
  refine @Synced.append _ _ h ((es.filter fun e => con.events &&& e.mask == e.mask).map (Evnt.packet now)) ?_
    fun c hc => ?_
  · rw [packets, Connection.hears, List.map_append, Connection.heard, List.map_map]
    rfl
  · obtain ⟨hin, hafter⟩ := @MonitorClient.inStep_evnts _ hc now (es.filter _) fun e he =>
      hes e (List.mem_filter.mp he).1
    rw [hafter]
    exact ⟨hin, hc⟩

namespace MonitorServer

/-- The names of the devices, as a client is told them. -/
def devices (s : MonitorServer) : List Str := s.entries.val.map fun cep => (cep.devname ++ [32]).take 63

/-- What a client is sent first: the daemon has 64 controllers, and 60 entries at most. -/
theorem inStep_initialData {s : MonitorServer} (hfits : MonitorClient.namesLength s.devices < devbufSize)
    (rMask : BitVec 32) :
    MonitorClient.start.InStep (s.initialData rMask) ∧
      (MonitorClient.start.afterAll (s.initialData rMask)).state = .anyev := by
  have hentries : (BitVec.ofNat 16 s.entries.val.length).toNat = s.entries.val.length := by
    have hle : s.entries.val.length ≤ 60 := s.entries.property
    rw [BitVec.toNat_ofNat, Nat.mod_eq_of_lt (by omega)]
  generalize hnames : (List.finRange monControllers).map (fun i => (s.controllers i).name) = names
  have hlen : names.length = 64 := by
    rw [← hnames, List.length_map, List.length_finRange]
    rfl
  have hne : names ≠ [] := fun h => by simp [h] at hlen
  generalize hc : MonitorClient.start.after
    (.idata (BitVec.ofNat 16 monControllers) (BitVec.ofNat 16 s.entries.val.length) rMask) = c
  have hinit : s.initialData rMask
      = .idata (BitVec.ofNat 16 monControllers) (BitVec.ofNat 16 s.entries.val.length) rMask ::
        (names.map Packet.ictrl ++ s.devices.map Packet.idev) := by
    rw [← hnames, devices, List.map_map, List.map_map]
    rfl
  obtain ⟨hctrl, hstate, hsub, hn, hbuf⟩ :=
    @MonitorClient.inStep_ictrl c (by rw [← hc]; rfl) (by rw [← hc]; rfl) names
    (by rw [hlen, ← hc]; rfl) hne
  have hcentries : c.nentries = s.entries.val.length := by
    rw [← hc]
    exact hentries
  rw [hinit, MonitorClient.afterAll, List.foldl_cons, MonitorClient.InStep, hc]
  change (_ ∧ c.InStep _) ∧ (c.afterAll _).state = _
  rw [MonitorClient.inStep_append, MonitorClient.afterAll_append]
  have hlength : s.devices.length = s.entries.val.length := List.length_map _
  cases hlist : s.devices with
  | nil =>
    rw [hcentries, ← hlength, hlist, if_neg (by simp)] at hstate
    exact ⟨⟨⟨rfl, trivial⟩, hctrl, trivial⟩, hstate⟩
  | cons name names =>
    rw [hcentries, ← hlength, hlist, if_pos (by simp)] at hstate
    have hempty : c.devbuf = [] := by
      rw [← hc]
      rfl
    obtain ⟨hdev, hany⟩ := @MonitorClient.inStep_idev _ hstate (name :: names)
      (by rw [hsub, hn, hcentries, ← hlength, hlist, Nat.zero_add])
      (by rw [hbuf, hempty, ← hlist, List.length_nil, Nat.zero_add]; exact hfits) (by simp)
    exact ⟨⟨⟨rfl, trivial⟩, hctrl, hdev⟩, hany⟩

/-- The calls that a client is told of when it connects are those of the entries that are connected. -/
theorem known_stateEvnts {s : MonitorServer}
    (h : ∀ cep ∈ s.entries.val, cep.connected = true → cep.isdncontrollerused.toNat < maxCtrl) :
    ∀ e ∈ s.stateEvnts, e.Known := by
  intro e he
  rw [stateEvnts] at he
  rcases List.mem_append.mp he with he | he
  · obtain ⟨i, -, he⟩ := List.mem_flatMap.mp he
    simp only [List.mem_cons, List.not_mem_nil, or_false] at he
    rcases he with rfl | rfl | rfl <;> trivial
  · obtain ⟨cep, hcep, he⟩ := List.mem_flatMap.mp he
    obtain ⟨hmem, hconnected⟩ := List.mem_filter.mp hcep
    simp only [List.mem_cons, List.not_mem_nil, or_false] at he
    rcases he with rfl | rfl | rfl
    · exact h cep hmem hconnected
    · trivial
    · trivial

theorem opening_synced {s : MonitorServer} (hfits : MonitorClient.namesLength s.devices < devbufSize)
    (hknown : ∀ e ∈ s.stateEvnts, e.Known) (sock : ℕ) (peer : Option (BitVec 32)) (now : BitVec 32) :
    (s.opening sock peer now).Synced := by
  generalize hcon : (⟨sock, peer, clientRights s.rights peer, BitVec.allOnes 32, [], false, s.rights, 0,
    (s.initialData (clientRights s.rights peer)).map fun p => (p, none), [], []⟩ : Connection) = con
  have hpackets : con.packets = s.initialData (clientRights s.rights peer) := by
    rw [← hcon, Connection.packets, List.map_map]
    exact List.map_id _
  obtain ⟨hin, hany⟩ := inStep_initialData hfits (clientRights s.rights peer)
  have hfirst : con.Synced := ⟨hpackets ▸ hin, hpackets ▸ hany⟩
  have hall := hfirst.hears now hknown
  have hsame : (s.opening sock peer now).packets = (con.hears now s.stateEvnts).packets := by
    rw [← hcon]
    rfl
  exact ⟨hsame ▸ hall.inStep, hsame ▸ hall.anyev⟩

/-- The records of an answer can be counted, and there is one at least. -/
def Listable (s : MonitorServer) : ClientCommand → Prop
  | .dumprights => s.rights ≠ [] ∧ s.rights.length < 2 ^ 16
  | .dumpmcons => s.connections.length < 2 ^ 16
  | _ => True

/-- What a monitor is told in a step fits into it: the names of the devices into `devbuf`, the controllers of
calls into `remstate`, and the records of a dump can be counted. -/
def Suits (s : MonitorServer) : Step → Prop
  | .connect .. =>
    MonitorClient.namesLength s.devices < devbufSize ∧
      ∀ cep ∈ s.entries.val, cep.connected = true → cep.isdncontrollerused.toNat < maxCtrl
  | .evnt e _ => e.Known
  | .input sock stack _ =>
    ∀ con ∈ s.connections, con.sock = sock → ∀ c rest,
      monitorCommand stack con.ended con.pending = .command c rest → s.Listable c
  | _ => True

theorem Suits.known {s : MonitorServer} {e : Step} (h : s.Suits e) : ∀ e' ∈ s.told e, e'.Known := by
  cases e with
  | connect sock peer now => exact known_stateEvnts h.2
  | evnt e now =>
    intro e' he'
    rw [List.mem_singleton.mp he']
    exact h
  | _ => exact fun _ he' => absurd he' List.not_mem_nil

/-- A monitor counts the records of an answer. -/
theorem inStep_answer {s : MonitorServer} (hne : s.connections ≠ []) (who : ℕ → BitVec 32)
    {cmd : ClientCommand} (hcmd : s.Listable cmd) {c : MonitorClient} (hany : c.state = .anyev) :
    c.InStep (s.answer who cmd) ∧ (c.afterAll (s.answer who cmd)).state = .anyev := by
  have hcount {α : Type} {l : List α} (hl : l.length < 2 ^ 16) : (BitVec.ofNat 16 l.length).toNat = l.length := by
    rw [BitVec.toNat_ofNat, Nat.mod_eq_of_lt hl]
  cases cmd with
  | dumprights =>
    have hrecords := @MonitorClient.inStep_records .right
      (s.rights.map fun r => Packet.dr r.rights r.net r.mask r.isLocal)
      (fun p hp => by obtain ⟨r, _, rfl⟩ := List.mem_map.mp hp; rfl)
      (fun p hp c => by obtain ⟨r, _, rfl⟩ := List.mem_map.mp hp; trivial)
      (fun p hp c => by obtain ⟨r, _, rfl⟩ := List.mem_map.mp hp; rfl)
      (c.after (.drini (BitVec.ofNat 16 s.rights.length))) rfl rfl
      (by rw [List.length_map]; exact hcount hcmd.2) (by simpa using hcmd.1)
    exact ⟨⟨⟨hany, trivial⟩, hrecords.1⟩, hrecords.2⟩
  | dumpmcons =>
    have hrecords := @MonitorClient.inStep_records .conns
      (s.connections.map fun con => Packet.dc con.rights (who con.sock))
      (fun p hp => by obtain ⟨con, _, rfl⟩ := List.mem_map.mp hp; rfl)
      (fun p hp c => by obtain ⟨con, _, rfl⟩ := List.mem_map.mp hp; trivial)
      (fun p hp c => by obtain ⟨con, _, rfl⟩ := List.mem_map.mp hp; rfl)
      (c.after (.dcini (BitVec.ofNat 16 s.connections.length))) rfl rfl
      (by rw [List.length_map]; exact hcount hcmd) (by simpa using hne)
    exact ⟨⟨⟨hany, trivial⟩, hrecords.1⟩, hrecords.2⟩
  | _ => exact ⟨trivial, hany⟩

theorem Becomes.synced {s : MonitorServer} {e : Step} {con con' : Connection} (hb : s.Becomes e con con')
    (hmem : con ∈ s.connections) (he : s.Suits e) (h : con.Synced) : con'.Synced := by
  cases hb with
  | same => exact h
  | hears _ _ now => exact h.hears now he.known
  | arrives chunk => exact ⟨h.inStep, h.anyev⟩
  | finishes => exact ⟨h.inStep, h.anyev⟩
  | illegal stack who _ rest _ => exact ⟨h.inStep, h.anyev⟩
  | setmask stack who _ events rest _ => exact ⟨h.inStep, h.anyev⟩
  | refused stack who _ c rest _ _ => exact ⟨h.inStep, h.anyev⟩
  | answered stack who _ c rest hserved _ =>
    refine @Connection.Synced.append _ _ h (s.answer who c) ?_ fun cl hcl =>
      inStep_answer (List.ne_nil_of_mem hmem) who (he con hmem rfl c rest hserved) hcl
    rw [Connection.packets, Connection.packets, List.map_append, List.map_map]
    exact congrArg _ (List.map_id _)

/-- What a monitor is told in any step of a run fits into it. -/
def AllSuit (s : MonitorServer) : List Step → Prop
  | [] => True
  | e :: es => s.Suits e ∧ (s.step e).AllSuit es

theorem run_synced {s : MonitorServer} (hd : s.Distinct) {es : List Step} (hes : s.AllSuit es)
    (h : ∀ con ∈ s.connections, con.Synced) : ∀ con ∈ (s.run es).connections, con.Synced := by
  induction es generalizing s with
  | nil => exact h
  | cons e es ih =>
    refine ih (step_distinct hd e) hes.2 fun con' hcon' => ?_
    rcases step_becomes hd e hcon' with ⟨sock, peer, now, rfl, _, rfl⟩ | ⟨con, hcon, hb⟩
    · exact opening_synced hes.1.1 hes.1.known sock peer now
    · exact hb.synced hcon hes.1 (h con hcon)

/-- **A monitor shows what it was told, in order**: whatever part of it has arrived, and however the network cut
it, the monitor has shown the packets that have arrived as a whole, with the values that the daemon wrote, and all
of them when all has arrived. What the daemon tells has room in the arrays of the monitor, and it never lists
rights when there are none. -/
theorem run_shown {rights : List MonitorRights} {controllers : Fin monControllers → MonitorController}
    {entries : { l : List MonitorEntry // l.length ≤ cfgEntryMax }} {es : List Step}
    (hes : (start rights controllers entries).AllSuit es) {con : Connection}
    (hcon : con ∈ ((start rights controllers entries).run es).connections) {chunks : List (List UInt8)}
    {more : List UInt8} (h : chunks.flatten ++ more = stream con.packets) :
    ∃ n rest, (chunks.foldl receive (MonitorClient.start, [], [])).2 = ((con.packets.take n).map Packet.shown, rest) ∧
      rest ++ more = stream (con.packets.drop n) ∧ (more = [] → con.packets.drop n = []) := by
  have hsynced := run_synced (s := start rights controllers entries) List.nodup_nil hes
    (fun _ h => absurd h List.not_mem_nil) con hcon
  obtain ⟨n, rest, hrun, hstream, hall⟩ := receive_stream hsynced.inStep chunks h
  exact ⟨n, rest, congrArg Prod.snd hrun, hstream, hall⟩

/-- An entry with a call on the last controller that a monitor has room for. -/
def connectedEntry : MonitorEntry :=
  ⟨[105, 115, 112, 48], true, true, 3, 1, [97], [], [], [], [], 0, 0, 0, 0, 0⟩

/-- The daemon has that entry, and grants all rights to the local socket. -/
def oneEntry : MonitorServer :=
  start [⟨[47], 1, 0, 0, true⟩] (fun _ => ⟨[], 0, 0, 0⟩) ⟨[connectedEntry], by decide⟩

/-- A client of the local socket lists the rights, and its monitor has read five octets first. -/
theorem run_shown_rights :
    let s := oneEntry.run
      [.connect 3 none 0, .arrive 3 ClientCommand.dumprights.encode, .input 3 (fun _ => 0) (fun _ => 0)]
    ∃ con ∈ s.connections, con.handled = [.dumprights] ∧
      ([(stream con.packets).take 5, (stream con.packets).drop 5].foldl receive (MonitorClient.start, [], [])).2.1
        = con.packets.map Packet.shown := by
  intro s
  have hhead : s.connections.head?.map Connection.handled = some [.dumprights] := by decide +kernel
  obtain ⟨con, hcon, hhandled⟩ := Option.map_eq_some_iff.mp hhead
  have hmem := List.mem_of_head? hcon
  refine ⟨con, hmem, hhandled, ?_⟩
  have hes : oneEntry.AllSuit
      [.connect 3 none 0, .arrive 3 ClientCommand.dumprights.encode, .input 3 (fun _ => 0) (fun _ => 0)] := by
    refine ⟨⟨by decide, fun cep hcep _ => ?_⟩, trivial, fun _ _ _ c _ _ => ?_, trivial⟩
    · rw [List.mem_singleton.mp hcep]
      decide
    · cases c with
      | dumprights => exact ⟨by decide +kernel, by decide +kernel⟩
      | dumpmcons =>
        show (_ : ℕ) < 2 ^ 16
        decide +kernel
      | _ => trivial
  obtain ⟨n, rest, hrun, -, hall⟩ := @run_shown _ _ _ _ hes con hmem
    [(stream con.packets).take 5, (stream con.packets).drop 5] [] (by simp)
  have hdrop := List.take_append_drop n con.packets
  rw [hall rfl, List.append_nil] at hdrop
  rw [hrun, hdrop]

/-! ## What the daemon handles -/

end MonitorServer

/-- What has arrived is the beginning of some commands, and all of them if the peer has closed the connection. -/
def Connection.Sent (con : Connection) (cs : List ClientCommand) : Prop :=
  ∃ more, con.arrived ++ more = commandStream cs ∧ (con.ended = true → more = [])

/-- Of a stream of commands the daemon has handled the first ones, and has not read the rest of what arrived. -/
def Connection.Handles (con : Connection) (cs : List ClientCommand) : Prop :=
  con.Sent cs → ∃ cs', cs = con.handled ++ cs' ∧ commandStream con.handled ++ con.pending = con.arrived

theorem commandStream_append (cs cs' : List ClientCommand) :
    commandStream (cs ++ cs') = commandStream cs ++ commandStream cs' := by
  simp [commandStream]

/-- What has not been read is the beginning of the commands that have not been handled. -/
theorem Connection.Handles.pending {con : Connection} {cs : List ClientCommand} (h : con.Handles cs)
    {more : List UInt8} (hmore : con.arrived ++ more = commandStream cs) (hended : con.ended = true → more = []) :
    ∃ cs', cs = con.handled ++ cs' ∧ con.pending ++ more = commandStream cs' ∧
      commandStream con.handled ++ con.pending = con.arrived := by
  obtain ⟨cs', hcs, harrived⟩ := h ⟨more, hmore, hended⟩
  refine ⟨cs', hcs, ?_, harrived⟩
  rw [hcs, commandStream_append, ← harrived, List.append_assoc] at hmore
  exact List.append_cancel_left hmore

/-- What the daemon finds is the next command. -/
theorem Connection.Handles.served {con : Connection} {cs : List ClientCommand} (h : con.Handles cs)
    (hsent : con.Sent cs) (stack : Fin 16 → UInt8)
    (hclose : monitorCommand stack con.ended con.pending ≠ .close)
    (hwait : monitorCommand stack con.ended con.pending ≠ .wait) :
    ∃ c cs', cs = con.handled ++ c :: cs' ∧ con.pending.take c.size = c.encode ∧
      monitorCommand stack con.ended con.pending = .command c (con.pending.drop c.size) ∧
      commandStream con.handled ++ con.pending = con.arrived := by
  obtain ⟨more, hmore, hended⟩ := hsent
  obtain ⟨cs', hcs, hstream, hread⟩ := h.pending hmore hended
  have hne : con.pending ≠ [] := fun hnil => by
    rw [hnil] at hclose
    exact hclose (by simp [monitorCommand, monEvntHdr])
  rcases monitorCommand_stream stack hstream hended hne with hw | ⟨c, cs'', rfl, _, htake, hfound, _⟩
  · exact absurd hw hwait
  · exact ⟨c, cs'', hcs, htake, hfound, hread⟩

/-- The daemon handles a command. -/
theorem Connection.Handles.command {con con' : Connection} {cs : List ClientCommand} (h : con.Handles cs)
    {stack : Fin 16 → UInt8} {c : ClientCommand} {rest : List UInt8}
    (hserved : monitorCommand stack con.ended con.pending = .command c rest) (harrived : con'.arrived = con.arrived)
    (hended : con'.ended = con.ended) (hpending : con'.pending = rest)
    (hhandled : con'.handled = con.handled ++ [c]) : con'.Handles cs := by
  rintro ⟨more, hmore, hend⟩
  rw [harrived] at hmore
  rw [hended] at hend
  obtain ⟨c', cs', hcs, htake, hfound, hread⟩ :=
    h.served ⟨more, hmore, hend⟩ stack (by simp [hserved]) (by simp [hserved])
  obtain ⟨rfl, rfl⟩ := Served.command.inj (hserved.symm.trans hfound)
  refine ⟨cs', by simp [hhandled, hcs], ?_⟩
  have hone : commandStream [c] = con.pending.take c.size := by simp [commandStream, htake]
  rw [hhandled, hpending, harrived, commandStream_append, hone, List.append_assoc, List.take_append_drop, hread]

namespace MonitorServer

theorem Becomes.handles {s : MonitorServer} {e : Step} {con con' : Connection} (hb : s.Becomes e con con')
    {cs : List ClientCommand} (h : con.Handles cs) : con'.Handles cs := by
  cases hb with
  | same => exact h
  | hears => exact h
  | arrives chunk _ hopen =>
    rintro ⟨more, hmore, -⟩
    have hmore : con.arrived ++ chunk ++ more = commandStream cs := hmore
    rw [List.append_assoc] at hmore
    obtain ⟨cs', hcs, hread⟩ := h ⟨_, hmore, fun hended => absurd (hopen.symm.trans hended) (by decide)⟩
    exact ⟨cs', hcs, by rw [← List.append_assoc, hread]⟩
  | finishes =>
    rintro ⟨more, hmore, hended⟩
    exact h ⟨more, hmore, fun _ => hended rfl⟩
  | illegal stack who _ rest hserved =>
    -- what a monitor sends is known to the daemon
    intro hsent
    obtain ⟨c, cs', -, -, hfound, -⟩ := h.served hsent stack (by simp [hserved]) (by simp [hserved])
    exact absurd (hserved.symm.trans hfound) (by simp)
  | setmask stack who _ events rest hserved => exact h.command hserved rfl rfl rfl rfl
  | refused stack who _ c rest hserved _ => exact h.command hserved rfl rfl rfl rfl
  | answered stack who _ c rest hserved _ => exact h.command hserved rfl rfl rfl rfl

theorem run_handles {s : MonitorServer} (hd : s.Distinct) (es : List Step) {cs : List ClientCommand}
    (h : ∀ con ∈ s.connections, con.Handles cs) : ∀ con ∈ (s.run es).connections, con.Handles cs := by
  induction es generalizing s with
  | nil => exact h
  | cons e es ih =>
    refine ih (step_distinct hd e) fun con' hcon' => ?_
    rcases step_becomes hd e hcon' with ⟨sock, peer, now, _, _, rfl⟩ | ⟨con, hcon, hb⟩
    · exact fun _ => ⟨cs, rfl, rfl⟩
    · exact hb.handles (h con hcon)

/-- **In every run the daemon handles the commands that a monitor sent, in order and each of them once**, however
the network cut them, and whatever was in the array that they are read into: what has not been read is the
beginning of the commands that have not been handled. When all has arrived and has been read, all are handled.
A monitor that closes the connection has sent its commands as a whole before. -/
theorem run_handled {rights : List MonitorRights} {controllers : Fin monControllers → MonitorController}
    {entries : { l : List MonitorEntry // l.length ≤ cfgEntryMax }} (es : List Step) {con : Connection}
    (hcon : con ∈ ((start rights controllers entries).run es).connections) {cs : List ClientCommand}
    {more : List UInt8} (h : con.arrived ++ more = commandStream cs) (hended : con.ended = true → more = []) :
    ∃ cs', cs = con.handled ++ cs' ∧ con.pending ++ more = commandStream cs' ∧
      (con.pending = [] → more = [] → con.handled = cs) := by
  have hhandles := @run_handles (start rights controllers entries) List.nodup_nil es cs
    (fun _ h => absurd h List.not_mem_nil) con hcon
  obtain ⟨cs', hcs, hstream, -⟩ := hhandles.pending h hended
  refine ⟨cs', hcs, hstream, fun hpending hmore => ?_⟩
  rw [hpending, hmore] at hstream
  cases cs' with
  | nil => exact (hcs.trans (List.append_nil _)).symm
  | cons c cs' =>
    have hlen := congrArg List.length hstream
    have hsize := c.size_bounds
    simp only [commandStream, List.map_cons, List.flatten_cons, List.length_append, List.length_nil,
      ClientCommand.length_encode] at hlen
    omega

/-- The first command has arrived in two pieces, and the second one has not arrived as a whole; another client
has sent one command, and has closed the connection before it was read. -/
theorem run_handled_pieces :
    let s := (start [⟨[47], 1, 0, 0, true⟩] (fun _ => ⟨[], 0, 0, 0⟩) ⟨[], by decide⟩).run
      [.connect 3 none 0, .connect 4 none 0, .arrive 3 [0, 1, 0], .input 3 (fun _ => 0) (fun _ => 0),
        .arrive 3 [4, 0], .arrive 4 [0, 1, 0, 4], .finish 4, .input 3 (fun _ => 0) (fun _ => 0),
        .input 4 (fun _ => 0) (fun _ => 0)]
    (∃ con ∈ s.connections, con.handled = [.dumprights] ∧ con.pending = [0] ∧ con.ended = false ∧
      ∃ cs', [.dumprights, .dumpmcons] = con.handled ++ cs') ∧
    ∃ con ∈ s.connections, con.ended = true ∧ con.handled = [.dumprights] := by
  intro s
  have hboth : s.connections.map (fun con => (con.handled, con.pending, con.arrived, con.ended))
      = [([.dumprights], [0], [0, 1, 0, 4, 0], false), ([.dumprights], [], [0, 1, 0, 4], true)] := by
    decide +kernel
  constructor
  · obtain ⟨con, hmem, heq⟩ := List.mem_map.mp (hboth.symm ▸ List.mem_cons_self)
    simp only [Prod.mk.injEq] at heq
    obtain ⟨cs', hcs, -, -⟩ := @run_handled _ _ _ _ con hmem [.dumprights, .dumpmcons] [2, 0, 4]
      (by rw [heq.2.2.1]; decide) (by simp [heq.2.2.2])
    exact ⟨con, hmem, heq.1, heq.2.1, heq.2.2.2, cs', hcs⟩
  · obtain ⟨con, hmem, heq⟩ := List.mem_map.mp (hboth.symm ▸ List.mem_cons_of_mem _ List.mem_cons_self)
    simp only [Prod.mk.injEq] at heq
    obtain ⟨-, -, -, hall⟩ := @run_handled _ _ _ _ con hmem [.dumprights] []
      (by rw [heq.2.2.1]; decide) (fun _ => rfl)
    exact ⟨con, hmem, heq.2.2.2, hall heq.2.1 rfl⟩

end MonitorServer

end Isdnd
end Isdn4bsd
