import Mathlib.Tactic
import Isdn4bsd.Isdnd.Packets

/-!
# The streams between `isdnd` and a monitor

Both ends read a stream of octets that the network cuts as it likes. They look at the header of a packet first,
and read the packet when they know how long it is. The monitor has to know besides which packet comes next.

The daemon waits for the rest of a command, but not for ever: when the monitor closes the connection, `sock_read`
returns what there is, and `monitor_command` takes it for the whole command. What is missing is then whatever
was on the stack before. So a stream that ends within a command is not read as it was meant.

* `mloop`, `receive` : what a monitor does with what has arrived.
* `receive_stream` : **however the stream is cut, the monitor shows the packets in order**.
* `monitorCommand` : what the daemon does with what has arrived.
* `monitorCommand_stream` : **it finds the commands that were sent**, and takes nothing else for one, unless the
stream ends within a command.
* `monitorCommand_ended` : a command that is cut off by the end is not waited for.

## Packets in a stream

A packet begins with its code and its length, two octets each, and that is how both directions find the end of one.
What can be said of any such stream is in `Lib.Record`: there is a header of a fixed size that tells the length of
the whole record, and a stream has one reading at most. `eventFraming` and `commandFraming` are the two instances,
and what has to be shown for them is that the length in the header is the number of octets that were written.

## The monitor

Some codes mean one thing when a monitor has just been connected, and another thing later on, and which it is depends
on how many packets of a kind the daemon has announced. So the monitor is a state machine with `handleEvent` as its
step, and `InStep` says of a list of packets that each of them comes in the state that it is for. It also says that
the arrays of the monitor have room for it, since beyond that the program writes over other things.

## The daemon

A command has a length of its own also, and no more than that is read, but the octets are put into an array that is
on the stack, so `monitorCommand` has as an argument what was there. `read_encode` says that a command that has
arrived as a whole does not depend on it; where the connection was closed too early, it does.
-/

set_option autoImplicit false

namespace Isdn4bsd
namespace Isdnd

open Record

/-! ## What a monitor receives -/

/-- `mloop`, with what has arrived at the socket: the monitor, what it has shown, and what it has not read yet. -/
def mloop (c : MonitorClient) (shown : List Shown) (pending : List UInt8) :
    MonitorClient × List Shown × List UInt8 :=
  if pending.length < monEvntHdr then (c, shown, pending)
  else if 8192 ≤ (get2b pending 2).toNat then ({ c with state := .exit }, shown, pending)
  else if _h : (get2b pending 2).toNat = 0 then ({ c with state := .exit }, shown, pending)
  else if _h' : pending.length < (get2b pending 2).toNat then (c, shown, pending)
  else
    let r := c.handleEvent (pending.take (get2b pending 2).toNat)
    mloop r.1 (shown ++ r.2.toList) (pending.drop (get2b pending 2).toNat)
termination_by pending.length
decreasing_by
  rw [List.length_drop]
  omega

/-- More octets arrive. -/
def receive (m : MonitorClient × List Shown × List UInt8) (chunk : List UInt8) :
    MonitorClient × List Shown × List UInt8 :=
  mloop m.1 m.2.1 (m.2.2 ++ chunk)

/-- The octets of packets, one behind the other. -/
def stream (ps : List Packet) : List UInt8 := (ps.map Packet.encode).flatten

/-- The header of a packet is what both ends read first. -/
theorem get2b_congr {p more f rest : List UInt8} {off : ℕ} (h : p ++ more = f ++ rest) (hp : off + 1 < p.length)
    (hf : off + 1 < f.length) : get2b p off = get2b f off := by
  have hget (i : ℕ) (hi : i < p.length) (hi' : i < f.length) : p.getD i 0 = f.getD i 0 := by
    have hi1 := @List.getElem?_append_left _ p more i hi
    have hi2 := @List.getElem?_append_left _ f rest i hi'
    rw [List.getD_eq_getElem?_getD, List.getD_eq_getElem?_getD, ← hi1, ← hi2, h]
  rw [get2b, get2b, toBe16, toBe16, hget off (by omega) (by omega), hget (off + 1) hp hf]

theorem get2b_size (p : Packet) : (get2b p.encode 2).toNat = p.size := by
  have hsize := p.size_bounds
  have hfield : p.field 2 = some (Packet.put2b 2 (BitVec.ofNat 16 p.size)) := rfl
  have hget : get2b p.encode 2 = BitVec.ofNat 16 p.size :=
    toBe16_of_read (Packet.read_encode hfield rfl (by omega))
  rw [hget, BitVec.toNat_ofNat, Nat.mod_eq_of_lt (by omega)]

/-- Packets of the daemon. -/
def eventFraming : Framing UInt8 where
  hdr := monEvntHdr
  hdr_pos := by decide
  size := fun r => (get2b r 2).toNat
  Frame := fun f => ∃ p : Packet, f = p.encode
  hdr_le := by
    rintro f ⟨p, rfl⟩
    rw [Packet.length_encode]
    exact le_trans (by decide) p.size_bounds.1
  size_eq := by
    rintro f p more rest ⟨q, rfl⟩ h hp
    have hp : 4 ≤ p.length := hp
    have hq := q.size_bounds
    rw [get2b_congr h (by omega) (by rw [Packet.length_encode]; omega), get2b_size, Packet.length_encode]

namespace MonitorClient

/-- What a monitor is after some packets. -/
def afterAll (c : MonitorClient) (ps : List Packet) : MonitorClient := ps.foldl after c

/-- Each packet finds the monitor in the state that it is for, and room in its arrays. -/
def InStep (c : MonitorClient) : List Packet → Prop
  | [] => True
  | p :: ps => (c.state = stateOf p ∧ c.Room p) ∧ (c.after p).InStep ps

theorem afterAll_append (c : MonitorClient) (ps qs : List Packet) :
    c.afterAll (ps ++ qs) = (c.afterAll ps).afterAll qs := List.foldl_append

theorem inStep_append {c : MonitorClient} {ps qs : List Packet} :
    c.InStep (ps ++ qs) ↔ c.InStep ps ∧ (c.afterAll ps).InStep qs := by
  induction ps generalizing c with
  | nil => exact ⟨fun h => ⟨trivial, h⟩, fun h => h.2⟩
  | cons p ps ih => exact (and_congr_right fun _ => ih).trans and_assoc.symm

end MonitorClient

/-- **What has arrived is shown, as far as it is whole packets.** -/
theorem mloop_stream {ps : List Packet} {c : MonitorClient} (hstep : c.InStep ps) {bytes more : List UInt8}
    (h : bytes ++ more = stream ps) (shown : List Shown) :
    ∃ n rest, mloop c shown bytes = (c.afterAll (ps.take n), shown ++ (ps.take n).map Packet.shown, rest) ∧
      rest ++ more = stream (ps.drop n) ∧ (more = [] → ps.drop n = []) := by
  induction ps generalizing c bytes shown with
  | nil =>
    have hb : bytes = [] := (List.append_eq_nil_iff.mp h).1
    refine ⟨0, [], ?_, ?_, fun _ => rfl⟩
    · rw [hb, mloop, if_pos (by decide)]
      simp [MonitorClient.afterAll]
    · rw [hb] at h
      exact h
  | cons p ps ih =>
    have hstop (hm : mloop c shown bytes = (c, shown, bytes)) (hshort : bytes.length < p.encode.length) :
        ∃ n rest, mloop c shown bytes
            = (c.afterAll ((p :: ps).take n), shown ++ ((p :: ps).take n).map Packet.shown, rest) ∧
          rest ++ more = stream ((p :: ps).drop n) ∧ (more = [] → (p :: ps).drop n = []) := by
      refine ⟨0, bytes, ?_, h, fun hmore => ?_⟩
      · rw [hm]
        simp [MonitorClient.afterAll]
      · have hlen := congrArg List.length h
        rw [hmore, List.append_nil, stream, List.map_cons, List.flatten_cons, List.length_append] at hlen
        omega
    have hsize := p.size_bounds
    rcases @Framing.first _ eventFraming ((p :: ps).map Packet.encode)
      (fun f hf => (List.mem_map.mp hf).imp fun _ hq => hq.2.symm) bytes more h
      with hshort | ⟨f, fs, hfs, hhdr, hlen, hrest⟩
    · have hshort : bytes.length < monEvntHdr := hshort
      refine hstop (by rw [mloop, if_pos hshort]) ?_
      rw [Packet.length_encode]
      exact lt_of_lt_of_le hshort (le_trans (by decide) hsize.1)
    · rw [List.map_cons, List.cons.injEq] at hfs
      obtain ⟨rfl, rfl⟩ := hfs
      have hlen : (get2b bytes 2).toNat = p.size := hlen.trans p.length_encode
      have hhdr : ¬ bytes.length < monEvntHdr := not_lt.mpr hhdr
      have hbig : ¬ 8192 ≤ p.size := by omega
      have hzero : ¬ p.size = 0 := by omega
      rw [Packet.length_encode] at hrest
      rcases hrest with hlt | ⟨htake, hle, hmore⟩
      · refine hstop ?_ (by rwa [Packet.length_encode])
        rw [mloop, if_neg hhdr, hlen, if_neg hbig, dif_neg hzero, dif_pos hlt]
      · obtain ⟨n, rest, hrun, hstream, hall⟩ := ih hstep.2 hmore (shown ++ [p.shown])
        refine ⟨n + 1, rest, ?_, hstream, hall⟩
        rw [mloop, if_neg hhdr, hlen, if_neg hbig, dif_neg hzero, dif_neg (not_lt.mpr hle), htake,
          MonitorClient.handleEvent_encode hstep.1.1 hstep.1.2]
        simp only [Option.toList_some]
        rw [hrun, List.append_assoc]
        rfl

/-- **However the stream is cut, the monitor shows the packets in order**, and all of them when all has arrived. -/
theorem receive_stream {ps : List Packet} (hstep : MonitorClient.start.InStep ps) (chunks : List (List UInt8))
    {more : List UInt8} (h : chunks.flatten ++ more = stream ps) :
    ∃ n rest, chunks.foldl receive (MonitorClient.start, [], [])
        = (MonitorClient.start.afterAll (ps.take n), (ps.take n).map Packet.shown, rest) ∧
      rest ++ more = stream (ps.drop n) ∧ (more = [] → ps.drop n = []) := by
  induction chunks using List.reverseRecOn generalizing more with
  | nil =>
    refine ⟨0, [], rfl, h, fun hmore => ?_⟩
    cases ps with
    | nil => rfl
    | cons p ps =>
      have hlen := congrArg List.length h
      have hsize := p.size_bounds
      simp only [hmore, stream, List.map_cons, List.flatten_cons, List.flatten_nil, List.append_nil,
        List.length_nil, List.length_append, Packet.length_encode] at hlen
      omega
  | append_singleton chunks chunk ih =>
    rw [List.flatten_append, List.flatten_singleton, List.append_assoc] at h
    obtain ⟨n, rest, hrun, hstream, _⟩ := ih h
    have hsplit := hstep
    rw [← List.take_append_drop n ps, MonitorClient.inStep_append] at hsplit
    rw [← List.append_assoc] at hstream
    obtain ⟨n', rest', hrun', hstream', hall⟩ := mloop_stream hsplit.2 hstream ((ps.take n).map Packet.shown)
    have htake : ps.take n ++ (ps.drop n).take n' = ps.take (n + n') := List.take_add.symm
    rw [List.drop_drop] at hstream' hall
    refine ⟨n + n', rest', ?_, hstream', hall⟩
    rw [List.foldl_append, hrun, List.foldl_cons, List.foldl_nil, receive, hrun', ← MonitorClient.afterAll_append,
      ← List.map_append, htake]

/-! ## What the daemon receives -/

/-- A command of a monitor. -/
inductive ClientCommand where
  | setmask (events : BitVec 32)
  | dumprights
  | dumpmcons
  | cfgreread
  | hangup (ctrl channel : BitVec 32)
  deriving DecidableEq, Repr

namespace ClientCommand

def code : ClientCommand → BitVec 16
  | setmask _ => 0x7e
  | dumprights => 1
  | dumpmcons => 2
  | cfgreread => 3
  | hangup .. => 4

/-- `I4B_MON_…_SIZE` -/
def size : ClientCommand → ℕ
  | setmask _ => monEvntHdr + 8
  | hangup .. => monEvntHdr + 8
  | _ => monEvntHdr

def fields : ClientCommand → List (Put UInt8)
  | setmask events =>
    [Packet.put2b (monEvntHdr + 0) mprotVersion, Packet.put2b (monEvntHdr + 2) mprotRel,
      Packet.put4b (monEvntHdr + 4) events]
  | hangup ctrl channel => [Packet.put4b (monEvntHdr + 0) ctrl, Packet.put4b (monEvntHdr + 4) channel]
  | _ => []

/-- `I4B_PREP_CMD`, and the fields. -/
def puts (c : ClientCommand) : List (Put UInt8) :=
  Packet.put2b 0 c.code :: Packet.put2b 2 (BitVec.ofNat 16 c.size) :: c.fields

/-- The octets of a command. -/
def encode (c : ClientCommand) : List UInt8 := writeAll (List.replicate c.size 0) c.puts

@[simp] theorem length_encode (c : ClientCommand) : c.encode.length = c.size := by
  rw [encode, length_writeAll, List.length_replicate]

theorem size_bounds (c : ClientCommand) : 4 ≤ c.size ∧ c.size ≤ 12 := by
  cases c <;> simp [size, monEvntHdr]

theorem puts_apart (c : ClientCommand) : c.puts.Pairwise Put.Apart := by
  cases c <;> simp [puts, fields, Put.Apart, monEvntHdr]

theorem read_encode {c : ClientCommand} {q : Put UInt8} (hq : q ∈ c.puts) :
    read c.encode q.off q.bytes.length = q.bytes := by
  refine read_writeAll c.puts_apart hq ?_
  rw [List.length_replicate]
  have hall : ∀ q ∈ c.puts, q.off + q.bytes.length ≤ c.size := by
    cases c <;> simp [puts, fields, size, monEvntHdr]
  exact hall q hq

end ClientCommand

/-- What `monitor_command` finds. -/
inductive Served where
  /-- Not all of it is there yet. -/
  | wait
  /-- The connection is closed, by the peer or for what was sent. -/
  | close
  /-- Nothing that is known. -/
  | illegal (rest : List UInt8)
  | command (c : ClientCommand) (rest : List UInt8)
  deriving DecidableEq, Repr

/-- `monitor_command`, up to the rights. `stack` is what `cmd` was before, and `ended` tells that the peer has
closed the connection, so that `sock_read` does not wait for more than there is. -/
def monitorCommand (stack : Fin 16 → UInt8) (ended : Bool) (pending : List UInt8) : Served :=
  if pending.length < monEvntHdr then
    if pending.length = 0 then .close else .wait
  else
    let bytes := (get2b pending 2).toNat
    if 16 ≤ bytes then .close
    else if bytes = 0 then .close
    else if pending.length < bytes ∧ ended = false then .wait
    else
      let cmd := write (write (List.ofFn stack) 0 (pending.take monEvntHdr)) 0 (pending.take bytes)
      let rest := pending.drop bytes
      match (get2b cmd 0).toNat with
      | 0x7e => .command (.setmask (get4b cmd (monEvntHdr + 4))) rest
      | 1 => .command .dumprights rest
      | 2 => .command .dumpmcons rest
      | 3 => .command .cfgreread rest
      | 4 => .command (.hangup (get4b cmd (monEvntHdr + 0)) (get4b cmd (monEvntHdr + 4))) rest
      | _ => .illegal rest

/-- The octets of commands, one behind the other. -/
def commandStream (cs : List ClientCommand) : List UInt8 := (cs.map ClientCommand.encode).flatten

theorem get2b_command (c : ClientCommand) : (get2b c.encode 2).toNat = c.size := by
  have hsize := c.size_bounds
  have hread := @ClientCommand.read_encode c (Packet.put2b 2 (BitVec.ofNat 16 c.size))
    (List.mem_cons_of_mem _ List.mem_cons_self)
  have hget : get2b c.encode 2 = BitVec.ofNat 16 c.size := toBe16_of_read hread
  rw [hget, BitVec.toNat_ofNat, Nat.mod_eq_of_lt (by omega)]

/-- Commands of a monitor. -/
def commandFraming : Framing UInt8 where
  hdr := monEvntHdr
  hdr_pos := by decide
  size := fun r => (get2b r 2).toNat
  Frame := fun f => ∃ c : ClientCommand, f = c.encode
  hdr_le := by
    rintro f ⟨c, rfl⟩
    rw [ClientCommand.length_encode]
    exact c.size_bounds.1
  size_eq := by
    rintro f p more rest ⟨c, rfl⟩ h hp
    have hp : 4 ≤ p.length := hp
    have hc := c.size_bounds
    rw [get2b_congr h (by omega) (by rw [ClientCommand.length_encode]; omega), get2b_command,
      ClientCommand.length_encode]

/-- A command that is all there is found, whatever `cmd` was before. -/
theorem monitorCommand_encode (stack : Fin 16 → UInt8) (ended : Bool) {pending : List UInt8} {c : ClientCommand}
    (hsize : (get2b pending 2).toNat = c.size) (htake : pending.take c.size = c.encode)
    (hle : c.size ≤ pending.length) :
    monitorCommand stack ended pending = .command c (pending.drop c.size) := by
  have hbounds := c.size_bounds
  have hhdr : ¬ pending.length < monEvntHdr := not_lt.mpr (le_trans hbounds.1 hle)
  generalize hcmd : write (write (List.ofFn stack) 0 (pending.take monEvntHdr)) 0 c.encode = cmd
  have hread {q : Put UInt8} (hq : q ∈ c.puts) (hfit : q.off + q.bytes.length ≤ c.size) :
      read cmd q.off q.bytes.length = q.bytes := by
    rw [← hcmd, read_write_zero (by simp; omega) (by rwa [ClientCommand.length_encode])]
    exact ClientCommand.read_encode hq
  have hcode : get2b cmd 0 = c.code :=
    toBe16_of_read (@hread (Packet.put2b 0 c.code) List.mem_cons_self (le_trans (show 2 ≤ 4 by decide) hbounds.1))
  rw [monitorCommand, if_neg hhdr]
  simp only [hsize, if_neg (show ¬ 16 ≤ c.size by omega), if_neg (show ¬ c.size = 0 by omega),
    if_neg (fun h : pending.length < c.size ∧ ended = false => absurd h.1 (not_lt.mpr hle)), htake, hcmd, hcode]
  cases c with
  | setmask events =>
    have hevents : get4b cmd (monEvntHdr + 4) = events :=
      toBe32_of_read (@hread (Packet.put4b (monEvntHdr + 4) events)
        (by simp [ClientCommand.puts, ClientCommand.fields]) (show 12 ≤ 12 by decide))
    rw [hevents]
    rfl
  | dumprights => rfl
  | dumpmcons => rfl
  | cfgreread => rfl
  | hangup ctrl channel =>
    have hctrl : get4b cmd (monEvntHdr + 0) = ctrl :=
      toBe32_of_read (@hread (Packet.put4b (monEvntHdr + 0) ctrl)
        (by simp [ClientCommand.puts, ClientCommand.fields]) (show 8 ≤ 12 by decide))
    have hchannel : get4b cmd (monEvntHdr + 4) = channel :=
      toBe32_of_read (@hread (Packet.put4b (monEvntHdr + 4) channel)
        (by simp [ClientCommand.puts, ClientCommand.fields]) (show 12 ≤ 12 by decide))
    rw [hctrl, hchannel]
    rfl

/-- **Of a stream of commands the daemon finds the first one**, or waits for the rest of it, if the stream does
not end before that. -/
theorem monitorCommand_stream (stack : Fin 16 → UInt8) {ended : Bool} {cs : List ClientCommand}
    {pending more : List UInt8} (h : pending ++ more = commandStream cs) (hended : ended = true → more = [])
    (hne : pending ≠ []) :
    monitorCommand stack ended pending = .wait ∨
      ∃ c cs', cs = c :: cs' ∧ c.size ≤ pending.length ∧ pending.take c.size = c.encode ∧
        monitorCommand stack ended pending = .command c (pending.drop c.size) ∧
        pending.drop c.size ++ more = commandStream cs' := by
  rcases @Framing.first _ commandFraming (cs.map ClientCommand.encode)
    (fun f hf => (List.mem_map.mp hf).imp fun _ hq => hq.2.symm) pending more h
    with hshort | ⟨f, fs, hfs, hhdr, hlen, hrest⟩
  · have hshort : pending.length < monEvntHdr := hshort
    have hpos : ¬ pending.length = 0 := fun h0 => hne (List.length_eq_zero_iff.mp h0)
    exact .inl (by rw [monitorCommand, if_pos hshort, if_neg hpos])
  · cases cs with
    | nil => exact absurd hfs (by simp)
    | cons c cs =>
      rw [List.map_cons, List.cons.injEq] at hfs
      obtain ⟨rfl, rfl⟩ := hfs
      have hsize : (get2b pending 2).toNat = c.size := hlen.trans c.length_encode
      have hbounds := c.size_bounds
      rw [ClientCommand.length_encode] at hrest
      rcases hrest with hlt | ⟨htake, hle, hmore⟩
      · -- the rest of the command is still to come
        have hopen : ended = false := by
          cases ended with
          | false => rfl
          | true =>
            have hall := congrArg List.length h
            rw [hended rfl, List.append_nil, commandStream, List.map_cons, List.flatten_cons, List.length_append,
              ClientCommand.length_encode] at hall
            omega
        have hhdr : ¬ pending.length < monEvntHdr := not_lt.mpr hhdr
        refine .inl ?_
        rw [monitorCommand, if_neg hhdr]
        simp only [hsize, if_neg (show ¬ 16 ≤ c.size by omega), if_neg (show ¬ c.size = 0 by omega),
          if_pos (And.intro hlt hopen)]
      · exact .inr ⟨c, cs, rfl, hle, htake, monitorCommand_encode stack ended hsize htake hle, hmore⟩

/-- **A command that is cut off by the end of the connection is not waited for**: with its header there, it is
decoded with what was on the stack, or the connection is closed. -/
theorem monitorCommand_ended (stack : Fin 16 → UInt8) {pending : List UInt8} (h : monEvntHdr ≤ pending.length) :
    monitorCommand stack true pending ≠ .wait := by
  rw [monitorCommand, if_neg (not_lt.mpr h)]
  dsimp only
  split_ifs with h1 h2 h3
  · simp
  · simp
  · exact absurd h3.2 (by simp)
  · split <;> simp

/-- The first half of a hangup, and a connection that is closed then: the channel is what was on the stack. -/
example : monitorCommand (fun _ => 7) true ((ClientCommand.hangup 1 2).encode.take 8)
    = .command (.hangup 1 0x07070707) [] := by decide

end Isdnd
end Isdn4bsd
