import Mathlib.Tactic
import Isdn4bsd.Lib.Record
import Isdn4bsd.L3.Types

/-!
# The packets of the monitor protocol

`isdnd` tells its monitors what happens in packets that begin with a code and their length. The daemon writes the
fields of a packet with `I4B_PUT_…` at offsets from `monitor.h`, and the monitor reads them with `I4B_GET_…` and
shows them. What a packet means depends on the state of the monitor also: some codes are used twice.

Neither end looks at the bounds of all its arrays. The daemon writes the packet of a controller two octets past
its end, into what is behind it on the stack. The monitor hangs the names of all devices together in `devbuf`,
and notes the calls of a controller in `remstate`, and both are too small for some daemons: a packet that they
have no room for leaves the monitor in a state of which nothing more is said.

* `Packet`, `Packet.encode` : what the daemon writes.
* `MonitorClient.handleEvent` : what the monitor does with a packet.
* `MonitorClient.Room` : the arrays of the monitor have room for a packet.
* `Packet.fits_iff` : **a packet is written inside of its array, unless it is that of a controller**.
* `MonitorClient.handleEvent_encode` : **in the state that it is for, a packet is shown as it was written**.

## Writing and reading at offsets

A packet is an array of a fixed size, all of it zero at first, and its fields are written one after the other at
offsets that are constants. The reader has the same constants in other places of its own program. That a value comes
through means that the two offsets are the same, that no field that is written later reaches into it, and that it is
within the array.

* `Packet.puts` is the list of writes, each with its offset and its octets, in the order of the source.
* `puts_apart` says that no two of them have an octet in common; it is one statement about all packets.
* `read_encode` follows from it, for whatever field: it is read as it was written, if it fits.

How a list of writes is read back has nothing to do with packets, and is in `Lib.Record`.

## What the monitor makes of it

A monitor has to be told first how many devices and controllers there are, and counts them as they come;
`MonitorState` is what it waits for. `handleEvent` reads a packet with the offsets of the monitor's own program, and
what it would print is `Shown`. It is compared with `Packet.shown`, which is made from the values that the daemon has
put in, so that the theorem that both are equal speaks about the octets between them.

A string is read up to a zero, 255 octets of it at most; the daemon cuts longer ones when it writes them.
-/

set_option autoImplicit false

namespace Isdn4bsd
namespace Isdnd

open L3 (Str)
open Record

/-! ## The packets of the daemon -/

/-- `I4B_MAX_MON_STRING` -/
def maxMonString : ℕ := 256

/-- `I4B_MON_EVNT_HDR` -/
def monEvntHdr : ℕ := 4

/-- `MPROT_VERSION` -/
def mprotVersion : BitVec 16 := 0

/-- `MPROT_REL` -/
def mprotRel : BitVec 16 := 5

/-- A packet, under the name of its code, with the values of its fields. -/
inductive Packet where
  | idata (numctrl numentr : BitVec 16) (claccess : BitVec 32)
  | ictrl (name : Str)
  | idev (name : Str)
  | drini (count : BitVec 16)
  | dr (rights net mask : BitVec 32) (isLocal : Bool)
  | dcini (count : BitVec 16)
  | dc (rights who : BitVec 32)
  | logevnt (tstamp prio : BitVec 32) (what msg : Str)
  | chrg (tstamp ctrl channel units : BitVec 32) (estimate : Bool)
  | connect (tstamp : BitVec 32) (dirIncoming : Bool) (ctrl channel : BitVec 32)
      (cfgname devname remphone locphone : Str)
  | disconnect (tstamp ctrl channel : BitVec 32)
  | updown (tstamp ctrl channel up : BitVec 32)
  | l12stat (tstamp ctrl layer state : BitVec 32)
  | tei (tstamp ctrl value : BitVec 32)
  | acct (tstamp ctrl chan obytes obps ibytes ibps : BitVec 32)
  deriving DecidableEq, Repr

namespace Packet

/-- `I4B_MON_…_CODE` -/
def code : Packet → BitVec 16
  | idata .. => 0
  | ictrl .. => 1
  | idev .. => 2
  | drini .. => 2
  | dr .. => 3
  | dcini .. => 4
  | dc .. => 5
  | logevnt .. => 6
  | chrg .. => 7
  | connect .. => 8
  | disconnect .. => 9
  | updown .. => 10
  | l12stat .. => 11
  | tei .. => 12
  | acct .. => 13

/-- `I4B_MON_…_SIZE` -/
def size : Packet → ℕ
  | idata .. => monEvntHdr + 12
  | ictrl .. => monEvntHdr + maxMonString + 8
  | idev .. => monEvntHdr + maxMonString + 2
  | drini .. => monEvntHdr + 2
  | dr .. => monEvntHdr + 13
  | dcini .. => monEvntHdr + 2
  | dc .. => monEvntHdr + 8
  | logevnt .. => monEvntHdr + 8 + 2 * maxMonString
  | chrg .. => monEvntHdr + 20
  | connect .. => monEvntHdr + 16 + 4 * maxMonString
  | disconnect .. => monEvntHdr + 12
  | updown .. => monEvntHdr + 16
  | l12stat .. => monEvntHdr + 16
  | tei .. => monEvntHdr + 12
  | acct .. => monEvntHdr + 28

theorem size_bounds (p : Packet) : 6 ≤ p.size ∧ p.size ≤ 1044 := by
  cases p <;> simp [size, monEvntHdr, maxMonString]

/-- `I4B_PUT_2B` -/
def put2b (off : ℕ) (val : BitVec 16) : Put UInt8 := ⟨off, be16 val⟩

/-- `I4B_PUT_4B` -/
def put4b (off : ℕ) (val : BitVec 32) : Put UInt8 := ⟨off, be32 val⟩

/-- `I4B_PUT_STR` -/
def putStr (off : ℕ) (str : Str) : Put UInt8 := ⟨off, strBytes maxMonString str⟩

/-- The fields, one after the other as they are written. -/
def fields : Packet → List (Put UInt8)
  | idata numctrl numentr claccess =>
    [put2b (monEvntHdr + 0) mprotVersion, put2b (monEvntHdr + 2) mprotRel, put2b (monEvntHdr + 4) numctrl,
      put2b (monEvntHdr + 6) numentr, put4b (monEvntHdr + 8) claccess]
  | ictrl name =>
    -- the last one has four octets, of which the array has room for two
    [putStr (monEvntHdr + 0) name, put2b (monEvntHdr + maxMonString + 0) 0,
      put4b (monEvntHdr + maxMonString + 2) 0, put4b (monEvntHdr + maxMonString + 6) 2]
  | idev name => [put2b (monEvntHdr + maxMonString + 0) 1, putStr (monEvntHdr + 0) name]
  | drini count => [put2b (monEvntHdr + 0) count]
  | dr rights net mask isLocal =>
    [put4b (monEvntHdr + 0) rights, put4b (monEvntHdr + 4) net, put4b (monEvntHdr + 8) mask,
      ⟨monEvntHdr + 12, [if isLocal then 1 else 0]⟩]
  | dcini count => [put2b (monEvntHdr + 0) count]
  | dc rights who => [put4b (monEvntHdr + 0) rights, put4b (monEvntHdr + 4) who]
  | logevnt tstamp prio what msg =>
    [put4b (monEvntHdr + 0) tstamp, put4b (monEvntHdr + 4) prio, putStr (monEvntHdr + 8) what,
      putStr (monEvntHdr + 8 + maxMonString) msg]
  | chrg tstamp ctrl channel units estimate =>
    -- `estimate ? 1 : 0` stands in a macro without brackets: `estimate ? 1 : 0 >> 24` is an octet of it
    [put4b (monEvntHdr + 0) tstamp, put4b (monEvntHdr + 4) ctrl, put4b (monEvntHdr + 8) channel,
      put4b (monEvntHdr + 12) units, ⟨monEvntHdr + 16, List.replicate 4 (if estimate then 1 else 0)⟩]
  | connect tstamp dirIncoming ctrl channel cfgname devname remphone locphone =>
    [put4b (monEvntHdr + 0) tstamp, put4b (monEvntHdr + 4) (if dirIncoming then 0 else 1),
      put4b (monEvntHdr + 8) ctrl, put4b (monEvntHdr + 12) channel, putStr (monEvntHdr + 16) cfgname,
      putStr (monEvntHdr + 16 + maxMonString) devname, putStr (monEvntHdr + 16 + 2 * maxMonString) remphone,
      putStr (monEvntHdr + 16 + 3 * maxMonString) locphone]
  | disconnect tstamp ctrl channel =>
    [put4b (monEvntHdr + 0) tstamp, put4b (monEvntHdr + 4) ctrl, put4b (monEvntHdr + 8) channel]
  | updown tstamp ctrl channel up =>
    [put4b (monEvntHdr + 0) tstamp, put4b (monEvntHdr + 4) ctrl, put4b (monEvntHdr + 8) channel,
      put4b (monEvntHdr + 12) up]
  | l12stat tstamp ctrl layer state =>
    [put4b (monEvntHdr + 0) tstamp, put4b (monEvntHdr + 4) ctrl, put4b (monEvntHdr + 8) layer,
      put4b (monEvntHdr + 12) state]
  | tei tstamp ctrl value =>
    [put4b (monEvntHdr + 0) tstamp, put4b (monEvntHdr + 4) ctrl, put4b (monEvntHdr + 8) value]
  | acct tstamp ctrl chan obytes obps ibytes ibps =>
    [put4b (monEvntHdr + 0) tstamp, put4b (monEvntHdr + 4) ctrl, put4b (monEvntHdr + 8) chan,
      put4b (monEvntHdr + 12) obytes, put4b (monEvntHdr + 16) obps, put4b (monEvntHdr + 20) ibytes,
      put4b (monEvntHdr + 24) ibps]

/-- `I4B_PREP_EVNT`, and the fields. -/
def puts (p : Packet) : List (Put UInt8) := put2b 0 p.code :: put2b 2 (BitVec.ofNat 16 p.size) :: p.fields

/-- The octets of a packet. -/
def encode (p : Packet) : List UInt8 := writeAll (List.replicate p.size 0) p.puts

@[simp] theorem length_encode (p : Packet) : p.encode.length = p.size := by
  rw [encode, length_writeAll, List.length_replicate]

@[simp] theorem length_put2b (off : ℕ) (val : BitVec 16) : (put2b off val).bytes.length = 2 := rfl

@[simp] theorem length_put4b (off : ℕ) (val : BitVec 32) : (put4b off val).bytes.length = 4 := rfl

@[simp] theorem length_putStr (off : ℕ) (str : Str) : (putStr off str).bytes.length = 256 :=
  length_strBytes (by decide) str

@[simp] theorem off_put2b (off : ℕ) (val : BitVec 16) : (put2b off val).off = off := rfl

@[simp] theorem off_put4b (off : ℕ) (val : BitVec 32) : (put4b off val).off = off := rfl

@[simp] theorem off_putStr (off : ℕ) (str : Str) : (putStr off str).off = off := rfl

/-- The fields of a packet have no octet in common. -/
theorem puts_apart (p : Packet) : p.puts.Pairwise Put.Apart := by
  cases p <;> simp [puts, fields, Put.Apart, monEvntHdr, maxMonString]

/-- **A packet is written inside of its array, unless it is that of a controller**: the number of channels has two
octets, and four are written. -/
theorem fits_iff (p : Packet) :
    (∀ q ∈ p.puts, q.off + q.bytes.length ≤ p.size) ↔ ∀ name, p ≠ .ictrl name := by
  cases p <;> simp [puts, fields, size, monEvntHdr, maxMonString]

/-- The field at an offset, as it is written. -/
def field (p : Packet) (off : ℕ) : Option (Put UInt8) := p.puts.find? fun q => q.off == off

/-- What is written to a field that fits is read from it. -/
theorem read_encode {p : Packet} {off n : ℕ} {bs : List UInt8} (hfield : p.field off = some ⟨off, bs⟩)
    (hn : bs.length = n) (hsize : off + n ≤ p.size) : read p.encode off n = bs := by
  have hr : off + bs.length ≤ (List.replicate p.size (0 : UInt8)).length := by
    rw [List.length_replicate, hn]
    exact hsize
  have hread := read_writeAll p.puts_apart (List.mem_of_find?_eq_some hfield) hr
  rwa [show (⟨off, bs⟩ : Put UInt8).bytes.length = n from hn] at hread

/-- The fields of a packet that fits do so. -/
theorem field_le {p : Packet} (hp : ∀ name, p ≠ .ictrl name) {off : ℕ} {bs : List UInt8}
    (hfield : p.field off = some ⟨off, bs⟩) : off + bs.length ≤ p.size :=
  p.fits_iff.mpr hp _ (List.mem_of_find?_eq_some hfield)

end Packet

/-! ## The monitor -/

/-- `I4B_GET_2B` -/
def get2b (r : List UInt8) (off : ℕ) : BitVec 16 := toBe16 r off

/-- `I4B_GET_4B` -/
def get4b (r : List UInt8) (off : ℕ) : BitVec 32 := toBe32 r off

section
variable {p : Packet} {off : ℕ}

theorem get2b_encode (hp : ∀ name, p ≠ .ictrl name) {v : BitVec 16}
    (hfield : p.field off = some (Packet.put2b off v)) : get2b p.encode off = v :=
  toBe16_of_read (Packet.read_encode hfield rfl (Packet.field_le hp hfield))

theorem get4b_encode (hp : ∀ name, p ≠ .ictrl name) {v : BitVec 32}
    (hfield : p.field off = some (Packet.put4b off v)) : get4b p.encode off = v :=
  toBe32_of_read (Packet.read_encode hfield rfl (Packet.field_le hp hfield))

/-- A flag, in four octets. -/
theorem get4b_flag (hp : ∀ name, p ≠ .ictrl name) {b : Bool}
    (hfield : p.field off = some ⟨off, List.replicate 4 (if b then 1 else 0)⟩) :
    (get4b p.encode off != 0) = b := by
  have hv : List.replicate 4 (if b then 1 else 0) = be32 (if b then 0x01010101 else 0) := by
    cases b <;> decide
  rw [hv] at hfield
  rw [get4b_encode hp hfield]
  cases b <;> rfl

end

/-- What a monitor shows of a string: up to the zero that ends it, 255 octets of it at most. -/
def monString (str : Str) : Str := (cstr str).take 255

theorem toStr_encode {p : Packet} {off : ℕ} {str : Str} (hsize : off + 256 ≤ p.size)
    (hfield : p.field off = some (Packet.putStr off str)) : toStr p.encode off = monString str :=
  toStr_of_read (by decide) (Packet.read_encode hfield (Packet.length_putStr off str) hsize)

/-- What a monitor shows. -/
inductive Shown where
  | initData (nctrl nentries : BitVec 16) (rights : BitVec 32)
  | controller (name : Str)
  | entry (name : Str)
  | monitorRights
  | fromRights (net mask rights : BitVec 32) (isLocal : Bool)
  | monitorConnections
  | fromConnection (who rights : BitVec 32)
  /-- `print_logevent` -/
  | logevent (tstamp prio : BitVec 32) (what msg : Str)
  /-- `print_charge` -/
  | charge (tstamp controller channel units : BitVec 32) (estimated : Bool)
  /-- `print_connect` -/
  | connect (tstamp : BitVec 32) (outgoing : Bool) (controller channel : BitVec 32)
      (cfgname devname remphone locphone : Str)
  /-- `print_disconnect` -/
  | disconnect (tstamp controller channel : BitVec 32)
  /-- `print_updown` -/
  | updown (tstamp controller channel isup : BitVec 32)
  /-- `print_l12stat` -/
  | l12stat (tstamp controller layer state : BitVec 32)
  /-- `print_tei` -/
  | tei (tstamp controller value : BitVec 32)
  /-- `print_acct` -/
  | acct (tstamp controller channel obytes obps ibytes ibps : BitVec 32)
  | unknownEvent (code : BitVec 16)
  deriving DecidableEq, Repr

/-- What is to be shown of a packet. -/
def Packet.shown : Packet → Shown
  | idata numctrl numentr claccess => .initData numctrl numentr claccess
  | ictrl name => .controller (monString name)
  | idev name => .entry (monString name)
  | drini _ => .monitorRights
  | dr rights net mask isLocal => .fromRights net mask rights isLocal
  | dcini _ => .monitorConnections
  | dc rights who => .fromConnection who rights
  | logevnt tstamp prio what msg => .logevent tstamp prio (monString what) (monString msg)
  | chrg tstamp ctrl channel units estimate => .charge tstamp ctrl channel units estimate
  | connect tstamp dirIncoming ctrl channel cfgname devname remphone locphone =>
    .connect tstamp (!dirIncoming) ctrl channel (monString cfgname) (monString devname) (monString remphone)
      (monString locphone)
  | disconnect tstamp ctrl channel => .disconnect tstamp ctrl channel
  | updown tstamp ctrl channel up => .updown tstamp ctrl channel up
  | l12stat tstamp ctrl layer state => .l12stat tstamp ctrl layer state
  | tei tstamp ctrl value => .tei tstamp ctrl value
  | acct tstamp ctrl chan obytes obps ibytes ibps => .acct tstamp ctrl chan obytes obps ibytes ibps

/-- `ST_…`, and that the monitor is gone. -/
inductive MonitorState where
  | init
  | ictrl
  | idev
  | anyev
  | right
  | conns
  | exit
  /-- An array was written past its end. -/
  | overrun
  deriving DecidableEq, Repr

/-- The size of `devbuf`. -/
def devbufSize : ℕ := 256

/-- `MAX_CTRL` -/
def maxCtrl : ℕ := 4

/-- The monitor. What `remstate` holds is for the full screen only, and is left out. -/
structure MonitorClient where
  state : MonitorState
  subState : ℕ
  subStateCount : ℕ
  nctrl : ℕ
  nentries : ℕ
  devbuf : Str
  deriving DecidableEq, Repr

namespace MonitorClient

/-- A monitor that has just been connected. -/
def start : MonitorClient := ⟨.init, 0, 0, 0, 0, []⟩

/-- `remstate[controller]` is written. -/
def writeRemstate (c : MonitorClient) (controller : BitVec 32) : MonitorClient :=
  if controller.toNat < maxCtrl then c else { c with state := .overrun }

/-- `handle_event` in `ST_ANYEV`. -/
def anyEvent (c : MonitorClient) (msg : List UInt8) : MonitorClient × Shown :=
  match (get2b msg 0).toNat with
  | 2 =>
    ({ c with state := .right, subState := 0, subStateCount := (get2b msg (monEvntHdr + 0)).toNat }, .monitorRights)
  | 4 =>
    ({ c with state := .conns, subState := 0, subStateCount := (get2b msg (monEvntHdr + 0)).toNat },
      .monitorConnections)
  | 6 =>
    (c, .logevent (get4b msg (monEvntHdr + 0)) (get4b msg (monEvntHdr + 4)) (toStr msg (monEvntHdr + 8))
      (toStr msg (monEvntHdr + 8 + maxMonString)))
  | 7 =>
    (c, .charge (get4b msg (monEvntHdr + 0)) (get4b msg (monEvntHdr + 4)) (get4b msg (monEvntHdr + 8))
      (get4b msg (monEvntHdr + 12)) (get4b msg (monEvntHdr + 16) != 0))
  | 8 =>
    (c.writeRemstate (get4b msg (monEvntHdr + 8)),
      .connect (get4b msg (monEvntHdr + 0)) (get4b msg (monEvntHdr + 4) != 0) (get4b msg (monEvntHdr + 8))
      (get4b msg (monEvntHdr + 12)) (toStr msg (monEvntHdr + 16)) (toStr msg (monEvntHdr + 16 + maxMonString))
      (toStr msg (monEvntHdr + 16 + 2 * maxMonString)) (toStr msg (monEvntHdr + 16 + 3 * maxMonString)))
  | 9 =>
    (c.writeRemstate (get4b msg (monEvntHdr + 4)),
      .disconnect (get4b msg (monEvntHdr + 0)) (get4b msg (monEvntHdr + 4)) (get4b msg (monEvntHdr + 8)))
  | 10 =>
    (c, .updown (get4b msg (monEvntHdr + 0)) (get4b msg (monEvntHdr + 4)) (get4b msg (monEvntHdr + 8))
      (get4b msg (monEvntHdr + 12)))
  | 11 =>
    (c, .l12stat (get4b msg (monEvntHdr + 0)) (get4b msg (monEvntHdr + 4)) (get4b msg (monEvntHdr + 8))
      (get4b msg (monEvntHdr + 12)))
  | 12 => (c, .tei (get4b msg (monEvntHdr + 0)) (get4b msg (monEvntHdr + 4)) (get4b msg (monEvntHdr + 8)))
  | 13 =>
    (c, .acct (get4b msg (monEvntHdr + 0)) (get4b msg (monEvntHdr + 4)) (get4b msg (monEvntHdr + 8))
      (get4b msg (monEvntHdr + 12)) (get4b msg (monEvntHdr + 16)) (get4b msg (monEvntHdr + 20))
      (get4b msg (monEvntHdr + 24)))
  | _ => (c, .unknownEvent (get2b msg 0))

/-- `handle_event`, with what is shown. -/
def handleEvent (c : MonitorClient) (msg : List UInt8) : MonitorClient × Option Shown :=
  match c.state with
  | .init =>
    if get2b msg (monEvntHdr + 0) ≠ mprotVersion ∨ get2b msg (monEvntHdr + 2) ≠ mprotRel then
      ({ c with state := .exit }, none)
    else
      let nctrl := (get2b msg (monEvntHdr + 4)).toNat
      let nentries := (get2b msg (monEvntHdr + 6)).toNat
      ({ c with
          state := if 0 < nctrl then .ictrl else if 0 < nentries then .idev else .anyev
          subState := 0
          nctrl
          nentries },
        some (.initData (get2b msg (monEvntHdr + 4)) (get2b msg (monEvntHdr + 6)) (get4b msg (monEvntHdr + 8))))
  | .ictrl =>
    (if c.nctrl ≤ c.subState + 1 then
        { c with state := if 0 < c.nentries then .idev else .anyev, subState := 0 }
      else { c with subState := c.subState + 1 },
      some (.controller (toStr msg (monEvntHdr + 0))))
  | .idev =>
    let name := toStr msg (monEvntHdr + 0)
    -- `strcat`, with the zero behind the name
    let c := { c with devbuf := c.devbuf ++ name }
    (if devbufSize ≤ c.devbuf.length then { c with state := .overrun }
      else if c.nentries ≤ c.subState + 1 then { c with state := .anyev, subState := 0 }
      else { c with subState := c.subState + 1 },
      some (.entry name))
  | .anyev =>
    let r := c.anyEvent msg
    (r.1, some r.2)
  | .right =>
    ({ c with
        state := if c.subStateCount ≤ c.subState + 1 then .anyev else .right
        subState := c.subState + 1 },
      some (.fromRights (get4b msg (monEvntHdr + 4)) (get4b msg (monEvntHdr + 8)) (get4b msg (monEvntHdr + 0))
        (msg.getD (monEvntHdr + 12) 0 != 0)))
  | .conns =>
    ({ c with
        state := if c.subStateCount ≤ c.subState + 1 then .anyev else .conns
        subState := c.subState + 1 },
      some (.fromConnection (get4b msg (monEvntHdr + 4)) (get4b msg (monEvntHdr + 0))))
  | .exit => (c, none)
  | .overrun => (c, none)

/-- The state that a packet is for. -/
def stateOf : Packet → MonitorState
  | .idata .. => .init
  | .ictrl .. => .ictrl
  | .idev .. => .idev
  | .drini .. => .anyev
  | .dr .. => .right
  | .dcini .. => .anyev
  | .dc .. => .conns
  | .logevnt .. => .anyev
  | .chrg .. => .anyev
  | .connect .. => .anyev
  | .disconnect .. => .anyev
  | .updown .. => .anyev
  | .l12stat .. => .anyev
  | .tei .. => .anyev
  | .acct .. => .anyev

/-- What a monitor is after a packet that was for its state. -/
def after (c : MonitorClient) : Packet → MonitorClient
  | .idata numctrl numentr _ =>
    { c with
      state := if 0 < numctrl.toNat then .ictrl else if 0 < numentr.toNat then .idev else .anyev
      subState := 0
      nctrl := numctrl.toNat
      nentries := numentr.toNat }
  | .ictrl _ =>
    if c.nctrl ≤ c.subState + 1 then { c with state := if 0 < c.nentries then .idev else .anyev, subState := 0 }
    else { c with subState := c.subState + 1 }
  | .idev name =>
    let c := { c with devbuf := c.devbuf ++ monString name }
    if c.nentries ≤ c.subState + 1 then { c with state := .anyev, subState := 0 }
    else { c with subState := c.subState + 1 }
  | .drini count => { c with state := .right, subState := 0, subStateCount := count.toNat }
  | .dr .. =>
    { c with
      state := if c.subStateCount ≤ c.subState + 1 then .anyev else .right
      subState := c.subState + 1 }
  | .dcini count => { c with state := .conns, subState := 0, subStateCount := count.toNat }
  | .dc .. =>
    { c with
      state := if c.subStateCount ≤ c.subState + 1 then .anyev else .conns
      subState := c.subState + 1 }
  | _ => c

/-- The arrays of the monitor have room for a packet. -/
def Room (c : MonitorClient) : Packet → Prop
  | .idev name => c.devbuf.length + (monString name).length < devbufSize
  | .connect _ _ ctrl .. => ctrl.toNat < maxCtrl
  | .disconnect _ ctrl _ => ctrl.toNat < maxCtrl
  | _ => True

/-- A packet for a monitor that waits for any event. -/
theorem anyEvent_encode (c : MonitorClient) {p : Packet} (h : stateOf p = .anyev) (hroom : c.Room p) :
    c.anyEvent p.encode = (c.after p, p.shown) := by
  have hp : ∀ name, p ≠ .ictrl name := by
    rintro name rfl
    cases h
  cases p with
  | idata | ictrl | idev | dr | dc => cases h
  | drini count =>
    rw [anyEvent, @get2b_encode _ 0 hp 2 rfl, @get2b_encode _ (monEvntHdr + 0) hp count rfl]
    rfl
  | dcini count =>
    rw [anyEvent, @get2b_encode _ 0 hp 4 rfl, @get2b_encode _ (monEvntHdr + 0) hp count rfl]
    rfl
  | logevnt tstamp prio what msg =>
    have hwhat := @toStr_encode (.logevnt tstamp prio what msg) (monEvntHdr + 8) what (show 268 ≤ 524 by decide) rfl
    have hmsg := @toStr_encode (.logevnt tstamp prio what msg) (monEvntHdr + 8 + maxMonString) msg
      (show 524 ≤ 524 by decide) rfl
    rw [anyEvent, @get2b_encode _ 0 hp 6 rfl, @get4b_encode _ (monEvntHdr + 0) hp tstamp rfl,
      @get4b_encode _ (monEvntHdr + 4) hp prio rfl, hwhat, hmsg]
    rfl
  | chrg tstamp ctrl channel units estimate =>
    rw [anyEvent, @get2b_encode _ 0 hp 7 rfl, @get4b_encode _ (monEvntHdr + 0) hp tstamp rfl,
      @get4b_encode _ (monEvntHdr + 4) hp ctrl rfl, @get4b_encode _ (monEvntHdr + 8) hp channel rfl,
      @get4b_encode _ (monEvntHdr + 12) hp units rfl, @get4b_flag _ (monEvntHdr + 16) hp estimate rfl]
    rfl
  | connect tstamp dirIncoming ctrl channel cfgname devname remphone locphone =>
    rw [anyEvent, @get2b_encode _ 0 hp 8 rfl, @get4b_encode _ (monEvntHdr + 0) hp tstamp rfl,
      @get4b_encode _ (monEvntHdr + 4) hp (if dirIncoming then 0 else 1) rfl,
      @get4b_encode _ (monEvntHdr + 8) hp ctrl rfl, @get4b_encode _ (monEvntHdr + 12) hp channel rfl,
      @toStr_encode (.connect ..) (monEvntHdr + 16) cfgname (show 276 ≤ 1044 by decide) rfl,
      @toStr_encode (.connect ..) (monEvntHdr + 16 + maxMonString) devname (show 532 ≤ 1044 by decide) rfl,
      @toStr_encode (.connect ..) (monEvntHdr + 16 + 2 * maxMonString) remphone (show 788 ≤ 1044 by decide) rfl,
      @toStr_encode (.connect ..) (monEvntHdr + 16 + 3 * maxMonString) locphone (show 1044 ≤ 1044 by decide) rfl]
    simp only [writeRemstate, if_pos (show ctrl.toNat < maxCtrl from hroom)]
    cases dirIncoming <;> rfl
  | disconnect tstamp ctrl channel =>
    rw [anyEvent, @get2b_encode _ 0 hp 9 rfl, @get4b_encode _ (monEvntHdr + 0) hp tstamp rfl,
      @get4b_encode _ (monEvntHdr + 4) hp ctrl rfl, @get4b_encode _ (monEvntHdr + 8) hp channel rfl]
    simp only [writeRemstate, if_pos (show ctrl.toNat < maxCtrl from hroom)]
    rfl
  | updown tstamp ctrl channel up =>
    rw [anyEvent, @get2b_encode _ 0 hp 10 rfl, @get4b_encode _ (monEvntHdr + 0) hp tstamp rfl,
      @get4b_encode _ (monEvntHdr + 4) hp ctrl rfl, @get4b_encode _ (monEvntHdr + 8) hp channel rfl,
      @get4b_encode _ (monEvntHdr + 12) hp up rfl]
    rfl
  | l12stat tstamp ctrl layer state =>
    rw [anyEvent, @get2b_encode _ 0 hp 11 rfl, @get4b_encode _ (monEvntHdr + 0) hp tstamp rfl,
      @get4b_encode _ (monEvntHdr + 4) hp ctrl rfl, @get4b_encode _ (monEvntHdr + 8) hp layer rfl,
      @get4b_encode _ (monEvntHdr + 12) hp state rfl]
    rfl
  | tei tstamp ctrl value =>
    rw [anyEvent, @get2b_encode _ 0 hp 12 rfl, @get4b_encode _ (monEvntHdr + 0) hp tstamp rfl,
      @get4b_encode _ (monEvntHdr + 4) hp ctrl rfl, @get4b_encode _ (monEvntHdr + 8) hp value rfl]
    rfl
  | acct tstamp ctrl chan obytes obps ibytes ibps =>
    rw [anyEvent, @get2b_encode _ 0 hp 13 rfl, @get4b_encode _ (monEvntHdr + 0) hp tstamp rfl,
      @get4b_encode _ (monEvntHdr + 4) hp ctrl rfl, @get4b_encode _ (monEvntHdr + 8) hp chan rfl,
      @get4b_encode _ (monEvntHdr + 12) hp obytes rfl, @get4b_encode _ (monEvntHdr + 16) hp obps rfl,
      @get4b_encode _ (monEvntHdr + 20) hp ibytes rfl, @get4b_encode _ (monEvntHdr + 24) hp ibps rfl]
    rfl

/-- **In the state that it is for, and where there is room for it, a packet is shown as it was written.** -/
theorem handleEvent_encode {c : MonitorClient} {p : Packet} (h : c.state = stateOf p) (hroom : c.Room p) :
    c.handleEvent p.encode = (c.after p, some p.shown) := by
  by_cases hany : stateOf p = .anyev
  · rw [handleEvent, h, hany]
    simp only [anyEvent_encode c hany hroom]
  obtain ⟨state, subState, subStateCount, nctrl, nentries, devbuf⟩ := c
  obtain rfl : state = stateOf p := h
  cases p with
  | idata numctrl numentr claccess =>
    have hp : ∀ name, Packet.idata numctrl numentr claccess ≠ .ictrl name := fun _ => nofun
    rw [handleEvent, stateOf, @get2b_encode _ (monEvntHdr + 0) hp mprotVersion rfl,
      @get2b_encode _ (monEvntHdr + 2) hp mprotRel rfl, @get2b_encode _ (monEvntHdr + 4) hp numctrl rfl,
      @get2b_encode _ (monEvntHdr + 6) hp numentr rfl, @get4b_encode _ (monEvntHdr + 8) hp claccess rfl,
      if_neg (by simp)]
    rfl
  | ictrl name =>
    rw [handleEvent, stateOf, @toStr_encode (.ictrl name) (monEvntHdr + 0) name (show 260 ≤ 268 by decide) rfl]
    rfl
  | idev name =>
    have hfits : ¬ devbufSize ≤ (devbuf ++ monString name).length := by
      rw [List.length_append]
      exact not_le.mpr hroom
    rw [handleEvent, stateOf, @toStr_encode (.idev name) (monEvntHdr + 0) name (show 260 ≤ 262 by decide) rfl]
    simp only [if_neg hfits]
    rfl
  | dr rights net mask isLocal =>
    have hp : ∀ name, Packet.dr rights net mask isLocal ≠ .ictrl name := fun _ => nofun
    have hlocal : (Packet.dr rights net mask isLocal).encode.getD (monEvntHdr + 12) 0 = if isLocal then 1 else 0 :=
      getD_of_read (@Packet.read_encode _ _ _ [if isLocal then 1 else 0] rfl rfl (show 17 ≤ 17 by decide))
        Nat.one_pos
    rw [handleEvent, stateOf, @get4b_encode _ (monEvntHdr + 4) hp net rfl, @get4b_encode _ (monEvntHdr + 8) hp mask rfl,
      @get4b_encode _ (monEvntHdr + 0) hp rights rfl, hlocal]
    cases isLocal <;> rfl
  | dc rights who =>
    have hp : ∀ name, Packet.dc rights who ≠ .ictrl name := fun _ => nofun
    rw [handleEvent, stateOf, @get4b_encode _ (monEvntHdr + 4) hp who rfl,
      @get4b_encode _ (monEvntHdr + 0) hp rights rfl]
    rfl
  | drini | dcini | logevnt | chrg | connect | disconnect | updown | l12stat | tei | acct =>
    exact absurd rfl hany

end MonitorClient

end Isdnd
end Isdn4bsd
