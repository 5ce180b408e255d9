import Isdn4bsd.L2.Run

/-!
# Layer 2: a pipe and its peer

A numbered pipe of a softc, its peer, and a link between them that keeps the order of frames but may
lose any of them.  The peer accepts an I-frame when its number is the one it expects, says at any time
which that is, and may start over at 0.

The pipe is that of `Isdn4bsd.L2.Fsm`, with all that the softc does: its other pipes, layer 3, timers
and frames of other terminals.  `Link.Reach` is where a run may get to while the pipe does not pause and
layer 3 takes nothing back; what such runs have in common is in `Isdn4bsd.L2.NoLoss`.

The peer is as weak as can be.  It does not answer when it is asked, it may answer without having been asked, and
of what it says only the number counts.  Frames on their way are kept with the buffers they were made from, which
is history: whether a frame has arrived is a question about buffers, as two frames with the same message are
not the same.

When the peer may start over is left open (`mayReset`).  In `Quiescent` it may do so only while nothing is on
its way; what goes wrong otherwise is `frame_lost` in `Isdn4bsd.L2.NoLoss`.
-/

set_option autoImplicit false

namespace Isdn4bsd
namespace L2

/-- A softc, the peer of one of its pipes, and what is on its way between them. -/
structure Link where
  sc : Softc
  /-- I-frames on their way to the peer. -/
  fwd : List TxFrame
  /-- S- and I-frames on their way to the pipe. -/
  rev : List (List UInt8)
  /-- The number the peer expects. -/
  rxNr : Nat
  /-- The data frames of the pipe, in the order in which they were enqueued. -/
  enq : List Nat
  /-- Those that the peer accepted, in the order in which it first did. -/
  accepted : List Nat

/-- What may happen. -/
inductive Action where
  /-- Something happens to the softc that is not a frame from the peer. -/
  | event (ev : Event)
  /-- A frame to the peer is lost. -/
  | lose (i : Nat)
  /-- A frame from the peer is lost. -/
  | loseRev (i : Nat)
  /-- The peer gets a frame. -/
  | deliver
  /-- The peer sends a frame with the number it expects. -/
  | answer (buf : List UInt8)
  /-- The pipe gets a frame. -/
  | receive
  /-- The peer starts over. -/
  | reset
  deriving DecidableEq, Repr

namespace Link

/-- The data frames of a queue are noted when they are new. -/
def note (enq : List Nat) (queue : List Mbuf) : List Nat :=
  enq ++ (queue.filter fun m => ¬ m.isZif ∧ m.id ∉ enq).map Mbuf.id

/-- The I-frames of a pipe that are handed to layer 1. -/
def iFrames (p : PipeNo) : Option Out → List TxFrame
  | some (.frame f) => if f.pipe = p ∧ f.unnumbered = false then [f] else []
  | _ => []

/-- The softc went on. -/
def after (p : PipeNo) (l : Link) (r : Softc × Option Out) : Link :=
  { l with
    sc := r.1
    fwd := l.fwd ++ iFrames p r.2
    enq := note l.enq (r.1.pipe p).queue }

/-- The peer gets a frame, and accepts it if it has the number expected. -/
def delivered (l : Link) (f : TxFrame) (fs : List TxFrame) : Link :=
  if getNr (get1 f.bytes 2) = l.rxNr then
    { l with
      fwd := fs
      rxNr := (l.rxNr + 1) % 128
      accepted := if ¬ f.mbuf.isZif ∧ f.mbuf.id ∉ l.accepted then l.accepted ++ [f.mbuf.id]
        else l.accepted }
  else { l with fwd := fs }

/-- One action; there is no result when it is not possible. -/
def step (env : Env) (p : PipeNo) (l : Link) : Action → Option Link
  | .event ev => (l.sc.step env ev).map (l.after p)
  | .lose i => some { l with fwd := l.fwd.eraseIdx i }
  | .loseRev i => some { l with rev := l.rev.eraseIdx i }
  | .deliver =>
    match l.fwd with
    | [] => none
    | f :: fs => some (l.delivered f fs)
  | .answer buf =>
    if (get1 buf 2 &&& 1 = 0 ∨ get1 buf 2 &&& 2 = 0) ∧ getNr (get1 buf 3) = l.rxNr then
      some { l with rev := l.rev ++ [buf] }
    else none
  | .receive =>
    match l.rev with
    | [] => none
    | buf :: bufs => (l.sc.step env (.putMbuf buf)).map fun r => { l.after p r with rev := bufs }
  | .reset => some { l with rxNr := 0 }

/-- What is taken for granted of an action: other frames from layer 1 have no number for the pipe, the
pipe does not pause, and layer 3 takes back no frame of its queue.  `mayReset` says when the peer may
start over. -/
structure Allowed (env : Env) (p : PipeNo) (mayReset : Link → Prop) (l : Link) (a : Action)
    (l' : Link) : Prop where
  other : ∀ buf, a = .event (.putMbuf buf) → ∀ sc1, Softc.atCheckNr env l.sc buf ≠ some (sc1, p)
  pauses : (l'.sc.pipe p).pauses = (l.sc.pipe p).pauses
  acks : (l'.sc.pipe p).acks = (l.sc.pipe p).acks
  reset : a = .reset → mayReset l

/-- The states a link gets into. -/
inductive Reach (env : Env) (p : PipeNo) (mayReset : Link → Prop) (l0 : Link) : Link → Prop where
  | refl : Reach env p mayReset l0 l0
  | step {l l' : Link} {a : Action} (h : Reach env p mayReset l0 l)
      (hok : l.Allowed env p mayReset a l') (hstep : l.step env p a = some l') :
      Reach env p mayReset l0 l'

/-- The peer starts over only while nothing is on its way. -/
def Quiescent (l : Link) : Prop := l.fwd = [] ∧ l.rev = []

instance : DecidablePred Quiescent := fun l =>
  inferInstanceAs (Decidable (l.fwd = [] ∧ l.rev = []))

/-- A pipe that has come up and has sent nothing, and a peer that may expect any number. -/
structure Start (env : Env) (p : PipeNo) (l : Link) : Prop where
  reachable : Softc.Reachable env l.sc
  numbered : l.sc.isNumbered p
  queue : (l.sc.pipe p).queue = []
  size : (l.sc.pipe p).txWindowSize = 0
  txNr : (l.sc.pipe p).txNr = 0
  fwd : l.fwd = []
  rev : l.rev = []
  rxNr : l.rxNr < 128
  enq : l.enq = []
  accepted : l.accepted = []

/-! ## Runs that can be evaluated -/

/-- No frame comes in from layer 1, other than from the peer. -/
def isPutMbuf : Action → Bool
  | .event (.putMbuf _) => true
  | _ => false

/-- Actions in a row; there is no result when one of them is not possible or not allowed. -/
def run (env : Env) (p : PipeNo) (mayReset : Link → Prop) [DecidablePred mayReset] :
    Link → List Action → Option Link
  | l, [] => some l
  | l, a :: as =>
    (l.step env p a).bind fun l' =>
      if isPutMbuf a = false ∧ (l'.sc.pipe p).pauses = (l.sc.pipe p).pauses ∧
          (l'.sc.pipe p).acks = (l.sc.pipe p).acks ∧ (a = .reset → mayReset l) then
        run env p mayReset l' as
      else none

theorem Reach.run {env : Env} {p : PipeNo} {mayReset : Link → Prop} [DecidablePred mayReset]
    {l0 l l' : Link} {as : List Action} (h : Reach env p mayReset l0 l)
    (hrun : Link.run env p mayReset l as = some l') : Reach env p mayReset l0 l' := by
  induction as generalizing l with
  | nil => exact Option.some.inj hrun ▸ h
  | cons a as ih =>
    rw [Link.run, Option.bind_eq_some_iff] at hrun
    obtain ⟨l1, hstep, hrun⟩ := hrun
    split at hrun
    next hok =>
      obtain ⟨hput, hpauses, hacks, hreset⟩ := hok
      refine ih (.step h ⟨?_, hpauses, hacks, hreset⟩ hstep) hrun
      rintro buf rfl
      exact absurd hput (by simp [isPutMbuf])
    next => exact absurd hrun (by simp)

end Link

end L2
end Isdn4bsd
