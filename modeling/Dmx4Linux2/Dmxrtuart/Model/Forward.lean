import Mathlib.Data.Nat.Notation
import Mathlib.Logic.Function.Basic

/-!
# rtuart testbench — forwarding of received frames

`dmx512_received_frame` puts the frame in front of a list and signals it
through a pipe. The loop of `main` takes the whole list when there is a
signal, and writes the frames to the card one by one. There is no lock: the
thread that handles the interrupts calls `dmx512_received_frame` at any
time, `main` between its passes. So each statement on what the two share is
a step of its own. Every write succeeds. The frames received, in the order
in which they get to the front of the list, are kept beside it.
-/

namespace Dmx4Linux2

namespace Dmxrtuart

/-- The pointers to frames. -/
inductive Cell (ι : Type*)
  | receivedFrames
  /-- `f` of `main`. -/
  | f
  | head (frame : ι)
  deriving DecidableEq, Repr

inductive Thread
  | irq
  | main
  deriving DecidableEq, Repr

/-- How far a thread is in `dmx512_received_frame`. -/
inductive Call (ι : Type*)
  | idle
  | linked (frame : ι)
  | published
  deriving DecidableEq, Repr

structure Forwarder (ι : Type*) where
  cells : Cell ι → Option ι
  /-- The bytes in the pipe. -/
  signals : ℕ
  /-- `main` has read `received_frames` and has not cleared it yet. -/
  loaded : Bool
  calls : Thread → Call ι
  /-- The frames handed over and not given back: `malloc` returns none of them. -/
  live : List ι
  /-- The frames written to the card. -/
  written : List ι
  received : List ι

namespace Forwarder

variable {ι : Type*} [DecidableEq ι]

def init : Forwarder ι := ⟨fun _ => none, 0, false, fun _ => .idle, [], [], []⟩

variable (s : Forwarder ι)

/-- `main` is in none of its passes. -/
def BetweenPasses : Prop := s.loaded = false ∧ s.cells .f = none

instance : Decidable s.BetweenPasses := inferInstanceAs (Decidable (_ ∧ _))

/-- `frame->head = received_frames`. -/
def linkFrame (t : Thread) : Option ι → Forwarder ι
  | none => s
  | some frame =>
    if s.calls t = .idle ∧ frame ∉ s.live ∧ (t = .main → s.BetweenPasses) then
      { s with
        cells := Function.update s.cells (.head frame) (s.cells .receivedFrames)
        calls := Function.update s.calls t (.linked frame)
        live := frame :: s.live }
    else s

/-- `received_frames = frame`. -/
def publishFrame (t : Thread) : Forwarder ι :=
  match s.calls t with
  | .linked frame =>
    { s with
      cells := Function.update s.cells .receivedFrames (some frame)
      calls := Function.update s.calls t .published
      received := s.received ++ [frame] }
  | _ => s

/-- `write (received_dmx_signal, "", 1)`. -/
def signalFrame (t : Thread) : Forwarder ι :=
  match s.calls t with
  | .published => { s with signals := s.signals + 1, calls := Function.update s.calls t .idle }
  | _ => s

/-- `f = received_frames`, with the byte that `main` reads before; nobody
else reads the pipe. -/
def loadFrames : Forwarder ι :=
  if s.BetweenPasses ∧ s.calls .main = .idle ∧ 0 < s.signals then
    { s with
      signals := s.signals - 1
      loaded := true
      cells := Function.update s.cells .f (s.cells .receivedFrames) }
  else s

/-- `received_frames = 0`. -/
def clearFrames : Forwarder ι :=
  if s.loaded then
    { s with loaded := false, cells := Function.update s.cells .receivedFrames none }
  else s

/-- The next frame of the pass is written and given back. -/
def writeFrame : Forwarder ι :=
  match s.loaded, s.cells .f with
  | false, some frame =>
    { s with
      cells := Function.update (Function.update s.cells .f (s.cells (.head frame))) (.head frame)
        none
      written := s.written ++ [frame]
      live := s.live.erase frame }
  | _, _ => s

/-- What one of the threads does next. -/
inductive Event (ι : Type*)
  | link (t : Thread) (frame : Option ι)
  | publish (t : Thread)
  | signal (t : Thread)
  | load
  | clear
  | write
  deriving DecidableEq, Repr

end Forwarder

end Dmxrtuart

end Dmx4Linux2
