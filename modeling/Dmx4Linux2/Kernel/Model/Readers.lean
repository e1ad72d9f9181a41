import Dmx4Linux2.Kernel.Model.Core

/-!
# dmx512 kernel core — readers that wait

`dmx512_device_read` cut where a reader can be interrupted: it looks
whether the receive queue is empty, waits, takes an entry off the queue
and copies it, and between any two of these other readers, drivers and
signals may come. What `wait_event_interruptible` returns is not looked
at, so that a signal takes a reader on to the queue as a frame does.

What the reads return is kept beside the kernel.
-/

namespace Dmx4Linux2

namespace Kernel

open Dmx4Linux2.Core

/-- Where a reader is in `dmx512_device_read`. -/
inductive Stage (δ : Type)
  /-- In `wait_event_interruptible`. -/
  | waiting (dev : δ)
  /-- Before `dmx512_framequeue_get`. -/
  | getting (dev : δ)
  /-- Before `copy_to_user`. -/
  | copying (e : Entry)

/-- A read that has returned: a frame, or none for 0. -/
structure Returned (τ : Type) where
  reader : τ
  result : Except Errno (Option Frame)
  /-- `copy_to_user` failed. -/
  fault : Bool

structure Readers (τ δ π : Type) where
  kernel : State δ π
  stages : τ → Option (Stage δ)
  returned : List (Returned τ)

/-- What happens next. -/
inductive Turn (τ δ π : Type)
  /-- A reader calls `dmx512_device_read` and looks at the queue. -/
  | call (reader : τ) (dev : δ) (size : ℕ) (nonblock : Bool)
  /-- A reader that waits looks at the queue again. -/
  | wake (reader : τ)
  | signal (reader : τ)
  | get (reader : τ)
  | copy (reader : τ) (fault : Bool)
  /-- Something else happens in the kernel. -/
  | kernel (ev : Event δ π)

/-- The reads are those of the readers. -/
def Event.isRead {δ π : Type} : Event δ π → Bool
  | .read .. => true
  | _ => false

namespace Readers

variable {τ δ π : Type} [DecidableEq τ] [DecidableEq δ] [DecidableEq π]

/-- Nobody reads. -/
def start (kernel : State δ π) : Readers τ δ π := ⟨kernel, fun _ => none, []⟩

variable (m : Readers τ δ π)

def enter (reader : τ) (stage : Stage δ) : Readers τ δ π :=
  { m with stages := Function.update m.stages reader (some stage) }

def ret (reader : τ) (result : Except Errno (Option Frame)) (fault : Bool) : Readers τ δ π :=
  { m with
    stages := Function.update m.stages reader none
    returned := m.returned ++ [⟨reader, result, fault⟩] }

/-- The first part of `dmx512_device_read`, up to the wait. -/
def call (reader : τ) (dev : δ) (size : ℕ) (nonblock : Bool) : Readers τ δ π :=
  if size < sizeofFrame then m.ret reader (.error .einval) false
  else if (m.kernel.devices dev).rxframequeue.isempty then
    if nonblock then m.ret reader (.error .eagain) false else m.enter reader (.waiting dev)
  else m.enter reader (.getting dev)

/-- `dmx512_framequeue_get`, and 0 is returned if there is nothing. -/
def get (reader : τ) (dev : δ) : Readers τ δ π :=
  match (m.kernel.devices dev).rxframequeue.get with
  | (none, _) => m.ret reader (.ok none) false
  | (some e, q) =>
    ({ m with kernel := m.kernel.setDevice dev { m.kernel.devices dev with rxframequeue := q } } :
      Readers τ δ π).enter reader (.copying e)

/-- The system after a turn; who is not at its place does nothing. -/
def step : Turn τ δ π → Readers τ δ π
  | .call reader dev size nonblock =>
    match m.stages reader with
    | none => m.call reader dev size nonblock
    | some _ => m
  | .wake reader =>
    match m.stages reader with
    | some (.waiting dev) =>
      if (m.kernel.devices dev).rxframequeue.isempty then m else m.enter reader (.getting dev)
    | _ => m
  | .signal reader =>
    match m.stages reader with
    | some (.waiting dev) => m.enter reader (.getting dev)
    | _ => m
  | .get reader =>
    match m.stages reader with
    | some (.getting dev) => m.get reader dev
    | _ => m
  | .copy reader fault =>
    match m.stages reader with
    | some (.copying e) =>
      ({ m with kernel := (m.kernel.readRest e fault).2 } : Readers τ δ π).ret reader
        (m.kernel.readRest e fault).1 fault
    | _ => m
  | .kernel ev => if ev.isRead then m else { m with kernel := m.kernel.step ev }

end Readers

end Kernel

end Dmx4Linux2
