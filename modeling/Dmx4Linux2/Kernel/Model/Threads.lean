import Dmx4Linux2.Kernel.Model.Core

/-!
# dmx512 kernel core — threads in the file operations

Reads and writes of several threads at a time. An operation is cut where
it has an entry in a local variable: a write between taking it out of the
pool and sending it, a read between taking it off the queue and returning
it to the pool. Each half touches one queue, under its lock.

What is written, in the order in which it is sent, what reads take off
the queues and what they return are kept beside the kernel.
-/

namespace Dmx4Linux2

namespace Kernel

open Dmx4Linux2.Core

/-- Where a thread is in a file operation, with its local variables. -/
inductive Task (δ : Type)
  | write (dev : δ) (e : Entry) (size : ℕ) (copy : Copy)
  | read (e : Entry)

/-- A frame that a thread took off the queue of a device. -/
structure Taken (τ δ : Type) where
  thread : τ
  dev : δ
  frame : Frame

structure Threads (τ δ π : Type) where
  kernel : State δ π
  tasks : τ → Option (Task δ)
  /-- The frames of all writes to a device, whatever became of them. -/
  written : δ → List Frame
  taken : List (Taken τ δ)
  /-- The frames a thread has read, and whether they could be copied to
  its buffer. -/
  returned : τ → List (Frame × Bool)

/-- The half of an operation that a thread does next. -/
inductive Half (τ δ : Type)
  | writeGet (thread : τ) (dev : δ) (size : ℕ) (copy : Copy)
  | writeSend (thread : τ) (space : Bool)
  | readGet (thread : τ) (dev : δ) (size : ℕ)
  | readPut (thread : τ) (fault : Bool)

/-- The frame a client gives to a write, if it can be read. -/
def Copy.frames : Copy → List Frame
  | .done frame => [frame]
  | .fault _ => []

namespace Threads

variable {τ δ π : Type} [DecidableEq τ] [DecidableEq δ] [DecidableEq π]

/-- No thread is in an operation. -/
def start (kernel : State δ π) : Threads τ δ π where
  kernel := kernel
  tasks := fun _ => none
  written := fun _ => []
  taken := []
  returned := fun _ => []

def setTask (m : Threads τ δ π) (thread : τ) (task : Option (Task δ)) : Threads τ δ π :=
  { m with tasks := Function.update m.tasks thread task }

/-- A write to a device has come to its end. -/
def logWrite (m : Threads τ δ π) (dev : δ) (copy : Copy) : Threads τ δ π :=
  { m with written := Function.update m.written dev (m.written dev ++ copy.frames) }

/-- The system after a half of an operation; a thread does them in their
order. -/
def step (m : Threads τ δ π) : Half τ δ → Threads τ δ π
  | .writeGet thread dev size copy =>
    match m.tasks thread, m.kernel.freeFramequeue with
    | none, [] => m.logWrite dev copy
    | none, e :: pool =>
      ({ m with kernel := { m.kernel with freeFramequeue := pool } } : Threads τ δ π).setTask thread
        (some (.write dev e size copy))
    | some _, _ => m
  | .writeSend thread space =>
    match m.tasks thread with
    | some (.write dev e size copy) =>
      let m := m.logWrite dev copy
      ({ m with kernel := (m.kernel.writeRest dev e size copy space).2 } : Threads τ δ π).setTask
        thread none
    | _ => m
  | .readGet thread dev size =>
    match m.tasks thread, (m.kernel.devices dev).rxframequeue with
    | none, e :: q =>
      if size < sizeofFrame then m
      else
        ({ m with
          kernel := m.kernel.setDevice dev { m.kernel.devices dev with rxframequeue := q }
          taken := m.taken ++ [⟨thread, dev, e.frame⟩] } : Threads τ δ π).setTask thread
            (some (.read e))
    | _, _ => m
  | .readPut thread fault =>
    match m.tasks thread with
    | some (.read e) =>
      ({ m with
        kernel := (m.kernel.readRest e fault).2
        returned := Function.update m.returned thread
          (m.returned thread ++ [(e.frame, !fault)]) } : Threads τ δ π).setTask thread none
    | _ => m

end Threads

end Kernel

end Dmx4Linux2
