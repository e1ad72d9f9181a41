import Mathlib.Data.Int.Notation
import Mathlib.Data.Nat.Notation

/-!
# dmx512 core — frames and frame queues

`struct dmx512frame` as the uapi has it, and `dmx512_framequeue`, the
list of entries that the kernel core and the CUSE framework move frames
in. A queue is the list of its entries from `head.next` on. The bytes of
a fresh entry are whatever the allocator leaves in it.
-/

namespace Dmx4Linux2

namespace Core

structure Timespec where
  sec : ℤ
  nsec : ℤ
  deriving DecidableEq

/-- `struct dmx512frame`. -/
structure Frame where
  /-- The port this frame was received from or should be sent out to. -/
  port : UInt16
  flags : UInt16
  /-- In units of 4us. -/
  breaksize : UInt8
  payloadSize : UInt16
  data : Vector UInt8 513
  timestamp : Timespec
  backTimestamp : Timespec
  deriving DecidableEq

/-- `sizeof(struct dmx512frame)`, which is packed. -/
def sizeofFrame : ℕ := 555

/-- `DMX512_FLAGS_IS_TRANSMIT_FRAME` -/
def isTransmitFrame : UInt16 := 0x8000

/-- `struct dmx512_framequeue_entry`: the frame, and which object it is. -/
structure Entry where
  id : ℕ
  frame : Frame

/-- The entries of a queue that was initialised, the front first. -/
abbrev Framequeue := List Entry

namespace Framequeue

def init : Framequeue := []

/-- `dmx512_framequeue_isempty`. -/
def isempty (q : Framequeue) : Bool := q.isEmpty

/-- The entry in front, if there is one, and the queue without it. -/
def get : Framequeue → Option Entry × Framequeue
  | [] => (none, [])
  | e :: q => (some e, q)

/-- Append an entry; putting no entry does nothing. -/
def put (q : Framequeue) (e : Option Entry) : Framequeue := q ++ e.toList

/-- All entries are freed. -/
def cleanup (_ : Framequeue) : Framequeue := []

end Framequeue

/-- The loop of `dmx512_core_init`: a queue of `n` entries, allocated one
after the other, with what the allocator leaves in each. -/
def allocated (n : ℕ) (garbage : ℕ → Frame) : Framequeue :=
  (List.range n).foldl (fun q i => q.put (some ⟨i, garbage i⟩)) Framequeue.init

end Core

end Dmx4Linux2
