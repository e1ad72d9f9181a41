import Dmx4Linux2.Suart.Model.Event

/-!
# suart — the receiver of a DMX port

`dmx512suart_rxfifo_handler`, which makes frames of the events of the rx
FIFO. A frame ends at the next break; when frames of one size came in a
row the port locks to that size, and a frame then ends with its last
octet. The frames that are reported are kept beside the port.
-/

namespace Dmx4Linux2

namespace Suart

/-- `struct dmx512suart_port`, as far as the receiver uses it. -/
structure Port where
  dmxstate : ℕ
  dmxsize : ℕ
  dmxData : Mem
  dmxLocked : Bool
  dmxLockCount : ℕ
  dmxLockSize : ℕ
  /-- What `dmx512suart_received_frame` was called with. -/
  reported : List (List UInt8)

namespace Port

/-- `dmx512suart_port_init`; the data is whatever the allocator leaves in
it. -/
def init (garbage : Mem) : Port := ⟨0, 0, garbage, false, 0, 0, []⟩

variable (p : Port)

/-- The octets of the frame so far. -/
def content : List UInt8 := p.dmxData.read 0 p.dmxsize

/-- `dmx512suart_received_frame`. -/
def receivedFrame : Port := { p with reported := p.reported ++ [p.content] }

/-- A `STREAMUART_EVENT_DATA_INLINE`. The test for a frame that is too
long is `dmx_locked && (dmxstate = 0)`, which assigns 0 and is false. -/
def dataInline (chunk : Inline) : Port :=
  let p := if p.dmxLocked then { p with dmxstate := 0 } else p
  let p := { p with dmxstate := 2 }
  if chunk.octets.length < 512 - p.dmxsize then
    let p := { p with
      dmxData := p.dmxData.write p.dmxsize chunk.octets
      dmxsize := p.dmxsize + chunk.octets.length }
    if p.dmxLocked ∧ p.dmxsize = p.dmxLockSize then
      { p.receivedFrame with dmxsize := 0, dmxstate := 0 }
    else p
  else p

/-- What a break does to the lock, at the end of a frame. -/
def updateLock : Port :=
  if p.dmxLocked then
    if p.dmxLockSize ≠ p.dmxsize then
      { p with dmxLockCount := 0, dmxLocked := false, dmxLockSize := p.dmxsize }
    else p
  else
    let p := if p.dmxLockSize = p.dmxsize then { p with dmxLockCount := p.dmxLockCount + 1 } else p
    let p := if p.dmxLockCount > 3 then { p with dmxLocked := true } else p
    { p with dmxLockSize := p.dmxsize }

/-- `PC16550_LSR_BREAK_INTERRUPT` -/
def breakInterrupt : UInt32 := 0x10

/-- A `STREAMUART_EVENT_LINESTATUS`. -/
def linestatus (value : UInt32) : Port :=
  if value &&& breakInterrupt ≠ 0 then
    let p := if 0 < p.dmxsize then { p.updateLock.receivedFrame with dmxsize := 0 } else p
    { p with dmxstate := 1, dmxsize := 0 }
  else p

/-- The body of the loop of `dmx512suart_rxfifo_handler`, or nothing if
the program exits. -/
def rxfifoHandler : Event → Option Port
  | .data _ => none
  | .dataInline chunk => some (p.dataInline chunk)
  | .linestatus _ value => some (p.linestatus value)
  | _ => some p

end Port

end Suart

end Dmx4Linux2
