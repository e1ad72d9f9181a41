import Dmx4Linux2.Common.Memory

/-!
# llgip — a port of the IP core

`llgdmx_check_rx_port`, which makes frames of the words of the RX FIFO of
a port of the LLG DMX controller, and `dmxllgip_ll_sendFrame`, which
writes the words of a frame. RDM is not compiled in. The frames handed to
the framework and the offsets of the frame's data that are written are
kept beside the port.
-/

namespace Dmx4Linux2

namespace Llgip

/-! ## Words of the FIFOs -/

/-- `DMX_RXFIFO_BREAK` -/
def rxfifoBreak (x : ℕ) : Bool := x >>> 8 &&& 1 == 1

/-- `DMX_RXFIFO_DATA` -/
def rxfifoData (x : ℕ) : UInt8 := UInt8.ofNat (x &&& 0xff)

/-- `DMX_STATUS_RXFIFOEMPTY` -/
def statusRxfifoEmpty (x : ℕ) : Bool := x >>> 24 &&& 1 == 1

/-! ## `struct llgdmx_port` -/

/-- `struct dmx512frame`, without the timestamps. -/
structure Frame where
  port : ℕ
  flags : ℕ
  /-- In units of 4us. -/
  breaksize : UInt8
  /-- `unused[0]`, where breaks are counted. -/
  unused : UInt8
  payloadSize : ℕ
  data : Mem

namespace Frame

def startcode (f : Frame) : UInt8 := f.data 0

/-- The octets the frame is said to have. -/
def octets (f : Frame) : List UInt8 := f.data.read 0 f.payloadSize

end Frame

/-- `learned_rx_framesize` -/
structure Learned where
  enabled : Bool
  locked : Bool
  learnedsize : ℕ
  lastsize : ℕ
  repetionCount : ℕ
  repetionCountTreshold : ℕ
  deriving DecidableEq

structure Port where
  state : ℕ
  frame : Frame
  learned : Learned
  /-- What `dmx512_cuse_handle_received_frame` was called with. -/
  delivered : List Frame
  /-- The offsets of the frame's data that were written. -/
  written : List ℕ

namespace Learned

/-- A break behind octets of a frame with start code 0: lock to a size
that is repeated, and leave the lock when the size is another one. -/
def update (l : Learned) (payloadSize : ℕ) : Learned :=
  if !l.locked then
    if l.enabled then
      let count := if payloadSize = l.lastsize then l.repetionCount + 1 else 0
      if count > l.repetionCountTreshold then
        ⟨l.enabled, true, l.lastsize, payloadSize, count, l.repetionCountTreshold⟩
      else { l with lastsize := payloadSize, repetionCount := count }
    else l
  else if payloadSize ≠ l.lastsize then
    ⟨l.enabled, false, 512, 512, 0, l.repetionCountTreshold⟩
  else l

/-- Octets behind the end of a frame: leave the lock. -/
def overrun (l : Learned) : Learned :=
  if l.locked then ⟨l.enabled, false, 512, 512, 0, l.repetionCountTreshold⟩ else l

end Learned

namespace Port

/-- A port as `main` brings it up; the sizes are learned only for the
ports that the IP core has. -/
def init (enabled : Bool) : Port where
  state := 0
  frame := ⟨0, 0, 0, 0, 0, fun _ => 0⟩
  learned := ⟨enabled, false, 0, 0, 0, if enabled then 20 else 0⟩
  delivered := []
  written := []

variable (p : Port)

/-- `dmx512_cuse_handle_received_frame`, after which the frame is empty. -/
def handOver : Port :=
  { p with
    delivered := p.delivered ++ [p.frame]
    frame := { p.frame with payloadSize := 0 } }

/-- Write an octet of the frame. -/
def store (offset : ℕ) (octet : UInt8) : Port :=
  { p with
    frame := { p.frame with data := p.frame.data.write offset [octet], payloadSize := offset + 1 }
    written := p.written ++ [offset] }

/-- A break. -/
def rxBreak (portno : ℕ) (x : ℕ) : Port :=
  let p := { p with frame := { p.frame with unused := p.frame.unused + 1 } }
  let p :=
    if p.frame.payloadSize > 0 ∧ p.frame.startcode = 0 then
      { p with learned := p.learned.update p.frame.payloadSize }
    else p
  let p := if p.frame.payloadSize > 0 then p.handOver else p
  { p with
    state := 1
    frame := { p.frame with
      port := portno
      flags := 0
      breaksize := rxfifoData x >>> 2
      payloadSize := 0 } }

/-- An octet. -/
def rxData (x : ℕ) : Port :=
  match p.state with
  | 0 => { p with learned := p.learned.overrun }
  | 1 =>
    if rxfifoData x = 0 then { p.store 0 (rxfifoData x) with state := 2 }
    else { p with state := 0 }
  | 2 =>
    if p.frame.payloadSize < 513 then
      let p := p.store p.frame.payloadSize (rxfifoData x)
      if p.learned.locked ∧ p.frame.payloadSize = p.learned.learnedsize then
        { p.handOver with state := 0 }
      else p
    else p
  | _ => { p with state := 0 }

/-- The body of the loop of `llgdmx_check_rx_port`, for a word that is
there. -/
def checkRxWord (portno : ℕ) (x : ℕ) : Port :=
  if rxfifoBreak x then p.rxBreak portno x else p.rxData x

/-- `llgdmx_check_rx_port`, for the words it reads: it returns when it is
told that the FIFO is empty. -/
def checkRxPort (portno : ℕ) (p : Port) : List ℕ → Port
  | [] => p
  | x :: xs =>
    if statusRxfifoEmpty x then p else checkRxPort portno (p.checkRxWord portno x) xs

end Port

/-! ## Sending -/

/-- `dmxllgip_ll_sendFrame`: the words that are written. -/
def llSendFrame (frame : Frame) : List ℕ :=
  let breaksize :=
    if frame.breaksize < 22 then 22 else if frame.breaksize > 63 then 63 else frame.breaksize.toNat
  [0x100 + (breaksize <<< 2) + 3, frame.startcode.toNat] ++
    (frame.data.read 1 frame.payloadSize).map UInt8.toNat

/-- `dmxllgip_sendFrame`, for a card with an open `uio` or without one: the
value returned, and the words that are written. -/
def sendFrame (uio : Bool) (frame : Frame) : ℤ × List ℕ :=
  if uio ∧ frame.port < 20 ∧ frame.payloadSize > 0 then (0, llSendFrame frame) else (-1, [])

end Llgip

end Dmx4Linux2
