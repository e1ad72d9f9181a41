import Dmx4Linux2.Common.Kfifo
import Dmx4Linux2.Core.Model.Framequeue
import Dmx4Linux2.Suart.Model.Event

/-!
# suart — the card

How frames go through a card of stream UARTs: `dmx512suart_send_frame`,
which puts the events of a frame into the tx FIFO of a port, and the two
functions of the CUSE driver around it, `uartdmx_sendFrame` and
`dmx512_receive_frame`.
-/

namespace Dmx4Linux2

namespace Suart

open Rtuart

/-! ## `dmx512suart_create_frame` -/

/-- `suart_event_data_inline` on an array: the events it stores for the
`count` octets, and what it returns. -/
def storeDataInline (maxevents : ℤ) (octets : List UInt8) (count : ℤ) : List Event × ℤ :=
  if (count + 6).tdiv octetsPerInlineDataChunk > maxevents then ([], -1)
  else (inlineEvents octets, (inlineEvents octets).length)

/-- The same with the `int` of the source, for the octets behind a pointer.
The sum in the test wraps around at the six largest counts. -/
def suartEventDataInline (maxevents : Int32) (data : Mem) (count : Int32) : List Event × Int32 :=
  if (count + 6) / Int32.ofNat octetsPerInlineDataChunk > maxevents then ([], -1)
  else
    let events := inlineEvents (data.read 0 count.toNatClampNeg)
    (events, Int32.ofNat events.length)

/-- The end of `dmx512suart_create_frame`, behind the events that are
stored already and those of the octets. -/
def storeEnd (events : List Event) (data : List Event × ℤ) : List Event × ℤ :=
  if data.2 ≤ 0 then (events ++ data.1, -1)
  else
    let events := events ++ data.1 ++ [.changeLine lineRts 0, .disableTx, .enableRx, .echo 1]
    (events, events.length)

/-- `dmx512suart_create_frame` on an array: the events it stores, from the
front of the array on, and what it returns. -/
def storeFrame (maxevents : ℤ) (flags : UInt32) (dmxdata : Mem) (payloadCount : ℤ) :
    List Event × ℤ :=
  if 13 + (payloadCount + 13).tdiv 14 > maxevents then ([], -1)
  else
    let events := [.disableRx, .enableTx, .changeLine lineRts lineRts]
    if isRdmDiscoverReply dmxdata then
      storeEnd events (storeDataInline (maxevents - 13) (encodeDiscoverReply dmxdata) 24)
    else
      storeEnd (events ++ if flags &&& flagNoBreak = 0 then breakEvents else [])
        (storeDataInline (maxevents - 13) (dmxdata.read 0 payloadCount.toNat) payloadCount)

/-! ## `dmx512suart_send_frame` -/

/-- The events `dmx512suart_create_frame` has stored when it gives up:
none if there is no space, and those in front of the octets if there are
no octets. -/
def abandonedEvents (maxevents : ℕ) (flags : UInt32) (dmxdata : Mem) (payloadCount : ℕ) :
    List Event :=
  if 13 + (payloadCount + 13) / 14 > maxevents then []
  else
    [.disableRx, .enableTx, .changeLine lineRts lineRts] ++
      if isRdmDiscoverReply dmxdata then []
      else if flags &&& flagNoBreak = 0 then breakEvents else []

/-- The array of `dmx512suart_send_frame` and the number it passes on
with it. The array starts as what is on the stack, and the number is what
`dmx512suart_create_frame` returns, where -1 stands for no frame. -/
def createdFrame (garbage : Vector Event 128) (flags : UInt32) (dmxdata : Mem) (count : ℕ) :
    List Event × ℤ :=
  match createFrame 128 flags dmxdata count with
  | some events => (events ++ garbage.toList.drop events.length, events.length)
  | none =>
    let events := abandonedEvents 128 flags dmxdata count
    (events ++ garbage.toList.drop events.length, -1)

/-- `suart_put_txevents`: the number of events becomes an `unsigned int`
for `kfifo_in`. -/
def putTxevents (txfifo : Kfifo Event 128) (events : List Event) (count : ℤ) : Kfifo Event 128 :=
  txfifo.put (events.take (count % 2 ^ 32).toNat)

/-- `dmx512suart_send_frame`. -/
def sendFrame (garbage : Vector Event 128) (txfifo : Kfifo Event 128) (flags : UInt32)
    (dmxdata : Mem) (count : ℕ) : Kfifo Event 128 :=
  let (events, n) := createdFrame garbage flags dmxdata count
  putTxevents txfifo events n

/-! ## The CUSE driver -/

/-- `struct uartdmx_card`: the tx FIFO of each port. -/
structure UartdmxCard where
  ports : List (Kfifo Event 128)

/-- What lies behind `data` of a frame. -/
def frameData (frame : Core.Frame) : Mem := fun i => (frame.data[i]?).getD 0

/-- `uartdmx_sendFrame`. -/
def UartdmxCard.sendFrame (card : UartdmxCard) (garbage : Vector Event 128) (frame : Core.Frame) :
    UartdmxCard :=
  match card.ports[frame.port.toNat]? with
  | none => card
  | some txfifo =>
    if frame.payloadSize.toNat ≤ 513 then
      let txfifo := putTxevents txfifo (setDtr true) 1
      let txfifo := Suart.sendFrame garbage txfifo frame.flags.toUInt32 (frameData frame)
        frame.payloadSize.toNat
      ⟨card.ports.set frame.port.toNat (putTxevents txfifo (setDtr false) 1)⟩
    else card

/-- `dmx512_receive_frame`: the frame that the port `portno` hands to the
framework for octets it has received. -/
def receiveFrame (portno : UInt16) (flags : UInt16) (octets : List UInt8) : Core.Frame where
  port := portno
  flags := flags
  -- the length of the break is not known, 88us are assumed
  breaksize := 22
  payloadSize := UInt16.ofNat (if octets.length < 513 then octets.length else 513)
  data := Vector.ofFn fun i => octets.getD i 0
  timestamp := ⟨0, 0⟩
  backTimestamp := ⟨0, 0⟩

end Suart

end Dmx4Linux2
