import Dmx4Linux2.Common.Kfifo
import Dmx4Linux2.Suart.Model.Event
import Dmx4Linux2.Uart.Model.Bus

/-!
# suart — the handler of a PC16x50

`handle_all_pending_events` of the handler thread, which executes the
events of the tx FIFO on the registers of the UART. Data events go
through a buffer; everything else waits until the transmitter is empty.

Other threads put events into the tx FIFO while the handler runs, so it
is cut into steps: one for each event it takes and each time it reads the
line status register, whose value is whatever the UART says. What it does
to the registers and what it reads from the line status register is kept
in a trace, and so are the events the tx FIFO has accepted.
-/

namespace Dmx4Linux2

namespace Suart

/-! ## Registers -/

/-- `PC16550_LSR_THRE` -/
def lsrThre : UInt8 := 0x20
/-- `PC16550_LSR_TRANSMITTER_EMPTY` -/
def lsrTransmitterEmpty : UInt8 := 0x40

/-- `PC16C550_IER_RECEIVED_DATA_AVAILABLE` -/
def ierReceivedDataAvailable : UInt8 := 0x01
/-- `PC16C550_IER_TRANSMITTER_HOLDING_REGISTER_EMPTY` -/
def ierTransmitterHoldingRegisterEmpty : UInt8 := 0x02

/-- `suart_line_to_mcr`. -/
def lineToMcr (v : UInt32) : UInt8 :=
  (if v &&& lineRts ≠ 0 then 0x02 else 0) ||| (if v &&& lineDtr ≠ 0 then 0x01 else 0) |||
    (if v &&& lineOut0 ≠ 0 then 0x04 else 0) ||| (if v &&& lineOut1 ≠ 0 then 0x08 else 0) |||
    (if v &&& lineGpio0 ≠ 0 then 0x08 else 0)

/-- `pc16x50_change_mcr_bits`: the shadow of the register, which is then
written to it. -/
def changeMcrBits (mcrShadow mcrBits mcrMask : UInt8) : UInt8 :=
  (~~~mcrMask &&& mcrShadow) ||| (mcrMask &&& mcrBits)

/-- `suart_pc16x50_change_line`. -/
def changeLine (mcrShadow : UInt8) (mask value : UInt32) : UInt8 :=
  changeMcrBits mcrShadow (lineToMcr value) (lineToMcr mask)

/-- What is done to the registers and to the rx FIFO. -/
inductive Effect
  | writeThr (octet : UInt8)
  | setBaudrateDivisor (divisor : ℕ)
  | setFormat (databits : UInt8) (parity : Char) (stopbits : UInt8)
  | setIerBits (bits : UInt8)
  | clearIerBits (bits : UInt8)
  | changeMcrBits (bits mask : UInt8)
  | flushRxFifo
  /-- An event is put into the rx FIFO as it is. -/
  | putRxEvent (e : Event)
  /-- The baud rate, or the format, is read from the registers and put
  into the rx FIFO. -/
  | reportBaudrate
  | reportFormat
  deriving DecidableEq

/-- The divisor for a baud rate, with the `base_clock` and 16 times
oversampling. -/
def baudrateDivisor (value : UInt32) : ℕ := 100000000 / 16 / value.toNat

namespace Event

/-- The octets of a data event. -/
def octets : Event → Option (List UInt8)
  | .data octets => some octets
  | .dataInline chunk => some chunk.octets
  | _ => none

/-- `handle_one_event` for an event that is no data event. -/
def control : Event → List Effect
  | .echo eventid => [.putRxEvent (.echo eventid)]
  | .setBaudrate value => [.setBaudrateDivisor (baudrateDivisor value)]
  | .getBaudrate _ => [.reportBaudrate]
  | .setFormat databits parity stopbits => [.setFormat databits parity stopbits]
  | .getFormat .. => [.reportFormat]
  | .enableTx => [.setIerBits ierTransmitterHoldingRegisterEmpty]
  | .disableTx => [.clearIerBits ierTransmitterHoldingRegisterEmpty]
  | .enableRx => [.flushRxFifo, .setIerBits ierReceivedDataAvailable]
  | .disableRx => [.clearIerBits ierReceivedDataAvailable]
  | .changeLine mask value => [.changeMcrBits (lineToMcr value) (lineToMcr mask)]
  | .shutdown | .setHandshake | .getHandshake | .data _ | .dataInline _ | .enableNotification
  | .disableNotification | .linestatus .. => []

end Event

/-- `handle_one_event` for the two events about the baud rate, at the
registers: the registers after it, and the event that is put into the rx
FIFO. -/
def handleBaudrate (bus : Uart.DummyBus) : Event → Uart.DummyBus × Option Event
  | .setBaudrate value =>
    (bus.pc16x50SetBaudrateDivisor (UInt16.ofNat (baudrateDivisor value)), none)
  | .getBaudrate _ =>
    let (divisor, bus) := bus.pc16x50GetBaudrateDivisor
    let value := if divisor = 0 then 0 else 100000000 / 16 / divisor.toNat
    (bus, some (.getBaudrate (UInt32.ofNat value)))
  | _ => (bus, none)

/-! ## The handler -/

/-- Where the handler is. -/
inductive Place
  /-- Before a call of `handle_all_pending_events`. -/
  | call
  /-- In the loop that waits for the transmitter to be empty. -/
  | wait
  /-- In the loop over the events of the tx FIFO. -/
  | loop
  /-- In the loop of `fetch_as_much_data_events_as_possible`. -/
  | fetch
  /-- Before `transmit_as_much_as_possible`. -/
  | transmit
  /-- The thread has ended. -/
  | stopped
  deriving DecidableEq

/-- What happens at the registers. -/
inductive Access
  | readLsr (lsr : UInt8)
  | effect (x : Effect)
  deriving DecidableEq

structure Handler where
  place : Place
  txfifo : Kfifo Event 128
  txbuffer : Kfifo UInt8 1024
  trace : List Access
  /-- The events that were put into the tx FIFO. -/
  accepted : List Event

namespace Handler

def init : Handler := ⟨.call, .empty, .empty, [], []⟩

variable (h : Handler)

def readLsr (lsr : UInt8) : Handler := { h with trace := h.trace ++ [.readLsr lsr] }

def perform (xs : List Effect) : Handler := { h with trace := h.trace ++ xs.map .effect }

/-- `suart_put_txevents`. -/
def putTxevents (events : List Event) : Handler :=
  { h with
    txfifo := h.txfifo.put events
    accepted := h.accepted ++ events.take h.txfifo.avail }

/-- An event is taken out of the tx FIFO. -/
def getTxevent : Handler := { h with txfifo := (h.txfifo.out 1).2 }

/-- A data event is put into the buffer. -/
def buffer (octets : List UInt8) : Handler := { h with txbuffer := h.txbuffer.put octets }

/-- One pass of the loop of `fetch_as_much_data_events_as_possible`. -/
def fetchAsMuchDataEventsAsPossible : Handler :=
  match h.txfifo.peek.bind Event.octets with
  | some octets => h.getTxevent.buffer octets
  | none => { h with place := .transmit }

/-- How many octets the transmitter takes. -/
def space (lsr : UInt8) : ℕ :=
  if lsr &&& lsrTransmitterEmpty ≠ 0 then 16 + 1 else if lsr &&& lsrThre ≠ 0 then 16 else 0

/-- `transmit_as_much_as_possible`, after which the call returns. -/
def transmitAsMuchAsPossible (lsr : UInt8) : Handler :=
  if 0 < h.txbuffer.len then
    let (tmp, rest) := h.txbuffer.out (space lsr)
    { ({ h with txbuffer := rest }.readLsr lsr).perform (tmp.map .writeThr) with place := .call }
  else { h with place := .call }

/-- `handle_all_pending_events`, up to the next event it takes or the next
time it reads the line status register, which says `lsr` then. -/
def handleAllPendingEvents (lsr : UInt8) : Handler :=
  match h.place with
  | .call =>
    if 0 < h.txbuffer.len then { h with place := .fetch }
    else
      { h.readLsr lsr with
        place := if lsr &&& lsrThre = 0 then .call
          else if lsr &&& lsrTransmitterEmpty = 0 then .wait else .loop }
  | .wait =>
    { h.readLsr lsr with place := if lsr &&& lsrTransmitterEmpty = 0 then .wait else .loop }
  | .loop =>
    match h.txfifo.peek with
    | none => { h with place := .call }
    | some .shutdown => { h.getTxevent with place := .stopped }
    | some e =>
      match e.octets with
      | some octets => { h.getTxevent.buffer octets with place := .fetch }
      | none => h.getTxevent.perform e.control
  | .fetch => h.fetchAsMuchDataEventsAsPossible
  | .transmit => h.transmitAsMuchAsPossible lsr
  | .stopped => h

end Handler

end Suart

end Dmx4Linux2
