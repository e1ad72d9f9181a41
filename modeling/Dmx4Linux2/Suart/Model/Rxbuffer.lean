import Dmx4Linux2.Common.Kfifo
import Dmx4Linux2.Suart.Model.Event

/-!
# suart — from the interrupts to the rx FIFO

`handle_all_pending_interrupts` of the handler thread, which collects the
octets it reads in `rxbuffer` and puts them into the rx FIFO as data
events, 14 at a time or whatever there is when something else happens.
What the registers say is up to the UART.

The thread that takes events out of the rx FIFO runs at the same time, so
an event that the handler is about to put in waits in `pending` until it
is put. The handler does nothing else before.
-/

namespace Dmx4Linux2

namespace Suart

/-! ## Registers -/

/-- `PC16C550_IIR_IRQ_MASK` -/
def irqMask : UInt8 := 0xf
/-- `PC16C550_IIR_IRQ_RECEIVER_LINE_STATUS` -/
def irqReceiverLineStatus : UInt8 := 6
/-- `PC16C550_IIR_IRQ_RECEIVED_DATA_AVAILABLE` -/
def irqReceivedDataAvailable : UInt8 := 4
/-- `PC16C550_IIR_IRQ_CHARACTER_TIMEOUT` -/
def irqCharacterTimeout : UInt8 := 0xC

/-- `PC16550_LSR_OVERRUN_ERROR` -/
def lsrOverrunError : UInt8 := 0x02
/-- `PC16550_LSR_BREAK_INTERRUPT` -/
def lsrBreakInterrupt : UInt8 := 0x10

/-- What is done to the receiver of the UART. -/
inductive RxAccess
  /-- RBR is read for a data interrupt. -/
  | readRbr (octet : UInt8)
  /-- RBR is read for the octet that comes with a break. -/
  | readBreak (octet : UInt8)
  | readLsr (lsr : UInt8)
  | flushRxFifo
  deriving DecidableEq

/-- What the registers say in a pass of the loop, if they are read. -/
structure Seen where
  isr : UInt8
  rbr : UInt8
  lsr : UInt8

/-- `is_rxdata_interrupt`. -/
def isRxdataInterrupt (isr : UInt8) : Prop :=
  isr &&& irqMask = irqReceivedDataAvailable ∨ isr &&& irqMask = irqCharacterTimeout

instance (isr : UInt8) : Decidable (isRxdataInterrupt isr) :=
  inferInstanceAs (Decidable (_ ∨ _))

/-! ## The events that are put into the rx FIFO

Each function gives them in their order, and what is left in `rxbuffer`. -/

/-- `flush_rxbuffer_fifo_one_entry`. -/
def flushRxbufferFifoOneEntry (rxbuffer : Kfifo UInt8 1024) : List Event × Kfifo UInt8 1024 :=
  let (t, rest) := rxbuffer.out 14
  (if 0 < t.length then [.dataInline (Inline.front t)] else [], rest)

/-- `flush_rxbuffer_fifo`. -/
def flushRxbufferFifo (rxbuffer : Kfifo UInt8 1024) : List Event × Kfifo UInt8 1024 :=
  if _ : 0 < rxbuffer.len then
    let entry := flushRxbufferFifoOneEntry rxbuffer
    let more := flushRxbufferFifo entry.2
    (entry.1 ++ more.1, more.2)
  else ([], rxbuffer)
termination_by rxbuffer.len
decreasing_by
  have hlen : 0 < rxbuffer.len := by assumption
  simp only [Kfifo.len, flushRxbufferFifoOneEntry, Kfifo.out, List.length_drop] at hlen ⊢
  omega

/-- `write_to_rxbuffer_fifo`. -/
def writeToRxbufferFifo (rxbuffer : Kfifo UInt8 1024) (c : UInt8) :
    List Event × Kfifo UInt8 1024 :=
  let rxbuffer := rxbuffer.put [c]
  if 14 ≤ rxbuffer.len then flushRxbufferFifoOneEntry rxbuffer else ([], rxbuffer)

/-- The event of `send_line_status_event`. -/
def lineStatusEvent (linestatus : UInt8) : Event := .linestatus 0xff linestatus.toUInt32

/-- The body of the loop of `handle_all_pending_interrupts`. -/
def handlePendingInterrupt (rxbuffer : Kfifo UInt8 1024) (seen : Seen) :
    List Event × Kfifo UInt8 1024 :=
  if isRxdataInterrupt seen.isr then
    let (events, rxbuffer) := writeToRxbufferFifo rxbuffer seen.rbr
    if seen.isr &&& irqMask = irqCharacterTimeout then
      let (events', rxbuffer) := flushRxbufferFifo rxbuffer
      (events ++ events', rxbuffer)
    else (events, rxbuffer)
  else
    let (events, rxbuffer) := flushRxbufferFifo rxbuffer
    if seen.isr &&& irqMask = irqReceiverLineStatus then
      (events ++ [lineStatusEvent seen.lsr], rxbuffer)
    else (events, rxbuffer)

/-- What it does to the receiver. -/
def Seen.accesses (seen : Seen) : List RxAccess :=
  if isRxdataInterrupt seen.isr then [.readRbr seen.rbr]
  else if seen.isr &&& irqMask = irqReceiverLineStatus then
    [.readLsr seen.lsr] ++
      (if seen.lsr &&& lsrOverrunError ≠ 0 then [.flushRxFifo] else []) ++
      (if seen.lsr &&& lsrBreakInterrupt ≠ 0 then [.readBreak seen.rbr] else [])
  else []

/-! ## The handler and the reader -/

/-- What `handle_one_event` puts into the rx FIFO. -/
inductive Reply
  | echo (eventid : UInt32)
  | baudrate (value : UInt32)
  | format (databits : UInt8) (parity : Char) (stopbits : UInt8)

def Reply.event : Reply → Event
  | .echo eventid => .echo eventid
  | .baudrate value => .getBaudrate value
  | .format databits parity stopbits => .getFormat databits parity stopbits

structure Receiver where
  rxbuffer : Kfifo UInt8 1024
  rxfifo : Kfifo Event 128
  /-- The events the handler is about to put into the rx FIFO. -/
  pending : List Event
  /-- The events that were put into it. -/
  accepted : List Event
  trace : List RxAccess

/-- What happens next. -/
inductive RxTurn
  /-- `handle_all_pending_interrupts` reads ISR and goes through its loop,
  or leaves it. -/
  | interrupt (seen : Seen)
  /-- `handle_one_event` replies to an event. -/
  | reply (r : Reply)
  /-- The wait of `suart_handler_pc16x50` returns. -/
  | wait (ret : ℤ)
  /-- `suart_put_rxevents` puts an event into the rx FIFO. -/
  | put
  /-- `suart_get_rxevents` takes events out of it. -/
  | get (count : ℕ)

namespace Receiver

def init : Receiver := ⟨.empty, .empty, [], [], []⟩

variable (r : Receiver)

/-- The handler goes on with these events and this buffer. -/
def emit (out : List Event × Kfifo UInt8 1024) (accesses : List RxAccess) : Receiver :=
  { r with pending := out.1, rxbuffer := out.2, trace := r.trace ++ accesses }

/-- `suart_put_rxevents`, for the first event that is pending. -/
def putRxevents : Receiver :=
  { r with
    pending := r.pending.drop 1
    rxfifo := r.rxfifo.put (r.pending.take 1)
    accepted := r.accepted ++ (r.pending.take 1).take r.rxfifo.avail }

/-- The handler does nothing before its events are put. -/
def step : RxTurn → Receiver
  | .interrupt seen =>
    if r.pending = [] ∧ seen.isr &&& 1 = 0 then
      r.emit (handlePendingInterrupt r.rxbuffer seen) seen.accesses
    else r
  | .reply x => if r.pending = [] then r.emit ([x.event], r.rxbuffer) [] else r
  | .wait ret =>
    if r.pending = [] ∧ ret = 1 then r.emit (flushRxbufferFifo r.rxbuffer) [] else r
  | .put => r.putRxevents
  | .get count => { r with rxfifo := (r.rxfifo.out count).2 }

end Receiver

end Suart

end Dmx4Linux2
