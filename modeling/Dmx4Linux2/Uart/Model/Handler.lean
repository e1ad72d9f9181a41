import Dmx4Linux2.Uart.Model.Pl011
import Dmx4Linux2.Uart.Notification

/-!
# uart drivers — the interrupt handlers

The handlers of the pc16c550 and of the PL011, with what a client may call.
Their loops keep nothing from one pass to the next, so a step is a pass, from
one reading of the interrupt status to the next. What is read of the other
registers comes with the pass, and so does what the client calls from its
callbacks; a callback that `enable_notification` makes itself is answered by
calls that follow. A pass is one that ends: where the handler waits for the
transmitter, the readings it waits with are followed by one that ends the
wait. Registers are read without error. What happens is put down in the trace.
-/

namespace Dmx4Linux2

namespace Uart

/-- `UART_NOTIFY_TXEMPTY` -/
def notifyTxempty : UInt64 := 0x01

/-- The members of `struct rtuart_client_callbacks`. -/
inductive CallbackName
  | transmitterHasSpace
  | transmitterEmpty
  | receiverDataAvailable
  | modemInputChanged
  | lineStatusEvent
  deriving DecidableEq, Repr

/-- A callback with what it is called with. -/
inductive Callback
  | transmitterHasSpace (space : UInt32)
  | transmitterEmpty
  | receiverDataAvailable (count : ℤ)
  | modemInputChanged (values changemask : UInt64)
  | lineStatusEvent (eventmask : UInt64)
  deriving DecidableEq, Repr

def Callback.name : Callback → CallbackName
  | .transmitterHasSpace _ => .transmitterHasSpace
  | .transmitterEmpty => .transmitterEmpty
  | .receiverDataAvailable _ => .receiverDataAvailable
  | .modemInputChanged _ _ => .modemInputChanged
  | .lineStatusEvent _ => .lineStatusEvent

/-- What happens: registers are read or written, the ring of the PL011 is
emptied, or has no place for an octet, and the client is called, or calls. -/
inductive Action
  | lsr (v : UInt8)
  | rbr
  | fcr (v : UInt8)
  | fr (v : UInt64)
  | dr (v : UInt64)
  | full (v : UInt8)
  | flush (level : ℤ)
  | chars (octets : List UInt8)
  | notify (c : NotifyCall)
  | call (cb : Callback)
  deriving DecidableEq, Repr

/-! ## pc16c550 -/

/-- `struct rtuart_pc16c550`, with the callbacks the client has. -/
structure Pc16c550 where
  notifier : Notifier
  fcrShadow : UInt8
  callbacks : CallbackName → Bool
  trace : List Action

namespace Pc16c550

def lsrBreakInterrupt : UInt8 := 0x10
def lsrThre : UInt8 := 0x20
def lsrTransmitterEmpty : UInt8 := 0x40

/-- `uart16550_lsr_to_event`. -/
def lsrToEvent (lsr : UInt8) : UInt64 :=
  (if lsr &&& 0x02 ≠ 0 then 1 else 0) ||| (if lsr &&& 0x04 ≠ 0 then 2 else 0) |||
    (if lsr &&& 0x08 ≠ 0 then 4 else 0) ||| (if lsr &&& 0x10 ≠ 0 then 8 else 0)

/-- What a client may call. -/
inductive Call
  | notify (c : NotifyCall)
  | setFifoEnable (on : Bool)
  | flushFifo (tx rx : Bool)
  | setRxfifoTriggerLevel (level : ℤ)

/-- **What a pass meets**: IIR, LSR, LSR again until the transmitter is empty,
and MSR. -/
structure Pass where
  iir : UInt8
  lsr : UInt8
  waits : List UInt8
  waits_busy : ∀ v ∈ waits, v &&& lsrTransmitterEmpty = 0
  empty : UInt8
  empty_temt : empty &&& lsrTransmitterEmpty ≠ 0
  msr : UInt8
  replies : CallbackName → List Call

variable (s : Pc16c550)

def act (a : Action) : Pc16c550 := { s with trace := s.trace ++ [a] }

/-- Bits of `notify_mask` are cleared. -/
def clear (bits : UInt64) : Pc16c550 :=
  { s with notifier := { s.notifier with notifyMask := s.notifier.notifyMask &&& ~~~ bits } }

/-- `pc16c550_rmw_fcr`: the bits that reset a FIFO are not remembered. -/
def rmwFcr (mask value : UInt8) : Pc16c550 :=
  let shadow := (s.fcrShadow &&& ~~~ mask) ||| (mask &&& value &&& ~~~ 6)
  { s with fcrShadow := shadow }.act (.fcr (shadow ||| (mask &&& value)))

/-- `pc16c550_set_fifo_enable`. -/
def setFifoEnable (on : Bool) : Pc16c550 := s.rmwFcr 7 (if on then 7 else 0)

/-- `pc16c550_flush_fifo`. -/
def flushFifo (flushTx flushRx : Bool) : Pc16c550 :=
  s.rmwFcr 6 ((if flushTx then 4 else 0) ||| (if flushRx then 2 else 0))

/-- `pc16c550_set_rxfifo_trigger_level`, which fails for other levels. -/
def setRxfifoTriggerLevel (level : ℤ) : Pc16c550 :=
  if level = 14 then s.rmwFcr 0xC0 0xC0
  else if level = 8 then s.rmwFcr 0xC0 0x80
  else if level = 4 then s.rmwFcr 0xC0 0x40
  else if level = 1 then s.rmwFcr 0xC0 0x00
  else s

/-- `pc16c550_get_tx_fifo_size`. -/
def getTxFifoSize : UInt32 := if s.fcrShadow &&& 1 ≠ 0 then 16 else 1

def perform : Call → Pc16c550
  | .notify c => { s with notifier := s.notifier.call .pc16c550 c }.act (.notify c)
  | .setFifoEnable on => s.setFifoEnable on
  | .flushFifo tx rx => s.flushFifo tx rx
  | .setRxfifoTriggerLevel level => s.setRxfifoTriggerLevel level

/-- The client is called, if it has the callback. -/
def call (e : Pass) (cb : Callback) : Pc16c550 :=
  if s.callbacks cb.name then (e.replies cb.name).foldl perform (s.act (.call cb)) else s

/-- The loop that waits for the transmitter to be empty. -/
def awaitEmpty (e : Pass) : Pc16c550 :=
  (e.waits.foldl (fun s v => s.act (.lsr v)) s).act (.lsr e.empty)

/-- The beginning of `uart16550_handle_lsr`: LSR is read, and the octet of a
break, and the client is told of errors. -/
def readLsr (e : Pass) : Pc16c550 :=
  let s := s.act (.lsr e.lsr)
  let s := if e.lsr &&& lsrBreakInterrupt ≠ 0 then s.act .rbr else s
  if lsrToEvent e.lsr ≠ 0 then s.call e (.lineStatusEvent (lsrToEvent e.lsr)) else s

/-- `uart16550_handle_lsr`. -/
def handleLsr (e : Pass) : Pc16c550 :=
  let s := s.readLsr e
  if e.lsr &&& lsrThre ≠ 0 ∧ s.notifier.notifies notifyTxempty then
    let s := s.clear notifyTxempty
    if e.lsr &&& lsrTransmitterEmpty ≠ 0 then s.call e .transmitterEmpty
    else if s.callbacks .transmitterEmpty then (s.awaitEmpty e).call e .transmitterEmpty
    else s
  else s

/-- `uart16550_rxempty_task_handler`. -/
def rxemptyTaskHandler (e : Pass) : Pc16c550 :=
  if s.notifier.notifies notifyTxempty then s.handleLsr e else s

/-- The receiver has octets; what nobody wants to know of is flushed. -/
def receive (e : Pass) (count : ℤ) : Pc16c550 :=
  if s.notifier.notifies notifyRxavailable then
    let s := s.clear notifyRxavailable
    if s.callbacks .receiverDataAvailable then s.call e (.receiverDataAvailable count)
    else s.flushFifo false true
  else s.flushFifo false true

def updateNotification : Pc16c550 :=
  { s with notifier := s.notifier.updateNotification .pc16c550 }

/-- A pass of the loop of `pc16c550_handle_irq`. -/
def handleIrq (e : Pass) : Pc16c550 :=
  match (e.iir &&& 0xf).toNat with
  | 1 => (s.handleLsr e).updateNotification
  | 0 => s.call e (.modemInputChanged ((e.msr >>> 4) &&& 15).toUInt64 (e.msr &&& 15).toUInt64)
  | 2 =>
    if s.notifier.notifies notifyTxready then
      let s := s.clear notifyTxready
      s.call e (.transmitterHasSpace s.getTxFifoSize)
    else s
  | 4 => s.receive e 8
  | 12 => s.receive e (-1)
  | 6 => s.handleLsr e
  | _ => s.updateNotification

/-- What happens to a uart: the handler goes through its loop once, the check
that is made from time to time (`pc16c550_periodic_check`), and calls. -/
inductive Event
  | irq (e : Pass)
  | periodicCheck (e : Pass)
  | client (c : Call)

def step (s : Pc16c550) : Event → Pc16c550
  | .irq e => s.handleIrq e
  | .periodicCheck e => s.rxemptyTaskHandler e
  | .client c => s.perform c

end Pc16c550

/-! ## PL011 -/

namespace RxFifo

/-- The loop of `pl011_read_chars`. -/
def readChars : ℕ → RxFifo → List UInt8 × RxFifo
  | 0, f => ([], f)
  | count + 1, f =>
    match f.get with
    | (none, f) => ([], f)
    | (some v, f) => ((v :: (readChars count f).1), (readChars count f).2)

end RxFifo

/-- `struct rtuart_pl011`, with the callbacks the client has besides
`transmitter_has_space`. -/
structure Pl011 where
  notifier : Notifier
  rx : RxFifo
  oldInputState : UInt64
  callbacks : CallbackName → Bool
  trace : List Action

namespace Pl011

def frTxfe : UInt64 := 0x80
def frBusy : UInt64 := 0x08

/-- `PL011_MIS_OE | PL011_MIS_BE | PL011_MIS_PE | PL011_MIS_FE` -/
def misErrors : UInt64 := 0x780
/-- `PL011_MIS_RX|PL011_MIS_RT` -/
def misReceiver : UInt64 := 0x050
def misTx : UInt64 := 0x020
def misCts : UInt64 := 0x002

/-- `pl011_irqstatus_to_event`. -/
def irqstatusToEvent (is : UInt64) : UInt64 :=
  (if is &&& 0x400 ≠ 0 then 1 else 0) ||| (if is &&& 0x100 ≠ 0 then 2 else 0) |||
    (if is &&& 0x080 ≠ 0 then 4 else 0) ||| (if is &&& 0x200 ≠ 0 then 8 else 0)

/-- The events of the error bits of DR. -/
def errorToEvent (error : UInt64) : UInt64 :=
  (if error &&& 0x800 ≠ 0 then 1 else 0) ||| (if error &&& 0x200 ≠ 0 then 2 else 0) |||
    (if error &&& 0x100 ≠ 0 then 4 else 0) ||| (if error &&& 0x400 ≠ 0 then 8 else 0)

/-- What a client may call. -/
inductive Call
  | notify (c : NotifyCall)
  | readChars (count : ℕ)
  | flushFifo (tx rx : Bool)

/-- **What a pass meets**: MIS; FR, and FR again until the transmitter is not
busy; and what DR holds, reading by reading, until the FIFO of the receiver is
empty. -/
structure Pass where
  mis : UInt64
  fr : UInt64
  waits : List UInt64
  waits_busy : ∀ v ∈ waits, v &&& frBusy ≠ 0
  idle : UInt64
  idle_free : idle &&& frBusy = 0
  received : List UInt64
  replies : CallbackName → List Call
  /-- What the client calls when it is told of the errors that came with the
  octets. -/
  errorReplies : List Call

variable (s : Pl011)

def act (a : Action) : Pl011 := { s with trace := s.trace ++ [a] }

def clear (bits : UInt64) : Pl011 :=
  { s with notifier := { s.notifier with notifyMask := s.notifier.notifyMask &&& ~~~ bits } }

def has : CallbackName → Bool
  | .transmitterHasSpace => s.notifier.client
  | name => s.callbacks name

/-- The notifications are changed, and `transmitter_has_space` may have been
called. -/
def setNotifier (u : Notifier) : Pl011 :=
  { s with
    notifier := u
    trace := s.trace ++ (u.hasSpace.drop s.notifier.hasSpace.length).map fun space =>
      .call (.transmitterHasSpace space) }

/-- `pl011_rx_fifo_flush`. -/
def flush : Pl011 := { s with rx := s.rx.flush }.act (.flush s.rx.level)

/-- `pl011_rx_fifo_put`. -/
def put (v : UInt8) : Pl011 :=
  if s.rx.full then s.act (.full v) else { s with rx := s.rx.put v }

def perform : Call → Pl011
  | .notify c => (s.act (.notify c)).setNotifier (s.notifier.call .pl011 c)
  | .readChars count =>
    { s with rx := (s.rx.readChars count).2 }.act (.chars (s.rx.readChars count).1)
  | .flushFifo _ rx => if rx then s.flush else s

/-- The client is called, if it has the callback, and calls. -/
def callWith (replies : List Call) (cb : Callback) : Pl011 :=
  if s.has cb.name then replies.foldl perform (s.act (.call cb)) else s

def call (e : Pass) (cb : Callback) : Pl011 := s.callWith (e.replies cb.name) cb

/-- The loop that waits until the transmitter is not busy. -/
def awaitIdle (e : Pass) : Pl011 :=
  (e.waits.foldl (fun s v => s.act (.fr v)) s).act (.fr e.idle)

/-- `pl011_handle_receiver_empty`. -/
def handleReceiverEmpty (e : Pass) : Pl011 :=
  let s := s.act (.fr e.fr)
  if e.fr &&& frTxfe ≠ 0 ∧ s.notifier.notifies notifyTxempty then
    let s := s.clear notifyTxempty
    if e.fr &&& frBusy = 0 then s.call e .transmitterEmpty
    else if s.has .transmitterEmpty then (s.awaitIdle e).call e .transmitterEmpty
    else s
  else s

/-- `pl011_handle_lsr`. -/
def handleLsr (e : Pass) : Pl011 :=
  if irqstatusToEvent e.mis ≠ 0 then s.call e (.lineStatusEvent (irqstatusToEvent e.mis)) else s

/-- `pl011_rxempty_task_handler`. -/
def rxemptyTaskHandler (e : Pass) : Pl011 :=
  if s.notifier.notifies notifyTxempty then (s.handleLsr e).handleReceiverEmpty e else s

/-- The loop that empties the FIFO of the receiver, until an octet has an
error. -/
def storeReceived : List UInt64 → Pl011 → Pl011 × UInt64
  | [], s => (s, 0)
  | dr :: drs, s =>
    let s := s.act (.dr dr)
    if dr &&& 0xF00 ≠ 0 then (s, dr &&& 0xF00) else storeReceived drs (s.put dr.toUInt8)

/-- The client is told of the octets in the ring. -/
def tellReceived (e : Pass) : Pl011 :=
  if s.notifier.notifies notifyRxavailable then
    if s.rx.level ≠ 0 then
      let s := s.clear notifyRxavailable
      if s.has .receiverDataAvailable then s.call e (.receiverDataAvailable s.rx.level)
      else s.flush
    else s
  else s.flush

/-- The branch for a receiver that has octets, which leaves the loop. -/
def receive (e : Pass) : Pl011 :=
  let r := storeReceived e.received s
  let s := r.1.tellReceived e
  if errorToEvent r.2 ≠ 0 then s.callWith e.errorReplies (.lineStatusEvent (errorToEvent r.2))
  else s

/-- A pass of the loop of `pl011_handle_irq`. -/
def handleIrq (e : Pass) : Pl011 :=
  if e.mis &&& (misErrors ||| misReceiver ||| misTx ||| misCts) = 0 then
    let s := s.handleReceiverEmpty e
    s.setNotifier (s.notifier.updateNotification .pl011)
  else
    let s := if e.mis &&& misErrors ≠ 0 then s.handleLsr e else s
    if e.mis &&& misReceiver ≠ 0 then s.receive e
    else
      let s :=
        if e.mis &&& misTx ≠ 0 then
          if s.notifier.notifies notifyTxready then
            let s := s.clear notifyTxready
            s.call e (.transmitterHasSpace s.notifier.txFifoSize)
          else s
        else s
      if e.mis &&& misCts ≠ 0 then
        let s := if s.oldInputState ≠ 1 then s.call e (.modemInputChanged 1 1) else s
        { s with oldInputState := 1 }
      else s

/-- What happens to a uart: the handler goes through its loop once, the check
that is made from time to time (`pl011_periodic_check`), and calls. -/
inductive Event
  | irq (e : Pass)
  | periodicCheck (e : Pass)
  | client (c : Call)

def step (s : Pl011) : Event → Pl011
  | .irq e => s.handleIrq e
  | .periodicCheck e => s.rxemptyTaskHandler e
  | .client c => s.perform c

end Pl011

end Uart

end Dmx4Linux2
