import Dmx4Linux2.Dmxrtuart.Model.Buffer

/-!
# rtuart — the driver of the pc16c550

What the driver keeps, the functions it has for its client, and its
interrupt handler. Buffers are known by their address. A step of the
handler goes from one reading of IIR to the next; what it reads from the
registers, and what the client does in the callbacks it gets, comes with
the step. Every access to a register and every callback is put down in the
trace.
-/

namespace Dmx4Linux2

namespace Dmxrtuart

namespace Pc16c550

/-- The registers, under the names they are read and written by. -/
inductive Register
  | rbr
  | thr
  | ier
  | iir
  | fcr
  | lsr
  | msr
  deriving DecidableEq, Repr

/-- A callback of the client. -/
inductive Callback
  | txStart (buffer : ℕ)
  | txEnd1 (buffer : Option ℕ)
  | txEnd2 (buffer : Option ℕ)
  | inputChange (eventmask values : UInt64)
  | rxErr (errmask : UInt64)
  | rxChar (c : UInt8)
  | rxTrigger (buffer : ℕ) (triggermask : UInt64)
  | rxEnd (buffer : ℕ)
  | rxTimeout (buffer : ℕ)
  deriving DecidableEq, Repr

/-- What the driver does that can be seen. -/
inductive Action
  | read (reg : Register) (value : UInt8)
  | write (reg : Register) (value : UInt8)
  | call (callback : Callback)
  | nullPointer
  deriving DecidableEq, Repr

/-- What the client can ask for in a callback. -/
inductive Request
  | setNotify (notify : UInt64)
  | clrNotify (notify : UInt64)
  | txStart (buffer : ℕ)
  | txStop (buffer : ℕ)
  | rxStart (buffer : ℕ)
  | rxStop
  deriving DecidableEq, Repr

/-- The cause of an interrupt. -/
inductive Cause
  | receivedDataAvailable
  | characterTimeout
  | transmitterHoldingEmpty
  | modemStatus
  | none
  | receiverLineStatus
  | illegal
  deriving DecidableEq, Repr

/-- `iir & PC16C550_IIR_IRQ_MASK`. -/
def Cause.ofIir (iir : UInt8) : Cause :=
  let cause := iir &&& 0xF
  if cause = 0x4 then .receivedDataAvailable
  else if cause = 0xC then .characterTimeout
  else if cause = 0x2 then .transmitterHoldingEmpty
  else if cause = 0x0 then .modemStatus
  else if cause = 0x1 then .none
  else if cause = 0x6 then .receiverLineStatus
  else .illegal

/-- Where IIR is read next: where the handler is entered, at the end of
its loop, or in the loop for received octets. -/
inductive Place
  | outside
  | loop
  | receiving
  deriving DecidableEq, Repr

/-- **What a step of the handler meets**: what the registers hold where
they are read, whether the client has a callback for single octets, and
what it asks for in its callbacks. -/
structure Seen where
  iir : UInt8
  lsr : UInt8
  rbr : UInt8
  msr : UInt8
  ier : UInt8
  rxChar : Bool
  requests : Callback → List Request

def transmitterReady : UInt64 := 0x1
def transmitterEmpty : UInt64 := 0x2
def receiverHasdata : UInt64 := 0x4
def receiverTimeout : UInt64 := 0x8
def receiverEvent : UInt64 := 0x10

def lsrDataReady : UInt8 := 0x01
def lsrBreakInterrupt : UInt8 := 0x10
def lsrThre : UInt8 := 0x20
def lsrTransmitterEmpty : UInt8 := 0x40

def ierTransmitterHoldingRegisterEmpty : UInt8 := 0x2

/-- The event of a bit that is set. -/
def eventOf (reg bit : UInt8) (event : UInt64) : UInt64 := if reg &&& bit ≠ 0 then event else 0

/-- `uart16c550_msr_to_event`. -/
def msrToEvent (msr : UInt8) : UInt64 :=
  eventOf msr 0x1 0x2 ||| eventOf msr 0x2 0x4 ||| eventOf msr 0x4 0x10 ||| eventOf msr 0x8 0x8

/-- `uart16c550_lsr_to_event`. -/
def lsrToEvent (lsr : UInt8) : UInt64 :=
  eventOf lsr 0x2 0x20 ||| eventOf lsr 0x4 0x80 ||| eventOf lsr 0x8 0x40 ||| eventOf lsr 0x10 0x1

end Pc16c550

/-- `buffer_is_complete` of a buffer. -/
def RtuartBuffer.isComplete (b : RtuartBuffer) : Bool :=
  decide (b.size ≤ b.transfered) || decide (b.validcount ≤ b.transfered)

/-- `data[i]`. -/
def RtuartBuffer.octet (b : RtuartBuffer) (i : ℕ) : UInt8 := (b.data.getD fun _ => 0) i

/-- `struct rtuart_pc16c550`, with the buffers of the client, `iir` and
`lsr` of the handler, the place it is at and the trace. -/
structure Pc16c550 where
  notifyMask : UInt64
  txBuffer : Option ℕ
  rxBuffer : Option ℕ
  inIrq : Bool
  shadowFcr : UInt8
  buffers : ℕ → RtuartBuffer
  iir : UInt8
  lsr : UInt8
  place : Pc16c550.Place
  trace : List Pc16c550.Action

namespace Pc16c550

variable (s : Pc16c550)

def act (a : Action) : Pc16c550 := { s with trace := s.trace ++ [a] }

def notifies (notify : UInt64) : Bool := s.notifyMask &&& notify != 0

def setBuffer (p : ℕ) (b : RtuartBuffer) : Pc16c550 :=
  { s with buffers := Function.update s.buffers p b }

/-! ## What the client can call -/

/-- `pc16c550_update_notification`. -/
def updateNotification : Pc16c550 :=
  let transmitter : UInt8 :=
    if s.notifies transmitterReady || s.notifies transmitterEmpty then
      ierTransmitterHoldingRegisterEmpty else 0
  let receiver : UInt8 :=
    if s.notifies receiverHasdata || s.notifies receiverTimeout then 0x1 else 0
  let event : UInt8 := if s.notifies receiverEvent then 0x4 ||| 0x8 else 0
  s.act (.write .ier (transmitter ||| receiver ||| event))

/-- The notifications are changed; inside the handler IER has to wait. -/
def changeNotify (notify : UInt64) : Pc16c550 :=
  if s.notifyMask ≠ notify then
    let s := { s with notifyMask := notify }
    if s.inIrq then s else s.updateNotification
  else s

/-- `pc16c550_set_notify`. -/
def setNotify (notify : UInt64) : Pc16c550 := s.changeNotify (s.notifyMask ||| notify)

/-- `pc16c550_clr_notify`. -/
def clrNotify (notify : UInt64) : Pc16c550 := s.changeNotify (s.notifyMask &&& ~~~ notify)

/-- `pc16c550_tx_written`. -/
def txWritten (p : ℕ) : ℕ := (s.buffers p).transfered

/-- `pc16c550_tx_stop`, with what it writes to `allready_written`. -/
def txStop (p : ℕ) : Pc16c550 × Option ℕ :=
  if s.txBuffer = some p then ({ s with txBuffer := none }, some (s.txWritten p)) else (s, none)

/-- `pc16c550_tx_start`. -/
def txStart (p : ℕ) : Pc16c550 :=
  let s := s.setBuffer p { s.buffers p with transfered := 0 }
  let s := if s.txBuffer.isSome then (s.txStop p).1 else s
  if s.txBuffer.isNone then { s with txBuffer := some p }.setNotify transmitterReady else s

/-- `pc16c550_rx_stop`. -/
def rxStop : Pc16c550 :=
  { s with rxBuffer := none }.clrNotify (receiverHasdata ||| receiverTimeout)

/-- `pc16c550_rx_start`. -/
def rxStart (p : ℕ) : Pc16c550 :=
  let s := if s.rxBuffer.isSome then s.rxStop else s
  let s := s.setBuffer p { s.buffers p with transfered := 0 }
  { s with rxBuffer := some p }.setNotify (receiverHasdata ||| receiverTimeout)

def perform : Request → Pc16c550
  | .setNotify notify => s.setNotify notify
  | .clrNotify notify => s.clrNotify notify
  | .txStart p => s.txStart p
  | .txStop p => (s.txStop p).1
  | .rxStart p => s.rxStart p
  | .rxStop => s.rxStop

/-- The client is called and asks for what it wants. -/
def call (e : Seen) (cb : Callback) : Pc16c550 := (e.requests cb).foldl perform (s.act (.call cb))

/-! ## The receiver -/

/-- `_pc16550_flush_rx_fifo`. -/
def flushRxFifo : Pc16c550 := s.act (.write .fcr (s.shadowFcr ||| 0x2))

/-- An octet there is no buffer for. -/
def receiveChar (e : Seen) : Pc16c550 :=
  if e.rxChar then
    let s := s.act (.read .rbr e.rbr)
    { s with notifyMask := s.notifyMask &&& ~~~ receiverHasdata }.call e (.rxChar e.rbr)
  else s.flushRxFifo

/-- The triggers that the octets in the buffer have passed. -/
def passedTriggers (b : RtuartBuffer) : UInt64 :=
  (List.finRange 32).foldl (fun m i =>
    if b.triggermask &&& triggerBit i ≠ 0 ∧ (b.trigger i).toNat < b.transfered then
      m ||| triggerBit i else m) 0

def handleTrigger (e : Seen) (p : ℕ) : Pc16c550 :=
  if (s.buffers p).triggermask ≠ 0 then
    let triggermask := passedTriggers (s.buffers p)
    if triggermask ≠ 0 then
      let s := s.call e (.rxTrigger p triggermask)
      let b := s.buffers p
      s.setBuffer p { b with triggermask := b.triggermask &&& ~~~ triggermask }
    else s
  else s

/-- An octet goes into the buffer. -/
def storeOctet (e : Seen) (p : ℕ) : Pc16c550 :=
  let b := s.buffers p
  (s.act (.read .rbr e.rbr)).setBuffer p
    { b with
      data := b.data.map fun m => Function.update m b.transfered e.rbr
      transfered := b.transfered + 1 }

/-- The callbacks behind the triggers. -/
def callRxEnd (e : Seen) (p : ℕ) (dueToTimeout : Bool) : Pc16c550 :=
  if (s.buffers p).isComplete then
    { s with
      rxBuffer := none
      notifyMask := s.notifyMask &&& ~~~ receiverHasdata }.call e (.rxEnd p)
  else if dueToTimeout then s.call e (.rxTimeout p)
  else s

/-- `handle_received_data`. -/
def handleReceivedData (e : Seen) (buffer : Option ℕ) (dueToTimeout : Bool) : Pc16c550 :=
  match buffer with
  | none => s.receiveChar e
  | some p =>
    if (s.buffers p).isComplete then s.receiveChar e
    else ((s.storeOctet e p).handleTrigger e p).callRxEnd e p dueToTimeout

/-! ## The transmitter -/

/-- `buffer_is_complete` of the buffer that is being sent. -/
def txComplete : Bool := s.txBuffer.all fun p => (s.buffers p).isComplete

/-- The next octet of the buffer goes to THR. -/
def sendOctet (p : ℕ) : Pc16c550 :=
  let b := s.buffers p
  (s.setBuffer p { b with transfered := b.transfered + 1 }).act (.write .thr (b.octet b.transfered))

/-- The loop of `copy_from_buffer_to_transmitter`, for as many octets as
it may still copy. -/
def copyOctets (s : Pc16c550) (p : ℕ) : ℕ → ℕ × Pc16c550
  | 0 => (0, s)
  | n + 1 =>
    let b := s.buffers p
    if b.validcount ≤ b.transfered ∨ b.size ≤ b.transfered then (0, s)
    else
      let r := (s.sendOctet p).copyOctets p n
      (r.1 + 1, r.2)

/-- `copy_from_buffer_to_transmitter`, with the number of octets copied. -/
def copyFromBufferToTransmitter (count : ℕ) : ℕ × Pc16c550 :=
  match s.txBuffer with
  | none => (0, s.act .nullPointer)
  | some p => s.copyOctets p (min count 8)

/-- The client is told of a buffer of which nothing is sent yet. -/
def callTxStart (e : Seen) : Pc16c550 :=
  match s.txBuffer with
  | none => s
  | some p => if (s.buffers p).transfered = 0 then s.call e (.txStart p) else s

/-- The buffer is taken away, with a notification. -/
def release (notify : UInt64) : Pc16c550 :=
  { s with notifyMask := s.notifyMask &&& ~~~ notify, txBuffer := none }

/-- The client is told of a buffer of which all is written. It is kept for
`tx_end2` if the client asked for that and started no other. -/
def callTxEnd1 (e : Seen) : Pc16c550 :=
  if s.txComplete then
    let t := (s.release transmitterReady).call e (.txEnd1 s.txBuffer)
    if t.txBuffer = none ∧ t.notifies transmitterEmpty then { t with txBuffer := s.txBuffer } else t
  else s

/-- One pass of the loop for THRE, with the number of octets written. -/
def fillPass (e : Seen) (availableSpace : ℕ) : ℕ × Pc16c550 :=
  let r := (s.callTxStart e).copyFromBufferToTransmitter availableSpace
  (r.1, r.2.callTxEnd1 e)

/-- The loop for THRE. A pass that is followed by another has written an
octet, so that there are no more passes than space at first. -/
def fill (s : Pc16c550) (e : Seen) (availableSpace : ℕ) : ℕ → Pc16c550
  | 0 => s
  | passes + 1 =>
    let r := s.fillPass e availableSpace
    let availableSpace := availableSpace - r.1
    let s := r.2
    if 0 < r.1 ∧ 0 < availableSpace ∧ s.notifies transmitterReady ∧
        s.txBuffer.any (fun p => (s.buffers p).transfered == 0) then
      s.fill e availableSpace passes
    else s

/-- The transmitter is empty, and the client is told so. -/
def callTxEnd2 (e : Seen) : Pc16c550 :=
  let t := (s.release transmitterEmpty).call e (.txEnd2 s.txBuffer)
  -- The bit is taken out so that setting it again raises the interrupt.
  if t.txBuffer.isSome then
    (t.act (.read .ier e.ier)).act (.write .ier (e.ier &&& ~~~ ierTransmitterHoldingRegisterEmpty))
  else t

/-! ## The interrupt handler -/

/-- `update_iir_and_lsr`. -/
def updateIirAndLsr (e : Seen) : Pc16c550 :=
  let s := { s with iir := e.iir }.act (.read .iir e.iir)
  match Cause.ofIir e.iir with
  | .receivedDataAvailable | .characterTimeout | .none | .receiverLineStatus =>
    { s with lsr := e.lsr }.act (.read .lsr e.lsr)
  | _ => s

/-- The handler goes on at the end of its loop. -/
def next : Pc16c550 := { s with place := .loop }

/-- The handler returns. -/
def leave : Pc16c550 := { s.updateNotification with inIrq := false, place := .outside }

/-- An octet is received, and IIR read again in the same loop. -/
def receive (e : Seen) : Pc16c550 :=
  { s.handleReceivedData e s.rxBuffer (decide (Cause.ofIir s.iir = .characterTimeout)) with
    place := .receiving }

/-- The case in which there is no cause. -/
def handleNone (e : Seen) : Pc16c550 :=
  if s.notifies transmitterEmpty && s.txComplete then
    if s.lsr &&& lsrTransmitterEmpty ≠ 0 then (s.callTxEnd2 e).leave
    else if s.lsr &&& lsrThre ≠ 0 then s.next
    else s.leave
  else s.leave

/-- The case of the line status. -/
def handleLineStatus (e : Seen) : Pc16c550 :=
  let s := if s.lsr &&& lsrBreakInterrupt ≠ 0 then s.act (.read .rbr e.rbr) else s
  if lsrToEvent s.lsr ≠ 0 then s.call e (.rxErr (lsrToEvent s.lsr)) else s

/-- The case of the modem status. -/
def handleModemStatus (e : Seen) : Pc16c550 :=
  let s := s.act (.read .msr e.msr)
  if msrToEvent e.msr ≠ 0 then
    s.call e (.inputChange (msrToEvent e.msr) (msrToEvent (e.msr >>> 4)))
  else s

/-- The switch of `pc16c550_handle_irq`. -/
def dispatch (e : Seen) : Pc16c550 :=
  match Cause.ofIir s.iir with
  | .receivedDataAvailable | .characterTimeout =>
    if s.notifies receiverHasdata then s.receive e else s.flushRxFifo.next
  | .transmitterHoldingEmpty =>
    (if s.notifies transmitterReady then s.fill e 16 16 else s).next
  | .modemStatus => (s.handleModemStatus e).next
  | .none => s.handleNone e
  | .receiverLineStatus => (s.handleLineStatus e).next
  | .illegal => s.leave

/-- The loop for received octets takes another. -/
def hasMore : Bool :=
  decide (Cause.ofIir s.iir = .receivedDataAvailable) ||
    decide (Cause.ofIir s.iir = .characterTimeout) || s.lsr &&& lsrDataReady != 0

/-- **`pc16c550_handle_irq` from one reading of IIR to the next.** -/
def step (e : Seen) : Pc16c550 :=
  match s.place with
  | .outside => ({ s with inIrq := true }.updateIirAndLsr e).dispatch e
  | .loop => (s.updateIirAndLsr e).dispatch e
  | .receiving =>
    let s := s.updateIirAndLsr e
    if s.hasMore then s.receive e else s.dispatch e

end Pc16c550

end Dmxrtuart

end Dmx4Linux2
