import Dmx4Linux2.Dmxrtuart.Model.Pc16c550

/-!
# rtuart — the driver of the PL011

The driver of the PL011 has the same client as that of the pc16c550. Its
registers but for DR, FR, MIS and ICR hold what is written to them; `u32` is
`unsigned long`, which has 64 bits, and registers are read without error.
The handler runs in a tasklet. A pass of its loop goes from one reading of
MIS to the next, and what is read of FR, DR and MIS comes with the pass. The
octets written to DR and the callbacks are put down in the trace.
-/

namespace Dmx4Linux2

namespace Dmxrtuart

namespace Pl011

open Pc16c550 (Callback Request)

/-- The registers that hold their value. -/
inductive Register
  | ibrd
  | fbrd
  | lcrh
  | cr
  | ifls
  | imsc
  deriving DecidableEq, Repr

/-- What the driver does that can be seen. -/
inductive Action
  | dr (c : UInt8)
  | call (callback : Callback)
  | schedule
  | nullPointer
  deriving DecidableEq, Repr

/-- **What a pass of the handler meets**: MIS; if the FIFO of the
transmitter is empty, where that is asked for; if the transmitter is busy;
what DR holds, reading by reading, until the FIFO of the receiver is empty;
and for each pass of the loop that fills the transmitter, how many octets
there is room for, and that it has room after each but the last. -/
structure Seen where
  mis : UInt64
  txEmpty : Bool
  txBusy : Bool
  received : List UInt64
  rooms : List ℕ
  requests : Callback → List Request

/-! ## Constants -/

def lcrhWlenMask : UInt64 := 0x60
def lcrhFen : UInt64 := 0x10
def lcrhStp2 : UInt64 := 0x08
def lcrhEps : UInt64 := 0x04
def lcrhPen : UInt64 := 0x02
def lcrhBrk : UInt64 := 0x01

def crCtsen : UInt64 := 0x8000
def crRtsen : UInt64 := 0x4000
def crOut2 : UInt64 := 0x2000
def crOut1 : UInt64 := 0x1000
def crRts : UInt64 := 0x800
def crDtr : UInt64 := 0x400
def crRxe : UInt64 := 0x200
def crTxe : UInt64 := 0x100
def crLbe : UInt64 := 0x80
def crUarten : UInt64 := 0x1

/-- `PL011_DR_OE`, `PL011_DR_BE`, `PL011_DR_PE` and `PL011_DR_FE`. -/
def drOe : UInt64 := 0x800
def drBe : UInt64 := 0x400
def drPe : UInt64 := 0x200
def drFe : UInt64 := 0x100

def iflsRxiflselMask : UInt64 := 0x18
def iflsTxiflselMask : UInt64 := 0x3

/-- `PL011_MIS_OE` and so on. -/
def misOe : UInt64 := 0x400
def misBe : UInt64 := 0x200
def misPe : UInt64 := 0x100
def misFe : UInt64 := 0x80
def misRt : UInt64 := 0x40
def misTx : UInt64 := 0x20
def misRx : UInt64 := 0x10
def misCts : UInt64 := 0x2

/-- `ERRORS_INT_MASK` -/
def errorsIntMask : UInt64 := misOe ||| misBe ||| misPe ||| misFe

def controlLoop : UInt64 := 0x1
def controlBreak : UInt64 := 0x2
def controlRts : UInt64 := 0x4
def controlDtr : UInt64 := 0x8
def controlOut1 : UInt64 := 0x10
def controlOut2 : UInt64 := 0x20

/-- The value of a bit that is set. -/
def bitOf (reg bit value : UInt64) : UInt64 := if reg &&& bit ≠ 0 then value else 0

/-- `pl011_is_to_event`, for the bits of the errors. -/
def isToEvent (is : UInt64) : UInt64 :=
  bitOf is misOe 0x20 ||| bitOf is misPe 0x80 ||| bitOf is misFe 0x40 ||| bitOf is misBe 0x1

/-- `pl011_dr_to_event`, whose parameter is a `u8`. -/
def drToEvent (rsrecr : UInt8) : UInt64 :=
  bitOf rsrecr.toUInt64 drOe 0x20 ||| bitOf rsrecr.toUInt64 drPe 0x80 |||
    bitOf rsrecr.toUInt64 drFe 0x40 ||| bitOf rsrecr.toUInt64 drBe 0x1

/-- `rtuart_handshake_t`. -/
inductive Handshake
  | off
  | rtscts
  | dsrdtr
  | rtsctsDsrdtr
  deriving DecidableEq, Repr

end Pl011

/-- `struct rtuart_pl011`, with the buffers of the client, the registers,
whether the handler is in its loop, and the trace. -/
structure Pl011 where
  baseClock : UInt64
  notifyMask : UInt64
  txBuffer : Option ℕ
  rxBuffer : Option ℕ
  inIrq : Bool
  doTxPolling : Bool
  buffers : ℕ → RtuartBuffer
  regs : Pl011.Register → UInt64
  trace : List Pl011.Action

namespace Pl011

open Pc16c550 (Callback Request transmitterReady transmitterEmpty receiverHasdata receiverTimeout
  receiverEvent passedTriggers)

variable (s : Pl011)

def act (a : Action) : Pl011 := { s with trace := s.trace ++ [a] }

def notifies (notify : UInt64) : Bool := s.notifyMask &&& notify != 0

def setBuffer (p : ℕ) (b : RtuartBuffer) : Pl011 :=
  { s with buffers := Function.update s.buffers p b }

/-! ## The registers -/

/-- `pl011_write_register`. -/
def writeRegister (reg : Register) (value : UInt64) : Pl011 :=
  { s with regs := Function.update s.regs reg value }

/-- `pl011_change_register`. -/
def changeRegister (reg : Register) (mask value : UInt64) : Pl011 :=
  if mask ≠ 0 then
    let new := (s.regs reg &&& ~~~ mask) ||| (value &&& mask)
    if new ≠ s.regs reg then s.writeRegister reg new else s
  else s

/-- `pl011_mod_control`. -/
def modControl (lcrhMask lcrhValue crMask crValue : UInt64) : Pl011 :=
  (s.changeRegister .lcrh lcrhMask lcrhValue).changeRegister .cr crMask crValue

/-- `spl011_set_rx_fifo_level`. -/
def setRxFifoLevel (level : Int) : Pl011 :=
  s.changeRegister .ifls iflsRxiflselMask
    (if level ≤ 2 then 0x0 else if level ≤ 4 then 0x8 else if level ≤ 8 then 0x10
      else if level ≤ 12 then 0x18 else 0x20)

/-- `spl011_set_tx_fifo_level`. -/
def setTxFifoLevel (level : Int) : Pl011 :=
  s.changeRegister .ifls iflsTxiflselMask
    (if level < 4 then 0 else if level < 8 then 1 else if level < 12 then 2
      else if level < 14 then 3 else 4)

/-- `pl011_set_fifo_enable`. -/
def setFifoEnable (on : Bool) : Pl011 :=
  ((s.changeRegister .lcrh lcrhFen (if on then lcrhFen else 0)).setRxFifoLevel 4).setTxFifoLevel 8

/-- `pl011_enable_uart`. -/
def enableUart (on : Bool) : Pl011 :=
  s.modControl 0 0 (crRxe ||| crTxe ||| crUarten) (if on then crRxe ||| crTxe ||| crUarten else 0)

/-- `pl011_set_baudrate`. The line control register is written as it is. -/
def setBaudrate (baudrate : UInt64) : Pl011 :=
  let divisor := (s.baseClock * 64) / (16 * baudrate)
  let s := s.writeRegister .ibrd (divisor >>> 6).toUInt16.toUInt64
  let s := s.writeRegister .fbrd (divisor &&& 0x63)
  s.writeRegister .lcrh (s.regs .lcrh)

/-- The divisor of `pl011_get_baudrate`. -/
def divisor : UInt64 := ((s.regs .ibrd &&& 0xFFFF) <<< 6) ||| (s.regs .fbrd &&& 0x3F)

/-- `pl011_get_baudrate`, where the divisor is not zero. -/
def getBaudrate : UInt64 := (s.baseClock * 64) / (16 * s.divisor)

/-- `pl011_set_format`. -/
def setFormat (databits : Int32) (parity : UInt8) (stopbits : Int8) : Pl011 :=
  let mask := lcrhWlenMask ||| lcrhPen ||| lcrhEps ||| lcrhStp2
  let wlen := ((databits - 5) <<< 5).toUInt32.toUInt64 &&& lcrhWlenMask
  let pen := if parity = 'e'.toUInt8 then lcrhPen ||| lcrhEps
    else if parity = 'o'.toUInt8 then lcrhPen else 0
  let stp2 := if 1 < stopbits then lcrhStp2 else 0
  s.changeRegister .lcrh mask (wlen ||| pen ||| stp2)

/-- `pl011_get_format`: the data bits, the parity and the stop bits. -/
def getFormat : UInt64 × UInt8 × ℕ :=
  let lcr := s.regs .lcrh
  (((lcr >>> 5) &&& 3) + 5,
    if lcr &&& lcrhPen ≠ 0 then if lcr &&& lcrhEps ≠ 0 then 'e'.toUInt8 else 'o'.toUInt8
    else 'n'.toUInt8,
    if lcr &&& lcrhStp2 ≠ 0 then 2 else 1)

/-- `pl011_set_handshake`. -/
def setHandshake (hs : Handshake) : Pl011 :=
  let rtsctson := hs = .rtscts ∨ hs = .rtsctsDsrdtr
  s.modControl 0 0 (crCtsen ||| crRtsen) (if rtsctson then crCtsen ||| crRtsen else 0)

/-- `control_to_pl011_lcrh`. -/
def controlToLcrh (controlMask : UInt64) : UInt64 := bitOf controlMask controlBreak lcrhBrk

/-- `control_to_pl011_cr`. -/
def controlToCr (controlMask : UInt64) : UInt64 :=
  bitOf controlMask controlRts crRts ||| bitOf controlMask controlDtr crDtr |||
    bitOf controlMask controlOut1 crOut1 ||| bitOf controlMask controlOut2 crOut2 |||
    bitOf controlMask controlLoop crLbe

/-- `pl011_set_control`. -/
def setControl (controlMask : UInt64) : Pl011 :=
  let lcrh := controlToLcrh controlMask
  let cr := controlToCr controlMask
  s.modControl lcrh lcrh cr cr

/-- `pl011_clr_control`. -/
def clrControl (controlMask : UInt64) : Pl011 :=
  s.modControl (controlToLcrh controlMask) 0 (controlToCr controlMask) 0

/-- `pl011_get_control`. -/
def getControl : UInt64 :=
  bitOf (s.regs .lcrh) lcrhBrk controlBreak ||| bitOf (s.regs .cr) crRts controlRts |||
    bitOf (s.regs .cr) crDtr controlDtr ||| bitOf (s.regs .cr) crOut1 controlOut1 |||
    bitOf (s.regs .cr) crOut2 controlOut2 ||| bitOf (s.regs .cr) crLbe controlLoop

/-- `pl011_update_notification`. -/
def updateNotification : Pl011 :=
  let imsc : UInt64 := 0
  let imsc := if s.notifies receiverHasdata || s.notifies receiverTimeout then
    imsc ||| (misRt ||| misRx) else imsc
  let imsc := if s.notifies transmitterReady then imsc ||| misTx else imsc
  let imsc := if s.notifies transmitterEmpty then imsc ||| misTx else imsc
  let imsc := if s.notifies receiverEvent then imsc ||| errorsIntMask else imsc
  let imsc := if s.notifies receiverEvent then imsc ||| misCts else imsc
  let crValue :=
    if s.notifies (receiverHasdata ||| receiverTimeout ||| receiverEvent) then crRxe else 0
  (s.changeRegister .cr (crRxe ||| crTxe) (crValue ||| crTxe)).writeRegister .imsc imsc

/-! ## What the client can call -/

/-- The notifications are changed; inside the handler the registers have
to wait. -/
def changeNotify (notify : UInt64) : Pl011 :=
  if s.notifyMask ≠ notify then
    let s := { s with notifyMask := notify }
    if s.inIrq then s else s.updateNotification
  else s

/-- `pl011_set_notify`. -/
def setNotify (notify : UInt64) : Pl011 := s.changeNotify (s.notifyMask ||| notify)

/-- `pl011_clr_notify`. -/
def clrNotify (notify : UInt64) : Pl011 := s.changeNotify (s.notifyMask &&& ~~~ notify)

/-- `pl011_tx_written`. -/
def txWritten (p : ℕ) : ℕ := (s.buffers p).transfered

/-- `pl011_tx_stop`, with what it writes to `allready_written`. -/
def txStop (p : ℕ) : Pl011 × Option ℕ :=
  if s.txBuffer = some p then ({ s with txBuffer := none }, some (s.txWritten p)) else (s, none)

/-- `pl011_tx_start`. -/
def txStart (p : ℕ) : Pl011 :=
  let s := s.setBuffer p { s.buffers p with transfered := 0 }
  if (s.buffers p).size < (s.buffers p).validcount then s
  else
    let s := if s.txBuffer.isSome then (s.txStop p).1 else s
    if s.txBuffer.isNone then
      ({ s with txBuffer := some p, doTxPolling := false }.setNotify transmitterReady).act .schedule
    else s

/-- `pl011_rx_stop`. -/
def rxStop : Pl011 :=
  { s with rxBuffer := none }.clrNotify (receiverHasdata ||| receiverTimeout)

/-- `pl011_rx_start`. -/
def rxStart (p : ℕ) : Pl011 :=
  let s := if s.rxBuffer.isSome then s.rxStop else s
  let s := s.setBuffer p { s.buffers p with transfered := 0 }
  { s with rxBuffer := some p }.setNotify (receiverHasdata ||| receiverTimeout)

def perform : Request → Pl011
  | .setNotify notify => s.setNotify notify
  | .clrNotify notify => s.clrNotify notify
  | .txStart p => s.txStart p
  | .txStop p => (s.txStop p).1
  | .rxStart p => s.rxStart p
  | .rxStop => s.rxStop

/-- The client is called and asks for what it wants. -/
def call (e : Seen) (cb : Callback) : Pl011 := (e.requests cb).foldl perform (s.act (.call cb))

/-! ## The transmitter -/

/-- The next octet of the buffer goes to DR. -/
def sendOctet (p : ℕ) : Pl011 :=
  let b := s.buffers p
  (s.setBuffer p { b with transfered := b.transfered + 1 }).act (.dr (b.octet b.transfered))

/-- The loop of `copy_from_buffer_to_transmitter`, until the FIFO is full,
with the number of octets copied. -/
def copyOctets (s : Pl011) (p : ℕ) : ℕ → ℕ × Pl011
  | 0 => (0, s)
  | room + 1 =>
    let b := s.buffers p
    if b.validcount ≤ b.transfered ∨ b.size ≤ b.transfered then (0, s)
    else
      let r := (s.sendOctet p).copyOctets p room
      (r.1 + 1, r.2)

/-- `copy_from_buffer_to_transmitter`. A full FIFO ends it before the buffer
is looked at. -/
def copyFromBufferToTransmitter (room : ℕ) : ℕ × Pl011 :=
  match s.txBuffer with
  | none => if room = 0 then (0, s) else (0, s.act .nullPointer)
  | some p => s.copyOctets p room

/-- `buffer_is_complete` of the buffer that is being sent. -/
def txComplete : Bool := s.txBuffer.all fun p => (s.buffers p).isComplete

/-- The client is told of a buffer of which nothing is sent yet. -/
def callTxStart (e : Seen) : Pl011 :=
  match s.txBuffer with
  | none => s
  | some p => if (s.buffers p).transfered = 0 then s.call e (.txStart p) else s

/-- The buffer is taken away, with a notification. -/
def release (notify : UInt64) : Pl011 :=
  { s with notifyMask := s.notifyMask &&& ~~~ notify, txBuffer := none }

/-- The client is told of a buffer of which all is written. -/
def callTxEnd1 (e : Seen) : Pl011 :=
  if s.txComplete then
    let t := (s.release transmitterReady).call e (.txEnd1 s.txBuffer)
    if t.txBuffer = none ∧ t.notifies transmitterEmpty then { t with txBuffer := s.txBuffer } else t
  else s

/-- One pass of the loop of `pl011_send_as_much_as_possible`, with the
number of octets written. -/
def sendPass (e : Seen) (room : ℕ) : ℕ × Pl011 :=
  let r := (s.callTxStart e).copyFromBufferToTransmitter room
  (r.1, r.2.callTxEnd1 e)

/-- `pl011_send_as_much_as_possible`. Without any room there still is a
pass. -/
def sendAsMuchAsPossible (s : Pl011) (e : Seen) : List ℕ → Pl011
  | [] => (s.sendPass e 0).2
  | room :: rooms =>
    let r := s.sendPass e room
    let s := r.2
    if 0 < r.1 ∧ rooms ≠ [] ∧ s.notifies transmitterReady ∧
        s.txBuffer.any (fun p => (s.buffers p).transfered == 0) then
      s.sendAsMuchAsPossible e rooms
    else s

/-- `pl011_fill_transmitter`. -/
def fillTransmitter (e : Seen) : Pl011 :=
  match s.txBuffer with
  | none => s.act .nullPointer
  | some p =>
    let remaining : Int := (s.buffers p).validcount - (s.buffers p).transfered
    let s := if remaining < 2 + 2 then { s with doTxPolling := true }
      else { s with doTxPolling := false }.setTxFifoLevel (remaining - 2)
    s.sendAsMuchAsPossible e e.rooms

/-! ## The receiver -/

/-- The octet was not received as it was sent. -/
def hasError (d : UInt64) : Bool := d &&& (drOe ||| drBe ||| drPe ||| drFe ||| drOe) != 0

/-- The triggers of the buffer. -/
def handleTrigger (e : Seen) (p : ℕ) : Pl011 :=
  if (s.buffers p).triggermask ≠ 0 then
    let triggermask := passedTriggers (s.buffers p)
    if triggermask ≠ 0 then
      let s := s.call e (.rxTrigger p triggermask)
      let b := s.buffers p
      s.setBuffer p { b with triggermask := b.triggermask &&& ~~~ triggermask }
    else s
  else s

/-- An octet goes into the buffer. -/
def storeOctet (p : ℕ) (c : UInt8) : Pl011 :=
  let b := s.buffers p
  s.setBuffer p
    { b with
      data := b.data.map fun m => Function.update m b.transfered c
      transfered := b.transfered + 1 }

/-- An octet there is no buffer for. -/
def receiveChar (e : Seen) (c : UInt8) : Pl011 :=
  { s with notifyMask := s.notifyMask &&& ~~~ receiverHasdata }.call e (.rxChar c)

/-- The other callbacks for the buffer the function was called with. -/
def callRxEnd (e : Seen) (p : ℕ) (dueToTimeout : Bool) : Pl011 :=
  if (s.buffers p).isComplete then
    { s with
      rxBuffer := none
      notifyMask := s.notifyMask &&& ~~~ receiverHasdata }.call e (.rxEnd p)
  else if dueToTimeout then s.call e (.rxTimeout p)
  else s

/-- What is done with one reading of DR. The event of an octet with an error
is looked for in its lower eight bits. -/
def receive (e : Seen) (buffer : Option ℕ) (dueToTimeout : Bool) (d : UInt64) : Pl011 :=
  if hasError d then
    if drToEvent d.toUInt8 ≠ 0 then s.call e (.rxErr (drToEvent d.toUInt8)) else s
  else if s.notifies receiverHasdata then
    match buffer with
    | none => s.receiveChar e d.toUInt8
    | some p =>
      let s := if (s.buffers p).isComplete then s.receiveChar e d.toUInt8
        else (s.storeOctet p d.toUInt8).handleTrigger e p
      s.callRxEnd e p dueToTimeout
  else s

/-- `handle_received_data`. -/
def handleReceivedData (e : Seen) (buffer : Option ℕ) (dueToTimeout : Bool) : Pl011 :=
  e.received.foldl (fun s d => s.receive e buffer dueToTimeout d) s

/-! ## The interrupt handler -/

/-- The handler returns. -/
def leave : Pl011 :=
  let s := { s.updateNotification with inIrq := false }
  if s.doTxPolling then s.act .schedule else s

/-- There is no interrupt left: the client may be waiting for the
transmitter. A busy transmitter is waited for in the loop. -/
def handleNone (e : Seen) : Pl011 :=
  if s.notifies transmitterEmpty && s.txComplete then
    if e.txEmpty = false then { s with doTxPolling := true }.leave
    else if e.txBusy then s
    else ((s.release transmitterEmpty).call e (.txEnd2 s.txBuffer)).leave
  else s.leave

/-- There are octets left to be sent. -/
def haveRemainingTxData : Bool :=
  s.txBuffer.any fun p => decide ((s.buffers p).transfered < (s.buffers p).validcount)

/-- **A pass of `pl011_interrupt_handler_function`.** CTS is only
acknowledged: its client would be called if FR could not be read. -/
def step (e : Seen) : Pl011 :=
  let s := { s with inIrq := true }
  if e.mis &&& misTx = 0 ∧ s.haveRemainingTxData ∧ e.txEmpty then s.fillTransmitter e
  else if e.mis &&& (misOe ||| misBe ||| misPe ||| misFe ||| misRt ||| misTx ||| misRx ||| misCts)
      = 0 then s.handleNone e
  else if e.mis &&& (misRx ||| misRt) ≠ 0 then
    s.handleReceivedData e s.rxBuffer (e.mis &&& misRt != 0)
  else if e.mis &&& errorsIntMask ≠ 0 then s.call e (.rxErr (isToEvent (e.mis &&& errorsIntMask)))
  else if e.mis &&& misTx ≠ 0 then
    if s.notifies transmitterReady then s.fillTransmitter e else s
  else s

/-- What happens to the driver: a call of its client, or a pass of the
handler. A baud rate is not such that the driver divides by zero. -/
inductive Event
  | setBaudrate (baudrate : UInt64) (nonzero : 16 * baudrate ≠ 0)
  | setFormat (databits : Int32) (parity : UInt8) (stopbits : Int8)
  | setHandshake (hs : Handshake)
  | setControl (controlMask : UInt64)
  | clrControl (controlMask : UInt64)
  | request (r : Request)
  | pass (e : Seen)

def handle : Event → Pl011
  | .setBaudrate baudrate _ => s.setBaudrate baudrate
  | .setFormat databits parity stopbits => s.setFormat databits parity stopbits
  | .setHandshake hs => s.setHandshake hs
  | .setControl controlMask => s.setControl controlMask
  | .clrControl controlMask => s.clrControl controlMask
  | .request r => s.perform r
  | .pass e => s.step e

/-- `rtuart_pl011_create`, over what the allocator and the chip hold; the
buffers of the driver are not initialised. -/
def create (garbage : Pl011) : Pl011 :=
  let s := { garbage with notifyMask := 0, inIrq := false, doTxPolling := false }
  ((s.enableUart true).setFifoEnable true).updateNotification

end Pl011

end Dmxrtuart

end Dmx4Linux2
