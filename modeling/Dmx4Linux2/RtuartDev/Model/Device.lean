import Dmx4Linux2.Dmxrtuart.Model.Pl011

/-!
# rtuart_dev — a uart as a character device

The character device of `rtuart_dev.c` around the driver of the PL011. The
callbacks of the driver become events, which are linked into a list from
`event_head` on and are taken off it by the readers. Requests and passes of
the handler come one after the other here; their threads share the list
without a lock. What `malloc` returns is part of the event; a process that
follows a null pointer or divides by zero is dead. A reader is given the
bytes of a `struct rtuart_read_event`, here the event.
-/

namespace Dmx4Linux2

namespace RtuartDev

open Dmxrtuart (RtuartBuffer Pl011)
open Dmxrtuart.Pc16c550 (Callback)
open Dmxrtuart.Pl011 (Action Seen)

/-- `struct rtuart_read_event`. The number of a buffer is never filled in. -/
inductive ReadEvent
  | txStart
  | txEnd1
  | txEnd2
  | inputChange (eventmask values : UInt64)
  | rxErr (errorMask : UInt64)
  | rxChar (c : UInt16)
  | rxEnd
  | rxTimeout
  | rxTrigger (triggerMask : UInt64)
  deriving DecidableEq, Repr

/-- A pointer variable: `event_head`, or `next` of an entry. -/
inductive Cell
  | eventHead
  | next (entry : ℕ)
  deriving DecidableEq

/-- The device: the driver, the pointers of the list, the entries that are
allocated, `event_tail`, and whether the process is dead. -/
structure Device where
  uart : Pl011
  cells : Cell → Option ℕ
  entries : ℕ → Option ReadEvent
  eventTail : Option ℕ
  dead : Bool

/-- The requests that set something, with a value. -/
inductive SetCommand
  | fmt
  | baudrate
  | control
  | clrControl
  | notify
  | clrNotify
  deriving DecidableEq, Repr

/-- The requests that get one. -/
inductive GetCommand
  | fmt
  | baudrate
  | control
  | notify
  deriving DecidableEq, Repr

/-- What a request is answered with. -/
inductive Reply
  | open
  | event (e : ReadEvent)
  | nothing
  | write (size : ℕ)
  | retry
  | done
  | value (v : UInt64)
  deriving DecidableEq, Repr

/-- What comes to the device: a request, of which a set has its value and a
get its space only the second time it is made, or a pass of the handler,
with what `malloc` returns for each of its callbacks. A write of nothing
does not come to it. -/
inductive Event
  | open
  | read
  | write (data : List UInt8) (nonempty : data ≠ [])
  | set (cmd : SetCommand) (value : Option UInt64)
  | get (cmd : GetCommand) (space : Bool)
  /-- `RTUART_IOCTL_TX_ENABLE`, `RTUART_IOCTL_RX_ENABLE` and what is unknown. -/
  | unhandled
  | pass (mis : UInt64) (txEmpty txBusy : Bool) (received : List UInt64) (rooms : List ℕ)
      (mallocs : List (Option ℕ))

namespace Device

variable (s : Device)

/-! ## The list of events -/

/-- `add_event`. -/
def addEvent (e : ℕ) : Device :=
  let cells := Function.update s.cells (.next e) none
  let cells := s.eventTail.elim cells fun t => Function.update cells (.next t) (some e)
  { s with
    cells := if cells .eventHead = none then Function.update cells .eventHead (some e) else cells
    eventTail := some e }

/-- `get_event`. -/
def getEvent : Option ℕ × Device :=
  match s.cells .eventHead with
  | none => (none, s)
  | some e =>
    let cells := Function.update s.cells .eventHead (s.cells (.next e))
    (some e, { s with
      cells := cells, eventTail := if cells .eventHead = none then none else s.eventTail })

/-- What a callback puts into its event. `rtuart_dev_rx_char` leaves the
octet out. -/
def eventOf : Callback → ReadEvent
  | .txStart _ => .txStart
  | .txEnd1 _ => .txEnd1
  | .txEnd2 _ => .txEnd2
  | .inputChange eventmask values => .inputChange eventmask values
  | .rxErr errmask => .rxErr errmask
  | .rxChar _ => .rxChar 0
  | .rxTrigger _ triggermask => .rxTrigger triggermask
  | .rxEnd _ => .rxEnd
  | .rxTimeout _ => .rxTimeout

/-- A callback, `rtuart_dev_tx_start` and so on. -/
def callback (cb : Callback) : Option ℕ → Device
  | none => s
  | some e => { s with entries := Function.update s.entries e (some (eventOf cb)) }.addEvent e

/-- The callbacks of a pass. -/
def callbacks (s : Device) : List (Callback × Option ℕ) → Device
  | [] => s
  | (cb, m) :: cbs => (s.callback cb m).callbacks cbs

/-! ## Requests -/

/-- The buffer of `cusetest_write`, on its stack. -/
def writeBuffer (data : List UInt8) : RtuartBuffer where
  data := some fun i => data.getD i 0
  size := 0
  validcount := data.length
  transfered := 0
  triggermask := 3
  trigger i := if i.val = 0 then 2 else if i.val = 1 then 12 else 0

/-- `cusetest_write`. -/
def write (data : List UInt8) : Device :=
  { s with uart := (s.uart.setBuffer 0 (writeBuffer data)).txStart 0 }

/-- The ioctls that set something. -/
def set (cmd : SetCommand) (value : UInt64) : Device :=
  match cmd with
  | .fmt =>
    let databits := (value >>> 16).toUInt8.toUInt32.toInt32
    { s with uart := s.uart.setFormat databits (value >>> 8).toUInt8 value.toUInt8.toInt8 }
  | .baudrate =>
    if 16 * value = 0 then { s with dead := true }
    else { s with uart := s.uart.setBaudrate value }
  | .control => { s with uart := s.uart.setControl value }
  | .clrControl => { s with uart := s.uart.clrControl value }
  | .notify => { s with uart := s.uart.setNotify value }
  | .clrNotify => { s with uart := s.uart.clrNotify value }

/-- What is replied to those that get something. The format is not asked
for. -/
def get : GetCommand → UInt64
  | .fmt => 0
  | .baudrate => s.uart.getBaudrate
  | .control => s.uart.getControl
  | .notify => s.uart.notifyMask

/-! ## The device -/

/-- The callbacks among some actions of the driver. -/
def calls (as : List Action) : List Callback :=
  as.filterMap fun
    | .call cb => some cb
    | _ => none

/-- A pass of the handler, whose client asks for nothing in a callback. -/
def pass (e : Seen) (mallocs : List (Option ℕ)) : Device :=
  let uart := s.uart.step e
  let new := uart.trace.drop s.uart.trace.length
  let s := { s with uart := uart }.callbacks ((calls new).zip mallocs)
  { s with dead := new.contains .nullPointer }

/-- The state behind an event, -/
def serve : Event → Device
  | .open => s
  | .read =>
    match s.getEvent with
    | (none, s) => s
    | (some e, s) => { s with entries := Function.update s.entries e none }
  | .write data _ => s.write data
  | .set _ none => s
  | .set cmd (some value) => s.set cmd value
  | .get .baudrate true => if 16 * s.uart.divisor = 0 then { s with dead := true } else s
  | .get _ _ => s
  | .unhandled => s
  | .pass mis txEmpty txBusy received rooms mallocs =>
    s.pass ⟨mis, txEmpty, txBusy, received, rooms, fun _ => []⟩ mallocs

/-- and what is replied, if there is a reply. -/
def answer : Event → Option Reply
  | .open => some .open
  | .read => some ((s.cells .eventHead).elim .nothing fun e => (s.entries e).elim .nothing .event)
  | .write data _ => some (.write data.length)
  | .set _ none => some .retry
  | .set _ (some _) => some .done
  | .get _ false => some .retry
  | .get cmd true => some (.value (s.get cmd))
  | .unhandled => none
  | .pass .. => none

/-- A dead process serves nothing. -/
def step (ev : Event) : Device := if s.dead then s else s.serve ev

/-- Nor does it reply, also when it dies of the request. -/
def reply (ev : Event) : Option Reply :=
  if s.dead || (s.step ev).dead then none else s.answer ev

/-- The device when it is started, with what `rtuart_pl011_create` found in
its memory and in the chip. -/
def create (garbage : Pl011) : Device :=
  ⟨Pl011.create garbage, fun _ => none, fun _ => none, none, false⟩

end Device

end RtuartDev

end Dmx4Linux2
