import Dmx4Linux2.Core.Model.Framequeue
import Mathlib.Data.List.Basic
import Mathlib.Logic.Function.Basic

/-!
# dmx512 kernel core — devices, ports and frames

The kernel core: devices with their ports and receive queues, the pool
of frames, the file operations of a device and what a driver calls. A
driver that is given a frame to send has it in its hands, as it has a
frame it got from the pool, until it returns it; the dummy driver, which
connects the ports of two devices, passes it on at once.

Devices and ports are named by their addresses. An operation is one step:
what a reader or writer has in a local variable is back in a queue when
it returns. A port that was freed keeps the null pointer that was written
to its `device` before.
-/

namespace Dmx4Linux2

namespace Kernel

open Dmx4Linux2.Core

/-- Whose `send_frame` a port has. -/
inductive Sender
  | dummy
  | driver
  deriving DecidableEq

/-- `struct dmx512_port`. -/
structure Port (δ π : Type) where
  device : Option δ
  sendFrame : Sender
  /-- There is a `transmitter_has_space`. -/
  transmitterHasSpace : Bool
  userptr : Option π

/-- `struct dmx512_device`. -/
structure Device (π : Type) where
  /-- `misc_register` succeeded, and the device was not unregistered. -/
  registered : Bool
  ports : List π
  rxframequeue : Framequeue

inductive Errno
  | enomem | einval | eagain
  deriving DecidableEq

structure State (δ π : Type) where
  freeFramequeue : Framequeue
  dmx512Devices : List δ
  devices : δ → Device π
  ports : π → Port δ π
  /-- What the drivers have got and not yet returned. -/
  hands : List Entry

/-- How a copy from or to user space ends: what is in the target after a
copy from user space that failed is left open. -/
inductive Copy
  | done (frame : Frame)
  | fault (left : Frame)

namespace State

variable {δ π : Type}

/-- `dmx512_core_init`. -/
def coreInit (garbage : ℕ → Frame) : State δ π where
  freeFramequeue := allocated 16 garbage
  dmx512Devices := []
  devices := fun _ => ⟨false, [], []⟩
  ports := fun _ => ⟨none, .driver, false, none⟩
  hands := []

variable [DecidableEq δ] [DecidableEq π] (s : State δ π)

def setDevice (dev : δ) (device : Device π) : State δ π :=
  { s with devices := Function.update s.devices dev device }

def setPort (port : π) (p : Port δ π) : State δ π :=
  { s with ports := Function.update s.ports port p }

/-! ## Ports -/

/-- `_dmx512_port_by_index`. -/
def portByIndex (dev : δ) (index : ℕ) : Option π := (s.devices dev).ports[index]?

/-- `_dmx512_port_index`: the place of a port among those of its device,
or -1, as it is stored in the `port` of a frame. -/
def portIndex (port : π) : UInt16 :=
  match (s.ports port).device with
  | none => 0xFFFF
  | some dev =>
    match (s.devices dev).ports.idxOf? port with
    | none => 0xFFFF
    | some index => UInt16.ofNat index

/-- `_dmx512_add_port`. -/
def addPort (dev : δ) (port : π) : State δ π :=
  (s.setPort port { s.ports port with device := some dev }).setDevice dev
    { s.devices dev with ports := (s.devices dev).ports ++ [port] }

/-! ## Frames -/

/-- The part of `dmx512_received_frame` for a port with a device. -/
def enqueue (port : π) (dev : δ) (e : Entry) : State δ π :=
  s.setDevice dev { s.devices dev with
    rxframequeue := (s.devices dev).rxframequeue.put
      (some { e with frame := { e.frame with port := s.portIndex port } }) }

/-- `dmx512_received_frame`; it fails if there is no port, or the port
has no device. -/
def receivedFrame (port : Option π) (e : Entry) : Option (State δ π) :=
  match port with
  | none => none
  | some port => (s.ports port).device.map fun dev => s.enqueue port dev e

/-- `dmx512_put_frame`. -/
def putFrame (e : Entry) : State δ π :=
  { s with freeFramequeue := s.freeFramequeue.put (some e) }

/-- `dmx512_dummy_send_frame`: what `dmx512_received_frame` returns is
not looked at. -/
def dummySendFrame (port : π) (e : Entry) : State δ π :=
  match (s.ports port).userptr with
  | none => s
  | some dst => (s.receivedFrame (some dst) e).getD s

def sendFrame (port : π) (e : Entry) : State δ π :=
  match (s.ports port).sendFrame with
  | .dummy => s.dummySendFrame port e
  | .driver => { s with hands := s.hands ++ [e] }

/-! ## File operations -/

/-- The part of `dmx512_device_read` after an entry was taken off the
queue: the frame the client gets, or none if 0 is returned. -/
def readRest (e : Entry) (fault : Bool) : Except Errno (Option Frame) × State δ π :=
  (.ok (if fault then none else some e.frame), s.putFrame e)

/-- `dmx512_device_read`. A read that waits is one that has not happened
yet; if it finds nothing all the same it was woken up by a signal. -/
def deviceRead (dev : δ) (size : ℕ) (nonblock fault : Bool) :
    Except Errno (Option Frame) × State δ π :=
  if size < sizeofFrame then (.error .einval, s)
  else
    match (s.devices dev).rxframequeue with
    | [] => (if nonblock then .error .eagain else .ok none, s)
    | e :: q => (s.setDevice dev { s.devices dev with rxframequeue := q }).readRest e fault

/-- The part of `dmx512_device_write` after an entry was taken out of the
pool, for a write of `size` bytes; `space` is what the
`transmitter_has_space` of the port says. -/
def writeRest (dev : δ) (e : Entry) (size : ℕ) (copy : Copy) (space : Bool) :
    Except Errno ℕ × State δ π :=
  if size < sizeofFrame then (.error .einval, s.putFrame e)
  else
    match copy with
    | .fault left => (.error .einval, s.putFrame { e with frame := left })
    | .done frame =>
      let e := { e with frame := frame }
      match s.portByIndex dev frame.port.toNat with
      | none => (.error .einval, s.putFrame e)
      | some port =>
        if (s.ports port).transmitterHasSpace ∧ ¬ space then (.error .eagain, s.putFrame e)
        else (.ok sizeofFrame, s.sendFrame port e)

/-- `dmx512_device_write`. -/
def deviceWrite (dev : δ) (size : ℕ) (copy : Copy) (space : Bool) :
    Except Errno ℕ × State δ π :=
  match s.freeFramequeue with
  | [] => (.error .enomem, s)
  | e :: pool => ({ s with freeFramequeue := pool } : State δ π).writeRest dev e size copy space

/-- What `dmx512_device_write` does up to the `send_frame` of the port:
what it returns, the state it leaves and the calls it makes. -/
def writeCalls (dev : δ) (size : ℕ) (copy : Copy) (space : Bool) :
    Except Errno ℕ × State δ π × List (π × Entry) :=
  match s.freeFramequeue with
  | [] => (.error .enomem, s, [])
  | e :: pool =>
    let s : State δ π := { s with freeFramequeue := pool }
    if size < sizeofFrame then (.error .einval, s.putFrame e, [])
    else
      match copy with
      | .fault left => (.error .einval, s.putFrame { e with frame := left }, [])
      | .done frame =>
        let e := { e with frame := frame }
        match s.portByIndex dev frame.port.toNat with
        | none => (.error .einval, s.putFrame e, [])
        | some port =>
          if (s.ports port).transmitterHasSpace = false ∨ space then
            (.ok sizeofFrame, s, [(port, e)])
          else (.error .eagain, s.putFrame e, [])

/-! ## Registration -/

/-- `_register_dmx512_device`; `err` is that `misc_register` fails. -/
def registerDevice (dev : δ) (err : Bool) : State δ π :=
  { s.setDevice dev ⟨!err, [], Framequeue.init⟩ with dmx512Devices := dev :: s.dmx512Devices }

/-- `_unregister_dmx512_device`. -/
def unregisterDevice (dev : δ) : State δ π :=
  let removed := (s.devices dev).ports.foldl
    (fun s port => s.setPort port { s.ports port with device := none }) s
  { removed.setDevice dev ⟨false, [], (s.devices dev).rxframequeue.cleanup⟩ with
    dmx512Devices := s.dmx512Devices.erase dev }

/-! ## The dummy driver -/

/-- The loop of `create_dummy_dmx_device`. -/
def addDummyPorts (dev : δ) (ports : List π) : State δ π :=
  ports.foldl (fun s port => (s.setPort port ⟨some dev, .dummy, false, none⟩).addPort dev port) s

/-- `create_dummy_dmx_device`, with the addresses the device and its
ports are allocated at. -/
def createDummyDmxDevice (dev : δ) (ports : List π) (err : Bool) : State δ π :=
  let s := s.registerDevice dev err
  if err then s else s.addDummyPorts dev ports

/-- The pass of the loop of `dmx512_dummy_driver_init` for one index. -/
def connectAt (dmx0 dmx1 : δ) (i : ℕ) : State δ π :=
  let p0 := s.portByIndex dmx0 i
  let p1 := s.portByIndex dmx1 i
  let s := match p0 with
    | some p => s.setPort p { s.ports p with userptr := p1 }
    | none => s
  match p1 with
  | some p => s.setPort p { s.ports p with userptr := p0 }
  | none => s

/-- The loop of `dmx512_dummy_driver_init`. -/
def connect (dmx0 dmx1 : δ) (portsCount : ℕ) : State δ π :=
  (List.range portsCount).foldl (fun s i => s.connectAt dmx0 dmx1 i) s

/-- `dmx512_dummy_driver_init`, with the addresses the devices and their
ports are allocated at; `err0` and `err1` are that a device cannot be
registered. -/
def dummyDriverInit (dmx0 dmx1 : δ) (ports0 ports1 : List π) (portsCount : ℕ)
    (err0 err1 : Bool) : State δ π :=
  let s := s.createDummyDmxDevice dmx0 ports0 err0
  if err0 then s
  else
    let s := s.createDummyDmxDevice dmx1 ports1 err1
    if err1 then s.unregisterDevice dmx0 else s.connect dmx0 dmx1 portsCount

end State

/-! ## Events -/

/-- What users and drivers do. A driver returns or reports an entry it
has in its hands, which is named by its number. -/
inductive Event (δ π : Type)
  | read (dev : δ) (size : ℕ) (nonblock fault : Bool)
  | write (dev : δ) (size : ℕ) (copy : Copy) (space : Bool)
  | register (dev : δ) (err : Bool)
  | unregister (dev : δ)
  /-- A driver creates a port and adds it. -/
  | addPort (dev : δ) (port : π) (transmitterHasSpace : Bool)
  | createDummy (dev : δ) (ports : List π) (err : Bool)
  | connect (dmx0 dmx1 : δ) (portsCount : ℕ)
  | getFrame
  | putFrame (id : ℕ)
  /-- A driver reports a frame it has written to an entry. -/
  | receivedFrame (port : Option π) (id : ℕ) (frame : Frame)

variable {δ π : Type} [DecidableEq δ] [DecidableEq π]

/-- The kernel after an event. A device is registered if it is not, and
unregistered or given ports if it is. -/
def State.step (s : State δ π) : Event δ π → State δ π
  | .read dev size nonblock fault => (s.deviceRead dev size nonblock fault).2
  | .write dev size copy space => (s.deviceWrite dev size copy space).2
  | .register dev err => if (s.devices dev).registered then s else s.registerDevice dev err
  | .unregister dev => if (s.devices dev).registered then s.unregisterDevice dev else s
  | .addPort dev port transmitterHasSpace =>
    if (s.devices dev).registered then
      (s.setPort port ⟨some dev, .driver, transmitterHasSpace, none⟩).addPort dev port
    else s
  | .createDummy dev ports err =>
    if (s.devices dev).registered then s else s.createDummyDmxDevice dev ports err
  | .connect dmx0 dmx1 portsCount => s.connect dmx0 dmx1 portsCount
  | .getFrame =>
    match s.freeFramequeue with
    | [] => s
    | e :: pool => { s with freeFramequeue := pool, hands := s.hands ++ [e] }
  | .putFrame id =>
    match s.hands.find? (·.id = id) with
    | none => s
    | some e => { s with hands := s.hands.eraseP (·.id = id) }.putFrame e
  | .receivedFrame port id frame =>
    match s.hands.find? (·.id = id) with
    | none => s
    | some e =>
      (({ s with hands := s.hands.eraseP (·.id = id) } : State δ π).receivedFrame port
        { e with frame := frame }).getD s

end Kernel

end Dmx4Linux2
