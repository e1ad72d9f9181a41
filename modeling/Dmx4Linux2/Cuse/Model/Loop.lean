import Dmx4Linux2.Cuse.Model.Daemon

/-!
# CUSE drivers — the loop device

`dmx512_cuse_loop_device`: two cards of one daemon, each of which hands
the frames written to it to the other.
-/

namespace Dmx4Linux2

namespace Cuse

open Dmx4Linux2.Core

structure LoopDevice where
  daemon : Daemon (Fin 2)
  /-- `other_card` of each of `testdmx_cards`. -/
  otherCard : Fin 2 → Option (Fin 2)

namespace LoopDevice

/-- What the daemon is asked for, and what is interrupted when a write
comes to the other card and then to its own. -/
inductive Event
  | openReq (req : Req (Fin 2)) (nonblock : Bool)
  | release (req : Req (Fin 2))
  | read (req : Req (Fin 2))
  | write (req : Req (Fin 2)) (size : ℕ) (frame : Frame) (interrupted interrupted' : Req (Fin 2) → Bool)
  | ioctl (req : Req (Fin 2)) (cmd : IoctlCmd) (args : IoctlArgs)
  | poll (req : Req (Fin 2)) (ph : Option ℕ)

variable (l : LoopDevice)

/-- The card a card is connected to, `cardno ? 0 : 1`. -/
def peer (cardno : Fin 2) : Fin 2 := if cardno ≠ 0 then 0 else 1

/-- `testdmx_init`. -/
def testdmxInit (cardno : Fin 2) : LoopDevice :=
  { l with otherCard := Function.update l.otherCard (peer cardno) (some cardno) }

/-- The device as `main` brings it up, with both cards initialised. -/
def main (garbage : ℕ → Frame) : LoopDevice :=
  ((⟨Daemon.coreInit garbage, fun _ => none⟩ : LoopDevice).testdmxInit 0).testdmxInit 1

/-- `testdmx_sendFrame`: the frame as it is goes to the other card. With
no other card the source reads through a null pointer. -/
def testdmxSendFrame (cardno : Fin 2) (frame : Frame) (interrupted : Req (Fin 2) → Bool) :
    List (Arrival (Fin 2)) :=
  (l.otherCard cardno).toList.map fun card => ⟨card, frame, interrupted⟩

/-- What the daemon is given for an event. -/
def event : Event → Cuse.Event (Fin 2)
  | .openReq req nonblock => .openReq req nonblock
  | .release req => .release req
  | .read req => .read req
  | .write req size frame interrupted interrupted' =>
    .write req size frame
      (l.testdmxSendFrame req.card (Daemon.transmitted frame) interrupted) interrupted'
  | .ioctl req cmd args => .ioctl req cmd args
  | .poll req ph => .poll req ph

def step (e : Event) : LoopDevice := { l with daemon := l.daemon.step (l.event e) }

end LoopDevice

end Cuse

end Dmx4Linux2
