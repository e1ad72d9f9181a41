import Dmx4Linux2.Kernel.Model.Core

/-!
# dmx512 kernel core — who registers devices

The kernel together with the memory that the devices are in. Drivers
create devices, register and unregister them and delete them;
`create_dummy_dmx_device` frees a device that could not be registered.
A device is registered when it is not, and unregistered when it is, and a
registered device is not deleted: no driver calls it otherwise, and such
a call does nothing here.
-/

namespace Dmx4Linux2

namespace Kernel

open Dmx4Linux2.Core

structure Registry (δ π : Type) where
  kernel : State δ π
  /-- There is a device at this address, which was not freed. -/
  allocated : δ → Bool

/-- What a driver asks for; `err` is that `misc_register` fails. -/
inductive Request (δ π : Type)
  /-- `dmx512_create_device`, with the address the allocator gives. -/
  | create (dev : δ)
  | register (dev : δ) (err : Bool)
  | unregister (dev : δ)
  /-- `dmx512_delete_device`. -/
  | delete (dev : δ)
  /-- `create_dummy_dmx_device`. -/
  | createDummy (dev : δ) (ports : List π) (err : Bool)

namespace Registry

variable {δ π : Type}

/-- The core is loaded, and there are no devices. -/
def init (garbage : ℕ → Frame) : Registry δ π := ⟨State.coreInit garbage, fun _ => false⟩

variable [DecidableEq δ] [DecidableEq π] (r : Registry δ π)

def registered (dev : δ) : Bool := (r.kernel.devices dev).registered

def step : Request δ π → Registry δ π
  | .create dev =>
    if r.allocated dev then r else { r with allocated := Function.update r.allocated dev true }
  | .register dev err =>
    if r.allocated dev ∧ r.registered dev = false then
      { r with kernel := r.kernel.registerDevice dev err }
    else r
  | .unregister dev =>
    if r.registered dev then { r with kernel := r.kernel.unregisterDevice dev } else r
  | .delete dev =>
    if r.registered dev then r else { r with allocated := Function.update r.allocated dev false }
  | .createDummy dev ports err =>
    if r.allocated dev then r
    else
      { kernel := r.kernel.createDummyDmxDevice dev ports err
        -- a device that could not be registered is freed
        allocated := Function.update r.allocated dev (!err) }

end Registry

/-- What `dmx512_dummy_driver_init` asks for, with the addresses its two
devices and their ports are allocated at. -/
def dummyDriverRequests {δ π : Type} (dmx0 dmx1 : δ) (ports0 ports1 : List π) (err0 err1 : Bool) :
    List (Request δ π) :=
  .createDummy dmx0 ports0 err0 ::
    if err0 then []
    else .createDummy dmx1 ports1 err1 :: if err1 then [.unregister dmx0, .delete dmx0] else []

end Kernel

end Dmx4Linux2
