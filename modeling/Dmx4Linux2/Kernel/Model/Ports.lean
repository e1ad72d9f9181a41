import Dmx4Linux2.Common.Circular
import Mathlib.Data.Int.Notation

/-!
# dmx512 kernel core — devices, ports and their pointers

The lists of the kernel core as they are in memory: `dmx512_devices` and
`dmx512_ports`, and for each device the list of its ports. A device is linked
through `devicelist_item`, a port through `device_item` and `portlist_item`.
A loop over a list is given the number of its passes, and fails when they do
not suffice. Names, `misc_register` and the receive queues are not about the
lists.
-/

namespace Dmx4Linux2

namespace Kernel

/-- A `struct list_head`: a head, or the member of a device or a port. -/
inductive ListHead (δ π : Type)
  | devices
  | portlist
  | ports (dev : δ)
  | devicelistItem (dev : δ)
  | deviceItem (port : π)
  | portlistItem (port : π)
  deriving DecidableEq, Repr

/-- The pointers, `device` of each port, and what `kfree` was called with. -/
structure PortMemory (δ π : Type) where
  links : Links (ListHead δ π)
  device : π → Option δ
  freed : List π

namespace PortMemory

variable {δ π : Type} [DecidableEq δ] [DecidableEq π] (m : PortMemory δ π)

/-- `dmx512_create_port`, with the address the allocator gives. -/
def createPort (dev : δ) (port : π) : PortMemory δ π :=
  { m with device := Function.update m.device port (some dev) }

/-- `_dmx512_add_port`. -/
def addPort (dev : δ) (port : π) : PortMemory δ π :=
  let m := { m with device := Function.update m.device port (some dev) }
  let m := { m with links := m.links.listAddTail (.deviceItem port) (.ports dev) }
  { m with links := m.links.listAddTail (.portlistItem port) .portlist }

/-- `_dmx512_remove_port`. -/
def removePort (port : π) : PortMemory δ π :=
  let m := { m with links := m.links.listDel (.deviceItem port) }
  let m := { m with links := m.links.listDel (.portlistItem port) }
  { m with device := Function.update m.device port none }

/-- `kfree` of a port. -/
def free (port : π) : PortMemory δ π := { m with freed := m.freed ++ [port] }

/-- `dmx512_delete_port`. -/
def deletePort (port : π) : PortMemory δ π := (m.removePort port).free port

/-- `_register_dmx512_device`. -/
def registerDevice (dev : δ) : PortMemory δ π :=
  let m := { m with links := m.links.initListHead (.ports dev) }
  { m with links := m.links.listAdd (.devicelistItem dev) .devices }

/-- The loop of `_unregister_dmx512_device`, with `port` and `tmp` as the
members they are linked through. -/
def removePorts (dev : δ) : ℕ → PortMemory δ π → (port tmp : ListHead δ π) →
    Option (PortMemory δ π)
  | 0, _, _, _ => none
  | passes + 1, m, port, tmp =>
    if port = .ports dev then some m
    else
      match port with
      | .deviceItem p =>
        let m := m.deletePort p
        removePorts dev passes m tmp (m.links.next tmp)
      | _ => none

/-- `_unregister_dmx512_device`. -/
def unregisterDevice (passes : ℕ) (dev : δ) : Option (PortMemory δ π) :=
  let first := m.links.next (.ports dev)
  (removePorts dev passes m first (m.links.next first)).map fun m =>
    { m with links := m.links.listDel (.devicelistItem dev) }

/-- The loop of `_dmx512_port_index`, from a member on. -/
def portIndexFrom (dev : δ) (port : π) : ℕ → ℤ → ListHead δ π → Option ℤ
  | 0, _, _ => none
  | passes + 1, index, p =>
    if p = .ports dev then some (-1)
    else if p = .deviceItem port then some index
    else portIndexFrom dev port passes (index + 1) (m.links.next p)

/-- `_dmx512_port_index`. A port without a device is a null pointer that is
followed. -/
def portIndex (passes : ℕ) : Option π → Option ℤ
  | none => some (-1)
  | some port =>
    match m.device port with
    | none => none
    | some dev => m.portIndexFrom dev port passes 0 (m.links.next (.ports dev))

/-- The loop of `_dmx512_port_by_index`. -/
def portByIndexFrom (dev : δ) (index : ℤ) : ℕ → ℤ → ListHead δ π → Option (Option π)
  | 0, _, _ => none
  | passes + 1, i, p =>
    if p = .ports dev then some none
    else
      match p with
      | .deviceItem port =>
        if index = i then some (some port)
        else portByIndexFrom dev index passes (i + 1) (m.links.next p)
      | _ => none

/-- `_dmx512_port_by_index`. -/
def portByIndex (passes : ℕ) (dev : Option δ) (index : ℤ) : Option (Option π) :=
  match dev with
  | none => some none
  | some dev => m.portByIndexFrom dev index passes 0 (m.links.next (.ports dev))

end PortMemory

/-- A call of a driver; a pointer that may be `NULL` is nothing then. -/
inductive PortCall (δ π : Type)
  | registerDevice (dev : δ)
  | unregisterDevice (dev : Option δ)
  | createPort (dev : δ) (port : π)
  | addPort (dev : δ) (port : π)
  | removePort (port : π)
  | deletePort (port : Option π)
  | portIndex (port : Option π)
  | portByIndex (dev : Option δ) (index : ℤ)

/-- What a call returns. -/
inductive PortAnswer (π : Type)
  | done
  | index (index : ℤ)
  | port (port : Option π)
  deriving DecidableEq, Repr

namespace PortMemory

variable {δ π : Type} [DecidableEq δ] [DecidableEq π] (m : PortMemory δ π)

/-- A call, with so many passes for its loop. -/
def exec (passes : ℕ) : PortCall δ π → Option (PortMemory δ π × PortAnswer π)
  | .registerDevice dev => some (m.registerDevice dev, .done)
  | .unregisterDevice none => some (m, .done)
  | .unregisterDevice (some dev) => (m.unregisterDevice passes dev).map (·, .done)
  | .createPort dev port => some (m.createPort dev port, .done)
  | .addPort dev port => some (m.addPort dev port, .done)
  | .removePort port => some (m.removePort port, .done)
  | .deletePort none => some (m, .done)
  | .deletePort (some port) => some (m.deletePort port, .done)
  | .portIndex port => (m.portIndex passes port).map fun index => (m, .index index)
  | .portByIndex dev index => (m.portByIndex passes dev index).map fun port => (m, .port port)

def execAll (passes : ℕ) : PortMemory δ π → List (PortCall δ π) →
    Option (PortMemory δ π × List (PortAnswer π))
  | m, [] => some (m, [])
  | m, c :: cs => do
    let (m, a) ← m.exec passes c
    let (m, as) ← execAll passes m cs
    some (m, a :: as)

/-- The core is loaded: the two lists are empty, and the rest of the memory
is what it is. -/
def start (garbage : PortMemory δ π) : PortMemory δ π :=
  { garbage with links := (garbage.links.initListHead .devices).initListHead .portlist, freed := [] }

end PortMemory

end Kernel

end Dmx4Linux2
