import Dmx4Linux2.Common.Around
import Dmx4Linux2.Common.Memory
import Dmx4Linux2.Cuse.Model.CardInfo

/-!
# CUSE drivers — port information

How the loop device is asked for the label of a port, and how it is told
a new one. The index of the port comes from the client, and is compared
with the number of ports and not with 0, so that a card is the memory
around it.
-/

namespace Dmx4Linux2

namespace Cuse

def idPortLabel : UInt32 := 5

/-- `struct dmx4linux2_port_info`. -/
structure PortInfo where
  cardIndex : ℤ
  portIndex : ℤ
  tupleCount : ℤ
  tuples : Option (ℕ → KeyValueTuple)

/-- The tuples, where there is a pointer and there are some behind it. -/
def PortInfo.present (info : PortInfo) : Option (ℕ → KeyValueTuple) :=
  info.tuples.filter fun _ => 0 < info.tupleCount

/-- The tuples in the order of the loops over them. -/
def PortInfo.list (info : PortInfo) : List KeyValueTuple :=
  match info.present with
  | some tuples => (List.range info.tupleCount.toNat).map tuples
  | none => []

/-! ## `struct testdmx_card` in memory -/

/-- `num_ports`, behind the pointer `other_card`. -/
def numPorts (user : Around) : ℤ := (BitVec.ofNat 32 (leNat (user.read 8 4))).toInt

/-- Where `port_labels[portIndex]` is: `customer_name` is in front of the
labels, and `num_ports` in front of that. -/
def labelAt (portIndex : ℤ) : ℤ := 8 + 4 + 64 + 64 * portIndex

/-! ## The loop device -/

/-- `supported_port_tuples` -/
def testdmxPortSupported : List UInt32 := [idPortLabel]

/-- The `switch` of `testdmx_queryPortInfo`. -/
def testdmxFillPort (user : Around) (portIndex : ℤ) (t : KeyValueTuple) : KeyValueTuple :=
  if t.key = idPortLabel then
    { t.strncpy (user.read (labelAt portIndex) 256) with changable := true, maxlength := 63#9 }
  else
    { t with key := idNone }

/-- `testdmx_queryPortInfo` -/
def testdmxQueryPortInfo (cardno : ℤ) (user : Option Around) (info : PortInfo) (portIndex : ℤ) :
    Option (ℤ × PortInfo) :=
  match user with
  | none => some (-1, info)
  | some user =>
    if portIndex ≥ numPorts user ∨ portIndex ≥ 16 then some (-1, info)
    else
      let info := { info with cardIndex := cardno, portIndex := portIndex }
      match info.present with
      | some tuples => do
        let indices := List.range info.tupleCount.toNat
        let tuples ← updateEach (replaceNone testdmxPortSupported)
          (indices.filter (· < testdmxPortSupported.length)) tuples
        let tuples ← updateEach (fun _ t => some (testdmxFillPort user portIndex t)) indices tuples
        return (0, { info with tuples := some tuples })
      | none => some (0, { info with tupleCount := testdmxPortSupported.length })

/-- The loop of `testdmx_changePortInfo`. -/
def testdmxChangeLabels (user : Around) (portIndex : ℤ) (tuples : List KeyValueTuple) : Around :=
  tuples.foldl (fun user t =>
    if t.key = idPortLabel then user.write (labelAt portIndex) (strncpy 64 t.value) else user) user

/-- `testdmx_changePortInfo` -/
def testdmxChangePortInfo (cardno : ℤ) (user : Option Around) (info : PortInfo) (portIndex : ℤ) :
    ℤ × Option Around :=
  match user with
  | none => (-1, none)
  | some user =>
    if portIndex ≥ numPorts user ∨ portIndex ≥ 16 then (-1, some user)
    else if info.cardIndex ≠ cardno then (-1, some user)
    else if info.portIndex ≠ portIndex then (-1, some user)
    else (0, some (testdmxChangeLabels user portIndex info.list))

end Cuse

end Dmx4Linux2
