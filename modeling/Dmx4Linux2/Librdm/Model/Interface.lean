import Dmx4Linux2.Core.Model.Framequeue
import Dmx4Linux2.Librdm.Model.Packet

/-!
# librdm — the interface to a device

`Dmx4Linux2Interface`, which writes frames of librdm to a device and
passes on the frames it reads from it.
-/

namespace Dmx4Linux2

namespace Librdm

/-- The frame that `Dmx4Linux2Interface::handle` writes. -/
def Interface.handle (f : DmxData) : Core.Frame where
  port := 0
  flags := 0
  breaksize := 0
  payloadSize := UInt16.ofNat (f.size - 1)
  data := Vector.ofFn fun i => if i < f.size then f.data i else 0
  timestamp := ⟨0, 0⟩
  backTimestamp := ⟨0, 0⟩

/-- `Dmx4Linux2::DmxData`: the data of a frame that was read, with what
lies behind the frame. -/
def Interface.dmxData (behind : Mem) (frame : Core.Frame) : DmxData where
  data := fun i => (frame.data[i]?).getD (behind i)
  size := frame.payloadSize.toNat + 1

end Librdm

end Dmx4Linux2
