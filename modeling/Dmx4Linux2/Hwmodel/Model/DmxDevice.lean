import Dmx4Linux2.Common.Memory
import Dmx4Linux2.Common.Serial

/-!
# hardware model — the device on the dmx bus

The device of `dmx_device.c` is asked for the level of the line with every
half clock of the simulation. A rising edge of the led starts a frame, which
is put together in `dmxbits`, a bit of the line in each bit of it.
`dmxDeviceHandler` is a handler the dmx bus of the hardware model takes.
-/

namespace Dmx4Linux2

namespace Hwmodel

/-- `struct dmx_device_s`. -/
structure DmxDevice where
  counterNs : UInt64
  lastTxen : UInt8
  lastLed : UInt8
  enabled : Bool
  bitcount : ℕ
  slot1Value : UInt8
  rx : Bool
  dmxbitsCount : ℕ
  dmxbits : Mem

namespace DmxDevice

/-- The octet of a slot of the frame; the first is the start code. -/
def slotValue (slot1 : UInt8) (i : ℕ) : UInt8 := if i = 1 then slot1 else UInt8.ofNat i

/-- The two bytes of a slot. -/
def slotBytes (value : UInt8) : List UInt8 :=
  [value <<< 1, 0xFE + if value &&& 0x80 ≠ 0 then 1 else 0]

/-- The bytes that `setup_dmx_frame` writes. -/
def frameBytes (slot1 : UInt8) : List UInt8 :=
  [0, 0, 0xC0] ++ (List.range 25).flatMap fun i => slotBytes (slotValue slot1 i)

variable (dmx : DmxDevice)

/-- `setup_dmx_frame`. -/
def setupDmxFrame (slot1 : UInt8) : DmxDevice :=
  { dmx with
    dmxbits := dmx.dmxbits.write 0 (frameBytes slot1)
    dmxbitsCount := 8 * (3 + 2 + 2 * 24) }

/-- A bit of `dmxbits`. -/
def bitAt (dmxbits : Mem) (n : ℕ) : Bool := (dmxbits (n / 8)).toBitVec.getLsbD (n % 8)

/-- The level of the line is found. -/
def handleBit : DmxDevice :=
  if dmx.enabled then
    if dmx.counterNs % (25 * 16 * 2) = 0 then
      if dmx.dmxbitsCount < dmx.bitcount then
        { dmx with enabled := false, bitcount := dmx.bitcount + 1 }
      else { dmx with rx := bitAt dmx.dmxbits dmx.bitcount, bitcount := dmx.bitcount + 1 }
    else dmx
  else { dmx with rx := true }

/-- `!dmx->last_led & led`. -/
def edge (led : UInt8) : Bool := (if dmx.lastLed = 0 then 1 else 0) &&& led != 0

/-- A rising edge of the led. -/
def handleLed (led : UInt8) : DmxDevice :=
  if dmx.edge led then
    { dmx with enabled := true, bitcount := 0, slot1Value := dmx.slot1Value + 1 }.setupDmxFrame
      (dmx.slot1Value + 1)
  else dmx

/-- `dmxDeviceHandler`. The level is found before the led is looked at. -/
def dmxDeviceHandler (dmx : DmxDevice) (txen _tx led : UInt8) : Int32 × DmxDevice :=
  let dmx := { dmx with counterNs := dmx.counterNs + 1 }.handleBit
  (if dmx.rx then 1 else 0, { dmx.handleLed led with lastTxen := txen, lastLed := led })

/-- `init_dmx_device`, of a device in memory that is zero. -/
def init : DmxDevice :=
  { counterNs := 0, lastTxen := 0, lastLed := 0, enabled := false, bitcount := 0, slot1Value := 0,
    rx := false, dmxbitsCount := 0, dmxbits := fun i => if i < 128 then 0xFF else 0
    : DmxDevice }.setupDmxFrame 0

/-- A call of the handler. -/
structure Call where
  txen : UInt8
  tx : UInt8
  led : UInt8

/-- The state behind a call, -/
def step (c : Call) : DmxDevice := (dmx.dmxDeviceHandler c.txen c.tx c.led).2

/-- and the level of the line. -/
def level (c : Call) : Int32 := (dmx.dmxDeviceHandler c.txen c.tx c.led).1

end DmxDevice

end Hwmodel

end Dmx4Linux2
