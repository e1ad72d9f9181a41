import Dmx4Linux2.Common.Memory

/-!
# 16550 — the registers behind a bus

`dummy_bus`, the register file of a 16550. The first two register numbers
stand for the divisor latch while the bit DLAB of the line control
register is set, and what is written to the interrupt identification
register goes to the FIFO control register.
-/

namespace Dmx4Linux2

namespace Uart

/-! ## Register numbers -/

def regIer : ℕ := 1
def regIir : ℕ := 2
def regLcr : ℕ := 3
/-- `PC16550_REG_DLL` and `PC16550_REG_DLM`, while DLAB is set. -/
def regDll : ℕ := 0
def regDlm : ℕ := 1

/-- `REGNO_FCR`, which cannot be read. -/
def regnoFcr : ℕ := 8 + 2
/-- `REGNO_DLAB_LSB` and `REGNO_DLAB_MSB`, where the latch is. -/
def regnoDlabLsb : ℕ := 8 + 0
def regnoDlabMsb : ℕ := 8 + 1

/-- `PC16550_LCR_DLAB` -/
def lcrDlab : UInt8 := 0x80

/-! ## The bus -/

/-- `struct dummy_bus`. -/
structure DummyBus where
  registerValues : Mem

namespace DummyBus

variable (bus : DummyBus)

/-- `dummy_bus_init_internal_registers`, over what the allocator leaves. -/
def init (garbage : Mem) : DummyBus :=
  ⟨garbage.write 0 [0, 0, 1, 0, 0, 0x60, 0, 0, 0, 0, 0]⟩

/-- `dummy_bus_read_internal_reg`. -/
def readInternalReg (regno : ℕ) : UInt8 := bus.registerValues regno

/-- `dummy_bus_write_internal_reg`. -/
def writeInternalReg (regno : ℕ) (value : UInt8) : DummyBus :=
  -- IIR is read only, writes go to FCR
  let regno := if regno = regIir then regnoFcr else regno
  ⟨Function.update bus.registerValues regno value⟩

def dlab : Bool := bus.registerValues regLcr &&& 0x80 != 0

/-- `dummy_bus_read_reg`. -/
def readReg (regno : ℕ) : UInt8 :=
  if bus.dlab ∧ regno ≤ 1 then bus.readInternalReg (regno + 8) else bus.readInternalReg regno

/-- `dummy_bus_write_reg`. -/
def writeReg (regno : ℕ) (value : UInt8) : DummyBus :=
  if bus.dlab ∧ regno ≤ 1 then bus.writeInternalReg (regno + 8) value
  else bus.writeInternalReg regno value

/-! ## The divisor latch -/

/-- The divisor is written with DLAB set, its upper half to the register
`dlm`. -/
def setDivisor (dlm : ℕ) (lsb msb : UInt8) : DummyBus :=
  let lcr := bus.readReg regLcr
  let bus := bus.writeReg regLcr (lcr ||| lcrDlab)
  let bus := bus.writeReg regDll lsb
  let bus := bus.writeReg dlm msb
  bus.writeReg regLcr lcr

/-- It is read with DLAB set, from the register `dlm` for its upper half. -/
def getDivisor (dlm : ℕ) : (UInt8 × UInt8) × DummyBus :=
  let lcr := bus.readReg regLcr
  let bus := bus.writeReg regLcr (lcr ||| lcrDlab)
  let lsb := bus.readReg regDll
  let msb := bus.readReg dlm
  ((lsb, msb), bus.writeReg regLcr lcr)

/-- `pc16c550_set_baudrate_divisor`, whose `pc16c550_set_dlm` writes the
line control register. -/
def pc16c550SetBaudrateDivisor (divisor : UInt32) : DummyBus :=
  bus.setDivisor regLcr divisor.toUInt8 (divisor >>> 8).toUInt8

/-- `pc16c550_get_baudrate_divisor`. -/
def pc16c550GetBaudrateDivisor : UInt32 × DummyBus :=
  let ((lsb, msb), bus) := bus.getDivisor regDlm
  (lsb.toUInt32 ||| (msb.toUInt32 <<< 8), bus)

/-- `pc16x50_set_baudrate_divisor`. -/
def pc16x50SetBaudrateDivisor (divisor : UInt16) : DummyBus :=
  bus.setDivisor regDlm divisor.toUInt8 (divisor >>> 8).toUInt8

/-- `pc16x50_get_baudrate_divisor`. -/
def pc16x50GetBaudrateDivisor : UInt16 × DummyBus :=
  let ((lsb, msb), bus) := bus.getDivisor regDlm
  (lsb.toUInt16 ||| (msb.toUInt16 <<< 8), bus)

end DummyBus

end Uart

end Dmx4Linux2
