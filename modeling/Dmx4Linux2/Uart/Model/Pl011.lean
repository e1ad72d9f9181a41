import Dmx4Linux2.Common.Memory

/-!
# PL011 driver

The PL011 has no register that tells how many octets are in its FIFO, so
the driver empties it into a ring of its own, with the position it stores
at and the one it takes from. Both are a `u8`, and the array is memory:
nothing but the positions keeps an access inside it.

The baud rate is set by a divisor with six fractional bits, in two
registers. There are two drivers, which differ in the type of a baud rate.
The type `u32` of both is `unsigned long`, which has 64 bits.
-/

namespace Dmx4Linux2

namespace Uart

/-- The member `rx` of `struct rtuart_pl011`. -/
structure RxFifo where
  fifo : Mem
  inptr : UInt8
  outptr : UInt8

namespace RxFifo

variable (f : RxFifo)

/-- `sizeof(pl011->rx.fifo)` -/
def sizeofFifo : ℕ := 64

/-- `pl011_rx_fifo_flush`. -/
def flush : RxFifo := { f with inptr := f.outptr }

/-- `pl011_rx_fifo_full`. -/
def full : Bool := (f.inptr.toNat + 1) &&& 63 == f.outptr.toNat

/-- `pl011_rx_fifo_empty`. -/
def empty : Bool := f.inptr == f.outptr

/-- `pl011_rx_fifo_level`. -/
def level : ℤ :=
  if f.empty then 0
  else if f.outptr < f.inptr then f.inptr.toNat - f.outptr.toNat
  else f.inptr.toNat + sizeofFifo - f.outptr.toNat

/-- `pl011_rx_fifo_put`. -/
def put (v : UInt8) : RxFifo :=
  if f.full then f
  else
    let p := f.inptr.toNat
    { f with fifo := Function.update f.fifo p v, inptr := UInt8.ofNat ((p + 1) &&& 63) }

/-- `pl011_rx_fifo_get`: the octet it stores through the pointer when it
returns 1, and nothing when it returns 0. -/
def get : Option UInt8 × RxFifo :=
  if f.empty then (none, f)
  else
    let p := f.outptr.toNat
    (some (f.fifo p), { f with outptr := UInt8.ofNat ((p + 1) &&& 63) })

end RxFifo

/-! ## The baud rate -/

/-- The registers of the divisor, and the line control register. -/
structure Pl011Registers where
  ibrd : UInt64
  fbrd : UInt64
  lcrh : UInt64
  deriving DecidableEq, Repr

namespace Pl011Registers

variable (r : Pl011Registers) (baseClock : UInt64)

/-- The end of `pl011_set_baudrate`. The divisor takes effect with a write
of the line control register, which is written as it is. -/
def writeDivisor (divisor : UInt64) : Pl011Registers :=
  { r with
    ibrd := (divisor >>> 6).toUInt16.toUInt64
    fbrd := divisor &&& 0x63
    lcrh := r.lcrh }

/-- The beginning of `pl011_get_baudrate`. -/
def readDivisor : UInt64 := ((r.ibrd &&& 0xffff) <<< 6) ||| (r.fbrd &&& 0x3f)

/-- `pl011_set_baudrate` of `uart/pl011.c`: the rate is an `unsigned int`,
and so is 16 times the rate. -/
def setBaudrate (baudrate : UInt32) : Pl011Registers :=
  r.writeDivisor ((baseClock * 64) / (16 * baudrate).toUInt64)

/-- `pl011_get_baudrate` of `uart/pl011.c`. -/
def getBaudrate : UInt32 := ((baseClock * 64) / (16 * r.readDivisor)).toUInt32

/-- `pl011_set_baudrate` of `rtuart/rtuart_pl011.c`, for an
`unsigned long`. -/
def rtuartSetBaudrate (baudrate : UInt64) : Pl011Registers :=
  r.writeDivisor ((baseClock * 64) / (16 * baudrate))

/-- `pl011_get_baudrate` of `rtuart/rtuart_pl011.c`. -/
def rtuartGetBaudrate : UInt64 := (baseClock * 64) / (16 * r.readDivisor)

end Pl011Registers

end Uart

end Dmx4Linux2
