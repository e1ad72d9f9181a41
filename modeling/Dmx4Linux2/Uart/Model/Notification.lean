import Mathlib.Data.Nat.Notation

/-!
# uart drivers — notifications

What a client is notified of is a mask of bits. When the mask changes, the
driver writes its interrupt enable register, IER of the 16550 or IMSC of
the PL011; the PL011 driver also switches the receiver and tells the client
that the transmitter has space. Masks are an `unsigned long`. Registers are
read without error.
-/

namespace Dmx4Linux2

namespace Uart

/-! ## `enum rtuart_notify` -/

def notifyTxready : UInt64 := 0x02
def notifyRxavailable : UInt64 := 0x04
def notifyInputchanged : UInt64 := 0x08
def notifyLineevent : UInt64 := 0x10

/-- The two drivers. -/
inductive Driver
  | pc16c550
  | pl011
  deriving DecidableEq, Repr

/-- `struct rtuart` with the registers that are used. -/
structure Notifier where
  notifyMask : UInt64
  /-- What was last written to the interrupt enable register. -/
  enabled : Option UInt64
  /-- The control register and the line control register of the PL011. -/
  cr : UInt64
  lcrh : UInt64
  /-- There is a client with a callback `transmitter_has_space`, and what
  it was called with. -/
  client : Bool
  hasSpace : List UInt32
  deriving DecidableEq, Repr

namespace Notifier

variable (u : Notifier)

/-- A test of the mask. -/
def notifies (bits : UInt64) : Bool := u.notifyMask &&& bits != 0

/-- `pc16c550_uart_update_notification`. -/
def pc16c550UpdateNotification : Notifier :=
  let v : UInt64 := 0
  let v := if u.notifies notifyRxavailable then v ||| 1 else v
  let v := if u.notifies notifyTxready then v ||| 2 else v
  let v := if u.notifies notifyLineevent then v ||| 4 else v
  let v := if u.notifies notifyInputchanged then v ||| 8 else v
  { u with enabled := some v }

/-- `PL011_CR_RXE` -/
def crRxe : UInt64 := 0x200
/-- `PL011_CR_TXE` -/
def crTxe : UInt64 := 0x100
/-- `PL011_LCRH_FEN` -/
def lcrhFen : UInt64 := 0x10

/-- `(1<<4) | (1<<6)`, the receiver and its timeout. -/
def imscRx : UInt64 := 0x050
/-- `1<<5` -/
def imscTx : UInt64 := 0x020
/-- `0xF<<7`: overrun, break, parity and framing. -/
def imscLine : UInt64 := 0x780
/-- `1<<1` -/
def imscCts : UInt64 := 0x002

/-- `pl011_get_tx_fifo_size`. -/
def txFifoSize : UInt32 := if u.lcrh &&& lcrhFen ≠ 0 then 16 else 1

/-- `pl011_uart_update_notification`. -/
def pl011UpdateNotification : Notifier :=
  let imsc : UInt64 := 0
  let imsc := if u.notifies notifyRxavailable then imsc ||| imscRx else imsc
  let startTx := u.notifies notifyTxready && imsc &&& imscTx == 0
  let imsc := if u.notifies notifyTxready then imsc ||| imscTx else imsc
  let imsc := if u.notifies notifyLineevent then imsc ||| imscLine else imsc
  let imsc := if u.notifies notifyInputchanged then imsc ||| imscCts else imsc
  let cr := if u.notifies (notifyRxavailable ||| notifyLineevent) then u.cr ||| crRxe
    else u.cr &&& ~~~ crRxe
  -- the transmitter is always needed, to change the break
  { u with
    enabled := some imsc
    cr := cr ||| crTxe
    hasSpace := if startTx && u.client then u.hasSpace ++ [u.txFifoSize] else u.hasSpace }

def updateNotification : Driver → Notifier
  | .pc16c550 => u.pc16c550UpdateNotification
  | .pl011 => u.pl011UpdateNotification

/-- `pc16c550_uart_enable_notification` and
`pl011_uart_enable_notification`. -/
def enableNotification (driver : Driver) (notifyMask : UInt64) : Notifier :=
  if u.notifyMask &&& notifyMask ≠ notifyMask then
    { u with notifyMask := u.notifyMask ||| notifyMask }.updateNotification driver
  else u

/-- `pc16c550_uart_disable_notification` and
`pl011_uart_disable_notification`. -/
def disableNotification (driver : Driver) (notifyMask : UInt64) : Notifier :=
  if u.notifyMask &&& notifyMask ≠ notifyMask then
    { u with notifyMask := u.notifyMask &&& ~~~ notifyMask }.updateNotification driver
  else u

end Notifier

end Uart

end Dmx4Linux2
