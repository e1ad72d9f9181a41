import Dmx4Linux2.Common.Memory

/-!
# rtuart — receive buffers

`struct rtuart_buffer` and the functions that put octets into one. After
octets were put, the triggers of the buffer are tested and those found are
reported to the client, which is also told when the buffer is full. The
callbacks are what a call returns beside the buffer, and leave the buffer
alone.
-/

namespace Dmx4Linux2

namespace Dmxrtuart

/-- `struct rtuart_buffer`; without `data` it is not used. -/
structure RtuartBuffer where
  data : Option Mem
  size : ℕ
  validcount : ℕ
  transfered : ℕ
  triggermask : UInt64
  trigger : Fin 32 → UInt32

/-- A callback of the client. -/
inductive RxCallback
  | rxTrigger (triggermask : UInt64)
  | rxEnd
  deriving DecidableEq, Repr

/-- `1<<i`. It is an `int`, which the operators on an `unsigned long`
extend by its sign. -/
def triggerBit (i : Fin 32) : UInt64 :=
  if i.val = 31 then 0xFFFFFFFF80000000 else UInt64.ofNat (2 ^ i.val)

namespace RtuartBuffer

variable (b : RtuartBuffer)

/-- The test of one trigger in `rtuart_handle_trigger`. -/
def reaches (i : Fin 32) : Bool :=
  triggerBit i &&& b.triggermask != 0 && decide (b.validcount ≤ (b.trigger i).toNat)

/-- `rtuart_handle_trigger`. -/
def handleTrigger : RtuartBuffer × List RxCallback :=
  if b.triggermask ≠ 0 then
    let triggermask :=
      (List.finRange 32).foldl (fun m i => if b.reaches i = true then m ||| triggerBit i else m) 0
    if triggermask ≠ 0 then
      ({ b with triggermask := b.triggermask &&& ~~~ triggermask }, [.rxTrigger triggermask])
    else (b, [])
  else (b, [])

/-- `rtuart_handle_buffer_fill`; `rtuart_rx_buffer_valid` is always 1. -/
def handleBufferFill : RtuartBuffer × List RxCallback :=
  let (b, cbs) := b.handleTrigger
  (b, if b.size ≤ b.validcount then cbs ++ [.rxEnd] else cbs)

/-- An octet behind those that are there. -/
def store (c : UInt8) : RtuartBuffer :=
  { b with
    data := b.data.map fun m => Function.update m b.validcount c
    validcount := b.validcount + 1 }

/-- `rtuart_buffer_put`. -/
def put (c : UInt8) : RtuartBuffer × List RxCallback :=
  if b.data.isSome ∧ b.validcount < b.size then (b.store c).handleBufferFill else (b, [])

/-- The loop of `rtuart_buffer_put_vector`. -/
def storeVector (b : RtuartBuffer) : List UInt8 → RtuartBuffer
  | [] => b
  | c :: cs => if b.validcount < b.size then (b.store c).storeVector cs else b

/-- `rtuart_buffer_put_vector`, with the number of octets stored or -1,
which it returns. -/
def putVector (cs : List UInt8) : ℤ × RtuartBuffer × List RxCallback :=
  if b.data.isSome then
    let stored := b.storeVector cs
    (stored.validcount - b.validcount, stored.handleBufferFill)
  else (-1, b, [])

end RtuartBuffer

end Dmxrtuart

end Dmx4Linux2
