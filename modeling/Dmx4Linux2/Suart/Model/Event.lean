import Dmx4Linux2.Rtuart.Model.Frame

/-!
# suart — events

The events that go through the two FIFOs of a stream UART, the functions
that make them, and the lists of events that the DMX port sends: those of
a frame, those that initialise the port, and those that change DTR. The
layout of RDM packets and the encoding of a byte of a discovery reply are
those of the rtuart client.
-/

namespace Dmx4Linux2

namespace Suart

open Rtuart

/-- `SUART_OCTETS_PER_INLINE_DATA_CHUNK` -/
@[simp] def octetsPerInlineDataChunk : ℕ := 14

/-- The octets of a `STREAMUART_EVENT_DATA_INLINE`. -/
structure Inline where
  octets : List UInt8
  length_le : octets.length ≤ octetsPerInlineDataChunk
  deriving DecidableEq

theorem length_singleton_le (octet : UInt8) : [octet].length ≤ octetsPerInlineDataChunk :=
  Nat.succ_le_succ (Nat.zero_le 13)

/-- `struct suart_event_s`; the octets behind the pointer of a data event
stand for the pointer. -/
inductive Event
  | shutdown
  | echo (eventid : UInt32)
  | setBaudrate (value : UInt32)
  | getBaudrate (value : UInt32)
  | setFormat (databits : UInt8) (parity : Char) (stopbits : UInt8)
  | getFormat (databits : UInt8) (parity : Char) (stopbits : UInt8)
  | setHandshake
  | getHandshake
  | data (octets : List UInt8)
  | dataInline (chunk : Inline)
  | enableTx
  | disableTx
  | enableRx
  | disableRx
  | changeLine (mask value : UInt32)
  | enableNotification
  | disableNotification
  | linestatus (mask value : UInt32)
  deriving DecidableEq

def lineRts : UInt32 := 0x001
def lineDtr : UInt32 := 0x004
def lineOut0 : UInt32 := 0x040
def lineOut1 : UInt32 := 0x080
def lineGpio0 : UInt32 := 0x100

/-! ## Data events -/

/-- The first octets, as many as go into one event. -/
def Inline.front (octets : List UInt8) : Inline :=
  ⟨octets.take octetsPerInlineDataChunk, List.length_take_le ..⟩

/-- The loop of `suart_event_data_inline`, over what remains. -/
def inlineEvents (remain : List UInt8) : List Event :=
  match remain with
  | [] => []
  | b :: bs =>
    .dataInline (Inline.front (b :: bs)) ::
      inlineEvents ((b :: bs).drop octetsPerInlineDataChunk)
termination_by remain.length
decreasing_by
  simp only [octetsPerInlineDataChunk, List.length_drop, List.length_cons]
  omega

/-- `suart_event_data_inline`: the events, or none if there are to be
more than `maxevents`. -/
def eventDataInline (maxevents : ℕ) (octets : List UInt8) : Option (List Event) :=
  if (octets.length + 6) / octetsPerInlineDataChunk > maxevents then none
  else some (inlineEvents octets)

/-! ## Frames -/

/-- `dmx512_is_rdm_discover_reply`. -/
def isRdmDiscoverReply (dmxdata : Mem) : Bool :=
  isDiscUniqueBranch dmxdata discoveryCommandResponse 0

/-- `dmx512_calculate_rdm_checksum`. -/
def calculateRdmChecksum (octets : List UInt8) : ℕ := (octets.map UInt8.toNat).sum % 2 ^ 16

/-- The reply of a discovery response as it goes on the line. -/
def encodeDiscoverReply (dmxdata : Mem) : List UInt8 :=
  let uid := (dmxdata.read rdmPosSrcUid 6).flatMap encodeByte
  let checksum := calculateRdmChecksum uid
  List.replicate 7 0xFE ++ [0xAA] ++ uid ++ encodeByte (UInt8.ofNat (checksum / 256)) ++
    encodeByte (UInt8.ofNat checksum)

/-- `DMX512_FLAG_NOBREAK` -/
def flagNoBreak : UInt32 := 0x01

/-- The break in front of a frame: an octet of zeros at 100500 baud. -/
def breakEvents : List Event :=
  [.setFormat 8 'n' 1, .setBaudrate 100500, .dataInline ⟨[0], by decide⟩, .setFormat 8 'n' 2,
    .setBaudrate 250000]

/-- The direction is switched around what a frame starts with and its
octets. -/
def frameEvents (maxevents : ℕ) (start : List Event) (octets : List UInt8) :
    Option (List Event) :=
  match eventDataInline (maxevents - 13) octets with
  | none => none
  | some [] => none
  | some events =>
    some ([.disableRx, .enableTx, .changeLine lineRts lineRts] ++ start ++ events ++
      [.changeLine lineRts 0, .disableTx, .enableRx, .echo 1])

/-- `dmx512suart_create_frame`: the events, or none if there is no space
for them or there is nothing to send. -/
def createFrame (maxevents : ℕ) (flags : UInt32) (dmxdata : Mem) (payloadCount : ℕ) :
    Option (List Event) :=
  if 13 + (payloadCount + 13) / 14 > maxevents then none
  else if isRdmDiscoverReply dmxdata then
    frameEvents maxevents [] (encodeDiscoverReply dmxdata)
  else
    frameEvents maxevents (if flags &&& flagNoBreak = 0 then breakEvents else [])
      (dmxdata.read 0 payloadCount)

/-- `dmx512suart_send_init_events`. -/
def sendInitEvents : List Event :=
  [.setFormat 8 'n' 2, .setBaudrate 250000, .disableTx, .enableRx,
    .changeLine (lineRts ||| lineDtr) lineDtr, .echo 12345678]

/-- `dmx512suart_set_dtr`. -/
def setDtr (value : Bool) : List Event := [.changeLine lineDtr (if value then lineDtr else 0)]

end Suart

end Dmx4Linux2
