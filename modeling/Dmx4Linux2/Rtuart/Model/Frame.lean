import Dmx4Linux2.Common.Memory

/-!
# rtuart DMX client — frames

`struct dmx512frame` and what the client does to one: the tests for the
kinds of RDM frame, the replies it makes up out of a request, and the
encoding of a discovery reply, which is sent without a break and without
the packet around it. Functions that change a frame through its pointer
return the frame as they leave it.
-/

namespace Dmx4Linux2

namespace Rtuart

/-! ## `struct dmx512frame` -/

/-- The flags: those the client reads or writes, and the others, which
it carries along. -/
structure Flags where
  /-- `DMX512_FLAG_NOBREAK` -/
  noBreak : Bool
  /-- `DMX512_FLAG_IS_RDM` -/
  isRdm : Bool
  /-- `DMX512_FLAG_IS_RDM_DISC` -/
  isRdmDisc : Bool
  others : UInt16
  deriving DecidableEq, Repr

structure Frame where
  port : ℕ
  flags : Flags
  /-- In units of 4us. -/
  breaksize : ℕ
  /-- The octets behind the start code, a `uint16_t`. -/
  payloadSize : ℕ
  data : Mem

/-- A `struct dmx512_framequeue_entry`: the frame, and which object it
is. -/
structure Entry where
  id : ℕ
  frame : Frame

/-! ## RDM packets -/

def scRdm : UInt8 := 0xCC
def scSubMessage : UInt8 := 0x01
def discoveryCommand : UInt8 := 0x10
def discoveryCommandResponse : UInt8 := 0x11
/-- Used internally to indicate that no response shall be sent. -/
def responseTypeNoReply : UInt8 := 0xFF

@[simp] def dmxPosStartcode : ℕ := 0
@[simp] def rdmPosSubStartcode : ℕ := 1
@[simp] def rdmPosLength : ℕ := 2
@[simp] def rdmPosDestUid : ℕ := 3
@[simp] def rdmPosSrcUid : ℕ := 9
@[simp] def rdmPosResponseType : ℕ := 16
@[simp] def rdmPosCommandClass : ℕ := 20
@[simp] def rdmPosPid : ℕ := 21
@[simp] def rdmPosPdl : ℕ := 23
@[simp] def rdmDiscoverReplyMaxFramesize : ℕ := 24

/-- `dmx512frame_is_rdm`. -/
def isRdm (data : Mem) : Bool :=
  data dmxPosStartcode == scRdm && data rdmPosSubStartcode == scSubMessage

/-- What the tests for a discovery packet share: the command class, the
PID `DISC_UNIQUE_BRANCH` and the size of the data. -/
def isDiscUniqueBranch (data : Mem) (cc pdl : UInt8) : Bool :=
  isRdm data && data rdmPosCommandClass == cc && data rdmPosPid == 0 &&
    data (rdmPosPid + 1) == 1 && data rdmPosPdl == pdl

/-- `dmx512frame_is_rdm_discover`. -/
def isRdmDiscover (data : Mem) : Bool := isDiscUniqueBranch data discoveryCommand 12

/-- `dmx512frame_is_rdm_discover_reply`. -/
def isRdmDiscoverReply (data : Mem) : Bool :=
  isDiscUniqueBranch data discoveryCommandResponse 0

namespace Frame

variable (f : Frame)

def startcode : UInt8 := f.data dmxPosStartcode

/-- The checksum behind the packet, which is not touched when the packet
is too long for one. With no payload the high byte, which is 0, falls on
the high byte of `payload_size`, which is 0 as well. -/
def updateRdmChecksum : Frame :=
  if f.payloadSize > 255 then f
  else
    let data := (f.data.write rdmPosResponseType [responseTypeNoReply]).write rdmPosCommandClass
      [f.data rdmPosCommandClass ||| 1]
    let rdmcs := data.sum16 0 (f.payloadSize - 1)
    if f.payloadSize = 0 then { f with data := data.write 0 [UInt8.ofNat rdmcs] }
    else { f with data := data.write (f.payloadSize - 1) (beBytes 2 rdmcs) }

def updateRdmSizesFromPdl : Frame :=
  let size := rdmDiscoverReplyMaxFramesize + (f.data rdmPosPdl).toNat
  { f with
    data := f.data.write rdmPosLength [UInt8.ofNat size]
    payloadSize := size + 2 - 1 }

/-- The request turned into a reply to its sender, from a UID that the
fill byte is repeated for. -/
def rdmDiscoveryReply (fill : UInt8) : Frame :=
  let data := ((f.data.write rdmPosDestUid (f.data.read rdmPosSrcUid 6)).write rdmPosSrcUid
    (List.replicate 6 fill)).write rdmPosCommandClass [discoveryCommandResponse] |>.write rdmPosPdl [0]
  { f with data := data }.updateRdmSizesFromPdl.updateRdmChecksum

def rdmDiscoveryReplyCollision : Frame := f.rdmDiscoveryReply 0xFF

def rdmDiscoveryReplyTimeout : Frame := f.rdmDiscoveryReply 0

end Frame

/-! ## Discovery replies on the line -/

/-- What `dmx512rtuart_find_preamble` finds. -/
inductive Preamble
  /-- The separator, at a position. -/
  | found (pos : ℕ)
  /-- Only preamble bytes so far. -/
  | incomplete
  /-- Something else. -/
  | collision
  deriving DecidableEq

def findPreamble : List UInt8 → Preamble
  | [] => .incomplete
  | b :: bs =>
    if b = 0xAA then .found 0
    else if b ≠ 0xFE then .collision
    else
      match findPreamble bs with
      | .found pos => .found (pos + 1)
      | r => r

/-- Each byte is sent twice, with the odd and with the even bits set. -/
def encodeByte (b : UInt8) : List UInt8 := [0xAA ||| b, 0x55 ||| b]

/-- The data of a discovery response, with the reply as it goes on the
line stored from offset 256 on. -/
def storeDiscoveryReply (data : Mem) : Mem :=
  let data := data.write 256 (List.replicate 7 0xFE ++ [0xAA] ++
    (data.read rdmPosSrcUid 6).flatMap encodeByte)
  let checksum := data.sum16 264 12
  data.write 276 (encodeByte (UInt8.ofNat (checksum / 256)) ++ encodeByte (UInt8.ofNat checksum))

/-- The sixteen bytes from `p` on have the bits set that the encoding
sets. -/
def encodedAt (data : Mem) (p : ℕ) : Bool :=
  (List.range 8).all fun k =>
    data (p + 2 * k) &&& 0xAA == 0xAA && data (p + 2 * k + 1) &&& 0x55 == 0x55

/-- The byte that the pair at `p` encodes. -/
def decodeByte (data : Mem) (p : ℕ) : UInt8 := data p &&& data (p + 1)

/-- `dmx512rtuart_complete_rdm_discovery_reply`: the response made of the
reply received from offset 256 on and the request in front of it, or
nothing if the reply is damaged. -/
def Frame.completeRdmDiscoveryReply (f : Frame) : Option Frame :=
  let pos := findPreamble (f.data.read 256 (f.payloadSize + 1))
  let p := match pos with
    | .found i => 256 + i + 1
    | _ => 256
  let encoded : Bool := match pos with
    | .found _ => encodedAt f.data p
    | _ => true
  let crc := ((decodeByte f.data (p + 12)).toNat * 256 + (decodeByte f.data (p + 14)).toNat) % 2 ^ 16
  if encoded ∧ f.data.sum16 p 12 = crc then
    let data := (f.data.write rdmPosDestUid (f.data.read rdmPosSrcUid 6)).write rdmPosSrcUid
      ((List.range 6).map fun i => decodeByte f.data (p + 2 * i))
    let data := (data.write rdmPosCommandClass [discoveryCommandResponse]).write rdmPosPdl [0]
    let f' := { f with data := data }.updateRdmSizesFromPdl
    let rdmcs := f'.data.sum16 0 (f'.payloadSize - 1)
    some { f' with data := f'.data.write (f'.payloadSize - 1) (beBytes 2 rdmcs) }
  else none

end Rtuart

end Dmx4Linux2
