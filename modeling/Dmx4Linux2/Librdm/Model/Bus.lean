import Dmx4Linux2.Librdm.Model.Packet

/-!
# librdm — devices and the bus

`RdmDevice` answers RDM requests; `DmxBus` connects one master to any
number of slaves. The bus hands a frame of the master to every slave in
turn, collects what they send back while it does so, and condenses the
replies into at most one frame for the master. A frame sent in answer is
the result of `handle` here, where the source calls the receiver back.
-/

namespace Dmx4Linux2

namespace Librdm

/-- A buffer whose header was cleared by `memset`. The bytes behind the
header are not initialised by the source and are 0 here; every byte of a
frame built in it is written before it is sent. -/
def clearedBuffer : Mem := fun _ => 0

/-! ## `RdmDevice` -/

/-- The fields of `RdmDeviceP` that requests read or write. -/
structure RdmDevice where
  myUid : ℕ
  muted : Bool
  deviceModelId : UInt16
  productCategory : UInt16
  softwareVersion : UInt32
  dmx512Footprint : UInt16
  dmx512Personality : UInt16
  dmxAddress : UInt16
  identifyOn : UInt8
  deriving DecidableEq

namespace RdmDevice

/-- The constructor. -/
def new (myUid : ℕ) : RdmDevice where
  myUid := myUid
  muted := false
  deviceModelId := 0x4711
  productCategory := 0
  softwareVersion := 0x12345678
  dmx512Footprint := 20
  dmx512Personality := 0
  dmxAddress := 0
  identifyOn := 0

variable (d : RdmDevice) (rdm : PacketDecoder)

/-- The encoder every reply starts from. -/
def reply (cc pid : ℕ) : PacketEncoder :=
  ((((PacketEncoder.new clearedBuffer 256).source d.myUid).destination rdm.source).commandClass
    cc).pid pid |>.responseType responseTypeAck

/-- The reply to a discovery request. -/
def discoveryReply (pid : ℕ) : DmxData :=
  (d.reply rdm discoveryCommandResponse pid).finalize.frame

def handleDiscUniqueBranch : Option DmxData :=
  if d.muted then none
  else
    match rdm.pdAt 0 6, rdm.pdAt 6 6 with
    | some lo, some hi =>
      if d.myUid ≥ lo ∧ d.myUid ≤ hi then some (d.discoveryReply rdm discUniqueBranch) else none
    | _, _ => none

/-- `m.muted = on`. -/
def setMuted (on : Bool) : RdmDevice := { d with muted := on }

/-- `DISC_MUTE` and `DISC_UN_MUTE`: set the flag, and reply unless the
request was broadcast. -/
def handleMute (pid : ℕ) (on : Bool) : RdmDevice × Option DmxData :=
  (d.setMuted on,
    if rdm.destination ≠ broadcast then some (d.discoveryReply rdm pid) else none)

def handleDiscovery : RdmDevice × Option DmxData :=
  if rdm.pid = discUniqueBranch then (d, d.handleDiscUniqueBranch rdm)
  else if rdm.pid = discMute then d.handleMute rdm discMute true
  else if rdm.pid = discUnMute then d.handleMute rdm discUnMute false
  -- the proxy and status parameters are only logged
  else (d, none)

/-- The parameter data of a get response; the response type instead, for
an unknown parameter. -/
def getReply (e : PacketEncoder) : PacketEncoder :=
  if rdm.pid = deviceInfo then
    e.addPdU16 0x100 |>.addPdU16 d.deviceModelId |>.addPdU16 d.productCategory
      |>.addPdU32 d.softwareVersion |>.addPdU16 d.dmx512Footprint
      |>.addPdU16 d.dmx512Personality |>.addPdU16 d.dmxAddress |>.addPdU16 0 |>.addPdU8 0
  else if rdm.pid = softwareVersionLabel then
    -- "V1.0.0"
    e.addPdStr [0x56, 0x31, 0x2E, 0x30, 0x2E, 0x30]
  else if rdm.pid = dmxStartAddress then e.addPdU16 d.dmxAddress
  else if rdm.pid = identifyDevice then e.addPdU8 d.identifyOn
  else e.responseType responseTypeUnknownPid

def handleGet : RdmDevice × Option DmxData :=
  (d, some (d.getReply rdm (d.reply rdm getCommandResponse deviceInfo)).finalize.frame)

/-- The device after a set request. -/
def applySet : RdmDevice :=
  if rdm.pid = dmxStartAddress then
    match rdm.pdAt 0 2 with
    | some v => { d with dmxAddress := UInt16.ofNat v }
    | none => d
  else if rdm.pid = identifyDevice then
    match rdm.pdAt 0 1 with
    | some v => { d with identifyOn := UInt8.ofNat v }
    | none => d
  else if rdm.pid = 0xFEED then
    match rdm.pdAt 0 6 with
    | some v => { d with myUid := v }
    | none => d
  else d

/-- The response to a set request: its header is that of a get response,
written before the request is applied. -/
def setReply : PacketEncoder :=
  let e := d.reply rdm getCommandResponse deviceInfo
  if rdm.pid = dmxStartAddress ∨ rdm.pid = identifyDevice ∨ rdm.pid = 0xFEED then e
  else e.responseType responseTypeUnknownPid

def handleSet : RdmDevice × Option DmxData :=
  (d.applySet rdm, some (d.setReply rdm).finalize.frame)

/-- `RdmDevice::handle`: the device afterwards and the reply it sent. -/
def handle (f : DmxData) : RdmDevice × Option DmxData :=
  let rdm := PacketDecoder.ofData f
  if rdm.isRdm && (rdm.isRequest && rdm.itIsForMe d.myUid) then
    if rdm.commandClass = discoveryCommand then d.handleDiscovery rdm
    else if rdm.commandClass = getCommand then d.handleGet rdm
    else if rdm.commandClass = setCommand then d.handleSet rdm
    else (d, none)
  else (d, none)

end RdmDevice

/-! ## `DmxBus` -/

structure DmxBus where
  slaves : List RdmDevice
  masterRequestActive : Bool
  rxqueue : List (List UInt8)

namespace DmxBus

/-- A bus with devices attached and nothing pending. -/
def new (slaves : List RdmDevice) : DmxBus := ⟨slaves, false, []⟩

/-- A frame sent by a slave is queued while a request is active. -/
def handleSlave (bus : DmxBus) (f : DmxData) : DmxBus :=
  if bus.masterRequestActive then { bus with rxqueue := bus.rxqueue ++ [f.bytes] } else bus

/-- Hand a frame to each of `ds` in turn. -/
def handleSlaves (f : DmxData) : List RdmDevice → DmxBus → List RdmDevice × DmxBus
  | [], bus => ([], bus)
  | d :: ds, bus =>
    let bus' := match (d.handle f).2 with
      | some r => bus.handleSlave r
      | none => bus
    let rest := handleSlaves f ds bus'
    ((d.handle f).1 :: rest.1, rest.2)

/-- The synthesized answer to a discovery request: 0xF..F on collision
and 0 on timeout. -/
def mergedReply (rdm : PacketDecoder) (replies : ℕ) : DmxData :=
  ((((PacketEncoder.new clearedBuffer 256).source (if replies > 1 then broadcast else 0)).destination
    rdm.source).commandClass discoveryCommandResponse).pid discUniqueBranch |>.finalize.frame

/-- What the master is handed for the replies collected, when they are
not exactly one. -/
def condense (rdm : PacketDecoder) (rxqueue : List (List UInt8)) : List DmxData :=
  if rdm.isRdm && rdm.isRequest && rdm.commandClass == discoveryCommand &&
      rdm.pid == discUniqueBranch then
    [mergedReply rdm rxqueue.length]
  else if rxqueue.length > 0 then [DmxData.ofVector (rxqueue.headD [])]
  else []

/-- `DmxBusP::handleMaster`: the bus afterwards and the frames it handed
to the master. -/
def handleMaster (bus : DmxBus) (f : DmxData) : DmxBus × List DmxData :=
  let polled := handleSlaves f bus.slaves { bus with masterRequestActive := true }
  let bus' : DmxBus := { polled.2 with slaves := polled.1, masterRequestActive := false }
  if bus'.rxqueue.length = 1 then
    ({ bus' with rxqueue := [] }, [DmxData.ofVector (bus'.rxqueue.headD [])])
  else
    ({ bus' with rxqueue := [] }, condense (PacketDecoder.ofData f) bus'.rxqueue)

end DmxBus

end Librdm

end Dmx4Linux2
