import Dmx4Linux2.Rtuart.Model.Frame

/-!
# Buffer-based rtuart DMX port

The DMX port of `t_dmxrtuart.c` over the receiver of a 16550, which fills
a buffer that the port has registered with it and calls back when
triggers are passed and when the buffer is full. The frame in the receive
slot, the port's buffer and the buffer pointer of the UART are three
things, and each callback changes some of them. Calls to the UART and to
the framework are kept in a log. Frames are numbered as they are
allocated or accepted. A process that follows a null pointer is dead:
what is left of its port does not matter.
-/

namespace Dmx4Linux2

namespace Dmxrtuart

open Rtuart

/-! ## RDM -/

/-- `RDM_POS_DISC_UNIQUE_BANCH_DATA`: replies to a discovery are sent and
received behind the packet. -/
@[simp] def rdmPosDiscUniqueBranchData : ℕ := 256 + 2

def getCommand : UInt8 := 0x20
def setCommand : UInt8 := 0x30
def responseTypeAck : UInt8 := 0x00

/-- `dmx512_is_rdm_request`. -/
def isRdmRequest (data : Mem) : Bool :=
  isRdm data && (data rdmPosCommandClass == discoveryCommand ||
    data rdmPosCommandClass == getCommand || data rdmPosCommandClass == setCommand)

/-- `dmx512_rdm_frame_dest`. -/
def rdmFrameDest (data : Mem) : ℕ := beNat (data.read rdmPosDestUid 6)

/-- `dmx512_rdm_build_rdmdiscovery_reply`. -/
def buildRdmdiscoveryReply (data : Mem) : List UInt8 :=
  let reply := List.replicate 7 0xFE ++ [0xAA] ++ (data.read rdmPosSrcUid 6).flatMap encodeByte
  let checksum := ((reply.drop 8).map UInt8.toNat).sum % 2 ^ 16
  reply ++ encodeByte (UInt8.ofNat (checksum / 256)) ++ encodeByte (UInt8.ofNat checksum)

/-! ## `slot_count_lock_t` -/

/-- The counts are bit fields of 6 and 10 bits. -/
structure SlotCountLock where
  enabled : Bool
  locked : Bool
  requiredCount : ℕ
  matchingFrameCount : ℕ
  matchingSlotCount : ℕ
  deriving DecidableEq

namespace SlotCountLock

/-- `slot_count_lock__init`. -/
def init : SlotCountLock := ⟨false, false, 10, 0, 0⟩

variable (l : SlotCountLock)

/-- `slot_count_lock__lost_lock`. -/
def lostLock : SlotCountLock :=
  { l with locked := false, matchingFrameCount := 0, matchingSlotCount := 0 }

/-- `slot_count_lock__received_frame`. -/
def receivedFrame (frame : Frame) : SlotCountLock :=
  if l.enabled && frame.startcode == 0 then
    if l.locked then
      if frame.payloadSize ≠ l.matchingSlotCount then l.lostLock else l
    else if l.matchingFrameCount ≠ 0 ∧ l.matchingSlotCount = frame.payloadSize then
      if l.matchingFrameCount = l.requiredCount then { l with locked := true }
      else { l with matchingFrameCount := (l.matchingFrameCount + 1) % 2 ^ 6 }
    else { l with matchingFrameCount := 1, matchingSlotCount := frame.payloadSize % 2 ^ 10 }
  else l

end SlotCountLock

/-! ## `struct dmx512_uart_port` -/

/-- `enum dmx512_uart_state`. -/
inductive PortState
  | down | idle | idleAfterDmxdata00
  | expectStartcode | receiveDmxdata
  | transmitBreakOneway | transmitDataOneway
  | transmitBreakTwoway | transmitDataTwoway
  | recvRdmdiscReply | recvRdmdiscReplyCollision
  | expectRdmReplyBreak | recvRdmReplyData
  deriving DecidableEq, Repr

/-- `struct rtuart_buffer` of the receiver. Of the triggers the port uses
the first two; a trigger is there if its bit of `triggermask` is set. -/
structure Buffer where
  /-- The frame `data` points into, and where. -/
  frame : Option ℕ
  offset : ℕ
  size : ℕ
  validcount : ℕ
  transfered : ℕ
  trigger0 : Option ℕ
  trigger1 : Option ℕ
  deriving DecidableEq

/-- A call the port makes. -/
inductive Action
  /-- `dmx512_put_frame` of a frame. -/
  | putFrame (e : Entry)
  /-- `dmx512_received_frame` of a frame. -/
  | receivedFrame (e : Entry)
  | rxStart
  | rxStop
  | txStart (octets : List UInt8)
  /-- `RTUART_NOTIFY_RECEIVER_EVENT` and `RTUART_NOTIFY_RECEIVER_HASDATA`
  are set or cleared. -/
  | notify (event hasdata : Bool) (on : Bool)
  | enableRs485Transmitter (on : Bool)
  | sendBreak
  | startRdmTimer (us : ℕ)
  | stopRdmTimer

structure Port where
  state : PortState
  /-- `tx.frame` -/
  tx : Option Entry
  /-- `rx.frame` -/
  rx : Option Entry
  /-- `rx.buffer` -/
  buffer : Buffer
  /-- Whether the buffer is registered with the UART. -/
  registered : Bool
  lock : SlotCountLock
  /-- How many frames were allocated or accepted so far. -/
  next : ℕ
  log : List Action
  dead : Bool

namespace Port

/-- `dmx512_rtuart_client_create`. -/
def create : Port where
  state := .idle
  tx := none
  rx := none
  buffer := ⟨none, 0, 0, 0, 0, none, none⟩
  registered := false
  lock := ⟨true, false, 10, 0, 0⟩
  next := 0
  log := []
  dead := false

variable (p : Port)

def act (a : Action) : Port := { p with log := p.log ++ [a] }

/-- `dmx512_put_frame`; giving back no frame does nothing. -/
def putFrame (e : Option Entry) : Port :=
  match e with
  | none => p
  | some e => p.act (.putFrame e)

/-- `dmx512_received_frame`; handing up no frame does nothing. -/
def receivedFrame (e : Option Entry) : Port :=
  match e with
  | none => p
  | some e => p.act (.receivedFrame e)

/-- A frame as `dmx512_get_frame` allocates it. -/
def blankFrame : Frame := ⟨0, ⟨false, false, false, 0⟩, 0, 0, fun _ => 0⟩

/-! ## Receiving -/

/-- `dmx512_rtuart_complete_rxframe`: the frame leaves the slot. -/
def completeRxframe : Port × Option Entry :=
  ({ p with rx := none }, p.rx.map fun e =>
    { e with frame := { e.frame with payloadSize := (p.buffer.transfered + 2 ^ 16 - 1) % 2 ^ 16 } })

/-- `rtuart_rx_stop`. -/
def rxStop : Port := { p with registered := false }.act .rxStop

/-- `rtuart_rx_start` of the port's buffer; a buffer that is registered
is stopped first. -/
def rxStart : Port :=
  let p := if p.registered then p.rxStop else p
  { p with buffer := { p.buffer with transfered := 0 }, registered := true }.act .rxStart

/-- `dmx512_rtuart_start_receive_data`; `got` says whether
`dmx512_get_frame` returned a frame. -/
def startReceiveData (bufferOffset : ℕ) (startcodeTrigger : Bool) (got : Bool) : Port :=
  let p := p.act (.notify true true true)
  if got then
    { p with
      next := p.next + 1
      rx := some ⟨p.next, blankFrame⟩
      buffer := { p.buffer with
        frame := some p.next
        offset := bufferOffset
        size := 513 - bufferOffset
        validcount := 513 - bufferOffset
        trigger0 := if startcodeTrigger then some 1 else p.buffer.trigger0
        trigger1 := if startcodeTrigger then none else p.buffer.trigger1 } }.rxStart
  else { p with rx := none }

/-! ## Replies to a discovery -/

/-- `dmx512_rtuart_discovery_reply`: the request is turned into a reply
and handed up, and what was received given back. A request that is not
there is written to through a null pointer. -/
def discoveryReply (src : List UInt8) (ack : UInt8) : Port :=
  let reply (e : Entry) : Entry :=
    let data := (e.frame.data.write rdmPosDestUid (e.frame.data.read rdmPosSrcUid 6)).write
      rdmPosSrcUid src
    let data := (data.write rdmPosResponseType [ack]).write rdmPosCommandClass
      [discoveryCommandResponse]
    { e with frame := { e.frame with data := data } }
  match p.tx with
  | none => { p with dead := true }
  | some request =>
    let q := { p with tx := none, rx := none }
    (q.putFrame p.rx).receivedFrame (some (reply request))

def discoveryReplyCollision : Port := p.discoveryReply (List.replicate 6 0xFF) responseTypeAck

def discoveryReplyTimeout : Port := p.discoveryReply (List.replicate 6 0) responseTypeNoReply

/-- The position behind the preamble and its separator, in what was
received from `rdmPosDiscUniqueBranchData` on. -/
def preambleEnd (data : Mem) (transfered : ℕ) : Option ℕ :=
  let octets := data.read rdmPosDiscUniqueBranchData transfered
  let j := (octets.takeWhile (· ≠ 0xFE)).length
  let j := j + ((octets.drop j).takeWhile (· = 0xFE)).length
  if data (rdmPosDiscUniqueBranchData + j) ≠ 0xAA then none else some (j + 1)

/-- The octets that eight pairs encode from `pos` on, if each pair has the
bits set that the encoding sets. -/
def decodePairs (data : Mem) (pos : ℕ) : Option (List UInt8) :=
  if encodedAt data pos then some ((List.range 8).map fun i => decodeByte data (pos + 2 * i))
  else none

/-- Octets are counted, of an earlier reception, and there is no frame: none
was allocated for this one. -/
def lacksFrame : Bool := p.rx.isNone && 0 < p.buffer.transfered

/-- `dmx512_rtuart_handle_discovery_reply`. The octets that are counted are
printed first, whatever the state is. -/
def handleDiscoveryReply : Port :=
  let data : Mem := match p.rx with
    | some e => e.frame.data
    | none => fun _ => 0
  if p.lacksFrame then { p with dead := true }
  else if p.state = .recvRdmdiscReplyCollision then p.discoveryReplyCollision
  else if p.buffer.transfered = 0 then p.discoveryReplyTimeout
  else
    match preambleEnd data p.buffer.transfered with
    | none => p.discoveryReplyCollision
    | some j =>
      if p.buffer.transfered < j + 16 then p.discoveryReplyCollision
      else
        let pos := rdmPosDiscUniqueBranchData + j
        match decodePairs data pos with
        | none => p.discoveryReplyCollision
        | some tmp =>
          if beNat (tmp.drop 6) ≠ data.sum16 pos 12 then p.discoveryReplyCollision
          else p.discoveryReply (tmp.take 6) responseTypeAck

/-- `dmx512_rtuart_handle_rdm_reply_timeout`. -/
def handleRdmReplyTimeout : Port :=
  let q := { p with tx := none, rx := none }
  (q.putFrame p.rx).receivedFrame p.tx

/-! ## Callbacks -/

/-- `dmx512_rtuart_tx_end2`. -/
def txEnd2 (got : Bool) : Port :=
  match p.state with
  | .transmitDataOneway =>
    let p := p.act (.enableRs485Transmitter false)
    let q := { p with tx := none }.putFrame p.tx
    { q.act (.notify true false true) with state := .idle }
  | .transmitDataTwoway =>
    let p := p.act (.enableRs485Transmitter false)
    match p.tx with
    | some e =>
      if isRdmDiscover e.frame.data then
        { p with state := .recvRdmdiscReply }.startReceiveData rdmPosDiscUniqueBranchData false got
      else { p.act (.notify true false true) with state := .expectRdmReplyBreak }
    | none => { p with state := .idle }
  | _ => p

/-- `dmx512_rtuart_rx_err`. -/
def rxErr (isBreak : Bool) (got : Bool) : Port :=
  if isBreak then
    match p.state with
    | .idle | .idleAfterDmxdata00 =>
      { p with state := .expectStartcode }.startReceiveData 0 true got
    | .expectRdmReplyBreak =>
      { p with state := .recvRdmReplyData }.startReceiveData 0 true got
    | .receiveDmxdata =>
      let q :=
        match p.rx with
        | none => p
        | some _ =>
          let r := p.rxStop.completeRxframe
          let lock := match r.2 with
            | some e =>
              if e.frame.startcode = 0 then p.lock.receivedFrame e.frame else p.lock
            | none => p.lock
          { r.1 with lock := lock }.receivedFrame r.2
      { q with state := .expectStartcode }.startReceiveData 0 true got
    | .recvRdmdiscReply => { p with state := .recvRdmdiscReplyCollision }
    | .down | .expectStartcode | .transmitDataOneway | .transmitDataTwoway | .recvRdmReplyData
    | .transmitBreakOneway | .transmitBreakTwoway | .recvRdmdiscReplyCollision => p
  else p

/-- `dmx512_rtuart_rx_char`. -/
def rxChar : Port :=
  if p.state = .idleAfterDmxdata00 then
    { p with
      lock := if p.lock.matchingSlotCount < 512 then p.lock.lostLock else p.lock
      state := .idle }
  else p

/-- `dmx512_rtuart_rx_end`. -/
def rxEnd : Port :=
  match p.rx with
  | none => p
  | some e =>
    match p.state with
    | .receiveDmxdata =>
      let r := p.completeRxframe
      { r.1 with
        state := if e.frame.startcode = 0 then .idleAfterDmxdata00 else .idle }.receivedFrame r.2
    | .recvRdmReplyData =>
      let q := { p with tx := none }.putFrame p.tx
      let r := q.completeRxframe
      { r.1.receivedFrame r.2 with state := .idle }
    | .recvRdmdiscReply | .recvRdmdiscReplyCollision =>
      { (p.act .stopRdmTimer).handleDiscoveryReply with state := .idle }
    | .down | .idle | .idleAfterDmxdata00 | .expectStartcode | .transmitBreakOneway
    | .transmitDataOneway | .transmitBreakTwoway | .transmitDataTwoway | .expectRdmReplyBreak => p

/-- The octet at an offset of the buffer, which is registered with the UART
when it reports a trigger: it points into a frame. One that was given back
reads as 0. -/
def bufferAt (i : ℕ) : UInt8 :=
  match p.rx with
  | some e => if p.buffer.frame = some e.id then e.frame.data (p.buffer.offset + i) else 0
  | none => 0

/-- The length of an RDM packet is known: the buffer ends behind it. -/
def limitToLength : Port :=
  if p.bufferAt rdmPosSubStartcode = scSubMessage then
    { p with buffer := { p.buffer with validcount := (p.bufferAt rdmPosLength).toNat + 2 } }
  else p

/-- The start code of an RDM packet was seen. -/
def expectLength : Port :=
  if p.buffer.transfered > rdmPosLength then p.limitToLength
  else { p with buffer := { p.buffer with trigger1 := some rdmPosLength } }

/-- `dmx512_rtuart_rx_trigger`, for the first two bits of the mask. -/
def rxTrigger (trigger0 trigger1 : Bool) : Port :=
  let p :=
    if trigger0 then
      match p.state with
      | .expectStartcode =>
        let q :=
          if p.bufferAt 0 = scRdm then p.expectLength
          else if p.bufferAt 0 = 0 ∧ p.lock.locked then
            { p with buffer := { p.buffer with validcount := p.lock.matchingSlotCount + 1 } }
          else p
        { q with state := .receiveDmxdata }
      | .recvRdmReplyData => if p.bufferAt 0 = scRdm then p.expectLength else p
      | _ => p
    else p
  if trigger1 ∧ (p.state = .receiveDmxdata ∨ p.state = .recvRdmReplyData) ∧
      p.buffer.transfered > rdmPosLength then p.limitToLength
  else p

/-- `dmx512rtuart_handle_rdm_timeout`. -/
def handleRdmTimeout : Port :=
  match p.tx with
  | none => p
  | some _ =>
    let p := p.act .stopRdmTimer
    match p.state with
    | .recvRdmdiscReply | .recvRdmdiscReplyCollision =>
      { p.handleDiscoveryReply with state := .idle }
    | .expectRdmReplyBreak | .recvRdmReplyData => { p.handleRdmReplyTimeout with state := .idle }
    | _ => p

/-! ## Sending -/

/-- A reply is awaited: to a discovery, or to another request that is not
a broadcast. -/
def isTwoway (data : Mem) : Bool :=
  isRdmDiscover data || (isRdmRequest data && rdmFrameDest data != 0xFFFFFFFFFFFF)

/-- What is sent of a frame, and whether a break is sent in front of it:
a discovery reply is encoded and has none. -/
def txOctets (frame : Frame) : List UInt8 × Bool :=
  if isRdm frame.data ∧ ¬ isRdmRequest frame.data ∧ isRdmDiscoverReply frame.data then
    (buildRdmdiscoveryReply frame.data, false)
  else (frame.data.read 0 (frame.payloadSize + 1), !frame.flags.noBreak)

/-- The RDM timer that a frame starts. -/
def rdmTimer (data : Mem) : List Action :=
  if isRdmDiscover data then [.startRdmTimer 15000]
  else if isRdmRequest data then [.startRdmTimer 15000]
  else []

/-- The frame as it is kept in the slot: an encoded discovery reply is
stored behind the packet, and marked to have no break. -/
def claimed (frame : Frame) : Frame :=
  if isRdm frame.data ∧ ¬ isRdmRequest frame.data ∧ isRdmDiscoverReply frame.data then
    { frame with
      flags := { frame.flags with noBreak := true }
      data := frame.data.write rdmPosDiscUniqueBranchData (buildRdmdiscoveryReply frame.data) }
  else frame

/-- `dmx512_rtuart_start_frame`. -/
def startFrame (frame : Frame) : Port :=
  let octets := txOctets frame
  { p with
    tx := some ⟨p.next, claimed frame⟩
    next := p.next + 1
    state := if isTwoway frame.data then .transmitDataTwoway else .transmitDataOneway
    log := p.log ++ .notify true true false :: rdmTimer frame.data ++
      .enableRs485Transmitter true :: (if octets.2 then [.sendBreak] else []) ++
      [.txStart octets.1] }

/-- `dmx512_rtuart_client_send_frame`: the frame is refused while another
one is sent or a reply is awaited. -/
def sendFrame (frame : Frame) : Port :=
  match p.tx with
  | some _ => p
  | none =>
    match p.state with
    | .transmitBreakOneway | .transmitDataOneway | .transmitBreakTwoway | .transmitDataTwoway
    | .recvRdmdiscReply | .recvRdmdiscReplyCollision | .expectRdmReplyBreak
    | .recvRdmReplyData => p
    | .down | .idle | .idleAfterDmxdata00 | .expectStartcode | .receiveDmxdata =>
      p.startFrame frame

/-! ## The receiver of the UART -/

/-- An octet is stored in the buffer. Behind the frame it points into when
that was given back, the octet falls on memory that is not the port's. -/
def store (c : UInt8) : Port :=
  { p with
    rx := p.rx.map fun e =>
      if p.buffer.frame = some e.id then
        { e with frame := { e.frame with
          data := e.frame.data.write (p.buffer.offset + p.buffer.transfered) [c] } }
      else e
    buffer := { p.buffer with transfered := p.buffer.transfered + 1 } }

/-- The buffer takes no more octets. -/
def bufferFull : Bool :=
  p.buffer.transfered ≥ p.buffer.validcount || p.buffer.transfered ≥ p.buffer.size

/-- A trigger has been passed. -/
def passed (trigger : Option ℕ) : Bool := trigger.any fun t => p.buffer.transfered > t

/-- The triggers that have been passed are reported, and cleared. -/
def handleTriggers : Port :=
  let t0 := p.passed p.buffer.trigger0
  let t1 := p.passed p.buffer.trigger1
  if t0 || t1 then
    let q := p.rxTrigger t0 t1
    { q with buffer := { q.buffer with
      trigger0 := if t0 then none else q.buffer.trigger0
      trigger1 := if t1 then none else q.buffer.trigger1 } }
  else p

/-- `handle_received_data`, for an octet. -/
def handleReceivedData (c : UInt8) : Port :=
  if !p.registered || p.bufferFull then p.rxChar
  else
    let q := (p.store c).handleTriggers
    if q.bufferFull then { q with registered := false }.rxEnd else q

end Port

/-! ## What drives the port -/

/-- The callbacks, and the receiver storing an octet between them. `got`
says whether a frame is allocated when one is asked for. -/
inductive Event
  | sendFrame (frame : Frame)
  | txEnd2 (got : Bool)
  | rxErr (isBreak : Bool) (got : Bool)
  | rxTrigger (trigger0 trigger1 : Bool)
  /-- The UART has given up the buffer before it calls. -/
  | rxEnd
  | rxChar
  | rdmTimeout
  | store (c : UInt8)

namespace Port

variable (p : Port)

def handle : Event → Port
  | .sendFrame frame => p.sendFrame frame
  | .txEnd2 got => p.txEnd2 got
  | .rxErr isBreak got => p.rxErr isBreak got
  | .rxTrigger trigger0 trigger1 => p.rxTrigger trigger0 trigger1
  | .rxEnd => { p with registered := false }.rxEnd
  | .rxChar => p.rxChar
  | .rdmTimeout => p.handleRdmTimeout
  | .store c => p.store c

/-- Nothing is called in a process that is dead. -/
def step (e : Event) : Port := if p.dead then p else p.handle e

end Port

/-- What is on the line of a port that only receives, which follows no null
pointer. -/
inductive Line
  | break_ (got : Bool)
  | octet (c : UInt8)
  deriving DecidableEq

def Port.listen (p : Port) : Line → Port
  | .break_ got => p.rxErr true got
  | .octet c => p.handleReceivedData c

end Dmxrtuart

end Dmx4Linux2
