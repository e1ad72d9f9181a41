import Dmx4Linux2.Rtuart.Model.Frame

/-!
# rtuart DMX client — the port

`struct dmx512_uart_port` and the callbacks that drive it. A callback
takes the port to the port it leaves and the calls it makes, in order:
frames given back or handed up, and calls to the UART. What a callback
is told by its environment is in the event: the frame `dmx512_get_frame`
returns if it is called, or nothing if there is none, and the bytes in
the receive FIFO, of which `rtuart_read_chars` returns as many as it is
asked for and are there.
-/

namespace Dmx4Linux2

namespace Rtuart

/-! ## `struct dmx512_uart_port` -/

/-- `enum dmx512_uart_state`. -/
inductive PortState
  | down | idle
  | expectStartcode | receiveDmxdata
  | expectRdmFrame | receiveRdmdata
  | rdmdiscRecvPreamble | rdmdiscRecvData
  | transmitBreak | transmitData | waitForTxComplete
  deriving DecidableEq, Repr

namespace PortState

/-- The value of the enumerator. -/
def code : PortState → ℕ
  | down => 0
  | idle => 1
  | expectStartcode => 0x100
  | receiveDmxdata => 0x101
  | expectRdmFrame => 0x102
  | receiveRdmdata => 0x103
  | rdmdiscRecvPreamble => 0x104
  | rdmdiscRecvData => 0x105
  | transmitBreak => 0x200
  | transmitData => 0x201
  | waitForTxComplete => 0x202

def firstRxState : ℕ := 0x100
def lastRxState : ℕ := 0x106
def firstTxState : ℕ := 0x200
def lastTxState : ℕ := 0x203

/-- Between `FIRST_RXSTATE` and `LAST_RXSTATE`. -/
def isRx (s : PortState) : Bool := firstRxState ≤ s.code && s.code ≤ lastRxState

/-- Between `FIRST_TXSTATE` and `LAST_TXSTATE`. -/
def isTx (s : PortState) : Bool := firstTxState ≤ s.code && s.code < lastTxState

end PortState

/-- `rx.slot_count_lock`; the counts are bit fields of 6 and 10 bits. -/
structure SlotCountLock where
  locked : Bool
  matchingFrameCount : ℕ
  matchingSlotCount : ℕ
  deriving DecidableEq

/-- `slot_count_lock.required_count`, set when the port is created. -/
def requiredCount : ℕ := 10

structure Rx where
  frame : Option Entry
  /-- The offset `data` points to in the frame's data. -/
  data : Option ℕ
  count : ℕ
  slotCountLock : SlotCountLock
  /-- Does not include the start code. -/
  expectedSlotsCount : ℕ

structure Tx where
  frame : Option Entry
  /-- The offset `ptr` points to in the frame's data. -/
  ptr : Option ℕ
  remain : ℕ

structure Port where
  state : PortState
  rx : Rx
  tx : Tx
  /-- The time the RDM timer was last set to, in us, while it is active. -/
  rdmTimer : Option ℕ

/-- `dmx512_rtuart_client_create`. -/
def Port.create : Port where
  state := .idle
  rx := ⟨none, none, 0, ⟨false, 0, 0⟩, 0⟩
  tx := ⟨none, none, 0⟩
  rdmTimer := none

/-! ## The environment -/

/-- The notifications of the UART. -/
inductive Notification
  | txReady | txEmpty | rxAvailable | lineEvent
  deriving DecidableEq

/-- A call a callback makes. -/
inductive Action
  /-- `dmx512_get_frame` returned a frame, or none. -/
  | getFrame (e : Option Entry)
  /-- `dmx512_put_frame` of a frame. -/
  | putFrame (e : Entry)
  /-- `dmx512_received_frame` of a frame. -/
  | receivedFrame (e : Entry)
  | writeChars (bs : List UInt8)
  | flushRxFifo
  | enableNotification (n : Notification)
  | disableNotification (n : Notification)
  | setBaudrate (baud : ℕ)
  | enableRs485Transmitter (on : Bool)
  /-- `exit(1)`. -/
  | exit

/-- What drives the port. -/
inductive Event
  | sendFrame (frame : Entry)
  /-- The argument is -1 if the space is not known. -/
  | transmitterHasSpace (spaceAvailable : ℤ)
  | transmitterEmpty (got : Option Entry)
  /-- The argument is nothing where the source passes -1. -/
  | receiverDataAvailable (count : Option ℕ) (fifo : List UInt8)
  | lineStatusEvent (isBreak : Bool) (got : Option Entry)
  /-- The RDM timer expires. -/
  | rdmTimeout

/-- `dmx512_put_frame`; giving back no frame does nothing. -/
def putFrame (e : Option Entry) : List Action := (e.map Action.putFrame).toList

/-- `dmx512_received_frame`; handing up no frame does nothing. -/
def receivedFrame (e : Option Entry) : List Action := (e.map Action.receivedFrame).toList

/-- Change the frame of an entry. -/
def Entry.modify (g : Frame → Frame) (e : Entry) : Entry := { e with frame := g e.frame }

/-- `is_between`: both ends are included. -/
def isBetween (pos start last : ℕ) : Bool := start ≤ pos && pos ≤ last

/-- `rtuart_read_chars`: the number asked for is converted to `size_t`. -/
def readChars (fifo : List UInt8) (count : ℤ) : List UInt8 := fifo.take (count % 2 ^ 64).toNat

/-- `dmx512_uart_update_automatic_framecount_locking`, for a frame of a
given size: lock to a size that is received periodically. -/
def SlotCountLock.update (l : SlotCountLock) (payloadSize : ℕ) : SlotCountLock :=
  if l.locked then
    if payloadSize ≠ l.matchingSlotCount then ⟨false, 0, payloadSize % 2 ^ 10⟩ else l
  else if payloadSize = l.matchingSlotCount then
    let count := (l.matchingFrameCount + 1) % 2 ^ 6
    ⟨requiredCount == count, count, l.matchingSlotCount⟩
  else ⟨false, 0, payloadSize % 2 ^ 10⟩

namespace Port

variable (p : Port)

/-! ## Frame slots -/

/-- Take the frame out of the transmit slot. -/
def checkoutTxFrame : Port × Option Entry :=
  match p.tx.frame with
  | none => (p, none)
  | some e => ({ p with tx := ⟨none, none, 0⟩ }, some e)

/-- Take the frame out of the receive slot; its size is what has been
received, less the start code. -/
def checkoutRxFrame : Port × Option Entry :=
  match p.rx.frame with
  | none => (p, none)
  | some e =>
    let f := { e.frame with payloadSize := (p.rx.count + 2 ^ 32 - 1) % 2 ^ 16 }
    let lock := if f.startcode = 0 then p.rx.slotCountLock.update f.payloadSize
      else p.rx.slotCountLock
    ({ p with rx := { p.rx with frame := none, data := none, count := 0, slotCountLock := lock } },
      some ⟨e.id, f⟩)

/-! ## Transmitting -/

def transmitterHasSpace (spaceAvailable : ℤ) : Port × List Action :=
  match p.tx.frame, p.tx.ptr with
  | none, _ => (p, [])
  | some _, none => (p.checkoutTxFrame.1, putFrame p.checkoutTxFrame.2)
  | some e, some ptr =>
    if p.state = .waitForTxComplete then (p, [])
    else if p.tx.remain > 0 then
      let remain := if spaceAvailable = -1 ∨ spaceAvailable % 2 ^ 32 > p.tx.remain then p.tx.remain
        else spaceAvailable.toNat
      let c := if remain > 12 then 12 else remain
      ({ p with tx := { p.tx with ptr := some (ptr + c), remain := p.tx.remain - c } },
        [.writeChars (e.frame.data.read ptr c), .enableNotification .txReady])
    else ({ p with state := .waitForTxComplete }, [.enableNotification .txEmpty])

/-- Give back what was received and hand up the request as its answer. -/
def answerRequest (reply : Frame → Frame) : Port × List Action :=
  let r := p.checkoutRxFrame
  let t := r.1.checkoutTxFrame
  (t.1, putFrame r.2 ++ receivedFrame (t.2.map (Entry.modify reply)))

/-- Timeouts are handled only for replies there is a request for. The
state stays as it is. -/
def handleRdmTimeout : Port × List Action :=
  match p.tx.frame with
  | none => (p, [])
  | some _ =>
    match p.state with
    | .rdmdiscRecvPreamble | .rdmdiscRecvData =>
      { p with rdmTimer := none }.answerRequest
        (if p.rx.count > 0 then Frame.rdmDiscoveryReplyCollision
          else Frame.rdmDiscoveryReplyTimeout)
    | .expectRdmFrame | .receiveRdmdata => p.answerRequest Frame.updateRdmChecksum
    | _ => (p, [])

/-- The end of a transmission no reply is expected to. -/
def endTransmission : Port × List Action :=
  ({ p.checkoutTxFrame.1 with state := .idle }, putFrame p.checkoutTxFrame.2)

/-- Switch back to receiving. -/
def switchToInput : List Action :=
  [.enableRs485Transmitter false, .enableNotification .lineEvent, .flushRxFifo,
    .enableNotification .lineEvent]

/-- Wait for the reply to a discovery request in a frame that starts as a
copy of the request. -/
def expectDiscoveryReply (request got : Entry) : Port :=
  { p with
    state := .rdmdiscRecvPreamble
    rx := { p.rx with
      frame := some ⟨got.id, request.frame⟩
      data := some 256
      count := 0
      expectedSlotsCount := 0 }
    rdmTimer := some 5000 }

def transmitterEmpty (got : Option Entry) : Port × List Action :=
  if p.state = .transmitBreak then
    ({ p with state := .transmitData },
      [.disableNotification .txEmpty, .setBaudrate 250000, .enableNotification .txReady])
  else if p.state ≠ .waitForTxComplete then (p, [])
  else
    match p.tx.frame with
    | none => (p.endTransmission.1, switchToInput ++ p.endTransmission.2)
    | some e =>
      if e.frame.flags.isRdm then
        if e.frame.flags.isRdmDisc then
          match got with
          | some g =>
            (p.expectDiscoveryReply e g,
              switchToInput ++ [.getFrame got, .enableNotification .rxAvailable])
          | none =>
            let q := { p with rx := { p.rx with frame := none } }
            (q.endTransmission.1, switchToInput ++ .getFrame none :: q.endTransmission.2)
        else
          ({ p with
            state := .expectRdmFrame
            rx := { p.rx with expectedSlotsCount := 256 }
            rdmTimer := some 5000 }, switchToInput)
      else (p.endTransmission.1, switchToInput ++ p.endTransmission.2)

/-! ## Receiving -/

/-- `dmx512_check_received_data`, for `size` bytes just received at the
position `startPos` of the frame and the offset `d` of its data: find out
what kind of frame it is and how long. -/
def checkReceivedData (startPos size d : ℕ) : Port :=
  match p.rx.frame with
  | none => p
  | some e =>
    if e.frame.flags.isRdmDisc then p
    else
      let data := e.frame.data
      let last := startPos + size
      -- the start code
      let first : Bool := !e.frame.flags.isRdm && startPos == 0 && decide (size > 0)
      let rdm : Bool := e.frame.flags.isRdm || (first && data d == scRdm)
      let expected :=
        if first && data d == 0 then
          if p.rx.slotCountLock.locked then p.rx.slotCountLock.matchingSlotCount else 512
        else p.rx.expectedSlotsCount
      -- the sub start code
      let rdm : Bool := rdm && !(isBetween rdmPosSubStartcode startPos last &&
        data (d + (rdmPosSubStartcode - startPos)) != scSubMessage)
      -- the length, with the checksum and without the start code
      let sized := rdm && isBetween rdmPosLength startPos last
      let expected :=
        if sized then (data (d + (rdmPosLength - startPos))).toNat + 2 - 1 else expected
      let timer := if sized then some (3000 + expected * 60 - 2 * 60) else p.rdmTimer
      -- a discovery request
      let disc := rdm && isBetween rdmPosPdl startPos last && isRdmDiscover data
      { p with
        rx := { p.rx with
          frame := some (e.modify fun f =>
            { f with flags := { f.flags with isRdm := rdm, isRdmDisc := disc } })
          expectedSlotsCount := expected }
        rdmTimer := timer }

/-- Store received bytes at the offset `d` of the frame's data. -/
def storeRx (d : ℕ) (bs : List UInt8) : Port :=
  { p with rx := { p.rx with
    frame := p.rx.frame.map (Entry.modify fun f => { f with data := f.data.write d bs }) } }

/-- `rx.data += n; rx.count += n;` Adding to a null pointer leaves one
that nothing reads. -/
def advanceRx (n : ℕ) : Port :=
  { p with rx := { p.rx with
    data := p.rx.data.map (· + n)
    count := (p.rx.count + n) % 2 ^ 32 } }

/-- Hand up the frame received, and give back the request it answers. -/
def completeRx : Port × List Action :=
  let q := match p.tx.frame with
    | some e => if e.frame.flags.isRdm then { p with rdmTimer := none } else p
    | none => p
  let t := q.checkoutTxFrame
  let r := t.1.checkoutRxFrame
  ({ r.1 with state := .idle }, putFrame t.2 ++ receivedFrame r.2)

/-- The bytes asked for when `count` are available: no more than
complete the frame. -/
def toread (count : ℕ) : ℤ :=
  if (p.rx.count + count) % 2 ^ 32 < p.rx.expectedSlotsCount + 1 then count
  else (p.rx.expectedSlotsCount + 1 : ℤ) - p.rx.count

/-- Data of a DMX or an RDM frame. The size that completes the frame is
the one known before these data were looked at. -/
def receiveData (count : ℕ) (fifo : List UInt8) : Port × List Action :=
  match p.rx.data with
  | none => (p, [.exit])
  | some d =>
    let bs := readChars fifo (p.toread count)
    let flush := if (count : ℤ) > p.toread count then [Action.flushRxFifo] else []
    if bs.length > 0 then
      let q := ((p.storeRx d bs).checkReceivedData p.rx.count bs.length d).advanceRx bs.length
      if q.rx.count ≥ p.rx.expectedSlotsCount + 1 then
        (q.completeRx.1, q.completeRx.2 ++ flush)
      else (q, .enableNotification .rxAvailable :: flush)
    else (p, flush)

/-- Bytes were added to a discovery reply whose separator has been seen:
complete it when all are there. -/
def completeDiscovery : Port × List Action :=
  if p.rx.count ≥ p.rx.expectedSlotsCount + 1 then
    let r := { p with rdmTimer := none }.checkoutRxFrame
    let t := r.1.checkoutTxFrame
    let q := { t.1 with state := .idle }
    match r.2.map fun e => (e, e.frame.completeRdmDiscoveryReply) with
    | some (e, some f) => (q, putFrame t.2 ++ receivedFrame (some ⟨e.id, f⟩))
    | some (e, none) =>
      (q, receivedFrame (t.2.map (Entry.modify Frame.rdmDiscoveryReplyCollision)) ++
        putFrame (some e))
    | none => (p, [.enableNotification .rxAvailable])
  else (p, [.enableNotification .rxAvailable])

/-- Bytes of a discovery reply. -/
def receiveDiscovery (count : ℕ) (fifo : List UInt8) : Port × List Action :=
  match p.rx.data with
  -- the bytes would be stored through a null pointer
  | none => (p, [])
  | some d =>
    let bs := readChars fifo count
    if bs.length > 0 then
      let q := p.storeRx d bs
      if q.state = .rdmdiscRecvPreamble then
        match findPreamble bs with
        | .collision =>
          let a := { q with rdmTimer := none }.answerRequest Frame.rdmDiscoveryReplyCollision
          ({ a.1 with state := .idle }.advanceRx bs.length,
            a.2 ++ [.enableNotification .rxAvailable])
        | .found i =>
          { q with
            state := .rdmdiscRecvData
            rx := { q.rx with
              expectedSlotsCount := (q.rx.count + i + 16) % 2 ^ 16 } }.advanceRx bs.length
            |>.completeDiscovery
        | .incomplete => (q.advanceRx bs.length, [.enableNotification .rxAvailable])
      else (q.advanceRx bs.length).completeDiscovery
    else (p, [])

def receiverDataAvailable (count? : Option ℕ) (fifo : List UInt8) : Port × List Action :=
  let count := count?.getD 1
  if p.state.isTx then (p, [])
  else
    match p.rx.frame with
    | none => ({ p with state := .idle }, [.flushRxFifo])
    | some _ =>
      match p.state with
      | .expectStartcode | .receiveDmxdata =>
        { p with state := .receiveDmxdata }.receiveData count fifo
      | .receiveRdmdata => p.receiveData count fifo
      | .rdmdiscRecvPreamble => { p with rdmTimer := some 5000 }.receiveDiscovery count fifo
      | .rdmdiscRecvData => p.receiveDiscovery count fifo
      | _ => (p, [.flushRxFifo])

/-! ## Breaks -/

/-- Hand up a frame that is being received, and stop receiving it. -/
def flushRx : Port × List Action :=
  let r := p.checkoutRxFrame
  ((if r.1.state.isRx then { r.1 with state := .idle } else r.1), receivedFrame r.2)

/-- Start to receive into a frame. -/
def startRx (got : Entry) (state : PortState) (expected : ℕ) : Port :=
  { p with
    state := state
    rx := { p.rx with
      frame := some (got.modify fun f =>
        { f with data := f.data.write 0 (List.replicate 513 0xCE) })
      data := some 0
      count := 0
      expectedSlotsCount := expected } }

/-- What a break does in the state it finds. -/
def handleBreak (got : Option Entry) : Port × List Action :=
  match p.state with
  | .idle =>
    match got with
    | some g =>
      (p.startRx g .expectStartcode 512, [.getFrame got, .enableNotification .rxAvailable])
    | none => ({ p with rx := { p.rx with frame := none } }, [.getFrame none])
  | .expectRdmFrame =>
    -- restart the timer, as the frame can time out
    let q := { p with rdmTimer := some (3000 + 60 * 256) }
    match got with
    | some g =>
      (q.startRx g .receiveRdmdata 256, [.getFrame got, .enableNotification .rxAvailable])
    | none => ({ q with rx := { q.rx with frame := none } }, [.getFrame none])
  | .expectStartcode =>
    -- two consecutive breaks: reuse the frame
    match p.rx.frame with
    | some _ => ({ p with rx := { p.rx with data := some 0, count := 0 } }, [])
    | none => (p, [])
  | _ => (p, [])

def lineStatusEvent (isBreak : Bool) (got : Option Entry) : Port × List Action :=
  if p.state.isTx then (p, [])
  else if isBreak then
    let flushed :=
      if p.state.code ≤ PortState.receiveDmxdata.code ∧ p.rx.frame.isSome ∧
          p.state ≠ .expectStartcode then p.flushRx
      else (p, [])
    let handled := flushed.1.handleBreak got
    (handled.1, flushed.2 ++ handled.2 ++ [.enableNotification .lineEvent])
  else (p, [.enableNotification .lineEvent])

/-! ## Sending -/

/-- Put a frame into the transmit slot, marked as what it is; a discovery
response is encoded behind the packet and sent from there. -/
def loadTx (frame : Entry) : Port :=
  let f := frame.frame
  let load (f : Frame) (ptr remain : ℕ) : Port :=
    { p with state := .transmitBreak, tx := ⟨some ⟨frame.id, f⟩, some ptr, remain⟩ }
  if isRdm f.data then
    if isRdmDiscover f.data then
      load { f with flags := { f.flags with isRdm := true, isRdmDisc := true } } 0
        (1 + f.payloadSize)
    else if isRdmDiscoverReply f.data then
      load { f with
        flags := { f.flags with isRdm := true, noBreak := true }
        data := storeDiscoveryReply f.data } 256 24
    else load { f with flags := { f.flags with isRdm := true } } 0 (1 + f.payloadSize)
  else load f 0 (1 + f.payloadSize)

/-- Start the transmission of the frame in the slot, by a break if the
frame has one: a 0 at a third of the speed. -/
def startTx : Port × List Action :=
  let start := [Action.disableNotification .lineEvent, .disableNotification .rxAvailable,
    .enableRs485Transmitter true]
  if p.tx.frame.any fun e => e.frame.flags.noBreak then
    ({ p with state := .transmitData }, start ++ [.enableNotification .txReady])
  else
    (p, start ++ [.disableNotification .txReady, .setBaudrate (250000 / 3), .writeChars [0],
      .enableNotification .txEmpty])

def sendFrame (frame : Entry) : Port × List Action :=
  let flushed := if p.rx.frame.isSome then p.flushRx else (p, [])
  match flushed.1.tx.frame with
  | some _ => (flushed.1, flushed.2 ++ putFrame (some frame))
  | none =>
    let sent := (flushed.1.loadTx frame).startTx
    (sent.1, flushed.2 ++ sent.2)

/-! ## All of it -/

/-- The port after an event, and the calls made. -/
def handle : Event → Port × List Action
  | .sendFrame frame => p.sendFrame frame
  | .transmitterHasSpace space => p.transmitterHasSpace space
  | .transmitterEmpty got => p.transmitterEmpty got
  | .receiverDataAvailable count fifo => p.receiverDataAvailable count fifo
  | .lineStatusEvent isBreak got => p.lineStatusEvent isBreak got
  | .rdmTimeout => p.handleRdmTimeout

/-- The port after an event. -/
def step (e : Event) : Port := (p.handle e).1

/-- The port after a run of events, and the calls made. -/
def handleAll (p : Port) : List Event → Port × List Action
  | [] => (p, [])
  | e :: es =>
    let r := (p.handle e).1.handleAll es
    (r.1, (p.handle e).2 ++ r.2)

end Port

/-- Chunks of bytes, each reported when it has arrived. -/
def arrivals (chunks : List (List UInt8)) : List Event :=
  chunks.map fun c => .receiverDataAvailable (some c.length) c

/-- The frames handed up. -/
def delivered (acts : List Action) : List Entry :=
  acts.filterMap fun
    | .receivedFrame e => some e
    | _ => none

/-- The bytes written to the line. -/
def written (acts : List Action) : List UInt8 :=
  acts.flatMap fun
    | .writeChars bs => bs
    | _ => []

end Rtuart

end Dmx4Linux2
