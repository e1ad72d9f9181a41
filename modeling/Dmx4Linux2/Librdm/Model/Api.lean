import Dmx4Linux2.Librdm.Model.Bus
import Mathlib.Logic.Function.Basic

/-!
# librdm — the controller

`RdmApi` sends requests and hands replies to the futures waiting for
them. A future is an object with an address; `m_futures` is a list of
addresses, and the objects themselves are kept beside it, so that a
pointer in the list can outlive what it points to. `System` is a
controller on a `DmxBus`: a frame sent by the controller is handled by
the bus and its reply by the controller before the call that sent it
returns.
-/

namespace Dmx4Linux2

namespace Librdm

/-! ## `RdmFuture` -/

/-- `RdmFuture::State`. -/
inductive FutureState
  | busy | ready | timeout
  deriving DecidableEq, Repr

structure RdmFuture where
  /-- `m_buffer`, of 256 bytes. -/
  buffer : Mem
  state : FutureState

namespace RdmFuture

variable (f : RdmFuture)

/-- Copy a reply, up to the size of the buffer. -/
def set (b : DmxData) : RdmFuture where
  buffer := f.buffer.write 0 (b.data.read 0 (if b.size < 256 then b.size else 256))
  state := .ready

/-- The future after a `wait` during which nothing arrived. -/
def wait : RdmFuture := if f.state = .busy then { f with state := .timeout } else f

def okay : Bool := f.state = .ready

/-- `m_dec`. -/
def dec : PacketDecoder := ⟨f.buffer, 256⟩

/-- `at<T>(offset)` for a `T` of `size` bytes. Its local `t` is not
initialised, and is what it was where the data end before it. No caller
passes an offset below 0. -/
def valueAt (offset size t : ℕ) : ℕ :=
  if f.wait.okay then (f.dec.pdAt offset size).getD t else 0

/-- `at(offset, s, size)`: the characters stored into `s`. -/
def charsAt (offset size : ℕ) : Option (List UInt8) :=
  if f.wait.okay then f.dec.pdAtChars offset size else none

/-- `size()`. -/
def size : ℕ := if f.wait.okay then f.dec.pdl else 0

/-- A field of the header; nothing where the source returns -1. -/
def field (read : PacketDecoder → ℕ) : Option ℕ := if f.wait.okay then some (read f.dec) else none

def startCode : Option ℕ := f.field PacketDecoder.startCode

def subStartCode : Option ℕ := f.field PacketDecoder.subStartCode

def commandClass : Option ℕ := f.field PacketDecoder.commandClass

def subDevice : Option ℕ := f.field PacketDecoder.subDevice

def pid : Option ℕ := f.field PacketDecoder.pid

def source : Option ℕ := f.field PacketDecoder.source

def destination : Option ℕ := f.field PacketDecoder.destination

end RdmFuture

/-! ## `RdmApi` -/

/-- The futures of a controller: `m_futures`, and the objects by
address. -/
structure RdmApi where
  futures : List ℕ
  object : ℕ → RdmFuture
  /-- The address the next future is constructed at. -/
  next : ℕ

namespace RdmApi

/-- No future waits; the memory holds whatever it held. -/
def new (object : ℕ → RdmFuture) : RdmApi := ⟨[], object, 0⟩

def myUid : ℕ := 0x123400000001

variable (api : RdmApi)

/-- The constructor of a future, at the next address: it sets the state
and leaves the buffer as it is. -/
def newFuture : RdmApi where
  futures := api.futures
  object := Function.update api.object api.next { api.object api.next with state := .busy }
  next := api.next + 1

def addFuture (p : ℕ) : RdmApi := { api with futures := api.futures ++ [p] }

/-- The future at an address after it was waited for in vain. -/
def waitFor (p : ℕ) : RdmApi :=
  { api with object := Function.update api.object p (api.object p).wait }

/-- The first future gets the reply; the list is cleared. -/
def handle (data : DmxData) : RdmApi :=
  match api.futures with
  | [] => api
  | p :: _ =>
    { api with futures := [], object := Function.update api.object p ((api.object p).set data) }

end RdmApi

/-! ## Requests

The buffers of `mute`, `unmute` and `get` are static, so they are zeroed
once; a header byte that no call of theirs writes stays 0. -/

/-- The request of `mute` and `unmute`. -/
def muteRequest (pid whom : ℕ) : DmxData :=
  ((((PacketEncoder.new clearedBuffer 258).source RdmApi.myUid).destination whom).commandClass
    discoveryCommand).pid pid |>.finalize.frame

/-- The request of `get`. -/
def getRequest (who pid : ℕ) : DmxData :=
  ((((PacketEncoder.new clearedBuffer 258).source RdmApi.myUid).destination who).commandClass
    getCommand).pid pid |>.transactionNumber 0 |>.portId 0 |>.messageCount 0 |>.subDevice 0
      |>.finalize.frame

def buildDiscoveryRequest (e : PacketEncoder) (source : ℕ) (first last : UInt64) : PacketEncoder :=
  (((e.source source).destination broadcast).commandClass discoveryCommand).pid discUniqueBranch
    |>.addPdU64 first 6 |>.addPdU64 last 6 |>.finalize

/-- The request of `discoverDevices` for a range. -/
def discoveryRequest (a : UInt64 × UInt64) : DmxData :=
  (buildDiscoveryRequest (PacketEncoder.new clearedBuffer 258) RdmApi.myUid a.1 a.2).frame

/-- `RdmApiSetter`: an encoder on a buffer of its own, not initialised. -/
structure RdmApiSetter where
  encoder : PacketEncoder

namespace RdmApiSetter

def new (buffer : Mem) (who cc pid : ℕ) : RdmApiSetter :=
  ⟨(((PacketEncoder.new buffer 256).destination who).commandClass cc).pid pid⟩

variable (s : RdmApiSetter)

def addU8 (v : UInt8) : RdmApiSetter := ⟨s.encoder.addPdU8 v⟩

def addU16 (v : UInt16) : RdmApiSetter := ⟨s.encoder.addPdU16 v⟩

/-- `add(const Uid &)`. -/
def addUid (uid : ℕ) : RdmApiSetter := ⟨s.encoder.addPdUid uid⟩

/-- The frame `commit` sends when the setter is destroyed. -/
def request : DmxData :=
  ((((s.encoder.source RdmApi.myUid).transactionNumber 0).portId 0).messageCount 0).subDevice 0
    |>.finalize.frame

end RdmApiSetter

/-! ## A controller on a bus -/

structure System where
  api : RdmApi
  bus : DmxBus

namespace System

variable (s : System)

/-- `handleTx` on a bus: the bus handles the frame, the controller what
the bus hands back. -/
def handleTx (f : DmxData) : System where
  api := (s.bus.handleMaster f).2.foldl RdmApi.handle s.api
  bus := (s.bus.handleMaster f).1

/-- Construct a future, add it and send a frame; the future is at the
address `s.api.next`. -/
def request (f : DmxData) : System :=
  { s with api := s.api.newFuture.addFuture s.api.next }.handleTx f

/-- `f.wait()` for the future at an address. -/
def waitFor (p : ℕ) : System := { s with api := s.api.waitFor p }

/-- `mute` and `unmute`. -/
def sendMute (pid whom : ℕ) : System :=
  if whom = broadcast then s.handleTx (muteRequest pid whom)
  else (s.request (muteRequest pid whom)).waitFor s.api.next

def mute (whom : ℕ) : System := s.sendMute discMute whom

def unmute (whom : ℕ) : System := s.sendMute discUnMute whom

/-- The system, and the address of the future returned. -/
def get (who pid : ℕ) : System × ℕ := (s.request (getRequest who pid), s.api.next)

def set (buffer : Mem) (who pid : ℕ) : RdmApiSetter := RdmApiSetter.new buffer who setCommand pid

def commit (setter : RdmApiSetter) : System := s.handleTx setter.request

end System

/-! ## `discoverDevices` -/

/-- What the answer to a discovery request tells. -/
inductive Answer
  /-- No answer, or none to this request: the range is dropped. -/
  | other
  | collision
  | nothing
  | device (uid : ℕ)
  deriving DecidableEq

/-- How the loop reads the future it waited for. -/
def RdmFuture.answer (f : RdmFuture) : Answer :=
  if ¬ f.wait.okay then .other
  else if f.dec.startCode = scRdm ∧ f.dec.subStartCode = scSubMessage ∧
      f.dec.commandClass = discoveryCommandResponse ∧ f.dec.pid = discUniqueBranch then
    if f.dec.destination = RdmApi.myUid then
      if f.dec.source = broadcast then .collision
      else if f.dec.source = any then .nothing
      else .device f.dec.source
    else .other
  else .other

/-- The locals of the loop. -/
structure Discovery where
  sys : System
  searchSpace : List (UInt64 × UInt64)
  discoveredDevices : List ℕ

/-- The two ranges a collision pushes. -/
def splitRange (a : UInt64 × UInt64) : List (UInt64 × UInt64) :=
  [(a.1, (a.1 + a.2) / 2 - 1), ((a.1 + a.2) / 2, a.2)]

namespace Discovery

/-- Issue the request for a range and wait for the reply. -/
def probe (sys : System) (a : UInt64 × UInt64) : System :=
  (sys.request (discoveryRequest a)).waitFor sys.api.next

/-- The answer `probe` got. -/
def answer (sys : System) (a : UInt64 × UInt64) : Answer :=
  ((probe sys a).api.object sys.api.next).answer

/-- One pass of the loop, for the range `a` in front of `rest`. -/
def pass (d : Discovery) (a : UInt64 × UInt64) (rest : List (UInt64 × UInt64)) : Discovery :=
  match answer d.sys a with
  | .other | .nothing => { d with sys := probe d.sys a, searchSpace := rest }
  | .collision => { d with sys := probe d.sys a, searchSpace := rest ++ splitRange a }
  | .device uid =>
    { sys := (probe d.sys a).mute uid
      searchSpace := rest ++ [a]
      discoveredDevices :=
        if uid ∈ d.discoveredDevices then d.discoveredDevices else d.discoveredDevices ++ [uid] }

/-- The loop, with `searchCount` passes left: the locals it is left with
and what is left of `searchCount`. It ends with an empty search space,
or else because the count is used up. -/
def loop : ℕ → Discovery → Discovery × ℕ
  | 0, d => (d, 0)
  | count + 1, d =>
    match d.searchSpace with
    | [] => (d, count + 1)
    | a :: rest => loop count (d.pass a rest)

/-- The locals before the loop. -/
def start (sys : System) (first last : ℕ) : Discovery where
  sys := sys
  searchSpace := [(UInt64.ofNat first, UInt64.ofNat last)]
  discoveredDevices := []

end Discovery

/-- `RdmApi::discoverDevices`: the loop's locals when it is left, of
which `discoveredDevices` is returned, and the rest of the count. -/
def System.discoverDevices (s : System) (first last maxSearchCount : ℕ) : Discovery × ℕ :=
  Discovery.loop maxSearchCount (Discovery.start s first last)

end Librdm

end Dmx4Linux2
