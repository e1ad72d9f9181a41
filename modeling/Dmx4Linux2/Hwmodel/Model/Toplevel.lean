import Mathlib.Data.Nat.Notation

/-!
# hardware model — the simulated uart

The simulation loop with its three modules, the wishbone master, the
interrupt handler and the dmx bus, around the design that `eval` stands for:
it computes the outputs from the inputs and what it keeps. Client threads
queue memory requests and wait for their promises; the interrupt thread
looks for a flag. The threads share the queue, under its lock, and the
flag. An iteration of the loop touches either once, and it is one step.
Requests are known by their number, which stands for the pointer.
-/

namespace Dmx4Linux2

namespace Hwmodel

/-- `MemoryRequest`, with what its promise was set to. -/
structure MemoryRequest where
  address : UInt32
  dataMask : UInt8
  data : UInt32
  isWrite : Bool
  resultPromise : Option UInt32
  deriving DecidableEq, Repr

namespace MemoryRequest

/-- The constructor for a write request, -/
def ofWrite (address : UInt32) (dataMask : UInt8) (data : UInt32) : MemoryRequest :=
  ⟨address, dataMask, data, true, none⟩

/-- and the one for a read request. -/
def ofRead (address : UInt32) (dataMask : UInt8) : MemoryRequest :=
  ⟨address, dataMask, 0, false, none⟩

end MemoryRequest

/-- The inputs of `Vtop`. -/
structure Inputs where
  clk : Bool
  reset : Bool
  cyc : Bool
  stb : Bool
  we : Bool
  sel : UInt8
  addr : UInt32
  wdata : UInt32
  dmxRx : UInt8
  deriving DecidableEq, Repr

/-- The outputs of `Vtop`. -/
structure Outputs where
  stall : Bool
  ack : Bool
  err : Bool
  rdata : UInt32
  irq : Bool
  dmxTxen : UInt8
  dmxTx : UInt8
  dmxLed : UInt8
  deriving DecidableEq, Repr

/-- `WishboneMaster::state`, by the comments on its values. -/
inductive MasterState
  | idle
  | write
  | read
  | terminate
  | terminate2
  deriving DecidableEq, Repr

/-- Where the interrupt thread is: before it looks at the flag, before it
clears it, before it calls the handler, or in the handler. -/
inductive IrqPlace
  | check
  | clear
  | call
  | handling
  deriving DecidableEq, Repr

/-- What the simulation keeps. `δ` is what the design keeps, `η` what the
callback of the dmx bus keeps. -/
structure Sim (δ η : Type*) where
  design : δ
  inputs : Inputs
  outputs : Outputs
  /-- `clk_i.oldValue` of the wishbone master. -/
  oldClk : Bool
  state : MasterState
  pendingRequest : Option ℕ
  requestQueue : List ℕ
  /-- All requests there have been. -/
  requests : List MemoryRequest
  /-- A promise was set twice, and the exception has ended the program. -/
  terminated : Bool
  irqReq : Bool
  irqPlace : IrqPlace
  /-- How often the interrupt handler was called. -/
  irqCalls : ℕ
  device : η
  deriving DecidableEq, Repr

/-- What happens: a client queues a request, the simulation loop does an
iteration, or the interrupt thread does a step. -/
inductive Event
  | writeMemory (address : UInt32) (mask : UInt8) (data : UInt32)
  | readMemory (address : UInt32) (mask : UInt8)
  | iteration
  | irqThread
  deriving DecidableEq, Repr

namespace Sim

variable {δ η : Type*} (s : Sim δ η)

/-! ## Requests -/

/-- `MemoryRequestQueue::queue`, for a new request. -/
def queue (request : MemoryRequest) : Sim δ η :=
  { s with
    requests := s.requests ++ [request]
    requestQueue := s.requestQueue ++ [s.requests.length] }

/-- `MemoryRequest::setResult`. A promise that has been set throws. -/
def setResult (request : ℕ) (result : UInt32) : Sim δ η :=
  if s.requests[request]?.bind MemoryRequest.resultPromise = none then
    { s with requests := s.requests.modify request fun r => { r with resultPromise := some result } }
  else { s with terminated := true }

/-! ## The wishbone master -/

/-- `BinarySignal::posedge` of `clk_i`. -/
def posedge : Bool := s.inputs.clk && !s.oldClk

/-- A request is put on the bus. The data lines are left alone by a read. -/
def drive (r : MemoryRequest) : Sim δ η :=
  if r.isWrite then
    { s with
      inputs := { s.inputs with
        cyc := true, stb := true, sel := r.dataMask, we := true, addr := r.address, wdata := r.data }
      state := .write }
  else
    { s with
      inputs := { s.inputs with
        cyc := true, stb := true, sel := r.dataMask, we := false, addr := r.address }
      state := .read }

/-- `WishboneMaster::controlOutputs`. -/
def controlOutputs : Sim δ η :=
  if s.posedge then
    if s.inputs.reset then
      { s with inputs := { s.inputs with cyc := false, stb := false }, state := .idle }
    else if s.state = .idle then
      match s.requestQueue with
      | [] => s
      | p :: q =>
        let s := { s with pendingRequest := some p, requestQueue := q }
        match s.requests[p]? with
        | some r => s.drive r
        | none => s
    else s
  else s

/-- `onWriteError`, `onWriteAck`, `onReadError` and `onReadAck`: they
differ in the result. -/
def answer (result : UInt32) : Sim δ η :=
  match s.pendingRequest with
  | some p => { s.setResult p result with pendingRequest := none }
  | none => s

def onWriteError : Sim δ η := s.answer 1
def onWriteAck : Sim δ η := s.answer 0
def onReadError : Sim δ η := s.answer 0
def onReadAck : Sim δ η := s.answer s.outputs.rdata

/-- The bus is left. -/
def release : Sim δ η :=
  { s with
    inputs := { s.inputs with cyc := false, stb := false, we := false }
    state := .terminate }

/-- The `switch` of `WishboneMaster::handleInputs`. -/
def handleState : Sim δ η :=
  match s.state with
  | .idle => s
  | .write =>
    if s.outputs.err then s.onWriteError.release
    else if s.outputs.ack then s.onWriteAck.release
    else s
  | .read =>
    if s.outputs.err then s.onReadError.release
    else if s.outputs.ack then s.onReadAck.release
    else s
  | .terminate => { s with state := .terminate2 }
  | .terminate2 => { s with state := .idle }

/-- `WishboneMaster::handleInputs`. -/
def handleInputs : Sim δ η :=
  let s := if s.posedge then s.handleState else s
  { s with oldClk := s.inputs.clk }

/-! ## The interrupt handler -/

/-- `InterruptHandler::handleInputs`. -/
def irqHandleInputs : Sim δ η :=
  if s.inputs.clk && s.outputs.irq then { s with irqReq := true } else s

/-- A step of the interrupt thread. -/
def irqThread : Sim δ η :=
  match s.irqPlace with
  | .check => if s.irqReq then { s with irqPlace := .clear } else s
  | .clear => { s with irqReq := false, irqPlace := .call }
  | .call => { s with irqCalls := s.irqCalls + 1, irqPlace := .handling }
  | .handling => { s with irqPlace := .check }

/-! ## The simulation loop -/

section Loop

variable (eval : δ → Inputs → δ × Outputs)
variable (dmxHandler : Option (η → UInt8 → UInt8 → UInt8 → Int32 × η))

/-- `DmxBus::controlOutputs`. -/
def dmxControlOutputs : Sim δ η :=
  match dmxHandler with
  | some handler =>
    let (rx, device) := handler s.device s.outputs.dmxTxen s.outputs.dmxTx s.outputs.dmxLed
    { s with inputs := { s.inputs with dmxRx := rx.toUInt32.toUInt8 }, device := device }
  | none =>
    let idle : UInt8 := if s.outputs.dmxTxen = 0 then 1 else 0
    { s with inputs := { s.inputs with dmxRx := s.outputs.dmxTx ||| idle } }

/-- `tb()->eval()`. -/
def evaluate : Sim δ η :=
  let (design, outputs) := eval s.design s.inputs
  { s with design := design, outputs := outputs }

/-- The end of an iteration: the reset is taken back with the first half of
a clock that is high. -/
def tick : Sim δ η :=
  { s with inputs := { s.inputs with
      reset := s.inputs.reset && !s.inputs.clk
      clk := !s.inputs.clk } }

/-- What the design is evaluated with in an iteration, and what it says. -/
def evaluated : Sim δ η := ((s.controlOutputs).dmxControlOutputs dmxHandler).evaluate eval

/-- An iteration of `simulationLoop`. -/
def iteration : Sim δ η := ((s.evaluated eval dmxHandler).handleInputs).irqHandleInputs.tick

/-- What happens after an exception is nothing. -/
def step : Event → Sim δ η
  | .writeMemory address mask data =>
    if s.terminated then s else s.queue (.ofWrite address mask data)
  | .readMemory address mask =>
    if s.terminated then s else s.queue (.ofRead address mask)
  | .iteration => if s.terminated then s else s.iteration eval dmxHandler
  | .irqThread => if s.terminated then s else s.irqThread

end Loop

/-- What `simulationLoop` starts with: the clock is low and the reset is on.
What the signal remembers is not initialised, and requests may be queued
before the first iteration. -/
structure Started : Prop where
  clk : s.inputs.clk = false
  reset : s.inputs.reset = true
  cyc : s.inputs.cyc = false
  stb : s.inputs.stb = false
  state : s.state = .idle
  pendingRequest : s.pendingRequest = none
  requestQueue : s.requestQueue = []
  requests : s.requests = []
  terminated : s.terminated = false
  irqReq : s.irqReq = false
  irqPlace : s.irqPlace = .check

/-- What `SimulatedDmxUart` and `simulationLoop` set, around signals that are
zero. -/
def create (design : δ) (device : η) : Sim δ η where
  design := design
  inputs := ⟨false, true, false, false, false, 0, 0, 0, 0⟩
  outputs := ⟨false, false, false, 0xdeadbeef, false, 0, 0, 0⟩
  oldClk := false
  state := .idle
  pendingRequest := none
  requestQueue := []
  requests := []
  terminated := false
  irqReq := false
  irqPlace := .check
  irqCalls := 0
  device := device

theorem started_create (design : δ) (device : η) : (create design device).Started :=
  ⟨rfl, rfl, rfl, rfl, rfl, rfl, rfl, rfl, rfl, rfl, rfl⟩

end Sim

end Hwmodel

end Dmx4Linux2
