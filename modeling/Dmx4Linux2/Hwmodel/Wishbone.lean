import Dmx4Linux2.Common.Run
import Dmx4Linux2.Hwmodel.Model.Toplevel

/-!
# hardware model — memory requests

What the design sees on its bus at the rising edges of the clock is a list
of samples, and a slave reads transactions off it: a request is over where
the bus is driven and acknowledge or error is set. Whatever the clients, the
loop and the interrupt thread do in whatever order, the transactions on the
bus are the requests of the clients in the order they were queued, and each
promise is set once, to what the slave said in the transaction of its
request (`requests_answered_in_order`).
-/

namespace Dmx4Linux2

namespace Hwmodel

/-! ## What is seen on the bus -/

/-- What the design is given at a rising edge, and what it says. -/
structure Sample where
  inputs : Inputs
  outputs : Outputs
  deriving DecidableEq, Repr

/-- A request that was done: what was asked and the result. The data is
that of a write. -/
structure Transaction where
  we : Bool
  addr : UInt32
  sel : UInt8
  wdata : Option UInt32
  result : UInt32
  deriving DecidableEq, Repr

namespace Sample

/-- A request is on the bus, -/
def busy (x : Sample) : Bool := x.inputs.cyc && x.inputs.stb

/-- and the slave has answered it. -/
def ends (x : Sample) : Bool := x.busy && (x.outputs.err || x.outputs.ack)

/-- What the slave says: the data of a read, or if a write has failed. -/
def result (x : Sample) : UInt32 :=
  if x.inputs.we then if x.outputs.err then 1 else 0
  else if x.outputs.err then 0 else x.outputs.rdata

/-- The transaction that ends with a sample. -/
def transaction (x : Sample) : Option Transaction :=
  if x.ends then
    some
      { we := x.inputs.we
        addr := x.inputs.addr
        sel := x.inputs.sel
        wdata := if x.inputs.we then some x.inputs.wdata else none
        result := x.result }
  else none

end Sample

/-- The transaction of a request whose promise is set. -/
def MemoryRequest.transaction (r : MemoryRequest) : Option Transaction :=
  r.resultPromise.map fun result =>
    { we := r.isWrite
      addr := r.address
      sel := r.dataMask
      wdata := if r.isWrite then some r.data else none
      result := result }

/-- A request as it was queued. -/
def MemoryRequest.asked (r : MemoryRequest) : MemoryRequest := { r with resultPromise := none }

/-- The requests the clients queue. -/
def requested : List Event → List MemoryRequest
  | [] => []
  | .writeMemory address mask data :: es => .ofWrite address mask data :: requested es
  | .readMemory address mask :: es => .ofRead address mask :: requested es
  | .iteration :: es => requested es
  | .irqThread :: es => requested es

namespace Sim

variable {δ η : Type*} {s : Sim δ η} {e : Event} {es : List Event}
variable {eval : δ → Inputs → δ × Outputs}
variable {dmxHandler : Option (η → UInt8 → UInt8 → UInt8 → Int32 × η)}
variable {done : List Transaction}

/-- The sample of the bus in a state where the design has been evaluated. -/
def bus (s : Sim δ η) : Sample := ⟨s.inputs, s.outputs⟩

/-- The sample an event gives, if it is an iteration with a rising edge. -/
def sample (eval : δ → Inputs → δ × Outputs)
    (dmxHandler : Option (η → UInt8 → UInt8 → UInt8 → Int32 × η)) (s : Sim δ η) :
    Event → Option Sample
  | .iteration =>
    if s.terminated then none
    else if s.posedge then some (s.evaluated eval dmxHandler).bus
    else none
  | _ => none

/-- **The bus, rising edge by rising edge.** -/
def trace (eval : δ → Inputs → δ × Outputs)
    (dmxHandler : Option (η → UInt8 → UInt8 → UInt8 → Int32 × η)) :
    Sim δ η → List Event → List Sample
  | _, [] => []
  | s, e :: es =>
    (sample eval dmxHandler s e).toList ++ trace eval dmxHandler (s.step eval dmxHandler e) es

/-! ## The invariant -/

/-- A request is on the bus. -/
structure Driven (inputs : Inputs) (state : MasterState) (r : MemoryRequest) : Prop where
  cyc : inputs.cyc = true
  stb : inputs.stb = true
  we : inputs.we = r.isWrite
  sel : inputs.sel = r.dataMask
  addr : inputs.addr = r.address
  wdata : r.isWrite = true → inputs.wdata = r.data
  state : state = if r.isWrite then .write else .read

/-- Nothing is on the bus. -/
structure Free (inputs : Inputs) (state : MasterState) : Prop where
  cyc : inputs.cyc = false
  stb : inputs.stb = false
  not_write : state ≠ .write
  not_read : state ≠ .read

/-- **What holds after the transactions `done`**: the first requests are
done, with these transactions; the others wait in the order they were
queued, the first of them perhaps on the bus. -/
structure Inv (s : Sim δ η) (done : List Transaction) : Prop where
  terminated : s.terminated = false
  le_length : done.length ≤ s.requests.length
  answered : s.requests.map MemoryRequest.transaction =
    done.map some ++ List.replicate (s.requests.length - done.length) none
  waiting : s.pendingRequest.toList ++ s.requestQueue =
    List.range' done.length (s.requests.length - done.length)
  busy : ∀ p, s.pendingRequest = some p → ∃ r, s.requests[p]? = some r ∧ Driven s.inputs s.state r
  free : s.pendingRequest = none → Free s.inputs s.state
  reset : s.inputs.reset = true → s.state = .idle

theorem Started.inv (h : s.Started) : s.Inv [] where
  terminated := h.terminated
  le_length := Nat.zero_le _
  answered := by simp [h.requests]
  waiting := by simp [h.requests, h.requestQueue, h.pendingRequest]
  busy p hp := by simp [h.pendingRequest] at hp
  free _ := ⟨h.cyc, h.stb, by simp [h.state], by simp [h.state]⟩
  reset _ := h.state

/-- A request that is pending is the first that is not done. -/
theorem Inv.pending_eq (h : s.Inv done) {p : ℕ} (hp : s.pendingRequest = some p) :
    p = done.length ∧ s.requestQueue =
      List.range' (done.length + 1) (s.requests.length - (done.length + 1)) := by
  have hwait := h.waiting
  rw [hp] at hwait
  cases hn : s.requests.length - done.length with
  | zero => simp [hn] at hwait
  | succ n =>
    rw [hn, List.range'_succ] at hwait
    have hrest : s.requests.length - (done.length + 1) = n := by omega
    rw [hrest]
    simpa using hwait

/-- The promise of a request that is not done is not set. -/
theorem Inv.promise_eq_none (h : s.Inv done) {p : ℕ} (hp : done.length ≤ p) :
    s.requests[p]?.bind MemoryRequest.resultPromise = none := by
  cases hr : s.requests[p]? with
  | none => rfl
  | some r =>
    have hlt : p < s.requests.length := (List.getElem?_eq_some_iff.1 hr).1
    have hget := congrArg (·[p]?) h.answered
    simp only [List.getElem?_map, hr, Option.map_some] at hget
    rw [List.getElem?_append_right (by simpa using hp), List.length_map,
      List.getElem?_replicate_of_lt (by omega)] at hget
    simpa [MemoryRequest.transaction] using hget

/-! ## What keeps it -/

/-- A request is queued behind the others. -/
theorem Inv.queue (h : s.Inv done) (r : MemoryRequest) (hr : r.resultPromise = none) :
    (s.queue r).Inv done where
  terminated := h.terminated
  le_length := by
    have := h.le_length
    simp only [Sim.queue, List.length_append]
    omega
  answered := by
    have hle := h.le_length
    have hlen : s.requests.length + 1 - done.length = (s.requests.length - done.length) + 1 := by
      omega
    simp only [Sim.queue, List.map_append, List.length_append, List.length_singleton, h.answered,
      hlen, List.replicate_succ', List.append_assoc]
    simp [MemoryRequest.transaction, hr]
  waiting := by
    have hle := h.le_length
    have hlen : s.requests.length + 1 - done.length = (s.requests.length - done.length) + 1 := by
      omega
    have hlast : done.length + (s.requests.length - done.length) = s.requests.length := by omega
    simp only [Sim.queue, List.length_append, List.length_singleton, hlen,
      List.range'_1_concat, ← h.waiting, hlast, List.append_assoc]
  busy p hp := by
    obtain ⟨r', hr', hdriven⟩ := h.busy p hp
    have hlt : p < s.requests.length := (List.getElem?_eq_some_iff.1 hr').1
    exact ⟨r', by simpa [Sim.queue, List.getElem?_append_left hlt] using hr', hdriven⟩
  free := h.free
  reset := h.reset

/-- A request is driven as it is, and nothing else changes. -/
theorem driven_drive (s : Sim δ η) (r : MemoryRequest) :
    Driven (s.drive r).inputs (s.drive r).state r := by
  unfold drive
  cases hw : r.isWrite with
  | true => exact ⟨rfl, rfl, hw.symm, rfl, rfl, fun _ => rfl, by simp [hw]⟩
  | false => exact ⟨rfl, rfl, hw.symm, rfl, rfl, by simp [hw], by simp [hw]⟩

@[simp] theorem drive_requests (r : MemoryRequest) : (s.drive r).requests = s.requests := by
  unfold drive; split <;> rfl

@[simp] theorem drive_terminated (r : MemoryRequest) : (s.drive r).terminated = s.terminated := by
  unfold drive; split <;> rfl

@[simp] theorem drive_pendingRequest (r : MemoryRequest) :
    (s.drive r).pendingRequest = s.pendingRequest := by
  unfold drive; split <;> rfl

@[simp] theorem drive_requestQueue (r : MemoryRequest) :
    (s.drive r).requestQueue = s.requestQueue := by
  unfold drive; split <;> rfl

@[simp] theorem drive_reset (r : MemoryRequest) :
    (s.drive r).inputs.reset = s.inputs.reset := by
  unfold drive; split <;> rfl

/-- The first request that waits is put on the bus. -/
theorem Inv.drive (h : s.Inv done) (hnone : s.pendingRequest = none)
    (hreset : ¬ s.inputs.reset = true) {p : ℕ} {q : List ℕ} {r : MemoryRequest}
    (hq : s.requestQueue = p :: q) (hr : s.requests[p]? = some r) :
    ({ s with pendingRequest := some p, requestQueue := q }.drive r).Inv done where
  terminated := by simpa using h.terminated
  le_length := by simpa using h.le_length
  answered := by simpa using h.answered
  waiting := by
    have hwait := h.waiting
    rw [hnone, hq] at hwait
    simpa using hwait
  busy p' hp' := by
    simp only [drive_pendingRequest, Option.some.injEq] at hp'
    subst hp'
    exact ⟨r, by simpa using hr, driven_drive _ r⟩
  free hp' := by simp at hp'
  reset hreset' := absurd (by simpa using hreset') hreset

/-- What waits is a request. -/
theorem Inv.getElem?_head (h : s.Inv done) {p : ℕ} {q : List ℕ} (hq : s.requestQueue = p :: q) :
    ∃ r, s.requests[p]? = some r := by
  have hmem : p ∈ s.pendingRequest.toList ++ s.requestQueue := by simp [hq]
  rw [h.waiting, List.mem_range'_1] at hmem
  have hlt : p < s.requests.length := by have := h.le_length; omega
  exact ⟨_, List.getElem?_eq_getElem hlt⟩

theorem Inv.pending_of_idle (h : s.Inv done) (hidle : s.state = .idle) :
    s.pendingRequest = none := by
  cases hp : s.pendingRequest with
  | none => rfl
  | some p =>
    obtain ⟨r, -, hdriven⟩ := h.busy p hp
    have hstate := hdriven.state
    rw [hidle] at hstate
    split at hstate <;> cases hstate

/-- **The master drives the first request that waits**, at a rising edge
where it is idle. -/
theorem Inv.controlOutputs (h : s.Inv done) : s.controlOutputs.Inv done := by
  unfold Sim.controlOutputs
  split
  · split
    case isTrue hreset =>
      have hnone := h.pending_of_idle (h.reset hreset)
      exact ⟨h.terminated, h.le_length, h.answered, h.waiting, by simp [hnone],
        fun _ => ⟨rfl, rfl, by simp, by simp⟩, fun _ => rfl⟩
    case isFalse hreset =>
      split
      case isTrue hidle =>
        cases hq : s.requestQueue with
        | nil => exact h
        | cons p q =>
          obtain ⟨r, hr⟩ := h.getElem?_head hq
          simp only [hr]
          exact h.drive (h.pending_of_idle hidle) hreset hq hr
      case isFalse => exact h
  · exact h

/-- The other modules leave the master alone. -/
theorem Inv.dmxControlOutputs (h : s.Inv done) : (s.dmxControlOutputs dmxHandler).Inv done := by
  have hbusy : ∀ (rx : UInt8) p, s.pendingRequest = some p →
      ∃ r, s.requests[p]? = some r ∧ Driven { s.inputs with dmxRx := rx } s.state r := by
    intro rx p hp
    obtain ⟨r, hr, hd⟩ := h.busy p hp
    exact ⟨r, hr, hd.cyc, hd.stb, hd.we, hd.sel, hd.addr, hd.wdata, hd.state⟩
  have hfree : ∀ (rx : UInt8), s.pendingRequest = none →
      Free { s.inputs with dmxRx := rx } s.state := fun rx hp =>
    ⟨(h.free hp).cyc, (h.free hp).stb, (h.free hp).not_write, (h.free hp).not_read⟩
  cases dmxHandler with
  | none => exact ⟨h.terminated, h.le_length, h.answered, h.waiting, hbusy _, hfree _, h.reset⟩
  | some handler =>
    exact ⟨h.terminated, h.le_length, h.answered, h.waiting, hbusy _, hfree _, h.reset⟩

theorem Inv.evaluate (h : s.Inv done) : (s.evaluate eval).Inv done :=
  ⟨h.terminated, h.le_length, h.answered, h.waiting, h.busy, h.free, h.reset⟩

theorem Inv.irqHandleInputs (h : s.Inv done) : s.irqHandleInputs.Inv done := by
  unfold Sim.irqHandleInputs
  split
  · exact ⟨h.terminated, h.le_length, h.answered, h.waiting, h.busy, h.free, h.reset⟩
  · exact h

theorem Inv.irqThread (h : s.Inv done) : s.irqThread.Inv done := by
  have hall := h
  obtain ⟨hterm, hle, hans, hwait, hbusy, hfree, hreset⟩ := h
  unfold Sim.irqThread
  split
  · split
    · exact ⟨hterm, hle, hans, hwait, hbusy, hfree, hreset⟩
    · exact hall
  all_goals exact ⟨hterm, hle, hans, hwait, hbusy, hfree, hreset⟩

theorem Inv.tick (h : s.Inv done) : s.tick.Inv done where
  terminated := h.terminated
  le_length := h.le_length
  answered := h.answered
  waiting := h.waiting
  busy p hp := by
    obtain ⟨r, hr, hd⟩ := h.busy p hp
    exact ⟨r, hr, hd.cyc, hd.stb, hd.we, hd.sel, hd.addr, hd.wdata, hd.state⟩
  free hp := ⟨(h.free hp).cyc, (h.free hp).stb, (h.free hp).not_write, (h.free hp).not_read⟩
  reset hreset := by
    simp only [Sim.tick, Bool.and_eq_true] at hreset
    exact h.reset hreset.1

/-! ## Answers -/

/-- The transaction of a request with a result. -/
def transactionOf (r : MemoryRequest) (result : UInt32) : Transaction :=
  { we := r.isWrite
    addr := r.address
    sel := r.dataMask
    wdata := if r.isWrite then some r.data else none
    result := result }

/-- The promise that is set is the one of the pending request, and it was
not set before. -/
theorem Inv.answer (h : s.Inv done) {p : ℕ} (hp : s.pendingRequest = some p) (result : UInt32) :
    s.answer result =
      { s with
        requests := s.requests.modify p fun r => { r with resultPromise := some result }
        pendingRequest := none } := by
  obtain ⟨rfl, -⟩ := h.pending_eq hp
  have hunset := h.promise_eq_none (Nat.le_refl done.length)
  simp only [Sim.answer, hp, setResult, hunset, if_true]

/-- **A request is answered**: it is done, and the bus is left. -/
theorem Inv.answer_release (h : s.Inv done) {p : ℕ} {r : MemoryRequest}
    (hp : s.pendingRequest = some p) (hr : s.requests[p]? = some r) (result : UInt32) :
    (s.answer result).release.Inv (done ++ [transactionOf r result]) := by
  obtain ⟨hpdone, hqueue⟩ := h.pending_eq hp
  have hlt : p < s.requests.length := (List.getElem?_eq_some_iff.1 hr).1
  have hlen : (done ++ [transactionOf r result]).length = done.length + 1 := by simp
  rw [h.answer hp]
  refine ⟨h.terminated, ?_, ?_, ?_, by simp [release], ?_, ?_⟩
  · rw [hlen]
    simp only [release, List.length_modify]
    omega
  · -- the first of the promises that were not set is set
    have hrest : s.requests.length - done.length = s.requests.length - (done.length + 1) + 1 := by
      omega
    have hmap : ∀ f : MemoryRequest → MemoryRequest,
        (s.requests.modify p f).map MemoryRequest.transaction =
          (s.requests.map MemoryRequest.transaction).set p (f r).transaction := by
      intro f
      rw [List.modify_eq_set_getElem?, hr]
      simp
    rw [hlen]
    simp only [release, List.length_modify]
    rw [hmap, h.answered, hrest, List.replicate_succ, List.set_append_right _ _ (by simp; omega)]
    simp [hpdone, MemoryRequest.transaction, transactionOf]
  · rw [hlen]
    simpa [release] using hqueue
  · exact fun _ => ⟨rfl, rfl, by simp [release], by simp [release]⟩
  · intro hreset
    rw [h.pending_of_idle (h.reset hreset)] at hp
    cases hp

/-- The bus as a slave sees it while a request is on it: the transaction
is over when the slave answers. -/
theorem transaction_of_driven {r : MemoryRequest} (hd : Driven s.inputs s.state r) :
    s.bus.transaction =
      if s.outputs.err || s.outputs.ack then some (transactionOf r s.bus.result) else none := by
  unfold Sample.transaction
  have hends : s.bus.ends = (s.outputs.err || s.outputs.ack) := by
    simp [Sample.ends, Sample.busy, bus, hd.cyc, hd.stb]
  rw [hends]
  by_cases hw : r.isWrite = true
  · simp [bus, transactionOf, hd.we, hd.addr, hd.sel, hw, hd.wdata hw]
  · simp [bus, transactionOf, hd.we, hd.addr, hd.sel, hw]

theorem transaction_of_free (hf : Free s.inputs s.state) : s.bus.transaction = none := by
  simp [Sample.transaction, Sample.ends, Sample.busy, bus, hf.cyc]

/-- **At a rising edge** the transaction that ends on the bus is the one
that is answered. -/
theorem Inv.handleState (h : s.Inv done) :
    s.handleState.Inv (done ++ s.bus.transaction.toList) := by
  cases hp : s.pendingRequest with
  | none =>
    have hfree := h.free hp
    rw [transaction_of_free hfree, Option.toList_none, List.append_nil]
    unfold Sim.handleState
    have hnext : ∀ state : MasterState, state ≠ .write → state ≠ .read → s.state ≠ .idle →
        ({ s with state := state }).Inv done := fun state hw hr hidle =>
      ⟨h.terminated, h.le_length, h.answered, h.waiting, by simp [hp],
        fun _ => ⟨hfree.cyc, hfree.stb, hw, hr⟩, fun hreset => absurd (h.reset hreset) hidle⟩
    split
    case h_1 => exact h
    case h_2 heq => exact absurd heq hfree.not_write
    case h_3 heq => exact absurd heq hfree.not_read
    case h_4 heq => exact hnext _ (by simp) (by simp) (by simp [heq])
    case h_5 heq => exact hnext _ (by simp) (by simp) (by simp [heq])
  | some p =>
    obtain ⟨r, hr, hd⟩ := h.busy p hp
    have hstate := hd.state
    have hwe := hd.we
    rw [transaction_of_driven hd]
    unfold Sim.handleState
    cases hw : r.isWrite with
    | true =>
      rw [hw] at hwe
      simp only [hstate, hw, if_true]
      cases herr : s.outputs.err with
      | true =>
        simpa [onWriteError, Sample.result, bus, herr, hwe] using h.answer_release hp hr 1
      | false =>
        cases hack : s.outputs.ack with
        | true => simpa [onWriteAck, Sample.result, bus, herr, hwe] using h.answer_release hp hr 0
        | false => simpa using h
    | false =>
      rw [hw] at hwe
      simp only [hstate, hw, Bool.false_eq_true, if_false]
      cases herr : s.outputs.err with
      | true => simpa [onReadError, Sample.result, bus, herr, hwe] using h.answer_release hp hr 0
      | false =>
        cases hack : s.outputs.ack with
        | true =>
          simpa [onReadAck, Sample.result, bus, herr, hwe] using
            h.answer_release hp hr s.outputs.rdata
        | false => simpa using h

/-- Clock and reset are not touched before the end of an iteration. -/
theorem clock_controlOutputs : s.controlOutputs.inputs.clk = s.inputs.clk ∧
    s.controlOutputs.inputs.reset = s.inputs.reset ∧ s.controlOutputs.oldClk = s.oldClk := by
  have hdrive : ∀ (s : Sim δ η) (r : MemoryRequest), (s.drive r).inputs.clk = s.inputs.clk ∧
      (s.drive r).inputs.reset = s.inputs.reset ∧ (s.drive r).oldClk = s.oldClk := by
    intro s r
    unfold Sim.drive
    split <;> exact ⟨rfl, rfl, rfl⟩
  unfold Sim.controlOutputs
  split
  · split
    · exact ⟨rfl, rfl, rfl⟩
    · split
      · split
        · exact ⟨rfl, rfl, rfl⟩
        · dsimp only
          split
          · exact hdrive _ _
          · exact ⟨rfl, rfl, rfl⟩
      · exact ⟨rfl, rfl, rfl⟩
  · exact ⟨rfl, rfl, rfl⟩

theorem clock_evaluated : (s.evaluated eval dmxHandler).inputs.clk = s.inputs.clk ∧
    (s.evaluated eval dmxHandler).inputs.reset = s.inputs.reset ∧
    (s.evaluated eval dmxHandler).oldClk = s.oldClk := by
  have hcontrol := clock_controlOutputs (s := s)
  cases dmxHandler <;> exact hcontrol

theorem posedge_evaluated : (s.evaluated eval dmxHandler).posedge = s.posedge := by
  obtain ⟨hclk, -, hold⟩ : (s.evaluated eval dmxHandler).inputs.clk = _ ∧ _ := clock_evaluated
  unfold posedge
  rw [hclk, hold]

/-- **An iteration does what its sample shows.** -/
theorem Inv.iteration (h : s.Inv done) : (s.iteration eval dmxHandler).Inv
    (done ++ ((sample eval dmxHandler s .iteration).bind Sample.transaction).toList) := by
  have heval : (s.evaluated eval dmxHandler).Inv done := h.controlOutputs.dmxControlOutputs.evaluate
  have hinputs : (s.evaluated eval dmxHandler).handleInputs.Inv
      (done ++ ((sample eval dmxHandler s .iteration).bind Sample.transaction).toList) := by
    unfold Sim.handleInputs
    simp only [sample, h.terminated, Bool.false_eq_true, if_false, posedge_evaluated]
    cases s.posedge with
    | true =>
      have hstate := heval.handleState
      exact ⟨hstate.terminated, hstate.le_length, hstate.answered, hstate.waiting, hstate.busy,
        hstate.free, hstate.reset⟩
    | false =>
      rw [if_neg (by simp), if_neg (by simp), Option.bind_none, Option.toList_none, List.append_nil]
      exact ⟨heval.terminated, heval.le_length, heval.answered, heval.waiting, heval.busy,
        heval.free, heval.reset⟩
  exact hinputs.irqHandleInputs.tick

/-- **So does every step**, and a run. -/
theorem Inv.step (h : s.Inv done) (e : Event) : (s.step eval dmxHandler e).Inv
    (done ++ ((sample eval dmxHandler s e).bind Sample.transaction).toList) := by
  cases e with
  | writeMemory address mask data =>
    simpa [Sim.step, sample, h.terminated] using h.queue (.ofWrite address mask data) rfl
  | readMemory address mask =>
    simpa [Sim.step, sample, h.terminated] using h.queue (.ofRead address mask) rfl
  | iteration =>
    simp only [Sim.step, h.terminated, Bool.false_eq_true, if_false]
    exact h.iteration
  | irqThread => simpa [Sim.step, sample, h.terminated] using h.irqThread

theorem Inv.of_run (h : s.Inv done) (es : List Event) :
    (run (fun s => Sim.step s eval dmxHandler) s es).Inv
      (done ++ (trace eval dmxHandler s es).filterMap Sample.transaction) := by
  induction es generalizing s done with
  | nil => simpa [trace] using h
  | cons e es ih =>
    have hstep : (s.step eval dmxHandler e).Inv _ := h.step e
    have hrest := ih hstep
    cases hsample : sample eval dmxHandler s e with
    | none => simpa [trace, hsample] using hrest
    | some x =>
      cases hx : x.transaction <;> simpa [trace, hsample, hx] using hrest

/-! ## The requests of the clients -/

/-- Setting a promise leaves what was asked. -/
theorem asked_setResult (s : Sim δ η) (p : ℕ) (result : UInt32) :
    (s.setResult p result).requests.map MemoryRequest.asked =
      s.requests.map MemoryRequest.asked := by
  unfold setResult
  split
  · refine List.ext_getElem? fun i => ?_
    simp only [List.getElem?_map, List.getElem?_modify]
    by_cases hi : p = i
    · cases s.requests[i]? <;> simp [hi, MemoryRequest.asked]
    · simp [hi]
  · rfl

theorem asked_answer (result : UInt32) :
    (s.answer result).requests.map MemoryRequest.asked = s.requests.map MemoryRequest.asked := by
  unfold Sim.answer
  split
  · exact asked_setResult s _ result
  · rfl

theorem asked_handleState :
    s.handleState.requests.map MemoryRequest.asked = s.requests.map MemoryRequest.asked := by
  unfold Sim.handleState
  split
  case h_2 =>
    split
    · exact asked_answer 1
    · split
      · exact asked_answer 0
      · rfl
  case h_3 =>
    split
    · exact asked_answer 0
    · split
      · exact asked_answer s.outputs.rdata
      · rfl
  all_goals rfl

theorem requests_controlOutputs : s.controlOutputs.requests = s.requests := by
  unfold Sim.controlOutputs
  split
  · split
    · rfl
    · split
      · split
        · rfl
        · dsimp only
          split
          · exact drive_requests _
          · rfl
      · rfl
  · rfl

theorem requests_evaluated : (s.evaluated eval dmxHandler).requests = s.requests := by
  have hcontrol := requests_controlOutputs (s := s)
  cases dmxHandler <;> exact hcontrol

/-- An iteration asks for nothing. -/
theorem asked_iteration : (s.iteration eval dmxHandler).requests.map MemoryRequest.asked =
    s.requests.map MemoryRequest.asked := by
  have hinputs : (s.evaluated eval dmxHandler).handleInputs.requests.map MemoryRequest.asked =
      s.requests.map MemoryRequest.asked := by
    have hevaluated : (s.evaluated eval dmxHandler).requests = s.requests := requests_evaluated
    rw [← hevaluated]
    unfold Sim.handleInputs
    dsimp only
    split
    · exact asked_handleState
    · rfl
  rw [← hinputs]
  unfold Sim.iteration Sim.irqHandleInputs Sim.tick
  split <;> rfl

theorem requests_irqThread : s.irqThread.requests = s.requests := by
  unfold Sim.irqThread
  (repeat' split) <;> rfl

/-- The requests of a run are those the clients have queued. -/
theorem Inv.asked_run (h : s.Inv done) (es : List Event) :
    (run (fun s => Sim.step s eval dmxHandler) s es).requests.map MemoryRequest.asked =
      s.requests.map MemoryRequest.asked ++ requested es := by
  induction es generalizing s done with
  | nil => simp [requested]
  | cons e es ih =>
    rw [run_cons, ih (h.step e)]
    cases e with
    | writeMemory address mask data =>
      simp [Sim.step, h.terminated, Sim.queue, requested, MemoryRequest.asked,
        MemoryRequest.ofWrite]
    | readMemory address mask =>
      simp [Sim.step, h.terminated, Sim.queue, requested, MemoryRequest.asked,
        MemoryRequest.ofRead]
    | iteration =>
      simp only [Sim.step, h.terminated, Bool.false_eq_true, if_false, requested]
      rw [asked_iteration]
    | irqThread =>
      simp only [Sim.step, h.terminated, Bool.false_eq_true, if_false, requested]
      rw [requests_irqThread]

/-- **Each request is answered once and in its turn.** In every run from
the start no promise is set twice; the transactions on the bus are those of
the first requests, in the order they were queued, and the promise of each
is what the slave has said in its transaction; the other requests are not
answered, and wait in their order, the first of them on the bus or not. -/
theorem requests_answered_in_order (hs : s.Started) (es : List Event) :
    let s' := run (fun s => Sim.step s eval dmxHandler) s es
    let seen := (trace eval dmxHandler s es).filterMap Sample.transaction
    s'.terminated = false ∧ s'.requests.map MemoryRequest.asked = requested es ∧
      s'.requests.map MemoryRequest.transaction =
        seen.map some ++ List.replicate (s'.requests.length - seen.length) none ∧
      s'.pendingRequest.toList ++ s'.requestQueue =
        List.range' seen.length (s'.requests.length - seen.length) := by
  intro s' seen
  have hinv : s'.Inv ([] ++ seen) := hs.inv.of_run es
  have hasked : s'.requests.map MemoryRequest.asked = _ := hs.inv.asked_run es
  rw [hs.requests] at hasked
  exact ⟨hinv.terminated, hasked, hinv.answered, hinv.waiting⟩

/-- Two clients, and a slave that answers at once. -/
theorem requests_answered_in_order_two :
    let eval : Unit → Inputs → Unit × Outputs := fun _ inputs =>
      ((), ⟨false, inputs.cyc, false, 7, false, 0, 0, 0⟩)
    let es := [.readMemory 5 1, .writeMemory 3 1 0x80, .iteration, .iteration, .iteration, .iteration]
    let s : Sim Unit Unit := create () ()
    let s' := run (fun s => Sim.step s eval none) s es
    s.Started ∧ s'.requests.map MemoryRequest.asked = requested es ∧
      s'.requests.map MemoryRequest.resultPromise = [some 7, none] := by
  intro eval es s s'
  have hs : s.Started := started_create () ()
  have hall : s'.terminated = false ∧ _ := requests_answered_in_order hs es
  exact ⟨hs, hall.2.1, by decide⟩

end Sim

end Hwmodel

end Dmx4Linux2
