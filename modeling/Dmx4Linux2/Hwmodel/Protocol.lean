import Dmx4Linux2.Hwmodel.Wishbone
import Mathlib.Tactic.Ring

/-!
# hardware model — the bus protocol

A monitor that sees the bus at the rising edges knows what a slave may rely
on: a request stays on the bus, with the same lines, until the slave answers
it, and then the bus is left for two clocks; and nothing is on it during the
reset. It never objects, in whatever run (`wishbone_protocol`). With a slave that answers within `n` clocks a
request is answered after `n + 2` clocks for it and for each one before it,
and one for the reset (`answered_within`).
-/

namespace Dmx4Linux2

namespace Hwmodel

/-- The lines that say what is asked. -/
structure Lines where
  we : Bool
  sel : UInt8
  addr : UInt32
  wdata : UInt32
  deriving DecidableEq, Repr

def Inputs.lines (inputs : Inputs) : Lines :=
  ⟨inputs.we, inputs.sel, inputs.addr, inputs.wdata⟩

/-- Nothing is asked. -/
def Sample.quiet (x : Sample) : Bool := !x.inputs.cyc && !x.inputs.stb

/-- A request is on the bus and not answered. -/
def Sample.waits (x : Sample) : Bool := x.busy && !x.ends

/-- What a monitor of the bus knows. -/
inductive Phase
  | free
  | held (lines : Lines)
  | gap (clocks : ℕ)
  deriving DecidableEq, Repr

/-- The phase after a request has been seen. -/
def Phase.asked (x : Sample) : Phase := if x.ends then .gap 2 else .held x.inputs.lines

/-- The monitor objects to a request that is changed or dropped before it is
answered, to one that comes too early, and to a strobe outside of a cycle. -/
def Phase.follow (phase : Phase) (x : Sample) : Option Phase :=
  match phase with
  | .free => if x.busy then some (.asked x) else if x.quiet then some .free else none
  | .held lines => if x.busy && x.inputs.lines = lines then some (.asked x) else none
  | .gap clocks =>
    if x.quiet then some (if clocks ≤ 1 then .free else .gap (clocks - 1)) else none

/-- **The monitor**, which also objects to whatever is driven during the
reset. -/
def Phase.watch (phase : Phase) (x : Sample) : Option Phase :=
  if x.inputs.reset && !x.quiet then none else phase.follow x

theorem Phase.follow_of_watch {phase phase' : Phase} {x : Sample}
    (h : phase.watch x = some phase') : phase.follow x = some phase' := by
  unfold watch at h
  split at h
  · cases h
  · exact h

namespace Sim

variable {δ η : Type*} {s : Sim δ η} {e : Event} {es : List Event}
variable {eval : δ → Inputs → δ × Outputs}
variable {dmxHandler : Option (η → UInt8 → UInt8 → UInt8 → Int32 × η)}
variable {done : List Transaction}

/-- What the monitor knows of a master. -/
def phase (s : Sim δ η) : Phase :=
  match s.state with
  | .idle => .free
  | .write => .held s.inputs.lines
  | .read => .held s.inputs.lines
  | .terminate => .gap 2
  | .terminate2 => .gap 1

theorem phase_of_driven {r : MemoryRequest} (hd : Driven s.inputs s.state r) :
    s.phase = .held s.inputs.lines := by
  have hstate := hd.state
  unfold phase
  cases hw : r.isWrite <;> simp [hstate, hw]

/-! ## A rising edge -/

theorem busy_of_driven {r : MemoryRequest} (hd : Driven s.inputs s.state r) :
    s.bus.busy = true := by
  simp [Sample.busy, bus, hd.cyc, hd.stb]

theorem quiet_of_free (hf : Free s.inputs s.state) : s.bus.quiet = true ∧ s.bus.busy = false := by
  simp [Sample.quiet, Sample.busy, bus, hf.cyc, hf.stb]

/-- A request that is answered is taken off the bus, one that is not is
left alone. -/
theorem phase_handleState_of_driven {r : MemoryRequest} (hd : Driven s.inputs s.state r) :
    s.handleState.phase = .asked s.bus := by
  have hphase := phase_of_driven hd
  have hends : s.bus.ends = (s.outputs.err || s.outputs.ack) := by
    simp [Sample.ends, Sample.busy, bus, hd.cyc, hd.stb]
  have hstate := hd.state
  unfold Phase.asked
  rw [hends]
  cases hw : r.isWrite <;> cases herr : s.outputs.err <;> cases hack : s.outputs.ack <;>
    simp [Sim.handleState, hstate, hw, herr, hack, release, phase, bus]

/-- Without a request the master only counts the clocks of the gap. -/
theorem phase_handleState_of_free (hf : Free s.inputs s.state) :
    s.phase.watch s.bus = some s.handleState.phase := by
  obtain ⟨hquiet, hbusy⟩ := quiet_of_free hf
  unfold Phase.watch Phase.follow phase Sim.handleState
  cases hstate : s.state with
  | idle => simp [hquiet, hbusy, hstate]
  | write => exact absurd hstate hf.not_write
  | read => exact absurd hstate hf.not_read
  | terminate => simp [hquiet]
  | terminate2 => simp [hquiet]

/-- What `controlOutputs` makes of a master: it holds what it has on the
bus, it puts the first request that waits on it, or it does neither, for
there is no rising edge, a gap, the reset, or nothing that waits. -/
theorem Inv.controlOutputs_cases (h : s.Inv done) :
    (s.pendingRequest ≠ none ∧ s.controlOutputs = s) ∨
    (s.phase = .free ∧ s.controlOutputs.pendingRequest ≠ none) ∨
    (s.pendingRequest = none ∧ s.controlOutputs.pendingRequest = none ∧
      s.controlOutputs.phase = s.phase ∧
      (s.posedge = true → s.phase = .free → s.inputs.reset = true ∨ s.requestQueue = [])) := by
  by_cases hp : s.pendingRequest = none
  · right
    unfold Sim.controlOutputs
    split
    case isFalse hedge => exact .inr ⟨hp, hp, rfl, fun hedge' => absurd hedge' hedge⟩
    case isTrue =>
      split
      case isTrue hreset =>
        have hidle := h.reset hreset
        exact .inr ⟨hp, hp, by simp [phase, hidle], fun _ _ => .inl hreset⟩
      case isFalse =>
        split
        case isTrue hidle =>
          cases hq : s.requestQueue with
          | nil => exact .inr ⟨hp, hp, rfl, fun _ _ => .inr rfl⟩
          | cons p q =>
            obtain ⟨r, hr⟩ := h.getElem?_head hq
            exact .inl ⟨by simp [phase, hidle], by simp [hr]⟩
        case isFalse hidle =>
          have hnot : s.phase ≠ .free := by
            unfold phase
            cases hstate : s.state <;> simp_all
          exact .inr ⟨hp, hp, rfl, fun _ hfree => absurd hfree hnot⟩
  · refine .inl ⟨hp, ?_⟩
    have hidle : s.state ≠ .idle := fun hidle => hp (h.pending_of_idle hidle)
    have hreset : ¬ s.inputs.reset = true := fun hreset => hidle (h.reset hreset)
    simp [Sim.controlOutputs, hidle, hreset]

/-- The monitor is not told of the other modules. -/
theorem phase_evaluated : (s.evaluated eval dmxHandler).phase = s.controlOutputs.phase ∧
    (s.evaluated eval dmxHandler).pendingRequest = s.controlOutputs.pendingRequest ∧
    (s.evaluated eval dmxHandler).inputs.lines = s.controlOutputs.inputs.lines := by
  cases dmxHandler <;> exact ⟨rfl, rfl, rfl⟩

theorem phase_tick : s.irqHandleInputs.tick.phase = s.phase := by
  unfold Sim.irqHandleInputs
  split <;> rfl

theorem phase_iteration : (s.iteration eval dmxHandler).phase =
    if s.posedge then (s.evaluated eval dmxHandler).handleState.phase
    else (s.evaluated eval dmxHandler).phase := by
  unfold Sim.iteration Sim.handleInputs
  rw [phase_tick, posedge_evaluated]
  split <;> rfl

theorem phase_irqThread : s.irqThread.phase = s.phase := by
  unfold Sim.irqThread
  (repeat' split) <;> rfl

/-- **A rising edge**: there is no request on the bus, and the master goes
on in its gap; or there is one, which it held or has begun. -/
theorem Inv.edge (h : s.Inv done) (hedge : s.posedge = true) :
    let x := (s.evaluated eval dmxHandler).bus
    (x.busy = true ∧ x.inputs.reset = false ∧
      (s.phase = .free ∨ s.phase = .held x.inputs.lines) ∧
      (s.iteration eval dmxHandler).phase = .asked x) ∨
    (x.busy = false ∧ s.pendingRequest = none ∧
      s.phase.watch x = some (s.iteration eval dmxHandler).phase ∧
      (s.phase = .free → s.inputs.reset = true ∨ s.requestQueue = [])) := by
  intro x
  have heval : (s.evaluated eval dmxHandler).Inv done := h.controlOutputs.dmxControlOutputs.evaluate
  obtain ⟨hphase, hpending, hlines⟩ : (s.evaluated eval dmxHandler).phase = _ ∧ _ := phase_evaluated
  rw [phase_iteration, if_pos hedge]
  cases hp : (s.evaluated eval dmxHandler).pendingRequest with
  | some p =>
    obtain ⟨r, -, hd⟩ := heval.busy p hp
    rw [hpending] at hp
    have hreset : (s.evaluated eval dmxHandler).inputs.reset = false := by
      refine Bool.eq_false_iff.2 fun hreset => ?_
      have hidle := heval.pending_of_idle (heval.reset hreset)
      rw [← hpending, hidle] at hp
      cases hp
    refine .inl ⟨busy_of_driven hd, hreset, ?_, phase_handleState_of_driven hd⟩
    rcases h.controlOutputs_cases with ⟨-, hsame⟩ | ⟨hfree, -⟩ | ⟨-, hnone, -⟩
    · rw [hsame] at hphase
      exact .inr (hphase.symm.trans (phase_of_driven hd))
    · exact .inl hfree
    · rw [hnone] at hp
      cases hp
  | none =>
    have hf := heval.free hp
    rw [hpending] at hp
    refine .inr ⟨(quiet_of_free hf).2, ?_⟩
    have hwatch := phase_handleState_of_free hf
    rcases h.controlOutputs_cases with ⟨hsome, hsame⟩ | ⟨-, hsome⟩ | ⟨hnone, -, hsame, hwhy⟩
    · rw [hsame] at hp
      exact absurd hp hsome
    · exact absurd hp hsome
    · rw [hphase, hsame] at hwatch
      exact ⟨hnone, hwatch, hwhy hedge⟩

/-- Without a sample the monitor has nothing to do. -/
theorem Inv.phase_of_no_sample (h : s.Inv done) (hnone : sample eval dmxHandler s e = none) :
    (s.step eval dmxHandler e).phase = s.phase := by
  cases e with
  | writeMemory address mask data => simp [Sim.step, h.terminated, Sim.queue, phase]
  | readMemory address mask => simp [Sim.step, h.terminated, Sim.queue, phase]
  | iteration =>
    have hedge : ¬ s.posedge = true := by
      intro hedge
      simp [sample, h.terminated, hedge] at hnone
    have hsame : s.controlOutputs = s := by
      unfold Sim.controlOutputs
      rw [if_neg hedge]
    simp only [Sim.step, h.terminated, Bool.false_eq_true, if_false]
    rw [phase_iteration, if_neg hedge, phase_evaluated.1, hsame]
  | irqThread =>
    simp only [Sim.step, h.terminated, Bool.false_eq_true, if_false]
    exact phase_irqThread

/-- A sample is one of a rising edge. -/
theorem sample_eq_some {x : Sample} (hx : sample eval dmxHandler s e = some x) :
    e = .iteration ∧ s.terminated = false ∧ s.posedge = true ∧
      x = (s.evaluated eval dmxHandler).bus := by
  cases e with
  | iteration =>
    simp only [sample] at hx
    split at hx
    · cases hx
    · split at hx
      · exact ⟨rfl, by simp_all, ‹_›, (Option.some.inj hx).symm⟩
      · cases hx
  | _ => cases hx

/-- **The monitor follows the master**, step by step. -/
theorem Inv.watch_step (h : s.Inv done) (e : Event) :
    (sample eval dmxHandler s e).toList.foldlM Phase.watch s.phase =
      some (s.step eval dmxHandler e).phase := by
  cases hx : sample eval dmxHandler s e with
  | none => simp [h.phase_of_no_sample hx]
  | some x =>
    obtain ⟨rfl, hterm, hedge, rfl⟩ := sample_eq_some hx
    simp only [Option.toList_some, List.foldlM_cons, List.foldlM_nil, Sim.step, hterm,
      Bool.false_eq_true, if_false]
    rcases h.edge hedge with ⟨hbusy, hreset, hfrom, hasked⟩ | ⟨-, -, hwatch, -⟩
    · rw [hasked]
      rcases hfrom with hfrom | hfrom <;> simp [hfrom, Phase.watch, Phase.follow, hbusy, hreset]
    · simp [hwatch]

/-- **The master keeps to the protocol of the bus.** In every run from the
start, whatever the slave answers and when, the monitor does not object. -/
theorem wishbone_protocol (hs : s.Started) (es : List Event) :
    ∃ phase, (trace eval dmxHandler s es).foldlM Phase.watch .free = some phase := by
  have hall : ∀ es (s : Sim δ η) done, s.Inv done →
      ∃ phase, (trace eval dmxHandler s es).foldlM Phase.watch s.phase = some phase := by
    intro es
    induction es with
    | nil => exact fun s _ _ => ⟨s.phase, rfl⟩
    | cons e es ih =>
      intro s done h
      obtain ⟨phase, hphase⟩ := ih (s.step eval dmxHandler e) _ (h.step e)
      refine ⟨phase, ?_⟩
      rw [trace, List.foldlM_append, h.watch_step e]
      exact hphase
  have hfree : s.phase = .free := by simp [phase, hs.state]
  rw [← hfree]
  exact hall es s [] hs.inv

/-- A slave that answers at once. -/
def prompt (_ : Unit) (inputs : Inputs) : Unit × Outputs :=
  ((), ⟨false, inputs.cyc, false, 7, false, 0, 0, 0⟩)

theorem wishbone_protocol_read :
    ∃ phase, (trace prompt none (create () () : Sim Unit Unit)
      [.readMemory 5 1, .iteration, .iteration, .iteration]).foldlM Phase.watch .free =
        some phase :=
  wishbone_protocol (started_create () ()) _

/-! ## Progress -/

theorem clock_handleState : s.handleState.inputs.clk = s.inputs.clk ∧
    s.handleState.inputs.reset = s.inputs.reset := by
  have hanswer : ∀ result, (s.answer result).inputs = s.inputs := by
    intro result
    unfold Sim.answer setResult
    (repeat' split) <;> rfl
  unfold Sim.handleState onWriteError onWriteAck onReadError onReadAck release
  (repeat' split) <;> simp [hanswer]

/-- The clock goes on, and the reset ends when it is high. -/
theorem clock_iteration : (s.iteration eval dmxHandler).inputs.clk = !s.inputs.clk ∧
    (s.iteration eval dmxHandler).inputs.reset = (s.inputs.reset && !s.inputs.clk) ∧
    (s.iteration eval dmxHandler).oldClk = s.inputs.clk := by
  obtain ⟨hclk, hreset, -⟩ : (s.evaluated eval dmxHandler).inputs.clk = _ ∧ _ := clock_evaluated
  have hinputs : (s.evaluated eval dmxHandler).handleInputs.inputs.clk = s.inputs.clk ∧
      (s.evaluated eval dmxHandler).handleInputs.inputs.reset = s.inputs.reset ∧
      (s.evaluated eval dmxHandler).handleInputs.oldClk = s.inputs.clk := by
    unfold Sim.handleInputs
    dsimp only
    split
    · rw [clock_handleState.1, clock_handleState.2]
      exact ⟨hclk, hreset, hclk⟩
    · exact ⟨hclk, hreset, hclk⟩
  have hirq : ∀ s : Sim δ η, s.irqHandleInputs.inputs = s.inputs ∧
      s.irqHandleInputs.oldClk = s.oldClk := by
    intro s
    unfold Sim.irqHandleInputs
    split <;> exact ⟨rfl, rfl⟩
  unfold Sim.iteration Sim.tick
  dsimp only
  rw [(hirq _).1, (hirq _).2, hinputs.1, hinputs.2.1, hinputs.2.2]
  exact ⟨rfl, rfl, rfl⟩

/-- The reset is never put back. -/
theorem Inv.reset_of_step (h : s.Inv done) (e : Event)
    (hreset : (s.step eval dmxHandler e).inputs.reset = true) : s.inputs.reset = true := by
  cases e with
  | writeMemory address mask data => simpa [Sim.step, h.terminated, Sim.queue] using hreset
  | readMemory address mask => simpa [Sim.step, h.terminated, Sim.queue] using hreset
  | iteration =>
    simp only [Sim.step, h.terminated, Bool.false_eq_true, if_false, clock_iteration.2.1,
      Bool.and_eq_true] at hreset
    exact hreset.1
  | irqThread =>
    simp only [Sim.step, h.terminated, Bool.false_eq_true, if_false, Sim.irqThread] at hreset
    revert hreset
    (repeat' split) <;> exact id

/-- Requests are not forgotten. -/
theorem Inv.length_le_step (h : s.Inv done) (e : Event) :
    s.requests.length ≤ (s.step eval dmxHandler e).requests.length := by
  have hasked : (run (fun s => Sim.step s eval dmxHandler) s [e]).requests.map _ = _ :=
    h.asked_run [e]
  have hlength := congrArg List.length hasked
  simp only [run_cons, run_nil, List.length_map, List.length_append] at hlength
  omega

end Sim

/-- **The slave answers within `n` clocks**: a request does not wait at `n`
rising edges in a row. -/
def Prompt (n : ℕ) (samples : List Sample) : Prop :=
  ∀ block, block <:+: samples → (∀ x ∈ block, x.waits = true) → block.length < n

theorem Prompt.of_append {n : ℕ} {before samples : List Sample} (h : Prompt n (before ++ samples)) :
    Prompt n samples :=
  fun block hblock => h block (hblock.trans (List.suffix_append before samples).isInfix)

theorem prompt_one_of_forall {samples : List Sample} (h : ∀ x ∈ samples, x.waits = false) :
    Prompt 1 samples := by
  intro block hblock hwaits
  cases block with
  | nil => simp
  | cons x block =>
    have hx := h x (hblock.subset (List.mem_cons_self ..))
    rw [hwaits x (List.mem_cons_self ..)] at hx
    cases hx

/-- The clocks until the next request is answered, where one has been
waiting for `waited` of them. -/
def Phase.cost (n waited : ℕ) : Phase → ℕ
  | .free => n
  | .held _ => n - waited
  | .gap clocks => n + clocks

theorem Phase.cost_asked_of_waits {n waited : ℕ} {x : Sample} (hwaits : x.waits = true) :
    (Phase.asked x).cost n waited = n - waited := by
  have hends : x.ends = false := by simp [Sample.waits] at hwaits; exact hwaits.2
  simp [Phase.asked, hends, cost]

theorem Phase.cost_asked_of_ends {n waited : ℕ} {x : Sample} (hends : x.ends = true) :
    (Phase.asked x).cost n waited = n + 2 := by
  simp [Phase.asked, hends, cost]

/-- A clock without a request takes one of the gap, or finds the bus
free. -/
theorem Phase.cost_of_watch {phase phase' : Phase} {x : Sample} (hbusy : x.busy = false)
    (hwatch : phase.watch x = some phase') (hgap : phase ≠ .gap 0) (n waited : ℕ) :
    (phase = .free ∧ phase' = .free) ∨
      ((∀ lines, phase' ≠ .held lines) ∧ phase'.cost n 0 + 1 ≤ phase.cost n waited) := by
  replace hwatch := follow_of_watch hwatch
  cases phase with
  | free =>
    have hfree : phase' = .free := by
      simp only [follow, hbusy, Bool.false_eq_true, if_false] at hwatch
      split at hwatch
      · exact (Option.some.inj hwatch).symm
      · cases hwatch
    exact .inl ⟨rfl, hfree⟩
  | held lines => simp [follow, hbusy] at hwatch
  | gap clocks =>
    have hpos : clocks ≠ 0 := fun h => hgap (congrArg Phase.gap h)
    simp only [follow] at hwatch
    split at hwatch
    · rw [← Option.some.inj hwatch]
      right
      split
      · refine ⟨by simp, ?_⟩
        simp only [cost]
        omega
      · refine ⟨by simp, ?_⟩
        simp only [cost]
        omega
    · cases hwatch

namespace Sim

variable {δ η : Type*} {s : Sim δ η} {e : Event} {es : List Event}
variable {eval : δ → Inputs → δ × Outputs}
variable {dmxHandler : Option (η → UInt8 → UInt8 → UInt8 → Int32 × η)}
variable {done : List Transaction} {n i : ℕ}

/-- **The clocks until a request is answered**: `n + 2` for each one
before it, what is left of the one on the bus or of the gap, and the
reset. -/
def clocks (s : Sim δ η) (n waited before : ℕ) : ℕ :=
  before * (n + 2) + s.phase.cost n waited + if s.inputs.reset then 1 else 0

variable (eval dmxHandler) in
/-- **A rising edge takes one clock off**: the request on the bus waits,
it is answered, or there is none. -/
theorem Inv.clocks_edge (h : s.Inv done) (hedge : s.posedge = true) {waited : ℕ}
    (hwaited : waited < n) (hnone : (∀ lines, s.phase ≠ .held lines) → waited = 0)
    (hle : done.length ≤ i) (hi : i < s.requests.length) :
    let x := (s.evaluated eval dmxHandler).bus
    let s' := s.iteration eval dmxHandler
    (x.waits = true ∧ (∃ lines, s'.phase = .held lines) ∧
      s'.clocks n (waited + 1) (i - done.length) + 1 ≤ s.clocks n waited (i - done.length)) ∨
    (x.ends = true ∧ (∀ lines, s'.phase ≠ .held lines) ∧
      (done.length + 1 ≤ i →
        s'.clocks n 0 (i - (done.length + 1)) + 1 ≤ s.clocks n waited (i - done.length))) ∨
    (x.busy = false ∧ (∀ lines, s'.phase ≠ .held lines) ∧
      s'.clocks n 0 (i - done.length) + 1 ≤ s.clocks n waited (i - done.length)) := by
  intro x s'
  have hreset : s'.inputs.reset = false := by
    have hclk : s.inputs.clk = true := (Bool.and_eq_true _ _ ▸ hedge).1
    have heq : s'.inputs.reset = _ := clock_iteration.2.1
    rw [heq, hclk]
    simp
  unfold clocks
  rw [hreset]
  rcases h.edge hedge with ⟨hbusy, -, hfrom, hasked⟩ | ⟨hbusy, hpending, hwatch, hwhy⟩
  · -- a request is on the bus, and a clock more has gone by
    have hcost : s.phase.cost n waited = n - waited := by
      rcases hfrom with hfrom | hfrom
      · rw [hnone (by simp [hfrom]), hfrom]
        rfl
      · rw [hfrom]
        rfl
    have hphase : s'.phase = .asked x := hasked
    rw [hphase, hcost]
    cases hends : x.ends with
    | true =>
      refine .inr (.inl ⟨rfl, by simp [Phase.asked, hends], fun hlt => ?_⟩)
      have hsplit : i - done.length = i - (done.length + 1) + 1 := by omega
      rw [Phase.cost_asked_of_ends hends, hsplit, Nat.add_mul]
      simp only [Bool.false_eq_true, if_false]
      omega
    | false =>
      have hwaits : x.waits = true := by
        have hbusy' : x.busy = true := hbusy
        simp [Sample.waits, hbusy', hends]
      refine .inl ⟨hwaits, ⟨x.inputs.lines, by simp [Phase.asked, hends]⟩, ?_⟩
      rw [Phase.cost_asked_of_waits hwaits]
      simp only [Bool.false_eq_true, if_false]
      omega
  · refine .inr (.inr ⟨hbusy, ?_⟩)
    have hgap : s.phase ≠ .gap 0 := by
      unfold phase
      split <;> simp
    rcases Phase.cost_of_watch hbusy hwatch hgap n waited with ⟨hfree, hfree'⟩ | ⟨hheld, hcost⟩
    · -- the bus is free and a request waits, so it is the reset that has gone by
      have hqueue : s.requestQueue ≠ [] := by
        intro hempty
        have hwait := congrArg List.length h.waiting
        simp only [hpending, hempty, Option.toList_none, List.append_nil, List.length_nil,
          List.length_range'] at hwait
        omega
      have hwas : s.inputs.reset = true := (hwhy hfree).resolve_right hqueue
      have hphase : s'.phase = .free := hfree'
      rw [hphase, hfree, hwas]
      exact ⟨by simp, by simp [Phase.cost]⟩
    · refine ⟨hheld, ?_⟩
      have hcost' : s'.phase.cost n 0 + 1 ≤ s.phase.cost n waited := hcost
      simp only [Bool.false_eq_true, if_false]
      omega

/-- Without an edge there is no more to wait for than before. -/
theorem Inv.clocks_of_no_sample (h : s.Inv done) (hx : sample eval dmxHandler s e = none)
    (waited k : ℕ) :
    (s.step eval dmxHandler e).clocks n waited k ≤ s.clocks n waited k := by
  have hreset : (s.step eval dmxHandler e).inputs.reset = true → s.inputs.reset = true :=
    h.reset_of_step e
  unfold clocks
  rw [h.phase_of_no_sample hx]
  split
  case isTrue hon => rw [if_pos (hreset hon)]
  case isFalse => omega

/-- At the end of a run that is long enough the request is done. The
induction carries the samples at which the request on the bus has been
waiting. -/
theorem Inv.done_of_clocks (es : List Event) (h : s.Inv done) (prior : List Sample)
    (hwaits : ∀ x ∈ prior, x.waits = true)
    (hprior : (∀ lines, s.phase ≠ .held lines) → prior = [])
    (hprompt : Prompt n (prior ++ trace eval dmxHandler s es)) (hi : i < s.requests.length)
    (hlong : s.clocks n prior.length (i - done.length) ≤ (trace eval dmxHandler s es).length) :
    i < (done ++ (trace eval dmxHandler s es).filterMap Sample.transaction).length := by
  induction es generalizing s done prior with
  | nil =>
    -- no clock is left, but at least one is needed
    have hlt : prior.length < n := hprompt prior (List.prefix_append _ _).isInfix hwaits
    have hcost : 0 < s.phase.cost n prior.length := by
      cases hphase : s.phase <;> simp only [Phase.cost] <;> omega
    simp only [trace, List.length_nil, clocks] at hlong
    omega
  | cons e es ih =>
    have hstep : (s.step eval dmxHandler e).Inv _ := h.step e
    have hi' : i < (s.step eval dmxHandler e).requests.length :=
      Nat.lt_of_lt_of_le hi (h.length_le_step e)
    by_cases hle : done.length ≤ i
    case neg =>
      rw [List.length_append]
      omega
    have hlt : prior.length < n := hprompt prior (List.prefix_append _ _).isInfix hwaits
    cases hx : sample eval dmxHandler s e with
    | none =>
      have hclocks := h.clocks_of_no_sample hx (n := n) prior.length (i - done.length)
      have hphase := h.phase_of_no_sample hx
      rw [trace, hx] at hprompt hlong ⊢
      rw [hx] at hstep
      simp only [Option.bind_none, Option.toList_none, List.append_nil, List.nil_append]
        at hstep hprompt hlong ⊢
      exact ih hstep prior hwaits (by rwa [hphase]) hprompt hi' (hclocks.trans hlong)
    | some x =>
      obtain ⟨rfl, hterm, hedge, rfl⟩ := sample_eq_some hx
      have hs' : s.step eval dmxHandler .iteration = s.iteration eval dmxHandler := by
        simp [Sim.step, hterm]
      rw [trace, hx, Option.toList_some, List.singleton_append] at hprompt hlong ⊢
      rw [hx, Option.bind_some] at hstep
      rw [hs'] at hstep hi' hprompt hlong ⊢
      rw [List.length_cons] at hlong
      have hnext : Prompt n (trace eval dmxHandler (s.iteration eval dmxHandler) es) := by
        rw [List.append_cons] at hprompt
        exact hprompt.of_append
      rcases h.clocks_edge eval dmxHandler hedge hlt (fun hfree => by simp [hprior hfree]) hle hi with
        ⟨hwaits', ⟨lines, hheld⟩, hclocks⟩ | ⟨hends, hfree, hclocks⟩ | ⟨hbusy, hfree, hclocks⟩
      · -- the request on the bus has waited once more
        have hnone : (s.evaluated eval dmxHandler).bus.transaction = none := by
          simp only [Sample.waits, Bool.and_eq_true, Bool.not_eq_true'] at hwaits'
          simp [Sample.transaction, hwaits'.2]
        rw [hnone, Option.toList_none, List.append_nil] at hstep
        rw [List.filterMap_cons_none hnone]
        refine ih hstep (prior ++ [(s.evaluated eval dmxHandler).bus]) ?_
          (fun hfree => absurd hheld (hfree lines)) (by simpa using hprompt) hi' ?_
        · intro x hx'
          rcases List.mem_append.1 hx' with hx' | hx'
          · exact hwaits x hx'
          · rw [List.mem_singleton.1 hx']
            exact hwaits'
        · rw [List.length_append, List.length_singleton]
          omega
      · -- it is answered: it is this one, or there is one less before it
        obtain ⟨t, ht⟩ : ∃ t, (s.evaluated eval dmxHandler).bus.transaction = some t := by
          simp [Sample.transaction, hends]
        rw [ht, Option.toList_some] at hstep
        rw [List.filterMap_cons_some ht]
        by_cases hmore : done.length + 1 ≤ i
        · have hclocks' := hclocks hmore
          rw [List.append_cons]
          refine ih hstep [] (by simp) (fun _ => rfl) hnext hi' ?_
          rw [List.length_nil, List.length_append, List.length_singleton]
          omega
        · rw [List.length_append, List.length_cons]
          omega
      · have hnone : (s.evaluated eval dmxHandler).bus.transaction = none := by
          simp [Sample.transaction, Sample.ends, hbusy]
        rw [hnone, Option.toList_none, List.append_nil] at hstep
        rw [List.filterMap_cons_none hnone]
        refine ih hstep [] (by simp) (fun _ => rfl) hnext hi' ?_
        rw [List.length_nil]
        omega

/-- The requests that are done have a result. -/
theorem Inv.exists_result (h : s.Inv done) (hi : i < done.length) :
    ∃ r result, s.requests[i]? = some r ∧ r.resultPromise = some result := by
  have hget := congrArg (·[i]?) h.answered
  simp only [List.getElem?_map] at hget
  rw [List.getElem?_append_left (by simpa using hi), List.getElem?_map,
    List.getElem?_eq_getElem hi] at hget
  cases hr : s.requests[i]? with
  | none => simp [hr] at hget
  | some r =>
    rw [hr] at hget
    simp only [Option.map_some, Option.some.injEq, MemoryRequest.transaction,
      Option.map_eq_some_iff] at hget
    obtain ⟨result, hresult, -⟩ := hget
    exact ⟨r, result, rfl, hresult⟩

/-- Only iterations move the clock. -/
theorem Inv.clock_step (h : s.Inv done) (he : e ≠ .iteration) :
    sample eval dmxHandler s e = none ∧
      (s.step eval dmxHandler e).inputs.clk = s.inputs.clk ∧
      (s.step eval dmxHandler e).oldClk = s.oldClk := by
  cases e with
  | writeMemory address mask data => simp [sample, Sim.step, h.terminated, Sim.queue]
  | readMemory address mask => simp [sample, Sim.step, h.terminated, Sim.queue]
  | iteration => exact absurd rfl he
  | irqThread =>
    have hirq : s.irqThread.inputs = s.inputs ∧ s.irqThread.oldClk = s.oldClk := by
      unfold Sim.irqThread
      (repeat' split) <;> exact ⟨rfl, rfl⟩
    simp [sample, Sim.step, h.terminated, hirq]

variable (eval dmxHandler) in
/-- Every other iteration has a rising edge. -/
theorem Inv.count_iteration_le (h : s.Inv done) (hclk : s.inputs.clk = true → s.oldClk = false)
    (es : List Event) : es.count .iteration ≤
      2 * (trace eval dmxHandler s es).length + if s.inputs.clk then 0 else 1 := by
  induction es generalizing s done with
  | nil => simp
  | cons e es ih =>
    have hstep : (s.step eval dmxHandler e).Inv _ := h.step e
    by_cases he : e = .iteration
    · subst he
      have heq : s.step eval dmxHandler .iteration = s.iteration eval dmxHandler := by
        simp only [Sim.step, h.terminated, Bool.false_eq_true, if_false]
      rw [heq] at hstep
      obtain ⟨hclk', -, hold'⟩ : (s.iteration eval dmxHandler).inputs.clk = _ ∧ _ := clock_iteration
      have hrest := ih hstep (by simp [hclk', hold'])
      rw [hclk'] at hrest
      rw [List.count_cons_self, trace, heq, List.length_append]
      cases hc : s.inputs.clk with
      | true =>
        have hedge : s.posedge = true := by simp [posedge, hc, hclk hc]
        simp only [sample, h.terminated, hedge, hc, Bool.not_true, Bool.false_eq_true, if_false,
          if_true, Option.toList_some, List.length_singleton] at hrest ⊢
        omega
      | false =>
        simp only [hc, Bool.not_false, Bool.false_eq_true, if_false, if_true] at hrest ⊢
        omega
    · obtain ⟨hnone, hclk', hold'⟩ : sample eval dmxHandler s e = none ∧ _ := h.clock_step he
      have hrest := ih hstep (by rwa [hclk', hold'])
      rw [List.count_cons_of_ne he, trace, hnone, ← hclk']
      simpa using hrest

/-- Where the clock is, from the start. -/
theorem Started.clock_run (hs : s.Started) (es : List Event) :
    (run (fun s => Sim.step s eval dmxHandler) s es).inputs.clk = true →
      (run (fun s => Sim.step s eval dmxHandler) s es).oldClk = false := by
  have hall : ∀ es (s : Sim δ η) done, s.Inv done → (s.inputs.clk = true → s.oldClk = false) →
      (run (fun s => Sim.step s eval dmxHandler) s es).inputs.clk = true →
        (run (fun s => Sim.step s eval dmxHandler) s es).oldClk = false := by
    intro es
    induction es with
    | nil => exact fun s _ _ hclk => hclk
    | cons e es ih =>
      intro s done h hclk
      refine ih _ _ (h.step e) ?_
      by_cases he : e = .iteration
      · subst he
        simp only [Sim.step, h.terminated, Bool.false_eq_true, if_false]
        rw [clock_iteration.1, clock_iteration.2.2]
        simp
      · rwa [(h.clock_step he).2.1, (h.clock_step he).2.2]
  exact hall es s [] hs.inv (by simp [hs.clk])

/-- **Every request is answered.** After any run from the start, a request
that has been queued is answered in every run that follows in which the slave
answers within `n` clocks and the simulation loop does two iterations for
each clock: `n + 2` clocks for it and each one before it that is not yet
answered, and one for the reset. -/
theorem answered_within (hs : s.Started) (pre post : List Event)
    (hi : i < (run (fun s => Sim.step s eval dmxHandler) s pre).requests.length)
    (hprompt : Prompt n
      (trace eval dmxHandler (run (fun s => Sim.step s eval dmxHandler) s pre) post))
    (hlong : 2 * ((i + 1 - ((trace eval dmxHandler s pre).filterMap Sample.transaction).length) *
      (n + 2) + 1) + 1 ≤ post.count .iteration) :
    ∃ r result, (run (fun s => Sim.step s eval dmxHandler) s (pre ++ post)).requests[i]? = some r ∧
      r.resultPromise = some result := by
  have hpre : (run (fun s => Sim.step s eval dmxHandler) s pre).Inv _ := hs.inv.of_run pre
  have hclk : (run (fun s => Sim.step s eval dmxHandler) s pre).inputs.clk = true → _ :=
    hs.clock_run pre
  rw [run_append]
  generalize run (fun s => Sim.step s eval dmxHandler) s pre = t at hi hprompt hpre hclk ⊢
  rw [List.nil_append] at hpre
  generalize (trace eval dmxHandler s pre).filterMap Sample.transaction = seen at hpre hlong
  have hcount : post.count .iteration ≤ _ := hpre.count_iteration_le eval dmxHandler hclk post
  have hend : (run (fun s => Sim.step s eval dmxHandler) t post).Inv _ := hpre.of_run post
  refine hend.exists_result ?_
  by_cases hle : seen.length ≤ i
  · refine hpre.done_of_clocks post [] (by simp) (fun _ => rfl) (by simpa using hprompt) hi ?_
    have hsplit : i + 1 - seen.length = (i - seen.length) + 1 := by omega
    have hcost : t.phase.cost n 0 ≤ n + 2 := by
      unfold phase
      split <;> simp [Phase.cost]
    have hlen : (if t.inputs.clk = true then 0 else 1) ≤ 1 := by split <;> omega
    have hreset : (if t.inputs.reset = true then 1 else 0) ≤ 1 := by split <;> omega
    rw [hsplit, Nat.add_mul] at hlong
    simp only [clocks, List.length_nil]
    omega
  · rw [List.length_append]
    omega

/-- A request behind one that is not answered yet, and a slave that answers at
once. -/
theorem answered_within_second :
    let eval : Unit → Inputs → Unit × Outputs := fun _ inputs =>
      ((), ⟨false, inputs.cyc, false, 7, false, 0, 0, 0⟩)
    let s : Sim Unit Unit := create () ()
    let pre : List Event := [.readMemory 5 1, .writeMemory 6 1 9, .readMemory 7 1]
    ∃ r result, (run (fun s => Sim.step s eval none) s
      (pre ++ List.replicate 15 .iteration)).requests[1]? = some r ∧
        r.resultPromise = some result := by
  intro eval s pre
  refine answered_within (n := 1) (started_create () ()) pre _ (by decide) ?_ (by decide)
  exact prompt_one_of_forall (by decide)

end Sim

end Hwmodel

end Dmx4Linux2
