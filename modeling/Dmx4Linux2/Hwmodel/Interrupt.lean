import Dmx4Linux2.Hwmodel.Wishbone

/-!
# hardware model — interrupts

The loop sets a flag where it sees the interrupt line high in the high half
of the clock; the interrupt thread takes the flag back and calls the
handler. Neither of them takes a lock. An interrupt is followed by a call of
the handler that begins after it, however the steps of the two interleave,
and there are no more calls than interrupts were seen
(`interrupt_not_lost`).
-/

namespace Dmx4Linux2

namespace Hwmodel

/-- The steps of the interrupt thread until it calls the handler, if it
finds the flag set. -/
def IrqPlace.toCall : IrqPlace → ℕ
  | .check => 3
  | .clear => 2
  | .call => 1
  | .handling => 4

namespace Sim

variable {δ η : Type*} {s : Sim δ η} {e : Event} {es : List Event}
variable {eval : δ → Inputs → δ × Outputs}
variable {dmxHandler : Option (η → UInt8 → UInt8 → UInt8 → Int32 × η)}
variable {done : List Transaction}

/-- The loop sees an interrupt. -/
def seesInterrupt (eval : δ → Inputs → δ × Outputs)
    (dmxHandler : Option (η → UInt8 → UInt8 → UInt8 → Int32 × η)) (s : Sim δ η) :
    Event → Bool
  | .iteration => s.inputs.clk && (s.evaluated eval dmxHandler).outputs.irq
  | _ => false

/-- How often it does in a run. -/
def interrupts (eval : δ → Inputs → δ × Outputs)
    (dmxHandler : Option (η → UInt8 → UInt8 → UInt8 → Int32 × η)) : Sim δ η → List Event → ℕ
  | _, [] => 0
  | s, e :: es =>
    (if s.seesInterrupt eval dmxHandler e then 1 else 0) +
      interrupts eval dmxHandler (s.step eval dmxHandler e) es

/-- The handler will be called: the flag is set, or the thread has seen
it. -/
def CallDue (s : Sim δ η) : Prop :=
  s.irqReq = true ∨ s.irqPlace = .clear ∨ s.irqPlace = .call

/-- The calls that are due. A flag that is set when the thread is about to
clear it is cleared with the one the thread has seen. -/
def callsDue (s : Sim δ η) : ℕ :=
  match s.irqPlace, s.irqReq with
  | .clear, _ => 1
  | .call, true => 2
  | .call, false => 1
  | _, true => 1
  | _, false => 0

theorem irq_controlOutputs : s.controlOutputs.irqReq = s.irqReq ∧
    s.controlOutputs.irqPlace = s.irqPlace ∧ s.controlOutputs.irqCalls = s.irqCalls := by
  unfold Sim.controlOutputs Sim.drive
  split
  · split
    · exact ⟨rfl, rfl, rfl⟩
    · split
      · split
        · exact ⟨rfl, rfl, rfl⟩
        · dsimp only
          (repeat' split) <;> exact ⟨rfl, rfl, rfl⟩
      · exact ⟨rfl, rfl, rfl⟩
  · exact ⟨rfl, rfl, rfl⟩

theorem irq_handleInputs : s.handleInputs.irqReq = s.irqReq ∧
    s.handleInputs.irqPlace = s.irqPlace ∧ s.handleInputs.irqCalls = s.irqCalls ∧
    s.handleInputs.outputs = s.outputs ∧ s.handleInputs.inputs.clk = s.inputs.clk := by
  have hanswer : ∀ result, (s.answer result).irqReq = s.irqReq ∧
      (s.answer result).irqPlace = s.irqPlace ∧ (s.answer result).irqCalls = s.irqCalls ∧
      (s.answer result).outputs = s.outputs ∧ (s.answer result).inputs.clk = s.inputs.clk := by
    intro result
    unfold Sim.answer setResult
    (repeat' split) <;> exact ⟨rfl, rfl, rfl, rfl, rfl⟩
  unfold Sim.handleInputs
  dsimp only
  split
  · unfold Sim.handleState onWriteError onWriteAck onReadError onReadAck release
    (repeat' split) <;> first | exact hanswer _ | exact ⟨rfl, rfl, rfl, rfl, rfl⟩
  · exact ⟨rfl, rfl, rfl, rfl, rfl⟩

/-- **What an iteration does for the interrupts**: it sets the flag where it
sees one. -/
theorem irq_iteration : (s.iteration eval dmxHandler).irqPlace = s.irqPlace ∧
    (s.iteration eval dmxHandler).irqCalls = s.irqCalls ∧
    (s.iteration eval dmxHandler).irqReq =
      (s.irqReq || s.seesInterrupt eval dmxHandler .iteration) := by
  have hevaluated : (s.evaluated eval dmxHandler).irqReq = s.irqReq ∧
      (s.evaluated eval dmxHandler).irqPlace = s.irqPlace ∧
      (s.evaluated eval dmxHandler).irqCalls = s.irqCalls := by
    have hcontrol := irq_controlOutputs (s := s)
    cases dmxHandler <;> exact hcontrol
  obtain ⟨hclk, -, -⟩ : (s.evaluated eval dmxHandler).inputs.clk = _ ∧ _ := clock_evaluated
  obtain ⟨hreq, hplace, hcalls, hout, hclk'⟩ := irq_handleInputs (s := s.evaluated eval dmxHandler)
  simp only [Sim.iteration, Sim.irqHandleInputs, hclk', hout, hclk, seesInterrupt]
  split
  case isTrue hsees =>
    rw [hsees, Bool.or_true]
    exact ⟨hplace.trans hevaluated.2.1, hcalls.trans hevaluated.2.2, rfl⟩
  case isFalse hsees =>
    rw [Bool.not_eq_true] at hsees
    rw [hsees, Bool.or_false]
    exact ⟨hplace.trans hevaluated.2.1, hcalls.trans hevaluated.2.2, hreq.trans hevaluated.1⟩

/-- What is seen of the interrupts by an event that is not one of the
thread. -/
theorem irq_step (h : s.terminated = false) (he : e ≠ .irqThread) :
    (s.step eval dmxHandler e).irqPlace = s.irqPlace ∧
      (s.step eval dmxHandler e).irqCalls = s.irqCalls ∧
      (s.step eval dmxHandler e).irqReq = (s.irqReq || s.seesInterrupt eval dmxHandler e) := by
  cases e with
  | writeMemory address mask data => simp [Sim.step, h, Sim.queue, seesInterrupt]
  | readMemory address mask => simp [Sim.step, h, Sim.queue, seesInterrupt]
  | iteration =>
    simp only [Sim.step, h, Bool.false_eq_true, if_false]
    exact irq_iteration
  | irqThread => exact absurd rfl he

/-- **A step of the thread**: it makes a call, or it is nearer to one if
one is due. -/
theorem irqThread_spec (s : Sim δ η) :
    s.irqThread.irqCalls + s.irqThread.callsDue = s.irqCalls + s.callsDue ∧
      (s.CallDue → s.irqThread.irqCalls = s.irqCalls + 1 ∨
        s.irqThread.irqCalls = s.irqCalls ∧ s.irqThread.CallDue ∧
          s.irqThread.irqPlace.toCall + 1 = s.irqPlace.toCall) := by
  unfold Sim.irqThread CallDue
  cases hplace : s.irqPlace <;> cases hreq : s.irqReq <;>
    simp [callsDue, hplace, hreq, IrqPlace.toCall]

theorem step_irqThread (h : s.terminated = false) :
    s.step eval dmxHandler .irqThread = s.irqThread := by
  simp only [Sim.step, h, Bool.false_eq_true, if_false]

/-- There are no more calls than interrupts. -/
theorem Inv.irqCalls_le (h : s.Inv done) (es : List Event) :
    (run (fun s => Sim.step s eval dmxHandler) s es).irqCalls ≤
      s.irqCalls + s.callsDue + interrupts eval dmxHandler s es := by
  induction es generalizing s done with
  | nil =>
    simp only [run_nil, interrupts]
    omega
  | cons e es ih =>
    have hstep : (s.step eval dmxHandler e).Inv _ := h.step e
    have hrest := ih hstep
    rw [run_cons, interrupts]
    by_cases he : e = .irqThread
    · subst he
      have hspec := (irqThread_spec s).1
      rw [step_irqThread h.terminated] at hrest ⊢
      omega
    · obtain ⟨hplace, hcalls, hreq⟩ :
        (s.step eval dmxHandler e).irqPlace = _ ∧ _ := irq_step h.terminated he
      have hdue : (s.step eval dmxHandler e).callsDue ≤
          s.callsDue + if s.seesInterrupt eval dmxHandler e then 1 else 0 := by
        unfold callsDue
        rw [hplace, hreq]
        cases s.irqPlace <;> cases s.irqReq <;> cases s.seesInterrupt eval dmxHandler e <;> simp
      omega

/-- Calls are counted up. -/
theorem Inv.irqCalls_mono (h : s.Inv done) (es : List Event) :
    s.irqCalls ≤ (run (fun s => Sim.step s eval dmxHandler) s es).irqCalls := by
  induction es generalizing s done with
  | nil => exact Nat.le_refl _
  | cons e es ih =>
    have hstep : (s.step eval dmxHandler e).Inv _ := h.step e
    have hle : s.irqCalls ≤ (s.step eval dmxHandler e).irqCalls := by
      by_cases he : e = .irqThread
      · subst he
        rw [step_irqThread h.terminated]
        unfold Sim.irqThread
        (repeat' split) <;> simp
      · rw [(irq_step h.terminated he).2.1]
    exact hle.trans (ih hstep)

/-- A call that is due is made, after the steps of the thread that are
left. -/
theorem Inv.irqCalls_lt (h : s.Inv done) (hdue : s.CallDue) (es : List Event)
    (hlong : s.irqPlace.toCall ≤ es.count .irqThread) :
    s.irqCalls < (run (fun s => Sim.step s eval dmxHandler) s es).irqCalls := by
  induction es generalizing s done with
  | nil =>
    have hpos : 0 < s.irqPlace.toCall := by cases s.irqPlace <;> simp [IrqPlace.toCall]
    rw [List.count_nil] at hlong
    omega
  | cons e es ih =>
    have hstep : (s.step eval dmxHandler e).Inv _ := h.step e
    rw [run_cons]
    by_cases he : e = .irqThread
    · subst he
      rw [List.count_cons_self] at hlong
      rw [step_irqThread h.terminated] at hstep ⊢
      rcases (irqThread_spec s).2 hdue with hcall | ⟨hcalls, hdue', hnear⟩
      · -- the call is made now
        have hmono : s.irqThread.irqCalls ≤
            (run (fun s => Sim.step s eval dmxHandler) s.irqThread es).irqCalls :=
          hstep.irqCalls_mono es
        omega
      · rw [← hcalls]
        exact ih hstep hdue' (by omega)
    · rw [List.count_cons_of_ne he] at hlong
      obtain ⟨hplace, hcalls, hreq⟩ :
        (s.step eval dmxHandler e).irqPlace = _ ∧ _ := irq_step h.terminated he
      rw [← hcalls]
      refine ih hstep ?_ (by rwa [hplace])
      unfold CallDue at hdue ⊢
      rw [hplace, hreq]
      exact hdue.imp_left fun hflag => by simp [hflag]

/-- **No interrupt is lost, and none is made up.** In every run from the
start the handler is called at most as often as the loop has seen the
interrupt. Once it sees it, the handler is called again after four more steps
of the interrupt thread at the latest, wherever the thread was and whatever
comes between. -/
theorem interrupt_not_lost (hs : s.Started) (pre : List Event) :
    let t := run (fun s => Sim.step s eval dmxHandler) s pre
    t.irqCalls ≤ s.irqCalls + interrupts eval dmxHandler s pre ∧
      (t.seesInterrupt eval dmxHandler .iteration = true →
        ∀ post, 4 ≤ post.count .irqThread → t.irqCalls <
          (run (fun s => Sim.step s eval dmxHandler) t (.iteration :: post)).irqCalls) := by
  intro t
  have ht : t.Inv _ := hs.inv.of_run pre
  constructor
  · have hle : t.irqCalls ≤ _ := hs.inv.irqCalls_le pre
    simpa [callsDue, hs.irqReq, hs.irqPlace] using hle
  · intro hsees post hlong
    have hstep : (t.step eval dmxHandler .iteration).Inv _ := ht.step .iteration
    obtain ⟨hplace, hcalls, hreq⟩ :
      (t.step eval dmxHandler .iteration).irqPlace = _ ∧ _ := irq_step ht.terminated (by simp)
    rw [run_cons, ← hcalls]
    refine hstep.irqCalls_lt (.inl (by rw [hreq, hsees, Bool.or_true])) post ?_
    have hfour : (t.step eval dmxHandler .iteration).irqPlace.toCall ≤ 4 := by
      cases (t.step eval dmxHandler .iteration).irqPlace <;> simp [IrqPlace.toCall]
    omega

/-- A design with its interrupt line up. The flag is set again while the
thread is about to clear it. -/
theorem interrupt_not_lost_raised :
    let eval : Unit → Inputs → Unit × Outputs := fun _ _ => ((), ⟨false, false, false, 0, true, 0, 0, 0⟩)
    let s : Sim Unit Unit := create () ()
    let pre := [.iteration, .iteration, .irqThread, .iteration]
    let t := run (fun s => Sim.step s eval none) s pre
    t.irqPlace = .clear ∧ t.irqCalls <
      (run (fun s => Sim.step s eval none) t
        (.iteration :: [.irqThread, .irqThread, .irqThread, .irqThread])).irqCalls := by
  intro eval s pre t
  have hboth : t.irqCalls ≤ _ ∧ _ := interrupt_not_lost (started_create () ()) pre
  exact ⟨by decide, hboth.2 (by decide) _ (by decide)⟩

end Sim

end Hwmodel

end Dmx4Linux2
