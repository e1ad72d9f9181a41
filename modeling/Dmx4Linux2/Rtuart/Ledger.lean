import Dmx4Linux2.Rtuart.Slots

/-!
# rtuart DMX client — frames taken and given back

A port takes frames from those who send and from the pool, and has to
give each back once. The balance of one step (`handle_balance`) gives
exactly which runs lose no frame (`accounted_iff`).
-/

namespace Dmx4Linux2

namespace Rtuart

variable {p : Port}

/-! ## Frames taken and given back -/

/-- The frames in the slots. -/
def View.slots (v : View) : List ℕ := v.rx.toList ++ v.tx.toList

/-- The frame an event hands to the port. -/
def Event.handed : Event → List ℕ
  | sendFrame frame => [frame.id]
  | _ => []

/-- The port, with all frames it ever took and all it ever gave back. -/
structure Ledger where
  port : Port
  acquired : List ℕ
  released : List ℕ

namespace Ledger

def step (l : Ledger) (e : Event) : Ledger where
  port := (l.port.handle e).1
  acquired := l.acquired ++ (e.handed ++ taken (l.port.handle e).2)
  released := l.released ++ given (l.port.handle e).2

/-- **Every frame taken is in one slot, or was given back once.** -/
def Accounted (l : Ledger) : Prop := (l.port.view.slots ++ l.released).Perm l.acquired

end Ledger

namespace Port

/-- The frame in the receive slot when it is overwritten: by the frame
for a discovery reply, or by the one for the reply to another request. -/
def overwritten (p : Port) : Event → Option ℕ
  | .transmitterEmpty _ =>
    if p.state = .waitForTxComplete ∧ p.sendsDiscovery then p.view.rx else none
  | .lineStatusEvent isBreak _ =>
    if isBreak ∧ p.state = .expectRdmFrame then p.view.rx else none
  | _ => none

/-- **The balance of a callback**: what is in the slots afterwards, given
back and lost is what was in the slots, handed over and taken. -/
def Balanced (p : Port) (o : View × List ℕ × List ℕ) (handed lost : List ℕ) : Prop :=
  ∀ i, o.1.slots.count i + o.2.1.count i + lost.count i =
    p.view.slots.count i + (handed.count i + o.2.2.count i)

theorem balanced_self : Balanced p (p.view, [], []) [] [] := by
  intro i
  simp

theorem sendFrame_balanced (frame : Entry) :
    Balanced p (outcome (p.sendFrame frame)) [frame.id] [] := by
  intro i
  have hout := sendFrame_outcome (p := p) frame
  by_cases hnone : p.view.tx = none
  · rw [if_pos hnone] at hout
    obtain ⟨state, -, hout⟩ := hout
    simp only [hout, View.slots, hnone, List.count_append, Option.toList_none, Option.toList_some,
      List.count_nil]
    omega
  · rw [if_neg hnone] at hout
    simp only [hout, View.slots, List.count_append, Option.toList_none, List.count_nil]
    omega

theorem transmitterHasSpace_balanced (hload : p.TxLoaded) (n : ℤ) :
    Balanced p (outcome (p.transmitterHasSpace n)) [] [] := by
  intro i
  rw [transmitterHasSpace_outcome hload n]
  split <;> rfl

/-- A frame for a discovery reply takes the place of what is in the slot. -/
theorem transmitterEmpty_balanced (got : Option Entry) :
    Balanced p (outcome (p.transmitterEmpty got)) []
      (p.overwritten (.transmitterEmpty got)).toList := by
  intro i
  rw [transmitterEmpty_outcome got]
  unfold overwritten
  by_cases hbreak : p.state = .transmitBreak
  · simp [hbreak, View.slots]
  by_cases hwait : p.state = .waitForTxComplete
  · simp only [hwait, reduceCtorEq, if_false, ne_eq, not_true_eq_false, true_and]
    split_ifs with hdisc hrdm
    · -- whether or not there is a frame
      cases got <;>
        simp only [View.slots, List.count_append, Option.toList_none, Option.toList_some,
          List.count_nil] <;>
        omega
    · simp [View.slots]
    · simp [View.slots]
  · simp [hbreak, hwait]

theorem receiverDataAvailable_balanced (count : Option ℕ) (fifo : List UInt8) :
    Balanced p (outcome (p.receiverDataAvailable count fifo)) [] [] := by
  intro i
  rcases receiverDataAvailable_outcome (p := p) count fifo with
    ⟨-, hout⟩ | ⟨-, hnone, hout⟩ | ⟨-, state, -, -, hout | ⟨hview, htaken, hgiven⟩⟩
  · simp [hout]
  · simp [hout, View.slots, hnone]
  · simp [hout, View.slots]
  · rw [hview, htaken, hgiven]
    simp [View.slots]

/-- A frame for a reply does, too; a frame received without a request is
handed up first. -/
theorem lineStatusEvent_balanced (isBreak : Bool) (got : Option Entry) :
    Balanced p (outcome (p.lineStatusEvent isBreak got)) []
      (p.overwritten (.lineStatusEvent isBreak got)).toList := by
  intro i
  rw [lineStatusEvent_outcome]
  unfold overwritten
  by_cases hexpect : p.state = .expectRdmFrame
  · have hrx : ¬ (PortState.expectRdmFrame.isTx = true ∨ ¬ true = true) := by decide
    rw [hexpect]
    cases isBreak with
    | false => simp
    | true =>
      rw [if_neg hrx]
      simp only [reduceCtorEq, false_or, false_and, if_false, true_and, if_true]
      cases got <;>
        simp only [startOutcome, View.slots, List.count_append, Option.toList_none,
          Option.toList_some, List.count_nil] <;>
        omega
  · simp only [hexpect, and_false, if_false, Option.toList_none, List.count_nil]
    split_ifs with hbreak hidle hdown
    · simp
    · cases got <;>
        simp only [startOutcome, View.slots, List.count_append, Option.toList_none,
          Option.toList_some, List.count_nil] <;>
        omega
    · simp only [View.slots, List.count_append, Option.toList_none, List.count_nil]
      omega
    · simp

theorem handleRdmTimeout_balanced : Balanced p (outcome p.handleRdmTimeout) [] [] := by
  rw [handleRdmTimeout_outcome]
  split
  · intro i
    simp [View.slots]
  · exact balanced_self

/-- **The balance of one step**: only a frame that is overwritten is
lost. -/
theorem handle_balance (hload : p.TxLoaded) (e : Event) :
    Balanced p (outcome (p.handle e)) e.handed (p.overwritten e).toList := by
  cases e with
  | sendFrame frame => exact sendFrame_balanced frame
  | transmitterHasSpace n => exact transmitterHasSpace_balanced hload n
  | transmitterEmpty got => exact transmitterEmpty_balanced got
  | receiverDataAvailable count fifo => exact receiverDataAvailable_balanced count fifo
  | lineStatusEvent isBreak got => exact lineStatusEvent_balanced isBreak got
  | rdmTimeout => exact handleRdmTimeout_balanced

end Port

namespace Ledger

variable {l : Ledger}

/-- One step keeps the account just when no frame is overwritten. -/
theorem Accounted.step_iff (hload : l.port.TxLoaded) (h : l.Accounted) (e : Event) :
    (l.step e).Accounted ↔ l.port.overwritten e = none := by
  have hbalance := Port.handle_balance hload e
  have hcount : ∀ i, l.port.view.slots.count i + l.released.count i = l.acquired.count i := by
    intro i
    rw [← List.count_append]
    exact List.perm_iff_count.1 h i
  have hiff : (l.step e).Accounted ↔
      ∀ i, (outcome (l.port.handle e)).1.slots.count i + (l.released.count i +
          (outcome (l.port.handle e)).2.1.count i) = l.acquired.count i +
        (e.handed.count i + (outcome (l.port.handle e)).2.2.count i) := by
    unfold Accounted
    rw [List.perm_iff_count]
    simp only [List.count_append, step]
    rfl
  rw [hiff]
  constructor
  · intro hacc
    match ho : l.port.overwritten e with
    | none => rfl
    | some i =>
      have hi := hbalance i
      rw [ho, Option.toList_some, List.count_singleton_self] at hi
      have := hacc i
      have := hcount i
      omega
  · intro ho i
    have hi := hbalance i
    rw [ho, Option.toList_none, List.count_nil] at hi
    have := hcount i
    omega

/-- **Exactly when no frame is lost**: in every state a run from a new
port reaches, every frame taken is in one slot or was given back once,
just when no step of the run overwrites a frame in the receive slot. -/
theorem accounted_iff (es : List Event) :
    Always step Accounted ⟨Port.create, [], []⟩ es ↔
      EachStep step (fun l e => l.port.overwritten e = none) ⟨Port.create, [], []⟩ es := by
  have haux : ∀ (l : Ledger) e, l.port.TxLoaded → (l.step e).port.TxLoaded :=
    fun _ e hload => hload.step e
  refine always_iff_eachStep haux (fun _ e hload h => h.step_iff hload e) ?_ List.Perm.nil
  exact fun h => absurd h (by decide)

/-- A discovery request, as it is given to the port. -/
def discoveryRequest : Entry where
  id := 1
  frame := ⟨0, ⟨false, false, false, 0⟩, 0, 37, ((Mem.write (fun _ => 0) 0 [0xCC, 0x01, 36]).write 20
    [0x10, 0x00, 0x01, 12])⟩

/-- A frame of the pool. -/
def freeFrame (id : ℕ) : Entry := ⟨id, ⟨0, ⟨false, false, false, 0⟩, 0, 0, fun _ => 0⟩⟩

/-- A discovery request is sent, and its reply awaited in one frame; when
space is reported once more, the end of the transmission is seen a second
time and another frame takes the place of the first, which is lost. -/
theorem not_accounted_discovery :
    ¬ ∀ es, Always step Accounted ⟨Port.create, [], []⟩ es := by
  intro h
  have hlast := (h ([.sendFrame discoveryRequest, .transmitterEmpty none] ++
    List.replicate 5 (.transmitterHasSpace (-1)) ++ [.transmitterEmpty (some (freeFrame 2)),
      .transmitterHasSpace (-1), .transmitterEmpty (some (freeFrame 3))])).last
  exact absurd (hlast.length_eq) (by decide)

end Ledger

end Rtuart

end Dmx4Linux2
