import Dmx4Linux2.Common.Run
import Dmx4Linux2.Rtuart.Outcome

/-!
# rtuart DMX client — slots and states

Which of the two slots is in use should be read off the state. Not every
callback sees to it: `slotsMatch_iff` says exactly which runs keep the
two matched.
-/

namespace Dmx4Linux2

namespace Rtuart

variable {p : Port}

namespace Port

/-! ## The transmit pointer -/

/-- A frame in the transmit slot has a position from which it is sent. -/
def TxLoaded (p : Port) : Prop := p.tx.frame.isSome → p.tx.ptr.isSome

theorem TxLoaded.of_eq {q : Port} (hp : p.TxLoaded) (h : q.tx = p.tx) : q.TxLoaded := by
  unfold TxLoaded
  rwa [h]

theorem TxLoaded.of_none (h : p.view.tx = none) : p.TxLoaded := by
  intro hsome
  simp [view] at h
  simp [h] at hsome

theorem TxLoaded.of_outcome {r : Port × List Action} {state : PortState} {rx : Option ℕ}
    {g t : List ℕ} (h : outcome r = (⟨state, rx, none⟩, g, t)) : r.1.TxLoaded := by
  refine TxLoaded.of_none ?_
  simp only [outcome, Prod.mk.injEq] at h
  rw [h.1]

@[simp] theorem checkReceivedData_tx (start size d : ℕ) :
    (p.checkReceivedData start size d).tx = p.tx := by
  unfold checkReceivedData
  split
  · rfl
  · simp only
    split <;> rfl

theorem handleBreak_tx (got : Option Entry) : (p.handleBreak got).1.tx = p.tx := by
  unfold handleBreak
  split
  · cases got <;> rfl
  · cases got <;> rfl
  · split <;> rfl
  · rfl

namespace TxLoaded

theorem transmitterHasSpace (hp : p.TxLoaded) (n : ℤ) : (p.transmitterHasSpace n).1.TxLoaded := by
  unfold Port.transmitterHasSpace
  split
  · exact hp
  · exact of_none (congrArg View.tx checkoutTxFrame_view)
  · split
    · exact hp
    · simp only
      split
      · exact fun _ => rfl
      · exact hp.of_eq rfl

theorem transmitterEmpty (hp : p.TxLoaded) (got : Option Entry) :
    (p.transmitterEmpty got).1.TxLoaded := by
  unfold Port.transmitterEmpty
  split
  · exact hp.of_eq rfl
  split
  · exact hp
  split
  · exact of_outcome endTransmission_outcome
  · split
    · split
      · cases got
        · exact of_outcome endTransmission_outcome
        · exact hp.of_eq rfl
      · exact hp.of_eq rfl
    · exact of_outcome endTransmission_outcome

theorem receiveData (hp : p.TxLoaded) (count : ℕ) (fifo : List UInt8) :
    (p.receiveData count fifo).1.TxLoaded := by
  unfold Port.receiveData
  split
  · exact hp
  · simp only
    split
    · split
      · exact of_outcome (r := Port.completeRx _) completeRx_outcome
      · exact hp.of_eq (checkReceivedData_tx _ _ _)
    · exact hp

theorem completeDiscovery (hp : p.TxLoaded) : p.completeDiscovery.1.TxLoaded := by
  have hnone : ∀ q : Port, ({ q.checkoutTxFrame.1 with state := .idle } : Port).TxLoaded :=
    fun q => of_none (congrArg View.tx (checkoutTxFrame_view (p := q)))
  unfold Port.completeDiscovery
  split
  · simp only
    split
    · exact hnone _
    · exact hnone _
    · exact hp
  · exact hp

theorem receiveDiscovery (hp : p.TxLoaded) (count : ℕ) (fifo : List UInt8) :
    (p.receiveDiscovery count fifo).1.TxLoaded := by
  unfold Port.receiveDiscovery
  split
  · exact hp
  · simp only
    split
    · split
      · split
        · exact of_none (congrArg (fun o => o.1.tx) (answerRequest_outcome _))
        · exact completeDiscovery (hp.of_eq rfl)
        · exact hp.of_eq rfl
      · exact completeDiscovery (hp.of_eq rfl)
    · exact hp

theorem receiverDataAvailable (hp : p.TxLoaded) (count : Option ℕ) (fifo : List UInt8) :
    (p.receiverDataAvailable count fifo).1.TxLoaded := by
  unfold Port.receiverDataAvailable
  simp only
  split
  · exact hp
  split
  · exact hp.of_eq rfl
  · split
    · exact receiveData (p := { p with state := .receiveDmxdata }) hp _ _
    · exact receiveData (p := { p with state := .receiveDmxdata }) hp _ _
    · exact receiveData hp _ _
    · exact receiveDiscovery (p := { p with rdmTimer := some 5000 }) hp _ _
    · exact receiveDiscovery hp _ _
    · exact hp

theorem sendFrame (hp : p.TxLoaded) (frame : Entry) : (p.sendFrame frame).1.TxLoaded := by
  have hflush : (if p.rx.frame.isSome then p.flushRx else (p, [])).1.TxLoaded := by
    split
    · exact hp.of_eq flushRx_tx
    · exact hp
  have hload : ∀ q : Port, (q.loadTx frame).startTx.1.TxLoaded := by
    intro q
    have htx : (q.loadTx frame).startTx.1.tx = (q.loadTx frame).tx := by
      unfold startTx
      simp only
      split <;> rfl
    have hptr : (q.loadTx frame).tx.ptr.isSome := by
      unfold loadTx
      simp only
      split
      · split
        · rfl
        · split <;> rfl
      · rfl
    exact fun _ => htx ▸ hptr
  unfold Port.sendFrame
  simp only
  split
  · exact hflush
  · exact hload _

theorem lineStatusEvent (hp : p.TxLoaded) (isBreak : Bool) (got : Option Entry) :
    (p.lineStatusEvent isBreak got).1.TxLoaded := by
  unfold Port.lineStatusEvent
  split
  · exact hp
  split
  · refine hp.of_eq ((handleBreak_tx got).trans ?_)
    split
    · exact flushRx_tx
    · rfl
  · exact hp

theorem handleRdmTimeout (hp : p.TxLoaded) : p.handleRdmTimeout.1.TxLoaded := by
  unfold Port.handleRdmTimeout
  split
  · exact hp
  · split
    · exact of_outcome (answerRequest_outcome _)
    · exact of_outcome (answerRequest_outcome _)
    · exact of_outcome (answerRequest_outcome _)
    · exact of_outcome (answerRequest_outcome _)
    · exact hp

/-- Whatever happens, a frame in the transmit slot has its position. -/
theorem step (hp : p.TxLoaded) (e : Event) : (p.step e).TxLoaded := by
  cases e with
  | sendFrame frame => exact hp.sendFrame frame
  | transmitterHasSpace n => exact hp.transmitterHasSpace n
  | transmitterEmpty got => exact hp.transmitterEmpty got
  | receiverDataAvailable count fifo => exact hp.receiverDataAvailable count fifo
  | lineStatusEvent isBreak got => exact hp.lineStatusEvent isBreak got
  | rdmTimeout => exact hp.handleRdmTimeout

end TxLoaded

end Port

/-! ## Slots and states -/

/-- The slots in use are those the state is to use. -/
def View.Matches (v : View) : Prop :=
  v.tx.isSome = v.state.requests ∧ v.rx.isSome = v.state.receives

instance (v : View) : Decidable v.Matches := inferInstanceAs (Decidable (_ ∧ _))

namespace Port

/-- **The slots in use are those the state is to use**: `tx.frame` and
`rx.frame` are there just in the states that need them. -/
def SlotsMatch (p : Port) : Prop :=
  p.tx.frame.isSome = p.state.requests ∧ p.rx.frame.isSome = p.state.receives

/-- **The steps that keep the slots matched.** While a reply is being
received there is no frame to send and no space reported once all is
sent; while one is awaited or received the timer does not expire; no data
arrive before the break of a reply. -/
def keepsMatch (p : Port) : Event → Prop
  | .sendFrame _ => ¬ (p.state.receives ∧ p.state.requests)
  | .transmitterHasSpace _ => ¬ (p.state.receives ∧ p.state.requests ∧ p.tx.remain = 0)
  | .receiverDataAvailable _ _ => p.state ≠ .expectRdmFrame
  | .rdmTimeout => ¬ p.state.awaitsReply
  | .transmitterEmpty _ | .lineStatusEvent _ _ => True

theorem slotsMatch_iff_outcome {r : Port × List Action} :
    r.1.SlotsMatch ↔ (outcome r).1.Matches := by
  unfold SlotsMatch View.Matches outcome view
  simp only [Option.isSome_map]

theorem SlotsMatch.view (h : p.SlotsMatch) : p.view.Matches :=
  (slotsMatch_iff_outcome (r := (p, []))).1 h

theorem SlotsMatch.tx (h : p.SlotsMatch) : p.view.tx.isSome = p.state.requests := h.view.1

theorem SlotsMatch.rx (h : p.SlotsMatch) : p.view.rx.isSome = p.state.receives := h.view.2

/-- A frame to send makes the port idle while a reply is being received. -/
theorem SlotsMatch.sendFrame (h : p.SlotsMatch) (frame : Entry) :
    (outcome (p.sendFrame frame)).1.Matches ↔ ¬ (p.state.receives ∧ p.state.requests) := by
  have htx := h.tx
  have hrx := h.rx
  have hout := sendFrame_outcome (p := p) frame
  by_cases hnone : p.view.tx = none
  · rw [if_pos hnone] at hout
    obtain ⟨state, hstate, hout⟩ := hout
    rw [hnone, Option.isSome_none] at htx
    rw [hout, ← htx]
    rcases hstate with rfl | rfl <;> simp [View.Matches, PortState.requests, PortState.receives]
  · rw [if_neg hnone] at hout
    rw [hout, hrx]
    have hsome : p.view.tx.isSome := Option.isSome_iff_ne_none.2 hnone
    rw [hsome] at htx
    unfold View.Matches
    simp only [hsome]
    cases hs : p.state <;> simp [hs, PortState.requests, PortState.receives] at htx ⊢ <;> decide

/-- Space reported once all is sent ends the transmission again. -/
theorem SlotsMatch.transmitterHasSpace (h : p.SlotsMatch) (hload : p.TxLoaded) (n : ℤ) :
    (outcome (p.transmitterHasSpace n)).1.Matches ↔
      ¬ (p.state.receives ∧ p.state.requests ∧ p.tx.remain = 0) := by
  have hmap : p.view.tx.isSome = p.tx.frame.isSome := by simp [Port.view]
  rw [transmitterHasSpace_outcome hload n, ← h.rx, ← h.tx, hmap]
  by_cases hdone : p.tx.frame.isSome ∧ p.tx.remain = 0
  · rw [if_pos hdone]
    simp only [View.Matches, hmap, hdone, PortState.requests, PortState.receives]
    simp
  · rw [if_neg hdone]
    exact iff_of_true h.view fun hall => hdone hall.2

theorem SlotsMatch.transmitterEmpty (h : p.SlotsMatch) (got : Option Entry) :
    (outcome (p.transmitterEmpty got)).1.Matches := by
  have htx := h.tx
  have hrx := h.rx
  rw [transmitterEmpty_outcome got]
  split_ifs with hbreak hwait hdisc hrdm
  · rw [hbreak] at htx hrx
    exact ⟨htx, hrx⟩
  · exact h.view
  all_goals rw [not_not.1 hwait] at htx hrx
  · cases got with
    | none => exact ⟨rfl, rfl⟩
    | some g => exact ⟨htx, rfl⟩
  · exact ⟨htx, hrx⟩
  · exact ⟨rfl, hrx⟩

/-- Data without a frame to store them in make the port idle, with the
request it has. -/
theorem SlotsMatch.receiverDataAvailable (h : p.SlotsMatch) (count : Option ℕ)
    (fifo : List UInt8) :
    (outcome (p.receiverDataAvailable count fifo)).1.Matches ↔ p.state ≠ .expectRdmFrame := by
  have htx := h.tx
  have hrx := h.rx
  rcases receiverDataAvailable_outcome (p := p) count fifo with
    ⟨hisTx, hout⟩ | ⟨hisTx, hnone, hout⟩ | ⟨hsome, state, hreceives, hrequests, hout⟩
  · rw [hout]
    have hne : p.state ≠ .expectRdmFrame := by
      intro hs
      rw [hs] at hisTx
      exact absurd hisTx (by decide)
    exact iff_of_true h.view hne
  · rw [hout]
    rw [hnone] at hrx
    unfold View.Matches
    simp only [htx]
    cases hs : p.state <;> simp [hs, PortState.receives] at hrx hisTx ⊢ <;>
      first | decide | exact absurd hisTx (by decide)
  · have hne : p.state ≠ .expectRdmFrame := by
      intro hs
      rw [hsome, hs] at hrx
      exact absurd hrx (by decide)
    refine iff_of_true ?_ hne
    rcases hout with hout | ⟨hout, -, -⟩
    · rw [hout]
      exact ⟨htx.trans hrequests.symm, hrx.trans hreceives.symm⟩
    · rw [hout]
      exact ⟨rfl, rfl⟩

theorem SlotsMatch.lineStatusEvent (h : p.SlotsMatch) (isBreak : Bool) (got : Option Entry) :
    (outcome (p.lineStatusEvent isBreak got)).1.Matches := by
  have htx := h.tx
  rw [lineStatusEvent_outcome]
  split_ifs with hbreak hidle hdown hexpect
  · exact h.view
  · have hnotx : p.view.tx.isSome = false := by
      rcases hidle with hs | ⟨hs, -⟩ <;> rw [hs] at htx <;> exact htx
    cases got with
    | none => exact ⟨hnotx, rfl⟩
    | some g => exact ⟨hnotx, rfl⟩
  · rw [hdown] at htx
    exact ⟨htx, rfl⟩
  · rw [hexpect] at htx
    cases got with
    | none => exact ⟨htx, rfl⟩
    | some g => exact ⟨htx, rfl⟩
  · exact h.view

/-- A timeout empties the slots and leaves the state. -/
theorem SlotsMatch.handleRdmTimeout (h : p.SlotsMatch) :
    (outcome p.handleRdmTimeout).1.Matches ↔ ¬ p.state.awaitsReply := by
  have hmap : p.view.tx.isSome = p.tx.frame.isSome := by simp [Port.view]
  have hview := h.view
  rw [handleRdmTimeout_outcome, ← hmap, h.tx]
  cases hs : p.state <;> simp [PortState.requests, PortState.awaitsReply, hview] <;> decide

/-- **One step**: the slots stay matched just when it is one of those
that keep them so. -/
theorem SlotsMatch.step_iff (hload : p.TxLoaded) (h : p.SlotsMatch) (e : Event) :
    (p.step e).SlotsMatch ↔ p.keepsMatch e := by
  refine slotsMatch_iff_outcome.trans ?_
  cases e with
  | sendFrame frame => exact h.sendFrame frame
  | transmitterHasSpace n => exact h.transmitterHasSpace hload n
  | transmitterEmpty got => exact iff_of_true (h.transmitterEmpty got) trivial
  | receiverDataAvailable count fifo => exact h.receiverDataAvailable count fifo
  | lineStatusEvent isBreak got => exact iff_of_true (h.lineStatusEvent isBreak got) trivial
  | rdmTimeout => exact h.handleRdmTimeout

/-- **Exactly when the slots stay matched**: in every state a run from a
new port reaches they are matched, just when every step of the run keeps
them so. -/
theorem slotsMatch_iff (es : List Event) :
    Always step SlotsMatch create es ↔ EachStep step keepsMatch create es :=
  always_iff_eachStep (fun _ e hload => hload.step e) (fun _ e hload h => h.step_iff hload e)
    (fun h => absurd h (by decide)) ⟨rfl, rfl⟩

/-- A GET request, as it is given to the port. -/
def getRequest : Entry where
  id := 1
  frame := ⟨0, ⟨false, false, false, 0⟩, 0, 25, Mem.write (fun _ => 0) 0 [0xCC, 0x01, 24]⟩

/-- Send a request of 26 octets: the break, its octets, and their end. -/
def requestSent (e : Entry) (got : Option Entry) : List Event :=
  [.sendFrame e, .transmitterEmpty none, .transmitterHasSpace (-1), .transmitterHasSpace (-1),
    .transmitterHasSpace (-1), .transmitterHasSpace (-1), .transmitterEmpty got]

/-- A request that is not answered in time is handed up, and the port
keeps waiting for the reply. -/
theorem not_slotsMatch_unanswered :
    ¬ ∀ es, Always step SlotsMatch create es := by
  intro h
  have hlast := (h (requestSent getRequest none ++ [.rdmTimeout])).last
  exact absurd hlast.1 (by decide)

end Port

end Rtuart

end Dmx4Linux2
