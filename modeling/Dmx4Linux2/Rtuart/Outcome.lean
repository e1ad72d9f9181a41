import Dmx4Linux2.Rtuart.Model.Port

/-!
# rtuart DMX client — what a callback does to the frames

A port has two slots for frames. What an event does to them, and which
frames it takes from its environment and gives back, is its `outcome`;
each callback has one lemma that says which outcomes it can have.
Everything else about the data is left out here.
-/

namespace Dmx4Linux2

namespace Rtuart

/-! ## Outcomes -/

/-- What is in the slots, and the state. -/
structure View where
  state : PortState
  rx : Option ℕ
  tx : Option ℕ
  deriving DecidableEq

def Port.view (p : Port) : View := ⟨p.state, p.rx.frame.map Entry.id, p.tx.frame.map Entry.id⟩

namespace Action

/-- The frame an action gives back. -/
def given? : Action → Option ℕ
  | putFrame e | receivedFrame e => some e.id
  | _ => none

/-- The frame an action takes. -/
def taken? : Action → Option ℕ
  | getFrame e => e.map Entry.id
  | _ => none

end Action

/-- The frames given back. -/
def given (acts : List Action) : List ℕ := acts.filterMap Action.given?

/-- The frames taken. -/
def taken (acts : List Action) : List ℕ := acts.filterMap Action.taken?

/-- **What a callback comes to**: the slots it leaves, and the frames it
gives back and takes. -/
def outcome (r : Port × List Action) : View × List ℕ × List ℕ := (r.1.view, given r.2, taken r.2)

variable {p : Port} {acts acts' : List Action}

@[simp] theorem given_append : given (acts ++ acts') = given acts ++ given acts' :=
  List.filterMap_append

@[simp] theorem taken_append : taken (acts ++ acts') = taken acts ++ taken acts' :=
  List.filterMap_append

@[simp] theorem given_putFrame (o : Option Entry) :
    given (putFrame o) = (o.map Entry.id).toList := by
  cases o <;> rfl

@[simp] theorem given_receivedFrame (o : Option Entry) :
    given (receivedFrame o) = (o.map Entry.id).toList := by
  cases o <;> rfl

@[simp] theorem taken_putFrame (o : Option Entry) : taken (putFrame o) = [] := by
  cases o <;> rfl

@[simp] theorem taken_receivedFrame (o : Option Entry) : taken (receivedFrame o) = [] := by
  cases o <;> rfl

@[simp] theorem delivered_append : delivered (acts ++ acts') = delivered acts ++ delivered acts' :=
  List.filterMap_append

@[simp] theorem delivered_putFrame (o : Option Entry) : delivered (putFrame o) = [] := by
  cases o <;> rfl

@[simp] theorem delivered_receivedFrame (o : Option Entry) :
    delivered (receivedFrame o) = o.toList := by
  cases o <;> rfl

/-- Two runs one behind the other. -/
theorem Port.handleAll_append (p : Port) (es es' : List Event) :
    p.handleAll (es ++ es') = (((p.handleAll es).1.handleAll es').1,
      (p.handleAll es).2 ++ ((p.handleAll es).1.handleAll es').2) := by
  induction es generalizing p with
  | nil => rfl
  | cons e es ih =>
    rw [List.cons_append, handleAll, ih, handleAll, List.append_assoc]

/-- All that is there is read. -/
theorem readChars_self {bs : List UInt8} (h : bs.length < 2 ^ 64) :
    readChars bs bs.length = bs := by
  unfold readChars
  have hlen : ((bs.length : ℤ) % 2 ^ 64).toNat = bs.length := by omega
  rw [hlen, List.take_length]

/-- The states in which a reply is awaited that can time out. -/
def PortState.awaitsReply : PortState → Bool
  | expectRdmFrame | receiveRdmdata | rdmdiscRecvPreamble | rdmdiscRecvData => true
  | _ => false

namespace Port

/-! ## Taking frames out of their slots -/

theorem checkoutTxFrame_view : p.checkoutTxFrame.1.view = { p.view with tx := none } := by
  unfold checkoutTxFrame
  split <;> simp_all [view]

@[simp] theorem checkoutTxFrame_snd : p.checkoutTxFrame.2 = p.tx.frame := by
  unfold checkoutTxFrame
  split <;> simp_all

@[simp] theorem checkoutTxFrame_rx : p.checkoutTxFrame.1.rx = p.rx := by
  unfold checkoutTxFrame
  split <;> rfl

theorem checkoutRxFrame_view : p.checkoutRxFrame.1.view = { p.view with rx := none } := by
  unfold checkoutRxFrame
  split <;> simp_all [view]

@[simp] theorem checkoutRxFrame_snd_id :
    p.checkoutRxFrame.2.map Entry.id = p.rx.frame.map Entry.id := by
  unfold checkoutRxFrame
  split <;> simp_all

@[simp] theorem checkoutRxFrame_tx : p.checkoutRxFrame.1.tx = p.tx := by
  unfold checkoutRxFrame
  split <;> rfl

@[simp] theorem checkoutRxFrame_state : p.checkoutRxFrame.1.state = p.state := by
  unfold checkoutRxFrame
  split <;> rfl

/-! ## Transmitting -/

/-- The state a port with a frame to send goes to when there is space. -/
theorem transmitterHasSpace_outcome (hptr : p.tx.frame.isSome → p.tx.ptr.isSome) (n : ℤ) :
    outcome (p.transmitterHasSpace n) =
      (if p.tx.frame.isSome ∧ p.tx.remain = 0 then { p.view with state := .waitForTxComplete }
        else p.view, [], []) := by
  unfold transmitterHasSpace
  match hf : p.tx.frame, hp : p.tx.ptr with
  | none, _ => rfl
  | some e, none => simp [hf, hp] at hptr
  | some e, some ptr =>
    simp only
    by_cases hw : p.state = .waitForTxComplete
    · rw [if_pos hw]
      have hview : { p.view with state := .waitForTxComplete } = p.view := by
        rw [← hw]
        rfl
      rw [hview, ite_self]
      rfl
    · rw [if_neg hw]
      by_cases hr : p.tx.remain > 0
      · have hmore : ¬ ((some e).isSome = true ∧ p.tx.remain = 0) := fun h => by omega
        rw [if_pos hr, if_neg hmore]
        simp only [outcome, view, hf]
        rfl
      · have hdone : (some e).isSome = true ∧ p.tx.remain = 0 := ⟨rfl, by omega⟩
        rw [if_neg hr, if_pos hdone]
        simp only [outcome, view, hf]
        rfl

/-- Both slots are emptied. -/
theorem answerRequest_outcome (reply : Frame → Frame) :
    outcome (p.answerRequest reply) =
      (⟨p.state, none, none⟩, p.view.rx.toList ++ p.view.tx.toList, []) := by
  unfold answerRequest outcome
  simp only [checkoutTxFrame_view, checkoutRxFrame_view, given_append, given_putFrame,
    given_receivedFrame, taken_append, taken_putFrame, taken_receivedFrame,
    checkoutRxFrame_snd_id, checkoutTxFrame_snd, checkoutRxFrame_tx, Option.map_map]
  rfl

/-- A timeout empties both slots in the states that await a reply. -/
theorem handleRdmTimeout_outcome :
    outcome p.handleRdmTimeout =
      if p.tx.frame.isSome ∧ p.state.awaitsReply then
        (⟨p.state, none, none⟩, p.view.rx.toList ++ p.view.tx.toList, [])
      else (p.view, [], []) := by
  unfold handleRdmTimeout
  match hf : p.tx.frame with
  | none => simp [outcome, given, taken]
  | some e =>
    simp only
    cases hs : p.state <;> simp only [PortState.awaitsReply] <;>
      first
      | (rw [answerRequest_outcome]; simp [view, hs, hf])
      | simp [outcome, given, taken]

/-- The request is given back. -/
theorem endTransmission_outcome :
    outcome p.endTransmission = (⟨.idle, p.view.rx, none⟩, p.view.tx.toList, []) := by
  have hview := checkoutTxFrame_view (p := p)
  unfold endTransmission outcome
  simp only [given_putFrame, taken_putFrame, checkoutTxFrame_snd]
  unfold view at hview ⊢
  simp only [View.mk.injEq] at hview
  simp only [hview.2.1, hview.2.2]

/-- A discovery request is in the transmit slot. -/
def sendsDiscovery (p : Port) : Bool :=
  p.tx.frame.any fun e => e.frame.flags.isRdm && e.frame.flags.isRdmDisc

/-- Another RDM request is. -/
def sendsRdm (p : Port) : Bool :=
  p.tx.frame.any fun e => e.frame.flags.isRdm && !e.frame.flags.isRdmDisc

/-- The end of a transmission: what follows depends on the frame sent. -/
theorem transmitterEmpty_outcome (got : Option Entry) :
    outcome (p.transmitterEmpty got) =
      if p.state = .transmitBreak then ({ p.view with state := .transmitData }, [], [])
      else if p.state ≠ .waitForTxComplete then (p.view, [], [])
      else if p.sendsDiscovery then
        match got with
        | some g => (⟨.rdmdiscRecvPreamble, some g.id, p.view.tx⟩, [], [g.id])
        | none => (⟨.idle, none, none⟩, p.view.tx.toList, [])
      else if p.sendsRdm then (⟨.expectRdmFrame, p.view.rx, p.view.tx⟩, [], [])
      else (⟨.idle, p.view.rx, none⟩, p.view.tx.toList, []) := by
  have hin : ∀ r : Port × List Action,
      outcome (r.1, switchToInput ++ r.2) = outcome r := fun _ => rfl
  unfold transmitterEmpty
  split
  · rfl
  split
  · rfl
  cases hf : p.tx.frame with
  | none =>
    simp only [sendsDiscovery, sendsRdm, hf, Option.any_none]
    rw [hin, endTransmission_outcome]
    rfl
  | some e =>
    simp only [sendsDiscovery, sendsRdm, hf, Option.any_some]
    cases hr : e.frame.flags.isRdm
    · simp only [Bool.false_eq_true, if_false, Bool.false_and]
      rw [hin, endTransmission_outcome]
    · cases hd : e.frame.flags.isRdmDisc
      · simp only [if_true, Bool.false_eq_true, if_false, Bool.and_false, Bool.not_false,
          Bool.and_true]
        rfl
      · simp only [if_true, Bool.and_true]
        cases got with
        | some g => rfl
        | none =>
          have hout := endTransmission_outcome (p := { p with rx := { p.rx with frame := none } })
          unfold outcome at hout ⊢
          simp only [Prod.mk.injEq] at hout
          simp only [given_append, taken_append, Prod.mk.injEq]
          refine ⟨hout.1, ?_, ?_⟩
          · refine Eq.trans ?_ hout.2.1
            rfl
          · refine Eq.trans ?_ hout.2.2
            rfl

/-! ## Receiving -/

@[simp] theorem storeRx_view (d : ℕ) (bs : List UInt8) : (p.storeRx d bs).view = p.view := by
  unfold storeRx view
  cases p.rx.frame <;> rfl

@[simp] theorem advanceRx_view (n : ℕ) : (p.advanceRx n).view = p.view := rfl

@[simp] theorem checkReceivedData_view (start size d : ℕ) :
    (p.checkReceivedData start size d).view = p.view := by
  unfold checkReceivedData
  match hf : p.rx.frame with
  | none => rfl
  | some e =>
    simp only
    split
    · rfl
    · simp only [view, hf]
      rfl

/-- The frame received is handed up and the request given back. -/
theorem completeRx_outcome :
    outcome p.completeRx =
      (⟨.idle, none, none⟩, p.view.tx.toList ++ p.view.rx.toList, []) := by
  have key : ∀ q : Port, q.view = p.view →
      outcome ({ q.checkoutTxFrame.1.checkoutRxFrame.1 with state := .idle },
        putFrame q.checkoutTxFrame.2 ++ receivedFrame q.checkoutTxFrame.1.checkoutRxFrame.2) =
      (⟨.idle, none, none⟩, p.view.tx.toList ++ p.view.rx.toList, []) := by
    intro q hq
    have hview := checkoutRxFrame_view (p := q.checkoutTxFrame.1)
    rw [checkoutTxFrame_view] at hview
    unfold outcome
    simp only [given_append, given_putFrame, given_receivedFrame, taken_append, taken_putFrame,
      taken_receivedFrame, checkoutTxFrame_snd, checkoutRxFrame_snd_id, checkoutTxFrame_rx, ← hq]
    unfold view at hview ⊢
    simp only [View.mk.injEq] at hview
    simp only [hview.2.1, hview.2.2]
    rfl
  unfold completeRx
  refine key _ ?_
  split
  · split <;> rfl
  · rfl

/-- The slots stay, or both are emptied and the port is idle. -/
def StaysOrEnds (p : Port) (r : Port × List Action) (state : PortState) : Prop :=
  outcome r = (⟨state, p.view.rx, p.view.tx⟩, [], []) ∨
    ((outcome r).1 = ⟨.idle, none, none⟩ ∧ (outcome r).2.2 = [] ∧
      ∀ i, (outcome r).2.1.count i = p.view.rx.toList.count i + p.view.tx.toList.count i)

theorem receiveData_outcome (count : ℕ) (fifo : List UInt8) :
    StaysOrEnds p (p.receiveData count fifo) p.state := by
  have hflush : ∀ (r : Port × List Action) (c : Prop) [Decidable c],
      outcome (r.1, r.2 ++ if c then [Action.flushRxFifo] else []) = outcome r := by
    intro r c _
    unfold outcome
    simp only [given_append, taken_append]
    split <;> simp [given, taken, Action.given?, Action.taken?]
  have hview : ∀ d bs, (((p.storeRx d bs).checkReceivedData p.rx.count bs.length d).advanceRx
      bs.length).view = p.view := by
    intro d bs
    rw [advanceRx_view, checkReceivedData_view, storeRx_view]
  unfold receiveData
  match p.rx.data with
  | none => exact Or.inl rfl
  | some d =>
    simp only
    split
    · split
      · right
        rw [hflush, completeRx_outcome]
        refine ⟨rfl, rfl, fun i => ?_⟩
        rw [List.count_append, hview]
        omega
      · left
        refine (hflush (_, [.enableNotification .rxAvailable]) _).trans ?_
        exact congrArg (fun v => (v, ([] : List ℕ), ([] : List ℕ))) (hview _ _)
    · exact Or.inl (hflush (p, []) _)

theorem completeDiscovery_outcome : StaysOrEnds p p.completeDiscovery p.state := by
  unfold completeDiscovery
  split
  · match hf : p.rx.frame with
    | none =>
      have hnone : ({ p with rdmTimer := none } : Port).checkoutRxFrame.2 = none := by
        unfold checkoutRxFrame
        simp only [hf]
      simp only [hnone, Option.map_none]
      exact Or.inl rfl
    | some e =>
      right
      obtain ⟨e', he', hid⟩ : ∃ e', ({ p with rdmTimer := none } : Port).checkoutRxFrame.2 =
          some e' ∧ some e'.id = p.view.rx := by
        unfold checkoutRxFrame
        simp only [hf]
        exact ⟨_, rfl, by simp [view, hf]⟩
      have hview := checkoutTxFrame_view
        (p := ({ p with rdmTimer := none } : Port).checkoutRxFrame.1)
      rw [checkoutRxFrame_view] at hview
      unfold view at hview
      simp only [View.mk.injEq] at hview
      simp only [he', Option.map_some]
      -- a reply that is damaged changes only the order
      cases e'.frame.completeRdmDiscoveryReply <;>
        simp only [outcome, view, hview.2.1, hview.2.2, given_append, given_putFrame,
          given_receivedFrame, taken_append, taken_putFrame, taken_receivedFrame,
          checkoutTxFrame_snd, checkoutRxFrame_tx, Option.map_map, List.append_nil,
          List.count_append, true_and, Option.map_some] <;>
        intro i
      · rw [Nat.add_comm, hid]
        rfl
      · rw [Nat.add_comm, hid]
        rfl
  · exact Or.inl rfl

/-- A discovery reply is being received, in the state the port was in or
in the next. -/
theorem receiveDiscovery_outcome (count : ℕ) (fifo : List UInt8) :
    ∃ state, (state = p.state ∨ state = .rdmdiscRecvData) ∧
      StaysOrEnds p (p.receiveDiscovery count fifo) state := by
  have hends : ∀ (q : Port) r state, q.view.rx = p.view.rx → q.view.tx = p.view.tx →
      StaysOrEnds q r state → StaysOrEnds p r state := by
    intro q r state hrx htx h
    unfold StaysOrEnds at h ⊢
    rwa [hrx, htx] at h
  unfold receiveDiscovery
  match p.rx.data with
  | none => exact ⟨p.state, Or.inl rfl, Or.inl rfl⟩
  | some d =>
    simp only
    split
    · generalize readChars fifo count = bs
      have hview := storeRx_view (p := p) d bs
      have hrx : (p.storeRx d bs).view.rx = p.view.rx := by rw [hview]
      have htx : (p.storeRx d bs).view.tx = p.view.tx := by rw [hview]
      split
      · cases findPreamble bs with
        | collision =>
          refine ⟨p.state, Or.inl rfl, Or.inr ?_⟩
          have hout := answerRequest_outcome
            (p := { p.storeRx d bs with rdmTimer := none }) Frame.rdmDiscoveryReplyCollision
          simp only [outcome, view, Prod.mk.injEq, View.mk.injEq] at hout
          obtain ⟨⟨-, hnorx, hnotx⟩, hgiven, htaken⟩ := hout
          refine ⟨?_, ?_, fun i => ?_⟩
          · simp only [outcome, advanceRx, view, hnorx, hnotx]
          · simp only [outcome, taken_append, htaken]
            rfl
          · simp only [outcome, given_append, hgiven, List.count_append]
            rw [← hrx, ← htx]
            rfl
        | found i => exact ⟨_, Or.inr rfl, hends _ _ _ hrx htx completeDiscovery_outcome⟩
        | incomplete =>
          refine ⟨p.state, Or.inl rfl, Or.inl ?_⟩
          exact congrArg (fun v => (v, ([] : List ℕ), ([] : List ℕ))) hview
      · exact ⟨p.state, Or.inl rfl, hends _ _ _ hrx htx completeDiscovery_outcome⟩
    · exact ⟨p.state, Or.inl rfl, Or.inl rfl⟩

end Port

/-- The state is one in which the receive slot is to be in use. -/
def PortState.receives : PortState → Bool
  | expectStartcode | receiveDmxdata | receiveRdmdata | rdmdiscRecvPreamble | rdmdiscRecvData =>
    true
  | _ => false

/-- The state is one in which the transmit slot is to be in use. -/
def PortState.requests : PortState → Bool
  | transmitBreak | transmitData | waitForTxComplete | expectRdmFrame | receiveRdmdata
  | rdmdiscRecvPreamble | rdmdiscRecvData => true
  | _ => false

namespace Port

theorem receiverDataAvailable_outcome (count : Option ℕ) (fifo : List UInt8) :
    (p.state.isTx ∧ outcome (p.receiverDataAvailable count fifo) = (p.view, [], [])) ∨
    (¬ p.state.isTx ∧ p.view.rx = none ∧
      outcome (p.receiverDataAvailable count fifo) = (⟨.idle, none, p.view.tx⟩, [], [])) ∨
    (p.view.rx.isSome ∧ ∃ state : PortState, state.receives = p.state.receives ∧
      state.requests = p.state.requests ∧
      StaysOrEnds p (p.receiverDataAvailable count fifo) state) := by
  unfold receiverDataAvailable
  simp only
  by_cases htx : p.state.isTx
  · rw [if_pos htx]
    exact Or.inl ⟨htx, rfl⟩
  rw [if_neg htx]
  right
  match hf : p.rx.frame with
  | none =>
    left
    have hview : p.view.rx = none := by simp [view, hf]
    refine ⟨htx, hview, ?_⟩
    simp only [outcome, view, hf]
    rfl
  | some e =>
    right
    refine ⟨by simp [view, hf], ?_⟩
    simp only
    generalize hn : count.getD 1 = n
    cases hs : p.state with
    | expectStartcode | receiveDmxdata =>
      exact ⟨.receiveDmxdata, rfl, rfl,
        receiveData_outcome (p := { p with state := .receiveDmxdata }) n fifo⟩
    | receiveRdmdata =>
      have h := receiveData_outcome (p := p) n fifo
      rw [hs] at h
      exact ⟨.receiveRdmdata, rfl, rfl, h⟩
    | rdmdiscRecvPreamble =>
      obtain ⟨state, hstate, h⟩ := receiveDiscovery_outcome
        (p := { p with state := .rdmdiscRecvPreamble, rdmTimer := some 5000 }) n fifo
      refine ⟨state, ?_, ?_, h⟩ <;> rcases hstate with rfl | rfl <;> rfl
    | rdmdiscRecvData =>
      obtain ⟨state, hstate, h⟩ := receiveDiscovery_outcome (p := p) n fifo
      rw [hs, or_self] at hstate
      exact ⟨state, by rw [hstate], by rw [hstate], h⟩
    | down | idle | expectRdmFrame | transmitBreak | transmitData | waitForTxComplete =>
      exact ⟨p.state, by rw [hs], by rw [hs], Or.inl rfl⟩

/-! ## Breaks -/

/-- What was received is handed up. -/
theorem flushRx_outcome :
    outcome p.flushRx =
      (⟨if p.state.isRx then .idle else p.state, none, p.view.tx⟩, p.view.rx.toList, []) := by
  have hview := checkoutRxFrame_view (p := p)
  unfold flushRx outcome
  simp only [given_receivedFrame, taken_receivedFrame, checkoutRxFrame_snd_id,
    checkoutRxFrame_state]
  unfold view at hview ⊢
  simp only [View.mk.injEq] at hview
  split <;> simp only [hview.2.1, hview.2.2, checkoutRxFrame_state]

@[simp] theorem flushRx_tx : p.flushRx.1.tx = p.tx := by
  unfold flushRx
  simp only
  split <;> exact checkoutRxFrame_tx

/-- The frame a break starts to receive into, or nothing if there is none. -/
def startOutcome (got : Option Entry) (started waiting : PortState) (tx : Option ℕ) :
    View × List ℕ × List ℕ :=
  match got with
  | some g => (⟨started, some g.id, tx⟩, [], [g.id])
  | none => (⟨waiting, none, tx⟩, [], [])

theorem handleBreak_outcome (got : Option Entry) :
    outcome (p.handleBreak got) =
      if p.state = .idle then startOutcome got .expectStartcode .idle p.view.tx
      else if p.state = .expectRdmFrame then
        startOutcome got .receiveRdmdata .expectRdmFrame p.view.tx
      else (p.view, [], []) := by
  unfold handleBreak
  cases hs : p.state <;> simp only [reduceCtorEq, if_true, if_false]
  case idle => cases got <;> simp only [outcome, startOutcome, view, hs] <;> rfl
  case expectRdmFrame => cases got <;> simp only [outcome, startOutcome, view, hs] <;> rfl
  case expectStartcode =>
    cases hf : p.rx.frame with
    | none => rfl
    | some e =>
      simp only [outcome, view, hf, hs]
      rfl
  all_goals rfl

/-- **A break.** A frame that is being received without a request is
handed up first; where a request awaits its reply, what the receive slot
holds is overwritten. -/
theorem lineStatusEvent_outcome (isBreak : Bool) (got : Option Entry) :
    outcome (p.lineStatusEvent isBreak got) =
      if p.state.isTx ∨ ¬ isBreak then (p.view, [], [])
      else if p.state = .idle ∨ p.state = .receiveDmxdata ∧ p.view.rx.isSome then
        let r := startOutcome got .expectStartcode .idle p.view.tx
        (r.1, p.view.rx.toList, r.2.2)
      else if p.state = .down then (⟨.down, none, p.view.tx⟩, p.view.rx.toList, [])
      else if p.state = .expectRdmFrame then
        startOutcome got .receiveRdmdata .expectRdmFrame p.view.tx
      else (p.view, [], []) := by
  have hline : ∀ (r : Port × List Action) (a : List Action),
      outcome (r.1, a ++ r.2 ++ [.enableNotification .lineEvent]) =
        ((outcome r).1, given a ++ (outcome r).2.1, taken a ++ (outcome r).2.2) := by
    intro r a
    simp [outcome, given, taken, Action.given?, Action.taken?]
  have hstart : ∀ started waiting tx, (startOutcome got started waiting tx).2.1 = [] := by
    intro started waiting tx
    cases got <;> rfl
  unfold lineStatusEvent
  by_cases htx : p.state.isTx
  · rw [if_pos htx, if_pos (Or.inl htx)]
    rfl
  rw [if_neg htx]
  cases isBreak with
  | false =>
    rw [if_neg Bool.false_ne_true, if_pos (Or.inr Bool.false_ne_true)]
    rfl
  | true =>
    have hguard : ¬ (p.state.isTx = true ∨ ¬ true = true) := by simp [htx]
    rw [if_pos rfl, if_neg hguard]
    simp only [hline]
    by_cases hflush : p.state.code ≤ PortState.receiveDmxdata.code ∧ p.rx.frame.isSome ∧
        p.state ≠ .expectStartcode
    · -- what is being received is handed up; the port is idle afterwards, or was down
      obtain ⟨hcode, hsome, hne⟩ := hflush
      have hrx : p.view.rx.isSome := by simpa [view] using hsome
      have hout := flushRx_outcome (p := p)
      simp only [outcome, Prod.mk.injEq] at hout
      obtain ⟨hview, hgiven, htaken⟩ := hout
      have hstate : p.flushRx.1.state = if p.state.isRx then .idle else p.state :=
        congrArg View.state hview
      rw [if_pos ⟨hcode, hsome, hne⟩]
      simp only [handleBreak_outcome, hgiven, htaken, hstate, hview, hrx]
      cases hs : p.state <;> simp [hs, PortState.code, PortState.isRx, PortState.firstRxState,
        PortState.lastRxState, hstart] at hcode hne ⊢
    · rw [if_neg hflush]
      simp only [handleBreak_outcome]
      cases hs : p.state <;> simp [hs, PortState.code, hstart, given, taken] at hflush ⊢
      case expectRdmFrame => cases got <;> rfl
      all_goals simp [view, hs, hflush]

/-! ## Sending -/

theorem loadTx_view (frame : Entry) :
    (p.loadTx frame).view = ⟨.transmitBreak, p.view.rx, some frame.id⟩ := by
  unfold loadTx
  simp only
  split
  · split
    · rfl
    · split <;> rfl
  · rfl

theorem startTx_outcome (hstate : p.state = .transmitBreak) :
    ∃ state, (state = .transmitBreak ∨ state = .transmitData) ∧
      outcome p.startTx = (⟨state, p.view.rx, p.view.tx⟩, [], []) := by
  unfold startTx
  simp only
  split
  · exact ⟨.transmitData, Or.inr rfl, rfl⟩
  · refine ⟨.transmitBreak, Or.inl rfl, ?_⟩
    rw [← hstate]
    rfl

/-- **A frame to send.** What was being received is handed up; the frame
is sent, or given back if another is in its slot. -/
theorem sendFrame_outcome (frame : Entry) :
    if p.view.tx = none then
      ∃ state, (state = .transmitBreak ∨ state = .transmitData) ∧
        outcome (p.sendFrame frame) = (⟨state, none, some frame.id⟩, p.view.rx.toList, [])
    else
      outcome (p.sendFrame frame) =
        (⟨if p.view.rx.isSome ∧ p.state.isRx then .idle else p.state, none, p.view.tx⟩,
          p.view.rx.toList ++ [frame.id], []) := by
  have hout : ∀ r, r = (if p.rx.frame.isSome then p.flushRx else (p, [])) → outcome r =
      (⟨if p.view.rx.isSome ∧ p.state.isRx then .idle else p.state, none, p.view.tx⟩,
        p.view.rx.toList, []) := by
    rintro r rfl
    match hf : p.rx.frame with
    | none => simp [outcome, view, hf, given, taken]
    | some e =>
      rw [Option.isSome_some, if_pos rfl, flushRx_outcome]
      simp [view, hf]
  unfold sendFrame
  generalize (if p.rx.frame.isSome then p.flushRx else (p, [])) = r at hout
  specialize hout r rfl
  simp only [outcome, Prod.mk.injEq] at hout
  obtain ⟨hview, hgiven, htaken⟩ := hout
  have htx : r.1.view.tx = p.view.tx := by rw [hview]
  match hf : r.1.tx.frame with
  | none =>
    have hnone : p.view.tx = none := by
      rw [← htx]
      simp [view, hf]
    rw [if_pos hnone]
    obtain ⟨state, hstate, hstart⟩ := startTx_outcome (p := r.1.loadTx frame)
      (congrArg View.state (loadTx_view frame))
    refine ⟨state, hstate, ?_⟩
    simp only [outcome, Prod.mk.injEq, loadTx_view, hview] at hstart
    simp only [hf, outcome, given_append, taken_append, hgiven, htaken, hstart, List.append_nil]
  | some e =>
    have hsome : ¬ p.view.tx = none := by
      rw [← htx]
      simp [view, hf]
    rw [if_neg hsome]
    simp only [hf, outcome, given_append, taken_append, hgiven, htaken, hview, given_putFrame,
      taken_putFrame, List.append_nil]
    rfl

end Port

end Rtuart

end Dmx4Linux2
