import Dmx4Linux2.Rtuart.Sizes
import Dmx4Linux2.Rtuart.Slots
import Dmx4Linux2.Rtuart.Transmit

/-!
# rtuart DMX client — replies made up by the client

When no reply to a request comes, or a damaged one, the client hands up
the request itself, turned into a reply. `TxStep` says what can become of
a request in the transmit slot; `Port.Unanswered` are the steps in which
it is handed up. `synthesized_iff` says for which requests that is a
well-formed response.
-/

namespace Dmx4Linux2

namespace Rtuart

/-- Whether a reply is awaited, and whether it is one to a discovery. -/
def PortState.awaited : PortState → Option Bool
  | rdmdiscRecvPreamble | rdmdiscRecvData => some true
  | expectRdmFrame | receiveRdmdata => some false
  | down | idle | expectStartcode | receiveDmxdata | transmitBreak | transmitData
  | waitForTxComplete => none

/-- How a request is turned into the reply that was awaited. -/
inductive Answers : Option Bool → (Frame → Frame) → Prop
  | discovery (fill : UInt8) : Answers (some true) fun f => f.rdmDiscoveryReply fill
  | rdm : Answers (some false) Frame.updateRdmChecksum

namespace Port

variable {p q : Port} {request : Entry}

/-! ## A request in the transmit slot -/

/-- **What becomes of the frame in the transmit slot** in a step that
writes nothing of it. -/
inductive TxStep (p : Port) (request : Entry) (r : Port × List Action) : Prop
  /-- It stays. -/
  | kept (htx : r.1.tx = p.tx)
      (hstate : r.1.state.awaited = none ∨ r.1.state.awaited = p.state.awaited)
  /-- It was sent, and a reply is awaited. -/
  | sent (htx : r.1.tx = p.tx)
      (hstate : r.1.state.awaited = some request.frame.flags.isRdmDisc)
  /-- It is given back. -/
  | given (htx : r.1.tx.frame = none) (hput : Action.putFrame request ∈ r.2)
  /-- It is handed up in place of the reply. -/
  | answered {reply : Frame → Frame} (htx : r.1.tx.frame = none)
      (hreply : Answers p.state.awaited reply)
      (hdelivered : delivered r.2 = [request.modify reply])

theorem checkoutTxFrame_frame : p.checkoutTxFrame.1.tx.frame = none := by
  unfold checkoutTxFrame
  split
  · assumption
  · rfl

/-- What is received is given up, and with it the wait for a reply. -/
theorem flushRx_awaited : p.flushRx.1.state.awaited = none ∨
    p.flushRx.1.state.awaited = p.state.awaited := by
  unfold flushRx
  dsimp only
  split
  · exact .inl rfl
  · rw [show p.checkoutRxFrame.1.state = p.state from congrArg View.state checkoutRxFrame_view]
    exact .inr rfl

theorem sendFrame_txStep (htx : p.tx.frame = some request) (frame : Entry) :
    TxStep p request (p.sendFrame frame) := by
  have hflush : ∀ r, r = (if p.rx.frame.isSome then p.flushRx else (p, [])) → r.1.tx = p.tx ∧
      (r.1.state.awaited = none ∨ r.1.state.awaited = p.state.awaited) := by
    rintro r rfl
    split
    · exact ⟨flushRx_tx, flushRx_awaited⟩
    · exact ⟨rfl, .inr rfl⟩
  obtain ⟨hsame, hstate⟩ := hflush _ rfl
  unfold sendFrame
  dsimp only
  rw [hsame, htx]
  exact .kept hsame hstate

theorem transmitterEmpty_txStep (htx : p.tx.frame = some request) (got : Option Entry) :
    TxStep p request (p.transmitterEmpty got) := by
  have hput : ∀ q : Port, q.tx.frame = some request →
      Action.putFrame request ∈ q.endTransmission.2 := by
    intro q hq
    unfold endTransmission
    rw [checkoutTxFrame_snd, hq]
    exact .head _
  unfold transmitterEmpty
  split
  · exact .kept rfl (.inl rfl)
  split
  · exact .kept rfl (.inr rfl)
  simp only [htx]
  split
  · split
    · next hdisc =>
      cases got with
      | some g => exact .sent rfl (congrArg some hdisc.symm)
      | none =>
        refine .given checkoutTxFrame_frame ?_
        exact List.mem_append_right _ (.tail _ (hput _ htx))
    · next hdisc =>
      refine .sent rfl ?_
      rw [Bool.not_eq_true] at hdisc
      rw [hdisc]
      rfl
  · exact .given checkoutTxFrame_frame (List.mem_append_right _ (hput p htx))

/-- The step of a port that differs in what the slot does not depend on. -/
theorem TxStep.congr {r : Port × List Action} (h : TxStep q request r) (htx : q.tx = p.tx)
    (hstate : q.state.awaited = p.state.awaited) : TxStep p request r := by
  cases h with
  | kept hkept hsame => exact .kept (hkept.trans htx) (hstate ▸ hsame)
  | sent hsent hflag => exact .sent (hsent.trans htx) hflag
  | given hnone hput => exact .given hnone hput
  | answered hnone hreply hdelivered => exact .answered hnone (hstate ▸ hreply) hdelivered

theorem answerRequest_txStep (htx : p.tx.frame = some request) {reply : Frame → Frame}
    (hreply : Answers p.state.awaited reply) : TxStep p request (p.answerRequest reply) := by
  refine .answered checkoutTxFrame_frame hreply ?_
  rw [delivered_answerRequest, htx]
  rfl

theorem handleRdmTimeout_txStep (htx : p.tx.frame = some request) :
    TxStep p request p.handleRdmTimeout := by
  have hdisc : p.state.awaited = some true → TxStep p request
      (({ p with rdmTimer := none } : Port).answerRequest
        (if p.rx.count > 0 then Frame.rdmDiscoveryReplyCollision
          else Frame.rdmDiscoveryReplyTimeout)) := by
    intro hs
    have hreply : Answers p.state.awaited (if p.rx.count > 0 then Frame.rdmDiscoveryReplyCollision
        else Frame.rdmDiscoveryReplyTimeout) := by
      rw [hs]
      split
      · exact .discovery 0xFF
      · exact .discovery 0
    exact (answerRequest_txStep (p := { p with rdmTimer := none }) htx hreply).congr rfl rfl
  have hrdm : p.state.awaited = some false →
      TxStep p request (p.answerRequest Frame.updateRdmChecksum) := by
    intro hs
    refine answerRequest_txStep htx ?_
    rw [hs]
    exact .rdm
  unfold handleRdmTimeout
  rw [htx]
  dsimp only
  split
  · next hs => exact hdisc (by rw [hs]; rfl)
  · next hs => exact hdisc (by rw [hs]; rfl)
  · next hs => exact hrdm (by rw [hs]; rfl)
  · next hs => exact hrdm (by rw [hs]; rfl)
  · exact .kept rfl (.inr rfl)

theorem handleBreak_awaited (got : Option Entry) :
    (p.handleBreak got).1.state.awaited = none ∨
      (p.handleBreak got).1.state.awaited = p.state.awaited := by
  unfold handleBreak
  split
  · cases got with
    | some g => exact .inl rfl
    | none => exact .inr rfl
  · next hs =>
    cases got with
    | some g => exact .inr (by rw [hs]; rfl)
    | none => exact .inr rfl
  · split <;> exact .inr rfl
  · exact .inr rfl

theorem lineStatusEvent_txStep (isBreak : Bool) (got : Option Entry) :
    TxStep p request (p.lineStatusEvent isBreak got) := by
  unfold lineStatusEvent
  split
  · exact .kept rfl (.inr rfl)
  split
  · dsimp only
    split
    · refine .kept ((handleBreak_tx got).trans flushRx_tx) ?_
      rcases handleBreak_awaited (p := p.flushRx.1) got with hnone | hsame
      · exact .inl hnone
      · rcases flushRx_awaited (p := p) with hidle | hstays
        · exact .inl (hsame.trans hidle)
        · exact .inr (hsame.trans hstays)
    · exact .kept (handleBreak_tx got) (handleBreak_awaited got)
  · exact .kept rfl (.inr rfl)

/-- A reception that ends gives the request back. -/
theorem completeRx_txStep (htx : p.tx.frame = some request) (acts : List Action) :
    TxStep p request (p.completeRx.1, p.completeRx.2 ++ acts) := by
  have hgiven : ∀ q : Port, q.tx.frame = some request → q.checkoutTxFrame.1.checkoutRxFrame.1.tx.frame =
      none ∧ Action.putFrame request ∈ putFrame q.checkoutTxFrame.2 := by
    intro q hq
    rw [checkoutRxFrame_tx, checkoutTxFrame_frame, checkoutTxFrame_snd, hq]
    exact ⟨rfl, .head _⟩
  unfold completeRx
  simp only [htx]
  split
  · obtain ⟨hnone, hput⟩ := hgiven { p with rdmTimer := none } htx
    exact .given hnone (List.mem_append_left _ (List.mem_append_left _ hput))
  · obtain ⟨hnone, hput⟩ := hgiven p htx
    exact .given hnone (List.mem_append_left _ (List.mem_append_left _ hput))

theorem receiveData_txStep (htx : p.tx.frame = some request) (count : ℕ) (fifo : List UInt8) :
    TxStep p request (p.receiveData count fifo) := by
  unfold receiveData
  split
  · exact .kept rfl (.inr rfl)
  · next d hdata =>
    dsimp only
    split
    · obtain ⟨q, hq⟩ : ∃ q, q = ((p.storeRx d (readChars fifo (p.toread count))).checkReceivedData
        p.rx.count (readChars fifo (p.toread count)).length d).advanceRx
        (readChars fifo (p.toread count)).length := ⟨_, rfl⟩
      have hsame : q.tx = p.tx := by
        rw [hq]
        exact checkReceivedData_tx _ _ _
      have hstate : q.state = p.state := by
        rw [hq]
        refine congrArg View.state (checkReceivedData_view _ _ _) |>.trans ?_
        rfl
      rw [← hq]
      split
      · exact (completeRx_txStep (hsame ▸ htx) _).congr hsame (congrArg _ hstate)
      · exact .kept hsame (.inr (congrArg _ hstate))
    · exact .kept rfl (.inr rfl)

theorem answers_collision (hstate : p.state.awaited = some true) :
    Answers p.state.awaited Frame.rdmDiscoveryReplyCollision := by
  rw [hstate]
  exact .discovery 0xFF

theorem completeDiscovery_txStep (htx : p.tx.frame = some request)
    (hstate : p.state.awaited = some true) : TxStep p request p.completeDiscovery := by
  have hslot : ({ p with rdmTimer := none } : Port).checkoutRxFrame.1.checkoutTxFrame.2 =
      some request := by
    rw [checkoutTxFrame_snd, checkoutRxFrame_tx]
    exact htx
  unfold completeDiscovery
  split
  · dsimp only
    rw [hslot]
    split
    · exact .given checkoutTxFrame_frame (.head _)
    · refine .answered checkoutTxFrame_frame (answers_collision hstate) ?_
      rw [delivered_append, delivered_putFrame, delivered_receivedFrame, List.append_nil]
      rfl
    · exact .kept rfl (.inr rfl)
  · exact .kept rfl (.inr rfl)

theorem receiveDiscovery_txStep (htx : p.tx.frame = some request)
    (hstate : p.state.awaited = some true) (count : ℕ) (fifo : List UInt8) :
    TxStep p request (p.receiveDiscovery count fifo) := by
  unfold receiveDiscovery
  split
  · exact .kept rfl (.inr rfl)
  · next d hdata =>
    dsimp only
    split
    · split
      · split
        · -- garbled, so what was stored makes no difference
          refine .answered checkoutTxFrame_frame (answers_collision hstate) ?_
          rw [delivered_append, delivered_answerRequest]
          show (p.tx.frame.map _).toList ++ [] = _
          rw [htx]
          rfl
        · refine TxStep.congr (completeDiscovery_txStep ?_ ?_) ?_ hstate.symm
          · exact htx
          · rfl
          · rfl
        · exact .kept rfl (.inr rfl)
      · refine TxStep.congr (completeDiscovery_txStep ?_ ?_) ?_ rfl
        · exact htx
        · exact hstate
        · rfl
    · exact .kept rfl (.inr rfl)

theorem receiverDataAvailable_txStep (htx : p.tx.frame = some request) (count : Option ℕ)
    (fifo : List UInt8) : TxStep p request (p.receiverDataAvailable count fifo) := by
  unfold receiverDataAvailable
  dsimp only
  split
  · exact .kept rfl (.inr rfl)
  split
  · exact .kept rfl (.inl rfl)
  split
  · next hs =>
    have hstate : PortState.receiveDmxdata.awaited = p.state.awaited := by rw [hs]; rfl
    exact (receiveData_txStep (p := { p with state := .receiveDmxdata }) htx _ _).congr rfl hstate
  · next hs =>
    have hstate : PortState.receiveDmxdata.awaited = p.state.awaited := by rw [hs]
    exact (receiveData_txStep (p := { p with state := .receiveDmxdata }) htx _ _).congr rfl hstate
  · exact receiveData_txStep htx _ _
  · next hs =>
    have hstate : p.state.awaited = some true := by rw [hs]; rfl
    exact (receiveDiscovery_txStep (p := { p with rdmTimer := some 5000 }) htx hstate _ _).congr rfl
      rfl
  · next hs => exact receiveDiscovery_txStep htx (by rw [hs]; rfl) _ _
  · exact .kept rfl (.inr rfl)

/-- **A request stays in its slot until it is given back or answered.** -/
theorem handle_txStep (htx : p.tx.frame = some request) {e : Event}
    (hspace : ∀ n, e ≠ .transmitterHasSpace n) : TxStep p request (p.handle e) := by
  cases e with
  | sendFrame frame => exact sendFrame_txStep htx frame
  | transmitterHasSpace n => exact absurd rfl (hspace n)
  | transmitterEmpty got => exact transmitterEmpty_txStep htx got
  | receiverDataAvailable count fifo => exact receiverDataAvailable_txStep htx count fifo
  | lineStatusEvent isBreak got => exact lineStatusEvent_txStep isBreak got
  | rdmTimeout => exact handleRdmTimeout_txStep htx

/-- Nor does it leave the slot while it is written. -/
theorem transmitterHasSpace_frame (htx : p.tx.frame = some request) (n : ℤ) :
    (p.transmitterHasSpace n).1.tx.frame = some request ∧
        ((p.transmitterHasSpace n).1.state.awaited = none ∨
          (p.transmitterHasSpace n).1.state.awaited = p.state.awaited) ∨
      (p.transmitterHasSpace n).1.tx.frame = none ∧
        Action.putFrame request ∈ (p.transmitterHasSpace n).2 := by
  unfold transmitterHasSpace
  cases hptr : p.tx.ptr with
  | none =>
    rw [htx]
    dsimp only
    rw [checkoutTxFrame_snd, htx]
    exact .inr ⟨checkoutTxFrame_frame, .head _⟩
  | some ptr =>
    simp only [htx]
    split
    · exact .inl ⟨htx, .inr rfl⟩
    · split
      · exact .inl ⟨rfl, .inr rfl⟩
      · exact .inl ⟨htx, .inl rfl⟩

/-- **A request waits**: it is in the slot, and the reply awaited, if one
is, is of its kind. -/
structure Waits (p : Port) (request : Entry) : Prop where
  tx : p.tx.frame = some request
  state : p.state.awaited = none ∨ p.state.awaited = some request.frame.flags.isRdmDisc

/-- A request that stays in its slot goes on to wait. -/
theorem Waits.step (h : p.Waits request) {e : Event} (htx : (p.step e).tx.frame.isSome = true) :
    (p.step e).Waits request := by
  have hstay : ∀ r : Port × List Action, r.1.tx.frame = some request →
      (r.1.state.awaited = none ∨ r.1.state.awaited = p.state.awaited) → r.1.Waits request := by
    rintro r hr (hnone | hsame)
    · exact ⟨hr, .inl hnone⟩
    · exact ⟨hr, hsame ▸ h.state⟩
  have hempty : ¬ (p.handle e).1.tx.frame = none := by
    intro hnone
    rw [show (p.step e).tx.frame = none from hnone] at htx
    contradiction
  by_cases hspace : ∃ n, e = .transmitterHasSpace n
  · obtain ⟨n, rfl⟩ := hspace
    rcases transmitterHasSpace_frame h.tx n with ⟨hr, hstate⟩ | ⟨hnone, -⟩
    · exact hstay _ hr hstate
    · exact absurd hnone hempty
  · cases handle_txStep h.tx (not_exists.1 hspace) with
    | kept hr hstate => exact hstay _ (hr ▸ h.tx) hstate
    | sent hr hstate => exact ⟨(congrArg Tx.frame hr).trans h.tx, .inr hstate⟩
    | given hnone hput => exact absurd hnone hempty
    | answered hnone hreply hdelivered => exact absurd hnone hempty

/-- **The request is not answered**: it leaves the slot, and is not given
back as it is when its reply has come or none is expected. -/
def Unanswered (p : Port) (e : Event) : Prop :=
  (p.step e).tx.frame = none ∧
    ∀ request, p.tx.frame = some request → Action.putFrame request ∉ (p.handle e).2

/-- It is then handed up as the reply that was awaited. -/
theorem Waits.unanswered (h : p.Waits request) {e : Event} (he : p.Unanswered e) :
    ∃ reply, Answers (some request.frame.flags.isRdmDisc) reply ∧
      delivered (p.handle e).2 = [request.modify reply] := by
  obtain ⟨hnone, hkeep⟩ := he
  have hempty : ¬ (p.handle e).1.tx = p.tx := by
    intro hsame
    have hframe : (p.step e).tx.frame = p.tx.frame := congrArg Tx.frame hsame
    rw [hnone, h.tx] at hframe
    contradiction
  by_cases hspace : ∃ n, e = .transmitterHasSpace n
  · obtain ⟨n, rfl⟩ := hspace
    rcases transmitterHasSpace_frame h.tx n with ⟨hr, -⟩ | ⟨-, hput⟩
    · rw [show (p.transmitterHasSpace n).1.tx.frame = none from hnone] at hr
      contradiction
    · exact absurd hput (hkeep request h.tx)
  · cases handle_txStep h.tx (not_exists.1 hspace) with
    | kept hr hstate => exact absurd hr hempty
    | sent hr hstate => exact absurd hr hempty
    | given _ hput => exact absurd hput (hkeep request h.tx)
    | answered _ hreply hdelivered =>
      rcases h.state with hs | hs
      · rw [hs] at hreply
        nomatch hreply
      · exact ⟨_, hs ▸ hreply, hdelivered⟩

end Port

/-! ## Requests and responses -/

/-- **A valid RDM request.** -/
structure IsRequest (f : Frame) : Prop where
  kind : isRdm f.data = true
  commandClass : f.data rdmPosCommandClass = 0x10 ∨ f.data rdmPosCommandClass = 0x20 ∨
    f.data rdmPosCommandClass = 0x30
  pdl : (f.data rdmPosPdl).toNat ≤ 231
  length : (f.data rdmPosLength).toNat = 24 + (f.data rdmPosPdl).toNat
  payloadSize : f.payloadSize = (f.data rdmPosLength).toNat + 1

/-- **A well-formed response to a request.** -/
structure IsResponseTo (request f : Frame) : Prop where
  kind : isRdm f.data = true
  commandClass : f.data rdmPosCommandClass = request.data rdmPosCommandClass ||| 1
  pid : f.data.read rdmPosPid 2 = request.data.read rdmPosPid 2
  destination : f.data.read rdmPosDestUid 6 = request.data.read rdmPosSrcUid 6
  length : (f.data rdmPosLength).toNat = 24 + (f.data rdmPosPdl).toNat
  payloadSize : f.payloadSize = (f.data rdmPosLength).toNat + 1
  checksum : beNat (f.data.read (f.payloadSize - 1) 2) = f.data.sum16 0 (f.payloadSize - 1)

variable {f : Frame}

theorem isRdm_congr {data data' : Mem} (h : ∀ i, i < 2 → data' i = data i) :
    isRdm data' = isRdm data := by
  simp only [isRdm, dmxPosStartcode, rdmPosSubStartcode]
  rw [h 0 (by omega), h 1 (by omega)]

/-- The command class of a request is not that of a response. -/
theorem IsRequest.commandClass_ne (h : IsRequest f) :
    f.data rdmPosCommandClass ≠ f.data rdmPosCommandClass ||| 1 := by
  rcases h.commandClass with hcc | hcc | hcc <;> rw [hcc] <;> decide

/-- The request as the reply that no device has sent, without its
checksum. -/
def noReplyData (data : Mem) : Mem :=
  (data.write rdmPosResponseType [responseTypeNoReply]).write rdmPosCommandClass
    [data rdmPosCommandClass ||| 1]

theorem noReplyData_outside {data : Mem} {i : ℕ} (h16 : i ≠ 16) (h20 : i ≠ 20) :
    noReplyData data i = data i := by
  unfold noReplyData
  rw [Mem.write_apply_outside, Mem.write_apply_outside]
  all_goals simp only [List.length_singleton, rdmPosResponseType, rdmPosCommandClass]
  all_goals omega

theorem noReplyData_commandClass (data : Mem) : noReplyData data 20 = data 20 ||| 1 := rfl

/-- **The checksum behind a packet.** -/
theorem Frame.updateRdmChecksum_eq (hpos : f.payloadSize ≠ 0) (hle : f.payloadSize ≤ 255) :
    f.updateRdmChecksum = { f with
      data := (noReplyData f.data).write (f.payloadSize - 1)
        (beBytes 2 ((noReplyData f.data).sum16 0 (f.payloadSize - 1))) } := by
  unfold Frame.updateRdmChecksum
  rw [if_neg (by omega)]
  dsimp only
  rw [if_neg hpos]
  rfl

/-- A request that nobody answers is turned into a response in place, but
for the addresses. -/
theorem IsRequest.updateRdmChecksum_iff (h : IsRequest f) :
    IsResponseTo f f.updateRdmChecksum ↔ (f.data rdmPosPdl).toNat ≤ 230 ∧
      f.data.read rdmPosDestUid 6 = f.data.read rdmPosSrcUid 6 := by
  have hlen := h.length
  have hsize := h.payloadSize
  by_cases hle : f.payloadSize ≤ 255
  · -- what lies in front of the checksum
    obtain ⟨g, hg, hfront, hpayload⟩ : ∃ g, f.updateRdmChecksum = g ∧
        (∀ i, i < f.payloadSize - 1 → g.data i = noReplyData f.data i) ∧
        g.payloadSize = f.payloadSize := by
      rw [Frame.updateRdmChecksum_eq (by omega) hle]
      exact ⟨_, rfl, fun i hi => Mem.write_apply_of_lt hi, rfl⟩
    have hsame : ∀ i, i < 24 → i ≠ 16 → i ≠ 20 → g.data i = f.data i :=
      fun i hi h16 h20 => (hfront i (by omega)).trans (noReplyData_outside h16 h20)
    have hdest : g.data.read rdmPosDestUid 6 = f.data.read rdmPosDestUid 6 :=
      Mem.read_congr fun i hi => hsame _ (by simp only [rdmPosDestUid]; omega)
        (by simp only [rdmPosDestUid]; omega) (by simp only [rdmPosDestUid]; omega)
    rw [hg]
    constructor
    · intro hresponse
      exact ⟨by omega, hdest.symm.trans hresponse.destination⟩
    · rintro ⟨-, haddress⟩
      refine ⟨?_, ?_, ?_, hdest.trans haddress, ?_, ?_, ?_⟩
      · rw [isRdm_congr fun i hi => hsame i (by omega) (by omega) (by omega)]
        exact h.kind
      · exact (hfront 20 (by omega)).trans (noReplyData_commandClass _)
      · exact Mem.read_congr fun i hi => hsame _ (by simp only [rdmPosPid]; omega)
          (by simp only [rdmPosPid]; omega) (by simp only [rdmPosPid]; omega)
      · rw [show g.data rdmPosLength = _ from hsame 2 (by omega) (by omega) (by omega),
          show g.data rdmPosPdl = _ from hsame 23 (by omega) (by omega) (by omega)]
        exact hlen
      · rw [show g.data rdmPosLength = _ from hsame 2 (by omega) (by omega) (by omega), hpayload]
        exact hsize
      · rw [← hg, Frame.updateRdmChecksum_eq (by omega) hle]
        exact Mem.sum16_write_behind _ _
  · -- the packet is left as it is
    have hsame : f.updateRdmChecksum = f := by
      unfold Frame.updateRdmChecksum
      rw [if_pos (by omega)]
    rw [hsame]
    constructor
    · intro hresponse
      exact absurd hresponse.commandClass h.commandClass_ne
    · rintro ⟨hpdl, -⟩
      omega

/-- **The answer to a discovery**: a response without data. -/
theorem Frame.rdmDiscoveryReply_eq (f : Frame) (fill : UInt8) :
    f.rdmDiscoveryReply fill = { f with
      payloadSize := 25
      data := (noReplyData (responseData f.data (List.replicate 6 fill))).write 24
        (beBytes 2 ((noReplyData (responseData f.data (List.replicate 6 fill))).sum16 0 24)) } := by
  rfl

theorem Frame.rdmDiscoveryReply_front (f : Frame) (fill : UInt8) {i : ℕ} (hi : i < 24)
    (h16 : i ≠ 16) : (f.rdmDiscoveryReply fill).data i =
      responseData f.data (List.replicate 6 fill) i := by
  rw [Frame.rdmDiscoveryReply_eq]
  refine (Mem.write_apply_of_lt hi).trans ?_
  by_cases h20 : i = 20
  · -- the bit that is set is set already
    have hcc : responseData f.data (List.replicate 6 fill) 20 = 0x11 := rfl
    rw [h20, noReplyData_commandClass, hcc]
    rfl
  · exact noReplyData_outside h16 h20

/-- It is from the UID that the fill byte is repeated for. -/
theorem Frame.rdmDiscoveryReply_source (f : Frame) (fill : UInt8) :
    (f.rdmDiscoveryReply fill).data.read rdmPosSrcUid 6 = List.replicate 6 fill := by
  have hsource : (responseData f.data (List.replicate 6 fill)).read 9 6 = List.replicate 6 fill :=
    responseData_source List.length_replicate
  refine Eq.trans ?_ hsource
  show Mem.read _ 9 6 = _
  exact Mem.read_congr fun i hi => f.rdmDiscoveryReply_front fill (by omega) (by omega)

/-- It is a response to a discovery command. -/
theorem IsRequest.rdmDiscoveryReply_iff (h : IsRequest f) (fill : UInt8) :
    IsResponseTo f (f.rdmDiscoveryReply fill) ↔ f.data rdmPosCommandClass = discoveryCommand := by
  have hfront : ∀ {i}, i < 24 → i ≠ 16 → _ := fun hi h16 =>
    f.rdmDiscoveryReply_front fill hi h16
  have hcc : (f.rdmDiscoveryReply fill).data rdmPosCommandClass = 0x11 :=
    hfront (i := 20) (by omega) (by omega)
  constructor
  · intro hresponse
    have hclass := hcc.symm.trans hresponse.commandClass
    rcases h.commandClass with hten | hten | hten
    · exact hten
    · rw [hten] at hclass
      exact absurd hclass (by decide)
    · rw [hten] at hclass
      exact absurd hclass (by decide)
  · intro hten
    have hkeep : ∀ i, i < 2 ∨ i = 21 ∨ i = 22 → (f.rdmDiscoveryReply fill).data i = f.data i :=
      fun i hi => (hfront (by omega) (by omega)).trans
        (responseData_outside List.length_replicate hi)
    have hlength : (f.rdmDiscoveryReply fill).data rdmPosLength = 24 :=
      hfront (i := 2) (by omega) (by omega)
    have hpdl : (f.rdmDiscoveryReply fill).data rdmPosPdl = 0 :=
      hfront (i := 23) (by omega) (by omega)
    refine ⟨?_, ?_, ?_, ?_, ?_, ?_, ?_⟩
    · rw [isRdm_congr fun i hi => hkeep i (.inl hi)]
      exact h.kind
    · rw [hcc, hten]
      rfl
    · exact Mem.read_congr fun i hi => hkeep _ (by simp only [rdmPosPid]; omega)
    · have hdest : (responseData f.data (List.replicate 6 fill)).read 3 6 = f.data.read 9 6 :=
        responseData_destination
      refine Eq.trans ?_ hdest
      show Mem.read _ 3 6 = _
      exact Mem.read_congr fun i hi => hfront (by omega) (by omega)
    · rw [hlength, hpdl]
      rfl
    · rw [hlength]
      rfl
    · exact Mem.sum16_write_behind _ _

/-! ## Replies that are made up -/

/-- **The requests that are answered well** when no device does: a
discovery command that is taken for a discovery request, and any other
request with up to 230 octets of data that goes to its own sender. -/
def WellAnswered (f : Frame) : Prop :=
  if isRdmDiscover f.data = true ∨ f.flags.isRdmDisc = true then
    f.data rdmPosCommandClass = discoveryCommand
  else (f.data rdmPosPdl).toNat ≤ 230 ∧ f.data.read rdmPosDestUid 6 = f.data.read rdmPosSrcUid 6

theorem IsRequest.not_discoverReply (h : IsRequest f) : isRdmDiscoverReply f.data = false := by
  have hcc : (f.data rdmPosCommandClass == discoveryCommandResponse) = false := by
    rcases h.commandClass with hcc | hcc | hcc <;> rw [hcc] <;> rfl
  unfold isRdmDiscoverReply isDiscUniqueBranch
  rw [hcc, Bool.and_false]
  rfl

open Port

/-- **The replies that the client makes up.** A valid request is accepted,
and waits in its slot through any events until one of them takes it out
unanswered. Then one frame is handed up in place of the reply, and it is a
well-formed response just when the request is one that is answered
well. -/
theorem synthesized_iff (p : Port) (frame : Entry) (es : List Event) (e : Event)
    (htx : p.tx.frame = none) (hrequest : IsRequest frame.frame)
    (hwaits : Always step (fun q => q.tx.frame.isSome = true) (p.step (.sendFrame frame)) es)
    (he : (run step (p.step (.sendFrame frame)) es).Unanswered e) :
    ∃ x, delivered ((run step (p.step (.sendFrame frame)) es).handle e).2 = [x] ∧
      (IsResponseTo frame.frame x.frame ↔ WellAnswered frame.frame) := by
  obtain ⟨flags, hflags, hload⟩ := loadTx_plain (p := p) hrequest.not_discoverReply
  -- the request as it waits in the slot
  let loaded : Entry := ⟨frame.id, { frame.frame with flags := flags }⟩
  have hstart : (p.step (.sendFrame frame)).Waits loaded := by
    refine ⟨?_, .inl ?_⟩
    · exact congrArg Tx.frame ((sendFrame_tx htx frame).trans hload)
    · rcases sendFrame_state htx frame with hs | hs
      · rw [show (p.step (.sendFrame frame)).state = _ from hs]
        rfl
      · rw [show (p.step (.sendFrame frame)).state = _ from hs]
        rfl
  have hstep : ∀ (q : Port) (e : Event), (q.step e).tx.frame.isSome = true → q.Waits loaded →
      (q.step e).Waits loaded := fun q e hsome hq => hq.step hsome
  have hwaiting : (run step (p.step (.sendFrame frame)) es).Waits loaded :=
    (always_of_eachStep hstep hwaits.eachStep hstart).last
  obtain ⟨reply, hreply, hdelivered⟩ := hwaiting.unanswered he
  refine ⟨loaded.modify reply, hdelivered, ?_⟩
  have hloaded : IsRequest loaded.frame :=
    ⟨hrequest.kind, hrequest.commandClass, hrequest.pdl, hrequest.length, hrequest.payloadSize⟩
  have hkind : loaded.frame.flags.isRdmDisc = true ↔
      isRdmDiscover frame.frame.data = true ∨ frame.frame.flags.isRdmDisc = true := by
    rw [show loaded.frame.flags.isRdmDisc = _ from hflags, Bool.or_eq_true]
  -- a response is one to what was sent, whatever the flags
  have hsame : IsResponseTo frame.frame (reply loaded.frame) ↔
      IsResponseTo loaded.frame (reply loaded.frame) :=
    ⟨fun h => ⟨h.1, h.2, h.3, h.4, h.5, h.6, h.7⟩, fun h => ⟨h.1, h.2, h.3, h.4, h.5, h.6, h.7⟩⟩
  rw [show (loaded.modify reply).frame = reply loaded.frame from rfl, hsame, WellAnswered]
  generalize hdisc : loaded.frame.flags.isRdmDisc = disc at hreply
  cases hreply with
  | discovery fill =>
    rw [if_pos (hkind.1 hdisc)]
    exact hloaded.rdmDiscoveryReply_iff fill
  | rdm =>
    have hother : ¬ (isRdmDiscover frame.frame.data = true ∨ frame.frame.flags.isRdmDisc = true) := by
      rw [← hkind, hdisc]
      decide
    rw [if_neg hother]
    exact hloaded.updateRdmChecksum_iff

/-- A discovery request of the whole range. -/
def uniqueBranch : Entry :=
  ⟨2, 0, ⟨false, false, false, 0⟩, 0, 37, fun i => [0xCC, 0x01, 36, 0xFF, 0xFF, 0xFF, 0xFF, 0xFF,
    0xFF, 1, 1, 1, 1, 1, 1, 0, 1, 0, 0, 0, 0x10, 0, 1, 12, 0, 0, 0, 0, 0, 0, 0xFE, 0xFF, 0xFF, 0xFF,
    0xFF, 0xFE, 0x0D, 0xF1].getD i 0⟩

/-- It is sent, and nothing is received in answer to it. -/
def uniqueBranchSent : List Event :=
  [.transmitterEmpty none, .transmitterHasSpace (-1), .transmitterHasSpace (-1),
    .transmitterHasSpace (-1), .transmitterHasSpace (-1), .transmitterHasSpace (-1),
    .transmitterEmpty (some zeroFrame)]

theorem synthesized_uniqueBranch :
    ∃ x, delivered ((run step (create.step (.sendFrame uniqueBranch)) uniqueBranchSent).handle
        .rdmTimeout).2 = [x] ∧ IsResponseTo uniqueBranch.frame x.frame := by
  have hrequest : IsRequest uniqueBranch.frame :=
    ⟨by decide, by decide, by decide, by decide, by decide⟩
  have hwaits : Always step (fun q => q.tx.frame.isSome = true)
      (create.step (.sendFrame uniqueBranch)) uniqueBranchSent := by
    unfold uniqueBranchSent
    simp only [always_cons, always_nil]
    exact ⟨rfl, rfl, rfl, rfl, rfl, rfl, rfl, rfl⟩
  have he : (run step (create.step (.sendFrame uniqueBranch)) uniqueBranchSent).Unanswered
      .rdmTimeout := by
    refine ⟨rfl, ?_⟩
    intro request hslot hput
    obtain rfl := Option.some.inj hslot
    -- what is given back is the frame for the reply
    rcases List.mem_cons.1 hput with heq | hrest
    · exact absurd (congrArg Entry.id (Action.putFrame.inj heq)) (by decide)
    · cases List.mem_singleton.1 hrest
  obtain ⟨x, hx, hiff⟩ := synthesized_iff create uniqueBranch uniqueBranchSent .rdmTimeout rfl
    hrequest hwaits he
  refine ⟨x, hx, hiff.2 ?_⟩
  unfold WellAnswered
  rw [if_pos (.inl (by decide))]
  rfl

/-- A request for the `DEVICE_INFO` of the device `02 02 02 02 02 02`. -/
def getDeviceInfo : Entry :=
  ⟨2, 0, ⟨false, false, false, 0⟩, 0, 25, fun i => [0xCC, 0x01, 24, 2, 2, 2, 2, 2, 2, 1, 1, 1, 1, 1,
    1, 0, 1, 0, 0, 0, 0x20, 0, 0x60, 0, 0x01, 0x78].getD i 0⟩

def getDeviceInfoSent : List Event :=
  [.transmitterEmpty none, .transmitterHasSpace (-1), .transmitterHasSpace (-1),
    .transmitterHasSpace (-1), .transmitterHasSpace (-1), .transmitterEmpty none]

/-- Nobody answers it, and what is handed up is still addressed to the
device. -/
theorem getDeviceInfo_not_response :
    ¬ ∀ x ∈ delivered ((run step (create.step (.sendFrame getDeviceInfo)) getDeviceInfoSent).handle
        .rdmTimeout).2, IsResponseTo getDeviceInfo.frame x.frame := by
  intro h
  have hresponse := h _ (.head _)
  exact absurd hresponse.destination (by decide)

end Rtuart

end Dmx4Linux2
