import Dmx4Linux2.Rtuart.Requests

/-!
# rtuart DMX client — the size of a received frame

The size of a frame that is handed up is the number of bytes received less
one, as a `uint16_t`. It is computed where the frame leaves the receive
slot: when it is complete, and when a break or a frame to send makes the
client give up the reception. A frame that is given up before its first
byte gets the size 65535, and one with more than 513 bytes a size of more
than 512. `sizes_valid` says that a run in which neither happens hands up
frames of valid sizes only.
-/

namespace Dmx4Linux2

namespace Rtuart

namespace Port

variable {p q : Port} {n : ℕ} {fifo : List UInt8} {entry : Entry}

/-- **The frames that a callback hands up out of the receive slot have a
valid size.** What the timer and the transmitter hand up is the request
that was sent. -/
def HandsUpValid (p : Port) (e : IntEvent) : Prop :=
  match e.1 with
  | .receiverDataAvailable .. | .lineStatusEvent .. | .sendFrame _ =>
    ∀ x ∈ delivered (p.handle e.1).2, x.frame.payloadSize ≤ 512
  | .transmitterHasSpace _ | .transmitterEmpty _ | .rdmTimeout => True

/-- A break makes the client give up what it is receiving. -/
def GivesUp (p : Port) : Prop :=
  p.state.isTx = false ∧ p.state.code ≤ PortState.receiveDmxdata.code ∧
    p.rx.frame.isSome = true ∧ p.state ≠ .expectStartcode

/-- **A step that keeps to the frame**: a reception is not given up before
its first byte, and no more than 513 bytes are received into a frame, 257 of
a discovery reply, whose first byte is stored at index 256. -/
def Careful (p : Port) (e : IntEvent) : Prop :=
  match e.1 with
  | .sendFrame _ => p.rx.frame.isSome = true → p.rx.count ≠ 0
  | .lineStatusEvent isBreak _ => isBreak = true → p.GivesUp → p.rx.count ≠ 0
  | .receiverDataAvailable count fifo => p.rx.frame.isSome = true →
      (p.state.receivesData = true →
        (p.rx.count ≤ p.rx.expectedSlotsCount + 1 ∧ p.rx.expectedSlotsCount ≤ 512) ∨
          p.rx.count + fifo.length ≤ 513) ∧
      (p.state = .rdmdiscRecvPreamble ∨ p.state = .rdmdiscRecvData →
        p.rx.count + min (count.getD 1) fifo.length ≤ 257)
  | .transmitterHasSpace _ | .transmitterEmpty _ | .rdmTimeout => True

/-- No more was received than fits. -/
def Short (p : Port) : Prop := p.rx.frame.isSome = true → p.rx.count ≤ 513

/-! ## Frames that leave the slot -/

theorem payloadSize_checkout (hle : p.rx.count ≤ 513) (hpos : p.rx.count ≠ 0) :
    ∀ x ∈ p.checkoutRxFrame.2.toList, x.frame.payloadSize ≤ 512 := by
  intro x hx
  unfold checkoutRxFrame at hx
  split at hx
  · exact absurd hx (by simp)
  · rw [Option.toList_some, List.mem_singleton] at hx
    rw [hx]
    dsimp only
    omega

/-- Where nothing is handed up there is nothing to show. -/
theorem payloadSize_of_quiet {acts : List Action} (h : delivered acts = []) :
    ∀ x ∈ delivered acts, x.frame.payloadSize ≤ 512 := by
  intro x hx
  rw [h] at hx
  contradiction

theorem delivered_flushRx : delivered p.flushRx.2 = p.checkoutRxFrame.2.toList :=
  delivered_receivedFrame _

theorem delivered_startTx : delivered p.startTx.2 = [] := by
  unfold startTx
  dsimp only
  split <;> rfl

/-- A packet without data, with its checksum. -/
theorem payloadSize_updateRdmSizesFromPdl (f : Frame) (data : Mem) :
    ({ f with data := data.write rdmPosPdl [0] } : Frame).updateRdmSizesFromPdl.payloadSize = 25 := by
  have hpdl : data.write rdmPosPdl [0] rdmPosPdl = 0 := by simp [Mem.write]
  unfold Frame.updateRdmSizesFromPdl
  dsimp only
  rw [hpdl]
  rfl

theorem delivered_answerRequest (reply : Frame → Frame) :
    delivered (p.answerRequest reply).2 = (p.tx.frame.map (Entry.modify reply)).toList := by
  unfold answerRequest
  simp only [delivered_append, delivered_putFrame, delivered_receivedFrame, List.nil_append,
    checkoutTxFrame_snd, checkoutRxFrame_tx]

/-- The answer to a discovery has no data. -/
theorem payloadSize_rdmDiscoveryReply (f : Frame) (fill : UInt8) :
    (f.rdmDiscoveryReply fill).payloadSize = 25 := by
  have hchecksum : ∀ g : Frame, g.updateRdmChecksum.payloadSize = g.payloadSize := by
    intro g
    unfold Frame.updateRdmChecksum
    dsimp only
    split
    · rfl
    · split <;> rfl
  unfold Frame.rdmDiscoveryReply
  dsimp only
  rw [hchecksum]
  exact payloadSize_updateRdmSizesFromPdl f _

/-- A request that is handed up as the answer to itself. -/
theorem payloadSize_reply (o : Option Entry) (fill : UInt8) :
    ∀ x ∈ (o.map (Entry.modify fun f => f.rdmDiscoveryReply fill)).toList,
      x.frame.payloadSize ≤ 512 := by
  intro x hx
  rw [Option.mem_toList, Option.map_eq_some_iff] at hx
  obtain ⟨e, -, rfl⟩ := hx
  show (e.frame.rdmDiscoveryReply fill).payloadSize ≤ 512
  rw [payloadSize_rdmDiscoveryReply]
  omega

theorem payloadSize_completeRdmDiscoveryReply {f f' : Frame}
    (h : f.completeRdmDiscoveryReply = some f') : f'.payloadSize = 25 := by
  unfold Frame.completeRdmDiscoveryReply at h
  obtain ⟨-, h⟩ := Option.ite_none_right_eq_some.1 h
  rw [← Option.some.inj h]
  exact payloadSize_updateRdmSizesFromPdl f _

/-! ## The callbacks -/

theorem sendFrame_valid (h : p.Short) (hcareful : p.rx.frame.isSome = true → p.rx.count ≠ 0)
    (frame : Entry) : ∀ x ∈ delivered (p.sendFrame frame).2, x.frame.payloadSize ≤ 512 := by
  have hdelivered : delivered (p.sendFrame frame).2 =
      delivered (if p.rx.frame.isSome then p.flushRx else (p, [])).2 := by
    unfold sendFrame
    dsimp only
    split
    · rw [delivered_append, delivered_putFrame, List.append_nil]
    · rw [delivered_append, delivered_startTx, List.append_nil]
  rw [hdelivered]
  split
  · next hsome =>
    rw [delivered_flushRx]
    exact payloadSize_checkout (h hsome) (hcareful hsome)
  · exact payloadSize_of_quiet rfl

theorem lineStatusEvent_valid (h : p.Short) (isBreak : Bool) (got : Option Entry)
    (hcareful : isBreak = true → p.GivesUp → p.rx.count ≠ 0) :
    ∀ x ∈ delivered (p.lineStatusEvent isBreak got).2, x.frame.payloadSize ≤ 512 := by
  unfold lineStatusEvent
  split
  · exact payloadSize_of_quiet rfl
  · next htx =>
    split
    · next hbreak =>
      dsimp only
      rw [delivered_append, delivered_append, delivered_handleBreak]
      intro x hx
      have hx' : x ∈ delivered (if p.state.code ≤ PortState.receiveDmxdata.code ∧
          p.rx.frame.isSome ∧ p.state ≠ .expectStartcode then p.flushRx else (p, [])).2 := by
        simpa [delivered] using hx
      split at hx'
      · next hflush =>
        rw [delivered_flushRx] at hx'
        have hpos := hcareful hbreak ⟨by simpa using htx, hflush⟩
        exact payloadSize_checkout (h hflush.2.1) hpos x hx'
      · exact absurd hx' (by simp [delivered])
    · exact payloadSize_of_quiet rfl

/-- Bytes are read into a frame that has room for them. -/
theorem length_readChars_toread (hn : n < 2 ^ 31)
    (h : (p.rx.count ≤ p.rx.expectedSlotsCount + 1 ∧ p.rx.expectedSlotsCount ≤ 512) ∨
      p.rx.count + fifo.length ≤ 513) (hle : p.rx.count ≤ 513) :
    p.rx.count + (readChars fifo (p.toread n)).length ≤ 513 := by
  rcases h with hfill | hfifo
  · obtain ⟨hlow, hhigh⟩ := (toread_bounds_iff (by omega)).2 hfill n hn
    have hlen : (readChars fifo (p.toread n)).length ≤ (p.toread n % 2 ^ 64).toNat :=
      List.length_take_le _ _
    omega
  · have hlen : (readChars fifo (p.toread n)).length ≤ fifo.length := length_readChars_le _
    omega

theorem payloadSize_completeRx (hle : p.rx.count ≤ 513) (hpos : p.rx.count ≠ 0) :
    ∀ x ∈ delivered p.completeRx.2, x.frame.payloadSize ≤ 512 := by
  have hsame : ∀ r : Port, r.rx = p.rx →
      ∀ x ∈ r.checkoutTxFrame.1.checkoutRxFrame.2.toList, x.frame.payloadSize ≤ 512 := by
    intro r hr
    have hrx : r.checkoutTxFrame.1.rx = p.rx := checkoutTxFrame_rx.trans hr
    exact payloadSize_checkout (by rw [hrx]; exact hle) (by rw [hrx]; exact hpos)
  unfold completeRx
  simp only [delivered_append, delivered_putFrame, delivered_receivedFrame, List.nil_append]
  refine hsame _ ?_
  split
  · split <;> rfl
  · rfl

/-- What a callback that reads bytes leaves and hands up. -/
def Valid (r : Port × List Action) : Prop :=
  r.1.Short ∧ ∀ x ∈ delivered r.2, x.frame.payloadSize ≤ 512

theorem valid_of_gone {r : Port × List Action} (hgone : r.1.rx.frame = none)
    (hacts : ∀ x ∈ delivered r.2, x.frame.payloadSize ≤ 512) : Valid r := by
  refine ⟨fun hsome => ?_, hacts⟩
  rw [hgone] at hsome
  contradiction

theorem valid_of_quiet {acts : List Action} (h : p.Short) (hquiet : delivered acts = []) :
    Valid (p, acts) := ⟨h, payloadSize_of_quiet hquiet⟩

theorem receiveData_valid (h : p.Short) (hframe : p.rx.frame.isSome = true) (hn : n < 2 ^ 31)
    (hcareful : (p.rx.count ≤ p.rx.expectedSlotsCount + 1 ∧ p.rx.expectedSlotsCount ≤ 512) ∨
      p.rx.count + fifo.length ≤ 513) : Valid (p.receiveData n fifo) := by
  have hroom := length_readChars_toread hn hcareful (h hframe)
  have hnothing : ∀ (b : Prop) [Decidable b],
      delivered (if b then [Action.flushRxFifo] else []) = [] := by
    intro b _
    split <;> rfl
  unfold receiveData
  split
  · exact valid_of_quiet h rfl
  · next d hdata =>
    dsimp only
    split
    · next hpos =>
      have hcount : ((p.inspectRx d (readChars fifo (p.toread n))).advanceRx
          (readChars fifo (p.toread n)).length).rx.count =
            p.rx.count + (readChars fifo (p.toread n)).length := by
        show ((p.inspectRx d (readChars fifo (p.toread n))).rx.count + _) % 2 ^ 32 = _
        rw [(p.inspectRx_rest d _).1]
        omega
      have hsome : ((p.inspectRx d (readChars fifo (p.toread n))).advanceRx
          (readChars fifo (p.toread n)).length).rx.count ≠ 0 := by
        rw [hcount]
        omega
      split
      · refine valid_of_gone completeRx_frame ?_
        dsimp only
        rw [delivered_append, hnothing, List.append_nil]
        exact payloadSize_completeRx (hcount ▸ hroom) hsome
      · exact valid_of_quiet (fun _ => hcount ▸ hroom) (hnothing _)
    · exact valid_of_quiet h (hnothing _)

/-- A discovery that ends hands up an answer without data, the one that
was received or one made of the request. -/
theorem completeDiscovery_valid (h : p.Short) : Valid p.completeDiscovery := by
  have hquiet : Valid (p, [Action.enableNotification .rxAvailable]) := valid_of_quiet h rfl
  unfold completeDiscovery
  split
  · dsimp only
    split
    · next e f heq =>
      refine valid_of_gone checkoutFrames_rx ?_
      rw [delivered_append, delivered_putFrame, delivered_receivedFrame]
      intro x hx
      obtain rfl : x = ⟨e.id, f⟩ := by simpa using hx
      obtain ⟨e', -, hpair⟩ := Option.map_eq_some_iff.1 heq
      have hreply : e'.frame.completeRdmDiscoveryReply = some f := (Prod.mk.inj hpair).2
      rw [payloadSize_completeRdmDiscoveryReply hreply]
      omega
    · next e heq =>
      refine valid_of_gone checkoutFrames_rx ?_
      rw [delivered_append, delivered_putFrame, delivered_receivedFrame, List.append_nil]
      exact payloadSize_reply _ 0xFF
    · exact hquiet
  · exact hquiet

theorem receiveDiscovery_valid (h : p.Short) (hn : n < 2 ^ 31)
    (hcareful : p.rx.count + min n fifo.length ≤ 513) :
    Valid (p.receiveDiscovery n fifo) := by
  have hroom : p.rx.count + (readChars fifo n).length ≤ 513 := by
    have hlen : (readChars fifo n).length = min ((n : ℤ) % 2 ^ 64).toNat fifo.length :=
      List.length_take
    omega
  unfold receiveDiscovery
  split
  · exact valid_of_quiet h rfl
  · next d hdata =>
    dsimp only
    split
    · -- the bytes are stored, and counted whatever they are
      have hcount : ∀ q : Port, q.rx.count = p.rx.count →
          (q.advanceRx (readChars fifo n).length).Short := by
        intro q hq _
        show (q.rx.count + _) % 2 ^ 32 ≤ 513
        rw [hq]
        omega
      split
      · split
        · refine valid_of_gone (answerRequest_rx _) ?_
          dsimp only
          rw [delivered_append, delivered_answerRequest,
            show delivered [Action.enableNotification .rxAvailable] = [] from rfl, List.append_nil]
          exact payloadSize_reply _ 0xFF
        · exact completeDiscovery_valid (hcount _ rfl)
        · exact valid_of_quiet (hcount _ rfl) rfl
      · exact completeDiscovery_valid (hcount _ rfl)
    · exact valid_of_quiet h rfl

theorem RxStep.short (hstep : RxStep p q) (h : p.Short) : q.Short := by
  intro hframe
  cases hstep with
  | gone hgone =>
    rw [hgone] at hframe
    contradiction
  | kept hsame hcount hkept =>
    rw [hsame] at hframe
    rw [hcount]
    exact h hframe
  | started hdata hcount hexpected =>
    rw [hcount]
    omega
  | awaited hcount hstate =>
    rw [hcount]
    omega

theorem receiverDataAvailable_valid (h : p.Short) (count : Option ℕ) (hn : count.getD 1 < 2 ^ 31)
    (fifo : List UInt8)
    (hcareful : p.rx.frame.isSome = true →
      (p.state.receivesData = true →
        (p.rx.count ≤ p.rx.expectedSlotsCount + 1 ∧ p.rx.expectedSlotsCount ≤ 512) ∨
          p.rx.count + fifo.length ≤ 513) ∧
      (p.state = .rdmdiscRecvPreamble ∨ p.state = .rdmdiscRecvData →
        p.rx.count + min (count.getD 1) fifo.length ≤ 257)) :
    Valid (p.receiverDataAvailable count fifo) := by
  unfold receiverDataAvailable
  dsimp only
  split
  · exact valid_of_quiet h rfl
  · split
    · next hframe => exact valid_of_gone hframe (payloadSize_of_quiet rfl)
    · next e hframe =>
      have hsome : p.rx.frame.isSome = true := by rw [hframe]; rfl
      obtain ⟨hdata, hdisc⟩ := hcareful hsome
      split
      · next hs =>
        have hroom := hdata (by rw [hs]; rfl)
        exact receiveData_valid (p := { p with state := .receiveDmxdata }) h hsome hn hroom
      · next hs =>
        have hroom := hdata (by rw [hs]; rfl)
        exact receiveData_valid (p := { p with state := .receiveDmxdata }) h hsome hn hroom
      · next hs => exact receiveData_valid h hsome hn (hdata (by rw [hs]; rfl))
      · next hs =>
        have hroom := hdisc (.inl hs)
        exact receiveDiscovery_valid (p := { p with rdmTimer := some 5000 }) h hn
          (show p.rx.count + min (count.getD 1) fifo.length ≤ 513 by omega)
      · next hs =>
        have hroom := hdisc (.inr hs)
        exact receiveDiscovery_valid h hn
          (show p.rx.count + min (count.getD 1) fifo.length ≤ 513 by omega)
      · exact valid_of_quiet h rfl

/-- **A careful step hands up valid frames, and does not overfill one.** -/
theorem careful_step (h : p.Short) (e : IntEvent) (hcareful : p.Careful e) :
    (p.stepInt e).Short ∧ p.HandsUpValid e := by
  obtain ⟨e, hint⟩ := e
  cases e with
  | receiverDataAvailable count fifo =>
    exact receiverDataAvailable_valid h count hint.count_lt fifo hcareful
  | sendFrame frame => exact ⟨(sendFrame_rx frame).short h, sendFrame_valid h hcareful frame⟩
  | lineStatusEvent isBreak got =>
    exact ⟨(lineStatusEvent_rx isBreak got).short h, lineStatusEvent_valid h isBreak got hcareful⟩
  | transmitterHasSpace _ | transmitterEmpty _ | rdmTimeout =>
    exact ⟨RxStep.short (step_rx _ nofun) h, trivial⟩

end Port

open Port

/-- **Careful runs hand up frames of valid sizes only.** -/
theorem sizes_valid (es : List IntEvent) (h : EachStep stepInt Careful create es) :
    EachStep stepInt HandsUpValid create es := by
  have hinit : create.Short := fun hsome => absurd hsome (by decide)
  have hshort : Always stepInt Short create es :=
    always_of_eachStep (fun p e hcareful hshort => (careful_step hshort e hcareful).1) h hinit
  exact eachStep_of_always (fun p e hshort hcareful => (careful_step hshort e hcareful).2) hshort h

/-- Two segments of a DMX frame, the first of which is handed up at the
second break. -/
def twoSegments : List IntEvent :=
  [⟨.lineStatusEvent true (some zeroFrame), trivial⟩,
    ⟨.receiverDataAvailable (some 3) [0, 1, 2], by show 3 < 2 ^ 31; norm_num⟩,
    ⟨.lineStatusEvent true (some zeroFrame), trivial⟩]

theorem sizes_valid_twoSegments :
    EachStep stepInt Careful create twoSegments ∧
      EachStep stepInt HandsUpValid create twoSegments := by
  have hcareful : EachStep stepInt Careful create twoSegments := by
    unfold twoSegments
    rw [eachStep_cons, eachStep_cons, eachStep_cons]
    refine ⟨?_, ?_, ?_, eachStep_nil⟩
    · exact fun _ h => absurd h.2.2.1 (by decide)
    · exact fun _ => ⟨fun _ => .inl (by decide), fun h => absurd h (by decide)⟩
    · exact fun _ _ => by decide
  exact ⟨hcareful, sizes_valid twoSegments hcareful⟩

/-- A frame is to be sent right behind a break. -/
def sendBehindBreak : List IntEvent :=
  [⟨.lineStatusEvent true (some zeroFrame), trivial⟩, ⟨.sendFrame zeroFrame, trivial⟩]

/-- The frame that was to be received is handed up with the size 65535. -/
theorem sendBehindBreak_not_valid : ¬ EachStep stepInt HandsUpValid create sendBehindBreak := by
  intro h
  unfold sendBehindBreak at h
  rw [eachStep_cons, eachStep_cons] at h
  have hsend : ∀ x ∈ delivered ((create.step (.lineStatusEvent true (some zeroFrame))).sendFrame
      zeroFrame).2, x.frame.payloadSize ≤ 512 := h.2.1
  have hsizes : (delivered ((create.step (.lineStatusEvent true (some zeroFrame))).sendFrame
      zeroFrame).2).map (fun x => x.frame.payloadSize) = [65535] := by decide
  obtain ⟨x, hx, hsize⟩ := List.mem_map.1 (hsizes ▸ List.mem_singleton_self 65535)
  have hvalid := hsend x hx
  omega

end Rtuart

end Dmx4Linux2
