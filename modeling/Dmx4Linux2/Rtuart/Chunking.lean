import Dmx4Linux2.Rtuart.Outcome

/-!
# rtuart DMX client — frames received in chunks

The bytes of a frame arrive in chunks, as the UART reports them. What is
handed up, and after which byte, should not depend on the chunks; it does,
since a chunk is inspected as a whole and only after the size that ends
the frame was computed. `chunking_iff` says exactly when it does not: the
first chunk decides.
-/

namespace Dmx4Linux2

namespace Rtuart

/-! ## A reception -/

/-- **A frame handed up**, as far as it is seen, and after how many bytes
of the stream, or at the closing break. -/
structure Handed where
  point : Option ℕ
  data : List UInt8
  payloadSize : ℕ
  isRdm : Bool
  isRdmDisc : Bool
  deriving DecidableEq

def Handed.ofFrame (point : Option ℕ) (f : Frame) : Handed :=
  ⟨point, f.data.read 0 513, f.payloadSize, f.flags.isRdm, f.flags.isRdmDisc⟩

/-- The frames handed up by a callback, at a point of the stream. -/
def handedAt (point : Option ℕ) (acts : List Action) : List Handed :=
  (delivered acts).map fun e => .ofFrame point e.frame

/-- Receive chunks, of which the first starts at a position of the
stream: a frame handed up ends with the last byte read of its chunk. -/
def receiveChunks (p : Port) (pos : ℕ) : List (List UInt8) → Port × List Handed
  | [] => (p, [])
  | c :: cs =>
    let r := p.receiverDataAvailable (some c.length) c
    let rest := receiveChunks r.1 (pos + c.length) cs
    (rest.1, handedAt (some (pos + (readChars c (p.toread c.length)).length)) r.2 ++ rest.2)

/-- Receive chunks up to the closing break. -/
def receiveToBreak (p : Port) (pos : ℕ) (chunks : List (List UInt8)) (next : Option Entry) :
    List Handed :=
  let r := receiveChunks p pos chunks
  r.2 ++ handedAt none (r.1.lineStatusEvent true next).2

/-- **What is handed up for the bytes between two breaks**, which bring
the frames `dmx512_get_frame` returns for them. -/
def reception (p : Port) (got next : Option Entry) (chunks : List (List UInt8)) : List Handed :=
  let r := p.lineStatusEvent true got
  handedAt none r.2 ++ receiveToBreak r.1 0 chunks next

/-- Each byte in a chunk of its own. -/
def perByte (chunks : List (List UInt8)) : List (List UInt8) := chunks.flatten.map fun b => [b]

variable {p : Port} {g : Entry} {next : Option Entry}
variable {flags flags' : Flags} {pos expected expected' : ℕ}
variable {heard bs c rest : List UInt8} {cs : List (List UInt8)}

@[simp] theorem receiveToBreak_nil : receiveToBreak p pos [] next =
    handedAt none (p.lineStatusEvent true next).2 := rfl

theorem receiveToBreak_cons : receiveToBreak p pos (c :: cs) next =
    handedAt (some (pos + (readChars c (p.toread c.length)).length))
      (p.receiverDataAvailable (some c.length) c).2 ++
    receiveToBreak (p.receiverDataAvailable (some c.length) c).1 (pos + c.length) cs next := by
  unfold receiveToBreak
  rw [receiveChunks, List.append_assoc]

/-! ## When the frame is handed up -/

/-- Nothing is being received. -/
structure Quiet (p : Port) : Prop where
  state : p.state = .idle
  rx : p.rx.frame = none

theorem Quiet.notTx (h : Quiet p) : ¬ p.state.isTx := by
  rw [h.state]
  decide

/-- A break finds nothing to hand up. -/
theorem Quiet.lineStatusEvent (h : Quiet p) (got : Option Entry) :
    p.lineStatusEvent true got =
      ((p.handleBreak got).1, (p.handleBreak got).2 ++ [.enableNotification .lineEvent]) := by
  have hflush : ¬ (p.state.code ≤ PortState.receiveDmxdata.code ∧ p.rx.frame.isSome ∧
      p.state ≠ .expectStartcode) := by simp [h.rx]
  unfold Port.lineStatusEvent
  rw [if_neg h.notTx, if_pos rfl, if_neg hflush]
  rfl

theorem delivered_handleBreak (got : Option Entry) : delivered (p.handleBreak got).2 = [] := by
  unfold Port.handleBreak
  split
  · cases got <;> rfl
  · cases got <;> rfl
  · split <;> rfl
  · rfl

/-- Whatever arrives then is dropped. -/
theorem Quiet.drops (h : Quiet p) : receiveToBreak p pos cs next = [] := by
  induction cs generalizing p pos with
  | nil =>
    rw [receiveToBreak_nil, handedAt, h.lineStatusEvent, delivered_append, delivered_handleBreak]
    rfl
  | cons c cs ih =>
    have hstep : p.receiverDataAvailable (some c.length) c = (p, [.flushRxFifo]) := by
      unfold Port.receiverDataAvailable
      simp only
      rw [if_neg h.notTx]
      simp only [h.rx, ← h.state]
    rw [receiveToBreak_cons, hstep]
    exact ih h

/-! ## While it is received -/

/-- The data of a frame a reception starts with. -/
def blank (g : Entry) : Mem := g.frame.data.write 0 (List.replicate 513 0xCE)

/-- **The port has received some bytes** into the frame it got, and will
hand it up when one more than `expected` are there. -/
structure Receives (p : Port) (g : Entry) (heard : List UInt8) (flags : Flags) (expected : ℕ) :
    Prop where
  state : p.state = .receiveDmxdata
  rx : p.rx.frame =
    some ⟨g.id, { g.frame with flags := flags, data := (blank g).write 0 heard }⟩
  data : p.rx.data = some heard.length
  count : p.rx.count = heard.length
  expected : p.rx.expectedSlotsCount = expected

/-- The frame as it is handed up. -/
def handedFrame (g : Entry) (heard : List UInt8) (flags : Flags) : Frame :=
  { g.frame with
    flags := flags
    data := (blank g).write 0 heard
    payloadSize := heard.length - 1 }

theorem Receives.notTx (h : Receives p g heard flags expected) : ¬ p.state.isTx := by
  rw [h.state]
  decide

theorem Receives.checkoutRxFrame (h : Receives p g heard flags expected) (hpos : heard ≠ [])
    (hlen : heard.length ≤ 513) :
    p.checkoutRxFrame.2 = some ⟨g.id, handedFrame g heard flags⟩ := by
  have hsize : (heard.length + 2 ^ 32 - 1) % 2 ^ 16 = heard.length - 1 := by
    have := List.length_pos_iff.2 hpos
    omega
  unfold Port.checkoutRxFrame
  simp only [h.rx, h.count, hsize]
  rfl

/-- The closing break hands up what is there. -/
theorem Receives.atBreak (h : Receives p g heard flags expected) (hpos : heard ≠ [])
    (hlen : heard.length ≤ 513) :
    receiveToBreak p pos [] next = [.ofFrame none (handedFrame g heard flags)] := by
  have hflush : p.state.code ≤ PortState.receiveDmxdata.code ∧ p.rx.frame.isSome ∧
      p.state ≠ .expectStartcode := by
    rw [h.state, h.rx]
    exact ⟨le_rfl, rfl, by decide⟩
  have hdelivered : delivered p.flushRx.2 = [⟨g.id, handedFrame g heard flags⟩] := by
    unfold Port.flushRx
    rw [delivered_receivedFrame, h.checkoutRxFrame hpos hlen]
    rfl
  rw [receiveToBreak_nil, handedAt]
  unfold Port.lineStatusEvent
  rw [if_neg h.notTx, if_pos rfl, if_pos hflush]
  simp only [delivered_append, hdelivered, delivered_handleBreak]
  rfl

/-- The last byte does. -/
theorem Receives.complete (h : Receives p g heard flags expected) (hpos : heard ≠ [])
    (hlen : heard.length ≤ 513) :
    Quiet p.completeRx.1 ∧ delivered p.completeRx.2 = [⟨g.id, handedFrame g heard flags⟩] := by
  have hview := congrArg Prod.fst (Port.completeRx_outcome (p := p))
  refine ⟨⟨congrArg View.state hview, Option.map_eq_none_iff.1 (congrArg View.rx hview)⟩, ?_⟩
  -- neither the timer nor the transmit slot matters to what is taken out
  have hsame : ∀ q : Port, q.rx = p.rx →
      q.checkoutTxFrame.1.checkoutRxFrame.2 = p.checkoutRxFrame.2 := by
    intro q hq
    unfold Port.checkoutRxFrame
    simp only [Port.checkoutTxFrame_rx, hq]
    split <;> rfl
  unfold Port.completeRx
  simp only [delivered_append, delivered_putFrame, delivered_receivedFrame, List.nil_append]
  rw [hsame _ (by split <;> (try split) <;> rfl), h.checkoutRxFrame hpos hlen]
  rfl

/-! ## Inspecting a chunk -/

/-- What an inspection changes: the flags of the frame and the size. -/
def Rx.marked (rx : Rx) (flags : Flags) (expected : ℕ) : Rx :=
  { rx with
    frame := rx.frame.map (Entry.modify fun f => { f with flags := flags })
    expectedSlotsCount := expected }

section Inspection

variable {e : Entry} {start size d : ℕ}

theorem checkReceivedData_state : (p.checkReceivedData start size d).state = p.state :=
  congrArg View.state (Port.checkReceivedData_view (p := p) start size d)

theorem Rx.marked_self {rx : Rx} (hf : rx.frame = some e) :
    rx.marked e.frame.flags rx.expectedSlotsCount = rx := by
  calc rx.marked e.frame.flags rx.expectedSlotsCount = { rx with frame := some e } := by
        unfold Rx.marked
        rw [hf]
        rfl
    _ = rx := by rw [← hf]

theorem Flags.mk_false (hrdm : flags.isRdm = false) (hdisc : flags.isRdmDisc = false) :
    { flags with isRdm := false, isRdmDisc := false } = flags := by
  cases flags
  simp_all

/-- What an inspection says of `DMX512_FLAG_IS_RDM`. -/
def rdmFound (flags : Flags) (data : Mem) (start size d : ℕ) : Bool :=
  (flags.isRdm || (!flags.isRdm && start == 0 && decide (size > 0) && data d == scRdm)) &&
    !(isBetween rdmPosSubStartcode start (start + size) &&
      data (d + (rdmPosSubStartcode - start)) != scSubMessage)

/-- **One inspection**: the size is the one the start code gives, unless
an RDM frame is found. -/
theorem checkReceivedData_rx (hf : p.rx.frame = some e) (hdisc : ¬ e.frame.flags.isRdmDisc)
    (start size d : ℕ) :
    ∃ disc expected, (p.checkReceivedData start size d).rx = p.rx.marked
        { e.frame.flags with
          isRdm := rdmFound e.frame.flags e.frame.data start size d, isRdmDisc := disc } expected ∧
      (rdmFound e.frame.flags e.frame.data start size d = false → disc = false ∧ expected =
        if ¬ e.frame.flags.isRdm ∧ start = 0 ∧ size > 0 ∧ e.frame.data d = 0 then
          if p.rx.slotCountLock.locked then p.rx.slotCountLock.matchingSlotCount else 512
        else p.rx.expectedSlotsCount) := by
  have hmarked : ∀ flags expected, p.rx.marked flags expected = { p.rx with
      frame := some (e.modify fun f => { f with flags := flags })
      expectedSlotsCount := expected } := by
    intro flags expected
    unfold Rx.marked
    rw [hf]
    rfl
  unfold Port.checkReceivedData
  simp only [hf]
  rw [if_neg hdisc]
  refine ⟨_, _, (hmarked _ _).symm, fun hrdm => ?_⟩
  unfold rdmFound at hrdm
  simp only [hrdm, Bool.false_and, Bool.false_eq_true, if_false, true_and, Bool.and_eq_true,
    Bool.not_eq_true', beq_iff_eq, decide_eq_true_eq, and_assoc, Bool.not_eq_true]

/-- What arrives later does not change the kind of the frame any more. -/
def Settled (flags : Flags) : Prop := flags.isRdmDisc ∨ ¬ flags.isRdm

/-- Once the frame is known to be no RDM frame nothing changes. -/
theorem checkReceivedData_settled (hf : p.rx.frame = some e) (size d : ℕ)
    (h : e.frame.flags.isRdmDisc ∨ start ≠ 0 ∧ Settled e.frame.flags) :
    (p.checkReceivedData start size d).rx =
      p.rx.marked e.frame.flags p.rx.expectedSlotsCount := by
  by_cases hdisc : e.frame.flags.isRdmDisc
  · unfold Port.checkReceivedData
    simp only [hf]
    rw [if_pos hdisc, Rx.marked_self hf]
  · obtain ⟨hstart, hset⟩ := h.resolve_left hdisc
    have hrdm := hset.resolve_left hdisc
    obtain ⟨disc, expected, hrx, hrest⟩ := checkReceivedData_rx hf hdisc start size d
    have hfound : rdmFound e.frame.flags e.frame.data start size d = false := by
      simp [rdmFound, hrdm, hstart]
    obtain ⟨rfl, rfl⟩ := hrest hfound
    rw [hrx, hfound, if_neg fun h => hstart h.2.1]
    rw [Flags.mk_false (by simpa using hrdm) (by simpa using hdisc)]

/-- **Any inspection** marks the frame, and leaves everything else as it
was. -/
theorem checkReceivedData_marked (start size d : ℕ) :
    ∃ flags expected, (p.checkReceivedData start size d).rx = p.rx.marked flags expected := by
  cases hf : p.rx.frame with
  | none =>
    have hsame : p.checkReceivedData start size d = p := by
      unfold Port.checkReceivedData
      rw [hf]
    have hmarked : p.rx.marked ⟨false, false, false, 0⟩ p.rx.expectedSlotsCount = p.rx := by
      unfold Rx.marked
      rw [hf, Option.map_none, ← hf]
    exact ⟨_, _, (congrArg Port.rx hsame).trans hmarked.symm⟩
  | some e =>
    by_cases hdisc : e.frame.flags.isRdmDisc
    · exact ⟨_, _, checkReceivedData_settled hf size d (Or.inl hdisc)⟩
    · obtain ⟨disc, expected, hrx, -⟩ := checkReceivedData_rx hf hdisc start size d
      exact ⟨_, _, hrx⟩

/-- Behind the sub start code an RDM frame stays one. -/
theorem checkReceivedData_later (hf : p.rx.frame = some e) (size d : ℕ) (hstart : 2 ≤ start) :
    ∃ flags expected, (p.checkReceivedData start size d).rx = p.rx.marked flags expected ∧
      flags.isRdm = e.frame.flags.isRdm := by
  by_cases hdisc : e.frame.flags.isRdmDisc
  · exact ⟨_, _, checkReceivedData_settled hf size d (Or.inl hdisc), rfl⟩
  · obtain ⟨disc, expected, hrx, -⟩ := checkReceivedData_rx hf hdisc start size d
    refine ⟨_, _, hrx, ?_⟩
    have hne : start ≠ 0 := by omega
    have hsub : ¬ start ≤ 1 := by omega
    simp [rdmFound, isBetween, hne, hsub]

end Inspection

/-! ## One chunk -/

/-- Store bytes and inspect them. -/
def Port.inspectRx (p : Port) (d : ℕ) (bs : List UInt8) : Port :=
  (p.storeRx d bs).checkReceivedData p.rx.count bs.length d

theorem receiveData_eq {d : ℕ} (hdata : p.rx.data = some d)
    (hread : readChars c (p.toread c.length) = bs) (hbs : bs ≠ []) :
    p.receiveData c.length c =
      let q := (p.inspectRx d bs).advanceRx bs.length
      let flush := if (c.length : ℤ) > p.toread c.length then [Action.flushRxFifo] else []
      if q.rx.count ≥ p.rx.expectedSlotsCount + 1 then
        (q.completeRx.1, q.completeRx.2 ++ flush)
      else (q, .enableNotification .rxAvailable :: flush) := by
  have hpos : bs.length > 0 := List.length_pos_iff.2 hbs
  unfold Port.receiveData
  simp only [hdata, hread, if_pos hpos]
  rfl

/-- Bytes stored and inspected are received behind those that were. -/
theorem Receives.advance (h : Receives p g heard flags expected)
    (hlen : heard.length + bs.length ≤ 513)
    (hrx : (p.inspectRx heard.length bs).rx =
      (p.storeRx heard.length bs).rx.marked flags' expected') :
    Receives ((p.inspectRx heard.length bs).advanceRx bs.length) g (heard ++ bs) flags'
      expected' := by
  have hstate : (p.inspectRx heard.length bs).state = p.state := checkReceivedData_state
  generalize p.inspectRx heard.length bs = q at hrx hstate
  unfold Port.storeRx Rx.marked at hrx
  unfold Port.advanceRx
  refine ⟨hstate.trans h.state, ?_, ?_, ?_, ?_⟩
  · simp only [hrx, h.rx, Mem.write_append, Nat.zero_add]
    rfl
  · simp only [hrx, h.data, List.length_append, Option.map_some]
  · simp only [hrx, h.count, List.length_append]
    omega
  · simp only [hrx]

/-- Nothing is read. -/
theorem Receives.receiveData_nil (h : Receives p g heard flags expected)
    (hbs : readChars c (p.toread c.length) = []) :
    (p.receiveData c.length c).1 = p ∧ delivered (p.receiveData c.length c).2 = [] := by
  unfold Port.receiveData
  simp only [h.data, hbs, List.length_nil, lt_irrefl, gt_iff_lt, if_false, true_and]
  split <;> rfl

/-- Some bytes are read: they end the frame if there are as many as were
expected before. -/
theorem Receives.receiveData (h : Receives p g heard flags expected)
    (hread : readChars c (p.toread c.length) = bs) (hbs : bs ≠ [])
    (hlen : heard.length + bs.length ≤ 513)
    (hrx : (p.inspectRx heard.length bs).rx =
      (p.storeRx heard.length bs).rx.marked flags' expected') :
    if expected < (heard ++ bs).length then
      Quiet (p.receiveData c.length c).1 ∧ delivered (p.receiveData c.length c).2 =
        [⟨g.id, handedFrame g (heard ++ bs) flags'⟩]
    else
      Receives (p.receiveData c.length c).1 g (heard ++ bs) flags' expected' ∧
        delivered (p.receiveData c.length c).2 = [] := by
  have hq := h.advance hlen hrx
  have hflush : ∀ (b : Prop) [Decidable b],
      delivered (if b then [Action.flushRxFifo] else []) = [] := by
    intro b _
    split <;> rfl
  rw [receiveData_eq h.data hread hbs]
  simp only [h.expected, hq.count]
  by_cases hdone : expected < (heard ++ bs).length
  · have hge : (heard ++ bs).length ≥ expected + 1 := hdone
    obtain ⟨hquiet, hdelivered⟩ := hq.complete (by simp [hbs]) (by rw [List.length_append]; omega)
    rw [if_pos hdone, if_pos hge, delivered_append, hdelivered, hflush]
    exact ⟨hquiet, rfl⟩
  · have hlt : ¬ (heard ++ bs).length ≥ expected + 1 := by omega
    rw [if_neg hdone, if_neg hlt]
    exact ⟨hq, hflush _⟩

/-! ## The rest of the stream -/

theorem Receives.receiverDataAvailable (h : Receives p g heard flags expected) :
    p.receiverDataAvailable (some c.length) c = p.receiveData c.length c := by
  have hself : { p with state := .receiveDmxdata } = p := by rw [← h.state]
  unfold Port.receiverDataAvailable
  simp only
  rw [if_neg h.notTx]
  simp only [h.rx, h.state]
  rw [hself]
  rfl

/-- All of a chunk is read that does not end the frame. -/
theorem Receives.read_all (h : Receives p g heard flags expected)
    (hlen : heard.length + c.length ≤ 513) (hmore : heard.length + c.length ≤ expected) :
    readChars c (p.toread c.length) = c := by
  have hlt : (heard.length + c.length) % 2 ^ 32 < expected + 1 := by omega
  unfold Port.toread
  rw [h.count, h.expected, if_pos hlt]
  exact readChars_self (by omega)

/-- Of one that ends it, as much as is missing. -/
theorem Receives.read_part (h : Receives p g heard flags expected)
    (hlen : heard.length + c.length ≤ 513) (hlow : heard.length ≤ expected + 1)
    (hend : expected < heard.length + c.length) :
    readChars c (p.toread c.length) = c.take (expected + 1 - heard.length) := by
  have hge : ¬ (heard.length + c.length) % 2 ^ 32 < expected + 1 := by omega
  have hmissing : (((expected : ℤ) + 1 - heard.length) % 2 ^ 64).toNat =
      expected + 1 - heard.length := by omega
  unfold Port.toread readChars
  rw [h.count, h.expected, if_neg hge, hmissing]

theorem length_readChars_le (n : ℤ) : (readChars c n).length ≤ c.length := by
  unfold readChars
  rw [List.length_take]
  omega

/-- What is handed up where the size is known in time. -/
def plainHanded (g : Entry) (bytes : List UInt8) (flags : Flags) (expected : ℕ) : Handed :=
  if expected < bytes.length then
    .ofFrame (some (expected + 1)) (handedFrame g (bytes.take (expected + 1)) flags)
  else .ofFrame none (handedFrame g bytes flags)

/-- The frame with the bytes stored in it. -/
theorem Receives.store (h : Receives p g heard flags expected) (bs : List UInt8) :
    (p.storeRx heard.length bs).rx.frame =
      some ⟨g.id, { g.frame with flags := flags, data := (blank g).write 0 (heard ++ bs) }⟩ := by
  unfold Port.storeRx
  simp only [h.rx, Mem.write_append, Nat.zero_add]
  rfl

/-- An inspection of later bytes of a settled frame. -/
theorem Receives.inspect_settled (h : Receives p g heard flags expected) (hset : Settled flags)
    (hne : heard ≠ []) :
    (p.inspectRx heard.length bs).rx = (p.storeRx heard.length bs).rx.marked flags expected := by
  have hstart : p.rx.count ≠ 0 := by
    rw [h.count]
    exact fun h0 => hne (List.length_eq_zero_iff.1 h0)
  have hrx := checkReceivedData_settled (h.store bs) bs.length heard.length
    (Or.inr ⟨hstart, hset⟩)
  rw [← h.expected]
  exact hrx

/-- **The size is known in time**: the frame ends with its last byte,
however the bytes arrive. -/
theorem Receives.plain (h : Receives p g heard flags expected) (hset : Settled flags)
    (hne : heard ≠ []) (hlow : heard.length ≤ expected)
    (hlen : heard.length + cs.flatten.length ≤ 513) (hcs : ∀ c ∈ cs, c ≠ []) :
    receiveToBreak p heard.length cs next =
      [plainHanded g (heard ++ cs.flatten) flags expected] := by
  induction cs generalizing p heard with
  | nil =>
    have hmore : ¬ expected < heard.length := by omega
    rw [h.atBreak hne (by omega), List.flatten_nil, List.append_nil, plainHanded, if_neg hmore]
  | cons c cs ih =>
    have hc : c ≠ [] := hcs c (List.mem_cons_self ..)
    have hrest : ∀ c' ∈ cs, c' ≠ [] := fun c' hc' => hcs c' (List.mem_cons_of_mem _ hc')
    rw [List.flatten_cons, List.length_append] at hlen
    rw [receiveToBreak_cons, h.receiverDataAvailable, List.flatten_cons]
    by_cases hmore : heard.length + c.length ≤ expected
    · have hread := h.read_all (by omega) hmore
      have hstep := h.receiveData hread hc (by omega) (h.inspect_settled hset hne)
      have hnotyet : ¬ expected < (heard ++ c).length := by
        rw [List.length_append]
        omega
      rw [if_neg hnotyet] at hstep
      obtain ⟨hq, hnothing⟩ := hstep
      have hih := ih hq (by simp [hc]) (by rw [List.length_append]; omega)
        (by rw [List.length_append]; omega) hrest
      rw [List.length_append, List.append_assoc] at hih
      rw [handedAt, hnothing, hih]
      rfl
    · -- the frame ends in this chunk
      have hread := h.read_part (c := c) (by omega) (by omega) (by omega)
      have hlength : (c.take (expected + 1 - heard.length)).length = expected + 1 - heard.length := by
        rw [List.length_take]
        omega
      have hpart : c.take (expected + 1 - heard.length) ≠ [] := by
        rw [← List.length_pos_iff]
        omega
      have hstep := h.receiveData hread hpart (by omega) (h.inspect_settled hset hne)
      have hdone : expected < (heard ++ c.take (expected + 1 - heard.length)).length := by
        rw [List.length_append]
        omega
      rw [if_pos hdone] at hstep
      obtain ⟨hquiet, hdelivered⟩ := hstep
      have hbytes : (heard ++ (c ++ cs.flatten)).take (expected + 1) =
          heard ++ c.take (expected + 1 - heard.length) := by
        rw [List.take_append, List.take_of_length_le (by omega),
          List.take_append_of_le_length (by omega)]
      have hend : expected < (heard ++ (c ++ cs.flatten)).length := by
        rw [List.length_append, List.length_append]
        omega
      rw [handedAt, hdelivered, hquiet.drops, hread, hlength, plainHanded, if_pos hend,
        hbytes, show heard.length + (expected + 1 - heard.length) = expected + 1 by omega]
      rfl

/-- **All expected bytes were there before their number was known**: the
port takes no more, and waits for the break. -/
theorem Receives.stuck (h : Receives p g heard flags expected)
    (hfull : heard.length = expected + 1) (hlen : heard.length + cs.flatten.length ≤ 513) :
    receiveToBreak p pos cs next = [.ofFrame none (handedFrame g heard flags)] := by
  induction cs generalizing p pos with
  | nil => exact h.atBreak (List.length_pos_iff.1 (by omega)) (by omega)
  | cons c cs ih =>
    rw [List.flatten_cons, List.length_append] at hlen
    have hread : readChars c (p.toread c.length) = [] := by
      by_cases hc : c = []
      · rw [hc]
        exact List.take_nil
      · have hpos := List.length_pos_iff.2 hc
        rw [h.read_part (by omega) (by omega) (by omega),
          show expected + 1 - heard.length = 0 by omega, List.take_zero]
    obtain ⟨hsame, hnothing⟩ := h.receiveData_nil hread
    rw [receiveToBreak_cons, h.receiverDataAvailable, hsame, handedAt, hnothing, ih h (by omega)]
    rfl

/-- **Whatever was read**: one frame is handed up, which starts with the
bytes there are, and it is an RDM frame if it was one when the sub start
code was there. -/
theorem Receives.delivers (h : Receives p g heard flags expected) (htwo : 2 ≤ heard.length)
    (hlen : heard.length + cs.flatten.length ≤ 513) (pos : ℕ) (next : Option Entry) :
    ∃ point bytes flags', receiveToBreak p pos cs next =
        [.ofFrame point (handedFrame g bytes flags')] ∧
      flags'.isRdm = flags.isRdm ∧ heard <+: bytes ∧ bytes.length ≤ 513 := by
  induction cs generalizing p heard flags expected pos with
  | nil =>
    rw [List.flatten_nil, List.length_nil] at hlen
    exact ⟨none, heard, flags, h.atBreak (List.length_pos_iff.1 (by omega)) hlen, rfl,
      List.prefix_refl _, hlen⟩
  | cons c cs ih =>
    rw [List.flatten_cons, List.length_append] at hlen
    rw [receiveToBreak_cons, h.receiverDataAvailable]
    generalize hread : readChars c (p.toread c.length) = bs
    have hle : bs.length ≤ c.length := hread ▸ length_readChars_le _
    by_cases hbs : bs = []
    · subst hbs
      obtain ⟨hsame, hnothing⟩ := h.receiveData_nil hread
      rw [hsame, handedAt, hnothing]
      exact ih h htwo (by omega) _
    · have hstart : 2 ≤ p.rx.count := by
        rw [h.count]
        exact htwo
      obtain ⟨flags₁, expected₁, hrx, hrdm⟩ :=
        checkReceivedData_later (h.store bs) bs.length heard.length hstart
      have hstep := h.receiveData hread hbs (by omega) hrx
      split at hstep
      · obtain ⟨hquiet, hdelivered⟩ := hstep
        rw [handedAt, hdelivered, hquiet.drops]
        exact ⟨_, _, _, rfl, hrdm, List.prefix_append .., by rw [List.length_append]; omega⟩
      · obtain ⟨hq, hnothing⟩ := hstep
        obtain ⟨point, bytes, flags', heq, hrdm', hbytes, hmax⟩ := ih hq
          (by rw [List.length_append]; omega) (by rw [List.length_append]; omega) (pos + c.length)
        rw [handedAt, hnothing, heq]
        exact ⟨point, bytes, flags', rfl, hrdm'.trans hrdm,
          (List.prefix_append ..).trans hbytes, hmax⟩

/-! ## The first chunk -/

/-- The first chunk shows an RDM frame: it has the start code, or the frame
was marked before, and the sub start code is in it. -/
def ShowsRdm (flags : Flags) (chunk : List UInt8) : Prop :=
  chunk[1]? = some scSubMessage ∧ (chunk[0]? = some scRdm ∨ flags.isRdm)

/-- The flags where no RDM frame is found. -/
def plainFlags (flags : Flags) : Flags :=
  if flags.isRdmDisc then flags else { flags with isRdm := false, isRdmDisc := false }

/-- The size where no RDM frame is found. -/
def plainExpected (lock : SlotCountLock) (flags : Flags) (chunk : List UInt8) : ℕ :=
  if ¬ flags.isRdmDisc ∧ ¬ flags.isRdm ∧ chunk[0]? = some 0 ∧ lock.locked then
    lock.matchingSlotCount
  else 512

theorem settled_plainFlags : Settled (plainFlags flags) := by
  unfold Settled plainFlags
  split
  · exact Or.inl ‹_›
  · exact Or.inr Bool.false_ne_true

/-- A byte of the frame: received, or as the frame was filled. -/
theorem blank_write_apply {i : ℕ} (hi : i < 513) :
    (blank g).write 0 bs i = bs[i]?.getD 0xCE := by
  have hfill : blank g i = 0xCE := by
    unfold blank
    have hget : (List.replicate 513 (0xCE : UInt8))[i]? = some 0xCE := by
      rw [List.getElem?_replicate, if_pos hi]
    simp only [Mem.write, Nat.zero_le, if_true, Nat.sub_zero, hget, Option.getD_some]
  simp only [Mem.write, Nat.zero_le, if_true, Nat.sub_zero, hfill]

/-- Of a single byte the sub start code is read where it is not yet. -/
theorem rdmFound_first (hc : c ≠ []) (flags : Flags) (g : Entry) :
    rdmFound flags ((blank g).write 0 c) 0 c.length 0 = true ↔ ShowsRdm flags c := by
  have hzero : (blank g).write 0 c 0 = _ := blank_write_apply (by omega)
  have hone : (blank g).write 0 c 1 = _ := blank_write_apply (by omega)
  obtain ⟨b, c, rfl⟩ := List.exists_cons_of_ne_nil hc
  simp only [List.getElem?_cons_zero, Option.getD_some] at hzero
  simp only [rdmFound, ShowsRdm, rdmPosSubStartcode, isBetween, Nat.zero_add, Nat.sub_zero, hzero,
    hone, List.length_cons, List.getElem?_cons_zero, Option.some.injEq]
  cases hrdm : flags.isRdm <;> cases hsub : (b :: c)[1]? <;>
    simp [scSubMessage, and_comm]

/-- **What the first chunk shows.** -/
theorem Receives.inspect_first (h : Receives p g [] flags 512) (hc : c ≠ []) :
    ∃ flags' expected', (p.inspectRx 0 c).rx = (p.storeRx 0 c).rx.marked flags' expected' ∧
      (flags.isRdmDisc ∨ ¬ ShowsRdm flags c → flags' = plainFlags flags ∧
        expected' = plainExpected p.rx.slotCountLock flags c) ∧
      (¬ flags.isRdmDisc → ShowsRdm flags c → flags'.isRdm) := by
  have hstore := h.store c
  rw [List.nil_append, List.length_nil] at hstore
  have hcount : p.rx.count = 0 := h.count
  unfold Port.inspectRx
  rw [hcount]
  by_cases hdisc : flags.isRdmDisc
  · refine ⟨_, _, checkReceivedData_settled hstore _ _ (Or.inl hdisc), fun _ => ⟨?_, ?_⟩,
      fun hnot => absurd hdisc hnot⟩
    · exact (if_pos hdisc).symm
    · exact h.expected.trans (if_neg fun hplain => hplain.1 hdisc).symm
  · obtain ⟨disc, expected, hrx, hrest⟩ := checkReceivedData_rx hstore hdisc 0 c.length 0
    have hfound := rdmFound_first hc flags g
    refine ⟨_, _, hrx, fun hplain => ?_, fun _ => hfound.2⟩
    have hnot : rdmFound flags ((blank g).write 0 c) 0 c.length 0 = false := by
      simpa using fun h => hplain.resolve_left hdisc (hfound.1 h)
    obtain ⟨rfl, rfl⟩ := hrest hnot
    simp only [hnot]
    refine ⟨(if_neg hdisc).symm, ?_⟩
    have hzero : (blank g).write 0 c 0 = _ := blank_write_apply (by omega)
    have hexpected : (p.storeRx 0 c).rx.expectedSlotsCount = 512 := h.expected
    have hlock : (p.storeRx 0 c).rx.slotCountLock = p.rx.slotCountLock := rfl
    obtain ⟨b, c, rfl⟩ := List.exists_cons_of_ne_nil hc
    simp only [List.getElem?_cons_zero, Option.getD_some] at hzero
    simp only [plainExpected, hdisc, hzero, hexpected, hlock, List.getElem?_cons_zero,
      List.length_cons, Option.some.injEq, true_and]
    split_ifs <;> simp_all

/-- The opening break starts a reception, and the first chunk the data. -/
theorem Quiet.opening (h : Quiet p) (next : Option Entry) (cs : List (List UInt8)) :
    reception p (some g) next (c :: cs) =
      handedAt (some (readChars c ((p.startRx g .receiveDmxdata 512).toread c.length)).length)
          ((p.startRx g .receiveDmxdata 512).receiveData c.length c).2 ++
        receiveToBreak ((p.startRx g .receiveDmxdata 512).receiveData c.length c).1 c.length cs
          next := by
  have hbreak : p.lineStatusEvent true (some g) = (p.startRx g .expectStartcode 512,
      [.getFrame (some g), .enableNotification .rxAvailable, .enableNotification .lineEvent]) := by
    rw [h.lineStatusEvent]
    unfold Port.handleBreak
    simp only [h.state]
    rfl
  unfold reception
  simp only [hbreak, receiveToBreak_cons, Nat.zero_add]
  rfl

/-- **The opening break and the first chunk**: the frame is handed up if
the chunk is as long as a frame can be, and otherwise the rest of the
stream decides. -/
theorem Quiet.first (h : Quiet p) (hc : c ≠ []) (hlen : c.length ≤ 513) (next : Option Entry)
    (cs : List (List UInt8)) :
    ∃ q flags' expected',
      reception p (some g) next (c :: cs) =
        (if c.length = 513 then [.ofFrame (some 513) (handedFrame g c flags')]
          else receiveToBreak q c.length cs next) ∧
      (c.length ≠ 513 → Receives q g c flags' expected') ∧
      (g.frame.flags.isRdmDisc ∨ ¬ ShowsRdm g.frame.flags c → flags' = plainFlags g.frame.flags ∧
        expected' = plainExpected p.rx.slotCountLock g.frame.flags c) ∧
      (¬ g.frame.flags.isRdmDisc → ShowsRdm g.frame.flags c → flags'.isRdm) := by
  have hstart : Receives (p.startRx g .receiveDmxdata 512) g [] g.frame.flags 512 := by
    refine ⟨rfl, ?_, rfl, rfl, rfl⟩
    rw [Mem.write_nil]
    rfl
  obtain ⟨flags', expected', hrx, hplain, hrdm⟩ := hstart.inspect_first hc
  have hread : readChars c ((p.startRx g .receiveDmxdata 512).toread c.length) = c := by
    by_cases hfull : c.length = 513
    · rw [hstart.read_part (by simp; omega) (by simp) (by simp; omega), List.take_of_length_le]
      rw [hfull]
      simp
    · exact hstart.read_all (by simp; omega) (by simp; omega)
  have hstep := hstart.receiveData hread hc (by rw [List.length_nil]; omega) hrx
  have hopening := h.opening (g := g) (c := c) next cs
  rw [List.nil_append] at hstep
  rw [hread] at hopening
  generalize (p.startRx g .receiveDmxdata 512).receiveData c.length c = r at hstep hopening
  refine ⟨r.1, flags', expected', ?_, fun hne => ?_, hplain, hrdm⟩
  · rw [hopening]
    by_cases hfull : c.length = 513
    · rw [if_pos (by omega)] at hstep
      rw [handedAt, hstep.2, hstep.1.drops, if_pos hfull, hfull]
      rfl
    · rw [if_neg (by omega)] at hstep
      rw [handedAt, hstep.2, if_neg hfull]
      rfl
  · rw [if_neg (by omega)] at hstep
    exact hstep.1

/-! ## Chunks and bytes -/

/-- What is handed up when each byte is a chunk of its own. -/
def perByteHanded (g : Entry) (lock : SlotCountLock) (b : UInt8) (rest : List UInt8) : Handed :=
  let flags := plainFlags g.frame.flags
  let expected := plainExpected lock g.frame.flags [b]
  if expected = 0 then .ofFrame none (handedFrame g [b] flags)
  else plainHanded g (b :: rest) flags expected

/-- **Byte by byte** no RDM frame is ever found. -/
theorem Quiet.perByte (h : Quiet p) {b : UInt8} (hlen : (b :: rest).length ≤ 513) :
    reception p (some g) next ([b] :: rest.map fun b => [b]) =
      [perByteHanded g p.rx.slotCountLock b rest] := by
  obtain ⟨q, flags, expected, hreception, hq, hplain, -⟩ :=
    h.first (g := g) (c := [b]) (by simp) (by simp) next (rest.map fun b => [b])
  have hone : ([b] : List UInt8).length ≠ 513 := by simp
  have hrdm : ¬ ShowsRdm g.frame.flags [b] := by
    rintro ⟨hsub, -⟩
    simp at hsub
  have hflat : (rest.map fun b => [b]).flatten = rest := by
    rw [← List.flatMap_def]
    exact List.flatMap_singleton' rest
  obtain ⟨rfl, rfl⟩ := hplain (Or.inr hrdm)
  rw [List.length_cons] at hlen
  rw [hreception, if_neg hone, perByteHanded]
  split
  · exact (hq hone).stuck (by simpa using ‹_›) (by rw [hflat, List.length_singleton]; omega)
  · rw [(hq hone).plain settled_plainFlags (by simp) (by simp; omega)
      (by rw [hflat, List.length_singleton]; omega) (by simp), hflat]
    rfl

/-- The first chunk ends before the frame does. -/
def EndsInTime (expected size : ℕ) : Prop :=
  if size = 513 then expected = 512 else size ≤ expected ∨ size = 1 ∧ expected = 0

/-- **The condition on the first chunk**: unless the frame is marked as a
discovery request already, the chunk does not show an RDM frame, and where
it shows a DMX frame of which the number of slots is locked, it ends
before the frame does. -/
def FirstChunkFits (lock : SlotCountLock) (flags : Flags) (chunk : List UInt8) : Prop :=
  flags.isRdmDisc ∨ ¬ ShowsRdm flags chunk ∧
    (¬ flags.isRdm → chunk[0]? = some 0 → lock.locked →
      EndsInTime lock.matchingSlotCount chunk.length)

theorem firstChunkFits_iff {lock : SlotCountLock} (hlen : c.length ≤ 513) :
    FirstChunkFits lock flags c ↔ (flags.isRdmDisc ∨ ¬ ShowsRdm flags c) ∧
      EndsInTime (plainExpected lock flags c) c.length := by
  have hmax : EndsInTime 512 c.length := by
    unfold EndsInTime
    split
    · rfl
    · omega
  unfold FirstChunkFits plainExpected
  split_ifs with hplain
  · tauto
  · tauto

theorem perByteHanded_isRdm (hdisc : ¬ g.frame.flags.isRdmDisc) (lock : SlotCountLock) (b : UInt8)
    (rest : List UInt8) : (perByteHanded g lock b rest).isRdm = false := by
  have hflags : (plainFlags g.frame.flags).isRdm = false := by
    unfold plainFlags
    rw [if_neg hdisc]
  unfold perByteHanded plainHanded
  simp only
  split
  · exact hflags
  · split <;> exact hflags

/-- What is seen of a frame determines where it was handed up, its size
and its kind. -/
theorem ofFrame_inj {point point' : Option ℕ} {f f' : Frame}
    (h : [Handed.ofFrame point f] = [Handed.ofFrame point' f']) :
    point = point' ∧ f.payloadSize = f'.payloadSize ∧ f.flags.isRdm = f'.flags.isRdm := by
  simp only [Handed.ofFrame, List.cons.injEq, Handed.mk.injEq, and_true] at h
  exact ⟨h.1, h.2.2.1, h.2.2.2.1⟩

/-- A first chunk that shows an RDM frame: the frame handed up is one. -/
theorem Quiet.reception_rdm (h : Quiet p) (hc : c ≠ []) (hlen : c.length + cs.flatten.length ≤ 513)
    (hdisc : ¬ g.frame.flags.isRdmDisc) (hrdm : ShowsRdm g.frame.flags c) (next : Option Entry) :
    ∃ point bytes flags, reception p (some g) next (c :: cs) =
      [.ofFrame point (handedFrame g bytes flags)] ∧ flags.isRdm := by
  obtain ⟨q, flags, expected, hreception, hq, -, hflags⟩ :=
    h.first (g := g) hc (by omega) next cs
  rw [hreception]
  split
  · exact ⟨_, _, _, rfl, hflags hdisc hrdm⟩
  · have htwo : 2 ≤ c.length := by
      obtain ⟨hlt, -⟩ := List.getElem?_eq_some_iff.1 hrdm.1
      omega
    obtain ⟨point, bytes, flags', heq, hrdm', -⟩ := (hq ‹_›).delivers htwo hlen c.length next
    exact ⟨point, bytes, flags', heq, hrdm'.trans (hflags hdisc hrdm)⟩

/-- Where the size is not known before the break the point of the break is
no byte, and where it is the frame has that size. -/
theorem plainHanded_inj {point : Option ℕ} {f : Frame} {bytes : List UInt8}
    (h : [Handed.ofFrame point f] = [plainHanded g bytes flags expected]) :
    if expected < bytes.length then point = some (expected + 1) ∧ f.payloadSize = expected
    else point = none := by
  unfold plainHanded at h
  split at h
  · obtain ⟨hpoint, hsize, -⟩ := ofFrame_inj h
    rw [if_pos ‹_›]
    refine ⟨hpoint, hsize.trans ?_⟩
    simp only [handedFrame, List.length_take]
    omega
  · rw [if_neg ‹_›]
    exact (ofFrame_inj h).1

/-- A first chunk as long as a frame can be is handed up where 512 slots
are expected. -/
theorem handed_full_iff {b : UInt8} (hfull : c.length = 513) (hbytes : c <+: b :: rest) :
    [Handed.ofFrame (some 513) (handedFrame g c flags)] =
        [if expected = 0 then .ofFrame none (handedFrame g [b] flags)
          else plainHanded g (b :: rest) flags expected] ↔ expected = 512 := by
  have hlen := hbytes.length_le
  constructor
  · intro heq
    split at heq
    · exact absurd (ofFrame_inj heq).1 (by simp)
    · have hinj := plainHanded_inj heq
      split at hinj
      · have hpoint := Option.some.inj hinj.1
        omega
      · exact absurd hinj (by simp)
  · rintro rfl
    have hall := (List.prefix_iff_eq_take.1 hbytes).symm
    rw [hfull] at hall
    rw [if_neg (by omega), plainHanded, if_pos (by omega), hall]

/-- A frame of more bytes than are expected is not that of the bytes. -/
theorem handed_ne_of_lt {b : UInt8} {point : Option ℕ} {bytes : List UInt8} {flags' : Flags}
    (hmore : expected + 1 < bytes.length) (hend : expected < (b :: rest).length) :
    [Handed.ofFrame point (handedFrame g bytes flags')] ≠
      [if expected = 0 then .ofFrame none (handedFrame g [b] flags)
        else plainHanded g (b :: rest) flags expected] := by
  intro heq
  split at heq
  · have hsize := (ofFrame_inj heq).2.1
    simp only [handedFrame, List.length_singleton] at hsize
    omega
  · have hinj := plainHanded_inj heq
    rw [if_pos (by omega)] at hinj
    have hsize := hinj.2
    simp only [handedFrame] at hsize
    omega

/-- A first chunk that shows none: the frame handed up is that of the
bytes just when the chunk ends before the frame does. -/
theorem Quiet.reception_plain (h : Quiet p) {b : UInt8} (hcs : ∀ c ∈ cs, c ≠ [])
    (hlen : (b :: c).length + cs.flatten.length ≤ 513)
    (hrdm : g.frame.flags.isRdmDisc ∨ ¬ ShowsRdm g.frame.flags (b :: c)) :
    reception p (some g) next ((b :: c) :: cs) =
        [perByteHanded g p.rx.slotCountLock b (c ++ cs.flatten)] ↔
      EndsInTime (plainExpected p.rx.slotCountLock g.frame.flags (b :: c)) (b :: c).length := by
  obtain ⟨q, flags, expected, hreception, hq, hplain, -⟩ :=
    h.first (g := g) (List.cons_ne_nil b c) (by omega) next cs
  obtain ⟨hflags, hexpected⟩ := hplain hrdm
  have hsame : plainExpected p.rx.slotCountLock g.frame.flags [b] = expected := hexpected ▸ rfl
  have hpos : 1 ≤ (b :: c).length := by simp
  have hbytes : b :: (c ++ cs.flatten) = (b :: c) ++ cs.flatten := rfl
  have htotal : (b :: (c ++ cs.flatten)).length = (b :: c).length + cs.flatten.length := by
    rw [hbytes, List.length_append]
  rw [hreception, ← hexpected, perByteHanded, hsame, ← hflags]
  unfold EndsInTime
  by_cases hfull : (b :: c).length = 513
  · -- the first chunk is as long as a frame can be, and nothing follows
    rw [if_pos hfull, if_pos hfull]
    exact handed_full_iff hfull (List.prefix_append ..)
  · rw [if_neg hfull, if_neg hfull]
    have hq := hq hfull
    rcases Nat.lt_trichotomy (b :: c).length (expected + 1) with hlow | hstuck | hover
    · have hset : Settled flags := hflags ▸ settled_plainFlags
      rw [hq.plain hset (List.cons_ne_nil b c) (by omega) hlen hcs, if_neg (by omega)]
      exact iff_of_true rfl (Or.inl (by omega))
    · rw [hq.stuck hstuck hlen]
      by_cases hzero : expected = 0
      · have hone : c = [] := by
          rw [List.length_cons] at hstuck
          exact List.length_eq_zero_iff.1 (by omega)
        rw [if_pos hzero, hone]
        exact iff_of_true rfl (Or.inr ⟨by simp, hzero⟩)
      · rw [if_neg hzero]
        refine iff_of_false (fun heq => ?_) (by omega)
        have hinj := plainHanded_inj heq
        rw [if_pos (by omega)] at hinj
        exact absurd hinj.1 (by simp)
    · -- more was read than was expected
      obtain ⟨point, bytes, flags', heq, -, hbytes, -⟩ :=
        hq.delivers (by omega) hlen (b :: c).length next
      have hmore := hbytes.length_le
      rw [heq]
      exact iff_of_false (handed_ne_of_lt (by omega) (by omega)) (by omega)

/-- **Exactly when chunks do not matter**: what is handed up, and after
which byte, is the same as when each byte is a chunk of its own, just when
the first chunk fits. -/
theorem chunking_iff (h : Quiet p) (hcs : ∀ c' ∈ c :: cs, c' ≠ [])
    (hlen : (c :: cs).flatten.length ≤ 513) :
    reception p (some g) next (c :: cs) = reception p (some g) next (perByte (c :: cs)) ↔
      FirstChunkFits p.rx.slotCountLock g.frame.flags c := by
  have hc : c ≠ [] := hcs c (List.mem_cons_self ..)
  have hrest : ∀ c' ∈ cs, c' ≠ [] := fun c' hc' => hcs c' (List.mem_cons_of_mem _ hc')
  rw [List.flatten_cons, List.length_append] at hlen
  obtain ⟨b, c, rfl⟩ := List.exists_cons_of_ne_nil hc
  have hbytes : perByte ((b :: c) :: cs) = [b] :: (c ++ cs.flatten).map fun b => [b] := rfl
  have hall : (b :: (c ++ cs.flatten)).length ≤ 513 := by
    rw [List.length_cons, List.length_append]
    rw [List.length_cons] at hlen
    omega
  rw [hbytes, h.perByte hall, firstChunkFits_iff (by omega)]
  by_cases hrdm : g.frame.flags.isRdmDisc ∨ ¬ ShowsRdm g.frame.flags (b :: c)
  · rw [h.reception_plain hrest hlen hrdm]
    exact (and_iff_right hrdm).symm
  · obtain ⟨hdisc, hshows⟩ := not_or.1 hrdm
    obtain ⟨point, bytes, flags, heq, hflags⟩ :=
      h.reception_rdm (g := g) hc hlen hdisc (not_not.1 hshows) next
    refine iff_of_false (fun hsame => ?_) (fun hfits => hrdm hfits.1)
    rw [heq, List.cons.injEq] at hsame
    have hnot := perByteHanded_isRdm hdisc p.rx.slotCountLock b (c ++ cs.flatten)
    rw [← hsame.1] at hnot
    exact absurd (hflags.symm.trans hnot) (by decide)

/-- A frame as `dmx512_get_frame` returns it. -/
def zeroFrame : Entry := ⟨1, 0, ⟨false, false, false, 0⟩, 0, 0, fun _ => 0⟩

/-- Three slots of a DMX frame in two chunks. -/
theorem chunking_iff_dmx :
    reception Port.create (some zeroFrame) none [[0, 10], [20, 30]] =
      reception Port.create (some zeroFrame) none (perByte [[0, 10], [20, 30]]) :=
  (chunking_iff ⟨rfl, rfl⟩ (by decide) (by decide)).2
    (Or.inr ⟨fun h => absurd h.1 (by decide), fun _ _ hlock => absurd hlock (by decide)⟩)

/-- A GET request of 26 bytes. -/
def rdmBytes : List UInt8 :=
  [0xCC, 0x01, 24] ++ List.replicate 17 0 ++ [0x20, 0x00, 0x60, 0, 0x01, 0x65]

/-- An RDM frame in one chunk is handed up as one; byte by byte it is
not. -/
theorem not_chunking_rdm :
    ¬ ∀ (p : Port) (g : Entry) (next : Option Entry) (c : List UInt8) (cs : List (List UInt8)),
      Quiet p → (∀ c' ∈ c :: cs, c' ≠ []) → (c :: cs).flatten.length ≤ 513 →
      reception p (some g) next (c :: cs) = reception p (some g) next (perByte (c :: cs)) := by
  intro h
  have heq := h Port.create zeroFrame none rdmBytes [] ⟨rfl, rfl⟩ (by decide) (by decide)
  exact absurd (congrArg (List.map Handed.isRdm) heq) (by decide)

end Rtuart

end Dmx4Linux2
