import Dmx4Linux2.Common.Run
import Dmx4Linux2.Rtuart.Chunking

/-!
# rtuart DMX client — how many bytes are asked for

While a DMX or an RDM frame is received, the client asks for as many bytes
as are missing to the size it expects. The size is looked up in the bytes
themselves once they are stored, so that a chunk may be longer than the
size it announces; the difference is then negative, which the UART takes
for a huge number. `requests_bounded_iff` says that the requests of a run
stay in the frame just when every chunk fits the size it announces.
-/

namespace Dmx4Linux2

namespace Rtuart

/-! ## Events and what they store -/

/-- The counts are of type `int`. A UART passes a number of bytes, or -1
where it does not know it, which is `none` here; none passes another negative
number. -/
def Event.IsInt : Event → Prop
  | .receiverDataAvailable (some n) _ => n < 2 ^ 31
  | .receiverDataAvailable none _ | .sendFrame _ | .transmitterHasSpace _ | .transmitterEmpty _
  | .lineStatusEvent .. | .rdmTimeout => True

/-- An event as the UART reports it. -/
abbrev IntEvent := { e : Event // e.IsInt }

theorem Event.IsInt.count_lt {count : Option ℕ} {fifo : List UInt8}
    (h : (Event.receiverDataAvailable count fifo).IsInt) : count.getD 1 < 2 ^ 31 := by
  cases count with
  | none => exact (by norm_num : (1 : ℕ) < 2 ^ 31)
  | some n => exact h

/-- The states in which a DMX or an RDM frame is received. -/
def PortState.receivesData : PortState → Bool
  | expectStartcode | receiveDmxdata | receiveRdmdata => true
  | _ => false

namespace Port

def stepInt (p : Port) (e : IntEvent) : Port := p.step e.1

/-- What `dmx512rtuart_receiver_data_available` gets when it asks for
bytes. -/
def bytesRead (p : Port) (n : ℕ) (fifo : List UInt8) : List UInt8 :=
  if p.state.isTx || p.rx.frame.isNone then []
  else
    match p.state with
    | .expectStartcode | .receiveDmxdata | .receiveRdmdata => readChars fifo (p.toread n)
    | .rdmdiscRecvPreamble | .rdmdiscRecvData => readChars fifo n
    | _ => []

/-- The positions of the frame's data that it stores them at. -/
def stores (p : Port) (n : ℕ) (fifo : List UInt8) : List ℕ :=
  match p.rx.data with
  | none => []
  | some d => List.range' d (p.bytesRead n fifo).length

variable {p q : Port} {n : ℕ} {fifo : List UInt8}

/-- **The requests stay in the frame**: whatever count is reported, not
fewer than no bytes and not more than fit behind those received are asked
for, and none is stored behind `data[512]`. -/
def Bounded (p : Port) : Prop :=
  p.state.receivesData = true → p.rx.frame.isSome = true → ∀ n < 2 ^ 31,
    0 ≤ p.toread n ∧ p.toread n ≤ 513 - p.rx.count ∧ ∀ fifo, ∀ i ∈ p.stores n fifo, i ≤ 512

/-- What keeps the requests in the frame. -/
structure Filling (p : Port) : Prop where
  data : p.rx.data = some p.rx.count
  count : p.rx.count ≤ p.rx.expectedSlotsCount + 1
  expected : p.rx.expectedSlotsCount ≤ 512

/-- The invariant of the receptions. -/
def Fills (p : Port) : Prop :=
  p.state.receivesData = true → p.rx.frame.isSome = true → p.Filling

theorem not_isTx_of_receivesData (h : p.state.receivesData = true) : p.state.isTx = false := by
  cases hs : p.state <;> simp_all [PortState.receivesData] <;> decide

theorem bytesRead_data (hstate : p.state.receivesData = true) (hframe : p.rx.frame.isSome = true) :
    p.bytesRead n fifo = readChars fifo (p.toread n) := by
  have hnone : p.rx.frame.isNone = false := by simpa using hframe
  unfold bytesRead
  rw [not_isTx_of_receivesData hstate, hnone, if_neg (by decide)]
  cases hs : p.state <;> simp_all [PortState.receivesData]

/-! ## Requests -/

/-- What is missing, or what is there if that is less. -/
theorem Filling.toread (h : p.Filling) (hn : n < 2 ^ 31) :
    p.toread n = min n (p.rx.expectedSlotsCount + 1 - p.rx.count) := by
  have hcount := h.count
  have hexpected := h.expected
  unfold Port.toread
  split <;> omega

/-- **All requests are in bounds just when not more was received than is
expected, and no more is expected than fits.** -/
theorem toread_bounds_iff (hcount : p.rx.count < 2 ^ 31) :
    (∀ n < 2 ^ 31, 0 ≤ p.toread n ∧ p.toread n ≤ 513 - p.rx.count) ↔
      p.rx.count ≤ p.rx.expectedSlotsCount + 1 ∧ p.rx.expectedSlotsCount ≤ 512 := by
  constructor
  · intro h
    have hnone := h 0 (by omega)
    have hmany := h 514 (by omega)
    unfold Port.toread at hnone hmany
    constructor
    · by_contra hover
      rw [if_neg (by omega)] at hnone
      omega
    · by_contra hover
      split at hmany <;> omega
  · rintro ⟨hle, hexpected⟩ n hn
    unfold Port.toread
    split <;> omega

/-- The bytes that are read while a reception fills its frame: those that
are there, are reported and are missing. -/
def chunk (p : Port) (n : ℕ) (fifo : List UInt8) : List UInt8 :=
  fifo.take (min n (p.rx.expectedSlotsCount + 1 - p.rx.count))

theorem Filling.readChars (h : p.Filling) (hn : n < 2 ^ 31) :
    readChars fifo (p.toread n) = p.chunk n fifo := by
  unfold Rtuart.readChars chunk
  rw [h.toread hn]
  congr 1
  omega

theorem Filling.length_chunk (h : p.Filling) (n : ℕ) (fifo : List UInt8) :
    p.rx.count + (p.chunk n fifo).length ≤ p.rx.expectedSlotsCount + 1 := by
  have hcount := h.count
  have hlen : (p.chunk n fifo).length ≤ p.rx.expectedSlotsCount + 1 - p.rx.count :=
    (List.length_take_le _ _).trans (Nat.min_le_right _ _)
  omega

theorem Fills.bounded (h : p.Fills) : p.Bounded := by
  intro hstate hframe n hn
  have hfill := h hstate hframe
  have hexpected := hfill.expected
  have hcount := hfill.count
  obtain ⟨hlow, hhigh⟩ := (toread_bounds_iff (by omega)).2 ⟨hfill.count, hfill.expected⟩ n hn
  refine ⟨hlow, hhigh, fun fifo i hi => ?_⟩
  have hlen := hfill.length_chunk n fifo
  simp only [stores, hfill.data, bytesRead_data hstate hframe, hfill.readChars hn,
    List.mem_range'_1] at hi
  omega

/-! ## Steps that read nothing -/

/-- **What becomes of a reception in a step that reads no bytes.** -/
inductive RxStep (p q : Port) : Prop
  /-- The frame leaves the slot, or there is none. -/
  | gone (hframe : q.rx.frame = none)
  /-- The frame stays; a reception goes on only as it was. -/
  | kept (hframe : q.rx.frame = p.rx.frame) (hcount : q.rx.count = p.rx.count)
      (hstate : q.state.receivesData = true → q.state = p.state ∧ q.rx = p.rx)
  /-- A frame is received from its start on. -/
  | started (hdata : q.rx.data = some 0) (hcount : q.rx.count = 0)
      (hexpected : q.rx.expectedSlotsCount ≤ 512 ∨
        (p.state.receivesData = true ∧ p.rx.frame.isSome = true ∧
          q.rx.expectedSlotsCount = p.rx.expectedSlotsCount))
  /-- A reply to a discovery is awaited. -/
  | awaited (hcount : q.rx.count = 0) (hstate : q.state = .rdmdiscRecvPreamble)

theorem RxStep.of_rx (hrx : q.rx = p.rx)
    (hstate : q.state.receivesData = true → q.state = p.state) : RxStep p q :=
  .kept (by rw [hrx]) (by rw [hrx]) fun h => ⟨hstate h, hrx⟩

theorem RxStep.refl (p : Port) : RxStep p p := .of_rx rfl fun _ => rfl

theorem checkoutRxFrame_frame : p.checkoutRxFrame.1.rx.frame = none := by
  unfold checkoutRxFrame
  split
  · next h => exact h
  · rfl

theorem checkoutTxFrame_state : p.checkoutTxFrame.1.state = p.state := by
  unfold checkoutTxFrame
  split <;> rfl

theorem transmitterHasSpace_rx (n : ℤ) : RxStep p (p.transmitterHasSpace n).1 := by
  unfold transmitterHasSpace
  split
  · exact .refl p
  · exact .of_rx checkoutTxFrame_rx fun _ => checkoutTxFrame_state
  · split
    · exact .refl p
    · split
      · exact .of_rx rfl fun _ => rfl
      · exact .of_rx rfl nofun

theorem checkoutFrames_rx : p.checkoutRxFrame.1.checkoutTxFrame.1.rx.frame = none := by
  rw [checkoutTxFrame_rx]
  exact checkoutRxFrame_frame

theorem answerRequest_rx (reply : Frame → Frame) : (p.answerRequest reply).1.rx.frame = none :=
  checkoutFrames_rx

theorem handleRdmTimeout_rx : RxStep p p.handleRdmTimeout.1 := by
  unfold handleRdmTimeout
  split
  · exact .refl p
  · split <;> first | exact .gone (answerRequest_rx _) | exact .refl p

theorem transmitterEmpty_rx (got : Option Entry) : RxStep p (p.transmitterEmpty got).1 := by
  have hend : ∀ q : Port, q.endTransmission.1.rx = q.rx := fun _ => checkoutTxFrame_rx
  unfold transmitterEmpty
  split
  · exact .of_rx rfl nofun
  · split
    · exact .refl p
    · split
      · exact .of_rx (hend p) nofun
      · next e htx =>
        split
        · split
          · cases got with
            | some g => exact .awaited rfl rfl
            | none => exact .gone (by rw [hend])
          · exact .kept rfl rfl nofun
        · exact .of_rx (hend p) nofun

theorem flushRx_frame : p.flushRx.1.rx.frame = none := by
  unfold flushRx
  dsimp only
  split <;> exact checkoutRxFrame_frame

theorem loadTx_rx (frame : Entry) : (p.loadTx frame).rx = p.rx := by
  unfold loadTx
  dsimp only
  split
  · split
    · rfl
    · split <;> rfl
  · rfl

theorem startTx_rx : p.startTx.1.rx = p.rx := by
  unfold startTx
  dsimp only
  split <;> rfl

/-- What was being received leaves the slot, also when the frame is
refused. -/
theorem sendFrame_rxFrame (frame : Entry) : (p.sendFrame frame).1.rx.frame = none := by
  have hflushed : (if p.rx.frame.isSome then p.flushRx else (p, [])).1.rx.frame = none := by
    split
    · exact flushRx_frame
    · next h => simpa using h
  unfold sendFrame
  dsimp only
  split
  · exact hflushed
  · rw [startTx_rx, loadTx_rx]
    exact hflushed

theorem sendFrame_rx (frame : Entry) : RxStep p (p.sendFrame frame).1 := .gone (sendFrame_rxFrame frame)

theorem handleBreak_rx (got : Option Entry) : RxStep p (p.handleBreak got).1 := by
  unfold handleBreak
  split
  · cases got with
    | some g => exact .started rfl rfl (.inl le_rfl)
    | none => exact .gone rfl
  · cases got with
    | some g => exact .started rfl rfl (.inl (by show 256 ≤ 512; omega))
    | none => exact .gone rfl
  · next hstate =>
    split
    · next e hframe => exact .started rfl rfl (.inr ⟨by rw [hstate]; rfl, by rw [hframe]; rfl, rfl⟩)
    · exact .refl p
  · exact .refl p

/-- A step behind one that has emptied the slot. -/
theorem RxStep.of_gone {r : Port} (hgone : r.rx.frame = none) (h : RxStep r q) : RxStep p q := by
  cases h with
  | gone hframe => exact .gone hframe
  | kept hframe hcount hstate => exact .gone (hframe.trans hgone)
  | started hdata hcount hexpected =>
    refine .started hdata hcount (.inl ?_)
    rcases hexpected with hle | ⟨-, hsome, -⟩
    · exact hle
    · rw [hgone] at hsome
      contradiction
  | awaited hcount hstate => exact .awaited hcount hstate

theorem lineStatusEvent_rx (isBreak : Bool) (got : Option Entry) :
    RxStep p (p.lineStatusEvent isBreak got).1 := by
  unfold lineStatusEvent
  split
  · exact .refl p
  · split
    · dsimp only
      split
      · exact .of_gone flushRx_frame (handleBreak_rx got)
      · exact handleBreak_rx got
    · exact .refl p

/-- What is reported while no bytes are read. -/
theorem receiverDataAvailable_rx (hnot : p.rx.frame.isSome = true → p.state.receives = false)
    (count : Option ℕ) (fifo : List UInt8) : RxStep p (p.receiverDataAvailable count fifo).1 := by
  unfold receiverDataAvailable
  dsimp only
  split
  · exact .refl p
  · split
    · next hframe => exact .gone hframe
    · next e hframe =>
      have hstate := hnot (by rw [hframe]; rfl)
      split <;> first | exact .refl p | (next hs => rw [hs] at hstate; contradiction)

/-- Every event but bytes for a frame. -/
theorem step_rx (e : Event)
    (hnot : ∀ count fifo, e = .receiverDataAvailable count fifo → p.rx.frame.isSome = true →
      p.state.receives = false) : RxStep p (p.step e) := by
  cases e with
  | sendFrame frame => exact sendFrame_rx frame
  | transmitterHasSpace space => exact transmitterHasSpace_rx space
  | transmitterEmpty got => exact transmitterEmpty_rx got
  | receiverDataAvailable count fifo => exact receiverDataAvailable_rx (hnot count fifo rfl) count fifo
  | lineStatusEvent isBreak got => exact lineStatusEvent_rx isBreak got
  | rdmTimeout => exact handleRdmTimeout_rx

theorem RxStep.fills (hstep : RxStep p q) (h : p.Fills) : q.Fills := by
  intro hstate hframe
  cases hstep with
  | gone hgone =>
    rw [hgone] at hframe
    contradiction
  | kept hsame hcount hkept =>
    obtain ⟨hstate', hrx⟩ := hkept hstate
    rw [hstate'] at hstate
    rw [hsame] at hframe
    have hfill := h hstate hframe
    exact ⟨by rw [hrx]; exact hfill.data, by rw [hrx]; exact hfill.count,
      by rw [hrx]; exact hfill.expected⟩
  | started hdata hcount hexpected =>
    have hle : q.rx.expectedSlotsCount ≤ 512 := by
      rcases hexpected with hle | ⟨hstate', hframe', hsame⟩
      · exact hle
      · rw [hsame]
        exact (h hstate' hframe').expected
    exact ⟨by rw [hdata, hcount], by omega, hle⟩
  | awaited hcount hawaits =>
    rw [hawaits] at hstate
    contradiction

/-! ## Bytes for a frame -/

/-- The size that `dmx512_check_received_data` finds in bytes that have
been stored behind those received. -/
def announced (p : Port) (f : Frame) (bs : List UInt8) : ℕ :=
  let data := f.data.write p.rx.count bs
  if f.flags.isRdmDisc then p.rx.expectedSlotsCount
  else if rdmFound f.flags data p.rx.count bs.length p.rx.count &&
      isBetween rdmPosLength p.rx.count (p.rx.count + bs.length) then
    (data (p.rx.count + (rdmPosLength - p.rx.count))).toNat + 2 - 1
  else if !f.flags.isRdm && p.rx.count == 0 && decide (bs.length > 0) && data p.rx.count == 0 then
    if p.rx.slotCountLock.locked then p.rx.slotCountLock.matchingSlotCount else 512
  else p.rx.expectedSlotsCount

/-- **A chunk fits the size it announces**: a DMX frame the size the port
is locked to, and an RDM packet the length in it. -/
structure Fits (p : Port) (f : Frame) (bs : List UInt8) : Prop where
  locked : f.flags.isRdm = false → p.rx.count = 0 → bs.head? = some 0 →
    p.rx.slotCountLock.locked = true →
    bs.length ≤ p.rx.slotCountLock.matchingSlotCount + 1 ∧
      p.rx.slotCountLock.matchingSlotCount ≤ 512
  rdm : rdmFound f.flags (f.data.write p.rx.count bs) p.rx.count bs.length p.rx.count = true →
    p.rx.count ≤ 2 → ∀ length, bs[2 - p.rx.count]? = some length →
    p.rx.count + bs.length ≤ length.toNat + 2

variable {entry : Entry} {bs : List UInt8}

theorem inspectRx_expected (hframe : p.rx.frame = some entry) (bs : List UInt8) :
    (p.inspectRx p.rx.count bs).rx.expectedSlotsCount = p.announced entry.frame bs := by
  unfold inspectRx storeRx checkReceivedData announced
  simp only [hframe, Option.map_some, Entry.modify]
  split
  · rfl
  · rfl

theorem inspectRx_rest (p : Port) (d : ℕ) (bs : List UInt8) :
    (p.inspectRx d bs).rx.count = p.rx.count ∧ (p.inspectRx d bs).rx.data = p.rx.data ∧
      (p.inspectRx d bs).rx.frame.isSome = p.rx.frame.isSome ∧
      (p.inspectRx d bs).state = p.state := by
  unfold inspectRx storeRx checkReceivedData
  cases hframe : p.rx.frame with
  | none => exact ⟨rfl, rfl, rfl, rfl⟩
  | some e =>
    simp only [Option.map_some]
    split
    · exact ⟨rfl, rfl, rfl, rfl⟩
    · exact ⟨rfl, rfl, rfl, rfl⟩

/-- The octet a chunk has at a position of the frame. -/
theorem write_apply_chunk (m : Mem) {c i : ℕ} (hle : c ≤ i) {b : UInt8}
    (h : bs[i - c]? = some b) : m.write c bs i = b := by
  simp [Mem.write, hle, h]

/-- The first chunk of a DMX frame. -/
def StartsDmx (p : Port) (f : Frame) (bs : List UInt8) : Prop :=
  f.flags.isRdm = false ∧ p.rx.count = 0 ∧ bs.head? = some 0

theorem startsDmx_iff {f : Frame} :
    (!f.flags.isRdm && p.rx.count == 0 && decide (bs.length > 0) &&
      f.data.write p.rx.count bs p.rx.count == 0) = true ↔ p.StartsDmx f bs := by
  simp only [Bool.and_eq_true, Bool.not_eq_true', beq_iff_eq, decide_eq_true_eq, StartsDmx,
    and_assoc]
  refine and_congr_right fun _ => and_congr_right fun _ => ?_
  cases bs with
  | nil => simp
  | cons b bs =>
    have hfirst : f.data.write p.rx.count (b :: bs) p.rx.count = b :=
      write_apply_chunk f.data le_rfl (by simp)
    simp [hfirst]

theorem StartsDmx.not_rdm {f : Frame} (h : p.StartsDmx f bs) :
    rdmFound f.flags (f.data.write p.rx.count bs) p.rx.count bs.length p.rx.count = false := by
  obtain ⟨hflag, hzero, hhead⟩ := h
  have hstart : f.data.write p.rx.count bs p.rx.count = 0 :=
    write_apply_chunk f.data le_rfl (by rw [Nat.sub_self, ← List.head?_eq_getElem?, hhead])
  have hsc : ¬ (0 : UInt8) = scRdm := by decide
  simp [rdmFound, hflag, hstart, hsc]

/-- A chunk of an RDM packet announces the length that is at its place
then, which may have been there before. -/
theorem fits_iff_rdm (h : p.Filling) (hdisc : entry.frame.flags.isRdmDisc = false)
    (hrdm : rdmFound entry.frame.flags (entry.frame.data.write p.rx.count bs) p.rx.count bs.length
      p.rx.count = true)
    (hlen : p.rx.count + bs.length < p.rx.expectedSlotsCount + 1) :
    (p.rx.count + bs.length ≤ p.announced entry.frame bs + 1 ∧
      p.announced entry.frame bs ≤ 512) ↔
    (p.rx.count ≤ 2 → ∀ length, bs[2 - p.rx.count]? = some length →
      p.rx.count + bs.length ≤ length.toNat + 2) := by
  have hexpected := h.expected
  by_cases hbetween : p.rx.count ≤ 2 ∧ 2 ≤ p.rx.count + bs.length
  · have hpos : p.rx.count + (2 - p.rx.count) = 2 := by omega
    have hannounced : p.announced entry.frame bs =
        (entry.frame.data.write p.rx.count bs 2).toNat + 1 := by
      simp [announced, hdisc, hrdm, isBetween, hbetween, hpos]
    have hbyte : (entry.frame.data.write p.rx.count bs 2).toNat < 256 := UInt8.toNat_lt _
    rw [hannounced]
    rcases Nat.lt_or_ge (2 - p.rx.count) bs.length with hin | hout
    · have hget : bs[2 - p.rx.count]? = some (bs.get ⟨2 - p.rx.count, hin⟩) := by simp [hin]
      have hread := write_apply_chunk entry.frame.data hbetween.1 hget
      rw [hread] at hbyte ⊢
      constructor
      · rintro ⟨hle, -⟩ - length hlength
        obtain rfl : _ = length := Option.some.inj (hget.symm.trans hlength)
        omega
      · intro hfits
        have hle := hfits hbetween.1 _ hget
        omega
    · refine iff_of_true (by omega) ?_
      intro _ length hlength
      rw [List.getElem?_eq_none hout] at hlength
      contradiction
  · have hannounced : p.announced entry.frame bs = p.rx.expectedSlotsCount := by
      have hbetween' : isBetween 2 p.rx.count (p.rx.count + bs.length) = false := by
        simpa [isBetween] using hbetween
      have hplain : ¬ p.StartsDmx entry.frame bs := by
        intro hstarts
        rw [hstarts.not_rdm] at hrdm
        contradiction
      rw [← startsDmx_iff] at hplain
      unfold announced
      simp only [hdisc, rdmPosLength, hbetween', Bool.and_false, Bool.false_eq_true, if_false]
      rw [if_neg hplain]
    rw [hannounced]
    refine iff_of_true (by omega) ?_
    intro hle length hlength
    have hin := (List.getElem?_eq_some_iff.1 hlength).1
    omega

theorem fits_iff_plain (h : p.Filling) (hdisc : entry.frame.flags.isRdmDisc = false)
    (hrdm : rdmFound entry.frame.flags (entry.frame.data.write p.rx.count bs) p.rx.count bs.length
      p.rx.count = false)
    (hlen : p.rx.count + bs.length < p.rx.expectedSlotsCount + 1) :
    (p.rx.count + bs.length ≤ p.announced entry.frame bs + 1 ∧
      p.announced entry.frame bs ≤ 512) ↔
    (entry.frame.flags.isRdm = false → p.rx.count = 0 → bs.head? = some 0 →
      p.rx.slotCountLock.locked = true →
      bs.length ≤ p.rx.slotCountLock.matchingSlotCount + 1 ∧
        p.rx.slotCountLock.matchingSlotCount ≤ 512) := by
  have hexpected := h.expected
  by_cases hstarts : p.StartsDmx entry.frame bs
  · have hannounced : p.announced entry.frame bs =
        if p.rx.slotCountLock.locked then p.rx.slotCountLock.matchingSlotCount else 512 := by
      unfold announced
      simp only [hdisc, hrdm, Bool.false_and, Bool.false_eq_true, if_false]
      rw [if_pos (startsDmx_iff.2 hstarts)]
    obtain ⟨hflag, hzero, hhead⟩ := hstarts
    rw [hannounced]
    split
    · next hlocked =>
      constructor
      · intro hle _ _ _ _
        omega
      · intro hfits
        have hle := hfits hflag hzero hhead hlocked
        omega
    · next hlocked =>
      refine iff_of_true (by omega) ?_
      intro _ _ _ hlocked'
      exact absurd hlocked' hlocked
  · have hannounced : p.announced entry.frame bs = p.rx.expectedSlotsCount := by
      rw [← startsDmx_iff] at hstarts
      unfold announced
      simp only [hdisc, hrdm, Bool.false_and, Bool.false_eq_true, if_false]
      rw [if_neg hstarts]
    rw [hannounced]
    refine iff_of_true (by omega) ?_
    intro hflag hzero hhead _
    exact absurd ⟨hflag, hzero, hhead⟩ hstarts

theorem fits_iff (h : p.Filling) (hdisc : entry.frame.flags.isRdmDisc = false)
    (hlen : p.rx.count + bs.length < p.rx.expectedSlotsCount + 1) :
    (p.rx.count + bs.length ≤ p.announced entry.frame bs + 1 ∧
      p.announced entry.frame bs ≤ 512) ↔ p.Fits entry.frame bs := by
  cases hrdm : rdmFound entry.frame.flags (entry.frame.data.write p.rx.count bs) p.rx.count
      bs.length p.rx.count with
  | true =>
    rw [fits_iff_rdm h hdisc hrdm hlen]
    constructor
    · intro hfits
      refine ⟨?_, fun _ => hfits⟩
      intro hflag hzero hhead
      have hnot := StartsDmx.not_rdm ⟨hflag, hzero, hhead⟩
      rw [hrdm] at hnot
      contradiction
    · intro hfits
      exact hfits.rdm hrdm
  | false =>
    rw [fits_iff_plain h hdisc hrdm hlen]
    constructor
    · intro hfits
      refine ⟨hfits, fun hfound => ?_⟩
      rw [hrdm] at hfound
      contradiction
    · exact fun hfits => hfits.locked

/-- The port when bytes have been stored and looked at. -/
def filled (p : Port) (bs : List UInt8) : Port := (p.inspectRx p.rx.count bs).advanceRx bs.length

theorem Filling.receiveData (h : p.Filling) (hn : n < 2 ^ 31) :
    (p.receiveData n fifo).1 =
      if p.chunk n fifo = [] then p
      else if p.rx.expectedSlotsCount + 1 ≤ p.rx.count + (p.chunk n fifo).length then
        (p.filled (p.chunk n fifo)).completeRx.1
      else p.filled (p.chunk n fifo) := by
  have hlen := h.length_chunk n fifo
  have hexpected := h.expected
  have hcount : (p.filled (p.chunk n fifo)).rx.count = p.rx.count + (p.chunk n fifo).length := by
    have hrest := (p.inspectRx_rest p.rx.count (p.chunk n fifo)).1
    show ((p.inspectRx p.rx.count (p.chunk n fifo)).rx.count + _) % 2 ^ 32 = _
    rw [hrest]
    omega
  unfold Port.receiveData
  simp only [h.data, h.readChars hn]
  rcases eq_or_ne (p.chunk n fifo) [] with hnil | hne
  · simp [hnil]
  · have hpos : (p.chunk n fifo).length > 0 := List.length_pos_iff.2 hne
    rw [if_pos hpos, if_neg hne, ← hcount]
    split
    · next hdone => exact (if_pos hdone).symm
    · next hmore => exact (if_neg hmore).symm

theorem completeRx_frame : p.completeRx.1.rx.frame = none := checkoutRxFrame_frame

/-- Bytes for a frame are received in two states. -/
theorem receiverDataAvailable_data (hstate : p.state.receivesData = true) (hframe : p.rx.frame = some entry)
    (count : Option ℕ) (fifo : List UInt8) :
    ∃ state : PortState, state.receivesData = true ∧
      p.receiverDataAvailable count fifo =
        { p with state := state }.receiveData (count.getD 1) fifo := by
  unfold receiverDataAvailable
  simp only [not_isTx_of_receivesData hstate, hframe, Bool.false_eq_true, if_false]
  cases hs : p.state <;> rw [hs] at hstate <;> first | contradiction | skip
  · exact ⟨.receiveDmxdata, rfl, rfl⟩
  · exact ⟨.receiveDmxdata, rfl, rfl⟩
  · refine ⟨.receiveRdmdata, rfl, ?_⟩
    simp only [← hs]

/-- **Every chunk fits the size it announces**, unless it completes the
frame or the frame is taken for a discovery request. -/
def ChunkFits (p : Port) (e : IntEvent) : Prop :=
  match e.1 with
  | .receiverDataAvailable count fifo => p.state.receivesData = true → ∀ entry,
      p.rx.frame = some entry → entry.frame.flags.isRdmDisc = false →
      p.rx.count + (p.chunk (count.getD 1) fifo).length < p.rx.expectedSlotsCount + 1 →
      p.Fits entry.frame (p.chunk (count.getD 1) fifo)
  | .sendFrame _ | .transmitterHasSpace _ | .transmitterEmpty _ | .lineStatusEvent ..
  | .rdmTimeout => True

/-- A frame that goes on is filled, up to the size that was announced. -/
theorem Filling.filled (h : p.Filling)
    (hlen : p.rx.count + bs.length < p.rx.expectedSlotsCount + 1) :
    (p.filled bs).rx.count = p.rx.count + bs.length ∧
      (p.filled bs).rx.data = some (p.rx.count + bs.length) ∧
      (p.filled bs).rx.frame.isSome = p.rx.frame.isSome ∧ (p.filled bs).state = p.state := by
  have hexpected := h.expected
  obtain ⟨hcount, hdata, hframe, hstate⟩ := p.inspectRx_rest p.rx.count bs
  refine ⟨?_, ?_, hframe, hstate⟩
  · show ((p.inspectRx p.rx.count bs).rx.count + bs.length) % 2 ^ 32 = _
    rw [hcount]
    omega
  · show (p.inspectRx p.rx.count bs).rx.data.map (· + bs.length) = _
    rw [hdata, h.data]
    rfl

theorem filled_expected (hframe : p.rx.frame = some entry) (bs : List UInt8) :
    (p.filled bs).rx.expectedSlotsCount = p.announced entry.frame bs := inspectRx_expected hframe bs

theorem announced_of_disc {f : Frame} (hdisc : f.flags.isRdmDisc = true) (bs : List UInt8) :
    p.announced f bs = p.rx.expectedSlotsCount := by
  simp [announced, hdisc]

/-- What the requests of a frame that goes on depend on. -/
theorem filled_fills_iff (h : p.Filling) (hstate : p.state.receivesData = true)
    (hframe : p.rx.frame = some entry)
    (hlen : p.rx.count + bs.length < p.rx.expectedSlotsCount + 1) :
    ((p.filled bs).Fills ↔ (entry.frame.flags.isRdmDisc = false → p.Fits entry.frame bs)) ∧
      ((p.filled bs).Bounded → (p.filled bs).Fills) := by
  have hexpected := h.expected
  obtain ⟨hcount, hdata, hsome, hsame⟩ := h.filled hlen
  have hstate' : (p.filled bs).state.receivesData = true := by rw [hsame]; exact hstate
  have hframe' : (p.filled bs).rx.frame.isSome = true := by rw [hsome, hframe]; rfl
  have hfills : (p.filled bs).Fills ↔ p.rx.count + bs.length ≤ p.announced entry.frame bs + 1 ∧
      p.announced entry.frame bs ≤ 512 := by
    rw [← filled_expected hframe bs, ← hcount]
    constructor
    · intro hfills
      exact ⟨(hfills hstate' hframe').count, (hfills hstate' hframe').expected⟩
    · rintro ⟨hle, hmost⟩ - -
      exact ⟨by rw [hdata, hcount], hle, hmost⟩
  constructor
  · rw [hfills]
    cases hdisc : entry.frame.flags.isRdmDisc with
    | true =>
      rw [announced_of_disc hdisc]
      exact iff_of_true (by omega) nofun
    | false =>
      rw [fits_iff h hdisc hlen]
      exact ⟨fun hfits _ => hfits, fun hfits => hfits rfl⟩
  · intro hbounded
    have hall := fun n hn => hbounded hstate' hframe' n hn
    have hbounds := (toread_bounds_iff (p := p.filled bs) (by omega)).1
      fun n hn => ⟨(hall n hn).1, (hall n hn).2.1⟩
    rw [hcount, filled_expected hframe] at hbounds
    exact hfills.2 hbounds

/-- The bytes of a discovery reply do not start a reception. -/
theorem receiverDataAvailable_discovery
    (hstate : p.state = .rdmdiscRecvPreamble ∨ p.state = .rdmdiscRecvData)
    (hframe : p.rx.frame = some entry) (count : Option ℕ) (fifo : List UInt8) :
    (p.receiverDataAvailable count fifo).1.state.receivesData = false := by
  have hends : ∀ q : Port, (q.state = .rdmdiscRecvPreamble ∨ q.state = .rdmdiscRecvData) →
      (q.receiveDiscovery (count.getD 1) fifo).1.state.receivesData = false := by
    intro q hq
    obtain ⟨state, hs, hends⟩ := receiveDiscovery_outcome (p := q) (count.getD 1) fifo
    have hdisc : state = .rdmdiscRecvPreamble ∨ state = .rdmdiscRecvData := by
      rcases hs with rfl | rfl
      · exact hq
      · exact .inr rfl
    rcases hends with hstays | ⟨hidle, -⟩
    · have hsame := congrArg (fun o => o.1.state) hstays
      change (q.receiveDiscovery (count.getD 1) fifo).1.state = state at hsame
      rcases hdisc with rfl | rfl <;> rw [hsame] <;> rfl
    · have hsame := congrArg View.state hidle
      change (q.receiveDiscovery (count.getD 1) fifo).1.state = .idle at hsame
      rw [hsame]
      rfl
  unfold receiverDataAvailable
  rcases hstate with hs | hs
  · rw [if_neg (by rw [hs]; decide)]
    simp only [hframe, hs]
    exact hends _ (.inl rfl)
  · rw [if_neg (by rw [hs]; decide)]
    simp only [hframe, hs]
    exact hends _ (.inr hs)

theorem fits_nil (p : Port) (f : Frame) : p.Fits f [] :=
  ⟨fun _ _ h => absurd h (by simp), fun _ _ _ h => absurd h (by simp)⟩

/-- A step that bytes for a frame are read in. -/
theorem fills_receive (h : p.Fills) (hstate : p.state.receivesData = true)
    (hframe : p.rx.frame = some entry) (count : Option ℕ) (hn : count.getD 1 < 2 ^ 31)
    (fifo : List UInt8) :
    ((p.receiverDataAvailable count fifo).1.Fills ↔ (entry.frame.flags.isRdmDisc = false →
      p.rx.count + (p.chunk (count.getD 1) fifo).length < p.rx.expectedSlotsCount + 1 →
      p.Fits entry.frame (p.chunk (count.getD 1) fifo))) ∧
    ((p.receiverDataAvailable count fifo).1.Bounded →
      (p.receiverDataAvailable count fifo).1.Fills) := by
  have hfill := h hstate (by rw [hframe]; rfl)
  obtain ⟨state, hs, heq⟩ := receiverDataAvailable_data hstate hframe count fifo
  have hfill' : ({ p with state := state } : Port).Filling :=
    ⟨hfill.data, hfill.count, hfill.expected⟩
  rw [heq, hfill'.receiveData hn]
  split
  · next hnil =>
    have hfills : ({ p with state := state } : Port).Fills := fun _ _ => hfill'
    have hnil' : p.chunk (count.getD 1) fifo = [] := hnil
    rw [hnil']
    exact ⟨iff_of_true hfills fun _ _ => p.fits_nil entry.frame, fun _ => hfills⟩
  · split
    · next hdone =>
      have hfills : (({ p with state := state } : Port).filled
          (({ p with state := state } : Port).chunk (count.getD 1) fifo)).completeRx.1.Fills := by
        intro _ hsome
        rw [completeRx_frame] at hsome
        contradiction
      refine ⟨iff_of_true hfills fun _ hmore => ?_, fun _ => hfills⟩
      exact absurd hdone (Nat.not_le.2 hmore)
    · next hmore =>
      have hlen := Nat.lt_of_not_le hmore
      have hiff := filled_fills_iff hfill' hs hframe hlen
      refine ⟨hiff.1.trans ⟨fun hfits hdisc _ => ?_, fun hfits hdisc => ?_⟩, hiff.2⟩
      · exact ⟨(hfits hdisc).locked, (hfits hdisc).rdm⟩
      · exact ⟨(hfits hdisc hlen).locked, (hfits hdisc hlen).rdm⟩

/-- **A step keeps the requests in bounds just when its chunk fits.** -/
theorem fills_stepInt (h : p.Fills) (e : IntEvent) :
    ((p.stepInt e).Fills ↔ p.ChunkFits e) ∧ ((p.stepInt e).Bounded → (p.stepInt e).Fills) := by
  obtain ⟨e, hint⟩ := e
  -- nothing to show where no bytes for a frame are read
  have hother : (p.step e).Fills → p.ChunkFits ⟨e, hint⟩ →
      ((p.stepInt ⟨e, hint⟩).Fills ↔ p.ChunkFits ⟨e, hint⟩) ∧
        ((p.stepInt ⟨e, hint⟩).Bounded → (p.stepInt ⟨e, hint⟩).Fills) :=
    fun hfills hfits => ⟨iff_of_true hfills hfits, fun _ => hfills⟩
  cases e with
  | receiverDataAvailable count fifo =>
    have hn := hint.count_lt
    cases hframe : p.rx.frame with
    | none =>
      refine hother ((receiverDataAvailable_rx (by simp [hframe]) count fifo).fills h) ?_
      intro _ entry hentry
      rw [hframe] at hentry
      contradiction
    | some entry =>
      by_cases hstate : p.state.receivesData = true
      · obtain ⟨hiff, hbounded⟩ := fills_receive h hstate hframe count hn fifo
        refine ⟨hiff.trans ⟨fun hfits _ entry' hentry => ?_, fun hfits => hfits hstate entry hframe⟩,
          hbounded⟩
        obtain rfl : entry = entry' := Option.some.inj (hframe.symm.trans hentry)
        exact hfits
      · refine hother ?_ fun hstate' => absurd hstate' hstate
        by_cases hdisc : p.state = .rdmdiscRecvPreamble ∨ p.state = .rdmdiscRecvData
        · intro hstate'
          have hnot := receiverDataAvailable_discovery hdisc hframe count fifo
          rw [show p.step (.receiverDataAvailable count fifo) =
            (p.receiverDataAvailable count fifo).1 from rfl, hnot] at hstate'
          contradiction
        · refine RxStep.fills (receiverDataAvailable_rx (fun _ => ?_) count fifo) h
          cases hs : p.state <;> simp_all [PortState.receivesData, PortState.receives]
  | sendFrame _ | transmitterHasSpace _ | transmitterEmpty _ | lineStatusEvent _ _ | rdmTimeout =>
    exact hother (RxStep.fills (step_rx _ nofun) h) trivial

end Port

open Port

/-- **The requests of a run stay in the frame just when every chunk fits
the size it announces.** -/
theorem requests_bounded_iff (es : List IntEvent) :
    Always stepInt Bounded create es ↔ EachStep stepInt ChunkFits create es := by
  have hinit : create.Fills := fun hstate => absurd hstate (by decide)
  refine always_iff_eachStep_of_invariant (fun _ h => h.bounded) ?_ ?_ hinit
  · intro p e hfills hbounded
    have hstep := fills_stepInt hfills e
    exact hstep.1.1 (hstep.2 hbounded)
  · intro p e hfills hfits
    exact (fills_stepInt hfills e).1.2 hfits

/-- An RDM packet of length 1 with two more octets in one chunk. -/
def overlongPacket : List IntEvent :=
  [⟨.lineStatusEvent true (some zeroFrame), trivial⟩,
    ⟨.receiverDataAvailable (some 5) [0xCC, 1, 1, 0, 0], by show 5 < 2 ^ 31; norm_num⟩]

/-- The next request is for a negative number of bytes. -/
theorem overlongPacket_not_bounded : ¬ Always stepInt Bounded create overlongPacket := by
  intro h
  have hlow := (h.last (by decide) (by decide) 0 (by norm_num)).1
  have hnegative : (run stepInt create overlongPacket).toread 0 = -2 := by decide
  omega

end Rtuart

end Dmx4Linux2
