import Dmx4Linux2.Common.Run
import Dmx4Linux2.Rtuart.Chunking

/-!
# rtuart DMX client — recycled frames

A frame from the pool has been used before. What it was used for must not
show in what is received into it: the data are overwritten when the
reception starts and the size when it ends, but the flags are not, and the
receiver reads them. `recycled_iff` says that these are all that shows.
-/

namespace Dmx4Linux2

namespace Rtuart

/-! ## What is seen of a frame -/

/-- The flags, the size and the bytes that are received. -/
abbrev Seen : Type := Flags × ℕ × List UInt8

def Frame.seen (f : Frame) : Seen :=
  (f.flags, f.payloadSize, f.data.read 0 (f.payloadSize + 1))

/-- What is seen of the frames handed up. -/
def seenIn (acts : List Action) : List Seen := (delivered acts).map fun e => e.frame.seen

/-- What an event hands up. -/
def Port.shows (p : Port) (e : Event) : List Seen := seenIn (p.handle e).2

/-- Breaks and bytes. -/
def Event.onLine : Event → Bool
  | .lineStatusEvent .. | .receiverDataAvailable .. => true
  | _ => false

/-! ## What does not matter -/

/-- The frame being received, without what is not read of it. -/
def Entry.blind (e : Entry) : Entry :=
  ⟨e.id, { e.frame with port := 0, breaksize := 0, payloadSize := 0 }⟩

def Port.blind (p : Port) : Port :=
  { p with rx := { p.rx with frame := p.rx.frame.map Entry.blind } }

/-- The frame received, likewise. -/
def Frame.bare (f : Frame) : Frame := { f with port := 0, breaksize := 0 }

def Entry.bare (e : Entry) : Entry := ⟨e.id, e.frame.bare⟩

/-- What a reception takes over of an entry: its flags. -/
def Entry.fresh (g : Entry) : Entry := ⟨g.id, ⟨0, g.frame.flags, 0, 0, blank g⟩⟩

def Event.fresh : Event → Event
  | .lineStatusEvent isBreak got => .lineStatusEvent isBreak (got.map Entry.fresh)
  | e => e

variable {p : Port} {g : Entry} {got : Option Entry} {acts acts' : List Action}

theorem seenIn_append : seenIn (acts ++ acts') = seenIn acts ++ seenIn acts' := by
  unfold seenIn
  rw [delivered_append, List.map_append]

theorem seenIn_putFrame (o : Option Entry) : seenIn (putFrame o) = [] := by
  unfold seenIn
  rw [delivered_putFrame, List.map_nil]

theorem seenIn_received_bare (o : Option Entry) :
    seenIn (receivedFrame (o.map Entry.bare)) = seenIn (receivedFrame o) := by
  cases o <;> rfl

/-- A callback does the same without what does not matter. -/
structure Commutes (r r' : Port × List Action) : Prop where
  port : r'.1 = r.1.blind
  seen : seenIn r'.2 = seenIn r.2

theorem checkoutRxFrame_blind : p.blind.checkoutRxFrame =
    (p.checkoutRxFrame.1.blind, p.checkoutRxFrame.2.map Entry.bare) := by
  cases hf : p.rx.frame with
  | none => simp [Port.checkoutRxFrame, Port.blind, hf]
  | some e =>
    unfold Port.checkoutRxFrame
    simp only [Port.blind, hf, Option.map_some]
    rfl

theorem checkoutTxFrame_blind :
    p.blind.checkoutTxFrame = (p.checkoutTxFrame.1.blind, p.checkoutTxFrame.2) := by
  cases hf : p.tx.frame with
  | none => simp [Port.checkoutTxFrame, Port.blind, hf]
  | some e => simp [Port.checkoutTxFrame, Port.blind, hf]

theorem checkReceivedData_blind (start size d : ℕ) :
    p.blind.checkReceivedData start size d = (p.checkReceivedData start size d).blind := by
  cases hf : p.rx.frame with
  | none => simp [Port.checkReceivedData, Port.blind, hf]
  | some e =>
    have hblind : p.blind.rx.frame = some e.blind := congrArg (Option.map Entry.blind) hf
    unfold Port.checkReceivedData
    rw [hblind, hf]
    dsimp only
    by_cases hdisc : e.frame.flags.isRdmDisc
    · rw [if_pos hdisc]
      exact if_pos hdisc
    · rw [if_neg hdisc]
      exact if_neg hdisc

theorem storeRx_blind (d : ℕ) (bs : List UInt8) : p.blind.storeRx d bs = (p.storeRx d bs).blind := by
  unfold Port.storeRx Port.blind
  dsimp only
  rw [Option.map_map, Option.map_map]
  rfl

theorem completeRx_blind : Commutes p.completeRx p.blind.completeRx := by
  -- the timer does not matter
  have hrest : ∀ q : Port, Commutes
      ({ q.checkoutTxFrame.1.checkoutRxFrame.1 with state := .idle },
        putFrame q.checkoutTxFrame.2 ++ receivedFrame q.checkoutTxFrame.1.checkoutRxFrame.2)
      ({ q.blind.checkoutTxFrame.1.checkoutRxFrame.1 with state := .idle },
        putFrame q.blind.checkoutTxFrame.2 ++
          receivedFrame q.blind.checkoutTxFrame.1.checkoutRxFrame.2) := by
    intro q
    rw [checkoutTxFrame_blind]
    dsimp only
    rw [checkoutRxFrame_blind]
    refine ⟨rfl, ?_⟩
    dsimp only
    rw [seenIn_append, seenIn_append, seenIn_received_bare]
  unfold Port.completeRx
  dsimp only
  show Commutes _ (_, _)
  cases hf : p.tx.frame with
  | none => 
    have hblind : p.blind.tx.frame = none := hf
    rw [hblind]
    exact hrest p
  | some e =>
    have hblind : p.blind.tx.frame = some e := hf
    rw [hblind]
    dsimp only
    by_cases hrdm : e.frame.flags.isRdm
    · rw [if_pos hrdm, if_pos hrdm]
      exact hrest { p with rdmTimer := none }
    · rw [if_neg hrdm, if_neg hrdm]
      exact hrest p

theorem receiveData_blind (count : ℕ) (fifo : List UInt8) :
    Commutes (p.receiveData count fifo) (p.blind.receiveData count fifo) := by
  unfold Port.receiveData
  have hdata : p.blind.rx.data = p.rx.data := rfl
  have htoread : p.blind.toread count = p.toread count := rfl
  rw [hdata, htoread]
  cases hd : p.rx.data with
  | none => exact ⟨rfl, rfl⟩
  | some d =>
    dsimp only
    generalize readChars fifo (p.toread count) = bs
    have hq : ((p.blind.storeRx d bs).checkReceivedData p.blind.rx.count bs.length d).advanceRx
        bs.length = (((p.storeRx d bs).checkReceivedData p.rx.count bs.length d).advanceRx
          bs.length).blind := by
      rw [storeRx_blind, checkReceivedData_blind]
      rfl
    rw [hq]
    generalize ((p.storeRx d bs).checkReceivedData p.rx.count bs.length d).advanceRx
      bs.length = q
    split
    · have hcount : q.blind.rx.count = q.rx.count := rfl
      have hexpected : p.blind.rx.expectedSlotsCount = p.rx.expectedSlotsCount := rfl
      rw [hcount, hexpected]
      split
      · obtain ⟨hport, hseen⟩ := completeRx_blind (p := q)
        refine ⟨hport, ?_⟩
        dsimp only
        rw [seenIn_append, seenIn_append, hseen]
      · exact ⟨rfl, rfl⟩
    · exact ⟨rfl, rfl⟩

theorem answerRequest_blind (reply : Frame → Frame) :
    Commutes (p.answerRequest reply) (p.blind.answerRequest reply) := by
  unfold Port.answerRequest
  dsimp only
  rw [checkoutRxFrame_blind]
  dsimp only
  rw [checkoutTxFrame_blind]
  refine ⟨rfl, ?_⟩
  dsimp only
  rw [seenIn_append, seenIn_append, seenIn_putFrame, seenIn_putFrame]

theorem completeRdmDiscoveryReply_bare (f : Frame) :
    f.bare.completeRdmDiscoveryReply = f.completeRdmDiscoveryReply.map Frame.bare := by
  unfold Frame.completeRdmDiscoveryReply
  dsimp only [Frame.bare]
  rw [apply_ite (Option.map Frame.bare)]
  rfl

theorem completeDiscovery_blind : Commutes p.completeDiscovery p.blind.completeDiscovery := by
  unfold Port.completeDiscovery
  have hcount : p.blind.rx.count = p.rx.count := rfl
  have hexpected : p.blind.rx.expectedSlotsCount = p.rx.expectedSlotsCount := rfl
  rw [hcount, hexpected]
  split
  · have htimer : { p.blind with rdmTimer := none } = { p with rdmTimer := none }.blind := rfl
    rw [htimer, checkoutRxFrame_blind]
    dsimp only
    rw [checkoutTxFrame_blind]
    generalize { p with rdmTimer := none }.checkoutRxFrame = r
    obtain ⟨q, o⟩ := r
    cases o with
    | none => exact ⟨rfl, rfl⟩
    | some e =>
      dsimp only [Option.map_some, Entry.bare]
      rw [completeRdmDiscoveryReply_bare]
      cases e.frame.completeRdmDiscoveryReply with
      | none =>
        refine ⟨rfl, ?_⟩
        dsimp only [Option.map_none]
        rw [seenIn_append, seenIn_append]
        rfl
      | some f =>
        refine ⟨rfl, ?_⟩
        dsimp only [Option.map_some]
        rw [seenIn_append, seenIn_append]
        rfl
  · exact ⟨rfl, rfl⟩

theorem receiveDiscovery_blind (count : ℕ) (fifo : List UInt8) :
    Commutes (p.receiveDiscovery count fifo) (p.blind.receiveDiscovery count fifo) := by
  unfold Port.receiveDiscovery
  have hdata : p.blind.rx.data = p.rx.data := rfl
  rw [hdata]
  cases hd : p.rx.data with
  | none => exact ⟨rfl, rfl⟩
  | some d =>
    dsimp only
    generalize readChars fifo count = bs
    rw [storeRx_blind]
    generalize p.storeRx d bs = q
    split
    · have hstate : q.blind.state = q.state := rfl
      rw [hstate]
      split
      · cases findPreamble bs with
        | collision =>
          obtain ⟨hport, hseen⟩ :=
            answerRequest_blind (p := { q with rdmTimer := none }) Frame.rdmDiscoveryReplyCollision
          refine ⟨?_, ?_⟩
          · exact congrArg (fun a : Port => { a with state := .idle }.advanceRx bs.length) hport
          · dsimp only
            rw [seenIn_append, seenIn_append]
            exact congrArg (· ++ seenIn [.enableNotification .rxAvailable]) hseen
        | found i => exact completeDiscovery_blind
        | incomplete => exact ⟨rfl, rfl⟩
      · exact completeDiscovery_blind (p := q.advanceRx bs.length)
    · exact ⟨rfl, rfl⟩

/-- **Bytes.** -/
theorem receiverDataAvailable_blind (count : Option ℕ) (fifo : List UInt8) :
    Commutes (p.receiverDataAvailable count fifo) (p.blind.receiverDataAvailable count fifo) := by
  unfold Port.receiverDataAvailable
  dsimp only
  have hstate : p.blind.state = p.state := rfl
  rw [hstate]
  split
  · exact ⟨rfl, rfl⟩
  · cases hf : p.rx.frame with
    | none =>
      have hblind : p.blind.rx.frame = none := congrArg (Option.map Entry.blind) hf
      rw [hblind]
      exact ⟨rfl, rfl⟩
    | some e =>
      have hblind : p.blind.rx.frame = some e.blind := congrArg (Option.map Entry.blind) hf
      rw [hblind]
      cases hs : p.state
      case expectStartcode | receiveDmxdata =>
        exact receiveData_blind (p := { p with state := .receiveDmxdata }) _ _
      case receiveRdmdata => exact receiveData_blind _ _
      case rdmdiscRecvPreamble =>
        exact receiveDiscovery_blind
          (p := { p with state := .rdmdiscRecvPreamble, rdmTimer := some 5000 }) _ _
      case rdmdiscRecvData => exact receiveDiscovery_blind _ _
      all_goals exact ⟨rfl, rfl⟩

theorem flushRx_blind : Commutes p.flushRx p.blind.flushRx := by
  unfold Port.flushRx
  rw [checkoutRxFrame_blind]
  dsimp only
  refine ⟨?_, seenIn_received_bare _⟩
  have hstate : p.checkoutRxFrame.1.blind.state = p.checkoutRxFrame.1.state := rfl
  dsimp only
  rw [hstate]
  split <;> rfl

/-- The data are overwritten before anything is received. -/
theorem blank_fresh : blank g.fresh = blank g := Mem.write_write rfl

theorem startRx_blind (state : PortState) (expected : ℕ) :
    p.blind.startRx g.fresh state expected = (p.startRx g state expected).blind := by
  have hdata : (blank g).write 0 (List.replicate 513 0xCE) = blank g := blank_fresh
  unfold Port.startRx
  dsimp only [Entry.modify, Entry.fresh]
  rw [hdata]
  rfl

theorem handleBreak_blind (got : Option Entry) :
    Commutes (p.handleBreak got) (p.blind.handleBreak (got.map Entry.fresh)) := by
  refine ⟨?_, ?_⟩
  · unfold Port.handleBreak
    have hstate : p.blind.state = p.state := rfl
    rw [hstate]
    cases hs : p.state
    case idle =>
      cases got with
      | none => rfl
      | some g => exact startRx_blind _ _
    case expectRdmFrame =>
      cases got with
      | none => rfl
      | some g =>
        exact startRx_blind
          (p := { p with state := .expectRdmFrame, rdmTimer := some (3000 + 60 * 256) }) _ _
    case expectStartcode =>
      cases hf : p.rx.frame with
      | none =>
        have hblind : p.blind.rx.frame = none := congrArg (Option.map Entry.blind) hf
        rw [hblind]
      | some e =>
        have hblind : p.blind.rx.frame = some e.blind := congrArg (Option.map Entry.blind) hf
        rw [hblind]
        rfl
    all_goals rfl
  · unfold seenIn
    rw [delivered_handleBreak, delivered_handleBreak]

/-- **A line event.** -/
theorem lineStatusEvent_blind (isBreak : Bool) : Commutes (p.lineStatusEvent isBreak got)
    (p.blind.lineStatusEvent isBreak (got.map Entry.fresh)) := by
  unfold Port.lineStatusEvent
  have hstate : p.blind.state = p.state := rfl
  have hframe : p.blind.rx.frame.isSome = p.rx.frame.isSome := Option.isSome_map
  rw [hstate, hframe]
  split
  · exact ⟨rfl, rfl⟩
  · split
    · -- what is being received is handed up first
      have hrest : ∀ r r' : Port × List Action, Commutes r r' → Commutes
          ((r.1.handleBreak got).1,
            r.2 ++ (r.1.handleBreak got).2 ++ [.enableNotification .lineEvent])
          ((r'.1.handleBreak (got.map Entry.fresh)).1,
            r'.2 ++ (r'.1.handleBreak (got.map Entry.fresh)).2 ++
              [.enableNotification .lineEvent]) := by
        intro r r' hr
        obtain ⟨hport, hseen⟩ := handleBreak_blind (p := r.1) got
        refine ⟨?_, ?_⟩
        · rw [hr.port]
          exact hport
        · dsimp only
          rw [seenIn_append, seenIn_append, seenIn_append, seenIn_append, hr.seen, hr.port, hseen]
      dsimp only
      split
      · exact hrest _ _ flushRx_blind
      · exact hrest (p, []) (p.blind, []) ⟨rfl, rfl⟩
    · exact ⟨rfl, rfl⟩

/-- **An event on the line.** -/
theorem handle_blind {e : Event} (he : e.onLine) :
    Commutes (p.handle e) (p.blind.handle e.fresh) := by
  cases e with
  | lineStatusEvent isBreak got => exact lineStatusEvent_blind isBreak
  | receiverDataAvailable count fifo => exact receiverDataAvailable_blind count fifo
  | _ => exact absurd he Bool.false_ne_true

/-- **Two runs on the line** that differ in entries with the same flags
show the same. -/
theorem outputs_eq_of_fresh {es es' : List Event} (hes : ∀ e ∈ es, e.onLine)
    (hes' : ∀ e ∈ es', e.onLine) (hfresh : es.map Event.fresh = es'.map Event.fresh) :
    outputs Port.step Port.shows p es = outputs Port.step Port.shows p es' := by
  have hstep : ∀ (q : Port) (e : Event), e.onLine → q.blind.step e.fresh = (q.step e).blind :=
    fun q e he => (handle_blind he).port
  have hout : ∀ (q : Port) (e : Event), e.onLine → q.blind.shows e.fresh = q.shows e :=
    fun q e he => (handle_blind he).seen
  calc outputs Port.step Port.shows p es
      = outputs Port.step Port.shows p.blind (es.map Event.fresh) :=
        (outputs_map hstep hout hes).symm
    _ = outputs Port.step Port.shows p.blind (es'.map Event.fresh) := by rw [hfresh]
    _ = outputs Port.step Port.shows p es' := outputs_map hstep hout hes'

/-! ## What does -/

/-- An entry with other contents: what a frame has, and the bytes of its
array. What is behind the array stays: the two timestamps of the frame, and
then memory that is not the entry's. -/
def Entry.refill (e : Entry) (f : Frame) : Entry :=
  ⟨e.id, { f with data := e.frame.data.write 0 (f.data.read 0 513) }⟩

theorem refill_flags (e : Entry) (f : Frame) : (e.refill f).frame.flags = f.flags := by
  simp only [Entry.refill]

theorem fresh_refill {e : Entry} {f f' : Frame} (h : f.flags = f'.flags) :
    (e.refill f).fresh = (e.refill f').fresh := by
  have hblank : ∀ f : Frame, blank (e.refill f) = blank e := by
    intro f
    have hlength : (f.data.read 0 513).length = (List.replicate 513 (0xCE : UInt8)).length :=
      Mem.length_read.trans List.length_replicate.symm
    unfold blank Entry.refill
    dsimp only
    rw [Mem.write_write hlength]
  have hid : (e.refill f).id = (e.refill f').id := by simp only [Entry.refill]
  unfold Entry.fresh
  rw [hblank, hblank, refill_flags, refill_flags, h, hid]

/-- A break that takes an entry starts to receive into it. -/
theorem takes_cases {e : Entry} (h : taken (p.lineStatusEvent true (some e)).2 ≠ []) :
    ∃ q st expected, (st = .expectStartcode ∧ expected = 512 ∨
        st = .receiveRdmdata ∧ expected = 256) ∧
      ∀ g, p.step (.lineStatusEvent true (some g)) = Port.startRx q g st expected := by
  have htaken : ∀ (r : Port × List Action), taken r.2 = [] →
      taken (r.2 ++ (r.1.handleBreak (some e)).2 ++ [.enableNotification .lineEvent]) ≠ [] →
      ∃ q st expected, (st = .expectStartcode ∧ expected = 512 ∨
          st = .receiveRdmdata ∧ expected = 256) ∧
        ∀ g, (r.1.handleBreak (some g)).1 = Port.startRx q g st expected := by
    intro r hr hne
    rw [taken_append, taken_append, hr] at hne
    unfold Port.handleBreak at hne ⊢
    cases hs : r.1.state
    case idle => exact ⟨r.1, _, _, Or.inl ⟨rfl, rfl⟩, fun g => rfl⟩
    case expectRdmFrame =>
      exact ⟨{ r.1 with rdmTimer := some (3000 + 60 * 256) }, _, _, Or.inr ⟨rfl, rfl⟩,
        fun g => rfl⟩
    case expectStartcode =>
      refine absurd ?_ hne
      rw [hs]
      dsimp only
      split <;> rfl
    all_goals
      refine absurd ?_ hne
      rw [hs]
      rfl
  unfold Port.step Port.handle
  unfold Port.lineStatusEvent at h ⊢
  by_cases htx : p.state.isTx
  · rw [if_pos htx] at h
    exact absurd rfl h
  · simp only [htx, Bool.false_eq_true, if_false, if_true] at h ⊢
    refine htaken _ ?_ h
    split
    · exact taken_receivedFrame _
    · rfl

/-- A chunk whose second byte is the sub start code of an RDM frame, which
it is not. -/
def probe : List UInt8 := [0, scSubMessage] ++ List.replicate 511 0

theorem checkReceivedData_flags {e : Entry} (hf : p.rx.frame = some e)
    (hdisc : ¬ e.frame.flags.isRdmDisc) (start size d : ℕ) :
    (p.checkReceivedData start size d).rx.frame.map (fun e => e.frame.flags) =
      some { e.frame.flags with
        isRdm := rdmFound e.frame.flags e.frame.data start size d
        isRdmDisc := rdmFound e.frame.flags e.frame.data start size d &&
          isBetween rdmPosPdl start (start + size) && isRdmDiscover e.frame.data } := by
  unfold Port.checkReceivedData
  simp only [hf]
  rw [if_neg hdisc]
  rfl

theorem seenIn_receivedFrame (o : Option Entry) :
    (seenIn (receivedFrame o)).map Prod.fst = (o.map fun e => e.frame.flags).toList := by
  cases o <;> rfl

theorem checkoutRxFrame_flags :
    p.checkoutRxFrame.2.map (fun e => e.frame.flags) = p.rx.frame.map fun e => e.frame.flags := by
  cases hf : p.rx.frame with
  | none =>
    unfold Port.checkoutRxFrame
    rw [hf]
  | some e =>
    have hout : ∃ size, p.checkoutRxFrame.2 =
        some ⟨e.id, { e.frame with payloadSize := size }⟩ := by
      unfold Port.checkoutRxFrame
      rw [hf]
      exact ⟨_, rfl⟩
    obtain ⟨size, hout⟩ := hout
    rw [hout]
    rfl

theorem seenIn_completeRx :
    (seenIn p.completeRx.2).map Prod.fst = (p.rx.frame.map fun e => e.frame.flags).toList := by
  unfold Port.completeRx
  dsimp only
  rw [seenIn_append, seenIn_putFrame, List.nil_append, seenIn_receivedFrame,
    checkoutRxFrame_flags, Port.checkoutTxFrame_rx]
  split <;> (try split) <;> rfl

/-- What the probe shows: the flags of the entry. -/
theorem inspectRx_flags {e : Entry} {bs : List UInt8} (hf : p.rx.frame = some ⟨e.id,
      { e.frame with data := blank e }⟩) (hcount : p.rx.count = 0)
    (hzero : bs[0]? = some 0) (hone : bs[1]? = some scSubMessage) :
    (p.inspectRx 0 bs).rx.frame.map (fun e => e.frame.flags) = some e.frame.flags := by
  have hstore : (p.storeRx 0 bs).rx.frame =
      some ⟨e.id, { e.frame with data := (blank e).write 0 bs }⟩ := by
    unfold Port.storeRx
    rw [hf]
    rfl
  have hne : bs ≠ [] := by
    rintro rfl
    simp at hzero
  unfold Port.inspectRx
  rw [hcount]
  by_cases hdisc : e.frame.flags.isRdmDisc
  · rw [checkReceivedData_settled hstore _ _ (Or.inl hdisc)]
    unfold Rx.marked
    rw [hstore]
    rfl
  · have hrdm : rdmFound e.frame.flags ((blank e).write 0 bs) 0 bs.length 0 =
        e.frame.flags.isRdm := by
      rw [Bool.eq_iff_iff, rdmFound_first hne]
      refine ⟨fun h => h.2.resolve_left ?_, fun h => ⟨hone, Or.inr h⟩⟩
      rw [hzero]
      decide
    have hstart : (blank e).write 0 bs 0 = 0 := by
      rw [blank_write_apply (by omega), hzero]
      rfl
    have hdiscover : isRdmDiscover ((blank e).write 0 bs) = false := by
      unfold isRdmDiscover isDiscUniqueBranch isRdm
      rw [dmxPosStartcode, hstart]
      rfl
    rw [checkReceivedData_flags hstore hdisc]
    dsimp only
    rw [hrdm, hdiscover, Bool.and_false]
    have hnot : e.frame.flags.isRdmDisc = false := by simpa using hdisc
    rw [← hnot]

theorem checkReceivedData_count (start size d : ℕ) :
    (p.checkReceivedData start size d).rx.count = p.rx.count := by
  obtain ⟨flags, expected, hrx⟩ := checkReceivedData_marked (p := p) start size d
  rw [hrx]
  rfl

/-- The probe completes a frame of either kind at once. -/
theorem receiveData_probe {state : PortState} {expected : ℕ}
    (hexpected : expected = 512 ∨ expected = 256) :
    (seenIn ((p.startRx g state expected).receiveData probe.length probe).2).map Prod.fst =
      [g.frame.flags] := by
  have hlength : probe.length = 513 := by
    unfold probe
    rw [List.length_append, List.length_replicate]
    rfl
  have hread : readChars probe ((p.startRx g state expected).toread probe.length) =
      probe.take (expected + 1) := by
    have htoread : (p.startRx g state expected).toread probe.length = (expected + 1 : ℕ) := by
      show (if (0 + probe.length) % 2 ^ 32 < expected + 1 then (probe.length : ℤ)
        else (expected + 1 : ℤ) - (0 : ℕ)) = _
      rw [hlength, if_neg (by omega)]
      omega
    have hmany : (((expected + 1 : ℕ) : ℤ) % 2 ^ 64).toNat = expected + 1 := by omega
    unfold readChars
    rw [htoread, hmany]
  have htake : (probe.take (expected + 1)).length = expected + 1 := by
    rw [List.length_take, hlength]
    omega
  have hzero : (probe.take (expected + 1))[0]? = some 0 := by
    rw [List.getElem?_take_of_lt (by omega)]
    rfl
  have hone : (probe.take (expected + 1))[1]? = some scSubMessage := by
    rw [List.getElem?_take_of_lt (by omega)]
    rfl
  generalize probe.take (expected + 1) = bs at hread htake hzero hone
  have hflags := inspectRx_flags (p := p.startRx g state expected) (e := g) rfl rfl hzero hone
  have hcount : ((p.startRx g state expected).inspectRx 0 bs).rx.count = 0 :=
    checkReceivedData_count _ _ _
  rw [receiveData_eq rfl hread (List.length_pos_iff.1 (by omega))]
  generalize (p.startRx g state expected).inspectRx 0 bs = q at hflags hcount
  have hdone : (q.advanceRx bs.length).rx.count ≥
      (p.startRx g state expected).rx.expectedSlotsCount + 1 := by
    show (q.rx.count + bs.length) % 2 ^ 32 ≥ expected + 1
    rw [hcount]
    omega
  dsimp only
  rw [if_pos hdone]
  dsimp only
  rw [seenIn_append, List.map_append, seenIn_completeRx]
  have hframe : (q.advanceRx bs.length).rx.frame = q.rx.frame := rfl
  rw [hframe, hflags]
  split <;> rfl

theorem shows_probe {state : PortState} {expected : ℕ}
    (h : state = .expectStartcode ∧ expected = 512 ∨ state = .receiveRdmdata ∧ expected = 256) :
    ((p.startRx g state expected).shows
      (.receiverDataAvailable (some probe.length) probe)).map Prod.fst = [g.frame.flags] := by
  have hdmx : ∀ (n : ℕ) (fifo : List UInt8),
      (p.startRx g .expectStartcode 512).handle (.receiverDataAvailable (some n) fifo) =
        (p.startRx g .receiveDmxdata 512).receiveData n fifo := fun _ _ => rfl
  have hrdm : ∀ (n : ℕ) (fifo : List UInt8),
      (p.startRx g .receiveRdmdata 256).handle (.receiverDataAvailable (some n) fifo) =
        (p.startRx g .receiveRdmdata 256).receiveData n fifo := fun _ _ => rfl
  unfold Port.shows
  rcases h with ⟨rfl, rfl⟩ | ⟨rfl, rfl⟩
  · rw [hdmx, receiveData_probe (Or.inl rfl)]
  · rw [hrdm, receiveData_probe (Or.inr rfl)]

/-- **What shows of a recycled frame**: its flags, and nothing else.
Whatever comes on the line after a break that takes an entry, the same is
handed up for two contents of the entry just when these have the same
flags. -/
theorem recycled_iff {e : Entry} (h : taken (p.lineStatusEvent true (some e)).2 ≠ [])
    (f f' : Frame) :
    (∀ es : List Event, (∀ x ∈ es, x.onLine) →
      outputs Port.step Port.shows p (.lineStatusEvent true (some (e.refill f)) :: es) =
        outputs Port.step Port.shows p (.lineStatusEvent true (some (e.refill f')) :: es)) ↔
      f.flags = f'.flags := by
  constructor
  · intro hsame
    obtain ⟨q, state, expected, hkind, hstart⟩ := takes_cases h
    have hline : ∀ (n : ℕ) (fifo : List UInt8),
        ∀ x ∈ [Event.receiverDataAvailable (some n) fifo], x.onLine := by
      intro n fifo x hx
      rw [List.mem_singleton.1 hx]
      rfl
    have hprobe := hsame [.receiverDataAvailable (some probe.length) probe] (hline _ _)
    simp only [outputs, hstart, List.cons.injEq, and_true] at hprobe
    have hflags := congrArg (List.map Prod.fst) hprobe.2
    rw [shows_probe hkind, shows_probe hkind, refill_flags, refill_flags] at hflags
    exact (List.cons.inj hflags).1
  · intro hflags es hes
    have hline : ∀ g : Entry, ∀ x ∈ Event.lineStatusEvent true (some g) :: es, x.onLine := by
      intro g x hx
      rcases List.mem_cons.1 hx with rfl | hx
      · rfl
      · exact hes x hx
    refine outputs_eq_of_fresh (hline _) (hline _) ?_
    rw [List.map_cons, List.map_cons]
    simp only [Event.fresh, Option.map_some, fresh_refill hflags]

/-- A frame that was used before, for data that are long gone. -/
def usedFrame : Frame := ⟨3, ⟨false, false, false, 0⟩, 22, 40, fun _ => 0x55⟩

/-- A frame that was used for RDM. -/
def usedForRdm : Frame := { usedFrame with flags := ⟨false, true, false, 0⟩ }

/-- Nine slots in two chunks. -/
def nineSlots : List Event :=
  [.receiverDataAvailable (some 3) [0, 1, 3],
    .receiverDataAvailable (some 7) [30, 40, 50, 60, 70, 80, 90], .lineStatusEvent true none]

theorem recycled_iff_usedFrame :
    outputs Port.step Port.shows Port.create
        (.lineStatusEvent true (some (zeroFrame.refill zeroFrame.frame)) :: nineSlots) =
      outputs Port.step Port.shows Port.create
        (.lineStatusEvent true (some (zeroFrame.refill usedFrame)) :: nineSlots) := by
  refine (recycled_iff (e := zeroFrame) ?_ zeroFrame.frame usedFrame).2 rfl nineSlots ?_
  · decide
  · decide

/-- The frame that was used for RDM is taken for an RDM frame and ends
after four of the nine slots. -/
theorem not_recycled_usedForRdm :
    ¬ ∀ (p : Port) (e : Entry) (f f' : Frame) (es : List Event),
      taken (p.lineStatusEvent true (some e)).2 ≠ [] → (∀ x ∈ es, x.onLine) →
      outputs Port.step Port.shows p (.lineStatusEvent true (some (e.refill f)) :: es) =
        outputs Port.step Port.shows p (.lineStatusEvent true (some (e.refill f')) :: es) := by
  intro h
  have hsame := h Port.create zeroFrame usedFrame usedForRdm nineSlots (by decide) (by decide)
  have hsizes := congrArg (List.map (List.map fun s : Seen => s.2.1)) hsame
  exact absurd hsizes (by decide)

end Rtuart

end Dmx4Linux2
