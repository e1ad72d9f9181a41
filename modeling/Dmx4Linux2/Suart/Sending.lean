import Dmx4Linux2.Suart.Model.Card
import Dmx4Linux2.Suart.Order

/-!
# suart — a frame is sent as a whole

What `dmx512suart_send_frame` appends to the tx FIFO of a port. The
FIFO takes as many events as fit, and the number of events is not looked
at, so that the events of a frame are appended as a whole or not at all
just when the FIFO is full, or there is a frame and space for all of it
(`atomic_iff`).
-/

namespace Dmx4Linux2

namespace Suart

variable {flags : UInt32} {dmxdata : Mem} {count : ℕ}

/-! ## The events of a frame -/

theorem length_inlineEvents (octets : List UInt8) :
    (inlineEvents octets).length = (octets.length + 13) / 14 := by
  fun_induction inlineEvents octets with
  | case1 => rfl
  | case2 b bs ih =>
    rw [List.length_cons, ih, List.length_drop, List.length_cons, octetsPerInlineDataChunk]
    omega

/-- What the octets of a frame start with. -/
def frameStart (flags : UInt32) (dmxdata : Mem) : List Event :=
  if isRdmDiscoverReply dmxdata then []
  else if flags &&& flagNoBreak = 0 then breakEvents else []

/-- The octets of a frame, as they go on the line. -/
def frameOctets (dmxdata : Mem) (count : ℕ) : List UInt8 :=
  if isRdmDiscoverReply dmxdata then encodeDiscoverReply dmxdata else dmxdata.read 0 count

/-- All events of a frame. -/
def wholeFrame (flags : UInt32) (dmxdata : Mem) (count : ℕ) : List Event :=
  [.disableRx, .enableTx, .changeLine lineRts lineRts] ++ frameStart flags dmxdata ++
    inlineEvents (frameOctets dmxdata count) ++
    [.changeLine lineRts 0, .disableTx, .enableRx, .echo 1]

/-- How many events a frame takes: seven to switch the direction, five for
a break, and one for every 14 octets. -/
def frameLength (flags : UInt32) (dmxdata : Mem) (count : ℕ) : ℕ :=
  if isRdmDiscoverReply dmxdata then 9
  else 7 + (if flags &&& flagNoBreak = 0 then 5 else 0) + (count + 13) / 14

theorem length_wholeFrame (flags : UInt32) (dmxdata : Mem) (count : ℕ) :
    (wholeFrame flags dmxdata count).length = frameLength flags dmxdata count := by
  have hsum : (wholeFrame flags dmxdata count).length =
      7 + (frameStart flags dmxdata).length + ((frameOctets dmxdata count).length + 13) / 14 := by
    simp only [wholeFrame, List.length_append, List.length_cons, List.length_nil,
      length_inlineEvents]
    omega
  rw [hsum]
  unfold frameLength frameStart frameOctets
  by_cases hreply : isRdmDiscoverReply dmxdata = true
  · rw [if_pos hreply, if_pos hreply, if_pos hreply, length_encodeDiscoverReply]
    rfl
  · rw [if_neg hreply, if_neg hreply, if_neg hreply, Mem.length_read]
    split <;> rfl

theorem frameLength_le (flags : UInt32) (dmxdata : Mem) (hcount : count ≤ 513) :
    frameLength flags dmxdata count ≤ 49 := by
  unfold frameLength
  split
  · omega
  · split <;> omega

/-- There is a frame for octets, and none for no octets. -/
theorem frameEvents_eq {maxevents : ℕ} (start : List Event) {octets : List UInt8}
    (hmax : (octets.length + 6) / 14 ≤ maxevents - 13) :
    frameEvents maxevents start octets =
      if octets = [] then none
      else some ([.disableRx, .enableTx, .changeLine lineRts lineRts] ++ start ++
        inlineEvents octets ++ [.changeLine lineRts 0, .disableTx, .enableRx, .echo 1]) := by
  unfold frameEvents eventDataInline
  rw [octetsPerInlineDataChunk, if_neg (by omega)]
  cases octets with
  | nil => simp [inlineEvents]
  | cons b bs => simp [inlineEvents]

/-- A reply needs space for two data events. -/
theorem createFrame_of_reply {maxevents : ℕ} (flags : UInt32)
    (hreply : isRdmDiscoverReply dmxdata = true) (hfits : 13 + (count + 13) / 14 ≤ maxevents) :
    createFrame maxevents flags dmxdata count =
      if 15 ≤ maxevents then some (wholeFrame flags dmxdata count) else none := by
  have hlen := length_encodeDiscoverReply dmxdata
  rw [createFrame, if_neg (by omega), if_pos hreply]
  by_cases hspace : 15 ≤ maxevents
  · have hne : encodeDiscoverReply dmxdata ≠ [] := by
      intro heq
      rw [heq] at hlen
      exact absurd hlen (by decide)
    rw [if_pos hspace, frameEvents_eq _ (by rw [hlen]; omega), if_neg hne]
    simp only [wholeFrame, frameStart, frameOctets, hreply, if_true]
  · rw [if_neg hspace, frameEvents, eventDataInline, hlen, octetsPerInlineDataChunk,
      if_pos (by omega)]

/-- Anything else needs an octet. -/
theorem createFrame_of_not_reply {maxevents : ℕ} (flags : UInt32)
    (hreply : isRdmDiscoverReply dmxdata = false) (hfits : 13 + (count + 13) / 14 ≤ maxevents) :
    createFrame maxevents flags dmxdata count =
      if 0 < count then some (wholeFrame flags dmxdata count) else none := by
  rw [createFrame, if_neg (by omega), if_neg (by simp [hreply]),
    frameEvents_eq _ (by rw [Mem.length_read]; omega)]
  by_cases hpos : 0 < count
  · have hne : dmxdata.read 0 count ≠ [] := by
      intro heq
      have hlen := congrArg List.length heq
      rw [Mem.length_read, List.length_nil] at hlen
      omega
    rw [if_neg hne, if_pos hpos]
    simp only [wholeFrame, frameStart, frameOctets, hreply]
    rfl
  · obtain rfl : count = 0 := by omega
    rw [Mem.read_zero, if_pos rfl, if_neg hpos]

/-- **`dmx512suart_create_frame` makes the whole frame**, unless there is
nothing to send. -/
theorem createFrame_eq (flags : UInt32) (dmxdata : Mem) (hcount : count ≤ 513) :
    createFrame 128 flags dmxdata count =
      if isRdmDiscoverReply dmxdata = true ∨ 0 < count then some (wholeFrame flags dmxdata count)
      else none := by
  cases hreply : isRdmDiscoverReply dmxdata with
  | true => rw [createFrame_of_reply flags hreply (by omega), if_pos (by omega), if_pos (.inl rfl)]
  | false =>
    rw [createFrame_of_not_reply flags hreply (by omega)]
    simp only [Bool.false_eq_true, false_or]

/-! ## All or nothing -/

/-- **A frame is appended as a whole or not at all.** -/
def Atomic (garbage : Vector Event 128) (txfifo : Kfifo Event 128) (flags : UInt32)
    (dmxdata : Mem) (count : ℕ) : Prop :=
  (sendFrame garbage txfifo flags dmxdata count).items = txfifo.items ∨
    ∃ events, createFrame 128 flags dmxdata count = some events ∧
      (sendFrame garbage txfifo flags dmxdata count).items = txfifo.items ++ events

/-- A frame that was created is appended as far as it fits. -/
theorem sendFrame_items_of_some {events : List Event} (garbage : Vector Event 128)
    (txfifo : Kfifo Event 128) (hframe : createFrame 128 flags dmxdata count = some events)
    (hlen : events.length < 2 ^ 32) :
    (sendFrame garbage txfifo flags dmxdata count).items =
      txfifo.items ++ events.take txfifo.avail := by
  have htoNat : ((events.length : ℤ) % 2 ^ 32).toNat = events.length := by omega
  simp only [sendFrame, createdFrame, hframe, putTxevents, htoNat, Kfifo.put_items,
    List.take_left']

/-- Without a frame, -1 events are appended: as much of the array as fits,
whatever is in it. -/
theorem sendFrame_items_of_none (garbage : Vector Event 128) (txfifo : Kfifo Event 128)
    (hframe : createFrame 128 flags dmxdata count = none) :
    ∃ events, events.length = txfifo.avail ∧
      (sendFrame garbage txfifo flags dmxdata count).items = txfifo.items ++ events := by
  refine ⟨((createdFrame garbage flags dmxdata count).1.take 4294967295).take txfifo.avail, ?_, ?_⟩
  · have hlen : 128 ≤ (createdFrame garbage flags dmxdata count).1.length := by
      simp only [createdFrame, hframe, List.length_append, List.length_drop, Vector.length_toList]
      omega
    have havail : txfifo.avail ≤ 128 := Nat.sub_le _ _
    rw [List.length_take, List.length_take]
    omega
  · simp only [sendFrame, createdFrame, hframe, putTxevents, Kfifo.put_items]
    rfl

/-- **When a frame is appended as a whole or not at all**: when the FIFO
is full, or there is something to send and space for all of its events. -/
theorem atomic_iff (garbage : Vector Event 128) (txfifo : Kfifo Event 128) (flags : UInt32)
    (dmxdata : Mem) (hcount : count ≤ 513) :
    Atomic garbage txfifo flags dmxdata count ↔
      txfifo.avail = 0 ∨ (isRdmDiscoverReply dmxdata = true ∨ 0 < count) ∧
        frameLength flags dmxdata count ≤ txfifo.avail := by
  have hcreate := createFrame_eq flags dmxdata hcount
  by_cases hframe : isRdmDiscoverReply dmxdata = true ∨ 0 < count
  · rw [if_pos hframe] at hcreate
    have hlen := length_wholeFrame flags dmxdata count
    have hle := frameLength_le flags dmxdata hcount
    have hpos : 7 ≤ frameLength flags dmxdata count := by
      unfold frameLength
      split <;> omega
    have hitems := sendFrame_items_of_some garbage txfifo hcreate (by omega)
    constructor
    · rintro (hsame | ⟨events, hevents, hwhole⟩)
      · -- nothing was appended, and so there was no space at all
        rw [hitems, List.append_right_eq_self] at hsame
        have hnil := congrArg List.length hsame
        rw [List.length_take, List.length_nil] at hnil
        exact Or.inl (by omega)
      · obtain rfl : wholeFrame flags dmxdata count = events := by
          rw [hcreate] at hevents
          exact Option.some.inj hevents
        rw [hitems, List.append_cancel_left_eq] at hwhole
        have hall := congrArg List.length hwhole
        rw [List.length_take] at hall
        exact Or.inr ⟨hframe, by omega⟩
    · rintro (hfull | ⟨-, hspace⟩)
      · exact Or.inl (by rw [hitems, hfull, List.take_zero, List.append_nil])
      · exact Or.inr ⟨_, hcreate, by rw [hitems, List.take_of_length_le (by omega)]⟩
  · rw [if_neg hframe] at hcreate
    obtain ⟨events, hlen, hitems⟩ := sendFrame_items_of_none garbage txfifo hcreate
    constructor
    · rintro (hsame | ⟨events', hevents, -⟩)
      · rw [hitems, List.append_right_eq_self] at hsame
        exact Or.inl (by rw [← hlen, hsame, List.length_nil])
      · rw [hcreate] at hevents
        exact absurd hevents (by simp)
    · rintro (hfull | ⟨hframe', -⟩)
      · rw [hfull] at hlen
        exact Or.inl (by rw [hitems, List.eq_nil_of_length_eq_zero hlen, List.append_nil])
      · exact absurd hframe' hframe

/-- A frame of one octet and an empty FIFO. -/
theorem atomic_oneOctet :
    Atomic (Vector.replicate 128 .shutdown) .empty 0 (fun _ => 0) 1 :=
  (atomic_iff _ _ 0 (fun _ => 0) (by decide)).2 (Or.inr ⟨Or.inr (by decide), by decide⟩)

/-- **For a frame without octets the FIFO is filled up** with what is on
the stack, behind the events that turn the transmitter on. -/
theorem not_atomic_noOctets :
    ¬ Atomic (Vector.replicate 128 .shutdown) .empty 0 (fun _ => 0) 0 := by
  have hcreate : createFrame 128 0 (fun _ => 0) 0 = none := by
    rw [createFrame_eq 0 _ (by decide), if_neg (by decide)]
  obtain ⟨events, hlen, hitems⟩ :=
    sendFrame_items_of_none (Vector.replicate 128 .shutdown) .empty hcreate
  rintro (hsame | ⟨events', hevents, -⟩)
  · rw [hitems, List.append_right_eq_self] at hsame
    rw [hsame] at hlen
    exact absurd hlen (by decide)
  · rw [hcreate] at hevents
    exact absurd hevents (by simp)

end Suart

end Dmx4Linux2
