import Dmx4Linux2.Common.Run
import Dmx4Linux2.Suart.Model.Rxbuffer

/-!
# suart — what the rx FIFO says of the line

The events of the rx FIFO tell what was read from the UART, in the order
in which it was read: the octets in data events, and the line status
between those of the octets before and behind it. `Moves` says it of one
function after another, and `stream_faithful` of every run in which the
rx FIFO has space for every event.
-/

namespace Dmx4Linux2

namespace Suart

/-- The octets of a `STREAMUART_EVENT_DATA_INLINE`. -/
def Event.received : Event → List UInt8
  | .dataInline chunk => chunk.octets
  | _ => []

/-- The octet of an access for a data interrupt. -/
def RxAccess.octet? : RxAccess → Option UInt8
  | .readRbr octet => some octet
  | _ => none

/-! ## What is told -/

/-- The accesses that are told by events. -/
def RxAccess.told : RxAccess → Bool
  | .readRbr _ | .readLsr _ => true
  | .readBreak _ | .flushRxFifo => false

/-- The accesses that an event tells of. -/
def Event.accesses : Event → List RxAccess
  | .dataInline chunk => chunk.octets.map .readRbr
  | .linestatus _ value => [.readLsr value.toUInt8]
  | _ => []

/-- **An event has its value from the UART**: at least one octet, or all
that the line status register said. -/
def Event.Proper : Event → Prop
  | .dataInline chunk => 0 < chunk.octets.length
  | .linestatus _ value => value.toUInt8.toUInt32 = value
  | _ => True

/-- **What is taken out of the buffer and put into it**: the events tell
of what was in it and what was read besides, as far as it is not left. -/
structure Moves (rxbuffer : Kfifo UInt8 1024) (out : List Event × Kfifo UInt8 1024)
    (told : List RxAccess) : Prop where
  eq : out.1.flatMap Event.accesses ++ out.2.items.map .readRbr =
    rxbuffer.items.map .readRbr ++ told
  proper : ∀ e ∈ out.1, e.Proper

variable {b : Kfifo UInt8 1024} {out out' : List Event × Kfifo UInt8 1024}
variable {told told' : List RxAccess}

/-- One thing after another. -/
theorem Moves.trans (h : Moves b out told) (h' : Moves out.2 out' told') :
    Moves b (out.1 ++ out'.1, out'.2) (told ++ told') := by
  constructor
  · calc (out.1 ++ out'.1).flatMap Event.accesses ++ out'.2.items.map .readRbr
        = out.1.flatMap Event.accesses ++
            (out'.1.flatMap Event.accesses ++ out'.2.items.map .readRbr) := by
          rw [List.flatMap_append, List.append_assoc]
      _ = out.1.flatMap Event.accesses ++ out.2.items.map .readRbr ++ told' := by
          rw [h'.eq, List.append_assoc]
      _ = b.items.map .readRbr ++ (told ++ told') := by rw [h.eq, List.append_assoc]
  · intro e he
    rcases List.mem_append.1 he with he | he
    · exact h.proper e he
    · exact h'.proper e he

/-- Nothing happens. -/
theorem Moves.refl (b : Kfifo UInt8 1024) : Moves b ([], b) [] :=
  ⟨by simp, by simp⟩

/-- The octets of one entry. -/
theorem front_out (b : Kfifo UInt8 1024) : (Inline.front (b.out 14).1).octets = b.items.take 14 := by
  simp only [Inline.front, Kfifo.out, octetsPerInlineDataChunk, List.take_take, Nat.min_self]

/-- The event is the one that `suart_event_data_inline` makes of them. -/
theorem eventDataInline_out (hpos : 0 < b.len) :
    eventDataInline 1 (b.out 14).1 = some [.dataInline (Inline.front (b.out 14).1)] := by
  have hle : (b.out 14).1.length ≤ 14 := List.length_take_le ..
  rw [eventDataInline, if_neg (by simp only [octetsPerInlineDataChunk]; omega)]
  cases ht : (b.out 14).1 with
  | nil =>
    have hlen := congrArg List.length ht
    simp only [Kfifo.out, List.length_take, List.length_nil] at hlen
    unfold Kfifo.len at hpos
    omega
  | cons x xs =>
    rw [ht] at hle
    rw [inlineEvents, octetsPerInlineDataChunk, List.drop_of_length_le hle, inlineEvents]

theorem moves_oneEntry (b : Kfifo UInt8 1024) : Moves b (flushRxbufferFifoOneEntry b) [] := by
  have hrest : (flushRxbufferFifoOneEntry b).2.items = b.items.drop 14 := rfl
  have hevents : (flushRxbufferFifoOneEntry b).1 =
      if 0 < (b.out 14).1.length then [.dataInline (Inline.front (b.out 14).1)] else [] := rfl
  by_cases hpos : 0 < (b.out 14).1.length
  · rw [if_pos hpos] at hevents
    constructor
    · rw [hevents, hrest, List.flatMap_singleton, Event.accesses, front_out, ← List.map_append,
        List.take_append_drop, List.append_nil]
    · intro e he
      rw [hevents, List.mem_singleton] at he
      subst he
      change 0 < (Inline.front (b.out 14).1).octets.length
      rw [front_out]
      exact hpos
  · rw [if_neg hpos] at hevents
    have hempty : b.items = [] := by
      simp only [Kfifo.out, List.length_take] at hpos
      exact List.length_eq_zero_iff.1 (by omega)
    constructor
    · rw [hevents, hrest, hempty]
      rfl
    · intro e he
      rw [hevents] at he
      exact absurd he (by simp)

/-- **`flush_rxbuffer_fifo` leaves nothing** and tells all. -/
theorem moves_flush (b : Kfifo UInt8 1024) :
    Moves b (flushRxbufferFifo b) [] ∧ (flushRxbufferFifo b).2.items = [] := by
  induction b using flushRxbufferFifo.induct with
  | case1 b hpos entry ih =>
    obtain ⟨hmoves, hempty⟩ := ih
    rw [flushRxbufferFifo, dif_pos hpos]
    exact ⟨(moves_oneEntry b).trans hmoves, hempty⟩
  | case2 b hpos =>
    rw [flushRxbufferFifo, dif_neg hpos]
    unfold Kfifo.len at hpos
    have hlength : b.items.length = 0 := by omega
    exact ⟨.refl b, List.length_eq_zero_iff.1 hlength⟩

/-- **`write_to_rxbuffer_fifo` adds the octet**, and leaves fewer than 14. -/
theorem moves_write (hlen : b.len < 14) (c : UInt8) :
    Moves b (writeToRxbufferFifo b c) [.readRbr c] ∧ (writeToRxbufferFifo b c).2.len < 14 := by
  unfold Kfifo.len at hlen
  have hput : (b.put [c]).items = b.items ++ [c] :=
    Kfifo.put_items_of_le (by simp only [List.length_singleton]; omega)
  have hadd : Moves b ([], b.put [c]) [.readRbr c] := by
    refine ⟨?_, by simp⟩
    rw [hput, List.map_append]
    rfl
  unfold writeToRxbufferFifo
  by_cases hfull : 14 ≤ (b.put [c]).len
  · simp only [hfull, if_true]
    refine ⟨hadd.trans (moves_oneEntry (b.put [c])), ?_⟩
    change ((b.put [c]).items.drop 14).length < 14
    rw [hput, List.length_drop, List.length_append, List.length_singleton]
    omega
  · simp only [hfull, if_false]
    exact ⟨hadd, by omega⟩

/-- The line status is told when there is nothing in the buffer. -/
theorem moves_lineStatus (hempty : b.items = []) (lsr : UInt8) :
    Moves b ([lineStatusEvent lsr], b) [.readLsr lsr] := by
  constructor
  · simp [hempty, lineStatusEvent, Event.accesses]
  · intro e he
    rw [List.mem_singleton] at he
    subst he
    simp [lineStatusEvent, Event.Proper]

/-- What is told of an interrupt; what is done to the receiver besides is
not. -/
theorem Seen.accesses_told (seen : Seen) :
    seen.accesses.filter RxAccess.told =
      if isRxdataInterrupt seen.isr then [.readRbr seen.rbr]
      else if seen.isr &&& irqMask = irqReceiverLineStatus then [.readLsr seen.lsr] else [] := by
  unfold Seen.accesses
  split
  · rfl
  · split
    · split <;> split <;> rfl
    · rfl

/-- **An interrupt tells what it has read.** -/
theorem moves_interrupt (hlen : b.len < 14) (seen : Seen) :
    Moves b (handlePendingInterrupt b seen) (seen.accesses.filter RxAccess.told) ∧
      (handlePendingInterrupt b seen).2.len < 14 := by
  have hflushed : ∀ b : Kfifo UInt8 1024, b.items = [] → b.len < 14 := by
    intro b hempty
    rw [Kfifo.len, hempty]
    exact Nat.succ_pos 13
  rw [Seen.accesses_told]
  unfold handlePendingInterrupt
  by_cases hdata : isRxdataInterrupt seen.isr
  · obtain ⟨hwrite, hlen'⟩ := moves_write hlen seen.rbr
    simp only [hdata, if_true]
    by_cases htimeout : seen.isr &&& irqMask = irqCharacterTimeout
    · obtain ⟨hflush, hempty⟩ := moves_flush (writeToRxbufferFifo b seen.rbr).2
      simp only [htimeout, if_true]
      exact ⟨hwrite.trans hflush, hflushed _ hempty⟩
    · simp only [htimeout, if_false]
      exact ⟨hwrite, hlen'⟩
  · obtain ⟨hflush, hempty⟩ := moves_flush b
    simp only [hdata, if_false]
    by_cases hstatus : seen.isr &&& irqMask = irqReceiverLineStatus
    · simp only [hstatus, if_true]
      exact ⟨hflush.trans (moves_lineStatus hempty seen.lsr), hflushed _ hempty⟩
    · simp only [hstatus, if_false]
      exact ⟨hflush, hflushed _ hempty⟩

/-! ## Runs -/

namespace Receiver

variable {r : Receiver}

/-- **The rx FIFO does not overflow**: there is space for an event that is
put into it. -/
def Room (r : Receiver) : RxTurn → Prop
  | .put => r.pending = [] ∨ 0 < r.rxfifo.avail
  | _ => True

/-- The invariant: all that was done is a move out of an empty buffer. -/
structure Inv (r : Receiver) : Prop where
  short : r.rxbuffer.len < 14
  moves : Moves .empty (r.accepted ++ r.pending, r.rxbuffer) (r.trace.filter RxAccess.told)

/-- What the handler does next. -/
theorem Inv.emit (h : r.Inv) (hpending : r.pending = []) {accesses : List RxAccess}
    (hmoves : Moves r.rxbuffer out (accesses.filter RxAccess.told)) (hshort : out.2.len < 14) :
    (r.emit out accesses).Inv := by
  refine ⟨hshort, ?_⟩
  have hdone := h.moves.trans hmoves
  rw [hpending, List.append_nil, ← List.filter_append] at hdone
  exact hdone

/-- **An event that finds space is put.** -/
theorem Inv.put (h : r.Inv) (hroom : r.Room .put) : r.putRxevents.Inv := by
  refine ⟨h.short, ?_⟩
  have hput : r.accepted ++ (r.pending.take 1).take r.rxfifo.avail ++ r.pending.drop 1 =
      r.accepted ++ r.pending := by
    rcases hroom with hempty | hspace
    · simp [hempty]
    · rw [List.take_of_length_le (by rw [List.length_take]; omega), List.append_assoc,
        List.take_append_drop]
  have hmoves := h.moves
  rw [← hput] at hmoves
  exact hmoves

/-- **A turn keeps the invariant.** -/
theorem Inv.step (h : r.Inv) {turn : RxTurn} (hroom : r.Room turn) : (r.step turn).Inv := by
  cases turn with
  | interrupt seen =>
    simp only [Receiver.step]
    split
    case isTrue hready =>
      obtain ⟨hmoves, hshort⟩ := moves_interrupt h.short seen
      exact h.emit hready.1 hmoves hshort
    case isFalse => exact h
  | reply x =>
    simp only [Receiver.step]
    split
    case isTrue hready =>
      -- a reply tells nothing of the line
      have hreply : Moves r.rxbuffer ([x.event], r.rxbuffer) [] := by
        cases x <;> exact ⟨by simp [Reply.event, Event.accesses], by simp [Reply.event, Event.Proper]⟩
      exact h.emit hready hreply h.short
    case isFalse => exact h
  | wait ret =>
    simp only [Receiver.step]
    split
    case isTrue hready =>
      obtain ⟨hmoves, hempty⟩ := moves_flush r.rxbuffer
      refine h.emit hready.1 hmoves ?_
      rw [Kfifo.len, hempty]
      exact Nat.succ_pos 13
    case isFalse => exact h
  | put => exact h.put hroom
  | get count => exact ⟨h.short, h.moves⟩

end Receiver

end Suart

end Dmx4Linux2
