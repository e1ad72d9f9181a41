import Dmx4Linux2.Cuse.Model.Daemon
import Dmx4Linux2.Librdm.Model.Interface
import Dmx4Linux2.Suart.Sending

/-!
# suart — what the size of a payload counts

The interface of librdm leaves the start code out of `payload_size`; the
card of stream UARTs counts it. So of no frame that librdm sends does the
last octet go on the line, and librdm reads an octet too many of every
frame it receives (`conventions_differ`).
-/

namespace Dmx4Linux2

namespace Suart

open Librdm

variable {e : Event} {es es' : List Event} {baud : UInt32}

/-! ## The octets of a frame on the line -/

/-- The baud rate an event sets. -/
def Event.baudrate : Event → Option UInt32
  | .setBaudrate value => some value
  | _ => none

/-- The octets that data events send at the baud rate of DMX. An octet at
a lower baud rate is a break. -/
def slotOctets (baud : UInt32) : List Event → List UInt8
  | [] => []
  | e :: es =>
    (if baud = 250000 then e.octets.getD [] else []) ++ slotOctets (e.baudrate.getD baud) es

/-- The baud rate behind events. -/
def baudAfter (baud : UInt32) (es : List Event) : UInt32 :=
  es.foldl (fun b e => e.baudrate.getD b) baud

theorem slotOctets_append : slotOctets baud (es ++ es') =
    slotOctets baud es ++ slotOctets (baudAfter baud es) es' := by
  induction es generalizing baud with
  | nil => rfl
  | cons e es ih =>
    simp only [List.cons_append, slotOctets, ih, List.append_assoc]
    rfl

/-- Of fewer events no more octets are sent. -/
theorem length_slotOctets_take_le (baud : UInt32) (es : List Event) (k : ℕ) :
    (slotOctets baud (es.take k)).length ≤ (slotOctets baud es).length := by
  conv => rhs; rw [← List.take_append_drop k es]
  rw [slotOctets_append, List.length_append]
  exact Nat.le_add_right _ _

/-- Events that neither send data nor set the baud rate. -/
theorem slotOctets_of_quiet (baud : UInt32) (h : ∀ e ∈ es, e.octets = none ∧ e.baudrate = none) :
    slotOctets baud es = [] ∧ baudAfter baud es = baud := by
  induction es with
  | nil => exact ⟨rfl, rfl⟩
  | cons e es ih =>
    obtain ⟨hoctets, hbaud⟩ := h e List.mem_cons_self
    obtain ⟨hnil, hafter⟩ := ih fun e' he' => h e' (List.mem_cons_of_mem e he')
    simp only [slotOctets, baudAfter, List.foldl_cons, hoctets, hbaud, Option.getD_none]
    refine ⟨?_, hafter⟩
    rw [hnil]
    split <;> rfl

theorem slotOctets_inlineEvents (octets : List UInt8) :
    slotOctets 250000 (inlineEvents octets) = octets := by
  fun_induction inlineEvents octets with
  | case1 => rfl
  | case2 b bs ih =>
    rw [slotOctets, if_pos rfl]
    have hbaud : (Event.dataInline (Inline.front (b :: bs))).baudrate = none := rfl
    rw [hbaud, Option.getD_none, ih]
    exact List.take_append_drop ..

theorem baudAfter_inlineEvents (octets : List UInt8) :
    baudAfter baud (inlineEvents octets) = baud := by
  fun_induction inlineEvents octets with
  | case1 => rfl
  | case2 b bs ih =>
    rw [baudAfter, List.foldl_cons]
    exact ih

/-- A break sends no octet, and leaves the baud rate of DMX. -/
theorem slotOctets_frameStart (flags : UInt32) (dmxdata : Mem) :
    slotOctets 250000 (frameStart flags dmxdata) = [] ∧
      baudAfter 250000 (frameStart flags dmxdata) = 250000 := by
  unfold frameStart
  split
  · exact ⟨rfl, rfl⟩
  · split
    · exact ⟨by decide, by decide⟩
    · exact ⟨rfl, rfl⟩

/-- **A frame puts its octets on the line.** -/
theorem slotOctets_wholeFrame (flags : UInt32) (dmxdata : Mem) (count : ℕ) :
    slotOctets 250000 (wholeFrame flags dmxdata count) = frameOctets dmxdata count := by
  obtain ⟨hnil, hbaud⟩ := slotOctets_frameStart flags dmxdata
  have hfront : slotOctets 250000 [.disableRx, .enableTx, .changeLine lineRts lineRts] = [] := rfl
  have hafter : baudAfter 250000 [.disableRx, .enableTx, .changeLine lineRts lineRts] = 250000 :=
    rfl
  have hback : slotOctets 250000 [.changeLine lineRts 0, .disableTx, .enableRx, .echo 1] = [] := rfl
  have happend : ∀ es es' : List Event, baudAfter 250000 (es ++ es') =
      baudAfter (baudAfter 250000 es) es' := fun es es' => List.foldl_append
  unfold wholeFrame
  simp only [slotOctets_append, happend, hfront, hafter, hnil, hbaud, slotOctets_inlineEvents,
    baudAfter_inlineEvents, hback, List.nil_append, List.append_nil]

/-! ## What a card queues -/

/-- The events that `uartdmx_sendFrame` appends to the tx FIFO of the
port of the frame. -/
def UartdmxCard.queued (card : UartdmxCard) (garbage : Vector Event 128) (frame : Core.Frame) :
    List Event :=
  match card.ports[frame.port.toNat]?, (card.sendFrame garbage frame).ports[frame.port.toNat]? with
  | some before, some after => after.items.drop before.items.length
  | _, _ => []

/-- The events that `dmx512suart_send_frame` passes on for a frame. -/
def passedOn (garbage : Vector Event 128) (frame : Core.Frame) : List Event :=
  let (events, n) := createdFrame garbage frame.flags.toUInt32 (frameData frame)
    frame.payloadSize.toNat
  events.take (n % 2 ^ 32).toNat

/-- DTR is changed without data. -/
theorem quiet_setDtr_take (value : Bool) (n k : ℕ) :
    ∀ e ∈ ((setDtr value).take n).take k, e.octets = none ∧ e.baudrate = none := by
  intro e he
  have hmem := List.mem_of_mem_take (List.mem_of_mem_take he)
  rw [setDtr, List.mem_singleton] at hmem
  subst hmem
  exact ⟨rfl, rfl⟩

/-- The octets of what is queued are at most those of the events that
`dmx512suart_send_frame` passes on: DTR is changed around them. -/
theorem length_slotOctets_queued_le (card : UartdmxCard) (garbage : Vector Event 128)
    (frame : Core.Frame) :
    (slotOctets 250000 (card.queued garbage frame)).length ≤
      (slotOctets 250000 (passedOn garbage frame)).length := by
  unfold UartdmxCard.queued UartdmxCard.sendFrame
  cases hport : card.ports[frame.port.toNat]? with
  | none => simp [slotOctets]
  | some txfifo =>
    obtain ⟨hlt, -⟩ := List.getElem?_eq_some_iff.1 hport
    simp only
    split_ifs with hsize
    · simp only [List.getElem?_set_self hlt, sendFrame, putTxevents, Kfifo.put_items,
        List.append_assoc, List.drop_left]
      obtain ⟨hfirst, hbaud⟩ := slotOctets_of_quiet 250000 (quiet_setDtr_take true _ _)
      rw [slotOctets_append, hfirst, hbaud, slotOctets_append,
        (slotOctets_of_quiet _ (quiet_setDtr_take false _ _)).1]
      simp only [List.nil_append, List.append_nil]
      exact length_slotOctets_take_le _ _ _
    · simp [hport, slotOctets]

/-! ## The two conventions -/

/-- **The card puts what librdm sends on the line**, whatever is on the
stack when it does. -/
def SendsWhole (card : UartdmxCard) (f : DmxData) : Prop :=
  ∀ garbage, slotOctets 250000
    (card.queued garbage (Cuse.Daemon.transmitted (Interface.handle f))) = f.bytes

/-- **librdm reads what the card receives**, whatever lies behind the
frame. -/
def ReceivesWhole (portno flags : UInt16) (octets : List UInt8) : Prop :=
  ∀ behind, (Interface.dmxData behind (receiveFrame portno flags octets)).size = octets.length ∧
    (Interface.dmxData behind (receiveFrame portno flags octets)).bytes = octets

/-- What is passed on of a frame that is no discovery reply has as many
octets as its payload size says, if there is nothing on the stack. -/
theorem length_slotOctets_passedOn {frame : Core.Frame}
    (hreply : isRdmDiscoverReply (frameData frame) = false)
    (hsize : frame.payloadSize.toNat ≤ 513) :
    (slotOctets 250000 (passedOn (Vector.replicate 128 .shutdown) frame)).length =
      frame.payloadSize.toNat := by
  have hcreate := createFrame_eq frame.flags.toUInt32 (frameData frame) hsize
  unfold passedOn createdFrame
  by_cases hpos : 0 < frame.payloadSize.toNat
  · rw [if_pos (Or.inr hpos)] at hcreate
    have hlen := length_wholeFrame frame.flags.toUInt32 (frameData frame) frame.payloadSize.toNat
    have hle := frameLength_le frame.flags.toUInt32 (frameData frame) hsize
    simp only [hcreate]
    rw [List.take_left' (by omega), slotOctets_wholeFrame, frameOctets, hreply]
    simp
  · obtain hzero : frame.payloadSize.toNat = 0 := by omega
    rw [if_neg (by simp [hreply, hpos])] at hcreate
    simp only [hcreate]
    have hrest : ∀ n, ∀ e ∈ ((Vector.replicate 128 Event.shutdown).toList.drop n),
        e.octets = none ∧ e.baudrate = none := by
      intro n e he
      have hmem := List.mem_of_mem_drop he
      rw [Vector.toList_replicate] at hmem
      obtain rfl := List.eq_of_mem_replicate hmem
      exact ⟨rfl, rfl⟩
    have hnil : slotOctets 250000 (abandonedEvents 128 frame.flags.toUInt32 (frameData frame)
        frame.payloadSize.toNat) = [] := by
      have hstart := (slotOctets_frameStart frame.flags.toUInt32 (frameData frame)).1
      rw [frameStart] at hstart
      rw [abandonedEvents, if_neg (by omega), slotOctets_append]
      exact hstart
    have hle := length_slotOctets_take_le 250000
      (abandonedEvents 128 frame.flags.toUInt32 (frameData frame) frame.payloadSize.toNat ++
        (Vector.replicate 128 Event.shutdown).toList.drop
          (abandonedEvents 128 frame.flags.toUInt32 (frameData frame)
            frame.payloadSize.toNat).length) ((-1 : ℤ) % 2 ^ 32).toNat
    rw [slotOctets_append, hnil, (slotOctets_of_quiet _ (hrest _)).1] at hle
    exact (Nat.le_zero.1 hle).trans hzero.symm

theorem payloadSize_handle {f : DmxData} (hsize : f.size ≤ 513) :
    (Cuse.Daemon.transmitted (Interface.handle f)).payloadSize.toNat = f.size - 1 := by
  have hlt : f.size - 1 < 2 ^ 16 := by omega
  exact (UInt16.toNat_ofNat').trans (Nat.mod_eq_of_lt hlt)

theorem frameData_handle (f : DmxData) {i : ℕ} (hi : i < 513) :
    frameData (Cuse.Daemon.transmitted (Interface.handle f)) i =
      if i < f.size then f.data i else 0 := by
  simp [frameData, Cuse.Daemon.transmitted, Interface.handle, hi]

/-- The last octet of what librdm sends is not sent. -/
theorem not_sendsWhole (card : UartdmxCard) {f : DmxData} (hpos : 1 ≤ f.size) (hsize : f.size ≤ 513)
    (hreply : isRdmDiscoverReply (frameData (Cuse.Daemon.transmitted (Interface.handle f))) = false) :
    ¬ SendsWhole card f := by
  intro hsends
  have hpayload := payloadSize_handle hsize
  have hle := length_slotOctets_queued_le card (Vector.replicate 128 .shutdown)
    (Cuse.Daemon.transmitted (Interface.handle f))
  rw [hsends, length_slotOctets_passedOn hreply (by omega), hpayload, DmxData.bytes,
    Mem.length_read] at hle
  omega

/-- librdm reads an octet more than there was. -/
theorem not_receivesWhole (portno flags : UInt16) {octets : List UInt8} (hsize : octets.length ≤ 513) :
    ¬ ReceivesWhole portno flags octets := by
  intro hreceives
  obtain ⟨hwrong, -⟩ := hreceives fun _ => 0
  have hpayload : (receiveFrame portno flags octets).payloadSize.toNat = octets.length := by
    have hlen : (if octets.length < 513 then octets.length else 513) = octets.length := by
      split <;> omega
    have hlt : octets.length < 2 ^ 16 := by omega
    simp only [receiveFrame, hlen]
    exact (UInt16.toNat_ofNat').trans (Nat.mod_eq_of_lt hlt)
  simp only [Interface.dmxData, hpayload] at hwrong
  omega

/-- **No frame is passed on whole.** Of every frame that librdm sends and
that is no discovery reply the last octet is not sent, and of every frame
the card receives librdm reads an octet more than there was. -/
theorem conventions_differ (card : UartdmxCard) {f : DmxData} (hpos : 1 ≤ f.size)
    (hsize : f.size ≤ 513)
    (hreply : isRdmDiscoverReply (frameData (Cuse.Daemon.transmitted (Interface.handle f))) = false)
    (portno flags : UInt16) {octets : List UInt8} (hlen : octets.length ≤ 513) :
    ¬ SendsWhole card f ∧ ¬ ReceivesWhole portno flags octets :=
  ⟨not_sendsWhole card hpos hsize hreply, not_receivesWhole portno flags hlen⟩

/-- A start code and one slot. -/
def oneSlot : DmxData := DmxData.ofVector [0, 255]

theorem oneSlot_noReply :
    isRdmDiscoverReply (frameData (Cuse.Daemon.transmitted (Interface.handle oneSlot))) = false := by
  have hstart : frameData (Cuse.Daemon.transmitted (Interface.handle oneSlot)) 0 = 0 :=
    frameData_handle oneSlot (by decide)
  simp only [isRdmDiscoverReply, Rtuart.isDiscUniqueBranch, Rtuart.isRdm, Rtuart.dmxPosStartcode,
    hstart]
  rfl

/-- It is sent on the line without the slot, and received with a slot
more. -/
theorem oneSlot_differs : ¬ SendsWhole ⟨[.empty]⟩ oneSlot ∧ ¬ ReceivesWhole 0 0 [0, 255] :=
  conventions_differ ⟨[.empty]⟩ (by decide) (by decide) oneSlot_noReply 0 0 (by decide)

/-- librdm and the card do not agree. -/
theorem not_sendsWhole_oneSlot :
    ¬ (SendsWhole ⟨[.empty]⟩ oneSlot ∧ ReceivesWhole 0 0 [0, 255]) := by
  rintro ⟨hsends, -⟩
  exact not_sendsWhole ⟨[.empty]⟩ (by decide) (by decide) oneSlot_noReply hsends

end Suart

end Dmx4Linux2
