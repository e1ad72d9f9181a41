import Dmx4Linux2.Rtuart.DiscoveryReply
import Dmx4Linux2.Suart.Sending

/-!
# suart — the events of a frame

What `dmx512suart_create_frame` stores in the array it is given. For
every number of events the array may have, a frame is encoded as a whole
or -1 is returned (`frame_encoded`), and the array is not left.

Whether the octets are a discovery reply is asked of the header, even
where the frame is shorter than that: what is in the buffer behind the
octets of a frame may decide what is sent. `no_leak_iff` says when it
cannot.
-/

namespace Dmx4Linux2

namespace Suart

open Rtuart

variable {maxevents payloadCount : ℤ} {flags : UInt32} {dmxdata : Mem}

/-! ## What is stored -/

/-- What every frame begins with: the direction is switched, -/
def switchEvents : List Event := [.disableRx, .enableTx, .changeLine lineRts lineRts]

/-- and in the end it is switched back. -/
def backEvents : List Event := [.changeLine lineRts 0, .disableTx, .enableRx, .echo 1]

theorem storeEnd_of_pos {events : List Event} {data : List Event × ℤ} (h : 0 < data.2) :
    storeEnd events data =
      (events ++ data.1 ++ backEvents, ((events ++ data.1 ++ backEvents).length : ℤ)) := by
  rw [storeEnd, if_neg (by omega)]
  rfl

theorem storeEnd_of_nil {events : List Event} {data : List Event × ℤ} (hnil : data.1 = [])
    (h : data.2 ≤ 0) : storeEnd events data = (events, -1) := by
  rw [storeEnd, if_pos h, hnil, List.append_nil]

/-- Octets that there is space for are stored. -/
theorem storeDataInline_of_le {octets : List UInt8} (h : (payloadCount + 6).tdiv 14 ≤ maxevents) :
    storeDataInline maxevents octets payloadCount =
      (inlineEvents octets, ((inlineEvents octets).length : ℤ)) := by
  rw [storeDataInline, octetsPerInlineDataChunk, if_neg (by simpa using h)]

theorem inlineEvents_pos (octets : List UInt8) (h : 0 < octets.length) :
    0 < (inlineEvents octets).length := by
  rw [length_inlineEvents]
  omega

/-- A reply takes two events, whatever the number of octets given for it. -/
theorem storeFrame_of_reply (flags : UInt32) (hreply : isRdmDiscoverReply dmxdata = true)
    (hfits : 13 + (payloadCount + 13).tdiv 14 ≤ maxevents) :
    storeFrame maxevents flags dmxdata payloadCount =
      if 15 ≤ maxevents then
        (wholeFrame flags dmxdata payloadCount.toNat,
          ((wholeFrame flags dmxdata payloadCount.toNat).length : ℤ))
      else (switchEvents, -1) := by
  have htwo : ((24 : ℤ) + 6).tdiv 14 = 2 := by decide
  have hwhole : wholeFrame flags dmxdata payloadCount.toNat =
      switchEvents ++ inlineEvents (encodeDiscoverReply dmxdata) ++ backEvents := by
    simp only [wholeFrame, frameStart, frameOctets, hreply, if_true, List.append_nil]
    rfl
  rw [storeFrame, if_neg (by omega), if_pos hreply, hwhole]
  by_cases hspace : 15 ≤ maxevents
  · have hpos := inlineEvents_pos (encodeDiscoverReply dmxdata) (by
      rw [length_encodeDiscoverReply]
      decide)
    rw [if_pos hspace, storeDataInline_of_le (by omega), storeEnd_of_pos (by simpa using hpos)]
    rfl
  · rw [if_neg hspace, storeDataInline, octetsPerInlineDataChunk, Nat.cast_ofNat, htwo,
      if_pos (by omega)]
    rfl

/-- **What is stored of anything else**: the octets, if there are any. -/
theorem storeFrame_of_not_reply (flags : UInt32) (hreply : isRdmDiscoverReply dmxdata = false)
    (hfits : 13 + (payloadCount + 13).tdiv 14 ≤ maxevents) :
    storeFrame maxevents flags dmxdata payloadCount =
      if 0 < payloadCount then
        (wholeFrame flags dmxdata payloadCount.toNat,
          ((wholeFrame flags dmxdata payloadCount.toNat).length : ℤ))
      else (switchEvents ++ frameStart flags dmxdata, -1) := by
  have hstart : frameStart flags dmxdata =
      if flags &&& flagNoBreak = 0 then breakEvents else [] := by
    rw [frameStart, hreply]
    rfl
  have hwhole : wholeFrame flags dmxdata payloadCount.toNat =
      switchEvents ++ (if flags &&& flagNoBreak = 0 then breakEvents else []) ++
        inlineEvents (dmxdata.read 0 payloadCount.toNat) ++ backEvents := by
    rw [wholeFrame, hstart, frameOctets, hreply]
    rfl
  rw [storeFrame, if_neg (by omega), if_neg (by simp [hreply]), hwhole, hstart]
  by_cases hpos : 0 < payloadCount
  · have hdata : (payloadCount + 6).tdiv 14 ≤ maxevents - 13 := by
      rw [Int.tdiv_eq_ediv_of_nonneg (by omega)] at hfits ⊢
      omega
    have hoctets := inlineEvents_pos (dmxdata.read 0 payloadCount.toNat) (by
      rw [Mem.length_read]
      omega)
    rw [if_pos hpos, storeDataInline_of_le hdata, storeEnd_of_pos (by simpa using hoctets)]
    rfl
  · have hzero : payloadCount.toNat = 0 := by omega
    -- there is nothing to store, whether the second check is passed or not
    have hnone : (storeDataInline (maxevents - 13) [] payloadCount).1 = [] ∧
        (storeDataInline (maxevents - 13) [] payloadCount).2 ≤ 0 := by
      rw [storeDataInline, inlineEvents]
      split
      · exact ⟨rfl, by decide⟩
      · exact ⟨rfl, by decide⟩
    rw [if_neg hpos, hzero, Mem.read_zero, storeEnd_of_nil hnone.1 hnone.2]
    rfl

/-- **The two models of the function agree**: the events it returns are
those it has stored, and where it returns -1 it has stored those that are
then passed on. -/
theorem storeFrame_eq_createFrame (maxevents : ℕ) (flags : UInt32) (dmxdata : Mem)
    (payloadCount : ℕ) :
    storeFrame maxevents flags dmxdata payloadCount =
      ((createFrame maxevents flags dmxdata payloadCount).getD
          (abandonedEvents maxevents flags dmxdata payloadCount),
        ((createFrame maxevents flags dmxdata payloadCount).map fun es => (es.length : ℤ)).getD
          (-1)) := by
  have hdiv : ((payloadCount : ℤ) + 13).tdiv 14 = (payloadCount + 13) / 14 :=
    Int.tdiv_eq_ediv_of_nonneg (by omega)
  by_cases hfits : 13 + (payloadCount + 13) / 14 > maxevents
  · rw [storeFrame, hdiv, if_pos (by omega), createFrame, if_pos hfits, abandonedEvents,
      if_pos hfits]
    rfl
  · have hfits' : 13 + ((payloadCount : ℤ) + 13).tdiv 14 ≤ maxevents := by
      rw [hdiv]
      omega
    have habandoned : abandonedEvents maxevents flags dmxdata payloadCount =
        switchEvents ++ frameStart flags dmxdata := by
      rw [abandonedEvents, if_neg hfits]
      rfl
    rw [habandoned]
    cases hreply : isRdmDiscoverReply dmxdata with
    | true =>
      rw [storeFrame_of_reply flags hreply hfits', createFrame_of_reply flags hreply (by omega)]
      by_cases hspace : 15 ≤ maxevents
      · rw [if_pos (by omega), if_pos hspace]
        rfl
      · rw [if_neg (by omega), if_neg hspace, frameStart, if_pos hreply, List.append_nil]
        rfl
    | false =>
      rw [storeFrame_of_not_reply flags hreply hfits',
        createFrame_of_not_reply flags hreply (by omega)]
      by_cases hpos : 0 < payloadCount
      · rw [if_pos (by omega), if_pos hpos]
        rfl
      · rw [if_neg (by omega), if_neg hpos]
        rfl

/-! ## What the events are -/

/-- What is stored for a discovery reply is the reply on the line. -/
theorem encodeDiscoverReply_eq_wire (dmxdata : Mem) :
    encodeDiscoverReply dmxdata = wire (dmxdata.read rdmPosSrcUid 6) := by
  simp only [encodeDiscoverReply, wire, replyBytes, beBytes_two, List.flatMap_append,
    List.flatMap_cons, List.flatMap_nil, List.append_nil, calculateRdmChecksum, List.append_assoc,
    List.cons_append, List.nil_append]

theorem length_zero_le : [(0 : UInt8)].length ≤ octetsPerInlineDataChunk := length_singleton_le 0

/-- **The events of a frame**: the direction is switched; then comes the
reply with the source UID, or the break, unless it is not wanted, and the
octets, in pieces of 1 to 14; and the direction is switched back. -/
def IsFrame (flags : UInt32) (dmxdata : Mem) (count : ℕ) (events : List Event) : Prop :=
  ∃ data, events =
      [.disableRx, .enableTx, .changeLine lineRts lineRts] ++
      (if isRdmDiscoverReply dmxdata = true ∨ flags &&& flagNoBreak ≠ 0 then []
        else [.setFormat 8 'n' 1, .setBaudrate 100500, .dataInline ⟨[0], length_zero_le⟩,
          .setFormat 8 'n' 2, .setBaudrate 250000]) ++
      data ++ [.changeLine lineRts 0, .disableTx, .enableRx, .echo 1] ∧
    (∀ e ∈ data, ∃ chunk, e = .dataInline chunk ∧ 1 ≤ chunk.octets.length ∧
      chunk.octets.length ≤ 14) ∧
    dataOctets data = if isRdmDiscoverReply dmxdata then wire (dmxdata.read rdmPosSrcUid 6)
      else dmxdata.read 0 count

theorem mem_inlineEvents {octets : List UInt8} {e : Event} (he : e ∈ inlineEvents octets) :
    ∃ chunk, e = .dataInline chunk ∧ 1 ≤ chunk.octets.length ∧ chunk.octets.length ≤ 14 := by
  fun_induction inlineEvents octets with
  | case1 => exact absurd he List.not_mem_nil
  | case2 b bs ih =>
    rcases List.mem_cons.1 he with rfl | hrest
    · refine ⟨_, rfl, ?_, Inline.length_le _⟩
      simp only [Inline.front, octetsPerInlineDataChunk, List.length_take, List.length_cons]
      omega
    · exact ih hrest

theorem isFrame_wholeFrame (flags : UInt32) (dmxdata : Mem) (count : ℕ) :
    IsFrame flags dmxdata count (wholeFrame flags dmxdata count) := by
  refine ⟨inlineEvents (frameOctets dmxdata count), ?_, fun e he => mem_inlineEvents he, ?_⟩
  · rw [wholeFrame, frameStart]
    by_cases hreply : isRdmDiscoverReply dmxdata = true
    · simp [hreply]
    · by_cases hbreak : flags &&& flagNoBreak = 0
      · simp [hreply, hbreak, breakEvents]
      · simp [hreply, hbreak]
  · rw [dataOctets_inlineEvents, frameOctets, encodeDiscoverReply_eq_wire]

/-- **A frame is encoded as a whole**, or -1 is returned, for every array
and every number of octets up to 513. No more events are stored than the
array has space for, and an array of 128 is large enough. -/
theorem frame_encoded (maxevents : ℤ) (flags : UInt32) (dmxdata : Mem) (hpos : 1 ≤ payloadCount)
    (hle : payloadCount ≤ 513) :
    ((storeFrame maxevents flags dmxdata payloadCount).2 = -1 ∨
      (storeFrame maxevents flags dmxdata payloadCount).2 =
          (storeFrame maxevents flags dmxdata payloadCount).1.length ∧
        (storeFrame maxevents flags dmxdata payloadCount).2 ≤ maxevents ∧
        IsFrame flags dmxdata payloadCount.toNat
          (storeFrame maxevents flags dmxdata payloadCount).1) ∧
      ((storeFrame maxevents flags dmxdata payloadCount).1.length : ℤ) ≤ max 0 maxevents ∧
      (maxevents = 128 → (storeFrame maxevents flags dmxdata payloadCount).2 ≠ -1) := by
  have hdiv : (payloadCount + 13).tdiv 14 = (payloadCount + 13) / 14 :=
    Int.tdiv_eq_ediv_of_nonneg (by omega)
  have hwhole := isFrame_wholeFrame flags dmxdata payloadCount.toNat
  have hlen := length_wholeFrame flags dmxdata payloadCount.toNat
  by_cases hfits : 13 + (payloadCount + 13).tdiv 14 ≤ maxevents
  · cases hreply : isRdmDiscoverReply dmxdata with
    | true =>
      rw [storeFrame_of_reply flags hreply hfits]
      rw [frameLength, if_pos hreply] at hlen
      rw [hdiv] at hfits
      by_cases hspace : 15 ≤ maxevents
      · have hbound : ((wholeFrame flags dmxdata payloadCount.toNat).length : ℤ) ≤ maxevents := by
          omega
        rw [if_pos hspace]
        exact ⟨Or.inr ⟨rfl, hbound, hwhole⟩, le_max_of_le_right hbound, fun _ => by omega⟩
      · have hbound : (switchEvents.length : ℤ) ≤ maxevents := by
          have hswitch : switchEvents.length = 3 := rfl
          omega
        rw [if_neg hspace]
        exact ⟨Or.inl rfl, le_max_of_le_right hbound, fun hmax => absurd hmax (by omega)⟩
    | false =>
      rw [storeFrame_of_not_reply flags hreply hfits, if_pos (by omega)]
      rw [frameLength, if_neg (by simp [hreply])] at hlen
      rw [hdiv] at hfits
      have hbound : (wholeFrame flags dmxdata payloadCount.toNat).length ≤ maxevents := by
        split at hlen <;> omega
      exact ⟨Or.inr ⟨rfl, hbound, hwhole⟩, le_max_of_le_right hbound, fun _ => by omega⟩
  · have hnone : storeFrame maxevents flags dmxdata payloadCount = ([], -1) := by
      rw [storeFrame, if_pos (by omega)]
    rw [hnone]
    rw [hdiv] at hfits
    exact ⟨Or.inl rfl, by simp, fun hmax => absurd hmax (by omega)⟩

/-- A full frame, in an array as `dmx512suart_send_frame` has it. -/
theorem fullFrame_encoded :
    ((storeFrame 128 0 (fun _ => 0) 513).2 = -1 ∨
      (storeFrame 128 0 (fun _ => 0) 513).2 = (storeFrame 128 0 (fun _ => 0) 513).1.length ∧
        (storeFrame 128 0 (fun _ => 0) 513).2 ≤ 128 ∧
        IsFrame 0 (fun _ => 0) (513 : ℤ).toNat (storeFrame 128 0 (fun _ => 0) 513).1) ∧
      ((storeFrame 128 0 (fun _ => 0) 513).1.length : ℤ) ≤ max 0 128 ∧
      ((128 : ℤ) = 128 → (storeFrame 128 0 (fun _ => 0) 513).2 ≠ -1) :=
  frame_encoded 128 0 (fun _ => 0) (by decide) (by decide)

/-! ## What is behind the octets -/

/-- **What is in the buffer behind the octets does not matter**: neither
to what is returned nor to the events. -/
def NoLeak (maxevents : ℤ) (flags : UInt32) (payloadCount : ℤ) : Prop :=
  ∀ d d' : Mem, (∀ i : ℕ, i < payloadCount → d i = d' i) →
    storeFrame maxevents flags d payloadCount = storeFrame maxevents flags d' payloadCount

/-- Whether the octets are a discovery reply is asked of their header. -/
theorem isRdmDiscoverReply_congr {d d' : Mem} (h : ∀ i, i < 24 → d i = d' i) :
    isRdmDiscoverReply d = isRdmDiscoverReply d' := by
  simp only [isRdmDiscoverReply, isDiscUniqueBranch, isRdm, dmxPosStartcode, rdmPosSubStartcode,
    rdmPosCommandClass, rdmPosPid, rdmPosPdl]
  rw [h 0 (by decide), h 1 (by decide), h 20 (by decide), h 21 (by decide), h (21 + 1) (by decide),
    h 23 (by decide)]

/-- The octets that the events of a frame send. -/
theorem dataOctets_wholeFrame (flags : UInt32) (dmxdata : Mem) (count : ℕ) :
    dataOctets (wholeFrame flags dmxdata count) =
      dataOctets (frameStart flags dmxdata) ++ frameOctets dmxdata count := by
  have hfront : dataOctets [.disableRx, .enableTx, .changeLine lineRts lineRts] = [] := rfl
  have hback : dataOctets [.changeLine lineRts 0, .disableTx, .enableRx, .echo 1] = [] := rfl
  rw [wholeFrame, dataOctets_append, dataOctets_append, dataOctets_append, hfront, hback,
    dataOctets_inlineEvents, List.nil_append, List.append_nil]

/-- A discovery reply, with a UID of zeros. -/
def replyData : Mem := fun i =>
  if i = 0 then 0xCC else if i = 1 then 1 else if i = 20 then 0x11 else if i = 22 then 1 else 0

/-- The same but for the last octet of the header. -/
def otherData : Mem := Function.update replyData 23 1

theorem isRdmDiscoverReply_replyData : isRdmDiscoverReply replyData = true := by decide

theorem isRdmDiscoverReply_otherData : isRdmDiscoverReply otherData = false := by decide

/-- A reply begins with its preamble, and anything else does not. -/
theorem wholeFrame_replyData_ne (flags : UInt32) {count : ℕ} (hpos : 0 < count) :
    wholeFrame flags replyData count ≠ wholeFrame flags otherData count := by
  intro heq
  have hoctets := congrArg (fun es => (dataOctets es).head?) heq
  have hreply : (dataOctets (wholeFrame flags replyData count)).head? = some 0xFE := by
    rw [dataOctets_wholeFrame, frameStart, frameOctets, if_pos isRdmDiscoverReply_replyData,
      if_pos isRdmDiscoverReply_replyData]
    rfl
  have hother : (dataOctets (wholeFrame flags otherData count)).head? = some 0 ∨
      (dataOctets (wholeFrame flags otherData count)).head? = some 0xCC := by
    have hnot : ¬ isRdmDiscoverReply otherData = true := by
      simp [isRdmDiscoverReply_otherData]
    rw [dataOctets_wholeFrame, frameStart, frameOctets, if_neg hnot, if_neg hnot]
    split
    · exact Or.inl rfl
    · obtain ⟨k, rfl⟩ := Nat.exists_eq_add_of_lt hpos
      exact Or.inr (by rw [Nat.zero_add, Mem.read_succ]; rfl)
  simp only [hreply] at hoctets
  rcases hother with hother | hother <;> rw [hother] at hoctets <;> exact absurd hoctets (by decide)

/-- **The header decides**: where it is not among the octets, a reply and
another frame may have the same octets. -/
theorem leak (hshort : payloadCount < 24) (hfits : 13 + (payloadCount + 13).tdiv 14 ≤ maxevents)
    (hbreak : payloadCount ≤ 0 → maxevents < 15 → flags &&& flagNoBreak = 0) :
    ¬ NoLeak maxevents flags payloadCount := by
  intro h
  have hagree : ∀ i : ℕ, i < payloadCount → replyData i = otherData i := by
    intro i hi
    rw [otherData, Function.update_of_ne (by omega)]
  have heq := h replyData otherData hagree
  rw [storeFrame_of_reply flags isRdmDiscoverReply_replyData hfits,
    storeFrame_of_not_reply flags isRdmDiscoverReply_otherData hfits] at heq
  by_cases hspace : 15 ≤ maxevents
  · by_cases hpos : 0 < payloadCount
    · rw [if_pos hspace, if_pos hpos] at heq
      exact wholeFrame_replyData_ne flags (by omega) (Prod.mk.inj heq).1
    · rw [if_pos hspace, if_neg hpos] at heq
      have hlen := (Prod.mk.inj heq).2
      omega
  · by_cases hpos : 0 < payloadCount
    · rw [if_neg hspace, if_pos hpos] at heq
      have hlen := (Prod.mk.inj heq).2
      omega
    · -- neither is sent, but the break of the other one is stored
      rw [if_neg hspace, if_neg hpos] at heq
      have hstart := (List.self_eq_append_right.1 (Prod.mk.inj heq).1)
      rw [frameStart, if_neg (by simp [isRdmDiscoverReply_otherData]),
        if_pos (hbreak (by omega) (by omega))] at hstart
      exact absurd hstart (by simp [breakEvents])

/-- The header is among the octets. -/
theorem NoLeak.of_header (hlong : 24 ≤ payloadCount) : NoLeak maxevents flags payloadCount := by
  intro d d' hagree
  have hheader : ∀ i, i < 24 → d i = d' i := fun i hi => hagree i (by omega)
  have huid : d.read rdmPosSrcUid 6 = d'.read rdmPosSrcUid 6 :=
    Mem.read_congr fun i hi => hheader _ (by unfold rdmPosSrcUid; omega)
  have hread : d.read 0 payloadCount.toNat = d'.read 0 payloadCount.toNat :=
    Mem.read_congr fun i hi => hagree _ (by omega)
  rw [storeFrame, storeFrame, isRdmDiscoverReply_congr hheader, encodeDiscoverReply,
    encodeDiscoverReply, huid, hread]

/-- There is no space. -/
theorem NoLeak.of_small (hsmall : maxevents < 13 + (payloadCount + 13).tdiv 14) :
    NoLeak maxevents flags payloadCount := by
  intro d d' _
  rw [storeFrame, storeFrame, if_pos hsmall, if_pos hsmall]

/-- There is nothing to send, no space for a reply and no break. -/
theorem NoLeak.of_empty (hzero : payloadCount ≤ 0) (hspace : maxevents < 15)
    (hbreak : flags &&& flagNoBreak ≠ 0) : NoLeak maxevents flags payloadCount := by
  by_cases hfits : 13 + (payloadCount + 13).tdiv 14 ≤ maxevents
  · have hswitch : ∀ data, storeFrame maxevents flags data payloadCount = (switchEvents, -1) := by
      intro data
      cases hreply : isRdmDiscoverReply data with
      | true => rw [storeFrame_of_reply flags hreply hfits, if_neg (by omega)]
      | false =>
        rw [storeFrame_of_not_reply flags hreply hfits, if_neg (by omega), frameStart,
          if_neg (by simp [hreply]), if_neg hbreak, List.append_nil]
    intro d d' _
    rw [hswitch d, hswitch d']
  · exact .of_small (by omega)

/-- **When nothing behind the octets can matter**: when the header is
among the octets, or the array is too small in any case. With no octets
at all it does not matter either if the array is too small for a reply
and there is no break. -/
theorem no_leak_iff (maxevents : ℤ) (flags : UInt32) (payloadCount : ℤ) :
    NoLeak maxevents flags payloadCount ↔
      24 ≤ payloadCount ∨ maxevents < 13 + (payloadCount + 13).tdiv 14 ∨
        payloadCount ≤ 0 ∧ maxevents < 15 ∧ flags &&& flagNoBreak ≠ 0 := by
  constructor
  · intro h
    by_contra hnot
    push Not at hnot
    obtain ⟨hshort, hfits, hrest⟩ := hnot
    exact leak hshort hfits hrest h
  · rintro (hlong | hsmall | ⟨hzero, hspace, hbreak⟩)
    · exact .of_header hlong
    · exact .of_small hsmall
    · exact .of_empty hzero hspace hbreak

/-- A frame of one octet is sent as a discovery reply because of what is
in the buffer behind it. -/
theorem oneOctet_leak : ¬ NoLeak 128 0 1 :=
  leak (by decide) (by decide) fun _ _ => by decide

end Suart

end Dmx4Linux2
