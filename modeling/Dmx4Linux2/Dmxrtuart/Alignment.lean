import Dmx4Linux2.Common.Run
import Dmx4Linux2.Dmxrtuart.Model.Port
import Mathlib.Data.List.Forall2
import Mathlib.Data.List.ReduceOption

/-!
# Buffer-based rtuart DMX port — what a frame is made of

A port that only receives is given breaks and octets. The octets behind a
break, up to the next one, are a segment. The trigger for the start code
is passed with the second octet, so that a port is still in
`EXPECT_STARTCODE` behind a segment of one octet, where a break does
nothing: the next segment is appended to it. In a run without such
segments every frame that is delivered is the front of a segment
(`frames_aligned`).
-/

namespace Dmx4Linux2

namespace Dmxrtuart

open Rtuart

/-! ## Segments -/

/-- A break starts a segment; an octet goes to the end of the last one. -/
def addLine (segs : List (List UInt8)) : Line → List (List UInt8)
  | .break_ _ => segs ++ [[]]
  | .octet c => segs.dropLast ++ (segs.getLast?.map (· ++ [c])).toList

/-- **The segments on the line**: the octets behind each break. -/
def segments (es : List Line) : List (List UInt8) := es.foldl addLine []

theorem segments_concat_break (es : List Line) (got : Bool) :
    segments (es ++ [.break_ got]) = segments es ++ [[]] := by
  rw [segments, List.foldl_append]
  rfl

theorem segments_concat_octet {es : List Line} {segs : List (List UInt8)} {s : List UInt8}
    (h : segments es = segs ++ [s]) (c : UInt8) :
    segments (es ++ [.octet c]) = segs ++ [s ++ [c]] := by
  rw [segments, List.foldl_append, ← segments, h]
  simp [addLine]

theorem segments_concat_octet_of_nil {es : List Line} (h : segments es = []) (c : UInt8) :
    segments (es ++ [.octet c]) = [] := by
  rw [segments, List.foldl_append, ← segments, h]
  rfl

/-- Every break finds a free frame. -/
def AllGot (es : List Line) : Prop := ∀ got, Line.break_ got ∈ es → got = true

/-- No segment that a break has ended is of exactly one octet. -/
def NoSingles (es : List Line) : Prop := ∀ s ∈ (segments es).dropLast, s.length ≠ 1

/-- An RDM packet with its checksum, perhaps with more behind it. -/
def IsRdmSegment (s : List UInt8) (length : UInt8) : Prop :=
  [scRdm, scSubMessage, length] <+: s ∧ 1 ≤ length.toNat ∧ length.toNat + 2 ≤ s.length

/-- **What may be delivered of a segment**: nothing, or a frame of its
first octets; of an RDM packet the packet, if frames were to be had. -/
structure Carries (got : Prop) (s : List UInt8) (f : Option (List UInt8)) : Prop where
  front : ∀ octets, f = some octets → octets <+: s
  rdm : got → ∀ length, IsRdmSegment s length → f = some (s.take (length.toNat + 2))

/-- The octets of a frame that is handed up. -/
def Action.received : Action → Option (List UInt8)
  | .receivedFrame e => some (e.frame.data.read 0 (e.frame.payloadSize + 1))
  | .putFrame _ | .rxStart | .rxStop | .txStart _ | .notify .. | .enableRs485Transmitter _
  | .sendBreak | .startRdmTimer _ | .stopRdmTimer => none

namespace Port

/-- The frames handed up so far. -/
def received (p : Port) : List (List UInt8) := p.log.filterMap Action.received

theorem received_act (p : Port) (a : Action) :
    (p.act a).received = p.received ++ a.received.toList := by
  cases h : a.received <;> simp [received, act, h]

/-! ## What the buffer holds -/

/-- The registered buffer is the frame in the receive slot, and holds
`s`. -/
structure Holds (p : Port) (s : List UInt8) : Prop where
  registered : p.registered = true
  offset : p.buffer.offset = 0
  size : p.buffer.size = 513
  frame : ∃ e, p.rx = some e ∧ p.buffer.frame = some e.id ∧
    e.frame.data.read 0 p.buffer.transfered = s

variable {p : Port} {s : List UInt8}

theorem Holds.transfered (h : p.Holds s) : p.buffer.transfered = s.length := by
  obtain ⟨e, -, -, hread⟩ := h.frame
  rw [← hread, Mem.length_read]

theorem Holds.bufferAt (h : p.Holds s) {i : ℕ} (hi : i < s.length) :
    s[i]? = some (p.bufferAt i) := by
  have hlen := h.transfered
  obtain ⟨e, hrx, hpoints, hread⟩ := h.frame
  have hread' := Mem.getElem?_read (m := e.frame.data) (p := 0) (hlen.symm ▸ hi)
  rw [hread] at hread'
  rw [hread']
  simp [Port.bufferAt, hrx, hpoints, h.offset]

/-- An octet is stored behind the others. -/
theorem Holds.store (h : p.Holds s) (c : UInt8) : (p.store c).Holds (s ++ [c]) := by
  obtain ⟨e, hrx, hpoints, hread⟩ := h.frame
  refine ⟨h.registered, h.offset, h.size, ?_⟩
  refine ⟨{ e with frame := { e.frame with
    data := e.frame.data.write (p.buffer.offset + p.buffer.transfered) [c] } }, ?_, hpoints, ?_⟩
  · simp [Port.store, hrx, hpoints]
  · have hself : e.frame.data.write p.buffer.transfered [c] (p.buffer.transfered + 0) = c :=
      Mem.write_apply_add (by simp)
    rw [h.offset, Nat.zero_add]
    show (e.frame.data.write p.buffer.transfered [c]).read 0 (p.buffer.transfered + 1) = _
    rw [Mem.read_add, Mem.read_write_outside (by omega), hread, Nat.zero_add, Mem.read_one]
    rw [Nat.add_zero] at hself
    rw [hself]

/-! ## The phases of a segment -/

/-- Nothing is received. -/
structure Idle (p : Port) : Prop where
  state : p.state = .idle ∨ p.state = .idleAfterDmxdata00
  registered : p.registered = false
  rx : p.rx = none

/-- The buffer ends behind an RDM packet, as soon as the length is in
it. -/
structure Limited (p : Port) (s : List UInt8) : Prop where
  awaited : s.head? = some scRdm → s.length = 2 →
    p.buffer.trigger1 = some 2 ∧ p.buffer.validcount = 513
  passed : s.head? ≠ some scRdm ∨ s.length ≠ 2 → p.buffer.trigger1 = none
  ends : ∀ length, [scRdm, scSubMessage, length] <+: s →
    p.buffer.validcount = length.toNat + 2

/-- **Where a port is in a segment**, with the octets of it that have come
and the frame it has delivered of it. -/
inductive Phase (got : Prop) (s : List UInt8) : Option (List UInt8) → Port → Prop
  /-- The frame is complete, and more octets do not change it. -/
  | ended {f : Option (List UInt8)} {p : Port} (hidle : p.Idle)
      (hcarries : ∀ more, Carries got (s ++ more) f) : Phase got s f p
  /-- There was no frame to receive into. -/
  | stuck {p : Port} (hstate : p.state = .expectStartcode) (hreg : p.registered = false)
      (hrx : p.rx = none) (hgot : ¬ got) : Phase got s none p
  /-- The start code may be there, the trigger has not been passed. -/
  | start {p : Port} (hstate : p.state = .expectStartcode) (hholds : p.Holds s)
      (hlen : s.length ≤ 1) (hvalid : p.buffer.validcount = 513)
      (htrigger0 : p.buffer.trigger0 = some 1) (htrigger1 : p.buffer.trigger1 = none) :
      Phase got s none p
  | data {p : Port} (hstate : p.state = .receiveDmxdata) (hholds : p.Holds s)
      (hlen : 2 ≤ s.length) (hroom : p.bufferFull = false)
      (htrigger0 : p.buffer.trigger0 = none) (hlimited : p.Limited s) : Phase got s none p

/-- **What a port has of the segment it is in**, behind the frames it
delivered before. -/
def InSegment (got : Prop) (old : List (List UInt8)) (s : List UInt8) (p : Port) : Prop :=
  ∃ f, Phase got s f p ∧ p.received = old ++ f.toList

variable {got : Prop} {old : List (List UInt8)}

theorem bufferFull_iff (p : Port) : p.bufferFull = true ↔
    p.buffer.validcount ≤ p.buffer.transfered ∨ p.buffer.size ≤ p.buffer.transfered := by
  simp [bufferFull]

theorem Holds.lt_of_room (h : p.Holds s) (hroom : p.bufferFull = false) :
    s.length < p.buffer.validcount ∧ s.length < 513 := by
  have hnot : ¬ p.bufferFull = true := by rw [hroom]; decide
  have htransfered := h.transfered
  rw [bufferFull_iff, h.size] at hnot
  omega

theorem Holds.payloadSize (h : p.Holds s) (hlen : 1 ≤ s.length) (hle : s.length ≤ 513) :
    (p.buffer.transfered + 2 ^ 16 - 1) % 2 ^ 16 + 1 = p.buffer.transfered := by
  have htransfered := h.transfered
  omega

/-- A frame that is complete is what the buffer holds. -/
theorem received_complete (hholds : p.Holds s) (hlen : 1 ≤ s.length) (hle : s.length ≤ 513) :
    ∃ e, p.completeRxframe.2 = some e ∧ (Action.receivedFrame e).received = some s := by
  have hsize := hholds.payloadSize hlen hle
  obtain ⟨e, hrx, -, hread⟩ := hholds.frame
  obtain ⟨size, hpayload⟩ : ∃ size, (p.buffer.transfered + 2 ^ 16 - 1) % 2 ^ 16 = size := ⟨_, rfl⟩
  rw [hpayload] at hsize
  refine ⟨{ e with frame := { e.frame with payloadSize := size } }, ?_, ?_⟩
  · rw [completeRxframe, hrx, hpayload, Option.map_some]
  · show some (e.frame.data.read 0 (size + 1)) = some s
    rw [hsize, hread]

/-- The end of the buffer completes the frame. -/
theorem rxEnd_receive (hstate : p.state = .receiveDmxdata) (hholds : p.Holds s)
    (hlen : 1 ≤ s.length) (hle : s.length ≤ 513) :
    ({ p with registered := false }.rxEnd).Idle ∧
      ({ p with registered := false }.rxEnd).received = p.received ++ [s] := by
  obtain ⟨e', hsome, hoctets⟩ := received_complete hholds hlen hle
  have hsome' : ({ p with registered := false } : Port).completeRxframe.2 = some e' := hsome
  obtain ⟨e, hrx, -, -⟩ := hholds.frame
  unfold rxEnd
  split
  · next hnone => exact absurd (hrx.symm.trans hnone) (Option.some_ne_none e)
  · split
    · dsimp only
      rw [hsome']
      refine ⟨⟨?_, rfl, rfl⟩, ?_⟩
      · show (if _ then _ else _) = _ ∨ (if _ then _ else _) = _
        split
        · exact .inr rfl
        · exact .inl rfl
      · rw [receivedFrame, received_act, hoctets]
        rfl
    all_goals next hother => exact absurd (hstate.symm.trans hother) (by decide)

/-- When the last octet has been looked at, the frame is complete or goes
on. -/
theorem InSegment.finish (hstate : p.state = .receiveDmxdata) (hholds : p.Holds s)
    (hlen : 2 ≤ s.length) (hle : s.length ≤ 513) (htrigger0 : p.buffer.trigger0 = none)
    (hlimited : p.Limited s)
    (hlength : ∀ length, [scRdm, scSubMessage, length] <+: s → 1 ≤ length.toNat →
      s.length ≤ length.toNat + 2) :
    InSegment got p.received s
      (if p.bufferFull then { p with registered := false }.rxEnd else p) := by
  have htransfered := hholds.transfered
  have hsize := hholds.size
  split
  · next hfull =>
    rw [bufferFull_iff] at hfull
    obtain ⟨hidle, hreceived⟩ := rxEnd_receive hstate hholds (by omega) hle
    refine ⟨some s, .ended hidle fun more => ⟨?_, ?_⟩, hreceived⟩
    · rintro octets ⟨⟩
      exact List.prefix_append s more
    · rintro - length ⟨hfront, hpos, -⟩
      have hhead : s.head? = some scRdm := by
        obtain ⟨rest, hrest⟩ := hfront
        cases s with
        | nil => exact absurd hlen (by simp)
        | cons b bs => simpa using (List.cons.inj hrest).1.symm
      have hthree : 3 ≤ s.length := by
        by_contra hlt
        have hvalid := (hlimited.awaited hhead (by omega)).2
        omega
      have hin : [scRdm, scSubMessage, length] <+: s :=
        List.prefix_of_prefix_length_le hfront (List.prefix_append s more) hthree
      have hvalid := hlimited.ends length hin
      have hmost := hlength length hin hpos
      have hlt : length.toNat < 256 := length.toNat_lt
      have heq : s.length = length.toNat + 2 := by omega
      rw [← heq, List.take_left]
  · next hroom =>
    exact ⟨none, .data hstate hholds hlen (by simpa using hroom) htrigger0 hlimited, by simp⟩

/-! ## An octet -/

theorem handleReceivedData_unregistered (h : p.registered = false) (c : UInt8) :
    p.handleReceivedData c = p.rxChar := by
  simp [handleReceivedData, h]

theorem handleReceivedData_room (h : p.Holds s) (hroom : p.bufferFull = false) (c : UInt8) :
    p.handleReceivedData c =
      if (p.store c).handleTriggers.bufferFull then
        { (p.store c).handleTriggers with registered := false }.rxEnd
      else (p.store c).handleTriggers := by
  simp [handleReceivedData, h.registered, hroom]

/-- An octet outside of a reception is at most a reason to unlock. -/
theorem Idle.octet (h : p.Idle) (c : UInt8) :
    (p.handleReceivedData c).Idle ∧ (p.handleReceivedData c).received = p.received := by
  rw [handleReceivedData_unregistered h.registered]
  unfold rxChar
  split
  · exact ⟨⟨.inl rfl, h.registered, h.rx⟩, rfl⟩
  · exact ⟨h, rfl⟩

theorem handleTriggers_of_not_passed (h0 : p.passed p.buffer.trigger0 = false)
    (h1 : p.passed p.buffer.trigger1 = false) : p.handleTriggers = p := by
  simp [handleTriggers, h0, h1]

/-- The start code is looked at with the second octet. -/
theorem handleTriggers_startcode (hstate : p.state = .expectStartcode)
    (h0 : p.passed p.buffer.trigger0 = true) (h1 : p.buffer.trigger1 = none)
    (hlen : p.buffer.transfered = 2) :
    ∃ validcount trigger1, p.handleTriggers =
        { p with state := .receiveDmxdata, buffer := { p.buffer with
          validcount := validcount, trigger0 := none, trigger1 := trigger1 } } ∧
      (p.bufferAt 0 = scRdm → validcount = p.buffer.validcount ∧ trigger1 = some 2) ∧
      (p.bufferAt 0 ≠ scRdm → trigger1 = none) := by
  have hp1 : p.passed none = false := rfl
  by_cases hrdm : p.bufferAt 0 = scRdm
  · refine ⟨p.buffer.validcount, some 2, ?_, fun _ => ⟨rfl, rfl⟩, fun hne => absurd hrdm hne⟩
    simp [handleTriggers, h0, h1, hp1, rxTrigger, hstate, hrdm, expectLength, hlen]
  · by_cases hlocked : p.bufferAt 0 = 0 ∧ p.lock.locked = true
    · refine ⟨p.lock.matchingSlotCount + 1, none, ?_, fun h => absurd h hrdm, fun _ => rfl⟩
      have hzero : ¬ (0 : UInt8) = scRdm := by decide
      simp [handleTriggers, h0, h1, hp1, rxTrigger, hstate, hzero, hlocked]
    · refine ⟨p.buffer.validcount, none, ?_, fun h => absurd h hrdm, fun _ => rfl⟩
      simp [handleTriggers, h0, h1, hp1, rxTrigger, hstate, hrdm, hlocked]

/-- The length is looked at with the third octet. -/
theorem handleTriggers_length (hstate : p.state = .receiveDmxdata)
    (h0 : p.buffer.trigger0 = none) (h1 : p.buffer.trigger1 = some 2)
    (hlen : p.buffer.transfered = 3) :
    ∃ validcount, p.handleTriggers =
        { p with buffer := { p.buffer with
          validcount := validcount, trigger0 := none, trigger1 := none } } ∧
      (p.bufferAt 1 = scSubMessage → validcount = (p.bufferAt 2).toNat + 2) := by
  have hp1 : p.passed p.buffer.trigger1 = true := by simp [passed, h1, hlen]
  by_cases hsub : p.bufferAt 1 = scSubMessage
  · refine ⟨(p.bufferAt 2).toNat + 2, ?_, fun _ => rfl⟩
    simp [handleTriggers, h0, hp1, rxTrigger, hstate, hlen, limitToLength, hsub]
  · refine ⟨p.buffer.validcount, ?_, fun h => absurd h hsub⟩
    simp [handleTriggers, h0, hp1, rxTrigger, hstate, hlen, limitToLength, hsub]

/-- The first octet of a segment is kept, and nothing else happens. -/
theorem start_first (hstate : p.state = .expectStartcode) (hholds : p.Holds [])
    (hvalid : p.buffer.validcount = 513) (htrigger0 : p.buffer.trigger0 = some 1)
    (htrigger1 : p.buffer.trigger1 = none) (c : UInt8) :
    InSegment got p.received [c] (p.handleReceivedData c) := by
  have hstored := hholds.store c
  have htransfered : (p.store c).buffer.transfered = 1 := hstored.transfered
  have hempty := hholds.transfered
  have hroom : p.bufferFull = false := by
    simp [bufferFull, hvalid, hholds.size, hempty]
  have hquiet : (p.store c).handleTriggers = p.store c := by
    refine handleTriggers_of_not_passed ?_ ?_
    · rw [show (p.store c).buffer.trigger0 = some 1 from htrigger0]
      simp [passed, htransfered]
    · rw [show (p.store c).buffer.trigger1 = none from htrigger1]
      rfl
  have hroom' : (p.store c).bufferFull = false := by
    have hvalid' : (p.store c).buffer.validcount = 513 := hvalid
    simp [bufferFull, hvalid', hstored.size, htransfered]
  rw [handleReceivedData_room hholds hroom, hquiet, hroom', if_neg (by decide)]
  exact ⟨none, .start hstate hstored (by simp) hvalid htrigger0 htrigger1, by simp [received, store]⟩

/-- With the second octet the start code is known. -/
theorem start_second {a : UInt8} (hstate : p.state = .expectStartcode) (hholds : p.Holds [a])
    (hvalid : p.buffer.validcount = 513) (htrigger0 : p.buffer.trigger0 = some 1)
    (htrigger1 : p.buffer.trigger1 = none) (c : UInt8) :
    InSegment got p.received [a, c] (p.handleReceivedData c) := by
  have hstored : (p.store c).Holds [a, c] := hholds.store c
  have htransfered : (p.store c).buffer.transfered = 2 := hstored.transfered
  have hone := hholds.transfered
  have hroom : p.bufferFull = false := by
    simp [bufferFull, hvalid, hholds.size, hone]
  have hpassed : (p.store c).passed (p.store c).buffer.trigger0 = true := by
    rw [show (p.store c).buffer.trigger0 = some 1 from htrigger0]
    simp [passed, htransfered]
  have hfirst : (p.store c).bufferAt 0 = a := by
    simpa using (hstored.bufferAt (i := 0) (by simp)).symm
  obtain ⟨validcount, trigger1, htriggers, hrdm, hother⟩ :=
    handleTriggers_startcode (p := p.store c) hstate hpassed htrigger1 htransfered
  rw [hfirst] at hrdm hother
  rw [handleReceivedData_room hholds hroom, htriggers]
  refine InSegment.finish rfl ⟨hstored.registered, hstored.offset, hstored.size, hstored.frame⟩
    (by simp) (by simp) rfl ⟨?_, ?_, ?_⟩ ?_
  · intro hhead _
    obtain ⟨hsame, htwo⟩ := hrdm (by simpa using hhead)
    exact ⟨htwo, hsame.trans hvalid⟩
  · rintro (hhead | hlen)
    · exact hother (by simpa using hhead)
    · exact absurd rfl hlen
  · intro length hfront
    exact absurd hfront.length_le (by simp)
  · intro length hfront
    exact absurd hfront.length_le (by simp)

/-- With the third octet of an RDM packet its length is known, and the
buffer is limited to it. -/
theorem data_length (hstate : p.state = .receiveDmxdata) (hholds : p.Holds s)
    (hroom : p.bufferFull = false) (htrigger0 : p.buffer.trigger0 = none)
    (htrigger1 : p.buffer.trigger1 = some 2) (htwo : s.length = 2) (c : UInt8) :
    InSegment got p.received (s ++ [c]) (p.handleReceivedData c) := by
  have hstored := hholds.store c
  have hconcat : (s ++ [c]).length = s.length + 1 := by simp
  have htransfered := hstored.transfered
  obtain ⟨validcount, htriggers, hsub⟩ :=
    handleTriggers_length (p := p.store c) hstate htrigger0 htrigger1 (by omega)
  -- the limit that is read is the one behind the packet
  have hends : ∀ length, [scRdm, scSubMessage, length] <+: s ++ [c] →
      validcount = length.toNat + 2 := by
    rintro length ⟨rest, hrest⟩
    have h1 := hstored.bufferAt (i := 1) (by omega)
    have h2 := hstored.bufferAt (i := 2) (by omega)
    rw [← hrest] at h1 h2
    have hone : scSubMessage = (p.store c).bufferAt 1 := by simpa using h1
    have hlength : length = (p.store c).bufferAt 2 := by simpa using h2
    rw [hsub hone.symm, hlength]
  rw [handleReceivedData_room hholds hroom, htriggers]
  refine InSegment.finish hstate ⟨hstored.registered, hstored.offset, hstored.size, hstored.frame⟩
    (by omega) (by omega) rfl ⟨?_, ?_, hends⟩ ?_
  · intro _ hstill
    omega
  · exact fun _ => rfl
  · intro length _ hpos
    omega

/-- An octet that no length is awaited with. -/
theorem data_plain (hstate : p.state = .receiveDmxdata) (hholds : p.Holds s) (hlen : 2 ≤ s.length)
    (hroom : p.bufferFull = false) (htrigger0 : p.buffer.trigger0 = none) (hlimited : p.Limited s)
    (hnot : s.head? ≠ some scRdm ∨ s.length ≠ 2) (c : UInt8) :
    InSegment got p.received (s ++ [c]) (p.handleReceivedData c) := by
  have hstored := hholds.store c
  have hconcat : (s ++ [c]).length = s.length + 1 := by simp
  have htransfered := hstored.transfered
  have hroom' := hholds.lt_of_room hroom
  have htrigger1 : p.buffer.trigger1 = none := hlimited.passed hnot
  have hquiet : (p.store c).handleTriggers = p.store c := by
    refine handleTriggers_of_not_passed ?_ ?_
    · rw [show (p.store c).buffer.trigger0 = none from htrigger0]
      rfl
    · rw [show (p.store c).buffer.trigger1 = none from htrigger1]
      rfl
  -- a front of three octets that was not there before awaited its length
  have hold : ∀ length, [scRdm, scSubMessage, length] <+: s ++ [c] →
      [scRdm, scSubMessage, length] <+: s := by
    intro length hfront
    have hthree : 3 ≤ s.length := by
      rcases hnot with hhead | hne
      · obtain ⟨rest, hrest⟩ := hfront
        have hfirst : (s ++ [c]).head? = some scRdm := by rw [← hrest]; rfl
        rw [List.head?_append_of_ne_nil s (List.ne_nil_of_length_pos (by omega))] at hfirst
        exact absurd hfirst hhead
      · omega
    exact List.prefix_of_prefix_length_le hfront (List.prefix_append s [c]) hthree
  rw [handleReceivedData_room hholds hroom, hquiet]
  refine InSegment.finish hstate hstored (by omega) (by omega) htrigger0 ⟨?_, ?_, ?_⟩ ?_
  · intro _ htwo
    omega
  · exact fun _ => htrigger1
  · exact fun length hfront => hlimited.ends length (hold length hfront)
  · intro length hfront _
    have hvalid := hlimited.ends length (hold length hfront)
    omega

/-- An octet behind the start code. -/
theorem data_octet (hstate : p.state = .receiveDmxdata) (hholds : p.Holds s) (hlen : 2 ≤ s.length)
    (hroom : p.bufferFull = false) (htrigger0 : p.buffer.trigger0 = none) (hlimited : p.Limited s)
    (c : UInt8) : InSegment got p.received (s ++ [c]) (p.handleReceivedData c) := by
  by_cases hawaited : s.head? = some scRdm ∧ s.length = 2
  · obtain ⟨htrigger1, -⟩ := hlimited.awaited hawaited.1 hawaited.2
    exact data_length hstate hholds hroom htrigger0 htrigger1 hawaited.2 c
  · rw [not_and_or] at hawaited
    exact data_plain hstate hholds hlen hroom htrigger0 hlimited hawaited c

/-- **An octet is kept, or ignored behind the frame.** -/
theorem InSegment.octet (h : InSegment got old s p) (c : UInt8) :
    InSegment got old (s ++ [c]) (p.handleReceivedData c) := by
  obtain ⟨f, hphase, hreceived⟩ := h
  cases hphase with
  | ended hidle hcarries =>
    obtain ⟨hidle', hsame⟩ := hidle.octet c
    refine ⟨f, .ended hidle' fun more => ?_, hsame.trans hreceived⟩
    rw [List.append_assoc]
    exact hcarries ([c] ++ more)
  | stuck hstate hreg hrx hgot =>
    have hchar : p.handleReceivedData c = p := by
      rw [handleReceivedData_unregistered hreg]
      simp [rxChar, hstate]
    rw [hchar]
    exact ⟨none, .stuck hstate hreg hrx hgot, hreceived⟩
  | start hstate hholds hlen hvalid htrigger0 htrigger1 =>
    obtain rfl : p.received = old := by simpa using hreceived
    rcases s with - | ⟨a, - | ⟨b, s⟩⟩
    · exact start_first hstate hholds hvalid htrigger0 htrigger1 c
    · exact start_second hstate hholds hvalid htrigger0 htrigger1 c
    · exact absurd hlen (by simp)
  | data hstate hholds hlen hroom htrigger0 hlimited =>
    obtain rfl : p.received = old := by simpa using hreceived
    exact data_octet hstate hholds hlen hroom htrigger0 hlimited c

/-! ## A break -/

/-- A break that starts a reception. -/
theorem InSegment.start (hreg : p.registered = false) (g : Bool) :
    InSegment (got ∧ g = true) p.received []
      ({ p with state := .expectStartcode }.startReceiveData 0 true g) := by
  cases g with
  | false =>
    refine ⟨none, .stuck rfl hreg rfl (by simp), ?_⟩
    simp [startReceiveData, received, act, Action.received]
  | true =>
    refine ⟨none, .start ?_ ⟨?_, ?_, ?_, ?_⟩ (by simp) ?_ ?_ ?_, ?_⟩
    all_goals simp [startReceiveData, rxStart, act, hreg, received, Action.received]

theorem Idle.break_ (h : p.Idle) (g : Bool) :
    InSegment (got ∧ g = true) p.received [] (p.rxErr true g) := by
  rcases h.state with hstate | hstate <;>
    simpa only [rxErr, hstate, if_true] using InSegment.start h.registered g

/-- A break in front of the start code does nothing. -/
theorem rxErr_expectStartcode (hstate : p.state = .expectStartcode) (g : Bool) :
    p.rxErr true g = p := by
  simp only [rxErr, hstate, if_true]

/-- A break completes the frame that is received. -/
theorem InSegment.complete (hstate : p.state = .receiveDmxdata) (hholds : p.Holds s)
    (hlen : 1 ≤ s.length) (hle : s.length ≤ 513) (g : Bool) :
    InSegment (got ∧ g = true) (p.received ++ [s]) [] (p.rxErr true g) := by
  obtain ⟨e', hsome, hoctets⟩ := received_complete hholds hlen hle
  have hsome' : p.rxStop.completeRxframe.2 = some e' := hsome
  obtain ⟨e, hrx, -, -⟩ := hholds.frame
  have hrest : ∀ lock : SlotCountLock, InSegment (got ∧ g = true) (p.received ++ [s]) []
      ({ { p.rxStop.completeRxframe.1 with lock := lock }.receivedFrame
        p.rxStop.completeRxframe.2 with state := .expectStartcode }.startReceiveData 0 true g) := by
    intro lock
    have hreceived : ({ p.rxStop.completeRxframe.1 with lock := lock }.receivedFrame
        p.rxStop.completeRxframe.2).received = p.received ++ [s] := by
      have hstop : p.rxStop.received = p.received := by
        rw [rxStop, received_act]
        simp [received, Action.received]
      rw [hsome', receivedFrame, received_act, hoctets, ← hstop]
      rfl
    rw [← hreceived]
    refine InSegment.start ?_ g
    rw [hsome']
    rfl
  simp only [rxErr, hstate, if_true]
  split
  · next hnone => exact absurd (hrx.symm.trans hnone) (Option.some_ne_none e)
  · exact hrest _

/-- What was delivered of the octets that have come. An RDM packet would
have been delivered with its last one. -/
theorem Phase.carries {f : Option (List UInt8)} (h : Phase got s f p) : Carries got s f := by
  cases h with
  | ended hidle hcarries => simpa using hcarries []
  | stuck hstate hreg hrx hgot => exact ⟨by simp, fun h => absurd h hgot⟩
  | start hstate hholds hlen hvalid htrigger0 htrigger1 =>
    refine ⟨by simp, ?_⟩
    rintro - length ⟨hfront, -⟩
    have hthree : 3 ≤ s.length := hfront.length_le
    omega
  | data hstate hholds hlen hroom htrigger0 hlimited =>
    refine ⟨by simp, ?_⟩
    rintro - length ⟨hfront, -, hle⟩
    have hvalid := hlimited.ends length hfront
    have hlt := (hholds.lt_of_room hroom).1
    omega

/-- **A break settles the segment in front of it**, unless that is of one
octet, and starts the next one. -/
theorem InSegment.break_ (h : InSegment got old s p) (hlen : s.length ≠ 1) (g : Bool) :
    ∃ f, Carries got s f ∧
      InSegment (got ∧ g = true) (old ++ f.toList) [] (p.rxErr true g) := by
  obtain ⟨f, hphase, hreceived⟩ := h
  have hcarries := hphase.carries
  cases hphase with
  | ended hidle _ =>
    refine ⟨f, hcarries, ?_⟩
    rw [← hreceived]
    exact hidle.break_ g
  | stuck hstate hreg hrx hgot =>
    rw [rxErr_expectStartcode hstate]
    refine ⟨none, hcarries, none, ?_, by simpa using hreceived⟩
    exact .stuck hstate hreg hrx (fun h => hgot h.1)
  | start hstate hholds hle hvalid htrigger0 htrigger1 =>
    obtain rfl : s = [] := List.length_eq_zero_iff.1 (by omega)
    rw [rxErr_expectStartcode hstate]
    refine ⟨none, hcarries, none, ?_, by simpa using hreceived⟩
    exact .start hstate hholds hle hvalid htrigger0 htrigger1
  | data hstate hholds hge hroom htrigger0 hlimited =>
    obtain rfl : p.received = old := by simpa using hreceived
    have hle := (hholds.lt_of_room hroom).2
    refine ⟨some s, ⟨?_, ?_⟩, InSegment.complete hstate hholds (by omega) (by omega) g⟩
    · rintro octets ⟨⟩
      exact List.prefix_refl s
    · intro hgot length hrdm
      exact absurd (hcarries.rdm hgot length hrdm) (by simp)

end Port

/-! ## Runs -/

open Port

theorem allGot_concat_octet (es : List Line) (c : UInt8) :
    AllGot (es ++ [.octet c]) ↔ AllGot es := by
  simp [AllGot]

theorem allGot_concat_break (es : List Line) (got : Bool) :
    AllGot (es ++ [.break_ got]) ↔ AllGot es ∧ got = true := by
  simp only [AllGot, List.mem_append, List.mem_singleton, Line.break_.injEq]
  constructor
  · exact fun h => ⟨fun g hg => h g (.inl hg), h got (.inr rfl)⟩
  · rintro ⟨h, rfl⟩ g (hg | rfl)
    · exact h g hg
    · rfl

theorem Carries.mono {got got' : Prop} {s : List UInt8} {f : Option (List UInt8)}
    (h : Carries got s f) (himp : got' → got) : Carries got' s f :=
  ⟨h.front, fun hgot => h.rdm (himp hgot)⟩

/-- **Where a run has led.** The segments but the last are settled, and
the port is in the last one. -/
def Follows (es : List Line) (p : Port) : Prop :=
  (segments es = [] ∧ p.Idle ∧ p.received = []) ∨
    ∃ segs s fs, segments es = segs ++ [s] ∧ List.Forall₂ (Carries (AllGot es)) segs fs ∧
      InSegment (AllGot es) fs.reduceOption s p

theorem Follows.octet {es : List Line} {p : Port} (h : Follows es p) (c : UInt8) :
    Follows (es ++ [.octet c]) (p.listen (.octet c)) := by
  unfold Follows
  rw [allGot_concat_octet]
  rcases h with ⟨hnil, hidle, hreceived⟩ | ⟨segs, s, fs, hsegs, hsettled, hin⟩
  · obtain ⟨hidle', hsame⟩ := hidle.octet c
    exact .inl ⟨segments_concat_octet_of_nil hnil c, hidle', hsame.trans hreceived⟩
  · exact .inr ⟨segs, s ++ [c], fs, segments_concat_octet hsegs c, hsettled, hin.octet c⟩

theorem Follows.break_ {es : List Line} {p : Port} (h : Follows es p)
    (hsingle : ∀ s ∈ segments es, s.length ≠ 1) (got : Bool) :
    Follows (es ++ [.break_ got]) (p.listen (.break_ got)) := by
  refine .inr ⟨segments es, [], ?_⟩
  rw [allGot_concat_break, segments_concat_break]
  rcases h with ⟨hnil, hidle, hreceived⟩ | ⟨segs, s, fs, hsegs, hsettled, hin⟩
  · refine ⟨[], rfl, hnil ▸ .nil, ?_⟩
    have hstart : InSegment (AllGot es ∧ got = true) p.received [] (p.rxErr true got) :=
      hidle.break_ got
    rw [hreceived] at hstart
    exact hstart
  · obtain ⟨f, hcarries, hin'⟩ := hin.break_ (hsingle s (by simp [hsegs])) got
    refine ⟨fs ++ [f], rfl, ?_, ?_⟩
    · rw [hsegs]
      have hall : List.Forall₂ (Carries (AllGot es)) (segs ++ [s]) (fs ++ [f]) :=
        List.rel_append hsettled (.cons hcarries .nil)
      exact hall.imp fun _ _ h => h.mono And.left
    · rw [List.reduceOption_append, List.reduceOption_singleton]
      exact hin'

theorem follows_run (es : List Line) (h : NoSingles es) : Follows es (run listen create es) := by
  induction es using List.reverseRecOn with
  | nil => exact .inl ⟨rfl, ⟨.inl rfl, rfl, rfl⟩, rfl⟩
  | append_singleton es x ih =>
    rw [run_concat]
    cases x with
    | break_ got =>
      have hall : ∀ s ∈ segments es, s.length ≠ 1 := by
        intro s hs
        refine h s ?_
        rw [segments_concat_break, List.dropLast_concat]
        exact hs
      exact (ih fun s hs => hall s (List.mem_of_mem_dropLast hs)).break_ hall got
    | octet c =>
      refine (ih fun s hs => h s ?_).octet c
      rcases List.eq_nil_or_concat' (segments es) with hnil | ⟨segs, last, hsegs⟩
      · rw [hnil] at hs
        exact absurd hs (by simp)
      · rw [segments_concat_octet hsegs, List.dropLast_concat]
        rwa [hsegs, List.dropLast_concat] at hs

/-- **Every frame is the front of a segment.** In a run in which no break
follows on a single octet, each segment gives at most one frame, in order;
the frame is made of its first octets, and of an RDM packet it is the
packet, if every break found a frame to receive into. -/
theorem frames_aligned (es : List Line) (h : NoSingles es) :
    ∃ fs, (run listen create es).received = fs.reduceOption ∧
      List.Forall₂ (Carries (AllGot es)) (segments es) fs := by
  rcases follows_run es h with ⟨hnil, -, hreceived⟩ | ⟨segs, s, fs, hsegs, hsettled, f, hphase, hreceived⟩
  · exact ⟨[], hreceived, hnil ▸ .nil⟩
  · refine ⟨fs ++ [f], ?_, ?_⟩
    · rw [hreceived, List.reduceOption_append, List.reduceOption_singleton]
    · rw [hsegs]
      exact List.rel_append hsettled (.cons hphase.carries .nil)

/-- A DMX segment, and an RDM packet with an octet behind it. -/
theorem frames_aligned_dmx_rdm :
    NoSingles [.break_ true, .octet 0, .octet 9, .break_ true, .octet 0xCC, .octet 1, .octet 1,
        .octet 7] ∧
      ∃ fs, (run listen create [.break_ true, .octet 0, .octet 9, .break_ true, .octet 0xCC,
          .octet 1, .octet 1, .octet 7]).received = fs.reduceOption ∧
        List.Forall₂ (Carries (AllGot [.break_ true, .octet 0, .octet 9, .break_ true, .octet 0xCC,
          .octet 1, .octet 1, .octet 7])) (segments [.break_ true, .octet 0, .octet 9, .break_ true,
          .octet 0xCC, .octet 1, .octet 1, .octet 7]) fs := by
  have hsingles : NoSingles [.break_ true, .octet 0, .octet 9, .break_ true, .octet 0xCC, .octet 1,
      .octet 1, .octet 7] := by
    unfold NoSingles
    decide
  exact ⟨hsingles, frames_aligned _ hsingles⟩

/-- Each frame is the front of one of the segments. -/
theorem front_of_mem {got : Prop} {segs : List (List UInt8)} {fs : List (Option (List UInt8))}
    (h : List.Forall₂ (Carries got) segs fs) {octets : List UInt8} (hmem : octets ∈ fs.reduceOption) :
    ∃ s ∈ segs, octets <+: s := by
  rw [List.reduceOption_mem_iff] at hmem
  induction h with
  | nil => exact absurd hmem (by simp)
  | @cons s f segs fs hcarries _ ih =>
    rcases List.mem_cons.1 hmem with hf | hrest
    · exact ⟨s, List.mem_cons_self, hcarries.front octets hf.symm⟩
    · obtain ⟨t, ht, hfront⟩ := ih hrest
      exact ⟨t, List.mem_cons_of_mem s ht, hfront⟩

/-- A segment of one octet is put in front of the next one. -/
theorem single_octet_misaligned :
    ¬ ∃ fs, (run listen create [.break_ true, .octet 1, .break_ true, .octet 2, .octet 3,
          .break_ true]).received = fs.reduceOption ∧
      List.Forall₂ (Carries True) (segments [.break_ true, .octet 1, .break_ true, .octet 2,
        .octet 3, .break_ true]) fs := by
  rintro ⟨fs, hreceived, hall⟩
  have hframe : (run listen create [.break_ true, .octet 1, .break_ true, .octet 2, .octet 3,
      .break_ true]).received = [[1, 2, 3]] := rfl
  have hsegs : segments [.break_ true, .octet 1, .break_ true, .octet 2, .octet 3,
      .break_ true] = [[1], [2, 3], []] := by decide
  rw [hframe] at hreceived
  rw [hsegs] at hall
  have hmem : [1, 2, 3] ∈ fs.reduceOption := by simp [← hreceived]
  obtain ⟨s, hs, hfront⟩ := front_of_mem hall hmem
  revert s
  decide

end Dmxrtuart

end Dmx4Linux2
