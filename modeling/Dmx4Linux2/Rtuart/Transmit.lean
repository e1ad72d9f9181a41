import Dmx4Linux2.Rtuart.DiscoveryReply
import Dmx4Linux2.Rtuart.Requests

/-!
# rtuart DMX client — sending a frame

A frame is accepted while the transmit slot is empty, and sent whenever
the UART has space. `transmit_prefix` says that what is written is the
frame from its start code on, in order, whatever space is announced. A
frame that is refused is given back, but the client has by then given up
what it was receiving: `refusals_iff` says when nothing is lost.
-/

namespace Dmx4Linux2

namespace Rtuart

namespace Port

variable {p q : Port} {frame : Entry}

/-! ## Refused frames -/

/-- What a transaction in progress consists of. -/
structure Unchanged (p q : Port) : Prop where
  state : q.state = p.state
  rxFrame : q.rx.frame = p.rx.frame
  rxCount : q.rx.count = p.rx.count
  rxData : q.rx.data = p.rx.data
  tx : q.tx = p.tx
  rdmTimer : q.rdmTimer = p.rdmTimer

/-- **A frame that is refused is given back, and nothing else happens**:
the transaction in progress goes on as it would have. -/
def RefusesCleanly (p : Port) (e : Event) : Prop :=
  ∀ frame, e = .sendFrame frame → p.tx.frame.isSome = true →
    (p.handle e).2 = [.putFrame frame] ∧ Unchanged p (p.step e) ∧
      ∀ es, (p.step e).handleAll es = p.handleAll es

/-- Nothing is being received when a frame is refused. -/
def RefusesQuietly (p : Port) (e : Event) : Prop :=
  ∀ frame, e = .sendFrame frame → p.tx.frame.isSome = true → p.rx.frame = none

theorem sendFrame_refused (htx : p.tx.frame.isSome = true) (hrx : p.rx.frame = none)
    (frame : Entry) : p.sendFrame frame = (p, [.putFrame frame]) := by
  obtain ⟨e, he⟩ := Option.isSome_iff_exists.1 htx
  have hquiet : ¬ p.rx.frame.isSome = true := by simp [hrx]
  unfold sendFrame
  rw [if_neg hquiet]
  simp only [he]
  rfl

theorem refusesCleanly_iff (p : Port) (e : Event) : p.RefusesCleanly e ↔ p.RefusesQuietly e := by
  constructor
  · intro h frame he htx
    obtain ⟨-, hsame, -⟩ := h frame he htx
    rw [← hsame.rxFrame, he]
    exact sendFrame_rxFrame frame
  · rintro h frame rfl htx
    have hrefused := sendFrame_refused htx (h frame rfl htx) frame
    have hstep : p.step (.sendFrame frame) = p := congrArg Prod.fst hrefused
    refine ⟨congrArg Prod.snd hrefused, ?_, ?_⟩
    · rw [hstep]
      exact ⟨rfl, rfl, rfl, rfl, rfl, rfl⟩
    · rw [hstep]
      exact fun _ => rfl

/-! ## Frames that are accepted -/

theorem loadTx_tx (p q : Port) (frame : Entry) : (p.loadTx frame).tx = (q.loadTx frame).tx := by
  unfold loadTx
  dsimp only
  split
  · split
    · rfl
    · split <;> rfl
  · rfl

theorem loadTx_state (frame : Entry) : (p.loadTx frame).state = .transmitBreak :=
  congrArg View.state (loadTx_view frame)

theorem startTx_tx : p.startTx.1.tx = p.tx := by
  unfold startTx
  dsimp only
  split <;> rfl

/-- **A frame that is accepted is loaded**, and its transmission starts. -/
theorem sendFrame_accepted (htx : p.tx.frame = none) (frame : Entry) :
    ∃ q : Port, q.tx.frame = none ∧ (p.sendFrame frame).1 = (q.loadTx frame).startTx.1 := by
  have hflush : (if p.rx.frame.isSome then p.flushRx else (p, [])).1.tx.frame = none := by
    split
    · rw [flushRx_tx]
      exact htx
    · exact htx
  refine ⟨(if p.rx.frame.isSome then p.flushRx else (p, [])).1, hflush, ?_⟩
  unfold sendFrame
  simp only [hflush]

theorem sendFrame_tx (htx : p.tx.frame = none) (frame : Entry) :
    (p.sendFrame frame).1.tx = (p.loadTx frame).tx := by
  obtain ⟨q, -, hq⟩ := sendFrame_accepted htx frame
  rw [hq, startTx_tx]
  exact loadTx_tx q p frame

/-- The transmission starts with the break, if there is one. -/
theorem sendFrame_state (htx : p.tx.frame = none) (frame : Entry) :
    (p.sendFrame frame).1.state = .transmitBreak ∨ (p.sendFrame frame).1.state = .transmitData := by
  obtain ⟨q, -, hq⟩ := sendFrame_accepted htx frame
  rw [hq]
  unfold startTx
  dsimp only
  split
  · exact .inr rfl
  · exact .inl (loadTx_state frame)

/-- What is loaded is the frame with its kind in the flags, unless it is a
discovery response. -/
theorem loadTx_plain (hreply : isRdmDiscoverReply frame.frame.data = false) :
    ∃ flags : Flags,
      flags.isRdmDisc = (isRdmDiscover frame.frame.data || frame.frame.flags.isRdmDisc) ∧
      (p.loadTx frame).tx =
        ⟨some ⟨frame.id, { frame.frame with flags := flags }⟩, some 0, 1 + frame.frame.payloadSize⟩ := by
  unfold loadTx
  dsimp only
  split
  · split
    · next hdisc =>
      rw [hdisc]
      exact ⟨_, rfl, rfl⟩
    · next hdisc =>
      rw [Bool.not_eq_true] at hdisc
      rw [if_neg (by rw [hreply]; decide), hdisc]
      exact ⟨{ frame.frame.flags with isRdm := true }, rfl, rfl⟩
  · next hrdm =>
    have hdisc : isRdmDiscover frame.frame.data = false := by
      rw [Bool.not_eq_true] at hrdm
      unfold isRdmDiscover isDiscUniqueBranch
      rw [hrdm]
      rfl
    rw [hdisc]
    exact ⟨frame.frame.flags, rfl, rfl⟩

/-! ## Space -/

/-- The space a UART announces: an `int`, -1 if it is not known. -/
def IsSpace (n : ℤ) : Prop := n = -1 ∨ (0 ≤ n ∧ n < 2 ^ 31)

/-- **A frame is being written**: so many of its octets have been, and so
many have not. -/
structure Writes (p : Port) (e : Entry) (done remain : ℕ) : Prop where
  tx : p.tx = ⟨some e, some done, remain⟩
  state : p.state = .transmitData ∨ (p.state = .waitForTxComplete ∧ remain = 0)

variable {e : Entry} {done remain : ℕ} {n : ℤ} {spaces : List ℤ}

/-- How many octets are written when space is announced. -/
def spaceTaken (remain : ℕ) (n : ℤ) : ℕ := min 12 (if n = -1 then remain else min remain n.toNat)

theorem spaceTaken_le : spaceTaken remain n ≤ remain := by
  unfold spaceTaken
  split <;> omega

/-- **Space is announced.** -/
theorem Writes.hasSpace (h : p.Writes e done remain) (hn : IsSpace n) :
    written (p.transmitterHasSpace n).2 = e.frame.data.read done (spaceTaken remain n) ∧
      (p.transmitterHasSpace n).1.Writes e (done + spaceTaken remain n)
        (remain - spaceTaken remain n) ∧
      ((p.transmitterHasSpace n).1.state = .waitForTxComplete ↔ remain = 0) := by
  have hframe : p.tx.frame = some e := by rw [h.tx]
  have hptr : p.tx.ptr = some done := by rw [h.tx]
  have hremain : p.tx.remain = remain := by rw [h.tx]
  unfold transmitterHasSpace
  simp only [hframe, hptr, hremain]
  rcases h.state with hstate | ⟨hstate, rfl⟩
  · rw [if_neg (by rw [hstate]; decide)]
    by_cases hpos : remain > 0
    · have htaken : (if (if n = -1 ∨ n % 2 ^ 32 > remain then remain else n.toNat) > 12 then 12
          else if n = -1 ∨ n % 2 ^ 32 > remain then remain else n.toNat) = spaceTaken remain n := by
        unfold spaceTaken
        rcases hn with rfl | ⟨hlow, hhigh⟩
        · simp only [true_or, if_true]
          split <;> omega
        · rw [if_neg (show ¬ n = -1 by omega)]
          split_ifs <;> omega
      rw [if_pos hpos]
      simp only [htaken]
      refine ⟨List.append_nil _, ⟨rfl, .inl hstate⟩, ?_⟩
      simp only [hstate, reduceCtorEq, false_iff]
      omega
    · obtain rfl : remain = 0 := by omega
      have hnone : spaceTaken 0 n = 0 := Nat.le_zero.1 spaceTaken_le
      rw [if_neg hpos, hnone]
      exact ⟨rfl, ⟨h.tx, .inr ⟨rfl, rfl⟩⟩, by simp⟩
  · have hnone : spaceTaken 0 n = 0 := Nat.le_zero.1 spaceTaken_le
    rw [if_pos hstate, hnone]
    exact ⟨rfl, ⟨h.tx, .inr ⟨hstate, rfl⟩⟩, by simp [hstate]⟩

/-- **Space is announced again and again.** -/
theorem Writes.hasSpaces (h : p.Writes e done remain) (hspaces : ∀ n ∈ spaces, IsSpace n) :
    ∃ c ≤ remain, written (p.handleAll (spaces.map .transmitterHasSpace)).2 =
        e.frame.data.read done c ∧
      (p.handleAll (spaces.map .transmitterHasSpace)).1.Writes e (done + c) (remain - c) := by
  induction spaces generalizing p done remain with
  | nil => exact ⟨0, by omega, rfl, h⟩
  | cons n spaces ih =>
    obtain ⟨hwritten, hnext, -⟩ := h.hasSpace (hspaces n List.mem_cons_self)
    have hle : spaceTaken remain n ≤ remain := spaceTaken_le
    obtain ⟨c, hc, hrest, hlast⟩ := ih hnext fun m hm => hspaces m (List.mem_cons_of_mem n hm)
    refine ⟨spaceTaken remain n + c, by omega, ?_, ?_⟩
    · rw [Mem.read_add, ← hwritten, ← hrest]
      exact written_append _ _
    · rw [← Nat.add_assoc, ← Nat.sub_sub]
      exact hlast

/-- A frame is accepted, and its break is over. -/
def transmitting (p : Port) (frame : Entry) : Port :=
  if (p.step (.sendFrame frame)).state = .transmitBreak then
    (p.step (.sendFrame frame)).step (.transmitterEmpty none)
  else p.step (.sendFrame frame)

theorem transmitting_tx (htx : p.tx.frame = none) (frame : Entry) :
    (p.transmitting frame).tx = (p.loadTx frame).tx ∧
      (p.transmitting frame).state = .transmitData := by
  have hsent : (p.step (.sendFrame frame)).tx = (p.loadTx frame).tx := sendFrame_tx htx frame
  unfold transmitting
  by_cases hbreak : (p.step (.sendFrame frame)).state = .transmitBreak
  · have hempty : (p.step (.sendFrame frame)).step (.transmitterEmpty none) =
        { p.step (.sendFrame frame) with state := .transmitData } := by
      show ((p.step (.sendFrame frame)).transmitterEmpty none).1 = _
      unfold transmitterEmpty
      rw [if_pos hbreak]
    rw [if_pos hbreak, hempty]
    exact ⟨hsent, rfl⟩
  · rw [if_neg hbreak]
    exact ⟨hsent, (sendFrame_state htx frame).resolve_left hbreak⟩

/-- The octets of a frame: the start code and the payload. -/
def octets (frame : Entry) : List UInt8 := frame.frame.data.read 0 (frame.frame.payloadSize + 1)

theorem Writes.start (htx : p.tx.frame = none)
    (hreply : isRdmDiscoverReply frame.frame.data = false) :
    ∃ e, e.frame.data = frame.frame.data ∧
      (p.transmitting frame).Writes e 0 (frame.frame.payloadSize + 1) := by
  obtain ⟨hloaded, hstate⟩ := transmitting_tx htx frame
  obtain ⟨flags, -, hflags⟩ := loadTx_plain (p := p) hreply
  rw [Nat.add_comm] at hflags
  exact ⟨⟨frame.id, { frame.frame with flags := flags }⟩, rfl, hloaded.trans hflags, .inl hstate⟩

end Port

open Port

/-- **The refusals of a run are clean just when nothing is being received
then.** -/
theorem refusals_iff (es : List Event) :
    EachStep step RefusesCleanly create es ↔ EachStep step RefusesQuietly create es :=
  eachStep_congr refusesCleanly_iff

/-- A discovery request is sent, and while its reply is awaited another
frame is to be sent. -/
def sendDuringDiscovery : List Event :=
  [.sendFrame someRequest, .transmitterEmpty none, .transmitterHasSpace (-1),
    .transmitterHasSpace (-1), .transmitterHasSpace (-1), .transmitterHasSpace (-1),
    .transmitterHasSpace (-1), .transmitterEmpty (some zeroFrame), .sendFrame zeroFrame]

/-- The discovery is given up. -/
theorem sendDuringDiscovery_not_clean :
    ¬ EachStep step RefusesCleanly create sendDuringDiscovery := by
  intro h
  have hclean := h (sendDuringDiscovery.take 8) (.sendFrame zeroFrame) (List.prefix_refl _)
  have hrx := (refusesCleanly_iff _ _).1 hclean zeroFrame rfl rfl
  have hsome : (run step create (sendDuringDiscovery.take 8)).rx.frame.isSome = true := rfl
  rw [hrx] at hsome
  contradiction

/-- **The octets of a frame are written in order, none twice and none left
out.** Behind any announcements of space a further one writes no more than
twelve octets and no more than there is space for, and it ends the
transmission just when all have been written. -/
theorem transmit_prefix (p : Port) (frame : Entry) (spaces : List ℤ) (n : ℤ)
    (htx : p.tx.frame = none) (hreply : isRdmDiscoverReply frame.frame.data = false)
    (hspaces : ∀ n ∈ spaces, IsSpace n) (hn : IsSpace n) :
    let r := (p.transmitting frame).handleAll (spaces.map .transmitterHasSpace)
    written r.2 ++ written (r.1.transmitterHasSpace n).2 <+: octets frame ∧
      (written (r.1.transmitterHasSpace n).2).length ≤ 12 ∧
      (n ≠ -1 → (written (r.1.transmitterHasSpace n).2).length ≤ n) ∧
      ((r.1.transmitterHasSpace n).1.state = .waitForTxComplete ↔ written r.2 = octets frame) := by
  intro r
  obtain ⟨e, hdata, hstart⟩ := Writes.start htx hreply
  obtain ⟨c, hc, hwritten, hwrites⟩ := hstart.hasSpaces hspaces
  obtain ⟨hnext, -, hend⟩ := hwrites.hasSpace hn
  rw [hdata, Nat.zero_add] at hnext
  rw [hdata] at hwritten
  rw [show written r.2 = _ from hwritten, hnext, Mem.length_read]
  have htaken : spaceTaken (frame.frame.payloadSize + 1 - c) n ≤ frame.frame.payloadSize + 1 - c :=
    spaceTaken_le
  refine ⟨?_, ?_, ?_, hend.trans ⟨fun h => ?_, fun h => ?_⟩⟩
  · have happend := Mem.read_add (m := frame.frame.data) (p := 0) (n := c)
      (k := spaceTaken (frame.frame.payloadSize + 1 - c) n)
    rw [Nat.zero_add] at happend
    rw [← happend]
    exact Mem.read_prefix (by omega)
  · exact Nat.min_le_left _ _
  · intro hknown
    unfold spaceTaken
    rcases hn with rfl | ⟨hlow, -⟩
    · exact absurd rfl hknown
    · rw [if_neg hknown]
      omega
  · rw [octets, show c = frame.frame.payloadSize + 1 by omega]
  · have hlen := congrArg List.length h
    rw [octets, Mem.length_read, Mem.length_read] at hlen
    omega

/-- Four octets, of which two are written. -/
def fourOctets : Entry := ⟨1, 0, ⟨false, false, false, 0⟩, 0, 3, fun i => UInt8.ofNat i⟩

theorem transmit_prefix_fourOctets :
    let r := (create.transmitting fourOctets).handleAll ([2].map .transmitterHasSpace)
    written r.2 ++ written (r.1.transmitterHasSpace (-1)).2 <+: [0, 1, 2, 3] ∧
      written r.2 = [0, 1] ∧
      ¬ (r.1.transmitterHasSpace (-1)).1.state = .waitForTxComplete := by
  obtain ⟨hleading, -, -, hend⟩ := transmit_prefix create fourOctets [2] (-1) rfl (by decide) (by simp [IsSpace]) (.inl rfl)
  have htwo : written ((create.transmitting fourOctets).handleAll
      ([2].map .transmitterHasSpace)).2 = [0, 1] := by decide
  refine ⟨hleading, htwo, fun hstate => ?_⟩
  have hall := hend.1 hstate
  rw [htwo] at hall
  exact absurd hall (by decide)

end Rtuart

end Dmx4Linux2
