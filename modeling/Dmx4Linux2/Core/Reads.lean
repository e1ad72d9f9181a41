import Dmx4Linux2.Cuse.Model.Daemon
import Dmx4Linux2.Kernel.Model.Core
import Dmx4Linux2.Llgip.Model.Port
import Dmx4Linux2.Rtuart.Replies

/-!
# What is read of a frame that is sent

A frame is an object of fixed size that says itself how many octets of it
are to be sent. The cores take it from a client and pass it on as it is:
the kernel core to the DMX client of a UART, the CUSE core to the LLG
card. `readsWithin_iff` says for which frames neither driver reads behind
the data.
-/

namespace Dmx4Linux2

namespace Rtuart

namespace Port

variable {p q : Port} {frame e : Entry}

/-! ## The DMX client -/

/-- The positions that are read to find out what kind of frame it is, and
to encode a discovery response. -/
def loadReads (data : Mem) : List ℕ :=
  [dmxPosStartcode, rdmPosSubStartcode] ++
    if isRdm data then
      List.range' rdmPosCommandClass 4 ++
        if isRdmDiscoverReply data then List.range' rdmPosSrcUid 6 ++ List.range' 264 12 else []
    else []

/-- **The positions of a frame's data that are read to send it**: when it
is accepted, and from `tx.ptr` on as many as are passed to the UART. -/
def txReads (p : Port) : Event → List ℕ
  | .sendFrame frame => if p.tx.frame.isSome then [] else loadReads frame.frame.data
  | .transmitterHasSpace n =>
    List.range' (p.tx.ptr.getD 0) (written (p.transmitterHasSpace n).2).length
  | .transmitterEmpty _ | .receiverDataAvailable .. | .lineStatusEvent .. | .rdmTimeout => []

theorem txReads_hasSpace (n : ℤ) : p.txReads (.transmitterHasSpace n) =
    List.range' (p.tx.ptr.getD 0) (written (p.transmitterHasSpace n).2).length := rfl

/-- What is passed to the UART is the first of what is left. -/
theorem written_leads (htx : p.tx.frame = some e) {ptr : ℕ} (hptr : p.tx.ptr = some ptr) {n : ℤ}
    (hn : IsInt n) : written (p.transmitterHasSpace n).2 <+: e.frame.data.read ptr p.tx.remain := by
  have hall := transmitterHasSpace_written (p := p) hn
  rw [show p.pending = e.frame.data.read ptr p.tx.remain by unfold pending; rw [htx, hptr]] at hall
  exact ⟨_, hall⟩

/-- **What is written is what is read.** -/
theorem written_eq_reads (htx : p.tx.frame = some e) {ptr : ℕ} (hptr : p.tx.ptr = some ptr) {n : ℤ}
    (hn : IsInt n) : written (p.transmitterHasSpace n).2 =
      (p.txReads (.transmitterHasSpace n)).map e.frame.data := by
  have hleading := written_leads htx hptr hn
  have hle := hleading.length_le
  rw [Mem.length_read] at hle
  have hread : (p.txReads (.transmitterHasSpace n)).map e.frame.data =
      e.frame.data.read ptr (written (p.transmitterHasSpace n).2).length := by
    rw [txReads_hasSpace, hptr, Option.getD_some, List.range'_eq_map_range, List.map_map]
    rfl
  rw [hread]
  exact List.prefix_of_prefix_length_le hleading (Mem.read_prefix hle) (by simp) |>.eq_of_length
    (by simp)

theorem loadReads_le (data : Mem) : ∀ i ∈ loadReads data, i ≤ 512 := by
  have hrange : ∀ s n, s + n ≤ 513 → ∀ i ∈ List.range' s n, i ≤ 512 := by
    intro s n hle i hi
    have hlt := (List.mem_range'_1.1 hi).2
    omega
  intro i hi
  unfold loadReads at hi
  rcases List.mem_append.1 hi with hhead | hrest
  · simp only [dmxPosStartcode, rdmPosSubStartcode, List.mem_cons, List.not_mem_nil, or_false] at hhead
    omega
  · split at hrest
    · rcases List.mem_append.1 hrest with hkind | hreply
      · exact hrange _ _ (by decide) i hkind
      · split at hreply
        · rcases List.mem_append.1 hreply with huid | hsum
          · exact hrange _ _ (by decide) i huid
          · exact hrange _ _ (by decide) i hsum
        · contradiction
    · contradiction

/-- What is left of the frame in the slot lies in its data. -/
def TxWithin (p : Port) : Prop :=
  p.tx.frame.isSome = true → ∃ ptr, p.tx.ptr = some ptr ∧ ptr + p.tx.remain ≤ 513

theorem TxWithin.of_eq (h : p.TxWithin) (htx : q.tx = p.tx) : q.TxWithin := by
  unfold TxWithin
  rw [htx]
  exact h

theorem TxWithin.of_none (htx : q.tx.frame = none) : q.TxWithin := by
  intro hsome
  rw [htx] at hsome
  contradiction

/-- What is passed to the UART leaves the rest where it was. -/
theorem TxWithin.transmitterHasSpace (h : p.TxWithin) {n : ℤ} (hn : IsInt n) :
    (p.transmitterHasSpace n).1.TxWithin := by
  unfold IsInt at hn
  unfold Port.transmitterHasSpace
  split
  · exact h
  · exact TxWithin.of_none checkoutTxFrame_frame
  · next ptr he hptr =>
    split
    · exact h
    split
    · intro _
      obtain ⟨ptr', hptr', hle⟩ := h (by rw [he]; rfl)
      obtain rfl : ptr = ptr' := Option.some.inj (hptr.symm.trans hptr')
      refine ⟨_, rfl, ?_⟩
      dsimp only
      split_ifs <;> omega
    · exact h

/-- A slot that is empty stays so until a frame is sent. -/
theorem step_tx_none (htx : p.tx.frame = none) {e : Event} (he : ∀ frame, e ≠ .sendFrame frame) :
    (p.step e).tx.frame = none := by
  cases e with
  | sendFrame frame => exact absurd rfl (he frame)
  | transmitterHasSpace n =>
    show (p.transmitterHasSpace n).1.tx.frame = none
    unfold Port.transmitterHasSpace
    rw [htx]
    exact htx
  | transmitterEmpty got =>
    show (p.transmitterEmpty got).1.tx.frame = none
    unfold Port.transmitterEmpty
    split
    · exact htx
    split
    · exact htx
    · rw [htx]
      exact checkoutTxFrame_frame
  | receiverDataAvailable count fifo =>
    have hview : p.view.tx = none := Option.map_eq_none_iff.2 htx
    have hnone : (p.receiverDataAvailable count fifo).1.view.tx = none := by
      rcases receiverDataAvailable_outcome (p := p) count fifo with
        ⟨-, hout⟩ | ⟨-, -, hout⟩ | ⟨-, state, -, -, hout | ⟨hout, -⟩⟩
      · exact (congrArg (fun r => View.tx r.1) hout).trans hview
      · exact (congrArg (fun r => View.tx r.1) hout).trans hview
      · exact (congrArg (fun r => View.tx r.1) hout).trans hview
      · exact congrArg View.tx hout
    exact Option.map_eq_none_iff.1 hnone
  | lineStatusEvent isBreak got =>
    show (p.lineStatusEvent isBreak got).1.tx.frame = none
    unfold Port.lineStatusEvent
    split
    · exact htx
    split
    · dsimp only
      split
      · rw [handleBreak_tx, flushRx_tx]
        exact htx
      · rw [handleBreak_tx]
        exact htx
    · exact htx
  | rdmTimeout =>
    show p.handleRdmTimeout.1.tx.frame = none
    unfold Port.handleRdmTimeout
    rw [htx]
    exact htx

/-- What a port is told while it sends: anything but another frame, and
space as an `int`. -/
def Sending : Event → Prop
  | .sendFrame _ => False
  | .transmitterHasSpace n => IsInt n
  | .transmitterEmpty _ | .receiverDataAvailable .. | .lineStatusEvent .. | .rdmTimeout => True

theorem TxWithin.step (h : p.TxWithin) {e : Event} (he : Sending e) : (p.step e).TxWithin := by
  by_cases hspace : ∃ n, e = .transmitterHasSpace n
  · obtain ⟨n, rfl⟩ := hspace
    exact h.transmitterHasSpace he
  cases hf : p.tx.frame with
  | none =>
    refine TxWithin.of_none (step_tx_none hf ?_)
    rintro frame rfl
    exact he
  | some request =>
    cases handle_txStep hf (not_exists.1 hspace) with
    | kept hkept _ => exact h.of_eq hkept
    | sent hsent _ => exact h.of_eq hsent
    | given hnone _ => exact TxWithin.of_none hnone
    | answered hnone _ _ => exact TxWithin.of_none hnone

/-- The reads of a callback lie in the data. -/
def ReadsData (p : Port) (e : Event) : Prop := ∀ i ∈ p.txReads e, i ≤ 512

theorem TxWithin.readsData (h : p.TxWithin) {e : Event} (he : Sending e) : p.ReadsData e := by
  cases e with
  | sendFrame frame => exact absurd he id
  | transmitterHasSpace n =>
    intro i hi
    cases hf : p.tx.frame with
    | none =>
      have hquiet : (p.transmitterHasSpace n).2 = [] := by
        unfold Port.transmitterHasSpace
        rw [hf]
      rw [txReads_hasSpace, hquiet] at hi
      contradiction
    | some request =>
      obtain ⟨ptr, hptr, hle⟩ := h (by rw [hf]; rfl)
      have hlen := (written_leads hf hptr he).length_le
      rw [Mem.length_read] at hlen
      rw [txReads_hasSpace, hptr, Option.getD_some] at hi
      have hlt := (List.mem_range'_1.1 hi).2
      omega
  | transmitterEmpty got => exact nofun
  | receiverDataAvailable count fifo => exact nofun
  | lineStatusEvent isBreak got => exact nofun
  | rdmTimeout => exact nofun

theorem sendFrame_within (htx : p.tx.frame = none)
    (hframe : frame.frame.payloadSize ≤ 512 ∨ isRdmDiscoverReply frame.frame.data = true) :
    (p.step (.sendFrame frame)).TxWithin := by
  intro _
  show ∃ ptr, (p.sendFrame frame).1.tx.ptr = some ptr ∧ ptr + (p.sendFrame frame).1.tx.remain ≤ 513
  rw [sendFrame_tx htx]
  by_cases hreply : isRdmDiscoverReply frame.frame.data = true
  · rw [loadTx_reply hreply]
    exact ⟨256, rfl, by norm_num⟩
  · rw [Bool.not_eq_true] at hreply
    obtain ⟨flags, -, hload⟩ := loadTx_plain (p := p) hreply
    have hle := hframe.resolve_right (by rw [hreply]; decide)
    rw [hload]
    refine ⟨0, rfl, ?_⟩
    dsimp only
    omega

/-- A frame is passed to the UART twelve octets at a time. -/
theorem Writes.full {done remain k : ℕ} (h : p.Writes e done remain) (hk : 12 * k ≤ remain) :
    (run step p (List.replicate k (.transmitterHasSpace (-1)))).Writes e (done + 12 * k)
      (remain - 12 * k) := by
  induction k generalizing p done remain with
  | zero => exact h
  | succ k ih =>
    obtain ⟨-, hnext, -⟩ := h.hasSpace (.inl rfl)
    have htaken : spaceTaken remain (-1) = 12 := by
      unfold spaceTaken
      rw [if_pos rfl]
      omega
    rw [htaken] at hnext
    have hrest := ih hnext (by omega)
    rw [List.replicate_succ, run_cons, show done + 12 * (k + 1) = done + 12 + 12 * k by omega,
      show remain - 12 * (k + 1) = remain - 12 - 12 * k by omega]
    exact hrest

/-- A frame that says it is longer is read behind its data. -/
theorem not_readsData (htx : p.tx.frame = none) (hsize : 512 < frame.frame.payloadSize)
    (hreply : isRdmDiscoverReply frame.frame.data = false) :
    ∃ es, (∀ e ∈ es, Sending e) ∧ ¬ EachStep step ReadsData p (.sendFrame frame :: es) := by
  obtain ⟨e, -, hwrites⟩ := Writes.start htx hreply
  -- the break, if there is one
  obtain ⟨brk, hbrk, hstart⟩ : ∃ brk : List Event, (∀ e ∈ brk, Sending e) ∧
      run step (p.step (.sendFrame frame)) brk = p.transmitting frame := by
    by_cases hbreak : (p.step (.sendFrame frame)).state = .transmitBreak
    · refine ⟨[.transmitterEmpty none], by simp [Sending], ?_⟩
      unfold transmitting
      rw [if_pos hbreak]
      rfl
    · refine ⟨[], nofun, ?_⟩
      unfold transmitting
      rw [if_neg hbreak]
      rfl
  refine ⟨brk ++ List.replicate 43 (.transmitterHasSpace (-1)), ?_, fun h => ?_⟩
  · intro e' he'
    rcases List.mem_append.1 he' with hb | hs
    · exact hbrk e' hb
    · rw [List.eq_of_mem_replicate hs]
      unfold Sending IsInt
      norm_num
  · -- the 43rd part begins at 504
    have hfull := hwrites.full (k := 42) (by omega)
    have hstep := h (.sendFrame frame :: (brk ++ List.replicate 42 (.transmitterHasSpace (-1))))
      (.transmitterHasSpace (-1)) (by
        rw [List.cons_append, List.append_assoc]
        exact List.prefix_rfl)
    rw [run_cons, run_append, hstart] at hstep
    obtain ⟨hwritten, -, -⟩ := hfull.hasSpace (n := -1) (.inl rfl)
    have hptr : (run step (p.transmitting frame)
        (List.replicate 42 (.transmitterHasSpace (-1)))).tx.ptr = some (0 + 12 * 42) := by
      rw [hfull.tx]
    have hmem : 513 ∈ (run step (p.transmitting frame)
        (List.replicate 42 (.transmitterHasSpace (-1)))).txReads (.transmitterHasSpace (-1)) := by
      rw [txReads_hasSpace, hptr, hwritten, Mem.length_read, Option.getD_some]
      refine List.mem_range'_1.2 ⟨by omega, ?_⟩
      unfold spaceTaken
      rw [if_pos rfl]
      omega
    have hle := hstep 513 hmem
    omega

/-- **The client reads only the data of a frame** just when the frame says
that it has no more, or is a discovery response. -/
theorem clientReads_iff (frame : Entry) : (∀ (p : Port) (es : List Event), p.tx.frame = none →
      (∀ e ∈ es, Sending e) → EachStep step ReadsData p (.sendFrame frame :: es)) ↔
    frame.frame.payloadSize ≤ 512 ∨ isRdmDiscoverReply frame.frame.data = true := by
  constructor
  · intro h
    by_contra hnot
    obtain ⟨hsize, hreply⟩ := not_or.1 hnot
    obtain ⟨es, hsending, hbad⟩ := not_readsData (p := create) rfl (by omega)
      (Bool.not_eq_true _ ▸ hreply)
    exact hbad (h create es rfl hsending)
  · intro hframe p es htx hsending
    refine eachStep_cons.2 ⟨?_, ?_⟩
    · intro i hi
      have hload : p.txReads (.sendFrame frame) = loadReads frame.frame.data := by
        show (if p.tx.frame.isSome then [] else loadReads frame.frame.data) = _
        rw [htx]
        rfl
      rw [hload] at hi
      exact loadReads_le _ i hi
    · have hall : EachStep step (fun _ e => Sending e) (p.step (.sendFrame frame)) es :=
        fun pre e hpre => hsending e (hpre.subset (by simp))
      have hstep : ∀ (q : Port) (e : Event), Sending e → q.TxWithin → (q.step e).TxWithin :=
        fun q e he hq => hq.step he
      have hreads : ∀ (q : Port) (e : Event), q.TxWithin → Sending e → q.ReadsData e :=
        fun q e hq he => hq.readsData he
      exact eachStep_of_always hreads
        (always_of_eachStep hstep hall (sendFrame_within htx hframe)) hall

end Port

end Rtuart

/-! ## The LLG card -/

namespace Llgip

/-- The positions of a frame's data that `dmxllgip_sendFrame` reads. A
frame that it refuses is logged with its start code. -/
def sendReads (uio : Bool) (frame : Frame) : List ℕ :=
  if uio ∧ frame.port < 20 ∧ frame.payloadSize > 0 then 0 :: List.range' 1 frame.payloadSize
  else [0]

/-- **What is written is what is read.** -/
theorem sendFrame_eq_reads {uio : Bool} {frame : Frame} (h : (sendFrame uio frame).1 = 0) :
    (sendFrame uio frame).2.tail =
      (sendReads uio frame).map fun i => (frame.data i).toNat := by
  unfold sendFrame sendReads at *
  split at h
  · rw [if_pos ‹_›, if_pos ‹_›]
    unfold llSendFrame Mem.read
    rw [List.map_cons, List.range'_eq_map_range, List.map_map, List.map_map]
    rfl
  · contradiction

/-- The card reads only the data of a frame just when the frame says that
it has no more, or is refused for its port. -/
theorem cardReads_iff (frame : Frame) : (∀ uio, ∀ i ∈ sendReads uio frame, i ≤ 512) ↔
    frame.payloadSize ≤ 512 ∨ 20 ≤ frame.port := by
  constructor
  · intro h
    by_contra hnot
    obtain ⟨hsize, hport⟩ := not_or.1 hnot
    have hmem : 513 ∈ sendReads true frame := by
      unfold sendReads
      rw [if_pos ⟨rfl, by omega, by omega⟩]
      exact List.mem_cons_of_mem _ (List.mem_range'_1.2 (by omega))
    have hle := h true 513 hmem
    omega
  · intro hframe uio i hi
    unfold sendReads at hi
    split at hi
    · next hsent =>
      rcases List.mem_cons.1 hi with rfl | hrange
      · omega
      · have hlt := (List.mem_range'_1.1 hrange).2
        omega
    · rw [List.mem_singleton.1 hi]
      omega

end Llgip

/-! ## Frames of a client -/

namespace Core

variable {f : Frame}

/-- The data of a frame, with whatever lies behind them. -/
def Frame.mem (f : Frame) (behind : Mem) : Mem := fun i =>
  if h : i < 513 then f.data[i] else behind i

/-- A frame as the DMX client has it. -/
def Frame.toRtuart (f : Frame) (behind : Mem) : Rtuart.Frame where
  port := f.port.toNat
  flags := ⟨f.flags &&& 1 != 0, f.flags &&& 64 != 0, f.flags &&& 128 != 0, f.flags &&& 0xFF3E⟩
  breaksize := f.breaksize.toNat
  payloadSize := f.payloadSize.toNat
  data := f.mem behind

/-- A frame as the LLG card has it. -/
def Frame.toLlgip (f : Frame) (unused : UInt8) (behind : Mem) : Llgip.Frame where
  port := f.port.toNat
  flags := f.flags.toNat
  breaksize := f.breaksize
  unused := unused
  payloadSize := f.payloadSize.toNat
  data := f.mem behind

variable {δ π : Type} [DecidableEq δ] [DecidableEq π]

/-- The dummy driver passes a frame on at once. -/
theorem dummySendFrame_hands {s : Kernel.State δ π} (port : π) (e : Entry) :
    (s.dummySendFrame port e).hands = s.hands := by
  unfold Kernel.State.dummySendFrame
  split
  · rfl
  · next dst _ =>
    unfold Kernel.State.receivedFrame
    dsimp only
    cases (s.ports dst).device <;> rfl

/-- **The kernel core hands over what was written**, if it hands over
anything. -/
theorem deviceWrite_hands {s : Kernel.State δ π} {dev : δ} {size : ℕ} {space : Bool} {e : Entry}
    (h : (s.deviceWrite dev size (.done f) space).2.hands = s.hands ++ [e]) : e.frame = f := by
  have hkeep : ¬ s.hands = s.hands ++ [e] := by simp
  unfold Kernel.State.deviceWrite at h
  split at h
  · exact absurd h hkeep
  · next e' pool hpool =>
    unfold Kernel.State.writeRest at h
    split at h
    · exact absurd h hkeep
    dsimp only at h
    split at h
    · exact absurd h hkeep
    · next port hport =>
      split at h
      · exact absurd h hkeep
      · unfold Kernel.State.sendFrame at h
        split at h
        · exact absurd ((dummySendFrame_hands _ _).symm.trans h) hkeep
        · have heq := List.append_cancel_left h
          rw [← List.singleton_inj.1 heq]

/-- A write that is handed over to a driver. -/
theorem exists_handsOver (δ π : Type) [DecidableEq δ] [DecidableEq π] [Inhabited δ] [Inhabited π]
    (f : Frame) : ∃ (s : Kernel.State δ π) (dev : δ) (size : ℕ) (space : Bool) (e : Entry),
      (s.deviceWrite dev size (.done f) space).2.hands = s.hands ++ [e] := by
  let s : Kernel.State δ π := ⟨[⟨0, f⟩], [], fun _ => ⟨true, List.replicate (f.port.toNat + 1) default, []⟩,
    fun _ => ⟨some default, .driver, false, none⟩, []⟩
  refine ⟨s, default, sizeofFrame, true, ⟨0, f⟩, ?_⟩
  unfold Kernel.State.deviceWrite Kernel.State.writeRest Kernel.State.portByIndex
  dsimp only [s]
  rw [if_neg (lt_irrefl _), List.getElem?_replicate_of_lt (Nat.lt_succ_self _)]
  rfl

/-- **A frame is read only in its data**, on every path it is sent on: by
the DMX client that the kernel core hands it over to, and by the LLG card
that the CUSE core does. -/
def ReadsWithin (δ π : Type) [DecidableEq δ] [DecidableEq π] (f : Frame) : Prop :=
  (∀ (s : Kernel.State δ π) (dev : δ) (size : ℕ) (space : Bool) (e : Entry),
    (s.deviceWrite dev size (.done f) space).2.hands = s.hands ++ [e] →
    ∀ (behind : Mem) (p : Rtuart.Port) (es : List Rtuart.Event), p.tx.frame = none →
      (∀ e ∈ es, Rtuart.Port.Sending e) →
      EachStep Rtuart.Port.step Rtuart.Port.ReadsData p
        (.sendFrame ⟨e.id, e.frame.toRtuart behind⟩ :: es)) ∧
  ∀ (unused : UInt8) (behind : Mem) (uio : Bool),
    ∀ i ∈ Llgip.sendReads uio ((Cuse.Daemon.transmitted f).toLlgip unused behind), i ≤ 512

theorem isRdmDiscoverReply_mem (f : Frame) (behind : Mem) :
    Rtuart.isRdmDiscoverReply (f.mem behind) = Rtuart.isRdmDiscoverReply (f.mem fun _ => 0) := by
  rfl

/-- **A frame is read only in its data just when it says that it has no
more**, or is a discovery response for a port that the card does not
have. -/
theorem readsWithin_iff (δ π : Type) [DecidableEq δ] [DecidableEq π] [Inhabited δ] [Inhabited π]
    (f : Frame) : ReadsWithin δ π f ↔ f.payloadSize.toNat ≤ 512 ∨
      (Rtuart.isRdmDiscoverReply (f.mem fun _ => 0) = true ∧ 20 ≤ f.port.toNat) := by
  constructor
  · rintro ⟨hdriver, hcard⟩
    obtain ⟨s, dev, size, space, e, he⟩ := exists_handsOver δ π f
    have hframe := deviceWrite_hands he
    have hrtuart := (Rtuart.Port.clientReads_iff ⟨e.id, e.frame.toRtuart fun _ => 0⟩).1
      (hdriver s dev size space e he fun _ => 0)
    rw [hframe] at hrtuart
    have hllgip := (Llgip.cardReads_iff _).1 (hcard 0 fun _ => 0)
    rcases hrtuart with hsize | hreply
    · exact .inl hsize
    · exact hllgip.imp id fun hport => ⟨hreply, hport⟩
  · intro hframe
    constructor
    · intro s dev size space e he behind
      rw [deviceWrite_hands he]
      refine (Rtuart.Port.clientReads_iff _).2 (hframe.imp id fun h => ?_)
      exact (isRdmDiscoverReply_mem f behind).trans h.1
    · exact fun unused behind => (Llgip.cardReads_iff _).2 (hframe.imp id fun h => h.2)

/-- A frame that says it has one octet more than there is room for. -/
def overlongFrame : Frame where
  port := 0
  flags := 0
  breaksize := 22
  payloadSize := 513
  data := Vector.replicate 513 0
  timestamp := ⟨0, 0⟩
  backTimestamp := ⟨0, 0⟩

/-- The card reads behind it. -/
theorem overlongFrame_not_readsWithin : ¬ ReadsWithin ℕ ℕ overlongFrame := by
  rintro ⟨-, hcard⟩
  rcases (Llgip.cardReads_iff _).1 (hcard 0 fun _ => 0) with hsize | hport
  · exact absurd hsize (by decide)
  · exact absurd hport (by decide)

end Core

end Dmx4Linux2
