import Dmx4Linux2.Common.Run
import Dmx4Linux2.Dmxrtuart.Transmitter

/-!
# rtuart — how the pc16c550 sends a buffer

A buffer is sent over many interrupts, between which others come in any
order. What the driver does with the transmitter follows a script:
`tx_start`, the octets of the buffer in order, `tx_end1`, `tx_end2`. A
transmission is in one of three stages, in which the script has come to an
octet, behind the last one or to its end, and only THRE and an empty
transmitter lead from one to the next.
-/

namespace Dmx4Linux2

namespace Dmxrtuart

namespace Pc16c550

open Mask (Has)

variable {s t : Pc16c550} {e : Seen} {p : ℕ}

/-! ## What a transmission is -/

/-- **The script of a transmission.** -/
def script (p : ℕ) (cs : List UInt8) : List Action :=
  .call (.txStart p) :: cs.map (.write .thr) ++
    [.call (.txEnd1 (some p)), .call (.txEnd2 (some p))]

/-- **A transmission as it is to be**, in every state. -/
structure Transmits (p : ℕ) (cs : List UInt8) (s : Pc16c550) : Prop where
  inScript : transmitted s.trace <+: script p cs
  inOrder : octets s.trace <+: cs
  started : .call (.txStart p) ∈ s.trace ↔ octets s.trace ≠ []
  ended : .call (.txEnd1 (some p)) ∈ s.trace ↔ octets s.trace = cs
  emptied : .call (.txEnd2 (some p)) ∈ s.trace → ∃ before lsr after,
    s.trace = before ++ .read .lsr lsr :: .call (.txEnd2 (some p)) :: after ∧
      octets before = cs ∧ lsr &&& lsrTransmitterEmpty ≠ 0

/-- **What an interrupt does for it**: the octets come with THRE, not more
than sixteen and not less than eight while there are some, and `tx_end2`
with the first that finds the transmitter empty. -/
structure Serves (p : ℕ) (cs : List UInt8) (s : Pc16c550) (e : Seen) : Prop where
  sixteen : (octets (s.step e).trace).length ≤ (octets s.trace).length + 16
  thre : octets (s.step e).trace ≠ octets s.trace → handled s e = some .transmitterHoldingEmpty
  fills : handled s e = some .transmitterHoldingEmpty →
    octets (s.step e).trace = cs.take ((octets s.trace).length + 8)
  empties : handled s e = some .none → octets s.trace = cs →
    e.lsr &&& lsrTransmitterEmpty ≠ 0 → .call (.txEnd2 (some p)) ∈ (s.step e).trace

/-! ## Octets for THR -/

/-- **A buffer that can be sent**, with its data. -/
structure Sendable (b : RtuartBuffer) (data : Mem) : Prop where
  data_eq : b.data = some data
  pos : 1 ≤ b.validcount
  le_size : b.validcount ≤ b.size

variable {b : RtuartBuffer} {data : Mem} {i k : ℕ}

theorem Sendable.isComplete_iff (hb : Sendable b data) :
    { b with transfered := k }.isComplete = true ↔ b.validcount ≤ k := by
  have hsize := hb.le_size
  simp only [RtuartBuffer.isComplete, Bool.or_eq_true, decide_eq_true_eq]
  omega

/-- The `i` octets of the buffer from `k` on are written. -/
structure Copied (p : ℕ) (b : RtuartBuffer) (data : Mem) (k i : ℕ) (s t : Pc16c550) : Prop where
  txBuffer : t.txBuffer = s.txBuffer
  rxBuffer : t.rxBuffer = s.rxBuffer
  notifyMask : t.notifyMask = s.notifyMask
  buffer : t.buffers p = { b with transfered := k + i }
  trace : t.trace = s.trace ++ (data.read k i).map (.write .thr)

theorem Copied.zero (hs : s.buffers p = { b with transfered := k }) : Copied p b data k 0 s s :=
  ⟨rfl, rfl, rfl, hs, by simp⟩

/-- An octet more, in front. -/
theorem Copied.succ (hb : Sendable b data) (hs : s.buffers p = { b with transfered := k })
    (h : Copied p b data (k + 1) i (s.sendOctet p) t) : Copied p b data k (i + 1) s t where
  txBuffer := h.txBuffer
  rxBuffer := h.rxBuffer
  notifyMask := h.notifyMask
  buffer := by rw [h.buffer, show k + 1 + i = k + (i + 1) by omega]
  trace := by
    have hoctet : (s.sendOctet p).trace = s.trace ++ [.write .thr (data k)] := by
      simp [sendOctet, act, setBuffer, hs, RtuartBuffer.octet, hb.data_eq]
    rw [h.trace, hoctet, Mem.read_succ, List.append_assoc]
    rfl

/-- **The octets that are copied**: as many as may be, from those left. -/
theorem copied_copyOctets (hb : Sendable b data) {n : ℕ} (hk : k ≤ b.validcount)
    (hs : s.buffers p = { b with transfered := k }) :
    (s.copyOctets p n).1 = min n (b.validcount - k) ∧
      Copied p b data k (min n (b.validcount - k)) s (s.copyOctets p n).2 := by
  have hsize := hb.le_size
  induction n generalizing s k with
  | zero =>
    rw [Nat.zero_min]
    exact ⟨rfl, .zero hs⟩
  | succ n ih =>
    rw [copyOctets]
    simp only [hs]
    split
    · next hend =>
      rw [show min (n + 1) (b.validcount - k) = 0 by omega]
      exact ⟨rfl, .zero hs⟩
    · next hmore =>
      have hsent : (s.sendOctet p).buffers p = { b with transfered := k + 1 } := by
        simp [sendOctet, act, setBuffer, hs]
      obtain ⟨hcount, hcopied⟩ := ih (k := k + 1) (by omega) hsent
      rw [show min (n + 1) (b.validcount - k) = min n (b.validcount - (k + 1)) + 1 by omega]
      exact ⟨by rw [hcount], .succ hb hs hcopied⟩

/-! ## The stages of a transmission -/

/-- The script up to an octet. -/
def begun (p : ℕ) (data : Mem) (k : ℕ) : List Action :=
  .call (.txStart p) :: (data.read 0 k).map (.write .thr)

/-- The buffer is being sent, and `k` of its octets are written. -/
structure Loaded (p : ℕ) (b : RtuartBuffer) (k : ℕ) (s : Pc16c550) : Prop where
  txBuffer : s.txBuffer = some p
  buffer : s.buffers p = { b with transfered := k }
  rxBuffer : s.rxBuffer ≠ some p
  ready : Has s.notifyMask 0

/-- There are octets left. -/
structure Sending (p : ℕ) (b : RtuartBuffer) (data : Mem) (k : ℕ) (s : Pc16c550) : Prop
    extends Loaded p b k s where
  lt : k < b.validcount
  transmitted_eq : transmitted s.trace = if k = 0 then [] else begun p data k

/-- All octets are written, and the client waits for `tx_end2`. -/
structure Written (p : ℕ) (b : RtuartBuffer) (data : Mem) (s : Pc16c550) : Prop where
  txBuffer : s.txBuffer = some p
  buffer : s.buffers p = { b with transfered := b.validcount }
  rxBuffer : s.rxBuffer ≠ some p
  ready : ¬ Has s.notifyMask 0
  empty : Has s.notifyMask 1
  transmitted_eq :
    transmitted s.trace = begun p data b.validcount ++ [.call (.txEnd1 (some p))]

/-- The client was told the end. -/
structure Finished (p : ℕ) (b : RtuartBuffer) (data : Mem) (s : Pc16c550) : Prop where
  rxBuffer : s.rxBuffer ≠ some p
  ready : ¬ Has s.notifyMask 0
  empty : ¬ Has s.notifyMask 1
  transmitted_eq : transmitted s.trace = script p (data.read 0 b.validcount)
  emptied : ∃ before lsr after,
    s.trace = before ++ .read .lsr lsr :: .call (.txEnd2 (some p)) :: after ∧
      octets before = data.read 0 b.validcount ∧ lsr &&& lsrTransmitterEmpty ≠ 0

/-- **Where a transmission can be.** -/
inductive Stage (p : ℕ) (b : RtuartBuffer) (data : Mem) (s : Pc16c550) : Prop
  | sending (k : ℕ) (h : Sending p b data k s)
  | written (h : Written p b data s)
  | finished (h : Finished p b data s)

theorem Loaded.quiet (h : Loaded p b k s) (hq : Quiet p s t) : Loaded p b k t :=
  ⟨hq.txBuffer.trans h.txBuffer, hq.buffer.trans h.buffer, hq.rxBuffer h.rxBuffer,
    hq.ready.2 h.ready⟩

theorem Sending.quiet (h : Sending p b data k s) (hq : Quiet p s t) : Sending p b data k t :=
  ⟨h.toLoaded.quiet hq, h.lt, hq.transmitted_eq.trans h.transmitted_eq⟩

theorem Written.quiet (h : Written p b data s) (hq : Quiet p s t) : Written p b data t where
  txBuffer := hq.txBuffer.trans h.txBuffer
  buffer := hq.buffer.trans h.buffer
  rxBuffer := hq.rxBuffer h.rxBuffer
  ready := fun hr => h.ready (hq.ready.1 hr)
  empty := hq.empty.2 h.empty
  transmitted_eq := hq.transmitted_eq.trans h.transmitted_eq

theorem Finished.quiet (h : Finished p b data s) (hq : Quiet p s t) : Finished p b data t where
  rxBuffer := hq.rxBuffer h.rxBuffer
  ready := fun hr => h.ready (hq.ready.1 hr)
  empty := fun he => h.empty (hq.empty.1 he)
  transmitted_eq := hq.transmitted_eq.trans h.transmitted_eq
  emptied := by
    obtain ⟨before, lsr, after, htrace, hbefore, hlsr⟩ := h.emptied
    obtain ⟨as, has, -⟩ := hq.trace
    exact ⟨before, lsr, after ++ as, by rw [has, htrace]; simp, hbefore, hlsr⟩

theorem octets_begun : octets (begun p data k) = data.read 0 k := octets_map _

theorem octets_script (cs : List UInt8) : octets (script p cs) = cs := by
  rw [script, octets_append]
  exact (List.append_nil _).trans (octets_map cs)

theorem Sending.octets_eq (h : Sending p b data k s) : octets s.trace = data.read 0 k := by
  rw [← octets_transmitted, h.transmitted_eq]
  split
  · next hk => rw [hk]; rfl
  · exact octets_begun

theorem Written.octets_eq (h : Written p b data s) : octets s.trace = data.read 0 b.validcount := by
  rw [← octets_transmitted, h.transmitted_eq, octets_append, octets_begun]
  exact List.append_nil _

theorem Finished.octets_eq (h : Finished p b data s) :
    octets s.trace = data.read 0 b.validcount := by
  rw [← octets_transmitted, h.transmitted_eq, octets_script]

/-! ## THRE -/

theorem transmitted_octets (cs : List UInt8) :
    transmitted (cs.map (.write .thr)) = cs.map (.write .thr) := by
  refine List.filter_eq_self.2 fun a ha => ?_
  obtain ⟨c, -, rfl⟩ := List.mem_map.1 ha
  rfl

/-- The client is told of the start before the first octet. -/
theorem Sending.callTxStart (hc : Client p e) (h : Sending p b data k s) :
    Loaded p b k (s.callTxStart e) ∧ transmitted (s.callTxStart e).trace = begun p data k := by
  have htransmitted := h.transmitted_eq
  rw [Pc16c550.callTxStart, h.txBuffer]
  simp only [h.buffer]
  split
  · next hk =>
    -- nothing is written yet, and the callback comes first
    subst hk
    have hcall : Quiet p (s.act (.call (.txStart p))) (s.call e (.txStart p)) :=
      quiet_performs (hc.receives _ fun _ => by simp)
    have hacted : Loaded p b 0 (s.act (.call (.txStart p))) :=
      ⟨h.txBuffer, h.buffer, h.rxBuffer, h.ready⟩
    refine ⟨hacted.quiet hcall, ?_⟩
    rw [hcall.transmitted_eq, act, transmitted_append, htransmitted]
    rfl
  · next hk =>
    rw [if_neg hk] at htransmitted
    exact ⟨h.toLoaded, htransmitted⟩

theorem begun_add : begun p data (k + i) = begun p data k ++ (data.read k i).map (.write .thr) := by
  rw [begun, begun, Mem.read_add, List.map_append, Nat.zero_add]
  rfl

theorem Loaded.copy (hb : Sendable b data) (hk : k ≤ b.validcount) (h : Loaded p b k s)
    (htransmitted : transmitted s.trace = begun p data k) :
    Loaded p b (k + min 8 (b.validcount - k)) (s.copyFromBufferToTransmitter 16).2 ∧
      transmitted (s.copyFromBufferToTransmitter 16).2.trace =
        begun p data (k + min 8 (b.validcount - k)) := by
  rw [copyFromBufferToTransmitter, h.txBuffer]
  -- eight of the sixteen that there is space for
  have hcopied := (copied_copyOctets (n := 8) hb hk h.buffer).2
  refine ⟨⟨?_, hcopied.buffer, ?_, ?_⟩, ?_⟩
  · exact hcopied.txBuffer.trans h.txBuffer
  · rw [show (s.copyOctets p (min 16 8)).2.rxBuffer = s.rxBuffer from hcopied.rxBuffer]
    exact h.rxBuffer
  · rw [show (s.copyOctets p (min 16 8)).2.notifyMask = s.notifyMask from hcopied.notifyMask]
    exact h.ready
  · rw [begun_add, ← htransmitted, ← transmitted_octets, ← transmitted_append]
    exact congrArg transmitted hcopied.trace

theorem Loaded.txComplete_iff (hb : Sendable b data) (h : Loaded p b k s) :
    s.txComplete = true ↔ b.validcount ≤ k := by
  rw [txComplete, h.txBuffer, Option.all_some, h.buffer, hb.isComplete_iff]

/-- **The client is told once all is written**, and the buffer is kept. -/
theorem Loaded.callTxEnd1 (hb : Sendable b data) (hc : Client p e) (h : Loaded p b b.validcount s)
    (htransmitted : transmitted s.trace = begun p data b.validcount) :
    Written p b data (s.callTxEnd1 e) := by
  rw [Pc16c550.callTxEnd1, if_pos ((h.txComplete_iff hb).2 (le_refl _)), h.txBuffer]
  obtain ⟨hkeeps, hready, hempty⟩ :
      Keeps p ((s.release transmitterReady).act (.call (.txEnd1 (some p))))
        ((s.release transmitterReady).call e (.txEnd1 (some p))) ∧ _ ∧ _ := performs_end1 hc.end1
  have hnone : ((s.release transmitterReady).call e (.txEnd1 (some p))).txBuffer = none :=
    hkeeps.txBuffer
  -- the client asks for `tx_end2` and starts no buffer, so that this one is kept
  have hbit := hempty (.inr hc.empties)
  rw [if_pos ⟨hnone, notifies_empty_iff.2 hbit⟩]
  refine ⟨rfl, hkeeps.buffer.trans h.buffer, hkeeps.rxBuffer h.rxBuffer, ?_, hbit, ?_⟩
  · intro hhas
    have hcleared : Has (s.notifyMask &&& ~~~ transmitterReady) 0 := hready.1 hhas
    rw [Mask.has_and, Mask.has_not (by omega)] at hcleared
    exact hcleared.2 (by decide)
  · refine hkeeps.transmitted_eq.trans ?_
    rw [← htransmitted, act, transmitted_append]
    rfl

/-- The next octets: where some are left after them, the buffer goes on
being sent, and otherwise all of it is written. -/
theorem Sending.fillPass (hb : Sendable b data) (hc : Client p e) (h : Sending p b data k s) :
    (k + 8 < b.validcount ∧ Sending p b data (k + 8) (s.fillPass e 16).2) ∨
      (b.validcount ≤ k + 8 ∧ Written p b data (s.fillPass e 16).2) := by
  have hk := h.lt
  obtain ⟨hstarted, htransmitted⟩ := h.callTxStart hc
  obtain ⟨hloaded, hcopied⟩ := hstarted.copy hb hk.le htransmitted
  rw [Pc16c550.fillPass]
  rcases Nat.lt_or_ge (k + 8) b.validcount with hlt | hge
  · rw [show k + min 8 (b.validcount - k) = k + 8 by omega] at hloaded hcopied
    refine .inl ⟨hlt, ?_⟩
    have hmore : ¬ b.validcount ≤ k + 8 := by omega
    dsimp only
    rw [callTxEnd1, if_neg (mt (hloaded.txComplete_iff hb).1 hmore)]
    exact ⟨hloaded, hlt, by rw [hcopied, if_neg (by omega)]⟩
  · rw [show k + min 8 (b.validcount - k) = b.validcount by omega] at hloaded hcopied
    exact .inr ⟨hge, hloaded.callTxEnd1 hb hc hcopied⟩

/-- **THRE is served in one pass**: no buffer follows the one that is
sent. -/
theorem Sending.fill_eq (hb : Sendable b data) (hc : Client p e) (h : Sending p b data k s) :
    s.fill e 16 16 = (s.fillPass e 16).2 := by
  rw [fill]
  refine if_neg ?_
  rintro ⟨-, -, hready, hfirst⟩
  -- after the pass the buffer is under way, or the notification is off
  rcases h.fillPass hb hc with ⟨-, hnext⟩ | ⟨-, hwritten⟩
  · rw [hnext.txBuffer, Option.any_some, hnext.buffer] at hfirst
    simp at hfirst
  · exact hwritten.ready (notifies_ready_iff.1 hready)

/-- **The client is told that the transmitter is empty.** -/
theorem Written.callTxEnd2 (hc : Client p e) (h : Written p b data s) {before : List Action}
    {lsr : UInt8} (htrace : s.trace = before ++ [.read .lsr lsr])
    (hbefore : octets before = data.read 0 b.validcount) (hlsr : lsr &&& lsrTransmitterEmpty ≠ 0) :
    Finished p b data (s.callTxEnd2 e) := by
  rw [Pc16c550.callTxEnd2, h.txBuffer]
  have hq : Quiet p ((s.release transmitterEmpty).act (.call (.txEnd2 (some p))))
      ((s.release transmitterEmpty).call e (.txEnd2 (some p))) :=
    quiet_performs (hc.receives _ fun _ => by simp)
  have hnone : ((s.release transmitterEmpty).call e (.txEnd2 (some p))).txBuffer = none :=
    hq.txBuffer
  rw [if_neg (by simp [hnone])]
  refine Finished.quiet (s := (s.release transmitterEmpty).act (.call (.txEnd2 (some p))))
    ⟨h.rxBuffer, ?_, ?_, ?_, ?_⟩ hq
  · exact fun hhas => h.ready (Mask.has_and.1 hhas).1
  · intro hhas
    exact (Mask.has_not (by omega)).1 (Mask.has_and.1 hhas).2 (by decide)
  · refine (transmitted_append ..).trans ?_
    rw [show (s.release transmitterEmpty).trace = s.trace from rfl, h.transmitted_eq, script,
      begun, List.append_assoc]
    rfl
  · refine ⟨before, lsr, [], ?_, hbefore, hlsr⟩
    change s.trace ++ _ = _
    rw [htrace, List.append_assoc]
    rfl

/-- THRE while octets are left. -/
theorem Sending.step_thre (hb : Sendable b data) (hc : Client p e) (h : Sending p b data k s)
    (hcause : handled s e = some .transmitterHoldingEmpty) :
    (k + 8 < b.validcount ∧ Sending p b data (k + 8) (s.step e)) ∨
      (b.validcount ≤ k + 8 ∧ Written p b data (s.step e)) := by
  obtain ⟨hiir, hstep⟩ := step_of_handled hcause
  have hread : Sending p b data k (s.entered.updateIirAndLsr e) :=
    h.quiet quiet_read
  rw [hstep, dispatch, updateIirAndLsr_iir, ← hiir]
  dsimp only
  rw [if_pos (notifies_ready_iff.2 hread.ready), hread.fill_eq hb hc]
  rcases hread.fillPass hb hc with ⟨hlt, hnext⟩ | ⟨hge, hwritten⟩
  · exact .inl ⟨hlt, hnext.quiet quiet_next⟩
  · exact .inr ⟨hge, hwritten.quiet quiet_next⟩

/-- Everything else while octets are left. -/
theorem Sending.quiet_step (hb : Sendable b data) (hc : Client p e) (h : Sending p b data k s)
    (hcause : handled s e ≠ some .transmitterHoldingEmpty) : Quiet p s (s.step e) := by
  refine Pc16c550.quiet_step hc h.rxBuffer (fun hthre => absurd hthre hcause) ?_
  intro _ _ _ hcomplete
  have hread : Loaded p b k (s.entered.updateIirAndLsr e) :=
    h.toLoaded.quiet quiet_read
  have hlt := h.lt
  have hle := (hread.txComplete_iff hb).1 hcomplete
  omega

/-- No cause, and an empty transmitter behind the last octet. -/
theorem Written.step_empty (hb : Sendable b data) (hc : Client p e) (h : Written p b data s)
    (hcause : handled s e = some .none) (hlsr : e.lsr &&& lsrTransmitterEmpty ≠ 0) :
    Finished p b data (s.step e) := by
  obtain ⟨hiir, hstep⟩ := step_of_handled hcause
  have hread : Written p b data (s.entered.updateIirAndLsr e) :=
    h.quiet quiet_read
  obtain ⟨hlsr', htrace⟩ := updateIirAndLsr_of_none (s := s.entered) hiir.symm
  have hcomplete : (s.entered.updateIirAndLsr e).txComplete = true := by
    rw [txComplete, hread.txBuffer, Option.all_some, hread.buffer, hb.isComplete_iff]
  have hbefore : octets (s.entered.trace ++ [.read .iir e.iir]) = data.read 0 b.validcount := by
    rw [octets_append, entered_trace, h.octets_eq]
    exact List.append_nil _
  rw [hstep, dispatch, updateIirAndLsr_iir, ← hiir]
  dsimp only
  rw [handleNone, notifies_empty_iff.2 hread.empty, hcomplete, Bool.and_self, if_pos rfl, hlsr',
    if_pos hlsr]
  exact (hread.callTxEnd2 hc htrace hbefore hlsr).quiet quiet_leave

/-- Everything else behind the last octet. -/
theorem Written.quiet_step (hc : Client p e) (h : Written p b data s)
    (hother : ¬ (handled s e = some .none ∧ e.lsr &&& lsrTransmitterEmpty ≠ 0)) :
    Quiet p s (s.step e) :=
  Pc16c550.quiet_step hc h.rxBuffer (fun _ => h.ready)
    fun hcause hlsr => absurd ⟨hcause, hlsr⟩ hother

theorem Finished.quiet_step (hc : Client p e) (h : Finished p b data s) : Quiet p s (s.step e) :=
  Pc16c550.quiet_step hc h.rxBuffer (fun _ => h.ready) fun _ _ hempty => absurd hempty h.empty

/-! ## The run -/

/-- **A step leads from stage to stage.** -/
theorem Stage.step (hb : Sendable b data) (hc : Client p e) (h : Stage p b data s) :
    Stage p b data (s.step e) := by
  cases h with
  | sending k h =>
    by_cases hcause : handled s e = some .transmitterHoldingEmpty
    · rcases h.step_thre hb hc hcause with ⟨-, hnext⟩ | ⟨-, hwritten⟩
      · exact .sending (k + 8) hnext
      · exact .written hwritten
    · exact .sending k (h.quiet (h.quiet_step hb hc hcause))
  | written h =>
    by_cases hother : handled s e = some .none ∧ e.lsr &&& lsrTransmitterEmpty ≠ 0
    · exact .finished (h.step_empty hb hc hother.1 hother.2)
    · exact .written (h.quiet (h.quiet_step hc hother))
  | finished h => exact .finished (h.quiet (h.quiet_step hc))

theorem Finished.mem_txEnd2 (h : Finished p b data s) : .call (.txEnd2 (some p)) ∈ s.trace := by
  obtain ⟨before, lsr, after, htrace, -⟩ := h.emptied
  simp [htrace]

/-- A step that does nothing for the transmitter, behind the last octet. -/
theorem serves_of_quiet (hq : Quiet p s (s.step e)) {cs : List UInt8} (hcs : octets s.trace = cs)
    (hempties : handled s e = some .none → e.lsr &&& lsrTransmitterEmpty ≠ 0 →
      .call (.txEnd2 (some p)) ∈ (s.step e).trace) : Serves p cs s e where
  sixteen := by rw [hq.octets_eq]; omega
  thre := fun hne => absurd hq.octets_eq hne
  fills := fun _ => by rw [hq.octets_eq, hcs, List.take_of_length_le (by omega)]
  empties := fun hcause _ => hempties hcause

/-- **A step does for the transmission what it is to.** -/
theorem Stage.serves (hb : Sendable b data) (hc : Client p e) (h : Stage p b data s) :
    Serves p (data.read 0 b.validcount) s e := by
  cases h with
  | sending k h =>
    have hlt := h.lt
    have hoctets := h.octets_eq
    -- some octets are left, so that `tx_end2` is not due
    have hmore : octets s.trace ≠ data.read 0 b.validcount := by
      intro heq
      have hlength := congrArg List.length heq
      rw [hoctets, Mem.length_read, Mem.length_read] at hlength
      omega
    by_cases hcause : handled s e = some .transmitterHoldingEmpty
    · have hnext : octets (s.step e).trace = data.read 0 (min (k + 8) b.validcount) := by
        rcases h.step_thre hb hc hcause with ⟨hlt', hnext⟩ | ⟨hge, hwritten⟩
        · rw [hnext.octets_eq, min_eq_left hlt'.le]
        · rw [hwritten.octets_eq, min_eq_right hge]
      refine ⟨?_, fun _ => hcause, fun _ => ?_, fun _ heq => absurd heq hmore⟩
      · rw [hnext, hoctets, Mem.length_read, Mem.length_read]
        omega
      · rw [hnext, hoctets, Mem.length_read, Mem.take_read]
    · have hq := h.quiet_step hb hc hcause
      refine ⟨?_, fun hne => absurd hq.octets_eq hne, fun hthre => absurd hthre hcause,
        fun _ heq => absurd heq hmore⟩
      rw [hq.octets_eq]
      omega
  | written h =>
    by_cases hother : handled s e = some .none ∧ e.lsr &&& lsrTransmitterEmpty ≠ 0
    · have hfinished := h.step_empty hb hc hother.1 hother.2
      have hsame : octets (s.step e).trace = octets s.trace := by
        rw [hfinished.octets_eq, h.octets_eq]
      refine ⟨by rw [hsame]; omega, fun hne => absurd hsame hne, fun hthre => ?_,
        fun _ _ _ => hfinished.mem_txEnd2⟩
      rw [hother.1] at hthre
      exact absurd hthre (by decide)
    · exact serves_of_quiet (h.quiet_step hc hother) h.octets_eq
        fun hcause hlsr => absurd ⟨hcause, hlsr⟩ hother
  | finished h =>
    have hq := h.quiet_step hc
    exact serves_of_quiet hq h.octets_eq fun _ _ => (h.quiet hq).mem_txEnd2

/-- An action of the script is done where the script says so. -/
theorem mem_trace_iff {a : Action} (ha : a.transmits = true) (trace : List Action) :
    a ∈ trace ↔ a ∈ transmitted trace := by
  rw [transmitted, List.mem_filter, and_iff_left ha]

theorem begun_prefix_script {n : ℕ} (hk : k ≤ n) : begun p data k <+: script p (data.read 0 n) := by
  have hread : (data.read 0 k).map (Action.write .thr) <+: (data.read 0 n).map (.write .thr) :=
    (Mem.read_prefix hk).map _
  refine List.IsPrefix.trans ?_ (List.prefix_append ..)
  exact List.cons_prefix_cons.2 ⟨rfl, hread⟩

theorem read_ne_nil (hk : k ≠ 0) : data.read 0 k ≠ [] := by
  rw [← List.length_pos_iff, Mem.length_read]
  omega

theorem Sending.transmits (h : Sending p b data k s) :
    Transmits p (data.read 0 b.validcount) s := by
  have hlt := h.lt
  have hoctets := h.octets_eq
  have hscript := h.transmitted_eq
  have hend1 : .call (.txEnd1 (some p)) ∉ s.trace := by
    rw [mem_trace_iff rfl, hscript]
    split <;> simp [begun]
  have hend2 : .call (.txEnd2 (some p)) ∉ s.trace := by
    rw [mem_trace_iff rfl, hscript]
    split <;> simp [begun]
  refine ⟨?_, ?_, ?_, iff_of_false hend1 ?_, fun hmem => absurd hmem hend2⟩
  · rw [hscript]
    split
    · exact List.nil_prefix
    · exact begun_prefix_script hlt.le
  · rw [hoctets]
    exact Mem.read_prefix hlt.le
  · rw [mem_trace_iff rfl, hscript, hoctets]
    split
    · next hk => simp [hk]
    · next hk => exact iff_of_true (by simp [begun]) (read_ne_nil hk)
  · intro heq
    have hlength := congrArg List.length heq
    rw [hoctets, Mem.length_read, Mem.length_read] at hlength
    omega

theorem Written.transmits (hb : Sendable b data) (h : Written p b data s) :
    Transmits p (data.read 0 b.validcount) s := by
  have hpos := hb.pos
  have hoctets := h.octets_eq
  have hscript := h.transmitted_eq
  refine ⟨?_, by rw [hoctets], ?_, ?_, ?_⟩
  · rw [hscript, script]
    refine ⟨[.call (.txEnd2 (some p))], ?_⟩
    rw [begun, List.append_assoc]
    rfl
  · rw [hoctets, mem_trace_iff rfl, hscript]
    exact iff_of_true (by simp [begun]) (read_ne_nil (by omega))
  · rw [mem_trace_iff rfl, hscript]
    exact iff_of_true (by simp) hoctets
  · rw [mem_trace_iff rfl, hscript]
    intro hmem
    simp [begun] at hmem

theorem Finished.transmits (hb : Sendable b data) (h : Finished p b data s) :
    Transmits p (data.read 0 b.validcount) s := by
  have hpos := hb.pos
  have hoctets := h.octets_eq
  have hscript := h.transmitted_eq
  refine ⟨by rw [hscript], by rw [hoctets], ?_, ?_, fun _ => h.emptied⟩
  · rw [hoctets, mem_trace_iff rfl, hscript]
    exact iff_of_true (by simp [script]) (read_ne_nil (by omega))
  · rw [mem_trace_iff rfl, hscript]
    exact iff_of_true (by simp [script]) hoctets

theorem Stage.transmits (hb : Sendable b data) (h : Stage p b data s) :
    Transmits p (data.read 0 b.validcount) s := by
  cases h with
  | sending k h => exact h.transmits
  | written h => exact h.transmits hb
  | finished h => exact h.transmits hb

/-- The buffer is started on a transmitter that has none. -/
theorem stage_txStart (hb : Sendable (s.buffers p) data) (hidle : s.txBuffer = none)
    (hrx : s.rxBuffer ≠ some p) (htrace : s.trace = []) :
    Stage p (s.buffers p) data (s.txStart p) := by
  have hpos := hb.pos
  have hstart : s.txStart p = { s.setBuffer p { s.buffers p with transfered := 0 } with
      txBuffer := some p }.setNotify transmitterReady := by
    simp [txStart, setBuffer, hidle]
  rw [hstart]
  generalize ht : { s.setBuffer p { s.buffers p with transfered := 0 } with
    txBuffer := some p } = t
  have hkeeps : Keeps p t (t.setNotify transmitterReady) := keeps_changeNotify
  refine .sending 0 ⟨⟨?_, ?_, ?_, ?_⟩, by omega, ?_⟩
  · rw [hkeeps.txBuffer, ← ht]
  · rw [hkeeps.buffer, ← ht]
    exact Function.update_self ..
  · refine hkeeps.rxBuffer ?_
    rw [← ht]
    exact hrx
  · rw [setNotify, changeNotify_notifyMask, Mask.has_or]
    exact .inr (by decide)
  · rw [hkeeps.transmitted_eq, ← ht, if_pos rfl]
    exact congrArg transmitted htrace

/-- **A buffer is sent as it is to be**, whatever interrupts come and
whatever the client receives meanwhile. -/
theorem transmission (s : Pc16c550) (p : ℕ) (data : Mem) (hidle : s.txBuffer = none)
    (hrx : s.rxBuffer ≠ some p) (htrace : s.trace = []) (hdata : (s.buffers p).data = some data)
    (hpos : 1 ≤ (s.buffers p).validcount) (hsize : (s.buffers p).validcount ≤ (s.buffers p).size)
    (es : List Seen) (hclient : ∀ e ∈ es, Client p e) :
    Always step (Transmits p (data.read 0 (s.buffers p).validcount)) (s.txStart p) es ∧
      EachStep step (Serves p (data.read 0 (s.buffers p).validcount)) (s.txStart p) es := by
  have hb : Sendable (s.buffers p) data := ⟨hdata, hpos, hsize⟩
  have hclients : EachStep step (fun _ e => Client p e) (s.txStart p) es := fun pre e hpre =>
    hclient e (hpre.subset (by simp))
  have hstages : Always step (Stage p (s.buffers p) data) (s.txStart p) es :=
    always_of_eachStep (fun t e hc h => h.step hb hc) hclients (stage_txStart hb hidle hrx htrace)
  constructor
  · intro pre hpre
    exact (hstages pre hpre).transmits hb
  · exact eachStep_of_always (fun t e h hc => h.serves hb hc) hstages hclients

/-- A driver that does nothing yet, and a buffer with eleven octets. -/
def elevenOctets : Pc16c550 :=
  ⟨0, none, none, false, 0, fun _ => ⟨some UInt8.ofNat, 16, 11, 0, 0, fun _ => 0⟩, 0, 0,
    .outside, []⟩

/-- The client asks for `tx_end2` in `tx_end1`, and for nothing else. -/
def asks : Callback → List Request
  | .txEnd1 _ => [.setNotify transmitterEmpty]
  | _ => []

/-- THRE twice, with no interrupt between, and then an empty transmitter. -/
def fourReadings : List Seen :=
  [⟨0x2, 0, 0, 0, 0, false, asks⟩, ⟨0x1, 0, 0, 0, 0, false, asks⟩,
    ⟨0x2, 0, 0, 0, 0, false, asks⟩, ⟨0x1, lsrTransmitterEmpty, 0, 0, 0, false, asks⟩]

theorem client_asks (he : e.requests = asks) : Client p e := by
  have hempties : (Request.setNotify transmitterEmpty).Empties := ⟨_, rfl, by decide, by decide⟩
  constructor
  · intro cb hcb r hr
    rw [he] at hr
    cases cb with
    | txEnd1 buffer => exact absurd rfl (hcb buffer)
    | _ => simp [asks] at hr
  · intro r hr
    rw [he] at hr
    rw [List.mem_singleton.1 hr]
    exact .inr hempties
  · rw [he]
    exact ⟨_, List.mem_singleton_self _, hempties⟩

/-- Eight octets are sent and then three, and the client is told so. -/
theorem transmission_eleven :
    Transmits 7 [0, 1, 2, 3, 4, 5, 6, 7, 8, 9, 10]
        (run step (elevenOctets.txStart 7) fourReadings) ∧
      transmitted (run step (elevenOctets.txStart 7) fourReadings).trace =
        script 7 [0, 1, 2, 3, 4, 5, 6, 7, 8, 9, 10] := by
  have hclient : ∀ e ∈ fourReadings, Client 7 e := by
    intro e he
    refine client_asks ?_
    simp only [fourReadings, List.mem_cons, List.not_mem_nil, or_false] at he
    rcases he with rfl | rfl | rfl | rfl <;> rfl
  have h := transmission elevenOctets 7 UInt8.ofNat rfl (by decide) rfl rfl (by decide) (by decide)
    fourReadings hclient
  exact ⟨h.1.last, by decide +kernel⟩

end Pc16c550

end Dmxrtuart

end Dmx4Linux2
