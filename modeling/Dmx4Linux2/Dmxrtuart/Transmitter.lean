import Dmx4Linux2.Common.Mask
import Dmx4Linux2.Dmxrtuart.Model.Pc16c550

/-!
# rtuart — what the pc16c550 does for its transmitter

Most of what the interrupt handler does has nothing to do with the buffer
that is being sent: it receives, reports errors and changes of the inputs,
and lets the client ask for things meanwhile. `Quiet` says so of two states
of the driver, and `quiet_step` of a step, unless it serves THRE or finds
the transmitter empty while the client is to be told.
-/

namespace Dmx4Linux2

namespace Dmxrtuart

namespace Pc16c550

open Mask (Has)

variable {s t u : Pc16c550} {e : Seen} {p q : ℕ} {m n : UInt64}

/-! ## What belongs to the transmitter -/

/-- The action has to do with the transmitter. -/
def Action.transmits : Action → Bool
  | .write .thr _ => true
  | .call (.txStart _) => true
  | .call (.txEnd1 _) => true
  | .call (.txEnd2 _) => true
  | .nullPointer => true
  | _ => false

/-- What was done with the transmitter. -/
def transmitted (trace : List Action) : List Action := trace.filter Action.transmits

def Action.octet : Action → Option UInt8
  | .write .thr c => some c
  | _ => none

/-- The octets written to THR. -/
def octets (trace : List Action) : List UInt8 := trace.filterMap Action.octet

/-- The request has nothing to do with the transmitter, nor with the
buffer that is being sent. -/
def Request.Receives (p : ℕ) : Request → Prop
  | .setNotify notify => notify &&& transmitterReady = 0 ∧ notify &&& transmitterEmpty = 0
  | .clrNotify notify => notify &&& transmitterReady = 0 ∧ notify &&& transmitterEmpty = 0
  | .txStart _ => False
  | .txStop _ => False
  | .rxStart q => q ≠ p
  | .rxStop => True

/-- The request enables `RTUART_NOTIFY_TRANSMITTER_EMPTY`. -/
def Request.Empties (r : Request) : Prop :=
  ∃ notify, r = .setNotify notify ∧
    notify &&& transmitterReady = 0 ∧ notify &&& transmitterEmpty ≠ 0

/-- **The client of a transmission** enables the notification in `tx_end1`
and starts no further buffer. -/
structure Client (p : ℕ) (e : Seen) : Prop where
  receives : ∀ cb, (∀ buffer, cb ≠ .txEnd1 buffer) → ∀ r ∈ e.requests cb, r.Receives p
  end1 : ∀ r ∈ e.requests (.txEnd1 (some p)), r.Receives p ∨ r.Empties
  empties : ∃ r ∈ e.requests (.txEnd1 (some p)), r.Empties

/-! ## The bits of the notifications -/

theorem and_transmitterReady_ne_zero_iff : m &&& transmitterReady ≠ 0 ↔ Has m 0 := by
  have hall : ∀ j : Fin 64, Has transmitterReady j ↔ j.val = 0 := by decide +kernel
  exact Mask.and_ne_zero_iff (by omega) fun j hj => hall ⟨j, hj⟩

theorem and_transmitterEmpty_ne_zero_iff : m &&& transmitterEmpty ≠ 0 ↔ Has m 1 := by
  have hall : ∀ j : Fin 64, Has transmitterEmpty j ↔ j.val = 1 := by decide +kernel
  exact Mask.and_ne_zero_iff (by omega) fun j hj => hall ⟨j, hj⟩

theorem notifies_ready_iff : s.notifies transmitterReady = true ↔ Has s.notifyMask 0 := by
  rw [notifies, bne_iff_ne, and_transmitterReady_ne_zero_iff]

theorem notifies_empty_iff : s.notifies transmitterEmpty = true ↔ Has s.notifyMask 1 := by
  rw [notifies, bne_iff_ne, and_transmitterEmpty_ne_zero_iff]

/-- The bits of the transmitter stay when the receiver's is cleared. -/
theorem has_clear_hasdata_iff {j : ℕ} (hj : j < 2) :
    Has (m &&& ~~~ receiverHasdata) j ↔ Has m j := by
  have hnot : ∀ j : Fin 2, ¬ Has receiverHasdata j := by decide
  exact Mask.has_and_not (by omega) (hnot ⟨j, hj⟩)

/-- The cause that the switch of the handler gets to see; the loop for
received octets takes what comes while there are more of them. -/
def handled (s : Pc16c550) (e : Seen) : Option Cause :=
  if s.place = .receiving ∧ (s.updateIirAndLsr e).hasMore then none else some (.ofIir e.iir)

/-! ## The steps that leave the transmitter alone -/

theorem transmitted_append (as bs : List Action) :
    transmitted (as ++ bs) = transmitted as ++ transmitted bs :=
  List.filter_append ..

theorem octets_transmitted (trace : List Action) : octets (transmitted trace) = octets trace := by
  rw [octets, transmitted, List.filterMap_filter]
  refine List.filterMap_congr fun a _ => ?_
  cases a with
  | write reg c => cases reg <;> rfl
  | call cb => cases cb <;> rfl
  | read reg c => rfl
  | nullPointer => rfl

theorem octets_map (cs : List UInt8) : octets (cs.map (.write .thr)) = cs := by
  rw [octets, List.filterMap_map]
  exact List.filterMap_some ..

theorem octets_append (as bs : List Action) : octets (as ++ bs) = octets as ++ octets bs :=
  List.filterMap_append ..

/-- What keeps the buffer that is sent, with the trace that is added. -/
structure Keeps (p : ℕ) (s t : Pc16c550) : Prop where
  txBuffer : t.txBuffer = s.txBuffer
  buffer : t.buffers p = s.buffers p
  rxBuffer : s.rxBuffer ≠ some p → t.rxBuffer ≠ some p
  trace : ∃ as, t.trace = s.trace ++ as ∧ ∀ a ∈ as, a.transmits = false

/-- **The transmitter is left alone**, its notifications too. -/
structure Quiet (p : ℕ) (s t : Pc16c550) : Prop extends Keeps p s t where
  ready : Has t.notifyMask 0 ↔ Has s.notifyMask 0
  empty : Has t.notifyMask 1 ↔ Has s.notifyMask 1

theorem Keeps.refl : Keeps p s s := ⟨rfl, rfl, id, [], by simp⟩

theorem Keeps.trans (h : Keeps p s t) (h' : Keeps p t u) : Keeps p s u := by
  obtain ⟨as, has, hquiet⟩ := h.trace
  obtain ⟨bs, hbs, hquiet'⟩ := h'.trace
  refine ⟨h'.txBuffer.trans h.txBuffer, h'.buffer.trans h.buffer, h'.rxBuffer ∘ h.rxBuffer,
    as ++ bs, by rw [hbs, has, List.append_assoc], ?_⟩
  intro a ha
  rcases List.mem_append.1 ha with ha | ha
  · exact hquiet a ha
  · exact hquiet' a ha

theorem Quiet.refl : Quiet p s s := ⟨.refl, .rfl, .rfl⟩

theorem Quiet.trans (h : Quiet p s t) (h' : Quiet p t u) : Quiet p s u :=
  ⟨h.toKeeps.trans h'.toKeeps, h'.ready.trans h.ready, h'.empty.trans h.empty⟩

theorem Keeps.transmitted_eq (h : Keeps p s t) : transmitted t.trace = transmitted s.trace := by
  obtain ⟨as, has, hquiet⟩ := h.trace
  have hnone : transmitted as = [] := by simpa [transmitted] using hquiet
  rw [has, transmitted_append, hnone, List.append_nil]

theorem Keeps.octets_eq (h : Keeps p s t) : octets t.trace = octets s.trace := by
  rw [← octets_transmitted, h.transmitted_eq, octets_transmitted]

/-- What changes nothing but the notifications, the place of the handler
and the like. -/
theorem Quiet.of_eq (htx : t.txBuffer = s.txBuffer) (hbuf : t.buffers = s.buffers)
    (hrx : s.rxBuffer ≠ some p → t.rxBuffer ≠ some p) (htrace : t.trace = s.trace)
    (hready : Has t.notifyMask 0 ↔ Has s.notifyMask 0)
    (hempty : Has t.notifyMask 1 ↔ Has s.notifyMask 1) : Quiet p s t :=
  ⟨⟨htx, by rw [hbuf], hrx, [], by simp [htrace]⟩, hready, hempty⟩

theorem quiet_act {a : Action} (h : a.transmits = false) : Quiet p s (s.act a) :=
  ⟨⟨rfl, rfl, id, [a], rfl, by simpa using h⟩, .rfl, .rfl⟩

theorem quiet_setBuffer {b : RtuartBuffer} (h : q ≠ p) : Quiet p s (s.setBuffer q b) :=
  ⟨⟨rfl, Function.update_of_ne h.symm .., id, [], by simp [setBuffer]⟩, .rfl, .rfl⟩

theorem quiet_updateNotification : Quiet p s s.updateNotification := quiet_act rfl

theorem quiet_leave : Quiet p s s.leave :=
  quiet_updateNotification.trans (.of_eq rfl rfl id rfl .rfl .rfl)

theorem quiet_next : Quiet p s s.next := .of_eq rfl rfl id rfl .rfl .rfl

/-- Changing the notifications keeps the buffer. -/
theorem keeps_changeNotify : Keeps p s (s.changeNotify m) := by
  rw [changeNotify]
  split
  · dsimp only
    split
    · exact ⟨rfl, rfl, id, [], by simp⟩
    · exact ⟨rfl, rfl, id, [_], rfl, List.forall_mem_singleton.2 rfl⟩
  · exact .refl

@[simp] theorem changeNotify_notifyMask : (s.changeNotify m).notifyMask = m := by
  rw [changeNotify]
  split
  · dsimp only
    split <;> rfl
  · next h => exact not_not.1 h

theorem quiet_changeNotify (hready : Has m 0 ↔ Has s.notifyMask 0)
    (hempty : Has m 1 ↔ Has s.notifyMask 1) : Quiet p s (s.changeNotify m) :=
  ⟨keeps_changeNotify, by rwa [changeNotify_notifyMask], by rwa [changeNotify_notifyMask]⟩

theorem quiet_setNotify (hready : ¬ Has m 0) (hempty : ¬ Has m 1) : Quiet p s (s.setNotify m) := by
  refine quiet_changeNotify ?_ ?_
  · rw [Mask.has_or, or_iff_left hready]
  · rw [Mask.has_or, or_iff_left hempty]

theorem quiet_clrNotify (hready : ¬ Has m 0) (hempty : ¬ Has m 1) : Quiet p s (s.clrNotify m) :=
  quiet_changeNotify (Mask.has_and_not (by omega) hready) (Mask.has_and_not (by omega) hempty)

theorem quiet_rxStop : Quiet p s s.rxStop := by
  have hbuf : Quiet p s { s with rxBuffer := none } :=
    .of_eq rfl rfl (fun _ => by simp) rfl .rfl .rfl
  exact hbuf.trans (quiet_clrNotify (by decide) (by decide))

theorem quiet_rxStart (h : q ≠ p) : Quiet p s (s.rxStart q) := by
  rw [rxStart]
  have hstop : Quiet p s (if s.rxBuffer.isSome then s.rxStop else s) := by
    split
    · exact quiet_rxStop
    · exact .refl
  generalize (if s.rxBuffer.isSome then s.rxStop else s) = t at hstop ⊢
  have hset : Quiet p t (t.setBuffer q { t.buffers q with transfered := 0 }) := quiet_setBuffer h
  generalize t.setBuffer q { t.buffers q with transfered := 0 } = u at hset ⊢
  have hrx : Quiet p u { u with rxBuffer := some q } :=
    .of_eq rfl rfl (fun _ => by simpa using h) rfl .rfl .rfl
  exact hstop.trans (hset.trans (hrx.trans (quiet_setNotify (by decide) (by decide))))

theorem quiet_perform {r : Request} (h : r.Receives p) : Quiet p s (s.perform r) := by
  cases r with
  | setNotify notify =>
    refine quiet_setNotify ?_ ?_
    · rw [← and_transmitterReady_ne_zero_iff]; exact not_not.2 h.1
    · rw [← and_transmitterEmpty_ne_zero_iff]; exact not_not.2 h.2
  | clrNotify notify =>
    refine quiet_clrNotify ?_ ?_
    · rw [← and_transmitterReady_ne_zero_iff]; exact not_not.2 h.1
    · rw [← and_transmitterEmpty_ne_zero_iff]; exact not_not.2 h.2
  | txStart q => exact h.elim
  | txStop q => exact h.elim
  | rxStart q => exact quiet_rxStart h
  | rxStop => exact quiet_rxStop

theorem quiet_performs {rs : List Request} (h : ∀ r ∈ rs, r.Receives p) :
    Quiet p s (rs.foldl perform s) := by
  induction rs generalizing s with
  | nil => exact .refl
  | cons r rs ih =>
    exact (quiet_perform (h r (List.mem_cons_self ..))).trans
      (ih fun r hr => h r (List.mem_cons_of_mem _ hr))

section Client

variable (hc : Client p e)
include hc

theorem quiet_call {cb : Callback} (h : (Action.call cb).transmits = false) :
    Quiet p s (s.call e cb) := by
  have hcb : ∀ buffer, cb ≠ .txEnd1 buffer := by
    rintro buffer rfl
    have htransmits : true = false := h
    exact absurd htransmits (by decide)
  exact (quiet_act h).trans (quiet_performs (hc.receives cb hcb))

theorem quiet_receiveChar : Quiet p s (s.receiveChar e) := by
  rw [receiveChar]
  split
  · refine (quiet_act (a := .read .rbr e.rbr) rfl).trans (Quiet.trans ?_ (quiet_call hc rfl))
    exact .of_eq rfl rfl id rfl (has_clear_hasdata_iff (by omega))
      (has_clear_hasdata_iff (by omega))
  · exact quiet_act rfl

theorem quiet_handleTrigger (h : q ≠ p) : Quiet p s (s.handleTrigger e q) := by
  rw [handleTrigger]
  split
  · dsimp only
    split
    · exact (quiet_call hc rfl).trans (quiet_setBuffer h)
    · exact .refl
  · exact .refl

omit hc in
theorem quiet_storeOctet (h : q ≠ p) : Quiet p s (s.storeOctet e q) :=
  (quiet_act rfl).trans (quiet_setBuffer h)

theorem quiet_callRxEnd {dueToTimeout : Bool} : Quiet p s (s.callRxEnd e q dueToTimeout) := by
  rw [callRxEnd]
  split
  · refine Quiet.trans ?_ (quiet_call hc rfl)
    exact .of_eq rfl rfl (fun _ => by simp) rfl (has_clear_hasdata_iff (by omega))
      (has_clear_hasdata_iff (by omega))
  · split
    · exact quiet_call hc rfl
    · exact .refl

theorem quiet_handleReceivedData {buffer : Option ℕ} (h : buffer ≠ some p) {dueToTimeout : Bool} :
    Quiet p s (s.handleReceivedData e buffer dueToTimeout) := by
  cases buffer with
  | none => exact quiet_receiveChar hc
  | some q =>
    rw [handleReceivedData]
    split
    · exact quiet_receiveChar hc
    · have hq : q ≠ p := fun hq => h (by rw [hq])
      exact (quiet_storeOctet hq).trans ((quiet_handleTrigger hc hq).trans (quiet_callRxEnd hc))

theorem quiet_receive (h : s.rxBuffer ≠ some p) : Quiet p s (s.receive e) :=
  (quiet_handleReceivedData hc h).trans (.of_eq rfl rfl id rfl .rfl .rfl)

theorem quiet_handleLineStatus : Quiet p s (s.handleLineStatus e) := by
  rw [handleLineStatus]
  have hread :
      Quiet p s (if s.lsr &&& lsrBreakInterrupt ≠ 0 then s.act (.read .rbr e.rbr) else s) := by
    split
    · exact quiet_act rfl
    · exact .refl
  refine hread.trans ?_
  generalize (if s.lsr &&& lsrBreakInterrupt ≠ 0 then s.act (.read .rbr e.rbr) else s) = t
  split
  · exact quiet_call hc rfl
  · exact .refl

theorem quiet_handleModemStatus : Quiet p s (s.handleModemStatus e) := by
  rw [handleModemStatus]
  refine (quiet_act (a := .read .msr e.msr) rfl).trans ?_
  split
  · exact quiet_call hc rfl
  · exact .refl

end Client

/-- A request that enables the notification of the empty transmitter. -/
theorem perform_of_empties {r : Request} (h : r.Empties) :
    Keeps p s (s.perform r) ∧ (Has (s.perform r).notifyMask 0 ↔ Has s.notifyMask 0) ∧
      Has (s.perform r).notifyMask 1 := by
  obtain ⟨notify, rfl, hready, hempty⟩ := h
  have hbit : ¬ Has notify 0 := by rw [← and_transmitterReady_ne_zero_iff]; exact not_not.2 hready
  refine ⟨keeps_changeNotify, ?_, ?_⟩
  · rw [perform, setNotify, changeNotify_notifyMask, Mask.has_or, or_iff_left hbit]
  · rw [perform, setNotify, changeNotify_notifyMask, Mask.has_or]
    exact .inr (and_transmitterEmpty_ne_zero_iff.1 hempty)

/-- **What the client does in `tx_end1`** leaves the notification of the
empty transmitter enabled, if it was or one of its requests enables it. -/
theorem performs_end1 {rs : List Request} (h : ∀ r ∈ rs, r.Receives p ∨ r.Empties) :
    Keeps p s (rs.foldl perform s) ∧ (Has (rs.foldl perform s).notifyMask 0 ↔ Has s.notifyMask 0) ∧
      (Has s.notifyMask 1 ∨ (∃ r ∈ rs, r.Empties) → Has (rs.foldl perform s).notifyMask 1) := by
  induction rs generalizing s with
  | nil => exact ⟨.refl, .rfl, by simp⟩
  | cons r rs ih =>
    obtain ⟨hkeeps, hready, hempty⟩ :=
      ih (s := s.perform r) fun r hr => h r (List.mem_cons_of_mem _ hr)
    rcases h r (List.mem_cons_self ..) with hr | hr
    · have hq : Quiet p s (s.perform r) := quiet_perform hr
      refine ⟨hq.toKeeps.trans hkeeps, hready.trans hq.ready, ?_⟩
      rintro (hhas | ⟨r', hr', hempties⟩)
      · exact hempty (.inl (hq.empty.2 hhas))
      · rcases List.mem_cons.1 hr' with rfl | hr'
        · exact hempty (.inl (perform_of_empties (p := p) hempties).2.2)
        · exact hempty (.inr ⟨r', hr', hempties⟩)
    · obtain ⟨hkeeps', hready', hempty'⟩ := perform_of_empties (p := p) (s := s) hr
      exact ⟨hkeeps'.trans hkeeps, hready.trans hready', fun _ => hempty (.inl hempty')⟩

/-! ## A step of the handler -/

theorem quiet_updateIirAndLsr : Quiet p s (s.updateIirAndLsr e) := by
  have hiir : Quiet p s ({ s with iir := e.iir }.act (.read .iir e.iir)) := by
    have hkept : Quiet p s { s with iir := e.iir } := .of_eq rfl rfl id rfl .rfl .rfl
    exact hkept.trans (quiet_act rfl)
  have hlsr (t : Pc16c550) : Quiet p t ({ t with lsr := e.lsr }.act (.read .lsr e.lsr)) := by
    have hkept : Quiet p t { t with lsr := e.lsr } := .of_eq rfl rfl id rfl .rfl .rfl
    exact hkept.trans (quiet_act rfl)
  rw [updateIirAndLsr]
  split
  all_goals first | exact hiir.trans (hlsr _) | exact hiir

@[simp] theorem updateIirAndLsr_iir : (s.updateIirAndLsr e).iir = e.iir := by
  rw [updateIirAndLsr]
  split <;> rfl

/-- LSR is read where there is no cause. -/
theorem updateIirAndLsr_of_none (h : Cause.ofIir e.iir = .none) :
    (s.updateIirAndLsr e).lsr = e.lsr ∧
      (s.updateIirAndLsr e).trace = s.trace ++ [.read .iir e.iir] ++ [.read .lsr e.lsr] := by
  rw [updateIirAndLsr, h]
  exact ⟨rfl, rfl⟩

/-- The handler is entered, or goes on. -/
def entered (s : Pc16c550) : Pc16c550 :=
  if s.place = .outside then { s with inIrq := true } else s

theorem quiet_entered : Quiet p s s.entered := by
  rw [entered]
  split
  · exact .of_eq rfl rfl id rfl .rfl .rfl
  · exact .refl

/-- Reading IIR and LSR has nothing to do with the transmitter. -/
theorem quiet_read : Quiet p s (s.entered.updateIirAndLsr e) :=
  quiet_entered.trans quiet_updateIirAndLsr

theorem entered_trace : s.entered.trace = s.trace := by
  rw [entered]
  split <;> rfl

theorem step_of_handled_none (h : handled s e = none) :
    s.step e = (s.updateIirAndLsr e).receive e := by
  rw [handled] at h
  split at h
  · next hmore =>
    rw [step, hmore.1]
    exact if_pos hmore.2
  · exact absurd h (by simp)

theorem step_of_handled {cause : Cause} (h : handled s e = some cause) :
    cause = .ofIir e.iir ∧ s.step e = (s.entered.updateIirAndLsr e).dispatch e := by
  rw [handled] at h
  split at h
  · exact absurd h (by simp)
  · next hmore =>
    refine ⟨(Option.some.inj h).symm, ?_⟩
    rw [step, entered]
    cases hplace : s.place with
    | outside => rfl
    | loop => rfl
    | receiving => exact if_neg fun hhas => hmore ⟨hplace, hhas⟩

/-- **The switch leaves the transmitter alone** but for THRE while the
client is to be notified, and for an empty transmitter the client waits
for. -/
theorem quiet_dispatch (hc : Client p e) (hrx : s.rxBuffer ≠ some p)
    (hthre : Cause.ofIir s.iir = .transmitterHoldingEmpty → ¬ Has s.notifyMask 0)
    (hnone : Cause.ofIir s.iir = .none →
      ¬ (Has s.notifyMask 1 ∧ s.txComplete = true ∧ s.lsr &&& lsrTransmitterEmpty ≠ 0)) :
    Quiet p s (s.dispatch e) := by
  have hreceive : Quiet p s
      (if s.notifies receiverHasdata then s.receive e else s.flushRxFifo.next) := by
    split
    · exact quiet_receive hc hrx
    · exact (quiet_act rfl).trans quiet_next
  rw [dispatch]
  cases hcause : Cause.ofIir s.iir with
  | receivedDataAvailable => exact hreceive
  | characterTimeout => exact hreceive
  | transmitterHoldingEmpty =>
    have hready : ¬ s.notifies transmitterReady = true := mt notifies_ready_iff.1 (hthre hcause)
    dsimp only
    rw [if_neg hready]
    exact quiet_next
  | modemStatus => exact (quiet_handleModemStatus hc).trans quiet_next
  | none =>
    dsimp only
    rw [handleNone]
    split
    · next hwaits =>
      rw [Bool.and_eq_true, notifies_empty_iff] at hwaits
      split
      · next hlsr => exact absurd ⟨hwaits.1, hwaits.2, hlsr⟩ (hnone hcause)
      · split
        · exact quiet_next
        · exact quiet_leave
    · exact quiet_leave
  | receiverLineStatus => exact (quiet_handleLineStatus hc).trans quiet_next
  | illegal => exact quiet_leave

/-- A step that the switch does nothing with for the transmitter. -/
theorem quiet_step (hc : Client p e) (hrx : s.rxBuffer ≠ some p)
    (hthre : handled s e = some .transmitterHoldingEmpty → ¬ Has s.notifyMask 0)
    (hnone : handled s e = some .none → e.lsr &&& lsrTransmitterEmpty ≠ 0 → Has s.notifyMask 1 →
      ¬ (s.entered.updateIirAndLsr e).txComplete = true) : Quiet p s (s.step e) := by
  have hread : Quiet p s (s.entered.updateIirAndLsr e) := quiet_read
  cases hcause : handled s e with
  | none =>
    -- whatever the cause is, the loop for received octets has it
    rw [step_of_handled_none hcause]
    exact quiet_updateIirAndLsr.trans (quiet_receive hc (quiet_updateIirAndLsr.rxBuffer hrx))
  | some cause =>
    obtain ⟨rfl, hstep⟩ := step_of_handled hcause
    rw [hstep]
    refine hread.trans (quiet_dispatch hc (hread.rxBuffer hrx) ?_ ?_)
    · rw [updateIirAndLsr_iir]
      intro hiir hready
      rw [hiir] at hcause
      exact hthre hcause (hread.ready.1 hready)
    · rw [updateIirAndLsr_iir]
      rintro hiir ⟨hempty, hcomplete, hlsr⟩
      rw [(updateIirAndLsr_of_none hiir).1] at hlsr
      rw [hiir] at hcause
      exact hnone hcause hlsr (hread.empty.1 hempty) hcomplete

end Pc16c550

end Dmxrtuart

end Dmx4Linux2
