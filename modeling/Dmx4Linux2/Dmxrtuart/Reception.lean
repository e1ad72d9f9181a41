import Dmx4Linux2.Common.Run
import Dmx4Linux2.Dmxrtuart.Transmitter
import Dmx4Linux2.Dmxrtuart.Triggers

/-!
# rtuart — how the pc16c550 fills a buffer

A buffer that is started for the receiver is filled over many interrupts,
with whatever the transmitter and the modem lines ask for between them. The
octets the handler takes go into it in their order until it is full, each
trigger is reported once, after its octet, and `rx_end` once, with the last;
after that the buffer is left alone (`reception`).
-/

namespace Dmx4Linux2

namespace Dmxrtuart

namespace Pc16c550

variable {s t u : Pc16c550} {e : Seen} {p q : ℕ} {m : UInt64} {i : Fin 32}

/-! ## What belongs to a buffer -/

/-- The action reports on the buffer. -/
def Action.concerns (p : ℕ) : Action → Bool
  | .call (.rxTrigger q _) => q == p
  | .call (.rxEnd q) => q == p
  | _ => false

/-- How often a trigger of the buffer was reported. -/
def reported (p : ℕ) (i : Fin 32) (trace : List Action) : ℕ :=
  trace.countP fun
    | .call (.rxTrigger q m) => q == p && decide (Names m i)
    | _ => false

/-- How often its end was. -/
def ended (p : ℕ) (trace : List Action) : ℕ := trace.count (.call (.rxEnd p))

/-- The request leaves the octets of the buffer alone, -/
def Request.Leaves (p : ℕ) : Request → Prop
  | .txStart q => q ≠ p
  | .rxStart q => q ≠ p
  | _ => True

/-- and the receiver where it is. -/
def Request.Continues : Request → Prop
  | .rxStart _ => False
  | .rxStop => False
  | _ => True

/-- **The client of a reception** does not start the buffer again, and
while it is being filled stops it or starts another only in `rx_end`. -/
structure Awaits (p : ℕ) (s : Pc16c550) (e : Seen) : Prop where
  leaves : ∀ cb, ∀ r ∈ e.requests cb, r.Leaves p
  continues : s.rxBuffer = some p → ∀ cb, cb ≠ .rxEnd p → ∀ r ∈ e.requests cb, r.Continues

/-- The octet a step takes from the receiver: it goes on in the loop for
received octets, or it comes to it, and the client wants data. -/
def taken (s : Pc16c550) (e : Seen) : Option UInt8 :=
  match handled s e with
  | none => some e.rbr
  | some .receivedDataAvailable => if s.notifies receiverHasdata then some e.rbr else none
  | some .characterTimeout => if s.notifies receiverHasdata then some e.rbr else none
  | some _ => none

/-- **The buffer is left alone.** -/
structure Apart (p : ℕ) (s t : Pc16c550) : Prop where
  buffer : t.buffers p = s.buffers p
  txBuffer : s.txBuffer ≠ some p → t.txBuffer ≠ some p
  rxBuffer : t.rxBuffer = some p ↔ s.rxBuffer = some p
  trace : ∃ as, t.trace = s.trace ++ as ∧ ∀ a ∈ as, a.concerns p = false

theorem Apart.refl : Apart p s s := ⟨rfl, id, .rfl, [], by simp⟩

theorem Apart.trans (h : Apart p s t) (h' : Apart p t u) : Apart p s u := by
  obtain ⟨as, has, hquiet⟩ := h.trace
  obtain ⟨bs, hbs, hquiet'⟩ := h'.trace
  refine ⟨h'.buffer.trans h.buffer, h'.txBuffer ∘ h.txBuffer, h'.rxBuffer.trans h.rxBuffer,
    as ++ bs, by rw [hbs, has, List.append_assoc], ?_⟩
  intro a ha
  rcases List.mem_append.1 ha with ha | ha
  · exact hquiet a ha
  · exact hquiet' a ha

/-- What changes none of these. -/
theorem Apart.of_eq (hbuf : t.buffers = s.buffers) (htx : s.txBuffer ≠ some p → t.txBuffer ≠ some p)
    (hrx : t.rxBuffer = some p ↔ s.rxBuffer = some p) (htrace : t.trace = s.trace) : Apart p s t :=
  ⟨by rw [hbuf], htx, hrx, [], by simp [htrace]⟩

theorem apart_act {a : Action} (h : a.concerns p = false) : Apart p s (s.act a) :=
  ⟨rfl, id, .rfl, [a], rfl, by simpa using h⟩

theorem apart_setBuffer {b : RtuartBuffer} (h : q ≠ p) : Apart p s (s.setBuffer q b) :=
  ⟨Function.update_of_ne h.symm .., id, .rfl, [], by simp [setBuffer]⟩

theorem apart_changeNotify : Apart p s (s.changeNotify m) := by
  rw [changeNotify]
  split
  · dsimp only
    split
    · exact .of_eq rfl id .rfl rfl
    · exact ⟨rfl, id, .rfl, [_], rfl, List.forall_mem_singleton.2 rfl⟩
  · exact .refl

theorem apart_txStop : Apart p s (s.txStop q).1 := by
  rw [txStop]
  split
  · exact .of_eq rfl (fun _ => by simp) .rfl rfl
  · exact .refl

theorem apart_txStart (h : q ≠ p) : Apart p s (s.txStart q) := by
  rw [txStart]
  have hset : Apart p s (s.setBuffer q { s.buffers q with transfered := 0 }) := apart_setBuffer h
  generalize s.setBuffer q { s.buffers q with transfered := 0 } = t at hset ⊢
  have hstop : Apart p t (if t.txBuffer.isSome then (t.txStop q).1 else t) := by
    split
    · exact apart_txStop
    · exact .refl
  generalize (if t.txBuffer.isSome then (t.txStop q).1 else t) = u at hstop ⊢
  split
  · have htx : Apart p u { u with txBuffer := some q } :=
      .of_eq rfl (fun _ => by simpa using h) .rfl rfl
    exact hset.trans (hstop.trans (htx.trans apart_changeNotify))
  · exact hset.trans hstop

theorem apart_rxStop (h : s.rxBuffer ≠ some p) : Apart p s s.rxStop := by
  have hrx : Apart p s { s with rxBuffer := none } :=
    .of_eq rfl id (iff_of_false (by simp) h) rfl
  exact hrx.trans apart_changeNotify

theorem apart_rxStart (hq : q ≠ p) (h : s.rxBuffer ≠ some p) : Apart p s (s.rxStart q) := by
  rw [rxStart]
  have hstop : Apart p s (if s.rxBuffer.isSome then s.rxStop else s) := by
    split
    · exact apart_rxStop h
    · exact .refl
  generalize (if s.rxBuffer.isSome then s.rxStop else s) = t at hstop ⊢
  have hset : Apart p t (t.setBuffer q { t.buffers q with transfered := 0 }) := apart_setBuffer hq
  have hother : t.rxBuffer ≠ some p := fun ht => h (hstop.rxBuffer.1 ht)
  have hrx : Apart p (t.setBuffer q { t.buffers q with transfered := 0 })
      { t.setBuffer q { t.buffers q with transfered := 0 } with rxBuffer := some q } :=
    .of_eq rfl id (iff_of_false (by simpa using hq) hother) rfl
  exact hstop.trans (hset.trans (hrx.trans apart_changeNotify))

theorem apart_perform {r : Request} (h : r.Leaves p) (hc : r.Continues ∨ s.rxBuffer ≠ some p) :
    Apart p s (s.perform r) := by
  cases r with
  | setNotify notify => exact apart_changeNotify
  | clrNotify notify => exact apart_changeNotify
  | txStart q => exact apart_txStart h
  | txStop q => exact apart_txStop
  | rxStart q => exact apart_rxStart h (hc.resolve_left id)
  | rxStop => exact apart_rxStop (hc.resolve_left id)

theorem apart_performs {rs : List Request} (h : ∀ r ∈ rs, r.Leaves p)
    (hc : (∀ r ∈ rs, r.Continues) ∨ s.rxBuffer ≠ some p) : Apart p s (rs.foldl perform s) := by
  induction rs generalizing s with
  | nil => exact .refl
  | cons r rs ih =>
    have hfirst : Apart p s (s.perform r) :=
      apart_perform (h r (List.mem_cons_self ..)) (hc.imp_left fun hc => hc r (List.mem_cons_self ..))
    refine hfirst.trans (ih (fun r hr => h r (List.mem_cons_of_mem _ hr)) ?_)
    exact hc.imp (fun hc r hr => hc r (List.mem_cons_of_mem _ hr))
      fun hrx ht => hrx (hfirst.rxBuffer.1 ht)

theorem Awaits.of_apart (hc : Awaits p s e) (h : Apart p s t) : Awaits p t e :=
  ⟨hc.leaves, fun ht => hc.continues (h.rxBuffer.1 ht)⟩

/-! ## The handler, as far as it leaves the buffer alone -/

theorem apart_call (hc : Awaits p s e) {cb : Callback} (h : (Action.call cb).concerns p = false) :
    Apart p s (s.call e cb) := by
  have hcb : cb ≠ .rxEnd p := by
    rintro rfl
    simp [Action.concerns] at h
  have hact : Apart p s (s.act (.call cb)) := apart_act h
  refine hact.trans (apart_performs (hc.leaves cb) ?_)
  by_cases hrx : s.rxBuffer = some p
  · exact .inl (hc.continues hrx cb hcb)
  · exact .inr hrx

theorem apart_receiveChar (hc : Awaits p s e) : Apart p s (s.receiveChar e) := by
  rw [receiveChar]
  split
  · have hread : Apart p s { s.act (.read .rbr e.rbr) with
        notifyMask := (s.act (.read .rbr e.rbr)).notifyMask &&& ~~~ receiverHasdata } :=
      ⟨rfl, id, .rfl, [_], rfl, List.forall_mem_singleton.2 rfl⟩
    exact hread.trans (apart_call (hc.of_apart hread) rfl)
  · exact apart_act rfl

theorem apart_storeOctet (h : q ≠ p) : Apart p s (s.storeOctet e q) :=
  (apart_act rfl).trans (apart_setBuffer h)

theorem apart_handleTrigger (hc : Awaits p s e) (h : q ≠ p) : Apart p s (s.handleTrigger e q) := by
  rw [handleTrigger]
  split
  · dsimp only
    split
    · exact (apart_call hc (by simpa [Action.concerns] using h)).trans (apart_setBuffer h)
    · exact .refl
  · exact .refl

theorem apart_callRxEnd (hc : Awaits p s e) (h : q ≠ p) (hrx : s.rxBuffer ≠ some p)
    {dueToTimeout : Bool} : Apart p s (s.callRxEnd e q dueToTimeout) := by
  rw [callRxEnd]
  split
  · have hoff : Apart p s
        { s with rxBuffer := none, notifyMask := s.notifyMask &&& ~~~ receiverHasdata } :=
      .of_eq rfl id (iff_of_false (by simp) hrx) rfl
    exact hoff.trans (apart_call (hc.of_apart hoff) (by simpa [Action.concerns] using h))
  · split
    · exact apart_call hc rfl
    · exact .refl

/-- What is received while the buffer is not. -/
theorem apart_handleReceivedData (hc : Awaits p s e) (hrx : s.rxBuffer ≠ some p)
    {dueToTimeout : Bool} : Apart p s (s.handleReceivedData e s.rxBuffer dueToTimeout) := by
  unfold handleReceivedData
  split
  · exact apart_receiveChar hc
  · next q hq =>
    have hne : q ≠ p := fun h => hrx (by rw [hq, h])
    split
    · exact apart_receiveChar hc
    · have hstore : Apart p s (s.storeOctet e q) := apart_storeOctet hne
      have htrigger := hstore.trans (apart_handleTrigger (hc.of_apart hstore) hne)
      refine htrigger.trans (apart_callRxEnd (hc.of_apart htrigger) hne ?_)
      exact fun h => hrx (htrigger.rxBuffer.1 h)

theorem apart_copyOctets (h : q ≠ p) (k : ℕ) : Apart p s (s.copyOctets q k).2 := by
  induction k generalizing s with
  | zero => exact .refl
  | succ k ih =>
    rw [copyOctets]
    dsimp only
    split
    · exact .refl
    · have hsend : Apart p s (s.sendOctet q) := (apart_setBuffer h).trans (apart_act rfl)
      exact hsend.trans ih

theorem apart_copyFromBufferToTransmitter (htx : s.txBuffer ≠ some p) (k : ℕ) :
    Apart p s (s.copyFromBufferToTransmitter k).2 := by
  rw [copyFromBufferToTransmitter]
  split
  · exact apart_act rfl
  · next q hq => exact apart_copyOctets (fun h => htx (by rw [hq, h])) _

theorem apart_callTxStart (hc : Awaits p s e) : Apart p s (s.callTxStart e) := by
  rw [callTxStart]
  split
  · exact .refl
  · split
    · exact apart_call hc rfl
    · exact .refl

theorem apart_release : Apart p s (s.release m) := .of_eq rfl (fun _ => by simp [release]) .rfl rfl

theorem apart_callTxEnd1 (hc : Awaits p s e) (htx : s.txBuffer ≠ some p) :
    Apart p s (s.callTxEnd1 e) := by
  rw [callTxEnd1]
  split
  · have hrelease : Apart p s (s.release transmitterReady) := apart_release
    have hcall : Apart p s ((s.release transmitterReady).call e (.txEnd1 s.txBuffer)) :=
      hrelease.trans (apart_call (hc.of_apart hrelease) rfl)
    dsimp only
    split
    · exact hcall.trans (.of_eq rfl (fun _ => htx) .rfl rfl)
    · exact hcall
  · exact .refl

theorem apart_fillPass (hc : Awaits p s e) (htx : s.txBuffer ≠ some p) (k : ℕ) :
    Apart p s (s.fillPass e k).2 := by
  have hstart : Apart p s (s.callTxStart e) := apart_callTxStart hc
  have hcopy := hstart.trans (apart_copyFromBufferToTransmitter (hstart.txBuffer htx) k)
  exact hcopy.trans (apart_callTxEnd1 (hc.of_apart hcopy) (hcopy.txBuffer htx))

theorem apart_fill (hc : Awaits p s e) (htx : s.txBuffer ≠ some p) (k passes : ℕ) :
    Apart p s (s.fill e k passes) := by
  induction passes generalizing s k with
  | zero => exact .refl
  | succ passes ih =>
    have hpass : Apart p s (s.fillPass e k).2 := apart_fillPass hc htx k
    rw [fill]
    split
    · exact hpass.trans (ih (hc.of_apart hpass) (hpass.txBuffer htx) _)
    · exact hpass

theorem apart_callTxEnd2 (hc : Awaits p s e) : Apart p s (s.callTxEnd2 e) := by
  have hrelease : Apart p s (s.release transmitterEmpty) := apart_release
  have hcall : Apart p s ((s.release transmitterEmpty).call e (.txEnd2 s.txBuffer)) :=
    hrelease.trans (apart_call (hc.of_apart hrelease) rfl)
  rw [callTxEnd2]
  split
  · exact hcall.trans ((apart_act rfl).trans (apart_act rfl))
  · exact hcall

theorem apart_next : Apart p s s.next := .of_eq rfl id .rfl rfl

theorem apart_leave : Apart p s s.leave := ⟨rfl, id, .rfl, [_], rfl, List.forall_mem_singleton.2 rfl⟩

theorem apart_handleNone (hc : Awaits p s e) : Apart p s (s.handleNone e) := by
  rw [handleNone]
  split
  · split
    · exact (apart_callTxEnd2 hc).trans apart_leave
    · split
      · exact apart_next
      · exact apart_leave
  · exact apart_leave

theorem apart_handleLineStatus (hc : Awaits p s e) : Apart p s (s.handleLineStatus e) := by
  rw [handleLineStatus]
  have hread :
      Apart p s (if s.lsr &&& lsrBreakInterrupt ≠ 0 then s.act (.read .rbr e.rbr) else s) := by
    split
    · exact apart_act rfl
    · exact .refl
  refine hread.trans ?_
  generalize (if s.lsr &&& lsrBreakInterrupt ≠ 0 then s.act (.read .rbr e.rbr) else s) = t
    at hread ⊢
  split
  · exact apart_call (hc.of_apart hread) rfl
  · exact .refl

theorem apart_handleModemStatus (hc : Awaits p s e) : Apart p s (s.handleModemStatus e) := by
  rw [handleModemStatus]
  have hread : Apart p s (s.act (.read .msr e.msr)) := apart_act rfl
  refine hread.trans ?_
  split
  · exact apart_call (hc.of_apart hread) rfl
  · exact .refl

theorem apart_updateIirAndLsr : Apart p s (s.updateIirAndLsr e) := by
  have hiir : Apart p s ({ s with iir := e.iir }.act (.read .iir e.iir)) :=
    ⟨rfl, id, .rfl, [_], rfl, List.forall_mem_singleton.2 rfl⟩
  have hlsr (t : Pc16c550) : Apart p t ({ t with lsr := e.lsr }.act (.read .lsr e.lsr)) :=
    ⟨rfl, id, .rfl, [_], rfl, List.forall_mem_singleton.2 rfl⟩
  rw [updateIirAndLsr]
  split
  all_goals first | exact hiir.trans (hlsr _) | exact hiir

theorem apart_read : Apart p s (s.entered.updateIirAndLsr e) := by
  have hentered : Apart p s s.entered := by
    rw [entered]
    split
    · exact .of_eq rfl id .rfl rfl
    · exact .refl
  exact hentered.trans apart_updateIirAndLsr

/-! ## Triggers -/

/-- The mask of the triggers with a property, as the loop collects it. -/
def triggersWith (P : Fin 32 → Prop) [DecidablePred P] : UInt64 :=
  (List.finRange 32).foldl (fun m i => if P i then m ||| triggerBit i else m) 0

section TriggersWith

variable {P : Fin 32 → Prop} [DecidablePred P]

theorem has_triggersWith_iff {j : ℕ} (hj : j < 64) :
    Mask.Has (triggersWith P) j ↔ ∃ i : Fin 32, min j 31 = i.val ∧ P i := by
  rw [triggersWith, Mask.has_collect]
  constructor
  · rintro (h | ⟨i, -, hi, hbit⟩)
    · exact absurd h Mask.not_has_zero
    · exact ⟨i, (has_triggerBit_iff hj).1 hbit, hi⟩
  · rintro ⟨i, hij, hi⟩
    exact .inr ⟨i, List.mem_finRange i, hi, (has_triggerBit_iff hj).2 hij⟩

theorem names_triggersWith_iff : Names (triggersWith P) i ↔ P i := by
  rw [names_iff]
  constructor
  · rintro ⟨j, hj, hi, hhas⟩
    obtain ⟨k, hk, hP⟩ := (has_triggersWith_iff hj).1 hhas
    rwa [Fin.ext (hi.symm.trans hk)]
  · intro hP
    refine ⟨i.val, by omega, by omega, (has_triggersWith_iff (by omega)).2 ⟨i, by omega, hP⟩⟩

/-- They are taken out of a mask, and no others. -/
theorem names_and_not_triggersWith_iff :
    Names (m &&& ~~~ triggersWith P) i ↔ Names m i ∧ ¬ P i := by
  rw [names_iff, names_iff]
  constructor
  · rintro ⟨j, hj, hi, hhas⟩
    rw [Mask.has_and, Mask.has_not hj] at hhas
    exact ⟨⟨j, hj, hi, hhas.1⟩, fun hP => hhas.2 ((has_triggersWith_iff hj).2 ⟨i, hi, hP⟩)⟩
  · rintro ⟨⟨j, hj, hi, hhas⟩, hP⟩
    refine ⟨j, hj, hi, ?_⟩
    rw [Mask.has_and, Mask.has_not hj]
    refine ⟨hhas, fun hwith => hP ?_⟩
    obtain ⟨k, hk, hPk⟩ := (has_triggersWith_iff hj).1 hwith
    rwa [Fin.ext (hi.symm.trans hk)]

end TriggersWith

/-- The trigger is enabled and has been passed. -/
def Passes (b : RtuartBuffer) (i : Fin 32) : Prop :=
  b.triggermask &&& triggerBit i ≠ 0 ∧ (b.trigger i).toNat < b.transfered

instance {b : RtuartBuffer} : DecidablePred (Passes b) :=
  fun _ => inferInstanceAs (Decidable (_ ∧ _))

theorem passedTriggers_eq (b : RtuartBuffer) : passedTriggers b = triggersWith (Passes b) := rfl

theorem passes_iff {b : RtuartBuffer} :
    Passes b i ↔ Names b.triggermask i ∧ (b.trigger i).toNat < b.transfered := by
  rw [Passes, Names, UInt64.and_comm]

/-! ## Reports -/

theorem reported_append (as bs : List Action) :
    reported p i (as ++ bs) = reported p i as + reported p i bs :=
  List.countP_append ..

theorem reported_eq_zero {as : List Action} (h : ∀ a ∈ as, a.concerns p = false) :
    reported p i as = 0 := by
  rw [reported, List.countP_eq_zero]
  intro a ha
  have hnot := h a ha
  split
  · simp only [Action.concerns] at hnot
    simp [hnot]
  · simp

theorem ended_eq_zero {as : List Action} (h : ∀ a ∈ as, a.concerns p = false) :
    ended p as = 0 := by
  rw [ended, List.count_eq_zero]
  intro hmem
  have hnot := h _ hmem
  simp [Action.concerns] at hnot

theorem Apart.reported_eq (h : Apart p s t) : reported p i t.trace = reported p i s.trace := by
  obtain ⟨as, has, hquiet⟩ := h.trace
  rw [has, reported_append, reported_eq_zero hquiet, Nat.add_zero]

theorem Apart.ended_eq (h : Apart p s t) : ended p t.trace = ended p s.trace := by
  obtain ⟨as, has, hquiet⟩ := h.trace
  rw [has, ended, List.count_append]
  exact congrArg _ (ended_eq_zero hquiet)

/-- **What `handleTrigger` does for the buffer**: the triggers passed are
reported and taken out of the mask. -/
theorem handleTrigger_spec (hc : Awaits p s e) :
    (s.handleTrigger e p).buffers p =
        { s.buffers p with triggermask :=
            (s.buffers p).triggermask &&& ~~~ passedTriggers (s.buffers p) } ∧
      (s.txBuffer ≠ some p → (s.handleTrigger e p).txBuffer ≠ some p) ∧
      ((s.handleTrigger e p).rxBuffer = some p ↔ s.rxBuffer = some p) ∧
      (∀ i, reported p i (s.handleTrigger e p).trace =
        reported p i s.trace + if Passes (s.buffers p) i then 1 else 0) ∧
      ended p (s.handleTrigger e p).trace = ended p s.trace := by
  have hnone (hpassed : passedTriggers (s.buffers p) = 0) :
      s.buffers p = { s.buffers p with triggermask :=
          (s.buffers p).triggermask &&& ~~~ passedTriggers (s.buffers p) } ∧
        ∀ i, ¬ Passes (s.buffers p) i := by
    constructor
    · have hall : (s.buffers p).triggermask &&& ~~~ (0 : UInt64) = (s.buffers p).triggermask := by
        simp
      rw [hpassed, hall]
    · intro i hi
      have hnames := names_triggersWith_iff.2 hi
      rw [← passedTriggers_eq, hpassed] at hnames
      exact not_names_zero hnames
  rw [handleTrigger]
  split
  case isFalse hmask =>
    have hempty : passedTriggers (s.buffers p) = 0 := by
      refine Mask.eq_of_has fun j hj => iff_of_false ?_ Mask.not_has_zero
      rw [passedTriggers_eq, has_triggersWith_iff hj]
      rintro ⟨i, -, hi⟩
      rw [Passes, not_not.1 hmask] at hi
      exact hi.1 (by simp)
    obtain ⟨hbuf, hpass⟩ := hnone hempty
    exact ⟨hbuf, id, .rfl, fun i => by rw [if_neg (hpass i), Nat.add_zero], rfl⟩
  case isTrue =>
    dsimp only
    split
    case isFalse hpassed =>
      obtain ⟨hbuf, hpass⟩ := hnone (not_not.1 hpassed)
      exact ⟨hbuf, id, .rfl, fun i => by rw [if_neg (hpass i), Nat.add_zero], rfl⟩
    case isTrue =>
      -- the client is called, and leaves the buffer alone
      generalize hcb : Callback.rxTrigger p (passedTriggers (s.buffers p)) = cb
      have hne : cb ≠ .rxEnd p := by
        rw [← hcb]
        simp
      have hcall : Apart p (s.act (.call cb)) (s.call e cb) := by
        refine apart_performs (hc.leaves cb) ?_
        by_cases hrx : s.rxBuffer = some p
        · exact .inl (hc.continues hrx cb hne)
        · exact .inr hrx
      refine ⟨?_, hcall.txBuffer, hcall.rxBuffer, fun i => ?_, ?_⟩
      · simp only [setBuffer, Function.update_self, hcall.buffer]
        rfl
      · have hreport : reported p i (s.call e cb).trace = reported p i (s.act (.call cb)).trace :=
          hcall.reported_eq
        simp only [setBuffer]
        rw [hreport, act, reported_append, ← hcb, passedTriggers_eq]
        congr 1
        simp [reported, names_triggersWith_iff]
      · have hend : ended p (s.call e cb).trace = ended p (s.act (.call cb)).trace := hcall.ended_eq
        simp only [setBuffer]
        rw [hend, act, ended, List.count_append, ← hcb]
        simp [ended]

/-- **What `callRxEnd` does for the buffer**: its end is reported when it
is full, and then it is taken from the receiver. -/
theorem callRxEnd_spec (hc : Awaits p s e) {dueToTimeout : Bool} :
    (s.callRxEnd e p dueToTimeout).buffers p = s.buffers p ∧
      (s.txBuffer ≠ some p → (s.callRxEnd e p dueToTimeout).txBuffer ≠ some p) ∧
      (∀ i, reported p i (s.callRxEnd e p dueToTimeout).trace = reported p i s.trace) ∧
      if (s.buffers p).isComplete then
        (s.callRxEnd e p dueToTimeout).rxBuffer ≠ some p ∧
          ended p (s.callRxEnd e p dueToTimeout).trace = ended p s.trace + 1
      else
        ((s.callRxEnd e p dueToTimeout).rxBuffer = some p ↔ s.rxBuffer = some p) ∧
          ended p (s.callRxEnd e p dueToTimeout).trace = ended p s.trace := by
  rw [callRxEnd]
  split
  · -- the buffer is no longer the receiver's, whatever the client does in `rx_end`
    have hcall : Apart p (({ s with
        rxBuffer := none
        notifyMask := s.notifyMask &&& ~~~ receiverHasdata }).act (.call (.rxEnd p)))
        (({ s with
          rxBuffer := none
          notifyMask := s.notifyMask &&& ~~~ receiverHasdata }).call e (.rxEnd p)) :=
      apart_performs (hc.leaves _) (.inr (by simp [act]))
    refine ⟨hcall.buffer, hcall.txBuffer, fun i => ?_, ?_, ?_⟩
    · rw [hcall.reported_eq, act, reported_append]
      simp [reported]
    · exact fun h => by simpa [act] using hcall.rxBuffer.1 h
    · rw [hcall.ended_eq, act, ended, List.count_append]
      simp [ended]
  · have htimeout : Apart p s (if dueToTimeout then s.call e (.rxTimeout p) else s) := by
      split
      · exact apart_call hc rfl
      · exact .refl
    exact ⟨htimeout.buffer, htimeout.txBuffer, fun i => htimeout.reported_eq, htimeout.rxBuffer,
      htimeout.ended_eq⟩

/-! ## A buffer that is being filled -/

/-- The octets that go into a buffer. -/
def capacity (b : RtuartBuffer) : ℕ := min b.size b.validcount

/-- **What is received**: the octets `cs` are in the buffer, which was
`b` when it was started, with the memory `data`, and the client knows as
much. -/
structure Received (p : ℕ) (b : RtuartBuffer) (data : Mem) (cs : List UInt8) (s : Pc16c550) :
    Prop where
  data_eq : (s.buffers p).data = some (data.write 0 cs)
  size_eq : (s.buffers p).size = b.size
  validcount_eq : (s.buffers p).validcount = b.validcount
  trigger_eq : (s.buffers p).trigger = b.trigger
  transfered_eq : (s.buffers p).transfered = cs.length
  triggers : ∀ i, Names (s.buffers p).triggermask i ↔
    Names b.triggermask i ∧ cs.length ≤ (b.trigger i).toNat
  reported_eq : ∀ i, reported p i s.trace =
    if Names b.triggermask i ∧ (b.trigger i).toNat < cs.length then 1 else 0
  txBuffer : s.txBuffer ≠ some p
  le_capacity : cs.length ≤ capacity b
  rxBuffer : s.rxBuffer = some p ↔ cs.length < capacity b
  ended_eq : ended p s.trace = if cs.length < capacity b then 0 else 1

variable {b : RtuartBuffer} {data : Mem} {cs : List UInt8}

theorem Received.of_apart (h : Received p b data cs s) (ha : Apart p s t) :
    Received p b data cs t where
  data_eq := by rw [ha.buffer]; exact h.data_eq
  size_eq := by rw [ha.buffer]; exact h.size_eq
  validcount_eq := by rw [ha.buffer]; exact h.validcount_eq
  trigger_eq := by rw [ha.buffer]; exact h.trigger_eq
  transfered_eq := by rw [ha.buffer]; exact h.transfered_eq
  triggers := by rw [ha.buffer]; exact h.triggers
  reported_eq i := by rw [ha.reported_eq]; exact h.reported_eq i
  txBuffer := ha.txBuffer h.txBuffer
  le_capacity := h.le_capacity
  rxBuffer := ha.rxBuffer.trans h.rxBuffer
  ended_eq := by rw [ha.ended_eq]; exact h.ended_eq

theorem Received.isComplete_iff (h : Received p b data cs s) :
    (s.buffers p).isComplete = true ↔ capacity b ≤ cs.length := by
  simp only [RtuartBuffer.isComplete, h.size_eq, h.validcount_eq, h.transfered_eq, capacity,
    Bool.or_eq_true, decide_eq_true_eq]
  omega

/-- An octet goes behind those that are there. -/
theorem Received.buffers_storeOctet (h : Received p b data cs s) :
    (s.storeOctet e p).buffers p = { s.buffers p with
      data := some (data.write 0 (cs ++ [e.rbr]))
      transfered := cs.length + 1 } := by
  have hwrite : Function.update (data.write 0 cs) cs.length e.rbr =
      data.write 0 (cs ++ [e.rbr]) := by
    rw [Mem.write_append, Nat.zero_add, Mem.write_singleton]
  simp [storeOctet, setBuffer, act, h.data_eq, h.transfered_eq, hwrite]

/-- It passes the triggers that are at its place. -/
theorem Received.passes_storeOctet (h : Received p b data cs s) (i : Fin 32) :
    Passes ((s.storeOctet e p).buffers p) i ↔
      Names b.triggermask i ∧ (b.trigger i).toNat = cs.length := by
  rw [passes_iff, h.buffers_storeOctet]
  simp only [h.triggers, h.trigger_eq]
  by_cases hn : Names b.triggermask i
  · simp only [hn, true_and]
    omega
  · simp [hn]

/-- It is not reported by itself. -/
theorem reported_storeOctet (i : Fin 32) :
    reported p i (s.storeOctet e p).trace = reported p i s.trace := by
  have happend : (s.storeOctet e p).trace = s.trace ++ [.read .rbr e.rbr] := rfl
  rw [happend, reported_append]
  rfl

theorem ended_storeOctet : ended p (s.storeOctet e p).trace = ended p s.trace := by
  have happend : (s.storeOctet e p).trace = s.trace ++ [.read .rbr e.rbr] := rfl
  rw [happend, ended, List.count_append]
  rfl

/-- **An octet is received**: it goes into the buffer, the triggers behind
it are reported, and the end if it was the last. -/
theorem Received.receive (h : Received p b data cs s) (hc : Awaits p s e)
    (hmore : cs.length < capacity b) {dueToTimeout : Bool} :
    Received p b data (cs ++ [e.rbr]) (s.handleReceivedData e s.rxBuffer dueToTimeout) := by
  have hrx := h.rxBuffer.2 hmore
  have hlen : (cs ++ [e.rbr]).length = cs.length + 1 := by simp
  have hopen : ¬ (s.buffers p).isComplete = true := fun hfull => by
    have := h.isComplete_iff.1 hfull
    omega
  -- the octet
  have hbuf := h.buffers_storeOctet (e := e)
  have hmask : ((s.storeOctet e p).buffers p).triggermask = (s.buffers p).triggermask := by rw [hbuf]
  have hpasses := h.passes_storeOctet (e := e)
  -- the triggers
  have hc' : Awaits p (s.storeOctet e p) e := ⟨hc.leaves, fun _ => hc.continues hrx⟩
  obtain ⟨tbuf, ttx, trx, treported, tended⟩ := handleTrigger_spec hc'
  have hcomplete : (((s.storeOctet e p).handleTrigger e p).buffers p).isComplete = true ↔
      capacity b ≤ cs.length + 1 := by
    rw [tbuf, hbuf]
    simp only [RtuartBuffer.isComplete, h.size_eq, h.validcount_eq, capacity, Bool.or_eq_true,
      decide_eq_true_eq]
    omega
  -- the end
  have hc'' : Awaits p ((s.storeOctet e p).handleTrigger e p) e :=
    ⟨hc.leaves, fun _ => hc.continues hrx⟩
  have hspec : (((s.storeOctet e p).handleTrigger e p).callRxEnd e p dueToTimeout).buffers p = _ ∧ _ :=
    callRxEnd_spec hc''
  have hstep : s.handleReceivedData e s.rxBuffer dueToTimeout =
      ((s.storeOctet e p).handleTrigger e p).callRxEnd e p dueToTimeout := by
    rw [hrx, handleReceivedData, if_neg hopen]
  rw [← hstep] at hspec
  obtain ⟨ebuf, etx, ereported, eend⟩ := hspec
  have hbuffers := ebuf.trans tbuf
  refine ⟨?_, ?_, ?_, ?_, ?_, fun i => ?_, fun i => ?_, etx (ttx h.txBuffer), ?_, ?_, ?_⟩
  · rw [hbuffers, hbuf]
  · rw [hbuffers, hbuf]; exact h.size_eq
  · rw [hbuffers, hbuf]; exact h.validcount_eq
  · rw [hbuffers, hbuf]; exact h.trigger_eq
  · rw [hbuffers, hbuf, hlen]
  · rw [hbuffers, hlen, passedTriggers_eq]
    dsimp only
    rw [names_and_not_triggersWith_iff, hpasses, hmask, h.triggers]
    by_cases hn : Names b.triggermask i
    · simp only [hn, true_and]
      omega
    · simp [hn]
  · rw [ereported, treported, reported_storeOctet, h.reported_eq, hlen]
    simp only [hpasses]
    by_cases hn : Names b.triggermask i
    · simp only [hn, true_and]
      split <;> split <;> split <;> omega
    · simp [hn]
  · rw [hlen]; omega
  · rw [hlen]
    split at eend
    · next hfull =>
      have := hcomplete.1 hfull
      exact iff_of_false eend.1 (by omega)
    · next hfull =>
      have hlt : cs.length + 1 < capacity b := by
        rw [hcomplete] at hfull
        omega
      exact iff_of_true (eend.1.2 (trx.2 hrx)) hlt
  · rw [tended, ended_storeOctet, h.ended_eq, if_pos hmore] at eend
    rw [hlen]
    split at eend
    · next hfull =>
      have := hcomplete.1 hfull
      rw [eend.2, if_neg (by omega)]
    · next hfull =>
      rw [hcomplete] at hfull
      rw [eend.2, if_pos (by omega)]

/-! ## Over the interrupts -/

/-- What the switch of the handler does with octets it takes. -/
theorem Received.receive_taken (h : Received p b data cs s) (hc : Awaits p s e) :
    Received p b data ((cs ++ [e.rbr]).take (capacity b)) (s.receive e) := by
  have hle := h.le_capacity
  have hplace : ∀ t : Pc16c550, Apart p t { t with place := .receiving } :=
    fun t => .of_eq rfl id .rfl rfl
  rcases Nat.lt_or_ge cs.length (capacity b) with hmore | hfull
  · have hall : (cs ++ [e.rbr]).take (capacity b) = cs ++ [e.rbr] := by
      rw [List.take_of_length_le]
      rw [List.length_append, List.length_singleton]
      omega
    rw [hall]
    exact (h.receive hc hmore).of_apart (hplace _)
  · -- the buffer is full, and the octet goes elsewhere
    have hnone : (cs ++ [e.rbr]).take (capacity b) = cs := by
      rw [List.take_append_of_le_length hfull, List.take_of_length_le (by omega)]
    have hrx : s.rxBuffer ≠ some p := by
      rw [ne_eq, h.rxBuffer]
      omega
    rw [hnone]
    exact (h.of_apart (apart_handleReceivedData hc hrx)).of_apart (hplace _)

theorem Received.take_self (h : Received p b data cs s) : cs.take (capacity b) = cs :=
  List.take_of_length_le h.le_capacity

/-- **A step of the handler** adds the octet it takes, while there is space
for it. -/
theorem Received.of_step (h : Received p b data cs s) (hc : Awaits p s e) :
    Received p b data ((cs ++ (taken s e).toList).take (capacity b)) (s.step e) := by
  have hread : Apart p s (s.entered.updateIirAndLsr e) := apart_read
  have hnotify : (s.entered.updateIirAndLsr e).notifyMask = s.notifyMask := by
    rw [entered, updateIirAndLsr]
    (repeat' split) <;> rfl
  have hreceived := h.of_apart hread
  have hc' := hc.of_apart hread
  cases hcause : handled s e with
  | none =>
    rw [step_of_handled_none hcause, taken, hcause]
    exact (h.of_apart apart_updateIirAndLsr).receive_taken (hc.of_apart apart_updateIirAndLsr)
  | some cause =>
    obtain ⟨rfl, hstep⟩ := step_of_handled hcause
    have hkeep : ∀ {t}, Apart p (s.entered.updateIirAndLsr e) t →
        Received p b data ((cs ++ (none : Option UInt8).toList).take (capacity b)) t := by
      intro t ht
      rw [Option.toList_none, List.append_nil, h.take_self]
      exact hreceived.of_apart ht
    have hdata : Received p b data
        ((cs ++ (if s.notifies receiverHasdata then some e.rbr else none).toList).take (capacity b))
        (if (s.entered.updateIirAndLsr e).notifies receiverHasdata then
          (s.entered.updateIirAndLsr e).receive e
        else (s.entered.updateIirAndLsr e).flushRxFifo.next) := by
      have hsame : (s.entered.updateIirAndLsr e).notifies receiverHasdata =
          s.notifies receiverHasdata := by
        simp only [notifies, hnotify]
      rw [hsame]
      split
      · exact hreceived.receive_taken hc'
      · exact hkeep ((apart_act rfl).trans apart_next)
    rw [hstep, taken, hcause, dispatch, updateIirAndLsr_iir]
    cases Cause.ofIir e.iir with
    | receivedDataAvailable => exact hdata
    | characterTimeout => exact hdata
    | transmitterHoldingEmpty =>
      refine hkeep ?_
      dsimp only
      split
      · exact (apart_fill hc' hreceived.txBuffer 16 16).trans apart_next
      · exact apart_next
    | modemStatus => exact hkeep ((apart_handleModemStatus hc').trans apart_next)
    | none => exact hkeep (apart_handleNone hc')
    | receiverLineStatus => exact hkeep ((apart_handleLineStatus hc').trans apart_next)
    | illegal => exact hkeep apart_leave

/-- The octets that are taken in a run. -/
def octetsTaken : Pc16c550 → List Seen → List UInt8
  | _, [] => []
  | s, e :: es => (taken s e).toList ++ octetsTaken (s.step e) es

theorem take_take_append (k : ℕ) (cs ds : List UInt8) :
    (cs.take k ++ ds).take k = (cs ++ ds).take k := by
  have hlen : k - min k cs.length = k - cs.length := by omega
  rw [List.take_append, List.take_append, List.take_take, List.length_take, hlen, Nat.min_self]

theorem Received.of_run (h : Received p b data cs s) {es : List Seen}
    (hc : EachStep step (Awaits p) s es) :
    Received p b data ((cs ++ octetsTaken s es).take (capacity b)) (run step s es) := by
  induction es generalizing s cs with
  | nil =>
    rw [octetsTaken, List.append_nil, h.take_self]
    exact h
  | cons e es ih =>
    obtain ⟨hfirst, hrest⟩ := eachStep_cons.1 hc
    have hnext := ih (h.of_step hfirst) hrest
    rw [take_take_append, List.append_assoc] at hnext
    exact hnext

/-- A buffer that is started. -/
theorem received_rxStart (hdata : (s.buffers p).data = some data) (htx : s.txBuffer ≠ some p)
    (hcapacity : 1 ≤ capacity (s.buffers p)) (htrace : s.trace = []) :
    Received p (s.buffers p) data [] (s.rxStart p) := by
  have hstop : ∃ t : Pc16c550, Apart p t (if s.rxBuffer.isSome then s.rxStop else s) ∧
      t.buffers = s.buffers ∧ t.txBuffer = s.txBuffer ∧ t.trace = [] := by
    split
    · exact ⟨{ s with rxBuffer := none }, apart_changeNotify, rfl, rfl, htrace⟩
    · exact ⟨s, .refl, rfl, rfl, htrace⟩
  rw [rxStart]
  generalize (if s.rxBuffer.isSome then s.rxStop else s) = u at hstop ⊢
  obtain ⟨t, hu, hbuf, htx', htrace'⟩ := hstop
  have hbuffer : u.buffers p = s.buffers p := by rw [hu.buffer, hbuf]
  have hstart : Received p (s.buffers p) data []
      { u.setBuffer p { u.buffers p with transfered := 0 } with rxBuffer := some p } := by
    refine ⟨?_, ?_, ?_, ?_, ?_, fun i => ?_, fun i => ?_, ?_, Nat.zero_le _, ?_, ?_⟩
    · simp [setBuffer, hbuffer, hdata]
    · simp [setBuffer, hbuffer]
    · simp [setBuffer, hbuffer]
    · simp [setBuffer, hbuffer]
    · simp [setBuffer]
    · simp [setBuffer, hbuffer]
    · have hnone : reported p i u.trace = 0 := by rw [hu.reported_eq, htrace']; rfl
      simpa [setBuffer] using hnone
    · exact hu.txBuffer (by rwa [htx'])
    · exact iff_of_true rfl hcapacity
    · have hnone : ended p u.trace = 0 := by rw [hu.ended_eq, htrace']; rfl
      rw [if_pos (by exact hcapacity)]
      exact hnone
  exact hstart.of_apart apart_changeNotify

/-- **A buffer is filled as it is to be**, whatever interrupts come and
whatever the client sends meanwhile: after any run of the handler its memory
holds the octets taken so far, as many as it has space for, and nothing else
has been written to it; each of its triggers has been reported once if its
octet is among them and not at all else, and its end once if it is full and
not at all else. -/
theorem reception (s : Pc16c550) (p : ℕ) (data : Mem) (htx : s.txBuffer ≠ some p)
    (htrace : s.trace = []) (hdata : (s.buffers p).data = some data)
    (hcapacity : 1 ≤ capacity (s.buffers p)) (es : List Seen)
    (hclient : EachStep step (Awaits p) (s.rxStart p) es) :
    Received p (s.buffers p) data
      ((octetsTaken (s.rxStart p) es).take (capacity (s.buffers p)))
      (run step (s.rxStart p) es) := by
  have hrun := (received_rxStart hdata htx hcapacity htrace).of_run hclient
  rwa [List.nil_append] at hrun

/-- A driver that does nothing yet, and a buffer for three octets, with a
trigger on the second and one on the third. -/
def threeReceived : Pc16c550 :=
  ⟨0, none, none, false, 0,
    fun _ => ⟨some fun _ => 0, 3, 3, 0, 3, fun i => if i.val = 0 then 1 else 2⟩, 0, 0, .outside, []⟩

/-- Four octets, of which the last is not for the buffer. -/
def fourOctets : List Seen :=
  [0x55, 0xAA, 0x33, 0x66].map fun octet => ⟨0x4, 0x61, octet, 0, 0, true, fun _ => []⟩

theorem reception_three :
    Received 7 (threeReceived.buffers 7) (fun _ => 0) [0x55, 0xAA, 0x33]
      (run step (threeReceived.rxStart 7) fourOctets) := by
  have hclient : EachStep step (Awaits 7) (threeReceived.rxStart 7) fourOctets := by
    intro pre e hpre
    have he : e ∈ fourOctets := hpre.subset (by simp)
    obtain ⟨octet, -, rfl⟩ := List.mem_map.1 he
    exact ⟨by simp, by simp⟩
  have h := reception threeReceived 7 (fun _ => 0) (by decide) rfl rfl (by decide) fourOctets
    hclient
  have htaken : (octetsTaken (threeReceived.rxStart 7) fourOctets).take 3 = [0x55, 0xAA, 0x33] := by
    decide +kernel
  rwa [← htaken]

end Pc16c550

end Dmxrtuart

end Dmx4Linux2
