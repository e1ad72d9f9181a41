import Dmx4Linux2.Dmxrtuart.Settings

/-!
# rtuart — the driver of the PL011 without a buffer

A client that gives the driver no buffer finds it as it was: no octet is sent
(`Silent`), and of the octets received each is reported by itself or not at
all. What the driver does then depends on which of them have an error, and
on nothing else of them (`step_blank`).
-/

namespace Dmx4Linux2

namespace Dmxrtuart

namespace Pl011

open Pc16c550 (Callback transmitterReady transmitterEmpty receiverHasdata)

variable {s t u : Pl011} {e : Seen}

/-! ## A driver without buffers -/

/-- **The driver has no buffer**, to send or to receive into. -/
def Idle (s : Pl011) : Prop := s.txBuffer = none ∧ s.rxBuffer = none

/-- **No octet is sent**, and the driver stays without buffers. -/
structure Silent (s t : Pl011) : Prop where
  idle : Idle s → Idle t
  trace : ∃ as, t.trace = s.trace ++ as ∧ ∀ c, .dr c ∉ as

theorem Silent.trans (h : Silent s t) (h' : Silent t u) : Silent s u := by
  obtain ⟨as, has, hno⟩ := h.trace
  obtain ⟨bs, hbs, hno'⟩ := h'.trace
  refine ⟨h'.idle ∘ h.idle, as ++ bs, by rw [hbs, has, List.append_assoc], fun c hc => ?_⟩
  exact (List.mem_append.1 hc).elim (hno c) (hno' c)

/-- What changes neither the buffers nor the trace. -/
theorem Silent.of_eq (htx : t.txBuffer = s.txBuffer) (hrx : t.rxBuffer = s.rxBuffer)
    (htrace : t.trace = s.trace) : Silent s t :=
  ⟨fun h => ⟨htx.trans h.1, hrx.trans h.2⟩, [], by simp [htrace], by simp⟩

theorem Silent.refl : Silent s s := .of_eq rfl rfl rfl

theorem silent_act {a : Action} (h : ∀ c, a ≠ .dr c) : Silent s (s.act a) :=
  ⟨id, [a], rfl, fun c hc => h c (List.mem_singleton.1 hc).symm⟩

theorem silent_changeRegister (reg : Register) (m v : UInt64) :
    Silent s (s.changeRegister reg m v) := by
  unfold changeRegister
  split
  · dsimp only
    split <;> exact .of_eq rfl rfl rfl
  · exact .refl

theorem silent_modControl (lm lv cm cv : UInt64) : Silent s (s.modControl lm lv cm cv) :=
  (silent_changeRegister _ _ _).trans (silent_changeRegister _ _ _)

theorem silent_setFormat (databits : Int32) (parity : UInt8) (stopbits : Int8) :
    Silent s (s.setFormat databits parity stopbits) := by
  unfold setFormat
  exact silent_changeRegister _ _ _

theorem silent_setFifoEnable (on : Bool) : Silent s (s.setFifoEnable on) := by
  unfold setFifoEnable setRxFifoLevel setTxFifoLevel
  exact ((silent_changeRegister _ _ _).trans (silent_changeRegister _ _ _)).trans
    (silent_changeRegister _ _ _)

theorem silent_updateNotification : Silent s s.updateNotification :=
  (silent_changeRegister _ _ _).trans (.of_eq rfl rfl rfl)

theorem silent_changeNotify (notify : UInt64) : Silent s (s.changeNotify notify) := by
  have hmask : Silent s { s with notifyMask := notify } := .of_eq rfl rfl rfl
  unfold changeNotify
  split
  · dsimp only
    split
    · exact hmask
    · exact hmask.trans silent_updateNotification
  · exact .refl

theorem silent_create (garbage : Pl011) : Silent garbage (create garbage) := by
  have hmask : Silent garbage
      { garbage with notifyMask := 0, inIrq := false, doTxPolling := false } := .of_eq rfl rfl rfl
  unfold create
  refine hmask.trans ?_
  generalize ({ garbage with notifyMask := 0, inIrq := false, doTxPolling := false } : Pl011) = t
  have henable : Silent t (t.enableUart true) := silent_modControl _ _ _ _
  exact henable.trans ((silent_setFifoEnable true).trans silent_updateNotification)

theorem silent_call (he : ∀ cb, e.requests cb = []) (cb : Callback) : Silent s (s.call e cb) := by
  rw [call, he, List.foldl_nil]
  exact silent_act (by simp)

theorem silent_leave : Silent s s.leave := by
  have hupdate : Silent s { s.updateNotification with inIrq := false } :=
    silent_updateNotification.trans (.of_eq rfl rfl rfl)
  unfold leave
  dsimp only
  split
  · exact hupdate.trans (silent_act (by simp))
  · exact hupdate

theorem silent_receiveNone (he : ∀ cb, e.requests cb = []) (dueToTimeout : Bool) (d : UInt64) :
    Silent s (s.receive e none dueToTimeout d) := by
  unfold receive
  split
  · rw [drToEvent_eq_zero, if_neg (by simp)]
    exact .refl
  · split
    · have hmask : Silent s { s with notifyMask := s.notifyMask &&& ~~~ receiverHasdata } :=
        .of_eq rfl rfl rfl
      exact hmask.trans (silent_call he _)
    · exact .refl

theorem silent_handleReceivedData (he : ∀ cb, e.requests cb = []) (dueToTimeout : Bool) :
    Silent s (s.handleReceivedData e none dueToTimeout) := by
  unfold handleReceivedData
  induction e.received generalizing s with
  | nil => exact .refl
  | cons d ds ih => exact (silent_receiveNone he dueToTimeout d).trans ih

theorem silent_handleNone (he : ∀ cb, e.requests cb = []) : Silent s (s.handleNone e) := by
  unfold handleNone
  split
  · split
    · have hpolling : Silent s { s with doTxPolling := true } := .of_eq rfl rfl rfl
      exact hpolling.trans silent_leave
    · split
      · exact .refl
      · have hrelease : Silent s (s.release transmitterEmpty) :=
          ⟨fun h => ⟨rfl, h.2⟩, [], by simp [release], by simp⟩
        exact hrelease.trans ((silent_call he _).trans silent_leave)
  · exact silent_leave

/-- What a pass is without a buffer. -/
theorem step_of_idle (h : Idle s) : s.step e =
    let s := { s with inIrq := true }
    if e.mis &&& (misOe ||| misBe ||| misPe ||| misFe ||| misRt ||| misTx ||| misRx ||| misCts)
      = 0 then s.handleNone e
    else if e.mis &&& (misRx ||| misRt) ≠ 0 then
      s.handleReceivedData e none (e.mis &&& misRt != 0)
    else if e.mis &&& errorsIntMask ≠ 0 then
      s.call e (.rxErr (isToEvent (e.mis &&& errorsIntMask)))
    else if e.mis &&& misTx ≠ 0 then
      if s.notifies transmitterReady then s.act .nullPointer else s
    else s := by
  have htx : ({ s with inIrq := true } : Pl011).haveRemainingTxData = false := by
    rw [haveRemainingTxData, h.1]
    rfl
  have hfill : ({ s with inIrq := true } : Pl011).fillTransmitter e =
      ({ s with inIrq := true } : Pl011).act .nullPointer := by
    rw [fillTransmitter, h.1]
  unfold step
  dsimp only
  rw [if_neg (by rw [htx]; simp), hfill, h.2]

theorem silent_step (h : Idle s) (he : ∀ cb, e.requests cb = []) : Silent s (s.step e) := by
  have hirq : Silent s { s with inIrq := true } := .of_eq rfl rfl rfl
  rw [step_of_idle h]
  refine hirq.trans ?_
  generalize { s with inIrq := true } = t
  dsimp only
  split_ifs
  · exact silent_handleNone he
  · exact silent_handleReceivedData he _
  · exact silent_call he _
  · exact silent_act (by simp)
  · exact .refl
  · exact .refl

/-! ## What an octet is does not matter -/

/-- An action, but for the octet that is reported. -/
def erase : Action → Action
  | .call (.rxChar _) => .call (.rxChar 0)
  | a => a

/-- The driver, but for the octets that were reported. -/
def erased (s : Pl011) : Pl011 := { s with trace := s.trace.map erase }

/-- A reading of DR, but for the octet and the kind of error. -/
def blankReading (d : UInt64) : UInt64 := if hasError d then drOe else 0

/-- What a pass meets, but for the octets. -/
def Seen.blank (e : Seen) : Seen := { e with received := e.received.map blankReading }

theorem erased_act (a : Action) : (s.act a).erased = s.erased.act (erase a) := by
  simp [erased, act]

theorem erased_changeRegister (reg : Register) (m v : UInt64) :
    (s.changeRegister reg m v).erased = s.erased.changeRegister reg m v := by
  have hregs : s.erased.regs = s.regs := rfl
  unfold changeRegister
  rw [hregs]
  split
  · dsimp only
    split <;> rfl
  · rfl

theorem erased_modControl (lm lv cm cv : UInt64) :
    (s.modControl lm lv cm cv).erased = s.erased.modControl lm lv cm cv := by
  rw [modControl, modControl, erased_changeRegister, erased_changeRegister]

theorem erased_setFormat (databits : Int32) (parity : UInt8) (stopbits : Int8) :
    (s.setFormat databits parity stopbits).erased = s.erased.setFormat databits parity stopbits := by
  unfold setFormat
  exact erased_changeRegister _ _ _

theorem erased_updateNotification : s.updateNotification.erased = s.erased.updateNotification := by
  have hwrite : ∀ (t : Pl011) (reg : Register) (v : UInt64),
      (t.writeRegister reg v).erased = t.erased.writeRegister reg v := fun _ _ _ => rfl
  have hnotifies : ∀ m, s.erased.notifies m = s.notifies m := fun _ => rfl
  unfold updateNotification
  dsimp only
  rw [hwrite, erased_changeRegister]
  simp only [hnotifies]

theorem erased_changeNotify (notify : UInt64) :
    (s.changeNotify notify).erased = s.erased.changeNotify notify := by
  have hmask : s.erased.notifyMask = s.notifyMask := rfl
  have hirq : s.erased.inIrq = s.inIrq := rfl
  unfold changeNotify
  rw [hmask]
  split
  · dsimp only
    rw [hirq]
    split
    · rfl
    · exact erased_updateNotification
  · rfl

theorem erased_call (he : ∀ cb, e.requests cb = []) (cb : Callback) :
    (s.call e cb).erased = s.erased.act (erase (.call cb)) := by
  rw [call, he, List.foldl_nil, erased_act]

theorem erased_leave : s.leave.erased = s.erased.leave := by
  have hoff : ({ s.updateNotification with inIrq := false } : Pl011).erased =
      { s.erased.updateNotification with inIrq := false } := by
    rw [← erased_updateNotification]
    rfl
  unfold leave
  rw [← hoff]
  dsimp only
  split
  · rw [erased_act, if_pos (by assumption)]
    rfl
  · rw [if_neg (by assumption)]

theorem hasError_blankReading (d : UInt64) : hasError (blankReading d) = hasError d := by
  unfold blankReading
  cases h : hasError d <;> decide

theorem erased_receive (he : ∀ cb, e.requests cb = []) (dueToTimeout : Bool) (d : UInt64) :
    (s.receive e none dueToTimeout d).erased =
      s.erased.receive e.blank none dueToTimeout (blankReading d) := by
  have hnotifies : s.erased.notifies receiverHasdata = s.notifies receiverHasdata := rfl
  unfold receive
  rw [hasError_blankReading, hnotifies]
  split
  · rw [drToEvent_eq_zero, drToEvent_eq_zero, if_neg (by simp), if_neg (by simp)]
  · next hgood =>
    split
    · have hzero : (blankReading d).toUInt8 = 0 := by
        rw [blankReading, if_neg hgood]
        rfl
      have hblank : ∀ cb, e.blank.requests cb = [] := he
      dsimp only
      rw [receiveChar, erased_call he, receiveChar, call, hblank, List.foldl_nil, hzero]
      rfl
    · rfl

theorem erased_handleReceivedData (he : ∀ cb, e.requests cb = []) (dueToTimeout : Bool) :
    (s.handleReceivedData e none dueToTimeout).erased =
      s.erased.handleReceivedData e.blank none dueToTimeout := by
  have hreceived : e.blank.received = e.received.map blankReading := rfl
  unfold handleReceivedData
  rw [hreceived]
  induction e.received generalizing s with
  | nil => rfl
  | cons d ds ih =>
    rw [List.foldl_cons, List.map_cons, List.foldl_cons, ih, erased_receive he]

theorem erased_handleNone (he : ∀ cb, e.requests cb = []) :
    (s.handleNone e).erased = s.erased.handleNone e.blank := by
  have hnotifies : s.erased.notifies transmitterEmpty = s.notifies transmitterEmpty := rfl
  have hcomplete : s.erased.txComplete = s.txComplete := rfl
  have hempty : e.blank.txEmpty = e.txEmpty := rfl
  have hbusy : e.blank.txBusy = e.txBusy := rfl
  have hblank : ∀ cb, e.blank.requests cb = [] := he
  unfold handleNone
  rw [hnotifies, hcomplete, hempty, hbusy]
  split
  · split
    · rw [erased_leave]
      rfl
    · split
      · rfl
      · rw [erased_leave, erased_call he, call, hblank, List.foldl_nil]
        rfl
  · exact erased_leave

/-- **What the octets are does not matter** in a pass without a buffer, but
for their errors. -/
theorem step_blank (h : Idle s) (he : ∀ cb, e.requests cb = []) :
    (s.step e).erased = s.erased.step e.blank := by
  have herased : Idle s.erased := h
  have hmis : e.blank.mis = e.mis := rfl
  have hblank : ∀ cb, e.blank.requests cb = [] := he
  have hirq : ({ s.erased with inIrq := true } : Pl011) =
      ({ s with inIrq := true } : Pl011).erased := rfl
  rw [step_of_idle h, step_of_idle herased, hmis, hirq]
  generalize ({ s with inIrq := true } : Pl011) = t
  have hnotifies : t.erased.notifies transmitterReady = t.notifies transmitterReady := rfl
  dsimp only
  rw [hnotifies]
  split_ifs
  · exact erased_handleNone he
  · exact erased_handleReceivedData he _
  · rw [erased_call he, call, hblank, List.foldl_nil]
    rfl
  · exact erased_act _
  · rfl
  · rfl

end Pl011

end Dmxrtuart

end Dmx4Linux2
