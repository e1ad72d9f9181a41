import Dmx4Linux2.Common.Trace
import Dmx4Linux2.Uart.Model.Handler

/-!
# uart drivers — clients are told what they asked for

"Notification will be automatically disabled once the notifier function is
called." A callback that a client can ask for is armed by a call that enables
its notification, and comes at most once then (`Told`); that the transmitter
is empty the client is told only when a reading of the status said so. This
holds for everything that happens to a pc16c550. Of a PL011 it is said but
for `transmitter_has_space`, which comes from `update_notification` as well,
asked for or not. Of `line_status_event` and `modem_input_changed` nothing is
said.
-/

namespace Dmx4Linux2

namespace Uart

/-- The notification a callback is for, where it is disabled by the call. -/
def Driver.asked (driver : Driver) : Callback → Option UInt64
  | .transmitterHasSpace _ => if driver = .pc16c550 then some notifyTxready else none
  | .transmitterEmpty => some notifyTxempty
  | .receiverDataAvailable _ => some notifyRxavailable
  | _ => none

/-- Whether the notification is asked for, after an action. -/
def Action.arms (driver : Driver) (bit : UInt64) (armed : Bool) : Action → Bool
  | .notify (.enable mask) => armed || mask &&& bit != 0
  | .call cb => armed && !decide (driver.asked cb = some bit)
  | _ => armed

/-- **The notification was enabled since it was last given.** -/
def armed (driver : Driver) (bit : UInt64) (start : Bool) (t : List Action) : Bool :=
  t.foldl (Action.arms driver bit) start

/-- What the last reading of the status said of the transmitter. -/
def emptied (t : List Action) : Bool :=
  t.foldl (fun empty a => match a with
    | .lsr v => v &&& Pc16c550.lsrTransmitterEmpty != 0
    | .fr v => v &&& Pl011.frBusy == 0
    | _ => empty) false

/-- **A client that is called asked for it, and what it is told is true.** At
the start the notifications of the mask are enabled. -/
def Told (driver : Driver) (mask : UInt64) (pre : List Action) : Action → Prop
  | .call cb =>
    (∀ bit, driver.asked cb = some bit → armed driver bit (mask &&& bit != 0) pre = true) ∧
      (cb = .transmitterEmpty → emptied pre = true)
  | _ => True

/-- The mask has no notification that is not armed. -/
structure Telling (driver : Driver) (first mask : UInt64) (t : List Action) : Prop where
  told : Justified (Told driver first) t
  mask : ∀ bit, mask &&& bit ≠ 0 → armed driver bit (first &&& bit != 0) t = true

/-- Readings and writings of registers, and of the ring. -/
def Action.Aside : Action → Prop
  | .notify _ => False
  | .call _ => False
  | _ => True

variable {driver : Driver} {first mask bit : UInt64} {t : List Action} {a : Action} {b : Bool}

theorem armed_concat : armed driver bit b (t ++ [a]) = a.arms driver bit (armed driver bit b t) := by
  rw [armed, List.foldl_append]
  rfl

theorem armed_aside (ha : a.Aside) : armed driver bit b (t ++ [a]) = armed driver bit b t := by
  rw [armed_concat]
  cases a <;> first | rfl | exact absurd ha id

theorem emptied_concat_lsr (v : UInt8) :
    emptied (t ++ [.lsr v]) = (v &&& Pc16c550.lsrTransmitterEmpty != 0) := by
  rw [emptied, List.foldl_append]
  rfl

theorem emptied_concat_fr (v : UInt64) : emptied (t ++ [.fr v]) = (v &&& Pl011.frBusy == 0) := by
  rw [emptied, List.foldl_append]
  rfl

namespace Telling

/-- A uart to which nothing has happened. -/
theorem start : Telling driver mask mask [] where
  told := justified_nil
  mask _ h := bne_iff_ne.2 h

theorem aside (h : Telling driver first mask t) (ha : a.Aside) :
    Telling driver first mask (t ++ [a]) where
  told := justified_concat.2 ⟨h.told, by cases a <;> trivial⟩
  mask bit hbit := (armed_aside ha).trans (h.mask bit hbit)

/-- **What a call of the client adds to the mask it arms.** -/
theorem notify {u : Notifier} (h : Telling driver first u.notifyMask t) (c : NotifyCall) :
    Telling driver first (u.call driver c).notifyMask (t ++ [.notify c]) where
  told := justified_concat.2 ⟨h.told, trivial⟩
  mask bit hbit := by
    rw [armed_concat]
    cases c with
    | enable bits =>
      have hmask : (u.call driver (.enable bits)).notifyMask = u.notifyMask ||| bits :=
        (Notifier.call_notifyMask_iff (.enable bits)).2 trivial
      rw [hmask] at hbit
      rcases Mask.or_and_ne_zero hbit with hbit | hbit
      · simp [Action.arms, h.mask bit hbit]
      · simp [Action.arms, hbit]
    | disable bits =>
      refine h.mask bit ?_
      rw [Notifier.call, Notifier.disableNotification] at hbit
      split at hbit
      · rw [Notifier.updateNotification_notifyMask] at hbit
        exact Mask.and_ne_zero_of_and_not hbit
      · exact hbit

theorem clear (h : Telling driver first mask t) (bits : UInt64) :
    Telling driver first (mask &&& ~~~ bits) t where
  told := h.told
  mask bit hbit := h.mask bit (Mask.and_ne_zero_of_and_not hbit)

/-- **A callback that is armed, and no longer in the mask.** -/
theorem call (h : Telling driver first mask t) {cb : Callback}
    (harmed : ∀ bit, driver.asked cb = some bit →
      armed driver bit (first &&& bit != 0) t = true ∧ mask &&& bit = 0)
    (hempty : cb = .transmitterEmpty → emptied t = true) :
    Telling driver first mask (t ++ [.call cb]) where
  told := justified_concat.2 ⟨h.told, fun bit hbit => (harmed bit hbit).1, hempty⟩
  mask bit hbit := by
    have hother : driver.asked cb ≠ some bit := fun hasked => hbit (harmed bit hasked).2
    rw [armed_concat]
    simp [Action.arms, h.mask bit hbit, hother]

end Telling

namespace Pc16c550

variable {s : Pc16c550}

def Tells (first : UInt64) (s : Pc16c550) : Prop :=
  Telling .pc16c550 first s.notifier.notifyMask s.trace

namespace Tells

theorem rmwFcr (h : Tells first s) (m v : UInt8) : Tells first (s.rmwFcr m v) :=
  Telling.aside h trivial

theorem perform (h : Tells first s) (c : Call) : Tells first (s.perform c) := by
  cases c with
  | notify c => exact Telling.notify h c
  | setFifoEnable on => exact h.rmwFcr _ _
  | flushFifo tx rx => exact h.rmwFcr _ _
  | setRxfifoTriggerLevel level =>
    rw [Pc16c550.perform, setRxfifoTriggerLevel]
    split_ifs
    · exact h.rmwFcr _ _
    · exact h.rmwFcr _ _
    · exact h.rmwFcr _ _
    · exact h.rmwFcr _ _
    · exact h

theorem performs (h : Tells first s) (cs : List Call) : Tells first (cs.foldl Pc16c550.perform s) := by
  induction cs generalizing s with
  | nil => exact h
  | cons c cs ih => exact ih (h.perform c)

theorem clear (h : Tells first s) (bits : UInt64) : Tells first (s.clear bits) :=
  Telling.clear h bits

theorem call (h : Tells first s) (e : Pass) {cb : Callback}
    (harmed : ∀ bit, Driver.asked .pc16c550 cb = some bit →
      armed .pc16c550 bit (first &&& bit != 0) s.trace = true ∧
        s.notifier.notifyMask &&& bit = 0)
    (hempty : cb = .transmitterEmpty → emptied s.trace = true) : Tells first (s.call e cb) := by
  rw [Pc16c550.call]
  split
  · have hcall : Tells first (s.act (.call cb)) := Telling.call h harmed hempty
    exact hcall.performs _
  · exact h

/-- A callback for a notification that was enabled, and is not any more. -/
theorem clear_call (h : Tells first s) (e : Pass) {cb : Callback}
    (hmask : s.notifier.notifies bit = true)
    (hasked : ∀ bit', Driver.asked .pc16c550 cb = some bit' → bit' = bit)
    (hempty : cb = .transmitterEmpty → emptied s.trace = true) :
    Tells first ((s.clear bit).call e cb) := by
  refine (h.clear bit).call e (fun bit' hbit' => ?_) hempty
  obtain rfl := hasked bit' hbit'
  exact ⟨h.mask bit' (bne_iff_ne.1 hmask), Mask.and_not_and _ _⟩

end Tells

/-- What the client calls says nothing of the transmitter. -/
theorem emptied_performs (cs : List Call) : emptied (cs.foldl perform s).trace = emptied s.trace := by
  have hone : ∀ (s : Pc16c550) (a : Action), (∀ v, a ≠ .lsr v) → (∀ v, a ≠ .fr v) →
      emptied (s.act a).trace = emptied s.trace := by
    intro s a hlsr hfr
    show emptied (s.trace ++ [a]) = _
    rw [emptied, List.foldl_append]
    cases a with
    | lsr v => exact absurd rfl (hlsr v)
    | fr v => exact absurd rfl (hfr v)
    | _ => rfl
  induction cs generalizing s with
  | nil => rfl
  | cons c cs ih =>
    refine (ih (s := s.perform c)).trans ?_
    cases c with
    | setRxfifoTriggerLevel level =>
      rw [perform, setRxfifoTriggerLevel]
      split_ifs <;> first | rfl | exact hone _ _ (by simp) (by simp)
    | _ => exact hone _ _ (by simp) (by simp)

theorem emptied_lineStatusEvent (e : Pass) (event : UInt64) :
    emptied (s.call e (.lineStatusEvent event)).trace = emptied s.trace := by
  rw [call]
  split
  · rw [emptied_performs]
    show emptied (s.trace ++ [.call (.lineStatusEvent event)]) = _
    rw [emptied, List.foldl_append]
    rfl
  · rfl

/-- Waiting leaves the mask, and ends with a reading of an empty transmitter. -/
theorem Tells.awaitEmpty (h : Tells first s) (e : Pass) :
    Tells first (s.awaitEmpty e) ∧ (s.awaitEmpty e).notifier = s.notifier ∧
      (∀ bit b, armed .pc16c550 bit b (s.awaitEmpty e).trace = armed .pc16c550 bit b s.trace) ∧
      emptied (s.awaitEmpty e).trace = true := by
  have hwaits : ∀ (vs : List UInt8) {s : Pc16c550}, Tells first s →
      Tells first (vs.foldl (fun s v => s.act (.lsr v)) s) ∧
        (vs.foldl (fun s v => s.act (.lsr v)) s).notifier = s.notifier ∧
        ∀ bit b, armed .pc16c550 bit b (vs.foldl (fun s v => s.act (.lsr v)) s).trace =
          armed .pc16c550 bit b s.trace := by
    intro vs
    induction vs with
    | nil => exact fun h => ⟨h, rfl, fun _ _ => rfl⟩
    | cons v vs ih =>
      intro s h
      have hv : Tells first (s.act (.lsr v)) := Telling.aside h trivial
      obtain ⟨htells, hnotifier, harmed⟩ := ih hv
      exact ⟨htells, hnotifier, fun bit b => (harmed bit b).trans (armed_aside (a := .lsr v) trivial)⟩
  obtain ⟨htells, hnotifier, harmed⟩ := hwaits e.waits h
  refine ⟨Telling.aside htells trivial, hnotifier, fun bit b => ?_, ?_⟩
  · exact (armed_aside (a := .lsr e.empty) trivial).trans (harmed bit b)
  · rw [Pc16c550.awaitEmpty]
    exact (emptied_concat_lsr e.empty).trans (bne_iff_ne.2 e.empty_temt)

namespace Tells

theorem readLsr (h : Tells first s) (e : Pass) :
    Tells first (s.readLsr e) ∧
      emptied (s.readLsr e).trace = (e.lsr &&& lsrTransmitterEmpty != 0) := by
  have hlsr : Tells first (s.act (.lsr e.lsr)) := Telling.aside h trivial
  obtain ⟨s', hs', htells, hemptied⟩ : ∃ s' : Pc16c550,
      s' = (if e.lsr &&& lsrBreakInterrupt ≠ 0 then (s.act (.lsr e.lsr)).act .rbr
        else s.act (.lsr e.lsr)) ∧
      Tells first s' ∧ emptied s'.trace = (e.lsr &&& lsrTransmitterEmpty != 0) := by
    refine ⟨_, rfl, ?_, ?_⟩
    · split
      · exact Telling.aside hlsr trivial
      · exact hlsr
    · split
      · show emptied (s.trace ++ [.lsr e.lsr] ++ [.rbr]) = _
        rw [emptied, List.foldl_append]
        exact emptied_concat_lsr e.lsr
      · exact emptied_concat_lsr e.lsr
  simp only [Pc16c550.readLsr, ← hs']
  split
  · exact ⟨htells.call e (fun _ h => nomatch h) (fun h => nomatch h),
      (emptied_lineStatusEvent e _).trans hemptied⟩
  · exact ⟨htells, hemptied⟩

/-- **That the transmitter is empty is told when it is.** -/
theorem handleLsr (h : Tells first s) (e : Pass) : Tells first (s.handleLsr e) := by
  obtain ⟨hread, hemptied⟩ := h.readLsr e
  have hasked : ∀ bit', Driver.asked .pc16c550 .transmitterEmpty = some bit' →
      bit' = notifyTxempty := fun bit' hbit' => (Option.some.inj hbit').symm
  rw [Pc16c550.handleLsr]
  simp only
  split
  case isTrue hthre =>
    split
    case isTrue htemt =>
      refine hread.clear_call e hthre.2 hasked fun _ => ?_
      rw [hemptied]
      exact bne_iff_ne.2 htemt
    case isFalse =>
      split
      · obtain ⟨hwait, hnotifier, harmed, hempty⟩ := (hread.clear notifyTxempty).awaitEmpty e
        refine hwait.call e (fun bit hbit => ?_) fun _ => hempty
        obtain rfl := hasked bit hbit
        rw [harmed, hnotifier]
        exact ⟨hread.mask _ (bne_iff_ne.1 hthre.2), Mask.and_not_and _ _⟩
      · exact hread.clear _
  case isFalse => exact hread

theorem receive (h : Tells first s) (e : Pass) (count : ℤ) : Tells first (s.receive e count) := by
  rw [Pc16c550.receive]
  split
  case isTrue hnotifies =>
    simp only
    split
    · exact h.clear_call e hnotifies (fun bit' hbit' => (Option.some.inj hbit').symm) (by simp)
    · exact (h.clear _).rmwFcr _ _
  case isFalse => exact h.rmwFcr _ _

theorem updateNotification (h : Tells first s) : Tells first s.updateNotification := h

theorem handleIrq (h : Tells first s) (e : Pass) : Tells first (s.handleIrq e) := by
  rw [Pc16c550.handleIrq]
  split
  · exact (h.handleLsr e).updateNotification
  · exact h.call e (fun _ h => nomatch h) (fun h => nomatch h)
  · split
    case isTrue hnotifies =>
      exact h.clear_call e hnotifies (fun bit' hbit' => (Option.some.inj hbit').symm) (by simp)
    case isFalse => exact h
  · exact h.receive e 8
  · exact h.receive e (-1)
  · exact h.handleLsr e
  · exact h.updateNotification

theorem of_step (h : Tells first s) (e : Event) : Tells first (s.step e) := by
  cases e with
  | irq e => exact h.handleIrq e
  | periodicCheck e =>
    rw [Pc16c550.step, rxemptyTaskHandler]
    split
    · exact h.handleLsr e
    · exact h
  | client c => exact h.perform c

end Tells

/-- **A client of a pc16c550 is told what it asked for, once, and the truth**:
whatever the registers hold and the client calls, from its callbacks and at any
other time, `transmitter_has_space`, `transmitter_empty` and
`receiver_data_available` come only if the client enabled them since they came
last, and the second one when a reading of LSR said that the transmitter is
empty. -/
theorem told_when_asked (s : Pc16c550) (hs : s.trace = []) (es : List Event) :
    Justified (Told .pc16c550 s.notifier.notifyMask) (run step s es).trace := by
  have hstart : Tells s.notifier.notifyMask s := by
    rw [Tells, hs]
    exact Telling.start
  have hall : Always step (Tells s.notifier.notifyMask) s es :=
    always_of_step (fun _ e h => h.of_step e) hstart
  exact hall.last.told

/-- A pass of the handler that finds the transmitter empty. -/
def sent : Pass where
  iir := 1
  lsr := 0x60
  waits := []
  waits_busy _ h := by cases h
  empty := 0x60
  empty_temt := by decide
  msr := 0
  replies _ := []

/-- That the transmitter is empty is told once. -/
theorem told_when_asked_sent :
    (run step ⟨WatchedMask.created 0, 0, fun _ => true, []⟩
        [.client (.notify (.enable 1)), .irq sent, .irq sent]).trace =
      [.notify (.enable 1), .lsr 0x60, .call .transmitterEmpty, .lsr 0x60] ∧
    Justified (Told .pc16c550 0)
      [.notify (.enable 1), .lsr 0x60, .call .transmitterEmpty, .lsr 0x60] :=
  ⟨rfl, told_when_asked ⟨WatchedMask.created 0, 0, fun _ => true, []⟩ rfl
    [.client (.notify (.enable 1)), .irq sent, .irq sent]⟩

end Pc16c550

namespace Pl011

variable {s : Pl011}

def Tells (first : UInt64) (s : Pl011) : Prop :=
  Telling .pl011 first s.notifier.notifyMask s.trace

namespace Tells

/-- The client is told that there is space. -/
theorem setNotifier {u : Notifier} (h : Telling .pl011 first u.notifyMask s.trace) :
    Tells first (s.setNotifier u) := by
  have hspaces : ∀ (spaces : List UInt32) {t : List Action}, Telling .pl011 first u.notifyMask t →
      Telling .pl011 first u.notifyMask
        (t ++ spaces.map fun space => .call (.transmitterHasSpace space)) := by
    intro spaces
    induction spaces with
    | nil => exact fun h => by simpa using h
    | cons space spaces ih =>
      intro t h
      rw [List.map_cons, List.append_cons]
      exact ih (h.call (fun _ h => nomatch h) (fun h => nomatch h))
  exact hspaces _ h

theorem act (h : Tells first s) {a : Action} (ha : a.Aside) : Tells first (s.act a) :=
  Telling.aside h ha

theorem clear (h : Tells first s) (bits : UInt64) : Tells first (s.clear bits) :=
  Telling.clear h bits

theorem flush (h : Tells first s) : Tells first s.flush := Telling.aside h trivial

theorem perform (h : Tells first s) (c : Call) : Tells first (s.perform c) := by
  cases c with
  | notify c => exact setNotifier (Telling.notify h c)
  | readChars count => exact Telling.aside h trivial
  | flushFifo tx rx =>
    rw [Pl011.perform]
    split
    · exact h.flush
    · exact h

theorem callWith (h : Tells first s) (replies : List Call) {cb : Callback}
    (harmed : ∀ bit, Driver.asked .pl011 cb = some bit →
      armed .pl011 bit (first &&& bit != 0) s.trace = true ∧ s.notifier.notifyMask &&& bit = 0)
    (hempty : cb = .transmitterEmpty → emptied s.trace = true) :
    Tells first (s.callWith replies cb) := by
  rw [Pl011.callWith]
  split
  · have hcall : Tells first (s.act (.call cb)) := Telling.call h harmed hempty
    exact List.foldlRecOn replies Pl011.perform hcall fun s hs c _ => hs.perform c
  · exact h

theorem clear_call (h : Tells first s) (replies : List Call) {cb : Callback}
    (hmask : s.notifier.notifies bit = true)
    (hasked : ∀ bit', Driver.asked .pl011 cb = some bit' → bit' = bit)
    (hempty : cb = .transmitterEmpty → emptied s.trace = true) :
    Tells first ((s.clear bit).callWith replies cb) := by
  refine (h.clear bit).callWith replies (fun bit' hbit' => ?_) hempty
  obtain rfl := hasked bit' hbit'
  exact ⟨h.mask bit' (bne_iff_ne.1 hmask), Mask.and_not_and _ _⟩

/-- Waiting leaves the mask, and ends with a reading of a transmitter that is
not busy. -/
theorem awaitIdle (h : Tells first s) (e : Pass) :
    Tells first (s.awaitIdle e) ∧ (s.awaitIdle e).notifier = s.notifier ∧
      (∀ bit b, armed .pl011 bit b (s.awaitIdle e).trace = armed .pl011 bit b s.trace) ∧
      emptied (s.awaitIdle e).trace = true := by
  have hwaits : ∀ (vs : List UInt64) {s : Pl011}, Tells first s →
      Tells first (vs.foldl (fun s v => s.act (.fr v)) s) ∧
        (vs.foldl (fun s v => s.act (.fr v)) s).notifier = s.notifier ∧
        ∀ bit b, armed .pl011 bit b (vs.foldl (fun s v => s.act (.fr v)) s).trace =
          armed .pl011 bit b s.trace := by
    intro vs
    induction vs with
    | nil => exact fun h => ⟨h, rfl, fun _ _ => rfl⟩
    | cons v vs ih =>
      intro s h
      obtain ⟨htells, hnotifier, harmed⟩ := ih (h.act (a := .fr v) trivial)
      exact ⟨htells, hnotifier, fun bit b => (harmed bit b).trans (armed_aside (a := .fr v) trivial)⟩
  obtain ⟨htells, hnotifier, harmed⟩ := hwaits e.waits h
  refine ⟨Telling.aside htells trivial, hnotifier, fun bit b => ?_, ?_⟩
  · exact (armed_aside (a := .fr e.idle) trivial).trans (harmed bit b)
  · rw [Pl011.awaitIdle]
    exact (emptied_concat_fr e.idle).trans (beq_iff_eq.2 e.idle_free)

theorem handleReceiverEmpty (h : Tells first s) (e : Pass) :
    Tells first (s.handleReceiverEmpty e) := by
  have hread : Tells first (s.act (.fr e.fr)) := h.act trivial
  have hasked : ∀ bit', Driver.asked .pl011 .transmitterEmpty = some bit' →
      bit' = notifyTxempty := fun bit' hbit' => (Option.some.inj hbit').symm
  rw [Pl011.handleReceiverEmpty]
  simp only
  split
  case isTrue hempty =>
    split
    case isTrue hbusy =>
      exact hread.clear_call _ hempty.2 hasked fun _ =>
        (emptied_concat_fr e.fr).trans (beq_iff_eq.2 hbusy)
    case isFalse =>
      split
      · obtain ⟨hwait, hnotifier, harmed, hidle⟩ := (hread.clear notifyTxempty).awaitIdle e
        refine hwait.callWith _ (fun bit hbit => ?_) fun _ => hidle
        obtain rfl := hasked bit hbit
        rw [harmed, hnotifier]
        exact ⟨hread.mask _ (bne_iff_ne.1 hempty.2), Mask.and_not_and _ _⟩
      · exact hread.clear _
  case isFalse => exact hread

theorem handleLsr (h : Tells first s) (e : Pass) : Tells first (s.handleLsr e) := by
  rw [Pl011.handleLsr]
  split
  · exact h.callWith _ (fun _ h => nomatch h) (fun h => nomatch h)
  · exact h

theorem storeReceived (h : Tells first s) (drs : List UInt64) :
    Tells first (Pl011.storeReceived drs s).1 := by
  induction drs generalizing s with
  | nil => exact h
  | cons dr drs ih =>
    have hdr : Tells first (s.act (.dr dr)) := h.act trivial
    rw [Pl011.storeReceived]
    split
    · exact hdr
    · refine ih ?_
      rw [Pl011.put]
      split
      · exact hdr.act trivial
      · exact hdr

theorem tellReceived (h : Tells first s) (e : Pass) : Tells first (s.tellReceived e) := by
  rw [Pl011.tellReceived]
  split
  case isTrue hnotifies =>
    split
    · simp only
      split
      · exact h.clear_call _ hnotifies (fun bit' hbit' => (Option.some.inj hbit').symm) (by simp)
      · exact (h.clear _).flush
    · exact h
  case isFalse => exact h.flush

theorem receive (h : Tells first s) (e : Pass) : Tells first (s.receive e) := by
  have htold := (h.storeReceived e.received).tellReceived e
  rw [Pl011.receive]
  split
  · exact htold.callWith _ (fun _ h => nomatch h) (fun h => nomatch h)
  · exact htold

theorem handleIrq (h : Tells first s) (e : Pass) : Tells first (s.handleIrq e) := by
  have hlsr : Tells first (if e.mis &&& misErrors ≠ 0 then s.handleLsr e else s) := by
    split
    · exact h.handleLsr e
    · exact h
  have htx : ∀ {s : Pl011}, Tells first s →
      Tells first (if e.mis &&& misTx ≠ 0 then
        if s.notifier.notifies notifyTxready then
          (s.clear notifyTxready).call e (.transmitterHasSpace
            (s.clear notifyTxready).notifier.txFifoSize)
        else s
      else s) := by
    intro s h
    split
    · split
      · exact (h.clear _).callWith _ (fun _ h => nomatch h) (fun h => nomatch h)
      · exact h
    · exact h
  have hcts : ∀ {s : Pl011}, Tells first s →
      Tells first (if s.oldInputState ≠ 1 then s.call e (.modemInputChanged 1 1) else s) := by
    intro s h
    split
    · exact h.callWith _ (fun _ h => nomatch h) (fun h => nomatch h)
    · exact h
  rw [Pl011.handleIrq]
  split
  · have hempty := h.handleReceiverEmpty e
    refine setNotifier ?_
    rw [Notifier.updateNotification_notifyMask]
    exact hempty
  · simp only
    split
    · exact hlsr.receive e
    · split
      · exact hcts (htx hlsr)
      · exact htx hlsr

theorem of_step (h : Tells first s) (e : Event) : Tells first (s.step e) := by
  cases e with
  | irq e => exact h.handleIrq e
  | periodicCheck e =>
    rw [Pl011.step, rxemptyTaskHandler]
    split
    · exact (h.handleLsr e).handleReceiverEmpty e
    · exact h
  | client c => exact h.perform c

end Tells

/-- **So is a client of a PL011 of two of the notifications**: it is told of
octets, and that the transmitter is empty, only if it asked since it was told
last, and of the latter when a reading of FR said so. -/
theorem told_but_space (s : Pl011) (hs : s.trace = []) (es : List Event) :
    Justified (Told .pl011 s.notifier.notifyMask) (run step s es).trace := by
  have hstart : Tells s.notifier.notifyMask s := by
    rw [Tells, hs]
    exact Telling.start
  have hall : Always step (Tells s.notifier.notifyMask) s es :=
    always_of_step (fun _ e h => h.of_step e) hstart
  exact hall.last.told

/-- A pass of the handler with an octet. -/
def octet : Pass where
  mis := 0x10
  fr := 0
  waits := []
  waits_busy _ h := by cases h
  idle := 0
  idle_free := by decide
  received := [7]
  replies _ := []
  errorReplies := []

/-- Of octets the client is told once, and the next is flushed. -/
theorem told_but_space_octet :
    (run step ⟨WatchedMask.created 0, ⟨fun _ => 0, 0, 0⟩, 0, fun _ => true, []⟩
        [.client (.notify (.enable 4)), .irq octet, .irq octet]).trace =
      [.notify (.enable 4), .dr 7, .call (.receiverDataAvailable 1), .dr 7, .flush 2] ∧
    Justified (Told .pl011 0)
      [.notify (.enable 4), .dr 7, .call (.receiverDataAvailable 1), .dr 7, .flush 2] :=
  ⟨rfl, told_but_space ⟨WatchedMask.created 0, ⟨fun _ => 0, 0, 0⟩, 0, fun _ => true, []⟩ rfl
    [.client (.notify (.enable 4)), .irq octet, .irq octet]⟩

end Pl011

end Uart

end Dmx4Linux2
