import Dmx4Linux2.Common.Mask
import Dmx4Linux2.Common.Run
import Dmx4Linux2.Uart.Model.Notification

/-!
# uart drivers — the mask and the register

The register is the image of the mask, whatever is called, because the one
is written whenever the other changes. The mask itself is what the calls
make it only as long as no bits are disabled that are all set: the shortcut
of `disable_notification` is that of `enable_notification`, and skips just
these calls.
-/

namespace Dmx4Linux2

namespace Uart

/-- The interrupts of a driver for each notification it has any for. -/
def Driver.interrupts : Driver → List (UInt64 × UInt64)
  | .pc16c550 => [(notifyRxavailable, 0x01), (notifyTxready, 0x02), (notifyLineevent, 0x04),
      (notifyInputchanged, 0x08)]
  | .pl011 => [(notifyRxavailable, 0x050), (notifyTxready, 0x020), (notifyLineevent, 0x780),
      (notifyInputchanged, 0x002)]

/-- **The register that belongs to a mask.** -/
def Driver.image (driver : Driver) (mask : UInt64) : UInt64 :=
  driver.interrupts.foldl (fun v (bits, irqs) => if mask &&& bits != 0 then v ||| irqs else v) 0

/-- A call of the client. -/
inductive NotifyCall
  | enable (mask : UInt64)
  | disable (mask : UInt64)
  deriving DecidableEq, Repr

/-- The mask a call is to leave. -/
def NotifyCall.apply (mask : UInt64) : NotifyCall → UInt64
  | .enable bits => mask ||| bits
  | .disable bits => mask &&& ~~~ bits

namespace Notifier

def call (driver : Driver) (u : Notifier) : NotifyCall → Notifier
  | .enable bits => u.enableNotification driver bits
  | .disable bits => u.disableNotification driver bits

variable {driver : Driver} {u : Notifier}

/-- The call does not take the shortcut wrongly: bits that are disabled are
not all set. -/
def Effective (u : Notifier) : NotifyCall → Prop
  | .enable _ => True
  | .disable bits => bits ≠ 0 → u.notifyMask &&& bits ≠ bits

/-- The register belongs to the mask, if it was written at all. -/
def Matches (driver : Driver) (u : Notifier) : Prop :=
  ∀ v ∈ u.enabled, v = driver.image u.notifyMask

/-! ## Updating the register -/

theorem updateNotification_notifyMask : (u.updateNotification driver).notifyMask = u.notifyMask := by
  cases driver <;> rfl

/-- **The register written is the image of the mask.** -/
theorem updateNotification_enabled :
    (u.updateNotification driver).enabled = some (driver.image u.notifyMask) := by
  cases driver <;> rfl

theorem matches_updateNotification : Matches driver (u.updateNotification driver) := by
  intro v hv
  rw [updateNotification_enabled, Option.mem_some_iff] at hv
  rw [updateNotification_notifyMask, hv]

/-! ## Calls -/

/-- **The register stays the image of the mask.** -/
theorem matches_call (h : Matches driver u) (c : NotifyCall) : Matches driver (u.call driver c) := by
  cases c with
  | enable bits =>
    rw [call, enableNotification]
    split
    · exact matches_updateNotification
    · exact h
  | disable bits =>
    rw [call, disableNotification]
    split
    · exact matches_updateNotification
    · exact h

/-- **A call leaves the mask it is to leave just when it is effective.** -/
theorem call_notifyMask_iff (c : NotifyCall) :
    (u.call driver c).notifyMask = c.apply u.notifyMask ↔ Effective u c := by
  cases c with
  | enable bits =>
    rw [call, enableNotification]
    split
    · exact iff_of_true updateNotification_notifyMask trivial
    · next hset => exact iff_of_true (Mask.or_eq_left (not_not.1 hset)).symm trivial
  | disable bits =>
    rw [call, disableNotification]
    split
    · next hset => exact iff_of_true updateNotification_notifyMask fun _ => hset
    · next hset =>
      have hset := not_not.1 hset
      constructor
      · intro hmask hne
        exact absurd (Mask.eq_zero_of_and_not hset hmask.symm) hne
      · intro heff
        have hzero : bits = 0 := by
          by_contra hne
          exact heff hne hset
        simp [NotifyCall.apply, hzero]

end Notifier

/-! ## Runs -/

/-- A driver with the mask it is to have. -/
structure WatchedMask where
  uart : Notifier
  wanted : UInt64

namespace WatchedMask

def step (driver : Driver) (w : WatchedMask) (c : NotifyCall) : WatchedMask :=
  ⟨w.uart.call driver c, c.apply w.wanted⟩

/-- **The mask is the one it is to be, and the register belongs to it.** -/
def Kept (driver : Driver) (w : WatchedMask) : Prop :=
  w.uart.notifyMask = w.wanted ∧ w.uart.Matches driver

theorem kept_step_iff {driver : Driver} {w : WatchedMask} (h : Kept driver w) (c : NotifyCall) :
    Kept driver (w.step driver c) ↔ w.uart.Effective c := by
  have hiff : (w.uart.call driver c).notifyMask = c.apply w.uart.notifyMask ↔ w.uart.Effective c :=
    Notifier.call_notifyMask_iff c
  rw [h.1] at hiff
  exact (and_iff_left (Notifier.matches_call h.2 c)).trans hiff

/-- **The mask is what the calls make it just when none of them disables
bits that are all set**, all along any sequence of calls. -/
theorem notification_iff (driver : Driver) (u : Notifier) (h : u.Matches driver)
    (cs : List NotifyCall) :
    Always (step driver) (Kept driver) ⟨u, u.notifyMask⟩ cs ↔
      EachStep (step driver) (fun w c => w.uart.Effective c) ⟨u, u.notifyMask⟩ cs := by
  refine always_iff_eachStep_of_invariant (Q := Kept driver) (fun w hw => hw) ?_ ?_ ⟨rfl, h⟩
  · intro w c hw hkept
    exact (kept_step_iff hw c).1 hkept
  · intro w c hw heff
    exact (kept_step_iff hw c).2 heff

/-- A uart that was created, with whatever mask, has written nothing. -/
def created (mask : UInt64) : Notifier := ⟨mask, none, 0, 0, true, []⟩

/-- Two bits are enabled, and three disabled. -/
theorem notification_three :
    (created 0).Matches .pl011 ∧
      Always (step .pl011) (Kept .pl011) ⟨created 0, 0⟩ [.enable 0x06, .disable 0x0E] := by
  have hfresh : (created 0).Matches .pl011 := by
    intro v hv
    cases hv
  refine ⟨hfresh, (notification_iff .pl011 (created 0) hfresh _).2 ?_⟩
  exact eachStep_cons.2 ⟨trivial, eachStep_cons.2 ⟨fun _ => by decide, eachStep_nil⟩⟩

/-- A bit is enabled and disabled, and stays. -/
theorem notification_disabled :
    (run (step .pc16c550) ⟨created 0, 0⟩ [.enable 0x04, .disable 0x04]).uart.notifyMask = 0x04 ∧
      ¬ Always (step .pc16c550) (Kept .pc16c550) ⟨created 0, 0⟩ [.enable 0x04, .disable 0x04] ∧
      ¬ Always (step .pl011) (Kept .pl011) ⟨created 0, 0⟩ [.enable 0x04, .disable 0x04] := by
  refine ⟨by decide, fun h => ?_, fun h => ?_⟩
  · exact absurd h.last.1 (by decide)
  · exact absurd h.last.1 (by decide)

end WatchedMask

end Uart

end Dmx4Linux2
