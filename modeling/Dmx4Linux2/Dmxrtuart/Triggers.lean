import Dmx4Linux2.Common.Mask
import Dmx4Linux2.Common.Run
import Dmx4Linux2.Dmxrtuart.Model.Buffer

/-!
# rtuart — which triggers are reported

A trigger is to be reported by the call that brings the number of octets to
its position, once. `rtuart_handle_trigger` compares the other way round:
it reports the triggers whose position is not below the number of octets,
and so all that are yet to come. Where it is called, that is right only if
every trigger still active has just the position that is reached then.
-/

namespace Dmx4Linux2

namespace Dmxrtuart

open Mask (Has)

/-! ## The bits of the triggers -/

/-- **The last trigger has all the upper bits.** -/
theorem has_triggerBit_iff {i : Fin 32} {j : ℕ} (hj : j < 64) :
    Has (triggerBit i) j ↔ min j 31 = i.val := by
  have hall : ∀ i : Fin 32, ∀ j : Fin 64, Has (triggerBit i) j ↔ min j.val 31 = i.val := by
    decide +kernel
  exact hall i ⟨j, hj⟩

/-- The mask names the trigger. -/
def Names (m : UInt64) (i : Fin 32) : Prop := triggerBit i &&& m ≠ 0

instance {m : UInt64} {i : Fin 32} : Decidable (Names m i) :=
  inferInstanceAs (Decidable (_ ≠ _))

theorem names_iff {m : UInt64} {i : Fin 32} :
    Names m i ↔ ∃ j < 64, min j 31 = i.val ∧ Has m j := by
  rw [Names, Mask.ne_zero_iff]
  refine exists_congr fun j => and_congr_right fun hj => ?_
  rw [Mask.has_and, has_triggerBit_iff hj]

theorem not_names_zero {i : Fin 32} : ¬ Names 0 i := by
  simp [Names]

namespace RtuartBuffer

variable {b : RtuartBuffer} {i : Fin 32}

/-- The trigger is active. -/
def Active (b : RtuartBuffer) (i : Fin 32) : Prop := Names b.triggermask i

instance : Decidable (b.Active i) := inferInstanceAs (Decidable (Names _ _))

theorem reaches_iff :
    b.reaches i = true ↔ b.Active i ∧ b.validcount ≤ (b.trigger i).toNat := by
  simp [reaches, Active, Names]

/-- The mask that `rtuart_handle_trigger` collects. -/
def collected (b : RtuartBuffer) : UInt64 :=
  (List.finRange 32).foldl (fun m i => if b.reaches i = true then m ||| triggerBit i else m) 0

theorem has_collected_iff {j : ℕ} (hj : j < 64) :
    Has b.collected j ↔ ∃ i : Fin 32, min j 31 = i.val ∧ b.reaches i = true := by
  rw [collected, Mask.has_collect]
  constructor
  · rintro (h | ⟨i, -, hreach, hbit⟩)
    · exact absurd h Mask.not_has_zero
    · exact ⟨i, (has_triggerBit_iff hj).1 hbit, hreach⟩
  · rintro ⟨i, hi, hreach⟩
    exact .inr ⟨i, List.mem_finRange i, hreach, (has_triggerBit_iff hj).2 hi⟩

theorem names_collected_iff : Names b.collected i ↔ b.reaches i = true := by
  rw [names_iff]
  constructor
  · rintro ⟨j, hj, hi, hhas⟩
    obtain ⟨k, hk, hreach⟩ := (has_collected_iff hj).1 hhas
    have hik : i = k := Fin.ext (hi.symm.trans hk)
    rwa [hik]
  · intro hreach
    have hi := i.isLt
    exact ⟨i, by omega, by omega, (has_collected_iff (by omega)).2 ⟨i, by omega, hreach⟩⟩

/-- The triggers that were found are no longer active, the others are. -/
theorem names_and_not_iff :
    Names (b.triggermask &&& ~~~ b.collected) i ↔ b.Active i ∧ ¬ b.reaches i = true := by
  rw [names_iff, Active, names_iff]
  constructor
  · rintro ⟨j, hj, hi, hhas⟩
    rw [Mask.has_and, Mask.has_not hj, has_collected_iff hj] at hhas
    exact ⟨⟨j, hj, hi, hhas.1⟩, fun hreach => hhas.2 ⟨i, hi, hreach⟩⟩
  · rintro ⟨⟨j, hj, hi, hhas⟩, hreach⟩
    refine ⟨j, hj, hi, ?_⟩
    rw [Mask.has_and, Mask.has_not hj, has_collected_iff hj]
    refine ⟨hhas, ?_⟩
    rintro ⟨k, hk, hreach'⟩
    have hik : i = k := Fin.ext (hi.symm.trans hk)
    exact hreach (hik ▸ hreach')

/-! ## Reports -/

/-- How many of the callbacks report the trigger. -/
def reports (cbs : List RxCallback) (i : Fin 32) : ℕ :=
  (cbs.filter fun
    | .rxTrigger m => triggerBit i &&& m != 0
    | .rxEnd => false).length

theorem reports_rxTrigger (m : UInt64) :
    reports [.rxTrigger m] i = if triggerBit i &&& m ≠ 0 then 1 else 0 := by
  by_cases h : triggerBit i &&& m = 0 <;> simp [reports, h]

theorem reports_rxEnd (cbs : List RxCallback) : reports (cbs ++ [.rxEnd]) i = reports cbs i := by
  simp [reports]

/-- What `rtuart_handle_trigger` reports and leaves. -/
structure Handled (b : RtuartBuffer) (r : RtuartBuffer × List RxCallback) : Prop where
  reports_eq : ∀ i, reports r.2 i = if b.reaches i = true then 1 else 0
  active_iff : ∀ i, r.1.Active i ↔ b.Active i ∧ ¬ b.reaches i = true
  validcount : r.1.validcount = b.validcount
  size : r.1.size = b.size
  trigger : r.1.trigger = b.trigger

/-- Nothing is reported where no trigger is found. -/
theorem handled_of_none (h : ∀ i, ¬ b.reaches i = true) : Handled b (b, []) where
  reports_eq i := (if_neg (h i)).symm
  active_iff i := (and_iff_left (h i)).symm
  validcount := rfl
  size := rfl
  trigger := rfl

theorem handled_handleTrigger : Handled b b.handleTrigger := by
  rw [handleTrigger]
  split
  · next hmask =>
    change Handled b (if b.collected ≠ 0 then _ else _)
    split
    · refine ⟨fun i => ?_, fun i => names_and_not_iff, rfl, rfl, rfl⟩
      refine (reports_rxTrigger b.collected).trans ?_
      simp only [← names_collected_iff, Names]
    · next hzero =>
      refine handled_of_none fun i hreach => ?_
      rw [← names_collected_iff, not_not.1 hzero] at hreach
      exact not_names_zero hreach
  · next hmask =>
    refine handled_of_none fun i hreach => ?_
    have hactive := (reaches_iff.1 hreach).1
    rw [Active, not_not.1 hmask] at hactive
    exact not_names_zero hactive

theorem handled_handleBufferFill : Handled b b.handleBufferFill := by
  have h := handled_handleTrigger (b := b)
  rw [handleBufferFill]
  dsimp only
  refine ⟨fun i => ?_, h.active_iff, h.validcount, h.size, h.trigger⟩
  rw [← h.reports_eq i]
  split
  · exact reports_rxEnd _
  · rfl

/-! ## Calls -/

end RtuartBuffer

/-- A call that puts octets into the buffer. -/
inductive RxCall
  | put (c : UInt8)
  | putVector (cs : List UInt8)
  deriving DecidableEq, Repr

def RxCall.octets : RxCall → List UInt8
  | .put c => [c]
  | .putVector cs => cs

namespace RtuartBuffer

variable {b b₀ : RtuartBuffer} {i : Fin 32}

def receive (b : RtuartBuffer) : RxCall → RtuartBuffer × List RxCallback
  | .put c => b.put c
  | .putVector cs => (b.putVector cs).2

def step (b : RtuartBuffer) (c : RxCall) : RtuartBuffer := (b.receive c).1

/-- **How many octets there are to be after a call**: as many as fit. -/
def filled (b : RtuartBuffer) (c : RxCall) : ℕ :=
  if b.data.isSome then min b.size (b.validcount + c.octets.length) else b.validcount

/-- The call comes to `rtuart_handle_trigger`. -/
def Tested (b : RtuartBuffer) : RxCall → Prop
  | .put _ => b.data.isSome ∧ b.validcount < b.size
  | .putVector _ => b.data.isSome

/-- The loop stores what fits, and changes nothing else. -/
theorem storeVector_spec (cs : List UInt8) (h : b.validcount ≤ b.size) :
    (b.storeVector cs).validcount = min b.size (b.validcount + cs.length) ∧
      (b.storeVector cs).size = b.size ∧ (b.storeVector cs).trigger = b.trigger ∧
      (b.storeVector cs).triggermask = b.triggermask := by
  induction cs generalizing b with
  | nil =>
    refine ⟨?_, rfl, rfl, rfl⟩
    simp only [storeVector, List.length_nil]
    omega
  | cons c cs ih =>
    rw [storeVector]
    split
    · next hlt =>
      obtain ⟨hcount, hsize, htrigger, hmask⟩ := ih (b := b.store c) hlt
      refine ⟨?_, hsize, htrigger, hmask⟩
      rw [hcount]
      simp only [store, List.length_cons]
      omega
    · refine ⟨?_, rfl, rfl, rfl⟩
      simp only [List.length_cons]
      omega

/-- **A call that comes to the triggers** tests them with the octets it
leaves. -/
theorem receive_of_tested {c : RxCall} (h : b.Tested c) (hle : b.validcount ≤ b.size) :
    ∃ b', b'.validcount = b.filled c ∧ b'.size = b.size ∧ b'.trigger = b.trigger ∧
      b'.triggermask = b.triggermask ∧ Handled b' (b.receive c) := by
  cases c with
  | put c =>
    have h : b.data.isSome ∧ b.validcount < b.size := h
    refine ⟨b.store c, ?_, rfl, rfl, rfl, ?_⟩
    · simp only [store, filled, h.1, if_true, RxCall.octets, List.length_singleton]
      omega
    · rw [receive, put, if_pos h]
      exact handled_handleBufferFill
  | putVector cs =>
    have h : b.data.isSome := h
    obtain ⟨hcount, hsize, htrigger, hmask⟩ := storeVector_spec cs hle
    refine ⟨b.storeVector cs, ?_, hsize, htrigger, hmask, ?_⟩
    · rw [hcount, filled, if_pos h, RxCall.octets]
    · rw [receive, putVector, if_pos h]
      exact handled_handleBufferFill

theorem receive_of_not_tested {c : RxCall} (h : ¬ b.Tested c) : b.receive c = (b, []) := by
  cases c with
  | put c => exact if_neg h
  | putVector cs =>
    have h : ¬ b.data.isSome := h
    rw [receive, putVector, if_neg h]

theorem filled_of_not_tested {c : RxCall} (h : ¬ b.Tested c) (hle : b.validcount ≤ b.size) :
    b.filled c = b.validcount := by
  rw [filled]
  split
  · next hdata =>
    cases c with
    | put c =>
      have hfull : ¬ b.validcount < b.size := fun hlt => h ⟨hdata, hlt⟩
      omega
    | putVector cs => exact absurd hdata h
  · rfl

/-! ## Runs -/

/-- The call is the one that comes to the position of the trigger. -/
def Comes (b₀ b : RtuartBuffer) (c : RxCall) (i : Fin 32) : Prop :=
  b₀.Active i ∧ b.validcount < (b₀.trigger i).toNat ∧ (b₀.trigger i).toNat ≤ b.filled c

instance {c : RxCall} : Decidable (Comes b₀ b c i) := inferInstanceAs (Decidable (_ ∧ _ ∧ _))

/-- **What a call is to do**: the buffer holds what fits, and the triggers
reported, once each, are those the number of octets has now come to. -/
def Good (b₀ b : RtuartBuffer) (c : RxCall) : Prop :=
  (b.step c).validcount = b.filled c ∧
    ∀ i, reports (b.receive c).2 i = if Comes b₀ b c i then 1 else 0

/-- The triggers still active are at the position the call comes to, if it
tests them. -/
def Timely (b : RtuartBuffer) (c : RxCall) : Prop :=
  b.Tested c → ∀ i, b.Active i → (b.trigger i).toNat = b.filled c

/-- **The triggers still active are those the octets have not come to.** -/
structure OnTime (b₀ b : RtuartBuffer) : Prop where
  trigger : b.trigger = b₀.trigger
  validcount_le : b.validcount ≤ b.size
  active_iff : ∀ i, b.Active i ↔ b₀.Active i ∧ b.validcount < (b₀.trigger i).toNat

namespace OnTime

theorem le_filled (h : OnTime b₀ b) (c : RxCall) : b.validcount ≤ b.filled c := by
  have hle := h.validcount_le
  rw [filled]
  split <;> omega

/-- A call that tests no trigger is good, and changes nothing. -/
theorem good_of_not_tested (h : OnTime b₀ b) {c : RxCall} (hc : ¬ b.Tested c) : Good b₀ b c := by
  have hfilled := filled_of_not_tested hc h.validcount_le
  rw [Good, step, receive_of_not_tested hc]
  refine ⟨hfilled.symm, fun i => ?_⟩
  rw [if_neg]
  · rfl
  · rintro ⟨-, hlt, hle⟩
    omega

/-- **A call that tests the triggers is good just when it is timely.** -/
theorem good_iff_timely (h : OnTime b₀ b) (c : RxCall) : Good b₀ b c ↔ Timely b c := by
  by_cases hc : b.Tested c
  · obtain ⟨b', hcount, -, htrigger, hmask, hhandled⟩ := receive_of_tested hc h.validcount_le
    have hreach : ∀ i, b'.reaches i = true ↔ b.Active i ∧ b.filled c ≤ (b.trigger i).toNat := by
      intro i
      rw [reaches_iff, hcount, htrigger, Active, hmask, Active]
    have hcomes : ∀ i, Comes b₀ b c i ↔ b.Active i ∧ (b.trigger i).toNat ≤ b.filled c := by
      intro i
      rw [Comes, h.active_iff, h.trigger, and_assoc]
    have hstep : (b.step c).validcount = b.filled c := hhandled.validcount.trans hcount
    rw [Good, and_iff_right hstep, Timely, forall_prop_of_true hc]
    refine forall_congr' fun i => ?_
    rw [hhandled.reports_eq i]
    simp only [hreach i, hcomes i]
    constructor
    · intro heq hactive
      -- an active trigger lies behind the octets or before them, so it is both
      rcases le_total (b.filled c) (b.trigger i).toNat with hbehind | hbefore
      · rw [if_pos ⟨hactive, hbehind⟩] at heq
        split at heq
        · next hboth => exact le_antisymm hboth.2 hbehind
        · omega
      · rw [if_pos (show b.Active i ∧ _ from ⟨hactive, hbefore⟩)] at heq
        split at heq
        · next hboth => exact le_antisymm hbefore hboth.2
        · omega
    · intro heq
      refine if_congr (and_congr_right fun hactive => ?_) rfl rfl
      have := heq hactive
      omega
  · exact iff_of_true (h.good_of_not_tested hc) fun hc' => absurd hc' hc

/-- A timely call leaves no trigger behind. -/
theorem step_of_timely (h : OnTime b₀ b) {c : RxCall} (ht : Timely b c) : OnTime b₀ (b.step c) := by
  by_cases hc : b.Tested c
  · obtain ⟨b', hcount, hsize, htrigger, hmask, hhandled⟩ := receive_of_tested hc h.validcount_le
    have hle := h.le_filled c
    have hlt : b.filled c ≤ b.size := by
      have := h.validcount_le
      rw [filled]
      split <;> omega
    refine ⟨hhandled.trigger.trans (htrigger.trans h.trigger), ?_, fun i => ?_⟩
    · rw [step, hhandled.validcount, hhandled.size, hcount, hsize]
      exact hlt
    · rw [step, hhandled.active_iff, hhandled.validcount, hcount, reaches_iff, hcount, htrigger,
        Active, hmask]
      have hactive := h.active_iff i
      rw [Active] at hactive
      rw [hactive, h.trigger]
      have htimely : b₀.Active i ∧ b.validcount < (b₀.trigger i).toNat →
          (b₀.trigger i).toNat = b.filled c := by
        intro hi
        rw [← h.trigger]
        exact ht hc i ((h.active_iff i).2 hi)
      constructor
      · rintro ⟨hi, hnot⟩
        have heq := htimely hi
        exact absurd ⟨hi, by omega⟩ hnot
      · rintro ⟨hi, hbehind⟩
        have heq := htimely ⟨hi, by omega⟩
        omega
  · rw [step, receive_of_not_tested hc]
    exact h

end OnTime

/-- **The triggers of a buffer are reported as they are to be just when
every call that tests them finds all that are active at the position it
comes to**, whatever octets come and however they are cut. -/
theorem triggers_iff (b : RtuartBuffer) (hempty : b.validcount = 0)
    (hpos : ∀ i, b.Active i → 1 ≤ (b.trigger i).toNat) (calls : List RxCall) :
    EachStep step (Good b) b calls ↔ EachStep step Timely b calls := by
  have hstart : OnTime b b := by
    refine ⟨rfl, by omega, fun i => ?_⟩
    rw [hempty]
    exact (and_iff_left_of_imp (hpos i)).symm
  refine eachStep_iff_of_invariant (Q := OnTime b) ?_ ?_ hstart
  · intro b' c h
    exact h.good_iff_timely c
  · intro b' c h ht
    exact h.step_of_timely ht

/-- A buffer of four octets with the trigger 0 at the given position. -/
def fourOctets (position : UInt32) : RtuartBuffer :=
  ⟨some fun _ => 0, 4, 0, 0, 1, fun _ => position⟩

/-- Two octets that come as one vector reach the trigger at position 2. -/
theorem triggers_vector : EachStep step (Good (fourOctets 2)) (fourOctets 2) [.putVector [1, 2]] := by
  have hpos : 1 ≤ (2 : UInt32).toNat := by decide
  have hfilled : (2 : UInt32).toNat = (fourOctets 2).filled (.putVector [1, 2]) := by decide
  refine (triggers_iff (fourOctets 2) rfl (fun _ _ => hpos) _).2 ?_
  exact eachStep_cons.2 ⟨fun _ _ _ => hfilled, eachStep_nil⟩

/-- **The first octet reports a trigger that is at the second.** -/
theorem triggers_reversed :
    (fourOctets 2).Active 0 ∧ reports ((fourOctets 2).receive (.put 1)).2 0 = 1 ∧
      ¬ EachStep step (Good (fourOctets 2)) (fourOctets 2) [.put 1] := by
  refine ⟨by decide, by decide +kernel, fun h => ?_⟩
  have hreports := (h [] (.put 1) (List.prefix_refl _)).2 0
  exact absurd hreports (by decide +kernel)

end RtuartBuffer

end Dmxrtuart

end Dmx4Linux2
