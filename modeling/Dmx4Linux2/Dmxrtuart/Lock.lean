import Dmx4Linux2.Common.Run
import Dmx4Linux2.Dmxrtuart.Model.Port
import Dmx4Linux2.Rtuart.Lock

/-!
# Buffer-based rtuart DMX port — the lock on the number of slots

The lock counts the first frame of a size, and when it has counted as many
as it requires it waits for one more before it snaps in. A run of frames
is watched together with the sizes since the lock was last lost. The lock
snaps in at the eleventh frame of a streak (`snapsIn_iff`), so a run meets
its documentation only if no ten frames of a size come in a row, apart
from what the ten bits of the slot count mix up (`lock_documented_iff`).
-/

namespace Dmx4Linux2

namespace Dmxrtuart

open Rtuart

variable {l : SlotCountLock} {f : Frame} {fs : List Frame} {n k : ℕ} {ns : List ℕ}

/-! ## Watching the lock -/

/-- The lock, and the sizes of the null start code frames received since
it was last lost, from the latest on. -/
structure Watch where
  lock : SlotCountLock
  sizes : List ℕ

namespace Watch

variable {w : Watch}

/-- An initialised lock that has been enabled. -/
def start : Watch := ⟨{ SlotCountLock.init with enabled := true }, []⟩

/-- A frame is given to the lock. -/
def receive (w : Watch) (f : Frame) : Watch where
  lock := w.lock.receivedFrame f
  sizes :=
    if f.startcode = 0 then
      if w.lock.locked ∧ ¬ (w.lock.receivedFrame f).locked then [] else f.payloadSize :: w.sizes
    else w.sizes

/-- The last ten sizes since the lock was lost are one, and the frame is
of this size. -/
def MakesTen (w : Watch) (f : Frame) : Prop :=
  f.startcode = 0 ∧ List.replicate 10 f.payloadSize <+: f.payloadSize :: w.sizes

/-- The frame is of another size than the last one. -/
def Differs (w : Watch) (f : Frame) : Prop :=
  f.startcode = 0 ∧ w.sizes.head? ≠ some f.payloadSize

/-- **What the lock is documented to do**: it snaps in at the tenth frame
of one size, and is lost at the first of another. -/
structure Documented (w : Watch) (f : Frame) : Prop where
  snapsIn : ¬ w.lock.locked → ((w.receive f).lock.locked ↔ w.MakesTen f)
  isLost : w.lock.locked → (¬ (w.receive f).lock.locked ↔ w.Differs f)

end Watch

/-! ## What the lock counts -/

/-- How many sizes at the front the lock takes to be equal: it compares
with the ten bits that it keeps of a size. -/
def counted : List ℕ → ℕ
  | [] => 0
  | n :: ns => if ns.head?.map (· % 2 ^ 10) = some n then counted ns + 1 else 1

theorem one_le_counted_cons : 1 ≤ counted (n :: ns) := by
  unfold counted
  split <;> omega

/-- **The sizes that are counted**: all of them are one, except that the
first may have had more bits. -/
theorem le_counted_iff : k + 2 ≤ counted (n :: ns) ↔
    List.replicate k n <+: ns ∧ ∃ b, ns[k]? = some b ∧ b % 2 ^ 10 = n := by
  induction k generalizing n ns with
  | zero =>
    cases ns with
    | nil => simp [counted]
    | cons m ms =>
      have hone : 1 ≤ counted (m :: ms) := one_le_counted_cons
      rw [counted]
      simp only [List.head?_cons, Option.map_some, Option.some.injEq, List.replicate_zero,
        List.nil_prefix, List.getElem?_cons_zero, exists_eq_left', true_and]
      split
      · exact iff_of_true (by omega) ‹_›
      · exact iff_of_false (by omega) ‹_›
  | succ k ih =>
    cases ns with
    | nil => simp [counted, List.replicate_succ]
    | cons m ms =>
      rw [counted, replicate_prefix_cons]
      simp only [List.head?_cons, Option.map_some, Option.some.injEq, List.getElem?_cons_succ]
      constructor
      · intro h
        split at h
        · rename_i hm
          obtain ⟨hall, b, hb, hmod⟩ := ih.1 (by omega : k + 2 ≤ counted (m :: ms))
          -- a size that another was compared with has ten bits
          have heq : n = m := by omega
          subst heq
          exact ⟨⟨rfl, hall⟩, b, hb, hmod⟩
        · omega
      · rintro ⟨⟨rfl, hall⟩, b, hb, hmod⟩
        have := ih.2 ⟨hall, b, hb, hmod⟩
        rw [if_pos (by omega)]
        omega

/-- **The lock counts the sizes** while it is open, and knows the last one
when it is locked. -/
structure Counts (w : Watch) : Prop where
  enabled : w.lock.enabled
  required : w.lock.requiredCount = 10
  frames : ¬ w.lock.locked → w.lock.matchingFrameCount = counted w.sizes ∧ counted w.sizes ≤ 10
  slots : w.lock.matchingSlotCount = (w.sizes.head?.map (· % 2 ^ 10)).getD 0
  last : w.lock.locked → w.sizes.head? = some w.lock.matchingSlotCount

namespace Counts

variable {w : Watch}

theorem start : Counts Watch.start :=
  ⟨rfl, rfl, fun _ => ⟨rfl, by decide⟩, rfl, fun h => absurd h Bool.false_ne_true⟩

/-- The lock compares a frame with the last one. -/
theorem same_iff (h : Counts w) (hopen : ¬ w.lock.locked) :
    (w.lock.matchingFrameCount ≠ 0 ∧ w.lock.matchingSlotCount = n) ↔
      w.sizes.head?.map (· % 2 ^ 10) = some n := by
  rw [(h.frames hopen).1, h.slots]
  cases hsizes : w.sizes with
  | nil => simp [counted]
  | cons m ms =>
    have hone : 1 ≤ counted (m :: ms) := one_le_counted_cons
    simp only [List.head?_cons, Option.map_some, Option.getD_some, Option.some.injEq]
    exact and_iff_right (by omega)

theorem receivedFrame_of_null (h : Counts w) (hnull : f.startcode = 0) :
    w.lock.receivedFrame f =
      if w.lock.locked then
        if f.payloadSize ≠ w.lock.matchingSlotCount then w.lock.lostLock else w.lock
      else if w.lock.matchingFrameCount ≠ 0 ∧ w.lock.matchingSlotCount = f.payloadSize then
        if w.lock.matchingFrameCount = w.lock.requiredCount then { w.lock with locked := true }
        else { w.lock with matchingFrameCount := (w.lock.matchingFrameCount + 1) % 2 ^ 6 }
      else { w.lock with
        matchingFrameCount := 1, matchingSlotCount := f.payloadSize % 2 ^ 10 } := by
  have hcond : (w.lock.enabled && f.startcode == 0) = true := by rw [h.enabled, hnull]; rfl
  unfold SlotCountLock.receivedFrame
  rw [if_pos hcond]

/-- A frame with another start code changes nothing. -/
theorem receive_of_not_null (hnull : f.startcode ≠ 0) : w.receive f = w := by
  have hcond : ¬ (w.lock.enabled && f.startcode == 0) = true := by simp [hnull]
  have hlock : w.lock.receivedFrame f = w.lock := by
    unfold SlotCountLock.receivedFrame
    rw [if_neg hcond]
  unfold Watch.receive
  rw [hlock, if_neg hnull]

/-- While the lock holds, a frame of the size it knows leaves it as it
is. -/
theorem receive_locked_same (h : Counts w) (hnull : f.startcode = 0) (hlocked : w.lock.locked)
    (hsame : f.payloadSize = w.lock.matchingSlotCount) :
    w.receive f = ⟨w.lock, f.payloadSize :: w.sizes⟩ := by
  have hlock : w.lock.receivedFrame f = w.lock := by
    rw [h.receivedFrame_of_null hnull, if_pos hlocked, if_neg (not_not.2 hsame)]
  unfold Watch.receive
  rw [hlock, if_pos hnull, if_neg (fun hlost => hlost.2 hlost.1)]

/-- A frame of another size loses it. -/
theorem receive_locked_other (h : Counts w) (hnull : f.startcode = 0) (hlocked : w.lock.locked)
    (hother : f.payloadSize ≠ w.lock.matchingSlotCount) : w.receive f = ⟨w.lock.lostLock, []⟩ := by
  have hlock : w.lock.receivedFrame f = w.lock.lostLock := by
    rw [h.receivedFrame_of_null hnull, if_pos hlocked, if_pos hother]
  unfold Watch.receive
  rw [hlock, if_pos hnull, if_pos ⟨hlocked, Bool.false_ne_true⟩]

/-- An open lock goes on counting, snaps in when it has counted enough,
or starts again. -/
theorem receive_open (h : Counts w) (hnull : f.startcode = 0) (hopen : ¬ w.lock.locked) :
    w.receive f = ⟨if w.sizes.head?.map (· % 2 ^ 10) = some f.payloadSize then
        if counted w.sizes = 10 then { w.lock with locked := true }
        else { w.lock with matchingFrameCount := counted w.sizes + 1 }
      else { w.lock with
        matchingFrameCount := 1, matchingSlotCount := f.payloadSize % 2 ^ 10 },
      f.payloadSize :: w.sizes⟩ := by
  obtain ⟨hframes, hle⟩ := h.frames hopen
  -- the count fits into its six bits
  have hwidth : (counted w.sizes + 1) % 2 ^ 6 = counted w.sizes + 1 := by omega
  have hkept : ¬ (w.lock.locked ∧ ¬ (w.lock.receivedFrame f).locked) := fun hlost => hopen hlost.1
  unfold Watch.receive
  rw [if_pos hnull, if_neg hkept, h.receivedFrame_of_null hnull, if_neg hopen]
  by_cases hsame : w.sizes.head?.map (· % 2 ^ 10) = some f.payloadSize
  · rw [if_pos ((h.same_iff hopen).2 hsame), if_pos hsame]
    by_cases hten : counted w.sizes = 10
    · rw [if_pos (hframes.trans (hten.trans h.required.symm)), if_pos hten]
    · rw [if_neg (fun heq => hten (hframes.symm.trans (heq.trans h.required))), if_neg hten,
        hframes, hwidth]
  · rw [if_neg (mt (h.same_iff hopen).1 hsame), if_neg hsame]

/-- **One frame.** -/
theorem receive (h : Counts w) (f : Frame) : Counts (w.receive f) := by
  by_cases hnull : f.startcode = 0
  swap
  · rw [receive_of_not_null hnull]
    exact h
  by_cases hlocked : w.lock.locked
  · have hslots := h.slots
    rw [h.last hlocked] at hslots
    by_cases hsame : f.payloadSize = w.lock.matchingSlotCount
    · rw [h.receive_locked_same hnull hlocked hsame]
      refine ⟨h.enabled, h.required, fun hopen => absurd hlocked hopen, ?_, fun _ => ?_⟩
      · rw [List.head?_cons, hsame]
        exact hslots
      · rw [List.head?_cons, hsame]
    · rw [h.receive_locked_other hnull hlocked hsame]
      exact ⟨h.enabled, h.required, fun _ => ⟨rfl, Nat.zero_le 10⟩, rfl,
        fun hl => absurd hl Bool.false_ne_true⟩
  · obtain ⟨-, hle⟩ := h.frames hlocked
    rw [h.receive_open hnull hlocked]
    split
    · rename_i hsame
      have hslots : w.lock.matchingSlotCount = f.payloadSize := by rw [h.slots, hsame]; rfl
      -- a size the lock found equal is one that fits into its ten bits
      have hten : f.payloadSize % 2 ^ 10 = f.payloadSize := by
        cases hsizes : w.sizes with
        | nil => simp [hsizes] at hsame
        | cons m ms =>
          simp only [hsizes, List.head?_cons, Option.map_some, Option.some.injEq] at hsame
          omega
      have hcounted : counted (f.payloadSize :: w.sizes) = counted w.sizes + 1 := if_pos hsame
      split
      · exact ⟨h.enabled, h.required, fun hopen => absurd rfl hopen,
          hslots.trans hten.symm, fun _ => congrArg some hslots.symm⟩
      · refine ⟨h.enabled, h.required, fun _ => ⟨hcounted.symm, ?_⟩, hslots.trans hten.symm,
          fun hl => absurd hl hlocked⟩
        rw [hcounted]
        omega
    · rename_i hother
      have hcounted : counted (f.payloadSize :: w.sizes) = 1 := if_neg hother
      exact ⟨h.enabled, h.required, fun _ => ⟨hcounted.symm, by rw [hcounted]; decide⟩, rfl,
        fun hl => absurd hl hlocked⟩

/-- **An open lock snaps in** at the eleventh frame that it counts. -/
theorem snapsIn_iff (h : Counts w) (hopen : ¬ w.lock.locked) (f : Frame) :
    (w.receive f).lock.locked ↔
      f.startcode = 0 ∧ 11 ≤ counted (f.payloadSize :: w.sizes) := by
  by_cases hnull : f.startcode = 0
  swap
  · rw [receive_of_not_null hnull]
    exact iff_of_false hopen fun h' => hnull h'.1
  obtain ⟨-, hle⟩ := h.frames hopen
  rw [h.receive_open hnull hopen, and_iff_right hnull, counted]
  split
  · split
    · exact iff_of_true rfl (by omega)
    · exact iff_of_false hopen (by omega)
  · exact iff_of_false hopen (by decide)

/-- **A lock that holds is lost** at the first frame of another size. -/
theorem isLost_iff (h : Counts w) (hlocked : w.lock.locked) (f : Frame) :
    ¬ (w.receive f).lock.locked ↔ w.Differs f := by
  unfold Watch.Differs
  rw [h.last hlocked]
  by_cases hnull : f.startcode = 0
  swap
  · rw [receive_of_not_null hnull]
    exact iff_of_false (not_not.2 hlocked) fun h' => hnull h'.1
  by_cases hsame : f.payloadSize = w.lock.matchingSlotCount
  · rw [h.receive_locked_same hnull hlocked hsame]
    exact iff_of_false (not_not.2 hlocked) fun h' => h'.2 (congrArg some hsame.symm)
  · rw [h.receive_locked_other hnull hlocked hsame]
    exact iff_of_true Bool.false_ne_true
      ⟨hnull, fun heq => hsame (Option.some.inj heq).symm⟩

end Counts

/-! ## What is documented -/

namespace Watch

variable {w : Watch}

/-- Before the ten frames of one size there was one that the ten bits take
for another of them. -/
def CountedBefore (w : Watch) (f : Frame) : Prop :=
  ∃ b, w.sizes[9]? = some b ∧ b % 2 ^ 10 = f.payloadSize

/-- **One frame, exactly.** -/
theorem documented_iff (h : Counts w) (f : Frame) :
    w.Documented f ↔ (¬ w.lock.locked → w.MakesTen f → w.CountedBefore f) := by
  -- the tenth frame locks only where the count was one ahead of the sizes
  have heleven : 11 ≤ counted (f.payloadSize :: w.sizes) ↔
      List.replicate 10 f.payloadSize <+: f.payloadSize :: w.sizes ∧ w.CountedBefore f := by
    rw [replicate_prefix_cons, and_iff_right rfl]
    exact le_counted_iff (k := 9)
  constructor
  · intro hdoc hopen hten
    have hlocked := (hdoc.snapsIn hopen).2 hten
    exact (heleven.1 ((h.snapsIn_iff hopen f).1 hlocked).2).2
  · intro hbefore
    refine ⟨fun hopen => ?_, fun hlocked => h.isLost_iff hlocked f⟩
    rw [h.snapsIn_iff hopen f, heleven]
    constructor
    · rintro ⟨hnull, hten, -⟩
      exact ⟨hnull, hten⟩
    · intro hten
      exact ⟨hten.1, hten.2, hbefore hopen hten⟩

end Watch

/-- **The lock and its documentation.** The frames of a run all do to the
lock what is documented just when, whenever a frame is the tenth of one
size since an open lock was lost, the frame before the ten already had
that size in its lower ten bits. -/
theorem lock_documented_iff (fs : List Frame) :
    EachStep Watch.receive Watch.Documented Watch.start fs ↔
      EachStep Watch.receive
        (fun w f => ¬ w.lock.locked → w.MakesTen f → w.CountedBefore f) Watch.start fs := by
  refine eachStep_iff_of_invariant (Q := Counts) ?_ ?_ Counts.start
  · exact fun w f hcounts => Watch.documented_iff hcounts f
  · exact fun w f hcounts _ => hcounts.receive f

/-- Ten frames of three slots do not lock. -/
theorem tenFrames_not_documented :
    ¬ EachStep Watch.receive Watch.Documented Watch.start (List.replicate 10 threeSlots) := by
  intro h
  have hlast := h (List.replicate 9 threeSlots) threeSlots (List.prefix_refl _)
  have hlocked := (hlast.snapsIn (by decide)).2 ⟨by decide, by decide⟩
  exact absurd hlocked (by decide)

end Dmxrtuart

end Dmx4Linux2
