import Dmx4Linux2.Common.Run
import Dmx4Linux2.Core.Framequeue
import Dmx4Linux2.Kernel.Device
import Dmx4Linux2.Kernel.Model.Readers

/-!
# dmx512 kernel core — what a read that waits returns

A read of 0 bytes is the end of a file, and a device that frames come
from has none. `never_zero_iff` says when no read returns 0: when every
reader finds a frame in the queue at the time it takes one off. A reader
that was woken up by a signal, or that is overtaken by another after it
has looked at the queue, may not.
-/

namespace Dmx4Linux2

namespace Kernel

open Dmx4Linux2.Core

namespace Readers

variable {τ δ π : Type} [DecidableEq τ] [DecidableEq δ] [DecidableEq π]
variable {m : Readers τ δ π}

/-- **Every read that has returned gave a frame or an error**, unless the
frame could not be copied. -/
def NeverZero (m : Readers τ δ π) : Prop :=
  ∀ r ∈ m.returned, r.fault = false → r.result ≠ .ok none

/-- **A reader finds a frame** when it takes one off the queue. -/
def Finds (m : Readers τ δ π) : Turn τ δ π → Prop
  | .get reader => ∀ dev, m.stages reader = some (.getting dev) →
    (m.kernel.devices dev).rxframequeue ≠ []
  | _ => True

omit [DecidableEq δ] [DecidableEq π] in
theorem neverZero_ret (m : Readers τ δ π) (reader : τ) (result : Except Errno (Option Frame))
    (fault : Bool) :
    (m.ret reader result fault).NeverZero ↔
      m.NeverZero ∧ (fault = false → result ≠ .ok none) := by
  simp only [NeverZero, ret, List.mem_append, List.mem_singleton, or_imp, forall_and, forall_eq]

omit [DecidableEq δ] [DecidableEq π] in
/-- The first part of a read returns errors only. -/
theorem NeverZero.call (h : m.NeverZero) (reader : τ) (dev : δ) (size : ℕ) (nonblock : Bool) :
    (m.call reader dev size nonblock).NeverZero := by
  unfold Readers.call
  split
  · exact (neverZero_ret ..).2 ⟨h, by simp⟩
  · split
    · split
      · exact (neverZero_ret ..).2 ⟨h, by simp⟩
      · exact h
    · exact h

omit [DecidableEq π] in
/-- **Nothing is returned but from an empty queue.** -/
theorem neverZero_get (h : m.NeverZero) (reader : τ) (dev : δ) :
    (m.get reader dev).NeverZero ↔ (m.kernel.devices dev).rxframequeue ≠ [] := by
  unfold Readers.get
  cases (m.kernel.devices dev).rxframequeue with
  | nil =>
    refine iff_of_false (fun hzero => ?_) (by simp)
    exact ((neverZero_ret ..).1 hzero).2 rfl rfl
  | cons e q => exact iff_of_true h (by simp)

/-- **Which turns make a read return 0.** -/
theorem neverZero_step (h : m.NeverZero) (turn : Turn τ δ π) :
    (m.step turn).NeverZero ↔ m.Finds turn := by
  cases turn with
  | call reader dev size nonblock =>
    refine iff_of_true ?_ trivial
    simp only [step]
    split
    · exact h.call reader dev size nonblock
    · exact h
  | wake reader =>
    refine iff_of_true ?_ trivial
    simp only [step]
    split
    · split <;> exact h
    · exact h
  | signal reader =>
    refine iff_of_true ?_ trivial
    simp only [step]
    split <;> exact h
  | get reader =>
    simp only [step, Finds]
    split
    case h_1 dev hstage =>
      rw [neverZero_get h reader dev]
      constructor
      · intro hfinds dev' hstage'
        obtain rfl : dev = dev' := by simpa using hstage.symm.trans hstage'
        exact hfinds
      · intro hfinds
        exact hfinds dev hstage
    case h_2 hstage => exact iff_of_true h fun dev hget => absurd hget (hstage dev)
  | copy reader fault =>
    refine iff_of_true ?_ trivial
    simp only [step]
    split
    · refine (neverZero_ret ..).2 ⟨h, fun hfault => ?_⟩
      simp [State.readRest, hfault]
    · exact h
  | kernel ev =>
    refine iff_of_true ?_ trivial
    simp only [step]
    split <;> exact h

/-! ## One reader at a time -/

/-- **The turn is nobody else's**: no reader looks at the queue while
another is between its look and the queue, no reader is interrupted, and
what else happens empties no queue. -/
def Alone (m : Readers τ δ π) : Turn τ δ π → Prop
  | .call _ dev _ _ => ∀ r, m.stages r ≠ some (.getting dev)
  | .wake reader => ∀ dev, m.stages reader = some (.waiting dev) →
    ∀ r, m.stages r ≠ some (.getting dev)
  | .signal _ => False
  | .kernel ev => ∀ dev, (m.kernel.devices dev).rxframequeue ≠ [] →
    ((m.kernel.step ev).devices dev).rxframequeue ≠ []
  | _ => True

/-- A reader that is about to take a frame off a queue is alone there,
and there is one. -/
structure Ready (m : Readers τ δ π) : Prop where
  finds : ∀ r dev, m.stages r = some (.getting dev) → (m.kernel.devices dev).rxframequeue ≠ []
  alone : ∀ r r' dev, m.stages r = some (.getting dev) → m.stages r' = some (.getting dev) →
    r = r'

omit [DecidableEq δ] [DecidableEq π] in
/-- A reader goes on to a place that is not before the queue. -/
theorem Ready.leave (h : m.Ready) {reader : τ} {stage : Option (Stage δ)}
    (hstage : ∀ dev, stage ≠ some (.getting dev)) (returned : List (Returned τ)) :
    ({ m with stages := Function.update m.stages reader stage, returned := returned } :
      Readers τ δ π).Ready := by
  have hold : ∀ r dev, Function.update m.stages reader stage r = some (.getting dev) →
      m.stages r = some (.getting dev) := by
    intro r dev hr
    by_cases heq : r = reader
    · rw [heq, Function.update_self] at hr
      exact absurd hr (hstage dev)
    · rwa [Function.update_of_ne heq] at hr
  exact ⟨fun r dev hr => h.finds r dev (hold r dev hr),
    fun r r' dev hr hr' => h.alone r r' dev (hold r dev hr) (hold r' dev hr')⟩

omit [DecidableEq δ] [DecidableEq π] in
/-- A reader that has seen a frame goes on to the queue, where nobody
else is. -/
theorem Ready.enter (h : m.Ready) {reader : τ} {dev : δ}
    (hfinds : (m.kernel.devices dev).rxframequeue ≠ [])
    (hnobody : ∀ r, m.stages r ≠ some (.getting dev)) :
    (m.enter reader (.getting dev)).Ready := by
  have hcases : ∀ r dev', (m.enter reader (.getting dev)).stages r = some (.getting dev') →
      r = reader ∧ dev' = dev ∨ m.stages r = some (.getting dev') := by
    intro r dev' hr
    simp only [Readers.enter] at hr
    by_cases heq : r = reader
    · rw [heq, Function.update_self] at hr
      exact Or.inl ⟨heq, by simpa using hr.symm⟩
    · rw [Function.update_of_ne heq] at hr
      exact Or.inr hr
  refine ⟨fun r dev' hr => ?_, fun r r' dev' hr hr' => ?_⟩
  · rcases hcases r dev' hr with ⟨-, rfl⟩ | hr
    · exact hfinds
    · exact h.finds r dev' hr
  · rcases hcases r dev' hr with ⟨rfl, rfl⟩ | hold
    · rcases hcases r' dev' hr' with ⟨rfl, -⟩ | hold'
      · rfl
      · exact absurd hold' (hnobody r')
    · rcases hcases r' dev' hr' with ⟨-, rfl⟩ | hold'
      · exact absurd hold (hnobody r)
      · exact h.alone r r' dev' hold hold'

omit [DecidableEq δ] [DecidableEq π] in
/-- A read begins, where nobody is before the queue. -/
theorem Ready.call (h : m.Ready) {dev : δ} (hnobody : ∀ r, m.stages r ≠ some (.getting dev))
    (reader : τ) (size : ℕ) (nonblock : Bool) : (m.call reader dev size nonblock).Ready := by
  unfold Readers.call
  split
  · exact h.leave (by simp) _
  · split
    · split
      · exact h.leave (by simp) _
      · exact h.leave (by simp) _
    case isFalse hempty => exact h.enter (by simpa [Framequeue.isempty] using hempty) hnobody

omit [DecidableEq π] in
/-- A reader takes a frame off its queue; the others are before other
queues. -/
theorem Ready.get (h : m.Ready) {reader : τ} {dev : δ}
    (hstage : m.stages reader = some (.getting dev)) : (m.get reader dev).Ready := by
  unfold Readers.get
  cases hqueue : (m.kernel.devices dev).rxframequeue with
  | nil => exact absurd hqueue (h.finds reader dev hstage)
  | cons e q =>
    have hleft : (m.enter reader (.copying e)).Ready := h.leave (by simp) m.returned
    refine ⟨fun r dev' hr => ?_, hleft.alone⟩
    have hne : dev' ≠ dev := by
      rintro rfl
      have hr' : Function.update m.stages reader (some (.copying e)) r =
        some (.getting dev') := hr
      by_cases heq : r = reader
      · rw [heq, Function.update_self] at hr'
        exact absurd hr' (by simp)
      · rw [Function.update_of_ne heq] at hr'
        exact heq (h.alone r reader dev' hr' hstage)
    have hsame : (m.kernel.setDevice dev
        { m.kernel.devices dev with rxframequeue := q }).devices dev' =
          m.kernel.devices dev' := State.setDevice_of_ne hne ..
    exact hsame ▸ hleft.finds r dev' hr

theorem Ready.step (h : m.Ready) {turn : Turn τ δ π} (halone : m.Alone turn) :
    (m.step turn).Ready := by
  cases turn with
  | call reader dev size nonblock =>
    simp only [Readers.step]
    split
    · exact h.call halone reader size nonblock
    · exact h
  | wake reader =>
    simp only [Readers.step]
    split
    case h_1 dev hstage =>
      split
      · exact h
      case isFalse hempty =>
        exact h.enter (by simpa [Framequeue.isempty] using hempty) (halone dev hstage)
    case h_2 => exact h
  | signal reader => exact absurd halone id
  | get reader =>
    simp only [Readers.step]
    split
    case h_1 dev hstage => exact h.get hstage
    case h_2 => exact h
  | copy reader fault =>
    simp only [Readers.step]
    split
    case h_1 e hstage =>
      have hleft : ({ m with stages := Function.update m.stages reader none } :
        Readers τ δ π).Ready := h.leave (by simp) m.returned
      exact ⟨hleft.finds, hleft.alone⟩
    case h_2 => exact h
  | kernel ev =>
    simp only [Readers.step]
    split
    · exact h
    · exact ⟨fun r dev hr => halone dev (h.finds r dev hr), h.alone⟩

/-- **Readers that do not get in each other's way, and are not
interrupted, read frames.** -/
theorem never_zero_of_alone (kernel : State δ π) (turns : List (Turn τ δ π))
    (halone : EachStep step Alone (start kernel) turns) :
    Always step NeverZero (start kernel) turns := by
  have hready : (start kernel : Readers τ δ π).Ready :=
    ⟨fun r dev hr => absurd hr (by simp [start]), fun r r' dev hr => absurd hr (by simp [start])⟩
  have hall := always_of_eachStep (fun m turn halone (h : m.Ready) => h.step halone) halone hready
  have hfinds : EachStep step Finds (start kernel) turns := by
    refine eachStep_of_always (fun m turn (h : m.Ready) _ => ?_) hall halone
    cases turn with
    | get reader => exact fun dev hstage => h.finds reader dev hstage
    | _ => trivial
  refine always_of_eachStep (fun m turn hturn h => (neverZero_step h turn).2 hturn) hfinds ?_
  exact fun r hr => absurd hr List.not_mem_nil

/-! ## Any readers -/

/-- **When a read gives a frame or an error**, for any number of readers
and any order of their steps, of frames that arrive and of signals: when
every reader finds a frame in the queue as it takes one off. -/
theorem never_zero_iff (kernel : State δ π) (turns : List (Turn τ δ π)) :
    Always step NeverZero (start kernel) turns ↔ EachStep step Finds (start kernel) turns := by
  refine always_iff_eachStep (fun _ _ (_ : True) => trivial) ?_ trivial ?_
  · intro m turn _ h
    exact neverZero_step h turn
  · intro r hr
    exact absurd hr (List.not_mem_nil)

/-- A device and a port are registered. -/
def oneDevice : List (Turn Bool Unit Unit) :=
  [.kernel (.register () false), .kernel (.addPort () () false)]

/-- One frame is received, two readers see it, and both take it. -/
def overtaken : List (Turn Bool Unit Unit) :=
  oneDevice ++ [.kernel .getFrame, .kernel (.receivedFrame (some ()) 0 Frame.single),
    .call false () sizeofFrame false, .call true () sizeofFrame false, .get false, .get true]

/-- A reader waits for a frame and is interrupted by a signal. -/
def interrupted : List (Turn Bool Unit Unit) :=
  oneDevice ++ [.call false () sizeofFrame false, .signal false, .get false]

theorem interrupted_overtaken_zero :
    ¬ Always step NeverZero (start (State.coreInit fun _ => Frame.single)) interrupted ∧
      ¬ Always step NeverZero (start (State.coreInit fun _ => Frame.single)) overtaken := by
  refine ⟨fun h => ?_, fun h => ?_⟩
  · have hreturned : (run step (start (State.coreInit fun _ => Frame.single))
        interrupted).returned = [⟨false, .ok none, false⟩] := rfl
    exact h.last ⟨false, .ok none, false⟩ (hreturned ▸ List.mem_singleton_self _) rfl rfl
  · have hreturned : (run step (start (State.coreInit fun _ => Frame.single))
        overtaken).returned = [⟨true, .ok none, false⟩] := rfl
    exact h.last ⟨true, .ok none, false⟩ (hreturned ▸ List.mem_singleton_self _) rfl rfl

end Readers

end Kernel

end Dmx4Linux2
