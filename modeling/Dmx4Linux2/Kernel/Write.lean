import Dmx4Linux2.Core.Framequeue
import Dmx4Linux2.Kernel.Device

/-!
# dmx512 kernel core — a write is sent or undone

`dmx512_device_write` takes an entry out of the pool first and has five
ways to fail after that. `write_atomic` says that each of them puts the
entry back, and that a write that does not fail hands the entry to the
driver of the port, once, with the frame in it.
-/

namespace Dmx4Linux2

namespace Kernel

open Dmx4Linux2.Core Framequeue

namespace State

variable {δ π : Type}
variable {s : State δ π} {dev : δ} {size : ℕ} {copy : Copy} {space : Bool}

/-- **Why a write is refused.** -/
inductive Refused (s : State δ π) (dev : δ) (size : ℕ) (copy : Copy) (space : Bool) : Prop
  | noEntry (hpool : s.freeFramequeue = [])
  | short (hsize : size < sizeofFrame)
  | fault (left : Frame) (hcopy : copy = .fault left)
  | noPort (frame : Frame) (hcopy : copy = .done frame)
      (hport : s.portByIndex dev frame.port.toNat = none)
  | noSpace (frame : Frame) (port : π) (hcopy : copy = .done frame)
      (hport : s.portByIndex dev frame.port.toNat = some port)
      (hspace : (s.ports port).transmitterHasSpace = true ∧ space = false)

/-- A write that is sent is not refused; -/
theorem Sends.not_refused {e : Entry} {pool : Framequeue} {frame : Frame} {port : π}
    (h : s.Sends dev size copy space e pool frame port) : ¬ s.Refused dev size copy space := by
  rintro (hpool | hsize | ⟨left, hcopy⟩ | ⟨frame', hcopy, hport⟩ | ⟨frame', port', hcopy, hport, hspace⟩)
  · exact absurd (hpool.symm.trans h.pool) (by simp)
  · exact absurd h.size (Nat.not_le.2 hsize)
  · exact absurd (hcopy.symm.trans h.copied) (by simp)
  · obtain rfl : frame' = frame := Copy.done.inj (hcopy.symm.trans h.copied)
    exact absurd (hport.symm.trans h.named) (by simp)
  · obtain rfl : frame' = frame := Copy.done.inj (hcopy.symm.trans h.copied)
    obtain rfl : port' = port := Option.some.inj (hport.symm.trans h.named)
    exact h.space ⟨hspace.1, by simp [hspace.2]⟩

/-- and one that is not refused is sent. -/
theorem sends_of_not_refused (h : ¬ s.Refused dev size copy space) :
    ∃ e pool frame port, s.Sends dev size copy space e pool frame port := by
  cases hpool : s.freeFramequeue with
  | nil => exact absurd (Refused.noEntry hpool) h
  | cons e pool =>
    have hsize : sizeofFrame ≤ size := Nat.le_of_not_lt fun hlt => h (Refused.short hlt)
    cases hcopy : copy with
    | fault left => exact absurd (Refused.fault left hcopy) h
    | done frame =>
      cases hport : s.portByIndex dev frame.port.toNat with
      | none => exact absurd (Refused.noPort frame hcopy hport) h
      | some port =>
        refine ⟨e, pool, frame, port, hpool, hsize, rfl, hport, fun hspace => h ?_⟩
        exact Refused.noSpace frame port hcopy hport ⟨hspace.1, by simpa using hspace.2⟩

/-! ## What a write calls -/

/-- A write that is sent takes the entry and calls the port once. -/
theorem Sends.writeCalls {e : Entry} {pool : Framequeue} {frame : Frame} {port : π}
    (h : s.Sends dev size copy space e pool frame port) :
    s.writeCalls dev size copy space =
      (.ok sizeofFrame, { s with freeFramequeue := pool }, [(port, { e with frame := frame })]) := by
  obtain ⟨hpool, hsize, rfl, hport, hspace⟩ := h
  have hnamed : ({ s with freeFramequeue := pool } : State δ π).portByIndex dev
      frame.port.toNat = some port := hport
  have hfree : (s.ports port).transmitterHasSpace = false ∨ space = true := by
    cases hhas : (s.ports port).transmitterHasSpace with
    | false => exact Or.inl rfl
    | true => exact Or.inr (by simpa [hhas] using hspace)
  unfold State.writeCalls
  simp only [hpool, hnamed, if_neg (Nat.not_lt.2 hsize), if_pos hfree]

/-- What is left of a write that is refused: no call, and the entry in
the pool again. -/
theorem Refused.writeCalls (h : s.Refused dev size copy space) :
    (∃ err, (s.writeCalls dev size copy space).1 = .error err) ∧
      (s.writeCalls dev size copy space).2.2 = [] ∧
      ((s.writeCalls dev size copy space).2.1 = s ∨
        ∃ e pool left, s.freeFramequeue = e :: pool ∧ (s.writeCalls dev size copy space).2.1 =
          ({ s with freeFramequeue := pool } : State δ π).putFrame { e with frame := left }) := by
  unfold State.writeCalls
  cases hpool : s.freeFramequeue with
  | nil => exact ⟨⟨_, rfl⟩, rfl, Or.inl rfl⟩
  | cons e pool =>
    simp only
    by_cases hsize : size < sizeofFrame
    · rw [if_pos hsize]
      exact ⟨⟨_, rfl⟩, rfl, Or.inr ⟨e, pool, e.frame, rfl, rfl⟩⟩
    · rw [if_neg hsize]
      cases copy with
      | fault left => exact ⟨⟨_, rfl⟩, rfl, Or.inr ⟨e, pool, left, rfl, rfl⟩⟩
      | done frame =>
        have hnamed : ({ s with freeFramequeue := pool } : State δ π).portByIndex dev
            frame.port.toNat = s.portByIndex dev frame.port.toNat := rfl
        simp only [hnamed]
        cases hport : s.portByIndex dev frame.port.toNat with
        | none => exact ⟨⟨_, rfl⟩, rfl, Or.inr ⟨e, pool, frame, rfl, rfl⟩⟩
        | some port =>
          simp only
          split
          case isTrue hfree =>
            -- of the five reasons none is left
            refine absurd h (Sends.not_refused
              ⟨hpool, Nat.le_of_not_lt hsize, rfl, hport, fun hspace => ?_⟩)
            rcases hfree with hhas | hsays
            · exact absurd (hspace.1.symm.trans hhas) (by simp)
            · exact hspace.2 hsays
          case isFalse => exact ⟨⟨_, rfl⟩, rfl, Or.inr ⟨e, pool, frame, rfl, rfl⟩⟩

variable [DecidableEq δ] [DecidableEq π]

/-- **The calls of a write are all that follows**: the kernel after a
write is what they make of the state the write leaves. -/
theorem deviceWrite_eq_writeCalls (s : State δ π) (dev : δ) (size : ℕ) (copy : Copy)
    (space : Bool) :
    s.deviceWrite dev size copy space =
      ((s.writeCalls dev size copy space).1,
        (s.writeCalls dev size copy space).2.2.foldl (fun s call => s.sendFrame call.1 call.2)
          (s.writeCalls dev size copy space).2.1) := by
  unfold deviceWrite State.writeCalls writeRest
  cases s.freeFramequeue with
  | nil => rfl
  | cons e pool =>
    simp only
    split
    · rfl
    · cases copy with
      | fault left => rfl
      | done frame =>
        simp only
        cases ({ s with freeFramequeue := pool } : State δ π).portByIndex dev
            frame.port.toNat with
        | none => rfl
        | some port =>
          simp only
          cases (s.ports port).transmitterHasSpace <;> cases space <;> rfl

/-- **A write is sent or undone.** It fails just for one of the five
reasons, and then it calls no driver, the pool has the entries it had,
and nothing else in the kernel has changed, the receive queues in
particular. Else one entry has left the pool and was handed to the
`send_frame` of the port that the frame names, once, with the frame that
was written. -/
theorem write_atomic (s : State δ π) (dev : δ) (size : ℕ) (copy : Copy) (space : Bool) :
    ((∃ err, (s.deviceWrite dev size copy space).1 = .error err) ↔
        s.Refused dev size copy space) ∧
      (s.Refused dev size copy space →
        (s.writeCalls dev size copy space).2.2 = [] ∧
        ids (s.deviceWrite dev size copy space).2.freeFramequeue = ids s.freeFramequeue ∧
        (s.deviceWrite dev size copy space).2 =
          { s with freeFramequeue := (s.deviceWrite dev size copy space).2.freeFramequeue }) ∧
      (¬ s.Refused dev size copy space →
        ∃ e pool frame port, s.freeFramequeue = e :: pool ∧ copy = .done frame ∧
          s.portByIndex dev frame.port.toNat = some port ∧
          s.writeCalls dev size copy space = (.ok sizeofFrame, { s with freeFramequeue := pool },
            [(port, { e with frame := frame })]) ∧
          s.deviceWrite dev size copy space = (.ok sizeofFrame,
            ({ s with freeFramequeue := pool } : State δ π).sendFrame port
              { e with frame := frame })) := by
  have hsent : ¬ s.Refused dev size copy space →
      ∃ e pool frame port, s.Sends dev size copy space e pool frame port ∧
        s.deviceWrite dev size copy space = (.ok sizeofFrame,
          ({ s with freeFramequeue := pool } : State δ π).sendFrame port
            { e with frame := frame }) := by
    intro h
    obtain ⟨e, pool, frame, port, hsends⟩ := sends_of_not_refused h
    refine ⟨e, pool, frame, port, hsends, ?_⟩
    rw [deviceWrite_eq_writeCalls, hsends.writeCalls]
    rfl
  refine ⟨⟨fun herr => ?_, fun h => ?_⟩, fun h => ?_, fun h => ?_⟩
  · by_contra hnot
    obtain ⟨err, herr⟩ := herr
    obtain ⟨e, pool, frame, port, -, hwrite⟩ := hsent hnot
    rw [hwrite] at herr
    exact absurd herr (by simp)
  · rw [deviceWrite_eq_writeCalls]
    exact h.writeCalls.1
  · obtain ⟨-, hcalls, hstate⟩ := h.writeCalls
    refine ⟨hcalls, ?_⟩
    rw [deviceWrite_eq_writeCalls, hcalls, List.foldl_nil]
    rcases hstate with hsame | ⟨e, pool, left, hpool, hput⟩
    · rw [hsame]
      exact ⟨rfl, rfl⟩
    · rw [hput, hpool, ids_cons]
      exact ⟨ids_put pool { e with frame := left }, rfl⟩
  · obtain ⟨e, pool, frame, port, hsends, hwrite⟩ := hsent h
    exact ⟨e, pool, frame, port, hsends.pool, hsends.copied, hsends.named, hsends.writeCalls,
      hwrite⟩

end State

end Kernel

end Dmx4Linux2
