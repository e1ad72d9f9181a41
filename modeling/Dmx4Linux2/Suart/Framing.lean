import Dmx4Linux2.Common.Run
import Dmx4Linux2.Suart.Model.Port

/-!
# suart — the frames that are received

What an unlocked port makes of frames that arrive in pieces. A piece is
left out when it does not leave one of 512 octets free, so that the port
reports a frame as it was received just when it has at most 511 octets,
however it is cut (`framing_iff`). A full DMX frame has 513.
-/

namespace Dmx4Linux2

namespace Suart

variable {p : Port} {chunk : Inline} {chunks : List Inline}

namespace Port

theorem length_content : p.content.length = p.dmxsize := Mem.length_read

/-- Octets are written behind what a port holds. -/
theorem read_write_content (p : Port) (octets : List UInt8) :
    (p.dmxData.write p.dmxsize octets).read 0 (p.dmxsize + octets.length) =
      p.content ++ octets := by
  rw [Mem.read_add, Mem.read_write_outside (by omega), Nat.zero_add, Mem.read_write]
  rfl

/-- **What a piece does to a port that is not locked**: it is appended if
there is space, and left out else. -/
theorem dataInline_spec (hlock : p.dmxLocked = false) (chunk : Inline) :
    (p.dataInline chunk).dmxLocked = false ∧ (p.dataInline chunk).reported = p.reported ∧
      (p.dataInline chunk).content =
        if p.dmxsize + chunk.octets.length ≤ 511 then p.content ++ chunk.octets
        else p.content := by
  unfold dataInline
  simp only [hlock, Bool.false_eq_true, if_false, false_and]
  by_cases hfits : p.dmxsize + chunk.octets.length ≤ 511
  · have hlt : chunk.octets.length < 512 - p.dmxsize := by omega
    rw [if_pos hlt, if_pos hfits]
    exact ⟨rfl, rfl, read_write_content p chunk.octets⟩
  · have hlt : ¬ chunk.octets.length < 512 - p.dmxsize := by omega
    rw [if_neg hlt, if_neg hfits]
    exact ⟨rfl, rfl, rfl⟩

/-- **What a piece does to a locked port** that has space for it: with
its last octet the frame is reported. -/
theorem dataInline_locked (hlock : p.dmxLocked = true)
    (hfits : chunk.octets.length < 512 - p.dmxsize) :
    if p.dmxsize + chunk.octets.length = p.dmxLockSize then
      (p.dataInline chunk).reported = p.reported ++ [p.content ++ chunk.octets] ∧
        (p.dataInline chunk).dmxsize = 0 ∧ (p.dataInline chunk).dmxstate = 0
    else
      (p.dataInline chunk).reported = p.reported ∧
        (p.dataInline chunk).content = p.content ++ chunk.octets ∧
        (p.dataInline chunk).dmxstate = 2 := by
  have hcontent := read_write_content p chunk.octets
  unfold dataInline
  simp only [hlock, hfits, if_true, true_and]
  split
  case isTrue hend =>
    refine ⟨?_, rfl, rfl⟩
    simp only [receivedFrame, content, hcontent]
  case isFalse => exact ⟨rfl, hcontent, rfl⟩

/-- The pieces of a frame. The port holds no more than 511 octets, and
all of the pieces if they are no more. -/
theorem foldl_dataInline (hlock : p.dmxLocked = false) (hsize : p.dmxsize ≤ 511)
    (chunks : List Inline) :
    (chunks.foldl dataInline p).dmxLocked = false ∧
      (chunks.foldl dataInline p).reported = p.reported ∧
      (chunks.foldl dataInline p).dmxsize ≤ 511 ∧
      (p.dmxsize + (chunks.flatMap Inline.octets).length ≤ 511 →
        (chunks.foldl dataInline p).content = p.content ++ chunks.flatMap Inline.octets) := by
  induction chunks generalizing p with
  | nil => simp [hlock, hsize]
  | cons chunk chunks ih =>
    obtain ⟨hlock', hreported, hcontent⟩ := dataInline_spec hlock chunk
    have hlength := congrArg List.length hcontent
    rw [length_content] at hlength
    by_cases hfits : p.dmxsize + chunk.octets.length ≤ 511
    · rw [if_pos hfits] at hcontent hlength
      rw [List.length_append, length_content] at hlength
      obtain ⟨hlocked, hrep, hle, hall⟩ := ih hlock' (by omega)
      refine ⟨hlocked, hrep.trans hreported, hle, fun htotal => ?_⟩
      rw [List.flatMap_cons, List.length_append] at htotal
      rw [List.foldl_cons, hall (by omega), hcontent, List.flatMap_cons, List.append_assoc]
    · rw [if_neg hfits] at hcontent hlength
      rw [length_content] at hlength
      obtain ⟨hlocked, hrep, hle, -⟩ := ih hlock' (by omega)
      -- a piece was left out, and so there are more than 511 octets in all
      refine ⟨hlocked, hrep.trans hreported, hle, fun htotal => ?_⟩
      rw [List.flatMap_cons, List.length_append] at htotal
      omega

/-- The lock is all that `updateLock` changes. -/
theorem updateLock_spec (p : Port) : p.updateLock.reported = p.reported ∧
    p.updateLock.dmxData = p.dmxData ∧ p.updateLock.dmxsize = p.dmxsize := by
  unfold updateLock
  by_cases hlock : p.dmxLocked = true
  · rw [if_pos hlock]
    split <;> exact ⟨rfl, rfl, rfl⟩
  · rw [if_neg hlock]
    by_cases hsize : p.dmxLockSize = p.dmxsize
    · simp only [hsize, if_true]
      split <;> exact ⟨rfl, rfl, rfl⟩
    · simp only [hsize, if_false]
      split <;> exact ⟨rfl, rfl, rfl⟩

end Port

/-- The line status at a break. -/
structure Break where
  value : UInt32
  isBreak : value &&& Port.breakInterrupt ≠ 0

namespace Port

/-- **A break reports what a port holds**, if it holds anything. -/
theorem linestatus_reported (p : Port) (brk : Break) :
    (p.linestatus brk.value).reported =
      p.reported ++ if 0 < p.dmxsize then [p.content] else [] := by
  obtain ⟨hreported, hdata, hsize⟩ := p.updateLock_spec
  unfold linestatus
  rw [if_pos brk.isBreak]
  by_cases hpos : 0 < p.dmxsize
  · simp only [hpos, if_true, receivedFrame, content, hreported, hdata, hsize]
  · simp [hpos]

theorem linestatus_dmxsize (p : Port) (brk : Break) : (p.linestatus brk.value).dmxsize = 0 := by
  unfold linestatus
  rw [if_pos brk.isBreak]

end Port

/-! ## Frames -/

/-- A frame of 1 to 513 octets, as the pieces it is received in, and the
break behind it. -/
structure Received where
  chunks : List Inline
  chunks_ne : ∀ chunk ∈ chunks, chunk.octets ≠ []
  brk : Break
  pos : 0 < (chunks.flatMap Inline.octets).length
  le : (chunks.flatMap Inline.octets).length ≤ 513

namespace Received

def octets (f : Received) : List UInt8 := f.chunks.flatMap Inline.octets

/-- The events of a frame and of the break behind it. -/
def events (f : Received) : List Event :=
  f.chunks.map .dataInline ++ [.linestatus 0xFF f.brk.value]

end Received

namespace Port

/-- A frame is received, and the break behind it. -/
def receive (p : Port) (f : Received) : Port := (f.chunks.foldl dataInline p).linestatus f.brk.value

theorem foldlM_dataInline (chunks : List Inline) (p : Port) :
    (chunks.map Event.dataInline).foldlM rxfifoHandler p = some (chunks.foldl dataInline p) := by
  induction chunks generalizing p with
  | nil => rfl
  | cons chunk chunks ih => exact ih (p.dataInline chunk)

/-- The handler makes of the events of a frame what `receive` says. -/
theorem foldlM_rxfifoHandler (p : Port) (f : Received) :
    f.events.foldlM rxfifoHandler p = some (p.receive f) := by
  rw [Received.events, List.foldlM_append, foldlM_dataInline]
  rfl

/-- **An unlocked port reports a frame as it was received just when it
has at most 511 octets.** -/
theorem receive_reported_iff (hlock : p.dmxLocked = false) (hsize : p.dmxsize = 0) (f : Received) :
    (p.receive f).reported = p.reported ++ [f.octets] ↔ f.octets.length ≤ 511 := by
  obtain ⟨-, hreported, hle, hall⟩ := foldl_dataInline hlock (by omega) f.chunks
  rw [receive, linestatus_reported, hreported, List.append_cancel_left_eq]
  constructor
  · intro hreport
    split at hreport
    case isTrue =>
      -- what was reported was in the buffer
      rw [← List.singleton_inj.1 hreport, length_content]
      exact hle
    case isFalse => exact absurd hreport (by simp)
  · intro hlength
    have hempty : p.content = [] := List.length_eq_zero_iff.1 (by rw [length_content, hsize])
    have hcontent : (f.chunks.foldl dataInline p).content = f.octets := by
      rw [hall (by rw [hsize, Nat.zero_add]; exact hlength), hempty, List.nil_append]
      rfl
    have hpos : 0 < (f.chunks.foldl dataInline p).dmxsize := by
      rw [← length_content, hcontent]
      exact f.pos
    rw [if_pos hpos, hcontent]

end Port

/-- The port is not locked. -/
def Unlocked (p : Port) : Prop := p.dmxLocked = false

/-- **A port frames what it receives** if, as long as it stays unlocked,
it reports every frame at the break behind it, with all of its octets. -/
def Frames (p : Port) (frames : List Received) : Prop :=
  ∀ before f, before ++ [f] <+: frames → Always Port.receive Unlocked p before →
    (run Port.receive p (before ++ [f])).reported =
      (run Port.receive p before).reported ++ [f.octets]

/-- After a break and any frames the port has nothing of the next. -/
theorem run_receive_dmxsize (hsize : p.dmxsize = 0) (frames : List Received) :
    (run Port.receive p frames).dmxsize = 0 := by
  induction frames generalizing p with
  | nil => exact hsize
  | cons f frames ih => exact ih (Port.linestatus_dmxsize _ f.brk)

/-- **When frames are received as they are**: from the first break on, a
port reports all frames that it gets as long as it stays unlocked just
when none of them has more than 511 octets. -/
theorem framing_iff (p : Port) (brk : Break) (frames : List Received) :
    Frames (p.linestatus brk.value) frames ↔
      ∀ before f, before ++ [f] <+: frames →
        Always Port.receive Unlocked (p.linestatus brk.value) before → f.octets.length ≤ 511 := by
  have hframe : ∀ before f, Always Port.receive Unlocked (p.linestatus brk.value) before →
      ((run Port.receive (p.linestatus brk.value) (before ++ [f])).reported =
        (run Port.receive (p.linestatus brk.value) before).reported ++ [f.octets] ↔
          f.octets.length ≤ 511) := by
    intro before f hunlocked
    rw [run_concat]
    exact Port.receive_reported_iff hunlocked.last
      (run_receive_dmxsize (p.linestatus_dmxsize brk) before) f
  constructor
  · intro h before f hmem hunlocked
    exact (hframe before f hunlocked).1 (h before f hmem hunlocked)
  · intro h before f hmem hunlocked
    exact (hframe before f hunlocked).2 (h before f hmem hunlocked)

/-- The start code and 512 slots, in pieces of 14 octets. -/
def fullChunks : List Inline :=
  let chunk : Inline := ⟨List.replicate 14 0, by decide⟩
  let last : Inline := ⟨List.replicate 9 0, by decide⟩
  List.replicate 36 chunk ++ [last]

theorem length_fullChunks : (fullChunks.flatMap Inline.octets).length = 513 := by
  decide +kernel

/-- A full DMX frame. -/
def fullFrame : Received where
  chunks := fullChunks
  chunks_ne := by decide
  brk := ⟨Port.breakInterrupt, by decide⟩
  pos := by rw [length_fullChunks]; omega
  le := length_fullChunks.le

theorem fullFrame_truncated :
    ¬ Frames ((Port.init fun _ => 0).linestatus Port.breakInterrupt) [fullFrame] := by
  intro h
  have hreported := h [] fullFrame (List.prefix_refl _) (always_nil.2 rfl)
  rw [List.nil_append, run_cons, run_nil, run_nil] at hreported
  have hlength := (Port.receive_reported_iff rfl rfl fullFrame).1 hreported
  have hfull : fullFrame.octets.length = 513 := length_fullChunks
  omega

end Suart

end Dmx4Linux2
