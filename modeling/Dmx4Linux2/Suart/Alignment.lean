import Dmx4Linux2.Suart.Acquisition

/-!
# suart — where a frame starts

A locked port reports a frame with its last octet and is then to wait for
the break; what comes before it is too long a frame, and the lock is to
be dropped. The test for it assigns instead, so that the octets behind a
frame start another one, and a port that gets them in the size it is
locked to never finds out (`surplus_reported`). The frames are aligned
with the breaks in every run in which no data comes while the port waits
for a break, and in which a locked port has space for all of them
(`frames_start_at_break`).
-/

namespace Dmx4Linux2

namespace Suart

variable {p : Port} {chunk : Inline}

/-! ## Frames and what they are of -/

/-- **The frame starts with the first octet behind the break** and has
only octets that came since, in their order. -/
structure Aligned (frame segment : List UInt8) : Prop where
  ne : frame ≠ []
  head : frame.head? = segment.head?
  sub : frame.Sublist segment

namespace Aligned

variable {frame segment : List UInt8}

theorem refl (hne : segment ≠ []) : Aligned segment segment :=
  ⟨hne, rfl, List.Sublist.refl segment⟩

theorem head_append (h : Aligned frame segment) (octets octets' : List UInt8) :
    (frame ++ octets).head? = (segment ++ octets').head? := by
  have hframe := h.ne
  have hsegment : segment ≠ [] := fun hnil => hframe (List.sublist_nil.1 (hnil ▸ h.sub))
  rw [List.head?_append_of_ne_nil _ hframe, List.head?_append_of_ne_nil _ hsegment, h.head]

/-- A piece goes to both, -/
theorem append (h : Aligned frame segment) (octets : List UInt8) :
    Aligned (frame ++ octets) (segment ++ octets) :=
  ⟨by simp [h.ne], h.head_append octets octets, h.sub.append (List.Sublist.refl octets)⟩

/-- or it is left out. -/
theorem skip (h : Aligned frame segment) (octets : List UInt8) :
    Aligned frame (segment ++ octets) := by
  refine ⟨h.ne, ?_, h.sub.trans (List.sublist_append_left segment octets)⟩
  simpa using h.head_append [] octets

end Aligned

/-! ## The state of a port -/

namespace Port

theorem dataInline_dmxstate (hlock : p.dmxLocked = false) : (p.dataInline chunk).dmxstate = 2 := by
  unfold dataInline
  simp only [hlock, Bool.false_eq_true, if_false, false_and]
  split <;> rfl

theorem linestatus_dmxstate (p : Port) (brk : Break) : (p.linestatus brk.value).dmxstate = 1 := by
  unfold linestatus
  rw [if_pos brk.isBreak]

end Port

/-! ## The events of a port -/

/-- A break, or some data. -/
inductive Signal
  | brk (b : Break)
  | data (chunk : Inline)

def Signal.event : Signal → Event
  | .brk b => .linestatus 0xFF b.value
  | .data chunk => .dataInline chunk

/-- A port, and the octets it has received since the last break, if there
was one. -/
structure Watch where
  port : Port
  segment : Option (List UInt8)

namespace Watch

/-- The octets between the last break and the next, as far as they have
come with an event. -/
def window (w : Watch) : Signal → Option (List UInt8)
  | .brk _ => w.segment
  | .data chunk => w.segment.map (· ++ chunk.octets)

def step (w : Watch) (e : Signal) : Watch :=
  match e with
  | .brk b => ⟨w.port.linestatus b.value, some []⟩
  | .data chunk => ⟨w.port.dataInline chunk, w.window (.data chunk)⟩

/-- The handler makes of the events what `step` says. -/
theorem foldlM_rxfifoHandler_event (w : Watch) (events : List Signal) :
    (events.map Signal.event).foldlM Port.rxfifoHandler w.port =
      some (run step w events).port := by
  induction events generalizing w with
  | nil => rfl
  | cons e events ih =>
    cases e with
    | brk b => exact ih (w.step (.brk b))
    | data chunk => exact ih (w.step (.data chunk))

/-- The frames that are reported at an event. -/
def news (w : Watch) (e : Signal) : List (List UInt8) :=
  (w.step e).port.reported.drop w.port.reported.length

/-- **Frames start at breaks**: every frame that is reported is aligned
with a break, and a locked port that has received more octets than it is
locked to drops the lock at the next break. -/
structure Framed (w : Watch) (e : Signal) : Prop where
  aligned : ∀ frame ∈ w.news e, ∃ segment, w.window e = some segment ∧ Aligned frame segment
  dropped : ∀ b segment, e = .brk b → w.segment = some segment → w.port.dmxLocked = true →
    w.port.dmxLockSize < segment.length → (w.step e).port.dmxLocked = false

/-- **Data comes only when the port expects it**: not before the first
break, not behind a frame that a locked port has reported, and not more
than a locked port has space for. It is sufficient only: a run is left out as
well in which no frame is reported of such data, as no break comes behind
it. -/
def Expected (w : Watch) : Signal → Prop
  | .brk _ => True
  | .data chunk => w.port.dmxstate ≠ 0 ∧
    (w.port.dmxLocked = true → chunk.octets.length < 512 - w.port.dmxsize)

/-- What the port holds of the octets since the last break. -/
structure Holds (p : Port) (segment : List UInt8) : Prop where
  content : p.dmxstate ≠ 0 → (p.content = [] ∧ segment = []) ∨ Aligned p.content segment
  locked : p.dmxstate ≠ 0 → p.dmxLocked = true → p.content = segment
  waits : p.dmxstate = 0 → p.dmxsize = 0 ∧ segment.length ≤ p.dmxLockSize

/-- The invariant between events. -/
structure Inv (w : Watch) : Prop where
  lockSize_pos : w.port.dmxLocked = true → 0 < w.port.dmxLockSize
  first : w.segment = none → w.port.dmxstate = 0 ∧ w.port.dmxsize = 0 ∧ w.port.dmxLocked = false
  holds : ∀ segment, w.segment = some segment → Holds w.port segment

variable {w : Watch} {segment : List UInt8}

/-- What the port holds at a break is a frame of the octets before it. -/
theorem Holds.aligned (h : Holds p segment) (hpos : 0 < p.dmxsize) : Aligned p.content segment := by
  have hstate : p.dmxstate ≠ 0 := by
    intro hzero
    have hsize := (h.waits hzero).1
    omega
  rcases h.content hstate with ⟨hempty, -⟩ | haligned
  · rw [← Port.length_content, hempty] at hpos
    exact absurd hpos (by simp)
  · exact haligned

/-- **A frame that is too long is noticed**: the port holds more than it
is locked to. -/
theorem Holds.too_long (h : Holds p segment) (hlock : p.dmxLocked = true)
    (hlong : p.dmxLockSize < segment.length) : p.dmxLockSize < p.dmxsize := by
  have hstate : p.dmxstate ≠ 0 := by
    intro hzero
    have hle := (h.waits hzero).2
    omega
  rw [← Port.length_content, h.locked hstate hlock]
  exact hlong

/-- Data for a port that is not locked. -/
theorem Holds.data_open (h : Holds p segment) (hlock : p.dmxLocked = false)
    (hstate : p.dmxstate ≠ 0) (chunk : Inline) :
    Holds (p.dataInline chunk) (segment ++ chunk.octets) := by
  obtain ⟨hlock', -, hcontent⟩ := Port.dataInline_spec hlock chunk
  have hstate' : (p.dataInline chunk).dmxstate = 2 := Port.dataInline_dmxstate hlock
  refine ⟨fun _ => ?_, fun _ hlocked => by simp [hlock'] at hlocked, fun hzero => by omega⟩
  rw [hcontent]
  rcases h.content hstate with ⟨hempty, rfl⟩ | haligned
  · -- the first piece of a frame always fits
    have hsize : p.dmxsize = 0 := by rw [← Port.length_content, hempty]; rfl
    have hle := chunk.length_le
    simp only [octetsPerInlineDataChunk] at hle
    rw [if_pos (by omega), hempty, List.nil_append]
    by_cases hnil : chunk.octets = []
    · exact .inl ⟨hnil, hnil⟩
    · exact .inr (.refl hnil)
  · split
    · exact .inr (haligned.append chunk.octets)
    · exact .inr (haligned.skip chunk.octets)

/-- **Data for a locked port**: what is reported is all that came since
the break. -/
theorem Holds.data_locked (h : Holds p segment) (hlock : p.dmxLocked = true)
    (hpos : 0 < p.dmxLockSize) (hstate : p.dmxstate ≠ 0)
    (hfits : chunk.octets.length < 512 - p.dmxsize) :
    Holds (p.dataInline chunk) (segment ++ chunk.octets) ∧
      ((p.dataInline chunk).reported = p.reported ∨
        segment ++ chunk.octets ≠ [] ∧
          (p.dataInline chunk).reported = p.reported ++ [segment ++ chunk.octets]) := by
  have hcontent := h.locked hstate hlock
  have hlength : p.dmxsize = segment.length := by rw [← Port.length_content, hcontent]
  have hlockSize := congrArg Lock.size (p.dataInline_lock chunk)
  have hspec := Port.dataInline_locked hlock hfits
  rw [hcontent] at hspec
  split at hspec
  case isTrue hend =>
    obtain ⟨hreported, hsize, hzero⟩ := hspec
    have hfull : (segment ++ chunk.octets).length = p.dmxLockSize := by
      rw [List.length_append]
      omega
    refine ⟨⟨fun hne => absurd hzero hne, fun hne => absurd hzero hne, fun _ => ⟨hsize, ?_⟩⟩,
      .inr ⟨?_, hreported⟩⟩
    · rw [hfull]
      exact hlockSize.ge
    · exact List.ne_nil_of_length_pos (by omega)
  case isFalse =>
    obtain ⟨hreported, hcontent', hstate'⟩ := hspec
    refine ⟨⟨fun _ => ?_, fun _ _ => hcontent', fun hzero => by omega⟩, .inl hreported⟩
    rw [hcontent']
    by_cases hnil : segment ++ chunk.octets = []
    · exact .inl ⟨hnil, hnil⟩
    · exact .inr (.refl hnil)

/-- The state behind a break. -/
theorem Inv.brk (h : w.Inv) (b : Break) : (w.step (.brk b)).Inv := by
  have hsize := w.port.linestatus_dmxsize b
  have hcontent : (w.port.linestatus b.value).content = [] :=
    List.length_eq_zero_iff.1 (by rw [Port.length_content, hsize])
  have hstate := w.port.linestatus_dmxstate b
  refine ⟨?_, fun hnone => by simp [step] at hnone, ?_⟩
  · have hlock := w.port.linestatus_lock b
    rw [Port.updateLock_lock] at hlock
    intro hlocked
    have hpos : (w.port.linestatus b.value).lock.locked = true →
        0 < (w.port.linestatus b.value).lock.size := by
      rw [hlock]
      split
      case isTrue hsize => exact Lock.hear_pos h.lockSize_pos hsize
      case isFalse => exact h.lockSize_pos
    exact hpos hlocked
  · rintro segment hsegment
    obtain rfl : [] = segment := by simpa [step] using hsegment
    exact ⟨fun _ => .inl ⟨hcontent, rfl⟩, fun _ _ => hcontent, fun hzero => by
      simp only [step] at hzero
      omega⟩

/-- **Frames start at breaks** when a break comes. -/
theorem Inv.framed_brk (h : w.Inv) (b : Break) : w.Framed (.brk b) := by
  constructor
  · intro frame hframe
    simp only [news, step, Port.linestatus_reported, List.drop_left] at hframe
    split at hframe
    case isTrue hpos =>
      rw [List.mem_singleton.1 hframe]
      cases hsegment : w.segment with
      | none =>
        have hsize := (h.first hsegment).2.1
        omega
      | some segment => exact ⟨segment, hsegment, (h.holds segment hsegment).aligned hpos⟩
    case isFalse => exact absurd hframe (by simp)
  · intro b' segment he hsegment hlock hlong
    have hsize := (h.holds segment hsegment).too_long hlock hlong
    have hdrop := congrArg Lock.locked (w.port.linestatus_lock b)
    rw [Port.updateLock_lock, if_pos (by omega), Lock.hear_of_ne hlock (by
      simp only [Port.lock]; omega)] at hdrop
    exact hdrop

/-- Data that is expected comes behind a break. -/
theorem Inv.segment_of_data (h : w.Inv) (hexpected : w.Expected (.data chunk)) :
    ∃ segment, w.segment = some segment ∧ Holds w.port segment := by
  cases hsegment : w.segment with
  | none => exact absurd (h.first hsegment).1 hexpected.1
  | some segment => exact ⟨segment, rfl, h.holds segment hsegment⟩

/-- The state after data. -/
theorem Inv.data (h : w.Inv) (hexpected : w.Expected (.data chunk)) :
    (w.step (.data chunk)).Inv := by
  obtain ⟨segment, hsegment, hholds⟩ := h.segment_of_data hexpected
  have hwindow : w.window (.data chunk) = some (segment ++ chunk.octets) := by
    simp [window, hsegment]
  have hlock := w.port.dataInline_lock chunk
  refine ⟨?_, fun hnone => ?_, fun segment' hsegment' => ?_⟩
  · have hpos : (w.port.dataInline chunk).lock.locked = true →
        0 < (w.port.dataInline chunk).lock.size := by
      rw [hlock]
      exact h.lockSize_pos
    exact hpos
  · simp only [step, hwindow] at hnone
    exact absurd hnone (by simp)
  · obtain rfl : segment ++ chunk.octets = segment' := by
      simpa [step, hwindow] using hsegment'
    cases hlocked : w.port.dmxLocked with
    | false => exact hholds.data_open hlocked hexpected.1 chunk
    | true =>
      exact (hholds.data_locked hlocked (h.lockSize_pos hlocked) hexpected.1
        (hexpected.2 hlocked)).1

/-- **Frames start at breaks** when data comes. -/
theorem Inv.framed_data (h : w.Inv) (hexpected : w.Expected (.data chunk)) :
    w.Framed (.data chunk) := by
  obtain ⟨segment, hsegment, hholds⟩ := h.segment_of_data hexpected
  refine ⟨fun frame hframe => ⟨segment ++ chunk.octets, by simp [window, hsegment], ?_⟩,
    fun b segment' he => by cases he⟩
  simp only [news, step] at hframe
  cases hlocked : w.port.dmxLocked with
  | false =>
    -- an open port reports at breaks only
    rw [(Port.dataInline_spec hlocked chunk).2.1, List.drop_length] at hframe
    exact absurd hframe (by simp)
  | true =>
    obtain ⟨-, hreported | ⟨hne, hreported⟩⟩ := hholds.data_locked hlocked
      (h.lockSize_pos hlocked) hexpected.1 (hexpected.2 hlocked)
    · rw [hreported, List.drop_length] at hframe
      exact absurd hframe (by simp)
    · rw [hreported, List.drop_left, List.mem_singleton] at hframe
      rw [hframe]
      exact .refl hne

theorem Inv.step {e : Signal} (h : w.Inv) (hexpected : w.Expected e) : (w.step e).Inv := by
  cases e with
  | brk b => exact h.brk b
  | data chunk => exact h.data hexpected

theorem Inv.framed {e : Signal} (h : w.Inv) (hexpected : w.Expected e) : w.Framed e := by
  cases e with
  | brk b => exact h.framed_brk b
  | data chunk => exact h.framed_data hexpected

/-- A port that was initialised, and has seen no break. -/
def start (garbage : Mem) : Watch := ⟨Port.init garbage, none⟩

theorem inv_start (garbage : Mem) : (start garbage).Inv :=
  ⟨fun hlocked => absurd hlocked (by simp [start, Port.init]), fun _ => ⟨rfl, rfl, rfl⟩,
    fun segment hsegment => absurd hsegment (by simp [start])⟩

end Watch

/-- **When frames start at breaks**: in every run of a port in which data
comes only when the port expects it. -/
theorem frames_start_at_break (garbage : Mem) {events : List Signal}
    (hexpected : EachStep Watch.step Watch.Expected (Watch.start garbage) events) :
    EachStep Watch.step Watch.Framed (Watch.start garbage) events :=
  eachStep_of_always (fun _ _ hinv he => hinv.framed he)
    (always_of_eachStep (fun _ _ he hinv => Watch.Inv.step hinv he) hexpected
      (Watch.inv_start garbage)) hexpected

namespace Signal

/-- The break and the octet of a frame of one octet. -/
def single (b : UInt8) : List Signal :=
  [.brk ⟨Port.breakInterrupt, breakInterrupt_ne⟩, .data ⟨[b], length_singleton_le b⟩]

/-- Six frames of one octet; the port is locked at the last. -/
def locking : List Signal :=
  single 0 ++ single 0 ++ single 0 ++ single 0 ++ single 0 ++ single 1

end Signal

/-- The six frames are expected. -/
theorem locking_starts_at_break :
    EachStep Watch.step Watch.Framed (Watch.start fun _ => 0) Signal.locking := by
  refine frames_start_at_break _ ?_
  simp only [Signal.locking, Signal.single, List.cons_append, List.nil_append, eachStep_cons,
    eachStep_nil, Watch.Expected, true_and, and_true]
  decide +kernel

/-- **The octet behind a frame is reported as another frame**, which does
not start at a break, and the lock is kept at the next break. -/
theorem surplus_reported :
    ¬ EachStep Watch.step Watch.Framed (Watch.start fun _ => 0)
        (Signal.locking ++ [.data ⟨[2], length_singleton_le 2⟩]) ∧
      (run Watch.step (Watch.start fun _ => 0) (Signal.locking ++
        [.data ⟨[2], length_singleton_le 2⟩,
          .brk ⟨Port.breakInterrupt, breakInterrupt_ne⟩])).port.dmxLocked = true := by
  refine ⟨fun h => ?_, by decide +kernel⟩
  have hnews : (run Watch.step (Watch.start fun _ => 0) Signal.locking).news
      (.data ⟨[2], length_singleton_le 2⟩) = [[2]] := by decide +kernel
  have hsegment : (run Watch.step (Watch.start fun _ => 0) Signal.locking).window
      (.data ⟨[2], length_singleton_le 2⟩) = some [1, 2] := by decide +kernel
  obtain ⟨segment, hwindow, haligned⟩ := (h Signal.locking _ (List.prefix_refl _)).aligned [2]
    (by rw [hnews]; exact List.mem_singleton_self _)
  obtain rfl : [1, 2] = segment := Option.some.inj (hsegment.symm.trans hwindow)
  exact absurd haligned.head (by decide)

end Suart

end Dmx4Linux2
