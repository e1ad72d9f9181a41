import Dmx4Linux2.Common.Streak
import Dmx4Linux2.Suart.Framing

/-!
# suart — how a port locks

A port that is not locked counts the frames that have the size of the
frame before. It is to lock to a size when five frames of that size came
in a row, but a frame of another size does not set the count back, so
that matches add up whatever is between them (`lock_of_added_up`). The
lock is right in every run in which no frame of another size comes after
a match, and in which the port takes every frame as one (`lock_of_five`).
-/

namespace Dmx4Linux2

namespace Suart

variable {p : Port} {chunks : List Inline}

/-! ## The lock alone -/

/-- What a port knows about the size of the frames. -/
structure Lock where
  locked : Bool
  count : ℕ
  size : ℕ

def Port.lock (p : Port) : Lock := ⟨p.dmxLocked, p.dmxLockCount, p.dmxLockSize⟩

namespace Lock

/-- A frame of `n` octets was received. -/
def hear (l : Lock) (n : ℕ) : Lock :=
  if l.locked then
    if n = l.size then l else ⟨false, 0, n⟩
  else
    let count := if n = l.size then l.count + 1 else l.count
    ⟨decide (3 < count), count, n⟩

/-- The lock is never for nothing. -/
theorem hear_pos {l : Lock} {n : ℕ} (hpos : l.locked = true → 0 < l.size) (hn : 0 < n) :
    (l.hear n).locked = true → 0 < (l.hear n).size := by
  unfold Lock.hear
  split
  · split
    · exact hpos
    · exact fun _ => hn
  · exact fun _ => hn

/-- **A closed lock opens at another size.** -/
theorem hear_of_ne {l : Lock} {n : ℕ} (hlocked : l.locked = true) (hne : n ≠ l.size) :
    l.hear n = ⟨false, 0, n⟩ := by
  rw [Lock.hear, if_pos hlocked, if_neg hne]

/-- **What the lock says of the frames so far**, given their sizes: while
it is open, the last `count + 1` of them had the same size. -/
structure Tells (l : Lock) (sizes : List ℕ) : Prop where
  pos : l.locked = true → 0 < l.size
  count_le : l.locked = false → l.count ≤ 3
  last : l.locked = false →
    (l.count = 0 ∧ l.size = 0) ∨ List.replicate (l.count + 1) l.size <:+ sizes

/-- **A frame of another size comes only where there was no match.** -/
def Steady (l : Lock) (n : ℕ) : Prop := l.locked = false → l.count = 0 ∨ n = l.size

variable {l : Lock} {sizes : List ℕ} {n : ℕ}

/-- A match makes one more frame of the same size. -/
theorem Tells.of_match (h : l.Tells sizes) (hopen : l.locked = false) (hpos : 0 < l.size) :
    List.replicate (l.count + 1 + 1) l.size <:+ sizes ++ [l.size] := by
  rcases h.last hopen with ⟨-, hzero⟩ | hlast
  · omega
  · exact replicate_suffix_concat hlast

/-- **The lock goes on telling the truth** when a frame is heard. -/
theorem Tells.hear (h : l.Tells sizes) (hpos : 0 < n) (hsteady : l.Steady n) :
    (l.hear n).Tells (sizes ++ [n]) := by
  unfold Lock.hear
  by_cases hlocked : l.locked = true
  · rw [if_pos hlocked]
    by_cases hn : n = l.size
    · rw [if_pos hn]
      exact ⟨h.pos, fun hopen => by simp [hlocked] at hopen, fun hopen => by simp [hlocked] at hopen⟩
    · rw [if_neg hn]
      -- the lock is lost, and the frame is the first of its size
      exact ⟨by simp, by simp, fun _ => .inr (replicate_one_suffix sizes n)⟩
  · rw [if_neg hlocked]
    have hopen : l.locked = false := by simpa using hlocked
    by_cases hn : n = l.size
    · subst hn
      have hlast := h.of_match hopen hpos
      simp only [if_true]
      exact ⟨fun _ => hpos, fun hle => by simpa using hle, fun _ => .inr hlast⟩
    · have hcount : l.count = 0 := (hsteady hopen).resolve_right hn
      simp only [hn, if_false, hcount]
      exact ⟨by simp, by simp, fun _ => .inr (replicate_one_suffix sizes n)⟩

/-- **It closes at the fifth frame of a size.** -/
theorem Tells.close (h : l.Tells sizes) (hpos : 0 < n) (hsteady : l.Steady n)
    (hopen : l.locked = false) (hclose : (l.hear n).locked = true) :
    List.replicate 5 n <:+ sizes ++ [n] ∧ (l.hear n).size = n := by
  have hle := h.count_le hopen
  unfold Lock.hear at hclose ⊢
  simp only [hopen, Bool.false_eq_true, if_false, decide_eq_true_eq] at hclose ⊢
  by_cases hn : n = l.size
  · subst hn
    rw [if_pos rfl] at hclose
    have hcount : l.count + 1 + 1 = 5 := by omega
    have hlast := h.of_match hopen hpos
    rw [hcount] at hlast
    exact ⟨hlast, trivial⟩
  · -- no match, and so no more than there were
    rw [if_neg hn] at hclose
    omega

end Lock

/-! ## The frames of a port -/

/-- What is received up to a break, which is something. -/
structure Burst where
  chunks : List Inline
  brk : Break
  pos : 0 < (chunks.flatMap Inline.octets).length

namespace Burst

/-- The size of the frame: all octets that were received. -/
def size (f : Burst) : ℕ := (f.chunks.flatMap Inline.octets).length

/-- The events of a frame and of the break behind it. -/
def events (f : Burst) : List Event :=
  f.chunks.map .dataInline ++ [.linestatus 0xFF f.brk.value]

theorem size_pos (f : Burst) : 0 < f.size := f.pos

end Burst

namespace Port

def burst (p : Port) (f : Burst) : Port := (f.chunks.foldl dataInline p).linestatus f.brk.value

/-- The handler makes of the events of a frame what `burst` says. -/
theorem foldlM_events (p : Port) (f : Burst) :
    f.events.foldlM rxfifoHandler p = some (p.burst f) := by
  rw [Burst.events, List.foldlM_append, foldlM_dataInline]
  rfl

/-- **The port takes the frame as one**: there is space for it, and a
locked port does not have the octets it waits for before it is over. -/
def Whole (p : Port) (f : Burst) : Prop :=
  f.size ≤ 511 ∧ (p.dmxLocked = true → ∀ pre, pre <+: f.chunks →
    (pre.flatMap Inline.octets).length = p.dmxLockSize → f.size = p.dmxLockSize)

/-- A piece on the lock: nothing. -/
theorem dataInline_lock (p : Port) (chunk : Inline) : (p.dataInline chunk).lock = p.lock := by
  unfold dataInline
  by_cases hlock : p.dmxLocked = true
  · rw [if_pos hlock]
    dsimp only
    split
    · split <;> rfl
    · rfl
  · rw [if_neg hlock]
    dsimp only
    split
    · split <;> rfl
    · rfl

theorem foldl_dataInline_lock (p : Port) (chunks : List Inline) :
    (chunks.foldl dataInline p).lock = p.lock := by
  induction chunks generalizing p with
  | nil => rfl
  | cons chunk chunks ih => exact (ih (p.dataInline chunk)).trans (p.dataInline_lock chunk)

/-- The size after a piece, on a locked port: it starts again at the
size it waits for. -/
theorem dataInline_dmxsize (hlock : p.dmxLocked = true) (chunk : Inline)
    (hfits : p.dmxsize + chunk.octets.length ≤ 511) :
    (p.dataInline chunk).dmxsize =
      if p.dmxsize + chunk.octets.length = p.dmxLockSize then 0
      else p.dmxsize + chunk.octets.length := by
  have hspec := dataInline_locked hlock (show chunk.octets.length < 512 - p.dmxsize by omega)
  split at hspec
  case isTrue hend => rw [if_pos hend, hspec.2.1]
  case isFalse hend =>
    rw [if_neg hend, ← length_content, hspec.2.1, List.length_append, length_content]

/-- The pieces of a frame that a locked port takes as one. -/
theorem foldl_dataInline_locked (hlock : p.dmxLocked = true) (hpos : 0 < p.dmxLockSize)
    (hne : p.dmxsize ≠ p.dmxLockSize) (chunks : List Inline)
    (hfits : p.dmxsize + (chunks.flatMap Inline.octets).length ≤ 511)
    (hwhole : ∀ pre, pre <+: chunks →
      p.dmxsize + (pre.flatMap Inline.octets).length = p.dmxLockSize →
        p.dmxsize + (chunks.flatMap Inline.octets).length = p.dmxLockSize) :
    (chunks.foldl dataInline p).dmxsize =
      if p.dmxsize + (chunks.flatMap Inline.octets).length = p.dmxLockSize then 0
      else p.dmxsize + (chunks.flatMap Inline.octets).length := by
  induction chunks generalizing p with
  | nil => simp [hne]
  | cons chunk chunks ih =>
    simp only [List.flatMap_cons, List.length_append] at hfits hwhole ⊢
    have hsize := dataInline_dmxsize hlock chunk (by omega)
    have hlock' := p.dataInline_lock chunk
    simp only [lock, Lock.mk.injEq] at hlock'
    obtain ⟨hlocked, -, hlockSize⟩ := hlock'
    rw [List.foldl_cons]
    by_cases hend : p.dmxsize + chunk.octets.length = p.dmxLockSize
    · -- the frame ends here, and what follows is empty
      rw [if_pos hend] at hsize
      have hwhole' := hwhole [chunk] (by simp) (by simpa using hend)
      have hempty : (chunks.flatMap Inline.octets).length = 0 := by omega
      rw [ih (by rw [hlocked, hlock]) (by omega) (by omega) (by omega) ?_, hsize, hlockSize,
        hempty, if_neg (by omega), if_pos (by omega)]
      rintro pre ⟨rest, rfl⟩ htotal
      rw [List.flatMap_append, List.length_append] at hempty
      omega
    · rw [if_neg hend] at hsize
      rw [ih (by rw [hlocked, hlock]) (by omega) (by omega) (by omega) ?_, hsize, hlockSize,
        Nat.add_assoc]
      intro pre hpre htotal
      have hwhole' := hwhole (chunk :: pre) (List.cons_prefix_cons.2 ⟨rfl, hpre⟩)
      simp only [List.flatMap_cons, List.length_append] at hwhole'
      omega

/-- What a break does to the lock of a port that holds something. -/
theorem linestatus_lock (p : Port) (brk : Break) :
    (p.linestatus brk.value).lock =
      if 0 < p.dmxsize then p.updateLock.lock else p.lock := by
  unfold linestatus
  rw [if_pos brk.isBreak]
  by_cases hpos : 0 < p.dmxsize
  · rw [if_pos hpos, if_pos hpos]
    rfl
  · rw [if_neg hpos, if_neg hpos]
    rfl

/-- **A break is heard as a frame of what the port holds.** -/
theorem updateLock_lock (p : Port) : p.updateLock.lock = p.lock.hear p.dmxsize := by
  unfold updateLock Lock.hear
  by_cases hlock : p.dmxLocked = true
  · simp only [lock, hlock, if_true]
    by_cases hsize : p.dmxLockSize = p.dmxsize
    · simp [hsize, hlock]
    · simp [hsize, Ne.symm hsize]
  · have hopen : p.dmxLocked = false := by simpa using hlock
    simp only [lock, hopen, Bool.false_eq_true, if_false]
    by_cases hsize : p.dmxLockSize = p.dmxsize
    · simp only [hsize, if_true]
      split
      case isTrue h => simp [show 3 < p.dmxLockCount + 1 from h]
      case isFalse h => simp [show ¬ 3 < p.dmxLockCount + 1 from h]
    · simp only [hsize, Ne.symm hsize, if_false]
      split
      case isTrue h => simp [show 3 < p.dmxLockCount from h]
      case isFalse h => simp [show ¬ 3 < p.dmxLockCount from h, hopen]

/-- **A frame that is taken as one is heard with its size.** -/
theorem burst_lock (hsize : p.dmxsize = 0) (hpos : p.dmxLocked = true → 0 < p.dmxLockSize)
    {f : Burst} (hwhole : p.Whole f) : (p.burst f).lock = p.lock.hear f.size := by
  have hf := f.size_pos
  rw [burst, linestatus_lock, updateLock_lock, foldl_dataInline_lock]
  by_cases hlock : p.dmxLocked = true
  · have hend := foldl_dataInline_locked hlock (hpos hlock) (by have := hpos hlock; omega) f.chunks
      (by rw [hsize, Nat.zero_add]; exact hwhole.1)
      (by simp only [hsize, Nat.zero_add]; exact hwhole.2 hlock)
    rw [hsize, Nat.zero_add, ← Burst.size] at hend
    by_cases heq : f.size = p.dmxLockSize
    · rw [if_pos heq] at hend
      have hlocked : p.lock.locked = true := hlock
      have hsame : f.size = p.lock.size := heq
      rw [hend, if_neg (by omega), Lock.hear, if_pos hlocked, if_pos hsame]
    · rw [if_neg heq] at hend
      rw [hend, if_pos hf]
  · have hopen : p.dmxLocked = false := by simpa using hlock
    obtain ⟨-, -, -, hall⟩ := foldl_dataInline hopen (by omega) f.chunks
    have hend := congrArg List.length (hall (by rw [hsize, Nat.zero_add]; exact hwhole.1))
    rw [List.length_append, length_content, length_content, hsize, Nat.zero_add,
      ← Burst.size] at hend
    rw [hend, if_pos hf]

end Port

/-! ## Runs -/

/-- A port, and the sizes of the frames it has received. -/
structure Heard where
  port : Port
  sizes : List ℕ

namespace Heard

def step (h : Heard) (f : Burst) : Heard := ⟨h.port.burst f, h.sizes ++ [f.size]⟩

/-- **A port that locks has received five frames of one size in a row**,
and locks to that size. -/
def Acquires (h : Heard) (f : Burst) : Prop :=
  h.port.dmxLocked = false → (h.step f).port.dmxLocked = true →
    ∃ n, List.replicate 5 n <:+ (h.step f).sizes ∧ (h.step f).port.dmxLockSize = n

/-- **The frame is taken as one**, and has another size than the one
before only where there was no match. It is sufficient only: a run in which
a size changes after a match and the port does not lock afterwards is left
out as well, and one with a frame that is not taken as one, also if each lock
in it is right. -/
def Regular (h : Heard) (f : Burst) : Prop := h.port.Whole f ∧ h.port.lock.Steady f.size

/-- Where a port starts to look for a lock: when it is initialised, and
when it loses the lock, at a frame that it takes as one. -/
inductive Start : Heard → Prop
  | init (garbage : Mem) : Start ⟨Port.init garbage, []⟩
  | lost (p : Port) (f : Burst) (hlock : p.dmxLocked = true) (hpos : 0 < p.dmxLockSize)
      (hsize : p.dmxsize = 0) (hwhole : p.Whole f) (hlost : (p.burst f).dmxLocked = false) :
      Start ⟨p.burst f, [f.size]⟩

/-- The invariant between frames. -/
structure Inv (h : Heard) : Prop where
  dmxsize : h.port.dmxsize = 0
  tells : h.port.lock.Tells h.sizes

variable {h : Heard} {f : Burst}

theorem Regular.of_open (hopen : h.port.dmxLocked = false) (hle : f.size ≤ 511)
    (hsteady : h.port.dmxLockCount = 0 ∨ f.size = h.port.dmxLockSize) : h.Regular f :=
  ⟨⟨hle, fun hlock => absurd hlock (by simp [hopen])⟩, fun _ => hsteady⟩

theorem Inv.step (hinv : h.Inv) (hf : h.Regular f) : (h.step f).Inv := by
  refine ⟨Port.linestatus_dmxsize _ f.brk, ?_⟩
  have hlock := Port.burst_lock hinv.dmxsize hinv.tells.pos hf.1
  rw [Heard.step, hlock]
  exact hinv.tells.hear f.size_pos hf.2

theorem Inv.acquires (hinv : h.Inv) (hf : h.Regular f) : h.Acquires f := by
  have hlock := Port.burst_lock hinv.dmxsize hinv.tells.pos hf.1
  intro hopen hclose
  have hlocked : (h.port.lock.hear f.size).locked = true := by
    rw [← hlock]
    exact hclose
  obtain ⟨hlast, hsize⟩ := hinv.tells.close f.size_pos hf.2 hopen hlocked
  refine ⟨f.size, hlast, ?_⟩
  rw [← hlock] at hsize
  exact hsize

theorem Start.inv (hstart : Start h) : h.Inv := by
  cases hstart with
  | init garbage => exact ⟨rfl, ⟨by simp [Port.lock, Port.init], by simp [Port.lock, Port.init],
      fun _ => .inl ⟨rfl, rfl⟩⟩⟩
  | lost p f hlock hpos hsize hwhole hlost =>
    refine ⟨Port.linestatus_dmxsize _ f.brk, ?_⟩
    rw [Port.burst_lock hsize (fun _ => hpos) hwhole]
    -- the frame that loses the lock is the first that is counted
    have htells : p.lock.Tells [] := ⟨fun _ => hpos, by simp [Port.lock, hlock],
      by simp [Port.lock, hlock]⟩
    exact htells.hear f.size_pos fun hopen => absurd hopen (by simp [Port.lock, hlock])

end Heard

/-- **When a lock is right**: from its initialisation or a loss of the
lock on, a port that gets regular frames locks only when the last five
had the same size, and to that size. -/
theorem lock_of_five {h : Heard} (hstart : h.Start) {frames : List Burst}
    (hregular : EachStep Heard.step Heard.Regular h frames) :
    EachStep Heard.step Heard.Acquires h frames :=
  eachStep_of_always (fun _ _ hinv hf => hinv.acquires hf)
    (always_of_eachStep (fun _ _ hf hinv => Heard.Inv.step hinv hf) hregular hstart.inv) hregular

theorem breakInterrupt_ne : Port.breakInterrupt &&& Port.breakInterrupt ≠ 0 := by decide

/-- A frame of so many zeros, in one piece. -/
def zerosBurst (n : ℕ) (hpos : 0 < n) (hle : n ≤ 14) : Burst where
  chunks := [⟨List.replicate n 0, by simpa using hle⟩]
  brk := ⟨Port.breakInterrupt, breakInterrupt_ne⟩
  pos := by simpa using hpos

/-- A frame of one octet. -/
def oneZero : Burst := zerosBurst 1 (by decide) (by decide)

/-- A frame of a start code and two slots, in two pieces. -/
def twoSlots : Burst where
  chunks := [⟨[0, 0x55], by simp⟩, ⟨[0xAA], by simp⟩]
  brk := ⟨Port.breakInterrupt, breakInterrupt_ne⟩
  pos := by simp

/-- A frame of one octet, and five of three. -/
theorem lock_of_five_slots :
    EachStep Heard.step Heard.Acquires ⟨Port.init fun _ => 0, []⟩
      (oneZero :: List.replicate 5 twoSlots) := by
  refine lock_of_five (.init _) ?_
  -- the first two are those that are no match
  refine eachStep_cons.2 ⟨.of_open rfl (by decide) (.inl rfl), ?_⟩
  refine eachStep_cons.2 ⟨.of_open rfl (by decide) (.inl rfl), ?_⟩
  refine eachStep_cons.2 ⟨.of_open rfl (by decide) (.inr rfl), ?_⟩
  refine eachStep_cons.2 ⟨.of_open rfl (by decide) (.inr rfl), ?_⟩
  refine eachStep_cons.2 ⟨.of_open rfl (by decide) (.inr rfl), ?_⟩
  exact eachStep_cons.2 ⟨.of_open rfl (by decide) (.inr rfl), eachStep_nil⟩

/-- Frames of 1, 1, 2, 2, 3, 3, 4 and 4 octets. -/
def addedUp : List Burst :=
  [oneZero, oneZero, zerosBurst 2 (by decide) (by decide), zerosBurst 2 (by decide) (by decide),
    zerosBurst 3 (by decide) (by decide), zerosBurst 3 (by decide) (by decide),
    zerosBurst 4 (by decide) (by decide), zerosBurst 4 (by decide) (by decide)]

/-- **Matches add up**: there are no more than two frames of one size in a
row, and the port locks. -/
theorem lock_of_added_up :
    ¬ EachStep Heard.step Heard.Acquires ⟨Port.init fun _ => 0, []⟩ addedUp := by
  intro h
  obtain ⟨n, hlast, -⟩ := h (addedUp.take 7) (zerosBurst 4 (by decide) (by decide))
    (List.prefix_refl _) (by decide +kernel) (by decide +kernel)
  have hsizes : (Heard.step (run Heard.step ⟨Port.init fun _ => 0, []⟩ (addedUp.take 7))
      (zerosBurst 4 (by decide) (by decide))).sizes = [1, 1, 2, 2, 3, 3, 4, 4] := by
    decide +kernel
  rw [hsizes, List.suffix_iff_eq_drop] at hlast
  simp [List.replicate] at hlast
  omega

end Suart

end Dmx4Linux2
