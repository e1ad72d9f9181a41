import Dmx4Linux2.Common.Streak
import Dmx4Linux2.Llgip.Receiver

/-!
# llgip — the learned frame size

A port that is locked has seen at least 21 frames of the size it is locked
to, one behind the other. The sizes are learned at the break behind a
frame, as long as the port is not locked. A locked port delivers a frame
before that break, so the break finds nothing to learn, and what is behind
the frame is left to the next octet: the lock is lost there if there is
one. The octets since the last break and the sizes of the frames so far are
kept beside the port (`Watch`).
-/

namespace Dmx4Linux2

namespace Llgip

variable {sizes : List ℕ} {n x portno : ℕ}

/-! ## What has been learned -/

/-- **What the lock says of the sizes of the frames so far.** -/
structure Learned.Tells (l : Learned) (sizes : List ℕ) : Prop where
  enabled : l.enabled = true
  treshold : l.repetionCountTreshold = 20
  locked : l.locked = true → l.lastsize = l.learnedsize ∧ l.learnedsize ≤ 513 ∧
    List.replicate 21 l.learnedsize <:+ sizes
  count : l.locked = false → l.repetionCount ≤ 20 ∧
    List.replicate l.repetionCount l.lastsize <:+ sizes

namespace Learned

variable {l : Learned}

/-- A lock that was lost says nothing. -/
theorem Tells.lost (h : l.Tells sizes) (sizes' : List ℕ) :
    Tells ⟨l.enabled, false, 512, 512, 0, l.repetionCountTreshold⟩ sizes' where
  enabled := h.enabled
  treshold := h.treshold
  locked := by simp
  count _ := ⟨Nat.zero_le 20, List.nil_suffix⟩

theorem Tells.overrun (h : l.Tells sizes) : l.overrun.Tells sizes := by
  unfold Learned.overrun
  split
  · exact h.lost sizes
  · exact h

/-- **A frame behind which there is a break.** -/
theorem Tells.update (h : l.Tells sizes) (hn : n ≤ 513) : (l.update n).Tells (sizes ++ [n]) := by
  unfold Learned.update
  cases hlocked : l.locked with
  | true =>
    obtain ⟨hlast, hle, hstreak⟩ := h.locked hlocked
    simp only [Bool.not_true, Bool.false_eq_true, if_false]
    split
    · exact h.lost _
    · next hsame =>
      have hsame : n = l.learnedsize := by omega
      refine ⟨h.enabled, h.treshold, fun _ => ⟨hlast, hle, ?_⟩, fun hopen => ?_⟩
      · exact hsame ▸ replicate_suffix_again (hsame ▸ hstreak)
      · exact absurd (hlocked.symm.trans hopen) (by decide)
  | false =>
    obtain ⟨hcount, hstreak⟩ := h.count hlocked
    simp only [Bool.not_false, if_true, h.enabled, h.treshold]
    by_cases hsame : n = l.lastsize
    · subst hsame
      have hmore := replicate_suffix_concat hstreak
      rw [if_pos rfl]
      split
      · next hgt =>
        have hcount' : l.repetionCount + 1 = 21 := by omega
        refine ⟨rfl, rfl, fun _ => ⟨rfl, hn, hcount' ▸ hmore⟩, fun hopen => ?_⟩
        exact absurd hopen (by simp)
      · next hle =>
        refine ⟨rfl, rfl, fun hlock => ?_, fun _ => ⟨by simpa using hle, hmore⟩⟩
        exact absurd hlock (by simp)
    · rw [if_neg hsame, if_neg (by omega)]
      refine ⟨rfl, rfl, fun hlock => ?_, fun _ => ⟨Nat.zero_le 20, List.nil_suffix⟩⟩
      exact absurd hlock (by simp)

/-- A frame that a locked port delivers by itself, -/
theorem Tells.again (h : l.Tells sizes) (hlocked : l.locked = true) :
    l.Tells (sizes ++ [l.learnedsize]) := by
  obtain ⟨hlast, hle, hstreak⟩ := h.locked hlocked
  refine ⟨h.enabled, h.treshold, fun _ => ⟨hlast, hle, replicate_suffix_again hstreak⟩,
    fun hopen => ?_⟩
  exact absurd (hlocked.symm.trans hopen) (by decide)

/-- and one that cost it the lock. -/
theorem Tells.forgotten (h : l.Tells sizes) (hopen : l.locked = false)
    (hcount : l.repetionCount = 0) (sizes' : List ℕ) : l.Tells sizes' where
  enabled := h.enabled
  treshold := h.treshold
  locked hlocked := absurd (hlocked.symm.trans hopen) (by decide)
  count _ := by
    rw [hcount]
    exact ⟨Nat.zero_le 20, List.nil_suffix⟩

/-- **Another size costs the lock.** -/
theorem Tells.update_unlocked (h : l.Tells sizes) (hlocked : l.locked = true)
    (hne : n ≠ l.learnedsize) : (l.update n).locked = false := by
  have hlast : n ≠ l.lastsize := by
    rw [(h.locked hlocked).1]
    exact hne
  simp [Learned.update, hlocked, hlast]

end Learned

/-! ## The port in a segment -/

/-- A port with the octets since the last break, if there was one, and the
sizes of the frames between breaks so far. Of a frame at most 513 octets
are counted. -/
structure Watch where
  port : Port
  segment : Option (List UInt8)
  sizes : List ℕ

namespace Watch

def init : Watch := ⟨Port.init true, none, []⟩

/-- The size of a frame that ends, if it has the start code 0. -/
def closed : Option (List UInt8) → List ℕ
  | some ds => if ds.head? = some 0 then [min 513 ds.length] else []
  | none => []

/-- A word is taken out of the FIFO. -/
def step (portno : ℕ) (w : Watch) (x : ℕ) : Watch where
  port := w.port.checkRxWord portno x
  segment :=
    if rxfifoBreak x then some [] else w.segment.map fun ds => ds ++ [rxfifoData x]
  sizes := if rxfifoBreak x then w.sizes ++ closed w.segment else w.sizes

/-- Where the port is in the segment. -/
inductive At (p : Port) : Option (List UInt8) → Prop
  /-- There was no break yet. -/
  | before (hstate : p.state = 0) (hsize : p.frame.payloadSize = 0) : At p none
  | start (hstate : p.state = 1) (hsize : p.frame.payloadSize = 0) : At p (some [])
  /-- The octets are collected. A lock on a size from 2 on is not reached
  yet. -/
  | collect {ds : List UInt8} (hhead : ds.head? = some 0) (hstate : p.state = 2)
      (hoctets : p.frame.octets = ds.take 513)
      (hshort : p.learned.locked = true → 2 ≤ p.learned.learnedsize →
        ds.length < p.learned.learnedsize) : At p (some ds)
  /-- No more octets are wanted: with the lock there came as many as it
  says, and without it the frame has cost the lock. -/
  | done {ds : List UInt8} (hne : ds ≠ []) (hstate : p.state = 0) (hsize : p.frame.payloadSize = 0)
      (hlocked : ds.head? = some 0 → p.learned.locked = true →
        ds.length = p.learned.learnedsize)
      (hlost : ds.head? = some 0 → p.learned.locked = false → p.learned.repetionCount = 0) :
      At p (some ds)

/-- **What holds behind every word.** -/
structure Knows (w : Watch) : Prop where
  sizes : w.port.learned.Tells w.sizes
  delivered : w.port.learned.Tells (w.port.delivered.map Frame.payloadSize)
  at_segment : At w.port w.segment

theorem knows_init : Knows init := by
  have htells : (Port.init true).learned.Tells [] :=
    ⟨rfl, rfl, by simp [Port.init], fun _ => ⟨Nat.zero_le 20, List.nil_suffix⟩⟩
  exact ⟨htells, htells, .before rfl rfl⟩

variable {w : Watch} {p : Port} {ds : List UInt8}

/-! ## Words -/

/-- What a port that collects holds. -/
theorem collected_size (hhead : ds.head? = some 0) (hoctets : p.frame.octets = ds.take 513) :
    p.frame.payloadSize = min 513 ds.length ∧ 0 < p.frame.payloadSize ∧
      p.frame.startcode = 0 := by
  have hpos : 0 < ds.length := List.length_pos_iff.2 (Port.ne_nil_of_head? hhead)
  have hsize : p.frame.payloadSize = min 513 ds.length := by
    rw [← Port.length_octets, hoctets, List.length_take]
  refine ⟨hsize, by omega, ?_⟩
  -- the start code is the first of the octets
  have hfirst : p.frame.octets.head? = some p.frame.startcode := by
    rw [Frame.octets, hsize, show min 513 ds.length = min 513 ds.length - 1 + 1 by omega,
      Mem.read_succ]
    rfl
  rw [hoctets, List.head?_take, if_neg (by decide), hhead] at hfirst
  exact (Option.some.inj hfirst).symm

/-- A break where nothing is held: there is nothing to learn or to
deliver. -/
theorem Knows.rxBreak_of_empty (h : Knows w) (hsize : w.port.frame.payloadSize = 0) {sizes : List ℕ}
    (htells : w.port.learned.Tells sizes) (portno x : ℕ) :
    Knows ⟨w.port.rxBreak portno x, some [], sizes⟩ := by
  obtain ⟨hstate, hempty, -, -, hlearned, hdelivered⟩ := Port.rxBreak_spec w.port portno x
  rw [if_neg (by omega)] at hlearned hdelivered
  rw [List.append_nil] at hdelivered
  refine ⟨?_, ?_, .start hstate hempty⟩
  · rw [hlearned]
    exact htells
  · rw [hlearned, hdelivered]
    exact h.delivered

/-- **A break.** -/
theorem Knows.rxBreak (h : Knows w) (portno x : ℕ) :
    Knows ⟨w.port.rxBreak portno x, some [], w.sizes ++ closed w.segment⟩ := by
  obtain ⟨p, segment, sizes⟩ := w
  cases h.at_segment with
  | before hstate hsize =>
    refine h.rxBreak_of_empty hsize ?_ portno x
    rw [closed, List.append_nil]
    exact h.sizes
  | start hstate hsize =>
    refine h.rxBreak_of_empty hsize ?_ portno x
    rw [closed, List.head?_nil, if_neg (by simp), List.append_nil]
    exact h.sizes
  | @collect ds hhead hstate hoctets hshort =>
    obtain ⟨hsize, hpos, hstart⟩ := collected_size (p := p) hhead hoctets
    obtain ⟨hstate', hempty, -, -, hlearned, hdelivered⟩ := Port.rxBreak_spec p portno x
    have hle : p.frame.payloadSize ≤ 513 := by omega
    rw [if_pos ⟨hpos, hstart⟩] at hlearned
    rw [if_pos hpos] at hdelivered
    refine ⟨?_, ?_, .start hstate' hempty⟩
    · rw [closed, if_pos hhead, ← hsize, hlearned]
      exact h.sizes.update hle
    · rw [hlearned, hdelivered, List.map_append]
      exact h.delivered.update hle
  | @done ds hne hstate hsize hlocked hlost =>
    refine h.rxBreak_of_empty hsize ?_ portno x
    rw [closed]
    split
    · next hhead =>
      cases hlock : p.learned.locked with
      | true =>
        have hlen := hlocked hhead hlock
        have hle := (h.sizes.locked hlock).2.1
        rw [hlen, Nat.min_eq_right hle]
        exact h.sizes.again hlock
      | false => exact h.sizes.forgotten hlock (hlost hhead hlock) _
    · rw [List.append_nil]
      exact h.sizes

/-- An octet behind a frame, or in front of the first break. -/
theorem Knows.rxData_idle (h : Knows w) (hstate : w.port.state = 0) (x : ℕ)
    {segment : Option (List UInt8)}
    (hat : At { w.port with learned := w.port.learned.overrun } segment) :
    Knows ⟨w.port.rxData x, segment, w.sizes⟩ := by
  rw [Port.rxData_idle hstate]
  exact ⟨h.sizes.overrun, h.delivered.overrun, hat⟩

theorem overrun_count {l : Learned} (h : l.locked = true ∨ l.repetionCount = 0) :
    l.overrun.repetionCount = 0 := by
  unfold Learned.overrun
  split
  · rfl
  · next hopen => exact h.resolve_left hopen

/-- The octet behind a break. -/
theorem Knows.rxData_start (h : Knows w) (hstate : w.port.state = 1)
    (hsize : w.port.frame.payloadSize = 0) (x : ℕ) :
    Knows ⟨w.port.rxData x, some [rxfifoData x], w.sizes⟩ := by
  unfold Port.rxData
  rw [hstate]
  simp only
  split
  · next hzero =>
    refine ⟨h.sizes, h.delivered, .collect (by rw [hzero]; rfl) rfl ?_ fun _ htwo => htwo⟩
    have hoctets := Port.octets_store w.port (rxfifoData x)
    have hnil : w.port.frame.octets = [] := by
      rw [Frame.octets, hsize, Mem.read_zero]
    rw [hsize, hnil] at hoctets
    exact hoctets
  · next hzero =>
    have hhead : [rxfifoData x].head? ≠ some 0 := fun heq => hzero (Option.some.inj heq)
    exact ⟨h.sizes, h.delivered, .done (by simp) rfl hsize (fun heq => absurd heq hhead)
      fun heq => absurd heq hhead⟩

/-- An octet of a frame that is being collected. -/
theorem Knows.rxData_collect (h : Knows w) (hhead : ds.head? = some 0) (hstate : w.port.state = 2)
    (hoctets : w.port.frame.octets = ds.take 513)
    (hshort : w.port.learned.locked = true → 2 ≤ w.port.learned.learnedsize →
      ds.length < w.port.learned.learnedsize) (x : ℕ) :
    Knows ⟨w.port.rxData x, some (ds ++ [rxfifoData x]), w.sizes⟩ := by
  obtain ⟨hsize, hpos, -⟩ := collected_size hhead hoctets
  have hne := Port.ne_nil_of_head? hhead
  have hlen : (ds ++ [rxfifoData x]).length = ds.length + 1 := by simp
  have hhead' : (ds ++ [rxfifoData x]).head? = some 0 := (Port.head?_concat hne _).trans hhead
  unfold Port.rxData
  rw [hstate]
  simp only
  by_cases hlt : w.port.frame.payloadSize < 513
  · have hstore := Port.octets_store w.port (rxfifoData x)
    rw [hoctets, List.take_of_length_le (by omega)] at hstore
    rw [if_pos hlt]
    split
    · next hfull =>
      obtain ⟨hlocked, hfull⟩ := hfull
      have hfull : w.port.frame.payloadSize + 1 = w.port.learned.learnedsize := hfull
      refine ⟨h.sizes, ?_, .done (by simp) rfl rfl (fun _ _ => ?_) fun _ hopen => ?_⟩
      · have hagain := h.delivered.again hlocked
        rw [← hfull] at hagain
        simpa [Port.handOver, Port.store] using hagain
      · rw [hlen]
        change ds.length + 1 = w.port.learned.learnedsize
        omega
      · exact absurd (hlocked.symm.trans hopen) (by decide)
    · next hnot =>
      refine ⟨h.sizes, h.delivered, .collect hhead' hstate ?_ fun hlocked htwo => ?_⟩
      · rw [List.take_of_length_le (by omega)]
        exact hstore
      · have hless := hshort hlocked htwo
        have hnot : w.port.frame.payloadSize + 1 ≠ w.port.learned.learnedsize :=
          fun heq => hnot ⟨hlocked, heq⟩
        rw [hlen]
        change ds.length + 1 < w.port.learned.learnedsize
        omega
  · rw [if_neg hlt]
    refine ⟨h.sizes, h.delivered, .collect hhead' hstate ?_ fun hlocked htwo => ?_⟩
    · rw [hoctets, List.take_append_of_le_length (by omega)]
    · have hle := (h.sizes.locked hlocked).2.1
      have hless := hshort hlocked htwo
      omega

/-- **An octet.** -/
theorem Knows.rxData (h : Knows w) (x : ℕ) :
    Knows ⟨w.port.rxData x, w.segment.map fun ds => ds ++ [rxfifoData x], w.sizes⟩ := by
  obtain ⟨p, segment, sizes⟩ := w
  cases h.at_segment with
  | before hstate hsize => exact h.rxData_idle hstate x (.before hstate hsize)
  | start hstate hsize => exact h.rxData_start hstate hsize x
  | collect hhead hstate hoctets hshort => exact h.rxData_collect hhead hstate hoctets hshort x
  | @done ds hne hstate hsize hlocked hlost =>
    refine h.rxData_idle hstate x (.done (by simp) hstate hsize (fun _ hlock => ?_)
      fun hhead _ => ?_)
    · exact absurd (hlock.symm.trans p.learned.overrun_locked) (by decide)
    · rw [Port.head?_concat hne] at hhead
      refine overrun_count ?_
      cases hlock : p.learned.locked with
      | true => exact .inl rfl
      | false => exact .inr (hlost hhead hlock)

theorem Knows.step (h : Knows w) (portno x : ℕ) : Knows (w.step portno x) := by
  rw [Watch.step, Port.checkRxWord]
  cases hbreak : rxfifoBreak x with
  | true => exact h.rxBreak portno x
  | false => exact h.rxData x

/-! ## Losing the lock -/

/-- **A frame that is too short** costs the lock at the break behind it. -/
theorem Knows.lost_at_break (h : Knows w) (hseg : w.segment = some ds) (hhead : ds.head? = some 0)
    (hlocked : w.port.learned.locked = true) (hlt : ds.length < w.port.learned.learnedsize)
    (portno x : ℕ) : (w.port.rxBreak portno x).learned.locked = false := by
  obtain ⟨p, segment, sizes⟩ := w
  have hle := (h.sizes.locked hlocked).2.1
  have hat : At p (some ds) := hseg ▸ h.at_segment
  cases hat with
  | start hstate hsize => simp at hhead
  | collect _ hstate hoctets hshort =>
    obtain ⟨hsize, hpos, hstart⟩ := collected_size (p := p) hhead hoctets
    obtain ⟨-, -, -, -, hlearned, -⟩ := Port.rxBreak_spec p portno x
    have hne : p.frame.payloadSize ≠ p.learned.learnedsize := by
      change ds.length < p.learned.learnedsize at hlt
      omega
    rw [hlearned, if_pos ⟨hpos, hstart⟩]
    exact h.sizes.update_unlocked hlocked hne
  | done hne hstate hsize hlen hlost =>
    have hlen := hlen hhead hlocked
    change ds.length < p.learned.learnedsize at hlt
    omega

/-- **A frame that is too long** costs it at the first octet too many. -/
theorem Knows.lost_at_surplus (h : Knows w) (hseg : w.segment = some ds)
    (hhead : ds.head? = some 0) (hlocked : w.port.learned.locked = true)
    (htwo : 2 ≤ w.port.learned.learnedsize) (hle : w.port.learned.learnedsize ≤ ds.length) (x : ℕ) :
    (w.port.rxData x).learned.locked = false := by
  obtain ⟨p, segment, sizes⟩ := w
  have hat : At p (some ds) := hseg ▸ h.at_segment
  cases hat with
  | start hstate hsize => simp at hhead
  | collect _ hstate hoctets hshort =>
    have hless := hshort hlocked htwo
    change p.learned.learnedsize ≤ ds.length at hle
    omega
  | done hne hstate hsize hlen hlost =>
    rw [Port.rxData_idle hstate]
    exact p.learned.overrun_locked

/-! ## Streams of words -/

theorem run_port (portno : ℕ) (w : Watch) (words : List ℕ) :
    (run (step portno) w words).port =
      run (fun p x => p.checkRxWord portno x) w.port words := by
  induction words generalizing w with
  | nil => rfl
  | cons x xs ih => exact ih (w.step portno x)

/-- **The learned frame size.** Behind every stream of words a port that is
locked has seen 21 frames of that size, on the line and as it delivered
them. A frame that is too short costs the lock at the break behind it, and
one that is too long at the first octet too many. -/
theorem learned_framesize (portno : ℕ) (calls : List (List ℕ)) {w : Watch}
    (hw : run (step portno) init (consumed calls) = w) :
    w.port = calls.foldl (Port.checkRxPort portno) (Port.init true) ∧
      (w.port.learned.locked = true →
        w.port.learned.learnedsize = w.port.learned.lastsize ∧
        List.replicate 21 w.port.learned.learnedsize <:+ w.sizes ∧
        List.replicate 21 w.port.learned.learnedsize <:+
          w.port.delivered.map Frame.payloadSize) ∧
      ∀ ds, w.segment = some ds → ds.head? = some 0 → w.port.learned.locked = true →
        (∀ x, rxfifoBreak x = true → ds.length < w.port.learned.learnedsize →
          (w.port.checkRxWord portno x).learned.locked = false) ∧
        ∀ x, rxfifoBreak x = false → 2 ≤ w.port.learned.learnedsize →
          w.port.learned.learnedsize ≤ ds.length →
          (w.port.checkRxWord portno x).learned.locked = false := by
  have hknows : Knows w := by
    rw [← hw]
    have hall : Always (step portno) Knows init (consumed calls) :=
      always_of_step (fun w x h => h.step portno x) knows_init
    exact hall.last
  refine ⟨?_, fun hlocked => ?_, fun ds hseg hhead hlocked => ⟨fun x hx hlt => ?_,
    fun x hx htwo hle => ?_⟩⟩
  · rw [← hw, run_port, Port.foldl_checkRxPort]
    rfl
  · obtain ⟨hlast, -, hsizes⟩ := hknows.sizes.locked hlocked
    obtain ⟨-, -, hdelivered⟩ := hknows.delivered.locked hlocked
    exact ⟨hlast.symm, hsizes, hdelivered⟩
  · rw [Port.checkRxWord, if_pos hx]
    exact hknows.lost_at_break hseg hhead hlocked hlt portno x
  · rw [Port.checkRxWord, if_neg (by simp [hx])]
    exact hknows.lost_at_surplus hseg hhead hlocked htwo hle x

/-- 22 frames of two octets, and the break behind them. -/
def twoOctets : List (List ℕ) := List.replicate 22 [0x100, 0, 5] ++ [[0x100]]

/-- The port is locked then, to two octets. -/
theorem learned_framesize_two :
    (run (step 0) init (consumed twoOctets)).port.learned.locked = true ∧
      List.replicate 21 2 <:+ (run (step 0) init (consumed twoOctets)).sizes := by
  have hlocked : (run (step 0) init (consumed twoOctets)).port.learned.locked = true := by
    decide +kernel
  have hsize : (run (step 0) init (consumed twoOctets)).port.learned.learnedsize = 2 := by
    decide +kernel
  obtain ⟨-, hsizes, -⟩ := (learned_framesize 0 twoOctets rfl).2.1 hlocked
  rw [hsize] at hsizes
  exact ⟨hlocked, hsizes⟩

end Watch

end Llgip

end Dmx4Linux2
