import Dmx4Linux2.Common.Run
import Dmx4Linux2.Llgip.Model.Port

/-!
# llgip — the segments that are delivered

A port delivers the octets between two breaks, if there are any and the
first is 0. It does so at the second break, or earlier when it is locked
to a size and as many octets are there. What a port holds of the segment
it is in (`InSegment`) is kept by every octet and settled by the break
behind them, and from it the frames of every stream of words are read off
(`segments_delivered`).
-/

namespace Dmx4Linux2

namespace Llgip

variable {p q : Port} {ds : List UInt8} {x : ℕ}

namespace Port

/-- The octets of the frames delivered. -/
def received (p : Port) : List (List UInt8) := p.delivered.map Frame.octets

theorem octets_store (p : Port) (octet : UInt8) :
    (p.store p.frame.payloadSize octet).frame.octets = p.frame.octets ++ [octet] := by
  simp only [store, Frame.octets]
  rw [Mem.read_add, Mem.read_write_outside (by omega), Nat.zero_add, Mem.read_one]
  congr 2
  have hself : p.frame.data.write p.frame.payloadSize [octet] (p.frame.payloadSize + 0) = octet :=
    Mem.write_apply_add (by simp)
  simpa using hself

theorem length_octets (p : Port) : p.frame.octets.length = p.frame.payloadSize := Mem.length_read

theorem received_handOver (p : Port) : p.handOver.received = p.received ++ [p.frame.octets] := by
  simp [received, handOver]

/-! ## Bounds -/

/-- **A port stays in bounds.** No frame is longer than its data, and the
size that is locked to is one of a frame. -/
structure Bounded (p : Port) : Prop where
  size : p.frame.payloadSize ≤ 513
  written : ∀ i ∈ p.written, i < 513
  learned : p.learned.locked = true → p.learned.learnedsize ≤ 513

end Port

/-- The size locked to is that of the frame seen last. -/
theorem Learned.update_bound {l : Learned} {n : ℕ} (hn : n ≤ 513)
    (hl : l.locked = true → l.learnedsize ≤ 513) :
    (l.update n).locked = true → (l.update n).learnedsize ≤ 513 := by
  unfold Learned.update
  cases hlocked : l.locked with
  | true =>
    simp only [Bool.not_true, Bool.false_eq_true, if_false]
    split
    · intro h
      exact absurd h (by simp)
    · intro _
      exact hl hlocked
  | false =>
    simp only [Bool.not_false, if_true]
    split
    · by_cases hsame : n = l.lastsize
      · -- a repeated size, which is the one that may be locked to
        rw [if_pos hsame]
        split
        · intro _
          exact hsame ▸ hn
        · intro h
          exact absurd h (by simp)
      · rw [if_neg hsame, if_neg (by omega)]
        intro h
        exact absurd h (by simp)
    · intro h
      exact absurd h (by simp [hlocked])

theorem Learned.overrun_locked (l : Learned) : l.overrun.locked = false := by
  unfold Learned.overrun
  split
  · rfl
  · rename_i h
    simpa using h

namespace Port

theorem Bounded.init (enabled : Bool) : Bounded (init enabled) where
  size := Nat.zero_le _
  written := by
    intro i hi
    exact absurd hi (by simp [Port.init])
  learned := by
    intro h
    exact absurd h (by simp [Port.init])

theorem Bounded.store (h : p.Bounded) {offset : ℕ} (hoffset : offset < 513) (octet : UInt8) :
    (p.store offset octet).Bounded where
  size := by
    simp only [Port.store]
    omega
  written := by
    intro i hi
    rcases List.mem_append.1 hi with hold | hnew
    · exact h.written i hold
    · rw [List.mem_singleton.1 hnew]
      exact hoffset
  learned := h.learned

/-- **What a break does**: the size of what the port holds is learned, and
what it holds is delivered. -/
theorem rxBreak_spec (p : Port) (portno : ℕ) (x : ℕ) :
    (p.rxBreak portno x).state = 1 ∧ (p.rxBreak portno x).frame.payloadSize = 0 ∧
      (p.rxBreak portno x).frame.breaksize = rxfifoData x >>> 2 ∧
      (p.rxBreak portno x).written = p.written ∧
      (p.rxBreak portno x).learned =
        (if p.frame.payloadSize > 0 ∧ p.frame.startcode = 0 then
          p.learned.update p.frame.payloadSize else p.learned) ∧
      (p.rxBreak portno x).delivered =
        p.delivered ++ if p.frame.payloadSize > 0 then
          [{ p.frame with unused := p.frame.unused + 1 }] else [] := by
  unfold rxBreak Frame.startcode
  by_cases hpos : p.frame.payloadSize > 0
  · by_cases hstart : p.frame.data 0 = 0
    · simp [hpos, hstart, handOver]
    · simp [hpos, hstart, handOver]
  · simp [hpos]

theorem Bounded.rxBreak (h : p.Bounded) (portno : ℕ) (x : ℕ) : (p.rxBreak portno x).Bounded := by
  obtain ⟨-, hsize, -, hwritten, hlearned, -⟩ := rxBreak_spec p portno x
  refine ⟨by omega, by rw [hwritten]; exact h.written, ?_⟩
  rw [hlearned]
  split
  · exact Learned.update_bound h.size h.learned
  · exact h.learned

theorem Bounded.rxData (h : p.Bounded) (x : ℕ) : (p.rxData x).Bounded := by
  unfold Port.rxData
  split
  · refine ⟨h.size, h.written, ?_⟩
    intro hlocked
    exact absurd hlocked (by simp [Learned.overrun_locked])
  · split
    · have hstore := h.store (by decide : 0 < 513) (rxfifoData x)
      exact ⟨hstore.size, hstore.written, hstore.learned⟩
    · exact ⟨h.size, h.written, h.learned⟩
  · by_cases hlt : p.frame.payloadSize < 513
    · have hstore := h.store hlt (rxfifoData x)
      rw [if_pos hlt]
      simp only
      split
      · exact ⟨Nat.zero_le _, hstore.written, hstore.learned⟩
      · exact hstore
    · rw [if_neg hlt]
      exact h
  · exact ⟨h.size, h.written, h.learned⟩

theorem Bounded.checkRxWord (h : p.Bounded) (portno : ℕ) (x : ℕ) :
    (p.checkRxWord portno x).Bounded := by
  unfold Port.checkRxWord
  split
  · exact h.rxBreak portno x
  · exact h.rxData x

/-! ## Segments -/

/-- The port is locked to a size, and as many octets are there. The size
is seen only behind the start code. -/
def Complete (q : Port) (ds : List UInt8) : Prop :=
  q.learned.locked = true ∧ 2 ≤ q.learned.learnedsize ∧ q.learned.learnedsize ≤ ds.length

instance (q : Port) (ds : List UInt8) : Decidable (q.Complete ds) :=
  inferInstanceAs (Decidable (_ ∧ _ ∧ _))

/-- What a port `q` that has seen a break delivers of the octets behind it
when they come. -/
def early (q : Port) (ds : List UInt8) : List (List UInt8) :=
  if ds.head? = some 0 ∧ q.Complete ds then [ds.take q.learned.learnedsize] else []

/-- What it has delivered of them at the next break. -/
def whole (q : Port) (ds : List UInt8) : List (List UInt8) :=
  if ds.head? = some 0 then
    [if q.Complete ds then ds.take q.learned.learnedsize else ds.take 513]
  else []

/-- Where a port is in a segment. -/
inductive Phase (q : Port) : List UInt8 → Port → Prop
  /-- Only the break has been seen. -/
  | start {p : Port} (hstate : p.state = 1) (hsize : p.frame.payloadSize = 0)
      (hlearned : p.learned = q.learned) : Phase q [] p
  /-- The octets are collected. -/
  | collect {p : Port} {ds : List UInt8} (hhead : ds.head? = some 0) (hopen : ¬ q.Complete ds)
      (hstate : p.state = 2) (hoctets : p.frame.octets = ds.take 513)
      (hlearned : p.learned = q.learned) : Phase q ds p
  /-- No more octets are wanted: the start code was another one, or the
  frame has been delivered. -/
  | done {p : Port} {ds : List UInt8} (hne : ds ≠ []) (hhead : ds.head? = some 0 → q.Complete ds)
      (hstate : p.state = 0) (hsize : p.frame.payloadSize = 0) : Phase q ds p

/-- **What a port holds of a segment**, where `q` is the port behind the
break in front of it. -/
structure InSegment (q : Port) (ds : List UInt8) (p : Port) : Prop where
  received : p.received = q.received ++ q.early ds
  phase : Phase q ds p

theorem InSegment.start (p : Port) (portno : ℕ) (x : ℕ) :
    InSegment (p.rxBreak portno x) [] (p.rxBreak portno x) := by
  obtain ⟨hstate, hsize, -⟩ := rxBreak_spec p portno x
  refine ⟨?_, .start hstate hsize rfl⟩
  simp [early]

theorem head?_concat (hne : ds ≠ []) (b : UInt8) : (ds ++ [b]).head? = ds.head? :=
  List.head?_append_of_ne_nil ds hne

theorem ne_nil_of_head? {b : UInt8} (h : ds.head? = some b) : ds ≠ [] := by
  intro hnil
  rw [hnil] at h
  exact absurd h (by simp)

theorem Complete.concat (h : q.Complete ds) (b : UInt8) : q.Complete (ds ++ [b]) := by
  obtain ⟨hlocked, htwo, hle⟩ := h
  refine ⟨hlocked, htwo, ?_⟩
  rw [List.length_append]
  omega

/-- **One octet completes a frame** just when it is the last of a locked
one. -/
theorem complete_concat_iff (hopen : ¬ q.Complete ds) (hne : ds ≠ []) (b : UInt8) :
    q.Complete (ds ++ [b]) ↔ q.learned.locked = true ∧ ds.length + 1 = q.learned.learnedsize := by
  have hpos : 0 < ds.length := List.length_pos_iff.2 hne
  unfold Complete at hopen ⊢
  rw [List.length_append, List.length_singleton]
  constructor
  · rintro ⟨hlocked, htwo, hle⟩
    have hgt : ¬ q.learned.learnedsize ≤ ds.length := fun hle' => hopen ⟨hlocked, htwo, hle'⟩
    exact ⟨hlocked, by omega⟩
  · rintro ⟨hlocked, hlast⟩
    exact ⟨hlocked, by omega, by omega⟩

/-- What has been delivered is not delivered again. -/
theorem early_concat (hhead : ds.head? = some 0 → q.Complete ds) (hne : ds ≠ []) (b : UInt8) :
    q.early (ds ++ [b]) = q.early ds := by
  unfold early
  rw [head?_concat hne]
  by_cases hzero : ds.head? = some 0
  · have hcomplete := hhead hzero
    rw [if_pos ⟨hzero, hcomplete.concat b⟩, if_pos ⟨hzero, hcomplete⟩,
      List.take_append_of_le_length hcomplete.2.2]
  · rw [if_neg (by simp [hzero]), if_neg (by simp [hzero])]

theorem early_of_open (hopen : ¬ q.Complete ds) : q.early ds = [] := by
  unfold early
  rw [if_neg (by simp [hopen])]

/-- The octet behind the break. -/
theorem InSegment.first (h : InSegment q [] p) (hstate : p.state = 1)
    (hsize : p.frame.payloadSize = 0) (hlearned : p.learned = q.learned) (x : ℕ) :
    InSegment q [rxfifoData x] (p.rxData x) := by
  have hopen : ¬ q.Complete [rxfifoData x] := by
    rintro ⟨-, htwo, hle⟩
    rw [List.length_singleton] at hle
    omega
  have hreceived : p.received = q.received ++ q.early [rxfifoData x] := by
    rw [early_of_open hopen]
    exact h.received
  unfold rxData
  rw [hstate]
  simp only
  split
  · rename_i hzero
    refine ⟨hreceived, .collect (by rw [hzero]; rfl) hopen rfl ?_ hlearned⟩
    have hoctets := octets_store p (rxfifoData x)
    rw [hsize] at hoctets
    have hnil : p.frame.octets = [] := by
      rw [Frame.octets, hsize, Mem.read_zero]
    rw [hnil] at hoctets
    exact hoctets
  · rename_i hzero
    refine ⟨hreceived, .done (by simp) ?_ rfl hsize⟩
    intro hhead
    exact absurd (Option.some.inj hhead) hzero

/-- An octet of a frame that is being collected. -/
theorem InSegment.collected (h : InSegment q ds p) (hlock : q.learned.locked = true →
    q.learned.learnedsize ≤ 513) (hhead : ds.head? = some 0) (hopen : ¬ q.Complete ds)
    (hstate : p.state = 2) (hoctets : p.frame.octets = ds.take 513)
    (hlearned : p.learned = q.learned) (x : ℕ) :
    InSegment q (ds ++ [rxfifoData x]) (p.rxData x) := by
  have hne := ne_nil_of_head? hhead
  have hpos : 0 < ds.length := List.length_pos_iff.2 hne
  have hhead' : (ds ++ [rxfifoData x]).head? = some 0 := (head?_concat hne _).trans hhead
  have hsize : p.frame.payloadSize = min 513 ds.length := by
    rw [← length_octets, hoctets, List.length_take]
  have hreceived := h.received
  rw [early_of_open hopen, List.append_nil] at hreceived
  unfold rxData
  rw [hstate]
  simp only
  by_cases hlt : ds.length < 513
  · have hstore := octets_store p (rxfifoData x)
    rw [hoctets, List.take_of_length_le (by omega)] at hstore
    have hlength : (p.store p.frame.payloadSize (rxfifoData x)).frame.payloadSize =
        ds.length + 1 := by
      rw [← length_octets, hstore, List.length_append, List.length_singleton]
    have hsame : (p.store p.frame.payloadSize (rxfifoData x)).learned = q.learned := hlearned
    rw [if_pos (by omega), hsame, hlength]
    split
    · rename_i hfull
      obtain ⟨hlocked, hfull⟩ := hfull
      have hcomplete : q.Complete (ds ++ [rxfifoData x]) :=
        (complete_concat_iff hopen hne _).2 ⟨hlocked, hfull⟩
      refine ⟨?_, .done (by simp) (fun _ => hcomplete) rfl rfl⟩
      have hearly : q.early (ds ++ [rxfifoData x]) = [ds ++ [rxfifoData x]] := by
        rw [early, if_pos ⟨hhead', hcomplete⟩, List.take_of_length_le]
        rw [List.length_append, List.length_singleton]
        omega
      rw [hearly, ← hreceived, ← hstore]
      exact received_handOver _
    · rename_i hnot
      have hopen' : ¬ q.Complete (ds ++ [rxfifoData x]) :=
        mt (complete_concat_iff hopen hne _).1 hnot
      refine ⟨?_, .collect hhead' hopen' hstate ?_ hlearned⟩
      · rw [early_of_open hopen', List.append_nil]
        exact hreceived
      · rw [List.take_of_length_le]
        · exact hstore
        · rw [List.length_append, List.length_singleton]
          omega
  · -- a frame that is locked is not as long as that
    have hopen' : ¬ q.Complete (ds ++ [rxfifoData x]) := by
      rw [complete_concat_iff hopen hne]
      rintro ⟨hlocked, hlast⟩
      have hle := hlock hlocked
      omega
    rw [if_neg (by omega)]
    refine ⟨?_, .collect hhead' hopen' hstate ?_ hlearned⟩
    · rw [early_of_open hopen', List.append_nil]
      exact hreceived
    · rw [hoctets, List.take_append_of_le_length (by omega)]

theorem rxData_idle (hstate : p.state = 0) (x : ℕ) :
    p.rxData x = { p with learned := p.learned.overrun } := by
  unfold rxData
  simp only [hstate]

/-- **Every octet is accounted for.** -/
theorem InSegment.rxData (h : InSegment q ds p)
    (hlock : q.learned.locked = true → q.learned.learnedsize ≤ 513) (x : ℕ) :
    InSegment q (ds ++ [rxfifoData x]) (p.rxData x) := by
  cases h.phase with
  | start hstate hsize hlearned => exact h.first hstate hsize hlearned x
  | collect hhead hopen hstate hoctets hlearned =>
    exact h.collected hlock hhead hopen hstate hoctets hlearned x
  | done hne hhead hstate hsize =>
    rw [rxData_idle hstate]
    refine ⟨?_, .done (by simp) ?_ hstate hsize⟩
    · rw [early_concat hhead hne]
      exact h.received
    · intro hhead'
      rw [head?_concat hne] at hhead'
      exact (hhead hhead').concat _

/-- **A break settles the segment.** -/
theorem InSegment.rxBreak (h : InSegment q ds p) (portno : ℕ) (x : ℕ) :
    (p.rxBreak portno x).received = q.received ++ q.whole ds := by
  obtain ⟨-, -, -, -, -, hdelivered⟩ := rxBreak_spec p portno x
  have hreceived : (p.rxBreak portno x).received =
      p.received ++ if p.frame.payloadSize > 0 then [p.frame.octets] else [] := by
    unfold Port.received
    rw [hdelivered, List.map_append]
    congr 1
    split <;> rfl
  rw [hreceived, h.received, List.append_assoc]
  congr 1
  unfold whole
  cases h.phase with
  | start hstate hsize hlearned => simp [hsize, early]
  | collect hhead hopen hstate hoctets hlearned =>
    have hpos : 0 < ds.length := List.length_pos_iff.2 (ne_nil_of_head? hhead)
    have hsize : p.frame.payloadSize = min 513 ds.length := by
      rw [← length_octets, hoctets, List.length_take]
    rw [early_of_open hopen, if_pos (by omega), if_pos hhead, if_neg hopen, hoctets,
      List.nil_append]
  | done hne hhead hstate hsize =>
    rw [hsize, if_neg (by omega), List.append_nil, early]
    by_cases hzero : ds.head? = some 0
    · rw [if_pos ⟨hzero, hhead hzero⟩, if_pos hzero, if_pos (hhead hzero)]
    · rw [if_neg (by simp [hzero]), if_neg hzero]

end Port

/-! ## Streams of words -/

/-- The words that calls of `llgdmx_check_rx_port` have taken out of the
FIFO. -/
def consumed (calls : List (List ℕ)) : List ℕ :=
  calls.flatMap fun words => words.takeWhile fun x => !statusRxfifoEmpty x

namespace Port

theorem checkRxPort_eq_run (portno : ℕ) (p : Port) (words : List ℕ) :
    checkRxPort portno p words =
      run (fun p x => p.checkRxWord portno x) p
        (words.takeWhile fun x => !statusRxfifoEmpty x) := by
  induction words generalizing p with
  | nil => rfl
  | cons x xs ih =>
    rw [checkRxPort, List.takeWhile_cons]
    cases hempty : statusRxfifoEmpty x with
    | true => simp
    | false =>
      simp only [Bool.false_eq_true, if_false, Bool.not_false, if_true, run_cons]
      exact ih _

/-- However the words are cut into calls. -/
theorem foldl_checkRxPort (portno : ℕ) (p : Port) (calls : List (List ℕ)) :
    calls.foldl (checkRxPort portno) p =
      run (fun p x => p.checkRxWord portno x) p (consumed calls) := by
  induction calls generalizing p with
  | nil => rfl
  | cons words calls ih =>
    rw [List.foldl_cons, ih, checkRxPort_eq_run]
    exact run_append.symm

/-- The octets of a segment. -/
theorem InSegment.run (portno : ℕ) (hlock : q.learned.locked = true →
    q.learned.learnedsize ≤ 513) (h : InSegment q ds p) {seg : List ℕ}
    (hseg : ∀ x ∈ seg, rxfifoBreak x = false) :
    InSegment q (ds ++ seg.map rxfifoData) (run (fun p x => p.checkRxWord portno x) p seg) := by
  induction seg generalizing p ds with
  | nil => simpa using h
  | cons x xs ih =>
    have hword : p.checkRxWord portno x = p.rxData x := by
      rw [checkRxWord, hseg x List.mem_cons_self, if_neg (by simp)]
    rw [run_cons, hword, List.map_cons, List.append_cons]
    exact ih (h.rxData hlock x) fun y hy => hseg y (List.mem_cons_of_mem x hy)

/-- In front of the first break nothing is received. -/
theorem run_data_idle (portno : ℕ) (hstate : p.state = 0) {seg : List ℕ}
    (hseg : ∀ x ∈ seg, rxfifoBreak x = false) :
    (run (fun p x => p.checkRxWord portno x) p seg).received = p.received := by
  induction seg generalizing p with
  | nil => rfl
  | cons x xs ih =>
    have hword : p.checkRxWord portno x = { p with learned := p.learned.overrun } := by
      rw [checkRxWord, hseg x List.mem_cons_self, if_neg (by simp), rxData_idle hstate]
    rw [run_cons, hword]
    exact ih hstate fun y hy => hseg y (List.mem_cons_of_mem x hy)

/-- A port that has taken words out of the FIFO since it was brought up. -/
def behind (enabled : Bool) (portno : ℕ) (words : List ℕ) : Port :=
  Dmx4Linux2.run (fun p x => p.checkRxWord portno x) (init enabled) words

/-- **The frames of every stream of words.** Nothing is written behind the
data of the frame. Of the octets behind a break, the port has delivered
what `early` says when they have come, and what `whole` says at the next
break. -/
theorem segments_delivered (enabled : Bool) (portno : ℕ) (calls : List (List ℕ)) :
    (calls.foldl (checkRxPort portno) (init enabled)).frame.payloadSize ≤ 513 ∧
      (∀ i ∈ (calls.foldl (checkRxPort portno) (init enabled)).written, i < 513) ∧
      ((∀ x ∈ consumed calls, rxfifoBreak x = false) →
        (calls.foldl (checkRxPort portno) (init enabled)).received = []) ∧
      ∀ pre brk seg, consumed calls = pre ++ brk :: seg → rxfifoBreak brk = true →
        (∀ x ∈ seg, rxfifoBreak x = false) →
        (calls.foldl (checkRxPort portno) (init enabled)).received =
            (behind enabled portno (pre ++ [brk])).received ++
              (behind enabled portno (pre ++ [brk])).early (seg.map rxfifoData) ∧
          ∀ x, rxfifoBreak x = true →
            ((calls.foldl (checkRxPort portno) (init enabled)).checkRxWord portno x).received =
              (behind enabled portno (pre ++ [brk])).received ++
                (behind enabled portno (pre ++ [brk])).whole (seg.map rxfifoData) := by
  rw [foldl_checkRxPort]
  have hbounded : ∀ words, (behind enabled portno words).Bounded := by
    intro words
    have hall : Always (fun p x => p.checkRxWord portno x) Bounded (init enabled) words :=
      always_of_step (fun _ x h => h.checkRxWord portno x) (Bounded.init enabled)
    exact hall.last
  refine ⟨(hbounded _).size, (hbounded _).written, fun hnone => ?_, ?_⟩
  · rw [run_data_idle portno rfl hnone]
    rfl
  · intro pre brk seg heq hbrk hseg
    have hbreak : ∀ (p : Port) x, rxfifoBreak x = true →
        p.checkRxWord portno x = p.rxBreak portno x := by
      intro p x hx
      rw [checkRxWord, if_pos hx]
    -- the port behind the break is one that a break leaves
    have hstart : InSegment (behind enabled portno (pre ++ [brk])) []
        (behind enabled portno (pre ++ [brk])) := by
      unfold behind
      rw [run_concat, hbreak _ brk hbrk]
      exact InSegment.start _ portno brk
    have hrun : Dmx4Linux2.run (fun p x => p.checkRxWord portno x) (init enabled) (consumed calls) =
        Dmx4Linux2.run (fun p x => p.checkRxWord portno x) (behind enabled portno (pre ++ [brk]))
          seg := by
      rw [heq, List.append_cons]
      exact run_append
    have hin := hstart.run portno (hbounded _).learned hseg
    rw [List.nil_append] at hin
    rw [hrun]
    refine ⟨hin.received, fun x hx => ?_⟩
    rw [hbreak _ x hx]
    exact hin.rxBreak portno x

end Port

end Llgip

end Dmx4Linux2
