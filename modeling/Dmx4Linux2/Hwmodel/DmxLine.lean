import Dmx4Linux2.Common.Run
import Dmx4Linux2.Hwmodel.Model.DmxDevice

/-!
# hardware model — what the dmx device sends

A frame is a break, a mark, and twenty-five octets with six more high bits
behind each (`frameBits`). From a rising edge of the led to the next the line
shows one bit after the other, each for 800 half clocks, and is high behind
the last (`Playing`). So a receiver that samples the line once in 800 half
clocks, wherever within a bit, receives the frame (`frame_received`).
-/

namespace Dmx4Linux2

namespace Hwmodel

namespace DmxDevice

open Serial (octetBits frame receive Symbol)

variable {d : DmxDevice} {c : Call} {v : UInt8} {n p : ℕ}

/-! ## The bits of a frame -/

/-- **The bits of a frame on the line**: break, mark, and the slots. -/
def frameBits (v : UInt8) : List Bool :=
  List.replicate 22 false ++ List.replicate 2 true ++
    (List.range 25).flatMap fun i => frame (slotValue v i) 6

/-- What is received of it. -/
def frameSymbols (v : UInt8) : List Symbol :=
  .broken 0 :: (List.range 25).map fun i => .octet (slotValue v i)

/-- The bits of a memory, byte by byte. -/
theorem bits_read (m : Mem) (k : ℕ) :
    (List.range (8 * k)).map (bitAt m) = (m.read 0 k).flatMap octetBits := by
  induction k with
  | zero => rfl
  | succ k ih =>
    have hbyte : ((List.range 8).map (8 * k + ·)).map (bitAt m) = octetBits (m k) := by
      rw [List.map_map, octetBits]
      refine List.map_congr_left fun i hi => ?_
      have hlt := List.mem_range.1 hi
      have hdiv : (8 * k + i) / 8 = k := by omega
      have hmod : (8 * k + i) % 8 = i := by omega
      simp only [Function.comp_apply, bitAt, hdiv, hmod]
    rw [show 8 * (k + 1) = 8 * k + 8 by omega, List.range_add, List.map_append, ih, hbyte,
      Mem.read_add, List.flatMap_append, Nat.zero_add, Mem.read_one, List.flatMap_singleton]

/-- A slot is an octet on the line. -/
theorem bits_slotBytes (c : UInt8) : (slotBytes c).flatMap octetBits = frame c 6 := by
  have hall : ∀ n : Fin 256,
      (slotBytes (UInt8.ofNat n)).flatMap octetBits = frame (UInt8.ofNat n) 6 := by decide +kernel
  have h := hall ⟨c.toNat, c.toNat_lt⟩
  rwa [UInt8.ofNat_toNat] at h

theorem bits_frameBytes (v : UInt8) : (frameBytes v).flatMap octetBits = frameBits v := by
  have hbreak : ([0, 0, 0xC0] : List UInt8).flatMap octetBits =
      List.replicate 22 false ++ List.replicate 2 true := by decide
  rw [frameBytes, List.flatMap_append, hbreak, List.flatMap_assoc, frameBits]
  simp only [bits_slotBytes]

theorem length_frameBytes : (frameBytes v).length = 53 := by
  simp [frameBytes, slotBytes, List.length_flatMap]

theorem length_frameBits : (frameBits v).length = 424 := by
  rw [← bits_frameBytes, List.length_flatMap]
  simp [Serial.length_octetBits, length_frameBytes]

/-- **A frame is received as it was put together.** -/
theorem receive_frameBits (v : UInt8) (n : ℕ) :
    receive .idle (frameBits v ++ List.replicate n true) = frameSymbols v := by
  have hslots : ∀ (l : List ℕ) (ds : List Bool),
      receive .idle ((l.flatMap fun i => frame (slotValue v i) 6) ++ ds) =
        (l.map fun i => .octet (slotValue v i)) ++ receive .idle ds := by
    intro l ds
    induction l with
    | nil => rfl
    | cons i l ih =>
      rw [List.flatMap_cons, List.append_assoc, Serial.receive_idle_frame, ih]
      rfl
  have hmark : ∀ ds, receive .idle (List.replicate 22 false ++ List.replicate 2 true ++ ds) =
      .broken 0 :: receive .idle ds := by
    intro ds
    have hbreak := Serial.receive_idle_break 12 (true :: ds)
    rwa [Serial.receive, Serial.Receiver.sample] at hbreak
  have hhigh : receive .idle (List.replicate n true) = [] := by
    have h := Serial.receive_idle_high n []
    rwa [List.append_nil] at h
  rw [frameBits, List.append_assoc, hmark, hslots, hhigh, List.append_nil]
  rfl

/-! ## The line -/

/-- The bit the line shows, high behind the frame. -/
def shown (v : UInt8) (n : ℕ) : Bool := (frameBits v).getD n true

/-- The level with `p` bits shown so far, that was `h` before them. -/
def levelAt (v : UInt8) (h : Bool) : ℕ → Bool
  | 0 => h
  | p + 1 => shown v p

/-- **The device has shown `p` bits** of the frame. -/
structure Playing (v : UInt8) (h : Bool) (p : ℕ) (d : DmxDevice) : Prop where
  slot1 : d.slot1Value = v
  count : d.dmxbitsCount = 424
  bits : ∀ n ≤ 424, bitAt d.dmxbits n = shown v n
  rx : d.rx = levelAt v h p
  place : d.enabled = true ∧ d.bitcount = p ∧ p ≤ 425 ∨ d.enabled = false ∧ 426 ≤ p

theorem shown_of_ge (h : 424 ≤ n) : shown v n = true := by
  rw [shown, List.getD_eq_getElem?_getD, List.getElem?_eq_none (by rw [length_frameBits]; exact h)]
  rfl

theorem map_shown (v : UInt8) (n : ℕ) :
    (List.range (424 + n)).map (shown v) = frameBits v ++ List.replicate n true := by
  have hhigh : ((List.range n).map (424 + ·)).map (shown v) = List.replicate n true := by
    refine List.eq_replicate_iff.2 ⟨by simp, fun b hb => ?_⟩
    obtain ⟨m, hm, rfl⟩ := List.mem_map.1 hb
    obtain ⟨i, -, rfl⟩ := List.mem_map.1 hm
    exact shown_of_ge (by omega)
  have hframe : (List.range 424).map (shown v) = frameBits v := by
    refine List.ext_getElem (by simp [length_frameBits]) fun i hi hi' => ?_
    simp [shown, hi']
  rw [List.range_add, List.map_append, hframe, hhigh]

/-- The counter and the led, beside what is shown. -/
theorem step_eq (d : DmxDevice) (c : Call) : d.step c =
    { ({ d with counterNs := d.counterNs + 1 }.handleBit).handleLed c.led with
      lastTxen := c.txen, lastLed := c.led } := rfl

theorem level_eq (d : DmxDevice) (c : Call) :
    d.level c = if ({ d with counterNs := d.counterNs + 1 }.handleBit).rx then 1 else 0 := rfl

/-- What finding the level leaves alone. -/
theorem handleBit_spec (d : DmxDevice) : d.handleBit.counterNs = d.counterNs ∧
    d.handleBit.lastLed = d.lastLed ∧ d.handleBit.slot1Value = d.slot1Value ∧
      d.handleBit.dmxbits = d.dmxbits := by
  unfold handleBit
  (repeat' split) <;> exact ⟨rfl, rfl, rfl, rfl⟩

theorem counterNs_step (d : DmxDevice) (c : Call) : (d.step c).counterNs = d.counterNs + 1 := by
  rw [step_eq]
  unfold handleLed
  split <;> exact (handleBit_spec _).1

/-- The led rises with this call. -/
def rises (d : DmxDevice) (c : Call) : Bool := d.edge c.led

theorem edge_handleBit (d : DmxDevice) (c : Call) :
    ({ d with counterNs := d.counterNs + 1 }.handleBit).edge c.led = d.rises c := by
  rw [edge, (handleBit_spec _).2.1]
  rfl

/-- **A bit of the line**: with every eight-hundredth call the next one is
shown. -/
theorem Playing.handleBit {h : Bool} (hp : Playing v h p d) :
    Playing v h (if d.counterNs % (25 * 16 * 2) = 0 then p + 1 else p) d.handleBit := by
  have hhigh : ∀ q, 426 ≤ q → levelAt v h q = true := by
    intro q hq
    obtain ⟨q, rfl⟩ := Nat.exists_eq_add_of_le' (by omega : 1 ≤ q)
    exact shown_of_ge (by omega)
  unfold DmxDevice.handleBit
  rcases hp.place with ⟨hen, hcount, hle⟩ | ⟨hen, hge⟩
  · rw [if_pos hen]
    by_cases htick : d.counterNs % (25 * 16 * 2) = 0
    · rw [if_pos htick, if_pos htick]
      by_cases hover : d.dmxbitsCount < d.bitcount
      · -- the frame is over
        rw [if_pos hover]
        rw [hp.count, hcount] at hover
        have hrx : d.rx = levelAt v h (p + 1) := by
          obtain rfl : p = 425 := by omega
          rw [hp.rx, hhigh (425 + 1) (by omega)]
          exact shown_of_ge (n := 424) le_rfl
        exact ⟨hp.slot1, hp.count, hp.bits, hrx, .inr ⟨rfl, by omega⟩⟩
      · rw [if_neg hover]
        rw [hp.count, hcount] at hover
        have hrx : bitAt d.dmxbits d.bitcount = levelAt v h (p + 1) := by
          rw [hcount]
          exact hp.bits p (by omega)
        exact ⟨hp.slot1, hp.count, hp.bits, hrx, .inl ⟨hen, by rw [hcount], by omega⟩⟩
    · rw [if_neg htick, if_neg htick]
      exact hp
  · have hoff : ¬ d.enabled = true := by simp [hen]
    rw [if_neg hoff]
    have hall : ∀ q, 426 ≤ q → Playing v h q { d with rx := true } := fun q hq =>
      ⟨hp.slot1, hp.count, hp.bits, (hhigh q hq).symm, .inr ⟨hen, hq⟩⟩
    split
    · exact hall _ (by omega)
    · exact hall _ hge

theorem Playing.step {h : Bool} (hp : Playing v h p d) (hquiet : d.rises c = false) :
    Playing v h (if (d.counterNs + 1) % (25 * 16 * 2) = 0 then p + 1 else p) (d.step c) ∧
      d.level c = if levelAt v h (if (d.counterNs + 1) % (25 * 16 * 2) = 0 then p + 1 else p)
        then 1 else 0 := by
  have hcounted : Playing v h p { d with counterNs := d.counterNs + 1 } :=
    ⟨hp.slot1, hp.count, hp.bits, hp.rx, hp.place⟩
  have hbit := hcounted.handleBit
  have hled : ({ d with counterNs := d.counterNs + 1 }.handleBit).handleLed c.led =
      { d with counterNs := d.counterNs + 1 }.handleBit := by
    rw [handleLed, edge_handleBit, hquiet]
    rfl
  rw [step_eq, hled, level_eq, ← hbit.rx]
  exact ⟨⟨hbit.slot1, hbit.count, hbit.bits, hbit.rx, hbit.place⟩, rfl⟩

/-- The counter does not wrap around. -/
theorem toNat_counterNs_step (h : d.counterNs.toNat + 1 < 2 ^ 64) (c : Call) :
    (d.step c).counterNs.toNat = d.counterNs.toNat + 1 := by
  rw [counterNs_step, UInt64.toNat_add]
  exact Nat.mod_eq_of_lt h

theorem tick_iff (h : d.counterNs.toNat + 1 < 2 ^ 64) (c : Call) :
    (d.counterNs + 1) % (25 * 16 * 2) = 0 ↔ (d.counterNs.toNat + 1) % 800 = 0 := by
  rw [← UInt64.toNat_inj, UInt64.toNat_mod, ← counterNs_step d c, toNat_counterNs_step h]
  rfl

/-- **The line from a rising edge on**, call by call. -/
theorem Playing.level {h : Bool} (hp : Playing v h p d) (es : List Call)
    (hquiet : true ∉ outputs DmxDevice.step rises d es)
    (hbound : d.counterNs.toNat + es.length < 2 ^ 64) {j : ℕ} (hj : j < es.length) :
    (outputs DmxDevice.step DmxDevice.level d es)[j]? = some (if levelAt v h
      (p + ((d.counterNs.toNat + j + 1) / 800 - d.counterNs.toNat / 800)) then 1 else 0) := by
  induction es generalizing d p j with
  | nil => simp at hj
  | cons c es ih =>
    rw [outputs, List.mem_cons, not_or] at hquiet
    rw [List.length_cons] at hbound hj
    have hnone : d.rises c = false := by simpa using Ne.symm hquiet.1
    obtain ⟨hnext, hlevel⟩ := hp.step hnone
    have htick := tick_iff (d := d) (by omega) c
    have hcount := toNat_counterNs_step (d := d) (by omega) c
    -- the bits shown so far
    have hshown : (if (d.counterNs + 1) % (25 * 16 * 2) = 0 then p + 1 else p) =
        p + ((d.counterNs.toNat + 1) / 800 - d.counterNs.toNat / 800) := by
      split
      · next hmod =>
        have := htick.1 hmod
        omega
      · next hmod =>
        have := mt htick.2 hmod
        omega
    rw [hshown] at hnext hlevel
    rw [outputs]
    cases j with
    | zero => rw [List.getElem?_cons_zero, hlevel, Nat.add_zero]
    | succ j =>
      have hrest := ih hnext hquiet.2 (by omega) (by omega : j < es.length)
      rw [List.getElem?_cons_succ, hrest, hcount]
      have hadd : p + ((d.counterNs.toNat + 1) / 800 - d.counterNs.toNat / 800) +
          ((d.counterNs.toNat + 1 + j + 1) / 800 - (d.counterNs.toNat + 1) / 800) =
          p + ((d.counterNs.toNat + (j + 1) + 1) / 800 - d.counterNs.toNat / 800) := by
        omega
      rw [hadd]

/-! ## A rising edge -/

/-- The led rises: a frame is put together, whose bits are those of the slot
counted up. -/
theorem playing_step_of_rises (hlast : d.dmxbits 53 = 0xFF) (hedge : d.rises c = true) :
    ∃ h, Playing (d.slot1Value + 1) h 0 (d.step c) := by
  obtain ⟨t, ht⟩ : ∃ t, t = { d with counterNs := d.counterNs + 1 }.handleBit := ⟨_, rfl⟩
  have hbits : t.dmxbits = d.dmxbits := by
    rw [ht]
    exact (handleBit_spec _).2.2.2
  have hslot : t.slot1Value = d.slot1Value := by
    rw [ht]
    exact (handleBit_spec _).2.2.1
  have hled : t.edge c.led = true := by rw [ht, edge_handleBit, hedge]
  have hstep : d.step c = { { t with
      enabled := true
      bitcount := 0
      slot1Value := t.slot1Value + 1 }.setupDmxFrame (t.slot1Value + 1) with
        lastTxen := c.txen, lastLed := c.led } := by
    rw [step_eq, ← ht, handleLed, if_pos hled]
  rw [hstep, hslot]
  refine ⟨t.rx, ⟨rfl, rfl, fun n hn => ?_, rfl, .inl ⟨rfl, rfl, by omega⟩⟩⟩
  show bitAt (t.dmxbits.write 0 (frameBytes (d.slot1Value + 1))) n = _
  rcases Nat.lt_or_ge n 424 with h | h
  · have hread := bits_read (t.dmxbits.write 0 (frameBytes (d.slot1Value + 1))) 53
    rw [Mem.read_write_of_length length_frameBytes, bits_frameBytes] at hread
    rw [shown, ← hread, List.getD_eq_getElem?_getD, List.getElem?_map, List.getElem?_range h]
    rfl
  · obtain rfl : n = 424 := by omega
    have hbehind : (t.dmxbits.write 0 (frameBytes (d.slot1Value + 1))) 53 = 0xFF := by
      rw [Mem.write_apply_of_ge (by rw [length_frameBytes]), hbits, hlast]
    rw [shown_of_ge le_rfl, bitAt, hbehind]
    rfl

/-- The byte behind the frame is not written. -/
theorem dmxbits_handleLed (d : DmxDevice) (led : UInt8) :
    (d.handleLed led).dmxbits 53 = d.dmxbits 53 := by
  have hlen : 0 + (frameBytes (d.slot1Value + 1)).length ≤ 53 := by rw [length_frameBytes]
  unfold handleLed
  split
  · exact Mem.write_apply_of_ge hlen
  · rfl

theorem dmxbits_step (d : DmxDevice) (c : Call) : (d.step c).dmxbits 53 = d.dmxbits 53 := by
  have hbit := congrFun (handleBit_spec { d with counterNs := d.counterNs + 1 }).2.2.2 53
  rw [step_eq]
  exact (dmxbits_handleLed _ _).trans hbit

theorem slot1Value_step (d : DmxDevice) (c : Call) :
    (d.step c).slot1Value = d.slot1Value + if d.rises c then 1 else 0 := by
  have hbit := (handleBit_spec { d with counterNs := d.counterNs + 1 }).2.2.1
  rw [step_eq]
  unfold handleLed
  rw [edge_handleBit]
  split
  · exact congrArg (· + 1) hbit
  · exact hbit.trans (UInt8.add_zero _).symm

/-! ## Runs -/

theorem counterNs_run (d : DmxDevice) (es : List Call)
    (h : d.counterNs.toNat + es.length < 2 ^ 64) :
    (run step d es).counterNs.toNat = d.counterNs.toNat + es.length := by
  induction es generalizing d with
  | nil => rfl
  | cons c es ih =>
    rw [List.length_cons] at h ⊢
    have hone := toNat_counterNs_step (d := d) (by omega) c
    rw [run_cons, ih _ (by omega), hone]
    omega

theorem dmxbits_run (d : DmxDevice) (es : List Call) (h : d.dmxbits 53 = 0xFF) :
    (run step d es).dmxbits 53 = 0xFF :=
  (always_of_step (P := fun d : DmxDevice => d.dmxbits 53 = 0xFF)
    (fun d c h => (dmxbits_step d c).trans h) h).last

theorem slot1Value_run (d : DmxDevice) (es : List Call) :
    (run step d es).slot1Value =
      d.slot1Value + UInt8.ofNat ((outputs step rises d es).count true) := by
  induction es generalizing d with
  | nil => simp [outputs]
  | cons c es ih =>
    rw [run_cons, ih, slot1Value_step, outputs, List.count_cons]
    cases h : d.rises c with
    | false => simp
    | true =>
      simp only [if_true, beq_self_eq_true, UInt8.ofNat_add]
      rw [UInt8.add_assoc, UInt8.add_comm 1]
      rfl

/-- `k` samples of a line, one for each bit. -/
def samples (levels : List Int32) (first k : ℕ) : List Bool :=
  (List.range k).map fun i => levels.getD (first + 800 * i) 1 != 0

/-- **The frame is received** by whoever samples the line once for each bit,
from the first bit on that begins behind a rising edge of the led and `w`
half clocks into each bit: a break, the start code, the number of the edge,
and the slots behind it, as long as the led does not rise again. -/
theorem frame_received (pre post : List Call) (c : Call)
    (hedge : (run step init pre).rises c = true)
    (hquiet : true ∉ outputs step rises (run step init (pre ++ [c])) post)
    (hbound : pre.length + 1 + post.length < 2 ^ 64) {w k : ℕ} (hw : w < 800) (hk : 424 ≤ k)
    (hlong : 799 - (pre.length + 1) % 800 + w + 800 * (k - 1) < post.length) :
    receive .idle (samples (outputs step level (run step init (pre ++ [c])) post)
        (799 - (pre.length + 1) % 800 + w) k) =
      frameSymbols (UInt8.ofNat ((outputs step rises init pre).count true + 1)) := by
  have hlast : (run step init pre).dmxbits 53 = 0xFF := dmxbits_run init pre rfl
  have hslot : (run step init pre).slot1Value + 1 =
      UInt8.ofNat ((outputs step rises init pre).count true + 1) := by
    rw [slot1Value_run, UInt8.ofNat_add]
    exact congrArg (· + 1) (UInt8.zero_add _)
  obtain ⟨h, hplaying⟩ := playing_step_of_rises hlast hedge
  have hrun : run step init (pre ++ [c]) = (run step init pre).step c := run_concat
  rw [← hrun, hslot] at hplaying
  have hcount : (run step init (pre ++ [c])).counterNs.toNat = pre.length + 1 := by
    have hzero : init.counterNs.toNat = 0 := rfl
    rw [counterNs_run init _ (by rw [hzero]; simp; omega), hzero]
    simp
  have hlevel := fun {j : ℕ} => hplaying.level post hquiet (by rw [hcount]; exact hbound) (j := j)
  -- a sample is the bit of its number
  have hsample : ∀ i, i < k → ((outputs step level (run step init (pre ++ [c])) post).getD
      (799 - (pre.length + 1) % 800 + w + 800 * i) 1 != 0) = shown
        (UInt8.ofNat ((outputs step rises init pre).count true + 1)) i := by
    intro i hi
    have hshown : 0 + ((pre.length + 1 + (799 - (pre.length + 1) % 800 + w + 800 * i) + 1) / 800 -
        (pre.length + 1) / 800) = i + 1 := by omega
    rw [List.getD_eq_getElem?_getD, hlevel (by omega), hcount, hshown, levelAt]
    cases shown _ i <;> rfl
  have hsamples : samples (outputs step level (run step init (pre ++ [c])) post)
      (799 - (pre.length + 1) % 800 + w) k =
        frameBits (UInt8.ofNat ((outputs step rises init pre).count true + 1)) ++
          List.replicate (k - 424) true := by
    rw [← map_shown, samples, Nat.add_sub_cancel' hk]
    exact List.map_congr_left fun i hi => hsample i (List.mem_range.1 hi)
  rw [hsamples, receive_frameBits]

/-- A led that is on does not rise. -/
theorem not_rises_of_on (d : DmxDevice) (h : d.lastLed = 1) (n : ℕ) :
    true ∉ outputs step rises d (List.replicate n ⟨0, 1, 1⟩) := by
  induction n generalizing d with
  | zero => simp [outputs]
  | succ n ih =>
    have hoff : d.rises ⟨0, 1, 1⟩ = false := by simp [rises, edge, h]
    rw [List.replicate_succ, outputs, List.mem_cons, hoff]
    exact not_or.2 ⟨by simp, ih _ rfl⟩

/-- The first frame, sampled in the middle of its bits. -/
theorem frame_received_first :
    receive .idle (samples (outputs step level (run step init ([] ++ [⟨0, 1, 1⟩]))
        (List.replicate 340000 ⟨0, 1, 1⟩)) (799 - (0 + 1) % 800 + 400) 424) =
      frameSymbols (UInt8.ofNat ((outputs step rises init []).count true + 1)) := by
  have hquiet := not_rises_of_on (run step init ([] ++ [⟨0, 1, 1⟩])) rfl 340000
  have hlen : (List.replicate 340000 (⟨0, 1, 1⟩ : Call)).length = 340000 := List.length_replicate
  exact frame_received [] (List.replicate 340000 ⟨0, 1, 1⟩) ⟨0, 1, 1⟩ rfl hquiet
    (by rw [hlen]; decide) (by decide) (by decide) (by rw [hlen]; decide)

end DmxDevice

end Hwmodel

end Dmx4Linux2
