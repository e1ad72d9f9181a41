import Dmx4Linux2.Llgip.Receiver
import Mathlib.Data.List.TakeWhile

/-!
# llgip — frames sent and received again

The words that are written for a frame, fed to a port with a break behind
them. The port delivers one frame, with the octets and the break of the
one that was sent (`sendFrame_delivered`); but it counts the start code
to the payload, and the sender does not, so that no frame comes back with
the size it had (`not_roundTrip`).
-/

namespace Dmx4Linux2

namespace Llgip

variable {p q : Port} {x : ℕ}

/-! ## Words and octets -/

theorem rxfifoData_eq (x : ℕ) : rxfifoData x = UInt8.ofNat x := by
  have hand : x &&& 0xff = x % 2 ^ 8 := Nat.and_two_pow_sub_one_eq_mod x 8
  rw [rxfifoData, hand]
  exact UInt8.toNat_inj.1 (by simp)

theorem rxfifoData_toNat (b : UInt8) : rxfifoData b.toNat = b := by
  rw [rxfifoData_eq, UInt8.ofNat_toNat]

/-- An octet is no break, and a word that is there. -/
theorem word_of_lt (h : x < 2 ^ 8) : rxfifoBreak x = false ∧ statusRxfifoEmpty x = false := by
  have hbreak : x >>> 8 = 0 := by
    rw [Nat.shiftRight_eq_div_pow]
    omega
  have hempty : x >>> 24 = 0 := by
    rw [Nat.shiftRight_eq_div_pow]
    omega
  simp [rxfifoBreak, statusRxfifoEmpty, hbreak, hempty]

/-- The breaksize that is sent. -/
def clampedBreaksize (b : UInt8) : ℕ := if b < 22 then 22 else if b > 63 then 63 else b.toNat

theorem clampedBreaksize_bounds (b : UInt8) :
    22 ≤ clampedBreaksize b ∧ clampedBreaksize b ≤ 63 := by
  unfold clampedBreaksize
  split
  · omega
  · split
    · omega
    · rename_i hlow hhigh
      rw [UInt8.lt_iff_toNat_lt] at hlow
      rw [gt_iff_lt, UInt8.lt_iff_toNat_lt] at hhigh
      have h22 : (22 : UInt8).toNat = 22 := rfl
      have h63 : (63 : UInt8).toNat = 63 := rfl
      omega

/-- **The break that is sent is the break that is received.** -/
theorem breakWord (n : ℕ) (hlow : 22 ≤ n) (hhigh : n ≤ 63) :
    rxfifoBreak (0x100 + (n <<< 2) + 3) = true ∧ statusRxfifoEmpty (0x100 + (n <<< 2) + 3) = false ∧
      rxfifoData (0x100 + (n <<< 2) + 3) >>> 2 = UInt8.ofNat n := by
  interval_cases n <;> decide

namespace Port

/-- A port that is not locked delivers nothing before the next break. -/
theorem rxData_of_unlocked (hlock : p.learned.locked = false) (x : ℕ) :
    (p.rxData x).learned.locked = false ∧ (p.rxData x).delivered = p.delivered ∧
      (p.rxData x).frame.breaksize = p.frame.breaksize := by
  unfold rxData
  split
  · exact ⟨Learned.overrun_locked _, rfl, rfl⟩
  · split
    · exact ⟨hlock, rfl, rfl⟩
    · exact ⟨hlock, rfl, rfl⟩
  · split
    · have hlock' : (p.store p.frame.payloadSize (rxfifoData x)).learned.locked = false := hlock
      simp only [hlock', Bool.false_eq_true, false_and, if_false]
      exact ⟨trivial, rfl, rfl⟩
    · exact ⟨hlock, rfl, rfl⟩
  · exact ⟨hlock, rfl, rfl⟩

theorem run_of_unlocked (portno : ℕ) (hlock : p.learned.locked = false) {seg : List ℕ}
    (hseg : ∀ x ∈ seg, rxfifoBreak x = false) :
    (run (fun p x => p.checkRxWord portno x) p seg).delivered = p.delivered ∧
      (run (fun p x => p.checkRxWord portno x) p seg).frame.breaksize = p.frame.breaksize := by
  induction seg generalizing p with
  | nil => exact ⟨rfl, rfl⟩
  | cons x xs ih =>
    have hword : p.checkRxWord portno x = p.rxData x := by
      rw [checkRxWord, hseg x List.mem_cons_self, if_neg (by simp)]
    obtain ⟨hlock', hdelivered, hbreaksize⟩ := rxData_of_unlocked hlock x
    rw [run_cons, hword]
    obtain ⟨hrest, hrest'⟩ := ih hlock' fun y hy => hseg y (List.mem_cons_of_mem x hy)
    exact ⟨hrest.trans hdelivered, hrest'.trans hbreaksize⟩

/-- A break on a port that holds nothing. -/
theorem rxBreak_of_idle (hsize : p.frame.payloadSize = 0) (portno : ℕ) (x : ℕ) :
    (p.rxBreak portno x).learned = p.learned ∧ (p.rxBreak portno x).delivered = p.delivered := by
  obtain ⟨-, -, -, -, hlearned, hdelivered⟩ := rxBreak_spec p portno x
  rw [hsize, if_neg (by omega)] at hlearned
  rw [hsize, if_neg (by omega), List.append_nil] at hdelivered
  exact ⟨hlearned, hdelivered⟩

/-- **What is delivered of octets between two breaks** by a port that is
not locked and holds nothing: one frame with all of them, and with the
first break. -/
theorem deliver_segment (hlock : p.learned.locked = false) (hsize : p.frame.payloadSize = 0)
    (portno : ℕ) {brk brk' : ℕ} (hbrk : rxfifoBreak brk = true) (hbrk' : rxfifoBreak brk' = true)
    {seg : List ℕ} (hseg : ∀ x ∈ seg, rxfifoBreak x = false)
    (hhead : (seg.map rxfifoData).head? = some 0) (hlength : seg.length ≤ 513) :
    ∃ f : Frame, (run (fun p x => p.checkRxWord portno x) p (brk :: seg ++ [brk'])).delivered =
        p.delivered ++ [f] ∧ f.octets = seg.map rxfifoData ∧
      f.breaksize = rxfifoData brk >>> 2 := by
  have hword : ∀ (p : Port) x, rxfifoBreak x = true →
      p.checkRxWord portno x = p.rxBreak portno x := by
    intro p x hx
    rw [checkRxWord, if_pos hx]
  rw [run_concat, run_cons, hword _ brk' hbrk', hword _ brk hbrk]
  obtain ⟨hlearned, hsame⟩ := rxBreak_of_idle hsize portno brk
  obtain ⟨-, -, hbreaksize, -⟩ := rxBreak_spec p portno brk
  have hstart := InSegment.start p portno brk
  generalize p.rxBreak portno brk = q at *
  rw [← hlearned] at hlock
  have hin := hstart.run portno (fun h => absurd (hlock.symm.trans h) (by simp)) hseg
  obtain ⟨hdelivered, hbreaksize'⟩ := run_of_unlocked portno hlock hseg
  rw [List.nil_append] at hin
  generalize run (fun p x => p.checkRxWord portno x) q seg = r at *
  obtain ⟨-, -, -, -, -, hlast⟩ := rxBreak_spec r portno brk'
  -- the port is not locked, and so it still collects
  have hoctets : r.frame.octets = seg.map rxfifoData := by
    rw [← List.length_map (f := rxfifoData)] at hlength
    generalize seg.map rxfifoData = ds at *
    cases hin.phase with
    | start => exact absurd hhead (by simp)
    | collect hhead hopen hstate hoctets hlearned =>
      rw [hoctets, List.take_of_length_le hlength]
    | done hne hdone hstate hsize => exact absurd (hlock.symm.trans (hdone hhead).1) (by simp)
  have hpos : r.frame.payloadSize > 0 := by
    have hlen := congrArg List.length hoctets
    have hne : 0 < (seg.map rxfifoData).length := List.length_pos_iff.2 (ne_nil_of_head? hhead)
    rw [length_octets] at hlen
    omega
  rw [if_pos hpos] at hlast
  refine ⟨{ r.frame with unused := r.frame.unused + 1 }, ?_, hoctets, ?_⟩
  · rw [hlast, hdelivered, hsame]
  · exact hbreaksize'.trans hbreaksize

end Port

/-! ## Round trips -/

/-- **A frame comes back as it was sent**: the port, fed with the words of
the frame and a further break, delivers one frame more, of the same size,
with the same start code and payload, and with the break that was sent. -/
def RoundTrip (p : Port) (portno : ℕ) (frame : Frame) (brk : ℕ) : Prop :=
  ∃ f : Frame, (Port.checkRxPort portno p (llSendFrame frame ++ [brk])).delivered =
      p.delivered ++ [f] ∧ f.payloadSize = frame.payloadSize ∧ f.startcode = frame.startcode ∧
    f.data.read 1 frame.payloadSize = frame.data.read 1 frame.payloadSize ∧
    f.breaksize.toNat = clampedBreaksize frame.breaksize

/-- **The frame that comes back** has the octets and the break of the
frame that was sent, and its size is one more. -/
theorem sendFrame_delivered (hlock : p.learned.locked = false) (hsize : p.frame.payloadSize = 0)
    (portno : ℕ) {frame : Frame} (hstart : frame.startcode = 0) (hmax : frame.payloadSize ≤ 512)
    {brk : ℕ} (hbrk : rxfifoBreak brk = true) (hthere : statusRxfifoEmpty brk = false) :
    ∃ f : Frame, (Port.checkRxPort portno p (llSendFrame frame ++ [brk])).delivered =
        p.delivered ++ [f] ∧ f.payloadSize = frame.payloadSize + 1 ∧
      f.octets = frame.data.read 0 (frame.payloadSize + 1) ∧
      f.breaksize.toNat = clampedBreaksize frame.breaksize := by
  obtain ⟨hlow, hhigh⟩ := clampedBreaksize_bounds frame.breaksize
  obtain ⟨hfirst, hfirst', hbreaksize⟩ := breakWord (clampedBreaksize frame.breaksize) hlow hhigh
  have hwords : llSendFrame frame = (0x100 + (clampedBreaksize frame.breaksize <<< 2) + 3) ::
      (frame.data.read 0 (frame.payloadSize + 1)).map UInt8.toNat := by
    rw [Mem.read_succ, List.map_cons]
    rfl
  generalize 0x100 + (clampedBreaksize frame.breaksize <<< 2) + 3 = x at *
  have hoctet : ∀ y ∈ (frame.data.read 0 (frame.payloadSize + 1)).map UInt8.toNat,
      rxfifoBreak y = false ∧ statusRxfifoEmpty y = false := by
    intro y hy
    obtain ⟨b, -, rfl⟩ := List.mem_map.1 hy
    exact word_of_lt b.toNat_lt
  have hback : ((frame.data.read 0 (frame.payloadSize + 1)).map UInt8.toNat).map rxfifoData =
      frame.data.read 0 (frame.payloadSize + 1) := by
    rw [List.map_map]
    exact List.map_id'' rxfifoData_toNat _
  have hall : (llSendFrame frame ++ [brk]).takeWhile (fun x => !statusRxfifoEmpty x) =
      x :: (frame.data.read 0 (frame.payloadSize + 1)).map UInt8.toNat ++ [brk] := by
    rw [hwords, List.takeWhile_eq_self_iff.2]
    intro y hy
    rcases List.mem_append.1 hy with hmem | hmem
    · rcases List.mem_cons.1 hmem with rfl | hmem
      · simp [hfirst']
      · simp [(hoctet y hmem).2]
    · rw [List.mem_singleton.1 hmem]
      simp [hthere]
  rw [Port.checkRxPort_eq_run, hall]
  obtain ⟨f, hdelivered, hoctets, hbreak⟩ := Port.deliver_segment hlock hsize portno hfirst hbrk
    (fun y hy => (hoctet y hy).1)
    (by rw [hback, Mem.read_succ, List.head?_cons, ← hstart]; rfl)
    (by rw [List.length_map, Mem.length_read]; omega)
  rw [hback] at hoctets
  refine ⟨f, hdelivered, ?_, hoctets, ?_⟩
  · have hlen := congrArg List.length hoctets
    rw [Frame.octets, Mem.length_read, Mem.length_read] at hlen
    exact hlen
  · rw [hbreak, hbreaksize, UInt8.toNat_ofNat']
    omega

/-- **No frame comes back with the size it had.** -/
theorem not_roundTrip (hlock : p.learned.locked = false) (hsize : p.frame.payloadSize = 0)
    (portno : ℕ) {frame : Frame} (hstart : frame.startcode = 0)
    (hmax : frame.payloadSize ≤ 512) {brk : ℕ} (hbrk : rxfifoBreak brk = true)
    (hthere : statusRxfifoEmpty brk = false) : ¬ RoundTrip p portno frame brk := by
  rintro ⟨f, hdelivered, hsame, -⟩
  obtain ⟨f', hdelivered', hmore, -⟩ :=
    sendFrame_delivered hlock hsize portno hstart hmax hbrk hthere
  rw [hdelivered'] at hdelivered
  obtain rfl : f' = f := by simpa using hdelivered
  omega

/-- A frame of one slot. -/
def oneSlot : Frame := ⟨0, 0, 22, 0, 1, fun _ => 0⟩

theorem not_roundTrip_oneSlot :
    oneSlot.startcode = 0 ∧ oneSlot.payloadSize = 1 ∧ ¬ RoundTrip (Port.init true) 0 oneSlot 0x15b :=
  ⟨rfl, rfl, not_roundTrip rfl rfl 0 rfl (by decide) (by decide) (by decide)⟩

/-- One slot is sent, and two are received. -/
theorem oneSlot_grows : ¬ RoundTrip (Port.init true) 0 oneSlot 0x15b := by
  rintro ⟨f, hdelivered, hsame, -⟩
  have hstart : oneSlot.startcode = 0 := rfl
  have hbrk : rxfifoBreak 0x15b = true := by decide
  obtain ⟨f', hdelivered', hmore, -⟩ := sendFrame_delivered (p := Port.init true) rfl rfl 0
    hstart (by decide) hbrk (by decide)
  rw [hdelivered'] at hdelivered
  obtain rfl : f' = f := by simpa using hdelivered
  omega

end Llgip

end Dmx4Linux2
