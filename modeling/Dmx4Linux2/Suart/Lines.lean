import Dmx4Linux2.Common.Run
import Dmx4Linux2.Suart.Model.Handler

/-!
# suart — the output lines

An event changes the lines in its mask to the levels in its value, by way
of the bits of the modem control register that they are kept in. The
register header gives `PC16550_MCR_LOOP` the bit of `PC16550_MCR_OUT2`,
so that two of the lines are one; `lines_independent_iff` says for which
events this does not show.
-/

namespace Dmx4Linux2

namespace Suart

/-- The output lines. -/
inductive Line
  | rts
  | dtr
  | out0
  | out1
  | gpio0
  deriving DecidableEq

namespace Line

/-- The bit of the line in an event. -/
def suartLine : Line → UInt32
  | .rts => lineRts
  | .dtr => lineDtr
  | .out0 => lineOut0
  | .out1 => lineOut1
  | .gpio0 => lineGpio0

/-- The number of its bit in the modem control register. -/
def mcrBit : Line → ℕ
  | .rts => 1
  | .dtr => 0
  | .out0 => 2
  | .out1 => 3
  | .gpio0 => 3

variable (line : Line)

/-- The line is in a mask, or its level is in a value. -/
def isIn (v : UInt32) : Bool := v &&& line.suartLine ≠ 0

theorem isIn_iff {v : UInt32} : line.isIn v = true ↔ v &&& line.suartLine ≠ 0 := decide_eq_true_iff

/-- The level of the line: its bit in the register. -/
def level (mcr : UInt8) : Bool := mcr.toBitVec.getLsbD line.mcrBit

end Line

/-- The mask and the value of a `STREAMUART_EVENT_CHANGE_LINE`. -/
structure LineChange where
  mask : UInt32
  value : UInt32

def LineChange.apply (mcr : UInt8) (c : LineChange) : UInt8 := changeLine mcr c.mask c.value

/-- The level that the last change with the line in its mask gives to it,
0 if there is none. -/
def lastGiven (line : Line) (changes : List LineChange) : Bool :=
  ((changes.filter fun c => line.isIn c.mask).getLast?.map fun c => line.isIn c.value).getD false

/-! ## One change -/

/-- OUT1 and GPIO0 have one bit. -/
def Line.shared (line : Line) : Prop := line = .out1 ∨ line = .gpio0

instance (line : Line) : Decidable line.shared := inferInstanceAs (Decidable (_ ∨ _))

/-- The bit of the line is set for a value. -/
def Line.isSet (line : Line) (v : UInt32) : Bool :=
  if line.shared then Line.out1.isIn v || Line.gpio0.isIn v else line.isIn v

theorem ite_getLsbD (p : Prop) [Decidable p] (x : UInt8) (i : ℕ) :
    (if p then x else 0).toBitVec.getLsbD i = (decide p && x.toBitVec.getLsbD i) := by
  by_cases hp : p
  · simp [hp]
  · simp [hp]

theorem lineToMcr_level (line : Line) (v : UInt32) : line.level (lineToMcr v) = line.isSet v := by
  rw [Bool.eq_iff_iff]
  simp only [Line.level, lineToMcr, UInt8.toBitVec_or, BitVec.getLsbD_or, ite_getLsbD, Line.isSet]
  cases line <;> simp [Line.mcrBit, Line.isIn_iff, Line.suartLine, Line.shared]

/-- **What a change does to a line**: if its bit is set for the mask it
becomes what it is for the value. -/
theorem apply_level (line : Line) (mcr : UInt8) (c : LineChange) :
    line.level (c.apply mcr) =
      if line.isSet c.mask then line.isSet c.value else line.level mcr := by
  have hbit : line.mcrBit < 8 := by cases line <;> decide
  rw [← lineToMcr_level, ← lineToMcr_level]
  simp only [Line.level, LineChange.apply, changeLine, changeMcrBits, UInt8.toBitVec_or,
    UInt8.toBitVec_and, UInt8.toBitVec_not, BitVec.getLsbD_or, BitVec.getLsbD_and,
    BitVec.getLsbD_not, hbit, decide_true, Bool.true_and]
  by_cases hmask : (lineToMcr c.mask).toBitVec.getLsbD line.mcrBit = true
  · simp [hmask]
  · simp [hmask]

/-- What the change should make of a line. -/
def LineChange.wanted (c : LineChange) (mcr : UInt8) (line : Line) : Bool :=
  if line.isIn c.mask then line.isIn c.value else line.level mcr

/-- **The change does not tell OUT1 from GPIO0**: if it is to change one
of them, then both are to have the same level after it, and this is 1
just when one of their bits is in the value. -/
def LineChange.Agrees (mcr : UInt8) (c : LineChange) : Prop :=
  Line.out1.isIn c.mask = true ∨ Line.gpio0.isIn c.mask = true →
    c.wanted mcr .out1 = (Line.out1.isIn c.value || Line.gpio0.isIn c.value) ∧
      c.wanted mcr .gpio0 = (Line.out1.isIn c.value || Line.gpio0.isIn c.value)

/-- **Which changes do what they should** to every line. -/
theorem wanted_iff (mcr : UInt8) (c : LineChange) :
    (∀ line : Line, line.level (c.apply mcr) = c.wanted mcr line) ↔ c.Agrees mcr := by
  have hshared : ∀ line : Line, line.shared → line.level (c.apply mcr) =
      if Line.out1.isIn c.mask || Line.gpio0.isIn c.mask then
        Line.out1.isIn c.value || Line.gpio0.isIn c.value
      else line.level mcr := by
    intro line hline
    rw [apply_level, Line.isSet, Line.isSet, if_pos hline, if_pos hline]
  constructor
  · intro h hmask
    have hset : (Line.out1.isIn c.mask || Line.gpio0.isIn c.mask) = true := by simpa using hmask
    rw [← h .out1, ← h .gpio0, hshared .out1 (Or.inl rfl), hshared .gpio0 (Or.inr rfl),
      if_pos hset, if_pos hset]
    exact ⟨rfl, rfl⟩
  · intro h line
    by_cases hline : line.shared
    · by_cases hmask : Line.out1.isIn c.mask = true ∨ Line.gpio0.isIn c.mask = true
      · have hset : (Line.out1.isIn c.mask || Line.gpio0.isIn c.mask) = true := by
          simpa using hmask
        rw [hshared line hline, if_pos hset]
        rcases hline with rfl | rfl
        · exact (h hmask).1.symm
        · exact (h hmask).2.symm
      · -- neither of the two is to be changed
        have hclear : (Line.out1.isIn c.mask || Line.gpio0.isIn c.mask) = false := by
          simpa using hmask
        obtain ⟨hout1, hgpio0⟩ := not_or.1 hmask
        rw [hshared line hline, hclear, LineChange.wanted]
        rcases hline with rfl | rfl
        · rw [if_neg hout1]
          rfl
        · rw [if_neg hgpio0]
          rfl
    · rw [apply_level, Line.isSet, Line.isSet, if_neg hline, if_neg hline]
      rfl

/-! ## Changes one after the other -/

/-- **The lines have the levels that were given to them last.** -/
def Given (changes : List LineChange) (mcr : UInt8) : Prop :=
  ∀ line : Line, line.level mcr = lastGiven line changes

/-- **A change leaves alone what is not in its mask.** -/
def LineChange.Leaves (mcr : UInt8) (c : LineChange) : Prop :=
  ∀ line : Line, line.isIn c.mask = false → line.level (c.apply mcr) = line.level mcr

theorem lastGiven_concat (line : Line) (changes : List LineChange) (c : LineChange) :
    lastGiven line (changes ++ [c]) =
      if line.isIn c.mask then line.isIn c.value else lastGiven line changes := by
  unfold lastGiven
  rw [List.filter_append, List.filter_singleton]
  cases hmask : line.isIn c.mask <;> simp

/-- Where the lines are as they were given, a change keeps them so if it
does what it should to every line. -/
theorem given_concat_iff {changes : List LineChange} {mcr : UInt8} (h : Given changes mcr)
    (c : LineChange) :
    Given (changes ++ [c]) (c.apply mcr) ↔
      ∀ line : Line, line.level (c.apply mcr) = c.wanted mcr line := by
  have hwanted : ∀ line : Line, lastGiven line (changes ++ [c]) = c.wanted mcr line := by
    intro line
    rw [lastGiven_concat, LineChange.wanted, h line]
  simp only [Given, hwanted]

/-- A register with the changes that led to it. -/
structure Register where
  mcr : UInt8
  changes : List LineChange

def Register.step (r : Register) (c : LineChange) : Register := ⟨c.apply r.mcr, r.changes ++ [c]⟩

theorem run_register (mcr : UInt8) (done changes : List LineChange) :
    run Register.step ⟨mcr, done⟩ changes =
      ⟨run (fun mcr c => c.apply mcr) mcr changes, done ++ changes⟩ := by
  induction changes generalizing mcr done with
  | nil => simp
  | cons c changes ih => simp [Register.step, ih]

/-- **When the lines are independent**, from the register as it is
initialised and for every sequence of changes: when no change tells OUT1
from GPIO0. -/
theorem lines_independent_iff (changes : List LineChange) :
    ((∀ pre, pre <+: changes → Given pre (run (fun mcr c => c.apply mcr) 0 pre)) ∧
      EachStep (fun mcr c => c.apply mcr) LineChange.Leaves 0 changes) ↔
        EachStep (fun mcr c => c.apply mcr) LineChange.Agrees 0 changes := by
  have hrule : (Always Register.step (fun r => Given r.changes r.mcr) ⟨0, []⟩ changes ∧
      EachStep Register.step (fun r c => c.Leaves r.mcr) ⟨0, []⟩ changes) ↔
        EachStep Register.step (fun r c => c.Agrees r.mcr) ⟨0, []⟩ changes := by
    refine always_and_eachStep_iff (fun _ _ (_ : True) => trivial) (fun r c _ h => ?_) trivial ?_
    · rw [← wanted_iff, Register.step, given_concat_iff h c]
      -- a line that is not in the mask is to have the level it has
      refine ⟨fun hgood => hgood.1, fun hwanted => ⟨hwanted, fun line hline => ?_⟩⟩
      rw [hwanted line, LineChange.wanted, if_neg (by simp [hline])]
    · intro line
      cases line <;> rfl
  simpa only [Always, EachStep, run_register, List.nil_append] using hrule

/-- OUT1 is set, and GPIO0 with it. -/
theorem out1_sets_gpio0 :
    ¬ ((∀ pre, pre <+: [⟨lineOut1, lineOut1⟩] →
        Given pre (run (fun mcr c => LineChange.apply mcr c) 0 pre)) ∧
      EachStep (fun mcr c => LineChange.apply mcr c) LineChange.Leaves 0
        [⟨lineOut1, lineOut1⟩]) := by
  intro h
  have hgpio0 := h.1 [⟨lineOut1, lineOut1⟩] (List.prefix_refl _) .gpio0
  exact absurd hgpio0 (by decide)

end Suart

end Dmx4Linux2
