import Mathlib.Data.List.Basic
import Mathlib.Data.Nat.Notation

/-!
# Masks

A word of 64 bits as the set of its bits. Two masks are equal if they have
the same bits (`eq_of_has`), the operators of C are those of sets, and a
mask collected in a loop has the bits that were put into it
(`has_collect`).
-/

namespace Dmx4Linux2

namespace Mask

variable {m n : UInt64} {j : ℕ}

/-- **The mask has the bit.** -/
def Has (m : UInt64) (j : ℕ) : Prop := m.toBitVec.getLsbD j = true

instance : Decidable (Has m j) := inferInstanceAs (Decidable (_ = true))

@[simp] theorem has_or : Has (m ||| n) j ↔ Has m j ∨ Has n j := by
  simp [Has, UInt64.toBitVec_or]

@[simp] theorem has_and : Has (m &&& n) j ↔ Has m j ∧ Has n j := by
  simp [Has, UInt64.toBitVec_and]

theorem has_not (hj : j < 64) : Has (~~~ m) j ↔ ¬ Has m j := by
  simp [Has, UInt64.toBitVec_not, hj]

theorem has_and_not (hj : j < 64) (h : ¬ Has n j) : Has (m &&& ~~~ n) j ↔ Has m j := by
  rw [has_and, has_not hj, and_iff_left h]

@[simp] theorem not_has_zero : ¬ Has 0 j := by simp [Has]

theorem eq_of_has (h : ∀ j < 64, Has m j ↔ Has n j) : m = n := by
  refine UInt64.toBitVec_inj.1 (BitVec.eq_of_getLsbD_eq fun j hj => ?_)
  exact Bool.eq_iff_iff.2 (h j hj)

/-- Only the empty mask has no bit. -/
theorem ne_zero_iff : m ≠ 0 ↔ ∃ j < 64, Has m j := by
  constructor
  · intro h
    by_contra hnone
    refine h (eq_of_has fun j hj => iff_of_false (fun hm => hnone ⟨j, hj, hm⟩) not_has_zero)
  · rintro ⟨j, -, hj⟩ rfl
    exact not_has_zero hj

/-- The test of a single bit. -/
theorem and_ne_zero_iff {i : ℕ} (hi : i < 64) (hn : ∀ j < 64, Has n j ↔ j = i) :
    m &&& n ≠ 0 ↔ Has m i := by
  rw [ne_zero_iff]
  constructor
  · rintro ⟨j, hj, hhas⟩
    rw [has_and, hn j hj] at hhas
    exact hhas.2 ▸ hhas.1
  · intro hhas
    exact ⟨i, hi, has_and.2 ⟨hhas, (hn i hi).2 rfl⟩⟩

/-- Bits that are there are not added, -/
theorem or_eq_left (h : m &&& n = n) : m ||| n = m := by
  refine eq_of_has fun j _ => ?_
  rw [← h, has_or, has_and]
  exact or_iff_left_of_imp And.left

/-- and those that are taken away are gone. -/
theorem eq_zero_of_and_not (h : m &&& n = n) (hnot : m &&& ~~~ n = m) : n = 0 := by
  refine eq_of_has fun j hj => iff_of_false (fun hn => ?_) not_has_zero
  have hm : Has m j := by
    rw [← h, has_and] at hn
    exact hn.1
  rw [← hnot, has_and, has_not hj] at hm
  exact hm.2 hn

/-- Some of the bits are there if some of those are that are left. -/
theorem and_ne_zero_of_and_not {k : UInt64} (h : (m &&& ~~~ n) &&& k ≠ 0) : m &&& k ≠ 0 := by
  obtain ⟨j, hj, hhas⟩ := ne_zero_iff.1 h
  rw [has_and, has_and] at hhas
  exact ne_zero_iff.2 ⟨j, hj, has_and.2 ⟨hhas.1.1, hhas.2⟩⟩

/-- The bits taken away are not there. -/
theorem and_not_and (m n : UInt64) : (m &&& ~~~ n) &&& n = 0 := by
  refine eq_of_has fun j hj => iff_of_false (fun h => ?_) not_has_zero
  rw [has_and, has_and, has_not hj] at h
  exact h.1.2 h.2

/-- Others are left. -/
theorem and_not_and_of_disjoint {k : UInt64} (h : n &&& k = 0) : (m &&& ~~~ n) &&& k = m &&& k := by
  refine eq_of_has fun j hj => ?_
  have hnot : ¬ (Has n j ∧ Has k j) := by
    rw [← has_and, h]
    exact not_has_zero
  rw [has_and, has_and, has_and, has_not hj]
  exact ⟨fun hhas => ⟨hhas.1.1, hhas.2⟩, fun hhas => ⟨⟨hhas.1, fun hn => hnot ⟨hn, hhas.2⟩⟩, hhas.2⟩⟩

/-- Some of the bits of one of two masks. -/
theorem or_and_ne_zero {k : UInt64} (h : (m ||| n) &&& k ≠ 0) : m &&& k ≠ 0 ∨ n &&& k ≠ 0 := by
  obtain ⟨j, hj, hhas⟩ := ne_zero_iff.1 h
  rw [has_and, has_or] at hhas
  rcases hhas.1 with hm | hn
  · exact .inl (ne_zero_iff.2 ⟨j, hj, has_and.2 ⟨hm, hhas.2⟩⟩)
  · exact .inr (ne_zero_iff.2 ⟨j, hj, has_and.2 ⟨hn, hhas.2⟩⟩)

/-- **The bits that a loop collects.** -/
theorem has_collect {ι : Type*} {p : ι → Prop} [DecidablePred p] {bits : ι → UInt64} {l : List ι} :
    Has (l.foldl (fun m i => if p i then m ||| bits i else m) n) j ↔
      Has n j ∨ ∃ i ∈ l, p i ∧ Has (bits i) j := by
  induction l generalizing n with
  | nil => simp
  | cons i l ih =>
    rw [List.foldl_cons, ih]
    by_cases hi : p i
    · rw [if_pos hi, has_or, or_assoc]
      simp [hi]
    · rw [if_neg hi]
      simp [hi]

end Mask

end Dmx4Linux2
