import Dmx4Linux2.Common.Bisection
import Mathlib.Algebra.Order.BigOperators.Group.List
import Mathlib.Data.Nat.Size
import Mathlib.Tactic.Ring

/-!
# Bisection search — how many queries

A range can be halved about as often as its length has binary digits. The
search of a separable set halves a range only where two numbers are hidden, so
each hidden number costs it one query for every such halving and one to be
found, and one query ends it (`Steps.le_budget`).
-/

namespace Dmx4Linux2

namespace Bisection

variable {s t : Search} {a b : ℕ × ℕ} {S T : Finset ℕ} {lo hi n : ℕ}

/-- How often a range can be halved until its length is two. -/
def depth (a : ℕ × ℕ) : ℕ := Nat.size (a.2 - a.1 - 1)

/-- What a range may cost: a query, and its depth and one more for each number
that is hidden in it. -/
def price (S : Finset ℕ) (a : ℕ × ℕ) : ℕ := 1 + (depth a + 1) * (inRange a S).card

/-- What the search may still cost. -/
def budget (s : Search) : ℕ := (s.pending.map (price s.hidden)).sum

/-- What is left of a separable set is separable. -/
theorem Separable.mono (h : Separable T lo hi) (hsub : S ⊆ T) : Separable S lo hi :=
  fun u hlead hu hu' => h u hlead (hsub hu) (hsub hu')

theorem price_mono (h : S ⊆ T) (a : ℕ × ℕ) : price S a ≤ price T a := by
  have hcard : (inRange a S).card ≤ (inRange a T).card :=
    Finset.card_le_card (Finset.filter_subset_filter _ h)
  exact Nat.add_le_add_left (Nat.mul_le_mul_left _ hcard) 1

/-- **A half can be halved once less.** -/
theorem depth_lt_of_mem_halves (hlen : a.1 + 2 ≤ a.2) (hb : b ∈ halves a) : depth b < depth a := by
  have hpos : 0 < Nat.size (a.2 - a.1 - 1) := Nat.size_pos.2 (by omega)
  obtain ⟨k, hk⟩ : ∃ k, Nat.size (a.2 - a.1 - 1) = k + 1 := ⟨_, (Nat.succ_pred_eq_of_pos hpos).symm⟩
  have hlt : a.2 - a.1 - 1 < 2 ^ (k + 1) := Nat.size_le.1 hk.le
  rw [Nat.pow_succ] at hlt
  rw [depth, depth, hk, Nat.lt_succ_iff, Nat.size_le]
  rcases mem_halves.1 hb with rfl | rfl
  · simp only
    omega
  · simp only
    omega

/-- The numbers of a range are those of its halves. -/
theorem card_halves (hlen : a.1 + 2 ≤ a.2) :
    (inRange (a.1, (a.1 + a.2) / 2 - 1) S).card + (inRange ((a.1 + a.2) / 2, a.2) S).card =
      (inRange a S).card := by
  have hdisjoint : Disjoint (inRange (a.1, (a.1 + a.2) / 2 - 1) S)
      (inRange ((a.1 + a.2) / 2, a.2) S) := by
    refine Finset.disjoint_left.2 fun u hu hu' => ?_
    have h := (mem_inRange.1 hu).2.2
    have h' := (mem_inRange.1 hu').2.1
    simp only at h h'
    omega
  rw [← Finset.card_union_of_disjoint hdisjoint]
  congr 1
  ext u
  rw [Finset.mem_union, mem_inRange, mem_inRange, mem_inRange]
  simp only
  constructor
  · rintro (⟨hu, h⟩ | ⟨hu, h⟩)
    · exact ⟨hu, by omega⟩
    · exact ⟨hu, by omega⟩
  · rintro ⟨hu, h⟩
    rcases Nat.lt_or_ge u ((a.1 + a.2) / 2) with hlt | hge
    · exact Or.inl ⟨hu, by omega⟩
    · exact Or.inr ⟨hu, hge, h.2⟩

/-- **The halves are cheaper**, where two numbers are to be told apart. -/
theorem price_halves (hlen : a.1 + 2 ≤ a.2) (hmany : 1 < (inRange a S).card) :
    ((halves a).map (price S)).sum < price S a := by
  have hlow := depth_lt_of_mem_halves hlen (mem_halves.2 (Or.inl rfl))
  have hhigh := depth_lt_of_mem_halves hlen (mem_halves.2 (Or.inr rfl))
  have hcard := card_halves (S := S) hlen
  simp only [halves, List.map_cons, List.map_nil, List.sum_cons, List.sum_nil, price]
  generalize (inRange (a.1, (a.1 + a.2) / 2 - 1) S).card = x at *
  generalize (inRange ((a.1 + a.2) / 2, a.2) S).card = y at *
  have hx := Nat.mul_le_mul_right x hlow
  have hy := Nat.mul_le_mul_right y hhigh
  have hsum : (depth a + 1) * (inRange a S).card =
      depth a * x + depth a * y + (inRange a S).card := by
    rw [← hcard]
    ring
  simp only [Nat.succ_eq_add_one] at hx hy
  omega

/-- **A query is paid for.** -/
theorem budget_step (hsep : Separable S lo hi) (h : Shrinking S lo hi s) (hst : Step s t) :
    budget t < budget s := by
  cases hst with
  | @none a rest found hidden hempty =>
    simp only [budget, List.map_cons, List.sum_cons, price]
    omega
  | @one a rest found hidden u hone =>
    have hsub : hidden.erase u ⊆ hidden := Finset.erase_subset u hidden
    have hrest : (rest.map (price (hidden.erase u))).sum ≤ (rest.map (price hidden)).sum :=
      List.sum_le_sum fun b _ => price_mono hsub b
    -- the number that was found is not hidden any more
    have hnone : inRange a (hidden.erase u) = ∅ := by
      refine Finset.eq_empty_of_forall_notMem fun v hv => ?_
      obtain ⟨hvh, hva⟩ := mem_inRange.1 hv
      obtain ⟨hne, hvh⟩ := Finset.mem_erase.1 hvh
      have hvu : v ∈ inRange a hidden := mem_inRange.2 ⟨hvh, hva⟩
      rw [hone] at hvu
      exact hne (Finset.mem_singleton.1 hvu)
    have hbefore : price hidden a = 1 + (depth a + 1) := by
      rw [price, hone, Finset.card_singleton, Nat.mul_one]
    have hafter : price (hidden.erase u) a = 1 := by
      rw [price, hnone, Finset.card_empty, Nat.mul_zero]
    simp only [budget, List.map_cons, List.map_append, List.map_nil, List.sum_cons,
      List.sum_append, List.sum_nil, hbefore, hafter]
    omega
  | @many a rest found hidden hmany =>
    have hlen : a.1 + 2 ≤ a.2 := h.two_lt hsep List.mem_cons_self hmany
    have hhalves := price_halves hlen hmany
    simp only [budget, List.map_cons, List.map_append, List.sum_cons, List.sum_append]
    omega

/-- **The queries of a search are bounded by its budget.** -/
theorem Steps.le_budget (hsep : Separable S lo hi) (hst : Steps n s t) (h : Shrinking S lo hi s) :
    n + budget t ≤ budget s := by
  induction hst with
  | refl s => omega
  | head hst _ ih =>
    have hlt := budget_step hsep h hst
    have hrest := ih (h.step hsep hst).1
    omega

/-- A search is over when its budget is. -/
theorem pending_eq_nil_of_budget (h : budget s = 0) : s.pending = [] := by
  rcases hp : s.pending with _ | ⟨a, rest⟩
  · rfl
  · rw [budget, hp, List.map_cons, List.sum_cons, price] at h
    omega

end Bisection

end Dmx4Linux2
