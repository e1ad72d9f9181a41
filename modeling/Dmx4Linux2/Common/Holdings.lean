import Mathlib.Algebra.BigOperators.Group.Finset.Piecewise
import Mathlib.Algebra.Order.Group.Multiset

/-!
# Holdings

Things that are in a pool or held at one of finitely many places. The
lemmas say what becomes of all of them together when something is taken
out of the pool and put to a place, goes back, or is replaced where it
was. That the holdings are a multiset without duplicates is that each
thing is in one place only.
-/

namespace Dmx4Linux2

variable {κ α : Type*} [Fintype κ]

/-- **All that is in the pool or held at a place.** -/
def holdings (pool : Multiset α) (held : κ → Multiset α) : Multiset α := pool + ∑ k, held k

variable (pool : Multiset α) (held : κ → Multiset α) (k : κ) (s t : Multiset α)

theorem holdings_add : holdings (pool + t) held = holdings pool held + t := by
  unfold holdings
  ac_rfl

variable [DecidableEq κ]

/-- What is held at a place is replaced by something else. -/
theorem holdings_update_add :
    holdings pool (Function.update held k s) + held k = holdings pool held + s := by
  have hsplit := Finset.sum_erase_add Finset.univ held (Finset.mem_univ k)
  unfold holdings
  rw [Finset.sum_update_of_mem (Finset.mem_univ k), ← hsplit, Finset.sdiff_singleton_eq_erase]
  ac_rfl

/-- **Replacing keeps the holdings just when nothing changes.** -/
theorem holdings_update_iff :
    holdings pool (Function.update held k s) = holdings pool held ↔ s = held k := by
  have hadd := holdings_update_add pool held k s
  constructor
  · intro h
    rw [h] at hadd
    exact (add_left_cancel hadd).symm
  · rintro rfl
    exact add_right_cancel hadd

/-- Something is taken out of the pool and added at a place. -/
theorem holdings_take :
    holdings pool (Function.update held k (held k + t)) = holdings (pool + t) held := by
  have hadd := holdings_update_add pool held k (held k + t)
  refine add_right_cancel (b := held k) (hadd.trans ?_)
  unfold holdings
  ac_rfl

variable {held k s t} in
/-- Something is taken away at a place and put into the pool. -/
theorem holdings_put (h : held k = s + t) :
    holdings (pool + t) (Function.update held k s) = holdings pool held := by
  have hadd := holdings_update_add (pool + t) held k s
  refine add_right_cancel (b := held k) (hadd.trans ?_)
  rw [h]
  unfold holdings
  ac_rfl

end Dmx4Linux2
