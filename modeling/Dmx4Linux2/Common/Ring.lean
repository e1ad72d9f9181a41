import Mathlib.Data.List.Basic
import Mathlib.Data.Nat.Notation
import Mathlib.Logic.Function.Basic
import Mathlib.Tactic.SplitIfs

/-!
# Rings

A ring of `n` cells with two positions below `n`: items are taken at the
one and stored at the other, and both move forward and come round. The
items in the ring are the cells from the one up to the other, so one cell
is always free: a ring that is empty and one that is full would have the
same positions.
-/

namespace Dmx4Linux2

namespace Ring

variable {α : Type*} {n p q : ℕ} {cells : ℕ → α} {x : α}

/-- The position behind `p`. -/
def next (n p : ℕ) : ℕ := if p + 1 = n then 0 else p + 1

/-- The position `i` cells behind `p`, at most once round. -/
def behind (n p i : ℕ) : ℕ := if p + i < n then p + i else p + i - n

/-- How many cells there are from `p` up to `q`. -/
def distance (n p q : ℕ) : ℕ := if p ≤ q then q - p else q + n - p

/-- The items from `p` up to `q`. -/
def items (n : ℕ) (cells : ℕ → α) (p q : ℕ) : List α :=
  (List.range (distance n p q)).map fun i => cells (behind n p i)

@[simp] theorem length_items : (items n cells p q).length = distance n p q := by
  simp [items]

@[simp] theorem distance_self : distance n p p = 0 := by simp [distance]

@[simp] theorem items_self : items n cells p p = [] := by simp [items]

/-! ## Positions -/

theorem next_lt (hp : p < n) : next n p < n := by
  unfold next
  split <;> omega

theorem distance_lt (hp : p < n) (hq : q < n) : distance n p q < n := by
  unfold distance
  split <;> omega

theorem distance_eq_zero_iff (hp : p < n) : distance n p q = 0 ↔ p = q := by
  unfold distance
  split <;> omega

/-- **The ring is full** when all cells but one are taken. -/
theorem next_eq_iff (hp : p < n) (hq : q < n) : next n q = p ↔ distance n p q = n - 1 := by
  unfold next distance
  split <;> split <;> omega

theorem distance_next_right (hp : p < n) (h : next n q ≠ p) :
    distance n p (next n q) = distance n p q + 1 := by
  unfold next at h ⊢
  unfold distance
  split_ifs at h ⊢ <;> omega

theorem distance_next_left (hp : p < n) (hq : q < n) (h : p ≠ q) :
    distance n p q = distance n (next n p) q + 1 := by
  unfold distance next
  split_ifs <;> omega

/-- Behind the items is where the next is stored. -/
theorem behind_distance (hp : p < n) (hq : q < n) : behind n p (distance n p q) = q := by
  unfold behind distance
  split <;> split <;> omega

theorem behind_ne (hp : p < n) {i : ℕ} (hi : i < distance n p q) :
    behind n p i ≠ q := by
  unfold distance at hi
  unfold behind
  split at hi <;> split <;> omega

theorem behind_next {i : ℕ} (hi : i + 1 < n) :
    behind n p (i + 1) = behind n (next n p) i := by
  unfold behind next
  split_ifs <;> omega

/-! ## Items -/

/-- **An item is stored behind those that are there.** -/
theorem items_store (hp : p < n) (hq : q < n) (h : next n q ≠ p) :
    items n (Function.update cells q x) p (next n q) = items n cells p q ++ [x] := by
  rw [items, distance_next_right hp h, List.range_succ, List.map_append, List.map_singleton,
    behind_distance hp hq, Function.update_self]
  congr 1
  refine List.map_congr_left fun i hi => ?_
  exact Function.update_of_ne (behind_ne hp (List.mem_range.1 hi)) _ _

/-- **The first item is the one that is taken.** -/
theorem items_take (hp : p < n) (hq : q < n) (h : p ≠ q) :
    items n cells p q = cells p :: items n cells (next n p) q := by
  have hfirst : behind n p 0 = p := by simp [behind, hp]
  rw [items, distance_next_left hp hq h, List.range_succ_eq_map, List.map_cons, List.map_map,
    hfirst]
  congr 1
  refine List.map_congr_left fun i hi => ?_
  have hlt := distance_lt (next_lt hp) hq
  have hi' := List.mem_range.1 hi
  exact congrArg cells (behind_next (by omega))

end Ring

end Dmx4Linux2
