import Mathlib.Data.List.Infix
import Mathlib.Data.Nat.Notation

/-!
# Streaks

The last `k` of what was seen were all the same: a suffix of so many equal
items. One more of the same makes the streak longer, and a long streak is a
short one too.
-/

namespace Dmx4Linux2

variable {α : Type*} {xs : List α} {x : α} {k n : ℕ}

/-- One more of the same. -/
theorem replicate_suffix_concat (h : List.replicate k x <:+ xs) :
    List.replicate (k + 1) x <:+ xs ++ [x] := by
  rw [List.replicate_succ']
  exact List.suffix_append_self_iff.2 h

/-- The first of a streak. -/
theorem replicate_one_suffix (xs : List α) (x : α) : List.replicate (0 + 1) x <:+ xs ++ [x] :=
  replicate_suffix_concat List.nil_suffix

theorem replicate_suffix_of_le (h : List.replicate n x <:+ xs) (hle : k ≤ n) :
    List.replicate k x <:+ xs := by
  refine List.IsSuffix.trans ?_ h
  rw [List.suffix_replicate_iff]
  exact ⟨by simpa using hle, by simp⟩

/-- A streak goes on. -/
theorem replicate_suffix_again (h : List.replicate k x <:+ xs) :
    List.replicate k x <:+ xs ++ [x] :=
  replicate_suffix_of_le (replicate_suffix_concat h) (Nat.le_succ k)

end Dmx4Linux2
