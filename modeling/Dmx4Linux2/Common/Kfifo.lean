import Mathlib.Data.List.Infix
import Mathlib.Data.Nat.Notation

/-!
# Bounded FIFOs

A FIFO of at most `n` items. What is put in is appended as far as there
is space, and what is taken out is taken from the front. The `kfifo` that
programs use is a ring in memory of its own; here it is what it is assumed
to be, a bounded FIFO.
-/

namespace Dmx4Linux2

variable {α : Type*} {n : ℕ}

/-- **A FIFO with space for `n` items**, the front first. -/
structure Kfifo (α : Type*) (n : ℕ) where
  items : List α
  length_le : items.length ≤ n

namespace Kfifo

/-- A FIFO that was initialised. -/
def empty : Kfifo α n := ⟨[], Nat.zero_le n⟩

def len (f : Kfifo α n) : ℕ := f.items.length

def avail (f : Kfifo α n) : ℕ := n - f.items.length

/-- `kfifo_in`: as many of the items as fit are put in. -/
def put (f : Kfifo α n) (xs : List α) : Kfifo α n where
  items := f.items ++ xs.take f.avail
  length_le := by
    have hle := f.length_le
    simp only [List.length_append, List.length_take, avail]
    omega

@[simp] theorem put_items (f : Kfifo α n) (xs : List α) :
    (f.put xs).items = f.items ++ xs.take f.avail := rfl

/-- All of the items fit. -/
theorem put_items_of_le {f : Kfifo α n} {xs : List α} (h : f.items.length + xs.length ≤ n) :
    (f.put xs).items = f.items ++ xs := by
  rw [put_items, List.take_of_length_le]
  unfold avail
  omega

/-- `kfifo_out` of up to `k` items. -/
def out (f : Kfifo α n) (k : ℕ) : List α × Kfifo α n :=
  (f.items.take k, ⟨f.items.drop k, by
    have hle := f.length_le
    rw [List.length_drop]
    omega⟩)

/-- `kfifo_peek`. -/
def peek (f : Kfifo α n) : Option α := f.items.head?

end Kfifo

end Dmx4Linux2
