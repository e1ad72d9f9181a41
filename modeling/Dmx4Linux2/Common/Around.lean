import Mathlib.Algebra.Order.Group.Int
import Mathlib.Data.List.Basic

/-!
# Memory around an object

The byte at each offset from the start of an object, in front of it as
well as in it and behind it, for what a C program does with an index that
nothing bounds from below.
-/

namespace Dmx4Linux2

/-- **Memory around an object**: the byte at each offset from its start. -/
abbrev Around := ℤ → UInt8

namespace Around

variable {m m' : Around} {p q i : ℤ} {n k : ℕ} {bs : List UInt8}

/-- The `n` bytes from offset `p` on. -/
def read (m : Around) (p : ℤ) (n : ℕ) : List UInt8 := (List.range n).map fun i : ℕ => m (p + i)

/-- Store a block at offset `p`; every other byte is kept. -/
def write (m : Around) (p : ℤ) (bs : List UInt8) : Around := fun i =>
  if p ≤ i then (bs[(i - p).toNat]?).getD (m i) else m i

@[simp] theorem length_read : (m.read p n).length = n := by simp [read]

theorem read_congr (h : ∀ i : ℕ, i < n → m (p + i) = m' (p + i)) : m.read p n = m'.read p n :=
  List.map_congr_left fun i hi => h i (List.mem_range.1 hi)

/-- Two adjacent reads are one. -/
theorem read_add : m.read p (n + k) = m.read p n ++ m.read (p + n) k := by
  simp only [read, List.range_add, List.map_append, List.map_map]
  congr 1
  refine List.map_congr_left fun i _ => ?_
  simp only [Function.comp_apply, Int.natCast_add, add_assoc]

/-- A write changes only the block it stores. -/
theorem write_apply_outside (h : i < p ∨ p + bs.length ≤ i) : m.write p bs i = m i := by
  unfold write
  split
  · rw [List.getElem?_eq_none (by omega), Option.getD_none]
  · rfl

/-- A block just written is read back. -/
theorem read_write (h : bs.length = n) : (m.write p bs).read p n = bs := by
  refine List.ext_getElem (by simp [h]) fun i hi hbs => ?_
  simp [read, write, hbs]

/-- A read is blind to a write elsewhere. -/
theorem read_write_outside (h : q + n ≤ p ∨ p + bs.length ≤ q) :
    (m.write p bs).read q n = m.read q n :=
  read_congr fun i hi => write_apply_outside (by omega)

/-- A second write of as many bytes leaves nothing of the first. -/
theorem write_write {cs : List UInt8} (h : bs.length = cs.length) :
    (m.write p bs).write p cs = m.write p cs := by
  funext i
  by_cases hout : i < p ∨ p + cs.length ≤ i
  · rw [write_apply_outside hout, write_apply_outside hout, write_apply_outside (by omega)]
  · have hle : p ≤ i := by omega
    have hlt : (i - p).toNat < cs.length := by omega
    simp [write, hle, hlt]

end Around

end Dmx4Linux2
