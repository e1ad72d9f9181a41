import Dmx4Linux2.Core.Model.Framequeue
import Mathlib.Algebra.Order.Group.Multiset
import Mathlib.Data.Multiset.Range

/-!
# dmx512 core — the entries of a queue

Which entries a queue holds, whatever their order and the frames in them.
-/

namespace Dmx4Linux2

namespace Core

namespace Framequeue

/-- The entries of a queue. -/
def ids (q : Framequeue) : Multiset ℕ := (q.map Entry.id : List ℕ)

@[simp] theorem ids_nil : ids [] = 0 := rfl

theorem ids_cons (e : Entry) (q : Framequeue) : ids (e :: q) = ids q + {e.id} := by
  rw [add_comm]
  rfl

theorem ids_put (q : Framequeue) (e : Entry) : ids (q.put (some e)) = ids q + {e.id} := by
  simp [ids, put, ← Multiset.coe_add]

theorem ids_eq_zero {q : Framequeue} : q.ids = 0 ↔ q = [] := by
  simp [ids]

theorem ids_allocated (n : ℕ) (garbage : ℕ → Frame) :
    ids (allocated n garbage) = Multiset.range n := by
  induction n with
  | zero => rfl
  | succ n ih =>
    have hlast : allocated (n + 1) garbage = (allocated n garbage).put (some ⟨n, garbage n⟩) := by
      simp only [allocated, List.range_succ, List.foldl_append, List.foldl_cons, List.foldl_nil]
    rw [hlast, ids_put, ih, Multiset.range_succ, ← Multiset.singleton_add, add_comm]

theorem length_allocated (n : ℕ) (garbage : ℕ → Frame) : (allocated n garbage).length = n := by
  have hcard := congrArg Multiset.card (ids_allocated n garbage)
  simpa [ids] using hcard

end Framequeue

/-- A frame with one byte, on port 0. -/
def Frame.single : Frame := ⟨0, 0, 0, 1, Vector.replicate 513 0, ⟨0, 0⟩, ⟨0, 0⟩⟩

end Core

end Dmx4Linux2
