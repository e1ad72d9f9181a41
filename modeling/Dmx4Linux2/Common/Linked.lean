import Mathlib.Data.List.Nodup
import Mathlib.Logic.Function.Basic

/-!
# Linked lists in a heap

Pointer cells hold a node or nothing, and each node has a cell of its own
for the node behind it. `Linked` says which nodes are read off from a cell
on. A write outside of the cells passed does not change them, and a write
to the last of them appends.
-/

namespace Dmx4Linux2

variable {κ τ : Type*}

/-- **The nodes from a cell on**, up to a cell that holds nothing. -/
def Linked (next : τ → κ) (heap : κ → Option τ) : κ → List τ → Prop
  | c, [] => heap c = none
  | c, t :: ts => heap c = some t ∧ Linked next heap (next t) ts

/-- The cell that ends a list. -/
def endCell (next : τ → κ) : κ → List τ → κ
  | c, [] => c
  | _, t :: ts => endCell next (next t) ts

variable {next : τ → κ} {heap : κ → Option τ} {c : κ} {t : τ} {ts ts' : List τ}

/-- What is read off is determined. -/
theorem Linked.unique (h : Linked next heap c ts) (h' : Linked next heap c ts') : ts = ts' := by
  induction ts generalizing c ts' with
  | nil =>
    cases ts' with
    | nil => rfl
    | cons t ts' => exact absurd (h.symm.trans h'.1) (by simp)
  | cons t ts ih =>
    cases ts' with
    | nil => exact absurd (h.1.symm.trans h') (by simp)
    | cons t' ts' =>
      obtain rfl : t = t' := Option.some.inj (h.1.symm.trans h'.1)
      rw [ih h.2 h'.2]

/-- What the cell holds is the first node. -/
theorem Linked.cell_eq (h : Linked next heap c ts) : heap c = ts.head? := by
  cases ts with
  | nil => exact h
  | cons t ts => exact h.1

/-- It is read off from any cell that holds the same. -/
theorem Linked.of_cell_eq (h : Linked next heap c ts) {d : κ} (heq : heap d = heap c) :
    Linked next heap d ts := by
  cases ts with
  | nil => exact heq.trans h
  | cons t ts => exact ⟨heq.trans h.1, h.2⟩

/-- The cell that ends a list is that of one of its nodes, or the one it
was read off from. -/
theorem endCell_eq_or_mem (next : τ → κ) (c : κ) (ts : List τ) :
    endCell next c ts = c ∨ ∃ t ∈ ts, endCell next c ts = next t := by
  induction ts generalizing c with
  | nil => exact .inl rfl
  | cons t ts ih =>
    refine .inr ?_
    rcases ih (next t) with hself | ⟨u, hu, heq⟩
    · exact ⟨t, List.mem_cons_self, hself⟩
    · exact ⟨u, List.mem_cons_of_mem t hu, heq⟩

theorem endCell_concat (next : τ → κ) (c : κ) (ts : List τ) (t : τ) :
    endCell next c (ts ++ [t]) = next t := by
  induction ts generalizing c with
  | nil => rfl
  | cons u ts ih => exact ih (next u)

variable [DecidableEq κ]

/-- **A write elsewhere.** -/
theorem Linked.update_of_ne (h : Linked next heap c ts) {d : κ} (hc : c ≠ d)
    (hne : ∀ t ∈ ts, next t ≠ d) (v : Option τ) :
    Linked next (Function.update heap d v) c ts := by
  induction ts generalizing c with
  | nil => exact (Function.update_of_ne hc v heap).trans h
  | cons t ts ih =>
    refine ⟨(Function.update_of_ne hc v heap).trans h.1, ?_⟩
    exact ih h.2 (hne t List.mem_cons_self) fun u hu => hne u (List.mem_cons_of_mem t hu)

/-- **The first node is taken off** when what its cell holds is copied to the
one the list is read off from. -/
theorem Linked.unlink (h : Linked next heap c (t :: ts)) (hc : ∀ u ∈ ts, next u ≠ c) :
    Linked next (Function.update heap c (heap (next t))) c ts := by
  cases ts with
  | nil => exact (Function.update_self c _ heap).trans h.2
  | cons u ts =>
    refine ⟨(Function.update_self c _ heap).trans h.2.1, ?_⟩
    exact h.2.2.update_of_ne (hc u List.mem_cons_self) (fun v hv => hc v (List.mem_cons_of_mem u hv))
      _

/-- **A write to the cell that ends the list appends**: what is read off
then goes on with the node and whatever is behind that one. -/
theorem Linked.append (hnext : Function.Injective next) (h : Linked next heap c ts)
    (hnodup : ts.Nodup) (hc : ∀ t ∈ ts, next t ≠ c) (rest : List τ) :
    Linked next (Function.update heap (endCell next c ts) (some t)) c (ts ++ rest) ↔
      Linked next (Function.update heap (endCell next c ts) (some t))
        (endCell next c ts) rest := by
  induction ts generalizing c with
  | nil => rfl
  | cons u ts ih =>
    have hlast : c ≠ endCell next (next u) ts := by
      rcases endCell_eq_or_mem next (next u) ts with heq | ⟨v, hv, heq⟩
      · rw [heq]
        exact (hc u List.mem_cons_self).symm
      · rw [heq]
        exact (hc v (List.mem_cons_of_mem u hv)).symm
    have hown : ∀ v ∈ ts, next v ≠ next u := by
      intro v hv heq
      obtain rfl := hnext heq
      exact (List.nodup_cons.1 hnodup).1 hv
    have hrest := ih h.2 (List.nodup_cons.1 hnodup).2 hown
    have hhead : Function.update heap (endCell next (next u) ts) (some t) c = some u :=
      (Function.update_of_ne hlast (some t) heap).trans h.1
    exact (and_iff_right hhead).trans hrest

end Dmx4Linux2
