import Mathlib.Data.List.Infix

/-!
# Traces

What a run put down, in order. A trace is justified if each of its members
meets a condition on those before it.
-/

namespace Dmx4Linux2

variable {α : Type*} {P : List α → α → Prop} {t : List α} {x : α}

/-- **Each member meets the condition on what was before it.** -/
def Justified (P : List α → α → Prop) (t : List α) : Prop := ∀ pre x, pre ++ [x] <+: t → P pre x

@[simp] theorem justified_nil : Justified P [] := by
  intro pre x h
  simp [List.prefix_nil] at h

theorem justified_concat : Justified P (t ++ [x]) ↔ Justified P t ∧ P t x := by
  constructor
  · intro h
    exact ⟨fun pre y hpre => h pre y (hpre.trans (List.prefix_append t [x])),
      h t x (List.prefix_refl _)⟩
  · rintro ⟨ht, hx⟩ pre y hpre
    rcases List.prefix_concat_iff.1 hpre with heq | hpre
    · obtain ⟨rfl, hy⟩ := List.append_inj' heq rfl
      obtain rfl := List.singleton_inj.1 hy
      exact hx
    · exact ht pre y hpre

end Dmx4Linux2
