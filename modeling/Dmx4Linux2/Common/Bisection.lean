import Mathlib.Algebra.GroupWithZero.Nat
import Mathlib.Data.Finset.Card
import Mathlib.Logic.Relation
import Mathlib.Order.Interval.Finset.Nat

/-!
# Bisection search

A finite set of numbers is hidden. A query names a range and learns
whether none, exactly one or several hidden numbers lie in it; the one
is learned, and no longer hidden afterwards. The search keeps a queue of
ranges: an empty one is dropped, one with a single number is queued
again, one with several is replaced by its two halves.

The search is sound whatever the set (`Sound.step`): once the queue is
empty it has found every number of the range it started from. It does
end if and only if no range of length two that halving leads to holds
two hidden numbers, since the upper half of such a range is the range
itself: `Shrinking.step` bounds the steps, `Trapped.step` is the
converse.
-/

namespace Dmx4Linux2

namespace Bisection

/-- The search: the ranges still to ask for, the numbers found, in order,
and those still hidden. -/
structure Search where
  pending : List (ℕ × ℕ)
  found : List ℕ
  hidden : Finset ℕ

/-- The numbers of a set that lie in a range. -/
def inRange (a : ℕ × ℕ) (S : Finset ℕ) : Finset ℕ := S.filter fun u => a.1 ≤ u ∧ u ≤ a.2

/-- The two halves of a range, the lower one first. -/
def halves (a : ℕ × ℕ) : List (ℕ × ℕ) :=
  [(a.1, (a.1 + a.2) / 2 - 1), ((a.1 + a.2) / 2, a.2)]

/-- One query, by its answer. -/
inductive Step : Search → Search → Prop
  | none {a rest found hidden} : inRange a hidden = ∅ →
      Step ⟨a :: rest, found, hidden⟩ ⟨rest, found, hidden⟩
  | one {a rest found hidden} (u : ℕ) : inRange a hidden = {u} →
      Step ⟨a :: rest, found, hidden⟩ ⟨rest ++ [a], found ++ [u], hidden.erase u⟩
  | many {a rest found hidden} : 1 < (inRange a hidden).card →
      Step ⟨a :: rest, found, hidden⟩ ⟨rest ++ halves a, found, hidden⟩

/-- A number of queries in a row. -/
inductive Steps : ℕ → Search → Search → Prop
  | refl (s : Search) : Steps 0 s s
  | head {n : ℕ} {s t w : Search} : Step s t → Steps n t w → Steps (n + 1) s w

variable {s t : Search} {a b : ℕ × ℕ} {S U : Finset ℕ} {lo hi u n : ℕ}

@[simp] theorem mem_inRange : u ∈ inRange a S ↔ u ∈ S ∧ a.1 ≤ u ∧ u ≤ a.2 := by
  simp [inRange]

theorem mem_halves : b ∈ halves a ↔
    b = (a.1, (a.1 + a.2) / 2 - 1) ∨ b = ((a.1 + a.2) / 2, a.2) := by
  simp [halves]

/-- **The invariant rule.** -/
theorem Steps.keeps {P : Search → Prop} (hstep : ∀ s t, P s → Step s t → P t)
    (h : Steps n s t) (hs : P s) : P t := by
  induction h with
  | refl s => exact hs
  | head hst _ ih => exact ih (hstep _ _ hs hst)

/-- Two numbers of a range make a query answer "several". -/
theorem one_lt_card_inRange {v : ℕ} (hu : u ∈ inRange a S) (hv : v ∈ inRange a S) (huv : u ≠ v) :
    1 < (inRange a S).card :=
  Finset.one_lt_card.2 ⟨u, hu, v, hv, huv⟩

/-! ## What is found -/

/-- **The invariant of the search** for the numbers of `U` from `lo` to
`hi`: what is found is of them and no longer hidden, and what is hidden
of them lies in a range still to be asked for. -/
structure Sound (U : Finset ℕ) (lo hi : ℕ) (s : Search) : Prop where
  nodup : s.found.Nodup
  hidden : ∀ u, u ∈ s.hidden ↔ u ∈ U ∧ u ∉ s.found
  found : ∀ u ∈ s.found, u ∈ U ∧ lo ≤ u ∧ u ≤ hi
  within : ∀ a ∈ s.pending, lo ≤ a.1 ∧ a.2 ≤ hi
  cover : ∀ u ∈ s.hidden, lo ≤ u → u ≤ hi → ∃ a ∈ s.pending, a.1 ≤ u ∧ u ≤ a.2

theorem Sound.start (U : Finset ℕ) (lo hi : ℕ) : Sound U lo hi ⟨[(lo, hi)], [], U⟩ where
  nodup := List.nodup_nil
  hidden := by simp
  found := by simp
  within := by simp
  cover u _ hlo hhi := ⟨(lo, hi), by simp, hlo, hhi⟩

/-- A range that goes to the end of the queue stays in it. -/
theorem mem_requeued {α : Type*} {a b : α} {rest : List α} :
    b ∈ rest ++ [a] ↔ b ∈ a :: rest := by
  rw [List.mem_append, List.mem_singleton, List.mem_cons, or_comm]

/-- **A query keeps the invariant.** -/
theorem Sound.step (h : Sound U lo hi s) (hst : Step s t) : Sound U lo hi t := by
  cases hst with
  | @none a rest found hidden hempty =>
    refine ⟨h.nodup, h.hidden, h.found, fun b hb => h.within b (by simp [hb]), ?_⟩
    intro u hu hlo hhi
    obtain ⟨b, hb, hbu⟩ := h.cover u hu hlo hhi
    rcases List.mem_cons.1 hb with rfl | hb
    · have hmem : u ∈ inRange b hidden := mem_inRange.2 ⟨hu, hbu⟩
      rw [hempty] at hmem
      exact absurd hmem (Finset.notMem_empty u)
    · exact ⟨b, hb, hbu⟩
  | @one a rest found hidden v hone =>
    have hv : v ∈ inRange a hidden := by rw [hone]; exact Finset.mem_singleton_self v
    obtain ⟨hvh, hav⟩ := mem_inRange.1 hv
    obtain ⟨hvU, hvf⟩ := (h.hidden v).1 hvh
    obtain ⟨halo, hahi⟩ := h.within a (by simp)
    refine ⟨?_, ?_, ?_, ?_, ?_⟩
    · exact List.nodup_append.2 ⟨h.nodup, List.nodup_singleton v, fun x hx y hy => by
        rw [List.mem_singleton.1 hy]
        exact fun hxv => hvf (hxv ▸ hx)⟩
    · intro u
      have hu := h.hidden u
      simp only at hu ⊢
      rw [Finset.mem_erase, List.mem_append, List.mem_singleton, hu]
      tauto
    · intro u hu
      rcases List.mem_append.1 hu with hu | hu
      · exact h.found u hu
      · rw [List.mem_singleton.1 hu]
        exact ⟨hvU, by omega, by omega⟩
    · exact fun b hb => h.within b (mem_requeued.1 hb)
    · intro u hu hlo hhi
      obtain ⟨b, hb, hbu⟩ := h.cover u (Finset.mem_of_mem_erase hu) hlo hhi
      exact ⟨b, mem_requeued.2 hb, hbu⟩
  | @many a rest found hidden hmany =>
    obtain ⟨halo, hahi⟩ := h.within a (by simp)
    -- several numbers in a range make it a proper one
    obtain ⟨v, hv⟩ := Finset.card_pos.1 (Nat.lt_trans Nat.zero_lt_one hmany)
    obtain ⟨-, hva⟩ := mem_inRange.1 hv
    refine ⟨h.nodup, h.hidden, h.found, ?_, ?_⟩
    · intro b hb
      rcases List.mem_append.1 hb with hb | hb
      · exact h.within b (List.mem_cons_of_mem _ hb)
      · rcases mem_halves.1 hb with rfl | rfl
        · exact ⟨halo, by simp only; omega⟩
        · exact ⟨by simp only; omega, hahi⟩
    · intro u hu hlo hhi
      obtain ⟨b, hb, hbu⟩ := h.cover u hu hlo hhi
      rcases List.mem_cons.1 hb with rfl | hb
      · rcases Nat.lt_or_ge u ((b.1 + b.2) / 2) with hlt | hge
        · exact ⟨(b.1, (b.1 + b.2) / 2 - 1), by simp [halves], hbu.1, by simp only; omega⟩
        · exact ⟨((b.1 + b.2) / 2, b.2), by simp [halves], hge, hbu.2⟩
      · exact ⟨b, List.mem_append_left _ hb, hbu⟩

/-- **A search that has emptied its queue has found all there is.** -/
theorem Sound.complete (h : Sound U lo hi s) (hend : s.pending = []) :
    ∀ u, u ∈ s.found ↔ u ∈ U ∧ lo ≤ u ∧ u ≤ hi := by
  intro u
  refine ⟨h.found u, fun ⟨hU, hlo, hhi⟩ => ?_⟩
  by_contra hf
  obtain ⟨a, ha, -⟩ := h.cover u ((h.hidden u).2 ⟨hU, hf⟩) hlo hhi
  rw [hend] at ha
  exact absurd ha List.not_mem_nil

/-! ## When the search ends -/

/-- `b` is a half of `a`. -/
def Halves (a b : ℕ × ℕ) : Prop := a.1 < a.2 ∧ b ∈ halves a

/-- **Halving leads from one range to the other.** -/
def LeadsTo : ℕ × ℕ → ℕ × ℕ → Prop := Relation.ReflTransGen Halves

/-- **No pair is left together**: no range of length two that halving
leads to from `(lo, hi)` holds two numbers of the set. -/
def Separable (S : Finset ℕ) (lo hi : ℕ) : Prop :=
  ∀ u, LeadsTo (lo, hi) (u, u + 1) → u ∈ S → u + 1 ∉ S

/-- What a range may still cost. -/
def weight (a : ℕ × ℕ) : ℕ := 2 * (a.2 - a.1) + 1

/-- What the search may still cost: the ranges, and a query for each
number to be found. -/
def cost (lo hi : ℕ) (s : Search) : ℕ :=
  (s.pending.map weight).sum + (inRange (lo, hi) s.hidden).card

/-- The invariant under which the search ends. -/
structure Shrinking (S : Finset ℕ) (lo hi : ℕ) (s : Search) : Prop where
  hidden : s.hidden ⊆ S
  proper : ∀ a ∈ s.pending, a.1 ≤ a.2 ∧ lo ≤ a.1 ∧ a.2 ≤ hi
  leads : ∀ a ∈ s.pending, LeadsTo (lo, hi) a

theorem Shrinking.start (S : Finset ℕ) (h : lo ≤ hi) : Shrinking S lo hi ⟨[(lo, hi)], [], S⟩ where
  hidden := Finset.Subset.refl S
  proper := by simpa using h
  leads a ha := by
    rw [List.mem_singleton.1 ha]
    exact Relation.ReflTransGen.refl

/-- A range with several numbers of a separable set is longer than two. -/
theorem Shrinking.two_lt (hsep : Separable S lo hi) (h : Shrinking S lo hi s)
    (ha : a ∈ s.pending) (hmany : 1 < (inRange a s.hidden).card) : a.1 + 2 ≤ a.2 := by
  obtain ⟨u, hu, v, hv, huv⟩ := Finset.one_lt_card.1 hmany
  obtain ⟨huh, hu1, hu2⟩ := mem_inRange.1 hu
  obtain ⟨hvh, hv1, hv2⟩ := mem_inRange.1 hv
  by_contra hlen
  have hpair : a = (a.1, a.1 + 1) := Prod.ext rfl (by simp only; omega)
  have hlead : LeadsTo (lo, hi) (a.1, a.1 + 1) := hpair ▸ h.leads a ha
  have hno := hsep a.1 hlead
  rcases Nat.lt_or_gt_of_ne huv with hlt | hlt
  · obtain ⟨rfl, rfl⟩ : u = a.1 ∧ v = a.1 + 1 := by omega
    exact hno (h.hidden huh) (h.hidden hvh)
  · obtain ⟨rfl, rfl⟩ : v = a.1 ∧ u = a.1 + 1 := by omega
    exact hno (h.hidden hvh) (h.hidden huh)

/-- **A query of a separable set costs something**, and keeps the
invariant. -/
theorem Shrinking.step (hsep : Separable S lo hi) (h : Shrinking S lo hi s) (hst : Step s t) :
    Shrinking S lo hi t ∧ cost lo hi t < cost lo hi s := by
  cases hst with
  | @none a rest found hidden hempty =>
    refine ⟨⟨h.hidden, fun b hb => h.proper b (by simp [hb]), fun b hb => h.leads b (by simp [hb])⟩,
      ?_⟩
    simp only [cost, List.map_cons, List.sum_cons, weight]
    omega
  | @one a rest found hidden v hone =>
    have hv : v ∈ inRange a hidden := by rw [hone]; exact Finset.mem_singleton_self v
    obtain ⟨hvh, hav⟩ := mem_inRange.1 hv
    obtain ⟨-, halo, hahi⟩ := h.proper a (by simp)
    refine ⟨⟨(Finset.erase_subset v hidden).trans h.hidden,
      fun b hb => h.proper b (mem_requeued.1 hb), fun b hb => h.leads b (mem_requeued.1 hb)⟩, ?_⟩
    have hlt : (inRange (lo, hi) (hidden.erase v)).card < (inRange (lo, hi) hidden).card := by
      refine Finset.card_lt_card ((Finset.ssubset_iff_of_subset ?_).2 ⟨v, ?_, ?_⟩)
      · exact Finset.filter_subset_filter _ (Finset.erase_subset v hidden)
      · exact mem_inRange.2 ⟨hvh, by simp only; omega, by simp only; omega⟩
      · intro hv'
        exact Finset.notMem_erase v hidden (mem_inRange.1 hv').1
    simp only [cost, List.map_append, List.map_cons, List.map_nil, List.sum_append, List.sum_cons,
      List.sum_nil]
    omega
  | @many a rest found hidden hmany =>
    have hlen : a.1 + 2 ≤ a.2 := h.two_lt hsep (by simp) hmany
    obtain ⟨-, halo, hahi⟩ := h.proper a (by simp)
    have hlead : LeadsTo (lo, hi) a := h.leads a (by simp)
    refine ⟨⟨h.hidden, ?_, ?_⟩, ?_⟩
    · intro b hb
      rcases List.mem_append.1 hb with hb | hb
      · exact h.proper b (List.mem_cons_of_mem _ hb)
      · rcases mem_halves.1 hb with rfl | rfl <;> simp only <;> omega
    · intro b hb
      rcases List.mem_append.1 hb with hb | hb
      · exact h.leads b (List.mem_cons_of_mem _ hb)
      · exact hlead.tail ⟨by omega, hb⟩
    · simp only [cost, List.map_append, halves, List.map_cons, List.map_nil, List.sum_append,
        List.sum_cons, List.sum_nil, weight]
      omega

/-- **The steps of a search are bounded by its cost.** -/
theorem Steps.le_cost (hsep : Separable S lo hi) (hst : Steps n s t) (h : Shrinking S lo hi s) :
    n + cost lo hi t ≤ cost lo hi s := by
  induction hst with
  | refl s => omega
  | head hst _ ih =>
    obtain ⟨h', hlt⟩ := h.step hsep hst
    have hrest := ih h'
    omega

/-- What a search costs at the start. -/
theorem cost_start_le (S : Finset ℕ) (h : lo ≤ hi) :
    cost lo hi ⟨[(lo, hi)], [], S⟩ ≤ 3 * (hi - lo + 1) := by
  have hcard : (inRange (lo, hi) S).card ≤ hi + 1 - lo := by
    rw [← Nat.card_Icc]
    refine Finset.card_le_card fun u hu => ?_
    exact Finset.mem_Icc.2 (mem_inRange.1 hu).2
  simp only [cost, weight, List.map_cons, List.map_nil, List.sum_cons, List.sum_nil]
  omega

/-! ## When it does not -/

/-- A range that halving leads to lies inside. -/
theorem LeadsTo.inside (h : LeadsTo a b) (hb : b.1 < b.2) : a.1 ≤ b.1 ∧ b.2 ≤ a.2 := by
  induction h using Relation.ReflTransGen.head_induction_on with
  | refl => exact ⟨le_rfl, le_rfl⟩
  | head hac _ ih =>
    obtain ⟨hlt, hmem⟩ := hac
    rcases mem_halves.1 hmem with rfl | rfl
    · simp only at ih
      omega
    · simp only at ih
      omega

/-- Neither `u` nor its successor is in the range. -/
def Avoids (u : ℕ) (a : ℕ × ℕ) : Prop :=
  ¬ (a.1 ≤ u ∧ u ≤ a.2) ∧ ¬ (a.1 ≤ u + 1 ∧ u + 1 ≤ a.2)

/-- **The search is caught on `u` and its successor**: both are hidden,
a range that leads to the two is queued, and every other one avoids
them. -/
structure Trapped (u : ℕ) (s : Search) : Prop where
  pos : 1 ≤ u
  hidden : u ∈ s.hidden ∧ u + 1 ∈ s.hidden
  queued : ∃ a ∈ s.pending, LeadsTo a (u, u + 1)
  split : ∀ a ∈ s.pending, LeadsTo a (u, u + 1) ∨ Avoids u a

theorem Trapped.start (hlo : 1 ≤ lo) (hlead : LeadsTo (lo, hi) (u, u + 1)) (hu : u ∈ S)
    (hu' : u + 1 ∈ S) : Trapped u ⟨[(lo, hi)], [], S⟩ where
  pos := hlo.trans (hlead.inside (Nat.lt_succ_self u)).1
  hidden := ⟨hu, hu'⟩
  queued := ⟨(lo, hi), by simp, hlead⟩
  split a ha := by
    rw [List.mem_singleton.1 ha]
    exact Or.inl hlead

/-- The halves of a range that avoids the two avoid them. -/
theorem Avoids.halves (h : Avoids u a) (hlt : a.1 < a.2) (hb : b ∈ halves a) : Avoids u b := by
  unfold Avoids at h ⊢
  rcases mem_halves.1 hb with rfl | rfl
  · simp only
    omega
  · simp only
    omega

/-- Of the halves of a range that leads to the two, one leads there and
the other avoids them. The pair itself is its own upper half. -/
theorem halves_of_leadsTo (hu : 1 ≤ u) (h : LeadsTo a (u, u + 1)) :
    (∃ b ∈ halves a, LeadsTo b (u, u + 1)) ∧
      ∀ b ∈ halves a, LeadsTo b (u, u + 1) ∨ Avoids u b := by
  rcases Relation.ReflTransGen.cases_head h with rfl | ⟨c, ⟨hlt, hc⟩, hlead⟩
  · have hmid : (u + (u + 1)) / 2 = u := by omega
    refine ⟨⟨(u, u + 1), ?_, Relation.ReflTransGen.refl⟩, ?_⟩
    · exact mem_halves.2 (Or.inr (by simp only [hmid]))
    · intro b hb
      rcases mem_halves.1 hb with rfl | rfl
      · right
        unfold Avoids
        simp only
        omega
      · left
        simp only [hmid]
        exact Relation.ReflTransGen.refl
  · have hin := LeadsTo.inside hlead (Nat.lt_succ_self u)
    refine ⟨⟨c, hc, hlead⟩, fun b hb => ?_⟩
    by_cases hbc : b = c
    · exact Or.inl (hbc ▸ hlead)
    · right
      unfold Avoids
      rcases mem_halves.1 hb with rfl | rfl <;> rcases mem_halves.1 hc with rfl | rfl <;>
        simp only at hin ⊢
      · exact absurd rfl hbc
      · omega
      · omega
      · exact absurd rfl hbc

/-- **A caught search stays caught.** -/
theorem Trapped.step (h : Trapped u s) (hst : Step s t) : Trapped u t := by
  obtain ⟨hpos, ⟨hu, hu'⟩, ⟨c, hc, hlead⟩, hsplit⟩ := h
  have hcontains : ∀ {a S}, LeadsTo a (u, u + 1) → u ∈ S → u + 1 ∈ S →
      1 < (inRange a S).card := by
    intro a S ha huS huS'
    have hin := LeadsTo.inside ha (Nat.lt_succ_self u)
    simp only at hin
    exact one_lt_card_inRange (mem_inRange.2 ⟨huS, by omega, by omega⟩)
      (mem_inRange.2 ⟨huS', by omega, by omega⟩) (Nat.ne_of_lt (Nat.lt_succ_self u))
  cases hst with
  | @none a rest found hidden hempty =>
    refine ⟨hpos, ⟨hu, hu'⟩, ⟨c, ?_, hlead⟩, fun b hb => hsplit b (List.mem_cons_of_mem _ hb)⟩
    rcases List.mem_cons.1 hc with rfl | hc
    · have hcard := hcontains hlead hu hu'
      rw [hempty, Finset.card_empty] at hcard
      omega
    · exact hc
  | @one a rest found hidden v hone =>
    have hv : v ∈ inRange a hidden := by rw [hone]; exact Finset.mem_singleton_self v
    obtain ⟨-, hav⟩ := mem_inRange.1 hv
    have havoid : Avoids u a := by
      rcases hsplit a List.mem_cons_self with ha | ha
      · have hcard := hcontains ha hu hu'
        rw [hone, Finset.card_singleton] at hcard
        omega
      · exact ha
    have hne : u ≠ v ∧ u + 1 ≠ v := by
      unfold Avoids at havoid
      refine ⟨?_, ?_⟩
      · rintro rfl
        exact havoid.1 hav
      · rintro rfl
        exact havoid.2 hav
    exact ⟨hpos, ⟨Finset.mem_erase.2 ⟨hne.1, hu⟩, Finset.mem_erase.2 ⟨hne.2, hu'⟩⟩,
      ⟨c, mem_requeued.2 hc, hlead⟩, fun b hb => hsplit b (mem_requeued.1 hb)⟩
  | @many a rest found hidden hmany =>
    obtain ⟨v, hv, w, hw, hvw⟩ := Finset.one_lt_card.1 hmany
    obtain ⟨-, hva⟩ := mem_inRange.1 hv
    obtain ⟨-, hwa⟩ := mem_inRange.1 hw
    have hhalves : ∀ b ∈ halves a, LeadsTo b (u, u + 1) ∨ Avoids u b := by
      intro b hb
      rcases hsplit a List.mem_cons_self with ha | ha
      · exact (halves_of_leadsTo hpos ha).2 b hb
      · exact Or.inr (ha.halves (by omega) hb)
    refine ⟨hpos, ⟨hu, hu'⟩, ?_, ?_⟩
    · rcases List.mem_cons.1 hc with rfl | hc
      · obtain ⟨b, hb, hlead'⟩ := (halves_of_leadsTo hpos hlead).1
        exact ⟨b, List.mem_append_right _ hb, hlead'⟩
      · exact ⟨c, List.mem_append_left _ hc, hlead⟩
    · intro b hb
      rcases List.mem_append.1 hb with hb | hb
      · exact hsplit b (List.mem_cons_of_mem _ hb)
      · exact hhalves b hb

/-- **A caught search never empties its queue.** -/
theorem Trapped.pending_ne_nil (h : Trapped u s) : s.pending ≠ [] := by
  obtain ⟨a, ha, -⟩ := h.queued
  exact List.ne_nil_of_mem ha

end Bisection

end Dmx4Linux2
