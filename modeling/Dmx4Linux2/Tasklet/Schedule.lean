import Dmx4Linux2.Common.Linked
import Dmx4Linux2.Common.Run
import Dmx4Linux2.Tasklet.Model.Kernel

/-!
# Tasklets — what is scheduled is run

The list is what is read off from `g_tasklet_list`. A tasklet that is taken
off it keeps its `next`, and when it is scheduled again whatever is behind
it is in the list as well: a tasklet that nobody scheduled, or the front of
the list, which is then a circle. `orderly_iff` says that a run is as it
should be just when each tasklet that is appended has nothing behind it.
-/

namespace Dmx4Linux2

namespace Tasklet

variable {τ : Type*} {t u : τ} {k : Kernel τ} {e : Event τ} {es : List (Event τ)}

/-- The list of tasklets. -/
abbrev Kernel.Lists (k : Kernel τ) (ts : List τ) : Prop :=
  Linked Cell.next k.cells .taskletList ts

/-- **The list is finite and without duplicates, and holds what is
scheduled and did not run yet**, in order. -/
def Kernel.Listed (k : Kernel τ) : Prop :=
  k.stuck = false ∧ ∃ ts, k.Lists ts ∧ ts.Nodup ∧ k.scheduled = k.ran ++ ts

theorem next_injective : Function.Injective (Cell.next : τ → Cell τ) := fun _ _ h =>
  Cell.next.inj h

theorem next_ne_taskletList (t : τ) : Cell.next t ≠ .taskletList := nofun

/-- The pointer at the end of the list is not that of a tasklet outside of
it. -/
theorem next_ne_endCell {ts : List τ} (h : t ∉ ts) :
    Cell.next t ≠ endCell .next .taskletList ts := by
  rcases endCell_eq_or_mem Cell.next .taskletList ts with heq | ⟨u, hu, heq⟩
  · rw [heq]
    exact next_ne_taskletList t
  · rw [heq]
    intro hsame
    obtain rfl := next_injective hsame
    exact h hu

variable [DecidableEq τ]

/-! ## The walk -/

theorem walk_linked {cells : Cell τ → Option τ} {l : Cell τ} {ts : List τ}
    (h : Linked Cell.next cells l ts) {fuel : ℕ} (hfuel : ts.length < fuel) :
    walk cells t fuel l = if t ∈ ts then .found else .stop (endCell .next l ts) := by
  induction ts generalizing l fuel with
  | nil =>
    obtain ⟨n, rfl⟩ := Nat.exists_eq_succ_of_ne_zero (by omega : fuel ≠ 0)
    have hempty : cells l = none := h
    simp [walk, hempty, endCell]
  | cons u ts ih =>
    obtain ⟨n, rfl⟩ := Nat.exists_eq_succ_of_ne_zero (by omega : fuel ≠ 0)
    have hrest := ih h.2 (by simpa using hfuel : ts.length < n)
    simp only [walk, h.1]
    by_cases heq : u = t
    · simp [heq]
    · rw [if_neg heq, hrest]
      simp [endCell, Ne.symm heq]

namespace Kernel

theorem step_schedule (h : k.stuck = false) (t : τ) :
    k.step (.schedule t) = k.taskletSchedule t := by
  simp [step, h]

theorem step_runNext (h : k.stuck = false) : k.step .runNext = k.runNextTasklet := by
  simp [step, h]

/-- **`tasklet_schedule` on a list**: a tasklet that is in it is ignored,
another one is written to its end. -/
theorem taskletSchedule_eq {ts : List τ} (hlists : k.Lists ts)
    (hlen : ts.length ≤ k.scheduled.length) (t : τ) :
    k.taskletSchedule t =
      if t ∈ ts then k
      else { k with
        cells := Function.update k.cells (endCell .next .taskletList ts) (some t)
        scheduled := k.scheduled ++ [t] } := by
  unfold taskletSchedule
  rw [walk_linked hlists (by omega)]
  split_ifs <;> rfl

/-- **What a step ought to do**: a tasklet that is in the list is not
scheduled again, another one is; the first of the list is run. -/
def Obeys (k : Kernel τ) (e : Event τ) : Prop :=
  match e with
  | .schedule t => ∀ ts, k.Lists ts →
      (t ∈ ts → k.step e = k) ∧ (t ∉ ts → (k.step e).scheduled = k.scheduled ++ [t])
  | .runNext => ∀ t, k.cells .taskletList = some t → (k.step e).ran = k.ran ++ [t]

/-- **Nothing is behind a tasklet that is appended.** -/
def Fresh (k : Kernel τ) (e : Event τ) : Prop :=
  match e with
  | .schedule t => (∀ ts, k.Lists ts → t ∉ ts) → k.cells (.next t) = none
  | .runNext => True

theorem Listed.obeys (h : k.Listed) (e : Event τ) : k.Obeys e := by
  obtain ⟨hstuck, ts, hlists, -, hsched⟩ := h
  have hlen : ts.length ≤ k.scheduled.length := by
    rw [hsched, List.length_append]
    omega
  cases e with
  | schedule t =>
    intro ts' hlists'
    obtain rfl := hlists.unique hlists'
    rw [step_schedule hstuck, taskletSchedule_eq hlists hlen]
    constructor
    · intro hmem
      rw [if_pos hmem]
    · intro hmem
      rw [if_neg hmem]
  | runNext =>
    intro t hhead
    rw [step_runNext hstuck]
    simp [runNextTasklet, hhead]

/-! ## Steps -/

theorem Listed.runNext (h : k.Listed) : (k.step .runNext).Listed := by
  obtain ⟨hstuck, ts, hlists, hnodup, hsched⟩ := h
  rw [step_runNext hstuck]
  cases ts with
  | nil =>
    have hempty : k.cells .taskletList = none := hlists
    have hsame : k.runNextTasklet = k := by simp [runNextTasklet, hempty]
    rw [hsame]
    exact ⟨hstuck, [], hlists, hnodup, hsched⟩
  | cons t ts =>
    have hrun : k.runNextTasklet = { k with
        cells := Function.update k.cells .taskletList (k.cells (.next t)), ran := k.ran ++ [t] } := by
      simp [runNextTasklet, hlists.1]
    rw [hrun]
    refine ⟨hstuck, ts, ?_, (List.nodup_cons.1 hnodup).2, by simp [hsched]⟩
    -- the list is read off from the first one's `next`, which is copied
    cases ts with
    | nil => exact (Function.update_self Cell.taskletList _ k.cells).trans hlists.2
    | cons u ts =>
      have hbehind := hlists.2.2
      refine ⟨(Function.update_self Cell.taskletList _ k.cells).trans hlists.2.1, ?_⟩
      exact hbehind.update_of_ne (next_ne_taskletList u) (fun v _ => next_ne_taskletList v) _

/-- **Appending keeps the list in order just when nothing is behind the
tasklet.** -/
theorem listed_schedule_iff (h : k.Listed) (t : τ) :
    (k.step (.schedule t)).Listed ↔ k.Fresh (.schedule t) := by
  obtain ⟨hstuck, ts, hlists, hnodup, hsched⟩ := h
  have hlen : ts.length ≤ k.scheduled.length := by
    rw [hsched, List.length_append]
    omega
  rw [step_schedule hstuck, taskletSchedule_eq hlists hlen]
  by_cases hmem : t ∈ ts
  · rw [if_pos hmem]
    refine iff_of_true ⟨hstuck, ts, hlists, hnodup, hsched⟩ ?_
    intro hnone
    exact absurd hmem (hnone ts hlists)
  · rw [if_neg hmem]
    have happend := fun rest => hlists.append (t := t) next_injective hnodup
      (fun v _ => next_ne_taskletList v) rest
    constructor
    · rintro ⟨-, ts', hlists', -, hsched'⟩ -
      -- the list is the old one and the tasklet, so the pointer behind it ends it
      obtain rfl : ts' = ts ++ [t] := by
        have heq : k.ran ++ (ts ++ [t]) = k.ran ++ ts' := by
          rw [← List.append_assoc, ← hsched]
          exact hsched'
        exact (List.append_cancel_left heq).symm
      have hend := ((happend [t]).1 hlists').2
      exact (Function.update_of_ne (next_ne_endCell hmem) _ _).symm.trans hend
    · intro hfresh
      have hnone : k.cells (.next t) = none :=
        hfresh fun ts' hlists' => hlists.unique hlists' ▸ hmem
      refine ⟨hstuck, ts ++ [t], (happend [t]).2 ⟨Function.update_self _ _ _, ?_⟩, ?_, ?_⟩
      · exact (Function.update_of_ne (next_ne_endCell hmem) _ _).trans hnone
      · exact List.nodup_append.2 ⟨hnodup, List.nodup_singleton t, by
          rintro u hu v hv rfl
          exact hmem (List.mem_singleton.1 hv ▸ hu)⟩
      · simp [hsched]

theorem listed_step_iff (h : k.Listed) : (k.step e).Listed ↔ k.Fresh e := by
  cases e with
  | schedule t => exact listed_schedule_iff h t
  | runNext => exact iff_of_true h.runNext trivial

/-! ## Runs -/

theorem scheduled_prefix_step (k : Kernel τ) (e : Event τ) :
    k.scheduled <+: (k.step e).scheduled ∧ k.ran <+: (k.step e).ran := by
  unfold step taskletSchedule runNextTasklet
  split
  · exact ⟨List.prefix_refl _, List.prefix_refl _⟩
  · cases e with
    | schedule t =>
      dsimp only
      split
      · exact ⟨List.prefix_refl _, List.prefix_refl _⟩
      · exact ⟨List.prefix_append _ _, List.prefix_refl _⟩
      · exact ⟨List.prefix_refl _, List.prefix_refl _⟩
    | runNext =>
      dsimp only
      split
      · exact ⟨List.prefix_refl _, List.prefix_refl _⟩
      · exact ⟨List.prefix_refl _, List.prefix_append _ _⟩

theorem scheduled_prefix_run (k : Kernel τ) (es : List (Event τ)) :
    k.scheduled <+: (run step k es).scheduled := by
  induction es generalizing k with
  | nil => exact List.prefix_refl _
  | cons e es ih => exact (scheduled_prefix_step k e).1.trans (ih (k.step e))

/-- With each round one more tasklet has run, as long as there are any. -/
theorem ran_of_rounds (hall : Always step Listed k es) {n : ℕ} (hn : n ≤ k.scheduled.length)
    (hrounds : n ≤ k.ran.length + es.count .runNext) : n ≤ (run step k es).ran.length := by
  induction es generalizing k with
  | nil => simpa using hrounds
  | cons e es ih =>
    obtain ⟨hlisted, hrest⟩ := always_cons.1 hall
    have hgrow := scheduled_prefix_step k e
    rw [run_cons]
    refine ih hrest (hn.trans hgrow.1.length_le) ?_
    have hran := hgrow.2.length_le
    cases e with
    | schedule t =>
      rw [List.count_cons_of_ne (by simp)] at hrounds
      omega
    | runNext =>
      rw [List.count_cons_self] at hrounds
      cases hhead : k.cells .taskletList with
      | some t =>
        have hone := hlisted.obeys .runNext t hhead
        rw [hone, List.length_append, List.length_singleton]
        omega
      | none =>
        -- the list is empty, and all that is scheduled has run
        obtain ⟨-, ts, hlists, -, hsched⟩ := hlisted
        have hnone : k.Lists [] := hhead
        have hempty : ts = [] := hlists.unique hnone
        rw [hempty, List.append_nil] at hsched
        rw [hsched] at hn
        omega

/-- **A run as it should be.** The list is always finite, without
duplicates and what is scheduled and did not run yet; a tasklet that is in
the list is not scheduled again, and another one is; and what is scheduled
is run, in order, in as many rounds as there are tasklets in the list. -/
structure Orderly (es : List (Event τ)) : Prop where
  listed : Always step Listed init es
  obeys : EachStep step Obeys init es
  runs : ∀ pre post, es = pre ++ post → ∀ ts, (run step init pre).Lists ts →
    ts.length ≤ post.count .runNext → (run step init pre).scheduled <+: (run step init es).ran

end Kernel

open Tasklet.Kernel

/-- **A run is as it should be just when nothing is behind a tasklet that
is appended.** -/
theorem orderly_iff (es : List (Event τ)) : Orderly es ↔ EachStep step Fresh init es := by
  have hinit : (init : Kernel τ).Listed := ⟨rfl, [], rfl, List.nodup_nil, rfl⟩
  have hiff : (Always step Listed init es ∧ EachStep step Obeys init es) ↔
      EachStep step Fresh init es := by
    refine always_and_eachStep_iff_of_invariant (fun _ h => h) ?_ ?_ hinit
    · intro k e hlisted hlisted' _
      exact (listed_step_iff hlisted).1 hlisted'
    · intro k e hlisted hfresh
      exact ⟨(listed_step_iff hlisted).2 hfresh, hlisted.obeys e⟩
  constructor
  · intro h
    exact hiff.1 ⟨h.listed, h.obeys⟩
  · intro h
    obtain ⟨hlisted, hobeys⟩ := hiff.2 h
    refine ⟨hlisted, hobeys, ?_⟩
    rintro pre post rfl ts hlists hrounds
    have hpre : (run step init pre).Listed := hlisted pre (List.prefix_append pre post)
    have hpost : Always step Listed (run step init pre) post := by
      intro more hmore
      rw [← run_append]
      exact hlisted _ ((List.prefix_append_right_inj pre).2 hmore)
    obtain ⟨-, ts', hlists', -, hsched⟩ := hpre
    obtain rfl := hlists.unique hlists'
    have hran : (run step init pre).scheduled.length ≤ (run step init (pre ++ post)).ran.length := by
      rw [run_append]
      refine ran_of_rounds hpost le_rfl ?_
      rw [hsched, List.length_append]
      omega
    obtain ⟨-, last, -, -, hlast⟩ := hlisted.last
    have hfirst : (run step init pre).scheduled <+: (run step init (pre ++ post)).scheduled := by
      rw [run_append]
      exact scheduled_prefix_run _ post
    exact List.prefix_of_prefix_length_le hfirst (hlast ▸ List.prefix_append _ last) hran

/-- Two tasklets are scheduled, and the first again when it has run: the
list is a circle. -/
theorem circle_not_orderly :
    ¬ Orderly [Event.schedule (0 : ℕ), .schedule 1, .runNext, .schedule 0] := by
  intro h
  obtain ⟨-, ts, hlists, -, hsched⟩ := h.listed.last
  have hts : ts = [1, 0] := by
    have heq : [0, 1, 0] = [0] ++ ts := hsched
    simpa using heq.symm
  rw [hts] at hlists
  have hend : (run step init [Event.schedule (0 : ℕ), .schedule 1, .runNext, .schedule 0]).cells
      (.next 0) = none := hlists.2.2
  exact absurd hend (by decide)

end Tasklet

end Dmx4Linux2
