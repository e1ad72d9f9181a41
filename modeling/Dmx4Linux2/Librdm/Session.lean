import Dmx4Linux2.Common.Run
import Dmx4Linux2.Librdm.Model.Session

/-!
# librdm — futures that are gone

A local future that times out is never taken out of `m_futures`: only
`handle` empties the list. So a future is left behind by a block just
when no frame at all has come in since it was added, and the next frame
is then written to memory that is gone. `noStale_iff` says exactly when
a session is free of this.
-/

namespace Dmx4Linux2

namespace Librdm

namespace Session

variable {s s₀ : Session} {e : Event} {es pre : List Event} {p : ℕ} {data : DmxData}

/-- **No future in the list is gone.** -/
def NoStale (s : Session) : Prop := ∀ p ∈ s.api.futures, p ∉ s.ended

/-- A frame is written to a future that still exists. -/
def CompletesLive (s : Session) (e : Event) : Prop :=
  ∀ data p, e = .frame data → s.api.futures.head? = some p → p ∉ s.ended

/-- The event adds a local future. -/
def AddsLocal : Event → Prop
  | .mute whom | .unmute whom => whom ≠ broadcast
  | .discoverPass => True
  | _ => False

/-- **A frame has come in since the local future at `p` was added.** -/
def FrameSince (s₀ : Session) (pre : List Event) (p : ℕ) : Prop :=
  ∃ a e b, pre = a ++ e :: b ∧ AddsLocal e ∧ (run step s₀ a).api.next = p ∧
    ∃ data, Event.frame data ∈ b

/-! ## One event -/

/-- A future is added. -/
structure Adds (s : Session) (e : Event) : Prop where
  futures : (s.step e).api.futures = s.api.futures ++ [s.api.next]
  next : (s.step e).api.next = s.api.next + 1
  ended : (s.step e).ended = s.ended
  locals : AddsLocal e ∧ (s.step e).locals = s.api.next :: s.locals ∨
    ¬ AddsLocal e ∧ (s.step e).locals = s.locals
  frame : ∀ data, e ≠ .frame data

/-- Nothing changes but the states of futures and, by a frame, the list. -/
structure Quiet (s : Session) (e : Event) : Prop where
  next : (s.step e).api.next = s.api.next
  ended : (s.step e).ended = s.ended
  locals : (s.step e).locals = s.locals
  adds : ¬ AddsLocal e

theorem adds_addLocal (he : AddsLocal e) (hs : s.step e = s.addLocal) : Adds s e where
  futures := by rw [hs]; rfl
  next := by rw [hs]; rfl
  ended := by rw [hs]; rfl
  locals := Or.inl ⟨he, by rw [hs]; rfl⟩
  frame data heq := by
    rw [heq] at he
    exact he

/-- **What an event can do**: add a future, clear the list, leave a
block, or none of these. -/
theorem step_cases (s : Session) (e : Event) :
    Adds s e ∨
    (Quiet s e ∧ (∃ data, e = .frame data) ∧ (s.step e).api.futures = []) ∨
    (∃ p, e = .leave p ∧ s.canLeave p ∧
      s.step e = { s with locals := s.locals.erase p, ended := p :: s.ended }) ∨
    (Quiet s e ∧ (∀ data, e ≠ .frame data) ∧ (∀ p, e = .leave p → ¬ s.canLeave p) ∧
      (s.step e).api.futures = s.api.futures) := by
  have hmute : ∀ whom, s.step e = s.sendMute whom → (AddsLocal e ↔ whom ≠ broadcast) →
      (∀ data, e ≠ .frame data) → (∀ p, e ≠ .leave p) →
      Adds s e ∨ (Quiet s e ∧ (∀ data, e ≠ .frame data) ∧ (∀ p, e = .leave p → ¬ s.canLeave p) ∧
        (s.step e).api.futures = s.api.futures) := by
    intro whom hs hadds hframe hleave
    unfold sendMute at hs
    by_cases hw : whom = broadcast
    · rw [if_pos hw] at hs
      exact Or.inr ⟨⟨by rw [hs], by rw [hs], by rw [hs], fun h => hadds.1 h hw⟩, hframe,
        fun p hp => absurd hp (hleave p), by rw [hs]⟩
    · rw [if_neg hw] at hs
      exact Or.inl (adds_addLocal (hadds.2 hw) hs)
  cases e with
  | mute whom =>
    rcases hmute whom rfl Iff.rfl (by simp) (by simp) with h | h
    · exact Or.inl h
    · exact Or.inr (Or.inr (Or.inr h))
  | unmute whom =>
    rcases hmute whom rfl Iff.rfl (by simp) (by simp) with h | h
    · exact Or.inl h
    · exact Or.inr (Or.inr (Or.inr h))
  | discoverPass => exact Or.inl (adds_addLocal trivial rfl)
  | get => exact Or.inl ⟨rfl, rfl, rfl, Or.inr ⟨id, rfl⟩, by simp⟩
  | frame data =>
    refine Or.inr (Or.inl ⟨⟨?_, rfl, rfl, id⟩, ⟨data, rfl⟩, ?_⟩)
    · simp only [step, RdmApi.handle]
      split <;> rfl
    · simp only [step, RdmApi.handle]
      split <;> simp_all
  | timeout p =>
    exact Or.inr (Or.inr (Or.inr ⟨⟨rfl, rfl, rfl, id⟩, by simp, by simp, rfl⟩))
  | leave p =>
    by_cases hp : s.canLeave p
    · exact Or.inr (Or.inr (Or.inl ⟨p, rfl, hp, if_pos hp⟩))
    · have hs : s.step (.leave p) = s := if_neg hp
      refine Or.inr (Or.inr (Or.inr ⟨⟨by rw [hs], by rw [hs], by rw [hs], id⟩, by simp, ?_,
        by rw [hs]⟩))
      intro q hq
      obtain rfl : p = q := Event.leave.inj hq
      exact hp

/-! ## A session -/

/-- Addresses are handed out in order. -/
structure Allocated (s : Session) : Prop where
  futures : ∀ p ∈ s.api.futures, p < s.api.next
  locals : ∀ p ∈ s.locals, p < s.api.next
  ended : ∀ p ∈ s.ended, p < s.api.next

theorem Allocated.step (h : Allocated s) (e : Event) : Allocated (s.step e) := by
  rcases step_cases s e with ha | ⟨hq, -, hf⟩ | ⟨p, -, hp, hs⟩ | ⟨hq, -, -, hf⟩
  · refine ⟨?_, ?_, ?_⟩
    · intro p hp
      rw [ha.futures, List.mem_append, List.mem_singleton] at hp
      rw [ha.next]
      rcases hp with hp | rfl
      · exact Nat.lt_succ_of_lt (h.futures p hp)
      · exact Nat.lt_succ_self _
    · intro p hp
      rw [ha.next]
      rcases ha.locals with ⟨-, hl⟩ | ⟨-, hl⟩
      · rw [hl, List.mem_cons] at hp
        rcases hp with rfl | hp
        · exact Nat.lt_succ_self _
        · exact Nat.lt_succ_of_lt (h.locals p hp)
      · rw [hl] at hp
        exact Nat.lt_succ_of_lt (h.locals p hp)
    · intro p hp
      rw [ha.ended] at hp
      rw [ha.next]
      exact Nat.lt_succ_of_lt (h.ended p hp)
  · refine ⟨?_, ?_, ?_⟩
    · rw [hf]
      exact fun p hp => absurd hp List.not_mem_nil
    · rw [hq.locals, hq.next]
      exact h.locals
    · rw [hq.ended, hq.next]
      exact h.ended
  · rw [hs]
    refine ⟨h.futures, fun q hq => h.locals q (List.mem_of_mem_erase hq), fun q hq => ?_⟩
    rcases List.mem_cons.1 hq with rfl | hq
    · exact h.locals q hp.1
    · exact h.ended q hq
  · refine ⟨?_, ?_, ?_⟩
    · rw [hf, hq.next]
      exact h.futures
    · rw [hq.locals, hq.next]
      exact h.locals
    · rw [hq.ended, hq.next]
      exact h.ended

/-- **An event leaves the session clean just when it leaves no block
whose future is in the list.** -/
theorem noStale_step (hA : Allocated s) (h : NoStale s) :
    NoStale (s.step e) ↔ ∀ p, e = .leave p → s.canLeave p → p ∉ s.api.futures := by
  rcases step_cases s e with ha | ⟨hq, ⟨data, rfl⟩, hf⟩ | ⟨p, rfl, hp, hs⟩ | ⟨hq, -, hleave, hf⟩
  · refine iff_of_true ?_ ?_
    · intro p hp
      rw [ha.futures, List.mem_append, List.mem_singleton] at hp
      rw [ha.ended]
      rcases hp with hp | rfl
      · exact h p hp
      · exact fun hend => Nat.lt_irrefl _ (hA.ended _ hend)
    · rintro p rfl hp
      have hnext := ha.next
      rw [show s.step (.leave p) = _ from if_pos hp] at hnext
      simp at hnext
  · refine iff_of_true ?_ (by simp)
    intro p hp
    rw [hf] at hp
    exact absurd hp List.not_mem_nil
  · rw [hs]
    constructor
    · rintro hstale q hq -
      obtain rfl : p = q := Event.leave.inj hq
      exact fun hmem => hstale p hmem List.mem_cons_self
    · intro hmem q hq hend
      rcases List.mem_cons.1 hend with rfl | hend
      · exact hmem q rfl hp hq
      · exact h q hq hend
  · refine iff_of_true ?_ fun p hp hcan => absurd hcan (hleave p hp)
    intro p hp
    rw [hf] at hp
    rw [hq.ended]
    exact h p hp

/-! ## The history of a future -/

/-- The local future at `p` was added by the events so far. -/
def Registered (s₀ : Session) (pre : List Event) (p : ℕ) : Prop :=
  ∃ a e b, pre = a ++ e :: b ∧ AddsLocal e ∧ (run step s₀ a).api.next = p

theorem Registered.concat (h : Registered s₀ pre p) (e : Event) : Registered s₀ (pre ++ [e]) p := by
  obtain ⟨a, e', b, rfl, hadds, hnext⟩ := h
  exact ⟨a, e', b ++ [e], by simp, hadds, hnext⟩

theorem FrameSince.concat (h : FrameSince s₀ pre p) (e : Event) : FrameSince s₀ (pre ++ [e]) p := by
  obtain ⟨a, e', b, rfl, hadds, hnext, data, hdata⟩ := h
  exact ⟨a, e', b ++ [e], by simp, hadds, hnext, data, List.mem_append_left _ hdata⟩

/-- A frame comes in after all futures registered before it. -/
theorem Registered.frameSince (h : Registered s₀ pre p) (data : DmxData) :
    FrameSince s₀ (pre ++ [.frame data]) p := by
  obtain ⟨a, e, b, rfl, hadds, hnext⟩ := h
  exact ⟨a, e, b ++ [.frame data], by simp, hadds, hnext, data, by simp⟩

/-- The last event registered the future, or an earlier one did. -/
theorem Registered.of_concat (h : Registered s₀ (pre ++ [e]) p) :
    Registered s₀ pre p ∨ AddsLocal e ∧ (run step s₀ pre).api.next = p := by
  obtain ⟨a, e', b, heq, hadds, hnext⟩ := h
  rcases List.eq_nil_or_concat' b with rfl | ⟨b, c, rfl⟩
  · obtain ⟨rfl, he⟩ := List.append_inj' heq rfl
    obtain rfl : e = e' := List.singleton_inj.1 he
    exact Or.inr ⟨hadds, hnext⟩
  · have heq' : pre ++ [e] = (a ++ e' :: b) ++ [c] := by simpa using heq
    obtain ⟨rfl, -⟩ := List.append_inj' heq' rfl
    exact Or.inl ⟨a, e', b, rfl, hadds, hnext⟩

/-- The last event is the frame, or one came in before. -/
theorem FrameSince.of_concat (h : FrameSince s₀ (pre ++ [e]) p) :
    FrameSince s₀ pre p ∨ ∃ data, e = .frame data := by
  obtain ⟨a, e', b, heq, hadds, hnext, data, hdata⟩ := h
  rcases List.eq_nil_or_concat' b with rfl | ⟨b, c, rfl⟩
  · exact absurd hdata List.not_mem_nil
  · have heq' : pre ++ [e] = (a ++ e' :: b) ++ [c] := by simpa using heq
    obtain ⟨rfl, hc⟩ := List.append_inj' heq' rfl
    obtain rfl : e = c := List.singleton_inj.1 hc
    rcases List.mem_append.1 hdata with hdata | hdata
    · exact Or.inl ⟨a, e', b, rfl, hadds, hnext, data, hdata⟩
    · exact Or.inr ⟨data, (List.mem_singleton.1 hdata).symm⟩

theorem FrameSince.registered (h : FrameSince s₀ pre p) : Registered s₀ pre p := by
  obtain ⟨a, e, b, heq, hadds, hnext, -⟩ := h
  exact ⟨a, e, b, heq, hadds, hnext⟩

/-- **What the state knows of the history**: a local future is in the
list just when no frame has come in since it was added. -/
structure Tracked (s₀ : Session) (pre : List Event) : Prop where
  registered : ∀ p ∈ (run step s₀ pre).locals, Registered s₀ pre p
  below : ∀ p, Registered s₀ pre p → p < (run step s₀ pre).api.next
  answered : ∀ p ∈ (run step s₀ pre).locals, p ∉ (run step s₀ pre).api.futures →
    FrameSince s₀ pre p
  cleared : ∀ p, FrameSince s₀ pre p → p ∉ (run step s₀ pre).api.futures

/-- The history of an event that adds a future. -/
theorem Tracked.adds (h : Tracked s₀ pre) (ha : Adds (run step s₀ pre) e) :
    Tracked s₀ (pre ++ [e]) := by
  have hnew : ∀ p, p ∈ (run step s₀ (pre ++ [e])).locals →
      p ∈ (run step s₀ pre).locals ∨ AddsLocal e ∧ p = (run step s₀ pre).api.next := by
    intro p hp
    rw [run_concat] at hp
    rcases ha.locals with ⟨hadds, hl⟩ | ⟨-, hl⟩
    · rw [hl] at hp
      rcases List.mem_cons.1 hp with rfl | hp
      · exact Or.inr ⟨hadds, rfl⟩
      · exact Or.inl hp
    · rw [hl] at hp
      exact Or.inl hp
  refine ⟨fun p hp => ?_, fun p hp => ?_, fun p hp hf => ?_, fun p hp hf => ?_⟩
  · rcases hnew p hp with hp | ⟨hadds, rfl⟩
    · exact (h.registered p hp).concat e
    · exact ⟨pre, e, [], rfl, hadds, rfl⟩
  · rw [run_concat, ha.next]
    rcases hp.of_concat with hp | ⟨-, rfl⟩
    · exact Nat.lt_succ_of_lt (h.below p hp)
    · exact Nat.lt_succ_self _
  · rw [run_concat, ha.futures, List.mem_append, List.mem_singleton, not_or] at hf
    rcases hnew p hp with hp | ⟨-, rfl⟩
    · exact (h.answered p hp hf.1).concat e
    · exact absurd rfl hf.2
  · rw [run_concat, ha.futures, List.mem_append, List.mem_singleton] at hf
    rcases hp.of_concat with hp | ⟨data, rfl⟩
    · rcases hf with hf | rfl
      · exact h.cleared p hp hf
      · exact Nat.lt_irrefl _ (h.below _ hp.registered)
    · exact ha.frame data rfl

/-- The history of an event that adds none. -/
theorem Tracked.keeps (h : Tracked s₀ pre) (hadds : ¬ AddsLocal e)
    (hnext : ((run step s₀ pre).step e).api.next = (run step s₀ pre).api.next)
    (hlocals : ∀ p ∈ ((run step s₀ pre).step e).locals, p ∈ (run step s₀ pre).locals)
    (hfutures : (∃ data, e = .frame data) ∧ ((run step s₀ pre).step e).api.futures = [] ∨
      (∀ data, e ≠ .frame data) ∧
        ((run step s₀ pre).step e).api.futures = (run step s₀ pre).api.futures) :
    Tracked s₀ (pre ++ [e]) := by
  refine ⟨fun p hp => ?_, fun p hp => ?_, fun p hp hf => ?_, fun p hp hf => ?_⟩
  · rw [run_concat] at hp
    exact (h.registered p (hlocals p hp)).concat e
  · rw [run_concat, hnext]
    rcases hp.of_concat with hp | ⟨he, -⟩
    · exact h.below p hp
    · exact absurd he hadds
  · rw [run_concat] at hp hf
    rcases hfutures with ⟨⟨data, rfl⟩, -⟩ | ⟨-, hsame⟩
    · exact (h.registered p (hlocals p hp)).frameSince data
    · rw [hsame] at hf
      exact (h.answered p (hlocals p hp) hf).concat e
  · rw [run_concat] at hf
    rcases hfutures with ⟨-, hnil⟩ | ⟨hframe, hsame⟩
    · rw [hnil] at hf
      exact absurd hf List.not_mem_nil
    · rw [hsame] at hf
      rcases hp.of_concat with hp | ⟨data, rfl⟩
      · exact h.cleared p hp hf
      · exact hframe data rfl

/-- **The history of every session is tracked.** -/
theorem tracked (object : ℕ → RdmFuture) (pre : List Event) : Tracked (new object) pre := by
  induction pre using List.reverseRecOn with
  | nil =>
    refine ⟨fun p hp => absurd hp List.not_mem_nil, ?_, fun p hp => absurd hp List.not_mem_nil, ?_⟩
    · rintro p ⟨a, e, b, heq, -⟩
      simp at heq
    · rintro p ⟨a, e, b, heq, -⟩
      simp at heq
  | append_singleton pre e ih =>
    rcases step_cases (run step (new object) pre) e with ha | ⟨hq, he, hf⟩ | ⟨p, rfl, -, hs⟩ |
      ⟨hq, he, -, hf⟩
    · exact ih.adds ha
    · exact ih.keeps hq.adds hq.next (by rw [hq.locals]; exact fun p hp => hp) (Or.inl ⟨he, hf⟩)
    · refine ih.keeps id (by rw [hs]) ?_ (Or.inr ⟨by simp, by rw [hs]⟩)
      rw [hs]
      exact fun q hq => List.mem_of_mem_erase hq
    · exact ih.keeps hq.adds hq.next (by rw [hq.locals]; exact fun p hp => hp) (Or.inr ⟨he, hf⟩)

/-! ## When no future is left behind -/

/-- A clean session writes to futures that exist. -/
theorem completesLive_of_noStale (h : Always step NoStale s₀ es) :
    EachStep step CompletesLive s₀ es := by
  intro pre e hpre data p _ hhead
  have hprefix : pre <+: es := (List.prefix_append pre [e]).trans hpre
  exact h pre hprefix p (List.mem_of_mem_head? hhead)

/-- **When no future is left behind.** In a session of a controller no
future in the list is gone, and no frame is written to one that is, if
and only if every local future that ends has seen a frame come in since
it was added: the block of a `wait` that times out with no frame at all
leaves its future behind. -/
theorem noStale_iff (object : ℕ → RdmFuture) (es : List Event) :
    (Always step NoStale (new object) es ∧ EachStep step CompletesLive (new object) es) ↔
      ∀ pre p, pre ++ [.leave p] <+: es → (run step (new object) pre).canLeave p →
        FrameSince (new object) pre p := by
  have hiff : Always step NoStale (new object) es ↔ EachStep step
      (fun s e => ∀ p, e = .leave p → s.canLeave p → p ∉ s.api.futures) (new object) es := by
    have hstart : Allocated (new object) :=
      ⟨fun p hp => absurd hp List.not_mem_nil, fun p hp => absurd hp List.not_mem_nil,
        fun p hp => absurd hp List.not_mem_nil⟩
    exact always_iff_eachStep (fun s e h => Allocated.step h e)
      (fun s e hA h => noStale_step hA h) hstart fun p hp => absurd hp List.not_mem_nil
  constructor
  · rintro ⟨h, -⟩ pre p hpre hcan
    have hmem := hiff.1 h pre (.leave p) hpre p rfl hcan
    exact (tracked object pre).answered p hcan.1 hmem
  · intro h
    have hclean : Always step NoStale (new object) es := by
      refine hiff.2 fun pre e hpre p he hcan => ?_
      subst he
      exact (tracked object pre).cleared p (h pre p hpre hcan)
    exact ⟨hclean, completesLive_of_noStale hclean⟩

/-- A mute of a device that does not answer, so that the wait times out,
and a frame that comes in later. -/
def unansweredMute : List Event := [.mute 5, .timeout 0, .leave 0, .frame ⟨clearedBuffer, 26⟩]

/-- Its future is left behind, and the frame is written to it. -/
theorem stale_after_unansweredMute :
    ¬ Always step NoStale (new fun _ => ⟨clearedBuffer, .busy⟩) unansweredMute ∧
      ¬ EachStep step CompletesLive (new fun _ => ⟨clearedBuffer, .busy⟩) unansweredMute := by
  constructor
  · intro h
    exact absurd (h [.mute 5, .timeout 0, .leave 0] ⟨[_], rfl⟩ 0 (by decide)) (by decide)
  · intro h
    exact absurd (h [.mute 5, .timeout 0, .leave 0] _ ⟨[], rfl⟩ _ 0 rfl (by decide)) (by decide)

end Session

end Librdm

end Dmx4Linux2
