import Dmx4Linux2.Common.Holdings
import Dmx4Linux2.Core.Framequeue
import Dmx4Linux2.Cuse.Arrival
import Mathlib.Data.Fintype.Prod

/-!
# CUSE framework — the pool of frames

A frame is queued in an entry out of the pool all cards share, and a read
puts the entry back. `conserved_iff` says when the entries allocated at
start stay where they belong, in the pool or in the queue of an open
file: as long as no file is closed with frames in its queue, for
`dmx512_framequeue_cleanup` frees them.
-/

namespace Dmx4Linux2

namespace Cuse

open Dmx4Linux2.Core Framequeue

variable {ι : Type} [Fintype ι] [DecidableEq ι]
variable {d d' : Daemon ι} {k : Key ι} {ctx : Context ι} {rs : List (Asked ι)}

/-- The entries in the queue of a context in use. -/
def Context.held (ctx : Context ι) : Multiset ℕ :=
  if ctx.inUse then ids (ctx.framequeue.getD []) else 0

/-- The entries in the pool and in the queues of all contexts in use. -/
def Daemon.entries (d : Daemon ι) : Multiset ℕ :=
  holdings (ids d.freeFramequeue) fun k => (d.contexts k).held

/-- **The entries are those allocated at start**, each in one queue. -/
def Conserved (d : Daemon ι) : Prop := d.entries = Multiset.range (32 * 32 * 2 * 4)

/-- There is no entry in the queue of the context. -/
def Context.Drained (ctx : Context ι) : Prop := ∀ q, ctx.framequeue = some q → q = []

omit [Fintype ι] [DecidableEq ι] in
theorem Context.Drained.getD (h : ctx.Drained) : ctx.framequeue.getD [] = [] := by
  cases hq : ctx.framequeue with
  | none => rfl
  | some q => exact h q hq

/-- **The contexts are in order**, and those not in use have nothing in
their queues. -/
structure Tidy (d : Daemon ι) : Prop where
  delivers : ∀ k, Delivers d k
  idle : ∀ k, (d.contexts k).inUse = false → (d.contexts k).Drained

/-! ## One move -/

/-- The entries of a daemon one of whose contexts is replaced. -/
theorem Daemon.entries_of_update (hctx : d'.contexts = Function.update d.contexts k ctx) :
    d'.entries = holdings (ids d'.freeFramequeue)
      (Function.update (fun k => (d.contexts k).held) k ctx.held) := by
  unfold entries
  congr 1
  funext k'
  rw [hctx]
  exact Function.apply_update (fun _ => Context.held) d.contexts k ctx k'

/-- A context is replaced by one that holds the same. -/
theorem Daemon.setContext_entries (d : Daemon ι) (k : Key ι) (ctx : Context ι)
    (hheld : ctx.held = (d.contexts k).held) : (d.setContext k ctx).entries = d.entries := by
  rw [entries_of_update (d := d) rfl]
  exact (holdings_update_iff _ _ k _).2 hheld

/-- **Every move keeps the entries**: it takes one out of the pool into a
queue, or back, or leaves them where they are. -/
theorem Tidy.entries_move (h : Tidy d) (hmove : Move d rs d') : d'.entries = d.entries := by
  cases hmove with
  | answer req isRead r hplain => rfl
  | openAt k req nonblock hcard hfree =>
    refine d.setContext_entries k (Context.fresh nonblock) ?_
    simp [Context.held, hfree, Context.fresh, Framequeue.init]
  | interrupt k req hread => exact d.setContext_entries k _ rfl
  | pend k req hkey hread hempty hblock => exact d.setContext_entries k _ rfl
  | hand k req frame room huse hread => exact d.setContext_entries k _ rfl
  | enqueue k frame e pool huse hread hpoll hpool =>
    obtain ⟨q, hq, -⟩ := (h.delivers k).kept huse
    have hheld : (d.contexts k).held = ids q := by simp [Context.held, huse, hq]
    have htake := holdings_take (ids pool) (fun k => (d.contexts k).held) k {e.id}
    rw [hheld, ← ids_cons e pool, ← hpool] at htake
    rw [Daemon.entries_of_update (d := d) rfl]
    refine Eq.trans ?_ htake
    congr 2
    simp [Context.held, huse, hq, ids_put]
  | miss k frame huse hread => rfl
  | dequeue k req e q hkey hqueue =>
    have huse : (d.contexts k).inUse = true := by
      by_contra hidle
      have hnil := h.idle k (Bool.eq_false_iff.2 hidle) (e :: q) hqueue
      exact absurd hnil (List.cons_ne_nil e q)
    have hheld : (d.contexts k).held = ids q + {e.id} := by
      simp [Context.held, huse, hqueue, ids_cons]
    rw [Daemon.entries_of_update (d := d) rfl]
    refine Eq.trans ?_ (holdings_put (ids d.freeFramequeue) hheld)
    congr 2
    · exact ids_put d.freeFramequeue e
    · simp [Context.held, huse]
  | setMasks k portMask portTxmask => exact d.setContext_entries k _ rfl
  | setPoll k ph => exact d.setContext_entries k _ rfl
  | notifyPoll ph => rfl
  | destroyPoll ph => rfl

omit [Fintype ι] in
/-- **Every move keeps the contexts tidy.** -/
theorem Tidy.move (h : Tidy d) (hmove : Move d rs d') : Tidy d' := by
  refine ⟨Delivers.move h.delivers hmove, fun k hidle => ?_⟩
  have hdrained := h.idle k
  have hturns := hmove.turns k
  generalize d'.contexts k = ctx' at hidle hturns ⊢
  cases hturns with
  | same => exact hdrained hidle
  | opens nonblock hfree => exact absurd hidle (by simp [Context.fresh])
  | answers => exact hdrained hidle
  | pends req hmem hkey hblock => exact hdrained hidle
  | queues q hqueue =>
    -- a queue that a move changes is one in use, since the others are empty
    rcases hqueue with huse | ⟨e, q', hq'⟩
    · exact absurd (hidle.symm.trans huse) (by simp)
    · exact absurd (hdrained hidle (e :: q') hq') (List.cons_ne_nil e q')
  | sets portMask portTxmask pollhandle => exact hdrained hidle

/-! ## A run of the daemon -/

omit [Fintype ι] in
theorem Tidy.close (h : Tidy d) (k : Key ι) : Tidy (d.close k) := by
  refine ⟨Delivers.close h.delivers k, fun k' hidle => ?_⟩
  by_cases hk : k' = k
  · subst hk
    intro q hq
    simp only [Daemon.close, Daemon.setContext_self, Option.map_eq_some_iff] at hq
    obtain ⟨q', -, rfl⟩ := hq
    rfl
  · unfold Daemon.close at hidle ⊢
    rw [Daemon.setContext_of_ne hk] at hidle ⊢
    exact h.idle k' hidle

/-- Closing a context keeps the entries just when it has none in its
queue. -/
theorem Tidy.entries_close_iff (h : Tidy d) (k : Key ι) :
    (d.close k).entries = d.entries ↔ (d.contexts k).Drained := by
  rw [Daemon.entries_of_update (d := d) rfl]
  refine (holdings_update_iff _ _ k _).trans ?_
  cases huse : (d.contexts k).inUse with
  | false => simpa [Context.held, huse] using h.idle k huse
  | true =>
    obtain ⟨q, hq, -⟩ := (h.delivers k).kept huse
    simp [Context.held, huse, hq, Context.Drained, ids_eq_zero, eq_comm (a := (0 : Multiset ℕ))]

omit [Fintype ι] in
theorem Tidy.step (h : Tidy d) (e : Event ι) : Tidy (d.step e) := by
  rcases d.step_moves e with ⟨k, req, -, -, hs⟩ | ⟨-, -, hs⟩ | ⟨-, -, hmoves⟩
  · rw [hs]
    exact (h.close k).move (Move.answer req false _ rfl)
  · rw [hs]
    exact h
  · exact hmoves.keeps (P := Tidy) (fun hmove h => h.move hmove) h

/-- The event closes no context with entries in its queue. -/
def Event.ClosesDrained (d : Daemon ι) (e : Event ι) : Prop :=
  ∀ k, e.closes = some k → (d.contexts k).Drained

/-- **One event keeps the entries** just when it closes no context with
entries in its queue. -/
theorem Tidy.entries_step_iff (h : Tidy d) (e : Event ι) :
    (d.step e).entries = d.entries ↔ e.ClosesDrained d := by
  unfold Event.ClosesDrained
  rcases d.step_moves e with ⟨k, req, hclose, -, hs⟩ | ⟨hclose, -, hs⟩ | ⟨hclose, -, hmoves⟩
  · have hentries : (d.step e).entries = (d.close k).entries := by
      rw [hs]
      rfl
    rw [hentries, h.entries_close_iff k, hclose]
    simp
  · simp [hs, hclose]
  · have hkeeps : Tidy (d.step e) ∧ (d.step e).entries = d.entries := by
      refine hmoves.keeps (P := fun d' => Tidy d' ∧ d'.entries = d.entries) ?_ ⟨h, rfl⟩
      intro d' rs d'' hmove hd'
      exact ⟨hd'.1.move hmove, (hd'.1.entries_move hmove).trans hd'.2⟩
    simp [hkeeps.2, hclose]

omit [Fintype ι] in
theorem Tidy.coreInit (garbage : ℕ → Frame) : Tidy (Daemon.coreInit garbage : Daemon ι) where
  delivers := Delivers.coreInit garbage
  idle k _ q hq := absurd hq (by simp [Daemon.coreInit, Context.zero])

omit [Fintype ι] in
theorem Tidy.always (garbage : ℕ → Frame) (es : List (Event ι)) :
    Always Daemon.step Tidy (Daemon.coreInit garbage) es :=
  always_of_step (fun _ e h => Tidy.step h e) (Tidy.coreInit garbage)

omit [DecidableEq ι] in
theorem Conserved.coreInit (garbage : ℕ → Frame) :
    Conserved (Daemon.coreInit garbage : Daemon ι) := by
  have hnone : ∑ k, ((Daemon.coreInit garbage : Daemon ι).contexts k).held = 0 :=
    Finset.sum_eq_zero fun _ _ => rfl
  unfold Conserved Daemon.entries holdings
  rw [hnone, add_zero, Daemon.coreInit, ids_allocated]

theorem Conserved.step_iff (h : Tidy d) (hcons : Conserved d) (e : Event ι) :
    Conserved (d.step e) ↔ e.ClosesDrained d := by
  unfold Conserved at hcons ⊢
  rw [← hcons]
  exact h.entries_step_iff e

/-- **Conservation.** The entries are at every moment exactly those
allocated at start, each in the pool or in one queue of a context in use,
just when every file that is closed has nothing left in its queue. -/
theorem conserved_iff (garbage : ℕ → Frame) (es : List (Event ι)) :
    Always Daemon.step Conserved (Daemon.coreInit garbage) es ↔
      EachStep Daemon.step (fun d e => e.ClosesDrained d) (Daemon.coreInit garbage) es :=
  always_iff_eachStep (fun _ e h => Tidy.step h e) (fun _ e h hcons => hcons.step_iff h e)
    (Tidy.coreInit garbage) (Conserved.coreInit garbage)

omit [Fintype ι] in
/-- A frame that passes the filter of a polled context stays in its
queue. -/
theorem not_drained_of_received (h : ∀ k, Delivers d k) {card : ι} {i : Fin 32} {frame : Frame}
    (hpool : 32 ≤ d.freeFramequeue.length) (hpolls : (d.contexts (card, i)).polls = true)
    (hread : (d.contexts (card, i)).readReq = none)
    (hpass : (d.contexts (card, i)).passes frame = true) :
    ¬ ((d.step (.received ⟨card, frame, fun _ => false⟩)).contexts (card, i)).Drained := by
  have hroom : d.pollers card (List.finRange 32) ≤ d.freeFramequeue.length :=
    (List.countP_le_length.trans_eq List.length_finRange).trans hpool
  obtain ⟨huse, hpoll⟩ := Bool.and_eq_true_iff.1 hpolls
  have hlisten : (d.contexts (card, i)).listens (fun _ => false) = true := by
    simp [Context.listens, huse, hpoll]
  have hgets := Daemon.receiveAll_gets card frame (fun _ => false) h (List.nodup_finRange 32)
    hroom (List.mem_finRange i) hlisten
  obtain ⟨new, q, -, -, hqueue, hq⟩ := hgets
  obtain ⟨q', hq', -⟩ := (h (card, i)).kept huse
  rw [hq', Option.map_some] at hqueue
  simp only [Daemon.step, Daemon.handleArrivals, List.foldl_cons, List.foldl_nil,
    Daemon.handleReceivedFrame_eq]
  intro hdrained
  have hnil : q' ++ q = [] := hdrained _ hqueue
  rw [(List.append_eq_nil_iff.1 hnil).2] at hq
  simp [Context.toQueue, Context.live, hread, hpass] at hq

/-- A file of the only card is opened, its filter is set to port 0, and
it is polled. -/
def onePolled : List (Event Unit) :=
  [.openReq ⟨0, (), 0⟩ false,
    .ioctl ⟨1, (), 0⟩ .setPortFilter ⟨8, 0, 1, false, 0, false⟩,
    .poll ⟨2, (), 0⟩ (some 0)]

theorem run_onePolled {d : Daemon Unit} (hzero : ∀ k, d.contexts k = Context.zero) :
    (run Daemon.step d onePolled).freeFramequeue = d.freeFramequeue ∧
      (run Daemon.step d onePolled).contexts ((), 0) =
        ⟨true, false, 1, 0, none, some 0, some []⟩ := by
  have hindex : d.freeContextIndex () = some 0 := by
    simp [Daemon.freeContextIndex, hzero, Context.zero, List.finRange_succ]
  simp [onePolled, run, Daemon.step, Daemon.cuseOpen, hindex, Daemon.cuseIoctl, Req.key,
    Daemon.setFilter, Daemon.cusePoll, Daemon.setPollhandle, Daemon.setContext, Daemon.reply,
    Daemon.act, Context.zero, Framequeue.init]

/-- **The entry in the queue of a file that is closed is lost**: after
this, 8191 are left. -/
theorem not_conserved_closeQueued :
    ¬ Always Daemon.step Conserved (Daemon.coreInit fun _ => Frame.single)
      (onePolled ++ [.received ⟨(), Frame.single, fun _ => false⟩] ++ [.release ⟨3, (), 0⟩]) := by
  intro h
  have htidy := Tidy.always (ι := Unit) (fun _ => Frame.single)
  obtain ⟨hpool, hctx⟩ := run_onePolled (d := Daemon.coreInit fun _ => Frame.single) fun _ => rfl
  have hbefore := h _ (List.prefix_append _ _)
  have hafter := h.last
  rw [run_concat] at hafter
  have hdrained := (hbefore.step_iff (htidy _).last _).1 hafter ((), 0) rfl
  rw [run_concat] at hdrained
  refine not_drained_of_received (htidy _).last.delivers ?_ ?_ ?_ ?_ hdrained
  · rw [hpool, Daemon.coreInit, length_allocated]
    decide
  · rw [hctx]
    rfl
  · rw [hctx]
  · rw [hctx]
    decide

end Cuse

end Dmx4Linux2
