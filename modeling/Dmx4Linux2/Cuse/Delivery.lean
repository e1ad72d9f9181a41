import Dmx4Linux2.Common.Run
import Dmx4Linux2.Cuse.Moves

/-!
# CUSE framework — the frames a file gets

A frame that passes the filter of a context answers the read pending
there, or goes into the queue of the context, out of which later reads
are answered. The history of a file is read off the actions of the daemon
since it was opened. The frames that passed and were not to be missed,
because a read was waiting or there was a poll handle and a frame in the
pool, are those its reads were answered with and then those in its queue
(`Delivers`).
-/

namespace Dmx4Linux2

namespace Cuse

open Dmx4Linux2.Core

variable {ι : Type} [DecidableEq ι]
variable {d d' : Daemon ι} {k k' : Key ι} {rs : List (Asked ι)} {e : Event ι}

/-- The frames that passed the filter of a context since it was opened,
each with whether a read or a queue was there for it, and the frames its
reads were answered with. -/
structure History where
  passed : List (Frame × Bool)
  answered : List Frame

/-- The history of a context after an action. -/
def History.observe (k : Key ι) (h : History) : Action ι → History
  | .reply req (.opened fh) => if req.card = k.1 ∧ fh = k.2 then ⟨[], []⟩ else h
  | .reply req (.buf frame) =>
    if req.key = some k then { h with answered := h.answered ++ [frame] } else h
  | .passed k' frame waits room =>
    if k' = k then { h with passed := h.passed ++ [(frame, waits || room)] } else h
  | _ => h

def Daemon.history (d : Daemon ι) (k : Key ι) : History :=
  d.actions.foldl (History.observe k) ⟨[], []⟩

/-- The frames of a history that were not to be missed. -/
def History.kept (h : History) : List Frame := (h.passed.filter (·.2)).map Prod.fst

/-! ## One move -/

namespace Daemon

@[simp] theorem act_history (a : Action ι) (k : Key ι) :
    (d.act a).history k = (d.history k).observe k a := by
  simp [history, act]

@[simp] theorem reply_history (req : Req ι) (r : Reply) (k : Key ι) :
    (d.reply req r).history k = (d.history k).observe k (.reply req r) := d.act_history _ k

@[simp] theorem setContext_history (ctx : Context ι) (k' : Key ι) :
    (d.setContext k ctx).history k' = d.history k' := rfl

@[simp] theorem putFrame_history (e : Entry) (k : Key ι) :
    (d.putFrame e).history k = d.history k := rfl

theorem withPool_history (pool : Framequeue) (k : Key ι) :
    { d with freeFramequeue := pool }.history k = d.history k := rfl

end Daemon

namespace History

variable {h : History}

theorem observe_plain {r : Reply} (hplain : r.plain = true) (req : Req ι) (k : Key ι) :
    h.observe k (.reply req r) = h := by
  cases r with
  | opened fh => exact absurd hplain (by simp [Reply.plain])
  | buf frame => exact absurd hplain (by simp [Reply.plain])
  | _ => rfl

theorem observe_buf {req : Req ι} (hkey : req.key = some k) (frame : Frame) :
    h.observe k (.reply req (.buf frame)) = { h with answered := h.answered ++ [frame] } :=
  if_pos hkey

theorem observe_buf_of_ne {req : Req ι} (hkey : req.key = some k) (hne : k' ≠ k) (frame : Frame) :
    h.observe k' (.reply req (.buf frame)) = h := by
  refine if_neg fun hkey' => hne ?_
  exact Option.some.inj (hkey'.symm.trans hkey)

theorem observe_opened {req : Req ι} (hcard : req.card = k.1) :
    h.observe k (.reply req (.opened k.2)) = ⟨[], []⟩ :=
  if_pos ⟨hcard, rfl⟩

theorem observe_opened_of_ne {req : Req ι} (hcard : req.card = k.1) (hne : k' ≠ k) :
    h.observe k' (.reply req (.opened k.2)) = h := by
  refine if_neg fun hboth => hne ?_
  exact Prod.ext (hboth.1.symm.trans hcard) (Fin.ext hboth.2).symm

theorem observe_passed (frame : Frame) (waits room : Bool) :
    h.observe k (.passed k frame waits room) =
      { h with passed := h.passed ++ [(frame, waits || room)] } :=
  if_pos rfl

theorem observe_passed_of_ne (hne : k' ≠ k) (frame : Frame) (waits room : Bool) :
    h.observe k' (.passed k frame waits room) = h :=
  if_neg fun heq => hne heq.symm

theorem kept_concat (frame : Frame) (keep : Bool) :
    kept { h with passed := h.passed ++ [(frame, keep)] } =
      h.kept ++ if keep then [frame] else [] := by
  cases keep <;> simp [kept, List.filter_append]

end History

/-- **The invariant of a context**: a read waits only while the queue is
empty, and it is a read of this context; and of a context in use, the
frames not to be missed are those its reads were answered with and then
those in its queue. -/
structure Delivers (d : Daemon ι) (k : Key ι) : Prop where
  pending : (d.contexts k).readReq.isSome = true → (d.contexts k).framequeue = some []
  own : ∀ req, (d.contexts k).readReq = some req → req.key = some k
  kept : (d.contexts k).inUse = true → ∃ q, (d.contexts k).framequeue = some q ∧
    (d.history k).answered ++ q.map Entry.frame = (d.history k).kept

/-- A context that a move leaves alone. -/
theorem Delivers.elsewhere (h : Delivers d k) (hctx : d'.contexts k = d.contexts k)
    (hhist : d'.history k = d.history k) : Delivers d' k where
  pending := by rw [hctx]; exact h.pending
  own := by rw [hctx]; exact h.own
  kept := by rw [hctx, hhist]; exact h.kept

/-- **A move changes one context**: only the invariant of that one is to
be looked at. -/
theorem Delivers.one (h : ∀ k, Delivers d k) (k : Key ι)
    (hctx : ∀ k', k' ≠ k → d'.contexts k' = d.contexts k')
    (hhist : ∀ k', k' ≠ k → d'.history k' = d.history k') (hk : Delivers d' k) (k' : Key ι) :
    Delivers d' k' := by
  by_cases heq : k' = k
  · rw [heq]
    exact hk
  · exact (h k').elsewhere (hctx k' heq) (hhist k' heq)

/-- A context of which a move changes what the invariant does not read,
or takes a read away. -/
theorem Delivers.same (h : Delivers d k)
    (hread : (d'.contexts k).readReq = none ∨ (d'.contexts k).readReq = (d.contexts k).readReq)
    (hqueue : (d'.contexts k).framequeue = (d.contexts k).framequeue)
    (huse : (d'.contexts k).inUse = (d.contexts k).inUse)
    (hhist : d'.history k = d.history k) : Delivers d' k := by
  refine ⟨fun hsome => ?_, fun req hreq => ?_, ?_⟩
  · rcases hread with hread | hread
    · rw [hread] at hsome
      exact absurd hsome (by simp)
    · rw [hread] at hsome
      rw [hqueue]
      exact h.pending hsome
  · rcases hread with hread | hread
    · rw [hread] at hreq
      exact absurd hreq (by simp)
    · rw [hread] at hreq
      exact h.own req hreq
  · rw [huse, hqueue, hhist]
    exact h.kept

/-- A frame answers the read that waits. -/
theorem Delivers.hand (h : Delivers d k) (req : Req ι) (frame : Frame) (room : Bool)
    (huse : (d.contexts k).inUse = true) (hread : (d.contexts k).readReq = some req) :
    Delivers (((d.act (.passed k frame true room)).reply req (.buf frame)).setContext k
      { d.contexts k with readReq := none }) k := by
  have hkey := h.own req hread
  have hempty := h.pending (by rw [hread]; rfl)
  obtain ⟨q, hq, hkept⟩ := h.kept huse
  obtain rfl : q = [] := Option.some.inj (hq.symm.trans hempty)
  refine ⟨?_, ?_, fun _ => ⟨[], ?_, ?_⟩⟩
  · simp
  · simp
  · simpa using hempty
  · simp only [Daemon.setContext_history, Daemon.reply_history, Daemon.act_history,
      History.observe_passed, History.observe_buf hkey]
    rw [List.map_nil, List.append_nil] at hkept ⊢
    simp [History.kept, hkept]

/-- A frame is queued. -/
theorem Delivers.enqueue (h : Delivers d k) (frame : Frame) (e : Entry) (pool : Framequeue)
    (huse : (d.contexts k).inUse = true) (hread : (d.contexts k).readReq = none) :
    Delivers ({ d.act (.passed k frame false true) with freeFramequeue := pool }.setContext k
      { d.contexts k with
        framequeue := (d.contexts k).framequeue.map
          (Framequeue.put · (some { e with frame := frame })) }) k := by
  obtain ⟨q, hq, hkept⟩ := h.kept huse
  refine ⟨?_, ?_, fun _ => ⟨q ++ [{ e with frame := frame }], ?_, ?_⟩⟩
  · simp [hread]
  · simp [hread]
  · simp [hq, Framequeue.put]
  · rw [Daemon.setContext_history, Daemon.withPool_history, Daemon.act_history,
      History.observe_passed, History.kept_concat, ← hkept]
    simp

/-- The first frame in the queue answers a read. -/
theorem Delivers.dequeue (h : Delivers d k) (req : Req ι) (e : Entry) (q : Framequeue)
    (hkey : req.key = some k) (hqueue : (d.contexts k).framequeue = some (e :: q)) :
    Delivers (((d.setContext k { d.contexts k with framequeue := some q }).reply req
      (.buf e.frame)).putFrame e) k := by
  have hnone : (d.contexts k).readReq = none := by
    by_contra hsome
    have hempty := h.pending (Option.isSome_iff_ne_none.2 hsome)
    rw [hqueue] at hempty
    exact absurd (Option.some.inj hempty) (by simp)
  refine ⟨?_, ?_, fun huse => ⟨q, ?_, ?_⟩⟩
  · simp [hnone]
  · simp [hnone]
  · simp
  · obtain ⟨q', hq', hkept⟩ := h.kept (by simpa using huse)
    obtain rfl : e :: q = q' := Option.some.inj (hqueue.symm.trans hq')
    simp only [Daemon.putFrame_history, Daemon.reply_history, Daemon.setContext_history,
      History.observe_buf hkey]
    simpa [History.kept] using hkept

/-- A context that was opened has an empty queue and no history. -/
theorem Delivers.openAt (k : Key ι) {req : Req ι} (hcard : req.card = k.1) (nonblock : Bool) :
    Delivers ((d.setContext k (Context.fresh nonblock)).reply req (.opened k.2)) k := by
  refine ⟨?_, ?_, fun _ => ⟨[], ?_, ?_⟩⟩
  · simp [Context.fresh, Context.zero]
  · simp [Context.fresh, Context.zero]
  · simp [Context.fresh, Framequeue.init]
  · simp [History.observe_opened hcard, History.kept]

/-- A read waits at an empty queue. -/
theorem Delivers.pend (h : Delivers d k) {req : Req ι} (hkey : req.key = some k)
    (hempty : (d.contexts k).framequeue = some []) :
    Delivers (d.setContext k { d.contexts k with readReq := some req }) k := by
  refine ⟨?_, ?_, ?_⟩
  · simpa using hempty
  · intro req' hreq'
    simp only [Daemon.setContext_self, Option.some.injEq] at hreq'
    rw [← hreq']
    exact hkey
  · simpa using h.kept

/-- A frame is missed. -/
theorem Delivers.miss (h : Delivers d k) (frame : Frame) (huse : (d.contexts k).inUse = true) :
    Delivers (d.act (.passed k frame false false)) k := by
  obtain ⟨q, hq, hkept⟩ := h.kept huse
  refine ⟨h.pending, h.own, fun _ => ⟨q, hq, ?_⟩⟩
  rw [Daemon.act_history, History.observe_passed, History.kept_concat]
  simpa using hkept

/-- **Every move keeps the invariant**, of every context. -/
theorem Delivers.move (h : ∀ k, Delivers d k) (hmove : Move d rs d') (k' : Key ι) :
    Delivers d' k' := by
  cases hmove with
  | answer req isRead r hplain =>
    exact (h k').elsewhere rfl (by rw [Daemon.reply_history, History.observe_plain hplain])
  | openAt k req nonblock hcard hfree =>
    refine .one h k (fun k' hk => ?_) (fun k' hk => ?_) ?_ k'
    · exact Daemon.setContext_of_ne hk _
    · rw [Daemon.reply_history, History.observe_opened_of_ne hcard hk, Daemon.setContext_history]
    · exact .openAt k hcard nonblock
  | interrupt k req hread =>
    have hhist : ∀ k', ((d.reply req (.err .eintr)).setContext k
        { d.contexts k with readReq := none }).history k' = d.history k' := by
      intro k'
      rw [Daemon.setContext_history, Daemon.reply_history, History.observe_plain rfl]
    refine .one h k (fun k' hk => ?_) (fun k' _ => hhist k') ?_ k'
    · exact Daemon.setContext_of_ne hk _
    · exact (h k).same (by simp) (by simp) (by simp) (hhist k)
  | pend k req hkey hread hempty hblock =>
    refine .one h k (fun k' hk => ?_) (fun k' _ => ?_) ?_ k'
    · exact Daemon.setContext_of_ne hk _
    · rfl
    · exact (h k).pend hkey hempty
  | hand k req frame room huse hread =>
    refine .one h k (fun k' hk => ?_) (fun k' hk => ?_) ?_ k'
    · exact Daemon.setContext_of_ne hk _
    · rw [Daemon.setContext_history, Daemon.reply_history,
        History.observe_buf_of_ne ((h k).own req hread) hk, Daemon.act_history,
        History.observe_passed_of_ne hk]
    · exact (h k).hand req frame room huse hread
  | enqueue k frame e pool huse hread hpoll hpool =>
    refine .one h k (fun k' hk => ?_) (fun k' hk => ?_) ?_ k'
    · exact Daemon.setContext_of_ne hk _
    · rw [Daemon.setContext_history, Daemon.withPool_history, Daemon.act_history,
        History.observe_passed_of_ne hk]
    · exact (h k).enqueue frame e pool huse hread
  | miss k frame huse hread =>
    refine .one h k (fun k' _ => ?_) (fun k' hk => ?_) ?_ k'
    · rfl
    · rw [Daemon.act_history, History.observe_passed_of_ne hk]
    · exact (h k).miss frame huse
  | dequeue k req e q hkey hqueue =>
    refine .one h k (fun k' hk => ?_) (fun k' hk => ?_) ?_ k'
    · simpa using Daemon.setContext_of_ne hk _
    · rw [Daemon.putFrame_history, Daemon.reply_history, History.observe_buf_of_ne hkey hk,
        Daemon.setContext_history]
    · exact (h k).dequeue req e q hkey hqueue
  | setMasks k portMask portTxmask =>
    refine .one h k (fun k' hk => ?_) (fun k' _ => ?_) ?_ k'
    · exact Daemon.setContext_of_ne hk _
    · rfl
    · exact (h k).same (by simp) (by simp) (by simp) rfl
  | setPoll k ph =>
    refine .one h k (fun k' hk => ?_) (fun k' _ => ?_) ?_ k'
    · exact Daemon.setContext_of_ne hk _
    · rfl
    · exact (h k).same (by simp) (by simp) (by simp) rfl
  | notifyPoll ph => exact (h k').elsewhere rfl (by rw [Daemon.act_history]; rfl)
  | destroyPoll ph => exact (h k').elsewhere rfl (by rw [Daemon.act_history]; rfl)

/-- Closing a context keeps the invariant: its queue is empty then. -/
theorem Delivers.close (h : ∀ k, Delivers d k) (k k' : Key ι) : Delivers (d.close k) k' := by
  refine .one h k (fun k' hk => ?_) (fun k' _ => ?_) ⟨fun hsome => ?_, ?_, ?_⟩ k'
  · exact Daemon.setContext_of_ne hk _
  · rfl
  · have hempty := (h k).pending (by simpa [Daemon.close] using hsome)
    simp [Daemon.close, hempty, Framequeue.cleanup]
  · simpa [Daemon.close] using (h k).own
  · simp [Daemon.close]

theorem Delivers.step (h : ∀ k, Delivers d k) (e : Event ι) (k : Key ι) :
    Delivers (d.step e) k := by
  rcases d.step_moves e with ⟨k', req, -, -, hs⟩ | ⟨-, -, hs⟩ | ⟨-, -, hmoves⟩
  · rw [hs]
    exact Delivers.move (Delivers.close h k') (Move.answer req false _ rfl) k
  · rw [hs]
    exact h k
  · exact hmoves.keeps (P := fun d => ∀ k, Delivers d k)
      (fun hmove h k => Delivers.move h hmove k) h k

/-! ## A run of the daemon -/

theorem Delivers.coreInit (garbage : ℕ → Frame) (k : Key ι) :
    Delivers (Daemon.coreInit garbage) k where
  pending h := absurd h (by simp [Daemon.coreInit, Context.zero])
  own req h := absurd h (by simp [Daemon.coreInit, Context.zero])
  kept h := absurd h (by simp [Daemon.coreInit, Context.zero])

/-- **Every state the daemon reaches has the invariant.** -/
theorem Delivers.run (garbage : ℕ → Frame) (es : List (Event ι)) (k : Key ι) :
    Delivers (Dmx4Linux2.run Daemon.step (Daemon.coreInit garbage) es) k := by
  have hall : Always Daemon.step (fun d => ∀ k, Delivers d k) (Daemon.coreInit garbage) es :=
    always_of_step (fun d e h k => Delivers.step h e k) (Delivers.coreInit garbage)
  exact hall.last k

end Cuse

end Dmx4Linux2
