import Dmx4Linux2.Cuse.Arrival

/-!
# CUSE framework — the history of a file, from the events

Which frames passed the filter of a file, and which of them were not to be
missed, is read off the events: the frames reported and written, the mask
of the context, its pending read and poll handle then, and the pool when
the loop comes to the context. The note the daemon makes of a frame that
passed is of these frames and no others (`history_passed_run`), so what the
reads of the file were answered with is compared with the events themselves
(`delivery`).
-/

namespace Dmx4Linux2

namespace Cuse

open Dmx4Linux2.Core

variable {ι : Type} [DecidableEq ι]
variable {d : Daemon ι} {k k' : Key ι} {card : ι} {frame : Frame} {interrupted : Req ι → Bool}
variable {is : List (Fin 32)}

/-- The daemon when the loop comes to a context. -/
def Daemon.beforeTurn (d : Daemon ι) (a : Arrival ι) (i : Fin 32) : Daemon ι :=
  d.receiveAll a.card a.frame a.interrupted ((List.finRange 32).take i)

/-- **The frame for a context**, if that is in use and passes it, with
whether it is not to be missed: a read waits there that is not interrupted,
or there is a poll handle and a frame in the pool. -/
def Daemon.offers (d : Daemon ι) (k : Key ι) (a : Arrival ι) : List (Frame × Bool) :=
  let ctx := d.contexts k
  if a.card = k.1 ∧ ctx.inUse ∧ ctx.passes a.frame then
    [(a.frame, (ctx.live a.interrupted).isSome ||
      (ctx.pollhandle.isSome && !(d.beforeTurn a k.2).freeFramequeue.isempty))]
  else []

def Daemon.offersAll (d : Daemon ι) (k : Key ι) : List (Arrival ι) → List (Frame × Bool)
  | [] => []
  | a :: as =>
    d.offers k a ++ (d.handleReceivedFrame a.card a.frame a.interrupted).offersAll k as

/-- The frames the contexts are shown: the one reported, or those reported
while one is sent, and that one then. -/
def Event.arrivals : Event ι → List (Arrival ι)
  | .received a => [a]
  | .write req size frame sent interrupted =>
    if req.key.isSome ∧ sizeofFrame ≤ size then
      sent ++ [⟨req.card, Daemon.transmitted frame, interrupted⟩]
    else []
  | _ => []

/-- The event opens a file that gets the context. -/
def Event.opens (d : Daemon ι) (k : Key ι) : Event ι → Bool
  | .openReq req _ => req.card = k.1 ∧ d.freeContextIndex req.card = some k.2
  | _ => false

/-- **The frames that passed the filter of a context since it was opened**,
in a run of events. -/
def Daemon.passedSince (d : Daemon ι) (k : Key ι) (passed : List (Frame × Bool)) :
    List (Event ι) → List (Frame × Bool)
  | [] => passed
  | e :: es =>
    (d.step e).passedSince k
      (if e.opens d k then [] else passed ++ d.offersAll k e.arrivals) es

/-- **What the reads of an open file were answered with**: frames that
passed its filter, in order; with those still queued they are all that
were not to be missed. -/
def InOrder (d : Daemon ι) (k : Key ι) (passed : List (Frame × Bool)) : Prop :=
  (d.history k).answered.Sublist (passed.map Prod.fst) ∧
    ∃ q, (d.contexts k).framequeue = some q ∧
      (d.history k).answered ++ q.map Entry.frame = (passed.filter (·.2)).map Prod.fst

/-! ## A frame -/

namespace Daemon

/-- A reply that opens no file notes no frame. -/
@[simp] theorem reply_passed (req : Req ι) {r : Reply} (h : ∀ fh, r ≠ .opened fh) (k : Key ι) :
    ((d.reply req r).history k).passed = (d.history k).passed := by
  rw [reply_history]
  cases r with
  | opened fh => exact absurd rfl (h fh)
  | buf frame =>
    rw [History.observe]
    split <;> rfl
  | _ => rfl

theorem dropInterrupted_passed (k k' : Key ι) :
    ((d.dropInterrupted k interrupted).history k').passed = (d.history k').passed := by
  unfold dropInterrupted
  split
  · split
    · rw [setContext_history, reply_passed _ (by simp)]
    · rfl
  · rfl

theorem deliver_passed (k k' : Key ι) (frame : Frame) :
    ((d.deliver k frame).history k').passed = (d.history k').passed := by
  unfold deliver
  dsimp only
  split
  · rw [setContext_history, reply_passed _ (by simp)]
  · unfold getFrame
    cases d.freeFramequeue.get with
    | mk e pool =>
      cases e with
      | none =>
        rw [act_history]
        rfl
      | some e =>
        rw [act_history, setContext_history]
        rfl
  · rfl

theorem noted_passed (k k' : Key ι) :
    ((d.noted k frame interrupted).history k').passed = (d.history k').passed ++
      if k = k' then
        [(frame, ((d.contexts k).live interrupted).isSome ||
          ((d.contexts k).pollhandle.isSome && !d.freeFramequeue.isempty))]
      else [] := by
  have hself := d.dropInterrupted_self k interrupted
  have hpool := d.dropInterrupted_pool k interrupted
  have hpassed : ((d.dropInterrupted k interrupted).history k').passed = (d.history k').passed :=
    d.dropInterrupted_passed k k'
  rw [noted, act_history, hself, hpool, History.observe]
  split
  · rw [hpassed]
  · rw [hpassed, List.append_nil]

/-- **One context**: the frame is noted if it passes. -/
theorem receiveAt_passed (k k' : Key ι) :
    ((d.receiveAt k frame interrupted).history k').passed = (d.history k').passed ++
      if k = k' ∧ (d.contexts k).inUse ∧ (d.contexts k).passes frame then
        [(frame, ((d.contexts k).live interrupted).isSome ||
          ((d.contexts k).pollhandle.isSome && !d.freeFramequeue.isempty))]
      else [] := by
  rw [receiveAt_eq]
  by_cases hin : (d.contexts k).inUse ∧ (d.contexts k).passes frame
  · rw [if_pos hin, deliver_passed, noted_passed]
    simp only [hin, and_self, and_true]
  · rw [if_neg hin, dropInterrupted_passed, if_neg fun h => hin h.2, List.append_nil]

theorem receiveAll_append (d : Daemon ι) (card : ι) (frame : Frame) (interrupted : Req ι → Bool)
    (is js : List (Fin 32)) : d.receiveAll card frame interrupted (is ++ js) =
      (d.receiveAll card frame interrupted is).receiveAll card frame interrupted js :=
  List.foldl_append

/-- A turn of another context notes nothing for this one. -/
theorem receiveAll_passed_of_ne (hk : ∀ i ∈ is, (card, i) ≠ k) :
    ((d.receiveAll card frame interrupted is).history k).passed = (d.history k).passed := by
  induction is generalizing d with
  | nil => rfl
  | cons i is ih =>
    rw [receiveAll_cons, ih fun j hj => hk j (List.mem_cons_of_mem i hj), receiveAt_passed,
      if_neg fun h => hk i List.mem_cons_self h.1, List.append_nil]

theorem finRange_eq_take (i : Fin 32) : List.finRange 32 =
    (List.finRange 32).take i ++ i :: (List.finRange 32).drop (i + 1) := by
  have hcons := List.drop_eq_getElem_cons (l := List.finRange 32) (i := i) (by simp)
  rw [List.getElem_finRange] at hcons
  exact (List.take_append_drop (i : ℕ) _).symm.trans (congrArg _ hcons)

/-- **A frame is noted for the contexts that it is for**, each once. -/
theorem handleReceivedFrame_passed (h : ∀ k, Delivers d k) (k : Key ι) (a : Arrival ι) :
    ((d.handleReceivedFrame a.card a.frame a.interrupted).history k).passed =
      (d.history k).passed ++ d.offers k a := by
  obtain ⟨card, i⟩ := k
  rw [handleReceivedFrame_eq, offers]
  by_cases hcard : a.card = card
  · subst hcard
    -- The turns before its own and those after it are of other contexts.
    have hsplit := finRange_eq_take i
    have hnodup := List.nodup_finRange 32
    rw [hsplit, List.nodup_middle, List.nodup_cons, List.mem_append, not_or] at hnodup
    obtain ⟨⟨hbefore, hafter⟩, -⟩ := hnodup
    have hne : ∀ {js : List (Fin 32)}, i ∉ js → ∀ j ∈ js, (a.card, j) ≠ (a.card, i) := by
      rintro js hi j hj ⟨⟩
      exact hi hj
    have hspared := receiveAll_spares a.card a.frame a.interrupted h
      (fun j hj => (hne hbefore j hj).symm)
    rw [hsplit, receiveAll_append, receiveAll_cons, receiveAll_passed_of_ne (hne hafter),
      receiveAt_passed, receiveAll_passed_of_ne (hne hbefore), hspared.1]
    simp only [beforeTurn, true_and]
  · rw [if_neg fun h => hcard h.1, List.append_nil]
    exact receiveAll_passed_of_ne fun j _ heq => hcard (congrArg Prod.fst heq)

theorem handleArrivals_cons (a : Arrival ι) (as : List (Arrival ι)) :
    d.handleArrivals (a :: as) =
      (d.handleReceivedFrame a.card a.frame a.interrupted).handleArrivals as := by
  rw [handleArrivals, List.foldl_cons, handleArrivals]

theorem handleArrivals_concat (a : Arrival ι) (as : List (Arrival ι)) :
    d.handleArrivals (as ++ [a]) =
      (d.handleArrivals as).handleReceivedFrame a.card a.frame a.interrupted := by
  rw [handleArrivals, List.foldl_append, List.foldl_cons, List.foldl_nil, handleArrivals]

theorem handleArrivals_passed (h : ∀ k, Delivers d k) (k : Key ι) (as : List (Arrival ι)) :
    ((d.handleArrivals as).history k).passed = (d.history k).passed ++ d.offersAll k as := by
  induction as generalizing d with
  | nil => exact (List.append_nil _).symm
  | cons a as ih =>
    have h' : ∀ k, Delivers (d.handleReceivedFrame a.card a.frame a.interrupted) k :=
      fun k => receiveAll_delivers h a.card a.frame a.interrupted _ k
    rw [handleArrivals_cons, ih h', handleReceivedFrame_passed h, List.append_assoc, offersAll]

/-! ## The other handlers -/

theorem cuseOpen_passed (req : Req ι) (nonblock : Bool) (k : Key ι) :
    ((d.cuseOpen req nonblock).history k).passed =
      if (Event.openReq req nonblock).opens d k then [] else (d.history k).passed := by
  unfold cuseOpen Event.opens
  cases hfree : d.freeContextIndex req.card with
  | none =>
    rw [reply_passed req (by simp)]
    simp [hfree]
  | some i =>
    rw [reply_history, setContext_history, History.observe]
    simp only [hfree, Option.some.injEq, Fin.ext_iff, decide_eq_true_eq]
    split <;> rfl

theorem cuseRelease_passed (req : Req ι) (k : Key ι) :
    ((d.cuseRelease req).history k).passed = (d.history k).passed := by
  unfold cuseRelease
  split
  · exact reply_passed req (by simp) k
  · rw [reply_passed req (by simp), setContext_history]

theorem cuseRead_passed (req : Req ι) (k : Key ι) :
    ((d.cuseRead req).history k).passed = (d.history k).passed := by
  unfold cuseRead
  split
  · exact reply_passed req (by simp) k
  · split
    · rfl
    · unfold readPending
      dsimp only
      split
      · exact reply_passed req (by simp) k
      · rw [setContext_history]
        split
        · exact reply_passed _ (by simp) k
        · rfl
    · rw [putFrame_history, reply_passed req (by simp), setContext_history]

theorem plain_passed {r : Reply} (hplain : r.plain = true) (req : Req ι) (k : Key ι) :
    ((d.reply req r).history k).passed = (d.history k).passed :=
  reply_passed req (by rintro fh rfl; cases hplain) k

theorem setFilter_passed (req : Req ι) (k k' : Key ι) (args : IoctlArgs) (ctx : Context ι) :
    ((d.setFilter req k args ctx).history k').passed = (d.history k').passed := by
  unfold setFilter
  split
  · exact reply_passed req (by simp) k'
  · rw [reply_passed req (by simp), setContext_history]

theorem cuseIoctl_passed (req : Req ι) (cmd : IoctlCmd) (args : IoctlArgs) (k : Key ι) :
    ((d.cuseIoctl req cmd args).history k).passed = (d.history k).passed := by
  unfold cuseIoctl
  split
  · exact reply_passed req (by simp) k
  · cases cmd with
    | setPortFilter => exact setFilter_passed req _ k args _
    | setPortTxfilter => exact setFilter_passed req _ k args _
    | version => exact plain_passed (replyValue_plain args _) req k
    | getPortFilter => exact plain_passed (replyValue_plain args _) req k
    | getPortTxfilter => exact plain_passed (replyValue_plain args _) req k
    | queryCardInfo => exact plain_passed (queryInfo_plain args) req k
    | queryPortInfo => exact plain_passed (queryInfo_plain args) req k
    | changeCardInfo => exact plain_passed (changeInfo_plain args) req k
    | changePortInfo => exact plain_passed (changeInfo_plain args) req k
    | other _ => exact plain_passed rfl req k

theorem cusePoll_passed (req : Req ι) (ph : Option ℕ) (k : Key ι) :
    ((d.cusePoll req ph).history k).passed = (d.history k).passed := by
  unfold cusePoll
  split
  · exact reply_passed req (by simp) k
  · dsimp only
    rw [reply_passed req (by simp)]
    cases ph with
    | none => rfl
    | some ph =>
      dsimp only [setPollhandle]
      split
      · rw [act_history, setContext_history]
        rfl
      · rfl

theorem cuseWrite_passed (h : ∀ k, Delivers d k) (req : Req ι) (size : ℕ) (frame : Frame)
    (sent : List (Arrival ι)) (interrupted : Req ι → Bool) (k : Key ι) :
    ((d.cuseWrite req size frame sent interrupted).history k).passed = (d.history k).passed ++
      d.offersAll k (Event.write req size frame sent interrupted).arrivals := by
  unfold cuseWrite Event.arrivals
  cases hkey : req.key with
  | none =>
    rw [reply_passed req (by simp)]
    simp [hkey, offersAll]
  | some k' =>
    dsimp only
    by_cases hsize : size < sizeofFrame
    · rw [if_pos hsize, reply_passed req (by simp), if_neg fun h => Nat.not_lt.2 h.2 hsize]
      exact (List.append_nil _).symm
    · have harrive : req.key.isSome = true ∧ sizeofFrame ≤ size :=
        ⟨by rw [hkey]; rfl, Nat.not_lt.1 hsize⟩
      rw [if_neg hsize, reply_passed req (by simp), if_pos harrive, ← handleArrivals_passed h k,
        handleArrivals_concat]

end Daemon

/-! ## A run -/

/-- **An event notes the frames that it brings for a context**, and begins
anew when it opens it. -/
theorem history_passed_step (h : ∀ k, Delivers d k) (e : Event ι) (k : Key ι) :
    ((d.step e).history k).passed =
      if e.opens d k then [] else (d.history k).passed ++ d.offersAll k e.arrivals := by
  cases e with
  | openReq req nonblock =>
    refine (d.cuseOpen_passed req nonblock k).trans ?_
    rw [show d.offersAll k (Event.openReq req nonblock).arrivals = [] from rfl, List.append_nil]
  | release req => exact (d.cuseRelease_passed req k).trans (List.append_nil _).symm
  | read req => exact (d.cuseRead_passed req k).trans (List.append_nil _).symm
  | write req size frame sent interrupted =>
    exact Daemon.cuseWrite_passed h req size frame sent interrupted k
  | ioctl req cmd args => exact (d.cuseIoctl_passed req cmd args k).trans (List.append_nil _).symm
  | poll req ph => exact (d.cusePoll_passed req ph k).trans (List.append_nil _).symm
  | received a => exact Daemon.handleArrivals_passed h k [a]

theorem history_passed_run (h : ∀ k, Delivers d k) (k : Key ι) (es : List (Event ι)) :
    ((run Daemon.step d es).history k).passed = d.passedSince k (d.history k).passed es := by
  induction es generalizing d with
  | nil => rfl
  | cons e es ih =>
    rw [run_cons, ih fun k => Delivers.step h e k, Daemon.passedSince, history_passed_step h]

/-- **Delivery.** In every state the daemon reaches, a context with a
pending read has an empty queue, and the reads of every open file were
answered in order: with frames that passed its filter since it was
opened, each at most once, and none missing that came while a read was
waiting, or while there was a poll handle and a frame in the pool. -/
theorem delivery (garbage : ℕ → Frame) (es : List (Event ι)) (k : Key ι) :
    let d := run Daemon.step (Daemon.coreInit garbage) es
    ((d.contexts k).readReq.isSome = true → (d.contexts k).framequeue = some []) ∧
      ((d.contexts k).inUse = true →
        InOrder d k ((Daemon.coreInit garbage).passedSince k [] es)) := by
  intro d
  have h : Delivers d k := Delivers.run garbage es k
  refine ⟨h.pending, fun huse => ?_⟩
  have hpassed : (d.history k).passed = (Daemon.coreInit garbage).passedSince k [] es :=
    history_passed_run (Delivers.coreInit garbage) k es
  obtain ⟨q, hq, hkept⟩ := h.kept huse
  rw [History.kept, hpassed] at hkept
  refine ⟨?_, q, hq, hkept⟩
  have hprefix := List.sublist_append_left (d.history k).answered (q.map Entry.frame)
  rw [hkept] at hprefix
  exact hprefix.trans (List.filter_sublist.map Prod.fst)

end Cuse

end Dmx4Linux2
