import Dmx4Linux2.Cuse.Delivery

/-!
# CUSE framework — a frame and the contexts of its card

`dmx512_cuse_handle_received_frame` goes over the contexts of a card one
after the other. A context that passes the frame and is ready for it gets
it once, as the answer to its pending read or in its queue, and no other
context is touched by that (`receiveAt_gets`, `receiveAt_elsewhere`). The
contexts share the pool, so the loop as a whole
(`handleReceivedFrame_gets`) needs a frame in it for every context that
may queue one.
-/

namespace Dmx4Linux2

namespace Cuse

open Dmx4Linux2.Core

variable {ι : Type} [DecidableEq ι]
variable {d d' d'' : Daemon ι} {k k' : Key ι} {frame : Frame} {interrupted : Req ι → Bool}
variable {answered answered' queued queued' : List Frame}

/-- The frame a read of a context is answered with. -/
def Action.handed (k : Key ι) : Action ι → List Frame
  | .reply req (.buf frame) => if req.key = some k then [frame] else []
  | _ => []

/-- **What a context gets** from one state of the daemon to a later one:
the frames its reads are answered with, and those added to its queue. -/
def Gets (d d' : Daemon ι) (k : Key ι) (answered queued : List Frame) : Prop :=
  ∃ (new : List (Action ι)) (q : Framequeue), d'.actions = d.actions ++ new ∧
    new.flatMap (Action.handed k) = answered ∧
    (d'.contexts k).framequeue = (d.contexts k).framequeue.map (· ++ q) ∧
    q.map Entry.frame = queued

theorem Gets.refl (d : Daemon ι) (k : Key ι) : Gets d d k [] [] :=
  ⟨[], [], by simp, rfl, by simp, rfl⟩

theorem Gets.trans (h : Gets d d' k answered queued) (h' : Gets d' d'' k answered' queued') :
    Gets d d'' k (answered ++ answered') (queued ++ queued') := by
  obtain ⟨new, q, hacts, hans, hqueue, hq⟩ := h
  obtain ⟨new', q', hacts', hans', hqueue', hq'⟩ := h'
  refine ⟨new ++ new', q ++ q', ?_, ?_, ?_, ?_⟩
  · rw [hacts', hacts, List.append_assoc]
  · rw [List.flatMap_append, hans, hans']
  · rw [hqueue', hqueue, Option.map_map]
    congr 1
    funext l
    exact List.append_assoc l q q'
  · rw [List.map_append, hq, hq']

theorem Gets.nil_trans (h : Gets d d' k [] []) (h' : Gets d' d'' k answered queued) :
    Gets d d'' k answered queued := h.trans h'

theorem Gets.trans_nil (h : Gets d d' k answered queued) (h' : Gets d' d'' k [] []) :
    Gets d d'' k answered queued := by
  have hboth := h.trans h'
  rwa [List.append_nil, List.append_nil] at hboth

/-- **A context is left alone.** -/
def Spared (d d' : Daemon ι) (k : Key ι) : Prop :=
  d'.contexts k = d.contexts k ∧ Gets d d' k [] []

theorem Spared.refl (d : Daemon ι) (k : Key ι) : Spared d d k := ⟨rfl, Gets.refl d k⟩

theorem Spared.trans (h : Spared d d' k) (h' : Spared d' d'' k) : Spared d d'' k :=
  ⟨h'.1.trans h.1, h.2.nil_trans h'.2⟩

namespace Context

/-- The pending read, if it has not been interrupted. -/
def live (ctx : Context ι) (interrupted : Req ι → Bool) : Option (Req ι) :=
  ctx.readReq.filter fun req => !interrupted req

/-- The context is open and is polled. -/
def polls (ctx : Context ι) : Bool := ctx.inUse && ctx.pollhandle.isSome

/-- The context is open, and a read is pending there or it is polled. -/
def listens (ctx : Context ι) (interrupted : Req ι → Bool) : Bool :=
  ctx.inUse && ((ctx.live interrupted).isSome || ctx.pollhandle.isSome)

/-- What of a frame goes to the pending read. -/
def toRead (ctx : Context ι) (frame : Frame) (interrupted : Req ι → Bool) : List Frame :=
  if ctx.passes frame ∧ (ctx.live interrupted).isSome then [frame] else []

/-- What of a frame goes into the queue. -/
def toQueue (ctx : Context ι) (frame : Frame) (interrupted : Req ι → Bool) : List Frame :=
  if ctx.passes frame ∧ ¬ (ctx.live interrupted).isSome then [frame] else []

omit [DecidableEq ι] in
/-- A frame that passes goes to one of them. -/
theorem toRead_append_toQueue (ctx : Context ι) (frame : Frame) (interrupted : Req ι → Bool) :
    ctx.toRead frame interrupted ++ ctx.toQueue frame interrupted =
      if ctx.passes frame then [frame] else [] := by
  unfold toRead toQueue
  cases ctx.passes frame with
  | false => simp
  | true => cases (ctx.live interrupted).isSome <;> simp

end Context

/-! ## One context -/

namespace Daemon

theorem dropInterrupted_self (d : Daemon ι) (k : Key ι) (interrupted : Req ι → Bool) :
    (d.dropInterrupted k interrupted).contexts k =
      { d.contexts k with readReq := (d.contexts k).live interrupted } := by
  cases hread : (d.contexts k).readReq with
  | none =>
    have hlive : (d.contexts k).live interrupted = (d.contexts k).readReq := by
      simp [Context.live, hread]
    simp only [dropInterrupted, hread, hlive]
    rw [← hread]
  | some req =>
    cases hint : interrupted req with
    | true =>
      have hlive : (d.contexts k).live interrupted = none := by simp [Context.live, hread, hint]
      simp [dropInterrupted, hread, hint, hlive]
    | false =>
      have hlive : (d.contexts k).live interrupted = (d.contexts k).readReq := by
        simp [Context.live, hread, hint]
      simp only [dropInterrupted, hread, hint, hlive, Bool.false_eq_true, if_false]
      rw [← hread]

theorem dropInterrupted_pool (d : Daemon ι) (k : Key ι) (interrupted : Req ι → Bool) :
    (d.dropInterrupted k interrupted).freeFramequeue = d.freeFramequeue := by
  unfold dropInterrupted
  split
  · split <;> rfl
  · rfl

/-- No frame goes anywhere when a pending read was interrupted. -/
theorem dropInterrupted_gets (d : Daemon ι) (k k' : Key ι) (interrupted : Req ι → Bool) :
    Gets d (d.dropInterrupted k interrupted) k' [] [] := by
  unfold dropInterrupted
  split
  case h_1 req hread =>
    split
    · refine ⟨[.reply req (.err .eintr)], [], rfl, rfl, ?_, rfl⟩
      by_cases hk : k' = k
      · subst hk
        simp
      · simp [setContext_of_ne hk]
    · exact Gets.refl d k'
  case h_2 => exact Gets.refl d k'

theorem dropInterrupted_spares (hne : k' ≠ k) :
    Spared d (d.dropInterrupted k interrupted) k' := by
  refine ⟨?_, d.dropInterrupted_gets k k' interrupted⟩
  unfold dropInterrupted
  split
  · split
    · exact setContext_of_ne hne _
    · rfl
  · rfl

/-- A pending read is answered with the frame. -/
theorem deliver_gets_of_read (frame : Frame) {req : Req ι} (hread : (d.contexts k).readReq = some req)
    (hkey : req.key = some k) : Gets d (d.deliver k frame) k [frame] [] := by
  unfold deliver
  simp only [hread]
  refine ⟨[.reply req (.buf frame)], [], rfl, ?_, ?_, rfl⟩
  · simp [Action.handed, hkey]
  · simp

/-- The frame is queued. -/
theorem deliver_gets_of_poll (frame : Frame) (hread : (d.contexts k).readReq = none)
    (hpoll : (d.contexts k).pollhandle.isSome = true) (hpool : d.freeFramequeue ≠ []) :
    Gets d (d.deliver k frame) k [] [frame] := by
  obtain ⟨ph, hph⟩ := Option.isSome_iff_exists.1 hpoll
  obtain ⟨e, pool, hep⟩ := List.exists_cons_of_ne_nil hpool
  unfold deliver
  simp only [hread, hph, getFrame, hep, Framequeue.get]
  refine ⟨[.notifyPoll ph], [{ e with frame := frame }], rfl, rfl, ?_, rfl⟩
  simp [Framequeue.put]

theorem deliver_spares (hown : ∀ req, (d.contexts k).readReq = some req → req.key = some k)
    (hne : k' ≠ k) : Spared d (d.deliver k frame) k' := by
  unfold deliver
  simp only
  split
  case h_1 _ req hread =>
    have hkey : req.key ≠ some k' := by
      rw [hown req hread]
      exact fun heq => hne (Option.some.inj heq).symm
    refine ⟨setContext_of_ne hne _, [.reply req (.buf frame)], [], rfl, ?_, ?_, rfl⟩
    · simp [Action.handed, hkey]
    · simp [setContext_of_ne hne]
  case h_2 ph _ _ =>
    cases hpool : d.freeFramequeue with
    | nil =>
      simp only [getFrame, hpool, Framequeue.get]
      exact ⟨rfl, [.notifyPoll ph], [], rfl, rfl, by simp, rfl⟩
    | cons e pool =>
      simp only [getFrame, hpool, Framequeue.get]
      refine ⟨setContext_of_ne hne _, [.notifyPoll ph], [], rfl, rfl, ?_, rfl⟩
      simp [setContext_of_ne hne]
  case h_3 => exact Spared.refl d k'

theorem deliver_pool (d : Daemon ι) (k : Key ι) (frame : Frame) :
    d.freeFramequeue.length ≤ (d.deliver k frame).freeFramequeue.length +
      if (d.contexts k).pollhandle.isSome then 1 else 0 := by
  unfold deliver
  simp only
  split
  case h_1 => exact Nat.le_add_right _ _
  case h_2 ph _ hph =>
    rw [hph]
    cases hpool : d.freeFramequeue with
    | nil => simp
    | cons e pool =>
      simp only [getFrame, hpool, Framequeue.get]
      exact Nat.le_refl _
  case h_3 => exact Nat.le_add_right _ _

/-- The daemon with an interrupted read dropped, and the note that the
frame passed. -/
def noted (d : Daemon ι) (k : Key ι) (frame : Frame) (interrupted : Req ι → Bool) : Daemon ι :=
  let d := d.dropInterrupted k interrupted
  d.act (.passed k frame (d.contexts k).readReq.isSome
    ((d.contexts k).pollhandle.isSome && !d.freeFramequeue.isempty))

variable (d k frame interrupted)

theorem noted_self : (d.noted k frame interrupted).contexts k =
    { d.contexts k with readReq := (d.contexts k).live interrupted } :=
  d.dropInterrupted_self k interrupted

theorem noted_pool : (d.noted k frame interrupted).freeFramequeue = d.freeFramequeue :=
  d.dropInterrupted_pool k interrupted

theorem noted_gets (k' : Key ι) : Gets d (d.noted k frame interrupted) k' [] [] := by
  refine (d.dropInterrupted_gets k k' interrupted).nil_trans ?_
  exact ⟨[.passed k frame _ _], [], rfl, rfl, by simp [noted], rfl⟩

/-- The test of the loop reads what an interrupted read leaves alone. -/
theorem receiveAt_eq :
    d.receiveAt k frame interrupted =
      if (d.contexts k).inUse ∧ (d.contexts k).passes frame then
        (d.noted k frame interrupted).deliver k frame
      else d.dropInterrupted k interrupted := by
  have hself := d.dropInterrupted_self k interrupted
  have huse : ((d.dropInterrupted k interrupted).contexts k).inUse = (d.contexts k).inUse := by
    rw [hself]
  have hpass : ((d.dropInterrupted k interrupted).contexts k).passes frame =
      (d.contexts k).passes frame := by
    rw [hself]
    rfl
  unfold receiveAt
  simp only [huse, hpass]
  rfl

variable {d k frame interrupted}

theorem noted_spares (hne : k' ≠ k) : Spared d (d.noted k frame interrupted) k' :=
  ⟨(dropInterrupted_spares hne).1, d.noted_gets k frame interrupted k'⟩

/-- **What the context a frame is shown to gets of it.** -/
theorem receiveAt_gets (h : Delivers d k)
    (hlisten : (d.contexts k).listens interrupted = true)
    (hroom : (d.contexts k).polls = true → d.freeFramequeue ≠ []) :
    Gets d (d.receiveAt k frame interrupted) k ((d.contexts k).toRead frame interrupted)
      ((d.contexts k).toQueue frame interrupted) := by
  have huse : (d.contexts k).inUse = true := (Bool.and_eq_true_iff.1 hlisten).1
  rw [receiveAt_eq]
  unfold Context.toRead Context.toQueue
  cases hpass : (d.contexts k).passes frame with
  | false => simpa using d.dropInterrupted_gets k k interrupted
  | true =>
    rw [if_pos ⟨huse, rfl⟩]
    refine (d.noted_gets k frame interrupted k).nil_trans ?_
    have hself := d.noted_self k frame interrupted
    cases hlive : (d.contexts k).live interrupted with
    | some req =>
      have hread : (d.contexts k).readReq = some req := (Option.filter_eq_some_iff.1 hlive).1
      rw [hlive] at hself
      simpa using deliver_gets_of_read frame (by rw [hself]) (h.own req hread)
    | none =>
      have hpoll : (d.contexts k).pollhandle.isSome = true := by
        simpa [Context.listens, hlive, huse] using hlisten
      have hpool : (d.noted k frame interrupted).freeFramequeue ≠ [] := by
        rw [noted_pool]
        exact hroom (by simp [Context.polls, huse, hpoll])
      rw [hlive] at hself
      simpa using deliver_gets_of_poll frame (by rw [hself]) (by rw [hself]; exact hpoll) hpool

/-- **The other contexts are spared.** -/
theorem receiveAt_elsewhere (h : Delivers d k) (hne : k' ≠ k) (frame : Frame)
    (interrupted : Req ι → Bool) :
    Spared d (d.receiveAt k frame interrupted) k' := by
  rw [receiveAt_eq]
  split
  · refine (noted_spares hne).trans (deliver_spares ?_ hne)
    intro req hreq
    rw [noted_self] at hreq
    exact h.own req (Option.filter_eq_some_iff.1 hreq).1
  · exact dropInterrupted_spares hne

/-- It takes at most one frame out of the pool, and only for a context
that is open and polled. -/
theorem receiveAt_pool (d : Daemon ι) (k : Key ι) (frame : Frame) (interrupted : Req ι → Bool) :
    d.freeFramequeue.length ≤ (d.receiveAt k frame interrupted).freeFramequeue.length +
      if (d.contexts k).polls then 1 else 0 := by
  rw [receiveAt_eq]
  split
  case isTrue hin =>
    have hdeliver := (d.noted k frame interrupted).deliver_pool k frame
    rw [noted_pool, noted_self] at hdeliver
    simpa [Context.polls, hin.1] using hdeliver
  case isFalse =>
    rw [dropInterrupted_pool]
    exact Nat.le_add_right _ _

theorem receiveAt_delivers (h : ∀ k, Delivers d k) (k k' : Key ι) (frame : Frame)
    (interrupted : Req ι → Bool) : Delivers (d.receiveAt k frame interrupted) k' :=
  (d.receiveAt_moves k frame interrupted).keeps (P := fun d => ∀ k, Delivers d k)
    (fun hmove h k => Delivers.move h hmove k) h k'

/-! ## The contexts of a card -/

/-- The frame is shown to some contexts of a card, one after the other. -/
def receiveAll (d : Daemon ι) (card : ι) (frame : Frame) (interrupted : Req ι → Bool)
    (is : List (Fin 32)) : Daemon ι :=
  is.foldl (fun d i => d.receiveAt (card, i) frame interrupted) d

theorem receiveAll_delivers (h : ∀ k, Delivers d k) (card : ι) (frame : Frame)
    (interrupted : Req ι → Bool) (is : List (Fin 32)) (k : Key ι) :
    Delivers (d.receiveAll card frame interrupted is) k := by
  induction is generalizing d with
  | nil => exact h k
  | cons i is ih => exact ih fun k => receiveAt_delivers h (card, i) k frame interrupted

/-- How many of these contexts are open and polled. -/
def pollers (d : Daemon ι) (card : ι) (is : List (Fin 32)) : ℕ :=
  is.countP fun i => (d.contexts (card, i)).polls

variable {card : ι} {i : Fin 32} {is : List (Fin 32)}

@[simp] theorem receiveAll_cons : d.receiveAll card frame interrupted (i :: is) =
    (d.receiveAt (card, i) frame interrupted).receiveAll card frame interrupted is := rfl

theorem handleReceivedFrame_eq : d.handleReceivedFrame card frame interrupted =
    d.receiveAll card frame interrupted (List.finRange 32) := rfl

omit [DecidableEq ι] in
theorem pollers_cons : d.pollers card (i :: is) =
    d.pollers card is + if (d.contexts (card, i)).polls then 1 else 0 :=
  List.countP_cons

/-- Showing a frame to one context leaves the number of the others that
are polled as it is. -/
theorem pollers_receiveAt (h : ∀ k, Delivers d k) (hi : i ∉ is) :
    (d.receiveAt (card, i) frame interrupted).pollers card is = d.pollers card is := by
  refine List.countP_congr fun j hj => ?_
  have hne : ((card, j) : Key ι) ≠ (card, i) := by
    rintro ⟨⟩
    exact hi hj
  rw [(receiveAt_elsewhere (h (card, i)) hne frame interrupted).1]

theorem receiveAll_spares (card : ι) (frame : Frame) (interrupted : Req ι → Bool)
    (h : ∀ k, Delivers d k) (hk : ∀ i ∈ is, k ≠ (card, i)) :
    Spared d (d.receiveAll card frame interrupted is) k := by
  induction is generalizing d with
  | nil => exact Spared.refl d k
  | cons i is ih =>
    rw [receiveAll_cons]
    have hone := receiveAt_elsewhere (h (card, i)) (hk i List.mem_cons_self) frame interrupted
    refine hone.trans ?_
    exact ih (fun k => receiveAt_delivers h _ k frame interrupted)
      (fun j hj => hk j (List.mem_cons_of_mem i hj))

theorem receiveAll_pool (card : ι) (frame : Frame) (interrupted : Req ι → Bool)
    (h : ∀ k, Delivers d k) (hnodup : is.Nodup) :
    d.freeFramequeue.length ≤
      (d.receiveAll card frame interrupted is).freeFramequeue.length + d.pollers card is := by
  induction is generalizing d with
  | nil => exact Nat.le_add_right _ _
  | cons i is ih =>
    obtain ⟨hi, hnodup⟩ := List.nodup_cons.1 hnodup
    have hone := d.receiveAt_pool (card, i) frame interrupted
    have hrest := ih (fun k => receiveAt_delivers h (card, i) k frame interrupted) hnodup
    rw [pollers_receiveAt h hi] at hrest
    rw [receiveAll_cons, pollers_cons]
    omega

/-- **Every context that listens gets the frame if it passes it**, as
long as the pool has a frame for each that is polled. -/
theorem receiveAll_gets (card : ι) (frame : Frame) (interrupted : Req ι → Bool)
    (h : ∀ k, Delivers d k) (hnodup : is.Nodup)
    (hroom : d.pollers card is ≤ d.freeFramequeue.length) (hi : i ∈ is)
    (hlisten : (d.contexts (card, i)).listens interrupted = true) :
    Gets d (d.receiveAll card frame interrupted is) (card, i)
      ((d.contexts (card, i)).toRead frame interrupted)
      ((d.contexts (card, i)).toQueue frame interrupted) := by
  induction is generalizing d with
  | nil => exact absurd hi List.not_mem_nil
  | cons j is ih =>
    obtain ⟨hj, hnodup⟩ := List.nodup_cons.1 hnodup
    have h' := fun k => receiveAt_delivers h (card, j) k frame interrupted
    rw [pollers_cons] at hroom
    rw [receiveAll_cons]
    by_cases hij : i = j
    · -- This is the context's turn; the rest of the loop spares it.
      subst hij
      refine (receiveAt_gets (h (card, i)) hlisten fun hpolls => ?_).trans_nil ?_
      · rw [if_pos hpolls] at hroom
        exact List.ne_nil_of_length_pos (by omega)
      · refine (receiveAll_spares card frame interrupted h' fun l hl => ?_).2
        rintro ⟨⟩
        exact hj hl
    · have hne : ((card, i) : Key ι) ≠ (card, j) := fun heq => hij (Prod.ext_iff.1 heq).2
      obtain ⟨hctx, hgets⟩ := receiveAt_elsewhere (h (card, j)) hne frame interrupted
      have hpool := d.receiveAt_pool (card, j) frame interrupted
      refine hgets.nil_trans ?_
      rw [← hctx]
      refine ih h' hnodup ?_ ((List.mem_cons.1 hi).resolve_left hij) ?_
      · rw [pollers_receiveAt h hj]
        omega
      · rw [hctx]
        exact hlisten

end Daemon

end Cuse

end Dmx4Linux2
