import Dmx4Linux2.Cuse.Model.Daemon

/-!
# CUSE framework — what the handlers can do

Every handler but `release` is a sequence of moves, each at one context
and each with a request it takes care of, or with none: it answers it, or
lets it wait in `read_req` if it is a read. `step_moves` says so for all
events, with the loops over the contexts and the frames reported from
inside `sendFrame` unrolled. An invariant of the daemon is then proved
for one move and for `release`.
-/

namespace Dmx4Linux2

namespace Cuse

open Dmx4Linux2.Core

variable {ι : Type}

/-- A request, and whether it is a read. -/
abbrev Asked (ι : Type) := Req ι × Bool

variable {d d' d'' : Daemon ι} {k k' : Key ι} {req : Req ι} {rs rs' : List (Asked ι)}

namespace Daemon

@[simp] theorem act_contexts (a : Action ι) : (d.act a).contexts = d.contexts := rfl

@[simp] theorem reply_contexts (req : Req ι) (r : Reply) :
    (d.reply req r).contexts = d.contexts := rfl

@[simp] theorem putFrame_contexts (e : Entry) : (d.putFrame e).contexts = d.contexts := rfl

end Daemon

variable [DecidableEq ι]

@[simp] theorem Daemon.setContext_self (ctx : Context ι) :
    (d.setContext k ctx).contexts k = ctx := by
  simp [setContext]

theorem Daemon.setContext_of_ne (h : k' ≠ k) (ctx : Context ι) :
    (d.setContext k ctx).contexts k' = d.contexts k' := by
  simp [setContext, h]

/-- A reply with no frame in it, and not to an open. -/
def Reply.plain : Reply → Bool
  | .opened _ | .buf _ => false
  | _ => true

/-- The context `dmx512_cuse_open` leaves. -/
def Context.fresh (nonblock : Bool) : Context ι :=
  { Context.zero with inUse := true, nonblocking := nonblock, framequeue := some Framequeue.init }

/-- **One move** of the daemon, and the request it takes care of. -/
inductive Move (d : Daemon ι) : List (Asked ι) → Daemon ι → Prop
  | answer (req : Req ι) (isRead : Bool) (r : Reply) (hplain : r.plain = true) :
      Move d [(req, isRead)] (d.reply req r)
  /-- A context that is not in use is opened. -/
  | openAt (k : Key ι) (req : Req ι) (nonblock : Bool) (hcard : req.card = k.1)
      (hfree : (d.contexts k).inUse = false) :
      Move d [(req, false)] ((d.setContext k (Context.fresh nonblock)).reply req (.opened k.2))
  /-- A pending read is answered with `EINTR`. -/
  | interrupt (k : Key ι) (req : Req ι) (hread : (d.contexts k).readReq = some req) :
      Move d [] ((d.reply req (.err .eintr)).setContext k { d.contexts k with readReq := none })
  /-- A read waits. -/
  | pend (k : Key ι) (req : Req ι) (hkey : req.key = some k) (hread : (d.contexts k).readReq = none)
      (hempty : (d.contexts k).framequeue = some [])
      (hblock : (d.contexts k).nonblocking = false) :
      Move d [(req, true)] (d.setContext k { d.contexts k with readReq := some req })
  /-- A frame answers the pending read. -/
  | hand (k : Key ι) (req : Req ι) (frame : Frame) (room : Bool) (huse : (d.contexts k).inUse = true)
      (hread : (d.contexts k).readReq = some req) :
      Move d [] (((d.act (.passed k frame true room)).reply req (.buf frame)).setContext k
        { d.contexts k with readReq := none })
  /-- A frame is copied into an entry of the pool and queued. -/
  | enqueue (k : Key ι) (frame : Frame) (e : Entry) (pool : Framequeue)
      (huse : (d.contexts k).inUse = true) (hread : (d.contexts k).readReq = none)
      (hpoll : (d.contexts k).pollhandle.isSome = true) (hpool : d.freeFramequeue = e :: pool) :
      Move d [] ({ d.act (.passed k frame false true) with freeFramequeue := pool }.setContext k
        { d.contexts k with
          framequeue := (d.contexts k).framequeue.map
            (Framequeue.put · (some { e with frame := frame })) })
  /-- No read waits for a frame, and there is no poll handle or no entry
  to copy it into. -/
  | miss (k : Key ι) (frame : Frame) (huse : (d.contexts k).inUse = true)
      (hread : (d.contexts k).readReq = none) :
      Move d [] (d.act (.passed k frame false false))
  /-- The first frame in the queue answers a read, and its entry goes back
  to the pool. -/
  | dequeue (k : Key ι) (req : Req ι) (e : Entry) (q : Framequeue) (hkey : req.key = some k)
      (hqueue : (d.contexts k).framequeue = some (e :: q)) :
      Move d [(req, true)]
        (((d.setContext k { d.contexts k with framequeue := some q }).reply req (.buf e.frame)).putFrame
          e)
  | setMasks (k : Key ι) (portMask portTxmask : UInt64) :
      Move d [] (d.setContext k
        { d.contexts k with portMask := portMask, portTxmask := portTxmask })
  | setPoll (k : Key ι) (ph : ℕ) :
      Move d [] (d.setContext k { d.contexts k with pollhandle := some ph })
  | notifyPoll (ph : ℕ) : Move d [] (d.act (.notifyPoll ph))
  | destroyPoll (ph : ℕ) : Move d [] (d.act (.destroyPoll ph))

/-- **What a move makes of a context**, as far as it is the same for
several moves. -/
inductive Turns (rs : List (Asked ι)) (k : Key ι) (ctx : Context ι) : Context ι → Prop
  | same : Turns rs k ctx ctx
  | opens (nonblock : Bool) (hfree : ctx.inUse = false) : Turns rs k ctx (Context.fresh nonblock)
  | answers : Turns rs k ctx { ctx with readReq := none }
  | pends (req : Req ι) (hmem : (req, true) ∈ rs) (hkey : req.key = some k)
      (hblock : ctx.nonblocking = false) : Turns rs k ctx { ctx with readReq := some req }
  /-- The queue changes of a context in use, or that has something in
  it. -/
  | queues (q : Option Framequeue)
      (hqueue : ctx.inUse = true ∨ ∃ e q', ctx.framequeue = some (e :: q')) :
      Turns rs k ctx { ctx with framequeue := q }
  | sets (portMask portTxmask : UInt64) (pollhandle : Option ℕ) :
      Turns rs k ctx
        { ctx with portMask := portMask, portTxmask := portTxmask, pollhandle := pollhandle }

theorem Move.turns (hmove : Move d rs d') (k : Key ι) :
    Turns rs k (d.contexts k) (d'.contexts k) := by
  -- a context that is replaced, and all others
  have hset : ∀ {k' ctx}, d'.contexts = Function.update d.contexts k' ctx →
      (k = k' → Turns rs k (d.contexts k) ctx) → Turns rs k (d.contexts k) (d'.contexts k) := by
    intro k' ctx hctx hself
    rw [hctx]
    by_cases hk : k = k'
    · subst hk
      rw [Function.update_self]
      exact hself rfl
    · rw [Function.update_of_ne hk]
      exact .same
  cases hmove with
  | answer req isRead rep hplain => exact .same
  | openAt k' req nonblock hcard hfree =>
    refine hset rfl fun hk => ?_
    subst hk
    exact .opens nonblock hfree
  | interrupt k' req hread =>
    refine hset rfl fun hk => ?_
    subst hk
    exact .answers
  | pend k' req hkey hread hempty hblock =>
    refine hset rfl fun hk => ?_
    subst hk
    exact .pends req List.mem_cons_self hkey hblock
  | hand k' req frame room huse hread =>
    refine hset rfl fun hk => ?_
    subst hk
    exact .answers
  | enqueue k' frame e pool huse hread hpoll hpool =>
    refine hset rfl fun hk => ?_
    subst hk
    exact .queues _ (Or.inl huse)
  | miss k' frame huse hread => exact .same
  | dequeue k' req e q hkey hqueue =>
    refine hset rfl fun hk => ?_
    subst hk
    exact .queues _ (Or.inr ⟨e, q, hqueue⟩)
  | setMasks k' portMask portTxmask =>
    refine hset rfl fun hk => ?_
    subst hk
    exact .sets portMask portTxmask _
  | setPoll k' ph =>
    refine hset rfl fun hk => ?_
    subst hk
    exact .sets _ _ (some ph)
  | notifyPoll ph => exact .same
  | destroyPoll ph => exact .same

/-- **Moves one after the other**, and the requests they take care of. -/
inductive Moves : Daemon ι → List (Asked ι) → Daemon ι → Prop
  | refl (d : Daemon ι) : Moves d [] d
  | tail {d d' d'' : Daemon ι} {rs rs' : List (Asked ι)} :
      Moves d rs d' → Move d' rs' d'' → Moves d (rs ++ rs') d''

namespace Moves

theorem single (h : Move d rs d') : Moves d rs d' := (Moves.refl d).tail h

theorem trans (h : Moves d rs d') (h' : Moves d' rs' d'') : Moves d (rs ++ rs') d'' := by
  induction h' with
  | refl => simpa using h
  | tail _ hmove ih =>
    rw [← List.append_assoc]
    exact ih.tail hmove

/-- Moves that take care of no request, and then others. -/
theorem trans_nil (h : Moves d [] d') (h' : Moves d' rs d'') : Moves d rs d'' := h.trans h'

/-- **The invariant rule**: what every move keeps is kept. -/
theorem keeps {P : Daemon ι → Prop} (hP : ∀ {d rs d'}, Move d rs d' → P d → P d')
    (h : Moves d rs d') (hd : P d) : P d' := by
  induction h with
  | refl => exact hd
  | tail _ hmove ih => exact hP hmove ih

/-- A loop of moves that take care of no request. -/
theorem foldl {α : Type} {f : Daemon ι → α → Daemon ι} (hf : ∀ d a, Moves d [] (f d a))
    (as : List α) (d : Daemon ι) : Moves d [] (as.foldl f d) := by
  induction as generalizing d with
  | nil => exact Moves.refl d
  | cons a as ih => exact (hf d a).trans_nil (ih (f d a))

end Moves

/-! ## Received frames -/

namespace Daemon

theorem dropInterrupted_moves (d : Daemon ι) (k : Key ι) (interrupted : Req ι → Bool) :
    Moves d [] (d.dropInterrupted k interrupted) := by
  unfold dropInterrupted
  split
  case h_1 req hreq =>
    split
    · exact Moves.single (Move.interrupt k req hreq)
    · exact Moves.refl d
  case h_2 => exact Moves.refl d

/-- A frame that passed goes to the pending read, into the queue, or
nowhere. -/
theorem deliver_moves (d : Daemon ι) (k : Key ι) (frame : Frame)
    (huse : (d.contexts k).inUse = true) :
    Moves d [] ((d.act (.passed k frame (d.contexts k).readReq.isSome
      ((d.contexts k).pollhandle.isSome && !d.freeFramequeue.isempty))).deliver k frame) := by
  unfold deliver
  cases hread : (d.contexts k).readReq with
  | some req =>
    simp only [act, hread, Option.isSome_some]
    exact Moves.single (Move.hand k req frame _ huse hread)
  | none =>
    cases hpoll : (d.contexts k).pollhandle with
    | none =>
      simp only [act, hread, hpoll, Option.isSome_none, Bool.false_and]
      exact Moves.single (Move.miss k frame huse hread)
    | some ph =>
      cases hpool : d.freeFramequeue with
      | nil =>
        simp only [act, hread, hpoll, hpool, getFrame, Framequeue.get, Framequeue.isempty,
          Option.isSome_none, Option.isSome_some, List.isEmpty_nil, Bool.not_true, Bool.and_false]
        have hmiss := Move.miss (d := d) k frame huse hread
        have hnotify := Move.notifyPoll (d := d.act (.passed k frame false false)) ph
        have hboth := (Moves.single hmiss).tail hnotify
        simpa only [act, hpool, List.append_nil] using hboth
      | cons e pool =>
        have henq := Move.enqueue (d := d) k frame e pool huse hread (by rw [hpoll]; rfl) hpool
        have hboth := (Moves.single henq).tail (Move.notifyPoll ph)
        simpa only [act, setContext, hread, hpoll, hpool, getFrame, Framequeue.get,
          Framequeue.isempty, Option.isSome_none, Option.isSome_some, List.isEmpty_cons,
          Bool.not_false, Bool.and_true, List.append_nil] using hboth

theorem receiveAt_moves (d : Daemon ι) (k : Key ι) (frame : Frame) (interrupted : Req ι → Bool) :
    Moves d [] (d.receiveAt k frame interrupted) := by
  unfold receiveAt
  refine (d.dropInterrupted_moves k interrupted).trans_nil ?_
  simp only
  split
  case isTrue h => exact deliver_moves _ k frame h.1
  case isFalse => exact Moves.refl _

theorem handleReceivedFrame_moves (d : Daemon ι) (card : ι) (frame : Frame)
    (interrupted : Req ι → Bool) : Moves d [] (d.handleReceivedFrame card frame interrupted) :=
  Moves.foldl (f := fun d i => d.receiveAt (card, i) frame interrupted)
    (fun d i => d.receiveAt_moves (card, i) frame interrupted) _ d

theorem handleArrivals_moves (d : Daemon ι) (as : List (Arrival ι)) :
    Moves d [] (d.handleArrivals as) := by
  unfold handleArrivals
  refine Moves.foldl ?_ as d
  intro d a
  exact d.handleReceivedFrame_moves a.card a.frame a.interrupted

/-! ## The handlers -/

theorem reply_moves (d : Daemon ι) (req : Req ι) {isRead : Bool} {r : Reply}
    (hplain : r.plain = true) : Moves d [(req, isRead)] (d.reply req r) :=
  Moves.single (Move.answer req isRead r hplain)

theorem cuseOpen_of_some (nonblock : Bool) {index : Fin 32}
    (hindex : d.freeContextIndex req.card = some index) :
    d.cuseOpen req nonblock =
      (d.setContext (req.card, index) (Context.fresh nonblock)).reply req (.opened index) := by
  simp only [cuseOpen, hindex]
  rfl

omit [DecidableEq ι] in
/-- The first context is free if it is not in use. -/
theorem freeContextIndex_zero {card : ι} (hfree : (d.contexts (card, 0)).inUse = false) :
    d.freeContextIndex card = some 0 := by
  simp [freeContextIndex, hfree, List.finRange_succ]

theorem cuseOpen_moves (d : Daemon ι) (req : Req ι) (nonblock : Bool) :
    Moves d [(req, false)] (d.cuseOpen req nonblock) := by
  unfold cuseOpen
  split
  case h_1 => exact d.reply_moves req rfl
  case h_2 index hindex =>
    have hfree : (d.contexts (req.card, index)).inUse = false := by
      have := List.find?_some hindex
      simpa using this
    exact Moves.single (Move.openAt (req.card, index) req nonblock rfl hfree)

/-- A read that waits takes the place of one that waits there. -/
theorem readPending_moves (hkey : req.key = some k) (hempty : (d.contexts k).framequeue = some []) :
    Moves d [(req, true)] (d.readPending req k) := by
  unfold readPending
  cases hblock : (d.contexts k).nonblocking with
  | true =>
    simp only [hblock, if_true]
    exact d.reply_moves req (r := .nothing) rfl
  | false =>
    cases hread : (d.contexts k).readReq with
    | none =>
      have hpend := Move.pend k req hkey hread hempty hblock
      simpa only [hblock, hread, Bool.false_eq_true, if_false] using Moves.single hpend
    | some old =>
      have hintr := Move.interrupt k old hread
      refine (Moves.single hintr).trans_nil ?_
      have hpend := Move.pend
        (d := (d.reply old (.err .eintr)).setContext k { d.contexts k with readReq := none }) k req
        hkey (by simp [setContext]) (by simpa [setContext] using hempty)
        (by simpa [setContext] using hblock)
      simpa [setContext, reply, act, hblock, hread] using Moves.single hpend

/-- A queue that was never initialised is not empty and has no entry: a
read there is not taken care of. -/
theorem cuseRead_moves (d : Daemon ι) (req : Req ι)
    (hinit : ∀ k, req.key = some k → (d.contexts k).framequeue ≠ none) :
    Moves d [(req, true)] (d.cuseRead req) := by
  unfold cuseRead
  split
  case h_1 => exact d.reply_moves req rfl
  case h_2 k hkey =>
    split
    case h_1 hnone => exact absurd hnone (hinit k hkey)
    case h_2 hempty => exact readPending_moves hkey hempty
    case h_3 e q hqueue => exact Moves.single (Move.dequeue k req e q hkey hqueue)

theorem cuseRead_of_none (hkey : req.key = some k) (hnone : (d.contexts k).framequeue = none) :
    d.cuseRead req = d := by
  simp only [cuseRead, hkey, hnone]

theorem cuseWrite_moves (d : Daemon ι) (req : Req ι) (size : ℕ) (frame : Frame)
    (sent : List (Arrival ι)) (interrupted : Req ι → Bool) :
    Moves d [(req, false)] (d.cuseWrite req size frame sent interrupted) := by
  unfold cuseWrite
  split
  case h_1 => exact d.reply_moves req rfl
  case h_2 =>
    split
    · exact d.reply_moves req rfl
    · exact ((d.handleArrivals_moves sent).trans_nil
        (handleReceivedFrame_moves _ req.card (transmitted frame) interrupted)).trans_nil
          (reply_moves _ req rfl)

theorem replyValue_plain (args : IoctlArgs) (value : UInt64) :
    (replyValue args value).plain = true := by
  unfold replyValue
  split <;> rfl

theorem queryInfo_plain (args : IoctlArgs) : (queryInfo args).plain = true := by
  unfold queryInfo
  simp only
  split_ifs <;> rfl

theorem changeInfo_plain (args : IoctlArgs) : (changeInfo args).plain = true := by
  unfold changeInfo
  split_ifs <;> rfl

/-- A client sets one of the masks. -/
theorem setFilter_moves (d : Daemon ι) (req : Req ι) (k : Key ι) (args : IoctlArgs)
    (portMask portTxmask : UInt64) :
    Moves d [(req, false)] (d.setFilter req k args
      { d.contexts k with portMask := portMask, portTxmask := portTxmask }) := by
  unfold setFilter
  split
  · exact d.reply_moves req rfl
  · exact (Moves.single (Move.setMasks k portMask portTxmask)).trans_nil (reply_moves _ req rfl)

theorem cuseIoctl_moves (d : Daemon ι) (req : Req ι) (cmd : IoctlCmd) (args : IoctlArgs) :
    Moves d [(req, false)] (d.cuseIoctl req cmd args) := by
  unfold cuseIoctl
  split
  case h_1 => exact d.reply_moves req rfl
  case h_2 k hkey =>
    cases cmd with
    | setPortFilter => exact d.setFilter_moves req k args args.value (d.contexts k).portTxmask
    | setPortTxfilter => exact d.setFilter_moves req k args (d.contexts k).portMask args.value
    | version => exact d.reply_moves req (replyValue_plain args _)
    | getPortFilter => exact d.reply_moves req (replyValue_plain args _)
    | getPortTxfilter => exact d.reply_moves req (replyValue_plain args _)
    | queryCardInfo => exact d.reply_moves req (queryInfo_plain args)
    | queryPortInfo => exact d.reply_moves req (queryInfo_plain args)
    | changeCardInfo => exact d.reply_moves req (changeInfo_plain args)
    | changePortInfo => exact d.reply_moves req (changeInfo_plain args)
    | other _ => exact d.reply_moves req rfl

theorem setPollhandle_moves (d : Daemon ι) (k : Key ι) (ph : ℕ) :
    Moves d [] (d.setPollhandle k ph) := by
  unfold setPollhandle
  have hset := Moves.single (Move.setPoll (d := d) k ph)
  cases (d.contexts k).pollhandle with
  | none => exact hset
  | some old => exact hset.tail (Move.destroyPoll old)

theorem cusePoll_moves (d : Daemon ι) (req : Req ι) (ph : Option ℕ) :
    Moves d [(req, false)] (d.cusePoll req ph) := by
  unfold cusePoll
  split
  case h_1 => exact d.reply_moves req rfl
  case h_2 k hkey =>
    cases ph with
    | none => exact d.reply_moves req rfl
    | some ph => exact (d.setPollhandle_moves k ph).trans_nil (reply_moves _ req rfl)

theorem cuseDestroy_moves (d : Daemon ι) (card : ι) : Moves d [] (d.cuseDestroy card) := by
  refine Moves.foldl (fun d i => ?_) _ d
  unfold destroyAt
  split
  case h_1 req hreq => exact Moves.single (Move.interrupt _ req hreq)
  case h_2 => exact Moves.refl _

end Daemon

/-! ## All events -/

/-- The request of an event. -/
def Event.request : Event ι → List (Asked ι)
  | .read req => [(req, true)]
  | .openReq req _ | .release req | .write req _ _ _ _ | .ioctl req _ _ | .poll req _ =>
    [(req, false)]
  | .received _ => []

/-- The event is a read of a context whose queue was never initialised. -/
def Event.unheard (d : Daemon ι) : Event ι → Prop
  | .read req => ∃ k, req.key = some k ∧ (d.contexts k).framequeue = none
  | _ => False

/-- The event closes a context. -/
def Event.closes : Event ι → Option (Key ι)
  | .release req => req.key
  | _ => none

/-- The daemon after `release` of a context. -/
def Daemon.close (d : Daemon ι) (k : Key ι) : Daemon ι :=
  d.setContext k
    { d.contexts k with
      inUse := false
      portMask := 0
      framequeue := (d.contexts k).framequeue.map Framequeue.cleanup }

/-- **What an event can do**: it closes a context and answers the request
for it; or nothing at all, if it is a read of a queue that was never
initialised; or moves that take care of its request. -/
theorem Daemon.step_moves (d : Daemon ι) (e : Event ι) :
    (∃ k req, e.closes = some k ∧ e.request = [(req, false)] ∧
      d.step e = (d.close k).reply req (.err .success)) ∨
    (e.closes = none ∧ e.unheard d ∧ d.step e = d) ∨
    (e.closes = none ∧ ¬ e.unheard d ∧ Moves d e.request (d.step e)) := by
  cases e with
  | release req =>
    cases hkey : req.key with
    | none =>
      refine Or.inr (Or.inr ⟨hkey, id, ?_⟩)
      simp only [step, cuseRelease, hkey]
      exact d.reply_moves req rfl
    | some k =>
      refine Or.inl ⟨k, req, hkey, rfl, ?_⟩
      simp only [step, cuseRelease, hkey]
      rfl
  | read req =>
    by_cases hun : (Event.read req).unheard d
    · obtain ⟨k, hkey, hnone⟩ := id hun
      exact Or.inr (Or.inl ⟨rfl, hun, cuseRead_of_none hkey hnone⟩)
    · refine Or.inr (Or.inr ⟨rfl, hun, d.cuseRead_moves req fun k hkey hnone => ?_⟩)
      exact hun ⟨k, hkey, hnone⟩
  | openReq req nonblock => exact Or.inr (Or.inr ⟨rfl, id, d.cuseOpen_moves req nonblock⟩)
  | write req size frame sent interrupted =>
    exact Or.inr (Or.inr ⟨rfl, id, d.cuseWrite_moves req size frame sent interrupted⟩)
  | ioctl req cmd args => exact Or.inr (Or.inr ⟨rfl, id, d.cuseIoctl_moves req cmd args⟩)
  | poll req ph => exact Or.inr (Or.inr ⟨rfl, id, d.cusePoll_moves req ph⟩)
  | received a => exact Or.inr (Or.inr ⟨rfl, id, d.handleArrivals_moves [a]⟩)

end Cuse

end Dmx4Linux2
