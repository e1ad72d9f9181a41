import Dmx4Linux2.Core.Framequeue
import Dmx4Linux2.Cuse.Arrival

/-!
# CUSE framework — poll handles

A poll that comes with a handle leaves it in its context, for the frames
that are received later, and destroys the one that was there. Closing a
file leaves the handle in the context, where the next open overwrites it.
`handles_accounted_iff` says exactly when the handles are accounted for: as
long as no file with a handle is closed, and files are polled while they
are open. The argument is over the part of a daemon that handles are
found in (`Book`).
-/

namespace Dmx4Linux2

namespace Cuse

open Dmx4Linux2.Core

variable {ι : Type} [DecidableEq ι]
variable {d d' : Daemon ι} {k k' : Key ι} {ph : ℕ}

/-- A call with a poll handle. -/
inductive PollCall
  /-- `fuse_notify_poll` -/
  | notify (ph : ℕ)
  /-- `fuse_pollhandle_destroy` -/
  | destroy (ph : ℕ)
  deriving DecidableEq

def Action.pollCall? : Action ι → Option PollCall
  | .notifyPoll ph => some (.notify ph)
  | .destroyPoll ph => some (.destroy ph)
  | _ => none

/-- The calls with poll handles, in order. -/
def Daemon.pollCalls (d : Daemon ι) : List PollCall := d.actions.filterMap Action.pollCall?

/-- A poll comes with a handle. -/
def Event.hasHandle : Event ι → Bool
  | .poll _ (some _) => true
  | _ => false

/-- The handle that comes with a poll is a new one: the handles are
numbered as they come. -/
def Event.numbered (n : ℕ) : Event ι → Event ι
  | .poll req (some _) => .poll req (some n)
  | e => e

/-- The daemon, and how many poll handles it has been given. -/
structure Polling (ι : Type) where
  daemon : Daemon ι
  received : ℕ

namespace Polling

def start (garbage : ℕ → Frame) : Polling ι := ⟨Daemon.coreInit garbage, 0⟩

variable (s : Polling ι)

def step (e : Event ι) : Polling ι :=
  ⟨s.daemon.step (e.numbered s.received), s.received + e.hasHandle.toNat⟩

/-- No handle is notified after it was destroyed. -/
def LiveCalls (calls : List PollCall) : Prop :=
  ∀ pre post ph, calls = pre ++ .notify ph :: post → .destroy ph ∉ pre

/-- **Every handle is accounted for**: it was destroyed once, or a context
in use has it; a context that is not in use has none; and no handle is
notified after it was destroyed. -/
structure Accounted : Prop where
  handles : ∀ ph < s.received, s.daemon.pollCalls.count (.destroy ph) = 1 ∨
    ∃ k, (s.daemon.contexts k).inUse = true ∧ (s.daemon.contexts k).pollhandle = some ph
  unused : ∀ k, (s.daemon.contexts k).inUse = false → (s.daemon.contexts k).pollhandle = none
  live : LiveCalls s.daemon.pollCalls

/-- No context with a handle is released, and a handle comes only with
the poll of a context in use. -/
def Careful : Event ι → Prop
  | .release req => ∀ k, req.key = some k → (s.daemon.contexts k).pollhandle = none
  | .poll req (some _) => ∃ k, req.key = some k ∧ (s.daemon.contexts k).inUse = true
  | _ => True

end Polling

/-! ## The book -/

/-- Where poll handles are found. -/
structure Book (ι : Type) where
  inUse : Key ι → Bool
  handle : Key ι → Option ℕ
  calls : List PollCall

def Daemon.book (d : Daemon ι) : Book ι where
  inUse := fun k => (d.contexts k).inUse
  handle := fun k => (d.contexts k).pollhandle
  calls := d.pollCalls

/-- A new handle takes the place of the one a context had, which is
destroyed. -/
def Book.polled (b : Book ι) (k : Key ι) (ph : ℕ) : Book ι :=
  { b with
    handle := Function.update b.handle k (some ph)
    calls := b.calls ++ ((b.handle k).map PollCall.destroy).toList }

/-- **Contexts in use are notified**, one after the other. -/
inductive Notified (b : Book ι) : Book ι → Prop
  | refl : Notified b b
  | tail {b' : Book ι} (k : Key ι) (ph : ℕ) : Notified b b' → b'.handle k = some ph →
      Notified b { b' with calls := b'.calls ++ [.notify ph] }

omit [DecidableEq ι] in
theorem Notified.trans {b b' b'' : Book ι} (h : Notified b b') (h' : Notified b' b'') :
    Notified b b'' := by
  induction h' with
  | refl => exact h
  | tail k ph _ hhandle ih => exact ih.tail k ph hhandle

omit [DecidableEq ι] in
theorem Notified.of_eq {b b' : Book ι} (h : b' = b) : Notified b b' := h ▸ .refl

namespace Daemon

omit [DecidableEq ι] in
theorem act_book (a : Action ι) :
    (d.act a).book = { d.book with calls := d.book.calls ++ a.pollCall?.toList } := by
  simp only [book, pollCalls, act, List.filterMap_append]
  cases h : a.pollCall? <;> simp [h]

omit [DecidableEq ι] in
@[simp] theorem reply_book (req : Req ι) (r : Reply) : (d.reply req r).book = d.book := by
  rw [reply, act_book]
  simp [Action.pollCall?]

/-- A context that is replaced. -/
theorem setContext_book (ctx : Context ι) :
    (d.setContext k ctx).book = { d.book with
      inUse := Function.update d.book.inUse k ctx.inUse
      handle := Function.update d.book.handle k ctx.pollhandle } := by
  -- a field of the contexts is updated where the context is
  have hfield : ∀ {β : Type} (field : Context ι → β),
      (fun k' => field (Function.update d.contexts k ctx k')) =
        Function.update (fun k' => field (d.contexts k')) k (field ctx) := by
    intro β field
    funext k'
    by_cases hk : k' = k
    · subst hk
      simp
    · simp [hk]
  unfold book setContext
  dsimp only
  rw [hfield Context.inUse, hfield Context.pollhandle]
  rfl

/-- One that is replaced by one with the same use and handle. -/
theorem setContext_book_of_same {ctx : Context ι} (huse : ctx.inUse = (d.contexts k).inUse)
    (hhandle : ctx.pollhandle = (d.contexts k).pollhandle) : (d.setContext k ctx).book = d.book := by
  rw [setContext_book, huse, hhandle]
  have huse' : Function.update d.book.inUse k (d.contexts k).inUse = d.book.inUse :=
    Function.update_eq_self k _
  have hhandle' : Function.update d.book.handle k (d.contexts k).pollhandle = d.book.handle :=
    Function.update_eq_self k _
  rw [huse', hhandle']

/-! ## Received frames -/

theorem dropInterrupted_book (k : Key ι) (interrupted : Req ι → Bool) :
    (d.dropInterrupted k interrupted).book = d.book := by
  unfold dropInterrupted
  split
  · split
    · rw [setContext_book_of_same (by rfl) (by rfl), reply_book]
    · rfl
  · rfl

theorem deliver_notified (k : Key ι) (frame : Frame) :
    Notified d.book (d.deliver k frame).book := by
  unfold deliver
  dsimp only
  split
  · refine Notified.of_eq ?_
    rw [setContext_book_of_same (by rfl) (by rfl), reply_book]
  · rename_i ph _ hpoll
    unfold getFrame
    cases hget : d.freeFramequeue.get with
    | mk e pool =>
      have hpool : ({ d with freeFramequeue := pool } : Daemon ι).book = d.book := rfl
      cases e with
      | none =>
        dsimp only
        rw [act_book, hpool]
        exact Notified.refl.tail k ph hpoll
      | some e =>
        dsimp only
        rw [act_book, setContext_book_of_same (by rfl) (by rfl), hpool]
        exact Notified.refl.tail k ph hpoll
  · exact .refl

theorem receiveAt_notified (d : Daemon ι) (k : Key ι) (frame : Frame) (interrupted : Req ι → Bool) :
    Notified d.book (d.receiveAt k frame interrupted).book := by
  have hdrop := dropInterrupted_book (d := d) k interrupted
  rw [receiveAt_eq]
  split
  · have hnoted : (d.noted k frame interrupted).book = d.book := by
      rw [noted, act_book, hdrop]
      simp [Action.pollCall?]
    have h := deliver_notified (d := d.noted k frame interrupted) k frame
    rwa [hnoted] at h
  · exact .of_eq hdrop

omit [DecidableEq ι] in
theorem foldl_notified {α : Type} {f : Daemon ι → α → Daemon ι}
    (hf : ∀ d a, Notified d.book (f d a).book) (as : List α) (d : Daemon ι) :
    Notified d.book (as.foldl f d).book := by
  induction as generalizing d with
  | nil => exact .refl
  | cons a as ih => exact (hf d a).trans (ih (f d a))

theorem handleReceivedFrame_notified (d : Daemon ι) (card : ι) (frame : Frame)
    (interrupted : Req ι → Bool) :
    Notified d.book (d.handleReceivedFrame card frame interrupted).book := by
  unfold handleReceivedFrame
  exact foldl_notified (fun d i => d.receiveAt_notified (card, i) frame interrupted) _ d

theorem handleArrivals_notified (d : Daemon ι) (as : List (Arrival ι)) :
    Notified d.book (d.handleArrivals as).book := by
  unfold handleArrivals
  refine foldl_notified ?_ as d
  exact fun d a => d.handleReceivedFrame_notified a.card a.frame a.interrupted

/-! ## The handlers -/

theorem cuseOpen_book (d : Daemon ι) (req : Req ι) (nonblock : Bool) :
    (d.cuseOpen req nonblock).book = d.book ∨
      ∃ k, d.book.inUse k = false ∧ (d.cuseOpen req nonblock).book = { d.book with
        inUse := Function.update d.book.inUse k true
        handle := Function.update d.book.handle k none } := by
  cases hindex : d.freeContextIndex req.card with
  | none =>
    left
    simp only [cuseOpen, hindex]
    exact reply_book _ _
  | some index =>
    right
    refine ⟨(req.card, index), ?_, ?_⟩
    · have hfree := List.find?_some hindex
      exact Bool.not_eq_true' _ ▸ hfree
    · rw [cuseOpen_of_some nonblock hindex, reply_book, setContext_book]
      rfl

/-- A request for a file that cannot be. -/
theorem cuseRelease_book_of_none {req : Req ι} (hkey : req.key = none) :
    (d.cuseRelease req).book = d.book := by
  simp only [cuseRelease, hkey]
  exact reply_book _ _

theorem cuseRelease_book {req : Req ι} (hkey : req.key = some k) :
    (d.cuseRelease req).book =
      { d.book with inUse := Function.update d.book.inUse k false } := by
  simp only [cuseRelease, hkey]
  rw [reply_book, setContext_book]
  dsimp only
  rw [show (d.contexts k).pollhandle = d.book.handle k from rfl, Function.update_eq_self]

theorem setPollhandle_book (d : Daemon ι) (k : Key ι) (ph : ℕ) :
    (d.setPollhandle k ph).book = d.book.polled k ph := by
  have hset : (d.setContext k { d.contexts k with pollhandle := some ph }).book = { d.book with
      handle := Function.update d.book.handle k (some ph) } := by
    rw [setContext_book]
    dsimp only
    rw [show (d.contexts k).inUse = d.book.inUse k from rfl, Function.update_eq_self]
  unfold setPollhandle Book.polled
  dsimp only
  split
  · rename_i old hold
    rw [act_book, hset, show d.book.handle k = some old from hold]
    rfl
  · rename_i hold
    rw [hset, show d.book.handle k = none from hold]
    simp

theorem cusePoll_book {req : Req ι} (hkey : req.key = some k) (ph : ℕ) :
    (d.cusePoll req (some ph)).book = d.book.polled k ph := by
  simp only [cusePoll, hkey]
  rw [reply_book, setPollhandle_book]

/-- A poll without a handle, or of a file that cannot be. -/
theorem cusePoll_book_of_none {req : Req ι} {ph : Option ℕ} (h : req.key = none ∨ ph = none) :
    (d.cusePoll req ph).book = d.book := by
  cases hkey : req.key with
  | none =>
    simp only [cusePoll, hkey]
    exact reply_book _ _
  | some k =>
    rcases h with h | rfl
    · rw [hkey] at h
      cases h
    · simp only [cusePoll, hkey]
      exact reply_book _ _

theorem readPending_book (d : Daemon ι) (req : Req ι) (k : Key ι) :
    (d.readPending req k).book = d.book := by
  unfold readPending
  dsimp only
  split
  · exact reply_book _ _
  · split
    · rw [setContext_book_of_same (by rfl) (by rfl), reply_book]
    · rw [setContext_book_of_same (by rfl) (by rfl)]

theorem cuseRead_book (d : Daemon ι) (req : Req ι) : (d.cuseRead req).book = d.book := by
  unfold cuseRead
  split
  · exact reply_book _ _
  · split
    · rfl
    · exact readPending_book d req _
    · have hput : ∀ (d : Daemon ι) e, (d.putFrame e).book = d.book := fun _ _ => rfl
      rw [hput, reply_book, setContext_book_of_same (by rfl) (by rfl)]

theorem setFilter_book (d : Daemon ι) (req : Req ι) {k : Key ι} (args : IoctlArgs)
    {ctx : Context ι} (huse : ctx.inUse = (d.contexts k).inUse)
    (hhandle : ctx.pollhandle = (d.contexts k).pollhandle) :
    (d.setFilter req k args ctx).book = d.book := by
  unfold setFilter
  split
  · exact reply_book _ _
  · rw [reply_book, setContext_book_of_same huse hhandle]

theorem cuseIoctl_book (d : Daemon ι) (req : Req ι) (cmd : IoctlCmd) (args : IoctlArgs) :
    (d.cuseIoctl req cmd args).book = d.book := by
  unfold cuseIoctl
  split
  · exact reply_book _ _
  · cases cmd with
    | setPortFilter => exact setFilter_book d req args rfl rfl
    | setPortTxfilter => exact setFilter_book d req args rfl rfl
    | _ => exact reply_book _ _

theorem cuseWrite_notified (d : Daemon ι) (req : Req ι) (size : ℕ) (frame : Frame)
    (sent : List (Arrival ι)) (interrupted : Req ι → Bool) :
    Notified d.book (d.cuseWrite req size frame sent interrupted).book := by
  unfold cuseWrite
  split
  · exact .of_eq (reply_book _ _)
  · split
    · exact .of_eq (reply_book _ _)
    · rw [reply_book]
      exact (d.handleArrivals_notified sent).trans
        (handleReceivedFrame_notified _ req.card _ interrupted)

end Daemon

/-! ## The ledger -/

/-- **The ledger of the handles**, of which there were `n`: a context in
use holds a handle that no other holds and that was not destroyed, and
those that none holds were destroyed once. -/
structure Kept (b : Book ι) (n : ℕ) : Prop where
  unused : ∀ k, b.inUse k = false → b.handle k = none
  held : ∀ k ph, b.handle k = some ph → ph < n ∧ .destroy ph ∉ b.calls
  alone : ∀ k k' ph, b.handle k = some ph → b.handle k' = some ph → k = k'
  settled : ∀ ph < n, (∃ k, b.handle k = some ph) ∨ b.calls.count (.destroy ph) = 1
  known : ∀ ph, .destroy ph ∈ b.calls → ph < n
  live : Polling.LiveCalls b.calls

/-- One more call, of a handle that was not destroyed if it is notified. -/
theorem liveCalls_concat {calls : List PollCall} (h : Polling.LiveCalls calls) {c : PollCall}
    (hc : ∀ ph, c = .notify ph → .destroy ph ∉ calls) : Polling.LiveCalls (calls ++ [c]) := by
  intro pre post ph heq
  -- the notification is the new call, or was there before
  rcases List.eq_nil_or_concat post with rfl | ⟨post', c', rfl⟩
  · obtain ⟨rfl, hlast⟩ := List.append_inj' heq rfl
    exact hc ph (List.cons.inj hlast).1
  · refine h pre post' ph ?_
    have hsplit : calls ++ [c] = (pre ++ .notify ph :: post') ++ [c'] := by
      rw [heq]
      simp
    exact (List.append_inj' hsplit rfl).1

namespace Kept

variable {b b' : Book ι} {n : ℕ}

omit [DecidableEq ι] in
theorem notify (h : Kept b n) (hheld : b.handle k = some ph) :
    Kept { b with calls := b.calls ++ [.notify ph] } n := by
  have hmem : ∀ ph', PollCall.destroy ph' ∈ b.calls ++ [.notify ph] ↔
      PollCall.destroy ph' ∈ b.calls := by
    intro ph'
    simp
  refine ⟨h.unused, fun k' ph' hk' => ?_, h.alone, fun ph' hlt => ?_, fun ph' hd => ?_, ?_⟩
  · obtain ⟨hlt, hnot⟩ := h.held k' ph' hk'
    exact ⟨hlt, mt (hmem ph').1 hnot⟩
  · refine (h.settled ph' hlt).imp id fun hcount => ?_
    rw [List.count_append, hcount]
    rfl
  · exact h.known ph' ((hmem ph').1 hd)
  · refine liveCalls_concat h.live fun ph' heq => ?_
    cases heq
    exact (h.held k ph hheld).2

omit [DecidableEq ι] in
theorem notified (h : Kept b n) (hb : Notified b b') : Kept b' n := by
  induction hb with
  | refl => exact h
  | tail k ph _ hheld ih => exact ih.notify hheld

/-- A context that is opened has no handle to lose. -/
theorem opened (h : Kept b n) (hfree : b.inUse k = false) :
    Kept { b with
      inUse := Function.update b.inUse k true
      handle := Function.update b.handle k none } n := by
  have hsame : Function.update b.handle k none = b.handle := by
    have hnone := h.unused k hfree
    rw [← hnone]
    exact Function.update_eq_self k b.handle
  rw [hsame]
  refine ⟨fun k' hk' => h.unused k' ?_, h.held, h.alone, h.settled, h.known, h.live⟩
  by_cases hk : k' = k
  · subst hk
    simp at hk'
  · simpa [hk] using hk'

/-- A context without a handle can be closed. -/
theorem released (h : Kept b n) (hnone : b.handle k = none) :
    Kept { b with inUse := Function.update b.inUse k false } n := by
  refine ⟨fun k' hk' => ?_, h.held, h.alone, h.settled, h.known, h.live⟩
  by_cases hk : k' = k
  · rw [hk]
    exact hnone
  · exact h.unused k' (by simpa [hk] using hk')

/-! ### A poll with a handle -/

omit [DecidableEq ι] in
theorem mem_destroyed {calls : List PollCall} {old : Option ℕ} :
    .destroy ph ∈ calls ++ (old.map PollCall.destroy).toList ↔
      .destroy ph ∈ calls ∨ old = some ph := by
  cases old <;> simp [eq_comm]

theorem handle_polled (h : (b.polled k n).handle k' = some ph) :
    (k' = k ∧ ph = n) ∨ (k' ≠ k ∧ b.handle k' = some ph) := by
  by_cases hk : k' = k
  · subst hk
    have hself : (b.polled k' n).handle k' = some n := Function.update_self ..
    exact Or.inl ⟨rfl, (Option.some.inj (hself.symm.trans h)).symm⟩
  · have hother : (b.polled k n).handle k' = b.handle k' := Function.update_of_ne hk _ _
    exact Or.inr ⟨hk, hother ▸ h⟩

/-- The handles that contexts have are none of those destroyed: the old
one was in this context only. -/
theorem held_polled (h : Kept b n) (hheld : (b.polled k n).handle k' = some ph) :
    ph < n + 1 ∧ .destroy ph ∉ (b.polled k n).calls := by
  rcases handle_polled hheld with ⟨-, rfl⟩ | ⟨hk, hk'⟩
  · refine ⟨Nat.lt_succ_self _, fun hd => ?_⟩
    rcases mem_destroyed.1 hd with hd | hd
    · exact absurd (h.known ph hd) (Nat.lt_irrefl _)
    · exact absurd (h.held k ph hd).1 (Nat.lt_irrefl _)
  · obtain ⟨hlt, hnot⟩ := h.held k' ph hk'
    refine ⟨Nat.lt_succ_of_lt hlt, fun hd => ?_⟩
    rcases mem_destroyed.1 hd with hd | hd
    · exact hnot hd
    · exact hk (h.alone k' k ph hk' hd)

theorem alone_polled (h : Kept b n) {k₁ k₂ : Key ι} (h₁ : (b.polled k n).handle k₁ = some ph)
    (h₂ : (b.polled k n).handle k₂ = some ph) : k₁ = k₂ := by
  rcases handle_polled h₁ with ⟨rfl, rfl⟩ | ⟨-, hold₁⟩
  · rcases handle_polled h₂ with ⟨rfl, -⟩ | ⟨-, hold₂⟩
    · rfl
    · exact absurd (h.held k₂ ph hold₂).1 (Nat.lt_irrefl _)
  · rcases handle_polled h₂ with ⟨-, rfl⟩ | ⟨-, hold₂⟩
    · exact absurd (h.held k₁ ph hold₁).1 (Nat.lt_irrefl _)
    · exact h.alone k₁ k₂ ph hold₁ hold₂

/-- The new handle is in the context, the old one is destroyed now and was
not before, and the others are where they were. -/
theorem settled_polled (h : Kept b n) (hlt : ph < n + 1) :
    (∃ k', (b.polled k n).handle k' = some ph) ∨
      (b.polled k n).calls.count (.destroy ph) = 1 := by
  rcases Nat.lt_succ_iff_lt_or_eq.1 hlt with hlt | rfl
  swap
  · exact Or.inl ⟨k, Function.update_self ..⟩
  by_cases hold : b.handle k = some ph
  -- the old handle: this is the first time that it is destroyed
  · have hzero := List.count_eq_zero.2 (h.held k ph hold).2
    refine Or.inr ?_
    show (b.calls ++ ((b.handle k).map PollCall.destroy).toList).count (.destroy ph) = 1
    rw [hold, List.count_append, hzero]
    simp
  · rcases h.settled ph hlt with ⟨k', hk'⟩ | hcount
    · have hk : k' ≠ k := by
        rintro rfl
        exact hold hk'
      exact Or.inl ⟨k', (Function.update_of_ne hk _ _).trans hk'⟩
    · refine Or.inr ?_
      show (b.calls ++ ((b.handle k).map PollCall.destroy).toList).count (.destroy ph) = 1
      rw [List.count_append, hcount, List.count_eq_zero.2]
      cases hk : b.handle k with
      | none => simp
      | some old =>
        rw [hk] at hold
        simpa [eq_comm] using hold

/-- **A context in use is polled with a new handle.** -/
theorem polled (h : Kept b n) (huse : b.inUse k = true) : Kept (b.polled k n) (n + 1) := by
  refine ⟨fun k' hk' => ?_, fun k' ph => h.held_polled, fun k₁ k₂ ph => h.alone_polled,
    fun ph => h.settled_polled, fun ph hd => ?_, ?_⟩
  · have hk : k' ≠ k := by
      rintro rfl
      rw [show (b.polled k' n).inUse k' = b.inUse k' from rfl, huse] at hk'
      cases hk'
    exact (Function.update_of_ne hk _ _).trans (h.unused k' hk')
  · rcases mem_destroyed.1 hd with hd | hd
    · exact Nat.lt_succ_of_lt (h.known ph hd)
    · exact Nat.lt_succ_of_lt (h.held k ph hd).1
  · show Polling.LiveCalls (b.calls ++ ((b.handle k).map PollCall.destroy).toList)
    cases hk : b.handle k with
    | none => simpa using h.live
    | some old => exact liveCalls_concat h.live fun ph heq => by cases heq

end Kept

/-! ## All events -/

namespace Polling

variable {s : Polling ι} {e : Event ι}

/-- **What an event does to the book**, if it is not a poll with a handle
or the release of a file. -/
theorem kept_other (h : Kept s.daemon.book s.received) (hpoll : e.hasHandle = false)
    (hclose : e.closes = none) : Kept (s.step e).daemon.book (s.step e).received := by
  have hcount : (s.step e).received = s.received := by
    show s.received + e.hasHandle.toNat = _
    rw [hpoll]
    rfl
  rw [hcount]
  cases e with
  | openReq req nonblock =>
    rcases s.daemon.cuseOpen_book req nonblock with hsame | ⟨k, hfree, hbook⟩
    · exact hsame ▸ h
    · exact hbook ▸ h.opened hfree
  | release req => exact (Daemon.cuseRelease_book_of_none (d := s.daemon) hclose) ▸ h
  | read req => exact (s.daemon.cuseRead_book req) ▸ h
  | write req size frame sent interrupted =>
    exact h.notified (s.daemon.cuseWrite_notified req size frame sent interrupted)
  | ioctl req cmd args => exact (s.daemon.cuseIoctl_book req cmd args) ▸ h
  | poll req ph =>
    cases ph with
    | none => exact (Daemon.cusePoll_book_of_none (d := s.daemon) (Or.inr rfl)) ▸ h
    | some ph => cases hpoll
  | received a =>
    simp only [step, Event.numbered, Daemon.step]
    exact h.notified (s.daemon.handleArrivals_notified [a])

/-- **One event that is careful.** -/
theorem kept_step (h : Kept s.daemon.book s.received) (hok : s.Careful e) :
    Kept (s.step e).daemon.book (s.step e).received := by
  cases e with
  | release req =>
    cases hkey : req.key with
    | none => exact kept_other h rfl hkey
    | some k =>
      have hbook := Daemon.cuseRelease_book (d := s.daemon) hkey
      exact hbook ▸ h.released (hok k hkey)
  | poll req ph =>
    cases ph with
    | none => exact kept_other h rfl rfl
    | some ph =>
      obtain ⟨k, hkey, huse⟩ := hok
      have hbook := Daemon.cusePoll_book (d := s.daemon) hkey s.received
      exact hbook ▸ h.polled huse
  | openReq req nonblock => exact kept_other h rfl rfl
  | read req => exact kept_other h rfl rfl
  | write req size frame sent interrupted => exact kept_other h rfl rfl
  | ioctl req cmd args => exact kept_other h rfl rfl
  | received a => exact kept_other h rfl rfl

omit [DecidableEq ι] in
theorem accounted_of_kept (h : Kept s.daemon.book s.received) : s.Accounted := by
  refine ⟨fun ph hlt => ?_, h.unused, h.live⟩
  rcases h.settled ph hlt with ⟨k, hk⟩ | hcount
  · refine Or.inr ⟨k, ?_, hk⟩
    by_contra huse
    have hnone := h.unused k (Bool.eq_false_iff.2 huse)
    rw [hk] at hnone
    cases hnone
  · exact Or.inl hcount

/-! ### What goes wrong otherwise -/

/-- A handle stays in a context that is released. -/
theorem careful_release {req : Req ι} (hnext : (s.step (.release req)).Accounted) :
    s.Careful (.release req) := by
  intro k hkey
  have hbook := Daemon.cuseRelease_book (d := s.daemon) hkey
  have huse : ((s.step (.release req)).daemon.contexts k).inUse = false := by
    have hk := congrFun (congrArg Book.inUse hbook) k
    exact hk.trans (Function.update_self ..)
  have hhandle : ((s.step (.release req)).daemon.contexts k).pollhandle =
      (s.daemon.contexts k).pollhandle := congrFun (congrArg Book.handle hbook) k
  rw [← hhandle]
  exact hnext.unused k huse

/-- The handle of a poll of no context is nowhere. -/
theorem key_ne_none_of_accounted {req : Req ι} {ph : ℕ} (h : Kept s.daemon.book s.received)
    (hnext : (s.step (.poll req (some ph))).Accounted) : req.key ≠ none := by
  intro hkey
  have hbook : (s.step (.poll req (some ph))).daemon.book = s.daemon.book :=
    Daemon.cusePoll_book_of_none (Or.inl hkey)
  rcases hnext.handles s.received (Nat.lt_succ_self _) with hcount | ⟨k, -, hk⟩
  · have hcount' : s.daemon.book.calls.count (.destroy s.received) = 1 := by
      rw [← hbook]
      exact hcount
    have hmem : PollCall.destroy s.received ∈ s.daemon.book.calls :=
      List.count_pos_iff.1 (by omega)
    exact absurd (h.known _ hmem) (Nat.lt_irrefl _)
  · have hk' : s.daemon.book.handle k = some s.received := by
      rw [← hbook]
      exact hk
    exact absurd (h.held k _ hk').1 (Nat.lt_irrefl _)

/-- That of a poll of a context not in use is in that context. -/
theorem inUse_of_accounted {req : Req ι} {ph : ℕ} (hkey : req.key = some k)
    (hnext : (s.step (.poll req (some ph))).Accounted) : (s.daemon.contexts k).inUse = true := by
  have hbook : (s.step (.poll req (some ph))).daemon.book = s.daemon.book.polled k s.received :=
    Daemon.cusePoll_book hkey s.received
  have huse : ((s.step (.poll req (some ph))).daemon.contexts k).inUse =
      (s.daemon.contexts k).inUse := congrFun (congrArg Book.inUse hbook) k
  have hhandle : ((s.step (.poll req (some ph))).daemon.contexts k).pollhandle =
      some s.received := by
    have hk := congrFun (congrArg Book.handle hbook) k
    exact hk.trans (Function.update_self ..)
  by_contra hnot
  have hnone := hnext.unused k (by rw [huse]; exact Bool.eq_false_iff.2 hnot)
  rw [hhandle] at hnone
  cases hnone

/-- **One event that is not careful** is not accounted for. -/
theorem careful_of_accounted (h : Kept s.daemon.book s.received) (hnext : (s.step e).Accounted) :
    s.Careful e := by
  cases e with
  | release req => exact careful_release hnext
  | poll req ph =>
    cases ph with
    | none => trivial
    | some ph =>
      obtain ⟨k, hkey⟩ := Option.ne_none_iff_exists'.1 (key_ne_none_of_accounted h hnext)
      exact ⟨k, hkey, inUse_of_accounted hkey hnext⟩
  | openReq req nonblock => trivial
  | read req => trivial
  | write req size frame sent interrupted => trivial
  | ioctl req cmd args => trivial
  | received a => trivial

omit [DecidableEq ι] in
theorem kept_start (garbage : ℕ → Frame) :
    Kept (start garbage : Polling ι).daemon.book (start garbage : Polling ι).received := by
  refine ⟨fun _ _ => rfl, fun k ph hk => ?_, fun k _ ph hk => ?_, fun ph hlt => ?_,
    fun ph hd => ?_, fun pre post ph heq => ?_⟩
  · cases hk
  · cases hk
  · exact absurd hlt (Nat.not_lt_zero _)
  · cases hd
  · have hlen := congrArg List.length heq
    simp [Daemon.book, Daemon.pollCalls, Polling.start, Daemon.coreInit] at hlen

/-- **When poll handles are accounted for**: in every state of a run, just
when none of its steps releases a context that has a handle, and every
handle comes with the poll of a context in use. -/
theorem handles_accounted_iff (garbage : ℕ → Frame) (es : List (Event ι)) :
    Always step Accounted (start garbage) es ↔ EachStep step Careful (start garbage) es := by
  refine always_iff_eachStep_of_invariant
    (Q := fun s : Polling ι => Kept s.daemon.book s.received) ?_ ?_ ?_ (kept_start garbage)
  · exact fun s h => accounted_of_kept h
  · exact fun s e h hnext => careful_of_accounted h hnext
  · exact fun s e h hok => kept_step h hok

/-- A file is opened, polled and closed. -/
def closePolled : List (Event Unit) :=
  [.openReq ⟨0, (), 0⟩ false, .poll ⟨1, (), 0⟩ (some 0), .release ⟨2, (), 0⟩]

/-- **Its poll handle is left behind** in a context that is not in use. -/
theorem closePolled_not_accounted :
    ¬ Always step Accounted (start fun _ => Frame.single) closePolled := by
  intro h
  have hindex : (Daemon.coreInit fun _ => Frame.single : Daemon Unit).freeContextIndex () =
      some 0 := Daemon.freeContextIndex_zero rfl
  have hctx : (run step (start fun _ => Frame.single) closePolled).daemon.contexts ((), 0) =
      ⟨false, false, 0, 0, none, some 0, some []⟩ := by
    simp [closePolled, run, step, Daemon.step, Event.numbered, Event.hasHandle, Daemon.cuseOpen,
      hindex, Req.key, Daemon.cusePoll, Daemon.setPollhandle, Daemon.cuseRelease,
      Daemon.setContext, Daemon.reply, Daemon.act, Context.zero, Framequeue.init,
      Framequeue.cleanup, start]
  have hnone := h.last.unused ((), 0) (by rw [hctx])
  rw [hctx] at hnone
  cases hnone

end Polling

end Cuse

end Dmx4Linux2
