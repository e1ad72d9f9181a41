import Dmx4Linux2.Cuse.Delivery

/-!
# CUSE framework — the answers to requests

A request is answered by the handler it is given to, or it is a read and
waits in `read_req` until a frame, an interruption, a second read or the
end of the card answers it. `answered_once` says that every request gets
one answer and no more, and that only a read in `read_req` is without
one. It is about all requests of a run, so the daemon is put beside the
requests that were made and the cards that were destroyed.
-/

namespace Dmx4Linux2

namespace Cuse

open Dmx4Linux2.Core

variable {ι : Type} [DecidableEq ι]
variable {d d' : Daemon ι} {k k' : Key ι} {r : Req ι} {rs asked : List (Asked ι)} {live : ι → Prop}

/-- The action is an answer to the request. -/
def Action.answers (r : Req ι) : Action ι → Bool
  | .reply req _ => req = r
  | _ => false

/-- How often a request was answered. -/
def Daemon.answers (d : Daemon ι) (r : Req ι) : ℕ := d.actions.countP (Action.answers r)

/-- The request is the `read_req` of its context. -/
def Daemon.waits (d : Daemon ι) (r : Req ι) : Bool :=
  r.key.any fun k => (d.contexts k).readReq = some r

/-! ## The kernel -/

/-- The daemon, the requests made so far and the cards destroyed. -/
structure Service (ι : Type) where
  daemon : Daemon ι
  asked : List (Asked ι)
  gone : List ι

namespace Service

def start (garbage : ℕ → Frame) : Service ι := ⟨Daemon.coreInit garbage, [], []⟩

inductive Event (ι : Type)
  | handle (e : Cuse.Event ι)
  | destroy (card : ι)

variable (s : Service ι)

def step : Event ι → Service ι
  | .handle e => { s with daemon := s.daemon.step e, asked := s.asked ++ e.request }
  | .destroy card => { s with daemon := s.daemon.cuseDestroy card, gone := card :: s.gone }

/-- **What the kernel sends**: requests it did not send before and that
are for no card that was destroyed; a read through a file that is open;
and the release of a file once all reads of it are answered. -/
structure Sends (e : Cuse.Event ι) : Prop where
  fresh : ∀ a ∈ e.request, a.1 ∉ s.asked.map Prod.fst
  served : ∀ a ∈ e.request, a.1.card ∉ s.gone
  opened : ∀ req, e = .read req → ∃ k, req.key = some k ∧ (s.daemon.contexts k).inUse = true
  settled : ∀ k, e.closes = some k →
    ∀ r, (r, true) ∈ s.asked → r.key = some k → 0 < s.daemon.answers r

def Sent : Event ι → Prop
  | .handle e => s.Sends e
  | .destroy _ => True

/-- **Every request has one answer**, but for a blocking read in
`read_req`, which has none; nothing else is answered; and no request for
a card that was destroyed is left. -/
structure Answered : Prop where
  once : ∀ a ∈ s.asked, s.daemon.waits a.1 = false → s.daemon.answers a.1 = 1
  waiting : ∀ a ∈ s.asked, s.daemon.waits a.1 = true → s.daemon.answers a.1 = 0 ∧
    a.2 = true ∧ ∃ k, a.1.key = some k ∧ (s.daemon.contexts k).nonblocking = false
  unasked : ∀ r, r ∉ s.asked.map Prod.fst → s.daemon.answers r = 0
  gone : ∀ a ∈ s.asked, a.1.card ∈ s.gone → s.daemon.answers a.1 = 1

end Service

/-! ## One move -/

namespace Daemon

@[simp] theorem act_answers (a : Action ι) :
    (d.act a).answers r = d.answers r + (a.answers r).toNat := by
  cases h : a.answers r <;> simp [answers, act, List.countP_append, h]

@[simp] theorem reply_answers (req : Req ι) (rep : Reply) :
    (d.reply req rep).answers r = d.answers r + if req = r then 1 else 0 := by
  rw [reply, act_answers, Action.answers]
  by_cases h : req = r <;> simp [h]

@[simp] theorem setContext_answers (ctx : Context ι) :
    (d.setContext k ctx).answers r = d.answers r := rfl

@[simp] theorem putFrame_answers (e : Entry) : (d.putFrame e).answers r = d.answers r := rfl

variable {ctx : Context ι} {req : Req ι}

theorem waits_of_key (hkey : r.key = some k) :
    d.waits r = decide ((d.contexts k).readReq = some r) := by
  simp [waits, hkey]

theorem waits_iff :
    d.waits r = true ↔ ∃ k, r.key = some k ∧ (d.contexts k).readReq = some r := by
  unfold waits
  cases r.key <;> simp

theorem waits_congr (h : ∀ k, (d'.contexts k).readReq = (d.contexts k).readReq) :
    d'.waits r = d.waits r := by
  unfold waits
  simp only [h]

/-- A context is replaced by one with the same `read_req`. -/
theorem waits_same (hctx : d'.contexts = Function.update d.contexts k ctx)
    (hread : ctx.readReq = (d.contexts k).readReq) : d'.waits r = d.waits r := by
  refine waits_congr fun k' => ?_
  rw [hctx]
  by_cases hk : k' = k
  · subst hk
    rw [Function.update_self, hread]
  · rw [Function.update_of_ne hk]

theorem setContext_waits (d : Daemon ι) (k : Key ι) (ctx : Context ι)
    (hread : ctx.readReq = (d.contexts k).readReq) : (d.setContext k ctx).waits r = d.waits r :=
  waits_same rfl hread

/-- Another context is replaced. -/
theorem waits_of_ne (hctx : d'.contexts = Function.update d.contexts k ctx)
    (hkey : r.key ≠ some k) : d'.waits r = d.waits r := by
  unfold waits
  cases hr : r.key with
  | none => rfl
  | some k' =>
    have hne : k' ≠ k := fun heq => hkey (by rw [hr, heq])
    simp [hctx, Function.update_of_ne hne]

/-- A request begins to wait. -/
theorem waits_begin (hctx : d'.contexts = Function.update d.contexts k ctx)
    (hkey : req.key = some k) (hnone : (d.contexts k).readReq = none)
    (hsome : ctx.readReq = some req) :
    (d'.waits r).toNat = (d.waits r).toNat + if req = r then 1 else 0 := by
  by_cases hr : r.key = some k
  · rw [waits_of_key hr, waits_of_key hr, hctx, Function.update_self, hsome, hnone]
    by_cases heq : req = r <;> simp [heq]
  · have hne : req ≠ r := fun heq => hr (heq ▸ hkey)
    rw [waits_of_ne hctx hr, if_neg hne, Nat.add_zero]

/-- A request ends to wait. -/
theorem waits_end (hctx : d'.contexts = Function.update d.contexts k ctx)
    (hkey : req.key = some k) (hsome : (d.contexts k).readReq = some req)
    (hnone : ctx.readReq = none) :
    (d.waits r).toNat = (d'.waits r).toNat + if req = r then 1 else 0 := by
  by_cases hr : r.key = some k
  · rw [waits_of_key hr, waits_of_key hr, hctx, Function.update_self, hsome, hnone]
    by_cases heq : req = r <;> simp [heq]
  · have hne : req ≠ r := fun heq => hr (heq ▸ hkey)
    rw [waits_of_ne hctx hr, if_neg hne, Nat.add_zero]

/-- The answers a request has, and one more if it waits. -/
def settles (d : Daemon ι) (r : Req ι) : ℕ := d.answers r + (d.waits r).toNat

end Daemon

/-- **The requests are accounted for**: each has an answer or waits, and
what waits is a read, of a context that is open on a live card and
blocks. -/
structure Accounts (live : ι → Prop) (asked : List (Asked ι)) (d : Daemon ι) : Prop where
  delivers : ∀ k, Delivers d k
  idle : ∀ k, ¬ ((d.contexts k).inUse = true ∧ live k.1) → (d.contexts k).readReq = none
  blocks : ∀ k r, (d.contexts k).readReq = some r →
    (d.contexts k).nonblocking = false ∧ (r, true) ∈ asked
  settles : ∀ r, d.settles r = asked.countP fun a => a.1 = r

theorem countP_request (req r : Req ι) (isRead : Bool) :
    ([(req, isRead)] : List (Asked ι)).countP (fun a => a.1 = r) = if req = r then 1 else 0 := by
  simp [List.countP_singleton]

/-- **A move settles the requests it takes care of** and no other. -/
theorem Accounts.settles_move (h : Accounts live asked d) (hmove : Move d rs d') (r : Req ι) :
    d'.settles r = d.settles r + rs.countP fun a => a.1 = r := by
  unfold Daemon.settles
  cases hmove with
  | answer req isRead rep hplain =>
    have hwaits : (d.reply req rep).waits r = d.waits r := rfl
    rw [Daemon.reply_answers, hwaits, countP_request]
    omega
  | openAt k req nonblock hcard hfree =>
    have hnone := h.idle k (fun hopen => by simp [hfree] at hopen)
    have hwaits : ((d.setContext k (Context.fresh nonblock)).reply req (.opened k.2)).waits r =
        d.waits r := Daemon.waits_same rfl (by rw [hnone]; rfl)
    rw [Daemon.reply_answers, Daemon.setContext_answers, hwaits, countP_request]
    omega
  | interrupt k req hread =>
    have hend : (d.waits r).toNat = (((d.reply req (.err .eintr)).setContext k
        { d.contexts k with readReq := none }).waits r).toNat + if req = r then 1 else 0 :=
      Daemon.waits_end rfl ((h.delivers k).own req hread) hread rfl
    rw [Daemon.setContext_answers, Daemon.reply_answers, hend, List.countP_nil]
    omega
  | pend k req hkey hread hempty hblock =>
    have hbegin : ((d.setContext k { d.contexts k with readReq := some req }).waits r).toNat =
        (d.waits r).toNat + if req = r then 1 else 0 := Daemon.waits_begin rfl hkey hread rfl
    rw [Daemon.setContext_answers, hbegin, countP_request]
    omega
  | hand k req frame room huse hread =>
    have hend : (d.waits r).toNat = ((((d.act (.passed k frame true room)).reply req
        (.buf frame)).setContext k { d.contexts k with readReq := none }).waits r).toNat +
          if req = r then 1 else 0 :=
      Daemon.waits_end rfl ((h.delivers k).own req hread) hread rfl
    rw [Daemon.setContext_answers, Daemon.reply_answers, Daemon.act_answers, hend, List.countP_nil]
    simp only [Action.answers, Bool.toNat_false]
    omega
  | enqueue k frame e pool huse hread hpoll hpool =>
    have hans : ({ d.act (.passed k frame false true) with freeFramequeue := pool } :
        Daemon ι).answers r = d.answers r := Daemon.act_answers (.passed k frame false true)
    rw [Daemon.setContext_answers, hans, Daemon.setContext_waits]
    · rfl
    · rfl
  | miss k frame huse hread => exact congrArg (· + (d.waits r).toNat) (Daemon.act_answers _)
  | dequeue k req e q hkey hqueue =>
    have hwaits : (((d.setContext k { d.contexts k with framequeue := some q }).reply req
        (.buf e.frame)).putFrame e).waits r = d.waits r := Daemon.waits_same rfl rfl
    rw [Daemon.putFrame_answers, Daemon.reply_answers, Daemon.setContext_answers, hwaits,
      countP_request]
    omega
  | setMasks k portMask portTxmask =>
    rw [Daemon.setContext_answers, Daemon.setContext_waits]
    · rfl
    · rfl
  | setPoll k ph =>
    rw [Daemon.setContext_answers, Daemon.setContext_waits]
    · rfl
    · rfl
  | notifyPoll ph => exact congrArg (· + (d.waits r).toNat) (Daemon.act_answers _)
  | destroyPoll ph => exact congrArg (· + (d.waits r).toNat) (Daemon.act_answers _)

/-- How a request comes to wait at a context: it waited there before, or
it is among the reads taken care of, and the context blocks. -/
def ComesToWait (rs : List (Asked ι)) (k : Key ι) (r : Req ι) (ctx ctx' : Context ι) : Prop :=
  ctx'.inUse = ctx.inUse ∧
    ((ctx.readReq = some r ∧ ctx'.nonblocking = ctx.nonblocking) ∨
      ((r, true) ∈ rs ∧ r.key = some k ∧ ctx'.nonblocking = false))

theorem Move.comesToWait (hmove : Move d rs d') (hread : (d'.contexts k).readReq = some r) :
    ComesToWait rs k r (d.contexts k) (d'.contexts k) := by
  have hturns := hmove.turns k
  generalize d'.contexts k = ctx' at hread hturns
  cases hturns with
  | same => exact ⟨rfl, Or.inl ⟨hread, rfl⟩⟩
  | opens nonblock hfree => exact absurd hread (by simp [Context.fresh, Context.zero])
  | answers => exact absurd hread (by simp)
  | pends req hmem hkey hblock =>
    obtain rfl : req = r := Option.some.inj hread
    exact ⟨rfl, Or.inr ⟨hmem, hkey, hblock⟩⟩
  | queues q hqueue => exact ⟨rfl, Or.inl ⟨hread, rfl⟩⟩
  | sets portMask portTxmask pollhandle => exact ⟨rfl, Or.inl ⟨hread, rfl⟩⟩

theorem Move.inUse_mono (hmove : Move d rs d') (huse : (d.contexts k).inUse = true) :
    (d'.contexts k).inUse = true := by
  have hturns := hmove.turns k
  generalize d'.contexts k = ctx' at hturns ⊢
  cases hturns with
  | opens nonblock hfree => rfl
  | same => exact huse
  | answers => exact huse
  | pends req hmem hkey hblock => exact huse
  | queues q hqueue => exact huse
  | sets portMask portTxmask pollhandle => exact huse

/-- The reads among some requests are made through open files of live
cards. -/
def Through (live : ι → Prop) (d : Daemon ι) (rs : List (Asked ι)) : Prop :=
  ∀ r, (r, true) ∈ rs → ∀ k, r.key = some k → (d.contexts k).inUse = true ∧ live k.1

/-- **A move keeps the account.** -/
theorem Accounts.move (h : Accounts live asked d) (hmove : Move d rs d') (hrs : Through live d rs) :
    Accounts live (asked ++ rs) d' := by
  refine ⟨Delivers.move h.delivers hmove, fun k hk => ?_, fun k r hread => ?_, fun r => ?_⟩
  · by_contra hsome
    obtain ⟨r, hr⟩ := Option.ne_none_iff_exists'.1 hsome
    obtain ⟨huse, ⟨hbefore, -⟩ | ⟨hmem, hkey, -⟩⟩ := hmove.comesToWait hr
    · rw [h.idle k (by rw [← huse]; exact hk)] at hbefore
      exact absurd hbefore (by simp)
    · exact hk (by rw [huse]; exact hrs r hmem k hkey)
  · obtain ⟨-, ⟨hbefore, hblock⟩ | ⟨hmem, -, hblock⟩⟩ := hmove.comesToWait hread
    · rw [hblock]
      exact ⟨(h.blocks k r hbefore).1, List.mem_append_left rs (h.blocks k r hbefore).2⟩
    · exact ⟨hblock, List.mem_append_right asked hmem⟩
  · rw [h.settles_move hmove, h.settles, List.countP_append]

theorem Accounts.moves (h : Accounts live asked d) (hmoves : Moves d rs d')
    (hrs : Through live d rs) : Accounts live (asked ++ rs) d' := by
  induction hmoves with
  | refl => simpa using h
  | @tail d' d'' rs rs' hmoves hmove ih =>
    have hmono : ∀ k, (d.contexts k).inUse = true → (d'.contexts k).inUse = true := fun k huse =>
      hmoves.keeps (P := fun d => (d.contexts k).inUse = true)
        (fun hmove huse => hmove.inUse_mono huse) huse
    rw [← List.append_assoc]
    refine (ih fun r hr => hrs r (List.mem_append_left rs' hr)).move hmove fun r hr k hkey => ?_
    have hopen := hrs r (List.mem_append_right rs hr) k hkey
    exact ⟨hmono k hopen.1, hopen.2⟩

/-! ## Release and destroy -/

/-- A context without a pending read is closed. -/
theorem Accounts.close (h : Accounts live asked d) (hread : (d.contexts k).readReq = none) :
    Accounts live asked (d.close k) := by
  have hsame : ∀ k', ((d.close k).contexts k').readReq = (d.contexts k').readReq ∧
      ((d.close k).contexts k').nonblocking = (d.contexts k').nonblocking := by
    intro k'
    unfold Daemon.close
    by_cases hk : k' = k
    · subst hk
      simp
    · simp [Daemon.setContext_of_ne hk]
  refine ⟨Delivers.close h.delivers k, fun k' hk' => ?_, fun k' r hr => ?_, fun r => ?_⟩
  · rw [(hsame k').1]
    by_cases hk : k' = k
    · rw [hk, hread]
    · refine h.idle k' fun hopen => hk' ?_
      unfold Daemon.close
      rw [Daemon.setContext_of_ne hk]
      exact hopen
  · rw [(hsame k').1] at hr
    rw [(hsame k').2]
    exact h.blocks k' r hr
  · have hwaits : (d.close k).waits r = d.waits r := Daemon.waits_congr fun k' => (hsame k').1
    rw [← h.settles r]
    unfold Daemon.settles
    rw [hwaits]
    rfl

theorem Daemon.destroyAt_readReq (d : Daemon ι) (k k' : Key ι) :
    ((d.destroyAt k).contexts k').readReq = if k' = k then none else (d.contexts k').readReq := by
  unfold destroyAt
  by_cases hk : k' = k
  · subst hk
    cases hread : (d.contexts k').readReq <;> simp [hread]
  · cases hread : (d.contexts k).readReq <;> simp [hk, setContext_of_ne hk]

/-- After `dmx512_cuse_destroy` nothing is pending on the card. -/
theorem Daemon.cuseDestroy_readReq (d : Daemon ι) (card : ι) (i : Fin 32) :
    ((d.cuseDestroy card).contexts (card, i)).readReq = none := by
  have hloop : ∀ (is : List (Fin 32)) (d : Daemon ι),
      (i ∈ is ∨ (d.contexts (card, i)).readReq = none) →
      ((is.foldl (fun d j => d.destroyAt (card, j)) d).contexts (card, i)).readReq = none := by
    intro is
    induction is with
    | nil => exact fun d h => h.resolve_left List.not_mem_nil
    | cons j is ih =>
      intro d h
      refine ih (d.destroyAt (card, j)) ?_
      rw [destroyAt_readReq]
      by_cases hij : i = j
      · right
        rw [if_pos (by rw [hij])]
      · rw [if_neg (by simpa using hij)]
        exact h.imp_left fun hmem => (List.mem_cons.1 hmem).resolve_left hij
  exact hloop _ d (Or.inl (List.mem_finRange i))

/-! ## A run -/

omit [DecidableEq ι] in
theorem Req.card_of_key (hkey : r.key = some k) : r.card = k.1 := by
  unfold Req.key at hkey
  split at hkey
  · rw [← Option.some.inj hkey]
  · exact absurd hkey (by simp)

omit [DecidableEq ι] in
theorem Event.read_of_request {e : Event ι} (hmem : (r, true) ∈ e.request) : e = .read r := by
  cases e <;> simp [Event.request] at hmem
  rw [hmem]

namespace Service

variable {s : Service ι}

/-- **The invariant of a run.** -/
structure Settled (s : Service ι) : Prop where
  accounts : Accounts (fun card => card ∉ s.gone) s.asked s.daemon
  fresh : (s.asked.map Prod.fst).Nodup

/-- Each request was made once. -/
theorem Settled.countP_le_one (h : s.Settled) (r : Req ι) :
    (s.asked.countP fun a => a.1 = r) ≤ 1 := by
  have hcount := List.nodup_iff_count_le_one.1 h.fresh r
  rw [List.count, List.countP_map] at hcount
  exact hcount

theorem Settled.countP_eq_one (h : s.Settled) {a : Asked ι} (ha : a ∈ s.asked) :
    (s.asked.countP fun b => b.1 = a.1) = 1 := by
  refine Nat.le_antisymm (h.countP_le_one a.1) ?_
  exact List.countP_pos_iff.2 ⟨a, ha, by simp⟩

/-- The release of a file finds no read pending. -/
theorem Settled.readReq_of_closes (h : s.Settled) {e : Cuse.Event ι} (hsend : s.Sends e)
    (hclose : e.closes = some k) : (s.daemon.contexts k).readReq = none := by
  by_contra hsome
  obtain ⟨r, hr⟩ := Option.ne_none_iff_exists'.1 hsome
  have hkey := (h.accounts.delivers k).own r hr
  have hwaits : s.daemon.waits r = true := by
    rw [Daemon.waits_of_key hkey]
    simp [hr]
  have hpos := hsend.settled k hclose r (h.accounts.blocks k r hr).2 hkey
  have hsettles := h.accounts.settles r
  have hle := h.countP_le_one r
  simp only [Daemon.settles, hwaits, Bool.toNat_true] at hsettles
  omega

/-- **Every event the kernel sends keeps the invariant.** -/
theorem Settled.handle (h : s.Settled) {e : Cuse.Event ι} (hsend : s.Sends e) :
    (s.step (.handle e)).Settled := by
  refine ⟨?_, ?_⟩
  · rcases s.daemon.step_moves e with ⟨k, req, hclose, hreq, hs⟩ | ⟨-, hun, -⟩ | ⟨-, -, hmoves⟩
    · have hclosed := h.accounts.close (h.readReq_of_closes hsend hclose)
      have hanswered := hclosed.move (Move.answer req false (.err .success) rfl)
        (fun r hr => absurd hr (by simp))
      simp only [step, hs, hreq]
      exact hanswered
    · cases e with
      | read req =>
        obtain ⟨k, hkey, hnone⟩ := hun
        obtain ⟨k', hkey', huse⟩ := hsend.opened req rfl
        obtain rfl : k = k' := Option.some.inj (hkey.symm.trans hkey')
        obtain ⟨q, hq, -⟩ := (h.accounts.delivers k).kept huse
        rw [hnone] at hq
        exact absurd hq (by simp)
      | _ => exact absurd hun id
    · refine h.accounts.moves hmoves fun r hr k hkey => ?_
      obtain ⟨k', hkey', huse⟩ := hsend.opened r (Event.read_of_request hr)
      obtain rfl : k = k' := Option.some.inj (hkey.symm.trans hkey')
      refine ⟨huse, ?_⟩
      rw [← Req.card_of_key hkey]
      exact hsend.served _ hr
  · simp only [step, List.map_append]
    refine h.fresh.append ?_ ?_
    · cases e <;> simp [Event.request]
    · rw [List.disjoint_right]
      intro r hr
      obtain ⟨a, ha, rfl⟩ := List.mem_map.1 hr
      exact hsend.fresh a ha

theorem Settled.destroy (h : s.Settled) (card : ι) : (s.step (.destroy card)).Settled := by
  refine ⟨?_, h.fresh⟩
  have hmoves := h.accounts.moves (s.daemon.cuseDestroy_moves card)
    (fun r hr => absurd hr List.not_mem_nil)
  rw [List.append_nil] at hmoves
  refine { hmoves with idle := fun k hk => ?_ }
  by_cases hcard : k.1 = card
  · subst hcard
    exact s.daemon.cuseDestroy_readReq k.1 k.2
  · refine hmoves.idle k fun hopen => hk ⟨hopen.1, ?_⟩
    simpa [step] using ⟨hcard, hopen.2⟩

theorem Settled.answered (h : s.Settled) : s.Answered := by
  have hsum : ∀ a ∈ s.asked, s.daemon.answers a.1 + (s.daemon.waits a.1).toNat = 1 := fun a ha =>
    (h.accounts.settles a.1).trans (h.countP_eq_one ha)
  have honce : ∀ a ∈ s.asked, s.daemon.waits a.1 = false → s.daemon.answers a.1 = 1 := by
    intro a ha hwaits
    simpa [hwaits] using hsum a ha
  refine ⟨honce, fun a ha hwaits => ?_, fun r hr => ?_, fun a ha hgone => honce a ha ?_⟩
  · have hone := hsum a ha
    rw [hwaits, Bool.toNat_true] at hone
    obtain ⟨k, hkey, hread⟩ := Daemon.waits_iff.1 hwaits
    obtain ⟨hblock, hmem⟩ := h.accounts.blocks k a.1 hread
    have heq : a = (a.1, true) := List.inj_on_of_nodup_map h.fresh ha hmem rfl
    exact ⟨by omega, congrArg Prod.snd heq, k, hkey, hblock⟩
  · have hnone : s.asked.countP (fun a => a.1 = r) = 0 := by
      rw [List.countP_eq_zero]
      intro a ha heq
      exact hr (List.mem_map.2 ⟨a, ha, of_decide_eq_true heq⟩)
    have hsettles := h.accounts.settles r
    rw [hnone, Daemon.settles] at hsettles
    omega
  · by_contra hwaits
    obtain ⟨k, hkey, hread⟩ := Daemon.waits_iff.1 (Bool.eq_true_of_not_eq_false hwaits)
    have hnone := h.accounts.idle k fun hopen => hopen.2 (Req.card_of_key hkey ▸ hgone)
    rw [hnone] at hread
    exact absurd hread (by simp)

theorem Settled.start (garbage : ℕ → Frame) : (start garbage : Service ι).Settled where
  accounts :=
    { delivers := Delivers.coreInit garbage
      idle := fun _ _ => rfl
      blocks := fun k r h => absurd h (by simp [Service.start, Daemon.coreInit, Context.zero])
      settles := fun r => by
        have hnone : (Daemon.coreInit garbage).waits r = false := by
          rw [← Bool.not_eq_true, Daemon.waits_iff]
          rintro ⟨k, -, hread⟩
          exact absurd hread (by simp [Daemon.coreInit, Context.zero])
        have hans : (Daemon.coreInit garbage).answers r = 0 := rfl
        simp only [Service.start, Daemon.settles, hans, hnone, Bool.toNat_false, List.countP_nil] }
  fresh := List.nodup_nil

/-- **Every request is answered once.** In every state reached with what
the kernel sends, each request has had one answer, but for a blocking
read that is the `read_req` of its context and has had none; and once a
card is destroyed, all its requests have had theirs. -/
theorem answered_once (garbage : ℕ → Frame) (es : List (Event ι))
    (hsent : EachStep step Sent (start garbage) es) :
    Always step Answered (start garbage) es := by
  have hsettled : Always step Settled (start garbage) es := by
    refine always_of_eachStep (fun s e hsend h => ?_) hsent (Settled.start garbage)
    cases e with
    | handle e => exact h.handle hsend
    | destroy card => exact h.destroy card
  exact fun pre hpre => (hsettled pre hpre).answered

/-- A file is opened, a read of it waits, and the card is destroyed: both
requests are answered. -/
theorem answered_once_destroy :
    Always step Answered (start fun _ => ⟨0, 0, 0, 0, Vector.replicate 513 0, ⟨0, 0⟩, ⟨0, 0⟩⟩)
      [.handle (.openReq ⟨0, (), 0⟩ false), .handle (.read ⟨1, (), 0⟩), .destroy ()] := by
  refine answered_once _ _ ?_
  rw [eachStep_cons, eachStep_cons, eachStep_cons]
  refine ⟨⟨?_, ?_, ?_, ?_⟩, ⟨?_, ?_, ?_, ?_⟩, trivial, eachStep_nil⟩
  · simp [start]
  · simp [start]
  · simp
  · simp [Event.closes]
  · simp [step, start, Event.request]
  · simp [step, start]
  · rintro req ⟨⟩
    exact ⟨((), 0), rfl, rfl⟩
  · simp [Event.closes]

end Service

end Cuse

end Dmx4Linux2
