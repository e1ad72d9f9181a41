import Dmx4Linux2.Common.Run
import Dmx4Linux2.Librdm.Model.Exchange

/-!
# librdm — which future a reply completes

A reply goes to the first future in `m_futures`, and the list is cleared
then. So the list holds the futures of the requests sent since the last
reply (`Numbered.futures`), and a reply completes the right one just when
the request it answers is the first of these. `matching_iff` says exactly
when every reply of an exchange does.
-/

namespace Dmx4Linux2

namespace Librdm

namespace Exchange

variable {s : Exchange} {e : Event} {es : List Event} {k j p : ℕ} {data : DmxData} {r : Request}
variable {t : Sent}

/-- The future at `p` holds the bytes of a reply, as far as they fit. -/
def Holds (f : RdmFuture) (data : DmxData) : Prop :=
  f.buffer.read 0 (min data.size 256) = data.data.read 0 (min data.size 256)

/-- **A future that is ready holds the reply to its own request.** -/
def ReadyWithOwn (s : Exchange) : Prop :=
  ∀ p, p < s.api.next → (s.api.object p).state = .ready →
    ∃ k t data, s.sent[k]? = some t ∧ t.future = some p ∧ (k, data) ∈ s.replies ∧
      Holds (s.api.object p) data

/-- The request is a `get`, and its future is still waited for. -/
def AwaitedGet (s : Exchange) (k p : ℕ) : Prop :=
  ∃ t, s.sent[k]? = some t ∧ t.request.isGet = true ∧ t.future = some p ∧
    (s.api.object p).state = .busy

/-- **The reply to a `get` that is waited for makes its future ready.** -/
def GetsReply (s : Exchange) (e : Event) : Prop :=
  ∀ k data p, e = .reply k data → s.canReply k → AwaitedGet s k p →
    ((s.step e).api.object p).state = .ready

/-- The number of the first request with a future among those sent since
the last reply came in. -/
def firstSinceReply (s : Exchange) : Option ℕ :=
  ((s.sent.drop s.mark).findIdx? (·.request.addsFuture)).map (s.mark + ·)

/-- **Replies come in turn**: the request that is answered is the first
one with a future among those sent since the last reply; or none of those
has a future, and the answer is not to a `get` that is waited for. -/
def InTurn (s : Exchange) (e : Event) : Prop :=
  ∀ k data, e = .reply k data → s.canReply k →
    match s.firstSinceReply with
    | some j => j = k
    | none => ∀ p, ¬ AwaitedGet s k p

/-! ## What the list of futures holds -/

/-- **What the state knows of the requests sent.** -/
structure Numbered (s : Exchange) : Prop where
  futures : s.api.futures = (s.sent.drop s.mark).filterMap Sent.future
  adds : ∀ t ∈ s.sent, t.future.isSome = t.request.addsFuture
  below : ∀ t ∈ s.sent, ∀ p, t.future = some p → p < s.api.next
  distinct : ∀ (j k : ℕ) (t t' : Sent) (p : ℕ), s.sent[j]? = some t → s.sent[k]? = some t' → t.future = some p →
    t'.future = some p → j = k
  mark_le : s.mark ≤ s.sent.length
  replied : ∀ a ∈ s.replies, a.1 < s.mark

theorem Numbered.new (object : ℕ → RdmFuture) : Numbered (new object) where
  futures := rfl
  adds := by simp [Exchange.new]
  below := by simp [Exchange.new]
  distinct := by simp [Exchange.new]
  mark_le := le_rfl
  replied := by simp [Exchange.new]

/-- A request is appended to those sent, with a future or without. -/
theorem getElem?_sent_concat {t' : Sent} (h : (s.sent ++ [t'])[k]? = some t) :
    s.sent[k]? = some t ∨ k = s.sent.length ∧ t = t' := by
  rcases Nat.lt_trichotomy k s.sent.length with hk | rfl | hk
  · rw [List.getElem?_append_left hk] at h
    exact Or.inl h
  · simp only [List.getElem?_concat_length, Option.some.injEq] at h
    exact Or.inr ⟨rfl, h.symm⟩
  · rw [List.getElem?_eq_none (by simp; omega)] at h
    exact absurd h (by simp)

theorem Numbered.send (h : Numbered s) (r : Request) : Numbered (s.send r) := by
  have hdrop : ∀ t : Sent, (s.sent ++ [t]).drop s.mark = s.sent.drop s.mark ++ [t] :=
    fun t => List.drop_append_of_le_length h.mark_le
  unfold Exchange.send
  split
  case isTrue hr =>
    refine ⟨?_, ?_, ?_, ?_, ?_, h.replied⟩
    · simp only [RdmApi.addFuture, RdmApi.newFuture, hdrop, List.filterMap_append, h.futures]
      rfl
    · intro t ht
      rcases List.mem_append.1 ht with ht | ht
      · exact h.adds t ht
      · rw [List.mem_singleton.1 ht]
        exact hr.symm
    · intro t ht p hp
      rcases List.mem_append.1 ht with ht | ht
      · exact Nat.lt_succ_of_lt (h.below t ht p hp)
      · rw [List.mem_singleton.1 ht] at hp
        rw [← Option.some.inj hp]
        exact Nat.lt_succ_self _
    · intro j k t t' p hj hk ht ht'
      have hnew : ∀ {i : ℕ} {u : Sent}, s.sent[i]? = some u → u.future = some p → p < s.api.next :=
        fun hi hu => h.below _ (List.mem_of_getElem? hi) p hu
      rcases getElem?_sent_concat hj with hj | ⟨rfl, rfl⟩ <;>
        rcases getElem?_sent_concat hk with hk | ⟨rfl, rfl⟩
      · exact h.distinct j k t t' p hj hk ht ht'
      · have hlt := hnew hj ht
        rw [← Option.some.inj ht'] at hlt
        exact absurd hlt (Nat.lt_irrefl _)
      · have hlt := hnew hk ht'
        rw [← Option.some.inj ht] at hlt
        exact absurd hlt (Nat.lt_irrefl _)
      · rfl
    · simpa using Nat.le_succ_of_le h.mark_le
  case isFalse hr =>
    refine ⟨?_, ?_, ?_, ?_, ?_, h.replied⟩
    · simp only [hdrop, List.filterMap_append, h.futures]
      simp
    · intro t ht
      rcases List.mem_append.1 ht with ht | ht
      · exact h.adds t ht
      · rw [List.mem_singleton.1 ht]
        simpa using hr
    · intro t ht p hp
      rcases List.mem_append.1 ht with ht | ht
      · exact h.below t ht p hp
      · rw [List.mem_singleton.1 ht] at hp
        exact absurd hp (by simp)
    · intro j k t t' p hj hk ht ht'
      rcases getElem?_sent_concat hj with hj | ⟨rfl, rfl⟩
      · rcases getElem?_sent_concat hk with hk | ⟨rfl, rfl⟩
        · exact h.distinct j k t t' p hj hk ht ht'
        · exact absurd ht' (by simp)
      · exact absurd ht (by simp)
    · simpa using Nat.le_succ_of_le h.mark_le

theorem handle_futures (api : RdmApi) : (api.handle data).futures = [] := by
  unfold RdmApi.handle
  split
  case h_1 hnil => exact hnil
  case h_2 => rfl

theorem handle_next (api : RdmApi) : (api.handle data).next = api.next := by
  unfold RdmApi.handle
  split <;> rfl

theorem Numbered.step (h : Numbered s) (e : Event) : Numbered (s.step e) := by
  cases e with
  | send r => exact h.send r
  | timeout p => exact ⟨h.futures, h.adds, h.below, h.distinct, h.mark_le, h.replied⟩
  | reply k data =>
    by_cases hk : s.canReply k
    · simp only [Exchange.step, if_pos hk]
      refine ⟨?_, h.adds, ?_, h.distinct, le_rfl, ?_⟩
      · simp only [handle_futures, List.drop_length, List.filterMap_nil]
      · simpa only [handle_next] using h.below
      · intro a ha
        rcases List.mem_append.1 ha with ha | ha
        · exact lt_of_lt_of_le (h.replied a ha) h.mark_le
        · rw [List.mem_singleton.1 ha]
          exact hk.2
    · rw [show s.step (.reply k data) = s from if_neg hk]
      exact h

/-- The first future of some requests is that of the first request that
has one. -/
theorem filterMap_future (ts : List Sent)
    (hadds : ∀ t ∈ ts, t.future.isSome = t.request.addsFuture) :
    match ts.findIdx? (·.request.addsFuture) with
    | none => ts.filterMap Sent.future = []
    | some i => ∃ t p rest, ts[i]? = some t ∧ t.future = some p ∧
        ts.filterMap Sent.future = p :: rest := by
  induction ts with
  | nil => rfl
  | cons t ts ih =>
    have ht := hadds t List.mem_cons_self
    have ih := ih fun u hu => hadds u (List.mem_cons_of_mem t hu)
    rw [List.findIdx?_cons]
    by_cases hr : t.request.addsFuture = true
    · rw [if_pos hr]
      rw [hr, Option.isSome_iff_exists] at ht
      obtain ⟨p, hp⟩ := ht
      exact ⟨t, p, _, rfl, hp, List.filterMap_cons_some hp⟩
    · rw [if_neg hr]
      have hp : t.future = none := by simpa [hr] using ht
      rw [List.filterMap_cons_none hp]
      cases hidx : ts.findIdx? (·.request.addsFuture) with
      | none =>
        rw [hidx] at ih
        exact ih
      | some i =>
        rw [hidx] at ih
        obtain ⟨u, q, rest, hu, hq, hrest⟩ := ih
        exact ⟨u, q, rest, by simpa using hu, hq, hrest⟩

/-- No request since the last reply has a future, or the first future in
the list is that of the first one that has. -/
theorem Numbered.first (h : Numbered s) :
    (s.firstSinceReply = none ∧ s.api.futures = []) ∨
    ∃ j t p rest, s.firstSinceReply = some j ∧ s.mark ≤ j ∧ s.sent[j]? = some t ∧
      t.future = some p ∧ s.api.futures = p :: rest := by
  have hfirst := filterMap_future (s.sent.drop s.mark)
    fun t ht => h.adds t (List.mem_of_mem_drop ht)
  unfold firstSinceReply
  rw [h.futures]
  cases hidx : (s.sent.drop s.mark).findIdx? (·.request.addsFuture) with
  | none =>
    rw [hidx] at hfirst
    exact Or.inl ⟨rfl, hfirst⟩
  | some i =>
    rw [hidx] at hfirst
    obtain ⟨t, p, rest, ht, hp, hrest⟩ := hfirst
    rw [List.getElem?_drop] at ht
    exact Or.inr ⟨s.mark + i, t, p, rest, rfl, Nat.le_add_right _ _, ht, hp, hrest⟩

/-! ## One event -/

/-- A reply that is copied is held. -/
theorem holds_set (f : RdmFuture) (data : DmxData) : Holds (f.set data) data := by
  have hmin : (if data.size < 256 then data.size else 256) = min data.size 256 := by
    split <;> omega
  simp only [Holds, RdmFuture.set, hmin]
  exact Mem.read_write_of_length Mem.length_read

/-- What a future holds is kept by an event that leaves it alone. -/
theorem ReadyWithOwn.keeps {s' : Exchange} (h : ReadyWithOwn s)
    (hsent : ∀ (k : ℕ) (t : Sent), s.sent[k]? = some t → s'.sent[k]? = some t)
    (hreplies : ∀ a ∈ s.replies, a ∈ s'.replies) (hp : p < s.api.next)
    (hobj : s'.api.object p = s.api.object p) (hready : (s'.api.object p).state = .ready) :
    ∃ k t data, s'.sent[k]? = some t ∧ t.future = some p ∧ (k, data) ∈ s'.replies ∧
      Holds (s'.api.object p) data := by
  rw [hobj] at hready ⊢
  obtain ⟨k, t, data, hk, ht, hmem, hholds⟩ := h p hp hready
  exact ⟨k, t, data, hsent k t hk, ht, hreplies _ hmem, hholds⟩

theorem ReadyWithOwn.send (h : ReadyWithOwn s) (r : Request) : ReadyWithOwn (s.send r) := by
  have hsent : ∀ (u : Sent) (k : ℕ) (t : Sent), s.sent[k]? = some t → (s.sent ++ [u])[k]? = some t := by
    intro u k t hk
    rw [List.getElem?_append_left (List.getElem?_eq_some_iff.1 hk).1]
    exact hk
  intro p hp hready
  unfold Exchange.send at hp hready ⊢
  split at hp
  case isTrue hr =>
    rw [if_pos hr] at hready ⊢
    have hne : p ≠ s.api.next := by
      rintro rfl
      simp [RdmApi.addFuture, RdmApi.newFuture] at hready
    have hlt : p < s.api.next := lt_of_le_of_ne (Nat.lt_succ_iff.1 hp) hne
    exact h.keeps (hsent _) (fun a ha => ha) hlt (Function.update_of_ne hne _ _) hready
  case isFalse hr =>
    rw [if_neg hr] at hready ⊢
    exact h.keeps (hsent _) (fun a ha => ha) hp rfl hready

theorem ReadyWithOwn.timeout (h : ReadyWithOwn s) (p : ℕ) :
    ReadyWithOwn (s.step (.timeout p)) := by
  intro q hq hready
  by_cases hqp : q = p
  · subst hqp
    have hobj : (s.step (.timeout q)).api.object q = (s.api.object q).wait :=
      Function.update_self _ _ _
    have hsame : (s.api.object q).wait = s.api.object q := by
      rw [hobj] at hready
      unfold RdmFuture.wait at hready ⊢
      split
      case isTrue hbusy =>
        rw [if_pos hbusy] at hready
        exact absurd hready (by simp)
      case isFalse => rfl
    exact h.keeps (fun _ _ hk => hk) (fun a ha => ha) hq (hobj.trans hsame) hready
  · exact h.keeps (fun _ _ hk => hk) (fun a ha => ha) hq (Function.update_of_ne hqp _ _) hready

/-- A property of the replies, at the one that comes in. -/
theorem forall_reply_iff {P : ℕ → DmxData → Prop} (hk : s.canReply k) :
    (∀ k' data', Event.reply k data = .reply k' data' → s.canReply k' → P k' data') ↔ P k data := by
  constructor
  · exact fun h => h k data rfl hk
  · intro h k' data' he _
    obtain ⟨rfl, rfl⟩ := Event.reply.inj he
    exact h

theorem inTurn_of_none (hk : s.canReply k) (hfirst : s.firstSinceReply = none) :
    InTurn s (.reply k data) ↔ ∀ p, ¬ AwaitedGet s k p := by
  rw [InTurn, forall_reply_iff hk, hfirst]

theorem inTurn_of_some (hk : s.canReply k) (hfirst : s.firstSinceReply = some j) :
    InTurn s (.reply k data) ↔ j = k := by
  rw [InTurn, forall_reply_iff hk, hfirst]

/-- A reply while no future is listed completes none. -/
theorem reply_iff_of_none (h : ReadyWithOwn s) (hk : s.canReply k)
    (hfirst : s.firstSinceReply = none) (hnil : s.api.futures = []) :
    (ReadyWithOwn (s.step (.reply k data)) ∧ GetsReply s (.reply k data)) ↔
      InTurn s (.reply k data) := by
  have hapi : (s.step (.reply k data)).api = s.api := by
    simp only [Exchange.step, if_pos hk, RdmApi.handle, hnil]
  have hready : ReadyWithOwn (s.step (.reply k data)) := by
    intro p hp hready
    rw [hapi] at hp
    refine h.keeps ?_ ?_ hp (by rw [hapi]) hready
    · simp only [Exchange.step, if_pos hk]
      exact fun _ _ hk => hk
    · simp only [Exchange.step, if_pos hk]
      exact fun a ha => List.mem_append_left _ ha
  rw [inTurn_of_none hk hfirst]
  constructor
  · rintro ⟨-, hgets⟩ p hawait
    have hset := hgets k data p rfl hk hawait
    obtain ⟨t, -, -, -, hbusy⟩ := hawait
    rw [hapi, hbusy] at hset
    exact absurd hset (by simp)
  · intro hnone
    refine ⟨hready, fun k' data' p he _ hawait => ?_⟩
    obtain ⟨rfl, rfl⟩ := Event.reply.inj he
    exact absurd hawait (hnone p)

/-- **What a reply does to the first future listed**, and to nothing
else. -/
structure Completes (s s' : Exchange) (k p : ℕ) (data : DmxData) : Prop where
  sent : s'.sent = s.sent
  replies : s'.replies = s.replies ++ [(k, data)]
  next : s'.api.next = s.api.next
  self : s'.api.object p = (s.api.object p).set data
  other : ∀ q, q ≠ p → s'.api.object q = s.api.object q

theorem completes_reply (hk : s.canReply k) {rest : List ℕ} (hcons : s.api.futures = p :: rest) :
    Completes s (s.step (.reply k data)) k p data := by
  have hapi : (s.step (.reply k data)).api = s.api.handle data := by
    simp only [Exchange.step, if_pos hk]
  refine ⟨?_, ?_, by rw [hapi, handle_next], ?_, fun q hq => ?_⟩
  · simp only [Exchange.step, if_pos hk]
  · simp only [Exchange.step, if_pos hk]
  · rw [hapi]
    simp only [RdmApi.handle, hcons, Function.update_self]
  · rw [hapi]
    simp only [RdmApi.handle, hcons, Function.update_of_ne hq]

namespace Completes

variable {s' : Exchange}

/-- The future is ready then, and its own reply can only be this one. -/
theorem eq_of_ready (hc : Completes s s' k p data) (hnum : Numbered s) (hj : s.mark ≤ j)
    (ht : s.sent[j]? = some t) (hp : t.future = some p) (hready : ReadyWithOwn s') : j = k := by
  have hpnext : p < s.api.next := hnum.below t (List.mem_of_getElem? ht) p hp
  -- no reply before this one was to a request as late as `j`
  obtain ⟨i, u, d, hi, hu, hmem, -⟩ :=
    hready p (by rw [hc.next]; exact hpnext) (by rw [hc.self]; rfl)
  rw [hc.sent] at hi
  have hij : j = i := hnum.distinct j i t u p ht hi hp hu
  rw [hc.replies, List.mem_append, List.mem_singleton] at hmem
  rcases hmem with hmem | heq
  · have hlt := hnum.replied _ hmem
    simp only at hlt
    omega
  · rw [hij]
    exact congrArg Prod.fst heq

/-- A reply to the request of the future leaves all futures right. -/
theorem ready (hc : Completes s s' k p data) (h : ReadyWithOwn s) (ht : s.sent[k]? = some t)
    (hp : t.future = some p) : ReadyWithOwn s' := by
  intro q hq hready
  by_cases hqp : q = p
  · subst hqp
    refine ⟨k, t, data, by rw [hc.sent]; exact ht, hp, ?_, ?_⟩
    · rw [hc.replies]
      exact List.mem_append_right _ List.mem_cons_self
    · rw [hc.self]
      exact holds_set _ _
  · refine h.keeps ?_ ?_ (by rw [← hc.next]; exact hq) (hc.other q hqp) hready
    · rw [hc.sent]
      exact fun _ _ hk => hk
    · rw [hc.replies]
      exact fun a ha => List.mem_append_left _ ha

end Completes

/-- **A reply completes the first future listed**, which is to be that of
the request it answers. -/
theorem reply_iff_of_some (hnum : Numbered s) (h : ReadyWithOwn s) (hk : s.canReply k)
    (hfirst : s.firstSinceReply = some j) (hj : s.mark ≤ j) (ht : s.sent[j]? = some t)
    (hp : t.future = some p) {rest : List ℕ} (hcons : s.api.futures = p :: rest) :
    (ReadyWithOwn (s.step (.reply k data)) ∧ GetsReply s (.reply k data)) ↔
      InTurn s (.reply k data) := by
  have hc : Completes s (s.step (.reply k data)) k p data := completes_reply hk hcons
  rw [inTurn_of_some hk hfirst]
  constructor
  · rintro ⟨hready, -⟩
    exact hc.eq_of_ready hnum hj ht hp hready
  · rintro rfl
    refine ⟨hc.ready h ht hp, fun k' data' q he _ hawait => ?_⟩
    obtain ⟨rfl, rfl⟩ := Event.reply.inj he
    obtain ⟨u, hu, -, hq, -⟩ := hawait
    rw [ht] at hu
    obtain rfl : t = u := Option.some.inj hu
    obtain rfl : p = q := Option.some.inj (hp.symm.trans hq)
    rw [hc.self]
    rfl

/-- **One event** keeps the futures right just when it comes in turn. -/
theorem matching_step_iff (hnum : Numbered s) (h : ReadyWithOwn s) (e : Event) :
    (ReadyWithOwn (s.step e) ∧ GetsReply s e) ↔ InTurn s e := by
  cases e with
  | send r =>
    refine iff_of_true ⟨h.send r, ?_⟩ ?_
    · exact fun k data p he => absurd he (by simp)
    · exact fun k data he => absurd he (by simp)
  | timeout p =>
    refine iff_of_true ⟨h.timeout p, ?_⟩ ?_
    · exact fun k data p he => absurd he (by simp)
    · exact fun k data he => absurd he (by simp)
  | reply k data =>
    by_cases hk : s.canReply k
    · rcases hnum.first with ⟨hfirst, hnil⟩ | ⟨j, t, p, rest, hfirst, hj, ht, hp, hcons⟩
      · exact reply_iff_of_none h hk hfirst hnil
      · exact reply_iff_of_some hnum h hk hfirst hj ht hp hcons
    · have hs : s.step (.reply k data) = s := if_neg hk
      refine iff_of_true ⟨by rw [hs]; exact h, ?_⟩ ?_
      · intro k' data' p he hk'
        obtain ⟨rfl, rfl⟩ := Event.reply.inj he
        exact absurd hk' hk
      · intro k' data' he hk'
        obtain ⟨rfl, rfl⟩ := Event.reply.inj he
        exact absurd hk' hk

/-! ## An exchange -/

/-- **When futures get their own replies.** In every state of an exchange
a future that is ready holds the reply to its own request, and every
reply to a `get` that is waited for makes its future ready, if and only
if all replies come in turn. -/
theorem matching_iff (object : ℕ → RdmFuture) (es : List Event) :
    (Always step ReadyWithOwn (new object) es ∧ EachStep step GetsReply (new object) es) ↔
      EachStep step InTurn (new object) es :=
  always_and_eachStep_iff (fun _ e h => Numbered.step h e)
    (fun _ e hnum h => matching_step_iff hnum h e) (Numbered.new object)
    fun p hp => absurd hp (Nat.not_lt_zero p)

/-- A `set` and a `get` that are sent before the reply to the `set` comes
in. -/
def getBehindSet : List Event :=
  [.send (.set (RdmApiSetter.new clearedBuffer 5 setCommand dmxStartAddress)),
    .send (.get 5 dmxStartAddress), .reply 0 ⟨clearedBuffer, 26⟩]

/-- The reply to the `set`, for which no future waits, completes the
future of the `get`. -/
theorem not_matching_getBehindSet :
    ¬ (Always step ReadyWithOwn (new fun _ => ⟨clearedBuffer, .busy⟩) getBehindSet ∧
      EachStep step GetsReply (new fun _ => ⟨clearedBuffer, .busy⟩) getBehindSet) := by
  rintro ⟨h, -⟩
  obtain ⟨k, t, data, hk, ht, hmem, -⟩ := h.last 0 (by decide) rfl
  have hk0 : k = 0 := congrArg Prod.fst (List.mem_singleton.1 hmem)
  subst hk0
  obtain rfl : t = _ := (Option.some.inj hk).symm
  exact absurd ht (by decide)

end Exchange

end Librdm

end Dmx4Linux2
