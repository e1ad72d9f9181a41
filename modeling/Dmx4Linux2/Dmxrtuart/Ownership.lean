import Dmx4Linux2.Common.Run
import Dmx4Linux2.Dmxrtuart.Model.Port
import Mathlib.Algebra.Order.Group.Multiset
import Mathlib.Data.Multiset.Range
import Mathlib.Logic.Relation

/-!
# Buffer-based rtuart DMX port — who owns a frame

Of a port only the frames matter here: which are in the two slots, where
the registered buffer points, and which were given back or handed up.
What a callback does to them is a sequence of moves, unless it takes one
of three ways: a reception is started over a frame that is still in the
receive slot, the receive frame is given back at a timeout while the buffer
is registered, or a discovery times out for which no frame was allocated
and a null pointer is read. `owned_iff` says that these are the only ways
in which a run goes wrong.
-/

namespace Dmx4Linux2

namespace Dmxrtuart

open Rtuart

/-- The frames that are given back or handed up by a call. -/
def Action.released : Action → List ℕ
  | .putFrame e => [e.id]
  | .receivedFrame e => [e.id]
  | .rxStart | .rxStop | .txStart _ | .notify .. | .enableRs485Transmitter _ | .sendBreak
  | .startRdmTimer _ | .stopRdmTimer => []

/-- The frames of a port, by number. -/
structure View where
  tx : Option ℕ
  rx : Option ℕ
  /-- The frame the buffer points into. -/
  points : Option ℕ
  registered : Bool
  next : ℕ
  released : List ℕ
  deriving DecidableEq

namespace View

variable {v v' v'' : View}

/-- **Every frame is released exactly once, or is held**: the frames that
were allocated or accepted are those in the slots and those released, each
of them once. -/
def Owned (v : View) : Prop :=
  (v.tx.toList ++ v.rx.toList ++ v.released).Perm (List.range v.next)

/-- **The registered buffer points into a frame that is not released.** -/
def PointsLive (v : View) : Prop :=
  v.registered = true → ∃ id, v.points = some id ∧ id ∉ v.released

/-- The registered buffer points into the frame in the receive slot. -/
def PointsRx (v : View) : Prop :=
  v.registered = true → ∃ id, v.points = some id ∧ v.rx = some id

/-- What the frames of the slots become: each stays in its slot or is
released. -/
structure Kept (v v' : View) : Prop where
  tx : ∀ id, v.tx = some id → v'.tx = some id ∨ id ∈ v'.released
  rx : ∀ id, v.rx = some id → v'.rx = some id ∨ id ∈ v'.released
  released : v.released ⊆ v'.released

theorem Kept.refl (v : View) : Kept v v :=
  ⟨fun _ h => .inl h, fun _ h => .inl h, List.Subset.refl _⟩

theorem Kept.trans (h : Kept v v') (h' : Kept v' v'') : Kept v v'' where
  tx id hid := (h.tx id hid).elim (h'.tx id) (fun hmem => .inr (h'.released hmem))
  rx id hid := (h.rx id hid).elim (h'.rx id) (fun hmem => .inr (h'.released hmem))
  released _ hid := h'.released (h.released hid)

/-! ## Moves -/

def accept (v : View) : View := { v with tx := some v.next, next := v.next + 1 }

def releaseTx (v : View) : View := { v with tx := none, released := v.released ++ v.tx.toList }

def releaseRx (v : View) : View := { v with rx := none, released := v.released ++ v.rx.toList }

def unregister (v : View) : View := { v with registered := false }

/-- A frame is allocated and a buffer in it registered. -/
def fetch (v : View) : View :=
  { v with rx := some v.next, points := some v.next, registered := true, next := v.next + 1 }

/-- **One move** that keeps the frames. -/
inductive Move (v : View) : View → Prop
  | accept (hfree : v.tx = none) : Move v v.accept
  | releaseTx : Move v v.releaseTx
  | releaseRx (hstopped : v.registered = false) : Move v v.releaseRx
  | unregister : Move v v.unregister
  | fetch (hfree : v.rx = none) : Move v v.fetch

abbrev Moves : View → View → Prop := Relation.ReflTransGen Move

/-- The invariant of the moves. -/
structure Sound (v : View) : Prop where
  owned : v.Owned
  points : v.PointsRx

theorem Owned.lt_next (h : v.Owned) {id : ℕ}
    (hid : id ∈ v.tx.toList ++ v.rx.toList ++ v.released) : id < v.next :=
  List.mem_range.1 (h.mem_iff.1 hid)

/-- A frame in the receive slot is not released. -/
theorem Owned.notMem_released (h : v.Owned) {id : ℕ} (hid : v.rx = some id) :
    id ∉ v.released := by
  intro hmem
  have hnodup := h.nodup_iff.2 List.nodup_range
  have hrx : id ∈ v.tx.toList ++ v.rx.toList := by simp [hid]
  exact (List.nodup_append.1 hnodup).2.2 id hrx id hmem rfl

theorem Sound.pointsLive (h : v.Sound) : v.PointsLive := by
  intro hreg
  obtain ⟨id, hpoints, hrx⟩ := h.points hreg
  exact ⟨id, hpoints, h.owned.notMem_released hrx⟩

theorem owned_iff_multiset : v.Owned ↔
    (v.tx.toList + v.rx.toList + v.released : Multiset ℕ) = Multiset.range v.next := by
  rw [Multiset.coe_add, Multiset.coe_add]
  exact Multiset.coe_eq_coe.symm

theorem Move.owned (hmove : Move v v') (h : v.Owned) : v'.Owned := by
  rw [owned_iff_multiset] at h ⊢
  cases hmove with
  | accept hfree =>
    rw [hfree] at h
    simp only [View.accept, Multiset.range_succ, ← h, Option.toList_some, Option.toList_none,
      ← Multiset.singleton_add, Multiset.coe_singleton, Multiset.coe_nil, zero_add]
    ac_rfl
  | releaseTx =>
    simp only [View.releaseTx, ← h, ← Multiset.coe_add, Option.toList_none, Multiset.coe_nil,
      zero_add]
    ac_rfl
  | releaseRx hstopped =>
    simp only [View.releaseRx, ← h, ← Multiset.coe_add, Option.toList_none, Multiset.coe_nil,
      add_zero]
    ac_rfl
  | unregister => exact h
  | fetch hfree =>
    rw [hfree] at h
    simp only [View.fetch, Multiset.range_succ, ← h, Option.toList_some, Option.toList_none,
      ← Multiset.singleton_add, Multiset.coe_singleton, Multiset.coe_nil, add_zero]
    ac_rfl

theorem Move.pointsRx (hmove : Move v v') (h : v.PointsRx) : v'.PointsRx := by
  cases hmove with
  | accept hfree => exact h
  | releaseTx => exact h
  | releaseRx hstopped =>
    intro hreg
    rw [show v.releaseRx.registered = v.registered from rfl, hstopped] at hreg
    contradiction
  | unregister =>
    intro hreg
    contradiction
  | fetch hfree => exact fun _ => ⟨v.next, rfl, rfl⟩

theorem Move.kept (hmove : Move v v') : Kept v v' := by
  cases hmove with
  | accept hfree => exact ⟨by simp [hfree], fun _ h => .inl h, List.Subset.refl _⟩
  | releaseTx =>
    refine ⟨fun id hid => .inr ?_, fun _ h => .inl h, List.subset_append_left _ _⟩
    simp [View.releaseTx, hid]
  | releaseRx hstopped =>
    refine ⟨fun _ h => .inl h, fun id hid => .inr ?_, List.subset_append_left _ _⟩
    simp [View.releaseRx, hid]
  | unregister => exact ⟨fun _ h => .inl h, fun _ h => .inl h, List.Subset.refl _⟩
  | fetch hfree => exact ⟨fun _ h => .inl h, by simp [hfree], List.Subset.refl _⟩

/-- **Moves keep the invariant, and the frames.** -/
theorem Moves.sound (hmoves : Moves v v') (h : v.Sound) : v'.Sound ∧ Kept v v' := by
  induction hmoves with
  | refl => exact ⟨h, Kept.refl v⟩
  | tail _ hmove ih =>
    obtain ⟨hsound, hkept⟩ := ih
    exact ⟨⟨hmove.owned hsound.owned, hmove.pointsRx hsound.points⟩, hkept.trans hmove.kept⟩

end View

open View

/-! ## What the callbacks do to the frames -/

namespace Port

variable (p : Port)

def view : View where
  tx := p.tx.map Entry.id
  rx := p.rx.map Entry.id
  points := p.buffer.frame
  registered := p.registered
  next := p.next
  released := p.log.flatMap Action.released

@[simp] theorem view_act (a : Action) :
    (p.act a).view = { p.view with released := p.view.released ++ a.released } := by
  simp [act, view]

@[simp] theorem view_state (state : PortState) : { p with state := state }.view = p.view := rfl

@[simp] theorem view_putFrame (e : Option Entry) :
    (p.putFrame e).view =
      { p.view with released := p.view.released ++ (e.map Entry.id).toList } := by
  cases e <;> simp [putFrame, Action.released]

@[simp] theorem view_receivedFrame (e : Option Entry) :
    (p.receivedFrame e).view =
      { p.view with released := p.view.released ++ (e.map Entry.id).toList } := by
  cases e <;> simp [receivedFrame, Action.released]

theorem view_rxStop : p.rxStop.view = p.view.unregister := by
  simp only [rxStop, view_act, Action.released, List.append_nil]
  rfl

theorem view_rxStart : p.rxStart.view = { p.view with registered := true } := by
  unfold rxStart
  split <;> simp [view, act, rxStop, Action.released]

theorem view_startReceiveData (offset : ℕ) (startcode got : Bool) :
    (p.startReceiveData offset startcode got).view =
      if got then p.view.fetch else { p.view with rx := none } := by
  unfold startReceiveData
  cases got with
  | false =>
    rw [if_neg (by decide), if_neg (by decide)]
    simp only [view, act, List.flatMap_append, List.flatMap_singleton, Action.released]
    simp
  | true =>
    rw [if_pos rfl, if_pos rfl, view_rxStart]
    simp only [view, act, View.fetch, List.flatMap_append, List.flatMap_singleton, Action.released]
    simp

@[simp] theorem view_completeRxframe :
    p.completeRxframe.1.view = { p.view with rx := none } := rfl

@[simp] theorem map_id_completeRxframe : p.completeRxframe.2.map Entry.id = p.view.rx := by
  rw [completeRxframe, Option.map_map]
  rfl

/-- The frame that was received leaves the slot and is handed up. -/
theorem view_completed (state : PortState) (lock : SlotCountLock) :
    ({ p.completeRxframe.1 with state := state, lock := lock }.receivedFrame
      p.completeRxframe.2).view = p.view.releaseRx := by
  rw [view_receivedFrame, map_id_completeRxframe]
  rfl

/-- The frame that was sent leaves the slot and is given back. -/
theorem view_putTx : ({ p with tx := none }.putFrame p.tx).view = p.view.releaseTx := by
  rw [view_putFrame]
  rfl

@[simp] theorem state_putFrame (e : Option Entry) : (p.putFrame e).state = p.state := by
  cases e <;> rfl

@[simp] theorem state_receivedFrame (e : Option Entry) :
    (p.receivedFrame e).state = p.state := by
  cases e <;> rfl

@[simp] theorem dead_putFrame (e : Option Entry) : (p.putFrame e).dead = p.dead := by
  cases e <;> rfl

@[simp] theorem dead_receivedFrame (e : Option Entry) : (p.receivedFrame e).dead = p.dead := by
  cases e <;> rfl

/-- Both slots are emptied, the receive slot first. -/
theorem discoveryReply_moves (htx : p.tx.isSome = true) (src : List UInt8) (ack : UInt8) :
    (p.discoveryReply src ack).view = p.view.releaseRx.releaseTx ∧
      (p.discoveryReply src ack).dead = p.dead := by
  obtain ⟨request, htx⟩ := Option.isSome_iff_exists.1 htx
  unfold discoveryReply
  simp only [htx, view_receivedFrame, view_putFrame, dead_receivedFrame, dead_putFrame, and_true]
  simp only [view, View.releaseRx, View.releaseTx, htx]
  rfl

theorem view_handleDiscoveryReply (htx : p.tx.isSome = true) (hframe : p.lacksFrame = false) :
    p.handleDiscoveryReply.view = p.view.releaseRx.releaseTx ∧
      p.handleDiscoveryReply.dead = p.dead := by
  unfold handleDiscoveryReply discoveryReplyCollision discoveryReplyTimeout
  dsimp only
  rw [if_neg (by rw [hframe]; decide)]
  repeat' split
  all_goals exact p.discoveryReply_moves htx _ _

theorem view_handleRdmReplyTimeout :
    p.handleRdmReplyTimeout.view = p.view.releaseRx.releaseTx := by
  unfold handleRdmReplyTimeout
  simp only [view_receivedFrame, view_putFrame]
  rfl

theorem view_rxTrigger (trigger0 trigger1 : Bool) :
    (p.rxTrigger trigger0 trigger1).view = p.view := by
  have hlimit : ∀ q : Port, q.limitToLength.view = q.view := by
    intro q
    unfold limitToLength
    split <;> rfl
  have hexpect : ∀ q : Port, q.expectLength.view = q.view := by
    intro q
    unfold expectLength
    split
    · exact hlimit q
    · rfl
  unfold rxTrigger
  simp only [apply_ite view, hlimit, ite_self]
  split
  · split
    · simp only [view_state, apply_ite view, hexpect]
      split
      · rfl
      · split <;> rfl
    · simp only [apply_ite view, hexpect, ite_self]
    · rfl
  · rfl

theorem view_store (c : UInt8) : (p.store c).view = p.view := by
  unfold store view
  congr 1
  rw [Option.map_map]
  congr 1
  funext e
  simp only [Function.comp]
  split <;> rfl

theorem view_rxChar : p.rxChar.view = p.view := by
  unfold rxChar
  split <;> rfl

/-! ## Steps -/

/-- A callback that starts a reception and does not end one before: a break
outside of a reception, or a discovery request that has been sent. -/
def startsReception : Event → Prop
  | .rxErr isBreak _ => isBreak = true ∧
      (p.state = .idle ∨ p.state = .idleAfterDmxdata00 ∨ p.state = .expectRdmReplyBreak)
  | .txEnd2 _ => p.state = .transmitDataTwoway ∧
      ∃ e, p.tx = some e ∧ isRdmDiscover e.frame.data = true
  | .sendFrame _ | .rxTrigger .. | .rxEnd | .rxChar | .rdmTimeout | .store _ => False

/-- A timeout that ends the exchange a request began. -/
def timesOut : Event → Prop
  | .rdmTimeout => p.tx.isSome = true ∧
      (p.state = .recvRdmdiscReply ∨ p.state = .recvRdmdiscReplyCollision ∨
        p.state = .expectRdmReplyBreak ∨ p.state = .recvRdmReplyData)
  | .sendFrame _ | .txEnd2 _ | .rxErr .. | .rxTrigger .. | .rxEnd | .rxChar | .store _ => False

/-- A timeout of a discovery that reads its reply through a null pointer:
no frame was allocated for it, and the count is that of a reception before. -/
def readsNull : Event → Prop
  | .rdmTimeout => p.tx.isSome = true ∧
      (p.state = .recvRdmdiscReply ∨ p.state = .recvRdmdiscReplyCollision) ∧
      p.lacksFrame = true
  | .sendFrame _ | .txEnd2 _ | .rxErr .. | .rxTrigger .. | .rxEnd | .rxChar | .store _ => False

/-- The process is alive, and has the request of the discovery whose reply
it awaits. -/
structure Live : Prop where
  alive : p.dead = false
  asked : p.state = .recvRdmdiscReply ∨ p.state = .recvRdmdiscReplyCollision →
    p.tx.isSome = true

variable {p : Port} {e : Event}

theorem view_of_startsReception (h : p.startsReception e) :
    ∃ got : Bool, (p.handle e).view = if got then p.view.fetch else { p.view with rx := none } := by
  cases e with
  | rxErr isBreak got =>
    obtain ⟨rfl, hstate⟩ := h
    refine ⟨got, ?_⟩
    rcases hstate with hstate | hstate | hstate <;>
      simp only [handle, rxErr, hstate, if_true, view_startReceiveData, view_state]
  | txEnd2 got =>
    obtain ⟨hstate, e, htx, hdisc⟩ := h
    refine ⟨got, ?_⟩
    simp only [handle, txEnd2, hstate]
    split
    · next e' htx' =>
      obtain rfl : e = e' := Option.some.inj (htx.symm.trans htx')
      rw [if_pos hdisc, view_startReceiveData, view_state, view_act]
      simp only [Action.released, List.append_nil]
    · next htx' => exact absurd (htx.symm.trans htx') (Option.some_ne_none e)
  | sendFrame frame => exact h.elim
  | rxTrigger trigger0 trigger1 => exact h.elim
  | rxEnd => exact h.elim
  | rxChar => exact h.elim
  | rdmTimeout => exact h.elim
  | store c => exact h.elim

theorem view_of_timesOut (h : p.timesOut e) (hnull : ¬ p.readsNull e) :
    (p.handle e).view = p.view.releaseRx.releaseTx := by
  cases e with
  | rdmTimeout =>
    obtain ⟨hsome, hstate⟩ := h
    obtain ⟨e, htx⟩ := Option.isSome_iff_exists.1 hsome
    have hact : (p.act .stopRdmTimer).view = p.view := by
      simp only [view_act, Action.released, List.append_nil]
    have hsame : (p.act .stopRdmTimer).state = p.state := rfl
    have hreply : p.state = .recvRdmdiscReply ∨ p.state = .recvRdmdiscReplyCollision →
        (p.act .stopRdmTimer).handleDiscoveryReply.view = p.view.releaseRx.releaseTx := by
      intro hdisc
      have hframe : p.lacksFrame = false :=
        Bool.eq_false_iff.2 fun hlacks => hnull ⟨hsome, hdisc, hlacks⟩
      exact (view_handleDiscoveryReply (p.act .stopRdmTimer) hsome hframe).1.trans (by rw [hact])
    rcases hstate with hstate | hstate | hstate | hstate
    · simp only [handle, handleRdmTimeout, htx, hsame, hstate, view_state, hreply (.inl hstate)]
    · simp only [handle, handleRdmTimeout, htx, hsame, hstate, view_state, hreply (.inr hstate)]
    · simp only [handle, handleRdmTimeout, htx, hsame, hstate, view_state,
        view_handleRdmReplyTimeout, hact]
    · simp only [handle, handleRdmTimeout, htx, hsame, hstate, view_state,
        view_handleRdmReplyTimeout, hact]
  | sendFrame frame => exact h.elim
  | txEnd2 got => exact h.elim
  | rxErr isBreak got => exact h.elim
  | rxTrigger trigger0 trigger1 => exact h.elim
  | rxEnd => exact h.elim
  | rxChar => exact h.elim
  | store c => exact h.elim

/-- A reception that starts with no frame in the slot is a move. -/
theorem moves_startReception {v : View} (hfree : v.rx = none) (got : Bool) :
    Moves v (if got then v.fetch else { v with rx := none }) := by
  cases got with
  | true => exact .single (.fetch hfree)
  | false =>
    have hsame : ({ v with rx := none } : View) = v := by rw [← hfree]
    exact hsame ▸ .refl

theorem sendFrame_moves (frame : Frame) : Moves p.view (p.sendFrame frame).view := by
  unfold sendFrame
  split
  · exact .refl
  · next htx =>
    have hfree : p.view.tx = none := by rw [view, htx, Option.map_none]
    have haccept : (p.startFrame frame).view = p.view.accept := by
      have htimer : (rdmTimer frame.data).flatMap Action.released = [] := by
        unfold rdmTimer
        split
        · rfl
        · split <;> rfl
      have hbreak : (if (txOctets frame).2 then [Action.sendBreak] else []).flatMap
          Action.released = [] := by
        split <;> rfl
      simp [startFrame, view, View.accept, Action.released, htimer, hbreak]
    split <;> first | exact .refl | exact haccept ▸ .single (.accept hfree)

theorem moves_of_eq {v v' : View} (h : v' = v) : Moves v v' := h ▸ .refl

theorem txEnd2_moves (got : Bool) (h : ¬ p.startsReception (.txEnd2 got)) :
    Moves p.view (p.txEnd2 got).view := by
  unfold txEnd2
  split
  · next hstate =>
    refine .tail .refl ?_
    simp only [view_state, view_act, view_putTx, Action.released, List.append_nil]
    exact .releaseTx
  · next hstate =>
    dsimp only
    split
    · next e htx =>
      have hdisc : ¬ isRdmDiscover e.frame.data = true := fun hdisc => h ⟨hstate, e, htx, hdisc⟩
      refine moves_of_eq ?_
      simp only [if_neg hdisc, view_state, view_act, Action.released, List.append_nil]
    · refine moves_of_eq ?_
      simp only [view_state, view_act, Action.released, List.append_nil]
  · exact .refl

/-- A break that ends a reception starts the next one. -/
theorem rxErr_moves (isBreak got : Bool) (h : ¬ p.startsReception (.rxErr isBreak got)) :
    Moves p.view (p.rxErr isBreak got).view := by
  unfold rxErr
  split
  · next hbreak =>
    split
    · next hstate => exact (h ⟨hbreak, .inl hstate⟩).elim
    · next hstate => exact (h ⟨hbreak, .inr (.inl hstate)⟩).elim
    · next hstate => exact (h ⟨hbreak, .inr (.inr hstate)⟩).elim
    · next hstate =>
      cases hrx : p.rx with
      | none =>
        simp only [view_startReceiveData, view_state]
        exact moves_startReception (by simp only [view, hrx, Option.map_none]) got
      | some e =>
        have hended : Moves p.view p.view.unregister.releaseRx :=
          (Relation.ReflTransGen.single .unregister).tail (.releaseRx rfl)
        simp only [view_startReceiveData, view_state]
        rw [view_completed, view_rxStop]
        exact hended.trans (moves_startReception rfl got)
    all_goals exact .refl
  · exact .refl

theorem rxEnd_moves (hlive : p.Live) (hstopped : p.registered = false) :
    Moves p.view p.rxEnd.view := by
  have hboth : Moves p.view p.view.releaseRx.releaseTx :=
    (Relation.ReflTransGen.single (.releaseRx hstopped)).tail .releaseTx
  unfold rxEnd
  split
  · exact .refl
  · next e hrx =>
    have hreply : p.tx.isSome = true →
        (p.act .stopRdmTimer).handleDiscoveryReply.view = p.view.releaseRx.releaseTx := by
      intro htx
      have hframe : (p.act .stopRdmTimer).lacksFrame = false := by simp [lacksFrame, act, hrx]
      refine (view_handleDiscoveryReply (p.act .stopRdmTimer) htx hframe).1.trans ?_
      simp only [view_act, Action.released, List.append_nil]
    split
    · rw [view_completed]
      exact .single (.releaseRx hstopped)
    · simp only [view_state]
      rw [view_completed, view_putTx]
      exact (Relation.ReflTransGen.single .releaseTx).tail (.releaseRx hstopped)
    · next hstate =>
      simp only [view_state, hreply (hlive.asked (.inl hstate))]
      exact hboth
    · next hstate =>
      simp only [view_state, hreply (hlive.asked (.inr hstate))]
      exact hboth
    all_goals exact .refl

theorem handleRdmTimeout_moves (h : ¬ p.timesOut .rdmTimeout) :
    Moves p.view p.handleRdmTimeout.view := by
  unfold handleRdmTimeout
  split
  · exact .refl
  · next e htx =>
    have hsome : p.tx.isSome = true := by rw [htx]; rfl
    dsimp only
    split
    · next hstate => exact (h ⟨hsome, .inl hstate⟩).elim
    · next hstate => exact (h ⟨hsome, .inr (.inl hstate)⟩).elim
    · next hstate => exact (h ⟨hsome, .inr (.inr (.inl hstate))⟩).elim
    · next hstate => exact (h ⟨hsome, .inr (.inr (.inr hstate))⟩).elim
    · refine moves_of_eq ?_
      simp only [view_act, Action.released, List.append_nil]

/-- **A step that is safe**: a reception is started with no frame in the
receive slot, an exchange times out with no buffer registered, and a
discovery with a frame or nothing counted. -/
def Safe (p : Port) (e : Event) : Prop :=
  (p.startsReception e → p.rx = none) ∧ (p.timesOut e → p.registered = false) ∧ ¬ p.readsNull e

/-- Safe steps move the frames. -/
theorem handle_moves (hlive : p.Live) (h : p.Safe e) : Moves p.view (p.handle e).view := by
  by_cases hstart : p.startsReception e
  · obtain ⟨got, hview⟩ := view_of_startsReception hstart
    rw [hview]
    exact moves_startReception (by simp only [view, h.1 hstart, Option.map_none]) got
  · by_cases htime : p.timesOut e
    · rw [view_of_timesOut htime h.2.2]
      exact (Relation.ReflTransGen.single (.releaseRx (h.2.1 htime))).tail .releaseTx
    · cases e with
      | sendFrame frame => exact sendFrame_moves frame
      | txEnd2 got => exact txEnd2_moves got hstart
      | rxErr isBreak got => exact rxErr_moves isBreak got hstart
      | rxTrigger trigger0 trigger1 => exact moves_of_eq (p.view_rxTrigger trigger0 trigger1)
      | rxEnd =>
        have hend : Moves p.view.unregister (p.handle .rxEnd).view :=
          rxEnd_moves (p := { p with registered := false }) ⟨hlive.alive, hlive.asked⟩ rfl
        exact .head .unregister hend
      | rxChar => exact moves_of_eq p.view_rxChar
      | rdmTimeout => exact handleRdmTimeout_moves htime
      | store c => exact moves_of_eq (p.view_store c)

/-- A reception that is started over a frame loses it. -/
theorem rx_eq_none_of_kept (hsound : p.view.Sound) (hstart : p.startsReception e)
    (hkept : Kept p.view (p.handle e).view) : p.rx = none := by
  by_contra hne
  obtain ⟨entry, hrx⟩ := Option.ne_none_iff_exists'.1 hne
  have hview : p.view.rx = some entry.id := by simp only [view, hrx, Option.map_some]
  have hfresh : entry.id < p.view.next := hsound.owned.lt_next (by simp [hview])
  obtain ⟨got, hstep⟩ := view_of_startsReception hstart
  rcases hkept.rx entry.id hview with hslot | hmem
  · rw [hstep] at hslot
    cases got with
    | true =>
      have hnext : p.view.next = entry.id := Option.some.inj hslot
      omega
    | false => exact absurd hslot.symm (Option.some_ne_none _)
  · have hsame : (p.handle e).view.released = p.view.released := by
      rw [hstep]
      cases got <;> rfl
    rw [hsame] at hmem
    exact hsound.owned.notMem_released hview hmem

/-- A frame that is given back at a timeout is still written to. -/
theorem not_registered_of_pointsLive (hsound : p.view.Sound) (htime : p.timesOut e)
    (hnull : ¬ p.readsNull e) (hlive : (p.handle e).view.PointsLive) : p.registered = false := by
  by_contra hreg
  rw [Bool.not_eq_false] at hreg
  obtain ⟨id, hpoints, hrx⟩ := hsound.points hreg
  rw [view_of_timesOut htime hnull] at hlive
  obtain ⟨id', hpoints', hmem⟩ := hlive hreg
  obtain rfl : id = id' := Option.some.inj (hpoints.symm.trans hpoints')
  exact hmem (by simp [View.releaseTx, View.releaseRx, hrx])

/-! ## The process -/

theorem step_of_live (h : p.Live) (e : Event) : p.step e = p.handle e :=
  if_neg (by rw [h.alive]; decide)

/-- **A null pointer ends the process.** -/
theorem dead_of_readsNull (h : p.readsNull e) : (p.handle e).dead = true := by
  cases e with
  | rdmTimeout =>
    obtain ⟨htx, hstate, hlacks⟩ := h
    obtain ⟨e, htx⟩ := Option.isSome_iff_exists.1 htx
    have hreply : (p.act .stopRdmTimer).handleDiscoveryReply.dead = true := by
      unfold handleDiscoveryReply
      rw [if_pos (show (p.act .stopRdmTimer).lacksFrame = true from hlacks)]
    have hsame : (p.act .stopRdmTimer).state = p.state := rfl
    rcases hstate with hstate | hstate <;>
      simp only [handle, handleRdmTimeout, htx, hsame, hstate, hreply]
  | sendFrame frame => exact h.elim
  | txEnd2 got => exact h.elim
  | rxErr isBreak got => exact h.elim
  | rxTrigger trigger0 trigger1 => exact h.elim
  | rxEnd => exact h.elim
  | rxChar => exact h.elim
  | store c => exact h.elim

/-- What does not touch the state, the request or the process. -/
theorem Live.of_eq {q : Port} (h : p.Live) (hstate : q.state = p.state) (htx : q.tx = p.tx)
    (hdead : q.dead = p.dead) : q.Live :=
  ⟨hdead.trans h.alive, by rw [hstate, htx]; exact h.asked⟩

/-- In another state no reply to a discovery is awaited. -/
theorem Live.of_state {q : Port} (h : p.Live) (hdead : q.dead = p.dead)
    (hstate : q.state ≠ .recvRdmdiscReply ∧ q.state ≠ .recvRdmdiscReplyCollision) : q.Live :=
  ⟨hdead.trans h.alive, fun hdisc => (hdisc.elim hstate.1 hstate.2).elim⟩

theorem rxStart_same (p : Port) :
    p.rxStart.state = p.state ∧ p.rxStart.tx = p.tx ∧ p.rxStart.dead = p.dead := by
  unfold rxStart
  split <;> exact ⟨rfl, rfl, rfl⟩

theorem startReceiveData_same (p : Port) (offset : ℕ) (startcode got : Bool) :
    (p.startReceiveData offset startcode got).state = p.state ∧
      (p.startReceiveData offset startcode got).tx = p.tx ∧
      (p.startReceiveData offset startcode got).dead = p.dead := by
  unfold startReceiveData
  cases got with
  | false => exact ⟨rfl, rfl, rfl⟩
  | true => exact rxStart_same _

theorem Live.startReceiveData (h : p.Live) (offset : ℕ) (startcode got : Bool) :
    (p.startReceiveData offset startcode got).Live := by
  obtain ⟨hstate, htx, hdead⟩ := p.startReceiveData_same offset startcode got
  exact h.of_eq hstate htx hdead

theorem Live.sendFrame (h : p.Live) (frame : Frame) : (p.sendFrame frame).Live := by
  unfold Port.sendFrame
  split
  · exact h
  · split <;> first | exact h | exact ⟨h.alive, fun _ => rfl⟩

theorem Live.txEnd2 (h : p.Live) (got : Bool) : (p.txEnd2 got).Live := by
  unfold Port.txEnd2
  split
  · exact h.of_state (dead_putFrame ..) (by simp)
  · dsimp only
    split
    · next e htx =>
      split
      · refine Live.startReceiveData ?_ _ _ _
        exact ⟨h.alive, fun _ => by simp only [htx, Option.isSome_some]⟩
      · exact h.of_state rfl (by simp)
    · exact h.of_state rfl (by simp)
  · exact h

theorem Live.rxErr (h : p.Live) (isBreak got : Bool) : (p.rxErr isBreak got).Live := by
  unfold Port.rxErr
  split
  · split
    · exact (h.of_state (q := { p with state := .expectStartcode }) rfl (by simp)).startReceiveData
        _ _ _
    · exact (h.of_state (q := { p with state := .expectStartcode }) rfl (by simp)).startReceiveData
        _ _ _
    · exact (h.of_state (q := { p with state := .recvRdmReplyData }) rfl (by simp)).startReceiveData
        _ _ _
    · dsimp only
      refine Live.startReceiveData (h.of_state ?_ (by simp)) _ _ _
      split
      · rfl
      · exact dead_receivedFrame ..
    · next hstate => exact ⟨h.alive, fun _ => h.asked (.inl hstate)⟩
    all_goals exact h
  · exact h

theorem Live.rxEnd (h : p.Live) : p.rxEnd.Live := by
  unfold Port.rxEnd
  split
  · exact h
  · next e hrx =>
    have hreply : p.tx.isSome = true → (p.act .stopRdmTimer).handleDiscoveryReply.dead = p.dead :=
      fun htx => (view_handleDiscoveryReply (p.act .stopRdmTimer) htx
        (by simp [lacksFrame, act, hrx])).2
    split
    · refine h.of_state (dead_receivedFrame ..) ?_
      dsimp only
      split <;> simp
    · exact h.of_state (by simp [completeRxframe]) (by simp)
    · next hstate => exact h.of_state (hreply (h.asked (.inl hstate))) (by simp)
    · next hstate => exact h.of_state (hreply (h.asked (.inr hstate))) (by simp)
    all_goals exact h

theorem Live.rxTrigger (h : p.Live) (trigger0 trigger1 : Bool) :
    (p.rxTrigger trigger0 trigger1).Live := by
  have hlimit : ∀ {q : Port}, q.Live → q.limitToLength.Live := by
    intro q hq
    unfold limitToLength
    split
    · exact ⟨hq.alive, hq.asked⟩
    · exact hq
  have hexpect : ∀ {q : Port}, q.Live → q.expectLength.Live := by
    intro q hq
    unfold expectLength
    split
    · exact hlimit hq
    · exact ⟨hq.alive, hq.asked⟩
  have hlast : ∀ {q : Port}, q.Live → (if trigger1 ∧ (q.state = .receiveDmxdata ∨
      q.state = .recvRdmReplyData) ∧ q.buffer.transfered > rdmPosLength then q.limitToLength
      else q).Live := by
    intro q hq
    split
    · exact hlimit hq
    · exact hq
  unfold Port.rxTrigger
  refine hlast ?_
  split
  · split
    · refine ⟨?_, fun hdisc => absurd hdisc (by simp)⟩
      dsimp only
      split
      · exact (hexpect h).alive
      · split <;> exact h.alive
    · split
      · exact hexpect h
      · exact h
    · exact h
  · exact h

theorem Live.rxChar (h : p.Live) : p.rxChar.Live := by
  unfold Port.rxChar
  split
  · exact h.of_state rfl (by simp)
  · exact h

theorem Live.rdmTimeout (h : p.Live) (hnull : ¬ p.readsNull .rdmTimeout) :
    p.handleRdmTimeout.Live := by
  unfold Port.handleRdmTimeout
  split
  · exact h
  · next e htx =>
    have hsome : p.tx.isSome = true := by rw [htx]; rfl
    have hreply : p.state = .recvRdmdiscReply ∨ p.state = .recvRdmdiscReplyCollision →
        (p.act .stopRdmTimer).handleDiscoveryReply.dead = p.dead := by
      intro hdisc
      have hframe : p.lacksFrame = false :=
        Bool.eq_false_iff.2 fun hlacks => hnull ⟨hsome, hdisc, hlacks⟩
      exact (view_handleDiscoveryReply (p.act .stopRdmTimer) hsome hframe).2
    dsimp only
    split
    · next hstate => exact h.of_state (hreply (.inl hstate)) (by simp)
    · next hstate => exact h.of_state (hreply (.inr hstate)) (by simp)
    · exact h.of_state (by simp [handleRdmReplyTimeout, act]) (by simp)
    · exact h.of_state (by simp [handleRdmReplyTimeout, act]) (by simp)
    · exact ⟨h.alive, h.asked⟩

/-- **A process that reads no null pointer lives on.** -/
theorem Live.handle (h : p.Live) (hnull : ¬ p.readsNull e) : (p.handle e).Live := by
  cases e with
  | sendFrame frame => exact h.sendFrame frame
  | txEnd2 got => exact h.txEnd2 got
  | rxErr isBreak got => exact h.rxErr isBreak got
  | rxTrigger trigger0 trigger1 => exact h.rxTrigger trigger0 trigger1
  | rxEnd => exact (⟨h.alive, h.asked⟩ : Live { p with registered := false }).rxEnd
  | rxChar => exact h.rxChar
  | rdmTimeout => exact h.rdmTimeout hnull
  | store c => exact ⟨h.alive, h.asked⟩

/-- **A run keeps its frames just when its steps are safe**: every frame
is released exactly once or held, none is overwritten in its slot, the
registered buffer never points into a released frame, and the process
follows no null pointer. -/
theorem owned_iff (es : List Event) :
    (Always step (fun p => p.view.Owned ∧ p.view.PointsLive ∧ p.dead = false) create es ∧
      EachStep step (fun p e => Kept p.view (p.step e).view) create es) ↔
    EachStep step Safe create es := by
  refine always_and_eachStep_iff_of_invariant (Q := fun p => p.view.Sound ∧ p.Live) ?_ ?_ ?_ ?_
  · exact fun p ⟨hsound, hlive⟩ => ⟨hsound.owned, hsound.pointsLive, hlive.alive⟩
  · rintro p e ⟨hsound, hlive⟩ ⟨-, hpoints, halive⟩ hkept
    rw [step_of_live hlive] at hpoints halive hkept
    have hnull : ¬ p.readsNull e := fun hnull =>
      absurd (halive.symm.trans (dead_of_readsNull hnull)) (by decide)
    exact ⟨fun hstart => rx_eq_none_of_kept hsound hstart hkept,
      fun htime => not_registered_of_pointsLive hsound htime hnull hpoints, hnull⟩
  · rintro p e ⟨hsound, hlive⟩ hsafe
    rw [step_of_live hlive]
    obtain ⟨hsound', hkept⟩ := Moves.sound (handle_moves hlive hsafe) hsound
    exact ⟨⟨hsound', hlive.handle hsafe.2.2⟩, hkept⟩
  · refine ⟨⟨List.Perm.refl _, fun hreg => absurd hreg (by decide)⟩, rfl, fun hdisc => ?_⟩
    exact absurd hdisc (by simp [create])

/-- A discovery request of the whole range. -/
def discoveryRequest : Frame where
  port := 0
  flags := ⟨false, true, true, 0⟩
  breaksize := 0
  payloadSize := 37
  data := fun i => [0xCC, 0x01, 36, 0xFF, 0xFF, 0xFF, 0xFF, 0xFF, 0xFF, 1, 1, 1, 1, 1, 1, 0, 1, 0,
    0, 0, 0x10, 0, 1, 12, 0, 0, 0, 0, 0, 0, 0xFE, 0xFF, 0xFF, 0xFF, 0xFF, 0xFE, 0x0D, 0xF1].getD i 0

/-- A discovery that nobody answers leaves a buffer registered in the frame
that was given back. -/
theorem discovery_timeout_not_owned :
    ¬ (Always step (fun p => p.view.Owned ∧ p.view.PointsLive ∧ p.dead = false) create
        [.sendFrame discoveryRequest, .txEnd2 true, .rdmTimeout] ∧
      EachStep step (fun p e => Kept p.view (p.step e).view) create
        [.sendFrame discoveryRequest, .txEnd2 true, .rdmTimeout]) := by
  rintro ⟨h, -⟩
  obtain ⟨id, hpoints, hmem⟩ := h.last.2.1 (by decide)
  have hone : some 1 = some id := by rw [← hpoints]; decide
  obtain rfl : 1 = id := Option.some.inj hone
  exact hmem (by decide)

/-- A frame was received, and none is allocated for the reply to a discovery. -/
example : (run step create [.rxErr true true, .store 0, .rxTrigger true false, .rxEnd,
    .sendFrame discoveryRequest, .txEnd2 false, .rdmTimeout]).dead = true := by
  decide

end Port

end Dmxrtuart

end Dmx4Linux2
