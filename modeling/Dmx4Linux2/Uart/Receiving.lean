import Dmx4Linux2.Uart.Handler
import Dmx4Linux2.Uart.RxFifo

/-!
# PL011 driver — what becomes of octets

The handler empties the FIFO of the receiver into the ring (`received_run`),
and the client reads the ring. What it reads is what was received, in order, without what the
ring had no place for and what was flushed (`octets_accounted`). Octets are
flushed when the client did not ask to be told of them, so a client that reads
all it is told of, and asks again, loses nothing (`nothing_lost`).
-/

namespace Dmx4Linux2

namespace Uart

/-- How many octets were lost by an action. -/
def Action.loses : Action → ℕ
  | .full _ => 1
  | .flush level => level.toNat
  | _ => 0

/-- What has nothing to do with octets. -/
def Action.Quiet : Action → Prop
  | .dr _ | .full _ | .flush _ | .chars _ => False
  | _ => True

namespace RxFifo

/-- As many octets are read as there are, up to the count. -/
theorem Represents.readChars {f : RxFifo} {q : Kfifo UInt8 63} (h : Represents f q) (count : ℕ) :
    (f.readChars count).1 = q.items.take count ∧
      Represents (f.readChars count).2 (q.out count).2 := by
  induction count generalizing f q with
  | zero => exact ⟨rfl, h⟩
  | succ count ih =>
    obtain ⟨hget, hrep⟩ := h.get
    rcases hq : q.items with _ | ⟨v, vs⟩
    · have hnone : f.get = (none, f.get.2) := Prod.ext (hget.trans (by rw [Kfifo.peek, hq]; rfl)) rfl
      have hout : (q.out (count + 1)).2 = (q.out 1).2 := by simp [Kfifo.out, hq]
      rw [RxFifo.readChars, hnone, hout]
      exact ⟨rfl, hrep⟩
    · have hsome : f.get = (some v, f.get.2) :=
        Prod.ext (hget.trans (by rw [Kfifo.peek, hq]; rfl)) rfl
      have hout : (q.out (count + 1)).2 = ((q.out 1).2.out count).2 := by simp [Kfifo.out, hq]
      obtain ⟨hread, hring⟩ := ih hrep
      rw [RxFifo.readChars, hsome, hout]
      refine ⟨?_, hring⟩
      show v :: (f.get.2.readChars count).1 = _
      rw [hread]
      simp [Kfifo.out, hq]

end RxFifo

namespace Pl011

/-- The octets that came without an error. -/
def received (t : List Action) : List UInt8 :=
  t.flatMap fun a => match a with
    | .dr v => if v &&& 0xF00 ≠ 0 then [] else [v.toUInt8]
    | _ => []

/-- The octets the client has read. -/
def read (t : List Action) : List UInt8 :=
  t.flatMap fun a => match a with
    | .chars octets => octets
    | _ => []

def lost (t : List Action) : ℕ := (t.map Action.loses).sum

/-- **All octets are accounted for**: they were read, are in the ring, or are
lost, and those that are not lost are in order. -/
structure Accounts (f : RxFifo) (t : List Action) (q : Kfifo UInt8 63) : Prop where
  ring : f.Represents q
  inOrder : (read t ++ q.items).Sublist (received t)
  counted : (received t).length = (read t).length + q.len + lost t

def Accounted (s : Pl011) : Prop := ∃ q, Accounts s.rx s.trace q

variable {f : RxFifo} {t : List Action} {q : Kfifo UInt8 63} {a : Action} {s : Pl011}

theorem received_append (t u : List Action) : received (t ++ u) = received t ++ received u :=
  List.flatMap_append

theorem read_append (t u : List Action) : read (t ++ u) = read t ++ read u := List.flatMap_append

theorem lost_append (t u : List Action) : lost (t ++ u) = lost t + lost u := by
  rw [lost, List.map_append, List.sum_append]
  rfl

theorem lost_singleton (a : Action) : lost [a] = a.loses := List.sum_singleton

namespace Accounts

theorem quiet (h : Accounts f t q) (ha : a.Quiet) : Accounts f (t ++ [a]) q := by
  have hnone : received [a] = [] ∧ read [a] = [] ∧ lost [a] = 0 := by
    cases a <;> first | exact ⟨rfl, rfl, rfl⟩ | exact absurd ha id
  refine ⟨h.ring, ?_, ?_⟩
  · rw [received_append, read_append, hnone.1, hnone.2.1, List.append_nil, List.append_nil]
    exact h.inOrder
  · rw [received_append, read_append, lost_append, hnone.1, hnone.2.1, hnone.2.2,
      List.append_nil, List.append_nil]
    exact h.counted

/-- A ring from which nothing was read yet. -/
theorem start (h : f.inptr = f.outptr) (hlt : f.outptr.toNat < 64) :
    Accounts f [] Kfifo.empty where
  ring := RxFifo.represents_empty h hlt
  inOrder := List.Sublist.refl _
  counted := rfl

/-- Where nothing is lost, all that came was read or is in the ring. -/
theorem all (h : Accounts f t q) (hlost : lost t = 0) : read t ++ q.items = received t := by
  refine h.inOrder.eq_of_length ?_
  rw [List.length_append, h.counted, hlost]
  rfl

/-- What is left in the ring when it is flushed is lost. -/
theorem flush (h : Accounts f t q) : Accounts f.flush (t ++ [.flush f.level]) Kfifo.empty := by
  have hlevel : lost [.flush f.level] = q.len := by
    rw [lost_singleton, h.ring.level_eq]
    rfl
  refine ⟨h.ring.flush, ?_, ?_⟩
  · rw [received_append, read_append]
    show (read t ++ [] ++ []).Sublist (received t ++ [])
    rw [List.append_nil, List.append_nil, List.append_nil]
    exact (List.sublist_append_left _ _).trans h.inOrder
  · rw [received_append, read_append, lost_append, hlevel]
    have hcounted := h.counted
    show (received t ++ []).length = (read t ++ []).length + 0 + (lost t + q.len)
    rw [List.append_nil, List.append_nil]
    omega

/-- An octet with an error is not one that was received. -/
theorem error (h : Accounts f t q) {dr : UInt64} (herror : dr &&& 0xF00 ≠ 0) :
    Accounts f (t ++ [.dr dr]) q := by
  have hnone : received [.dr dr] = [] := by simp [received, herror]
  refine ⟨h.ring, ?_, ?_⟩
  · rw [received_append, read_append, hnone, List.append_nil]
    show (read t ++ [] ++ q.items).Sublist _
    rw [List.append_nil]
    exact h.inOrder
  · rw [received_append, read_append, lost_append, hnone, List.append_nil]
    show (received t).length = (read t ++ []).length + q.len + (lost t + 0)
    rw [List.append_nil]
    exact h.counted

/-- An octet is received: there is a place for it, -/
theorem stored (h : Accounts f t q) {dr : UInt64} (hok : dr &&& 0xF00 = 0) (hlen : q.len < 63) :
    Accounts (f.put dr.toUInt8) (t ++ [.dr dr]) (q.put [dr.toUInt8]) := by
  have hone : received [.dr dr] = [dr.toUInt8] := by simp [received, hok]
  have hitems : (q.put [dr.toUInt8]).items = q.items ++ [dr.toUInt8] := Kfifo.put_items_of_le hlen
  refine ⟨h.ring.put _, ?_, ?_⟩
  · rw [received_append, read_append, hone, hitems]
    show (read t ++ [] ++ _).Sublist _
    rw [List.append_nil, ← List.append_assoc]
    exact h.inOrder.append_right _
  · have hcounted := h.counted
    rw [received_append, read_append, lost_append, hone, Kfifo.len, hitems]
    show (received t ++ [_]).length = (read t ++ []).length + (q.items ++ [_]).length + (lost t + 0)
    rw [List.append_nil, List.length_append, List.length_append, hcounted]
    show _ + q.items.length + _ + 1 = _ + (q.items.length + 1) + _
    omega

/-- or there is none. -/
theorem dropped (h : Accounts f t q) {dr : UInt64} (hok : dr &&& 0xF00 = 0) :
    Accounts f (t ++ [.dr dr] ++ [.full dr.toUInt8]) q := by
  have hone : received [.dr dr, .full dr.toUInt8] = [dr.toUInt8] := by simp [received, hok]
  have happend : t ++ [.dr dr] ++ [.full dr.toUInt8] = t ++ [.dr dr, .full dr.toUInt8] :=
    List.append_assoc _ _ _
  have hcounted := h.counted
  refine ⟨h.ring, ?_, ?_⟩
  · rw [happend, received_append, read_append, hone]
    show (read t ++ [] ++ q.items).Sublist _
    rw [List.append_nil]
    exact h.inOrder.trans (List.sublist_append_left _ _)
  · rw [happend, received_append, read_append, lost_append, hone]
    show (received t ++ [_]).length = (read t ++ []).length + q.len + (lost t + 1)
    rw [List.append_nil, List.length_append, hcounted]
    show _ + 1 = _
    omega

/-- The client reads the octets that are longest in the ring. -/
theorem chars (h : Accounts f t q) (count : ℕ) :
    Accounts (f.readChars count).2 (t ++ [.chars (f.readChars count).1]) (q.out count).2 := by
  obtain ⟨hread, hring⟩ := h.ring.readChars count
  have hchars : read [.chars (f.readChars count).1] = q.items.take count := by
    rw [hread]
    exact List.append_nil _
  have hitems : q.items.take count ++ (q.out count).2.items = q.items := List.take_append_drop _ _
  refine ⟨hring, ?_, ?_⟩
  · rw [received_append, read_append, hchars, List.append_assoc, hitems]
    show (read t ++ q.items).Sublist (received t ++ [])
    rw [List.append_nil]
    exact h.inOrder
  · have hcounted := h.counted
    have hlength := congrArg List.length hitems
    rw [List.length_append] at hlength
    rw [received_append, read_append, lost_append, hchars]
    show (received t ++ []).length = _ + (q.out count).2.items.length + (lost t + 0)
    rw [List.append_nil, List.length_append, hcounted, Kfifo.len]
    omega

end Accounts

namespace Accounted

theorem act (h : Accounted s) (ha : a.Quiet) : Accounted (s.act a) := h.imp fun _ h => h.quiet ha

theorem clear (h : Accounted s) (bits : UInt64) : Accounted (s.clear bits) := h

theorem flush (h : Accounted s) : Accounted s.flush := h.elim fun _ h => ⟨Kfifo.empty, h.flush⟩

theorem put (h : Accounted s) {dr : UInt64} (hok : dr &&& 0xF00 = 0) :
    Accounted ((s.act (.dr dr)).put dr.toUInt8) := by
  obtain ⟨q, h⟩ := h
  have hle : q.len ≤ 63 := q.length_le
  rw [Pl011.put]
  split
  case isTrue => exact ⟨q, h.dropped hok⟩
  case isFalse hfull =>
    have hlen : q.len ≠ 63 := fun hlen => hfull (h.ring.full_iff.2 hlen)
    exact ⟨_, h.stored hok (by omega)⟩

/-- Telling the client of space is nothing to octets. -/
theorem setNotifier (h : Accounted s) (u : Notifier) : Accounted (s.setNotifier u) := by
  have hspaces : ∀ (spaces : List UInt32) {t : List Action} {q : Kfifo UInt8 63},
      Accounts s.rx t q →
      Accounts s.rx (t ++ spaces.map fun space => .call (.transmitterHasSpace space)) q := by
    intro spaces
    induction spaces with
    | nil => exact fun h => by simpa using h
    | cons space spaces ih =>
      intro t q h
      rw [List.map_cons, List.append_cons]
      exact ih (h.quiet trivial)
  exact h.imp fun _ h => hspaces _ h

theorem perform (h : Accounted s) (c : Call) : Accounted (s.perform c) := by
  cases c with
  | notify c => exact (h.act (a := .notify c) trivial).setNotifier _
  | readChars count => exact h.elim fun q h => ⟨_, h.chars count⟩
  | flushFifo tx rx =>
    rw [Pl011.perform]
    split
    · exact h.flush
    · exact h

theorem callWith (h : Accounted s) (replies : List Call) (cb : Callback) :
    Accounted (s.callWith replies cb) := by
  rw [Pl011.callWith]
  split
  · exact List.foldlRecOn replies Pl011.perform (h.act trivial) fun s hs c _ => hs.perform c
  · exact h

theorem awaitIdle (h : Accounted s) (e : Pass) : Accounted (s.awaitIdle e) := by
  have hwaits : Accounted (e.waits.foldl (fun s v => s.act (.fr v)) s) :=
    List.foldlRecOn e.waits _ h fun s hs v _ => hs.act (a := .fr v) trivial
  exact hwaits.act trivial

theorem handleReceiverEmpty (h : Accounted s) (e : Pass) : Accounted (s.handleReceiverEmpty e) := by
  have hread : Accounted (s.act (.fr e.fr)) := h.act trivial
  rw [Pl011.handleReceiverEmpty]
  simp only
  split
  · split
    · exact (hread.clear _).callWith _ _
    · split
      · exact ((hread.clear notifyTxempty).awaitIdle e).callWith _ _
      · exact hread.clear _
  · exact hread

theorem handleLsr (h : Accounted s) (e : Pass) : Accounted (s.handleLsr e) := by
  rw [Pl011.handleLsr]
  split
  · exact h.callWith _ _
  · exact h

theorem storeReceived (h : Accounted s) (drs : List UInt64) :
    Accounted (Pl011.storeReceived drs s).1 := by
  induction drs generalizing s with
  | nil => exact h
  | cons dr drs ih =>
    rw [Pl011.storeReceived]
    split
    case isTrue herror => exact h.imp fun _ h => h.error herror
    case isFalse hok => exact ih (h.put (not_not.1 hok))

theorem tellReceived (h : Accounted s) (e : Pass) : Accounted (s.tellReceived e) := by
  rw [Pl011.tellReceived]
  split
  · split
    · simp only
      split
      · exact (h.clear _).callWith _ _
      · exact (h.clear _).flush
    · exact h
  · exact h.flush

theorem receive (h : Accounted s) (e : Pass) : Accounted (s.receive e) := by
  have htold := (h.storeReceived e.received).tellReceived e
  rw [Pl011.receive]
  split
  · exact htold.callWith _ _
  · exact htold

theorem handleIrq (h : Accounted s) (e : Pass) : Accounted (s.handleIrq e) := by
  have hlsr : Accounted (if e.mis &&& misErrors ≠ 0 then s.handleLsr e else s) := by
    split
    · exact h.handleLsr e
    · exact h
  have htx : ∀ {s : Pl011}, Accounted s →
      Accounted (if e.mis &&& misTx ≠ 0 then
        if s.notifier.notifies notifyTxready then
          (s.clear notifyTxready).call e (.transmitterHasSpace
            (s.clear notifyTxready).notifier.txFifoSize)
        else s
      else s) := by
    intro s h
    split
    · split
      · exact (h.clear _).callWith _ _
      · exact h
    · exact h
  have hcts : ∀ {s : Pl011}, Accounted s →
      Accounted (if s.oldInputState ≠ 1 then s.call e (.modemInputChanged 1 1) else s) := by
    intro s h
    split
    · exact h.callWith _ _
    · exact h
  rw [Pl011.handleIrq]
  split
  · exact (h.handleReceiverEmpty e).setNotifier _
  · simp only
    split
    · exact hlsr.receive e
    · split
      · exact hcts (htx hlsr)
      · exact htx hlsr

theorem of_step (h : Accounted s) (e : Event) : Accounted (s.step e) := by
  cases e with
  | irq e => exact h.handleIrq e
  | periodicCheck e =>
    rw [Pl011.step, rxemptyTaskHandler]
    split
    · exact (h.handleLsr e).handleReceiverEmpty e
    · exact h
  | client c => exact h.perform c

end Accounted

/-! ## What is read from DR -/

/-- The octets before the first with an error. -/
def upToError (drs : List UInt64) : List UInt8 :=
  (drs.takeWhile fun dr => dr &&& 0xF00 == 0).map UInt64.toUInt8

/-- **The octets that come without an error**: a pass with the interrupt of
the receiver finds those in DR before the first that has one. -/
def Event.came : Event → List UInt8
  | .irq e => if e.mis &&& misReceiver ≠ 0 then upToError e.received else []
  | _ => []

/-- Nothing is read from DR on the way from a state to another. -/
def Unread (s s' : Pl011) : Prop := received s'.trace = received s.trace

namespace Unread

variable {s s' s'' : Pl011}

theorem refl (s : Pl011) : Unread s s := rfl

theorem trans (h : Unread s s') (h' : Unread s' s'') : Unread s s'' := Eq.trans h' h

theorem act (s : Pl011) {a : Action} (ha : received [a] = []) : Unread s (s.act a) := by
  rw [Unread, Pl011.act, received_append, ha, List.append_nil]

theorem setNotifier (s : Pl011) (u : Notifier) : Unread s (s.setNotifier u) := by
  have hcalls : ∀ spaces : List UInt32,
      received (spaces.map fun space => .call (.transmitterHasSpace space)) = [] := fun spaces => by
    simp [received, List.flatMap_map]
  rw [Unread, Pl011.setNotifier, received_append, hcalls, List.append_nil]

theorem perform (s : Pl011) (c : Call) : Unread s (s.perform c) := by
  cases c with
  | notify c => exact (act s rfl).trans (setNotifier _ _)
  | readChars count => exact act _ rfl
  | flushFifo tx rx =>
    rw [Pl011.perform]
    split
    · exact act _ rfl
    · exact refl s

theorem callWith (s : Pl011) (replies : List Call) (cb : Callback) :
    Unread s (s.callWith replies cb) := by
  rw [Pl011.callWith]
  split
  · exact List.foldlRecOn (motive := Unread s) replies Pl011.perform (act s rfl)
      fun t ht c _ => ht.trans (perform t c)
  · exact refl s

theorem awaitIdle (s : Pl011) (e : Pass) : Unread s (s.awaitIdle e) := by
  have hwaits : Unread s (e.waits.foldl (fun s v => s.act (.fr v)) s) :=
    List.foldlRecOn (motive := Unread s) e.waits _ (refl s) fun t ht v _ => ht.trans (act t rfl)
  exact hwaits.trans (act _ rfl)

theorem handleReceiverEmpty (s : Pl011) (e : Pass) : Unread s (s.handleReceiverEmpty e) := by
  have hread : Unread s (s.act (.fr e.fr)) := act s rfl
  rw [Pl011.handleReceiverEmpty]
  simp only
  split
  · split
    · exact hread.trans (callWith _ _ _)
    · split
      · exact hread.trans ((awaitIdle ((s.act (.fr e.fr)).clear notifyTxempty) e).trans
          (callWith _ _ _))
      · exact hread
  · exact hread

theorem handleLsr (s : Pl011) (e : Pass) : Unread s (s.handleLsr e) := by
  rw [Pl011.handleLsr]
  split
  · exact callWith _ _ _
  · exact refl s

theorem put (s : Pl011) (v : UInt8) : Unread s (s.put v) := by
  rw [Pl011.put]
  split
  · exact act s rfl
  · exact refl s

theorem flush (s : Pl011) : Unread s s.flush := act _ rfl

theorem tellReceived (s : Pl011) (e : Pass) : Unread s (s.tellReceived e) := by
  rw [Pl011.tellReceived]
  split
  · split
    · simp only
      split
      · exact callWith (s.clear notifyRxavailable) _ _
      · exact flush _
    · exact refl s
  · exact flush s

end Unread

/-- **The loop reads DR until an octet has an error.** -/
theorem received_storeReceived (s : Pl011) (drs : List UInt64) :
    received (storeReceived drs s).1.trace = received s.trace ++ upToError drs := by
  induction drs generalizing s with
  | nil => exact (List.append_nil _).symm
  | cons dr drs ih =>
    have hact : received (s.act (.dr dr)).trace = received s.trace ++ received [.dr dr] :=
      received_append _ _
    rw [storeReceived]
    split
    case isTrue herror =>
      have hnone : received [.dr dr] = [] := by simp [received, herror]
      rw [hact, hnone, upToError, List.takeWhile_cons_of_neg (by simpa using herror)]
      rfl
    case isFalse hok =>
      have hone : received [.dr dr] = [dr.toUInt8] := by simp [received, not_not.1 hok]
      have hput : received ((s.act (.dr dr)).put dr.toUInt8).trace = received (s.act (.dr dr)).trace :=
        Unread.put _ _
      rw [ih, hput, hact, hone, upToError, upToError,
        List.takeWhile_cons_of_pos (by simpa using hok), List.append_assoc]
      rfl

theorem received_receive (s : Pl011) (e : Pass) :
    received (s.receive e).trace = received s.trace ++ upToError e.received := by
  have htold : Unread (storeReceived e.received s).1 (s.receive e) := by
    have htell := Unread.tellReceived (storeReceived e.received s).1 e
    rw [receive]
    split
    · exact htell.trans (Unread.callWith _ _ _)
    · exact htell
  rw [show received (s.receive e).trace = _ from htold, received_storeReceived]

/-- **A pass puts into the trace what it finds in DR**, up to the first error,
if it has the interrupt of the receiver, and no other reading of it. -/
theorem received_handleIrq (s : Pl011) (e : Pass) :
    received (s.handleIrq e).trace = received s.trace ++ (Event.irq e).came := by
  have hlsr : Unread s (if e.mis &&& misErrors ≠ 0 then s.handleLsr e else s) := by
    split
    · exact Unread.handleLsr s e
    · exact Unread.refl s
  have htx : ∀ t, Unread t (if e.mis &&& misTx ≠ 0 then
        if t.notifier.notifies notifyTxready then
          (t.clear notifyTxready).call e (.transmitterHasSpace
            (t.clear notifyTxready).notifier.txFifoSize)
        else t
      else t) := by
    intro t
    split
    · split
      · exact Unread.callWith (t.clear notifyTxready) _ _
      · exact Unread.refl t
    · exact Unread.refl t
  have hcts : ∀ t : Pl011, Unread t
      (if t.oldInputState ≠ 1 then t.call e (.modemInputChanged 1 1) else t) := by
    intro t
    split
    · exact Unread.callWith t _ _
    · exact Unread.refl t
  have hcases : Unread s (s.handleIrq e) ∧ e.mis &&& misReceiver = 0 ∨
      received (s.handleIrq e).trace = received s.trace ++ upToError e.received ∧
        e.mis &&& misReceiver ≠ 0 := by
    rw [Pl011.handleIrq]
    split
    case isTrue hnone =>
      refine .inl ⟨(Unread.handleReceiverEmpty s e).trans (Unread.setNotifier _ _), ?_⟩
      have hpart : misReceiver = (misErrors ||| misReceiver ||| misTx ||| misCts) &&& misReceiver :=
        by decide
      rw [hpart, ← UInt64.and_assoc, hnone, UInt64.zero_and]
    case isFalse =>
      simp only
      split
      case isTrue hreceiver =>
        exact .inr ⟨by rw [received_receive, show received _ = _ from hlsr], hreceiver⟩
      case isFalse hreceiver =>
        refine .inl ⟨?_, not_not.1 hreceiver⟩
        split
        · exact hlsr.trans ((htx _).trans (hcts _))
        · exact hlsr.trans (htx _)
  rw [Event.came]
  rcases hcases with ⟨hunread, hmis⟩ | ⟨hread, hmis⟩
  · rw [if_neg (not_not.2 hmis), List.append_nil]
    exact hunread
  · rw [if_pos hmis, hread]

theorem received_step (s : Pl011) (e : Event) :
    received (s.step e).trace = received s.trace ++ e.came := by
  cases e with
  | irq e => exact received_handleIrq s e
  | periodicCheck e =>
    show received (s.rxemptyTaskHandler e).trace = received s.trace ++ []
    rw [List.append_nil, rxemptyTaskHandler]
    split
    · exact (Unread.handleLsr s e).trans (Unread.handleReceiverEmpty _ e)
    · rfl
  | client c =>
    have hunread : received (s.perform c).trace = received s.trace := Unread.perform s c
    exact hunread.trans (List.append_nil _).symm

/-- **What is read from DR is what comes.** -/
theorem received_run (s : Pl011) (es : List Event) :
    received (run step s es).trace = received s.trace ++ es.flatMap Event.came := by
  induction es generalizing s with
  | nil => exact (List.append_nil _).symm
  | cons e es ih =>
    rw [run_cons, ih, received_step, List.flatMap_cons, List.append_assoc]

/-- **Octets are not made up, doubled or reordered**: whatever happens to a
uart whose ring was empty, what the client has read, followed by what is in
the ring, is what came without an error, in order, less as many octets as there
was no place for and were flushed; and if there are none of these, it is all
that came. -/
theorem octets_accounted (s : Pl011) (hs : s.trace = []) (hempty : s.rx.inptr = s.rx.outptr)
    (hlt : s.rx.outptr.toNat < 64) (es : List Event) {s' : Pl011} (hrun : run step s es = s') :
    ∃ q : Kfifo UInt8 63, s'.rx.Represents q ∧
      (read s'.trace ++ q.items).Sublist (es.flatMap Event.came) ∧
      (es.flatMap Event.came).length = (read s'.trace ++ q.items).length + lost s'.trace ∧
      (lost s'.trace = 0 → read s'.trace ++ q.items = es.flatMap Event.came) := by
  have hstart : Accounted s := by
    refine ⟨Kfifo.empty, ?_⟩
    rw [hs]
    exact Accounts.start hempty hlt
  have hall : Always step Accounted s es := always_of_step (fun _ e h => h.of_step e) hstart
  obtain ⟨q, h⟩ : Accounted s' := hrun ▸ hall.last
  have hcame : es.flatMap Event.came = received s'.trace := by
    rw [← hrun, received_run, hs]
    rfl
  have hcounted : (received s'.trace).length = (read s'.trace ++ q.items).length + lost s'.trace := by
    rw [List.length_append]
    exact h.counted
  rw [hcame]
  exact ⟨q, h.ring, h.inOrder, hcounted, h.all⟩

/-- A uart that was created, with a client that has all callbacks, in memory
that was zero: `pl011_create` does not set the positions of the ring, which
are what `malloc` left there. -/
def created (mask : UInt64) : Pl011 where
  notifier := WatchedMask.created mask
  rx := ⟨fun _ => 0, 0, 0⟩
  oldInputState := 0
  callbacks _ := true
  trace := []

/-- A pass of the handler with two octets. -/
def two (replies : CallbackName → List Call) : Pass :=
  { octet with received := [7, 8], replies := replies }

/-- A client that reads one of two octets and does not ask again. -/
theorem octets_accounted_flushed :
    (run step (created 4) [.irq (two fun _ => [.readChars 1]), .irq (two fun _ => [])]).trace =
      [.dr 7, .dr 8, .call (.receiverDataAvailable 2), .chars [7], .dr 7, .dr 8, .flush 3] ∧
    ∃ q : Kfifo UInt8 63,
      ([7] ++ q.items).Sublist [7, 8, 7, 8] ∧ [7, 8, 7, 8].length = ([7] ++ q.items).length + 3 := by
  obtain ⟨q, -, horder, hcounted, -⟩ := octets_accounted (created 4) rfl rfl (by decide)
    [.irq (two fun _ => [.readChars 1]), .irq (two fun _ => [])] rfl
  exact ⟨rfl, q, horder, hcounted⟩

/-! ## Clients that read all octets -/

/-- A call that gives up no octets. -/
def Call.Keeps : Call → Prop
  | .notify (.disable bits) => bits &&& notifyRxavailable = 0
  | .flushFifo _ rx => rx = false
  | _ => True

/-- A call that asks for octets. -/
def Call.Asks : Call → Prop
  | .notify (.enable bits) => bits &&& notifyRxavailable ≠ 0
  | _ => False

/-- **A pass with a client that reads all octets it is told of, and asks for
the next**: there is space for the octets, it reads as many, or more, and none
of its callbacks gives any up. -/
structure Pass.Served (e : Pass) : Prop where
  fits : e.received.length ≤ 63
  keeps : ∀ name, ∀ c ∈ e.replies name, c.Keeps
  keeps_error : ∀ c ∈ e.errorReplies, c.Keeps
  reads : ∃ count ≥ e.received.length, .readChars count ∈ e.replies .receiverDataAvailable
  asks : ∃ c ∈ e.replies .receiverDataAvailable, c.Asks

def Event.Served : Event → Prop
  | .irq e => e.Served
  | .periodicCheck e => ∀ name, ∀ c ∈ e.replies name, c.Keeps
  | .client c => c.Keeps

/-- Nothing was lost on the way from a state to another, and the ring holds no
more than it did. -/
structure Spared (s s' : Pl011) : Prop where
  lost : lost s'.trace = lost s.trace
  ring : ∀ q, s.rx.Represents q → ∃ q', s'.rx.Represents q' ∧ q'.len ≤ q.len
  asked : s.notifier.notifies notifyRxavailable = true →
    s'.notifier.notifies notifyRxavailable = true
  callbacks : s'.callbacks = s.callbacks

/-- **The client waits for octets, of which none is in the ring.** -/
structure Waits (s : Pl011) : Prop where
  lost : lost s.trace = 0
  ring : s.rx.Represents Kfifo.empty
  asked : s.notifier.notifies notifyRxavailable = true
  callback : s.callbacks .receiverDataAvailable = true

namespace Spared

variable {s' s'' : Pl011}

theorem refl (s : Pl011) : Spared s s := ⟨rfl, fun q h => ⟨q, h, le_rfl⟩, id, rfl⟩

theorem trans (h : Spared s s') (h' : Spared s' s'') : Spared s s'' where
  lost := h'.lost.trans h.lost
  ring q hq := by
    obtain ⟨q', hq', hle⟩ := h.ring q hq
    obtain ⟨q'', hq'', hle'⟩ := h'.ring q' hq'
    exact ⟨q'', hq'', hle'.trans hle⟩
  asked := h'.asked ∘ h.asked
  callbacks := h'.callbacks.trans h.callbacks

theorem waits (h : Spared s s') (hs : Waits s) : Waits s' where
  lost := h.lost.trans hs.lost
  ring := by
    obtain ⟨q, hq, hle⟩ := h.ring _ hs.ring
    have hnil : q.items = [] := List.length_eq_zero_iff.1 (Nat.le_zero.1 hle)
    exact ⟨hq.inptr_lt, hq.outptr_lt, hq.items.trans hnil⟩
  asked := h.asked hs.asked
  callback := h.callbacks ▸ hs.callback

theorem act (s : Pl011) {a : Action} (ha : a.loses = 0) : Spared s (s.act a) where
  lost := by
    show Pl011.lost (s.trace ++ [a]) = _
    rw [lost_append, lost_singleton, ha, Nat.add_zero]
  ring q h := ⟨q, h, le_rfl⟩
  asked := id
  callbacks := rfl

theorem clear (s : Pl011) {bits : UInt64} (hbits : bits &&& notifyRxavailable = 0) :
    Spared s (s.clear bits) where
  lost := rfl
  ring q h := ⟨q, h, le_rfl⟩
  asked h := by
    refine bne_iff_ne.2 ?_
    show s.notifier.notifyMask &&& ~~~ bits &&& notifyRxavailable ≠ 0
    rw [Mask.and_not_and_of_disjoint hbits]
    exact bne_iff_ne.1 h
  callbacks := rfl

theorem setNotifier {u : Notifier} (h : s.notifier.notifies notifyRxavailable = true →
    u.notifies notifyRxavailable = true) : Spared s (s.setNotifier u) where
  lost := by
    have hspaces : ∀ spaces : List UInt32,
        Pl011.lost (spaces.map fun space => .call (.transmitterHasSpace space)) = 0 := by
      intro spaces
      induction spaces with
      | nil => rfl
      | cons space spaces ih => exact (lost_append [_] _).trans ((Nat.zero_add _).trans ih)
    exact (lost_append _ _).trans (by rw [hspaces, Nat.add_zero])
  ring q h := ⟨q, h, le_rfl⟩
  asked := h
  callbacks := rfl

theorem perform (s : Pl011) {c : Call} (hc : c.Keeps) : Spared s (s.perform c) := by
  cases c with
  | notify c =>
    refine (act s (a := .notify c) rfl).trans (setNotifier fun h => bne_iff_ne.2 ?_)
    have hmask := bne_iff_ne.1 h
    cases c with
    | enable bits =>
      rw [(Notifier.call_notifyMask_iff (.enable bits)).2 trivial]
      obtain ⟨j, hj, hhas⟩ := Mask.ne_zero_iff.1 hmask
      rw [Mask.has_and] at hhas
      exact Mask.ne_zero_iff.2 ⟨j, hj, Mask.has_and.2 ⟨Mask.has_or.2 (.inl hhas.1), hhas.2⟩⟩
    | disable bits =>
      rw [Notifier.call, Notifier.disableNotification]
      split
      · rw [Notifier.updateNotification_notifyMask]
        show s.notifier.notifyMask &&& ~~~ bits &&& notifyRxavailable ≠ 0
        rw [Mask.and_not_and_of_disjoint hc]
        exact hmask
      · exact hmask
  | readChars count =>
    refine ⟨(act s (a := .chars (s.rx.readChars count).1) rfl).lost, fun q hq => ?_, id, rfl⟩
    refine ⟨_, (hq.readChars count).2, ?_⟩
    rw [Kfifo.len, Kfifo.out, List.length_drop]
    exact Nat.sub_le _ _
  | flushFifo tx rx =>
    obtain rfl : rx = false := hc
    exact refl s

theorem performs {cs : List Call} (s : Pl011) (hcs : ∀ c ∈ cs, c.Keeps) :
    Spared s (cs.foldl Pl011.perform s) := by
  induction cs generalizing s with
  | nil => exact refl s
  | cons c cs ih =>
    rw [List.forall_mem_cons] at hcs
    exact (perform s hcs.1).trans (ih _ hcs.2)

theorem callWith {replies : List Call} (s : Pl011) (h : ∀ c ∈ replies, c.Keeps) (cb : Callback) :
    Spared s (s.callWith replies cb) := by
  rw [Pl011.callWith]
  split
  · exact (act s rfl).trans (performs _ h)
  · exact refl s

theorem awaitIdle (s : Pl011) (e : Pass) : Spared s (s.awaitIdle e) := by
  have hwaits : Spared s (e.waits.foldl (fun s v => s.act (.fr v)) s) :=
    List.foldlRecOn e.waits _ (refl s) fun s' hs v _ => hs.trans (act s' rfl)
  exact hwaits.trans (act _ rfl)

theorem handleReceiverEmpty {e : Pass} (s : Pl011) (he : ∀ name, ∀ c ∈ e.replies name, c.Keeps) :
    Spared s (s.handleReceiverEmpty e) := by
  have hread : Spared s (s.act (.fr e.fr)) := act s rfl
  have hclear : Spared s ((s.act (.fr e.fr)).clear notifyTxempty) :=
    hread.trans (clear _ (by decide))
  rw [Pl011.handleReceiverEmpty]
  simp only
  split
  · split
    · exact hclear.trans (callWith _ (he _) _)
    · split
      · exact (hclear.trans (awaitIdle _ e)).trans (callWith _ (he _) _)
      · exact hclear
  · exact hread

theorem handleLsr {e : Pass} (s : Pl011) (he : ∀ name, ∀ c ∈ e.replies name, c.Keeps) :
    Spared s (s.handleLsr e) := by
  rw [Pl011.handleLsr]
  split
  · exact callWith s (he _) _
  · exact refl s

/-- **What is asked of a client that is told of octets**: to read them all, and
to ask again. -/
theorem performs_waits {cs : List Call} {count : ℕ} {q : Kfifo UInt8 63}
    (hlost : Pl011.lost s.trace = 0) (hring : s.rx.Represents q) (hlen : q.len ≤ count)
    (hcallback : s.callbacks .receiverDataAvailable = true) (hcs : ∀ c ∈ cs, c.Keeps)
    (hreads : .readChars count ∈ cs) (hasks : ∃ c ∈ cs, c.Asks) :
    Waits (cs.foldl Pl011.perform s) := by
  have hall := performs s hcs
  refine ⟨hall.lost.trans hlost, ?_, ?_, hall.callbacks ▸ hcallback⟩
  · -- the ring is empty from the reading on
    obtain ⟨before, after, rfl⟩ := List.append_of_mem hreads
    rw [List.forall_mem_append, List.forall_mem_cons] at hcs
    obtain ⟨q', hq', hle⟩ := (performs s hcs.1).ring q hring
    have hread := (hq'.readChars count).2
    have hnil : (q'.out count).2.len = 0 := by
      rw [Kfifo.len, Kfifo.out, List.length_drop]
      exact Nat.sub_eq_zero_of_le (hle.trans hlen)
    rw [List.foldl_append, List.foldl_cons]
    obtain ⟨q'', hq'', hle'⟩ :=
      (performs ((before.foldl Pl011.perform s).perform (.readChars count)) hcs.2.2).ring _ hread
    have hnil' : q''.items = [] := List.length_eq_zero_iff.1 (Nat.le_zero.1 (hle'.trans hnil.le))
    exact ⟨hq''.inptr_lt, hq''.outptr_lt, hq''.items.trans hnil'⟩
  · -- and the mask has the notification from the call on that enables it
    obtain ⟨c, hc, hask⟩ := hasks
    obtain ⟨before, after, rfl⟩ := List.append_of_mem hc
    rw [List.forall_mem_append, List.forall_mem_cons] at hcs
    rw [List.foldl_append, List.foldl_cons]
    refine (performs _ hcs.2.2).asked (bne_iff_ne.2 ?_)
    cases c with
    | notify c =>
      cases c with
      | enable bits =>
        show ((before.foldl Pl011.perform s).notifier.call .pl011 (.enable bits)).notifyMask &&&
          notifyRxavailable ≠ 0
        rw [(Notifier.call_notifyMask_iff (.enable bits)).2 trivial]
        obtain ⟨j, hj, hhas⟩ := Mask.ne_zero_iff.1 hask
        rw [Mask.has_and] at hhas
        exact Mask.ne_zero_iff.2 ⟨j, hj, Mask.has_and.2 ⟨Mask.has_or.2 (.inr hhas.1), hhas.2⟩⟩
      | disable bits => exact hask.elim
    | readChars count => exact hask.elim
    | flushFifo tx rx => exact hask.elim

end Spared

/-- Octets for which there is space are stored. -/
theorem storeReceived_spares (drs : List UInt64) {s : Pl011} {q : Kfifo UInt8 63}
    (hq : s.rx.Represents q) (hlen : q.len + drs.length ≤ 63) :
    lost (storeReceived drs s).1.trace = lost s.trace ∧
      (∃ q', (storeReceived drs s).1.rx.Represents q' ∧ q'.len ≤ q.len + drs.length) ∧
      (storeReceived drs s).1.notifier = s.notifier ∧
      (storeReceived drs s).1.callbacks = s.callbacks := by
  induction drs generalizing s q with
  | nil => exact ⟨rfl, ⟨q, hq, le_rfl⟩, rfl, rfl⟩
  | cons dr drs ih =>
    rw [List.length_cons] at hlen
    have hact : lost (s.act (.dr dr)).trace = lost s.trace := (Spared.act s rfl).lost
    rw [storeReceived]
    split
    case isTrue => exact ⟨hact, ⟨q, hq, Nat.le_add_right _ _⟩, rfl, rfl⟩
    case isFalse =>
      have hfull : ¬ s.rx.full = true := by
        intro hfull
        have := hq.full_iff.1 hfull
        omega
      have hput : (s.act (.dr dr)).put dr.toUInt8 =
          { s.act (.dr dr) with rx := s.rx.put dr.toUInt8 } := if_neg hfull
      have hput_len : (q.put [dr.toUInt8]).len = q.len + 1 := by
        have hfits : q.items.length + [dr.toUInt8].length ≤ 63 := by
          show q.len + 1 ≤ 63
          omega
        rw [Kfifo.len, Kfifo.put_items_of_le hfits, List.length_append]
        rfl
      obtain ⟨hlost, ⟨q', hq', hle⟩, hnotifier, hcallbacks⟩ :=
        ih (s := (s.act (.dr dr)).put dr.toUInt8) (q := q.put [dr.toUInt8])
          (by rw [hput]; exact hq.put _) (by omega)
      rw [hput] at hlost hnotifier hcallbacks hq' ⊢
      refine ⟨hlost.trans hact, ⟨q', hq', ?_⟩, hnotifier, hcallbacks⟩
      rw [List.length_cons]
      omega

namespace Waits

/-- **The octets of a pass are read.** -/
theorem receive {e : Pass} (h : Waits s) (he : e.Served) : Waits (s.receive e) := by
  obtain ⟨hlost, ⟨q, hq, hle⟩, hnotifier, hcallbacks⟩ :=
    storeReceived_spares e.received h.ring (by
      show 0 + _ ≤ 63
      have := he.fits
      omega)
  have hlen : q.len ≤ e.received.length := hle.trans (Nat.zero_add _).le
  rw [Pl011.receive]
  generalize Pl011.storeReceived e.received s = stored at *
  have htold : Waits (stored.1.tellReceived e) := by
    obtain ⟨count, hcount, hreads⟩ := he.reads
    have hasked : stored.1.notifier.notifies notifyRxavailable = true := hnotifier ▸ h.asked
    have hcallback : stored.1.callbacks .receiverDataAvailable = true := hcallbacks ▸ h.callback
    rw [Pl011.tellReceived, if_pos hasked]
    split
    case isTrue =>
      have hhas : (stored.1.clear notifyRxavailable).has .receiverDataAvailable = true := hcallback
      have hcall : (stored.1.clear notifyRxavailable).call e
            (.receiverDataAvailable stored.1.rx.level) =
          (e.replies .receiverDataAvailable).foldl Pl011.perform
            ((stored.1.clear notifyRxavailable).act
              (.call (.receiverDataAvailable stored.1.rx.level))) := if_pos hhas
      have hact := Spared.act (stored.1.clear notifyRxavailable)
        (a := .call (.receiverDataAvailable stored.1.rx.level)) rfl
      simp only
      rw [if_pos hhas]
      show Waits ((stored.1.clear notifyRxavailable).call e
        (.receiverDataAvailable stored.1.rx.level))
      rw [hcall]
      exact Spared.performs_waits (hact.lost.trans (hlost.trans h.lost)) hq (hlen.trans hcount)
        hcallback (he.keeps _) hreads he.asks
    case isFalse hlevel =>
      rw [hq.level_eq, not_not, Int.natCast_eq_zero] at hlevel
      have hnil : q.items = [] := List.length_eq_zero_iff.1 hlevel
      exact ⟨hlost.trans h.lost, ⟨hq.inptr_lt, hq.outptr_lt, hq.items.trans hnil⟩, hasked, hcallback⟩
  split
  · exact (Spared.callWith _ he.keeps_error _).waits htold
  · exact htold

theorem handleIrq {e : Pass} (h : Waits s) (he : e.Served) : Waits (s.handleIrq e) := by
  have hlsr : Waits (if e.mis &&& misErrors ≠ 0 then s.handleLsr e else s) := by
    split
    · exact (Spared.handleLsr s he.keeps).waits h
    · exact h
  have htx : ∀ {s : Pl011}, Waits s →
      Waits (if e.mis &&& misTx ≠ 0 then
        if s.notifier.notifies notifyTxready then
          (s.clear notifyTxready).call e (.transmitterHasSpace
            (s.clear notifyTxready).notifier.txFifoSize)
        else s
      else s) := by
    intro s h
    split
    · split
      · exact ((Spared.clear s (by decide)).trans (Spared.callWith _ (he.keeps _) _)).waits h
      · exact h
    · exact h
  have hcts : ∀ {s : Pl011}, Waits s →
      Waits (if s.oldInputState ≠ 1 then s.call e (.modemInputChanged 1 1) else s) := by
    intro s h
    split
    · exact (Spared.callWith s (he.keeps _) _).waits h
    · exact h
  have hstate : ∀ {s : Pl011}, Waits s → Waits { s with oldInputState := 1 } :=
    fun h => ⟨h.lost, h.ring, h.asked, h.callback⟩
  rw [Pl011.handleIrq]
  split
  · have hempty := (Spared.handleReceiverEmpty s he.keeps).waits h
    refine (Spared.setNotifier fun hasked => ?_).waits hempty
    rw [Notifier.notifies, Notifier.updateNotification_notifyMask]
    exact hasked
  · simp only
    split
    · exact hlsr.receive he
    · split
      · exact hstate (hcts (htx hlsr))
      · exact htx hlsr

theorem of_step (h : Waits s) {e : Event} (he : e.Served) : Waits (s.step e) := by
  cases e with
  | irq e => exact h.handleIrq he
  | periodicCheck e =>
    rw [Pl011.step, rxemptyTaskHandler]
    split
    · exact ((Spared.handleLsr s he).trans (Spared.handleReceiverEmpty _ he)).waits h
    · exact h
  | client c => exact (Spared.perform s he).waits h

end Waits

/-- **A client that reads all it is told of, and asks again, misses nothing**:
it waits for octets at the start, no pass of the handler finds more than 63,
and none of its calls, from callbacks or at other times, flushes the receiver
or stops asking. Then all octets that came without an error were read, in
order, whatever else happens, if the ring was empty. -/
theorem nothing_lost (s : Pl011) (hs : s.trace = []) (hempty : s.rx.inptr = s.rx.outptr)
    (hlt : s.rx.outptr.toNat < 64) (hasked : s.notifier.notifies notifyRxavailable = true)
    (hcallback : s.callbacks .receiverDataAvailable = true) (es : List Event)
    (hes : ∀ e ∈ es, e.Served) {s' : Pl011} (hrun : run step s es = s') :
    read s'.trace = es.flatMap Event.came := by
  have hrep := RxFifo.represents_empty hempty hlt
  have hstart : Accounted s ∧ Waits s := by
    refine ⟨⟨Kfifo.empty, ?_⟩, ?_, hrep, hasked, hcallback⟩
    · rw [hs]
      exact Accounts.start hempty hlt
    · rw [hs]
      rfl
  obtain ⟨⟨q, hq⟩, hwaits⟩ : Accounted s' ∧ Waits s' := by
    rw [← hrun]
    exact List.foldlRecOn (motive := fun s => Accounted s ∧ Waits s) es step hstart
      fun s h e he => ⟨h.1.of_step e, h.2.of_step (hes e he)⟩
  have hnil : q.items = [] := hq.ring.items.symm.trans hwaits.ring.items
  have hall := hq.all hwaits.lost
  have hcame : received s'.trace = es.flatMap Event.came := by
    rw [← hrun, received_run, hs]
    rfl
  rwa [hnil, List.append_nil, hcame] at hall

/-- What a client does that reads two octets and asks again. -/
def readsTwo : CallbackName → List Call
  | .receiverDataAvailable => [.readChars 2, .notify (.enable 4)]
  | _ => []

theorem served_two : (two readsTwo).Served where
  fits := by decide
  keeps name c hc := by
    cases name with
    | receiverDataAvailable =>
      rcases List.mem_pair.1 hc with rfl | rfl
      · trivial
      · trivial
    | _ => cases hc
  keeps_error _ hc := by cases hc
  reads := ⟨2, le_rfl, List.mem_cons_self⟩
  asks := ⟨.notify (.enable 4), List.mem_pair.2 (.inr rfl), by
    show (4 : UInt64) &&& notifyRxavailable ≠ 0
    decide⟩

/-- Two passes, of which all octets are read. -/
theorem nothing_lost_two :
    read (run step (created 4) [.irq (two readsTwo), .irq (two readsTwo)]).trace = [7, 8, 7, 8] ∧
    read (run step (created 4) [.irq (two readsTwo), .irq (two readsTwo)]).trace =
      [.irq (two readsTwo), .irq (two readsTwo)].flatMap Event.came :=
  ⟨rfl, nothing_lost (created 4) rfl rfl (by decide) rfl rfl
    [.irq (two readsTwo), .irq (two readsTwo)] (by
      intro e he
      rcases List.mem_pair.1 he with rfl | rfl
      · exact served_two
      · exact served_two) rfl⟩

end Pl011

end Uart

end Dmx4Linux2
