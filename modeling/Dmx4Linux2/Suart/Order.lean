import Dmx4Linux2.Common.Run
import Dmx4Linux2.Suart.Model.Handler

/-!
# suart — events are executed in order

`executed_in_order` says what the Readme of the stream UART promises: an
event is executed only after all events before it. It holds for whatever
the line status register says and however the threads that put events
into the tx FIFO and the handler interleave.

Data events are fetched ahead into a buffer of 1024 octets. It does not
overflow because a list of events that the DMX port sends does not start
with data, so that what is fetched at a time is from one list, and a
frame has at most 513 octets.
-/

namespace Dmx4Linux2

namespace Suart

variable {e : Event} {es es' : List Event} {n : ℕ}

/-! ## What the events are to do -/

/-- What an event does when it is executed by itself. -/
def Event.effects (e : Event) : List Effect :=
  match e.octets with
  | some octets => octets.map .writeThr
  | none => e.control

/-- The octets of the data events. -/
def dataOctets (es : List Event) : List UInt8 := es.flatMap fun e => e.octets.getD []

@[simp] theorem dataOctets_nil : dataOctets [] = [] := rfl

@[simp] theorem dataOctets_cons : dataOctets (e :: es) = e.octets.getD [] ++ dataOctets es := rfl

@[simp] theorem dataOctets_append : dataOctets (es ++ es') = dataOctets es ++ dataOctets es' :=
  List.flatMap_append

/-- The events of a block of data are that data. -/
theorem dataOctets_inlineEvents (octets : List UInt8) :
    dataOctets (inlineEvents octets) = octets := by
  fun_induction inlineEvents octets with
  | case1 => rfl
  | case2 b bs ih =>
    rw [dataOctets_cons, ih]
    exact List.take_append_drop ..

/-- How many octets the data events in front of the first other event
have. -/
def lead : List Event → ℕ
  | [] => 0
  | e :: es =>
    match e.octets with
    | some octets => octets.length + lead es
    | none => 0

/-- **No more than the buffer holds is fetched at a time**, wherever in
the list the handler is. -/
def Bounded : List Event → Prop
  | [] => True
  | e :: es => lead (e :: es) ≤ 1024 ∧ Bounded es

theorem lead_cons_of_some {octets : List UInt8} (he : e.octets = some octets) :
    lead (e :: es) = octets.length + lead es := by
  simp only [lead, he]

theorem lead_cons_of_none (he : e.octets = none) : lead (e :: es) = 0 := by
  simp only [lead, he]

theorem Bounded.lead_le (h : Bounded es) : lead es ≤ 1024 := by
  cases es with
  | nil => exact Nat.zero_le _
  | cons e es => exact h.1

/-- What is appended is not fetched with what is there, if it does not
start with data. -/
theorem lead_append (hlead : lead es' = 0) : lead (es ++ es') = lead es := by
  induction es with
  | nil => exact hlead
  | cons e es ih =>
    rw [List.cons_append]
    cases he : e.octets with
    | none => rw [lead_cons_of_none he, lead_cons_of_none he]
    | some octets => rw [lead_cons_of_some he, lead_cons_of_some he, ih]

theorem Bounded.append (h : Bounded es) (h' : Bounded es') (hlead : lead es' = 0) :
    Bounded (es ++ es') := by
  induction es with
  | nil => exact h'
  | cons e es ih =>
    have hkeep : lead (e :: es ++ es') = lead (e :: es) := lead_append hlead
    exact ⟨hkeep.trans_le h.1, ih h.2⟩

theorem lead_le_length (es : List Event) : lead es ≤ (dataOctets es).length := by
  induction es with
  | nil => exact Nat.zero_le _
  | cons e es ih =>
    cases he : e.octets with
    | none =>
      rw [lead_cons_of_none he]
      omega
    | some octets =>
      rw [lead_cons_of_some he, dataOctets_cons, he, Option.getD_some, List.length_append]
      omega

/-- Events with little data in all are bounded. -/
theorem bounded_of_length (h : (dataOctets es).length ≤ 1024) : Bounded es := by
  induction es with
  | nil => trivial
  | cons e es ih =>
    have hlead := lead_le_length (e :: es)
    rw [dataOctets_cons, List.length_append] at h
    refine ⟨?_, ih (by omega)⟩
    rw [dataOctets_cons, List.length_append] at hlead
    omega

theorem length_dataOctets_take_le (k : ℕ) (es : List Event) :
    (dataOctets (es.take k)).length ≤ (dataOctets es).length := by
  have hsplit := congrArg (fun l => (dataOctets l).length) (List.take_append_drop k es)
  simp only [dataOctets_append, List.length_append] at hsplit
  omega

theorem lead_take (k : ℕ) (hlead : lead es = 0) : lead (es.take k) = 0 := by
  induction es generalizing k with
  | nil => simpa using hlead
  | cons e es ih =>
    cases k with
    | zero => rfl
    | succ k =>
      rw [List.take_succ_cons]
      cases he : e.octets with
      | none => exact lead_cons_of_none he
      | some octets =>
        rw [lead_cons_of_some he] at hlead ⊢
        rw [ih k (by omega)]
        omega

/-! ## What the DMX port sends -/

/-- The lists of events the DMX port puts into the tx FIFO: those of a
frame, which the card gives it only if it is no longer than 513 octets,
those that initialise the port, and those that change DTR. -/
inductive Built : List Event → Prop
  | frame {maxevents : ℕ} {flags : UInt32} {dmxdata : Mem} {payloadCount : ℕ} {es : List Event}
      (hcount : payloadCount ≤ 513)
      (hcreate : createFrame maxevents flags dmxdata payloadCount = some es) : Built es
  | init : Built sendInitEvents
  | dtr (value : Bool) : Built (setDtr value)

theorem length_encodeDiscoverReply (dmxdata : Mem) : (encodeDiscoverReply dmxdata).length = 24 := by
  simp [encodeDiscoverReply, Rtuart.encodeByte, Mem.read, List.range_succ]

theorem frameEvents_eq_some {maxevents : ℕ} {start : List Event} {octets : List UInt8}
    (h : frameEvents maxevents start octets = some es) :
    es = [.disableRx, .enableTx, .changeLine lineRts lineRts] ++ start ++ inlineEvents octets ++
      [.changeLine lineRts 0, .disableTx, .enableRx, .echo 1] := by
  unfold frameEvents eventDataInline at h
  by_cases hmax : (octets.length + 6) / octetsPerInlineDataChunk > maxevents - 13
  · rw [if_pos hmax] at h
    exact absurd h (by simp)
  · rw [if_neg hmax] at h
    split at h
    case h_1 heq => exact absurd heq (by simp)
    case h_2 => exact absurd h (by simp)
    case h_3 events _ heq =>
      rw [Option.some.inj heq]
      exact (Option.some.inj h).symm

/-- The events of a frame. -/
theorem createFrame_eq_some {maxevents payloadCount : ℕ} {flags : UInt32} {dmxdata : Mem}
    (h : createFrame maxevents flags dmxdata payloadCount = some es) :
    ∃ start octets, frameEvents maxevents start octets = some es ∧
      (start = [] ∨ start = breakEvents) ∧
      (octets = encodeDiscoverReply dmxdata ∨ octets = dmxdata.read 0 payloadCount) := by
  unfold createFrame at h
  split at h
  case isTrue => exact absurd h (by simp)
  case isFalse =>
    split at h
    case isTrue => exact ⟨_, _, h, Or.inl rfl, Or.inl rfl⟩
    case isFalse =>
      refine ⟨_, _, h, ?_, Or.inr rfl⟩
      split
      · exact Or.inr rfl
      · exact Or.inl rfl

/-- **What the port sends does not start with data and fits into the
buffer.** -/
theorem Built.fits (h : Built es) : lead es = 0 ∧ (dataOctets es).length ≤ 1024 := by
  cases h with
  | frame hcount hcreate =>
    obtain ⟨start, octets, hevents, hstart, hoctets⟩ := createFrame_eq_some hcreate
    rw [frameEvents_eq_some hevents]
    refine ⟨rfl, ?_⟩
    have hlength : octets.length ≤ 513 := by
      rcases hoctets with rfl | rfl
      · rw [length_encodeDiscoverReply]
        omega
      · rw [Mem.length_read]
        exact hcount
    have hbreak : (dataOctets start).length ≤ 1 := by
      rcases hstart with rfl | rfl
      · simp
      · decide
    simp only [dataOctets_append, List.length_append, dataOctets_inlineEvents]
    have hfront : (dataOctets [.disableRx, .enableTx, .changeLine lineRts lineRts]).length = 0 := rfl
    have hback :
        (dataOctets [.changeLine lineRts 0, .disableTx, .enableRx, .echo 1]).length = 0 := rfl
    omega
  | init => exact ⟨rfl, by decide⟩
  | dtr value => exact ⟨rfl, Nat.zero_le _⟩

/-! ## Traces -/

/-- The effect, if there is one. -/
def Access.effect? : Access → Option Effect
  | .readLsr _ => none
  | .effect x => some x

/-- The octet, if it is a write to the THR. -/
def Effect.octet? : Effect → Option UInt8
  | .writeThr octet => some octet
  | _ => none

variable {trace : List Access} {x : Effect} {xs : List Effect} {a : Access}

/-- **The transmitter is empty**: it was read as such, and nothing was
written to the THR since. -/
def Quiet (trace : List Access) : Prop :=
  ∃ before lsr after, trace = before ++ .readLsr lsr :: after ∧
    lsr &&& lsrTransmitterEmpty ≠ 0 ∧ ∀ octet, .effect (.writeThr octet) ∉ after

/-- **Whatever is no data takes effect only when the transmitter is
empty.** -/
def Waits (trace : List Access) : Prop :=
  ∀ before x after, trace = before ++ .effect x :: after → x.octet? = none → Quiet before

theorem octet?_eq_none : x.octet? = none ↔ ∀ octet, x ≠ .writeThr octet := by
  cases x <;> simp [Effect.octet?]

theorem Quiet.concat (h : Quiet trace) (ha : ∀ octet, a ≠ .effect (.writeThr octet)) :
    Quiet (trace ++ [a]) := by
  obtain ⟨before, lsr, after, rfl, hlsr, hafter⟩ := h
  refine ⟨before, lsr, after ++ [a], by simp, hlsr, fun octet hmem => ?_⟩
  rcases List.mem_append.1 hmem with hold | hnew
  · exact hafter octet hold
  · exact ha octet (List.mem_singleton.1 hnew).symm

theorem quiet_readLsr {lsr : UInt8} (hlsr : lsr &&& lsrTransmitterEmpty ≠ 0) :
    Quiet (trace ++ [.readLsr lsr]) :=
  ⟨trace, lsr, [], rfl, hlsr, by simp⟩

theorem Waits.concat (h : Waits trace)
    (ha : ∀ x, a = .effect x → x.octet? = none → Quiet trace) : Waits (trace ++ [a]) := by
  intro before x after heq hx
  -- the effect is the new access, or it was there before
  rcases List.eq_nil_or_concat after with rfl | ⟨after', a', rfl⟩
  · obtain ⟨rfl, hlast⟩ := List.append_inj' heq rfl
    exact ha x (List.singleton_inj.1 hlast) hx
  · have heq' : trace ++ [a] = (before ++ .effect x :: after') ++ [a'] := by
      rw [heq]
      simp
    exact h before x after' (List.append_inj' heq' rfl).1 hx

theorem Waits.readLsr (h : Waits trace) (lsr : UInt8) : Waits (trace ++ [.readLsr lsr]) :=
  h.concat (by simp)

/-- Octets are written to the THR. -/
theorem Waits.writeThr (h : Waits trace) (octets : List UInt8) :
    Waits (trace ++ (octets.map Effect.writeThr).map .effect) := by
  induction octets generalizing trace with
  | nil => simpa using h
  | cons octet octets ih =>
    -- a write to the THR waits for nothing
    have hfirst : Waits (trace ++ [.effect (.writeThr octet)]) := by
      refine h.concat fun x hx hnone => ?_
      rw [← Access.effect.inj hx] at hnone
      exact absurd hnone (by simp [Effect.octet?])
    simpa using ih hfirst

/-- Something else takes effect while the transmitter is empty. -/
theorem Waits.control (h : Waits trace) (hquiet : Quiet trace)
    (hxs : ∀ x ∈ xs, x.octet? = none) :
    Waits (trace ++ xs.map .effect) ∧ Quiet (trace ++ xs.map .effect) := by
  induction xs generalizing trace with
  | nil => simpa using ⟨h, hquiet⟩
  | cons x xs ih =>
    have hx : ∀ octet, Access.effect x ≠ .effect (.writeThr octet) := by
      intro octet heq
      exact octet?_eq_none.1 (hxs x List.mem_cons_self) octet (Access.effect.inj heq)
    have hrest := ih (h.concat fun _ _ _ => hquiet) (hquiet.concat hx)
      fun x' hx' => hxs x' (List.mem_cons_of_mem x hx')
    simpa using hrest

theorem control_octet? (e : Event) : ∀ x ∈ e.control, x.octet? = none := by
  cases e <;>
    simp only [Event.control, List.forall_mem_cons, List.not_mem_nil, false_imp_iff, implies_true,
      Effect.octet?, and_self]

theorem effects_octet? (e : Event) : e.effects.filterMap Effect.octet? = e.octets.getD [] := by
  unfold Event.effects
  cases he : e.octets with
  | none =>
    simp only [Option.getD_none, List.filterMap_eq_nil_iff]
    exact control_octet? e
  | some octets =>
    simp only [Option.getD_some, List.filterMap_map]
    exact List.filterMap_some ..

/-! ## Runs -/

/-- A list of events that the DMX port sends. -/
structure Request where
  events : List Event
  built : Built events

/-- What happens: a thread puts the events of a request into the tx FIFO,
or the handler goes on. -/
inductive Act
  | put (r : Request)
  | handle (lsr : UInt8)

namespace Handler

variable {h : Handler}

def step (h : Handler) : Act → Handler
  | .put r => h.putTxevents r.events
  | .handle lsr => h.handleAllPendingEvents lsr

/-- What was done to the registers. -/
def effects (h : Handler) : List Effect := h.trace.filterMap Access.effect?

/-- The octets that were written to the THR. -/
def written (h : Handler) : List UInt8 := h.effects.filterMap Effect.octet?

/-- What is done next: to write the octets in the buffer, and to execute
the events in the tx FIFO. -/
def pending (h : Handler) : List Effect :=
  h.txbuffer.items.map .writeThr ++ h.txfifo.items.flatMap Event.effects

/-- **The events are executed in order**: what was done is a first part
of what the events that were accepted do one after the other; each octet
was written to the THR or will be, once; and nothing else took effect
before the transmitter was empty. -/
structure InOrder (h : Handler) : Prop where
  executed : h.effects <+: h.accepted.flatMap Event.effects
  once : h.written ++ (h.txbuffer.items ++ dataOctets h.txfifo.items) = dataOctets h.accepted
  waits : Waits h.trace

/-- The invariant: what was done and what is pending are what the
accepted events do, and what will be fetched fits into the buffer. -/
structure Executes (h : Handler) : Prop where
  all : h.effects ++ h.pending = h.accepted.flatMap Event.effects
  waits : Waits h.trace
  bounded : Bounded h.txfifo.items
  room : h.txbuffer.items.length + lead h.txfifo.items ≤ 1024
  drained : h.place = .wait ∨ h.place = .loop → h.txbuffer.items = []
  quiet : h.place = .loop → Quiet h.trace

theorem Executes.init : Executes init := by
  refine ⟨rfl, ?_, trivial, Nat.zero_le _, fun _ => rfl, by simp [Handler.init]⟩
  intro before x after heq
  exact absurd heq (by simp [Handler.init])

theorem Executes.inOrder (hex : Executes h) : InOrder h := by
  refine ⟨⟨h.pending, hex.all⟩, ?_, hex.waits⟩
  have hoctets : ∀ es : List Event,
      (es.flatMap Event.effects).filterMap Effect.octet? = dataOctets es := by
    intro es
    simp only [List.filterMap_flatMap, effects_octet?]
    rfl
  have hall := congrArg (List.filterMap Effect.octet?) hex.all
  rw [hoctets, List.filterMap_append, pending, List.filterMap_append, hoctets,
    List.filterMap_map] at hall
  rw [← hall]
  congr 2
  exact (List.filterMap_some ..).symm

/-! ## The steps keep the order -/

theorem effects_perform (h : Handler) (xs : List Effect) :
    (h.perform xs).effects = h.effects ++ xs := by
  simp only [effects, perform, List.filterMap_append, List.filterMap_map]
  congr 1
  exact List.filterMap_some ..

theorem effects_readLsr (h : Handler) (lsr : UInt8) : (h.readLsr lsr).effects = h.effects := by
  simp only [effects, Handler.readLsr, List.filterMap_append, List.filterMap_cons,
    List.filterMap_nil, Access.effect?, List.append_nil]

theorem Executes.putTxevents (hex : Executes h) (r : Request) :
    Executes (h.putTxevents r.events) := by
  obtain ⟨hlead, hlength⟩ := r.built.fits
  have htake := length_dataOctets_take_le h.txfifo.avail r.events
  have hlead' := lead_take h.txfifo.avail hlead
  refine ⟨?_, hex.waits, ?_, ?_, hex.drained, hex.quiet⟩
  · have hall := hex.all
    simp only [pending] at hall
    simp only [Handler.putTxevents, pending, effects, Kfifo.put_items, List.flatMap_append, ← hall,
      List.append_assoc]
  · -- what is appended starts a new run of data, so that no run gets longer
    exact hex.bounded.append (bounded_of_length (by omega)) hlead'
  · have hroom := hex.room
    simp only [Handler.putTxevents, Kfifo.put_items]
    rw [lead_append hlead']
    exact hroom

/-- The handler goes to a place where nothing is asked for. -/
theorem Executes.goto (hex : Executes h) {place : Place}
    (hplace : ¬ (place = .wait ∨ place = .loop)) : Executes { h with place := place } :=
  ⟨hex.all, hex.waits, hex.bounded, hex.room, fun hp => absurd hp hplace,
    fun hp => absurd (Or.inr hp) hplace⟩

/-- The line status register is read while there is nothing to write. -/
theorem Executes.readLsr (hex : Executes h) (hbuffer : h.txbuffer.items = []) {lsr : UInt8}
    {place : Place} (hplace : place = .loop → lsr &&& lsrTransmitterEmpty ≠ 0) :
    Executes { h.readLsr lsr with place := place } := by
  refine ⟨?_, hex.waits.readLsr lsr, hex.bounded, hex.room, fun _ => hbuffer,
    fun hp => quiet_readLsr (hplace hp)⟩
  exact (congrArg (· ++ h.pending) (effects_readLsr h lsr)).trans hex.all

section Front

variable {rest : List Event} (hitems : h.txfifo.items = e :: rest)

include hitems

theorem getTxevent_items : h.getTxevent.txfifo.items = rest := by
  simp [getTxevent, Kfifo.out, hitems]

/-- The data event in front is put into the buffer, where there is room
for it. -/
theorem Executes.buffer (hex : Executes h) {octets : List UInt8} (he : e.octets = some octets) :
    Executes { h.getTxevent.buffer octets with place := .fetch } := by
  have hrest := getTxevent_items hitems
  have hroom := hex.room
  rw [hitems, lead_cons_of_some he] at hroom
  have hbuffer : (h.getTxevent.txbuffer.put octets).items = h.txbuffer.items ++ octets :=
    Kfifo.put_items_of_le (f := h.txbuffer) (by omega)
  refine ⟨?_, hex.waits, ?_, ?_, by simp, by simp⟩
  · -- the octets are pending before and after, in the tx FIFO and then in the buffer
    have hall := hex.all
    have heffects : e.effects = octets.map .writeThr := by simp only [Event.effects, he]
    simp only [pending, hitems, List.flatMap_cons, heffects] at hall
    simp only [pending, Handler.buffer, hbuffer, hrest, List.map_append, List.append_assoc]
    exact hall
  · have hbounded := hex.bounded
    rw [hitems] at hbounded
    simp only [Handler.buffer, hrest]
    exact hbounded.2
  · simp only [Handler.buffer, hrest, hbuffer, List.length_append]
    omega

/-- Another event in front is executed. -/
theorem Executes.control (hex : Executes h) (hplace : h.place = .loop) (he : e.octets = none) :
    Executes (h.getTxevent.perform e.control) := by
  have hrest := getTxevent_items hitems
  have hbuffer := hex.drained (Or.inr hplace)
  obtain ⟨hwaits, hquiet⟩ := hex.waits.control (hex.quiet hplace) (control_octet? e)
  have hbounded := hex.bounded
  rw [hitems] at hbounded
  refine ⟨?_, hwaits, ?_, ?_, fun _ => hbuffer, fun _ => hquiet⟩
  · -- the buffer is empty, so that the event is the first thing that is pending
    have hall := hex.all
    have heffects : e.effects = e.control := by simp only [Event.effects, he]
    have hperform : (h.getTxevent.perform e.control).effects = h.effects ++ e.control :=
      effects_perform h.getTxevent e.control
    have hpending : (h.getTxevent.perform e.control).pending = rest.flatMap Event.effects := by
      simp only [pending, perform, hrest]
      simp [getTxevent, hbuffer]
    rw [hperform, hpending]
    simp only [pending, hitems, hbuffer, List.map_nil, List.nil_append, List.flatMap_cons,
      heffects] at hall
    rw [List.append_assoc]
    exact hall
  · simp only [perform, hrest]
    exact hbounded.2
  · have hnone : h.getTxevent.txbuffer.items = [] := hbuffer
    simp only [hnone, perform, hrest, List.length_nil, Nat.zero_add]
    exact hbounded.2.lead_le

end Front

theorem Executes.transmit (hex : Executes h) (lsr : UInt8) :
    Executes (h.transmitAsMuchAsPossible lsr) := by
  unfold transmitAsMuchAsPossible
  split
  case isFalse => exact hex.goto (by simp)
  case isTrue =>
    have hsplit : h.txbuffer.items.map Effect.writeThr =
        (h.txbuffer.items.take (space lsr)).map .writeThr ++
          (h.txbuffer.items.drop (space lsr)).map .writeThr := by
      rw [← List.map_append, List.take_append_drop]
    refine ⟨?_, (hex.waits.readLsr lsr).writeThr _, hex.bounded, ?_, by simp, by simp⟩
    · have hall := hex.all
      rw [pending, hsplit, List.append_assoc, ← List.append_assoc] at hall
      refine Eq.trans (congrArg (· ++ _) ?_) hall
      refine (effects_perform _ _).trans ?_
      rw [effects_readLsr]
      rfl
    · have hroom := hex.room
      simp only [perform, Handler.readLsr, Kfifo.out, List.length_drop]
      omega

theorem peek_eq_some {f : Kfifo Event n} (h : f.peek = some e) : ∃ rest, f.items = e :: rest :=
  List.head?_eq_some_iff.1 h

theorem Executes.fetch (hex : Executes h) (hplace : h.place = .fetch) :
    Executes h.fetchAsMuchDataEventsAsPossible := by
  unfold fetchAsMuchDataEventsAsPossible
  split
  case h_2 => exact hex.goto (by simp)
  case h_1 octets hpeek =>
    obtain ⟨e, hfront, he⟩ := Option.bind_eq_some_iff.1 hpeek
    obtain ⟨rest, hitems⟩ := peek_eq_some hfront
    have hbuffer := hex.buffer hitems he
    rw [← hplace] at hbuffer
    exact hbuffer

/-- The handler takes the next event in its loop. -/
theorem Executes.loop (hex : Executes h) (hplace : h.place = .loop) (lsr : UInt8) :
    Executes (h.handleAllPendingEvents lsr) := by
  simp only [handleAllPendingEvents, hplace]
  split
  case h_1 => exact hex.goto (by simp)
  case h_2 hfront =>
    obtain ⟨rest, hitems⟩ := peek_eq_some hfront
    have hstopped : Executes { h.getTxevent.perform [] with place := .stopped } :=
      (hex.control hitems hplace rfl).goto (by simp)
    simpa [perform] using hstopped
  case h_3 e _ hfront =>
    obtain ⟨rest, hitems⟩ := peek_eq_some hfront
    cases he : e.octets with
    | some octets => exact hex.buffer hitems he
    | none => exact hex.control hitems hplace he

/-- **Every step keeps the order.** -/
theorem Executes.step (hex : Executes h) (act : Act) : Executes (h.step act) := by
  cases act with
  | put r => exact hex.putTxevents r
  | handle lsr =>
    simp only [Handler.step]
    cases hplace : h.place with
    | loop => exact hex.loop hplace lsr
    | fetch =>
      simp only [handleAllPendingEvents, hplace]
      exact hex.fetch hplace
    | transmit =>
      simp only [handleAllPendingEvents, hplace]
      exact hex.transmit lsr
    | stopped =>
      simp only [handleAllPendingEvents, hplace]
      exact hex
    | wait =>
      simp only [handleAllPendingEvents, hplace]
      refine hex.readLsr (hex.drained (Or.inl hplace)) fun hloop hempty => ?_
      simp [hempty] at hloop
    | call =>
      simp only [handleAllPendingEvents, hplace]
      split
      case isTrue => exact hex.goto (by simp)
      case isFalse hlen =>
        have hbuffer : h.txbuffer.items = [] := by
          refine List.length_eq_zero_iff.1 ?_
          unfold Kfifo.len at hlen
          omega
        -- the loop over the events is entered only with the transmitter empty
        refine hex.readLsr hbuffer fun hloop hempty => ?_
        simp [hempty] at hloop
        split at hloop <;> simp at hloop

end Handler

end Suart

end Dmx4Linux2
