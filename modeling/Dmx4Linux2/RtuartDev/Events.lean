import Dmx4Linux2.Common.Linked
import Dmx4Linux2.Common.Run
import Dmx4Linux2.RtuartDev.Model.Device

/-!
# rtuart_dev — the events that are read

The list from `event_head` on is a queue: the callbacks of the driver append
to it, a reader takes the first, and what is allocated is what is in it
(`Queued`). So whatever requests and passes come in whatever order, the
readers are given the events of the callbacks in their order, each once and
none left out (`events_in_order`).
-/

namespace Dmx4Linux2

namespace RtuartDev

open Dmxrtuart (Pl011)
open Dmxrtuart.Pc16c550 (Callback)

namespace Device

variable {s : Device} {qs : List ℕ} {e : ℕ} {ev : Event}

/-! ## The queue -/

/-- **The entries `qs` are in the list**, and they are all there are. -/
structure Queued (s : Device) (qs : List ℕ) : Prop where
  linked : Linked Cell.next s.cells .eventHead qs
  nodup : qs.Nodup
  tail : s.eventTail = qs.getLast?
  entries : ∀ q, (s.entries q).isSome ↔ q ∈ qs

/-- The events in the list. -/
def contents (s : Device) (qs : List ℕ) : List ReadEvent := qs.filterMap s.entries

theorem next_injective : Function.Injective Cell.next := fun _ _ h => Cell.next.inj h

theorem next_ne_eventHead (q : ℕ) : Cell.next q ≠ .eventHead := by simp

theorem queued_create (garbage : Pl011) : Queued (create garbage) [] :=
  ⟨rfl, List.nodup_nil, rfl, by simp [create]⟩

/-- **A callback appends its event.** -/
theorem Queued.callback (h : Queued s qs) (cb : Callback) (hfree : s.entries e = none) :
    Queued (s.callback cb (some e)) (qs ++ [e]) ∧
      (s.callback cb (some e)).contents (qs ++ [e]) = s.contents qs ++ [eventOf cb] := by
  have hnew : e ∉ qs := by
    rw [← h.entries, hfree]
    simp
  have hother : ∀ q ∈ qs, q ≠ e := fun q hq heq => hnew (heq ▸ hq)
  have hclear : Linked Cell.next (Function.update s.cells (.next e) none) .eventHead qs :=
    h.linked.update_of_ne (by simp) (fun q hq heq => hother q hq (next_injective heq)) none
  refine ⟨⟨?_, ?_, ?_, ?_⟩, ?_⟩
  · rcases List.eq_nil_or_concat qs with rfl | ⟨init, t, rfl⟩
    · -- the list is empty, and `event_head` is written
      have htail : s.eventTail = none := h.tail
      have hhead : Function.update s.cells (.next e) none .eventHead = none := hclear
      show Linked Cell.next ((s.callback cb (some e)).cells) .eventHead [e]
      simp only [Device.callback, addEvent, htail, Option.elim_none, hhead, if_true]
      refine ⟨Function.update_self .., ?_⟩
      exact (Function.update_of_ne (next_ne_eventHead e) _ _).trans (Function.update_self ..)
    · -- the last entry is written
      rw [List.concat_eq_append] at *
      have htail : s.eventTail = some t := by rw [h.tail, List.getLast?_concat]
      have happend := (hclear.append (t := e) next_injective h.nodup
        (fun q _ => next_ne_eventHead q) [e])
      rw [endCell_concat] at happend
      have hne : Cell.next e ≠ .next t := fun heq =>
        hother t (by simp) (next_injective heq).symm
      have hlinked := happend.2
        ⟨Function.update_self .., (Function.update_of_ne hne _ _).trans (Function.update_self ..)⟩
      have hhead : Function.update (Function.update s.cells (.next e) none) (.next t) (some e)
          .eventHead ≠ none := by
        cases init with
        | nil => exact fun hnone => absurd (hlinked.1.symm.trans hnone) (by simp)
        | cons u init => exact fun hnone => absurd (hlinked.1.symm.trans hnone) (by simp)
      show Linked Cell.next ((s.callback cb (some e)).cells) .eventHead (init ++ [t] ++ [e])
      simp only [Device.callback, addEvent, htail, Option.elim_some, if_neg hhead]
      exact hlinked
  · exact List.nodup_append.2 ⟨h.nodup, by simp, by simpa using hother⟩
  · rw [List.getLast?_concat]
    rfl
  · intro q
    simp only [Device.callback, addEvent, List.mem_append, List.mem_singleton]
    by_cases hq : q = e
    · subst hq
      simp
    · rw [Function.update_of_ne hq, h.entries]
      simp [hq]
  · have hkept : qs.filterMap (Function.update s.entries e (some (eventOf cb))) =
        qs.filterMap s.entries :=
      List.filterMap_congr fun q hq => Function.update_of_ne (hother q hq) _ _
    simp [contents, Device.callback, addEvent, List.filterMap_append, hkept]

/-- **A reader takes the first event**, and its entry is freed. -/
theorem Queued.getEvent (h : Queued s (e :: qs)) :
    ∃ event t, s.entries e = some event ∧ s.getEvent = (some e, t) ∧
      Queued { t with entries := Function.update t.entries e none } qs ∧
      s.contents (e :: qs) =
        event :: contents { t with entries := Function.update t.entries e none } qs := by
  obtain ⟨event, hevent⟩ : ∃ event, s.entries e = some event :=
    Option.isSome_iff_exists.1 ((h.entries e).2 (List.mem_cons_self ..))
  have hfirst : e ∉ qs := (List.nodup_cons.1 h.nodup).1
  have hlinked := h.linked.unlink fun q _ => next_ne_eventHead q
  refine ⟨event, _, hevent, by rw [Device.getEvent, h.linked.1], ⟨hlinked, ?_, ?_, ?_⟩, ?_⟩
  · exact (List.nodup_cons.1 h.nodup).2
  · cases qs with
    | nil =>
      have hbehind : s.cells (.next e) = none := h.linked.2
      simp [hbehind]
    | cons q qs =>
      have hbehind : s.cells (.next e) = some q := h.linked.2.1
      simp [hbehind, h.tail, List.getLast?_cons]
  · intro q
    by_cases hq : q = e
    · subst hq
      simp [hfirst]
    · simp [h.entries, hq]
  · have hkept : qs.filterMap (Function.update s.entries e none) = qs.filterMap s.entries := by
      refine List.filterMap_congr fun q hq => Function.update_of_ne ?_ _ _
      rintro rfl
      exact hfirst hq
    rw [contents, contents, List.filterMap_cons_some hevent, hkept]

/-- What `malloc` returned is not in use, and it is not returned twice. -/
def Unused (s : Device) (ms : List (Option ℕ)) : Prop :=
  (ms.filterMap id).Nodup ∧ ∀ e, some e ∈ ms → s.entries e = none

/-- The events of some callbacks, but for those there was no memory for. -/
def eventsOf (cbs : List (Callback × Option ℕ)) : List ReadEvent :=
  cbs.filterMap fun cb => cb.2.map fun _ => eventOf cb.1

theorem Queued.callbacks (h : Queued s qs) (cbs : List (Callback × Option ℕ))
    (hfree : s.Unused (cbs.map Prod.snd)) :
    ∃ new, Queued (s.callbacks cbs) (qs ++ new) ∧
      (s.callbacks cbs).contents (qs ++ new) = s.contents qs ++ eventsOf cbs := by
  induction cbs generalizing s qs with
  | nil => exact ⟨[], by simpa [Device.callbacks] using h, by simp [Device.callbacks, eventsOf]⟩
  | cons cb cbs ih =>
    obtain ⟨cb, m⟩ := cb
    obtain ⟨hnodup, hunused⟩ := hfree
    cases m with
    | none => exact ih h ⟨hnodup, fun e he => hunused e (List.mem_cons_of_mem _ he)⟩
    | some e =>
      obtain ⟨hq, hcontents⟩ := h.callback cb (hunused e (List.mem_cons_self ..))
      have hnodup' : (e :: (cbs.map Prod.snd).filterMap id).Nodup := hnodup
      have hrest : (s.callback cb (some e)).Unused (cbs.map Prod.snd) := by
        refine ⟨(List.nodup_cons.1 hnodup').2, fun e' he' => ?_⟩
        have hne : e' ≠ e := by
          rintro rfl
          exact (List.nodup_cons.1 hnodup').1 (List.mem_filterMap.2 ⟨some e', he', rfl⟩)
        exact (Function.update_of_ne hne _ _).trans (hunused e' (List.mem_cons_of_mem _ he'))
      obtain ⟨new, hnew, hall⟩ := ih hq hrest
      refine ⟨e :: new, by simpa [Device.callbacks] using hnew, ?_⟩
      rw [List.append_cons, Device.callbacks, hall, hcontents]
      simp [eventsOf]

/-! ## Runs -/

/-- **What `malloc` returns** in a pass is not in use. -/
def Fresh (s : Device) : Event → Prop
  | .pass _ _ _ _ _ mallocs => s.Unused mallocs
  | _ => True

/-- The events of the callbacks of a pass. -/
def toldBy (s : Device) : Event → List ReadEvent
  | .pass mis txEmpty txBusy received rooms mallocs =>
    let uart := s.uart.step ⟨mis, txEmpty, txBusy, received, rooms, fun _ => []⟩
    eventsOf ((calls (uart.trace.drop s.uart.trace.length)).zip mallocs)
  | _ => []

def told (s : Device) (ev : Event) : List ReadEvent := if s.dead then [] else s.toldBy ev

/-- The events among some replies. -/
def eventsRead (rs : List (Option Reply)) : List ReadEvent :=
  rs.filterMap fun
    | some (.event e) => some e
    | _ => none

theorem Queued.of_eq {t : Device} (h : Queued s qs) (hcells : t.cells = s.cells)
    (hentries : t.entries = s.entries) (htail : t.eventTail = s.eventTail) :
    Queued t qs ∧ t.contents qs = s.contents qs :=
  ⟨⟨hcells ▸ h.linked, h.nodup, htail.trans h.tail, hentries ▸ h.entries⟩,
    by rw [contents, contents, hentries]⟩

theorem Unused.zip {ms : List (Option ℕ)} (h : s.Unused ms) (cbs : List Callback) :
    s.Unused ((cbs.zip ms).map Prod.snd) := by
  have htaken : (cbs.zip ms).map Prod.snd <+: ms := by
    clear h
    induction cbs generalizing ms with
    | nil => exact List.nil_prefix
    | cons cb cbs ih =>
      cases ms with
      | nil => exact List.nil_prefix
      | cons m ms => exact List.cons_prefix_cons.2 ⟨rfl, ih⟩
  refine ⟨h.1.sublist (htaken.sublist.filterMap id), fun e he => h.2 e (htaken.subset he)⟩

theorem callbacks_uart (s : Device) (cbs : List (Callback × Option ℕ)) :
    (s.callbacks cbs).uart = s.uart := by
  induction cbs generalizing s with
  | nil => rfl
  | cons cb cbs ih =>
    obtain ⟨cb, m⟩ := cb
    rw [Device.callbacks, ih]
    cases m <;> rfl

/-- What leaves the queue alone. -/
theorem Queued.quiet (h : Queued s qs) {t : Device} (hcells : t.cells = s.cells)
    (hentries : t.entries = s.entries) (htail : t.eventTail = s.eventTail) :
    ∃ qs', Queued t qs' ∧ s.contents qs ++ [] = [] ++ t.contents qs' := by
  obtain ⟨hq, hcontents⟩ := h.of_eq hcells hentries htail
  exact ⟨qs, hq, by rw [hcontents, List.append_nil, List.nil_append]⟩

/-- **What a live device does to the queue.** -/
theorem Queued.serve (h : Queued s qs) (hfresh : s.Fresh ev) :
    ∃ qs', Queued (s.serve ev) qs' ∧
      s.contents qs ++ s.toldBy ev = eventsRead [s.answer ev] ++ (s.serve ev).contents qs' := by
  cases ev with
  | «open» => exact h.quiet rfl rfl rfl
  | read =>
    cases qs with
    | nil =>
      have hempty : s.cells .eventHead = none := h.linked
      have hserve : s.serve .read = s := by simp [Device.serve, Device.getEvent, hempty]
      have hanswer : s.answer .read = some .nothing := by simp [answer, hempty]
      rw [hserve, hanswer]
      exact h.quiet rfl rfl rfl
    | cons e qs =>
      obtain ⟨event, t, hevent, hget, hq, hcontents⟩ := h.getEvent
      have hserve : s.serve .read = { t with entries := Function.update t.entries e none } := by
        rw [Device.serve, hget]
      have hanswer : s.answer .read = some (.event event) := by
        have hhead : s.cells .eventHead = some e := h.linked.1
        simp [answer, hhead, hevent]
      rw [hserve, hanswer]
      have htold : s.toldBy .read = [] := rfl
      exact ⟨qs, hq, by rw [hcontents, htold, List.append_nil]; rfl⟩
  | write data nonempty => exact h.quiet rfl rfl rfl
  | set cmd value =>
    cases value with
    | none => exact h.quiet rfl rfl rfl
    | some value =>
      have hset : (s.set cmd value).cells = s.cells ∧ (s.set cmd value).entries = s.entries ∧
          (s.set cmd value).eventTail = s.eventTail := by
        cases cmd with
        | baudrate =>
          rw [Device.set]
          split <;> exact ⟨rfl, rfl, rfl⟩
        | fmt | control | clrControl | notify | clrNotify => exact ⟨rfl, rfl, rfl⟩
      exact h.quiet hset.1 hset.2.1 hset.2.2
  | get cmd space =>
    have hread : eventsRead [s.answer (.get cmd space)] = [] := by cases space <;> rfl
    have hget : s.serve (.get cmd space) = s ∨ s.serve (.get cmd space) = { s with dead := true } := by
      cases cmd <;> cases space <;> simp only [Device.serve, true_or]
      split
      · exact .inr rfl
      · exact .inl rfl
    rw [hread]
    rcases hget with heq | heq <;> rw [heq] <;> exact h.quiet rfl rfl rfl
  | unhandled => exact h.quiet rfl rfl rfl
  | pass mis txEmpty txBusy received rooms mallocs =>
    obtain ⟨uart, huart⟩ : ∃ uart, uart =
        s.uart.step ⟨mis, txEmpty, txBusy, received, rooms, fun _ => []⟩ := ⟨_, rfl⟩
    obtain ⟨cbs, hcbs⟩ : ∃ cbs, cbs = calls (uart.trace.drop s.uart.trace.length) := ⟨_, rfl⟩
    obtain ⟨hq, hcontents⟩ := h.of_eq (t := { s with uart := uart }) rfl rfl rfl
    have hunused : s.Unused mallocs := hfresh
    obtain ⟨new, hnew, hall⟩ := hq.callbacks (cbs.zip mallocs) (hunused.zip cbs)
    have hserve : s.serve (.pass mis txEmpty txBusy received rooms mallocs) =
        { { s with uart := uart }.callbacks (cbs.zip mallocs) with
          dead := (uart.trace.drop s.uart.trace.length).contains .nullPointer } := by
      rw [hcbs, huart]
      rfl
    obtain ⟨hlast, hsame⟩ := hnew.of_eq (t := s.serve (.pass mis txEmpty txBusy received rooms
      mallocs)) (by rw [hserve]) (by rw [hserve]) (by rw [hserve])
    refine ⟨qs ++ new, hlast, ?_⟩
    rw [hsame, hall, hcontents, toldBy, ← huart, hcbs]
    rfl

/-- A reader that is replied to is given what there was. -/
theorem eventsRead_reply (hlive : s.dead = false) (ev : Event) :
    eventsRead [s.reply ev] = eventsRead [s.answer ev] := by
  have hquiet : eventsRead [s.answer ev] = [] →
      eventsRead [s.reply ev] = eventsRead [s.answer ev] := by
    intro h
    unfold reply
    split
    · exact h.symm
    · rfl
  cases ev with
  | read =>
    have hserve : (s.serve .read).dead = false := by
      unfold Device.serve Device.getEvent
      cases s.cells .eventHead <;> exact hlive
    simp [reply, Device.step, hlive, hserve]
  | «open» | write | unhandled => exact hquiet rfl
  | set cmd value => cases value <;> exact hquiet rfl
  | get cmd space => cases space <;> exact hquiet rfl
  | pass => exact hquiet rfl

/-- **A step keeps the queue**: what it puts in and what it takes out. -/
theorem Queued.step (h : Queued s qs) (hfresh : s.Fresh ev) :
    ∃ qs', Queued (s.step ev) qs' ∧
      s.contents qs ++ s.told ev = eventsRead [s.reply ev] ++ (s.step ev).contents qs' := by
  unfold Device.step told
  cases hdead : s.dead with
  | true =>
    have hreply : s.reply ev = none := by simp [reply, hdead]
    rw [hreply]
    exact h.quiet rfl rfl rfl
  | false =>
    obtain ⟨qs', hq, hcontents⟩ := h.serve hfresh
    rw [eventsRead_reply hdead]
    exact ⟨qs', hq, hcontents⟩

/-! ## Runs -/

theorem eventsRead_append (rs rs' : List (Option Reply)) :
    eventsRead (rs ++ rs') = eventsRead rs ++ eventsRead rs' := List.filterMap_append

theorem Queued.run (es : List Event) (h : Queued s qs) (hfresh : EachStep Device.step Fresh s es) :
    ∃ qs', Queued (run Device.step s es) qs' ∧
      s.contents qs ++ (outputs Device.step told s es).flatten =
        eventsRead (outputs Device.step reply s es) ++ (run Device.step s es).contents qs' := by
  induction es generalizing s qs with
  | nil => exact ⟨qs, h, by simp [outputs, eventsRead]⟩
  | cons ev es ih =>
    obtain ⟨hfirst, hrest⟩ := eachStep_cons.1 hfresh
    obtain ⟨qs₁, hq₁, hstep⟩ := h.step hfirst
    obtain ⟨qs₂, hq₂, htail⟩ := ih hq₁ hrest
    refine ⟨qs₂, hq₂, ?_⟩
    have hsplit : eventsRead (outputs Device.step reply s (ev :: es)) =
        eventsRead [s.reply ev] ++ eventsRead (outputs Device.step reply (s.step ev) es) :=
      eventsRead_append [s.reply ev] _
    rw [outputs, List.flatten_cons, ← List.append_assoc, hstep, List.append_assoc, htail, hsplit,
      List.append_assoc, run_cons]

/-- **The readers are given the events in order**, whatever requests and
passes of the handler come, one at a time, in whatever order, as long as
`malloc` returns what is not in use: what has been read and what is still in the list are the
events of the callbacks there was memory for, each once and in their order;
and the entries that are allocated are those in the list. -/
theorem events_in_order (garbage : Pl011) (es : List Event)
    (hfresh : EachStep step Fresh (create garbage) es) :
    ∃ qs, Queued (Dmx4Linux2.run step (create garbage) es) qs ∧
      (outputs step told (create garbage) es).flatten =
        eventsRead (outputs step reply (create garbage) es) ++
          (Dmx4Linux2.run step (create garbage) es).contents qs := by
  obtain ⟨qs, hq, heq⟩ := (queued_create garbage).run es hfresh
  exact ⟨qs, hq, by rw [← heq]; rfl⟩

/-- A driver with nothing in it. -/
def blank : Pl011 := ⟨0, 0, none, none, false, false, fun _ => ⟨none, 0, 0, 0, 0, fun _ => 0⟩,
  fun _ => 0, []⟩

/-- Data is asked for and received, and two errors happen, with the same
memory for the second that the octet had. -/
def errorsAround : List Event :=
  [.set .notify (some 4), .pass 0x10 true false [0x55] [] [some 1], .read,
    .pass 0x400 true false [] [] [some 1], .pass 0x80 true false [] [] [none], .read, .read]

theorem events_in_order_errors :
    ∃ qs, Queued (Dmx4Linux2.run step (create blank) errorsAround) qs ∧
      (outputs step told (create blank) errorsAround).flatten =
        eventsRead (outputs step reply (create blank) errorsAround) ++
          (Dmx4Linux2.run step (create blank) errorsAround).contents qs := by
  have hone : ∀ s : Device, s.entries 1 = none → s.Unused [some 1] := by
    refine fun s h => ⟨by simp, fun e he => ?_⟩
    obtain rfl : e = 1 := by simpa using he
    exact h
  have hnone : ∀ s : Device, s.Unused [none] := fun s => ⟨by simp, by simp⟩
  refine events_in_order blank errorsAround ?_
  refine eachStep_cons.2 ⟨trivial, eachStep_cons.2 ⟨hone _ ?_, eachStep_cons.2 ⟨trivial,
    eachStep_cons.2 ⟨hone _ ?_, eachStep_cons.2 ⟨hnone _, eachStep_cons.2 ⟨trivial,
    eachStep_cons.2 ⟨trivial, eachStep_nil⟩⟩⟩⟩⟩⟩⟩
  · decide +kernel
  · decide +kernel

/-- The second reader finds nothing, and the octet is not in the event. -/
example : outputs step reply (create blank) errorsAround =
    [some .done, none, some (.event (.rxChar 0)), none, none, some (.event (.rxErr 0x20)),
      some .nothing] := by
  decide +kernel

end Device

end RtuartDev

end Dmx4Linux2
