import Dmx4Linux2.Common.Holdings
import Dmx4Linux2.Common.Run
import Dmx4Linux2.Core.Framequeue
import Dmx4Linux2.Kernel.Device
import Mathlib.Data.Fintype.Basic

/-!
# dmx512 kernel core — the pool of frames

The 16 entries allocated at start go from the pool through the hands of a
driver into the receive queue of a device and back. `pool_conserved_iff`
says in which runs none is lost: those in which no device is unregistered
with frames in its queue, which are freed, and no write is sent through a
port of the dummy driver that leads nowhere, where the entry is dropped.
-/

namespace Dmx4Linux2

namespace Kernel

open Dmx4Linux2.Core Framequeue

variable {δ π : Type}

/-- The entries in the queue of a registered device. -/
def Device.held (d : Device π) : Multiset ℕ := if d.registered then ids d.rxframequeue else 0

namespace State

variable {s s' : State δ π} {dev : δ} {port : π} {e : Entry} {pool : Framequeue}

/-- **The state is sound**: a device that is not registered has nothing
in its queue, and the device of a port is registered and has it among its
ports. -/
structure Sound (s : State δ π) : Prop where
  idle : ∀ dev, (s.devices dev).registered = false → (s.devices dev).rxframequeue = []
  owned : ∀ port dev, (s.ports port).device = some dev →
    (s.devices dev).registered = true ∧ port ∈ (s.devices dev).ports

/-- A port of the dummy driver leads to a port with a device. -/
def Leads (s : State δ π) (port : π) : Prop :=
  ∃ dst dev, (s.ports port).userptr = some dst ∧ (s.ports dst).device = some dev

section Entries

variable [Fintype δ]

/-- The entries in the pool, in the hands of drivers and in the queues of
all registered devices. -/
def entries (s : State δ π) : Multiset ℕ :=
  holdings (ids s.freeFramequeue + ids s.hands) fun dev => (s.devices dev).held

/-- **The entries are the 16 allocated at start**, each in one place. -/
def Conserved (s : State δ π) : Prop := s.entries = Multiset.range 16

theorem entries_congr (hfree : s'.freeFramequeue = s.freeFramequeue) (hhands : s'.hands = s.hands)
    (hheld : ∀ dev, (s'.devices dev).held = (s.devices dev).held) : s'.entries = s.entries := by
  unfold entries
  simp only [hfree, hhands, hheld]

/-- An entry is taken out of the pool. -/
theorem entries_cons (hpool : s.freeFramequeue = e :: pool) :
    s.entries = { s with freeFramequeue := pool }.entries + {e.id} := by
  unfold entries
  rw [← holdings_add, hpool, ids_cons]
  simp only
  congr 1
  ac_rfl

theorem putFrame_entries (s : State δ π) (e : Entry) :
    (s.putFrame e).entries = s.entries + {e.id} := by
  unfold entries putFrame
  rw [← holdings_add, ids_put]
  simp only
  congr 1
  ac_rfl

theorem hand_entries (s : State δ π) (e : Entry) :
    { s with hands := s.hands ++ [e] }.entries = s.entries + {e.id} := by
  have hput : ids (s.hands ++ [e]) = ids s.hands + {e.id} := ids_put s.hands e
  unfold entries
  rw [← holdings_add, hput]
  simp only
  congr 1
  ac_rfl

variable [DecidableEq δ]

theorem setDevice_entries (s : State δ π) (dev : δ) (device : Device π) :
    (s.setDevice dev device).entries = holdings (ids s.freeFramequeue + ids s.hands)
      (Function.update (fun dev => (s.devices dev).held) dev device.held) := by
  unfold entries setDevice
  congr 1
  funext dev'
  exact Function.apply_update (fun _ => Device.held) s.devices dev device dev'

/-- A device is replaced by one that holds the same. -/
theorem setDevice_entries_of_held {device : Device π}
    (hheld : device.held = (s.devices dev).held) : (s.setDevice dev device).entries = s.entries := by
  rw [setDevice_entries]
  exact (holdings_update_iff _ _ dev _).2 hheld

/-- The first entry of a queue is put into the pool. -/
theorem dequeue_entries {q : Framequeue} (h : s.Sound)
    (hqueue : (s.devices dev).rxframequeue = e :: q) :
    ((s.setDevice dev { s.devices dev with rxframequeue := q }).putFrame e).entries =
      s.entries := by
  have hreg : (s.devices dev).registered = true := by
    by_contra hidle
    have hnil := h.idle dev (Bool.eq_false_iff.2 hidle)
    rw [hqueue] at hnil
    exact absurd hnil (List.cons_ne_nil e q)
  have hheld : (fun dev => (s.devices dev).held) dev = ids q + {e.id} := by
    simp [Device.held, hreg, hqueue, ids_cons]
  rw [putFrame_entries, setDevice_entries, ← holdings_add]
  refine Eq.trans ?_ (holdings_put (ids s.freeFramequeue + ids s.hands) hheld)
  simp [Device.held, hreg]

variable [DecidableEq π]

/-- An entry is put into the queue of a registered device. -/
theorem enqueue_entries (hreg : (s.devices dev).registered = true) (port : π) (e : Entry) :
    (s.enqueue port dev e).entries = s.entries + {e.id} := by
  have htake := holdings_take (ids s.freeFramequeue + ids s.hands)
    (fun dev => (s.devices dev).held) dev {e.id}
  rw [enqueue, setDevice_entries, entries, ← holdings_add, ← htake]
  congr 2
  simp [Device.held, hreg, ids_put]

end Entries

/-! ## The state stays sound -/

/-- Ports change, but not the devices they belong to. -/
theorem Sound.congr (h : s.Sound) (hdevices : s'.devices = s.devices)
    (hports : ∀ port, (s'.ports port).device = (s.ports port).device) : s'.Sound := by
  refine ⟨fun dev hidle => ?_, fun port dev hport => ?_⟩
  · rw [hdevices] at hidle ⊢
    exact h.idle dev hidle
  · rw [hports] at hport
    rw [hdevices]
    exact h.owned port dev hport

variable [DecidableEq δ]

/-- A queue changes, and it is that of a registered device or stays
empty. -/
theorem Sound.setQueue (h : s.Sound) {q : Framequeue}
    (hq : (s.devices dev).registered = false → q = []) :
    (s.setDevice dev { s.devices dev with rxframequeue := q }).Sound := by
  refine ⟨fun dev' hidle => ?_, fun port dev' hport => ?_⟩
  · by_cases hd : dev' = dev
    · subst hd
      rw [setDevice_self] at hidle ⊢
      exact hq hidle
    · rw [setDevice_of_ne hd] at hidle ⊢
      exact h.idle dev' hidle
  · by_cases hd : dev' = dev
    · subst hd
      rw [setDevice_self]
      exact h.owned port dev' hport
    · rw [setDevice_of_ne hd]
      exact h.owned port dev' hport

theorem Sound.register (h : s.Sound) (hreg : (s.devices dev).registered = false) (err : Bool) :
    (s.registerDevice dev err).Sound := by
  refine ⟨fun dev' hidle => ?_, fun port dev' hport => ?_⟩
  · by_cases hd : dev' = dev
    · subst hd
      exact congrArg Device.rxframequeue (setDevice_self s dev' _)
    · have hsame : (s.registerDevice dev err).devices dev' = s.devices dev' :=
        setDevice_of_ne hd s _
      rw [hsame] at hidle ⊢
      exact h.idle dev' hidle
  · have hold := h.owned port dev' hport
    -- a port has a registered device, and this one is not registered yet
    have hne : dev' ≠ dev := by
      rintro rfl
      rw [hreg] at hold
      exact absurd hold.1 (by simp)
    have hsame : (s.registerDevice dev err).devices dev' = s.devices dev' :=
      setDevice_of_ne hne s _
    rw [hsame]
    exact hold

variable [DecidableEq π]

/-- A new port is added to a registered device. -/
theorem Sound.attach (h : s.Sound) (hreg : (s.devices dev).registered = true) (port : π)
    (p : Port δ π) : ((s.setPort port p).addPort dev port).Sound := by
  refine ⟨fun dev' hidle => ?_, fun port' dev' hport => ?_⟩
  · by_cases hd : dev' = dev
    · subst hd
      rw [addPort, setDevice_self] at hidle
      exact absurd (hreg.symm.trans hidle) (by simp)
    · rw [addPort, setDevice_of_ne hd] at hidle ⊢
      exact h.idle dev' hidle
  · by_cases hp : port' = port
    · subst hp
      have hdev : dev = dev' := by
        have hself : (((s.setPort port' p).addPort dev port').ports port').device = some dev :=
          congrArg Port.device (setPort_self _ port' _)
        exact Option.some.inj (hself.symm.trans hport)
      subst hdev
      rw [addPort, setDevice_self]
      exact ⟨hreg, List.mem_append_right _ List.mem_cons_self⟩
    · have hsame : ((s.setPort port p).addPort dev port).ports port' = s.ports port' :=
        (setPort_of_ne hp _ _).trans (setPort_of_ne hp s p)
      rw [hsame] at hport
      have hold := h.owned port' dev' hport
      by_cases hd : dev' = dev
      · subst hd
        rw [addPort, setDevice_self]
        exact ⟨hold.1, List.mem_append_left _ hold.2⟩
      · rw [addPort, setDevice_of_ne hd]
        exact hold

theorem Sound.unregister (h : s.Sound) (dev : δ) : (s.unregisterDevice dev).Sound := by
  obtain ⟨hports, hdevices, -, -⟩ := foldl_removePort (s.devices dev).ports s
  have hself : (s.unregisterDevice dev).devices dev = ⟨false, [], []⟩ := setDevice_self ..
  have helse : ∀ dev', dev' ≠ dev → (s.unregisterDevice dev).devices dev' = s.devices dev' := by
    intro dev' hne
    exact (setDevice_of_ne hne _ _).trans (congrFun hdevices dev')
  refine ⟨fun dev' hidle => ?_, fun port dev' hport => ?_⟩
  · by_cases hd : dev' = dev
    · rw [hd, hself]
    · rw [helse dev' hd] at hidle ⊢
      exact h.idle dev' hidle
  · have hdevice : (if port ∈ (s.devices dev).ports then none else (s.ports port).device) =
        some dev' := (hports port).symm.trans hport
    -- all ports of the device have lost it
    split at hdevice
    case isTrue => exact absurd hdevice (by simp)
    case isFalse hmem =>
      have hold := h.owned port dev' hdevice
      have hne : dev' ≠ dev := fun heq => hmem (heq ▸ hold.2)
      rw [helse dev' hne]
      exact hold

/-- A frame that a port with a device gets goes into the queue of that
device. -/
theorem receivedFrame_cases (h : s.Sound) (port : Option π) (e : Entry) :
    (s.receivedFrame port e = none ∧ ∀ p, port = some p → (s.ports p).device = none) ∨
      ∃ p dev, port = some p ∧ (s.ports p).device = some dev ∧
        (s.devices dev).registered = true ∧
        s.receivedFrame port e = some (s.enqueue p dev e) := by
  cases port with
  | none => exact Or.inl ⟨rfl, by simp⟩
  | some p =>
    cases hdev : (s.ports p).device with
    | none => exact Or.inl ⟨by simp [receivedFrame, hdev], by simp [hdev]⟩
    | some dev =>
      exact Or.inr ⟨p, dev, rfl, hdev, (h.owned p dev hdev).1, by simp [receivedFrame, hdev]⟩

theorem Sound.enqueue (h : s.Sound) (hreg : (s.devices dev).registered = true) (port : π)
    (e : Entry) : (s.enqueue port dev e).Sound :=
  h.setQueue fun hidle => absurd (hreg.symm.trans hidle) (by simp)

theorem Sound.sendFrame (h : s.Sound) (port : π) (e : Entry) : (s.sendFrame port e).Sound := by
  unfold State.sendFrame
  cases (s.ports port).sendFrame with
  | driver => exact h.congr rfl fun _ => rfl
  | dummy =>
    simp only [dummySendFrame]
    cases (s.ports port).userptr with
    | none => exact h
    | some dst =>
      simp only
      rcases receivedFrame_cases h (some dst) e with ⟨hnone, -⟩ | ⟨p, dev, -, -, hreg, hsome⟩
      · rw [hnone]
        exact h
      · rw [hsome]
        exact h.enqueue hreg p e

end State

/-! ## What becomes of the entries -/

/-- **The event loses no entry**: it does not unregister a device with
frames in its queue, and is not a write that is sent through a port of
the dummy driver that leads nowhere. -/
def Event.Keeps [DecidableEq δ] [DecidableEq π] (s : State δ π) : Event δ π → Prop
  | .unregister dev => (s.devices dev).registered = true → (s.devices dev).rxframequeue = []
  | .write dev size copy space => ∀ e pool frame port,
    s.Sends dev size copy space e pool frame port → (s.ports port).sendFrame = .dummy → s.Leads port
  | _ => True

namespace State

variable [Fintype δ] [DecidableEq δ] [DecidableEq π]
variable {s : State δ π} {e : Entry}

/-- An entry given to a driver to send is kept, unless the port leads
nowhere. -/
theorem Sound.sendFrame_entries_iff (h : s.Sound) (port : π) (e : Entry) :
    (s.sendFrame port e).entries = s.entries + {e.id} ↔
      ((s.ports port).sendFrame = .dummy → s.Leads port) := by
  have hlost : s.entries ≠ s.entries + {e.id} := by
    intro heq
    have hzero : ({e.id} : Multiset ℕ) = 0 := (left_eq_add.1 heq)
    exact absurd hzero (Multiset.singleton_ne_zero e.id)
  unfold State.sendFrame Leads
  cases (s.ports port).sendFrame with
  | driver => simp [hand_entries]
  | dummy =>
    simp only [dummySendFrame, forall_const]
    cases (s.ports port).userptr with
    | none => simp [hlost]
    | some dst =>
      simp only
      rcases receivedFrame_cases h (some dst) e with ⟨hnone, hdev⟩ | ⟨p, dev, hp, hdev, hreg, hsome⟩
      · rw [hnone]
        simp [hlost, hdev dst rfl]
      · obtain rfl : dst = p := Option.some.inj hp
        rw [hsome]
        simp [enqueue_entries hreg, hdev]

omit [DecidableEq δ] [DecidableEq π] in
/-- A driver gives an entry out of its hands. -/
theorem eraseP_entries {id : ℕ} (hfind : s.hands.find? (·.id = id) = some e) :
    { s with hands := s.hands.eraseP (·.id = id) }.entries + {e.id} = s.entries := by
  obtain ⟨hid, before, after, hhands, hbefore⟩ := List.find?_eq_some_iff_append.1 hfind
  have herase : s.hands.eraseP (·.id = id) = before ++ after := by
    rw [hhands, List.eraseP_append_right _ (by simpa using hbefore), List.eraseP_cons, hid,
      cond_true]
  have hids : ids s.hands = ids (before ++ after) + {e.id} := by
    simp only [hhands, ids, List.map_append, List.map_cons, ← Multiset.coe_add,
      ← Multiset.cons_coe, ← Multiset.singleton_add]
    ac_rfl
  unfold entries
  rw [← holdings_add, herase, hids]
  simp only
  congr 1
  ac_rfl

/-- Unregistering frees what is in the queue. -/
theorem unregisterDevice_entries_iff {dev : δ} (hreg : (s.devices dev).registered = true) :
    (s.unregisterDevice dev).entries = s.entries ↔ (s.devices dev).rxframequeue = [] := by
  obtain ⟨-, hdevices, hfree, hhands⟩ := foldl_removePort (s.devices dev).ports s
  have hentries : (s.unregisterDevice dev).entries =
      (s.setDevice dev ⟨false, [], []⟩).entries := by
    refine entries_congr hfree hhands fun dev' => ?_
    exact congrArg (fun devices => (Function.update devices dev ⟨false, [], []⟩ dev').held) hdevices
  rw [hentries, setDevice_entries]
  refine (holdings_update_iff _ _ dev _).trans ?_
  simp only [Device.held, hreg, Bool.false_eq_true, if_false, if_true]
  exact eq_comm.trans ids_eq_zero

/-! ## Operations that lose nothing -/

/-- The state stays sound, with the same entries. -/
structure Kept (s s' : State δ π) : Prop where
  sound : s'.Sound
  entries : s'.entries = s.entries

omit [DecidableEq δ] [DecidableEq π] in
theorem Sound.kept (h : s.Sound) : Kept s s := ⟨h, rfl⟩

omit [DecidableEq δ] [DecidableEq π] in
theorem Kept.trans {s' s'' : State δ π} (h : Kept s s') (h' : Kept s' s'') : Kept s s'' :=
  ⟨h'.sound, h'.entries.trans h.entries⟩

omit [DecidableEq π] in
theorem Sound.kept_read (h : s.Sound) (dev : δ) (size : ℕ) (nonblock fault : Bool) :
    Kept s (s.deviceRead dev size nonblock fault).2 := by
  rcases s.deviceRead_cases dev size nonblock fault with ⟨hs, -⟩ | ⟨e, q, -, hqueue, hs⟩
  · rw [hs]
    exact h.kept
  · rw [hs]
    refine ⟨(h.setQueue fun hidle => ?_).congr rfl fun _ => rfl, dequeue_entries h hqueue⟩
    exact absurd (hqueue.symm.trans (h.idle dev hidle)) (List.cons_ne_nil e q)

omit [DecidableEq π] in
theorem Sound.kept_register (h : s.Sound) {dev : δ} (hreg : (s.devices dev).registered = false)
    (err : Bool) : Kept s (s.registerDevice dev err) := by
  have hheld : (⟨!err, [], Framequeue.init⟩ : Device π).held = (s.devices dev).held := by
    simp [Device.held, hreg, Framequeue.init]
  exact ⟨h.register hreg err, setDevice_entries_of_held hheld⟩

theorem Sound.kept_attach (h : s.Sound) {dev : δ} (hreg : (s.devices dev).registered = true)
    (port : π) (p : Port δ π) : Kept s ((s.setPort port p).addPort dev port) :=
  ⟨h.attach hreg port p, setDevice_entries_of_held rfl⟩

/-- The loop of the dummy driver over its new ports. -/
theorem Sound.kept_addDummyPorts (h : s.Sound) {dev : δ}
    (hreg : (s.devices dev).registered = true) (ports : List π) :
    Kept s (s.addDummyPorts dev ports) := by
  induction ports generalizing s with
  | nil => exact h.kept
  | cons port ports ih =>
    have hattach := h.kept_attach hreg port ⟨some dev, .dummy, false, none⟩
    refine hattach.trans (ih hattach.sound ?_)
    simpa [addPort] using hreg

theorem Sound.kept_createDummy (h : s.Sound) {dev : δ}
    (hreg : (s.devices dev).registered = false) (ports : List π) (err : Bool) :
    Kept s (s.createDummyDmxDevice dev ports err) := by
  have hregister := h.kept_register hreg err
  unfold createDummyDmxDevice
  split
  case isTrue => exact hregister
  case isFalse herr =>
    refine hregister.trans (hregister.sound.kept_addDummyPorts ?_ ports)
    simpa [registerDevice] using herr

omit [DecidableEq δ] in
theorem Sound.kept_connect (h : s.Sound) (dmx0 dmx1 : δ) (portsCount : ℕ) :
    Kept s (s.connect dmx0 dmx1 portsCount) := by
  obtain ⟨hdevices, hfree, hhands, hports⟩ := s.connect_spec dmx0 dmx1 portsCount
  refine ⟨h.congr hdevices hports, entries_congr hfree hhands fun dev => ?_⟩
  exact congrArg (fun devices => (devices dev).held) hdevices

theorem Sound.kept_getFrame (h : s.Sound) : Kept s (s.step .getFrame) := by
  simp only [State.step]
  split
  case h_1 => exact h.kept
  case h_2 e pool hpool =>
    refine ⟨h.congr rfl fun _ => rfl, ?_⟩
    rw [entries_cons hpool]
    exact hand_entries { s with freeFramequeue := pool } e

theorem Sound.kept_putFrame (h : s.Sound) (id : ℕ) : Kept s (s.step (.putFrame id)) := by
  simp only [State.step]
  split
  case h_1 => exact h.kept
  case h_2 e hfind =>
    refine ⟨h.congr rfl fun _ => rfl, ?_⟩
    rw [putFrame_entries]
    exact eraseP_entries hfind

/-- A driver reports a frame; the entry stays with it if that fails. -/
theorem Sound.kept_receivedFrame (h : s.Sound) (port : Option π) (id : ℕ) (frame : Frame) :
    Kept s (s.step (.receivedFrame port id frame)) := by
  simp only [State.step]
  split
  case h_1 => exact h.kept
  case h_2 e hfind =>
    have hgiven : ({ s with hands := s.hands.eraseP (·.id = id) } : State δ π).Sound :=
      h.congr rfl fun _ => rfl
    have hback := eraseP_entries hfind
    rcases receivedFrame_cases hgiven port { e with frame := frame } with
      ⟨hnone, -⟩ | ⟨p, dev, -, -, hreg, hsome⟩
    · rw [hnone]
      exact h.kept
    · rw [hsome]
      exact ⟨hgiven.enqueue hreg p _, (enqueue_entries hreg p _).trans hback⟩

/-! ## Steps -/

/-- A write loses its entry just when it is sent where it leads nowhere. -/
theorem Sound.write_spec (h : s.Sound) (dev : δ) (size : ℕ) (copy : Copy) (space : Bool) :
    (s.deviceWrite dev size copy space).2.Sound ∧
      ((s.deviceWrite dev size copy space).2.entries = s.entries ↔
        (Event.write dev size copy space).Keeps s) := by
  rcases s.deviceWrite_cases dev size copy space with
    ⟨-, hnot, hs⟩ | ⟨e, pool, frame, port, hsends, hs⟩
  · -- the write fails, and the entry is back in the pool
    have hkeeps : (Event.write dev size copy space).Keeps s :=
      fun e pool frame port hsends => absurd hsends (hnot e pool frame port)
    rcases hs with hs | ⟨e, pool, left, hpool, hs⟩
    · rw [hs]
      exact ⟨h, iff_of_true rfl hkeeps⟩
    · rw [hs]
      refine ⟨h.congr rfl fun _ => rfl, iff_of_true ?_ hkeeps⟩
      rw [putFrame_entries, entries_cons hpool]
  · have htaken : ({ s with freeFramequeue := pool } : State δ π).Sound :=
      h.congr rfl fun _ => rfl
    rw [hs, entries_cons hsends.pool]
    refine ⟨htaken.sendFrame port _,
      (htaken.sendFrame_entries_iff port { e with frame := frame }).trans ⟨?_, ?_⟩⟩
    · intro hleads e' pool' frame' port' hsends'
      obtain rfl : frame = frame' := Copy.done.inj (hsends.copied.symm.trans hsends'.copied)
      obtain rfl : port = port' := Option.some.inj (hsends.named.symm.trans hsends'.named)
      exact hleads
    · intro hkeeps
      exact hkeeps e pool frame port hsends

/-- **Every event keeps the state sound, and which keep the entries.** -/
theorem Sound.step_spec (h : s.Sound) (ev : Event δ π) :
    (s.step ev).Sound ∧ ((s.step ev).entries = s.entries ↔ ev.Keeps s) := by
  have hkept : ∀ {s' : State δ π} {ev : Event δ π}, Kept s s' → ev.Keeps s →
      s'.Sound ∧ (s'.entries = s.entries ↔ ev.Keeps s) :=
    fun hs' hkeeps => ⟨hs'.sound, iff_of_true hs'.entries hkeeps⟩
  cases ev with
  | read dev size nonblock fault => exact hkept (h.kept_read dev size nonblock fault) trivial
  | write dev size copy space => exact h.write_spec dev size copy space
  | register dev err =>
    simp only [State.step]
    split
    case isTrue => exact hkept h.kept trivial
    case isFalse hreg => exact hkept (h.kept_register (Bool.eq_false_iff.2 hreg) err) trivial
  | unregister dev =>
    simp only [State.step, Event.Keeps]
    split
    case isTrue hreg =>
      refine ⟨h.unregister dev, ?_⟩
      rw [unregisterDevice_entries_iff hreg]
      exact ⟨fun hempty _ => hempty, fun hkeeps => hkeeps hreg⟩
    case isFalse hreg => exact ⟨h, iff_of_true rfl fun htrue => absurd htrue hreg⟩
  | addPort dev port transmitterHasSpace =>
    simp only [State.step]
    split
    case isTrue hreg => exact hkept (h.kept_attach hreg port _) trivial
    case isFalse => exact hkept h.kept trivial
  | createDummy dev ports err =>
    simp only [State.step]
    split
    case isTrue => exact hkept h.kept trivial
    case isFalse hreg =>
      exact hkept (h.kept_createDummy (Bool.eq_false_iff.2 hreg) ports err) trivial
  | connect dmx0 dmx1 portsCount => exact hkept (h.kept_connect dmx0 dmx1 portsCount) trivial
  | getFrame => exact hkept h.kept_getFrame trivial
  | putFrame id => exact hkept (h.kept_putFrame id) trivial
  | receivedFrame port id frame => exact hkept (h.kept_receivedFrame port id frame) trivial

omit [Fintype δ] [DecidableEq δ] [DecidableEq π] in
theorem Sound.coreInit (garbage : ℕ → Frame) : (State.coreInit garbage : State δ π).Sound :=
  ⟨fun _ _ => rfl, fun port dev hport => by simp [State.coreInit] at hport⟩

omit [DecidableEq δ] [DecidableEq π] in
theorem Conserved.coreInit (garbage : ℕ → Frame) :
    (State.coreInit garbage : State δ π).Conserved := by
  have hheld : ∀ dev, ((State.coreInit garbage : State δ π).devices dev).held = 0 := fun _ => rfl
  unfold Conserved entries holdings
  rw [Finset.sum_eq_zero fun dev _ => hheld dev]
  simp [State.coreInit, ids_allocated]

end State

/-- **No entry of the pool is lost** and none is in two places, in any
run after initialisation, just when no device is unregistered with frames
in its queue and no write is sent through a port of the dummy driver that
leads nowhere. -/
theorem pool_conserved_iff [Fintype δ] [DecidableEq δ] [DecidableEq π] (garbage : ℕ → Frame)
    (evs : List (Event δ π)) :
    Always State.step State.Conserved (State.coreInit garbage) evs ↔
      EachStep State.step (fun s ev => ev.Keeps s) (State.coreInit garbage) evs := by
  refine always_iff_eachStep (fun s ev (h : s.Sound) => (h.step_spec ev).1) (fun s ev h hP => ?_)
    (State.Sound.coreInit garbage) (State.Conserved.coreInit garbage)
  rw [← (h.step_spec ev).2]
  constructor
  · intro hP'
    exact hP'.trans hP.symm
  · intro hentries
    exact hentries.trans hP

/-- The dummy driver is loaded with one port on each card, a frame is
written to the first card, and the driver is unloaded before it is read
from the second. -/
def unloadUnread : List (Event Bool Bool) :=
  [.createDummy false [false] false, .createDummy true [true] false, .connect false true 1,
    .write false sizeofFrame (.done Frame.single) true, .unregister false, .unregister true]

theorem unloadUnread_loses_entry :
    ¬ Always State.step State.Conserved (State.coreInit fun _ => Frame.single) unloadUnread := by
  intro h
  have hcard := congrArg Multiset.card h.last
  revert hcard
  decide +kernel

end Kernel

end Dmx4Linux2
