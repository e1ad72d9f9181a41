import Dmx4Linux2.Kernel.Loopback
import Dmx4Linux2.Kernel.Ports
import Dmx4Linux2.Kernel.Registry

/-!
# dmx512 kernel core — the ports frames are routed by

Frames go to the port at a place of a device, and come with the place of the
port they were received on. The kernel has lists for these places, the memory
has pointers, and both say the same as long as a device is registered
successfully and a port is added once: `lookup_refines`. The calls an event
makes of the lists are `calls`, and `Shows` says which lists the kernel has.
-/

namespace Dmx4Linux2

namespace Kernel

open PortLists

variable {δ π : Type} [DecidableEq δ] [DecidableEq π]

namespace State

/-- Ports are created and added, one after the other. -/
def addCalls (dev : δ) (ports : List π) : List (PortCall δ π) :=
  ports.flatMap fun port => [.createPort dev port, .addPort dev port]

/-- The calls by which an event changes the lists. -/
def calls (s : State δ π) : Event δ π → List (PortCall δ π)
  | .register dev _ => if (s.devices dev).registered then [] else [.registerDevice dev]
  | .unregister dev => if (s.devices dev).registered then [.unregisterDevice (some dev)] else []
  | .addPort dev port _ => if (s.devices dev).registered then addCalls dev [port] else []
  | .createDummy dev ports err =>
    if (s.devices dev).registered then []
    else .registerDevice dev :: if err then [] else addCalls dev ports
  | _ => []

/-- Those of all events. -/
def allCalls : State δ π → List (Event δ π) → List (PortCall δ π)
  | _, [] => []
  | s, e :: es => s.calls e ++ (s.step e).allCalls es

/-- A port that no device has. -/
def New (s : State δ π) (port : π) : Prop := ∀ dev, port ∉ (s.devices dev).ports

/-- **A device is registered successfully, and ports that are added are new.** -/
def Orderly (s : State δ π) : Event δ π → Prop
  | .register dev err => (s.devices dev).registered = false → err = false
  | .addPort dev port _ => (s.devices dev).registered = true → s.New port
  | .createDummy dev ports err =>
    (s.devices dev).registered = false → err = false ∧ ports.Nodup ∧ ∀ port ∈ ports, s.New port
  | _ => True

/-- **The lists of the kernel are these.** -/
structure Shows (s : State δ π) (a : PortLists δ π) : Prop where
  devices : s.dmx512Devices = a.devices
  registered : ∀ dev, (s.devices dev).registered = (a.ports dev).isSome
  ports : ∀ dev, (s.devices dev).ports = (a.ports dev).getD []
  device : ∀ port ∈ a.portlist, (s.ports port).device = a.device port

/-- What queues and peers are changed by: the lists stay. -/
structure SameLists (s s' : State δ π) : Prop where
  devices : s'.dmx512Devices = s.dmx512Devices
  registered : ∀ dev, (s'.devices dev).registered = (s.devices dev).registered
  ports : ∀ dev, (s'.devices dev).ports = (s.devices dev).ports
  device : ∀ port, (s'.ports port).device = (s.ports port).device

variable {s s' s'' : State δ π} {a : PortLists δ π} {m : PortMemory δ π} {dev : δ} {port : π}

omit [DecidableEq δ] [DecidableEq π] in
theorem SameLists.refl (s : State δ π) : SameLists s s :=
  ⟨rfl, fun _ => rfl, fun _ => rfl, fun _ => rfl⟩

omit [DecidableEq δ] [DecidableEq π] in
theorem Shows.congr (h : Shows s a) (hsame : SameLists s s') : Shows s' a where
  devices := hsame.devices.trans h.devices
  registered dev := (hsame.registered dev).trans (h.registered dev)
  ports dev := (hsame.ports dev).trans (h.ports dev)
  device port hport := (hsame.device port).trans (h.device port hport)

/-! ## Frames -/

omit [DecidableEq π] in
/-- A queue of a device has changed. -/
theorem SameLists.setQueue (h : SameLists s s') (dev : δ) (q : Core.Framequeue) :
    SameLists s (s'.setDevice dev { s'.devices dev with rxframequeue := q }) := by
  refine ⟨h.devices, fun dev' => ?_, fun dev' => ?_, h.device⟩
  · by_cases hne : dev' = dev
    · rw [hne, setDevice_self, ← h.registered dev]
    · rw [setDevice_of_ne hne, h.registered]
  · by_cases hne : dev' = dev
    · rw [hne, setDevice_self, ← h.ports dev]
    · rw [setDevice_of_ne hne, h.ports]

theorem SameLists.receivedFrame (h : SameLists s s') {port : Option π} {e : Core.Entry}
    (hsome : s'.receivedFrame port e = some s'') : SameLists s s'' := by
  cases port with
  | none => cases hsome
  | some port =>
    obtain ⟨dev, -, rfl⟩ := Option.map_eq_some_iff.1 hsome
    exact h.setQueue dev _

theorem SameLists.sendFrame (h : SameLists s s') (port : π) (e : Core.Entry) :
    SameLists s (s'.sendFrame port e) := by
  rw [State.sendFrame]
  cases (s'.ports port).sendFrame with
  | driver => exact ⟨h.devices, h.registered, h.ports, h.device⟩
  | dummy =>
    simp only [dummySendFrame]
    cases (s'.ports port).userptr with
    | none => exact h
    | some dst =>
      cases hreceived : s'.receivedFrame (some dst) e with
      | none => simpa [hreceived] using h
      | some s'' => simpa [hreceived] using h.receivedFrame hreceived

omit [DecidableEq δ] [DecidableEq π] in
/-- So have the pool and what drivers have in their hands. -/
theorem SameLists.pool (s : State δ π) (free hands : List Core.Entry) :
    SameLists s { s with freeFramequeue := free, hands := hands } :=
  ⟨rfl, fun _ => rfl, fun _ => rfl, fun _ => rfl⟩

omit [DecidableEq π] in
theorem sameLists_read (s : State δ π) (dev : δ) (size : ℕ) (nonblock fault : Bool) :
    SameLists s (s.deviceRead dev size nonblock fault).2 := by
  rcases s.deviceRead_cases dev size nonblock fault with ⟨hs, -⟩ | ⟨e, q, -, -, hs⟩
  · rw [hs]
    exact .refl s
  · rw [hs]
    have hqueue := (SameLists.refl s).setQueue dev q
    exact ⟨hqueue.devices, hqueue.registered, hqueue.ports, hqueue.device⟩

theorem sameLists_write (s : State δ π) (dev : δ) (size : ℕ) (copy : Copy) (space : Bool) :
    SameLists s (s.deviceWrite dev size copy space).2 := by
  rcases s.deviceWrite_cases dev size copy space with
    ⟨-, -, hs | ⟨e, pool, left, -, hs⟩⟩ | ⟨e, pool, frame, port, -, hs⟩
  · rw [hs]
    exact .refl s
  · rw [hs]
    exact .pool s _ _
  · rw [hs]
    exact (SameLists.pool s pool s.hands).sendFrame port _

/-! ## Devices and ports -/

theorem Shows.registerDevice (h : Shows s a) (dev : δ) :
    Shows (s.registerDevice dev false) (a.step (.registerDevice dev)) := by
  have hself : (a.step (.registerDevice dev)).ports dev = some [] := Function.update_self ..
  have hother : ∀ dev' ≠ dev, (a.step (.registerDevice dev)).ports dev' = a.ports dev' :=
    fun dev' hne => Function.update_of_ne hne _ _
  refine ⟨congrArg (dev :: ·) h.devices, fun dev' => ?_, fun dev' => ?_, h.device⟩
  · by_cases hne : dev' = dev
    · rw [hne, hself]
      exact congrArg Device.registered (setDevice_self s dev _)
    · rw [hother dev' hne, ← h.registered]
      exact congrArg Device.registered (setDevice_of_ne hne s _)
  · by_cases hne : dev' = dev
    · rw [hne, hself]
      exact congrArg Device.ports (setDevice_self s dev _)
    · rw [hother dev' hne, ← h.ports]
      exact congrArg Device.ports (setDevice_of_ne hne s _)

/-- A port that is created and added is the last one of its device. -/
theorem Shows.addPort (h : Shows s a) (hreg : (s.devices dev).registered = true)
    (p : Port δ π) :
    Shows ((s.setPort port p).addPort dev port) (run PortLists.step a (addCalls dev [port])) := by
  obtain ⟨xs, hxs⟩ := Option.isSome_iff_exists.1 ((h.registered dev).symm.trans hreg)
  have hself : (run PortLists.step a (addCalls dev [port])).ports dev = some (xs ++ [port]) :=
    ports_addPort (a := a.step (.createPort dev port)) hxs
  have hother : ∀ dev' ≠ dev,
      (run PortLists.step a (addCalls dev [port])).ports dev' = a.ports dev' :=
    fun dev' hne => Function.update_of_ne hne _ _
  have hlists : (run PortLists.step a (addCalls dev [port])).device =
      Function.update (Function.update a.device port (some dev)) port (some dev) := rfl
  refine ⟨h.devices, fun dev' => ?_, fun dev' => ?_, fun port' hport' => ?_⟩
  · by_cases hne : dev' = dev
    · rw [hne, hself, State.addPort, setDevice_self]
      exact hreg
    · rw [hother dev' hne, ← h.registered, State.addPort, setDevice_of_ne hne]
      rfl
  · by_cases hne : dev' = dev
    · rw [hne, hself, State.addPort, setDevice_self]
      have hports := h.ports dev
      rw [hxs] at hports
      exact congrArg (· ++ [port]) hports
    · rw [hother dev' hne, ← h.ports, State.addPort, setDevice_of_ne hne]
      rfl
  · by_cases hne : port' = port
    · subst hne
      have hdevice : (((s.setPort port' p).addPort dev port').ports port').device = some dev :=
        congrArg Port.device (setPort_self (s.setPort port' p) port' _)
      rw [hdevice, hlists, Function.update_self]
    · have hmem : port' ∈ a.portlist := by
        rcases List.mem_append.1 hport' with hmem | hmem
        · exact hmem
        · exact absurd (List.mem_singleton.1 hmem) hne
      have hdevice : (((s.setPort port p).addPort dev port).ports port').device =
          (s.ports port').device :=
        congrArg Port.device ((setPort_of_ne hne (s.setPort port p) _).trans
          (setPort_of_ne hne s p))
      rw [hdevice, h.device port' hmem, hlists, Function.update_of_ne hne,
        Function.update_of_ne hne]

/-- Deleting ports of one device leaves the others. -/
theorem foldl_deletePort_of_ne {xs : List π} (h : Owned a) (hxs : a.ports dev = some xs)
    (hnodup : xs.Nodup) (hall : a.portlist.Nodup) :
    (xs.foldl PortLists.deletePort a).devices = a.devices ∧
      (∀ dev' ≠ dev, (xs.foldl PortLists.deletePort a).ports dev' = a.ports dev') ∧
      ∀ port ∉ xs, (xs.foldl PortLists.deletePort a).device port = a.device port := by
  induction xs generalizing a with
  | nil => exact ⟨rfl, fun _ _ => rfl, fun _ _ => rfl⟩
  | cons x xs ih =>
    have hdev := h.device dev _ hxs x List.mem_cons_self
    have howned := h.removePort hxs (List.mem_cons_self (a := x)) hnodup hall
    have hremove := removePort_eq hdev hxs
    have hrest : (a.deletePort x).ports dev = some xs := by
      have hports := ports_removePort hdev hxs
      rwa [List.erase_cons_head] at hports
    have hnodup' : (a.removePort x).portlist.Nodup := by
      rw [hremove]
      exact hall.erase x
    obtain ⟨hdevices, hports, hdevice⟩ :=
      ih (a := a.deletePort x) ⟨howned.device, howned.listed, howned.registered⟩ hrest
        (List.nodup_cons.1 hnodup).2 hnodup'
    refine ⟨hdevices.trans (by rw [PortLists.deletePort, hremove]), fun dev' hne => ?_,
      fun port hport => ?_⟩
    · exact (hports dev' hne).trans (ports_removePort_of_ne hdev hxs hne)
    · obtain ⟨hpx, hport⟩ := not_or.1 (mt List.mem_cons.2 hport)
      refine (hdevice port hport).trans ?_
      rw [PortLists.deletePort, hremove]
      exact Function.update_of_ne hpx _ _

theorem Shows.unregisterDevice (h : Shows s a) (hrep : Represents m a)
    (hreg : (s.devices dev).registered = true) :
    Shows (s.unregisterDevice dev) (a.unregisterDevice dev) := by
  obtain ⟨xs, hxs⟩ := Option.isSome_iff_exists.1 ((h.registered dev).symm.trans hreg)
  have hunregister : a.unregisterDevice dev =
      (xs.foldl PortLists.deletePort a).dropDevice dev := by
    rw [PortLists.unregisterDevice, hxs]
    rfl
  have hports : (s.devices dev).ports = xs := by rw [h.ports, hxs]; rfl
  obtain ⟨hdevices, hother, hdevice⟩ :=
    foldl_deletePort_of_ne hrep.owned hxs (hrep.nodup hxs) hrep.nodup_portlist
  obtain ⟨m', -, hrep'⟩ := hrep.unregisterDevice hxs (Nat.lt_succ_self _)
  obtain ⟨hremoved, hsame, -, -⟩ := foldl_removePort xs s
  have hself : (a.unregisterDevice dev).ports dev = none := Function.update_self ..
  have hleft : ∀ dev' ≠ dev, (a.unregisterDevice dev).ports dev' = a.ports dev' := by
    intro dev' hne
    rw [hunregister]
    exact (Function.update_of_ne hne _ _).trans (hother dev' hne)
  have hkept : ∀ dev' ≠ dev, (s.unregisterDevice dev).devices dev' = s.devices dev' := by
    intro dev' hne
    rw [State.unregisterDevice, hports]
    exact (setDevice_of_ne hne _ _).trans (congrFun hsame dev')
  have hgone : (s.unregisterDevice dev).devices dev =
      ⟨false, [], (s.devices dev).rxframequeue.cleanup⟩ := setDevice_self ..
  refine ⟨?_, fun dev' => ?_, fun dev' => ?_, fun port hport => ?_⟩
  · rw [hunregister]
    show s.dmx512Devices.erase dev = (xs.foldl PortLists.deletePort a).devices.erase dev
    rw [hdevices, h.devices]
  · by_cases hne : dev' = dev
    · rw [hne, hself, hgone]
      rfl
    · rw [hkept dev' hne, hleft dev' hne, h.registered]
  · by_cases hne : dev' = dev
    · rw [hne, hself, hgone]
      rfl
    · rw [hkept dev' hne, hleft dev' hne, h.ports]
  · -- the port is left, and so it is one of another device
    obtain ⟨dev', ys, hys, hmem⟩ := (hrep'.owned.listed port).1 hport
    have hne : dev' ≠ dev := by
      rintro rfl
      rw [hself] at hys
      cases hys
    rw [hleft dev' hne] at hys
    have hnot : port ∉ xs := by
      intro hin
      have hdev := hrep.owned.device dev xs hxs port hin
      rw [hrep.owned.device dev' ys hys port hmem] at hdev
      exact hne (Option.some.inj hdev)
    have hleft' : ((s.unregisterDevice dev).ports port).device = (s.ports port).device := by
      rw [State.unregisterDevice, hports]
      exact (hremoved port).trans (if_neg hnot)
    rw [hleft', h.device port ((hrep.owned.listed port).2 ⟨dev', ys, hys, hmem⟩), hunregister]
    exact (hdevice port hnot).symm

omit [DecidableEq δ] in
theorem connect_devices (s : State δ π) (dmx0 dmx1 : δ) (portsCount : ℕ) :
    (s.connect dmx0 dmx1 portsCount).dmx512Devices = s.dmx512Devices := by
  rw [connect]
  induction List.range portsCount generalizing s with
  | nil => rfl
  | cons i is ih =>
    refine (ih (s.connectAt dmx0 dmx1 i)).trans ?_
    unfold connectAt
    cases s.portByIndex dmx0 i <;> cases s.portByIndex dmx1 i <;> rfl

theorem Shows.addDummyPorts (h : Shows s a) (hreg : (s.devices dev).registered = true)
    (ports : List π) :
    Shows (s.addDummyPorts dev ports) (run PortLists.step a (addCalls dev ports)) := by
  induction ports generalizing s a with
  | nil => exact h
  | cons port ports ih =>
    have hadd : Shows ((s.setPort port ⟨some dev, .dummy, false, none⟩).addPort dev port)
        (run PortLists.step a (addCalls dev [port])) := h.addPort hreg _
    refine ih hadd ?_
    show (((s.setPort port ⟨some dev, .dummy, false, none⟩).addPort dev port).devices
      dev).registered = true
    rw [State.addPort, setDevice_self]
    exact hreg

/-! ## What a driver may call -/

omit [DecidableEq δ] [DecidableEq π] in
theorem Shows.not_mem_portlist (h : Shows s a) (howned : Owned a) (hnew : s.New port) :
    port ∉ a.portlist := by
  intro hmem
  obtain ⟨dev, xs, hxs, hp⟩ := (howned.listed port).1 hmem
  refine hnew dev ?_
  rw [h.ports, hxs]
  exact hp

/-- Ports that are new, and others each, may be added. -/
theorem legal_addCalls {ports : List π} (hsome : (a.ports dev).isSome) (hnodup : ports.Nodup)
    (hnew : ∀ port ∈ ports, port ∉ a.portlist) :
    EachStep PortLists.step Legal a (addCalls dev ports) := by
  induction ports generalizing a with
  | nil => exact eachStep_nil
  | cons port ports ih =>
    have hport := hnew port List.mem_cons_self
    obtain ⟨xs, hxs⟩ := Option.isSome_iff_exists.1 hsome
    refine eachStep_cons.2 ⟨hport, eachStep_cons.2 ⟨⟨hsome, hport⟩, ?_⟩⟩
    refine ih ?_ (List.nodup_cons.1 hnodup).2 fun port' hport' hmem => ?_
    · have hports : ((a.step (.createPort dev port)).step (.addPort dev port)).ports dev =
          some (xs ++ [port]) := ports_addPort hxs
      rw [hports]
      rfl
    · rcases List.mem_append.1 hmem with hmem | hmem
      · exact hnew port' (List.mem_cons_of_mem port hport') hmem
      · exact (List.nodup_cons.1 hnodup).1 (List.mem_singleton.1 hmem ▸ hport')

omit [DecidableEq δ] [DecidableEq π] in
theorem Shows.ports_eq_none (h : Shows s a) (hreg : (s.devices dev).registered = false) :
    a.ports dev = none :=
  Option.isNone_iff_eq_none.1 (by simpa using (h.registered dev).symm.trans hreg)

/-- **The calls of an event may be made, and do to the lists what the event
does to the kernel.** -/
theorem Shows.of_step (h : Shows s a) (hrep : Represents m a) {e : Event δ π} (hok : s.Orderly e) :
    EachStep PortLists.step Legal a (s.calls e) ∧
      Shows (s.step e) (run PortLists.step a (s.calls e)) := by
  cases e with
  | read dev size nonblock fault =>
    exact ⟨eachStep_nil, h.congr (sameLists_read s dev size nonblock fault)⟩
  | write dev size copy space =>
    exact ⟨eachStep_nil, h.congr (sameLists_write s dev size copy space)⟩
  | register dev err =>
    simp only [State.calls, State.step]
    cases hreg : (s.devices dev).registered with
    | true => exact ⟨eachStep_nil, h⟩
    | false =>
      obtain rfl := hok hreg
      exact ⟨eachStep_cons.2 ⟨h.ports_eq_none hreg, eachStep_nil⟩, h.registerDevice dev⟩
  | unregister dev =>
    simp only [State.calls, State.step]
    cases hreg : (s.devices dev).registered with
    | true =>
      refine ⟨eachStep_cons.2 ⟨(h.registered dev).symm.trans hreg, eachStep_nil⟩, ?_⟩
      exact h.unregisterDevice hrep hreg
    | false => exact ⟨eachStep_nil, h⟩
  | addPort dev port transmitterHasSpace =>
    simp only [State.calls, State.step]
    cases hreg : (s.devices dev).registered with
    | true =>
      refine ⟨legal_addCalls ((h.registered dev).symm.trans hreg) (List.nodup_singleton port) ?_,
        h.addPort hreg _⟩
      intro port' hport'
      rw [List.mem_singleton.1 hport']
      exact h.not_mem_portlist hrep.owned (hok hreg)
    | false => exact ⟨eachStep_nil, h⟩
  | createDummy dev ports err =>
    simp only [State.calls, State.step]
    cases hreg : (s.devices dev).registered with
    | true => exact ⟨eachStep_nil, h⟩
    | false =>
      obtain ⟨rfl, hnodup, hnew⟩ := hok hreg
      have hself : (a.step (.registerDevice dev)).ports dev = some [] := Function.update_self ..
      have hregistered : ((s.registerDevice dev false).devices dev).registered = true :=
        congrArg Device.registered (setDevice_self s dev _)
      refine ⟨eachStep_cons.2 ⟨h.ports_eq_none hreg, legal_addCalls ?_ hnodup fun port hport => ?_⟩,
        (h.registerDevice dev).addDummyPorts hregistered ports⟩
      · rw [hself]
        rfl
      · exact h.not_mem_portlist hrep.owned (hnew port hport)
  | connect dmx0 dmx1 portsCount =>
    obtain ⟨hdevices, -, -, hports⟩ := s.connect_spec dmx0 dmx1 portsCount
    refine ⟨eachStep_nil, h.congr ⟨connect_devices s dmx0 dmx1 portsCount, fun dev => ?_,
      fun dev => ?_, hports⟩⟩
    · exact congrArg Device.registered (congrFun hdevices dev)
    · exact congrArg Device.ports (congrFun hdevices dev)
  | getFrame =>
    refine ⟨eachStep_nil, h.congr ?_⟩
    simp only [State.step]
    cases s.freeFramequeue with
    | nil => exact .refl s
    | cons e pool => exact .pool s _ _
  | putFrame id =>
    refine ⟨eachStep_nil, h.congr ?_⟩
    simp only [State.step]
    cases s.hands.find? (·.id = id) with
    | none => exact .refl s
    | some e => exact .pool s _ _
  | receivedFrame port id frame =>
    refine ⟨eachStep_nil, h.congr ?_⟩
    simp only [State.step]
    cases s.hands.find? (·.id = id) with
    | none => exact .refl s
    | some e =>
      have hpool := SameLists.pool s s.freeFramequeue (s.hands.eraseP (·.id = id))
      cases hreceived : ({ s with hands := s.hands.eraseP (·.id = id) } : State δ π).receivedFrame
          port { e with frame := frame } with
      | none => simpa [hreceived] using SameLists.refl s
      | some s'' => simpa [hreceived] using hpool.receivedFrame hreceived

/-! ## Runs -/

theorem Shows.of_run (h : Shows s a) (hrep : Represents m a) {k : ℕ} (hshort : Short k a)
    {es : List (Event δ π)} (hok : EachStep State.step Orderly s es) :
    EachStep PortLists.step Legal a (s.allCalls es) ∧
      Shows (run State.step s es) (run PortLists.step a (s.allCalls es)) := by
  induction es generalizing s a m k with
  | nil => exact ⟨eachStep_nil, h⟩
  | cons e es ih =>
    obtain ⟨hfirst, hrest⟩ := eachStep_cons.1 hok
    obtain ⟨hlegal, hshows⟩ := h.of_step hrep hfirst
    obtain ⟨m', -, hrep', hshort'⟩ := hrep.execAll hshort hlegal (Nat.lt_succ_self _)
    obtain ⟨hlegal', hshows'⟩ := ih hshows hrep' hshort' hrest
    refine ⟨eachStep_append.2 ⟨hlegal, hlegal'⟩, ?_⟩
    rw [allCalls, run_append]
    exact hshows'

omit [DecidableEq δ] [DecidableEq π] in
theorem shows_coreInit (garbage : ℕ → Core.Frame) (device : π → Option δ) :
    Shows (State.coreInit garbage) (PortLists.start device) :=
  ⟨rfl, fun _ => rfl, fun _ => rfl, fun _ hport => by cases hport⟩

omit [DecidableEq δ] in
/-- A port of a device is where the lists say it is. -/
theorem Shows.portIndex (h : Shows s a) (howned : Owned a) (hreg : (s.devices dev).registered = true)
    (hport : port ∈ (s.devices dev).ports) :
    ∃ i : ℕ, a.index port = i ∧ s.portIndex port = UInt16.ofNat i ∧
      (a.device port).bind a.ports = a.ports dev := by
  obtain ⟨xs, hxs⟩ := Option.isSome_iff_exists.1 ((h.registered dev).symm.trans hreg)
  have hports : (s.devices dev).ports = xs := by rw [h.ports, hxs]; rfl
  rw [hports] at hport
  have hdev := howned.device dev xs hxs port hport
  have hlisted := h.device port ((howned.listed port).2 ⟨dev, xs, hxs, hport⟩)
  obtain ⟨i, hi⟩ := Option.isSome_iff_exists.1 (List.isSome_idxOf?.2 hport)
  refine ⟨i, ?_, ?_, by rw [hdev]; rfl⟩
  · rw [PortLists.index, hdev, Option.bind_some, hxs, Option.getD_some, hi]
  · rw [State.portIndex, hlisted, hdev]
    simp only [hports, hi]

end State

/-- **Frames are routed by what the pointers say**: whatever users and
drivers do, as long as no registration fails and no port is added twice, the
calls this makes of the lists end, and then the pointers lead from each
registered device and place to the port a frame for the place goes to, and
from each of its ports to the place a frame from the port comes with. -/
theorem lookup_refines (garbage : ℕ → Core.Frame) (memory : PortMemory δ π)
    (es : List (Event δ π)) (hok : EachStep State.step State.Orderly (State.coreInit garbage) es)
    {passes : ℕ}
    (hpasses : ((State.coreInit garbage : State δ π).allCalls es).length < passes) :
    ∃ m answers, (PortMemory.start memory).execAll passes
        ((State.coreInit garbage : State δ π).allCalls es) = some (m, answers) ∧
      ∀ dev, ((run State.step (State.coreInit garbage) es).devices dev).registered = true →
        (∀ i : ℕ, m.portByIndex passes (some dev) i =
          some ((run State.step (State.coreInit garbage) es).portByIndex dev i)) ∧
        ∀ port ∈ ((run State.step (State.coreInit garbage) es).devices dev).ports,
          ∃ i : ℕ, m.portIndex passes (some port) = some (i : ℤ) ∧
            (run State.step (State.coreInit garbage) es).portIndex port = UInt16.ofNat i := by
  have hrep := represents_start memory
  have hshort : Short 0 (start memory.device : PortLists δ π) := fun _ _ hxs => by cases hxs
  obtain ⟨hlegal, hshows⟩ := (State.shows_coreInit garbage memory.device).of_run hrep hshort hok
  obtain ⟨m, hrun, hrep', hshort'⟩ := hrep.execAll hshort hlegal (by rwa [Nat.zero_add])
  refine ⟨m, _, hrun, fun dev hreg => ?_⟩
  obtain ⟨xs, hxs⟩ := Option.isSome_iff_exists.1 ((hshows.registered dev).symm.trans hreg)
  have hlen : xs.length < passes := by
    have := hshort' dev xs hxs
    omega
  refine ⟨fun i => ?_, fun port hport => ?_⟩
  · rw [hrep'.portByIndex hxs hlen, portAt, State.portByIndex, hshows.ports, if_pos (by omega)]
    rfl
  · obtain ⟨i, hindex, hkernel, hbind⟩ := hshows.portIndex hrep'.owned hreg hport
    exact ⟨i, by rw [hrep'.portIndex (hbind.trans hxs) hlen, hindex], hkernel⟩

/-- The only port of a device is found at its first place. -/
theorem lookup_refines_first :
    ∃ (m : PortMemory ℕ ℕ) (answers : List (PortAnswer ℕ)),
      (PortMemory.start ⟨⟨id, id⟩, fun _ => none, []⟩).execAll 4
        [.registerDevice 0, .createPort 0 7, .addPort 0 7] = some (m, answers) ∧
      m.portByIndex 4 (some 0) 0 = some (some 7) := by
  have hnew : ∀ dev, 7 ∉ (((State.coreInit fun _ => Core.Frame.single : State ℕ ℕ).step
      (.register 0 false)).devices dev).ports := by
    intro dev
    by_cases hd : dev = 0
    · rw [hd]
      exact List.not_mem_nil
    · have hother := State.setDevice_of_ne hd (State.coreInit fun _ => Core.Frame.single : State ℕ ℕ)
        ⟨true, [], Core.Framequeue.init⟩
      exact (congrArg (7 ∉ Device.ports ·) hother).mpr List.not_mem_nil
  have hok : EachStep State.step State.Orderly (State.coreInit fun _ => Core.Frame.single)
      [.register 0 false, .addPort 0 7 false] :=
    eachStep_cons.2 ⟨fun _ => rfl, eachStep_cons.2 ⟨fun _ => hnew, eachStep_nil⟩⟩
  obtain ⟨m, answers, hrun, hlookup⟩ :=
    lookup_refines (fun _ => Core.Frame.single) ⟨⟨id, id⟩, fun _ => none, []⟩ _ hok
      (by decide : 3 < 4)
  exact ⟨m, answers, hrun, (hlookup 0 rfl).1 0⟩

end Kernel

end Dmx4Linux2
