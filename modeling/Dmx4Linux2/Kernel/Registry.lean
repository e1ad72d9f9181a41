import Dmx4Linux2.Common.Run
import Dmx4Linux2.Core.Framequeue
import Dmx4Linux2.Kernel.Device
import Dmx4Linux2.Kernel.Model.Registry

/-!
# dmx512 kernel core — the list of devices

`_register_dmx512_device` puts a device into the list `dmx512_devices`
before it calls `misc_register`, and leaves it there if that fails, while
its callers free the device. `device_list_iff` says that the list holds
the registered devices, and none that was freed, just as long as no
registration fails.
-/

namespace Dmx4Linux2

namespace Kernel

open Dmx4Linux2.Core

variable {δ π : Type} [DecidableEq δ] [DecidableEq π]

namespace State

variable {s : State δ π} {dev dev' : δ}

/-! ## What the operations do to the list -/

/-- Ports come to a device, and which devices there are stays. -/
theorem addDummyPorts_list (s : State δ π) (dev : δ) (ports : List π) :
    (s.addDummyPorts dev ports).dmx512Devices = s.dmx512Devices ∧
      ∀ dev', ((s.addDummyPorts dev ports).devices dev').registered =
        (s.devices dev').registered := by
  induction ports generalizing s with
  | nil => exact ⟨rfl, fun _ => rfl⟩
  | cons port ports ih =>
    obtain ⟨hlist, hregistered⟩ := ih ((s.setPort port ⟨some dev, .dummy, false, none⟩).addPort dev port)
    refine ⟨hlist, fun dev' => (hregistered dev').trans ?_⟩
    by_cases hd : dev' = dev
    · subst hd
      simp [addPort]
    · simp [addPort, setDevice_of_ne hd]

omit [DecidableEq π] in
theorem registerDevice_registered (s : State δ π) (dev dev' : δ) (err : Bool) :
    ((s.registerDevice dev err).devices dev').registered =
      if dev' = dev then !err else (s.devices dev').registered := by
  by_cases hd : dev' = dev
  · subst hd
    simp [registerDevice]
  · simp [registerDevice, setDevice_of_ne hd, hd]

theorem createDummyDmxDevice_list (s : State δ π) (dev : δ) (ports : List π) (err : Bool) :
    (s.createDummyDmxDevice dev ports err).dmx512Devices = dev :: s.dmx512Devices ∧
      ∀ dev', ((s.createDummyDmxDevice dev ports err).devices dev').registered =
        if dev' = dev then !err else (s.devices dev').registered := by
  unfold createDummyDmxDevice
  cases err with
  | true => exact ⟨rfl, fun dev' => s.registerDevice_registered dev dev' true⟩
  | false =>
    obtain ⟨hlist, hregistered⟩ := (s.registerDevice dev false).addDummyPorts_list dev ports
    exact ⟨hlist, fun dev' => (hregistered dev').trans (s.registerDevice_registered dev dev' false)⟩

theorem unregisterDevice_registered (s : State δ π) (dev dev' : δ) :
    ((s.unregisterDevice dev).devices dev').registered =
      if dev' = dev then false else (s.devices dev').registered := by
  obtain ⟨-, hdevices, -, -⟩ := foldl_removePort (s.devices dev).ports s
  by_cases hd : dev' = dev
  · subst hd
    simp [unregisterDevice]
  · simp only [hd, if_false]
    exact congrArg Device.registered ((setDevice_of_ne hd _ _).trans (congrFun hdevices dev'))

end State

namespace Registry

variable {r : Registry δ π} {dev : δ}

/-- **The list holds the registered devices**, each once, and no device
that was freed. -/
structure Exact (r : Registry δ π) : Prop where
  listed : ∀ dev, dev ∈ r.kernel.dmx512Devices ↔ r.registered dev = true
  nodup : r.kernel.dmx512Devices.Nodup
  alive : ∀ dev ∈ r.kernel.dmx512Devices, r.allocated dev = true

/-- A registered device is there. -/
def Owned (r : Registry δ π) : Prop := ∀ dev, r.registered dev = true → r.allocated dev = true

/-- **The registration of a device does not fail**, where there is one. -/
def Registers (r : Registry δ π) : Request δ π → Prop
  | .register dev err => r.allocated dev = true → r.registered dev = false → err = false
  | .createDummy dev _ err => r.allocated dev = false → err = false
  | _ => True

omit [DecidableEq π] in
/-- The list has gained a device, which is registered or not. -/
theorem exact_cons_iff (hexact : r.Exact) (howned : r.Owned) (r' : Registry δ π) (err : Bool)
    (hdev : r.registered dev = false)
    (hlist : r'.kernel.dmx512Devices = dev :: r.kernel.dmx512Devices)
    (hregistered : ∀ dev', r'.registered dev' = if dev' = dev then !err else r.registered dev')
    (hallocated : err = false → r'.allocated = Function.update r.allocated dev true) :
    r'.Exact ↔ err = false := by
  constructor
  · intro hexact'
    have hin : r'.registered dev = true := (hexact'.listed dev).1 (hlist ▸ List.mem_cons_self)
    rw [hregistered dev, if_pos rfl] at hin
    simpa using hin
  · rintro rfl
    have hnew : dev ∉ r.kernel.dmx512Devices := fun hin =>
      absurd (((hexact.listed dev).1 hin).symm.trans hdev) (by simp)
    refine ⟨fun dev' => ?_, ?_, fun dev' hin => ?_⟩
    · rw [hlist, List.mem_cons, hexact.listed dev', hregistered dev']
      by_cases hd : dev' = dev <;> simp [hd]
    · rw [hlist]
      exact List.nodup_cons.2 ⟨hnew, hexact.nodup⟩
    · rw [hallocated rfl]
      by_cases hd : dev' = dev
      · rw [hd, Function.update_self]
      · rw [hlist, List.mem_cons] at hin
        rw [Function.update_of_ne hd]
        exact howned dev' ((hexact.listed dev').1 (hin.resolve_left hd))

omit [DecidableEq δ] [DecidableEq π] in
/-- Something is done to one device. -/
theorem Owned.change (h : r.Owned) (r' : Registry δ π) (dev : δ)
    (hregistered : ∀ dev', dev' ≠ dev → r'.registered dev' = r.registered dev')
    (hallocated : ∀ dev', dev' ≠ dev → r'.allocated dev' = r.allocated dev')
    (hdev : r'.registered dev = true → r'.allocated dev = true) : r'.Owned := by
  intro dev' hreg
  by_cases hd : dev' = dev
  · rw [hd] at hreg ⊢
    exact hdev hreg
  · rw [hregistered dev' hd] at hreg
    rw [hallocated dev' hd]
    exact h dev' hreg

/-- **Every request keeps registered devices in memory.** -/
theorem Owned.step (h : r.Owned) (req : Request δ π) : (r.step req).Owned := by
  cases req with
  | create dev =>
    simp only [Registry.step]
    split
    · exact h
    · exact h.change _ dev (fun _ _ => rfl) (fun dev' hd => Function.update_of_ne hd ..) fun _ =>
        Function.update_self ..
  | register dev err =>
    simp only [Registry.step]
    split
    case isTrue hcan =>
      refine h.change _ dev (fun dev' hd => ?_) (fun _ _ => rfl) fun _ => hcan.1
      exact (r.kernel.registerDevice_registered dev dev' err).trans (if_neg hd)
    case isFalse => exact h
  | unregister dev =>
    simp only [Registry.step]
    split
    · refine h.change _ dev (fun dev' hd => ?_) (fun _ _ => rfl) fun hreg => ?_
      · exact (r.kernel.unregisterDevice_registered dev dev').trans (if_neg hd)
      · have hgone := (r.kernel.unregisterDevice_registered dev dev).trans (if_pos rfl)
        exact absurd (hgone.symm.trans hreg) (by simp)
    · exact h
  | delete dev =>
    simp only [Registry.step]
    split
    · exact h
    case isFalse hidle =>
      exact h.change _ dev (fun _ _ => rfl) (fun dev' hd => Function.update_of_ne hd ..) fun hreg =>
        absurd hreg hidle
  | createDummy dev ports err =>
    simp only [Registry.step]
    split
    · exact h
    · have hregistered := (r.kernel.createDummyDmxDevice_list dev ports err).2
      refine h.change _ dev (fun dev' hd => (hregistered dev').trans (if_neg hd))
        (fun dev' hd => Function.update_of_ne hd ..) fun hreg => ?_
      exact (Function.update_self ..).trans
        (((hregistered dev).trans (if_pos rfl)).symm.trans hreg)

/-- The list has lost a device, which is not registered any more. -/
theorem Exact.unregister (hexact : r.Exact) (dev : δ) :
    ({ r with kernel := r.kernel.unregisterDevice dev } : Registry δ π).Exact := by
  have hmem : ∀ dev', dev' ∈ r.kernel.dmx512Devices.erase dev ↔
      dev' ≠ dev ∧ dev' ∈ r.kernel.dmx512Devices := fun _ => hexact.nodup.mem_erase_iff
  refine ⟨fun dev' => ?_, hexact.nodup.erase dev, fun dev' hin => ?_⟩
  · refine (hmem dev').trans ?_
    have hregistered := r.kernel.unregisterDevice_registered dev dev'
    rw [hexact.listed dev']
    simp only [registered, hregistered]
    by_cases hd : dev' = dev <;> simp [hd]
  · exact hexact.alive dev' ((hmem dev').1 hin).2

omit [DecidableEq π] in
/-- Memory is allocated or freed, but not that of a device in the list. -/
theorem Exact.allocate (hexact : r.Exact) (dev : δ) {alloc : Bool}
    (hdev : dev ∈ r.kernel.dmx512Devices → alloc = true) :
    ({ r with allocated := Function.update r.allocated dev alloc } : Registry δ π).Exact := by
  refine ⟨hexact.listed, hexact.nodup, fun dev' hin => ?_⟩
  by_cases hd : dev' = dev
  · rw [hd] at hin ⊢
    exact (Function.update_self ..).trans (hdev hin)
  · exact (Function.update_of_ne hd ..).trans (hexact.alive dev' hin)

/-- **Which requests keep the list right.** -/
theorem exact_step_iff (howned : r.Owned) (hexact : r.Exact) (req : Request δ π) :
    (r.step req).Exact ↔ r.Registers req := by
  cases req with
  | create dev =>
    refine iff_of_true ?_ trivial
    simp only [Registry.step]
    split
    · exact hexact
    · exact hexact.allocate dev fun _ => rfl
  | register dev err =>
    simp only [Registry.step, Registers]
    split
    case isTrue hcan =>
      have hsame : r.allocated = Function.update r.allocated dev true := by
        rw [← hcan.1, Function.update_eq_self]
      refine (exact_cons_iff hexact howned { r with kernel := r.kernel.registerDevice dev err } err
        hcan.2 rfl (fun dev' => r.kernel.registerDevice_registered dev dev' err)
        fun _ => hsame).trans ?_
      exact ⟨fun herr _ _ => herr, fun herr => herr hcan.1 hcan.2⟩
    case isFalse hcannot =>
      exact iff_of_true hexact fun hallocated hreg => absurd ⟨hallocated, hreg⟩ hcannot
  | unregister dev =>
    refine iff_of_true ?_ trivial
    simp only [Registry.step]
    split
    · exact hexact.unregister dev
    · exact hexact
  | delete dev =>
    refine iff_of_true ?_ trivial
    simp only [Registry.step]
    split
    · exact hexact
    case isFalse hreg =>
      -- a device in the list is registered, and is not deleted
      exact hexact.allocate dev fun hin => absurd ((hexact.listed dev).1 hin) hreg
  | createDummy dev ports err =>
    simp only [Registry.step, Registers]
    split
    case isTrue hallocated =>
      exact iff_of_true hexact fun hfree => absurd (hallocated.symm.trans hfree) (by simp)
    case isFalse hfree =>
      have hidle : r.registered dev = false := by
        by_contra hreg
        exact hfree (howned dev (by simpa using hreg))
      obtain ⟨hlist, hregistered⟩ := r.kernel.createDummyDmxDevice_list dev ports err
      refine (exact_cons_iff hexact howned ⟨r.kernel.createDummyDmxDevice dev ports err,
        Function.update r.allocated dev (!err)⟩ err hidle hlist hregistered fun herr => ?_).trans ?_
      · rw [herr]
        rfl
      · exact ⟨fun herr _ => herr, fun herr => herr (by simpa using hfree)⟩

/-- **When the list of devices is right**, whatever drivers ask for and in
whatever order: when no registration fails. -/
theorem device_list_iff (garbage : ℕ → Frame) (reqs : List (Request δ π)) :
    Always step Exact (init garbage) reqs ↔ EachStep step Registers (init garbage) reqs := by
  refine always_iff_eachStep (fun r req (h : r.Owned) => h.step req)
    (fun r req howned hexact => exact_step_iff howned hexact req) ?_ ?_
  · exact fun dev hreg => absurd hreg (by simp [init, registered, State.coreInit])
  · exact ⟨fun dev => by simp [init, registered, State.coreInit], List.nodup_nil,
      fun dev hin => absurd hin List.not_mem_nil⟩

/-- The dummy driver is loaded, and its second card cannot be registered:
the card is freed, and stays in the list. -/
theorem dummyDriver_dangling :
    let r := run step (init fun _ => Frame.single : Registry Bool Unit)
      (dummyDriverRequests false true [] [] false true)
    r.kernel.dmx512Devices = [true] ∧ r.allocated true = false ∧
      ¬ Always step Exact (init fun _ => Frame.single : Registry Bool Unit)
        (dummyDriverRequests false true [] [] false true) := by
  have hlist : (run step (init fun _ => Frame.single : Registry Bool Unit)
      (dummyDriverRequests false true [] [] false true)).kernel.dmx512Devices = [true] := rfl
  have hfreed : (run step (init fun _ => Frame.single : Registry Bool Unit)
      (dummyDriverRequests false true [] [] false true)).allocated true = false := rfl
  refine ⟨hlist, hfreed, fun h => ?_⟩
  have halive := h.last.alive true (hlist ▸ List.mem_singleton_self true)
  exact absurd (halive.symm.trans hfreed) (by simp)

end Registry

end Kernel

end Dmx4Linux2
