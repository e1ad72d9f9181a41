import Dmx4Linux2.Common.Run
import Dmx4Linux2.Kernel.Model.Ports
import Mathlib.Data.List.Nodup

/-!
# dmx512 kernel core — ports in their lists

What the lists are for, without pointers, is `PortLists`: each registered
device has its ports in the order they were added in, and all ports are in
one list. The circular lists represent it (`Represents`), each call of a
driver does what it is to do there, and the loops end (`ports_refine`). A
port is found under the index it says it has, and no other is
(`portByIndex_iff`).
-/

namespace Dmx4Linux2

namespace Kernel

variable {δ π : Type}

/-- **Devices and ports as lists**: the registered devices, the last one
first, the ports of each that is registered, all ports, the device a port
says it belongs to, and the ports that were freed. -/
structure PortLists (δ π : Type) where
  devices : List δ
  ports : δ → Option (List π)
  portlist : List π
  device : π → Option δ
  freed : List π

namespace PortLists

/-- No device is registered. -/
def start (device : π → Option δ) : PortLists δ π := ⟨[], fun _ => none, [], device, []⟩

/-- **What a driver may call**: a device is registered when it is not, and
all else is about one that is; a port is added when it is in no list, and
removed when it is. -/
def Legal (a : PortLists δ π) : PortCall δ π → Prop
  | .registerDevice dev => a.ports dev = none
  | .unregisterDevice (some dev) => (a.ports dev).isSome
  | .createPort _ port => port ∉ a.portlist
  | .addPort dev port => (a.ports dev).isSome ∧ port ∉ a.portlist
  | .removePort port => port ∈ a.portlist
  | .deletePort (some port) => port ∈ a.portlist
  | .portIndex (some port) => ((a.device port).bind a.ports).isSome
  | .portByIndex (some dev) _ => (a.ports dev).isSome
  | _ => True

/-- **A port belongs to the device whose ports it is among**, and these are
the ports there are. -/
structure Owned (a : PortLists δ π) : Prop where
  device : ∀ dev xs, a.ports dev = some xs → ∀ p ∈ xs, a.device p = some dev
  listed : ∀ p, p ∈ a.portlist ↔ ∃ dev xs, a.ports dev = some xs ∧ p ∈ xs
  registered : ∀ dev, dev ∈ a.devices ↔ (a.ports dev).isSome

/-- **The circular lists have these devices and ports on them.** -/
structure Represents (m : PortMemory δ π) (a : PortLists δ π) : Prop where
  owned : Owned a
  devices : m.links.Circle .devices (a.devices.map .devicelistItem)
  portlist : m.links.Circle .portlist (a.portlist.map .portlistItem)
  ports : ∀ dev xs, a.ports dev = some xs → m.links.Circle (.ports dev) (xs.map .deviceItem)
  device : m.device = a.device
  freed : m.freed = a.freed

variable {a : PortLists δ π} {m : PortMemory δ π} {dev : δ} {port : π} {xs ys : List π}

theorem deviceItem_injective : Function.Injective (ListHead.deviceItem : π → ListHead δ π) :=
  fun _ _ h => ListHead.deviceItem.inj h

theorem portlistItem_injective : Function.Injective (ListHead.portlistItem : π → ListHead δ π) :=
  fun _ _ h => ListHead.portlistItem.inj h

theorem devicelistItem_injective :
    Function.Injective (ListHead.devicelistItem : δ → ListHead δ π) :=
  fun _ _ h => ListHead.devicelistItem.inj h

/-- The ports of two devices are others. -/
theorem Owned.apart (h : Owned a) {dev' : δ} (hne : dev' ≠ dev) (hxs : a.ports dev = some xs)
    (hys : a.ports dev' = some ys) :
    ∀ n ∈ (.ports dev' :: ys.map .deviceItem : List (ListHead δ π)),
      n ∉ (.ports dev :: xs.map .deviceItem : List (ListHead δ π)) := by
  have hports : ∀ p ∈ ys, ∀ p' ∈ xs, ¬ p' = p := by
    rintro p hp _ hp' rfl
    have hdev := h.device dev' ys hys _ hp
    rw [h.device dev xs hxs _ hp'] at hdev
    exact hne (Option.some.inj hdev).symm
  simpa [hne] using hports

/-- So are the members of the list of all. -/
theorem portlist_apart (xs ys : List π) :
    ∀ n ∈ (.ports dev :: xs.map .deviceItem : List (ListHead δ π)),
      n ∉ (.portlist :: ys.map .portlistItem : List (ListHead δ π)) := by
  simp

theorem Owned.not_mem_ports (h : Owned a) (hport : port ∉ a.portlist)
    (hxs : a.ports dev = some xs) : port ∉ xs := fun hmem =>
  hport ((h.listed port).2 ⟨dev, xs, hxs, hmem⟩)

theorem Represents.nodup (h : Represents m a) (hxs : a.ports dev = some xs) : xs.Nodup :=
  (List.nodup_cons.1 (h.ports dev xs hxs).nodup).2.of_map _

theorem Represents.nodup_portlist (h : Represents m a) : a.portlist.Nodup :=
  (List.nodup_cons.1 h.portlist.nodup).2.of_map _

theorem Represents.nodup_devices (h : Represents m a) : a.devices.Nodup :=
  (List.nodup_cons.1 h.devices.nodup).2.of_map _

/-! ## What the calls are to do -/

section

variable [DecidableEq δ] [DecidableEq π] (a : PortLists δ π)

/-- The port leaves its device and the list of all. -/
def removePort (port : π) : PortLists δ π :=
  match a.device port with
  | none => a
  | some dev =>
    { a with
      ports := Function.update a.ports dev ((a.ports dev).map (·.erase port))
      portlist := a.portlist.erase port
      device := Function.update a.device port none }

def deletePort (port : π) : PortLists δ π :=
  { a.removePort port with freed := a.freed ++ [port] }

/-- The device, whose ports are gone, is no longer registered. -/
def dropDevice (dev : δ) : PortLists δ π :=
  { a with devices := a.devices.erase dev, ports := Function.update a.ports dev none }

/-- The ports of the device are deleted with it. -/
def unregisterDevice (dev : δ) : PortLists δ π :=
  (((a.ports dev).getD []).foldl deletePort a).dropDevice dev

/-- What a call is to do. -/
def step (a : PortLists δ π) : PortCall δ π → PortLists δ π
  | .registerDevice dev =>
    { a with devices := dev :: a.devices, ports := Function.update a.ports dev (some []) }
  | .unregisterDevice (some dev) => a.unregisterDevice dev
  | .createPort dev port => { a with device := Function.update a.device port (some dev) }
  | .addPort dev port =>
    { a with
      ports := Function.update a.ports dev ((a.ports dev).map (· ++ [port]))
      portlist := a.portlist ++ [port]
      device := Function.update a.device port (some dev) }
  | .removePort port => a.removePort port
  | .deletePort (some port) => a.deletePort port
  | _ => a

/-- The place of a port among those of its device. -/
def index (port : π) : ℤ :=
  match (((a.device port).bind a.ports).getD []).idxOf? port with
  | some i => i
  | none => -1

/-- The port at a place. -/
def portAt (dev : δ) (index : ℤ) : Option π :=
  if 0 ≤ index then ((a.ports dev).getD [])[index.toNat]? else none

/-- What a call is to return. -/
def answer (a : PortLists δ π) : PortCall δ π → PortAnswer π
  | .portIndex none => .index (-1)
  | .portIndex (some port) => .index (a.index port)
  | .portByIndex none _ => .port none
  | .portByIndex (some dev) index => .port (a.portAt dev index)
  | _ => .done

end

variable [DecidableEq δ] [DecidableEq π]

/-! ## Registering -/

theorem Owned.registerDevice (h : Owned a) (hnone : a.ports dev = none) :
    Owned (a.step (.registerDevice dev)) := by
  have hself : (a.step (.registerDevice dev)).ports dev = some [] := Function.update_self ..
  have hold : ∀ dev' xs, (a.step (.registerDevice dev)).ports dev' = some xs →
      dev' = dev ∧ xs = [] ∨ a.ports dev' = some xs := by
    intro dev' xs hxs
    by_cases heq : dev' = dev
    · subst heq
      rw [hself] at hxs
      exact .inl ⟨rfl, (Option.some.inj hxs).symm⟩
    · exact .inr ((Function.update_of_ne heq _ _).symm.trans hxs)
  refine ⟨fun dev' xs hxs p hp => ?_, fun p => ?_, fun dev' => ?_⟩
  · rcases hold dev' xs hxs with ⟨-, rfl⟩ | hxs
    · simp at hp
    · exact h.device dev' xs hxs p hp
  · refine (h.listed p).trans ⟨?_, ?_⟩
    · rintro ⟨dev', xs, hxs, hp⟩
      have hne : dev' ≠ dev := by
        rintro rfl
        rw [hnone] at hxs
        cases hxs
      exact ⟨dev', xs, (Function.update_of_ne hne _ _).trans hxs, hp⟩
    · rintro ⟨dev', xs, hxs, hp⟩
      rcases hold dev' xs hxs with ⟨-, rfl⟩ | hxs
      · simp at hp
      · exact ⟨dev', xs, hxs, hp⟩
  · by_cases heq : dev' = dev
    · simp [step, heq]
    · simp [step, heq, h.registered]

theorem Represents.registerDevice (h : Represents m a) (hnone : a.ports dev = none) :
    Represents (m.registerDevice dev) (a.step (.registerDevice dev)) := by
  have hnew : dev ∉ a.devices := by
    rw [h.owned.registered, hnone]
    simp
  have hdevices : (m.links.initListHead (.ports dev)).Circle .devices
      (a.devices.map .devicelistItem) := h.devices.congr_initListHead (by simp)
  have hadd := hdevices.listAdd (a := .devicelistItem dev) (by simpa using hnew)
  have hself : (a.step (.registerDevice dev)).ports dev = some [] := Function.update_self ..
  refine ⟨h.owned.registerDevice hnone, hadd, ?_, fun dev' xs hxs => ?_, h.device, h.freed⟩
  · exact hdevices.congr_listAdd (h.portlist.congr_initListHead (by simp)) (by simp) (by simp)
  · by_cases heq : dev' = dev
    · subst heq
      rw [hself] at hxs
      obtain rfl := Option.some.inj hxs
      exact hdevices.congr_listAdd Links.Circle.initListHead (by simp) (by simp)
    · have hxs : a.ports dev' = some xs := (Function.update_of_ne heq _ _).symm.trans hxs
      have hother : (m.links.initListHead (.ports dev)).Circle (.ports dev')
          (xs.map .deviceItem) :=
        (h.ports dev' xs hxs).congr_initListHead (by simpa using Ne.symm heq)
      exact hdevices.congr_listAdd hother (by simp) (by simp)

/-! ## Ports -/

theorem Represents.createPort (h : Represents m a) (hport : port ∉ a.portlist) :
    Represents (m.createPort dev port) (a.step (.createPort dev port)) := by
  refine ⟨⟨fun dev' xs hxs p hp => ?_, h.owned.listed, h.owned.registered⟩, h.devices, h.portlist,
    h.ports, ?_, h.freed⟩
  · have hne : p ≠ port := fun heq => h.owned.not_mem_ports hport hxs (heq ▸ hp)
    exact (Function.update_of_ne hne _ _).trans (h.owned.device dev' xs hxs p hp)
  · show Function.update m.device port (some dev) = Function.update a.device port (some dev)
    rw [h.device]

theorem ports_addPort (hxs : a.ports dev = some xs) :
    (a.step (.addPort dev port)).ports dev = some (xs ++ [port]) := by
  have hself : (a.step (.addPort dev port)).ports dev = (a.ports dev).map (· ++ [port]) :=
    Function.update_self ..
  rw [hself, hxs]
  rfl

theorem Owned.addPort (h : Owned a) (hxs : a.ports dev = some xs) (hport : port ∉ a.portlist) :
    Owned (a.step (.addPort dev port)) := by
  have hself : (a.step (.addPort dev port)).ports dev = some (xs ++ [port]) := ports_addPort hxs
  have hother : ∀ dev' ≠ dev, (a.step (.addPort dev port)).ports dev' = a.ports dev' :=
    fun dev' hne => Function.update_of_ne hne _ _
  refine ⟨fun dev' ys hys p hp => ?_, fun p => ?_, fun dev' => ?_⟩
  · by_cases heq : p = port
    · subst heq
      have hdev : dev' = dev := by
        by_contra hne
        rw [hother dev' hne] at hys
        exact h.not_mem_ports hport hys hp
      rw [hdev]
      exact Function.update_self ..
    · refine (Function.update_of_ne heq _ _).trans ?_
      by_cases hne : dev' = dev
      · subst hne
        rw [hself] at hys
        obtain rfl := Option.some.inj hys
        exact h.device dev' xs hxs p (by simpa [heq] using hp)
      · rw [hother dev' hne] at hys
        exact h.device dev' ys hys p hp
  · show p ∈ a.portlist ++ [port] ↔ _
    rw [List.mem_append, h.listed, List.mem_singleton]
    constructor
    · rintro (⟨dev', ys, hys, hp⟩ | rfl)
      · by_cases hne : dev' = dev
        · subst hne
          rw [hxs] at hys
          obtain rfl := Option.some.inj hys
          exact ⟨dev', _, hself, by simp [hp]⟩
        · exact ⟨dev', ys, (hother dev' hne).trans hys, hp⟩
      · exact ⟨dev, _, hself, by simp⟩
    · rintro ⟨dev', ys, hys, hp⟩
      by_cases hne : dev' = dev
      · subst hne
        rw [hself] at hys
        obtain rfl := Option.some.inj hys
        rcases List.mem_append.1 hp with hp | hp
        · exact .inl ⟨dev', xs, hxs, hp⟩
        · exact .inr (List.mem_singleton.1 hp)
      · rw [hother dev' hne] at hys
        exact .inl ⟨dev', ys, hys, hp⟩
  · refine (h.registered dev').trans ?_
    by_cases hne : dev' = dev
    · rw [hne, hself, hxs]
      simp
    · rw [hother dev' hne]

theorem Represents.addPort (h : Represents m a) (hxs : a.ports dev = some xs)
    (hport : port ∉ a.portlist) :
    Represents (m.addPort dev port) (a.step (.addPort dev port)) := by
  have hc := h.ports dev xs hxs
  have hnew : port ∉ xs := h.owned.not_mem_ports hport hxs
  have hadd : (m.links.listAddTail (.deviceItem port) (.ports dev)).Circle (.ports dev)
      ((xs ++ [port]).map .deviceItem) := by
    rw [List.map_append]
    exact hc.listAddTail (by simpa using hnew)
  have hlist := hc.congr_listAddTail (a := .deviceItem port) h.portlist (by simp) (by simp)
  refine ⟨h.owned.addPort hxs hport, ?_, ?_, fun dev' ys hys => ?_, ?_, h.freed⟩
  · exact hlist.congr_listAddTail
      (hc.congr_listAddTail h.devices (by simp) (by simp)) (by simp) (by simp)
  · have hall := hlist.listAddTail (a := .portlistItem port) (by simpa using hport)
    show (m.addPort dev port).links.Circle .portlist ((a.portlist ++ [port]).map .portlistItem)
    rw [List.map_append]
    exact hall
  · by_cases hne : dev' = dev
    · subst hne
      rw [ports_addPort hxs] at hys
      obtain rfl := Option.some.inj hys
      exact hlist.congr_listAddTail hadd (portlist_apart _ _) (by simp)
    · have hys : a.ports dev' = some ys := (Function.update_of_ne hne _ _).symm.trans hys
      have hnot : port ∉ ys := h.owned.not_mem_ports hport hys
      have hother := hc.congr_listAddTail (a := .deviceItem port) (h.ports dev' ys hys)
        (h.owned.apart hne hxs hys) (by simpa using hnot)
      exact hlist.congr_listAddTail hother (by simp) (by simp)
  · show Function.update m.device port (some dev) = Function.update a.device port (some dev)
    rw [h.device]

/-- What removing a port does to the lists it is in. -/
theorem removePort_eq (hdev : a.device port = some dev) (hxs : a.ports dev = some xs) :
    a.removePort port =
      { a with
        ports := Function.update a.ports dev (some (xs.erase port))
        portlist := a.portlist.erase port
        device := Function.update a.device port none } := by
  rw [removePort, hdev]
  simp [hxs]

theorem ports_removePort (hdev : a.device port = some dev) (hxs : a.ports dev = some xs) :
    (a.removePort port).ports dev = some (xs.erase port) := by
  rw [removePort_eq hdev hxs]
  exact Function.update_self ..

theorem ports_removePort_of_ne (hdev : a.device port = some dev) (hxs : a.ports dev = some xs)
    {dev' : δ} (hne : dev' ≠ dev) : (a.removePort port).ports dev' = a.ports dev' := by
  rw [removePort_eq hdev hxs]
  exact Function.update_of_ne hne ..

theorem Owned.removePort (h : Owned a) (hxs : a.ports dev = some xs) (hmem : port ∈ xs)
    (hnodup : xs.Nodup) (hall : a.portlist.Nodup) : Owned (a.removePort port) := by
  have hdev := h.device dev xs hxs port hmem
  have hself := ports_removePort hdev hxs
  have hsame : ∀ dev' ≠ dev, (a.removePort port).ports dev' = a.ports dev' :=
    fun dev' hne => ports_removePort_of_ne hdev hxs hne
  have hother : ∀ dev' ≠ dev, ∀ ys, a.ports dev' = some ys → port ∉ ys := by
    intro dev' hne ys hys hp
    have hdev' := h.device dev' ys hys port hp
    rw [hdev] at hdev'
    exact hne (Option.some.inj hdev').symm
  refine ⟨fun dev' ys hys p hp => ?_, fun p => ?_, fun dev' => ?_⟩
  · have hp' : ∃ zs, a.ports dev' = some zs ∧ p ∈ zs ∧ p ≠ port := by
      by_cases hne : dev' = dev
      · subst hne
        rw [hself] at hys
        obtain rfl := Option.some.inj hys
        obtain ⟨hpp, hp⟩ := hnodup.mem_erase_iff.1 hp
        exact ⟨xs, hxs, hp, hpp⟩
      · rw [hsame dev' hne] at hys
        exact ⟨ys, hys, hp, fun heq => hother dev' hne ys hys (heq ▸ hp)⟩
    obtain ⟨zs, hzs, hp, hpp⟩ := hp'
    rw [removePort_eq hdev hxs]
    exact (Function.update_of_ne hpp _ _).trans (h.device dev' zs hzs p hp)
  · have hlist : (a.removePort port).portlist = a.portlist.erase port := by
      rw [removePort_eq hdev hxs]
    rw [hlist, hall.mem_erase_iff, h.listed]
    constructor
    · rintro ⟨hpp, dev', ys, hys, hp⟩
      by_cases hne : dev' = dev
      · subst hne
        rw [hxs] at hys
        obtain rfl := Option.some.inj hys
        exact ⟨dev', _, hself, hnodup.mem_erase_iff.2 ⟨hpp, hp⟩⟩
      · exact ⟨dev', ys, (hsame dev' hne).trans hys, hp⟩
    · rintro ⟨dev', ys, hys, hp⟩
      by_cases hne : dev' = dev
      · subst hne
        rw [hself] at hys
        obtain rfl := Option.some.inj hys
        obtain ⟨hpp, hp⟩ := hnodup.mem_erase_iff.1 hp
        exact ⟨hpp, dev', xs, hxs, hp⟩
      · rw [hsame dev' hne] at hys
        exact ⟨fun heq => hother dev' hne ys hys (heq ▸ hp), dev', ys, hys, hp⟩
  · have hdevices : (a.removePort port).devices = a.devices := by rw [removePort_eq hdev hxs]
    rw [hdevices, h.registered]
    by_cases hne : dev' = dev
    · rw [hne, hself, hxs]
      simp
    · rw [hsame dev' hne]

theorem Represents.removePort (h : Represents m a) (hxs : a.ports dev = some xs)
    (hmem : port ∈ xs) : Represents (m.removePort port) (a.removePort port) := by
  have hdev := h.owned.device dev xs hxs port hmem
  have howned := h.owned.removePort hxs hmem (h.nodup hxs) h.nodup_portlist
  have hlisted : port ∈ a.portlist := (h.owned.listed port).2 ⟨dev, xs, hxs, hmem⟩
  have hc := h.ports dev xs hxs
  have hx : ListHead.deviceItem port ∈ xs.map (ListHead.deviceItem : π → ListHead δ π) :=
    List.mem_map_of_mem hmem
  have hall := hc.congr_listDel_of_mem hx h.portlist (by simp)
  have hy : ListHead.portlistItem port ∈
      a.portlist.map (ListHead.portlistItem : π → ListHead δ π) := List.mem_map_of_mem hlisted
  have hself : (m.links.listDel (.deviceItem port)).Circle (.ports dev)
      ((xs.erase port).map .deviceItem) := by
    rw [List.map_erase deviceItem_injective]
    exact hc.listDel_of_mem hx
  refine ⟨howned, ?_, ?_, fun dev' ys hys => ?_, ?_, ?_⟩
  · rw [removePort_eq hdev hxs]
    exact hall.congr_listDel_of_mem hy
      (hc.congr_listDel_of_mem hx h.devices (by simp)) (by simp)
  · rw [removePort_eq hdev hxs]
    show (m.removePort port).links.Circle .portlist ((a.portlist.erase port).map .portlistItem)
    rw [List.map_erase portlistItem_injective]
    exact hall.listDel_of_mem hy
  · by_cases hne : dev' = dev
    · subst hne
      rw [ports_removePort hdev hxs] at hys
      obtain rfl := Option.some.inj hys
      exact hall.congr_listDel_of_mem hy hself (portlist_apart _ _)
    · rw [ports_removePort_of_ne hdev hxs hne] at hys
      have hother := hc.congr_listDel_of_mem hx (h.ports dev' ys hys) (h.owned.apart hne hxs hys)
      exact hall.congr_listDel_of_mem hy hother (portlist_apart _ _)
  · rw [removePort_eq hdev hxs]
    show Function.update m.device port none = Function.update a.device port none
    rw [h.device]
  · rw [removePort_eq hdev hxs]
    exact h.freed

theorem Represents.deletePort (h : Represents m a) (hxs : a.ports dev = some xs)
    (hmem : port ∈ xs) : Represents (m.deletePort port) (a.deletePort port) := by
  have hremove := h.removePort hxs hmem
  have hfreed : (a.removePort port).freed = a.freed := by
    rw [removePort_eq (h.owned.device dev xs hxs port hmem) hxs]
  refine ⟨⟨hremove.owned.device, hremove.owned.listed, hremove.owned.registered⟩, hremove.devices,
    hremove.portlist, hremove.ports, hremove.device, ?_⟩
  show m.freed ++ [port] = a.freed ++ [port]
  rw [h.freed]

/-! ## The loops -/

/-- **Unregistering deletes each port of the device once.** When the loop
takes the next member it is the first that is left. -/
theorem Represents.removePorts (h : Represents m a) (hxs : a.ports dev = some xs) {passes : ℕ}
    (hpasses : xs.length < passes) :
    ∃ m', PortMemory.removePorts dev passes m (m.links.next (.ports dev))
        (m.links.next (m.links.next (.ports dev))) = some m' ∧
      Represents m' (xs.foldl PortLists.deletePort a) ∧
      (xs.foldl PortLists.deletePort a).ports dev = some [] := by
  induction xs generalizing m a passes with
  | nil =>
    obtain ⟨k, rfl⟩ := Nat.exists_eq_add_of_lt hpasses
    have hfirst : m.links.next (.ports dev) = .ports dev := (h.ports dev [] hxs).chain.1
    rw [hfirst]
    exact ⟨m, if_pos rfl, h, hxs⟩
  | cons x xs ih =>
    rw [List.length_cons] at hpasses
    obtain ⟨k, rfl⟩ := Nat.exists_eq_add_of_le' (by omega : 1 ≤ passes)
    have hc := h.ports dev (x :: xs) hxs
    have hdev := h.owned.device dev _ hxs x List.mem_cons_self
    have hrep := h.deletePort hxs (List.mem_cons_self (a := x))
    have hrest : (a.deletePort x).ports dev = some xs := by
      have hports := ports_removePort hdev hxs
      rwa [List.erase_cons_head] at hports
    have hsecond : m.links.next (.deviceItem x) = (m.deletePort x).links.next (.ports dev) := by
      rw [(hrep.ports dev xs hrest).next_head_eq]
      exact hc.next_first_eq
    obtain ⟨m', hrun, hrep', hnone⟩ := ih hrep hrest (by omega : xs.length < k)
    refine ⟨m', ?_, hrep', hnone⟩
    rw [show m.links.next (.ports dev) = .deviceItem x from hc.next_head, hsecond]
    exact hrun

omit [DecidableEq π] in
theorem Owned.dropDevice (h : Owned a) (hxs : a.ports dev = some [])
    (hnodup : a.devices.Nodup) : Owned (a.dropDevice dev) := by
  have hother : ∀ dev' ys, (a.dropDevice dev).ports dev' = some ys →
      dev' ≠ dev ∧ a.ports dev' = some ys := by
    intro dev' ys hys
    by_cases hne : dev' = dev
    · have hself : (a.dropDevice dev).ports dev = none := Function.update_self ..
      rw [hne, hself] at hys
      cases hys
    · exact ⟨hne, (Function.update_of_ne hne _ _).symm.trans hys⟩
  refine ⟨fun dev' ys hys => h.device dev' ys (hother dev' ys hys).2, fun p => ?_, fun dev' => ?_⟩
  · refine (h.listed p).trans ⟨?_, ?_⟩
    · rintro ⟨dev', ys, hys, hp⟩
      have hne : dev' ≠ dev := by
        rintro rfl
        rw [hxs] at hys
        obtain rfl := Option.some.inj hys
        simp at hp
      exact ⟨dev', ys, (Function.update_of_ne hne _ _).trans hys, hp⟩
    · rintro ⟨dev', ys, hys, hp⟩
      exact ⟨dev', ys, (hother dev' ys hys).2, hp⟩
  · show dev' ∈ a.devices.erase dev ↔ (Function.update a.ports dev none dev').isSome
    rw [hnodup.mem_erase_iff, h.registered]
    by_cases hne : dev' = dev
    · simp [hne]
    · simp [hne]

theorem Represents.dropDevice (h : Represents m a) (hxs : a.ports dev = some []) :
    Represents { m with links := m.links.listDel (.devicelistItem dev) } (a.dropDevice dev) := by
  have howned := h.owned.dropDevice hxs h.nodup_devices
  have hmem : dev ∈ a.devices := by
    rw [h.owned.registered, hxs]
    rfl
  have hx := List.mem_map_of_mem (f := (ListHead.devicelistItem : δ → ListHead δ π)) hmem
  refine ⟨howned, ?_, ?_, fun dev' ys hys => ?_, h.device, h.freed⟩
  · show (m.links.listDel _).Circle .devices ((a.devices.erase dev).map .devicelistItem)
    rw [List.map_erase devicelistItem_injective]
    exact h.devices.listDel_of_mem hx
  · exact h.devices.congr_listDel_of_mem hx h.portlist (by simp)
  · by_cases hne : dev' = dev
    · have hself : (a.dropDevice dev).ports dev = none := Function.update_self ..
      rw [hne, hself] at hys
      cases hys
    · have hys : a.ports dev' = some ys := (Function.update_of_ne hne _ _).symm.trans hys
      exact h.devices.congr_listDel_of_mem hx (h.ports dev' ys hys) (by simp)

theorem Represents.unregisterDevice (h : Represents m a) (hxs : a.ports dev = some xs)
    {passes : ℕ} (hpasses : xs.length < passes) :
    ∃ m', m.unregisterDevice passes dev = some m' ∧ Represents m' (a.unregisterDevice dev) := by
  obtain ⟨m', hrun, hrep, hnone⟩ := h.removePorts hxs hpasses
  refine ⟨{ m' with links := m'.links.listDel (.devicelistItem dev) }, ?_, ?_⟩
  · rw [PortMemory.unregisterDevice, hrun]
    rfl
  · rw [PortLists.unregisterDevice, hxs]
    exact hrep.dropDevice hnone

/-- From a node on, the loop counts the ports that are before the one it
looks for. -/
theorem portIndexFrom_eq {n : ListHead δ π} {passes : ℕ}
    (hchain : m.links.Chain n (xs.map .deviceItem) (.ports dev)) (hpasses : xs.length < passes)
    (index : ℤ) :
    m.portIndexFrom dev port passes index (m.links.next n) =
      some (match xs.idxOf? port with
        | some i => index + i
        | none => -1) := by
  induction xs generalizing n index passes with
  | nil =>
    obtain ⟨k, rfl⟩ := Nat.exists_eq_add_of_lt hpasses
    rw [show m.links.next n = .ports dev from hchain.1]
    exact if_pos rfl
  | cons x xs ih =>
    rw [List.length_cons] at hpasses
    obtain ⟨k, rfl⟩ := Nat.exists_eq_add_of_le' (by omega : 1 ≤ passes)
    obtain ⟨⟨hnext, -⟩, hrest⟩ := hchain
    rw [hnext, PortMemory.portIndexFrom, if_neg (by simp), List.idxOf?_cons]
    by_cases heq : x = port
    · simp [heq]
    · rw [if_neg (by simpa using heq), ih hrest (by omega)]
      simp only [beq_iff_eq, heq, if_false]
      cases xs.idxOf? port with
      | none => rfl
      | some i =>
        simp only [Option.map_some, Option.some_inj]
        show index + 1 + (i : ℤ) = index + ((i + 1 : ℕ) : ℤ)
        omega

theorem portByIndexFrom_eq {n : ListHead δ π} {passes : ℕ}
    (hchain : m.links.Chain n (xs.map .deviceItem) (.ports dev)) (hpasses : xs.length < passes)
    (index i : ℤ) :
    m.portByIndexFrom dev index passes i (m.links.next n) =
      some (if i ≤ index then xs[(index - i).toNat]? else none) := by
  induction xs generalizing n i passes with
  | nil =>
    obtain ⟨k, rfl⟩ := Nat.exists_eq_add_of_lt hpasses
    rw [show m.links.next n = .ports dev from hchain.1]
    simp [PortMemory.portByIndexFrom]
  | cons x xs ih =>
    rw [List.length_cons] at hpasses
    obtain ⟨k, rfl⟩ := Nat.exists_eq_add_of_le' (by omega : 1 ≤ passes)
    obtain ⟨⟨hnext, -⟩, hrest⟩ := hchain
    have hnext : m.links.next n = .deviceItem x := hnext
    rw [hnext, PortMemory.portByIndexFrom, if_neg (by simp)]
    by_cases heq : index = i
    · simp [heq]
    · simp only [if_neg heq]
      rw [ih hrest (by omega)]
      by_cases hle : i ≤ index
      · rw [if_pos hle, if_pos (by omega),
          show (index - i).toNat = (index - (i + 1)).toNat + 1 by omega, List.getElem?_cons_succ]
      · rw [if_neg hle, if_neg (by omega)]

theorem Represents.portIndex (h : Represents m a) (hxs : (a.device port).bind a.ports = some xs)
    {passes : ℕ} (hpasses : xs.length < passes) :
    m.portIndex passes (some port) = some (a.index port) := by
  obtain ⟨dev, hdev, hports⟩ := Option.bind_eq_some_iff.1 hxs
  rw [PortMemory.portIndex, h.device, hdev]
  simp only
  rw [portIndexFrom_eq (h.ports dev xs hports).chain hpasses, index, hxs]
  simp only [Option.getD_some, Int.zero_add]

theorem Represents.portByIndex (h : Represents m a) (hxs : a.ports dev = some xs) {passes : ℕ}
    (hpasses : xs.length < passes) (index : ℤ) :
    m.portByIndex passes (some dev) index = some (a.portAt dev index) := by
  rw [PortMemory.portByIndex, portByIndexFrom_eq (h.ports dev xs hxs).chain hpasses, portAt, hxs]
  simp only [Option.getD_some, Int.sub_zero]

/-! ## Runs -/

/-- **One call**, with enough passes for the device with the most ports. -/
theorem Represents.exec (h : Represents m a) {c : PortCall δ π} (hlegal : Legal a c) {passes : ℕ}
    (hpasses : ∀ dev xs, a.ports dev = some xs → xs.length < passes) :
    ∃ m', m.exec passes c = some (m', a.answer c) ∧ Represents m' (a.step c) := by
  cases c with
  | registerDevice dev => exact ⟨_, rfl, h.registerDevice hlegal⟩
  | unregisterDevice dev =>
    cases dev with
    | none => exact ⟨m, rfl, h⟩
    | some dev =>
      obtain ⟨xs, hxs⟩ := Option.isSome_iff_exists.1 hlegal
      obtain ⟨m', hrun, hrep⟩ := h.unregisterDevice hxs (hpasses dev xs hxs)
      exact ⟨m', by rw [PortMemory.exec, hrun]; rfl, hrep⟩
  | createPort dev port => exact ⟨_, rfl, h.createPort hlegal⟩
  | addPort dev port =>
    obtain ⟨xs, hxs⟩ := Option.isSome_iff_exists.1 hlegal.1
    exact ⟨_, rfl, h.addPort hxs hlegal.2⟩
  | removePort port =>
    obtain ⟨dev, xs, hxs, hmem⟩ := (h.owned.listed port).1 hlegal
    exact ⟨_, rfl, h.removePort hxs hmem⟩
  | deletePort port =>
    cases port with
    | none => exact ⟨m, rfl, h⟩
    | some port =>
      obtain ⟨dev, xs, hxs, hmem⟩ := (h.owned.listed port).1 hlegal
      exact ⟨_, rfl, h.deletePort hxs hmem⟩
  | portIndex port =>
    cases port with
    | none => exact ⟨m, rfl, h⟩
    | some port =>
      obtain ⟨xs, hxs⟩ := Option.isSome_iff_exists.1 hlegal
      obtain ⟨dev, -, hports⟩ := Option.bind_eq_some_iff.1 hxs
      exact ⟨m, by rw [PortMemory.exec, h.portIndex hxs (hpasses dev xs hports)]; rfl, h⟩
  | portByIndex dev index =>
    cases dev with
    | none => exact ⟨m, rfl, h⟩
    | some dev =>
      obtain ⟨xs, hxs⟩ := Option.isSome_iff_exists.1 hlegal
      exact ⟨m, by rw [PortMemory.exec, h.portByIndex hxs (hpasses dev xs hxs)]; rfl, h⟩

/-- No device has more ports. -/
def Short (k : ℕ) (a : PortLists δ π) : Prop := ∀ dev xs, a.ports dev = some xs → xs.length ≤ k

theorem Short.removePort {k : ℕ} (h : Short k a) (port : π) : Short k (a.removePort port) := by
  rw [PortLists.removePort]
  cases a.device port with
  | none => exact h
  | some dev =>
    intro dev' ys
    show Function.update a.ports dev ((a.ports dev).map (·.erase port)) dev' = some ys → _
    by_cases hne : dev' = dev
    · rw [hne, Function.update_self]
      intro hys
      obtain ⟨xs, hxs, rfl⟩ := Option.map_eq_some_iff.1 hys
      exact List.length_erase_le.trans (h dev xs hxs)
    · rw [Function.update_of_ne hne]
      exact h dev' ys

theorem Short.foldl_deletePort {k : ℕ} (h : Short k a) (xs : List π) :
    Short k (xs.foldl deletePort a) := by
  induction xs generalizing a with
  | nil => exact h
  | cons x xs ih => exact ih (h.removePort x)

/-- A call gives one port to a device at most. -/
theorem Short.step {k : ℕ} (h : Short k a) (c : PortCall δ π) : Short (k + 1) (a.step c) := by
  have hmono : ∀ {b : PortLists δ π}, Short k b → Short (k + 1) b :=
    fun hb dev xs hxs => (hb dev xs hxs).trans (Nat.le_succ k)
  have hupdate : ∀ dev ys, (∀ zs, ys = some zs → zs.length ≤ k + 1) →
      ∀ dev' zs, Function.update a.ports dev ys dev' = some zs → zs.length ≤ k + 1 := by
    intro dev ys hys dev' zs hzs
    by_cases hne : dev' = dev
    · rw [hne, Function.update_self] at hzs
      exact hys zs hzs
    · rw [Function.update_of_ne hne] at hzs
      exact hmono h dev' zs hzs
  cases c with
  | registerDevice dev => exact hupdate dev _ (by simp)
  | unregisterDevice dev =>
    cases dev with
    | none => exact hmono h
    | some dev =>
      intro dev' zs hzs
      by_cases hne : dev' = dev
      · have hself : (a.unregisterDevice dev).ports dev = none := Function.update_self ..
        rw [hne] at hzs
        cases hself.symm.trans hzs
      · exact hmono (h.foldl_deletePort ((a.ports dev).getD [])) dev' zs
          ((Function.update_of_ne hne _ _).symm.trans hzs)
  | createPort dev port => exact hmono h
  | addPort dev port =>
    refine hupdate dev _ fun zs hzs => ?_
    obtain ⟨xs, hxs, rfl⟩ := Option.map_eq_some_iff.1 hzs
    rw [List.length_append, List.length_singleton]
    exact Nat.succ_le_succ (h dev xs hxs)
  | removePort port => exact hmono (h.removePort port)
  | deletePort port =>
    cases port with
    | none => exact hmono h
    | some port => exact hmono (h.removePort port)
  | portIndex port => cases port <;> exact hmono h
  | portByIndex dev index => cases dev <;> exact hmono h

theorem Represents.execAll {k passes : ℕ} {cs : List (PortCall δ π)} (h : Represents m a)
    (hshort : Short k a) (hlegal : EachStep PortLists.step Legal a cs)
    (hpasses : k + cs.length < passes) :
    ∃ m', m.execAll passes cs = some (m', outputs PortLists.step answer a cs) ∧
      Represents m' (run PortLists.step a cs) ∧ Short (k + cs.length) (run PortLists.step a cs) := by
  induction cs generalizing m a k with
  | nil => exact ⟨m, rfl, h, hshort⟩
  | cons c cs ih =>
    obtain ⟨hfirst, hrest⟩ := eachStep_cons.1 hlegal
    rw [List.length_cons] at hpasses ⊢
    have henough : ∀ dev xs, a.ports dev = some xs → xs.length < passes := by
      intro dev xs hxs
      have := hshort dev xs hxs
      omega
    obtain ⟨m₁, hexec, hrep₁⟩ := h.exec hfirst henough
    obtain ⟨m₂, hexecAll, hrep₂, hshort₂⟩ := ih hrep₁ (hshort.step c) hrest (by omega)
    refine ⟨m₂, ?_, hrep₂, ?_⟩
    · rw [PortMemory.execAll, hexec]
      simp only [Option.bind_eq_bind, Option.bind_some, hexecAll, outputs]
    · rw [run_cons, Nat.add_comm cs.length 1, ← Nat.add_assoc]
      exact hshort₂

theorem represents_start (garbage : PortMemory δ π) :
    Represents (PortMemory.start garbage) (start garbage.device) where
  owned.device _ _ hxs := by cases hxs
  owned.listed p := by simp [start]
  owned.registered dev := by simp [start]
  devices := Links.Circle.initListHead.congr_initListHead (by simp)
  portlist := Links.Circle.initListHead
  ports _ _ hxs := by cases hxs
  device := rfl
  freed := rfl

/-- **The circular lists are lists of devices and ports**: whatever pointers
the memory holds, every sequence of calls that keeps to what a driver may
call ends, returns what it returns for the lists, and leaves them. -/
theorem ports_refine (garbage : PortMemory δ π) (cs : List (PortCall δ π))
    (hlegal : EachStep PortLists.step Legal (start garbage.device) cs) {passes : ℕ}
    (hpasses : cs.length < passes) :
    ∃ m, (PortMemory.start garbage).execAll passes cs =
        some (m, outputs PortLists.step answer (start garbage.device) cs) ∧
      Represents m (run PortLists.step (start garbage.device) cs) := by
  have hshort : Short 0 (start garbage.device : PortLists δ π) := fun _ _ hxs => by cases hxs
  obtain ⟨m, hrun, hrep, -⟩ :=
    (represents_start garbage).execAll hshort hlegal (by omega : 0 + cs.length < passes)
  exact ⟨m, hrun, hrep⟩

/-- A port is added, found, and deleted with its device. -/
theorem ports_refine_one :
    ∃ m, (PortMemory.start ⟨⟨id, id⟩, fun _ => none, []⟩ : PortMemory ℕ ℕ).execAll 6
        [.registerDevice 0, .createPort 0 7, .addPort 0 7, .portIndex (some 7),
          .unregisterDevice (some 0)] =
      some (m, [.done, .done, .done, .index 0, .done]) ∧ m.freed = [7] := by
  have hlegal : EachStep PortLists.step Legal (start fun _ => none : PortLists ℕ ℕ)
      [.registerDevice 0, .createPort 0 7, .addPort 0 7, .portIndex (some 7),
        .unregisterDevice (some 0)] := by
    have hnone : (7 : ℕ) ∉ ([] : List ℕ) := List.not_mem_nil
    exact eachStep_cons.2 ⟨rfl, eachStep_cons.2 ⟨hnone, eachStep_cons.2 ⟨⟨rfl, hnone⟩,
      eachStep_cons.2 ⟨rfl, eachStep_cons.2 ⟨rfl, eachStep_nil⟩⟩⟩⟩⟩
  obtain ⟨m, hrun, hrep⟩ :=
    ports_refine ⟨⟨id, id⟩, fun _ => none, []⟩ _ hlegal (by decide : 5 < 6)
  exact ⟨m, hrun, hrep.freed⟩

/-! ## Looking ports up -/

omit [DecidableEq δ] [DecidableEq π] in
theorem portAt_eq_some_iff (hxs : a.ports dev = some xs) {i : ℤ} :
    a.portAt dev i = some port ↔ 0 ≤ i ∧ xs[i.toNat]? = some port := by
  rw [portAt, hxs, Option.getD_some]
  by_cases hi : 0 ≤ i <;> simp [hi]

/-- In a list without repetitions a port has one place. -/
theorem getElem?_eq_some_iff_idxOf? (hnodup : xs.Nodup) {i : ℕ} :
    xs[i]? = some port ↔ xs.idxOf? port = some i := by
  rw [List.getElem?_eq_some_iff, List.idxOf?_eq_some_iff]
  refine exists_congr fun hi => ⟨fun hget => ⟨by simpa using hget, fun j hj => ?_⟩, fun h => ?_⟩
  · intro hj'
    have hget' : xs[j] = xs[i] := hj'.trans hget.symm
    exact absurd ((hnodup.getElem_inj_iff).1 hget') (Nat.ne_of_lt hj)
  · simpa using h.1

omit [DecidableEq δ] in
theorem portAt_iff_index (h : Represents m a) (hxs : a.ports dev = some xs) {i : ℤ} :
    a.portAt dev i = some port ↔ a.device port = some dev ∧ 0 ≤ i ∧ a.index port = i := by
  rw [portAt_eq_some_iff hxs, getElem?_eq_some_iff_idxOf? (h.nodup hxs)]
  have hindex : a.device port = some dev → (0 ≤ i ∧ a.index port = i ↔
      0 ≤ i ∧ xs.idxOf? port = some i.toNat) := by
    intro hdev
    rw [index, hdev, Option.bind_some, hxs, Option.getD_some]
    cases xs.idxOf? port with
    | none => simp; omega
    | some k => simp; omega
  constructor
  · rintro ⟨hi, hidx⟩
    have hmem : port ∈ xs := List.mem_of_getElem? ((getElem?_eq_some_iff_idxOf? (h.nodup hxs)).2 hidx)
    have hdev := h.owned.device dev xs hxs port hmem
    exact ⟨hdev, (hindex hdev).2 ⟨hi, hidx⟩⟩
  · rintro ⟨hdev, hi⟩
    exact (hindex hdev).1 hi

/-- **A port is found under its index, and under no other**: after any calls
of drivers, looking for the port at a place of a registered device gives just
the port that belongs to the device and says it is there. -/
theorem portByIndex_iff (garbage : PortMemory δ π) (cs : List (PortCall δ π))
    (hlegal : EachStep PortLists.step Legal (start garbage.device) cs) {passes : ℕ}
    (hpasses : cs.length < passes) {m : PortMemory δ π} {answers : List (PortAnswer π)}
    (hrun : (PortMemory.start garbage).execAll passes cs = some (m, answers)) {dev : δ}
    (hdev : ((run PortLists.step (start garbage.device) cs).ports dev).isSome) (port : π) (i : ℤ) :
    m.portByIndex passes (some dev) i = some (some port) ↔
      m.device port = some dev ∧ 0 ≤ i ∧ m.portIndex passes (some port) = some i := by
  have hshort : Short 0 (start garbage.device : PortLists δ π) := fun _ _ hxs => by cases hxs
  obtain ⟨m', hrun', hrep, hshort'⟩ :=
    (represents_start garbage).execAll hshort hlegal (by omega : 0 + cs.length < passes)
  obtain ⟨rfl, -⟩ := Prod.mk.inj (Option.some.inj (hrun.symm.trans hrun'))
  obtain ⟨xs, hxs⟩ := Option.isSome_iff_exists.1 hdev
  have hlen : xs.length < passes := by
    have := hshort' dev xs hxs
    omega
  rw [hrep.portByIndex hxs hlen, Option.some_inj, portAt_iff_index hrep hxs, hrep.device]
  refine and_congr_right fun hport => and_congr_right fun _ => ?_
  have hbind : ((run PortLists.step (start garbage.device) cs).device port).bind
      (run PortLists.step (start garbage.device) cs).ports = some xs := by
    rw [hport]
    exact hxs
  rw [hrep.portIndex hbind hlen, Option.some_inj]

/-- The second port of a device is found at place 1. -/
theorem portByIndex_iff_second :
    ∃ (m : PortMemory ℕ ℕ) (answers : List (PortAnswer ℕ)),
      (PortMemory.start ⟨⟨id, id⟩, fun _ => none, []⟩ : PortMemory ℕ ℕ).execAll 6
        [.registerDevice 0, .createPort 0 7, .addPort 0 7, .createPort 0 8, .addPort 0 8] =
          some (m, answers) ∧
      (m.portByIndex 6 (some 0) 1 = some (some 8) ↔
        m.device 8 = some 0 ∧ (0 : ℤ) ≤ 1 ∧ m.portIndex 6 (some 8) = some 1) := by
  have hlegal : EachStep PortLists.step Legal (start fun _ => none : PortLists ℕ ℕ)
      [.registerDevice 0, .createPort 0 7, .addPort 0 7, .createPort 0 8, .addPort 0 8] := by
    have hnone : ∀ p, (p : ℕ) ∉ ([] : List ℕ) := fun _ => List.not_mem_nil
    have hone : (8 : ℕ) ∉ [7] := by decide
    exact eachStep_cons.2 ⟨rfl, eachStep_cons.2 ⟨hnone 7, eachStep_cons.2 ⟨⟨rfl, hnone 7⟩,
      eachStep_cons.2 ⟨hone, eachStep_cons.2 ⟨⟨rfl, hone⟩, eachStep_nil⟩⟩⟩⟩⟩
  exact ⟨_, _, rfl,
    portByIndex_iff ⟨⟨id, id⟩, fun _ => none, []⟩ _ hlegal (by decide : 5 < 6) rfl rfl 8 1⟩

end PortLists

end Kernel

end Dmx4Linux2
