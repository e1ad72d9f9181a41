import Dmx4Linux2.Common.Queries
import Dmx4Linux2.Librdm.Discovery

/-!
# librdm — how many requests discovery takes

The number of passes of `discoverDevices` grows with the number of devices,
not with the range: 49 for each device and one more are enough, since a range
of 48-bit UIDs is halved at most 48 times (`discovery_passes`). The search may
begin in any state between two requests, and leaves the devices it has found
muted (`Idle.discoverDevices`).
-/

namespace Dmx4Linux2

namespace Librdm

open Bisection

variable {D : Fleet} {sys : System} {H : Finset ℕ} {first last : ℕ}

theorem Refines.of_idle (h : Idle D sys H) (hfirst : 1 ≤ first) (hle : first ≤ last)
    (hlast : last < 2 ^ 48 - 1) :
    Refines D (Discovery.start sys first last) ⟨[(first, last)], [], H⟩ where
  toIdle := h
  pending := by
    simp only [Discovery.start, List.map_cons, List.map_nil, natRange, UInt64.toNat_ofNat']
    rw [Nat.mod_eq_of_lt (by omega), Nat.mod_eq_of_lt (by omega)]
  found := rfl
  fresh _ _ := List.not_mem_nil
  bounds b hb := by
    rw [List.mem_singleton.1 hb]
    simp only
    omega

/-- What the search of a range costs: there are at most 48 halvings. -/
theorem budget_start_le (hlast : last < 2 ^ 48 - 1) :
    budget ⟨[(first, last)], [], H⟩ ≤ 1 + 49 * (inRange (first, last) H).card := by
  have hdepth : depth (first, last) ≤ 48 := by
    rw [depth, Nat.size_le]
    simp only
    omega
  have hmul := Nat.mul_le_mul_right (inRange (first, last) H).card (Nat.add_le_add_right hdepth 1)
  simp only [budget, price, List.map_cons, List.map_nil, List.sum_cons, List.sum_nil]
  omega

/-- **Discovery from any state between two requests**: it takes at most 49
passes for each device to be found, and one; with as many, it finds the devices
that are not muted, each once, and mutes them. -/
theorem Idle.discoverDevices (h : Idle D sys H) (hfirst : 1 ≤ first) (hle : first ≤ last)
    (hlast : last < 2 ^ 48 - 1) (hsep : Separable H first last) (maxSearchCount : ℕ) :
    maxSearchCount ≤ (sys.discoverDevices first last maxSearchCount).2 +
        (1 + 49 * (inRange (first, last) H).card) ∧
      (1 + 49 * (inRange (first, last) H).card ≤ maxSearchCount →
        (sys.discoverDevices first last maxSearchCount).1.searchSpace = [] ∧
        (sys.discoverDevices first last maxSearchCount).1.discoveredDevices.Nodup ∧
        (sys.discoverDevices first last maxSearchCount).1.discoveredDevices.toFinset =
          inRange (first, last) H ∧
        Idle D (sys.discoverDevices first last maxSearchCount).1.sys
          (H \ inRange (first, last) H)) := by
  obtain ⟨n, t, hsteps, ht, hcount, hend⟩ :=
    (Refines.of_idle h hfirst hle hlast).loop maxSearchCount
  have hpaid := hsteps.le_budget hsep (Shrinking.start H hle)
  have hbudget : budget ⟨[(first, last)], [], H⟩ ≤ 1 + 49 * (inRange (first, last) H).card :=
    budget_start_le hlast
  have hloop : sys.discoverDevices first last maxSearchCount =
      Discovery.loop maxSearchCount (Discovery.start sys first last) := rfl
  rw [hloop]
  refine ⟨by omega, fun henough => ?_⟩
  have hnil : t.pending = [] := by
    rcases hend with hnil | hall
    · exact hnil
    · exact pending_eq_nil_of_budget (by omega)
  have hsound : Sound H first last t :=
    hsteps.keeps (fun _ _ h hst => h.step hst) (Sound.start H first last)
  have hfound : t.found.toFinset = inRange (first, last) H := by
    ext u
    rw [List.mem_toFinset, hsound.complete hnil, mem_inRange]
  have hhidden : t.hidden = H \ inRange (first, last) H := by
    ext u
    rw [hsound.hidden, Finset.mem_sdiff, ← hfound, List.mem_toFinset]
  refine ⟨ht.searchSpace_eq_nil.2 hnil, ?_, ?_, hhidden ▸ ht.toIdle⟩
  · rw [ht.found]
    exact hsound.nodup
  · rw [ht.found, hfound]

/-- **Discovery takes 49 passes for each device, and one.** For devices of
which no two unmuted ones are left together by halving, a search of any range
of UIDs makes no more passes than that; and if it may make as many, it has
emptied its search space, and found each device in the range that was not
muted, once. -/
theorem discovery_passes (D : Fleet) (api : RdmApi) (hf : api.futures = []) (first last : ℕ)
    (hfirst : 1 ≤ first) (hle : first ≤ last) (hlast : last < 2 ^ 48 - 1)
    (hsep : Separable (unmutedUids D.devices) first last) (maxSearchCount : ℕ)
    {r : Discovery × ℕ}
    (hr : System.discoverDevices ⟨api, DmxBus.new D.devices⟩ first last maxSearchCount = r) :
    maxSearchCount - r.2 ≤ 1 + 49 * (inRange (first, last) (unmutedUids D.devices)).card ∧
      (1 + 49 * (inRange (first, last) (unmutedUids D.devices)).card ≤ maxSearchCount →
        r.1.searchSpace = [] ∧ r.1.discoveredDevices.Nodup ∧
        r.1.discoveredDevices.toFinset = inRange (first, last) (unmutedUids D.devices)) := by
  obtain ⟨hpasses, hall⟩ := (Idle.start (D := D) api hf).discoverDevices hfirst hle hlast hsep
    maxSearchCount
  rw [hr] at hpasses hall
  refine ⟨by omega, fun henough => ?_⟩
  obtain ⟨hnil, hnodup, hfound, -⟩ := hall henough
  exact ⟨hnil, hnodup, hfound⟩

/-- Two devices among all UIDs take at most 99 passes. -/
theorem discovery_passes_two :
    (System.discoverDevices ⟨freshApi, DmxBus.new apart.devices⟩ 1 0xFFFFFFFFFFFE 99).1.searchSpace =
      [] := by
  have hcard : (inRange (1, 0xFFFFFFFFFFFE) (unmutedUids apart.devices)).card = 2 := by
    rw [apart_uids]
    decide
  have h := (discovery_passes apart freshApi rfl 1 0xFFFFFFFFFFFE (by decide) (by decide)
    (by decide) (apart_separable 1 0xFFFFFFFFFFFE) 99 rfl).2
  rw [hcard] at h
  exact (h le_rfl).1

end Librdm

end Dmx4Linux2
