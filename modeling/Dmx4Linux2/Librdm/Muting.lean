import Dmx4Linux2.Librdm.Passes
import Dmx4Linux2.Librdm.Replies

/-!
# librdm — muting

What a mute or an unmute does to the devices on a bus, sent to one of them or
to all (`Idle.sendMute`), and what a row of them leaves: a device is heard if
the last request that concerned it unmuted it (`Idle.sendMutes`).
-/

namespace Dmx4Linux2

namespace Librdm

variable {D : Fleet} {sys : System} {H : Finset ℕ} {u whom : ℕ} {on : Bool}

/-- The UIDs of all devices. -/
def Fleet.uids (D : Fleet) : Finset ℕ := (D.devices.map RdmDevice.myUid).toFinset

theorem Fleet.mem_uids : u ∈ D.uids ↔ ∃ d ∈ D.devices, d.myUid = u := by
  rw [Fleet.uids, List.mem_toFinset, List.mem_map]

/-- A request to mute (`on`) or to unmute. -/
structure Muting where
  on : Bool
  whom : ℕ

namespace Muting

/-- The request is sent to a device, or to all. -/
def Concerns (m : Muting) (u : ℕ) : Prop := m.whom = broadcast ∨ m.whom = u

instance (m : Muting) (u : ℕ) : Decidable (m.Concerns u) :=
  inferInstanceAs (Decidable (m.whom = broadcast ∨ m.whom = u))

/-- There is somebody to send it to. -/
def Names (m : Muting) (D : Fleet) : Prop := m.whom = broadcast ∨ m.whom ∈ D.uids

/-- Whether a device is unmuted after the request. -/
def heard (m : Muting) (u : ℕ) (before : Bool) : Bool := if m.Concerns u then !m.on else before

/-- What `mute` or `unmute` does. -/
def send (m : Muting) (s : System) : System := if m.on then s.mute m.whom else s.unmute m.whom

/-- The frame it sends. -/
def frame (m : Muting) : DmxData := muteRequest (if m.on then discMute else discUnMute) m.whom

variable (m : Muting)

theorem send_eq (s : System) :
    m.send s = s.sendMute (if m.on then discMute else discUnMute) m.whom := by
  unfold send System.mute System.unmute
  split <;> rfl

theorem frame_isMuteRequest : IsMuteRequest m.frame m.on := muteRequest_isMuteRequest m.on m.whom

theorem frame_not_isDiscUniqueBranch : ¬ IsDiscUniqueBranch m.frame := by
  intro hd
  have hpid := m.frame_isMuteRequest.pid
  rw [hd.pid] at hpid
  cases hon : m.on <;> rw [hon] at hpid <;> exact absurd hpid (by decide)

theorem frame_destination_broadcast (h : m.whom = broadcast) :
    (PacketDecoder.ofData m.frame).destination = broadcast := by
  have hc : Carries (PacketDecoder.ofData m.frame).pkt _ := (muteRequest_holds _ m.whom).carries
  rw [hc.destination, replyMessage_destination, h]
  rfl

theorem lt_broadcast_of_mem_uids (h : u ∈ D.uids) : u < broadcast := by
  obtain ⟨d, hd, rfl⟩ := Fleet.mem_uids.1 h
  have h1 := D.lt d hd
  have h2 := D.ne_broadcast d hd
  unfold broadcast at h2 ⊢
  omega

/-- Whom the frame is addressed to. -/
theorem frame_addressed (h : m.Names D) (u : ℕ) : addressed m.frame u = decide (m.Concerns u) := by
  rcases h with h | h
  · rw [addressed_broadcast (m.frame_destination_broadcast h)]
    exact (decide_eq_true (Or.inl h : m.Concerns u)).symm
  · have hlt := lt_broadcast_of_mem_uids h
    rw [frame, (muteRequest_addressed hlt).2 u]
    refine decide_eq_decide.2 ⟨Or.inr, fun hu => ?_⟩
    exact hu.resolve_left (Nat.ne_of_lt hlt)

/-- **What the devices become.** -/
theorem handle_withHidden (h : m.Names D) (d : RdmDevice) :
    ((withHidden H d).handle m.frame).1 =
      d.setMuted (!m.heard d.myUid (decide (d.myUid ∈ H))) := by
  rw [RdmDevice.handle_mute m.frame_isMuteRequest, withHidden, RdmDevice.setMuted_myUid,
    m.frame_addressed h, heard]
  by_cases hu : m.Concerns d.myUid
  · rw [if_pos (decide_eq_true hu), if_pos hu, Bool.not_not, RdmDevice.setMuted_setMuted]
  · rw [if_neg (by simpa using hu), if_neg hu]

/-- All are silent when it is sent to all, and one replies when it is sent to
one. -/
theorem out_frame (h : Idle D sys H) (hm : m.Names D) :
    (m.whom = broadcast → (sys.bus.handleMaster m.frame).2 = []) ∧
      (m.whom ≠ broadcast → ∃ g, (sys.bus.handleMaster m.frame).2 = [g]) := by
  rw [DmxBus.handleMaster_of_not_discUniqueBranch h.rxqueue m.frame_not_isDiscUniqueBranch]
  constructor
  · intro hall
    have hsilent : replies m.frame sys.bus.slaves = [] := by
      refine List.filterMap_eq_nil_iff.2 fun d _ => ?_
      rw [RdmDevice.handle_mute m.frame_isMuteRequest,
        if_neg (not_not.2 (m.frame_destination_broadcast hall))]
      split <;> rfl
    rw [hsilent]
    rfl
  · intro hone
    have hwhom : m.whom ∈ D.uids := hm.resolve_left hone
    obtain ⟨d, hd, hdu⟩ := Fleet.mem_uids.1 hwhom
    have hmem : withHidden H d ∈ sys.bus.slaves := by
      rw [h.slaves]
      exact List.mem_map_of_mem hd
    have hsome : ((withHidden H d).handle m.frame).2.isSome := by
      have hdst : (PacketDecoder.ofData m.frame).destination ≠ broadcast := by
        rw [frame, (muteRequest_addressed (lt_broadcast_of_mem_uids hwhom)).1]
        exact hone
      have hconcerns : m.Concerns (withHidden H d).myUid := Or.inr hdu.symm
      rw [RdmDevice.handle_mute m.frame_isMuteRequest, m.frame_addressed hm,
        if_pos (decide_eq_true hconcerns), if_pos hdst]
      rfl
    obtain ⟨r, hr⟩ := Option.isSome_iff_exists.1 hsome
    have hreply : r ∈ replies m.frame sys.bus.slaves := List.mem_filterMap.2 ⟨_, hmem, hr⟩
    obtain ⟨r, rs, hrs⟩ := List.exists_cons_of_ne_nil (List.ne_nil_of_mem hreply)
    rw [hrs]
    exact ⟨_, rfl⟩

/-- The UIDs of the devices that are unmuted after the request. -/
def after (m : Muting) (D : Fleet) (H : Finset ℕ) : Finset ℕ :=
  D.uids.filter fun u => m.heard u (decide (u ∈ H))

theorem mem_after (hu : u ∈ D.uids) :
    decide (u ∈ m.after D H) = m.heard u (decide (u ∈ H)) := by
  rw [Bool.eq_iff_iff, decide_eq_true_iff, after, Finset.mem_filter, and_iff_right hu]

end Muting

/-- **A mute or an unmute**, of a device or of all: the call returns with the
system between two requests, and the devices it concerns are muted or not. -/
theorem Idle.sendMute (h : Idle D sys H) (m : Muting) (hm : m.Names D) :
    Idle D (m.send sys) (m.after D H) := by
  obtain ⟨hall, hone⟩ := m.out_frame h hm
  have hslaves : (sys.bus.handleMaster m.frame).1.slaves =
      D.devices.map (withHidden (m.after D H)) := by
    rw [DmxBus.handleMaster_slaves h.rxqueue, h.slaves, List.map_map]
    refine List.map_congr_left fun d hd => ?_
    rw [Function.comp_apply, m.handle_withHidden hm, withHidden,
      m.mem_after (Fleet.mem_uids.2 ⟨d, hd, rfl⟩)]
  have huids : ∀ u ∈ m.after D H, ∃ x ∈ D.devices, x.myUid = u :=
    fun u hu => Fleet.mem_uids.1 (Finset.mem_filter.1 hu).1
  rw [m.send_eq, System.sendMute]
  split
  case isTrue hwhom =>
    -- no future waits for a reply that nobody sends
    refine ⟨?_, DmxBus.handleMaster_rxqueue _, hslaves, huids⟩
    show ((sys.bus.handleMaster m.frame).2.foldl RdmApi.handle sys.api).futures = []
    rw [hall hwhom]
    exact h.futures
  case isFalse hwhom =>
    obtain ⟨g, hg⟩ := hone hwhom
    refine ⟨?_, DmxBus.handleMaster_rxqueue _, hslaves, huids⟩
    rw [System.waitFor_futures]
    exact congrArg RdmApi.futures (System.request_answered h.futures hg)

/-- Whether a device is unmuted after some requests. -/
def heardAfter (ms : List Muting) (u : ℕ) (before : Bool) : Bool :=
  ms.foldl (fun heard m => m.heard u heard) before

/-- **Mutes and unmutes in a row.** -/
theorem Idle.sendMutes (h : Idle D sys H) (ms : List Muting) (hms : ∀ m ∈ ms, m.Names D) :
    Idle D (ms.foldl (fun s m => m.send s) sys)
      (D.uids.filter fun u => heardAfter ms u (decide (u ∈ H))) := by
  induction ms generalizing sys H with
  | nil =>
    have hH : (D.uids.filter fun u => heardAfter [] u (decide (u ∈ H))) = H := by
      ext u
      rw [Finset.mem_filter]
      simp only [heardAfter, List.foldl_nil, decide_eq_true_eq]
      exact and_iff_right_of_imp fun hu => Fleet.mem_uids.2 (h.uids u hu)
    rw [hH]
    exact h
  | cons m ms ih =>
    obtain ⟨hm, hms⟩ := List.forall_mem_cons.1 hms
    have hafter : (D.uids.filter fun u => heardAfter (m :: ms) u (decide (u ∈ H))) =
        D.uids.filter fun u => heardAfter ms u (decide (u ∈ m.after D H)) := by
      refine Finset.filter_congr fun u hu => ?_
      rw [m.mem_after hu]
      rfl
    rw [hafter]
    exact ih (h.sendMute m hm) hms

end Librdm

end Dmx4Linux2
