import Dmx4Linux2.Common.Bisection
import Dmx4Linux2.Librdm.Api

/-!
# librdm — discovery

`discoverDevices` is a bisection search: the hidden numbers are the UIDs
of the unmuted devices, a query is a `DISC_UNIQUE_BRANCH` request, and a
UID is found by muting its device. `Idle.answer` reads the answer to a
query off the hidden set, `Idle.mute` says a mute takes one UID out of
it, and `pass_refines` and `loop_refines` carry the loop of the source
to the abstract search. What the search finds, and whether it ends, are
then facts about bisection.
-/

namespace Dmx4Linux2

namespace Librdm

open Bisection

/-- **Devices that can share a bus**: their UIDs have 48 bits, are
neither 0 nor broadcast, and are pairwise distinct. -/
structure Fleet where
  devices : List RdmDevice
  nodup : (devices.map RdmDevice.myUid).Nodup
  lt : ∀ d ∈ devices, d.myUid < 2 ^ 48
  ne_any : ∀ d ∈ devices, d.myUid ≠ any
  ne_broadcast : ∀ d ∈ devices, d.myUid ≠ broadcast

/-- The UIDs of the unmuted devices. -/
def unmutedUids (ds : List RdmDevice) : Finset ℕ :=
  ((ds.filter fun d => !d.muted).map RdmDevice.myUid).toFinset

/-- The device, unmuted just when its UID is hidden. -/
def withHidden (H : Finset ℕ) (d : RdmDevice) : RdmDevice :=
  d.setMuted (!decide (d.myUid ∈ H))

/-- A range of the search, as numbers. -/
def natRange (a : UInt64 × UInt64) : ℕ × ℕ := (a.1.toNat, a.2.toNat)

variable {D : Fleet} {sys : System} {H : Finset ℕ} {a : UInt64 × UInt64} {u : ℕ}
variable {rest : List (UInt64 × UInt64)}

/-! ## The devices that answer -/

/-- The devices in a range whose UID is hidden. -/
def heard (D : Fleet) (H : Finset ℕ) (a : ℕ × ℕ) : List RdmDevice :=
  D.devices.filter fun d =>
    decide (d.myUid ∈ H) && (decide (a.1 ≤ d.myUid) && decide (d.myUid ≤ a.2))

theorem mem_heard {d : RdmDevice} {b : ℕ × ℕ} :
    d ∈ heard D H b ↔ d ∈ D.devices ∧ d.myUid ∈ H ∧ b.1 ≤ d.myUid ∧ d.myUid ≤ b.2 := by
  simp [heard]

/-- They are as many as the hidden numbers in the range. -/
theorem heard_uids (huids : ∀ u ∈ H, ∃ x ∈ D.devices, x.myUid = u) (b : ℕ × ℕ) :
    ((heard D H b).map RdmDevice.myUid).toFinset = inRange b H ∧
      (heard D H b).length = (inRange b H).card := by
  have hset : ((heard D H b).map RdmDevice.myUid).toFinset = inRange b H := by
    ext v
    rw [List.mem_toFinset, List.mem_map, mem_inRange]
    constructor
    · rintro ⟨d, hd, rfl⟩
      exact (mem_heard.1 hd).2
    · rintro ⟨hv, hlo, hhi⟩
      obtain ⟨x, hx, rfl⟩ := huids v hv
      exact ⟨x, mem_heard.2 ⟨hx, hv, hlo, hhi⟩, rfl⟩
  refine ⟨hset, ?_⟩
  have hnodup : ((heard D H b).map RdmDevice.myUid).Nodup :=
    D.nodup.sublist (List.filter_sublist.map RdmDevice.myUid)
  rw [← hset, List.toFinset_card_of_nodup hnodup, List.length_map]

/-- **The replies to a discovery request** come from the devices heard. -/
theorem replies_discoveryRequest (h1 : a.1.toNat < 2 ^ 48) (h2 : a.2.toNat < 2 ^ 48) :
    replies (discoveryRequest a) (D.devices.map (withHidden H)) =
      (heard D H (natRange a)).map fun d =>
        d.discoveryReply (PacketDecoder.ofData (discoveryRequest a)) discUniqueBranch := by
  have hfilter : (D.devices.filter fun d =>
      answers (discoveryRequest a) (d.setMuted (!decide (d.myUid ∈ H)))) =
        heard D H (natRange a) := by
    refine List.filter_congr fun d _ => ?_
    rw [answers, RdmDevice.setMuted_myUid, RdmDevice.setMuted_muted, discoveryRequest_addressed,
      discoveryRequest_lowerUid h1, discoveryRequest_upperUid h2, Bool.not_not, Bool.true_and]
    rfl
  rw [← hfilter]
  exact replies_discUniqueBranch _ (discoveryRequest_isDiscUniqueBranch a)
    (by rw [discoveryRequest_pdl]) D.devices

/-! ## Between two requests -/

/-- **The system between two requests**: nothing is queued, no future
waits, and the unmuted devices are those with a hidden UID. -/
structure Idle (D : Fleet) (sys : System) (H : Finset ℕ) : Prop where
  futures : sys.api.futures = []
  rxqueue : sys.bus.rxqueue = []
  slaves : sys.bus.slaves = D.devices.map (withHidden H)
  uids : ∀ u ∈ H, ∃ x ∈ D.devices, x.myUid = u

/-- The UIDs of the unmuted devices are hidden at the start. -/
theorem Idle.start (api : RdmApi) (hf : api.futures = []) :
    Idle D ⟨api, DmxBus.new D.devices⟩ (unmutedUids D.devices) where
  futures := hf
  rxqueue := rfl
  slaves := by
    have hid : ∀ d ∈ D.devices, withHidden (unmutedUids D.devices) d = d := by
      intro d hd
      have hmem : d.myUid ∈ unmutedUids D.devices ↔ d.muted = false := by
        unfold unmutedUids
        rw [List.mem_toFinset, List.mem_map]
        constructor
        · rintro ⟨x, hx, hxd⟩
          obtain ⟨hxD, hxm⟩ := List.mem_filter.1 hx
          -- a UID names one device
          have hxd' : x = d := List.inj_on_of_nodup_map D.nodup hxD hd hxd
          rw [← hxd']
          simpa using hxm
        · intro hm
          exact ⟨d, List.mem_filter.2 ⟨hd, by rw [hm]; rfl⟩, rfl⟩
      have hflag : (!decide (d.myUid ∈ unmutedUids D.devices)) = d.muted := by
        cases hm : d.muted <;> simp [hmem, hm]
      rw [withHidden, hflag, RdmDevice.setMuted_self]
    exact ((List.map_congr_left hid).trans (List.map_id _)).symm
  uids u hu := by
    unfold unmutedUids at hu
    rw [List.mem_toFinset, List.mem_map] at hu
    obtain ⟨x, hx, rfl⟩ := hu
    exact ⟨x, (List.mem_filter.1 hx).1, rfl⟩

/-- The frame the bus hands back for a discovery request. -/
theorem Idle.handleMaster (h : Idle D sys H) (h1 : a.1.toNat < 2 ^ 48) (h2 : a.2.toNat < 2 ^ 48) :
    (sys.bus.handleMaster (discoveryRequest a)).2 = match heard D H (natRange a) with
      | [d] => [DmxData.ofVector
          (d.discoveryReply (PacketDecoder.ofData (discoveryRequest a)) discUniqueBranch).bytes]
      | ds => [DmxBus.mergedReply (PacketDecoder.ofData (discoveryRequest a)) ds.length] := by
  rw [DmxBus.handleMaster_of_discUniqueBranch h.rxqueue (discoveryRequest_isDiscUniqueBranch a),
    h.slaves, replies_discoveryRequest h1 h2]
  match heard D H (natRange a) with
  | [] => rfl
  | [d] => rfl
  | d :: d' :: ds => simp

/-- There is one, and it is a message from the device, from 0 or from
the broadcast UID. -/
theorem Idle.handleMaster_holds (h : Idle D sys H) (h1 : a.1.toNat < 2 ^ 48)
    (h2 : a.2.toNat < 2 ^ 48) :
    ∃ g msg, (sys.bus.handleMaster (discoveryRequest a)).2 = [g] ∧ Holds g msg ∧
      msg.header .commandClass = discoveryCommandResponse ∧ msg.header .pid = discUniqueBranch ∧
      msg.header .destination = RdmApi.myUid ∧
      msg.header .source = match heard D H (natRange a) with
        | [d] => d.myUid
        | ds => mergedSource ds.length := by
  have hout := h.handleMaster h1 h2
  have hsrc := discoveryRequest_source a
  generalize heard D H (natRange a) = heard at hout
  match heard, hout with
  | [], hout =>
    refine ⟨_, _, hout, mergedReply_holds _ 0, ?_, ?_, ?_, ?_⟩ <;> simp [hsrc]
  | [d], hout =>
    refine ⟨_, _, hout, RdmDevice.discoveryReply_holds.ofVector, ?_, ?_, ?_, ?_⟩ <;> simp [hsrc]
  | d :: d' :: ds, hout =>
    refine ⟨_, _, hout, mergedReply_holds _ (ds.length + 2), ?_, ?_, ?_, ?_⟩ <;> simp [hsrc]

/-- The future of a query that one frame answers. -/
theorem Discovery.answer_eq {g : DmxData} (hf : sys.api.futures = [])
    (hout : (sys.bus.handleMaster (discoveryRequest a)).2 = [g]) :
    Discovery.answer sys a = ((sys.api.newFuture.object sys.api.next).set g).answer := by
  have hreq := System.request_answered hf hout
  unfold Discovery.answer Discovery.probe System.waitFor RdmApi.waitFor
  simp only [hreq, Function.update_self]
  rw [RdmFuture.wait_of_ready RdmFuture.set_state]

/-- **The answer to a query**, by the hidden numbers in the range. -/
theorem Idle.answer (h : Idle D sys H) (h1 : a.1.toNat < 2 ^ 48) (h2 : a.2.toNat < 2 ^ 48) :
    (inRange (natRange a) H = ∅ → Discovery.answer sys a = .nothing) ∧
    (∀ u, inRange (natRange a) H = {u} → Discovery.answer sys a = .device u) ∧
    (1 < (inRange (natRange a) H).card → Discovery.answer sys a = .collision) := by
  obtain ⟨g, msg, hout, hg, hcc, hpid, hdst, hsrc⟩ := h.handleMaster_holds h1 h2
  obtain ⟨hset, hlen⟩ := heard_uids h.uids (natRange a)
  have hanswer : msg.header .source < 2 ^ 48 → Discovery.answer sys a =
      if msg.header .source = broadcast then .collision
        else if msg.header .source = any then .nothing else .device (msg.header .source) := by
    intro hlt
    rw [Discovery.answer_eq h.futures hout]
    exact RdmFuture.answer_of_carries RdmFuture.set_state (RdmFuture.set_carries hg) hcc hpid hdst
      hlt
  match hheard : heard D H (natRange a) with
  | [] =>
    rw [hheard] at hsrc hlen
    have hsrc0 : msg.header .source = 0 := hsrc
    rw [hsrc0] at hanswer
    refine ⟨fun _ => hanswer (by decide), fun u hu => ?_, fun hmany => ?_⟩
    · rw [hu] at hlen
      simp at hlen
    · rw [← hlen] at hmany
      simp at hmany
  | [d] =>
    rw [hheard] at hsrc hlen hset
    have hd : d ∈ D.devices := by
      have hmem : d ∈ heard D H (natRange a) := by rw [hheard]; exact List.mem_singleton_self d
      exact (mem_heard.1 hmem).1
    have hsrcd : msg.header .source = d.myUid := hsrc
    rw [hsrcd] at hanswer
    refine ⟨fun hempty => ?_, fun u hu => ?_, fun hmany => ?_⟩
    · rw [hempty] at hlen
      simp at hlen
    · rw [hu] at hset
      have hdu : d.myUid = u := by simpa using hset
      rw [hanswer (D.lt d hd), if_neg (D.ne_broadcast d hd), if_neg (D.ne_any d hd), hdu]
    · rw [← hlen] at hmany
      simp at hmany
  | d :: d' :: ds =>
    rw [hheard] at hsrc hlen
    have hsrcb : msg.header .source = broadcast := by
      have hmerged : msg.header .source = mergedSource (ds.length + 2) := hsrc
      rw [hmerged, mergedSource, if_pos (by omega)]
    rw [hsrcb] at hanswer
    refine ⟨fun hempty => ?_, fun u hu => ?_, fun _ => hanswer (by decide)⟩
    · rw [hempty] at hlen
      simp at hlen
    · rw [hu] at hlen
      simp at hlen

/-- **A query changes no device.** -/
theorem Idle.probe (h : Idle D sys H) (h1 : a.1.toNat < 2 ^ 48) (h2 : a.2.toNat < 2 ^ 48) :
    Idle D (Discovery.probe sys a) H := by
  obtain ⟨g, -, hout, -⟩ := h.handleMaster_holds h1 h2
  refine ⟨?_, ?_, ?_, h.uids⟩
  · unfold Discovery.probe
    rw [System.waitFor_futures, System.request_answered h.futures hout]
  · exact DmxBus.handleMaster_rxqueue _
  · unfold Discovery.probe
    rw [System.waitFor_bus, System.request_bus, DmxBus.handleMaster_slaves h.rxqueue, ← h.slaves]
    have hid : ∀ d ∈ sys.bus.slaves, (d.handle (discoveryRequest a)).1 = d := fun d _ => by
      rw [RdmDevice.handle_discUniqueBranch (discoveryRequest_isDiscUniqueBranch a)
        (by rw [discoveryRequest_pdl])]
    exact (List.map_congr_left hid).trans (List.map_id _)

/-- **A mute takes a UID out of the hidden ones.** -/
theorem Idle.mute (h : Idle D sys H) (hu : u ∈ H) : Idle D (sys.mute u) (H.erase u) := by
  obtain ⟨x, hx, rfl⟩ := h.uids u hu
  have hlt : x.myUid < broadcast := by
    have h1 := D.lt x hx
    have h2 := D.ne_broadcast x hx
    unfold broadcast at h2 ⊢
    omega
  have hreq : IsMuteRequest (muteRequest discMute x.myUid) true :=
    muteRequest_isMuteRequest true x.myUid
  have hnot : ¬ IsDiscUniqueBranch (muteRequest discMute x.myUid) := by
    intro hd
    have hpid := hreq.pid
    rw [hd.pid] at hpid
    exact absurd hpid (by decide)
  -- the device itself replies
  have hreply : replies (muteRequest discMute x.myUid) sys.bus.slaves ≠ [] := by
    have hmem : withHidden H x ∈ sys.bus.slaves := by
      rw [h.slaves]
      exact List.mem_map_of_mem hx
    have hsome : ((withHidden H x).handle (muteRequest discMute x.myUid)).2.isSome := by
      have hdst : (PacketDecoder.ofData (muteRequest discMute x.myUid)).destination ≠
          broadcast := by
        rw [(muteRequest_addressed hlt).1]
        exact Nat.ne_of_lt hlt
      rw [RdmDevice.handle_mute hreq, if_pos (by
        rw [(muteRequest_addressed hlt).2]
        exact decide_eq_true rfl), if_pos hdst]
      rfl
    obtain ⟨r, hr⟩ := Option.isSome_iff_exists.1 hsome
    exact List.ne_nil_of_mem (List.mem_filterMap.2 ⟨_, hmem, hr⟩)
  obtain ⟨r, rs, hrs⟩ := List.exists_cons_of_ne_nil hreply
  have hout : (sys.bus.handleMaster (muteRequest discMute x.myUid)).2 =
      [DmxData.ofVector r.bytes] := by
    rw [DmxBus.handleMaster_of_not_discUniqueBranch h.rxqueue hnot, hrs]
    rfl
  have hmute : sys.mute x.myUid =
      (sys.request (muteRequest discMute x.myUid)).waitFor sys.api.next := by
    unfold System.mute System.sendMute
    rw [if_neg (Nat.ne_of_lt hlt)]
  rw [hmute]
  refine ⟨?_, ?_, ?_, fun v hv => h.uids v (Finset.mem_of_mem_erase hv)⟩
  · rw [System.waitFor_futures, System.request_answered h.futures hout]
  · exact DmxBus.handleMaster_rxqueue _
  · rw [System.waitFor_bus, System.request_bus, DmxBus.handleMaster_slaves h.rxqueue, h.slaves,
      List.map_map]
    refine List.map_congr_left fun d _ => ?_
    rw [Function.comp_apply, RdmDevice.handle_mute hreq, (muteRequest_addressed hlt).2]
    unfold withHidden
    rw [RdmDevice.setMuted_myUid]
    by_cases hd : x.myUid = d.myUid
    · rw [if_pos (decide_eq_true hd), RdmDevice.setMuted_setMuted]
      simp [hd]
    · rw [if_neg (by simpa using hd)]
      simp [Finset.mem_erase, Ne.symm hd]

/-! ## The loop is the search -/

/-- **The loop's locals and the abstract search.** The ranges stay inside
the 48-bit UIDs and above 0, so that a request can name them and a split
does not wrap. -/
structure Refines (D : Fleet) (d : Discovery) (s : Search) : Prop extends
    Idle D d.sys s.hidden where
  pending : d.searchSpace.map natRange = s.pending
  found : d.discoveredDevices = s.found
  fresh : ∀ u ∈ s.hidden, u ∉ s.found
  bounds : ∀ b ∈ s.pending, 1 ≤ b.1 ∧ b.1 < 2 ^ 48 ∧ b.2 < 2 ^ 48

variable {d : Discovery} {s : Search} {first last : ℕ}

/-- **A split of the source is a split into halves**: nothing wraps. -/
theorem splitRange_natRange (hpos : 1 ≤ a.1.toNat) (hle : a.1.toNat ≤ a.2.toNat)
    (h2 : a.2.toNat < 2 ^ 48) : (splitRange a).map natRange = halves (natRange a) := by
  have hsum : (a.1 + a.2).toNat = a.1.toNat + a.2.toNat := by
    rw [UInt64.toNat_add, Nat.mod_eq_of_lt (by omega)]
  have hmid : ((a.1 + a.2) / 2).toNat = (a.1.toNat + a.2.toNat) / 2 := by
    rw [UInt64.toNat_div, hsum]
    rfl
  have hone : 1 ≤ (a.1 + a.2) / 2 := by
    rw [UInt64.le_iff_toNat_le, hmid]
    exact (by omega : 1 ≤ (a.1.toNat + a.2.toNat) / 2)
  have hpred : ((a.1 + a.2) / 2 - 1).toNat = (a.1.toNat + a.2.toNat) / 2 - 1 := by
    rw [UInt64.toNat_sub_of_le _ _ hone, hmid]
    rfl
  simp only [splitRange, halves, natRange, List.map_cons, List.map_nil, hmid, hpred]

/-- A number of a range shows that the range is a proper one. -/
theorem le_of_mem_inRange {b : ℕ × ℕ} (h : u ∈ inRange b H) : b.1 ≤ b.2 := by
  obtain ⟨-, hlo, hhi⟩ := mem_inRange.1 h
  omega

theorem Refines.start (api : RdmApi) (hf : api.futures = []) (hfirst : 1 ≤ first)
    (hle : first ≤ last) (hlast : last < 2 ^ 48 - 1) :
    Refines D (Discovery.start ⟨api, DmxBus.new D.devices⟩ first last)
      ⟨[(first, last)], [], unmutedUids D.devices⟩ where
  toIdle := Idle.start api hf
  pending := by
    simp only [Discovery.start, List.map_cons, List.map_nil, natRange, UInt64.toNat_ofNat']
    rw [Nat.mod_eq_of_lt (by omega), Nat.mod_eq_of_lt (by omega)]
  found := rfl
  fresh u _ := List.not_mem_nil
  bounds b hb := by
    rw [List.mem_singleton.1 hb]
    simp only
    omega

/-- **One pass of the loop is one query of the search.** -/
theorem Refines.pass (h : Refines D d s) (hspace : d.searchSpace = a :: rest) :
    ∃ t, Step s t ∧ Refines D (d.pass a rest) t := by
  obtain ⟨pending, found, hidden⟩ := s
  obtain rfl : natRange a :: rest.map natRange = pending := by
    have hp := h.pending
    rw [hspace] at hp
    exact hp
  obtain ⟨hpos, h1, h2⟩ := h.bounds (natRange a) List.mem_cons_self
  have hidle : Idle D d.sys hidden := h.toIdle
  have hrest : ∀ b ∈ rest.map natRange, 1 ≤ b.1 ∧ b.1 < 2 ^ 48 ∧ b.2 < 2 ^ 48 :=
    fun b hb => h.bounds b (List.mem_cons_of_mem _ hb)
  obtain ⟨hnone, hone, hmany⟩ := hidle.answer h1 h2
  have hprobe := hidle.probe h1 h2
  rcases Nat.lt_trichotomy (inRange (natRange a) hidden).card 1 with hc | hc | hc
  · have hempty : inRange (natRange a) hidden = ∅ := Finset.card_eq_zero.1 (by omega)
    refine ⟨_, Step.none hempty, ?_⟩
    unfold Discovery.pass
    rw [hnone hempty]
    exact ⟨hprobe, rfl, h.found, h.fresh, hrest⟩
  · obtain ⟨u, hu⟩ := Finset.card_eq_one.1 hc
    have humem : u ∈ hidden := by
      have hmem : u ∈ inRange (natRange a) hidden := by rw [hu]; exact Finset.mem_singleton_self u
      exact (mem_inRange.1 hmem).1
    have hfresh : u ∉ d.discoveredDevices := by
      rw [h.found]
      exact h.fresh u humem
    refine ⟨_, Step.one u hu, ?_⟩
    unfold Discovery.pass
    rw [hone u hu]
    refine ⟨hprobe.mute humem, ?_, ?_, ?_, ?_⟩
    · rw [List.map_append]
      rfl
    · simp only
      rw [if_neg hfresh, h.found]
    · intro v hv
      obtain ⟨hne, hvh⟩ := Finset.mem_erase.1 hv
      simp only [List.mem_append, List.mem_singleton, not_or]
      exact ⟨h.fresh v hvh, hne⟩
    · intro b hb
      rcases List.mem_append.1 hb with hb | hb
      · exact hrest b hb
      · rw [List.mem_singleton.1 hb]
        exact ⟨hpos, h1, h2⟩
  · refine ⟨_, Step.many hc, ?_⟩
    obtain ⟨v, hv⟩ := Finset.card_pos.1 (Nat.lt_trans Nat.zero_lt_one hc)
    have hle := le_of_mem_inRange hv
    unfold Discovery.pass
    rw [hmany hc]
    refine ⟨hprobe, ?_, h.found, h.fresh, ?_⟩
    · rw [List.map_append, splitRange_natRange hpos hle h2]
    · intro b hb
      rcases List.mem_append.1 hb with hb | hb
      · exact hrest b hb
      · rcases mem_halves.1 hb with rfl | rfl <;> simp only <;> omega

/-- **The loop is a run of the search**: it takes as many steps as it
counts, and stops with an empty queue or with the count used up. -/
theorem Refines.loop (h : Refines D d s) (count : ℕ) :
    ∃ n t, Steps n s t ∧ Refines D (Discovery.loop count d).1 t ∧
      (Discovery.loop count d).2 + n = count ∧ (t.pending = [] ∨ n = count) := by
  induction count generalizing d s with
  | zero => exact ⟨0, s, Steps.refl s, h, rfl, Or.inr rfl⟩
  | succ count ih =>
    unfold Discovery.loop
    match hspace : d.searchSpace with
    | [] =>
      refine ⟨0, s, Steps.refl s, h, rfl, Or.inl ?_⟩
      rw [← h.pending, hspace]
      rfl
    | a :: rest =>
      obtain ⟨t, hst, ht⟩ := h.pass hspace
      obtain ⟨n, w, hsteps, hw, hcount, hend⟩ := ih ht
      refine ⟨n + 1, w, Steps.head hst hsteps, hw, ?_, ?_⟩
      · simp only
        omega
      · rcases hend with hend | hend
        · exact Or.inl hend
        · exact Or.inr (by omega)

/-- The search space is empty just when the abstract queue is. -/
theorem Refines.searchSpace_eq_nil (h : Refines D d s) : d.searchSpace = [] ↔ s.pending = [] := by
  rw [← h.pending, List.map_eq_nil_iff]

/-- **`discoverDevices` is a run of the search** from the range asked
for, with the UIDs of the unmuted devices hidden. -/
theorem discoverDevices_refines (api : RdmApi) (hf : api.futures = []) (hfirst : 1 ≤ first)
    (hle : first ≤ last) (hlast : last < 2 ^ 48 - 1) (count : ℕ) :
    ∃ n t, Steps n ⟨[(first, last)], [], unmutedUids D.devices⟩ t ∧
      Refines D (System.discoverDevices ⟨api, DmxBus.new D.devices⟩ first last count).1 t ∧
      (System.discoverDevices ⟨api, DmxBus.new D.devices⟩ first last count).2 + n = count ∧
      (t.pending = [] ∨ n = count) :=
  (Refines.start api hf hfirst hle hlast).loop count

/-! ## When discovery ends -/

/-- The number of UIDs in a range. -/
def rangeSize (a : UInt64 × UInt64) : ℕ := a.2.toNat + 1 - a.1.toNat

/-- **Discovery ends**: from some count on the search space is emptied
before the count is used up, and a collision replaces a range by two
smaller ones. -/
structure DiscoveryEnds (sys : System) (first last : ℕ) : Prop where
  empties : ∃ N < 2 ^ 64, ∀ maxSearchCount ≥ N,
    (sys.discoverDevices first last maxSearchCount).1.searchSpace = [] ∧
      0 < (sys.discoverDevices first last maxSearchCount).2
  shrinks : ∀ maxSearchCount a rest,
    (sys.discoverDevices first last maxSearchCount).1.searchSpace = a :: rest →
    Discovery.answer (sys.discoverDevices first last maxSearchCount).1.sys a = .collision →
    ∀ b ∈ splitRange a, rangeSize b < rangeSize a

/-- Only several hidden UIDs make a collision. -/
theorem Idle.one_lt_card (h : Idle D sys H) (h1 : a.1.toNat < 2 ^ 48) (h2 : a.2.toNat < 2 ^ 48)
    (hcol : Discovery.answer sys a = .collision) : 1 < (inRange (natRange a) H).card := by
  obtain ⟨hnone, hone, -⟩ := h.answer h1 h2
  rcases Nat.lt_trichotomy (inRange (natRange a) H).card 1 with hc | hc | hc
  · have hempty := hnone (Finset.card_eq_zero.1 (by omega))
    rw [hcol] at hempty
    cases hempty
  · obtain ⟨u, hu⟩ := Finset.card_eq_one.1 hc
    have hdevice := hone u hu
    rw [hcol] at hdevice
    cases hdevice
  · exact hc

/-- Where no two neighbours are left together, discovery ends. -/
theorem discoveryEnds_of_separable (api : RdmApi) (hf : api.futures = []) (hfirst : 1 ≤ first)
    (hle : first ≤ last) (hlast : last < 2 ^ 48 - 1)
    (hsep : Separable (unmutedUids D.devices) first last) :
    DiscoveryEnds ⟨api, DmxBus.new D.devices⟩ first last := by
  have hstart := Shrinking.start (unmutedUids D.devices) hle
  have hcost := cost_start_le (unmutedUids D.devices) hle
  constructor
  · refine ⟨3 * (last - first + 1) + 1, by omega, fun count hcount => ?_⟩
    obtain ⟨n, t, hsteps, ht, hleft, hend⟩ :=
      discoverDevices_refines (D := D) api hf hfirst hle hlast count
    have hn := hsteps.le_cost hsep hstart
    refine ⟨ht.searchSpace_eq_nil.2 ?_, by omega⟩
    rcases hend with hend | hend
    · exact hend
    · omega
  · intro count a rest hspace hcol b hb
    obtain ⟨n, t, hsteps, ht, -, -⟩ :=
      discoverDevices_refines (D := D) api hf hfirst hle hlast count
    have hshrinking : Shrinking (unmutedUids D.devices) first last t :=
      hsteps.keeps (fun _ _ h hst => (h.step hsep hst).1) hstart
    have hmem : natRange a ∈ t.pending := by
      rw [← ht.pending, hspace]
      exact List.mem_cons_self
    obtain ⟨hpos, h1, h2⟩ := ht.bounds _ hmem
    have hlen := hshrinking.two_lt hsep hmem (ht.toIdle.one_lt_card h1 h2 hcol)
    simp only [natRange] at hlen hpos h2
    have hhalf : natRange b ∈ halves (natRange a) := by
      rw [← splitRange_natRange hpos (by omega) h2]
      exact List.mem_map_of_mem hb
    unfold rangeSize
    rcases mem_halves.1 hhalf with hb' | hb' <;> simp only [natRange, Prod.mk.injEq] at hb' <;> omega

/-- Two unmuted neighbours that no split separates keep it going. -/
theorem not_discoveryEnds_of_leadsTo (api : RdmApi) (hf : api.futures = []) (hfirst : 1 ≤ first)
    (hle : first ≤ last) (hlast : last < 2 ^ 48 - 1) (hlead : LeadsTo (first, last) (u, u + 1))
    (hu : u ∈ unmutedUids D.devices) (hu' : u + 1 ∈ unmutedUids D.devices) :
    ¬ DiscoveryEnds ⟨api, DmxBus.new D.devices⟩ first last := by
  intro h
  obtain ⟨N, -, hN⟩ := h.empties
  obtain ⟨n, t, hsteps, ht, -, -⟩ := discoverDevices_refines (D := D) api hf hfirst hle hlast N
  have htrapped : Trapped u t :=
    hsteps.keeps (fun _ _ h hst => h.step hst) (Trapped.start hfirst hlead hu hu')
  exact htrapped.pending_ne_nil (ht.searchSpace_eq_nil.1 (hN N le_rfl).1)

/-- With a future left in the list the first answer goes to that one: the
range is dropped, and nothing is searched. -/
theorem discoveryEnds_of_futures (api : RdmApi) (hnext : ∀ p ∈ api.futures, p < api.next)
    (hf : api.futures ≠ []) (hle : first ≤ last) (hlast : last < 2 ^ 48 - 1) :
    DiscoveryEnds ⟨api, DmxBus.new D.devices⟩ first last := by
  obtain ⟨p, ps, hps⟩ := List.exists_cons_of_ne_nil hf
  set sys : System := ⟨api, DmxBus.new D.devices⟩ with hsys
  set a : UInt64 × UInt64 := (UInt64.ofNat first, UInt64.ofNat last) with ha
  have h1 : a.1.toNat < 2 ^ 48 := by
    rw [ha, UInt64.toNat_ofNat', Nat.mod_eq_of_lt (by omega)]
    omega
  have h2 : a.2.toNat < 2 ^ 48 := by
    rw [ha, UInt64.toNat_ofNat', Nat.mod_eq_of_lt (by omega)]
    omega
  -- the bus does not know about futures
  have hidle : Idle D ⟨RdmApi.new api.object, sys.bus⟩ (unmutedUids D.devices) :=
    Idle.start (RdmApi.new api.object) rfl
  obtain ⟨g, -, hout, -⟩ := hidle.handleMaster_holds h1 h2
  have hbusy := (System.request_overtaken (s := sys) hps
    (Nat.ne_of_lt (hnext p (by rw [hps]; exact List.mem_cons_self))) hout).2
  have hanswer : Discovery.answer sys a = .other := by
    unfold Discovery.answer Discovery.probe System.waitFor RdmApi.waitFor
    simp only [Function.update_self]
    unfold RdmFuture.answer RdmFuture.wait
    rw [if_pos hbusy]
    rfl
  have hpass : (Discovery.pass (Discovery.start sys first last) a []).searchSpace = [] := by
    unfold Discovery.pass
    have hother : Discovery.answer (Discovery.start sys first last).sys a = .other := hanswer
    rw [hother]
  have hloop : ∀ count, (sys.discoverDevices first last (count + 1)) =
      (Discovery.pass (Discovery.start sys first last) a [], count) := by
    intro count
    have hone : sys.discoverDevices first last (count + 1) =
        Discovery.loop count (Discovery.pass (Discovery.start sys first last) a []) := rfl
    rw [hone]
    cases count with
    | zero => rfl
    | succ count =>
      unfold Discovery.loop
      rw [hpass]
  constructor
  · refine ⟨2, by omega, fun count hcount => ?_⟩
    obtain ⟨k, rfl⟩ : ∃ k, count = k + 1 := ⟨count - 1, by omega⟩
    rw [hloop k]
    exact ⟨hpass, by simp only; omega⟩
  · intro count b rest hspace hcol
    cases count with
    | zero =>
      have hstart : (sys.discoverDevices first last 0).1.searchSpace = [a] := rfl
      rw [hstart] at hspace
      obtain ⟨rfl, -⟩ := List.cons.inj hspace
      have hother : Discovery.answer (sys.discoverDevices first last 0).1.sys a = .other := hanswer
      rw [hother] at hcol
      cases hcol
    | succ k =>
      rw [hloop k, hpass] at hspace
      cases hspace

/-- **When discovery ends**: when a future is already waiting, since the
range is then dropped at once, and otherwise just when halving the range
asked for leads to no range of length two that holds two unmuted
devices. -/
theorem discoveryEnds_iff (D : Fleet) (api : RdmApi) (hnext : ∀ p ∈ api.futures, p < api.next)
    (first last : ℕ) (hfirst : 1 ≤ first) (hle : first ≤ last) (hlast : last < 2 ^ 48 - 1) :
    DiscoveryEnds ⟨api, DmxBus.new D.devices⟩ first last ↔
      api.futures ≠ [] ∨ Separable (unmutedUids D.devices) first last := by
  by_cases hf : api.futures = []
  · constructor
    · intro h
      right
      intro u hlead hu hu'
      exact not_discoveryEnds_of_leadsTo api hf hfirst hle hlast hlead hu hu' h
    · rintro (h | hsep)
      · exact absurd hf h
      · exact discoveryEnds_of_separable api hf hfirst hle hlast hsep
  · exact iff_of_true (discoveryEnds_of_futures api hnext hf hle hlast) (Or.inl hf)

/-- Two devices that are not neighbours. -/
def apart : Fleet :=
  ⟨[RdmDevice.new 5, RdmDevice.new 9], by decide, by decide, by decide, by decide⟩

/-- A controller no future waits for. -/
def freshApi : RdmApi := RdmApi.new fun _ => ⟨clearedBuffer, .busy⟩

theorem apart_uids : unmutedUids apart.devices = {5, 9} := by decide

theorem apart_separable (first last : ℕ) : Separable (unmutedUids apart.devices) first last := by
  intro u _ hu hu'
  rw [apart_uids, Finset.mem_insert, Finset.mem_singleton] at hu hu'
  omega

theorem discoveryEnds_apart : DiscoveryEnds ⟨freshApi, DmxBus.new apart.devices⟩ 1 16 :=
  (discoveryEnds_iff apart freshApi (by intro p hp; cases hp) 1 16 (by decide) (by decide)
    (by decide)).2 (Or.inr (apart_separable 1 16))

/-- Two devices that are. -/
def neighbours : Fleet :=
  ⟨[RdmDevice.new 1, RdmDevice.new 2], by decide, by decide, by decide, by decide⟩

/-- The range from the one to the other is split into nothing and itself. -/
theorem not_discoveryEnds_neighbours :
    ¬ DiscoveryEnds ⟨freshApi, DmxBus.new neighbours.devices⟩ 1 2 :=
  not_discoveryEnds_of_leadsTo (u := 1) freshApi rfl (by decide) (by decide) (by decide)
    Relation.ReflTransGen.refl (by decide) (by decide)

/-! ## What is discovered -/

/-- **Discovery is correct.** If the search space is empty when the loop
is left, the UIDs returned are those of the devices in the range, each
once, and the devices in the range are muted, no other. -/
theorem discoverDevices_correct (D : Fleet) (hunmuted : ∀ x ∈ D.devices, x.muted = false)
    (api : RdmApi) (hf : api.futures = []) (first last maxSearchCount : ℕ) (hfirst : 1 ≤ first)
    (hle : first ≤ last) (hlast : last < 2 ^ 48 - 1) :
    let d := (System.discoverDevices ⟨api, DmxBus.new D.devices⟩ first last maxSearchCount).1
    d.searchSpace = [] →
      d.discoveredDevices.Nodup ∧
      (∀ u, u ∈ d.discoveredDevices ↔
        (∃ x ∈ D.devices, x.myUid = u) ∧ first ≤ u ∧ u ≤ last) ∧
      d.sys.bus.slaves =
        D.devices.map fun x => x.setMuted (decide (first ≤ x.myUid ∧ x.myUid ≤ last)) := by
  intro d hend
  obtain ⟨n, t, hsteps, hrefines, -, -⟩ :=
    discoverDevices_refines (D := D) api hf hfirst hle hlast maxSearchCount
  have ht : Refines D d t := hrefines
  have hsound : Sound (unmutedUids D.devices) first last t :=
    hsteps.keeps (fun _ _ h hst => h.step hst) (Sound.start _ first last)
  have hall : ∀ u, u ∈ unmutedUids D.devices ↔ ∃ x ∈ D.devices, x.myUid = u := by
    intro u
    unfold unmutedUids
    rw [List.filter_eq_self.2 fun x hx => by rw [hunmuted x hx]; rfl, List.mem_toFinset,
      List.mem_map]
  have hcomplete := hsound.complete (ht.searchSpace_eq_nil.1 hend)
  refine ⟨?_, ?_, ?_⟩
  · rw [ht.found]
    exact hsound.nodup
  · intro u
    rw [ht.found, hcomplete, hall]
  · rw [ht.slaves]
    refine List.map_congr_left fun x hx => ?_
    have hmem : x.myUid ∈ t.hidden ↔ ¬ (first ≤ x.myUid ∧ x.myUid ≤ last) := by
      have hx' : x.myUid ∈ unmutedUids D.devices := (hall _).2 ⟨x, hx, rfl⟩
      rw [hsound.hidden, hcomplete]
      tauto
    unfold withHidden
    rw [decide_eq_decide.2 hmem, decide_not, Bool.not_not]

/-- Both are found. -/
theorem discoverDevices_correct_apart : ∃ n,
    let d := (System.discoverDevices ⟨freshApi, DmxBus.new apart.devices⟩ 1 16 n).1
    d.searchSpace = [] ∧ d.discoveredDevices.Nodup ∧ ∀ u, u ∈ d.discoveredDevices ↔ u = 5 ∨ u = 9 := by
  obtain ⟨N, -, hN⟩ := (discoveryEnds_of_separable (D := apart) freshApi rfl (by decide : 1 ≤ 1)
    (by decide : 1 ≤ 16) (by decide) (apart_separable 1 16)).empties
  have hend := (hN N le_rfl).1
  obtain ⟨hnodup, hmem, -⟩ := discoverDevices_correct apart (by decide) freshApi rfl 1 16 N
    (by decide) (by decide) (by decide) hend
  refine ⟨N, hend, hnodup, fun u => ?_⟩
  rw [hmem]
  simp only [apart, List.mem_cons, List.not_mem_nil, or_false, exists_eq_or_imp, exists_eq_left,
    RdmDevice.new]
  omega

end Librdm

end Dmx4Linux2
