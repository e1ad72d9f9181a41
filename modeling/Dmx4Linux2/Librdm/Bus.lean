import Dmx4Linux2.Librdm.Model.Bus
import Dmx4Linux2.Librdm.Packet

/-!
# librdm — arbitration on the bus

What a device says and what the master hears. A reply is a message
(`reply_carries`), a device answers a discovery request just when it is
addressed, unmuted and in range (`handle_discUniqueBranch`), and the bus
hands the master the one reply there is, a synthesized one, or the first
of several (`handleMaster_eq`). `after_mutes` reads the mute flags off
the history of mute requests, which turns the arbitration into a
statement about that history (`arbitration`).
-/

namespace Dmx4Linux2

namespace Librdm

variable {d : RdmDevice} {ds : List RdmDevice} {bus : DmxBus} {f r : DmxData}
variable {rdm : PacketDecoder} {msg : Message} {e : PacketEncoder} {cc pid src dst : ℕ}

namespace RdmDevice

@[simp] theorem setMuted_myUid (d : RdmDevice) (on : Bool) : (d.setMuted on).myUid = d.myUid := rfl

@[simp] theorem setMuted_muted (d : RdmDevice) (on : Bool) : (d.setMuted on).muted = on := rfl

theorem setMuted_self (d : RdmDevice) : d.setMuted d.muted = d := rfl

@[simp] theorem setMuted_setMuted (d : RdmDevice) (a b : Bool) :
    (d.setMuted a).setMuted b = d.setMuted b := rfl

end RdmDevice

/-! ## Replies are messages -/

/-- The message a reply carries before any data are added. -/
def replyMessage (src dst cc pid : ℕ) : Message :=
  ((((Message.ofBuffer clearedBuffer).set .source src).set .destination dst).set .commandClass
    cc).set .pid pid

@[simp] theorem replyMessage_pd : (replyMessage src dst cc pid).pd = [] := rfl

@[simp] theorem replyMessage_source : (replyMessage src dst cc pid).header .source = src := by
  simp [replyMessage]

@[simp] theorem replyMessage_destination :
    (replyMessage src dst cc pid).header .destination = dst := by
  simp [replyMessage]

@[simp] theorem replyMessage_commandClass :
    (replyMessage src dst cc pid).header .commandClass = cc := by
  simp [replyMessage]

@[simp] theorem replyMessage_pid : (replyMessage src dst cc pid).header .pid = pid := by
  simp [replyMessage]

/-- The header chain every reply is built with. -/
theorem carries_replyChain (src dst cc pid : ℕ) :
    Carries ((((PacketEncoder.new clearedBuffer 256).source src).destination dst).commandClass
      cc |>.pid pid).pkt (replyMessage src dst cc pid) :=
  ((((Carries.new clearedBuffer 256).setField .source src).setField .destination dst).setField
    .commandClass cc).setField .pid pid

/-- **A reply names its device, its requester and its parameter.** -/
theorem RdmDevice.reply_carries :
    Carries (d.reply rdm cc pid).pkt
      ((replyMessage d.myUid rdm.source cc pid).set .portId responseTypeAck) :=
  (carries_replyChain d.myUid rdm.source cc pid).setField .portId responseTypeAck

/-- **The frame is the packet of a message**, small enough for the
buffers it passes through. -/
structure Holds (f : DmxData) (msg : Message) : Prop where
  carries : Carries f.data msg
  size : f.size = 26 + msg.pd.length
  fits : msg.pd.length ≤ 230

/-- A finished packet is a frame of its message. -/
theorem Carries.holds (h : Carries e.pkt msg) (hlen : msg.pd.length ≤ 230) :
    Holds e.finalize.frame msg := by
  have hs : Sealed e.finalize.pkt msg := h.finalize (by omega)
  exact ⟨hs.toCarries, hs.size_eq (by omega), hlen⟩

/-- **Copying a frame into a vector keeps its message.** -/
theorem Holds.ofVector (h : Holds f msg) : Holds (DmxData.ofVector f.bytes) msg := by
  have hsize := h.size
  refine ⟨h.carries.congr fun i hi => ?_, ?_, h.fits⟩
  · have hi' : i < f.size := by simp at hi; omega
    simp only [DmxData.ofVector, DmxData.bytes, List.getD_eq_getElem?_getD]
    rw [Mem.getElem?_read hi', Nat.zero_add, Option.getD_some]
  · simp only [DmxData.ofVector, DmxData.bytes, Mem.length_read]
    exact hsize

/-- A discovery reply, as a message. -/
theorem RdmDevice.discoveryReply_holds :
    Holds (d.discoveryReply rdm pid)
      ((replyMessage d.myUid rdm.source discoveryCommandResponse pid).set .portId
        responseTypeAck) :=
  reply_carries.holds (by simp)

/-- A reply shows of its device only the UID. -/
theorem RdmDevice.discoveryReply_congr {d' : RdmDevice} (h : d.myUid = d'.myUid) :
    d.discoveryReply rdm pid = d'.discoveryReply rdm pid := by
  rw [discoveryReply, discoveryReply, reply, reply, h]

/-! ## What a device does with a request -/

/-- A `DISC_UNIQUE_BRANCH` request. -/
structure IsDiscUniqueBranch (f : DmxData) : Prop where
  isRdm : (PacketDecoder.ofData f).isRdm = true
  isRequest : (PacketDecoder.ofData f).isRequest = true
  commandClass : (PacketDecoder.ofData f).commandClass = discoveryCommand
  pid : (PacketDecoder.ofData f).pid = discUniqueBranch

/-- A `DISC_MUTE` request (`on`) or a `DISC_UN_MUTE` request. -/
structure IsMuteRequest (f : DmxData) (on : Bool) : Prop where
  isRdm : (PacketDecoder.ofData f).isRdm = true
  isRequest : (PacketDecoder.ofData f).isRequest = true
  commandClass : (PacketDecoder.ofData f).commandClass = discoveryCommand
  pid : (PacketDecoder.ofData f).pid = if on then discMute else discUnMute

/-- The frame is addressed to the device, or to all. -/
def addressed (f : DmxData) (uid : ℕ) : Bool := (PacketDecoder.ofData f).itIsForMe uid

/-- The lower end of the range a discovery request asks for. -/
def lowerUid (f : DmxData) : ℕ := beNat (f.data.read 24 6)

/-- The upper end. -/
def upperUid (f : DmxData) : ℕ := beNat (f.data.read 30 6)

/-- The device is addressed, unmuted and in the range asked for. -/
def answers (r : DmxData) (d : RdmDevice) : Bool :=
  addressed r d.myUid && !d.muted &&
    (decide (lowerUid r ≤ d.myUid) && decide (d.myUid ≤ upperUid r))

/-- **A device answers a discovery request just when it is addressed,
unmuted and in the range asked for**, and it is not changed by it. -/
theorem RdmDevice.handle_discUniqueBranch (h : IsDiscUniqueBranch r)
    (hpdl : 12 ≤ (PacketDecoder.ofData r).pdl) :
    d.handle r = (d, if answers r d
      then some (d.discoveryReply (PacketDecoder.ofData r) discUniqueBranch) else none) := by
  unfold answers
  have hlo : (PacketDecoder.ofData r).pdAt 0 6 = some (lowerUid r) := by
    rw [PacketDecoder.pdAt, if_neg (by omega)]; rfl
  have hhi : (PacketDecoder.ofData r).pdAt 6 6 = some (upperUid r) := by
    rw [PacketDecoder.pdAt, if_neg (by omega)]; rfl
  simp only [RdmDevice.handle, h.isRdm, h.isRequest, h.commandClass, Bool.true_and, if_true]
  by_cases ha : addressed r d.myUid
  · have ha' : (PacketDecoder.ofData r).itIsForMe d.myUid = true := ha
    rw [if_pos ha', handleDiscovery, if_pos h.pid, handleDiscUniqueBranch, hlo, hhi]
    cases hm : d.muted <;> simp [ha]
  · have ha' : ¬ (PacketDecoder.ofData r).itIsForMe d.myUid = true := ha
    rw [if_neg ha']
    simp [ha]

/-- A request too short for a range is not answered. -/
theorem RdmDevice.handle_discUniqueBranch_short (h : IsDiscUniqueBranch r)
    (hpdl : (PacketDecoder.ofData r).pdl < 12) : d.handle r = (d, none) := by
  have hhi : (PacketDecoder.ofData r).pdAt 6 6 = none := by
    rw [PacketDecoder.pdAt, if_pos (by omega)]
  simp only [RdmDevice.handle, h.isRdm, h.isRequest, h.commandClass, Bool.true_and, if_true]
  split
  · rw [handleDiscovery, if_pos h.pid, handleDiscUniqueBranch, hhi]
    cases (PacketDecoder.ofData r).pdAt 0 6 <;> simp
  · rfl

/-- **A mute request sets the flag of the devices it is addressed to**,
and each of them replies unless the request was broadcast. -/
theorem RdmDevice.handle_mute {on : Bool} (h : IsMuteRequest f on) :
    d.handle f = if addressed f d.myUid
      then (d.setMuted on,
        if (PacketDecoder.ofData f).destination ≠ broadcast then
          some (d.discoveryReply (PacketDecoder.ofData f) (if on then discMute else discUnMute))
        else none)
      else (d, none) := by
  simp only [RdmDevice.handle, h.isRdm, h.isRequest, h.commandClass, Bool.true_and, if_true]
  by_cases ha : addressed f d.myUid
  · have ha' : (PacketDecoder.ofData f).itIsForMe d.myUid = true := ha
    rw [if_pos ha', if_pos ha, handleDiscovery, h.pid]
    cases on <;> rfl
  · have ha' : ¬ (PacketDecoder.ofData f).itIsForMe d.myUid = true := ha
    rw [if_neg ha', if_neg ha]

/-! ## What the bus does with a frame -/

/-- The replies the devices of a list send to a frame, in order. -/
def replies (f : DmxData) (ds : List RdmDevice) : List DmxData :=
  ds.filterMap fun d => (d.handle f).2

/-- The slaves are handed the frame one by one; every reply is queued. -/
theorem DmxBus.handleSlaves_eq (f : DmxData) (ds : List RdmDevice) (bus : DmxBus)
    (hact : bus.masterRequestActive = true) :
    handleSlaves f ds bus = (ds.map fun d => (d.handle f).1,
      { bus with rxqueue := bus.rxqueue ++ (replies f ds).map DmxData.bytes }) := by
  induction ds generalizing bus with
  | nil => simp [handleSlaves, replies]
  | cons d ds ih =>
    rw [handleSlaves]
    cases hr : (d.handle f).2 with
    | none =>
      simp only
      rw [ih bus hact]
      simp [replies, hr]
    | some reply =>
      simp only
      rw [ih _ (by simp [handleSlave, hact])]
      simp [handleSlave, hact, replies, hr]

/-- **One request on an empty queue**: every slave has handled it, the
queue is empty again, and the master is handed the one reply there is or
what `condense` makes of them. -/
theorem DmxBus.handleMaster_eq (hq : bus.rxqueue = []) (f : DmxData) :
    bus.handleMaster f = (⟨bus.slaves.map fun d => (d.handle f).1, false, []⟩,
      match replies f bus.slaves with
      | [reply] => [DmxData.ofVector reply.bytes]
      | rs => condense (PacketDecoder.ofData f) (rs.map DmxData.bytes)) := by
  rw [handleMaster, handleSlaves_eq f _ _ rfl]
  simp only [hq, List.nil_append]
  match replies f bus.slaves with
  | [] => rfl
  | [reply] => rfl
  | a :: b :: rs => rfl

@[simp] theorem DmxBus.handleMaster_rxqueue (f : DmxData) : (bus.handleMaster f).1.rxqueue = [] := by
  rw [handleMaster]
  split <;> rfl

theorem DmxBus.handleMaster_slaves (hq : bus.rxqueue = []) (f : DmxData) :
    (bus.handleMaster f).1.slaves = bus.slaves.map fun d => (d.handle f).1 := by
  rw [handleMaster_eq hq]

theorem condense_of_not_discUniqueBranch (h : ¬ IsDiscUniqueBranch f) (rs : List (List UInt8)) :
    DmxBus.condense (PacketDecoder.ofData f) rs = (rs.head?.map DmxData.ofVector).toList := by
  rw [DmxBus.condense, if_neg]
  · cases rs <;> rfl
  · intro hb
    simp only [Bool.and_eq_true, beq_iff_eq] at hb
    exact h ⟨hb.1.1.1, hb.1.1.2, hb.1.2, hb.2⟩

theorem condense_of_discUniqueBranch (h : IsDiscUniqueBranch f) (rs : List (List UInt8)) :
    DmxBus.condense (PacketDecoder.ofData f) rs =
      [DmxBus.mergedReply (PacketDecoder.ofData f) rs.length] := by
  rw [DmxBus.condense, h.isRdm, h.isRequest, h.commandClass, h.pid]
  rfl

/-- A `DISC_UNIQUE_BRANCH` response from `src` to `dst`, without data. -/
structure IsDiscoveryResponse (f : DmxData) (src dst : ℕ) : Prop where
  isRdm : (PacketDecoder.ofData f).isRdm = true
  commandClass : (PacketDecoder.ofData f).commandClass = discoveryCommandResponse
  pid : (PacketDecoder.ofData f).pid = discUniqueBranch
  source : (PacketDecoder.ofData f).source = src
  destination : (PacketDecoder.ofData f).destination = dst
  pdl : (PacketDecoder.ofData f).pdl = 0

/-- A decoded `Uid` has 48 bits. -/
theorem PacketDecoder.source_lt (rdm : PacketDecoder) : rdm.source < 2 ^ 48 := by
  have h := beNat_lt (rdm.pkt.read Header.srcUid 6)
  rw [Mem.length_read] at h
  rw [PacketDecoder.source, PacketDecoder.uidAt_eq]
  exact h

/-- A frame whose memory carries a discovery response is one. -/
theorem isDiscoveryResponse_of_carries
    (h : Carries f.data msg) (hpd : msg.pd = []) (hcc : msg.header .commandClass = discoveryCommandResponse)
    (hpid : msg.header .pid = discUniqueBranch) (hsrc : msg.header .source = src)
    (hdst : msg.header .destination = dst) (hsrc' : src < 2 ^ 48) (hdst' : dst < 2 ^ 48) :
    IsDiscoveryResponse f src dst := by
  have hc : Carries (PacketDecoder.ofData f).pkt msg := h
  refine ⟨hc.isRdm, ?_, ?_, ?_, ?_, ?_⟩
  · rw [hc.commandClass, hcc]; rfl
  · rw [hc.pid, hpid]; rfl
  · rw [hc.source, hsrc, Nat.mod_eq_of_lt hsrc']
  · rw [hc.destination, hdst, Nat.mod_eq_of_lt hdst']
  · rw [hc.pdl_decode (by rw [hpd]; simp), hpd]; rfl

/-- The source of the synthesized answer to a number of replies. -/
def mergedSource (n : ℕ) : ℕ := if n > 1 then broadcast else 0

/-- The synthesized answer, as a message. -/
theorem mergedReply_holds (rdm : PacketDecoder) (n : ℕ) :
    Holds (DmxBus.mergedReply rdm n)
      (replyMessage (mergedSource n) rdm.source discoveryCommandResponse discUniqueBranch) :=
  (carries_replyChain (mergedSource n) rdm.source discoveryCommandResponse
    discUniqueBranch).holds (by simp)

/-- **The synthesized answer**: from 0 when nobody replied, from the
broadcast UID when several did. -/
theorem mergedReply_isDiscoveryResponse (rdm : PacketDecoder) (n : ℕ) :
    IsDiscoveryResponse (DmxBus.mergedReply rdm n) (mergedSource n) rdm.source := by
  refine isDiscoveryResponse_of_carries (mergedReply_holds rdm n).carries rfl (by simp) (by simp)
    (by simp) (by simp) ?_ rdm.source_lt
  unfold mergedSource
  split <;> decide

/-! ## The mute history -/

/-- The bus after the master has sent a list of frames. -/
def DmxBus.after (bus : DmxBus) (history : List DmxData) : DmxBus :=
  history.foldl (fun b f => (b.handleMaster f).1) bus

theorem DmxBus.after_concat (history : List DmxData) (f : DmxData) :
    bus.after (history ++ [f]) = ((bus.after history).handleMaster f).1 := by
  rw [after, after, List.foldl_append, List.foldl_cons, List.foldl_nil]

/-- The parameter of the last request of the history addressed to a
device or to all. -/
def lastMute (uid : ℕ) (history : List DmxData) : Option ℕ :=
  ((history.filter fun f => addressed f uid).getLast?).map fun f => (PacketDecoder.ofData f).pid

/-- **Unmuted by the history**: the last mute request that reached the
device was an un-mute, or none did. -/
def unmutedBy (history : List DmxData) (uid : ℕ) : Bool :=
  lastMute uid history != some discMute

theorem unmutedBy_nil (uid : ℕ) : unmutedBy [] uid = true := rfl

theorem unmutedBy_concat {on : Bool} (history : List DmxData) (h : IsMuteRequest f on) (uid : ℕ) :
    unmutedBy (history ++ [f]) uid = if addressed f uid then !on else unmutedBy history uid := by
  by_cases ha : addressed f uid
  · simp only [unmutedBy, lastMute, List.filter_append, List.filter_cons, ha, if_true,
      List.filter_nil, List.getLast?_append, List.getLast?_singleton, Option.some_or, Option.map_some,
      h.pid]
    cases on <;> rfl
  · simp [unmutedBy, lastMute, List.filter_append, ha]

/-- **The flags of the devices after a history of mute requests.** -/
theorem DmxBus.after_mutes (hmute : ∀ d ∈ ds, d.muted = false) (history : List DmxData)
    (hhist : ∀ f ∈ history, ∃ on, IsMuteRequest f on) :
    ((DmxBus.new ds).after history).rxqueue = [] ∧
      ((DmxBus.new ds).after history).slaves =
        ds.map fun d => d.setMuted (!unmutedBy history d.myUid) := by
  induction history using List.reverseRecOn with
  | nil =>
    refine ⟨rfl, ?_⟩
    have hid : ∀ d ∈ ds, d.setMuted (!unmutedBy [] d.myUid) = d := fun d hd => by
      rw [unmutedBy_nil, Bool.not_true, ← hmute d hd, RdmDevice.setMuted_self]
    exact (List.map_congr_left hid).trans (List.map_id ds) |>.symm
  | append_singleton history f ih =>
    obtain ⟨hq, hs⟩ := ih fun g hg => hhist g (by simp [hg])
    obtain ⟨on, hf⟩ := hhist f (by simp)
    refine ⟨by rw [after_concat, handleMaster_rxqueue], ?_⟩
    rw [after_concat, handleMaster_slaves hq, hs, List.map_map]
    refine List.map_congr_left fun d _ => ?_
    rw [Function.comp_apply, RdmDevice.handle_mute hf, RdmDevice.setMuted_myUid,
      unmutedBy_concat history hf]
    by_cases ha : addressed f d.myUid
    · rw [if_pos ha, if_pos ha, Bool.not_not, RdmDevice.setMuted_setMuted]
    · rw [if_neg ha, if_neg ha]

/-- **The device answers the discovery request**, as the history of mute
requests has it: addressed, unmuted and in range. -/
def responds (history : List DmxData) (r : DmxData) (d : RdmDevice) : Bool :=
  addressed r d.myUid && unmutedBy history d.myUid &&
    (decide (lowerUid r ≤ d.myUid) && decide (d.myUid ≤ upperUid r))

theorem answers_setMuted (history : List DmxData) (r : DmxData) (d : RdmDevice) :
    answers r (d.setMuted (!unmutedBy history d.myUid)) = responds history r d := by
  rw [answers, responds, RdmDevice.setMuted_myUid, RdmDevice.setMuted_muted, Bool.not_not]

/-- The replies to a discovery request come from the devices that answer
it, in order, whatever their mute flags are set to. -/
theorem replies_discUniqueBranch (flag : RdmDevice → Bool) (h : IsDiscUniqueBranch r)
    (hpdl : 12 ≤ (PacketDecoder.ofData r).pdl) (ds : List RdmDevice) :
    replies r (ds.map fun d => d.setMuted (flag d)) =
      (ds.filter fun d => answers r (d.setMuted (flag d))).map fun d =>
        d.discoveryReply (PacketDecoder.ofData r) discUniqueBranch := by
  induction ds with
  | nil => rfl
  | cons d ds ih =>
    unfold replies at ih ⊢
    rw [List.map_cons, List.filterMap_cons, RdmDevice.handle_discUniqueBranch h hpdl,
      List.filter_cons]
    by_cases hc : answers r (d.setMuted (flag d)) = true
    · rw [if_pos hc, if_pos hc, List.map_cons, ← ih,
        RdmDevice.discoveryReply_congr (RdmDevice.setMuted_myUid d (flag d))]
    · rw [if_neg hc, if_neg hc, ← ih]

/-- The same after a history of mute requests. -/
theorem replies_after_mutes (history : List DmxData) (h : IsDiscUniqueBranch r)
    (hpdl : 12 ≤ (PacketDecoder.ofData r).pdl) (ds : List RdmDevice) :
    replies r (ds.map fun d => d.setMuted (!unmutedBy history d.myUid)) =
      (ds.filter (responds history r)).map fun d =>
        d.discoveryReply (PacketDecoder.ofData r) discUniqueBranch := by
  have hfilter : (ds.filter fun d => answers r (d.setMuted (!unmutedBy history d.myUid))) =
      ds.filter (responds history r) :=
    List.filter_congr fun d _ => answers_setMuted history r d
  rw [replies_discUniqueBranch _ h hpdl, hfilter]

/-- Of a request without a range there are none. -/
theorem replies_discUniqueBranch_short (h : IsDiscUniqueBranch r)
    (hpdl : (PacketDecoder.ofData r).pdl < 12) (ds : List RdmDevice) : replies r ds = [] := by
  refine List.filterMap_eq_nil_iff.2 fun d _ => ?_
  rw [RdmDevice.handle_discUniqueBranch_short h hpdl]

/-! ## Arbitration -/

/-- What the master is handed for a frame that is no discovery request:
the first reply, if there is one. -/
theorem DmxBus.handleMaster_of_not_discUniqueBranch (hq : bus.rxqueue = [])
    (h : ¬ IsDiscUniqueBranch f) :
    (bus.handleMaster f).2 =
      ((replies f bus.slaves).head?.map fun reply => DmxData.ofVector reply.bytes).toList := by
  rw [handleMaster_eq hq]
  match replies f bus.slaves with
  | [] => exact condense_of_not_discUniqueBranch h []
  | [reply] => rfl
  | a :: b :: rs => exact condense_of_not_discUniqueBranch h _

/-- What the master is handed for a discovery request: the one reply
there is, and otherwise the synthesized one. -/
theorem DmxBus.handleMaster_of_discUniqueBranch (hq : bus.rxqueue = [])
    (h : IsDiscUniqueBranch r) :
    (bus.handleMaster r).2 = match replies r bus.slaves with
      | [reply] => [DmxData.ofVector reply.bytes]
      | rs => [mergedReply (PacketDecoder.ofData r) rs.length] := by
  rw [handleMaster_eq hq]
  match replies r bus.slaves with
  | [] => exact condense_of_discUniqueBranch h []
  | [reply] => rfl
  | a :: b :: rs =>
    refine (condense_of_discUniqueBranch h _).trans ?_
    rw [List.length_map]

/-- A device that responds sends its discovery reply. -/
theorem RdmDevice.handle_of_responds {history : List DmxData} (h : IsDiscUniqueBranch r)
    (hpdl : 12 ≤ (PacketDecoder.ofData r).pdl) (hd : d.muted = false)
    (hresp : responds history r d = true) :
    (d.handle r).2 = some (d.discoveryReply (PacketDecoder.ofData r) discUniqueBranch) := by
  simp only [responds, Bool.and_eq_true] at hresp
  obtain ⟨⟨haddr, -⟩, hrange⟩ := hresp
  rw [RdmDevice.handle_discUniqueBranch h hpdl, answers, hd, haddr, hrange.1, hrange.2]
  rfl

/-- **Arbitration on the bus.** After any history of mute requests the
master is handed one frame for a discovery request: the reply of the
device that responds when there is exactly one, a response from 0 when
there is none, from the broadcast UID when there are several. A request
too short to name a range is answered from 0. Any other frame brings the
reply of the first device that replied, or nothing; and the queue is
empty after every request. -/
theorem DmxBus.arbitration (ds : List RdmDevice) (hmute : ∀ d ∈ ds, d.muted = false)
    (history : List DmxData) (hhist : ∀ f ∈ history, ∃ on, IsMuteRequest f on) :
    let bus := (DmxBus.new ds).after history
    (∀ r, IsDiscUniqueBranch r → 12 ≤ (PacketDecoder.ofData r).pdl →
      (∀ d, ds.filter (responds history r) = [d] →
        ∃ reply, (d.handle r).2 = some reply ∧
          (bus.handleMaster r).2 = [DmxData.ofVector reply.bytes]) ∧
      (ds.filter (responds history r) = [] →
        ∃ g, (bus.handleMaster r).2 = [g] ∧
          IsDiscoveryResponse g 0 (PacketDecoder.ofData r).source) ∧
      (2 ≤ (ds.filter (responds history r)).length →
        ∃ g, (bus.handleMaster r).2 = [g] ∧
          IsDiscoveryResponse g broadcast (PacketDecoder.ofData r).source)) ∧
    (∀ r, IsDiscUniqueBranch r → (PacketDecoder.ofData r).pdl < 12 →
      ∃ g, (bus.handleMaster r).2 = [g] ∧
        IsDiscoveryResponse g 0 (PacketDecoder.ofData r).source) ∧
    (∀ f, ¬ IsDiscUniqueBranch f →
      (bus.handleMaster f).2 =
        ((replies f bus.slaves).head?.map fun reply => DmxData.ofVector reply.bytes).toList) ∧
    bus.rxqueue = [] ∧ ∀ f, (bus.handleMaster f).1.rxqueue = [] := by
  intro bus
  obtain ⟨hq, hslaves⟩ := after_mutes hmute history hhist
  refine ⟨fun r hr hpdl => ?_, fun r hr hpdl => ?_, fun f hf => ?_, hq, fun f => ?_⟩
  · have hreplies := replies_after_mutes history hr hpdl ds
    rw [← hslaves] at hreplies
    have hout := handleMaster_of_discUniqueBranch hq hr
    rw [hreplies] at hout
    refine ⟨fun d hd => ?_, fun hnone => ?_, fun hmany => ?_⟩
    · have hmem : d ∈ ds.filter (responds history r) := by rw [hd]; exact List.mem_singleton_self d
      obtain ⟨hds, hresp⟩ := List.mem_filter.1 hmem
      refine ⟨_, RdmDevice.handle_of_responds hr hpdl (hmute d hds) hresp, ?_⟩
      rw [hd] at hout
      exact hout
    · rw [hnone] at hout
      exact ⟨_, hout, mergedReply_isDiscoveryResponse _ 0⟩
    · match hrs : ds.filter (responds history r) with
      | [] => simp [hrs] at hmany
      | [d] => simp [hrs] at hmany
      | a :: b :: rs =>
        rw [hrs] at hout
        refine ⟨_, hout, ?_⟩
        have hmerged := mergedReply_isDiscoveryResponse (PacketDecoder.ofData r) (rs.length + 2)
        rw [mergedSource, if_pos (by omega)] at hmerged
        rw [List.length_cons, List.length_map, List.length_cons]
        exact hmerged
  · have hout := handleMaster_of_discUniqueBranch hq hr
    rw [replies_discUniqueBranch_short hr hpdl] at hout
    exact ⟨_, hout, mergedReply_isDiscoveryResponse _ 0⟩
  · exact handleMaster_of_not_discUniqueBranch hq hf
  · exact handleMaster_rxqueue f

/-- A broadcast discovery request for the range 1 to 16. -/
def discoveryRequestTo16 : DmxData :=
  DmxData.ofVector [0xCC, 1, 36, 0xFF, 0xFF, 0xFF, 0xFF, 0xFF, 0xFF, 0x12, 0x34, 0, 0, 0, 1, 0, 0, 0,
    0, 0, 0x10, 0, 1, 12, 0, 0, 0, 0, 0, 1, 0, 0, 0, 0, 0, 16, 0x07, 0x60]

/-- A request to mute device 5. -/
def muteRequestTo5 : DmxData :=
  DmxData.ofVector [0xCC, 1, 24, 0, 0, 0, 0, 0, 5, 0x12, 0x34, 0, 0, 0, 1, 0, 0, 0, 0, 0, 0x10, 0, 2,
    0, 0x01, 0x43]

/-- Of two devices one is muted: the master is handed the other's reply. -/
theorem DmxBus.arbitration_example :
    let bus := (DmxBus.new [RdmDevice.new 5, RdmDevice.new 6]).after [muteRequestTo5]
    ∃ reply, ((RdmDevice.new 6).handle discoveryRequestTo16).2 = some reply ∧
      (bus.handleMaster discoveryRequestTo16).2 = [DmxData.ofVector reply.bytes] := by
  have h := DmxBus.arbitration [RdmDevice.new 5, RdmDevice.new 6] (by decide) [muteRequestTo5]
    (by
      intro f hf
      rw [List.mem_singleton.1 hf]
      exact ⟨true, by decide, by decide, by decide, by decide⟩)
  exact (h.1 discoveryRequestTo16 ⟨by decide, by decide, by decide, by decide⟩ (by decide)).1
    (RdmDevice.new 6) (by decide)

/-- A discovery request without a range. -/
def discoveryRequestWithoutRange : DmxData :=
  DmxData.ofVector [0xCC, 1, 24, 0xFF, 0xFF, 0xFF, 0xFF, 0xFF, 0xFF, 0x12, 0x34, 0, 0, 0, 1, 0, 0, 0,
    0, 0, 0x10, 0, 1, 0, 0x07, 0x37]

/-- A discovery request without a range is answered though no device
replies. -/
theorem DmxBus.unanswered_discoveryRequest_brings_frame :
    ¬ ∀ f, ¬ (IsDiscUniqueBranch f ∧ 12 ≤ (PacketDecoder.ofData f).pdl) →
      ((DmxBus.new [RdmDevice.new 5]).handleMaster f).2 =
        ((replies f [RdmDevice.new 5]).head?.map fun reply =>
          DmxData.ofVector reply.bytes).toList := by
  intro h
  have hr : IsDiscUniqueBranch discoveryRequestWithoutRange :=
    ⟨by decide, by decide, by decide, by decide⟩
  have hpdl : (PacketDecoder.ofData discoveryRequestWithoutRange).pdl < 12 := by decide
  have hout := handleMaster_of_discUniqueBranch (show (DmxBus.new [RdmDevice.new 5]).rxqueue = [] from rfl) hr
  have hnone := replies_discUniqueBranch_short hr hpdl [RdmDevice.new 5]
  rw [h _ fun hf => by omega, hnone, show (DmxBus.new [RdmDevice.new 5]).slaves = [RdmDevice.new 5]
    from rfl, hnone] at hout
  cases hout

end Librdm

end Dmx4Linux2
