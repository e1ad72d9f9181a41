import Dmx4Linux2.Librdm.Parameters

/-!
# librdm — the replies of a device

What a device does with any frame, by the fields of its header
(`handle_of_heeds`), and what the header of its reply says
(`handle_reply`). The replies to get and set requests all carry the header
of a get response for `DEVICE_INFO`, so a controller can match them only
when that was the request (`reply_matches_iff`), and they are sent to a
broadcast as well (`silent_iff`).
-/

namespace Dmx4Linux2

namespace Librdm

variable {d : RdmDevice} {f g r : DmxData} {rdm : PacketDecoder} {e : PacketEncoder}
variable {msg : Message} {src dst cc pid : ℕ}

/-! ## Which frames a device heeds -/

/-- A command class is that of a request just when it is one of three. -/
theorem PacketDecoder.isRequest_iff (rdm : PacketDecoder) :
    rdm.isRequest ↔ rdm.commandClass = discoveryCommand ∨ rdm.commandClass = getCommand ∨
      rdm.commandClass = setCommand := by
  have hbyte : ∀ n < 256, (decide (discoveryCommand ≤ n &&& 0xf0) &&
      decide (n &&& 0xf0 ≤ setCommand) && n &&& 0xF == 0) = true ↔
        n = discoveryCommand ∨ n = getCommand ∨ n = setCommand := by
    decide +kernel
  exact hbyte rdm.commandClass (UInt8.toNat_lt _)

namespace RdmDevice

/-- The device takes the frame up: an RDM request that is for it. -/
def Heeds (d : RdmDevice) (f : DmxData) : Prop :=
  (PacketDecoder.ofData f).isRdm ∧ (PacketDecoder.ofData f).isRequest ∧ addressed f d.myUid

instance (d : RdmDevice) (f : DmxData) : Decidable (d.Heeds f) :=
  inferInstanceAs (Decidable (_ ∧ _ ∧ _))

theorem heeds_iff : ((PacketDecoder.ofData f).isRdm && ((PacketDecoder.ofData f).isRequest &&
    (PacketDecoder.ofData f).itIsForMe d.myUid)) = true ↔ d.Heeds f := by
  rw [Bool.and_eq_true, Bool.and_eq_true]
  rfl

theorem handle_of_not_heeds (h : ¬ d.Heeds f) : d.handle f = (d, none) := by
  unfold handle
  dsimp only
  rw [if_neg (mt heeds_iff.1 h)]

/-- **What a device does with a frame that it heeds**, by the command
class. -/
theorem handle_of_heeds (h : d.Heeds f) :
    ((PacketDecoder.ofData f).commandClass = discoveryCommand →
      d.handle f = d.handleDiscovery (PacketDecoder.ofData f)) ∧
    ((PacketDecoder.ofData f).commandClass = getCommand →
      d.handle f = d.handleGet (PacketDecoder.ofData f)) ∧
    ((PacketDecoder.ofData f).commandClass = setCommand →
      d.handle f = d.handleSet (PacketDecoder.ofData f)) := by
  unfold handle
  dsimp only
  rw [if_pos (heeds_iff.2 h)]
  refine ⟨fun hcc => ?_, fun hcc => ?_, fun hcc => ?_⟩
  · rw [hcc, if_pos rfl]
  · rw [hcc, if_neg (by decide), if_pos rfl]
  · rw [hcc, if_neg (by decide), if_neg (by decide), if_pos rfl]

/-! ## The header of a reply -/

/-- The calls by which the reply to a get is completed. -/
def getCalls (d : RdmDevice) (pid : ℕ) : List Call :=
  if pid = deviceInfo then
    [.addPd (.u16 0x100), .addPd (.u16 d.deviceModelId), .addPd (.u16 d.productCategory),
      .addPd (.u32 d.softwareVersion), .addPd (.u16 d.dmx512Footprint),
      .addPd (.u16 d.dmx512Personality), .addPd (.u16 d.dmxAddress), .addPd (.u16 0),
      .addPd (.u8 0)]
  else if pid = softwareVersionLabel then [.addPd (.str [0x56, 0x31, 0x2E, 0x30, 0x2E, 0x30])]
  else if pid = dmxStartAddress then [.addPd (.u16 d.dmxAddress)]
  else if pid = identifyDevice then [.addPd (.u8 d.identifyOn)]
  else [.set .portId responseTypeUnknownPid]

theorem getReply_eq_calls : d.getReply rdm e = (d.getCalls rdm.pid).foldl PacketEncoder.call e := by
  unfold getReply getCalls
  split
  · rfl
  · split
    · rfl
    · split
      · rfl
      · split <;> rfl

theorem length_getCalls (d : RdmDevice) (pid : ℕ) :
    ((Call.items (d.getCalls pid)).flatMap PdItem.bytes).length ≤ 19 := by
  unfold getCalls
  split
  · exact Nat.le_refl 19
  · split
    · exact (by decide : 6 ≤ 19)
    · split
      · exact (by decide : 2 ≤ 19)
      · split
        · exact (by decide : 1 ≤ 19)
        · exact (by decide : 0 ≤ 19)

/-- Completing a reply leaves every field but the response type alone. -/
theorem lastSet_getCalls (d : RdmDevice) (pid : ℕ) {f : HeaderField} (hf : f ≠ .portId) :
    Call.lastSet f (d.getCalls pid) = none := by
  unfold getCalls
  split
  · rfl
  · split
    · rfl
    · split
      · rfl
      · split
        · rfl
        · simp [Call.lastSet, Call.value?, hf.symm]

/-- The message of a reply names the two ends, the class and the
parameter. -/
structure Names (msg : Message) (src dst cc pid : ℕ) : Prop where
  source : msg.header .source = src
  destination : msg.header .destination = dst
  commandClass : msg.header .commandClass = cc
  pid : msg.header .pid = pid

theorem names_reply (src dst cc pid : ℕ) :
    Names ((replyMessage src dst cc pid).set .portId responseTypeAck) src dst cc pid := by
  constructor <;> simp

/-- **A reply that is completed keeps its header**, but for the response
type. -/
theorem completed_reply (d : RdmDevice) (rdm : PacketDecoder) (cc pid : ℕ) {calls : List Call}
    (hset : ∀ f, f ≠ .portId → Call.lastSet f calls = none)
    (hlen : ((Call.items calls).flatMap PdItem.bytes).length ≤ 19) :
    ∃ msg, Holds (calls.foldl PacketEncoder.call (d.reply rdm cc pid)).finalize.frame msg ∧
      Names msg d.myUid rdm.source cc pid := by
  have hnames := names_reply d.myUid rdm.source cc pid
  set msg₀ := (replyMessage d.myUid rdm.source cc pid).set .portId responseTypeAck with hmsg₀
  have hpd : (calls.foldl Message.call msg₀).pd = (Call.items calls).flatMap PdItem.bytes := by
    rw [Message.pd_calls]
    exact List.nil_append _
  have hcarries : Carries (calls.foldl PacketEncoder.call (d.reply rdm cc pid)).pkt
      (calls.foldl Message.call msg₀) :=
    reply_carries.calls calls (by rw [hpd]; omega)
  -- what completes a reply adds data, or sets the response type
  have hheader : ∀ f, f ≠ .portId → (calls.foldl Message.call msg₀).header f = msg₀.header f := by
    intro f hf
    rw [Message.header_calls, hset f hf]
    rfl
  refine ⟨_, hcarries.holds (by rw [hpd]; omega), ?_, ?_, ?_, ?_⟩
  · rw [hheader _ (by decide), hnames.source]
  · rw [hheader _ (by decide), hnames.destination]
  · rw [hheader _ (by decide), hnames.commandClass]
  · rw [hheader _ (by decide), hnames.pid]

/-- **The reply to a get** has the header of one for `DEVICE_INFO`. -/
theorem handleGet_reply (d : RdmDevice) (rdm : PacketDecoder) :
    ∃ reply msg, d.handleGet rdm = (d, some reply) ∧ Holds reply msg ∧
      Names msg d.myUid rdm.source getCommandResponse deviceInfo := by
  obtain ⟨msg, hholds, hnames⟩ := d.completed_reply rdm getCommandResponse deviceInfo
    (fun _ hf => d.lastSet_getCalls rdm.pid hf) (d.length_getCalls rdm.pid)
  rw [← getReply_eq_calls] at hholds
  exact ⟨_, msg, rfl, hholds, hnames⟩

/-- **So has the reply to a set.** -/
theorem handleSet_reply (d : RdmDevice) (rdm : PacketDecoder) :
    ∃ reply msg, d.handleSet rdm = (d.applySet rdm, some reply) ∧ Holds reply msg ∧
      Names msg d.myUid rdm.source getCommandResponse deviceInfo := by
  have hcalls : ∃ calls : List Call,
      d.setReply rdm = calls.foldl PacketEncoder.call (d.reply rdm getCommandResponse deviceInfo) ∧
        (∀ f, f ≠ .portId → Call.lastSet f calls = none) ∧ Call.items calls = [] := by
    unfold setReply
    dsimp only
    split
    · exact ⟨[], rfl, fun _ _ => rfl, rfl⟩
    · refine ⟨[.set .portId responseTypeUnknownPid], rfl, fun f hf => ?_, rfl⟩
      simp [Call.lastSet, Call.value?, hf.symm]
  obtain ⟨calls, hreply, hset, hitems⟩ := hcalls
  obtain ⟨msg, hholds, hnames⟩ := d.completed_reply rdm getCommandResponse deviceInfo hset
    (by rw [hitems]; decide)
  rw [← hreply] at hholds
  exact ⟨_, msg, rfl, hholds, hnames⟩

/-- The device would be found by a discovery request. -/
def InRange (d : RdmDevice) (rdm : PacketDecoder) : Prop :=
  ∃ lo hi, rdm.pdAt 0 6 = some lo ∧ rdm.pdAt 6 6 = some hi ∧ lo ≤ d.myUid ∧ d.myUid ≤ hi

/-- A discovery request that is answered. -/
def AnswersDiscovery (d : RdmDevice) (rdm : PacketDecoder) : Prop :=
  (rdm.pid = discUniqueBranch ∧ ¬ d.muted ∧ d.InRange rdm) ∨
    ((rdm.pid = discMute ∨ rdm.pid = discUnMute) ∧ rdm.destination ≠ broadcast)

/-- What a discovery request makes of the flag. -/
def afterDiscovery (d : RdmDevice) (rdm : PacketDecoder) : RdmDevice :=
  if rdm.pid = discMute then d.setMuted true
  else if rdm.pid = discUnMute then d.setMuted false
  else d

theorem handleDiscUniqueBranch_eq_some_iff : d.handleDiscUniqueBranch rdm = some r ↔
    (¬ d.muted ∧ d.InRange rdm) ∧ r = d.discoveryReply rdm discUniqueBranch := by
  unfold handleDiscUniqueBranch InRange
  by_cases hm : d.muted
  · simp [hm]
  · rw [if_neg hm]
    cases hlo : rdm.pdAt 0 6 with
    | none => simp
    | some lo =>
      cases hhi : rdm.pdAt 6 6 with
      | none => simp
      | some hi =>
        by_cases hin : lo ≤ d.myUid ∧ d.myUid ≤ hi
        · simp [hin, hm, eq_comm]
        · simp only [ge_iff_le, if_neg hin, reduceCtorEq, false_iff]
          rintro ⟨⟨-, lo', hi', hlo', hhi', hrange⟩, -⟩
          cases hlo'
          cases hhi'
          exact hin hrange

theorem handleDiscovery_fst : (d.handleDiscovery rdm).1 = d.afterDiscovery rdm := by
  unfold handleDiscovery afterDiscovery
  by_cases hdub : rdm.pid = discUniqueBranch
  · rw [if_pos hdub, hdub]
    rfl
  · rw [if_neg hdub]
    split
    · rfl
    · split <;> rfl

theorem handleMute_snd_iff {on : Bool} : (d.handleMute rdm pid on).2 = some r ↔
    rdm.destination ≠ broadcast ∧ r = d.discoveryReply rdm pid := by
  unfold handleMute
  by_cases hb : rdm.destination = broadcast
  · simp [hb]
  · rw [and_iff_right hb]
    dsimp only
    rw [if_pos hb, Option.some.injEq]
    exact eq_comm

/-- **The reply to a discovery request** names the parameter asked for. -/
theorem handleDiscovery_snd_iff : (d.handleDiscovery rdm).2 = some r ↔
    d.AnswersDiscovery rdm ∧ r = d.discoveryReply rdm rdm.pid := by
  unfold handleDiscovery AnswersDiscovery
  by_cases hdub : rdm.pid = discUniqueBranch
  · rw [if_pos hdub, hdub]
    simp [handleDiscUniqueBranch_eq_some_iff, discUniqueBranch, discMute, discUnMute]
  · rw [if_neg hdub]
    by_cases hmute : rdm.pid = discMute
    · rw [if_pos hmute, hmute]
      simp [handleMute_snd_iff, discMute, discUniqueBranch]
    · rw [if_neg hmute]
      by_cases hun : rdm.pid = discUnMute
      · rw [if_pos hun, hun]
        simp [handleMute_snd_iff, discUnMute, discUniqueBranch]
      · simp [hdub, hmute, hun]

end RdmDevice

/-! ## Replies that match -/

/-- The header of the reply matches that of the request. -/
structure Matches (d : RdmDevice) (f r : DmxData) : Prop where
  commandClass :
    (PacketDecoder.ofData r).commandClass = (PacketDecoder.ofData f).commandClass + 1
  pid : (PacketDecoder.ofData r).pid = (PacketDecoder.ofData f).pid
  destination : (PacketDecoder.ofData r).destination = (PacketDecoder.ofData f).source
  source : (PacketDecoder.ofData r).source = d.myUid

/-- What is read of a reply. -/
theorem RdmDevice.Names.decode (h : RdmDevice.Names msg src dst cc pid) (hr : Holds r msg) :
    (PacketDecoder.ofData r).source = src % 2 ^ 48 ∧
      (PacketDecoder.ofData r).destination = dst % 2 ^ 48 ∧
      (PacketDecoder.ofData r).commandClass = cc % 2 ^ 8 ∧
      (PacketDecoder.ofData r).pid = pid % 2 ^ 16 := by
  have hc : Carries (PacketDecoder.ofData r).pkt msg := hr.carries
  rw [hc.source, hc.destination, hc.commandClass, hc.pid, h.source, h.destination,
    h.commandClass, h.pid]
  exact ⟨rfl, rfl, rfl, rfl⟩

theorem PacketDecoder.destination_lt (rdm : PacketDecoder) : rdm.destination < 2 ^ 48 := by
  rw [PacketDecoder.destination, PacketDecoder.uidAt_eq]
  have h := beNat_lt (rdm.pkt.read Header.dstUid 6)
  rw [Mem.length_read] at h
  exact lt_of_lt_of_eq h (by norm_num)

theorem PacketDecoder.pid_lt (rdm : PacketDecoder) : rdm.pid < 2 ^ 16 := by
  have h := beNat_lt (rdm.pkt.read Header.pid 2)
  rw [Mem.length_read] at h
  exact lt_of_lt_of_eq h (by norm_num)

/-- A number read from the data of a packet has as many bytes as were
read. -/
theorem PacketDecoder.pdAt_lt {pos size v : ℕ} (h : rdm.pdAt pos size = some v) :
    v < 256 ^ size := by
  unfold PacketDecoder.pdAt at h
  split at h
  · cases h
  · cases h
    have hlt := beNat_lt (rdm.pkt.read (Header.size + pos) size)
    rw [Mem.length_read] at hlt
    exact hlt

/-- A device that answers a discovery request has a UID of 48 bits. -/
theorem RdmDevice.AnswersDiscovery.uid_lt (h : d.AnswersDiscovery (PacketDecoder.ofData f))
    (ha : addressed f d.myUid) : d.myUid < 2 ^ 48 := by
  rcases h with ⟨-, -, lo, hi, -, hhi, -, hle⟩ | ⟨-, hnot⟩
  · have hlt := PacketDecoder.pdAt_lt hhi
    norm_num at hlt ⊢
    omega
  · have hdst : (PacketDecoder.ofData f).destination = d.myUid := by
      simpa [addressed, PacketDecoder.itIsForMe, hnot] using ha
    rw [← hdst]
    exact PacketDecoder.destination_lt _

/-- **A discovery request is answered with a matching header.** -/
theorem matches_discovery (hh : d.Heeds f)
    (hcc : (PacketDecoder.ofData f).commandClass = discoveryCommand)
    (hr : (d.handle f).2 = some r) : Matches d f r := by
  rw [(RdmDevice.handle_of_heeds hh).1 hcc, RdmDevice.handleDiscovery_snd_iff] at hr
  obtain ⟨hanswers, rfl⟩ := hr
  obtain ⟨hsrc, hdst, hclass, hpid⟩ := (RdmDevice.names_reply d.myUid
    (PacketDecoder.ofData f).source discoveryCommandResponse (PacketDecoder.ofData f).pid).decode
      RdmDevice.discoveryReply_holds
  refine ⟨?_, ?_, ?_, ?_⟩
  · rw [hclass, hcc]
    rfl
  · rw [hpid, Nat.mod_eq_of_lt (PacketDecoder.pid_lt _)]
  · rw [hdst, Nat.mod_eq_of_lt (PacketDecoder.source_lt _)]
  · rw [hsrc, Nat.mod_eq_of_lt (hanswers.uid_lt hh.2.2)]

/-- **Any other request is answered as a get of `DEVICE_INFO`.** -/
theorem handle_other (hh : d.Heeds f)
    (hcc : (PacketDecoder.ofData f).commandClass ≠ discoveryCommand) :
    ∃ r, (d.handle f).2 = some r ∧ (PacketDecoder.ofData r).source = d.myUid % 2 ^ 48 ∧
      (PacketDecoder.ofData r).destination = (PacketDecoder.ofData f).source ∧
      (PacketDecoder.ofData r).commandClass = getCommandResponse ∧
      (PacketDecoder.ofData r).pid = deviceInfo := by
  obtain ⟨-, hget, hset⟩ := RdmDevice.handle_of_heeds hh
  have hreply : ∃ r msg, (d.handle f).2 = some r ∧ Holds r msg ∧ RdmDevice.Names msg d.myUid
      (PacketDecoder.ofData f).source getCommandResponse deviceInfo := by
    -- both branches build the header before they look at the parameter
    rcases (PacketDecoder.isRequest_iff _).1 hh.2.1 with h | h | h
    · exact absurd h hcc
    · obtain ⟨r, msg, heq, hholds, hnames⟩ := d.handleGet_reply (PacketDecoder.ofData f)
      exact ⟨r, msg, by rw [hget h, heq], hholds, hnames⟩
    · obtain ⟨r, msg, heq, hholds, hnames⟩ := d.handleSet_reply (PacketDecoder.ofData f)
      exact ⟨r, msg, by rw [hset h, heq], hholds, hnames⟩
  obtain ⟨r, msg, heq, hholds, hnames⟩ := hreply
  obtain ⟨hsrc, hdst, hclass, hpid⟩ := hnames.decode hholds
  refine ⟨r, heq, hsrc, ?_, hclass, hpid⟩
  rw [hdst, Nat.mod_eq_of_lt (PacketDecoder.source_lt _)]

/-- **When replies match.** Whatever a device answers has the header its
request calls for just when, apart from discovery, the only requests it
heeds are gets of `DEVICE_INFO`, at a UID of 48 bits. -/
theorem reply_matches_iff (d : RdmDevice) (f : DmxData) :
    (∀ r, (d.handle f).2 = some r → Matches d f r) ↔
      (d.Heeds f → (PacketDecoder.ofData f).commandClass ≠ discoveryCommand →
        (PacketDecoder.ofData f).commandClass = getCommand ∧
          (PacketDecoder.ofData f).pid = deviceInfo ∧ d.myUid < 2 ^ 48) := by
  constructor
  · intro hall hh hcc
    obtain ⟨r, hr, hsrc, -, hclass, hpid⟩ := handle_other hh hcc
    have hmatch := hall r hr
    have hget : (PacketDecoder.ofData f).commandClass + 1 = getCommandResponse :=
      hmatch.commandClass.symm.trans hclass
    -- the header has room for 48 bits of the UID
    have huid : d.myUid % 2 ^ 48 = d.myUid := hsrc.symm.trans hmatch.source
    refine ⟨?_, hmatch.pid.symm.trans hpid, ?_⟩
    · unfold getCommandResponse at hget
      unfold getCommand
      omega
    · rw [← huid]
      exact Nat.mod_lt _ (by norm_num)
  · intro hcond r hr
    by_cases hh : d.Heeds f
    swap
    · rw [RdmDevice.handle_of_not_heeds hh] at hr
      cases hr
    by_cases hcc : (PacketDecoder.ofData f).commandClass = discoveryCommand
    · exact matches_discovery hh hcc hr
    · obtain ⟨hget, hinfo, hlt⟩ := hcond hh hcc
      obtain ⟨r', hr', hsrc, hdst, hclass, hpid⟩ := handle_other hh hcc
      obtain rfl : r' = r := Option.some.inj (hr'.symm.trans hr)
      refine ⟨?_, hpid.trans hinfo.symm, hdst, ?_⟩
      · rw [hclass, hget]
        rfl
      · rw [hsrc, Nat.mod_eq_of_lt hlt]

/-- A request to set the start address of the device with UID 5. -/
def startAddressTo5 : DmxData :=
  ((System.set clearedBuffer 5 dmxStartAddress).addU16 7).request

/-- It is answered as a get. -/
theorem startAddressTo5_not_matched :
    ¬ ∀ r, ((RdmDevice.new 5).handle startAddressTo5).2 = some r →
      Matches (RdmDevice.new 5) startAddressTo5 r := by
  intro hall
  have hheeds : (RdmDevice.new 5).Heeds startAddressTo5 := by decide +kernel
  have hcc : (PacketDecoder.ofData startAddressTo5).commandClass = setCommand := by decide +kernel
  obtain ⟨r, hr, -, -, hclass, -⟩ := handle_other hheeds (by rw [hcc]; decide)
  have hmatch := (hall r hr).commandClass
  rw [hclass, hcc] at hmatch
  exact absurd hmatch (by decide)

/-! ## Broadcasts -/

/-- The frames are one request, but for whom it is addressed to and for
the checksum. -/
def SameRequest (f g : DmxData) : Prop :=
  ∀ i, i < Header.size + (PacketDecoder.ofData f).pdl → i < 3 ∨ 9 ≤ i → f.data i = g.data i

namespace SameRequest

theorem read_eq (h : SameRequest f g) {p n : ℕ} (hp : 9 ≤ p)
    (hn : p + n ≤ Header.size + (PacketDecoder.ofData f).pdl) : f.data.read p n = g.data.read p n :=
  Mem.read_congr fun i hi => h (p + i) (by omega) (by omega)

theorem isRdm_eq (h : SameRequest f g) :
    (PacketDecoder.ofData f).isRdm = (PacketDecoder.ofData g).isRdm := by
  have h0 : f.data Header.startCode = g.data Header.startCode := h 0 (by simp) (by decide)
  have h1 : f.data Header.subStartCode = g.data Header.subStartCode :=
    h 1 (by simp; omega) (by decide)
  simp only [PacketDecoder.isRdm, PacketDecoder.startCode, PacketDecoder.subStartCode,
    PacketDecoder.ofData, h0, h1]

theorem commandClass_eq (h : SameRequest f g) :
    (PacketDecoder.ofData f).commandClass = (PacketDecoder.ofData g).commandClass :=
  congrArg UInt8.toNat (h 20 (by simp; omega) (by decide))

theorem pid_eq (h : SameRequest f g) :
    (PacketDecoder.ofData f).pid = (PacketDecoder.ofData g).pid :=
  congrArg beNat (h.read_eq (p := 21) (by decide) (by simp; omega))

theorem pdl_eq (h : SameRequest f g) :
    (PacketDecoder.ofData f).pdl = (PacketDecoder.ofData g).pdl :=
  congrArg UInt8.toNat (h 23 (by simp; omega) (by decide))

theorem pdAt_eq (h : SameRequest f g) (pos size : ℕ) :
    (PacketDecoder.ofData f).pdAt pos size = (PacketDecoder.ofData g).pdAt pos size := by
  unfold PacketDecoder.pdAt
  rw [← h.pdl_eq]
  split
  · rfl
  · rename_i hle
    have hread : f.data.read (Header.size + pos) size = g.data.read (Header.size + pos) size :=
      h.read_eq (by simp; omega) (by omega)
    exact congrArg (fun bs => some (leNat (List.reverse bs))) hread

end SameRequest

/-- **What a broadcast calls for**: no reply but to a discovery, and a set
does to the device what it does when it is sent to that device alone. -/
structure SilentOnBroadcast (d : RdmDevice) (f : DmxData) : Prop where
  silent : (PacketDecoder.ofData f).isRdm → (PacketDecoder.ofData f).isRequest →
    (PacketDecoder.ofData f).destination = broadcast → ¬ IsDiscUniqueBranch f →
      (d.handle f).2 = none
  same : (PacketDecoder.ofData f).isRdm →
    (PacketDecoder.ofData f).commandClass = setCommand →
    (PacketDecoder.ofData f).destination = broadcast →
      ∀ g, SameRequest f g → (PacketDecoder.ofData g).destination = d.myUid →
        (d.handle f).1 = (d.handle g).1

theorem addressed_broadcast (h : (PacketDecoder.ofData f).destination = broadcast) (uid : ℕ) :
    addressed f uid = true := by
  simp [addressed, PacketDecoder.itIsForMe, h]

theorem addressed_of_eq (h : (PacketDecoder.ofData f).destination = d.myUid) :
    addressed f d.myUid = true := by
  simp [addressed, PacketDecoder.itIsForMe, h]

theorem RdmDevice.applySet_congr {rdm' : PacketDecoder} (hpid : rdm.pid = rdm'.pid)
    (hpd : ∀ pos size, rdm.pdAt pos size = rdm'.pdAt pos size) :
    d.applySet rdm = d.applySet rdm' := by
  unfold applySet
  rw [hpid, hpd 0 2, hpd 0 1, hpd 0 6]

/-- **A broadcast set does what it does sent to one device.** -/
theorem broadcast_set_same (hrdm : (PacketDecoder.ofData f).isRdm)
    (hcc : (PacketDecoder.ofData f).commandClass = setCommand)
    (hdst : (PacketDecoder.ofData f).destination = broadcast) (hsame : SameRequest f g)
    (hown : (PacketDecoder.ofData g).destination = d.myUid) :
    (d.handle f).1 = (d.handle g).1 := by
  have hcc' : (PacketDecoder.ofData g).commandClass = setCommand :=
    hsame.commandClass_eq.symm.trans hcc
  have hf : d.Heeds f :=
    ⟨hrdm, (PacketDecoder.isRequest_iff _).2 (Or.inr (Or.inr hcc)), addressed_broadcast hdst _⟩
  have hg : d.Heeds g :=
    ⟨hsame.isRdm_eq ▸ hrdm, (PacketDecoder.isRequest_iff _).2 (Or.inr (Or.inr hcc')),
      addressed_of_eq hown⟩
  rw [(RdmDevice.handle_of_heeds hf).2.2 hcc, (RdmDevice.handle_of_heeds hg).2.2 hcc']
  exact RdmDevice.applySet_congr hsame.pid_eq hsame.pdAt_eq

/-- A broadcast discovery is answered only if it looks for devices. -/
theorem broadcast_discovery_silent (hh : d.Heeds f)
    (hcc : (PacketDecoder.ofData f).commandClass = discoveryCommand)
    (hdst : (PacketDecoder.ofData f).destination = broadcast) (hnot : ¬ IsDiscUniqueBranch f) :
    (d.handle f).2 = none := by
  rw [(RdmDevice.handle_of_heeds hh).1 hcc]
  refine Option.eq_none_iff_forall_ne_some.2 fun r hr => ?_
  obtain ⟨hanswers, -⟩ := RdmDevice.handleDiscovery_snd_iff.1 hr
  rcases hanswers with ⟨hpid, -, -⟩ | ⟨-, hother⟩
  · exact hnot ⟨hh.1, hh.2.1, hcc, hpid⟩
  · exact hother hdst

/-- **When broadcasts are met with silence**: always, except that a
broadcast get or set is answered. -/
theorem silent_iff (d : RdmDevice) (f : DmxData) :
    SilentOnBroadcast d f ↔
      ((PacketDecoder.ofData f).isRdm → (PacketDecoder.ofData f).destination = broadcast →
        (PacketDecoder.ofData f).commandClass ≠ getCommand ∧
          (PacketDecoder.ofData f).commandClass ≠ setCommand) := by
  constructor
  · intro h hrdm hdst
    -- a heeded request of another class than discovery always gets a reply
    have hsilent : ∀ hreq : (PacketDecoder.ofData f).isRequest,
        (PacketDecoder.ofData f).commandClass ≠ discoveryCommand → False := by
      intro hreq hcc
      obtain ⟨r, hr, -⟩ := handle_other (d := d) ⟨hrdm, hreq, addressed_broadcast hdst _⟩ hcc
      have hnone := h.silent hrdm hreq hdst fun hdub => hcc hdub.commandClass
      rw [hnone] at hr
      cases hr
    constructor
    · intro hget
      exact hsilent ((PacketDecoder.isRequest_iff _).2 (Or.inr (Or.inl hget)))
        (by rw [hget]; decide)
    · intro hset
      exact hsilent ((PacketDecoder.isRequest_iff _).2 (Or.inr (Or.inr hset)))
        (by rw [hset]; decide)
  · intro hcond
    refine ⟨fun hrdm hreq hdst hnot => ?_, fun hrdm hcc hdst g hsame hown =>
      broadcast_set_same hrdm hcc hdst hsame hown⟩
    obtain ⟨hget, hset⟩ := hcond hrdm hdst
    have hh : d.Heeds f := ⟨hrdm, hreq, addressed_broadcast hdst _⟩
    rcases (PacketDecoder.isRequest_iff _).1 hreq with hcc | hcc | hcc
    · exact broadcast_discovery_silent hh hcc hdst hnot
    · exact absurd hcc hget
    · exact absurd hcc hset

/-- A get of `DEVICE_INFO` sent to all devices. -/
def deviceInfoToAll : DmxData := getRequest broadcast deviceInfo

/-- It is answered by any of them. -/
theorem deviceInfoToAll_not_silent : ¬ SilentOnBroadcast (RdmDevice.new 5) deviceInfoToAll := by
  intro h
  have hheeds : (RdmDevice.new 5).Heeds deviceInfoToAll := by decide +kernel
  have hcc : (PacketDecoder.ofData deviceInfoToAll).commandClass ≠ discoveryCommand := by
    decide +kernel
  obtain ⟨r, hr, -⟩ := handle_other hheeds hcc
  have hnone := h.silent hheeds.1 hheeds.2.1 (by decide +kernel) fun hdub => hcc hdub.commandClass
  rw [hnone] at hr
  cases hr

end Librdm

end Dmx4Linux2
