import Dmx4Linux2.Librdm.Replies

/-!
# librdm — frames that were cut off

The decoder is given the size of a frame and does not look at it: it
trusts the data length that the sender put into the header. A frame whose
bytes are all there up to the end of its data is handled by its bytes
alone (`handle_congr`), and read by a future in the same way if it fits
the buffer of the future and what is asked for lies in the data. Otherwise
bytes are used that were not received, or a variable that was never set
(`received_only_iff`).
-/

namespace Dmx4Linux2

namespace Librdm

variable {d : RdmDevice} {f g : DmxData} {a b : PacketDecoder} {fut fut' : RdmFuture}

/-! ## What is read of a packet -/

/-- The packets read the same, in every field and in the data. -/
structure Alike (a b : PacketDecoder) : Prop where
  startCode : a.startCode = b.startCode
  subStartCode : a.subStartCode = b.subStartCode
  commandClass : a.commandClass = b.commandClass
  subDevice : a.subDevice = b.subDevice
  pid : a.pid = b.pid
  pdl : a.pdl = b.pdl
  source : a.source = b.source
  destination : a.destination = b.destination
  pdAt : ∀ pos size, a.pdAt pos size = b.pdAt pos size
  pdAtChars : ∀ pos size, a.pdAtChars pos size = b.pdAtChars pos size

/-- **The header and the data are all that is read.** -/
theorem Alike.of_agree (h : ∀ i, i < Header.size + a.pdl → a.pkt i = b.pkt i) : Alike a b := by
  have hbyte : ∀ i, i < Header.size → a.pkt i = b.pkt i := fun i hi => h i (by omega)
  have hread : ∀ p n, p + n ≤ Header.size + a.pdl → a.pkt.read p n = b.pkt.read p n :=
    fun p n hp => Mem.read_congr fun i hi => h _ (by omega)
  have hpdl : a.pdl = b.pdl := congrArg UInt8.toNat (hbyte Header.pdl (by decide))
  have huid : ∀ p, p + 6 ≤ Header.size → a.uidAt p = b.uidAt p := by
    intro p hp
    rw [PacketDecoder.uidAt_eq, PacketDecoder.uidAt_eq, hread p 6 (by omega)]
  refine ⟨congrArg UInt8.toNat (hbyte _ (by decide)), congrArg UInt8.toNat (hbyte _ (by decide)),
    congrArg UInt8.toNat (hbyte _ (by decide)), congrArg beNat (hread _ _ (by simp; omega)),
    congrArg beNat (hread _ _ (by simp; omega)), hpdl, huid _ (by decide), huid _ (by decide),
    fun pos size => ?_, fun pos size => ?_⟩
  · unfold PacketDecoder.pdAt
    rw [← hpdl]
    split
    · rfl
    · rw [hread _ _ (by omega)]
  · unfold PacketDecoder.pdAtChars
    rw [← hpdl]
    split
    · rfl
    · rw [hread _ _ (by omega)]

namespace Alike

variable (h : Alike a b)
include h

theorem reply_eq (d : RdmDevice) (cc pid : ℕ) : d.reply a cc pid = d.reply b cc pid := by
  unfold RdmDevice.reply
  rw [h.source]

theorem handleDiscovery_eq (d : RdmDevice) : d.handleDiscovery a = d.handleDiscovery b := by
  have hreply : ∀ pid, d.discoveryReply a pid = d.discoveryReply b pid := by
    intro pid
    unfold RdmDevice.discoveryReply
    rw [h.reply_eq]
  have hbranch : d.handleDiscUniqueBranch a = d.handleDiscUniqueBranch b := by
    unfold RdmDevice.handleDiscUniqueBranch
    rw [h.pdAt, h.pdAt, hreply]
  have hmute : ∀ pid on, d.handleMute a pid on = d.handleMute b pid on := by
    intro pid on
    unfold RdmDevice.handleMute
    rw [h.destination, hreply]
  unfold RdmDevice.handleDiscovery
  rw [h.pid, hbranch, hmute, hmute]

theorem handleGet_eq (d : RdmDevice) : d.handleGet a = d.handleGet b := by
  unfold RdmDevice.handleGet
  rw [RdmDevice.getReply_eq_calls, RdmDevice.getReply_eq_calls, h.reply_eq, h.pid]

theorem handleSet_eq (d : RdmDevice) : d.handleSet a = d.handleSet b := by
  unfold RdmDevice.handleSet RdmDevice.setReply
  rw [RdmDevice.applySet_congr h.pid h.pdAt, h.reply_eq, h.pid]

end Alike

/-- **A device handles alike what reads alike.** -/
theorem RdmDevice.handle_congr (h : Alike (PacketDecoder.ofData f) (PacketDecoder.ofData g)) :
    d.handle f = d.handle g := by
  unfold handle
  dsimp only
  rw [h.handleDiscovery_eq, h.handleGet_eq, h.handleSet_eq]
  unfold PacketDecoder.isRdm PacketDecoder.isRequest PacketDecoder.itIsForMe
  rw [h.startCode, h.subStartCode, h.commandClass, h.destination]

/-! ## What is read of a future -/

/-- What the accessors of a future return, of which `at<T>` is asked for one
value. -/
structure Accessed where
  size : ℕ
  startCode : Option ℕ
  subStartCode : Option ℕ
  commandClass : Option ℕ
  subDevice : Option ℕ
  pid : Option ℕ
  source : Option ℕ
  destination : Option ℕ
  value : ℕ
  charsAt : ℕ → ℕ → Option (List UInt8)

def RdmFuture.accessed (fut : RdmFuture) (offset width t : ℕ) : Accessed where
  size := fut.size
  startCode := fut.startCode
  subStartCode := fut.subStartCode
  commandClass := fut.commandClass
  subDevice := fut.subDevice
  pid := fut.pid
  source := fut.source
  destination := fut.destination
  value := fut.valueAt offset width t
  charsAt := fut.charsAt

/-- Futures that read alike return the same, and a value that lies in the
data whatever the variable was before. -/
theorem RdmFuture.accessed_congr (hwait : fut.wait.okay = fut'.wait.okay)
    (h : Alike fut.dec fut'.dec) {offset width : ℕ} (hin : offset + width ≤ fut.dec.pdl)
    (t t' : ℕ) : fut.accessed offset width t = fut'.accessed offset width t' := by
  have hvalue : fut.valueAt offset width t = fut'.valueAt offset width t' := by
    have hset : (fut'.dec.pdAt offset width).isSome = true := by
      rw [PacketDecoder.pdAt, if_neg (by rw [← h.pdl]; omega)]
      rfl
    obtain ⟨v, hv⟩ := Option.isSome_iff_exists.1 hset
    unfold valueAt
    rw [hwait, h.pdAt, hv, Option.getD_some, Option.getD_some]
  have hchars : fut.charsAt = fut'.charsAt := by
    funext pos size
    unfold charsAt
    rw [hwait, h.pdAtChars]
  simp only [accessed, size, startCode, subStartCode, commandClass, subDevice, pid, source,
    destination, field, hwait, hvalue, hchars, h.startCode, h.subStartCode, h.commandClass,
    h.subDevice, h.pid, h.pdl, h.source, h.destination]

/-- The bytes that were received and fit are in the buffer. -/
theorem RdmFuture.set_buffer (fut : RdmFuture) {i : ℕ} (hi : i < f.size) (hfits : i < 256) :
    (fut.set f).buffer i = f.data i := by
  unfold RdmFuture.set
  exact Mem.write_read_apply (by split <;> omega)

/-- The other bytes are what they were. -/
theorem RdmFuture.set_buffer_of_ge (fut : RdmFuture) {i : ℕ} (hi : f.size ≤ i ∨ 256 ≤ i) :
    (fut.set f).buffer i = fut.buffer i := by
  have hlen : (f.data.read 0 (if f.size < 256 then f.size else 256)).length ≤ i := by
    rw [Mem.length_read]
    split <;> omega
  show fut.buffer.write 0 _ i = _
  exact Mem.write_apply_of_ge (by omega)

/-! ## What is done with a frame -/

/-- The device does something about the frame: it answers it or changes. -/
def RdmDevice.ActsOn (d : RdmDevice) (f : DmxData) : Prop :=
  d.Heeds f ∧ ((PacketDecoder.ofData f).commandClass = discoveryCommand →
    d.AnswersDiscovery (PacketDecoder.ofData f) ∨
      ((PacketDecoder.ofData f).pid = discMute ∧ ¬ d.muted) ∨
      ((PacketDecoder.ofData f).pid = discUnMute ∧ d.muted))

/-- A discovery request changes the flag of a device or nothing. -/
theorem RdmDevice.afterDiscovery_eq_self_iff {rdm : PacketDecoder} :
    d.afterDiscovery rdm = d ↔
      ¬ ((rdm.pid = discMute ∧ ¬ d.muted) ∨ (rdm.pid = discUnMute ∧ d.muted)) := by
  have hflag : ∀ on, d.setMuted on = d ↔ d.muted = on := by
    intro on
    constructor
    · intro h
      rw [← h]
      rfl
    · rintro rfl
      exact d.setMuted_self
  unfold afterDiscovery
  by_cases hmute : rdm.pid = discMute
  · rw [if_pos hmute, hflag, hmute]
    simp [discMute, discUnMute]
  · rw [if_neg hmute]
    by_cases hun : rdm.pid = discUnMute
    · rw [if_pos hun, hflag, hun]
      simp [discMute, discUnMute]
    · simp [hmute, hun]

/-- **A frame is ignored** just when the device does not act on it. -/
theorem RdmDevice.handle_eq_ignored_iff : d.handle f = (d, none) ↔ ¬ d.ActsOn f := by
  unfold ActsOn
  by_cases hh : d.Heeds f
  swap
  · exact iff_of_true (handle_of_not_heeds hh) fun h => hh h.1
  rw [and_iff_right hh]
  by_cases hcc : (PacketDecoder.ofData f).commandClass = discoveryCommand
  -- a discovery request may be heeded and come to nothing, the others not
  · have hnone : ((d.handleDiscovery (PacketDecoder.ofData f)).2 = none) ↔
        ¬ d.AnswersDiscovery (PacketDecoder.ofData f) := by
      rw [Option.eq_none_iff_forall_ne_some]
      constructor
      · exact fun h hans => h _ (handleDiscovery_snd_iff.2 ⟨hans, rfl⟩)
      · exact fun h r hr => h (handleDiscovery_snd_iff.1 hr).1
    rw [(handle_of_heeds hh).1 hcc, Prod.ext_iff, handleDiscovery_fst, hnone,
      afterDiscovery_eq_self_iff, forall_prop_of_true hcc]
    exact and_comm.trans not_or.symm
  · obtain ⟨r, hr, -⟩ := handle_other hh hcc
    refine iff_of_false (fun h => ?_) (not_not.2 fun h => absurd h hcc)
    rw [h] at hr
    cases hr

/-- **Only what was received is used** of a frame: a device, and a future
that is asked for a value, treat all frames with these bytes alike, whatever
the memory held before; no data are read past the end, and a frame without
its header, its data or its checksum is ignored. -/
structure ReceivedOnly (d : RdmDevice) (f : DmxData) (offset width : ℕ) : Prop where
  handled : ∀ g : DmxData, g.bytes = f.bytes → d.handle g = d.handle f
  accessed : ∀ (fut fut' : RdmFuture) (t t' : ℕ) (g : DmxData), g.bytes = f.bytes →
    (fut.set g).accessed offset width t = (fut'.set f).accessed offset width t'
  inside : ∀ pos size, ((PacketDecoder.ofData f).pdAt pos size).isSome ∨
    ((PacketDecoder.ofData f).pdAtChars pos size).isSome → Header.size + pos + size ≤ f.size
  ignored : f.size < Header.size ∨ f.size < 26 + (PacketDecoder.ofData f).pdl →
    d.handle f = (d, none)

theorem DmxData.size_eq_of_bytes (h : g.bytes = f.bytes) : g.size = f.size := by
  simpa [DmxData.bytes] using congrArg List.length h

theorem DmxData.data_eq_of_bytes (h : g.bytes = f.bytes) {i : ℕ} (hi : i < f.size) :
    g.data i = f.data i := by
  have hsize := DmxData.size_eq_of_bytes h
  have hg := Mem.getElem?_read (m := g.data) (p := 0) (by omega : i < g.size)
  have hf := Mem.getElem?_read (m := f.data) (p := 0) hi
  unfold DmxData.bytes at h
  rw [h, hf, Nat.zero_add] at hg
  exact (Option.some.inj hg).symm

/-- The length of the data is in the buffer of a future. -/
theorem RdmFuture.set_pdl (fut : RdmFuture) (hsize : Header.size ≤ f.size) :
    (fut.set f).dec.pdl = (PacketDecoder.ofData f).pdl :=
  congrArg UInt8.toNat (fut.set_buffer (by simp at hsize ⊢; omega) (by decide))

/-- Past the buffer of a future its data are not those received. -/
theorem accessed_past_buffer (offset width : ℕ) (hsize : Header.size ≤ f.size)
    (hlong : 256 < Header.size + (PacketDecoder.ofData f).pdl) :
    ∃ fut fut' : RdmFuture,
      (fut.set f).accessed offset width 0 ≠ (fut'.set f).accessed offset width 0 := by
  -- the last byte of the data is the one that does not fit
  obtain ⟨n, hn⟩ := Nat.exists_eq_add_of_lt hlong
  refine ⟨⟨fun _ => 0, .busy⟩, ⟨fun _ => 1, .busy⟩, fun heq => ?_⟩
  have hchars : ∀ fut : RdmFuture, ((fut.set f).accessed offset width 0).charsAt
      ((PacketDecoder.ofData f).pdl - 1) 1 = some [fut.buffer (256 + n)] := by
    intro fut
    have hpdl := fut.set_pdl hsize
    have hat : Header.size + ((PacketDecoder.ofData f).pdl - 1) = 256 + n := by
      simp at hn ⊢
      omega
    have hbyte : (fut.set f).dec.pkt (256 + n) = fut.buffer (256 + n) :=
      fut.set_buffer_of_ge (Or.inr (by omega))
    show (fut.set f).charsAt _ _ = _
    unfold RdmFuture.charsAt PacketDecoder.pdAtChars
    rw [if_pos (RdmFuture.okay_of_ready rfl), hpdl, if_neg (by simp at hn; omega), hat,
      Mem.read_one, hbyte]
  have h01 := congrArg (fun x : Accessed => x.charsAt ((PacketDecoder.ofData f).pdl - 1) 1) heq
  simp only [hchars] at h01
  exact absurd h01 (by decide)

/-- Past the data the value is that of the variable. -/
theorem valueAt_past_data (fut : RdmFuture) {offset width : ℕ} (hsize : Header.size ≤ f.size)
    (hpast : (PacketDecoder.ofData f).pdl < offset + width) (t : ℕ) :
    (fut.set f).valueAt offset width t = t := by
  unfold RdmFuture.valueAt PacketDecoder.pdAt
  rw [if_pos (RdmFuture.okay_of_ready rfl), if_pos (by rw [fut.set_pdl hsize]; omega),
    Option.getD_none]

/-- What can be read of the data lies in them. -/
theorem le_pdl_of_isSome {rdm : PacketDecoder} {pos size : ℕ}
    (h : (rdm.pdAt pos size).isSome ∨ (rdm.pdAtChars pos size).isSome) : pos + size ≤ rdm.pdl := by
  unfold PacketDecoder.pdAt PacketDecoder.pdAtChars at h
  by_contra hgt
  rw [if_pos (by omega), if_pos (by omega)] at h
  simp at h

/-- What is asked for in the data is the same in any two futures set to the
same bytes. -/
theorem accessed_of_bytes {offset width : ℕ} (fut fut' : RdmFuture) (t t' : ℕ)
    (hg : g.bytes = f.bytes) (hsize : Header.size + (PacketDecoder.ofData f).pdl ≤ f.size)
    (hfits : Header.size + (PacketDecoder.ofData f).pdl ≤ 256)
    (hin : offset + width ≤ (PacketDecoder.ofData f).pdl) :
    (fut.set g).accessed offset width t = (fut'.set f).accessed offset width t' := by
  have hbyte : ∀ i, i < Header.size + (PacketDecoder.ofData f).pdl →
      (fut'.set f).buffer i = (fut.set g).buffer i := by
    intro i hi
    have hgsize := DmxData.size_eq_of_bytes hg
    rw [fut'.set_buffer (by omega) (by omega), fut.set_buffer (by omega) (by omega),
      DmxData.data_eq_of_bytes hg (by omega)]
  have hpdl := fut'.set_pdl (f := f) (by omega)
  have hwait : (fut'.set f).wait.okay = (fut.set g).wait.okay := by
    rw [RdmFuture.okay_of_ready rfl, RdmFuture.okay_of_ready rfl]
  refine (RdmFuture.accessed_congr hwait (Alike.of_agree fun i hi => ?_)
    (by rw [hpdl]; exact hin) t' t).symm
  rw [hpdl] at hi
  exact hbyte i hi

/-- **When only what was received is used**: the data that the header
announces are all there and fit the buffer of a future, the value asked for
lies in them, and if the checksum is not there the device would not act on
the frame anyway. -/
theorem received_only_iff (d : RdmDevice) (f : DmxData) (offset width : ℕ) :
    ReceivedOnly d f offset width ↔
      Header.size + (PacketDecoder.ofData f).pdl ≤ f.size ∧
        Header.size + (PacketDecoder.ofData f).pdl ≤ 256 ∧
        offset + width ≤ (PacketDecoder.ofData f).pdl ∧
        (26 + (PacketDecoder.ofData f).pdl ≤ f.size ∨ ¬ d.ActsOn f) := by
  constructor
  · intro h
    -- reading no bytes at the end of the data succeeds, whatever was received
    have hsize : Header.size + (PacketDecoder.ofData f).pdl ≤ f.size := by
      refine h.inside (PacketDecoder.ofData f).pdl 0 (Or.inl ?_)
      unfold PacketDecoder.pdAt
      rw [if_neg (by omega)]
      rfl
    refine ⟨hsize, ?_, ?_, ?_⟩
    · by_contra hlong
      -- two futures with different bytes behind their buffers tell it
      obtain ⟨fut, fut', hne⟩ := accessed_past_buffer (f := f) offset width (by omega) (by omega)
      exact hne (h.accessed fut fut' 0 0 f rfl)
    · by_contra hpast
      -- two values of the variable that is never set tell it
      have hvalue := valueAt_past_data (f := f) ⟨fun _ => 0, .busy⟩ (by omega)
        (Nat.not_le.1 hpast)
      have h01 := congrArg Accessed.value (h.accessed ⟨fun _ => 0, .busy⟩ ⟨fun _ => 0, .busy⟩ 0 1
        f rfl)
      exact absurd ((hvalue 0).symm.trans (h01.trans (hvalue 1))) (by decide)
    · rcases Nat.lt_or_ge f.size (26 + (PacketDecoder.ofData f).pdl) with hlt | hge
      · exact Or.inr (RdmDevice.handle_eq_ignored_iff.1 (h.ignored (Or.inr hlt)))
      · exact Or.inl hge
  · rintro ⟨hsize, hfits, hin, hsum⟩
    refine ⟨fun g hg => ?_, fun fut fut' t t' g hg => ?_, fun pos size hpd => ?_, fun hshort => ?_⟩
    · refine (RdmDevice.handle_congr (Alike.of_agree fun i hi => ?_)).symm
      exact (DmxData.data_eq_of_bytes hg (by omega)).symm
    · exact accessed_of_bytes fut fut' t t' hg hsize hfits hin
    · have hle := le_pdl_of_isSome hpd
      omega
    · rcases hsum with hsum | hsum
      · simp only [Header.size] at hshort hsize
        omega
      · exact RdmDevice.handle_eq_ignored_iff.2 hsum

/-- The header of a request to set a start address, without the address. -/
def headerOnly : DmxData :=
  ⟨((System.set clearedBuffer 5 dmxStartAddress).addU16 7).request.data, 24⟩

/-- The device sets its address to what lies behind. -/
theorem headerOnly_not_receivedOnly : ¬ ReceivedOnly (RdmDevice.new 5) headerOnly 0 2 := by
  intro h
  have hinside := h.inside 0 2 (Or.inl (by decide +kernel))
  exact absurd hinside (by decide)

end Librdm

end Dmx4Linux2
