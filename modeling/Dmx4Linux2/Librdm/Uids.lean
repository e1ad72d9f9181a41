import Dmx4Linux2.Librdm.Bounds
import Dmx4Linux2.Librdm.Parameters

/-!
# librdm — UIDs as parameters

A `Uid` keeps its bytes in network order, and the `addPd` for it goes
through the one for objects of the host, which reverses them. What is
decoded is the UID with its bytes in the opposite order
(`pdAt_addPdUid`), which is what a device takes for its UID when it is
given one (`RdmDevice.handle_setUid`).
-/

namespace Dmx4Linux2

namespace Librdm

variable {e : PacketEncoder} {d : RdmDevice} {u : ℕ}

/-! ## In a packet -/

/-- **The bytes of a UID are added least significant first.** -/
theorem PacketEncoder.addPdUid_eq (e : PacketEncoder) (u : ℕ) :
    e.addPdUid u = e.addBytes (leBytes 6 u) := by
  -- a `Uid` is in network order, and is turned round as if it were not
  have hbytes : uidBytes u = beBytes 6 u := by
    have h := beBytes_add 2 4 u
    rw [show (256 : ℕ) ^ 4 = 2 ^ 32 by norm_num] at h
    exact h.symm
  rw [addPdUid, addPdObject_eq, hbytes, List.take_of_length_le (by simp), beBytes,
    List.reverse_reverse]

/-- The UID with its bytes in the opposite order. -/
def reversed (u : ℕ) : ℕ := beNat (leBytes 6 u)

/-- A UID is decoded as it is just when its bytes are the same from both
ends. -/
theorem reversed_eq_iff (hu : u < 2 ^ 48) : reversed u = u ↔ leBytes 6 u = beBytes 6 u := by
  constructor
  · intro h
    have hbytes := beBytes_beNat (leBytes 6 u)
    rw [length_leBytes] at hbytes
    rw [← hbytes]
    exact congrArg (beBytes 6) h
  · intro h
    rw [reversed, h, beNat_beBytes_of_lt (lt_of_lt_of_eq hu (by norm_num))]

/-- Data that were added are in the packet, and it counts them if it
can. -/
theorem PacketEncoder.finalize_addBytes (e : PacketEncoder) (bs : List UInt8) :
    (PacketDecoder.ofData (e.addBytes bs).finalize.frame).pdl = (e.pdl + bs.length) % 2 ^ 8 ∧
      (e.pdl + bs.length < 2 ^ 8 →
        (e.addBytes bs).finalize.pkt.read (Header.size + e.pdl) bs.length = bs) := by
  set t : Traced := (⟨e, []⟩ : Traced).addBytes bs with ht
  have hpdl : (e.addBytes bs).pdl = (e.pdl + bs.length) % 2 ^ 8 := Traced.pdl_addBytes ⟨e, []⟩ bs
  refine ⟨(Traced.pdl_finalize t).trans hpdl, fun hlt => ?_⟩
  rw [Nat.mod_eq_of_lt hlt] at hpdl
  set e' := (e.addBytes bs).store Header.msgLength
    [UInt8.ofNat (Header.size + (e.addBytes bs).pdl)] with he'
  have hpdl' : e'.pdl = e.pdl + bs.length := by
    rw [← hpdl]
    exact congrArg UInt8.toNat (Traced.store_apply_outside t (by simp))
  have hfinal : (e.addBytes bs).finalize.pkt = e'.pkt.write (Header.size + e'.pdl)
      (beBytes 2 (e'.pkt.sum16 0 e'.msgLength)) := rfl
  -- the checksum and the two lengths are stored around the data
  rw [hfinal, Mem.read_write_outside (by omega), he', store,
    Mem.read_write_outside (by simp; omega), addBytes, store, store,
    Mem.read_write_outside (by simp), Mem.read_write]

/-- **A UID is decoded with its bytes reversed**, wherever it was added. -/
theorem pdAt_addPdUid (e : PacketEncoder) (u : ℕ) :
    (PacketDecoder.ofData (e.addPdUid u).finalize.frame).pdAt e.pdl 6 =
      if e.pdl + 6 < 256 then some (reversed u) else none := by
  obtain ⟨hpdl, hread⟩ := e.finalize_addBytes (leBytes 6 u)
  rw [length_leBytes] at hpdl hread
  rw [e.addPdUid_eq, PacketDecoder.pdAt, hpdl]
  split
  · rw [if_neg (by omega)]
  · rw [if_pos (by omega)]
    exact congrArg (fun bs => some (beNat bs)) (hread (by omega))

/-! ## In a device -/

/-- **A device that is given a UID** takes it with the bytes reversed. -/
theorem RdmDevice.handle_setUid (buffer : Mem) (u : ℕ) (h : d.myUid < broadcast) :
    (d.handle ((System.set buffer d.myUid 0xFEED).addUid u).request).1 =
      { d with myUid := reversed u } := by
  have hholds : Holds ((System.set buffer d.myUid 0xFEED).addUid u).request
      (setMessage buffer d.myUid 0xFEED (leBytes 6 u)) := by
    unfold RdmApiSetter.addUid
    rw [PacketEncoder.addPdUid_eq]
    exact setRequest_holds buffer d.myUid 0xFEED (by simp)
  generalize ((System.set buffer d.myUid 0xFEED).addUid u).request = f at hholds
  have hc : Carries (PacketDecoder.ofData f).pkt _ := hholds.carries
  have hdst : (setMessage buffer d.myUid 0xFEED (leBytes 6 u)).header .destination = d.myUid := by
    simp [setMessage]
  have hcc : (setMessage buffer d.myUid 0xFEED (leBytes 6 u)).header .commandClass =
      setCommand := by
    simp [setMessage]
  have haddressed : addressed f d.myUid = true := by
    rw [(hholds.carries.addressed (by rw [hdst]; exact h)).2, hdst, decide_eq_true rfl]
  have hpid : (PacketDecoder.ofData f).pid = 0xFEED := by
    rw [hc.pid]
    simp [setMessage]
  have hpd : (setMessage buffer d.myUid 0xFEED (leBytes 6 u)).pd = leBytes 6 u := rfl
  have hvalue : (PacketDecoder.ofData f).pdAt 0 6 = some (reversed u) := by
    rw [hc.pdAt (by rw [hpd]; simp) (by rw [hpd]; simp), hpd, List.drop_zero,
      List.take_of_length_le (by simp), reversed]
  rw [(RdmDevice.handle_addressed hholds.carries haddressed).2 hcc]
  show d.applySet (PacketDecoder.ofData f) = _
  unfold applySet
  rw [hpid, if_neg (by decide), if_neg (by decide), if_pos rfl, hvalue]

/-- Every device on a bus handles the frames of the master. -/
theorem DmxBus.slaves_handleMaster (bus : DmxBus) (f : DmxData) :
    (bus.handleMaster f).1.slaves = bus.slaves.map fun d => (d.handle f).1 := by
  rw [handleMaster, handleSlaves_eq f _ _ rfl]
  split <;> rfl

/-- **A UID is a parameter like any other**: a packet gives back what was
added to it, and a device that is given the UID has it. -/
structure UidRoundTrips (e : PacketEncoder) (u : ℕ) : Prop where
  packet : (PacketDecoder.ofData (e.addPdUid u).finalize.frame).pdAt e.pdl 6 = some u
  device : ∀ (s : System) (buffer : Mem) (k : ℕ) (d : RdmDevice), s.bus.slaves[k]? = some d →
    d.myUid < broadcast →
      ((s.commit ((System.set buffer d.myUid 0xFEED).addUid u)).bus.slaves[k]?).map
        RdmDevice.myUid = some u

/-- **When UIDs come out as they went in**: the six bytes are the same
from both ends, and the data length can count them. The buffer is the
caller's, and is long enough for the packet with the UID in it, that is
`24 + pdl + 6` bytes at least. -/
theorem uid_roundTrips_iff (e : PacketEncoder) (u : ℕ) (hu : u < 2 ^ 48) :
    UidRoundTrips e u ↔ e.pdl + 6 < 256 ∧ leBytes 6 u = beBytes 6 u := by
  rw [← reversed_eq_iff hu]
  constructor
  · intro h
    have hpacket := h.packet
    rw [pdAt_addPdUid] at hpacket
    split at hpacket
    · rename_i hlt
      exact ⟨hlt, Option.some.inj hpacket⟩
    · cases hpacket
  · rintro ⟨hlt, hsame⟩
    refine ⟨?_, fun s buffer k d hk hd => ?_⟩
    · rw [pdAt_addPdUid, if_pos hlt, hsame]
    -- all devices handle the request; the one it is for is the `k`-th
    · have hslaves : (s.commit ((System.set buffer d.myUid 0xFEED).addUid u)).bus.slaves =
          s.bus.slaves.map fun d' =>
            (d'.handle ((System.set buffer d.myUid 0xFEED).addUid u).request).1 :=
        DmxBus.slaves_handleMaster s.bus _
      rw [hslaves, List.getElem?_map, hk, Option.map_some, Option.map_some,
        RdmDevice.handle_setUid buffer u hd, hsame]

/-- The UID whose bytes are 1, 2, 3, 3, 2, 1. -/
theorem uid_roundTrips_sameFromBothEnds :
    UidRoundTrips (PacketEncoder.new clearedBuffer 256) 0x010203030201 :=
  (uid_roundTrips_iff (PacketEncoder.new clearedBuffer 256) 0x010203030201 (by decide)).2
    ⟨by decide +kernel, by decide +kernel⟩

/-- The UID 1 comes out as 2 to the 40. -/
theorem uid1_not_roundTrips : ¬ UidRoundTrips (PacketEncoder.new clearedBuffer 256) 1 := by
  intro h
  have hpacket := h.packet
  rw [pdAt_addPdUid] at hpacket
  exact absurd hpacket (by decide +kernel)

end Librdm

end Dmx4Linux2
