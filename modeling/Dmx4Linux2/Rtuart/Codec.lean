import Dmx4Linux2.Rtuart.Transmit

/-!
# rtuart DMX client — what a discovery reply is accepted as

A reply is accepted when the bits are set that the encoding sets and the
checksum over the encoded UID is right. `completed_iff` says that these
tests let through just what a responder writes: whatever passes them is
the reply of one UID, and that UID is the source of the response.
-/

namespace Dmx4Linux2

namespace Rtuart

variable {data : Mem} {q : ℕ} {uid uid' bs : List UInt8}

/-! ## Decoding -/

/-- **Bytes with the bits set that the encoding sets are an encoding**, of
what is decoded from them. -/
theorem read_eq_encoded {n : ℕ} (h : ∀ k, k < n →
      data (q + 2 * k) &&& 0xAA = 0xAA ∧ data (q + 2 * k + 1) &&& 0x55 = 0x55) :
    data.read q (2 * n) =
      ((List.range n).map fun i => decodeByte data (q + 2 * i)).flatMap encodeByte := by
  induction n with
  | zero => rfl
  | succ n ih =>
    obtain ⟨heven, hodd⟩ := h n (by omega)
    have hfirst : 0xAA ||| decodeByte data (q + 2 * n) = data (q + 2 * n) :=
      mask_or_and (by decide) heven hodd
    have hsecond : 0x55 ||| decodeByte data (q + 2 * n) = data (q + 2 * n + 1) := by
      unfold decodeByte
      rw [UInt8.and_comm]
      exact mask_or_and (by decide) hodd heven
    have hpair : data.read (q + 2 * n) 2 = encodeByte (decodeByte data (q + 2 * n)) := by
      rw [Mem.read_succ, Mem.read_one, encodeByte, hfirst, hsecond]
    rw [Nat.mul_add, Nat.mul_one, Mem.read_add, ih fun k hk => h k (by omega), hpair,
      List.range_succ, List.map_append, List.flatMap_append]
    simp only [List.map_cons, List.map_nil, List.flatMap_cons, List.flatMap_nil, List.append_nil]

/-- **What is accepted is a reply**, of the UID decoded from it. -/
theorem Accepts.replyAt (h : Accepts data q) : ReplyAt data q (decodedUid data q) := by
  obtain ⟨hencoded, hsum⟩ := h
  have hbits : ∀ k, k < 8 →
      data (q + 2 * k) &&& 0xAA = 0xAA ∧ data (q + 2 * k + 1) &&& 0x55 = 0x55 := by
    intro k hk
    have hall := List.all_eq_true.1 hencoded k (List.mem_range.2 hk)
    simpa only [Bool.and_eq_true, beq_iff_eq] using hall
  have hall := read_eq_encoded hbits
  have huid : data.read q 12 = (decodedUid data q).flatMap encodeByte :=
    read_eq_encoded (n := 6) fun k hk => hbits k (by omega)
  refine ⟨by simp [decodedUid], ?_⟩
  -- the last two of the eight bytes are the checksum over the encoded UID
  have hchecksum : beBytes 2 ((((decodedUid data q).flatMap encodeByte).map UInt8.toNat).sum % 2 ^ 16)
      = [decodeByte data (q + 12), decodeByte data (q + 14)] := by
    have hlt := (decodeByte data (q + 12)).toNat_lt
    have hlt' := (decodeByte data (q + 14)).toNat_lt
    have hhigh : UInt8.ofNat (data.sum16 q 12 / 256) = decodeByte data (q + 12) := by
      refine UInt8.toNat_inj.1 ?_
      rw [UInt8.toNat_ofNat', hsum]
      omega
    have hlow : UInt8.ofNat (data.sum16 q 12) = decodeByte data (q + 14) := by
      refine UInt8.toNat_inj.1 ?_
      rw [UInt8.toNat_ofNat', hsum]
      omega
    rw [← huid, ← Mem.sum16, beBytes_two, hhigh, hlow]
  rw [replyBytes, hchecksum]
  exact hall

/-! ## Encoding -/

/-- **What a port writes for a UID**: the sixteen bytes behind the
separator of a discovery response from it. -/
def SentFor (uid bs : List UInt8) : Prop :=
  ∃ (p : Port) (response e : Entry), p.tx.frame = none ∧
    isRdmDiscoverReply response.frame.data = true ∧
    response.frame.data.read rdmPosSrcUid 6 = uid ∧
    (p.sendFrame response).1.tx.frame = some e ∧ e.frame.data.read 264 16 = bs

/-- A response of any device. -/
theorem isRdmDiscoverReply_discoveryPacket :
    isRdmDiscoverReply (discoveryPacket 0x11 0 uid) = true := by
  have hhead : ∀ i, i < 2 →
      discoveryPacket 0x11 0 uid i = Mem.write (fun _ => 0) 0 [0xCC, 0x01] i := by
    intro i hi
    unfold discoveryPacket
    rw [Mem.write_apply_of_lt (by omega), Mem.write_apply_of_lt (by omega)]
  simp only [isRdmDiscoverReply, isDiscUniqueBranch, isRdm, dmxPosStartcode, rdmPosSubStartcode,
    hhead 0 (by omega), hhead 1 (by omega)]
  rfl

theorem discoveryPacket_source (huid : uid.length = 6) :
    (discoveryPacket 0x11 0 uid).read rdmPosSrcUid 6 = uid := by
  unfold discoveryPacket
  rw [Mem.read_write_outside (Or.inl (by decide))]
  exact Mem.read_write_of_length huid

theorem sentFor_iff :
    SentFor uid bs ↔ uid.length = 6 ∧ bs = (replyBytes uid).flatMap encodeByte := by
  have hsent : ∀ {p : Port} {response e : Entry}, p.tx.frame = none →
      isRdmDiscoverReply response.frame.data = true →
      (p.sendFrame response).1.tx.frame = some e →
      e.frame.data.read 264 16 =
        (replyBytes (response.frame.data.read rdmPosSrcUid 6)).flatMap encodeByte := by
    intro p response e htx hresponse he
    rw [Port.sendFrame_tx htx, loadTx_reply hresponse] at he
    obtain rfl := Option.some.inj he
    exact (replyAt_wire Mem.length_read (storeDiscoveryReply_read response.frame.data)).read
  constructor
  · rintro ⟨p, response, e, htx, hresponse, rfl, he, rfl⟩
    exact ⟨Mem.length_read, hsent htx hresponse he⟩
  · rintro ⟨huid, rfl⟩
    let response : Entry := ⟨1, 0, ⟨false, false, false, 0⟩, 0, 25, discoveryPacket 0x11 0 uid⟩
    have hresponse : isRdmDiscoverReply response.frame.data = true :=
      isRdmDiscoverReply_discoveryPacket
    obtain ⟨e, he⟩ : ∃ e, (Port.create.sendFrame response).1.tx.frame = some e := by
      rw [Port.sendFrame_tx rfl, loadTx_reply hresponse]
      exact ⟨_, rfl⟩
    refine ⟨Port.create, response, e, rfl, hresponse, discoveryPacket_source huid, he, ?_⟩
    rw [hsent rfl hresponse he, discoveryPacket_source huid]

/-! ## The reply in a frame -/

section Line

variable {d k n : ℕ} {rest : List UInt8}

/-- The bytes of a reply, where they lie behind the separator. -/
theorem read_behind_separator (hlen : 16 ≤ rest.length)
    (hline : data.read d n = List.replicate k 0xFE ++ 0xAA :: rest) :
    data.read (d + k + 1) 16 = rest.take 16 := by
  have hn : n = k + (rest.length + 1) := by
    have hlength := congrArg List.length hline
    rwa [Mem.length_read, List.length_append, List.length_replicate, List.length_cons] at hlength
  have hinside : data.read (d + (k + 1)) 16 = ((data.read d n).drop (k + 1)).take 16 :=
    Mem.read_inside (by omega)
  rw [hline, List.append_cons, List.drop_left' (by simp)] at hinside
  exact hinside

/-- The separator is found if it is among the bytes looked at. -/
theorem findPreamble_read {size : ℕ} (hk : k < size) (hn : k < n)
    (hline : data.read d n = List.replicate k 0xFE ++ 0xAA :: rest) :
    findPreamble (data.read d size) = .found k := by
  have hfirst : data.read d (k + 1) = List.replicate k 0xFE ++ [0xAA] := by
    have hinside : data.read (d + 0) (k + 1) = ((data.read d n).drop 0).take (k + 1) :=
      Mem.read_inside (by omega)
    rw [hline, List.drop_zero, List.append_cons, List.take_left' (by simp)] at hinside
    exact hinside
  obtain ⟨more, rfl⟩ := Nat.exists_eq_add_of_lt hk
  rw [show k + more + 1 = k + 1 + more by omega, Mem.read_add, hfirst, List.append_assoc]
  exact findPreamble_found k _

end Line

namespace Frame

variable {f : Frame}

/-- `dmx512rtuart_complete_rdm_discovery_reply` with its return value: 0
and the frame it has made, or -1 and the frame it was given. -/
def completed (f : Frame) : ℤ × Frame :=
  match f.completeRdmDiscoveryReply with
  | some f' => (0, f')
  | none => (-1, f)

/-- The source of the response. -/
theorem respond_source (huid : uid.length = 6) : (f.respond uid).data.read rdmPosSrcUid 6 = uid :=
  (Mem.read_write_outside (Or.inl (by decide))).trans (responseData_source huid)

/-- The bytes behind a preamble of any length decide. -/
theorem completed_found {k : ℕ}
    (h : findPreamble (f.data.read 256 (f.payloadSize + 1)) = .found k) :
    f.completed = if Accepts f.data (256 + k + 1) then
      (0, f.respond (decodedUid f.data (256 + k + 1))) else (-1, f) := by
  unfold completed
  rw [completeRdmDiscoveryReply_found h]
  by_cases haccepts : Accepts f.data (256 + k + 1)
  · rw [if_pos haccepts, if_pos haccepts]
  · rw [if_neg haccepts, if_neg haccepts]

end Frame

/-- **The decoder accepts exactly what the encoder writes.** Behind a
preamble of any length any sixteen bytes are accepted just when they are
what a port sends for some UID; there is then only one, and the response
is from it. All else is refused, and the frame left as it was. -/
theorem completed_iff (f : Frame) (k : ℕ) (bs : List UInt8) (hk : k ≤ f.payloadSize)
    (hbs : bs.length = 16)
    (hline : f.data.read 256 (k + 17) = List.replicate k 0xFE ++ 0xAA :: bs) :
    (f.completed.1 = 0 ↔ ∃ uid, SentFor uid bs) ∧
      (∀ uid uid', SentFor uid bs → SentFor uid' bs → uid = uid') ∧
      (∀ uid, SentFor uid bs → f.completed.2.data.read rdmPosSrcUid 6 = uid) ∧
      ((¬ ∃ uid, SentFor uid bs) → f.completed = (-1, f)) := by
  have hfound : findPreamble (f.data.read 256 (f.payloadSize + 1)) = .found k :=
    findPreamble_read (by omega) (by omega) hline
  have hread : f.data.read (256 + k + 1) 16 = bs :=
    (read_behind_separator hbs.ge hline).trans (List.take_of_length_le hbs.le)
  -- the bytes lie in the frame as they were sent
  have hsent : ∀ uid, SentFor uid bs ↔ ReplyAt f.data (256 + k + 1) uid := by
    intro uid
    rw [sentFor_iff]
    exact ⟨fun h => ⟨h.1, hread.trans h.2⟩, fun h => ⟨h.length, hread.symm.trans h.read⟩⟩
  rw [Frame.completed_found hfound]
  refine ⟨?_, ?_, ?_, ?_⟩
  · constructor
    · intro hzero
      by_cases haccepts : Accepts f.data (256 + k + 1)
      · exact ⟨_, (hsent _).2 haccepts.replyAt⟩
      · rw [if_neg haccepts] at hzero
        simp at hzero
    · rintro ⟨uid, huid⟩
      rw [if_pos ((hsent uid).1 huid).accepts]
  · intro uid uid' huid huid'
    rw [← ((hsent uid).1 huid).decodedUid, ((hsent uid').1 huid').decodedUid]
  · intro uid huid
    have hreply := (hsent uid).1 huid
    rw [if_pos hreply.accepts, hreply.decodedUid]
    exact Frame.respond_source hreply.length
  · intro hnone
    exact if_neg fun haccepts => hnone ⟨_, (hsent _).2 haccepts.replyAt⟩

/-- A frame with the reply of the device `01 02 03 04 05 06`. -/
def heardReply : Frame :=
  ⟨0, ⟨false, true, true, 0⟩, 0, 23, Mem.write (fun _ => 0) 256 (wire [1, 2, 3, 4, 5, 6])⟩

theorem completed_iff_heardReply :
    heardReply.completed.1 = 0 ∧
      heardReply.completed.2.data.read rdmPosSrcUid 6 = [1, 2, 3, 4, 5, 6] := by
  obtain ⟨hzero, -, hsource, -⟩ := completed_iff heardReply 7
    ((replyBytes [1, 2, 3, 4, 5, 6]).flatMap encodeByte) (by decide) (by decide)
    (Mem.read_write_of_length rfl)
  have hsent : SentFor [1, 2, 3, 4, 5, 6] ((replyBytes [1, 2, 3, 4, 5, 6]).flatMap encodeByte) :=
    sentFor_iff.2 ⟨rfl, rfl⟩
  exact ⟨hzero.2 ⟨_, hsent⟩, hsource _ hsent⟩

end Rtuart

end Dmx4Linux2
