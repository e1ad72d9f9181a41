import Dmx4Linux2.Rtuart.Outcome

/-!
# rtuart DMX client — a discovery reply over the line

A responder sends its discovery response as 24 bytes without a break; the
requester builds the response again from them and from the request it
still has. `discoveryReply_roundTrip` says that it does so however the
bytes are split into chunks. The invariant is what the port has after `k`
bytes of the line (`Hears`): one chunk takes it from `k` to a later `k`,
and the last one ends it.
-/

namespace Dmx4Linux2

namespace Rtuart

variable {p : Port} {data : Mem}

/-! ## Bytes on the line -/

@[simp] theorem length_flatMap_encodeByte (bs : List UInt8) :
    (bs.flatMap encodeByte).length = 2 * bs.length := by
  induction bs with
  | nil => rfl
  | cons b bs ih =>
    rw [List.flatMap_cons, List.length_append, ih, List.length_cons]
    simp only [encodeByte, List.length_cons, List.length_nil]
    omega

/-- **The pairs of an encoded block**, wherever it lies. -/
theorem read_encoded {q : ℕ} {bs : List UInt8}
    (h : data.read q (2 * bs.length) = bs.flatMap encodeByte) {k : ℕ} (hk : k < bs.length) :
    data (q + 2 * k) = 0xAA ||| bs[k] ∧ data (q + 2 * k + 1) = 0x55 ||| bs[k] := by
  induction bs generalizing q k with
  | nil => simp at hk
  | cons b bs ih =>
    rw [List.length_cons, Nat.mul_add, Nat.add_comm, Nat.mul_one, Mem.read_add,
      List.flatMap_cons] at h
    obtain ⟨hb, hbs⟩ := List.append_inj h (by simp [encodeByte])
    cases k with
    | zero =>
      rw [Mem.read_succ, Mem.read_one] at hb
      simp only [encodeByte, List.cons.injEq, and_true] at hb
      exact hb
    | succ k =>
      have hpair := ih hbs (Nat.lt_of_succ_lt_succ hk)
      rw [List.getElem_cons_succ, show q + 2 * (k + 1) = q + 2 + 2 * k by omega]
      exact hpair

theorem decode_encoded {q : ℕ} {bs : List UInt8}
    (h : data.read q (2 * bs.length) = bs.flatMap encodeByte) {k : ℕ} (hk : k < bs.length) :
    decodeByte data (q + 2 * k) = bs[k] := by
  obtain ⟨heven, hodd⟩ := read_encoded h hk
  unfold decodeByte
  rw [heven, hodd]
  exact masked_and_masked (by decide) _

/-- The eight bytes a discovery reply carries: the UID and the checksum
over its encoding. -/
def replyBytes (uid : List UInt8) : List UInt8 :=
  uid ++ beBytes 2 ((((uid.flatMap encodeByte).map UInt8.toNat).sum) % 2 ^ 16)

/-- **A discovery reply as it goes on the line.** -/
def wire (uid : List UInt8) : List UInt8 :=
  List.replicate 7 0xFE ++ 0xAA :: (replyBytes uid).flatMap encodeByte

theorem length_replyBytes {uid : List UInt8} (h : uid.length = 6) : (replyBytes uid).length = 8 := by
  rw [replyBytes, List.length_append, length_beBytes, h]

theorem length_wire {uid : List UInt8} (h : uid.length = 6) : (wire uid).length = 24 := by
  rw [wire, List.length_append, List.length_replicate, List.length_cons,
    length_flatMap_encodeByte, length_replyBytes h]

theorem beBytes_two (v : ℕ) : beBytes 2 v = [UInt8.ofNat (v / 256), UInt8.ofNat v] := rfl

/-- What is stored to be sent is the reply on the line. -/
theorem storeDiscoveryReply_read (data : Mem) :
    (storeDiscoveryReply data).read 256 24 = wire (data.read rdmPosSrcUid 6) := by
  set uid := data.read rdmPosSrcUid 6 with huid
  have hlen : uid.length = 6 := Mem.length_read
  set block := List.replicate 7 (0xFE : UInt8) ++ [0xAA] ++ uid.flatMap encodeByte with hblock
  have hblocklen : block.length = 20 := by
    rw [hblock, List.length_append, length_flatMap_encodeByte, hlen]
    rfl
  have hread : (data.write 256 block).read 256 20 = block := Mem.read_write_of_length hblocklen
  -- the checksum is over the encoded UID
  have hsum : (data.write 256 block).sum16 264 12 =
      (((uid.flatMap encodeByte).map UInt8.toNat).sum) % 2 ^ 16 := by
    have hinside : (data.write 256 block).read (256 + 8) 12 = uid.flatMap encodeByte := by
      rw [Mem.read_inside (n := 20) (by omega), hread, hblock, List.drop_left' (by rfl),
        List.take_of_length_le]
      rw [length_flatMap_encodeByte, hlen]
    unfold Mem.sum16
    rw [hinside]
  have hstore : storeDiscoveryReply data = (data.write 256 block).write 276
      ((beBytes 2 ((((uid.flatMap encodeByte).map UInt8.toNat).sum) % 2 ^ 16)).flatMap
        encodeByte) := by
    unfold storeDiscoveryReply
    simp only [← huid, ← hblock, hsum, beBytes_two, List.flatMap_cons, List.flatMap_nil,
      List.append_nil]
  rw [hstore, show (24 : ℕ) = 20 + 4 from rfl, Mem.read_add, Mem.read_write_outside (by omega),
    hread, Mem.read_write_of_length (by rw [length_flatMap_encodeByte, length_beBytes]), hblock, wire,
    replyBytes, List.flatMap_append, List.append_assoc, List.append_assoc]
  rfl

/-! ## Sending -/

/-- The bytes of the frame in the transmit slot that are still to be
written. -/
def Port.pending (p : Port) : List UInt8 :=
  match p.tx.frame, p.tx.ptr with
  | some e, some ptr => e.frame.data.read ptr p.tx.remain
  | _, _ => []

@[simp] theorem written_append (acts acts' : List Action) :
    written (acts ++ acts') = written acts ++ written acts' :=
  List.flatMap_append

@[simp] theorem written_receivedFrame (o : Option Entry) : written (receivedFrame o) = [] := by
  cases o <;> rfl

@[simp] theorem written_putFrame (o : Option Entry) : written (putFrame o) = [] := by
  cases o <;> rfl

/-- **A discovery response is loaded** as its reply on the line. -/
theorem loadTx_reply {response : Entry} (hresponse : isRdmDiscoverReply response.frame.data) :
    p.loadTx response =
      { p with
        state := .transmitBreak
        tx := ⟨some ⟨response.id, { response.frame with
          flags := { response.frame.flags with isRdm := true, noBreak := true }
          data := storeDiscoveryReply response.frame.data }⟩, some 256, 24⟩ } := by
  have hrdm : isRdm response.frame.data := by
    simp only [isRdmDiscoverReply, isDiscUniqueBranch, Bool.and_eq_true] at hresponse
    exact hresponse.1.1.1.1
  have hnotrequest : isRdmDiscover response.frame.data = false := by
    simp only [isRdmDiscoverReply, isDiscUniqueBranch, Bool.and_eq_true, beq_iff_eq] at hresponse
    simp only [isRdmDiscover, isDiscUniqueBranch, hresponse.1.1.1.2]
    simp [discoveryCommand, discoveryCommandResponse]
  unfold Port.loadTx
  simp only [hrdm, hnotrequest, hresponse, if_true, Bool.false_eq_true, if_false]

/-- A discovery response is sent as its reply on the line, and nothing
before it. -/
theorem sendFrame_pending (htx : p.tx.frame = none) {response : Entry}
    (hresponse : isRdmDiscoverReply response.frame.data) :
    (p.sendFrame response).1.pending = wire (response.frame.data.read rdmPosSrcUid 6) ∧
      written (p.sendFrame response).2 = [] := by
  have hflush : (if p.rx.frame.isSome then p.flushRx else (p, [])).1.tx.frame = none ∧
      written (if p.rx.frame.isSome then p.flushRx else (p, [])).2 = [] := by
    split
    · rw [Port.flushRx_tx]
      refine ⟨htx, ?_⟩
      unfold Port.flushRx
      exact written_receivedFrame _
    · exact ⟨htx, rfl⟩
  unfold Port.sendFrame
  simp only
  generalize (if p.rx.frame.isSome then p.flushRx else (p, [])) = r at hflush
  simp only [hflush.1, loadTx_reply hresponse, Port.startTx, Option.any_some, if_true,
    written_append, hflush.2]
  exact ⟨storeDiscoveryReply_read _, rfl⟩

/-- A value of type `int`. -/
def IsInt (n : ℤ) : Prop := -2 ^ 31 ≤ n ∧ n < 2 ^ 31

/-- What is written is what was to be written first. -/
theorem transmitterHasSpace_written {n : ℤ} (hn : IsInt n) :
    written (p.transmitterHasSpace n).2 ++ (p.transmitterHasSpace n).1.pending = p.pending := by
  unfold IsInt at hn
  unfold Port.transmitterHasSpace
  match hf : p.tx.frame, hp : p.tx.ptr with
  | none, _ => rfl
  | some e, none =>
    simp only [written_putFrame, List.nil_append]
    unfold Port.checkoutTxFrame Port.pending
    simp only [hf, hp]
  | some e, some ptr =>
    simp only
    split
    · rfl
    split
    · generalize hc : (if (if n = -1 ∨ n % 2 ^ 32 > p.tx.remain then p.tx.remain else n.toNat) > 12
        then 12 else if n = -1 ∨ n % 2 ^ 32 > p.tx.remain then p.tx.remain else n.toNat) = c
      have hle : c ≤ p.tx.remain := by
        rw [← hc]
        split_ifs <;> omega
      obtain ⟨r, hr⟩ := Nat.exists_eq_add_of_le hle
      have hsub : p.tx.remain - c = r := by omega
      simp only [Port.pending, hf, hp, hsub]
      rw [hr, Mem.read_add]
      exact congrArg (· ++ _) (List.append_nil _)
    · rfl

/-- **All that is written is what was to be written**, when nothing is
left. -/
theorem transmit_written {spaces : List ℤ} (hint : ∀ n ∈ spaces, IsInt n)
    (hdone : (p.handleAll (spaces.map .transmitterHasSpace)).1.pending = []) :
    written (p.handleAll (spaces.map .transmitterHasSpace)).2 = p.pending := by
  induction spaces generalizing p with
  | nil => exact hdone.symm
  | cons n spaces ih =>
    have hstep := transmitterHasSpace_written (p := p) (hint n (List.mem_cons_self ..))
    have hrest := ih (p := (p.transmitterHasSpace n).1)
      (fun m hm => hint m (List.mem_cons_of_mem _ hm)) hdone
    rw [← hrest] at hstep
    exact (written_append _ _).trans hstep

/-! ## What the requester makes of the bytes -/

/-- **The response to a discovery request**: from the responder, to the
requester, with the sizes and the checksum of a packet without data. -/
structure IsDiscoveryResponse (f : Frame) (source destination : List UInt8) : Prop where
  kind : isRdmDiscoverReply f.data
  source : f.data.read rdmPosSrcUid 6 = source
  destination : f.data.read rdmPosDestUid 6 = destination
  pdl : f.data rdmPosPdl = 0
  length : f.data rdmPosLength = 24
  payloadSize : f.payloadSize = 25
  checksum : beNat (f.data.read 24 2) = f.data.sum16 0 24

variable {uid : List UInt8} {f : Frame}

theorem findPreamble_incomplete (n : ℕ) : findPreamble (List.replicate n 0xFE) = .incomplete := by
  induction n with
  | zero => rfl
  | succ n ih =>
    rw [List.replicate_succ, findPreamble, if_neg (by decide), if_neg (by decide), ih]

theorem findPreamble_found (n : ℕ) (bs : List UInt8) :
    findPreamble (List.replicate n 0xFE ++ 0xAA :: bs) = .found n := by
  induction n with
  | zero => rfl
  | succ n ih =>
    rw [List.replicate_succ, List.cons_append, findPreamble, if_neg (by decide),
      if_neg (by decide), ih]

/-- **A reply lies at `q`**: the eight bytes it carries, encoded. -/
structure ReplyAt (data : Mem) (q : ℕ) (uid : List UInt8) : Prop where
  length : uid.length = 6
  read : data.read q 16 = (replyBytes uid).flatMap encodeByte

/-- The bytes at `q` pass what a reply is tested for. -/
def Accepts (data : Mem) (q : ℕ) : Prop :=
  encodedAt data q = true ∧ data.sum16 q 12 =
    ((decodeByte data (q + 12)).toNat * 256 + (decodeByte data (q + 14)).toNat) % 2 ^ 16

instance (data : Mem) (q : ℕ) : Decidable (Accepts data q) :=
  inferInstanceAs (Decidable (_ ∧ _))

/-- The UID decoded from the bytes at `q`. -/
def decodedUid (data : Mem) (q : ℕ) : List UInt8 :=
  (List.range 6).map fun i => decodeByte data (q + 2 * i)

variable {q : ℕ}

theorem ReplyAt.read_replyBytes (h : ReplyAt data q uid) :
    data.read q (2 * (replyBytes uid).length) = (replyBytes uid).flatMap encodeByte := by
  rw [length_replyBytes h.length]
  exact h.read

/-- The reply lies behind the separator. -/
theorem replyAt_wire (huid : uid.length = 6) (h : data.read 256 24 = wire uid) :
    ReplyAt data 264 uid := by
  refine ⟨huid, ?_⟩
  have hsplit : wire uid =
      (List.replicate 7 0xFE ++ [0xAA]) ++ (replyBytes uid).flatMap encodeByte := by
    rw [wire, List.append_assoc]
    rfl
  rw [show (264 : ℕ) = 256 + 8 from rfl, Mem.read_inside (n := 24) (by omega), h, hsplit,
    List.drop_left' (by rfl), List.take_of_length_le]
  rw [length_flatMap_encodeByte, length_replyBytes huid]

theorem ReplyAt.encodedAt (h : ReplyAt data q uid) : encodedAt data q := by
  have hlen := length_replyBytes h.length
  unfold Rtuart.encodedAt
  rw [List.all_eq_true]
  intro k hk
  rw [List.mem_range] at hk
  obtain ⟨heven, hodd⟩ := read_encoded h.read_replyBytes (k := k) (by omega)
  rw [heven, hodd, masked_and_mask, masked_and_mask]
  rfl

theorem ReplyAt.decodedUid (h : ReplyAt data q uid) : decodedUid data q = uid := by
  have hlen := length_replyBytes h.length
  have huid := h.length
  unfold Rtuart.decodedUid
  refine List.ext_getElem (by simp [huid]) fun i hi hi' => ?_
  rw [List.getElem_map, List.getElem_range, decode_encoded h.read_replyBytes (by omega)]
  exact List.getElem_append_left hi'

/-- The checksum received is the one over what was received. -/
theorem ReplyAt.checksum (h : ReplyAt data q uid) : data.sum16 q 12 =
    ((decodeByte data (q + 12)).toNat * 256 + (decodeByte data (q + 14)).toNat) % 2 ^ 16 := by
  have hlen := length_replyBytes h.length
  have hhigh := decode_encoded h.read_replyBytes (k := 6) (by omega)
  have hlow := decode_encoded h.read_replyBytes (k := 7) (by omega)
  simp only [replyBytes] at hhigh hlow
  rw [List.getElem_append_right (by have := h.length; omega)] at hhigh hlow
  simp only [h.length, beBytes_two, Nat.sub_self] at hhigh hlow
  -- the first twelve bytes encode the UID
  have hread := h.read
  rw [show 16 = 12 + 4 from rfl, Mem.read_add, replyBytes, List.flatMap_append] at hread
  obtain ⟨hsum, -⟩ := List.append_inj hread
    (by rw [Mem.length_read, length_flatMap_encodeByte, h.length])
  rw [hhigh, hlow, Mem.sum16, hsum]
  simp only [List.getElem_cons_zero, List.getElem_cons_succ, UInt8.toNat_ofNat']
  omega

/-- **A reply is accepted.** -/
theorem ReplyAt.accepts (h : ReplyAt data q uid) : Accepts data q := ⟨h.encodedAt, h.checksum⟩

/-- The response without its checksum. -/
def responseData (data : Mem) (uid : List UInt8) : Mem :=
  ((((data.write 3 (data.read 9 6)).write 9 uid).write 20 [0x11]).write 23 [0]).write 2 [24]

/-- The response of a device to the request in the frame. -/
def Frame.respond (f : Frame) (uid : List UInt8) : Frame :=
  { f with
    payloadSize := 25
    data := (responseData f.data uid).write 24
      (beBytes 2 ((responseData f.data uid).sum16 0 24)) }

/-- **What is made of the bytes behind the separator.** -/
theorem completeRdmDiscoveryReply_found {k : ℕ}
    (h : findPreamble (f.data.read 256 (f.payloadSize + 1)) = .found k) :
    f.completeRdmDiscoveryReply =
      if Accepts f.data (256 + k + 1) then some (f.respond (decodedUid f.data (256 + k + 1)))
      else none := by
  unfold Frame.completeRdmDiscoveryReply
  simp only [h]
  rfl

theorem completeRdmDiscoveryReply_eq (huid : uid.length = 6) (hsize : f.payloadSize = 23)
    (hwire : f.data.read 256 24 = wire uid) :
    f.completeRdmDiscoveryReply = some (f.respond uid) := by
  have hpos : findPreamble (f.data.read 256 (f.payloadSize + 1)) = .found 7 := by
    rw [hsize, hwire]
    exact findPreamble_found 7 _
  have hreply := replyAt_wire huid hwire
  rw [completeRdmDiscoveryReply_found hpos, if_pos hreply.accepts, hreply.decodedUid]

/-- What of a request the response keeps. -/
theorem responseData_outside (huid : uid.length = 6) {i : ℕ} (hi : i < 2 ∨ i = 21 ∨ i = 22) :
    responseData data uid i = data i := by
  unfold responseData
  rw [Mem.write_apply_outside, Mem.write_apply_outside, Mem.write_apply_outside,
    Mem.write_apply_outside, Mem.write_apply_outside]
  all_goals simp only [List.length_singleton, Mem.length_read, huid]
  all_goals omega

theorem responseData_source (huid : uid.length = 6) : (responseData data uid).read 9 6 = uid := by
  unfold responseData
  rw [Mem.read_write_outside (Or.inr (by simp)), Mem.read_write_outside (Or.inl (by omega)),
    Mem.read_write_outside (Or.inl (by omega)), Mem.read_write_of_length huid]

theorem responseData_destination : (responseData data uid).read 3 6 = data.read 9 6 := by
  unfold responseData
  rw [Mem.read_write_outside (Or.inr (by simp)), Mem.read_write_outside (Or.inl (by omega)),
    Mem.read_write_outside (Or.inl (by omega)), Mem.read_write_outside (Or.inl (by omega)),
    Mem.read_write_of_length Mem.length_read]

/-- **The response made is one** to the request. -/
theorem Frame.respond_isDiscoveryResponse (huid : uid.length = 6) (hrequest : isRdmDiscover f.data) :
    IsDiscoveryResponse (f.respond uid) uid (f.data.read rdmPosSrcUid 6) := by
  unfold Frame.respond
  simp only [isRdmDiscover, isDiscUniqueBranch, isRdm, Bool.and_eq_true, beq_iff_eq, rdmPosPid,
    rdmPosPdl, rdmPosCommandClass, rdmPosSubStartcode, dmxPosStartcode] at hrequest
  obtain ⟨⟨⟨⟨⟨hsc, hssc⟩, -⟩, hpid1⟩, hpid2⟩, -⟩ := hrequest
  generalize hcs : beBytes 2 ((responseData f.data uid).sum16 0 24) = cs
  have hcslen : cs.length = 2 := by
    rw [← hcs]
    exact length_beBytes _ _
  -- the checksum lies behind all of it
  have hlow : ∀ i, i < 24 → (responseData f.data uid).write 24 cs i = responseData f.data uid i :=
    fun i hi => Mem.write_apply_of_lt hi
  have hkeep : ∀ i, i < 2 ∨ i = 21 ∨ i = 22 →
      (responseData f.data uid).write 24 cs i = f.data i :=
    fun i hi => (hlow i (by omega)).trans (responseData_outside huid hi)
  refine ⟨?_, ?_, ?_, ?_, ?_, rfl, ?_⟩
  · simp only [isRdmDiscoverReply, isDiscUniqueBranch, isRdm, Bool.and_eq_true, beq_iff_eq,
      rdmPosPid, rdmPosPdl, rdmPosCommandClass, rdmPosSubStartcode, dmxPosStartcode]
    refine ⟨⟨⟨⟨⟨?_, ?_⟩, ?_⟩, ?_⟩, ?_⟩, ?_⟩
    · rw [hkeep 0 (by omega), hsc]
    · rw [hkeep 1 (by omega), hssc]
    · rw [hlow 20 (by omega)]
      rfl
    · rw [hkeep 21 (by omega), hpid1]
    · rw [hkeep (21 + 1) (by omega), hpid2]
    · rw [hlow 23 (by omega)]
      rfl
  · exact (Mem.read_write_outside (Or.inl (by decide))).trans (responseData_source huid)
  · exact (Mem.read_write_outside (Or.inl (by decide))).trans responseData_destination
  · exact hlow 23 (by omega)
  · exact hlow 2 (by omega)
  · simp only
    rw [Mem.read_write_of_length hcslen, ← hcs, beNat_beBytes_of_lt (Mem.sum16_lt _ _ _)]
    exact Mem.sum16_congr (Mem.read_congr fun i hi => (hcs ▸ (hlow (0 + i) (by omega)).symm))

/-! ## Receiving -/

variable {request got : Entry} {id : ℕ} {heard bs rest : List UInt8}

/-- **The port has heard some bytes** in answer to a request, in a frame
that starts as a copy of the request. -/
structure Hears (p : Port) (request : Entry) (id : ℕ) (heard : List UInt8) : Prop where
  state : p.state = if heard.length ≤ 7 then .rdmdiscRecvPreamble else .rdmdiscRecvData
  tx : p.tx.frame = some request
  rx : p.rx.frame = some ⟨id, { request.frame with data := request.frame.data.write 256 heard }⟩
  data : p.rx.data = some (256 + heard.length)
  count : p.rx.count = heard.length
  expected : 7 < heard.length → p.rx.expectedSlotsCount = 23

/-- The end of the transmission of a request starts it. -/
theorem Hears.start (hwait : p.state = .waitForTxComplete) (htx : p.tx.frame = some request)
    (hrdm : request.frame.flags.isRdm) (hdisc : request.frame.flags.isRdmDisc) :
    Hears (p.transmitterEmpty (some got)).1 request got.id [] := by
  have heq : (p.transmitterEmpty (some got)).1 = p.expectDiscoveryReply request got := by
    unfold Port.transmitterEmpty
    simp only [hwait, reduceCtorEq, if_false, ne_eq, not_true_eq_false, htx, hrdm, hdisc, if_true]
  rw [heq]
  refine ⟨rfl, htx, ?_, rfl, rfl, fun h => absurd h (by simp)⟩
  rw [Mem.write_nil]
  rfl

/-- What a chunk of the line shows: the separator is the eighth byte. -/
theorem findPreamble_chunk (h : wire uid = heard ++ (bs ++ rest)) (hk : heard.length ≤ 7) :
    findPreamble bs =
      if heard.length + bs.length ≤ 7 then .incomplete else .found (7 - heard.length) := by
  have hsplit : bs ++ rest = List.replicate (7 - heard.length) 0xFE ++
      0xAA :: (replyBytes uid).flatMap encodeByte := by
    have hdrop := congrArg (List.drop heard.length) h
    rw [List.drop_left, wire, List.drop_append_of_le_length (by simpa using hk),
      List.drop_replicate] at hdrop
    exact hdrop.symm
  rcases List.append_eq_append_iff.1 hsplit with ⟨more, hbs, -⟩ | ⟨more, hbs, hmore⟩
  · obtain ⟨hlen, hpre, -⟩ := List.append_eq_replicate_iff.1 hbs.symm
    rw [if_pos (by omega), hpre]
    exact findPreamble_incomplete _
  · cases more with
    | nil =>
      rw [List.append_nil] at hbs
      rw [if_pos (by rw [hbs, List.length_replicate]; omega), hbs]
      exact findPreamble_incomplete _
    | cons b more =>
      obtain ⟨rfl, -⟩ := List.cons.inj hmore
      have hlen := congrArg List.length hbs
      rw [List.length_append, List.length_replicate, List.length_cons] at hlen
      rw [if_neg (by omega), hbs]
      exact findPreamble_found _ _

/-- The next bytes are stored behind those heard. -/
theorem Hears.store (h : Hears p request id heard) :
    (p.storeRx (256 + heard.length) bs).rx.frame =
      some ⟨id, { request.frame with data := request.frame.data.write 256 (heard ++ bs) }⟩ := by
  unfold Port.storeRx
  rw [h.rx, Mem.write_append]
  rfl

theorem Hears.receiveDiscovery (h : Hears p request id heard)
    (hwire : wire uid = heard ++ (bs ++ rest)) (huid : uid.length = 6) (hbs : bs ≠ []) :
    ∃ q, Hears q request id (heard ++ bs) ∧
      p.receiveDiscovery bs.length bs =
        if (heard ++ bs).length ≤ 7 then (q, [.enableNotification .rxAvailable])
        else q.completeDiscovery := by
  have hpos : bs.length > 0 := List.length_pos_iff.2 hbs
  have hlen : heard.length + (bs.length + rest.length) = 24 := by
    rw [← length_wire huid, hwire, List.length_append, List.length_append]
  have hcount : (p.rx.count + bs.length) % 2 ^ 32 = (heard ++ bs).length := by
    rw [h.count, List.length_append]
    omega
  have hdata : p.rx.data.map (· + bs.length) = some (256 + (heard ++ bs).length) := by
    rw [h.data, List.length_append, Option.map_some, Nat.add_assoc]
  unfold Port.receiveDiscovery
  simp only [h.data, readChars_self (show bs.length < 2 ^ 64 by omega), if_pos hpos]
  by_cases hpre : heard.length ≤ 7
  · have hstate : (p.storeRx (256 + heard.length) bs).state = .rdmdiscRecvPreamble := by
      refine h.state.trans ?_
      rw [if_pos hpre]
    rw [if_pos hstate, findPreamble_chunk hwire hpre]
    by_cases hmore : heard.length + bs.length ≤ 7
    · refine ⟨(p.storeRx (256 + heard.length) bs).advanceRx bs.length, ?_, ?_⟩
      · refine ⟨?_, h.tx, h.store, hdata, hcount, fun h7 => ?_⟩
        · rw [List.length_append, if_pos hmore]
          exact hstate
        · rw [List.length_append] at h7
          omega
      · rw [if_pos hmore, List.length_append, if_pos hmore]
    · -- the separator is in this chunk
      simp only [if_neg hmore, List.length_append]
      let q := p.storeRx (256 + heard.length) bs
      let expected := (q.rx.count + (7 - heard.length) + 16) % 2 ^ 16
      refine ⟨({ q with
        state := .rdmdiscRecvData
        rx := { q.rx with expectedSlotsCount := expected } } : Port).advanceRx bs.length,
        ⟨?_, h.tx, h.store, hdata, hcount, fun _ => ?_⟩, rfl⟩
      · rw [List.length_append, if_neg hmore]
        rfl
      · change (p.rx.count + (7 - heard.length) + 16) % 2 ^ 16 = 23
        rw [h.count]
        omega
  · have hstate : ¬ (p.storeRx (256 + heard.length) bs).state = .rdmdiscRecvPreamble := by
      change ¬ p.state = _
      rw [h.state, if_neg hpre]
      exact fun hs => PortState.noConfusion hs
    have hdone : ¬ (heard ++ bs).length ≤ 7 := by
      rw [List.length_append]
      omega
    refine ⟨(p.storeRx (256 + heard.length) bs).advanceRx bs.length, ?_, ?_⟩
    · refine ⟨?_, h.tx, h.store, hdata, hcount, fun _ => h.expected (by omega)⟩
      rw [if_neg hdone]
      refine h.state.trans ?_
      rw [if_neg hpre]
    · rw [if_neg hstate, if_neg hdone]

/-- **A chunk**: the bytes heard are those before and the chunk, and the
reply is complete or more is awaited. -/
theorem Hears.chunk (h : Hears p request id heard) (hwire : wire uid = heard ++ (bs ++ rest))
    (huid : uid.length = 6) (hbs : bs ≠ []) :
    ∃ q, Hears q request id (heard ++ bs) ∧
      p.receiverDataAvailable (some bs.length) bs =
        if (heard ++ bs).length ≤ 7 then (q, [.enableNotification .rxAvailable])
        else q.completeDiscovery := by
  have hstate := h.state
  unfold Port.receiverDataAvailable
  simp only [Option.getD_some, h.rx]
  split at hstate
  · have htimer : Hears { p with state := .rdmdiscRecvPreamble, rdmTimer := some 5000 } request id
        heard := ⟨hstate ▸ h.state, h.tx, h.rx, h.data, h.count, h.expected⟩
    have hnotx : ¬ p.state.isTx := by
      rw [hstate]
      decide
    rw [if_neg hnotx]
    simp only [hstate]
    exact htimer.receiveDiscovery hwire huid hbs
  · have hnotx : ¬ p.state.isTx := by
      rw [hstate]
      decide
    rw [if_neg hnotx]
    simp only [hstate]
    exact h.receiveDiscovery hwire huid hbs

/-- While bytes are missing nothing is done. -/
theorem Hears.completeDiscovery_more (h : Hears p request id heard) (hlow : 7 < heard.length)
    (hmore : heard.length < 24) :
    p.completeDiscovery = (p, [.enableNotification .rxAvailable]) := by
  have hcount : ¬ p.rx.count ≥ p.rx.expectedSlotsCount + 1 := by
    rw [h.count, h.expected hlow]
    omega
  unfold Port.completeDiscovery
  rw [if_neg hcount]

theorem isRdmDiscover_congr {data' : Mem} (h : ∀ i, i < 24 → data' i = data i) :
    isRdmDiscover data' = isRdmDiscover data := by
  simp only [isRdmDiscover, isDiscUniqueBranch, isRdm, dmxPosStartcode, rdmPosSubStartcode,
    rdmPosCommandClass, rdmPosPid, rdmPosPdl]
  rw [h 0 (by omega), h 1 (by omega), h 20 (by omega), h 21 (by omega), h (21 + 1) (by omega),
    h 23 (by omega)]

/-- **The last byte**: the response is handed up, the request given back,
and the port is idle. -/
theorem Hears.completeDiscovery_done (h : Hears p request id (wire uid)) (huid : uid.length = 6)
    (hrequest : isRdmDiscover request.frame.data) :
    ∃ f, IsDiscoveryResponse f uid (request.frame.data.read rdmPosSrcUid 6) ∧
      p.completeDiscovery.1.view = ⟨.idle, none, none⟩ ∧
      p.completeDiscovery.2 = [.putFrame request, .receivedFrame ⟨id, f⟩] := by
  have hlen := length_wire huid
  have hcount : p.rx.count = 24 := h.count.trans hlen
  have hdone : p.rx.count ≥ p.rx.expectedSlotsCount + 1 := by
    rw [hcount, h.expected (by omega)]
  -- the frame in the slot, with the size of what was received
  set fr : Frame := { request.frame with
    data := request.frame.data.write 256 (wire uid), payloadSize := 23 } with hfr
  have hwire : fr.data.read 256 24 = wire uid := Mem.read_write_of_length hlen
  have hlow : ∀ i, i < 256 → fr.data i = request.frame.data i :=
    fun i hi => Mem.write_apply_of_lt hi
  have hdiscover : isRdmDiscover fr.data := by
    rw [isRdmDiscover_congr fun i hi => hlow i (by omega)]
    exact hrequest
  have hsource : fr.data.read rdmPosSrcUid 6 = request.frame.data.read rdmPosSrcUid 6 :=
    Mem.read_congr fun i hi => hlow _ (by simp only [rdmPosSrcUid]; omega)
  have hcomplete := completeRdmDiscoveryReply_eq huid (f := fr) rfl hwire
  have hresponse := Frame.respond_isDiscoveryResponse huid hdiscover
  rw [hsource] at hresponse
  refine ⟨fr.respond uid, hresponse, ?_⟩
  have hrx : ({ p with rdmTimer := none } : Port).checkoutRxFrame.2 = some ⟨id, fr⟩ := by
    unfold Port.checkoutRxFrame
    simp only [h.rx, hcount]
    rfl
  have hview := Port.checkoutTxFrame_view
    (p := ({ p with rdmTimer := none } : Port).checkoutRxFrame.1)
  rw [Port.checkoutRxFrame_view] at hview
  unfold Port.view at hview ⊢
  simp only [View.mk.injEq] at hview
  unfold Port.completeDiscovery
  rw [if_pos hdone]
  simp only [hrx, Option.map_some, hcomplete, hview.2.1, hview.2.2, Port.checkoutTxFrame_snd,
    Port.checkoutRxFrame_tx, h.tx, true_and]
  rfl

/-- **All chunks of the reply**, from what has been heard. -/
theorem Hears.allChunks {chunks : List (List UInt8)} (h : Hears p request id heard)
    (huid : uid.length = 6) (hrequest : isRdmDiscover request.frame.data)
    (hwire : wire uid = heard ++ chunks.flatten) (hmore : heard.length < 24)
    (hchunks : ∀ c ∈ chunks, c ≠ []) :
    ∃ f, IsDiscoveryResponse f uid (request.frame.data.read rdmPosSrcUid 6) ∧
      (p.handleAll (arrivals chunks)).1.view = ⟨.idle, none, none⟩ ∧
      delivered (p.handleAll (arrivals chunks)).2 = [⟨id, f⟩] := by
  induction chunks generalizing p heard with
  | nil =>
    -- bytes are missing, so there is a chunk
    have hlen := congrArg List.length hwire
    rw [length_wire huid, List.flatten_nil, List.append_nil] at hlen
    omega
  | cons c chunks ih =>
    have hc : c ≠ [] := hchunks c (List.mem_cons_self ..)
    have hrest : ∀ c' ∈ chunks, c' ≠ [] := fun c' hc' => hchunks c' (List.mem_cons_of_mem _ hc')
    rw [List.flatten_cons] at hwire
    obtain ⟨q, hq, hstep⟩ := h.chunk hwire huid hc
    have hwire' : wire uid = (heard ++ c) ++ chunks.flatten := by rw [hwire, List.append_assoc]
    have hlen := congrArg List.length hwire'
    rw [length_wire huid, List.length_append] at hlen
    have hhandle : p.handleAll (arrivals (c :: chunks)) =
        (((p.receiverDataAvailable (some c.length) c).1.handleAll (arrivals chunks)).1,
          (p.receiverDataAvailable (some c.length) c).2 ++
            ((p.receiverDataAvailable (some c.length) c).1.handleAll (arrivals chunks)).2) := rfl
    rw [hhandle, hstep]
    simp only [delivered_append]
    by_cases hlast : (heard ++ c).length < 24
    · have hnothing : (if (heard ++ c).length ≤ 7 then (q, [.enableNotification .rxAvailable])
          else q.completeDiscovery) = (q, [.enableNotification .rxAvailable]) := by
        split
        · rfl
        · exact hq.completeDiscovery_more (by omega) hlast
      rw [hnothing]
      exact ih hq hwire' hlast hrest
    · -- the last chunk: there is nothing behind it
      have hnil : chunks = [] := by
        have hflat : chunks.flatten = [] := List.length_eq_zero_iff.1 (by omega)
        rw [List.flatten_eq_nil_iff] at hflat
        exact List.eq_nil_iff_forall_not_mem.2 fun c' hc' => hrest c' hc' (hflat c' hc')
      subst hnil
      rw [List.flatten_nil, List.append_nil] at hwire'
      rw [← hwire'] at hq
      obtain ⟨f, hf, hview, hacts⟩ := hq.completeDiscovery_done huid hrequest
      rw [if_neg (by omega)]
      refine ⟨f, hf, hview, ?_⟩
      rw [hacts]
      rfl

/-! ## The round trip -/

/-- **The round trip of a discovery reply.** A responder sends a discovery
response, in as many pieces as the space in its UART makes it; a port that
has just sent a discovery request receives what was written, in chunks of
any sizes. Then it hands up exactly one frame: the response, from the
responder and to the requester, and is idle with both slots empty. -/
theorem discoveryReply_roundTrip {responder requester : Port} {response request got : Entry}
    {spaces : List ℤ} {chunks : List (List UInt8)}
    (hresponder : responder.tx.frame = none)
    (hresponse : isRdmDiscoverReply response.frame.data)
    (hspaces : ∀ n ∈ spaces, IsInt n)
    (hsent : (responder.handleAll
      (.sendFrame response :: spaces.map .transmitterHasSpace)).1.pending = [])
    (hwait : requester.state = .waitForTxComplete)
    (hslot : requester.tx.frame = some request)
    (hrdm : request.frame.flags.isRdm) (hdisc : request.frame.flags.isRdmDisc)
    (hrequest : isRdmDiscover request.frame.data)
    (hchunks : ∀ c ∈ chunks, c ≠ [])
    (hline : chunks.flatten = written (responder.handleAll
      (.sendFrame response :: spaces.map .transmitterHasSpace)).2) :
    let asking := (requester.transmitterEmpty (some got)).1
    let answered := asking.handleAll (arrivals chunks)
    asking.state = .rdmdiscRecvPreamble ∧
      (∃ e, delivered answered.2 = [e] ∧
        IsDiscoveryResponse e.frame (response.frame.data.read rdmPosSrcUid 6)
          (request.frame.data.read rdmPosSrcUid 6)) ∧
      answered.1.state = .idle ∧ answered.1.rx.frame = none ∧ answered.1.tx.frame = none := by
  intro asking answered
  set uid := response.frame.data.read rdmPosSrcUid 6 with huid
  have hlen : uid.length = 6 := Mem.length_read
  obtain ⟨hpending, hquiet⟩ := sendFrame_pending hresponder hresponse
  -- what the responder writes is the reply
  have hwire : chunks.flatten = wire uid := by
    have hrun := transmit_written (p := (responder.sendFrame response).1) hspaces hsent
    rw [hline, ← hpending, ← hrun]
    refine (written_append _ _).trans ?_
    rw [show written (responder.handle (.sendFrame response)).2 = [] from hquiet]
    rfl
  have hstart : Hears asking request got.id [] := Hears.start hwait hslot hrdm hdisc
  obtain ⟨f, hf, hview, hdelivered⟩ := hstart.allChunks hlen hrequest hwire.symm (by simp) hchunks
  refine ⟨hstart.state, ⟨_, hdelivered, hf⟩, congrArg View.state hview, ?_, ?_⟩
  · exact Option.map_eq_none_iff.1 (congrArg View.rx hview)
  · exact Option.map_eq_none_iff.1 (congrArg View.tx hview)

/-- The packet of a discovery request, or of a response, without data. -/
def discoveryPacket (cc pdl : UInt8) (source : List UInt8) : Mem :=
  ((Mem.write (fun _ => 0) 0 [0xCC, 0x01]).write 9 source).write 20 [cc, 0, 1, pdl]

/-- A response of the device `01 02 03 04 05 06`. -/
def someResponse : Entry :=
  ⟨1, 0, ⟨false, false, false, 0⟩, 0, 25, discoveryPacket 0x11 0 [1, 2, 3, 4, 5, 6]⟩

/-- A request of the controller `07 07 07 07 07 07` that has been sent. -/
def someRequest : Entry :=
  ⟨2, 0, ⟨false, true, true, 0⟩, 0, 37, discoveryPacket 0x10 12 [7, 7, 7, 7, 7, 7]⟩

def someRequester : Port :=
  { Port.create with state := .waitForTxComplete, tx := ⟨some someRequest, some 38, 0⟩ }

/-- What is on the line, in two chunks. -/
def someChunks : List (List UInt8) :=
  let line := written (Port.create.handleAll
    (.sendFrame someResponse :: [-1, -1].map .transmitterHasSpace)).2
  [line.take 5, line.drop 5]

theorem discoveryReply_roundTrip_example :
    ∃ e, delivered ((someRequester.transmitterEmpty (some someResponse)).1.handleAll
        (arrivals someChunks)).2 = [e] ∧
      IsDiscoveryResponse e.frame [1, 2, 3, 4, 5, 6] [7, 7, 7, 7, 7, 7] :=
  (@discoveryReply_roundTrip Port.create someRequester someResponse someRequest someResponse
    [-1, -1] someChunks rfl (by decide) (by simp [IsInt]) rfl rfl rfl rfl rfl (by decide)
    (by decide) (by simp [someChunks])).2.1

end Rtuart

end Dmx4Linux2
