import Dmx4Linux2.Rtuart.Codec
import Dmx4Linux2.Rtuart.DiscoveryBound
import Dmx4Linux2.Rtuart.Replies

/-!
# rtuart DMX client — what a discovery comes to

Whatever bytes follow a discovery request, the client hands up one frame
when the timer has expired: no reply if there were none, the response of
a UID if its reply was heard behind the preamble, and a collision in every
other case. `discovery_reports` says so for all chunkings. The invariant is
what the port holds of the bytes so far (`Awaits`), with the states of
`Listens`.
-/

namespace Dmx4Linux2

namespace Rtuart

variable {p : Port} {bs heard rest uid source : List UInt8} {i : ℕ}

/-! ## Replies that are heard -/

/-- **The reply of a UID is heard**: behind a preamble and its separator. -/
def Heard (bs uid : List UInt8) : Prop :=
  uid.length = 6 ∧ ∃ i rest,
    bs = List.replicate i 0xFE ++ 0xAA :: ((replyBytes uid).flatMap encodeByte ++ rest)

/-- **How a discovery is reported** by the source of the answer: 0 if no
bytes came, else the UID that was heard, or all ones for a collision. -/
structure Reports (bs : List UInt8) (heard : List UInt8 → Prop) (source : List UInt8) : Prop where
  nothing : bs = [] → source = List.replicate 6 0
  reply : ∀ uid, heard uid → source = uid
  collision : bs ≠ [] → (∀ uid, ¬ heard uid) → source = List.replicate 6 0xFF

theorem heard_separator : Heard (List.replicate i 0xFE ++ 0xAA :: rest) uid ↔
    uid.length = 6 ∧ (replyBytes uid).flatMap encodeByte <+: rest := by
  constructor
  · rintro ⟨huid, j, rest', heq⟩
    obtain ⟨rfl, -⟩ := preamble_unique heq (by decide) (by decide)
    exact ⟨huid, rest', (List.cons.inj (List.append_cancel_left heq)).2.symm⟩
  · rintro ⟨huid, rest', rfl⟩
    exact ⟨huid, i, rest', rfl⟩

theorem not_heard_preamble : ¬ Heard (List.replicate i 0xFE) uid := by
  rintro ⟨-, j, rest', heq⟩
  have hmem : (0xAA : UInt8) ∈ List.replicate i 0xFE := by rw [heq]; simp
  exact absurd (List.eq_of_mem_replicate hmem) (by decide)

theorem not_heard_noise {b : UInt8} (hpre : b ≠ 0xFE) (hsep : b ≠ 0xAA) :
    ¬ Heard (List.replicate i 0xFE ++ b :: rest) uid := by
  rintro ⟨-, j, rest', heq⟩
  exact hsep (preamble_unique heq hpre (by decide)).2

theorem not_heard_short (h : rest.length < 16) :
    ¬ Heard (List.replicate i 0xFE ++ 0xAA :: rest) uid := by
  rw [heard_separator]
  rintro ⟨huid, hleading⟩
  have hlen := hleading.length_le
  rw [length_flatMap_encodeByte, length_replyBytes huid] at hlen
  omega

theorem not_heard_nil : ¬ Heard [] uid := not_heard_preamble (i := 0)

/-- **What comes behind the end of a reply is not heard.** -/
theorem ReplyEnded.heard_append (h : ReplyEnded heard) (bs : List UInt8) :
    Heard (heard ++ bs) uid ↔ Heard heard uid := by
  obtain ⟨i, b, rest, rfl, hne, hend⟩ := h
  rw [List.append_assoc, List.cons_append]
  by_cases hsep : b = 0xAA
  · have hlen : 16 ≤ rest.length := by
      have hlong := hend.resolve_left (not_not.2 hsep)
      rw [List.length_append, List.length_replicate, List.length_cons] at hlong
      omega
    rw [hsep, heard_separator, heard_separator]
    refine and_congr_right fun huid => ⟨fun hleading => ?_, fun hleading => ?_⟩
    · refine List.prefix_of_prefix_length_le hleading (List.prefix_append _ _) ?_
      rw [length_flatMap_encodeByte, length_replyBytes huid]
      exact hlen
    · exact hleading.trans (List.prefix_append _ _)
  · exact iff_of_false (not_heard_noise hne hsep) (not_heard_noise hne hsep)

theorem Reports.append (h : Reports heard (Heard heard) source) (hend : ReplyEnded heard)
    (bs : List UInt8) : Reports (heard ++ bs) (Heard (heard ++ bs)) source := by
  have hne : heard ≠ [] := by
    rintro rfl
    exact not_replyEnded_preamble 0 hend
  refine ⟨fun hnil => absurd (List.append_eq_nil_iff.1 hnil).1 hne, ?_, ?_⟩
  · exact fun uid huid => h.reply uid ((hend.heard_append bs).1 huid)
  · exact fun _ hnone => h.collision hne fun uid huid => hnone uid ((hend.heard_append bs).2 huid)

/-- **The bytes behind the separator are accepted just when a reply is
heard.** -/
theorem heard_iff_replyAt {data : Mem} {d : ℕ} (hlen : 16 ≤ rest.length)
    (h : data.read d (List.replicate i (0xFE : UInt8) ++ 0xAA :: rest).length =
      List.replicate i 0xFE ++ 0xAA :: rest) :
    Heard (List.replicate i 0xFE ++ 0xAA :: rest) uid ↔ ReplyAt data (d + i + 1) uid := by
  have hread : data.read (d + i + 1) 16 = rest.take 16 := read_behind_separator hlen h
  have hcode : uid.length = 6 → ((replyBytes uid).flatMap encodeByte).length = 16 := by
    intro huid
    rw [length_flatMap_encodeByte, length_replyBytes huid]
  rw [heard_separator]
  constructor
  · rintro ⟨huid, hleading⟩
    refine ⟨huid, ?_⟩
    rw [hread, List.prefix_iff_eq_take.1 hleading, hcode huid]
  · intro hreply
    refine ⟨hreply.length, ?_⟩
    rw [← hreply.read, hread]
    exact List.take_prefix _ _

/-- A reply that is accepted is reported. -/
theorem reports_accepted {data : Mem} {q : ℕ} (hne : bs ≠ [])
    (hreply : ∀ uid, Heard heard uid ↔ ReplyAt data q uid) (haccepts : Accepts data q) :
    Reports bs (Heard heard) (decodedUid data q) := by
  refine ⟨fun hnil => absurd hnil hne, ?_, ?_⟩
  · exact fun uid huid => ((hreply uid).1 huid).decodedUid
  · exact fun _ hnone => absurd ((hreply _).2 haccepts.replyAt) (hnone _)

/-- Anything else is reported as a collision. -/
theorem reports_refused (hne : bs ≠ []) (hnone : ∀ uid, ¬ Heard heard uid) :
    Reports bs (Heard heard) (List.replicate 6 0xFF) :=
  ⟨fun hnil => absurd hnil hne, fun uid huid => absurd huid (hnone uid), fun _ _ => rfl⟩

/-- What a collision is reported with. -/
theorem Entry.collision_source (request : Entry) :
    (request.modify Frame.rdmDiscoveryReplyCollision).frame.data.read rdmPosSrcUid 6 =
      List.replicate 6 0xFF := request.frame.rdmDiscoveryReply_source 0xFF

/-! ## Ports that await a reply -/

variable {request : Entry} {id : ℕ}

namespace Port

/-- **A port that awaits the reply to a request**: the bytes heard lie
behind a copy of it. -/
structure Awaits (p : Port) (request : Entry) (id : ℕ) (heard : List UInt8) : Prop where
  tx : p.tx.frame = some request
  rx : p.rx.frame = some ⟨id, { request.frame with data := request.frame.data.write 256 heard }⟩
  listens : p.Listens (some heard)

/-- **A discovery has ended** and was reported. -/
structure Reported (r : Port × List Action) (heard : List UInt8) : Prop where
  tx : r.1.tx.frame = none
  rx : r.1.rx.frame = none
  ended : ReplyEnded heard
  delivered : ∃ x, delivered r.2 = [x] ∧ Reports heard (Heard heard) (x.frame.data.read rdmPosSrcUid 6)

/-- What bytes lead to: more are awaited, or the discovery has ended. -/
def Continues (r : Port × List Action) (request : Entry) (id : ℕ) (heard : List UInt8) : Prop :=
  (r.1.Awaits request id heard ∧ Rtuart.delivered r.2 = []) ∨ Reported r heard

/-- The frame received, with the size it is checked out with. -/
theorem checkoutRxFrame_heard (hcount : p.rx.count = heard.length) (hpos : 0 < heard.length)
    (hfits : heard.length ≤ 257) {e : Entry} (hrx : p.rx.frame = some e) :
    p.checkoutRxFrame.2 = some ⟨e.id, { e.frame with payloadSize := heard.length - 1 }⟩ := by
  have hsize : (heard.length + 2 ^ 32 - 1) % 2 ^ 16 = heard.length - 1 := by omega
  unfold checkoutRxFrame
  simp only [hrx, hcount, hsize]

/-- **The last bytes of a reply.** -/
theorem completeDiscovery_reported (hholds : p.Holds (List.replicate i 0xFE ++ 0xAA :: rest))
    (htx : p.tx.frame = some request)
    (hrx : p.rx.frame = some ⟨id, { request.frame with
      data := request.frame.data.write 256 (List.replicate i 0xFE ++ 0xAA :: rest) }⟩)
    (hexpected : p.rx.expectedSlotsCount = i + 16) (hlen : 16 ≤ rest.length) :
    Reported p.completeDiscovery (List.replicate i 0xFE ++ 0xAA :: rest) := by
  set heard := List.replicate i (0xFE : UInt8) ++ 0xAA :: rest with hheard
  have hlength : heard.length = i + (rest.length + 1) := by
    rw [hheard, List.length_append, List.length_replicate, List.length_cons]
  have hdone : p.rx.count ≥ p.rx.expectedSlotsCount + 1 := by
    rw [hholds.count, hexpected]
    omega
  have hended : ReplyEnded heard := ⟨i, 0xAA, rest, hheard, by decide, .inr (by omega)⟩
  -- the frame as it is completed, with the bytes in it
  set fr : Frame := { request.frame with
    data := request.frame.data.write 256 heard, payloadSize := heard.length - 1 } with hfr
  have hread : fr.data.read 256 heard.length = heard := Mem.read_write
  have hfound : findPreamble (fr.data.read 256 (fr.payloadSize + 1)) = .found i := by
    rw [show fr.payloadSize + 1 = heard.length from Nat.sub_add_cancel (by omega), hread, hheard]
    exact findPreamble_found i rest
  have hout : ({ p with rdmTimer := none } : Port).checkoutRxFrame.2 = some ⟨id, fr⟩ :=
    checkoutRxFrame_heard (p := { p with rdmTimer := none }) hholds.count (by omega) hholds.fits hrx
  have hslot : ({ p with rdmTimer := none } : Port).checkoutRxFrame.1.checkoutTxFrame.2 =
      some request := by
    rw [checkoutTxFrame_snd, checkoutRxFrame_tx]
    exact htx
  have hne : heard ≠ [] := by
    intro hnil
    rw [hnil] at hlength
    simp at hlength
  have hreply : ∀ uid, Heard heard uid ↔ ReplyAt fr.data (256 + i + 1) uid :=
    fun uid => heard_iff_replyAt hlen hread
  unfold completeDiscovery
  rw [if_pos hdone]
  dsimp only
  rw [hout, hslot, Option.map_some, completeRdmDiscoveryReply_found hfound]
  by_cases haccepts : Accepts fr.data (256 + i + 1)
  · rw [if_pos haccepts]
    refine ⟨checkoutTxFrame_frame, checkoutFrames_rx, hended, _, rfl, ?_⟩
    dsimp only
    rw [Frame.respond_source haccepts.replyAt.length]
    exact reports_accepted hne hreply haccepts
  · rw [if_neg haccepts]
    refine ⟨checkoutTxFrame_frame, checkoutFrames_rx, hended, request.modify
      Frame.rdmDiscoveryReplyCollision, rfl, ?_⟩
    rw [request.collision_source]
    exact reports_refused hne fun uid huid => haccepts ((hreply uid).1 huid).accepts

/-- Bytes behind the separator. -/
theorem completeDiscovery_continues (hholds : p.Holds (List.replicate i 0xFE ++ 0xAA :: rest))
    (hstate : p.state = .rdmdiscRecvData) (htx : p.tx.frame = some request)
    (hrx : p.rx.frame = some ⟨id, { request.frame with
      data := request.frame.data.write 256 (List.replicate i 0xFE ++ 0xAA :: rest) }⟩)
    (hexpected : p.rx.expectedSlotsCount = i + 16) :
    Continues p.completeDiscovery request id (List.replicate i 0xFE ++ 0xAA :: rest) := by
  by_cases hrest : rest.length < 16
  · have hmore : p.completeDiscovery = (p, [.enableNotification .rxAvailable]) := by
      have hcount := hholds.count
      rw [List.length_append, List.length_replicate, List.length_cons] at hcount
      unfold completeDiscovery
      rw [if_neg (by omega)]
    rw [hmore]
    have hsome : p.tx.frame.isSome = true := by rw [htx]; rfl
    exact .inl ⟨⟨htx, hrx, .data hsome hstate hholds hexpected hrest⟩, rfl⟩
  · exact .inr (completeDiscovery_reported hholds htx hrx hexpected (by omega))

/-- The bytes are stored behind those heard. -/
theorem Awaits.store (h : p.Awaits request id heard) (bs : List UInt8) :
    (p.storeRx (256 + heard.length) bs).rx.frame = some ⟨id, { request.frame with
      data := request.frame.data.write 256 (heard ++ bs) }⟩ := by
  unfold storeRx
  rw [h.rx, Mem.write_append]
  rfl

theorem Awaits.preamble (h : p.Awaits request id (List.replicate i 0xFE))
    (hstate : p.state = .rdmdiscRecvPreamble) (hholds : p.Holds (List.replicate i 0xFE))
    (hfits : i + bs.length ≤ 257) :
    Continues (p.receiveDiscovery bs.length bs) request id (List.replicate i 0xFE ++ bs) := by
  have hlen : (List.replicate i (0xFE : UInt8)).length = i := List.length_replicate
  have hnext := hholds.receive (show (List.replicate i (0xFE : UInt8)).length + bs.length ≤ 257 by omega)
  have hstore := h.store bs
  have hsome : p.tx.frame.isSome = true := by rw [h.tx]; rfl
  unfold receiveDiscovery
  rw [hholds.data]
  dsimp only
  rw [readChars_self (show bs.length < 2 ^ 64 by omega)]
  by_cases hpos : bs.length > 0
  · rw [if_pos hpos, if_pos (show (p.storeRx _ bs).state = _ from hstate)]
    have hspec := findPreamble_spec bs
    generalize findPreamble bs = r at hspec
    cases hspec with
    | @found j rest hbs =>
      have hall : List.replicate i 0xFE ++ bs = List.replicate (i + j) 0xFE ++ 0xAA :: rest := by
        rw [hbs, ← List.append_assoc, List.replicate_append_replicate]
      have hj : j < bs.length := by
        rw [hbs, List.length_append, List.length_replicate, List.length_cons]
        omega
      rw [hall] at hnext hstore ⊢
      refine completeDiscovery_continues ⟨hnext.frame, hnext.data, hnext.count, hnext.fits⟩ rfl h.tx
        hstore ?_
      show (p.rx.count + j + 16) % 2 ^ 16 = i + j + 16
      rw [hholds.count, hlen]
      omega
    | @incomplete j hbs =>
      have hall : List.replicate i 0xFE ++ bs = List.replicate (i + j) 0xFE := by
        rw [hbs, List.replicate_append_replicate]
      rw [hall] at hnext hstore ⊢
      exact .inl ⟨⟨h.tx, hstore, .preamble hsome hstate hnext⟩, rfl⟩
    | @collision j b rest hbs hpre hsep =>
      have hall : List.replicate i 0xFE ++ bs = List.replicate (i + j) 0xFE ++ b :: rest := by
        rw [hbs, ← List.append_assoc, List.replicate_append_replicate]
      rw [hall]
      refine .inr ⟨checkoutTxFrame_frame, answerRequest_rx _, ⟨i + j, b, rest, rfl, hpre, .inl hsep⟩,
        request.modify Frame.rdmDiscoveryReplyCollision, ?_, ?_⟩
      · rw [delivered_append, delivered_answerRequest]
        show (p.tx.frame.map _).toList ++ [] = _
        rw [h.tx]
        rfl
      · rw [request.collision_source]
        exact reports_refused (by simp) fun uid => not_heard_noise hpre hsep
  · have hnil : bs = [] := List.length_eq_zero_iff.1 (Nat.eq_zero_of_not_pos hpos)
    rw [if_neg hpos, hnil, List.append_nil]
    exact .inl ⟨h, rfl⟩

theorem Awaits.behind (h : p.Awaits request id (List.replicate i 0xFE ++ 0xAA :: rest))
    (hstate : p.state = .rdmdiscRecvData)
    (hholds : p.Holds (List.replicate i 0xFE ++ 0xAA :: rest))
    (hexpected : p.rx.expectedSlotsCount = i + 16)
    (hfits : (List.replicate i (0xFE : UInt8) ++ 0xAA :: rest).length + bs.length ≤ 257) :
    Continues (p.receiveDiscovery bs.length bs) request id
      (List.replicate i 0xFE ++ 0xAA :: rest ++ bs) := by
  have hnext := hholds.receive hfits
  have hstore := h.store bs
  unfold receiveDiscovery
  rw [hholds.data]
  dsimp only
  rw [readChars_self (show bs.length < 2 ^ 64 by omega)]
  by_cases hpos : bs.length > 0
  · have hnot : ¬ (p.storeRx (256 + (List.replicate i (0xFE : UInt8) ++ 0xAA :: rest).length)
        bs).state = .rdmdiscRecvPreamble := by
      show ¬ p.state = _
      rw [hstate]
      decide
    rw [if_pos hpos, if_neg hnot]
    rw [List.append_assoc, List.cons_append] at hnext hstore ⊢
    exact completeDiscovery_continues hnext hstate h.tx hstore hexpected
  · have hnil : bs = [] := List.length_eq_zero_iff.1 (Nat.eq_zero_of_not_pos hpos)
    rw [if_neg hpos, hnil, List.append_nil]
    exact .inl ⟨h, rfl⟩

/-- **A chunk**: more is awaited, or the discovery has ended. -/
theorem Awaits.chunk (h : p.Awaits request id heard) (hfits : heard.length + bs.length ≤ 257) :
    Continues (p.receiverDataAvailable (some bs.length) bs) request id (heard ++ bs) := by
  unfold receiverDataAvailable
  rw [Option.getD_some]
  obtain ⟨htx, hrx, hlistens⟩ := h
  cases hlistens with
  | @preamble i hsome hstate hholds =>
    have htimer : ({ p with rdmTimer := some 5000 } : Port).Awaits request id
        (List.replicate i 0xFE) :=
      ⟨htx, hrx, .preamble hsome hstate ⟨hholds.frame, hholds.data, hholds.count, hholds.fits⟩⟩
    rw [List.length_replicate] at hfits
    rw [if_neg (by rw [hstate]; decide)]
    simp only [hrx, hstate]
    rw [← hstate]
    exact htimer.preamble hstate ⟨hholds.frame, hholds.data, hholds.count, hholds.fits⟩ hfits
  | @data i rest hsome hstate hholds hexpected hrest =>
    have hsame : p.Awaits request id (List.replicate i 0xFE ++ 0xAA :: rest) :=
      ⟨htx, hrx, .data hsome hstate hholds hexpected hrest⟩
    rw [if_neg (by rw [hstate]; decide)]
    simp only [hrx, hstate]
    exact hsame.behind hstate hholds hexpected hfits
  | ended hframe hend =>
    rw [hframe] at hrx
    contradiction

/-- Bytes behind the end of a discovery are dropped. -/
theorem gone_arrivals (htx : p.tx.frame = none) (hrx : p.rx.frame = none)
    (chunks : List (List UInt8)) : (p.handleAll (arrivals chunks)).1.tx.frame = none ∧
      (p.handleAll (arrivals chunks)).1.rx.frame = none ∧
      delivered (p.handleAll (arrivals chunks)).2 = [] := by
  induction chunks generalizing p with
  | nil => exact ⟨htx, hrx, rfl⟩
  | cons c chunks ih =>
    have hdrop : (p.receiverDataAvailable (some c.length) c).1.tx.frame = none ∧
        (p.receiverDataAvailable (some c.length) c).1.rx.frame = none ∧
        delivered (p.receiverDataAvailable (some c.length) c).2 = [] := by
      unfold receiverDataAvailable
      simp only [hrx]
      split
      · exact ⟨htx, hrx, rfl⟩
      · exact ⟨htx, hrx, rfl⟩
    obtain ⟨htx', hrx', hquiet⟩ := ih hdrop.1 hdrop.2.1
    refine ⟨htx', hrx', delivered_append.trans ?_⟩
    rw [show delivered (p.handle (.receiverDataAvailable (some c.length) c)).2 = [] from hdrop.2.2]
    exact hquiet

/-- **All chunks**, from what has been heard. -/
theorem Awaits.arrivals {chunks : List (List UInt8)} (h : p.Awaits request id heard)
    (hfits : heard.length + chunks.flatten.length ≤ 257) :
    Continues (p.handleAll (arrivals chunks)) request id (heard ++ chunks.flatten) := by
  induction chunks generalizing p heard with
  | nil =>
    rw [List.flatten_nil, List.append_nil]
    exact .inl ⟨h, rfl⟩
  | cons c chunks ih =>
    rw [List.flatten_cons, List.length_append] at hfits
    rw [List.flatten_cons, ← List.append_assoc]
    have hsplit : ∀ acts, delivered (p.receiverDataAvailable (some c.length) c).2 = acts →
        delivered (p.handleAll (Rtuart.arrivals (c :: chunks))).2 = acts ++
          delivered ((p.receiverDataAvailable (some c.length) c).1.handleAll
            (Rtuart.arrivals chunks)).2 := by
      rintro acts rfl
      exact delivered_append
    rcases h.chunk (show heard.length + c.length ≤ 257 by omega) with ⟨hmore, hquiet⟩ | hend
    · rcases ih hmore (by rw [List.length_append]; omega) with ⟨hlast, hnone⟩ | hreported
      · refine .inl ⟨hlast, (hsplit _ hquiet).trans ?_⟩
        rw [hnone]
        rfl
      · obtain ⟨x, hx, hreports⟩ := hreported.delivered
        refine .inr ⟨hreported.tx, hreported.rx, hreported.ended, x, ?_, hreports⟩
        rw [hsplit _ hquiet, hx]
        rfl
    · obtain ⟨x, hx, hreports⟩ := hend.delivered
      obtain ⟨htx, hrx, hnone⟩ := gone_arrivals hend.tx hend.rx chunks
      refine .inr ⟨htx, hrx, hend.ended.append _, x, ?_, hreports.append hend.ended _⟩
      rw [hsplit _ hx, hnone]
      rfl

/-- **The timer expires.** -/
theorem Awaits.timeout (h : p.Awaits request id heard) :
    ∃ x, delivered p.handleRdmTimeout.2 = [x] ∧
      Reports heard (Heard heard) (x.frame.data.read rdmPosSrcUid 6) := by
  obtain ⟨htx, hrx, hlistens⟩ := h
  -- the request is the answer, from 0 or from all ones
  have hanswer : p.rx.count = heard.length → p.state = .rdmdiscRecvPreamble ∨
      p.state = .rdmdiscRecvData → delivered p.handleRdmTimeout.2 = [request.modify
        fun f => f.rdmDiscoveryReply (if 0 < heard.length then 0xFF else 0)] := by
    intro hcount hstate
    have hreply : (if p.rx.count > 0 then Frame.rdmDiscoveryReplyCollision
        else Frame.rdmDiscoveryReplyTimeout) =
        fun f => f.rdmDiscoveryReply (if 0 < heard.length then 0xFF else 0) := by
      rw [hcount]
      split <;> rfl
    unfold handleRdmTimeout
    rcases hstate with hs | hs
    all_goals
      simp only [htx, hs, hreply, delivered_answerRequest]
      rfl
  have hreports : (∀ uid, ¬ Heard heard uid) → Reports heard (Heard heard)
      ((request.frame.rdmDiscoveryReply (if 0 < heard.length then 0xFF else 0)).data.read
        rdmPosSrcUid 6) := by
    intro hnone
    rw [Frame.rdmDiscoveryReply_source]
    refine ⟨?_, fun uid huid => absurd huid (hnone uid), fun hne _ => ?_⟩
    · rintro rfl
      rfl
    · rw [if_pos (List.length_pos_iff.2 hne)]
  cases hlistens with
  | preamble hsome hstate hholds =>
    exact ⟨_, hanswer hholds.count (.inl hstate), hreports fun _ => not_heard_preamble⟩
  | data hsome hstate hholds hexpected hrest =>
    exact ⟨_, hanswer hholds.count (.inr hstate), hreports fun _ => not_heard_short hrest⟩
  | ended hframe hend =>
    rw [hframe] at hrx
    contradiction

end Port

open Port

/-- **What is reported of a discovery.** A port has sent a discovery
request and receives up to 257 bytes in chunks of any sizes, until the
timer expires. It hands up one frame, whose source says what was heard. -/
theorem discovery_reports (got : Entry) {chunks : List (List UInt8)}
    (hwait : p.state = .waitForTxComplete) (htx : p.tx.frame = some request)
    (hrdm : request.frame.flags.isRdm) (hdisc : request.frame.flags.isRdmDisc)
    (hlen : chunks.flatten.length ≤ 257) :
    ∃ x, delivered ((p.step (.transmitterEmpty (some got))).handleAll
        (arrivals chunks ++ [.rdmTimeout])).2 = [x] ∧
      Reports chunks.flatten (Heard chunks.flatten) (x.frame.data.read rdmPosSrcUid 6) := by
  have hhears : Hears (p.step (.transmitterEmpty (some got))) request got.id [] :=
    Hears.start hwait htx hrdm hdisc
  have hstart : (p.step (.transmitterEmpty (some got))).Awaits request got.id [] :=
    ⟨hhears.tx, hhears.rx, hhears.listens⟩
  rw [handleAll_append, delivered_append]
  rcases hstart.arrivals (show 0 + chunks.flatten.length ≤ 257 by omega) with ⟨hmore, hquiet⟩ | hend
  · obtain ⟨x, hx, hreports⟩ := hmore.timeout
    refine ⟨x, ?_, hreports⟩
    rw [hquiet, List.nil_append, ← hx]
    exact congrArg delivered (List.append_nil _)
  · obtain ⟨x, hx, hreports⟩ := hend.delivered
    refine ⟨x, ?_, hreports⟩
    have hquiet : (((p.step (.transmitterEmpty (some got))).handleAll (arrivals chunks)).1.handleAll
        [.rdmTimeout]).2 = [] := by
      show ((p.step (.transmitterEmpty (some got))).handleAll
        (arrivals chunks)).1.handleRdmTimeout.2 ++ [] = []
      unfold handleRdmTimeout
      rw [hend.tx]
      rfl
    rw [hx, hquiet]
    rfl

end Rtuart

end Dmx4Linux2
