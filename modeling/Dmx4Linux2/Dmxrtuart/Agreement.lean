import Dmx4Linux2.Dmxrtuart.Discovery
import Dmx4Linux2.Rtuart.DiscoveryResult

/-!
# The two rtuart ports on a discovery

The DMX client and the buffer-based port look for the preamble of a
discovery reply in different ways: the client takes the first byte that is
neither preamble nor separator for a collision, and the port skips
everything in front of the first byte of a preamble, a separator as well.
`agree_iff` says on which bytes the two report the same.
-/

namespace Dmx4Linux2

namespace Dmxrtuart

open Rtuart (Heard Reports Entry Frame)

variable {octets rest : List UInt8}

/-! ## What the buffer-based port hears -/

/-- The octets from the first one of a preamble on. -/
def fromPreamble (octets : List UInt8) : List UInt8 := octets.dropWhile (· ≠ 0xFE)

theorem takeWhile_preamble {i : ℕ} {b : UInt8} (hb : b ≠ 0xFE) :
    (List.replicate i 0xFE ++ b :: rest).takeWhile (· = 0xFE) = List.replicate i 0xFE := by
  induction i with
  | zero => simp [hb]
  | succ i ih => simpa [List.replicate_succ] using ih

/-- The octets lie in the frame behind the packet, and behind them there
is nothing. -/
structure Lies (data : Mem) (octets : List UInt8) : Prop where
  read : data.read rdmPosDiscUniqueBranchData octets.length = octets
  blank : data (rdmPosDiscUniqueBranchData + octets.length) = 0

variable {data : Mem}

/-- Where the octets from the preamble on lie. -/
theorem Lies.fromPreamble (h : Lies data octets) :
    ∃ j, j + (fromPreamble octets).length = octets.length ∧
      data.read (rdmPosDiscUniqueBranchData + j) (fromPreamble octets).length =
        fromPreamble octets ∧
      Port.preambleEnd data octets.length =
        if data (rdmPosDiscUniqueBranchData +
            (j + ((fromPreamble octets).takeWhile (· = 0xFE)).length)) ≠ 0xAA then none
        else some (j + ((fromPreamble octets).takeWhile (· = 0xFE)).length + 1) := by
  have hsplit : octets = octets.takeWhile (· ≠ 0xFE) ++ Dmxrtuart.fromPreamble octets :=
    List.takeWhile_append_dropWhile.symm
  have hlen := congrArg List.length hsplit
  rw [List.length_append] at hlen
  refine ⟨(octets.takeWhile (· ≠ 0xFE)).length, hlen.symm, ?_, ?_⟩
  · have hread := h.read
    rw [hlen, Mem.read_add] at hread
    exact (List.append_inj' (hread.trans hsplit) Mem.length_read).2
  · have hdrop : octets.drop (octets.takeWhile (· ≠ 0xFE)).length = Dmxrtuart.fromPreamble octets := by
      have hleft := congrArg (List.drop (octets.takeWhile (· ≠ 0xFE)).length) hsplit
      rw [List.drop_left] at hleft
      exact hleft
    unfold Port.preambleEnd
    dsimp only
    rw [h.read, hdrop]

/-- The octet behind a preamble. -/
theorem read_behind {d i : ℕ} {b : UInt8}
    (h : data.read d (List.replicate i (0xFE : UInt8) ++ b :: rest).length =
      List.replicate i 0xFE ++ b :: rest) : data (d + i) = b := by
  have hlt : i < (List.replicate i (0xFE : UInt8) ++ b :: rest).length := by
    rw [List.length_append, List.length_replicate, List.length_cons]
    omega
  have hget := Mem.getElem?_read (m := data) (p := d) hlt
  rw [h, List.getElem?_append_right (by simp), List.length_replicate, Nat.sub_self,
    List.getElem?_cons_zero] at hget
  exact (Option.some.inj hget).symm

/-- Octets without a separator behind a preamble are a collision, -/
theorem decodedResult_of_none {n : ℕ} (hend : Port.preambleEnd data n = none) :
    decodedResult data n = .collision := by
  rw [decodedResult, hend]

/-- and so are too few octets behind the separator, or others than those
of a reply. -/
theorem decodedResult_of_some {n j : ℕ} (hend : Port.preambleEnd data n = some j) :
    decodedResult data n =
      if n < j + 16 then .collision
      else if Rtuart.Accepts data (rdmPosDiscUniqueBranchData + j) then
        .unique (Rtuart.decodedUid data (rdmPosDiscUniqueBranchData + j))
      else .collision := by
  rw [decodedResult, hend]

/-- **The port hears what stands behind the first preamble**, whatever is
in front of it. -/
theorem Lies.reports (h : Lies data octets) (hne : octets ≠ []) :
    Reports octets (Heard (Dmxrtuart.fromPreamble octets)) (decodedResult data octets.length).source := by
  obtain ⟨j, hlen, hread, hend⟩ := h.fromPreamble
  have hcollision : (∀ uid, ¬ Heard (Dmxrtuart.fromPreamble octets) uid) →
      decodedResult data octets.length = .collision →
      Reports octets (Heard (Dmxrtuart.fromPreamble octets))
        (decodedResult data octets.length).source := by
    intro hnone hresult
    rw [hresult]
    exact Rtuart.reports_refused hne hnone
  have hspec := Rtuart.findPreamble_spec (Dmxrtuart.fromPreamble octets)
  generalize Dmxrtuart.fromPreamble octets = later at hspec hlen hread hend hcollision ⊢
  generalize Rtuart.findPreamble later = r at hspec
  cases hspec with
  | @found i rest hlater =>
    rw [hlater, takeWhile_preamble (by decide), List.length_replicate] at hend
    rw [hlater] at hread hlen hcollision ⊢
    rw [← Nat.add_assoc, read_behind hread, if_neg (by decide)] at hend
    rw [List.length_append, List.length_replicate, List.length_cons] at hlen
    by_cases hshort : rest.length < 16
    · refine hcollision (fun uid => Rtuart.not_heard_short hshort) ?_
      rw [decodedResult_of_some hend, if_pos (by omega)]
    · have hreply : ∀ uid, Heard (List.replicate i 0xFE ++ 0xAA :: rest) uid ↔
          Rtuart.ReplyAt data (rdmPosDiscUniqueBranchData + (j + i + 1)) uid := by
        intro uid
        rw [show rdmPosDiscUniqueBranchData + (j + i + 1) =
          rdmPosDiscUniqueBranchData + j + i + 1 by omega]
        exact Rtuart.heard_iff_replyAt (by omega) hread
      have hresult := decodedResult_of_some hend
      rw [if_neg (by omega)] at hresult
      by_cases haccepts : Rtuart.Accepts data (rdmPosDiscUniqueBranchData + (j + i + 1))
      · rw [hresult, if_pos haccepts]
        exact Rtuart.reports_accepted hne hreply haccepts
      · refine hcollision (fun uid huid => haccepts ((hreply uid).1 huid).accepts) ?_
        rw [hresult, if_neg haccepts]
  | @incomplete i hlater =>
    -- the octets end with the preamble
    refine hcollision (fun uid => hlater ▸ Rtuart.not_heard_preamble) ?_
    have hall : later.takeWhile (· = 0xFE) = later := by
      rw [hlater]
      simp
    rw [hall, hlen, h.blank, if_pos (by decide)] at hend
    exact decodedResult_of_none hend
  | @collision i b rest hlater hpre hsep =>
    refine hcollision (fun uid => hlater ▸ Rtuart.not_heard_noise hpre hsep) ?_
    rw [hlater, takeWhile_preamble hpre, List.length_replicate] at hend
    rw [hlater] at hread
    rw [← Nat.add_assoc, read_behind hread, if_pos hsep] at hend
    exact decodedResult_of_none hend

/-! ## The buffer-based port -/

namespace Port

variable {p : Port} {request : Entry}

/-- **The port collects the octets of a reply** in a frame of its own. -/
structure Collects (p : Port) (request : Entry) (octets : List UInt8) : Prop where
  state : p.state = .recvRdmdiscReply
  tx : p.tx = some request
  registered : p.registered = true
  rx : ∃ id, p.buffer.frame = some id ∧ p.rx = some ⟨id, { blankFrame with
    data := blankFrame.data.write rdmPosDiscUniqueBranchData octets }⟩
  offset : p.buffer.offset = rdmPosDiscUniqueBranchData
  size : p.buffer.size = 513 - rdmPosDiscUniqueBranchData
  validcount : p.buffer.validcount = 513 - rdmPosDiscUniqueBranchData
  transfered : p.buffer.transfered = octets.length

theorem rxStart_fields : p.rxStart.state = p.state ∧ p.rxStart.tx = p.tx ∧ p.rxStart.rx = p.rx ∧
    p.rxStart.registered = true ∧ p.rxStart.buffer = { p.buffer with transfered := 0 } ∧
    p.rxStart.deliveries = p.deliveries := by
  unfold rxStart
  dsimp only
  split
  · refine ⟨rfl, rfl, rfl, rfl, rfl, ?_⟩
    refine (deliveries_act .rxStart).trans ((List.append_nil _).trans ?_)
    exact (deliveries_act .rxStop).trans (List.append_nil _)
  · exact ⟨rfl, rfl, rfl, rfl, rfl, (deliveries_act .rxStart).trans (List.append_nil _)⟩

/-- The end of the transmission of a request starts it. -/
theorem Collects.start (hstate : p.state = .transmitDataTwoway) (htx : p.tx = some request)
    (hrequest : Rtuart.isRdmDiscover request.frame.data = true) :
    (p.txEnd2 true).Collects request [] ∧ (p.txEnd2 true).deliveries = p.deliveries := by
  let q : Port := { p.act (.enableRs485Transmitter false) with state := .recvRdmdiscReply }
  have hend : p.txEnd2 true = q.startReceiveData rdmPosDiscUniqueBranchData false true := by
    have hslot : (p.act (.enableRs485Transmitter false)).tx = some request := htx
    unfold txEnd2
    simp only [hstate, hslot, hrequest, if_true]
    rw [← hslot]
  rw [hend]
  unfold startReceiveData
  dsimp only
  rw [if_pos rfl]
  obtain ⟨hs, ht, hr, hreg, hbuffer, hquiet⟩ := rxStart_fields
    (p := { q.act (.notify true true true) with
      next := (q.act (.notify true true true)).next + 1
      rx := some ⟨(q.act (.notify true true true)).next, blankFrame⟩
      buffer := { (q.act (.notify true true true)).buffer with
        frame := some (q.act (.notify true true true)).next
        offset := rdmPosDiscUniqueBranchData
        size := 513 - rdmPosDiscUniqueBranchData
        validcount := 513 - rdmPosDiscUniqueBranchData } })
  refine ⟨⟨hs, ht.trans htx, hreg, ⟨(q.act (.notify true true true)).next, ?_, ?_⟩, ?_, ?_, ?_, ?_⟩, ?_⟩
  · exact congrArg Buffer.frame hbuffer
  · rw [Mem.write_nil]
    exact hr
  · exact congrArg Buffer.offset hbuffer
  · exact congrArg Buffer.size hbuffer
  · exact congrArg Buffer.validcount hbuffer
  · exact congrArg Buffer.transfered hbuffer
  · refine hquiet.trans ((deliveries_act (.notify true true true)).trans ?_)
    exact (List.append_nil _).trans
      ((deliveries_act (.enableRs485Transmitter false)).trans (List.append_nil _))

/-- Triggers that are left over do nothing. -/
theorem rxTrigger_discovery (hstate : p.state = .recvRdmdiscReply) (t0 t1 : Bool) :
    p.rxTrigger t0 t1 = p := by
  have hfirst : (if t0 then p else p) = p := ite_self p
  unfold rxTrigger
  simp only [hstate, hfirst, reduceCtorEq, or_self, false_and, and_false, if_false]

theorem Collects.not_full (h : p.Collects request octets) (hroom : octets.length < 255) :
    p.bufferFull = false := by
  unfold bufferFull
  rw [h.transfered, h.validcount, h.size, Bool.or_self, decide_eq_false_iff_not]
  simp only [rdmPosDiscUniqueBranchData]
  omega

theorem Collects.store (h : p.Collects request octets) (c : UInt8) :
    (p.store c).Collects request (octets ++ [c]) := by
  obtain ⟨id, hframe, hrx⟩ := h.rx
  refine ⟨h.state, h.tx, h.registered, ⟨id, hframe, ?_⟩, h.offset, h.size, h.validcount, ?_⟩
  · unfold Port.store
    simp only [hrx, Option.map_some, hframe, if_true, h.offset, h.transfered, Mem.write_append]
  · show p.buffer.transfered + 1 = _
    rw [h.transfered, List.length_append, List.length_singleton]

theorem Collects.handleTriggers (h : p.Collects request octets) :
    p.handleTriggers.Collects request octets ∧ p.handleTriggers.deliveries = p.deliveries := by
  unfold Port.handleTriggers
  dsimp only
  split
  · rw [rxTrigger_discovery h.state]
    exact ⟨⟨h.state, h.tx, h.registered, h.rx, h.offset, h.size, h.validcount, h.transfered⟩, rfl⟩
  · exact ⟨h, rfl⟩

/-- **An octet** is stored behind the others. -/
theorem Collects.octet (h : p.Collects request octets) (hroom : octets.length < 254) (c : UInt8) :
    (p.handleReceivedData c).Collects request (octets ++ [c]) ∧
      (p.handleReceivedData c).deliveries = p.deliveries := by
  obtain ⟨hnext, hquiet⟩ := (h.store c).handleTriggers
  have hlen : (octets ++ [c]).length < 255 := by
    rw [List.length_append, List.length_singleton]
    omega
  have hdata : p.handleReceivedData c = (p.store c).handleTriggers := by
    unfold handleReceivedData
    rw [h.registered, h.not_full (by omega)]
    dsimp only
    rw [hnext.not_full hlen]
    rfl
  rw [hdata]
  exact ⟨hnext, hquiet⟩

/-- The octets of a reply, one after the other. -/
def collect (p : Port) (octets : List UInt8) : Port := octets.foldl handleReceivedData p

theorem Collects.collect {more : List UInt8} (h : p.Collects request octets)
    (hroom : octets.length + more.length ≤ 254) :
    (p.collect more).Collects request (octets ++ more) ∧
      (p.collect more).deliveries = p.deliveries := by
  induction more generalizing p octets with
  | nil => exact ⟨by rw [List.append_nil]; exact h, rfl⟩
  | cons c more ih =>
    rw [List.length_cons] at hroom
    obtain ⟨hnext, hquiet⟩ := h.octet (by omega) c
    obtain ⟨hlast, hsame⟩ := ih hnext (by rw [List.length_append, List.length_singleton]; omega)
    rw [List.append_assoc] at hlast
    exact ⟨hlast, hsame.trans hquiet⟩

/-- **The timer expires**, and what was heard is reported. -/
theorem Collects.timeout (h : p.Collects request octets) :
    ∃ e, p.handleRdmTimeout.deliveries = p.deliveries ++ [e] ∧
      Reports octets (Heard (fromPreamble octets)) (e.frame.data.read Rtuart.rdmPosSrcUid 6) := by
  obtain ⟨id, -, hrx⟩ := h.rx
  let q := p.act .stopRdmTimer
  have hend : p.handleRdmTimeout = { q.handleDiscoveryReply with state := .idle } := by
    have hstate : q.state = .recvRdmdiscReply := h.state
    unfold handleRdmTimeout
    rw [h.tx]
    dsimp only
    rw [show (p.act .stopRdmTimer).state = _ from hstate]
  have hdeliver : p.handleRdmTimeout.deliveries =
      p.deliveries ++ [answered request q.result.source q.result.ack] := by
    rw [hend]
    show q.handleDiscoveryReply.deliveries = _
    have hframe : q.lacksFrame = false := by simp [lacksFrame, show q.rx = _ from hrx]
    rw [handleDiscoveryReply_eq hframe, deliveries_discoveryReply (p := q) h.tx,
      show q.deliveries = p.deliveries from (deliveries_act .stopRdmTimer).trans (List.append_nil _)]
  refine ⟨_, hdeliver, ?_⟩
  rw [answered_source q.length_source]
  have hcollision : ¬ q.state = .recvRdmdiscReplyCollision := by
    show ¬ p.state = _
    rw [h.state]
    decide
  unfold result
  rw [if_neg hcollision, show q.buffer.transfered = octets.length from h.transfered]
  by_cases hnil : octets = []
  · subst hnil
    refine ⟨fun _ => rfl, fun uid huid => absurd huid Rtuart.not_heard_nil, fun hne => absurd rfl hne⟩
  · rw [if_neg (fun hzero => hnil (List.length_eq_zero_iff.1 hzero))]
    have hdata : q.rxData = blankFrame.data.write rdmPosDiscUniqueBranchData octets := by
      unfold rxData
      rw [show q.rx = _ from hrx]
    rw [hdata]
    exact Lies.reports ⟨Mem.read_write, Mem.write_apply_of_ge le_rfl⟩ hnil

/-- **What is reported of a discovery.** The port has sent a discovery
request and receives up to 254 octets until the timer expires. It hands
up one frame, whose source says what was heard behind the first
preamble. -/
theorem collect_reports (hstate : p.state = .transmitDataTwoway) (htx : p.tx = some request)
    (hrequest : Rtuart.isRdmDiscover request.frame.data = true) (hlen : octets.length ≤ 254) :
    ∃ y, ((p.txEnd2 true).collect octets).handleRdmTimeout.deliveries = p.deliveries ++ [y] ∧
      Reports octets (Heard (fromPreamble octets)) (y.frame.data.read Rtuart.rdmPosSrcUid 6) := by
  obtain ⟨hstart, hquiet⟩ := Collects.start hstate htx hrequest
  obtain ⟨hall, hsame⟩ := hstart.collect (show 0 + octets.length ≤ 254 by omega)
  obtain ⟨y, hy, hreports⟩ := hall.timeout
  rw [hsame, hquiet] at hy
  exact ⟨y, hy, hreports⟩

end Port

/-! ## The two ports -/

/-- **Two reports are the same just when they are of the same replies**,
but for that of the UID that stands for a collision. -/
theorem reports_eq_iff {heard heard' : List UInt8 → Prop} {source source' : List UInt8}
    (h : Reports octets heard source) (h' : Reports octets heard' source')
    (hnil : octets = [] → ∀ uid, ¬ heard uid ∧ ¬ heard' uid) :
    source = source' ↔ ∀ uid, uid ≠ List.replicate 6 0xFF → (heard uid ↔ heard' uid) := by
  -- a source that is not the one of a collision is that of a reply
  have hback : ∀ {heard heard' : List UInt8 → Prop} {source source' : List UInt8},
      Reports octets heard source → Reports octets heard' source' →
      (octets = [] → ∀ uid, ¬ heard uid ∧ ¬ heard' uid) → source = source' →
      ∀ uid, uid ≠ List.replicate 6 0xFF → heard uid → heard' uid := by
    intro heard heard' source source' h h' hnil heq uid hne huid
    have hsource' : source' = uid := heq.symm.trans (h.reply uid huid)
    have hoctets : octets ≠ [] := fun hempty => (hnil hempty uid).1 huid
    by_contra hnot
    refine hne (hsource'.symm.trans (h'.collision hoctets fun uid' huid' => hnot ?_))
    rw [← hsource', h'.reply uid' huid']
    exact huid'
  constructor
  · intro heq uid hne
    exact ⟨hback h h' hnil heq uid hne,
      hback h' h (fun hempty uid => (hnil hempty uid).symm) heq.symm uid hne⟩
  · intro hsame
    by_cases hempty : octets = []
    · rw [h.nothing hempty, h'.nothing hempty]
    · -- a reply of any other UID is a reply to both
      have hcases : ∀ {heard : List UInt8 → Prop} {source : List UInt8},
          Reports octets heard source → source = List.replicate 6 0xFF ∨
            source ≠ List.replicate 6 0xFF ∧ heard source := by
        intro heard source h
        by_cases hsome : ∃ uid, heard uid
        · obtain ⟨uid, huid⟩ := hsome
          rw [h.reply uid huid]
          exact or_iff_not_imp_left.2 fun hne => ⟨hne, huid⟩
        · exact .inl (h.collision hempty (not_exists.1 hsome))
      rcases hcases h with hones | ⟨hne, hreply⟩
      · rcases hcases h' with hones' | ⟨hne', hreply'⟩
        · rw [hones, hones']
        · exact h.reply _ ((hsame _ hne').2 hreply')
      · exact (h'.reply _ ((hsame _ hne).1 hreply)).symm

/-- **Nothing that matters is skipped**: the same reply is heard with and
without what is in front of the first preamble. A reply of the UID that
stands for a collision does not matter. -/
def SkipsNothing (octets : List UInt8) : Prop :=
  ∀ uid, uid ≠ List.replicate 6 0xFF → (Heard octets uid ↔ Heard (fromPreamble octets) uid)

/-- **The two ports agree just when nothing that matters is skipped.** Both
have sent a discovery request and receive the same octets, in chunks of
any sizes, until the timer expires. Each hands up one frame, and the two
have the same source just then. -/
theorem agree_iff (client : Rtuart.Port) (port : Port) (request request' got : Entry)
    (chunks : List (List UInt8)) (hwait : client.state = .waitForTxComplete)
    (hslot : client.tx.frame = some request) (hrdm : request.frame.flags.isRdm = true)
    (hdisc : request.frame.flags.isRdmDisc = true) (hstate : port.state = .transmitDataTwoway)
    (htx : port.tx = some request') (hrequest : Rtuart.isRdmDiscover request'.frame.data = true)
    (hlen : chunks.flatten.length ≤ 200) :
    ∃ x y, Rtuart.delivered ((client.step (.transmitterEmpty (some got))).handleAll
        (Rtuart.arrivals chunks ++ [.rdmTimeout])).2 = [x] ∧
      ((port.txEnd2 true).collect chunks.flatten).handleRdmTimeout.deliveries =
        port.deliveries ++ [y] ∧
      (x.frame.data.read Rtuart.rdmPosSrcUid 6 = y.frame.data.read Rtuart.rdmPosSrcUid 6 ↔
        SkipsNothing chunks.flatten) := by
  obtain ⟨x, hx, hreports⟩ := Rtuart.discovery_reports got hwait hslot hrdm hdisc
    (show chunks.flatten.length ≤ 257 by omega)
  obtain ⟨y, hy, hreports'⟩ := Port.collect_reports hstate htx hrequest
    (show chunks.flatten.length ≤ 254 by omega)
  refine ⟨x, y, hx, hy, reports_eq_iff hreports hreports' fun hempty uid => ?_⟩
  rw [hempty]
  exact ⟨Rtuart.not_heard_nil, Rtuart.not_heard_nil⟩

/-- A port that has sent a discovery request. -/
def someAsking : Port :=
  { Port.create with state := .transmitDataTwoway, tx := some ⟨0, Port.discoveryRequest⟩ }

/-- The reply of the device `01 02 03 04 05 06`, whole, or without its
preamble. -/
def wholeReply : List (List UInt8) := [Rtuart.wire [1, 2, 3, 4, 5, 6]]

def bareReply : List (List UInt8) :=
  [0xAA :: (Rtuart.replyBytes [1, 2, 3, 4, 5, 6]).flatMap Rtuart.encodeByte]

theorem agree_wholeReply :
    ∃ x y, Rtuart.delivered ((Rtuart.someRequester.step
        (.transmitterEmpty (some Rtuart.someResponse))).handleAll
          (Rtuart.arrivals wholeReply ++ [.rdmTimeout])).2 = [x] ∧
      ((someAsking.txEnd2 true).collect wholeReply.flatten).handleRdmTimeout.deliveries = [y] ∧
      x.frame.data.read Rtuart.rdmPosSrcUid 6 = y.frame.data.read Rtuart.rdmPosSrcUid 6 := by
  obtain ⟨x, y, hx, hy, hiff⟩ := agree_iff Rtuart.someRequester someAsking Rtuart.someRequest
    ⟨0, Port.discoveryRequest⟩ Rtuart.someResponse wholeReply rfl rfl rfl rfl rfl rfl (by decide)
    (by decide)
  exact ⟨x, y, hx, hy, hiff.2 fun uid _ => Iff.rfl⟩

/-- The client hears the device, and the port a collision. -/
theorem bareReply_not_same :
    ¬ ∀ x ∈ Rtuart.delivered ((Rtuart.someRequester.step
        (.transmitterEmpty (some Rtuart.someResponse))).handleAll
          (Rtuart.arrivals bareReply ++ [.rdmTimeout])).2,
      ∀ y ∈ ((someAsking.txEnd2 true).collect bareReply.flatten).handleRdmTimeout.deliveries,
        x.frame.data.read Rtuart.rdmPosSrcUid 6 = y.frame.data.read Rtuart.rdmPosSrcUid 6 := by
  intro h
  obtain ⟨x, hx, hreports⟩ := Rtuart.discovery_reports (p := Rtuart.someRequester)
    Rtuart.someResponse rfl rfl rfl rfl (show bareReply.flatten.length ≤ 257 by decide)
  obtain ⟨y, hy, hreports'⟩ := Port.collect_reports (p := someAsking) rfl rfl (by decide)
    (show bareReply.flatten.length ≤ 254 by decide)
  have hsame := h x (by rw [hx]; exact .head _) y (by rw [hy]; exact .head _)
  have hheard : Heard bareReply.flatten [1, 2, 3, 4, 5, 6] := ⟨rfl, 0, [], rfl⟩
  have hnone : fromPreamble bareReply.flatten = [] := by decide
  rw [hreports.reply _ hheard, hreports'.collision (by decide) fun uid => by
    rw [hnone]
    exact Rtuart.not_heard_nil] at hsame
  exact absurd hsame (by decide)

end Dmxrtuart

end Dmx4Linux2
