import Dmx4Linux2.Dmxrtuart.Ownership
import Dmx4Linux2.Rtuart.Codec

/-!
# Buffer-based rtuart DMX port — what a discovery comes to

What was received behind a discovery request is looked at when the timer
expires or the buffer is full. Whatever it is, the request is turned into
the answer and handed up; `Port.result` says from whom it is. The request
carries twelve octets of data, and `discoveryResult_not_response` says that
they are never taken out: the sizes and the checksum stay those of the
request.
-/

namespace Dmx4Linux2

namespace Dmxrtuart

open Rtuart

/-! ## Results -/

/-- **What a discovery comes to.** -/
inductive Result
  | noReply
  | unique (uid : List UInt8)
  | collision
  deriving DecidableEq

/-- How it is reported: the source of the answer. -/
def Result.source : Result → List UInt8
  | .noReply => List.replicate 6 0
  | .unique uid => uid
  | .collision => List.replicate 6 0xFF

def Result.ack : Result → UInt8
  | .noReply => responseTypeNoReply
  | .unique _ => responseTypeAck
  | .collision => responseTypeAck

/-- The reply that lies behind a preamble and its separator. -/
def decodedResult (data : Mem) (transfered : ℕ) : Result :=
  match Port.preambleEnd data transfered with
  | none => .collision
  | some j =>
    if transfered < j + 16 then .collision
    else if Accepts data (rdmPosDiscUniqueBranchData + j) then
      .unique (decodedUid data (rdmPosDiscUniqueBranchData + j))
    else .collision

/-- The frame a call hands up. -/
def Action.handedUp : Action → Option Entry
  | .receivedFrame e => some e
  | .putFrame _ | .rxStart | .rxStop | .txStart _ | .notify .. | .enableRs485Transmitter _
  | .sendBreak | .startRdmTimer _ | .stopRdmTimer => none

namespace Port

variable {p : Port} {request : Entry}

/-- The data of the frame in the receive slot. -/
def rxData (p : Port) : Mem :=
  match p.rx with
  | some e => e.frame.data
  | none => fun _ => 0

/-- What a port makes of the octets it has received. -/
def result (p : Port) : Result :=
  if p.state = .recvRdmdiscReplyCollision then .collision
  else if p.buffer.transfered = 0 then .noReply
  else decodedResult p.rxData p.buffer.transfered

/-- The octets that pairs encode are tested as one. -/
theorem accepts_iff (data : Mem) (pos : ℕ) :
    Accepts data pos ↔ encodedAt data pos = true ∧
      beNat (((List.range 8).map fun i => decodeByte data (pos + 2 * i)).drop 6) =
        data.sum16 pos 12 := by
  have hlow := (decodeByte data (pos + 14)).toNat_lt
  have hhigh := (decodeByte data (pos + 12)).toNat_lt
  have hsum : beNat (((List.range 8).map fun i => decodeByte data (pos + 2 * i)).drop 6) =
      ((decodeByte data (pos + 12)).toNat * 256 + (decodeByte data (pos + 14)).toNat) % 2 ^ 16 := by
    show beNat ([decodeByte data (pos + 12)] ++ [decodeByte data (pos + 14)]) = _
    rw [beNat_append, beNat_singleton, beNat_singleton, List.length_singleton]
    omega
  rw [hsum]
  exact and_congr_right fun _ => eq_comm

theorem decodePairs_eq_some {data : Mem} {pos : ℕ} {tmp : List UInt8} :
    decodePairs data pos = some tmp ↔ encodedAt data pos = true ∧
      ((List.range 8).map fun i => decodeByte data (pos + 2 * i)) = tmp := by
  unfold decodePairs
  by_cases hencoded : encodedAt data pos = true
  · rw [if_pos hencoded, Option.some.injEq]
    exact (and_iff_right hencoded).symm
  · rw [if_neg hencoded]
    exact iff_of_false (by simp) fun h => hencoded h.1

/-- **Every way through the reply ends in an answer**, from the source
that the result has. -/
theorem handleDiscoveryReply_eq (hframe : p.lacksFrame = false) :
    p.handleDiscoveryReply = p.discoveryReply p.result.source p.result.ack := by
  unfold handleDiscoveryReply result
  dsimp only
  rw [if_neg (by rw [hframe]; decide)]
  by_cases hcollision : p.state = .recvRdmdiscReplyCollision
  · rw [if_pos hcollision, if_pos hcollision]
    rfl
  rw [if_neg hcollision, if_neg hcollision]
  by_cases hnothing : p.buffer.transfered = 0
  · rw [if_pos hnothing, if_pos hnothing]
    rfl
  rw [if_neg hnothing, if_neg hnothing]
  unfold decodedResult
  split
  · next hend =>
    rw [show preambleEnd p.rxData p.buffer.transfered = none from hend]
    rfl
  · next j hend =>
    rw [show preambleEnd p.rxData p.buffer.transfered = some j from hend]
    dsimp only
    by_cases hshort : p.buffer.transfered < j + 16
    · rw [if_pos hshort, if_pos hshort]
      rfl
    rw [if_neg hshort, if_neg hshort]
    have hiff := accepts_iff p.rxData (rdmPosDiscUniqueBranchData + j)
    split
    · next hpairs =>
      have hencoded : ¬ encodedAt p.rxData (rdmPosDiscUniqueBranchData + j) = true := by
        intro h
        have hsome : decodePairs p.rxData (rdmPosDiscUniqueBranchData + j) = some _ :=
          decodePairs_eq_some.2 ⟨h, rfl⟩
        exact absurd (hsome.symm.trans hpairs) (by simp)
      rw [if_neg fun h => hencoded (hiff.1 h).1]
      rfl
    · next tmp hpairs =>
      obtain ⟨hencoded, rfl⟩ := decodePairs_eq_some.1
        (show decodePairs p.rxData (rdmPosDiscUniqueBranchData + j) = some tmp from hpairs)
      by_cases hsum : beNat (((List.range 8).map fun i =>
          decodeByte p.rxData (rdmPosDiscUniqueBranchData + j + 2 * i)).drop 6) =
            p.rxData.sum16 (rdmPosDiscUniqueBranchData + j) 12
      · rw [if_pos (hiff.2 ⟨hencoded, hsum⟩)]
        exact if_neg (not_not.2 hsum)
      · rw [if_neg fun h => hsum (hiff.1 h).2]
        exact if_pos hsum

/-! ## The answer -/

/-- The request turned into the answer of a source. -/
def answered (e : Entry) (src : List UInt8) (ack : UInt8) : Entry :=
  let data := (e.frame.data.write rdmPosDestUid (e.frame.data.read rdmPosSrcUid 6)).write
    rdmPosSrcUid src
  let data := (data.write rdmPosResponseType [ack]).write rdmPosCommandClass
    [discoveryCommandResponse]
  { e with frame := { e.frame with data := data } }

/-- The frames handed up so far. -/
def deliveries (p : Port) : List Entry := p.log.filterMap Action.handedUp

theorem deliveries_act (a : Action) : (p.act a).deliveries = p.deliveries ++ a.handedUp.toList := by
  refine List.filterMap_append.trans ?_
  cases a <;> rfl

theorem deliveries_putFrame (e : Option Entry) : (p.putFrame e).deliveries = p.deliveries := by
  cases e with
  | none => rfl
  | some e => exact (deliveries_act (.putFrame e)).trans (List.append_nil _)

theorem deliveries_receivedFrame (e : Entry) :
    (p.receivedFrame (some e)).deliveries = p.deliveries ++ [e] :=
  deliveries_act (.receivedFrame e)

/-- **The answer is the one frame handed up.** -/
theorem deliveries_discoveryReply (htx : p.tx = some request) (src : List UInt8) (ack : UInt8) :
    (p.discoveryReply src ack).deliveries = p.deliveries ++ [answered request src ack] := by
  unfold discoveryReply
  rw [htx]
  refine (deliveries_receivedFrame _).trans ?_
  rw [deliveries_putFrame]
  rfl

variable {src : List UInt8} {ack : UInt8}

theorem answered_source (hsrc : src.length = 6) :
    (answered request src ack).frame.data.read rdmPosSrcUid 6 = src := by
  show Mem.read _ 9 6 = src
  unfold answered
  dsimp only [rdmPosSrcUid, rdmPosResponseType, rdmPosCommandClass]
  rw [Mem.read_write_outside (Or.inl (by decide)), Mem.read_write_outside (Or.inl (by decide)),
    Mem.read_write_of_length hsrc]

theorem answered_destination : (answered request src ack).frame.data.read rdmPosDestUid 6 =
    request.frame.data.read rdmPosSrcUid 6 := by
  unfold answered
  dsimp only [rdmPosDestUid, rdmPosSrcUid, rdmPosResponseType, rdmPosCommandClass]
  rw [Mem.read_write_outside (Or.inl (by decide)), Mem.read_write_outside (Or.inl (by decide)),
    Mem.read_write_outside (Or.inl (by decide)), Mem.read_write_of_length Mem.length_read]

/-- The length and the size of the data stay. -/
theorem answered_kept (hsrc : src.length = 6) {i : ℕ} (hi : i = rdmPosLength ∨ rdmPosPdl ≤ i) :
    (answered request src ack).frame.data i = request.frame.data i := by
  unfold answered
  dsimp only [rdmPosLength, rdmPosPdl, rdmPosDestUid, rdmPosSrcUid, rdmPosResponseType,
    rdmPosCommandClass] at hi ⊢
  rw [Mem.write_apply_outside (by rw [List.length_singleton]; omega),
    Mem.write_apply_outside (by rw [List.length_singleton]; omega),
    Mem.write_apply_outside (by omega), Mem.write_apply_outside (by rw [Mem.length_read]; omega)]

theorem length_source (p : Port) : p.result.source.length = 6 := by
  unfold result decodedResult
  repeat' split
  all_goals simp [Result.source, decodedUid]

/-- **No discovery ends in a well-formed response.** Whatever was received,
one frame is handed up in answer to the request; it goes to the requester,
but has the length, the sizes and the data of the request. If octets are
counted for which there is no frame, the process ends and nothing is handed
up. -/
theorem discoveryResult_not_response (p : Port) (request : Entry) (htx : p.tx = some request)
    (hrequest : isRdmDiscover request.frame.data = true) :
    (p.lacksFrame = true → p.handleDiscoveryReply = { p with dead := true }) ∧
    (p.lacksFrame = false →
      ∃ e, p.handleDiscoveryReply.deliveries = p.deliveries ++ [e] ∧
        (∀ source, ¬ IsDiscoveryResponse e.frame source (request.frame.data.read rdmPosSrcUid 6)) ∧
        e.frame.data.read rdmPosDestUid 6 = request.frame.data.read rdmPosSrcUid 6 ∧
        e.frame.data rdmPosPdl = 12 ∧
        e.frame.data rdmPosLength = request.frame.data rdmPosLength ∧
        e.frame.payloadSize = request.frame.payloadSize) := by
  refine ⟨fun hframe => if_pos hframe, fun hframe => ?_⟩
  have hpdl : request.frame.data rdmPosPdl = 12 := by
    simp only [isRdmDiscover, isDiscUniqueBranch, Bool.and_eq_true, beq_iff_eq] at hrequest
    exact hrequest.2
  have hsame : (answered request p.result.source p.result.ack).frame.data rdmPosPdl = 12 :=
    (answered_kept p.length_source (.inr le_rfl)).trans hpdl
  refine ⟨answered request p.result.source p.result.ack, ?_, ?_, answered_destination, hsame,
    answered_kept p.length_source (.inl rfl), rfl⟩
  · rw [handleDiscoveryReply_eq hframe]
    exact deliveries_discoveryReply htx _ _
  · intro source h
    have hzero := h.pdl
    rw [hsame] at hzero
    exact absurd hzero (by decide)

/-- A discovery that nobody answers. -/
def unanswered : List Event := [.sendFrame discoveryRequest, .txEnd2 true]

theorem discoveryResult_unanswered :
    ∃ e, (run step create unanswered).handleDiscoveryReply.deliveries = [e] ∧
      ∀ source, ¬ IsDiscoveryResponse e.frame source [1, 1, 1, 1, 1, 1] := by
  obtain ⟨e, he, hnot, -⟩ := (discoveryResult_not_response (run step create unanswered)
    ⟨0, discoveryRequest⟩ rfl (by decide)).2 rfl
  exact ⟨e, he, hnot⟩

/-- What is handed up when the timer expires is not a response. -/
theorem unanswered_not_response :
    ¬ ∀ e ∈ (run step create (unanswered ++ [.rdmTimeout])).deliveries,
      ∃ source, IsDiscoveryResponse e.frame source [1, 1, 1, 1, 1, 1] := by
  intro h
  have hmem : answered ⟨0, discoveryRequest⟩ (List.replicate 6 0) responseTypeNoReply ∈
      (run step create (unanswered ++ [.rdmTimeout])).deliveries := .head _
  obtain ⟨source, hresponse⟩ := h _ hmem
  exact absurd hresponse.payloadSize (by decide)

end Port

end Dmxrtuart

end Dmx4Linux2
