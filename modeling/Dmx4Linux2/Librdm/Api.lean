import Dmx4Linux2.Librdm.Model.Api
import Dmx4Linux2.Librdm.Bus

/-!
# librdm — requests and futures

The controller's half of a request. Each request is a message
(`muteRequest_holds`, `discoveryRequest_holds`), and a future that is handed a frame of a message
decodes to that message (`RdmFuture.set_carries`). On a bus that answers
with one frame, a request is complete when the call that sent it
returns, and no future is left in the list (`System.request_answered`).
-/

namespace Dmx4Linux2

namespace Librdm

variable {s : System} {f g : DmxData} {fut : RdmFuture} {msg : Message} {pid who whom p : ℕ}
variable {a : UInt64 × UInt64}

/-! ## Futures -/

/-- **A future decodes to the message it was handed.** -/
theorem RdmFuture.set_carries (h : Holds g msg) : Carries (fut.set g).buffer msg := by
  have hsize := h.size
  have hfits := h.fits
  refine h.carries.congr fun i hi => ?_
  unfold RdmFuture.set
  refine Mem.write_read_apply ?_
  simp at hi
  split <;> omega

@[simp] theorem RdmFuture.set_state : (fut.set g).state = .ready := rfl

theorem RdmFuture.wait_of_ready (h : fut.state = .ready) : fut.wait = fut := by
  unfold RdmFuture.wait
  rw [if_neg (by rw [h]; decide)]

theorem RdmFuture.okay_of_ready (h : fut.state = .ready) : fut.wait.okay = true := by
  rw [wait_of_ready h, okay, h]
  rfl

/-- **What the discovery loop makes of an answer to its request.** -/
theorem RdmFuture.answer_of_carries (hready : fut.state = .ready) (h : Carries fut.buffer msg)
    (hcc : msg.header .commandClass = discoveryCommandResponse)
    (hpid : msg.header .pid = discUniqueBranch) (hdst : msg.header .destination = RdmApi.myUid)
    (hsrc : msg.header .source < 2 ^ 48) :
    fut.answer = if msg.header .source = broadcast then .collision
      else if msg.header .source = any then .nothing else .device (msg.header .source) := by
  have hc : Carries fut.dec.pkt msg := h
  have hrdm := hc.isRdm
  simp only [PacketDecoder.isRdm, Bool.and_eq_true, beq_iff_eq] at hrdm
  have hcc' : fut.dec.commandClass = discoveryCommandResponse := by
    rw [hc.commandClass, hcc]
    rfl
  have hpid' : fut.dec.pid = discUniqueBranch := by
    rw [hc.pid, hpid]
    rfl
  have hdst' : fut.dec.destination = RdmApi.myUid := by
    rw [hc.destination, hdst]
    rfl
  have hsrc' : fut.dec.source = msg.header .source := by rw [hc.source, Nat.mod_eq_of_lt hsrc]
  unfold RdmFuture.answer
  rw [if_neg (by rw [okay_of_ready hready]; decide), if_pos ⟨hrdm.1, hrdm.2, hcc', hpid'⟩,
    if_pos hdst', hsrc']

/-! ## Requests are messages -/

/-- `mute` and `unmute`. -/
theorem muteRequest_holds (pid whom : ℕ) :
    Holds (muteRequest pid whom) (replyMessage RdmApi.myUid whom discoveryCommand pid) := by
  have hc : Carries ((((PacketEncoder.new clearedBuffer 258).source RdmApi.myUid).destination
      whom).commandClass discoveryCommand |>.pid pid).pkt
      (replyMessage RdmApi.myUid whom discoveryCommand pid) :=
    ((((Carries.new clearedBuffer 258).setField .source RdmApi.myUid).setField .destination
      whom).setField .commandClass discoveryCommand).setField .pid pid
  exact hc.holds (by simp)

/-- The message of a discovery request. -/
def discoveryMessage (a : UInt64 × UInt64) : Message :=
  ((replyMessage RdmApi.myUid broadcast discoveryCommand discUniqueBranch).add
    (beBytes 6 a.1.toNat)).add (beBytes 6 a.2.toNat)

theorem discoveryRequest_holds (a : UInt64 × UInt64) :
    Holds (discoveryRequest a) (discoveryMessage a) := by
  have hc : Carries ((((PacketEncoder.new clearedBuffer 258).source RdmApi.myUid).destination
      broadcast).commandClass discoveryCommand |>.pid discUniqueBranch).pkt
      (replyMessage RdmApi.myUid broadcast discoveryCommand discUniqueBranch) :=
    ((((Carries.new clearedBuffer 258).setField .source RdmApi.myUid).setField .destination
      broadcast).setField .commandClass discoveryCommand).setField .pid discUniqueBranch
  have hlo : Carries _ ((replyMessage RdmApi.myUid broadcast discoveryCommand
      discUniqueBranch).add (beBytes 6 a.1.toNat)) := hc.addBytes (by simp)
  have hhi : Carries _ (discoveryMessage a) := hlo.addBytes (by simp)
  exact hhi.holds (by simp [discoveryMessage])

theorem Carries.isRequest {d : PacketDecoder} (h : Carries d.pkt msg)
    (hcc : msg.header .commandClass = discoveryCommand ∨ msg.header .commandClass = getCommand ∨
      msg.header .commandClass = setCommand) : d.isRequest = true := by
  unfold PacketDecoder.isRequest
  rw [h.commandClass]
  rcases hcc with hcc | hcc | hcc <;> rw [hcc] <;> decide

/-- A mute request is one. -/
theorem muteRequest_isMuteRequest (on : Bool) (whom : ℕ) :
    IsMuteRequest (muteRequest (if on then discMute else discUnMute) whom) on := by
  have h := (muteRequest_holds (if on then discMute else discUnMute) whom).carries
  have hc : Carries (PacketDecoder.ofData
    (muteRequest (if on then discMute else discUnMute) whom)).pkt _ := h
  refine ⟨hc.isRdm, hc.isRequest (by simp), ?_, ?_⟩
  · rw [hc.commandClass, replyMessage_commandClass]
    rfl
  · rw [hc.pid, replyMessage_pid]
    cases on <;> rfl

/-- **A request reaches the device it names**, and no other. -/
theorem Carries.addressed (h : Carries f.data msg) (hlt : msg.header .destination < broadcast) :
    (PacketDecoder.ofData f).destination = msg.header .destination ∧
      ∀ uid, addressed f uid = decide (msg.header .destination = uid) := by
  have hc : Carries (PacketDecoder.ofData f).pkt msg := h
  have hdst : (PacketDecoder.ofData f).destination = msg.header .destination := by
    unfold broadcast at hlt
    rw [hc.destination, Nat.mod_eq_of_lt (by omega)]
  refine ⟨hdst, fun uid => ?_⟩
  have hne : msg.header .destination ≠ broadcast := Nat.ne_of_lt hlt
  simp [Librdm.addressed, PacketDecoder.itIsForMe, hdst, hne, Bool.beq_eq_decide_eq]

theorem muteRequest_addressed (hwhom : whom < broadcast) :
    (PacketDecoder.ofData (muteRequest pid whom)).destination = whom ∧
      ∀ uid, addressed (muteRequest pid whom) uid = decide (whom = uid) := by
  have hdst : (replyMessage RdmApi.myUid whom discoveryCommand pid).header .destination = whom :=
    replyMessage_destination
  have h := (muteRequest_holds pid whom).carries.addressed (by rwa [hdst])
  rwa [hdst] at h

section Discovery

variable (a)

theorem discoveryRequest_isDiscUniqueBranch : IsDiscUniqueBranch (discoveryRequest a) := by
  have hc : Carries (PacketDecoder.ofData (discoveryRequest a)).pkt (discoveryMessage a) :=
    (discoveryRequest_holds a).carries
  have hcc : (discoveryMessage a).header .commandClass = discoveryCommand := by
    simp [discoveryMessage]
  have hpid : (discoveryMessage a).header .pid = discUniqueBranch := by simp [discoveryMessage]
  refine ⟨hc.isRdm, hc.isRequest (Or.inl hcc), ?_, ?_⟩
  · rw [hc.commandClass, hcc]
    rfl
  · rw [hc.pid, hpid]
    rfl

theorem discoveryRequest_pdl : (PacketDecoder.ofData (discoveryRequest a)).pdl = 12 := by
  have hc : Carries (PacketDecoder.ofData (discoveryRequest a)).pkt (discoveryMessage a) :=
    (discoveryRequest_holds a).carries
  rw [hc.pdl_decode (by simp [discoveryMessage])]
  simp [discoveryMessage]

theorem discoveryRequest_source :
    (PacketDecoder.ofData (discoveryRequest a)).source = RdmApi.myUid := by
  have hc : Carries (PacketDecoder.ofData (discoveryRequest a)).pkt (discoveryMessage a) :=
    (discoveryRequest_holds a).carries
  have hsrc : (discoveryMessage a).header .source = RdmApi.myUid := by simp [discoveryMessage]
  rw [hc.source, hsrc]
  rfl

/-- It is addressed to all. -/
theorem discoveryRequest_addressed (uid : ℕ) : addressed (discoveryRequest a) uid = true := by
  have hc : Carries (PacketDecoder.ofData (discoveryRequest a)).pkt (discoveryMessage a) :=
    (discoveryRequest_holds a).carries
  have hdst : (discoveryMessage a).header .destination = broadcast := by simp [discoveryMessage]
  have hdst' : (PacketDecoder.ofData (discoveryRequest a)).destination = broadcast := by
    rw [hc.destination, hdst]
    rfl
  simp [addressed, PacketDecoder.itIsForMe, hdst']

variable {a}

theorem discoveryRequest_lowerUid (h : a.1.toNat < 2 ^ 48) :
    lowerUid (discoveryRequest a) = a.1.toNat := by
  have hr : (discoveryRequest a).data.read (Header.size + 0) 6 =
      ((discoveryMessage a).pd.drop 0).take 6 :=
    (discoveryRequest_holds a).carries.read_pd (by simp [discoveryMessage])
  unfold lowerUid
  rw [show (24 : ℕ) = Header.size + 0 from rfl, hr]
  simp only [discoveryMessage, Message.add_pd, replyMessage_pd, List.nil_append, List.drop_zero]
  rw [List.take_left' (length_beBytes ..), beNat_beBytes_of_lt (by norm_num; omega)]

theorem discoveryRequest_upperUid (h : a.2.toNat < 2 ^ 48) :
    upperUid (discoveryRequest a) = a.2.toNat := by
  have hr : (discoveryRequest a).data.read (Header.size + 6) 6 =
      ((discoveryMessage a).pd.drop 6).take 6 :=
    (discoveryRequest_holds a).carries.read_pd (by simp [discoveryMessage])
  unfold upperUid
  rw [show (30 : ℕ) = Header.size + 6 from rfl, hr]
  simp only [discoveryMessage, Message.add_pd, replyMessage_pd, List.nil_append]
  rw [List.drop_left' (length_beBytes ..), List.take_of_length_le (by simp),
    beNat_beBytes_of_lt (by norm_num; omega)]

end Discovery

/-! ## Get and set requests -/

/-- The message of a get request. -/
def getMessage (who pid : ℕ) : Message :=
  ((((replyMessage RdmApi.myUid who getCommand pid).set .transactionNumber 0).set .portId 0).set
    .messageCount 0).set .subDevice 0

theorem getRequest_holds (who pid : ℕ) : Holds (getRequest who pid) (getMessage who pid) := by
  have hc : Carries ((((PacketEncoder.new clearedBuffer 258).source RdmApi.myUid).destination
      who).commandClass getCommand |>.pid pid).pkt
      (replyMessage RdmApi.myUid who getCommand pid) :=
    ((((Carries.new clearedBuffer 258).setField .source RdmApi.myUid).setField .destination
      who).setField .commandClass getCommand).setField .pid pid
  have hc' : Carries _ (getMessage who pid) :=
    (((hc.setField .transactionNumber 0).setField .portId 0).setField .messageCount 0).setField
      .subDevice 0
  exact hc'.holds (by simp [getMessage])

/-- The message of a set request with some data: the buffer it was built
in shows nowhere. -/
def setMessage (buffer : Mem) (who pid : ℕ) (bs : List UInt8) : Message :=
  ((((((((Message.ofBuffer buffer).set .destination who).set .commandClass setCommand).set .pid
    pid).add bs).set .source RdmApi.myUid).set .transactionNumber 0).set .portId 0).set .messageCount
      0 |>.set .subDevice 0

theorem setRequest_holds (buffer : Mem) (who pid : ℕ) {bs : List UInt8} (hbs : bs.length ≤ 230) :
    Holds (RdmApiSetter.request ⟨(System.set buffer who pid).encoder.addBytes bs⟩)
      (setMessage buffer who pid bs) := by
  have hc : Carries (System.set buffer who pid).encoder.pkt
      ((((Message.ofBuffer buffer).set .destination who).set .commandClass setCommand).set .pid
        pid) :=
    (((Carries.new buffer 256).setField .destination who).setField .commandClass
      setCommand).setField .pid pid
  have hpd : ((((Message.ofBuffer buffer).set .destination who).set .commandClass setCommand).set
      .pid pid).pd = [] := rfl
  have hadd : Carries ((System.set buffer who pid).encoder.addBytes bs).pkt _ :=
    hc.addBytes (by rw [hpd, List.nil_append]; omega)
  have hc' : Carries _ (setMessage buffer who pid bs) :=
    ((((hadd.setField .source RdmApi.myUid).setField .transactionNumber 0).setField .portId
      0).setField .messageCount 0).setField .subDevice 0
  exact hc'.holds (by simpa [setMessage, Message.ofBuffer] using hbs)

/-! ## A request on the bus -/

@[simp] theorem System.request_bus : (s.request f).bus = (s.bus.handleMaster f).1 := rfl

@[simp] theorem System.waitFor_bus : (s.waitFor p).bus = s.bus := rfl

@[simp] theorem System.waitFor_futures : (s.waitFor p).api.futures = s.api.futures := rfl

/-- **A request answered by one frame.** Its future has the frame, and
the list is empty again. -/
theorem System.request_answered (hf : s.api.futures = []) (hout : (s.bus.handleMaster f).2 = [g]) :
    (s.request f).api = ⟨[], Function.update s.api.newFuture.object s.api.next
      ((s.api.newFuture.object s.api.next).set g), s.api.next + 1⟩ := by
  unfold System.request System.handleTx
  simp only [hout, List.foldl_cons, List.foldl_nil]
  have hadd : (s.api.newFuture.addFuture s.api.next).futures = [s.api.next] := by
    unfold RdmApi.addFuture RdmApi.newFuture
    simp [hf]
  unfold RdmApi.handle
  rw [hadd]
  rfl

/-- A future waiting in front takes the frame. -/
theorem System.request_overtaken {ps : List ℕ} (hf : s.api.futures = p :: ps)
    (hp : p ≠ s.api.next) (hout : (s.bus.handleMaster f).2 = [g]) :
    (s.request f).api.futures = [] ∧
      ((s.request f).api.object s.api.next).state = .busy := by
  have hadd : (s.api.newFuture.addFuture s.api.next).futures = p :: (ps ++ [s.api.next]) := by
    unfold RdmApi.addFuture RdmApi.newFuture
    simp [hf]
  unfold System.request System.handleTx
  simp only [hout, List.foldl_cons, List.foldl_nil]
  unfold RdmApi.handle
  rw [hadd]
  refine ⟨rfl, ?_⟩
  simp only
  rw [Function.update_of_ne hp.symm]
  simp [RdmApi.addFuture, RdmApi.newFuture]

end Librdm

end Dmx4Linux2
