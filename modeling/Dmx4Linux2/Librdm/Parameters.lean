import Dmx4Linux2.Librdm.Api

/-!
# librdm — parameters over RDM

A client sets and gets parameters of devices through `RdmApi`. What it
sees is a store with one cell for each device and parameter:
`perform_slaves` says a request acts on the devices as on such a store,
`get_ready` that a get returns the cell, and `read_your_writes` carries
both over any sequence of requests. A set is answered too; no future
waits for that answer, so it is dropped.
-/

namespace Dmx4Linux2

namespace Librdm

/-! ## Requests of a client -/

/-- What a client asks a device for. -/
inductive Query
  | startAddress | identify | deviceInfo
  deriving DecidableEq

namespace Query

/-- The parameter asked for. -/
def pid : Query → ℕ
  | startAddress => dmxStartAddress
  | identify => identifyDevice
  | deviceInfo => Librdm.deviceInfo

/-- Where the value lies in the reply: the start address of a device is
at offset 14 of its device info. -/
def offset : Query → ℕ
  | deviceInfo => 14
  | _ => 0

/-- How many bytes the value has. -/
def size : Query → ℕ
  | identify => 1
  | _ => 2

/-- The value, as the device has it. -/
def value (d : RdmDevice) : Query → ℕ
  | identify => d.identifyOn.toNat
  | _ => d.dmxAddress.toNat

/-- The items of the reply in front of the value. -/
def before (d : RdmDevice) : Query → List PdItem
  | deviceInfo =>
    [.u16 0x100, .u16 d.deviceModelId, .u16 d.productCategory, .u32 d.softwareVersion,
      .u16 d.dmx512Footprint, .u16 d.dmx512Personality]
  | _ => []

/-- The item with the value. -/
def item (d : RdmDevice) : Query → PdItem
  | identify => .u8 d.identifyOn
  | _ => .u16 d.dmxAddress

/-- The items behind it. -/
def behind : Query → List PdItem
  | deviceInfo => [.u16 0, .u8 0]
  | _ => []

end Query

/-- A request of the client. A set is built in a buffer that holds
whatever it held. -/
inductive Request
  | setStartAddress (buffer : Mem) (uid : ℕ) (v : UInt16)
  | setIdentify (buffer : Mem) (uid : ℕ) (v : UInt8)
  | get (q : Query) (uid : ℕ)

namespace Request

/-- The device a request is for. -/
def uid : Request → ℕ
  | setStartAddress _ uid _ | setIdentify _ uid _ | get _ uid => uid

/-- **The store**: what a request does to a device. -/
def apply (r : Request) (d : RdmDevice) : RdmDevice :=
  match r with
  | setStartAddress _ uid v => if d.myUid = uid then { d with dmxAddress := v } else d
  | setIdentify _ uid v => if d.myUid = uid then { d with identifyOn := v } else d
  | get _ _ => d

/-- The start address a request sets on a device. -/
def startAddress? (uid : ℕ) : Request → Option UInt16
  | setStartAddress _ u v => if u = uid then some v else none
  | _ => none

/-- The identify flag a request sets on a device. -/
def identify? (uid : ℕ) : Request → Option UInt8
  | setIdentify _ u v => if u = uid then some v else none
  | _ => none

end Request

/-- The last value set for what a query reads, 0 if there is none. -/
def Query.lastSet (uid : ℕ) (requests : List Request) : Query → ℕ
  | identify => ((requests.filterMap (Request.identify? uid)).getLast?.getD 0).toNat
  | _ => ((requests.filterMap (Request.startAddress? uid)).getLast?.getD 0).toNat

namespace System

/-- The client makes a request. -/
def perform (s : System) : Request → System
  | .setStartAddress buffer uid v => s.commit ((System.set buffer uid dmxStartAddress).addU16 v)
  | .setIdentify buffer uid v => s.commit ((System.set buffer uid identifyDevice).addU8 v)
  | .get q uid => (s.get uid q.pid).1

/-- It makes one after the other. -/
def performAll (s : System) (requests : List Request) : System := requests.foldl perform s

end System

variable {s : System} {d x : RdmDevice} {f : DmxData} {msg : Message} {q : Query} {r : Request}
variable {requests : List Request} {ds : List RdmDevice}

/-! ## The device's side -/

theorem RdmDevice.handle_not_addressed (h : addressed f d.myUid = false) :
    d.handle f = (d, none) := by
  have h' : (PacketDecoder.ofData f).itIsForMe d.myUid = false := h
  unfold RdmDevice.handle
  simp [h']

/-- The command class of a request decides what an addressed device does. -/
theorem RdmDevice.handle_addressed (hc : Carries f.data msg) (ha : addressed f d.myUid = true) :
    (msg.header .commandClass = getCommand → d.handle f = d.handleGet (PacketDecoder.ofData f)) ∧
    (msg.header .commandClass = setCommand → d.handle f = d.handleSet (PacketDecoder.ofData f)) := by
  have hd : Carries (PacketDecoder.ofData f).pkt msg := hc
  have ha' : (PacketDecoder.ofData f).itIsForMe d.myUid = true := ha
  have hguard : ∀ hreq : (PacketDecoder.ofData f).isRequest = true,
      ((PacketDecoder.ofData f).isRdm && ((PacketDecoder.ofData f).isRequest &&
        (PacketDecoder.ofData f).itIsForMe d.myUid)) = true := by
    intro hreq
    rw [hd.isRdm, hreq, ha']
    rfl
  constructor
  · intro hcc
    have hcc' : (PacketDecoder.ofData f).commandClass = getCommand := by
      rw [hd.commandClass, hcc]
      rfl
    unfold RdmDevice.handle
    simp only
    rw [if_pos (hguard (hd.isRequest (Or.inr (Or.inl hcc)))), hcc', if_neg (by decide), if_pos rfl]
  · intro hcc
    have hcc' : (PacketDecoder.ofData f).commandClass = setCommand := by
      rw [hd.commandClass, hcc]
      rfl
    unfold RdmDevice.handle
    simp only
    rw [if_pos (hguard (hd.isRequest (Or.inr (Or.inr hcc)))), hcc', if_neg (by decide),
      if_neg (by decide), if_pos rfl]

/-- `getReply` adds the items of the parameter. -/
theorem RdmDevice.getReply_eq {rdm : PacketDecoder} {e : PacketEncoder} (hpid : rdm.pid = q.pid) :
    d.getReply rdm e =
      (((q.before d ++ q.item d :: q.behind).map Call.addPd).foldl PacketEncoder.call e) := by
  unfold RdmDevice.getReply
  rw [hpid]
  cases q <;> rfl

/-- **The reply to a get**: the value is found at its offset. -/
theorem RdmDevice.handleGet_holds {rdm : PacketDecoder} (hpid : rdm.pid = q.pid) :
    ∃ reply msg, d.handleGet rdm = (d, some reply) ∧ Holds reply msg ∧
      q.offset + q.size ≤ msg.pd.length ∧
      beNat ((msg.pd.drop q.offset).take q.size) = q.value d := by
  set calls := (q.before d ++ q.item d :: q.behind).map Call.addPd with hcalls
  set msg0 := (replyMessage d.myUid rdm.source getCommandResponse deviceInfo).set .portId
    responseTypeAck with hmsg0
  have hc : Carries (d.reply rdm getCommandResponse deviceInfo).pkt msg0 :=
    RdmDevice.reply_carries
  have hpd : (calls.foldl Message.call msg0).pd =
      (q.before d).flatMap PdItem.bytes ++ ((q.item d).bytes ++ q.behind.flatMap PdItem.bytes) := by
    have hitems : Call.items calls = q.before d ++ q.item d :: q.behind := by
      rw [hcalls]
      cases q <;> rfl
    rw [Message.pd_calls, hitems, List.flatMap_append, List.flatMap_cons]
    rfl
  have hbefore : ((q.before d).flatMap PdItem.bytes).length = q.offset := by cases q <;> rfl
  have hitem : (q.item d).bytes.length = q.size := by cases q <;> rfl
  have hbehind : (q.behind.flatMap PdItem.bytes).length ≤ 3 := by cases q <;> decide
  have hoffset : q.offset + q.size ≤ 16 := by cases q <;> decide
  have hlen : (calls.foldl Message.call msg0).pd.length =
      q.offset + (q.size + (q.behind.flatMap PdItem.bytes).length) := by
    rw [hpd, List.length_append, List.length_append, hbefore, hitem]
  refine ⟨_, calls.foldl Message.call msg0, ?_, (hc.calls calls (by omega)).holds (by omega),
    by omega, ?_⟩
  · unfold RdmDevice.handleGet
    rw [RdmDevice.getReply_eq hpid]
  · rw [hpd, List.drop_left' hbefore, List.take_left' hitem]
    cases q with
    | identify => exact beNat_singleton _
    | startAddress => exact beNat_beBytes_of_lt d.dmxAddress.toNat_lt
    | deviceInfo => exact beNat_beBytes_of_lt d.dmxAddress.toNat_lt

/-- **A set request changes what it sets**, and is answered. -/
theorem RdmDevice.handleSet_eq {rdm : PacketDecoder} :
    (∀ v : UInt16, rdm.pid = dmxStartAddress → rdm.pdAt 0 2 = some v.toNat →
      (d.handleSet rdm).1 = { d with dmxAddress := v }) ∧
    (∀ v : UInt8, rdm.pid = identifyDevice → rdm.pdAt 0 1 = some v.toNat →
      (d.handleSet rdm).1 = { d with identifyOn := v }) := by
  unfold RdmDevice.handleSet RdmDevice.applySet
  constructor
  · intro v hpid hv
    rw [hpid, hv]
    simp
  · intro v hpid hv
    rw [hpid, hv]
    simp only
    rw [if_neg (by decide), if_pos trivial]
    simp

/-! ## One request -/

namespace Request

/-- The frame of a request. -/
def frame : Request → DmxData
  | setStartAddress buffer uid v => ((System.set buffer uid dmxStartAddress).addU16 v).request
  | setIdentify buffer uid v => ((System.set buffer uid identifyDevice).addU8 v).request
  | get q uid => getRequest uid q.pid

/-- The message of a request. -/
def message : Request → Message
  | setStartAddress buffer uid v => setMessage buffer uid dmxStartAddress (beBytes 2 v.toNat)
  | setIdentify buffer uid v => setMessage buffer uid identifyDevice [v]
  | get q uid => getMessage uid q.pid

theorem frame_holds (r : Request) : Holds r.frame r.message := by
  cases r with
  | setStartAddress buffer uid v =>
    have hlen : (beBytes 2 v.toNat).length ≤ 230 := by simp
    exact setRequest_holds buffer uid dmxStartAddress hlen
  | setIdentify buffer uid v =>
    have hlen : [v].length ≤ 230 := by simp
    exact setRequest_holds buffer uid identifyDevice hlen
  | get q uid => exact getRequest_holds uid q.pid

theorem message_destination (r : Request) : r.message.header .destination = r.uid := by
  cases r <;> simp [message, setMessage, getMessage, uid]

theorem frame_addressed (h : r.uid < broadcast) (uid : ℕ) :
    addressed r.frame uid = decide (r.uid = uid) := by
  have hlt : r.message.header .destination < broadcast := by rwa [message_destination]
  rw [(r.frame_holds.carries.addressed hlt).2, message_destination]

@[simp] theorem apply_myUid (r : Request) (d : RdmDevice) : (r.apply d).myUid = d.myUid := by
  unfold apply
  cases r with
  | get q uid => rfl
  | setStartAddress buffer uid v => simp only; split <;> rfl
  | setIdentify buffer uid v => simp only; split <;> rfl

end Request

/-- **A device handles a request as the store does**; the one it is for
answers. -/
theorem RdmDevice.handle_frame (h : r.uid < broadcast) : (d.handle r.frame).1 = r.apply d := by
  have hc := r.frame_holds.carries
  have hdec : Carries (PacketDecoder.ofData r.frame).pkt r.message := hc
  by_cases hd : r.uid = d.myUid
  · have ha : addressed r.frame d.myUid = true := by
      rw [Request.frame_addressed h]
      exact decide_eq_true hd
    cases r with
    | get q uid =>
      rw [(handle_addressed hc ha).1 (by simp [Request.message, getMessage])]
      rfl
    | setStartAddress buffer uid v =>
      rw [(handle_addressed hc ha).2 (by simp [Request.message, setMessage])]
      have hpid : (PacketDecoder.ofData (Request.setStartAddress buffer uid v).frame).pid =
          dmxStartAddress := by
        rw [hdec.pid]
        simp [Request.message, setMessage, dmxStartAddress]
      have hpd : (Request.setStartAddress buffer uid v).message.pd = beBytes 2 v.toNat := rfl
      have hv : (PacketDecoder.ofData (Request.setStartAddress buffer uid v).frame).pdAt 0 2 =
          some v.toNat := by
        rw [hdec.pdAt (by rw [hpd]; simp) (by rw [hpd]; simp), hpd, List.drop_zero,
          List.take_of_length_le (by simp), beNat_beBytes_of_lt v.toNat_lt]
      rw [handleSet_eq.1 v hpid hv]
      have huid : d.myUid = uid := hd.symm
      simp only [Request.apply]
      rw [if_pos huid]
    | setIdentify buffer uid v =>
      rw [(handle_addressed hc ha).2 (by simp [Request.message, setMessage])]
      have hpid : (PacketDecoder.ofData (Request.setIdentify buffer uid v).frame).pid =
          identifyDevice := by
        rw [hdec.pid]
        simp [Request.message, setMessage, identifyDevice]
      have hpd : (Request.setIdentify buffer uid v).message.pd = [v] := rfl
      have hv : (PacketDecoder.ofData (Request.setIdentify buffer uid v).frame).pdAt 0 1 =
          some v.toNat := by
        rw [hdec.pdAt (by rw [hpd]; simp) (by rw [hpd]; simp), hpd, List.drop_zero,
          List.take_of_length_le (by simp), beNat_singleton]
      rw [handleSet_eq.2 v hpid hv]
      have huid : d.myUid = uid := hd.symm
      simp only [Request.apply]
      rw [if_pos huid]
  · have ha : addressed r.frame d.myUid = false := by
      rw [Request.frame_addressed h]
      exact decide_eq_false hd
    rw [handle_not_addressed ha]
    cases r with
    | get q uid => rfl
    | setStartAddress buffer uid v => exact (if_neg (Ne.symm hd)).symm
    | setIdentify buffer uid v => exact (if_neg (Ne.symm hd)).symm

/-- **A unicast request is answered by one device alone.** -/
theorem replies_unicast (h : r.uid < broadcast) (hnodup : (ds.map RdmDevice.myUid).Nodup)
    (hx : x ∈ ds) (hxr : r.uid = x.myUid) : replies r.frame ds = (x.handle r.frame).2.toList := by
  induction ds with
  | nil => exact absurd hx List.not_mem_nil
  | cons d ds ih =>
    rw [List.map_cons, List.nodup_cons] at hnodup
    unfold replies at ih ⊢
    rw [List.filterMap_cons]
    rcases List.mem_cons.1 hx with rfl | hx
    · have hrest : ds.filterMap (fun d => (d.handle r.frame).2) = [] := by
        refine List.filterMap_eq_nil_iff.2 fun d hd => ?_
        have hne : r.uid ≠ d.myUid := fun he =>
          hnodup.1 (by rw [← hxr, he]; exact List.mem_map_of_mem hd)
        rw [RdmDevice.handle_not_addressed (by
          rw [Request.frame_addressed h]
          exact decide_eq_false hne)]
      rw [hrest]
      cases (x.handle r.frame).2 <;> rfl
    · have hne : r.uid ≠ d.myUid := fun he =>
        hnodup.1 (by rw [← he, hxr]; exact List.mem_map_of_mem hx)
      rw [RdmDevice.handle_not_addressed (d := d) (by
        rw [Request.frame_addressed h]
        exact decide_eq_false hne)]
      exact ih hnodup.2 hx

/-- It is no discovery request, so the bus hands its answer on. -/
theorem Request.frame_not_discUniqueBranch (r : Request) : ¬ IsDiscUniqueBranch r.frame := by
  intro hd
  have hdec : Carries (PacketDecoder.ofData r.frame).pkt r.message := r.frame_holds.carries
  have hcc := hd.commandClass
  rw [hdec.commandClass] at hcc
  cases r <;> simp [message, setMessage, getMessage] at hcc <;> exact absurd hcc (by decide)

/-! ## The system between two requests -/

/-- No future waits, nothing is queued, and a UID names one device. -/
structure Serving (s : System) : Prop where
  futures : s.api.futures = []
  rxqueue : s.bus.rxqueue = []
  nodup : (s.bus.slaves.map RdmDevice.myUid).Nodup

/-- **The request is unicast to a device that is there.** -/
def Unicast (r : Request) (ds : List RdmDevice) : Prop :=
  r.uid < broadcast ∧ ∃ x ∈ ds, r.uid = x.myUid

theorem System.perform_bus : (s.perform r).bus = (s.bus.handleMaster r.frame).1 := by
  cases r <;> rfl

/-- **A request acts on the devices as on a store.** -/
theorem Serving.perform_slaves (h : Serving s) (hr : r.uid < broadcast) :
    (s.perform r).bus.slaves = s.bus.slaves.map r.apply := by
  rw [System.perform_bus, DmxBus.handleMaster_slaves h.rxqueue]
  exact List.map_congr_left fun d _ => RdmDevice.handle_frame hr

/-- A frame nobody waits for is dropped. -/
theorem RdmApi.foldl_handle_of_nil {api : RdmApi} (h : api.futures = []) (gs : List DmxData) :
    gs.foldl RdmApi.handle api = api := by
  induction gs with
  | nil => rfl
  | cons g gs ih =>
    have hg : api.handle g = api := by
      unfold RdmApi.handle
      rw [h]
    rw [List.foldl_cons, hg, ih]

/-- **A get returns the value.** Its future is ready when the call
returns, no future waits, and the earlier ones are as they were. -/
theorem Serving.get_ready (h : Serving s) (hr : Unicast (.get q x.myUid) s.bus.slaves)
    (hx : x ∈ s.bus.slaves) :
    (s.perform (.get q x.myUid)).api.futures = [] ∧
    (s.perform (.get q x.myUid)).api.next = s.api.next + 1 ∧
    (∀ p, p ≠ s.api.next →
      (s.perform (.get q x.myUid)).api.object p = s.api.object p) ∧
    ((s.perform (.get q x.myUid)).api.object s.api.next).state = .ready ∧
    ∀ t, ((s.perform (.get q x.myUid)).api.object s.api.next).valueAt q.offset q.size t =
      q.value x := by
  have hdec : Carries (PacketDecoder.ofData (Request.get q x.myUid).frame).pkt
      (Request.get q x.myUid).message := (Request.get q x.myUid).frame_holds.carries
  have hpid : (PacketDecoder.ofData (Request.get q x.myUid).frame).pid = q.pid := by
    rw [hdec.pid]
    cases q <;> simp [Request.message, getMessage, Query.pid] <;> decide
  obtain ⟨reply, msg, hreply, hholds, hsize, hvalue⟩ := RdmDevice.handleGet_holds (d := x) hpid
  have ha : addressed (Request.get q x.myUid).frame x.myUid = true := by
    rw [Request.frame_addressed hr.1]
    exact decide_eq_true rfl
  have hhandle : (x.handle (Request.get q x.myUid).frame).2 = some reply := by
    rw [(RdmDevice.handle_addressed hdec ha).1 (by simp [Request.message, getMessage]), hreply]
  have hout : (s.bus.handleMaster (Request.get q x.myUid).frame).2 =
      [DmxData.ofVector reply.bytes] := by
    rw [DmxBus.handleMaster_of_not_discUniqueBranch h.rxqueue
      (Request.frame_not_discUniqueBranch _), replies_unicast hr.1 h.nodup hx rfl, hhandle]
    rfl
  have happ : (s.perform (.get q x.myUid)).api = _ := System.request_answered h.futures hout
  have hcarries : ∀ fut : RdmFuture, Carries (fut.set (DmxData.ofVector reply.bytes)).buffer msg :=
    fun fut => RdmFuture.set_carries hholds.ofVector
  have hfits := hholds.fits
  rw [happ]
  refine ⟨rfl, rfl, fun p hp => ?_, ?_, ?_⟩
  · simp only
    rw [Function.update_of_ne hp]
    exact Function.update_of_ne hp ..
  · simp only [Function.update_self, RdmFuture.set_state]
  · intro t
    simp only [Function.update_self]
    unfold RdmFuture.valueAt
    rw [if_pos (RdmFuture.okay_of_ready RdmFuture.set_state)]
    have hc : Carries (RdmFuture.dec ((s.api.newFuture.object s.api.next).set
      (DmxData.ofVector reply.bytes))).pkt msg := hcarries _
    rw [hc.pdAt (by omega) hsize, hvalue, Option.getD_some]

/-- A set leaves the controller as it was. -/
theorem Serving.set_api (h : Serving s) (hr : ∀ q uid, r ≠ .get q uid) :
    (s.perform r).api = s.api := by
  cases r with
  | get q uid => exact absurd rfl (hr q uid)
  | setStartAddress buffer uid v => exact RdmApi.foldl_handle_of_nil h.futures _
  | setIdentify buffer uid v => exact RdmApi.foldl_handle_of_nil h.futures _

/-- **One request**: the system serves again, and the futures returned
before are as they were. -/
theorem Serving.perform (h : Serving s) (hr : Unicast r s.bus.slaves) :
    Serving (s.perform r) ∧ s.api.next ≤ (s.perform r).api.next ∧
      ∀ p < s.api.next, (s.perform r).api.object p = s.api.object p := by
  have hq : (s.perform r).bus.rxqueue = [] := by
    rw [System.perform_bus, DmxBus.handleMaster_rxqueue]
  have hnodup : ((s.perform r).bus.slaves.map RdmDevice.myUid).Nodup := by
    rw [h.perform_slaves hr.1, List.map_map]
    have hid : RdmDevice.myUid ∘ r.apply = RdmDevice.myUid := funext fun d => r.apply_myUid d
    rw [hid]
    exact h.nodup
  by_cases hget : ∃ q uid, r = .get q uid
  · obtain ⟨q, uid, rfl⟩ := hget
    obtain ⟨x, hx, hxu⟩ := hr.2
    obtain rfl : uid = x.myUid := hxu
    obtain ⟨hf, hnext, hobj, -, -⟩ := h.get_ready hr hx
    exact ⟨⟨hf, hq, hnodup⟩, by omega, fun p hp => hobj p (Nat.ne_of_lt hp)⟩
  · have hapi := h.set_api (r := r) fun q uid he => hget ⟨q, uid, he⟩
    refine ⟨⟨?_, hq, hnodup⟩, ?_, fun p _ => ?_⟩
    · rw [hapi]
      exact h.futures
    · rw [hapi]
    · rw [hapi]

/-! ## Any sequence of requests -/

/-- The device after the requests, as a store. -/
def RdmDevice.afterAll (requests : List Request) (d : RdmDevice) : RdmDevice :=
  requests.foldl (fun d r => r.apply d) d

@[simp] theorem RdmDevice.afterAll_myUid (requests : List Request) (d : RdmDevice) :
    (d.afterAll requests).myUid = d.myUid := by
  induction requests generalizing d with
  | nil => rfl
  | cons r requests ih =>
    refine (ih (r.apply d)).trans ?_
    exact r.apply_myUid d

/-- **The run**: the system still serves, its devices are those of the
store, and the futures returned before are as they were. -/
theorem Serving.performAll (h : Serving s) (hr : ∀ r ∈ requests, Unicast r s.bus.slaves) :
    Serving (s.performAll requests) ∧
      (s.performAll requests).bus.slaves = s.bus.slaves.map (RdmDevice.afterAll requests) ∧
      ∀ p < s.api.next, (s.performAll requests).api.object p = s.api.object p := by
  induction requests generalizing s with
  | nil => exact ⟨h, (List.map_id _).symm, fun _ _ => rfl⟩
  | cons r requests ih =>
    have hr0 : Unicast r s.bus.slaves := hr r List.mem_cons_self
    obtain ⟨h', hnext, hobj⟩ := h.perform hr0
    have hslaves := h.perform_slaves hr0.1
    have hrest : ∀ r' ∈ requests, Unicast r' (s.perform r).bus.slaves := by
      intro r' hr'
      obtain ⟨hlt, x, hx, hxu⟩ := hr r' (List.mem_cons_of_mem _ hr')
      refine ⟨hlt, r.apply x, ?_, by rw [Request.apply_myUid, hxu]⟩
      rw [hslaves]
      exact List.mem_map_of_mem hx
    obtain ⟨hend, hds, hobjs⟩ := ih h' hrest
    refine ⟨hend, ?_, fun p hp => ?_⟩
    · rw [System.performAll, List.foldl_cons, ← System.performAll, hds, hslaves, List.map_map]
      rfl
    · rw [System.performAll, List.foldl_cons, ← System.performAll, hobjs p (by omega), hobj p hp]

/-- **The store holds the values set last.** -/
theorem RdmDevice.value_afterAll (requests : List Request) (hd : d.dmxAddress = 0 ∧ d.identifyOn = 0)
    (q : Query) : q.value (d.afterAll requests) = q.lastSet d.myUid requests := by
  have key : ∀ (d : RdmDevice),
      (d.afterAll requests).dmxAddress =
        (requests.filterMap (Request.startAddress? d.myUid)).getLast?.getD d.dmxAddress ∧
      (d.afterAll requests).identifyOn =
        (requests.filterMap (Request.identify? d.myUid)).getLast?.getD d.identifyOn := by
    induction requests with
    | nil => exact fun d => ⟨rfl, rfl⟩
    | cons r requests ih =>
      intro d
      have hcons : d.afterAll (r :: requests) = (r.apply d).afterAll requests := rfl
      rw [hcons, (ih (r.apply d)).1, (ih (r.apply d)).2, Request.apply_myUid]
      cases r with
      | get q uid => exact ⟨rfl, rfl⟩
      | setStartAddress buffer uid v =>
        by_cases hu : d.myUid = uid
        · simp [Request.apply, Request.startAddress?, Request.identify?, hu, List.getLast?_cons]
        · simp [Request.apply, Request.startAddress?, Request.identify?, hu, Ne.symm hu]
      | setIdentify buffer uid v =>
        by_cases hu : d.myUid = uid
        · simp [Request.apply, Request.startAddress?, Request.identify?, hu, List.getLast?_cons]
        · simp [Request.apply, Request.startAddress?, Request.identify?, hu, Ne.symm hu]
  obtain ⟨haddr, hident⟩ := key d
  rw [hd.1] at haddr
  rw [hd.2] at hident
  cases q with
  | startAddress => exact congrArg UInt16.toNat haddr
  | identify => exact congrArg UInt8.toNat hident
  | deviceInfo => exact congrArg UInt16.toNat haddr

/-- **Read your writes.** Over any sequence of unicast requests to the
devices on the bus, every get has returned a future that is ready and
holds the value set last for that device and that parameter, 0 if there
is none; and each request has changed nothing on any device but what it
set. -/
theorem read_your_writes (ds : List RdmDevice) (hnodup : (ds.map RdmDevice.myUid).Nodup)
    (hzero : ∀ d ∈ ds, d.dmxAddress = 0 ∧ d.identifyOn = 0) (object : ℕ → RdmFuture)
    (requests : List Request) (hr : ∀ r ∈ requests, Unicast r ds) :
    let sys : System := ⟨RdmApi.new object, DmxBus.new ds⟩
    (∀ pre q uid post, requests = pre ++ .get q uid :: post →
      ((sys.performAll requests).api.object (sys.performAll pre).api.next).state = .ready ∧
      ∀ t, ((sys.performAll requests).api.object (sys.performAll pre).api.next).valueAt
        q.offset q.size t = q.lastSet uid pre) ∧
    (∀ pre r post, requests = pre ++ r :: post →
      (sys.performAll (pre ++ [r])).bus.slaves = (sys.performAll pre).bus.slaves.map r.apply) := by
  intro sys
  have hsys : Serving sys := ⟨rfl, rfl, hnodup⟩
  have happend : ∀ a b, sys.performAll (a ++ b) = (sys.performAll a).performAll b := fun a b =>
    List.foldl_append
  have hunicast : ∀ (pre : List Request) (r : Request), Unicast r ds →
      Unicast r (ds.map (RdmDevice.afterAll pre)) := by
    rintro pre r ⟨hlt, x, hx, hxu⟩
    exact ⟨hlt, x.afterAll pre, List.mem_map_of_mem hx, by rw [RdmDevice.afterAll_myUid, hxu]⟩
  constructor
  · rintro pre q uid post rfl
    have hpre : ∀ r ∈ pre, Unicast r sys.bus.slaves := fun r hmem =>
      hr r (List.mem_append_left _ hmem)
    obtain ⟨hserving, hslaves, -⟩ := hsys.performAll hpre
    obtain ⟨hlt, x, hx, hxu⟩ := hr (.get q uid) (by simp)
    obtain rfl : uid = x.myUid := hxu
    have hslaves' : (sys.performAll pre).bus.slaves = ds.map (RdmDevice.afterAll pre) := hslaves
    have hmem : x.afterAll pre ∈ (sys.performAll pre).bus.slaves := by
      rw [hslaves']
      exact List.mem_map_of_mem hx
    have hget : Unicast (.get q (x.afterAll pre).myUid) (sys.performAll pre).bus.slaves := by
      rw [hslaves', RdmDevice.afterAll_myUid]
      exact hunicast pre _ ⟨hlt, x, hx, rfl⟩
    obtain ⟨-, hnext, -, hstate, hvalue⟩ := hserving.get_ready hget hmem
    obtain ⟨hserving', -, -⟩ := hserving.perform hget
    rw [RdmDevice.afterAll_myUid] at hnext hstate hvalue hserving' hget
    -- the requests behind the get leave its future alone
    have hsame : ((sys.performAll pre).perform (.get q x.myUid)).bus.slaves =
        ds.map (RdmDevice.afterAll pre) := by
      rw [hserving.perform_slaves hget.1, hslaves']
      exact List.map_id _
    have hpost : ∀ r ∈ post,
        Unicast r ((sys.performAll pre).perform (.get q x.myUid)).bus.slaves := by
      intro r hmem'
      rw [hsame]
      exact hunicast pre r (hr r (by simp [hmem']))
    obtain ⟨-, -, hobj⟩ := hserving'.performAll hpost
    rw [happend, System.performAll, List.foldl_cons, ← System.performAll, hobj _ (by omega)]
    refine ⟨hstate, fun t => ?_⟩
    rw [hvalue, RdmDevice.value_afterAll pre (hzero x hx)]
  · rintro pre r post rfl
    have hpre : ∀ r ∈ pre, Unicast r sys.bus.slaves := fun r hmem =>
      hr r (List.mem_append_left _ hmem)
    obtain ⟨hserving, -, -⟩ := hsys.performAll hpre
    rw [happend]
    exact hserving.perform_slaves (hr r (by simp)).1

/-- The start addresses of two devices are set. -/
def exampleSets : List Request :=
  [.setStartAddress (fun _ => 0xEE) 5 0x0102, .setStartAddress (fun _ => 0xEE) 6 0x0304,
    .setIdentify (fun _ => 0xEE) 5 1]

/-- Two devices and a controller. -/
def exampleSystem : System :=
  ⟨RdmApi.new fun _ => ⟨fun _ => 0xEE, .timeout⟩, DmxBus.new [RdmDevice.new 5, RdmDevice.new 6]⟩

/-- The first one is read back in the device info. -/
theorem read_your_writes_example :
    ((exampleSystem.performAll (exampleSets ++ [.get .deviceInfo 5])).api.object
      (exampleSystem.performAll exampleSets).api.next).state = .ready ∧
    ∀ t, ((exampleSystem.performAll (exampleSets ++ [.get .deviceInfo 5])).api.object
      (exampleSystem.performAll exampleSets).api.next).valueAt 14 2 t = 0x0102 := by
  have hr : ∀ r ∈ exampleSets ++ [.get .deviceInfo 5],
      Unicast r [RdmDevice.new 5, RdmDevice.new 6] := by
    intro r hr
    simp only [exampleSets, List.cons_append, List.nil_append, List.mem_cons, List.not_mem_nil,
      or_false] at hr
    rcases hr with rfl | rfl | rfl | rfl <;>
      exact ⟨by decide, by simp [Request.uid, RdmDevice.new]⟩
  have hread := (read_your_writes [RdmDevice.new 5, RdmDevice.new 6] (by decide) (by decide)
    (fun _ => ⟨fun _ => 0xEE, .timeout⟩) (exampleSets ++ [.get .deviceInfo 5]) hr).1 exampleSets
    .deviceInfo 5 [] rfl
  have hlast : Query.deviceInfo.lastSet 5 exampleSets = 0x0102 := rfl
  rw [hlast] at hread
  exact hread

end Librdm

end Dmx4Linux2
