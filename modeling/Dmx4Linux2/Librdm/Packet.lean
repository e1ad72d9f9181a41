import Dmx4Linux2.Librdm.Model.Packet
import Mathlib.Data.List.TakeWhile
import Mathlib.Logic.Function.Basic

/-!
# librdm — what a packet says

A `Message` is a packet in its own terms: a value for every header field
and the parameter data. `Carries` says a memory holds one,
`Sealed` that it is also closed by its length byte and its checksum.
Each encoder method acts on the message as its name says
(`Carries.setField`, `Carries.addBytes`, `Carries.finalize`), and each
decoder method reads the message back, so what the rest of the library
knows about a packet is the message, never its bytes.
-/

namespace Dmx4Linux2

namespace Librdm

/-! ## Messages -/

/-- The header fields a sender chooses. -/
inductive HeaderField
  | destination | source | transactionNumber | portId | messageCount
  | subDevice | commandClass | pid
  deriving DecidableEq, Repr

namespace HeaderField

/-- Where a field lies in the header. -/
def offset : HeaderField → ℕ
  | destination => Header.dstUid
  | source => Header.srcUid
  | transactionNumber => Header.tn
  | portId => Header.portId
  | messageCount => Header.msgCount
  | subDevice => Header.subDevice
  | commandClass => Header.cc
  | pid => Header.pid

/-- How many bytes a field has. -/
def width : HeaderField → ℕ
  | destination | source => 6
  | subDevice | pid => 2
  | _ => 1

/-- A field lies behind the length byte and before `PDL`. -/
theorem offset_bounds (f : HeaderField) : 3 ≤ f.offset ∧ f.offset + f.width ≤ 23 := by
  cases f <;> decide

/-- **Two fields do not overlap.** -/
theorem disjoint {f g : HeaderField} (h : f ≠ g) :
    f.offset + f.width ≤ g.offset ∨ g.offset + g.width ≤ f.offset := by
  cases f <;> cases g <;> first | exact absurd rfl h | decide

end HeaderField

/-- **A packet in its own terms**: the header values and the parameter
data. -/
structure Message where
  header : HeaderField → ℕ
  pd : List UInt8

namespace Message

/-- The message with one header value replaced. -/
def set (msg : Message) (f : HeaderField) (v : ℕ) : Message :=
  { msg with header := Function.update msg.header f v }

/-- The message with parameter data appended. -/
def add (msg : Message) (bs : List UInt8) : Message := { msg with pd := msg.pd ++ bs }

@[simp] theorem set_pd (msg : Message) (f : HeaderField) (v : ℕ) : (msg.set f v).pd = msg.pd := rfl

@[simp] theorem add_pd (msg : Message) (bs : List UInt8) : (msg.add bs).pd = msg.pd ++ bs := rfl

@[simp] theorem add_header (msg : Message) (bs : List UInt8) : (msg.add bs).header = msg.header :=
  rfl

@[simp] theorem set_header_self (msg : Message) (f : HeaderField) (v : ℕ) :
    (msg.set f v).header f = v := Function.update_self ..

@[simp] theorem set_header_of_ne (msg : Message) {f g : HeaderField} (h : g ≠ f) (v : ℕ) :
    (msg.set f v).header g = msg.header g := Function.update_of_ne h ..

end Message

variable {m m' : Mem} {msg : Message} {e : PacketEncoder} {f : HeaderField} {v : ℕ}
variable {bs : List UInt8}

/-- **The memory holds the message**: its start codes, its header values
and its parameter data, with `PDL` counting them. -/
structure Carries (m : Mem) (msg : Message) : Prop where
  startCode : m Header.startCode = UInt8.ofNat scRdm
  subStartCode : m Header.subStartCode = UInt8.ofNat scSubMessage
  header : ∀ f : HeaderField, m.read f.offset f.width = beBytes f.width (msg.header f)
  pdl : m Header.pdl = UInt8.ofNat msg.pd.length
  pd : m.read Header.size msg.pd.length = msg.pd

/-- **The packet is closed**: the length byte counts header and data, and
the checksum behind them is the sum of the bytes counted. -/
structure Sealed (m : Mem) (msg : Message) : Prop extends Carries m msg where
  msgLength : m Header.msgLength = UInt8.ofNat (Header.size + msg.pd.length)
  checksum : m.read (Header.size + msg.pd.length) 2 =
    beBytes 2 (m.sum16 0 (Header.size + msg.pd.length))

/-! ## The encoder acts on the message -/

theorem PacketEncoder.storeUid_pkt (p uid : ℕ) :
    (e.storeUid p uid).pkt = e.pkt.write p (beBytes 6 uid) := by
  have h := beBytes_add 2 4 uid
  rw [show (256 : ℕ) ^ 4 = 2 ^ 32 by norm_num] at h
  rw [h, Mem.write_append, length_beBytes]
  rfl

/-- The setters, by the field they set. -/
def PacketEncoder.setField (e : PacketEncoder) : HeaderField → ℕ → PacketEncoder
  | .destination, v => e.destination v
  | .source, v => e.source v
  | .transactionNumber, v => e.transactionNumber v
  | .portId, v => e.portId v
  | .messageCount, v => e.messageCount v
  | .subDevice, v => e.subDevice v
  | .commandClass, v => e.commandClass v
  | .pid, v => e.pid v

/-- **A setter stores its value, most significant byte first.** -/
theorem PacketEncoder.setField_pkt :
    (e.setField f v).pkt = e.pkt.write f.offset (beBytes f.width v) := by
  cases f <;> first | exact storeUid_pkt .. | rfl

theorem Carries.pdl_eq (h : Carries e.pkt msg) (hlen : msg.pd.length < 256) :
    e.pdl = msg.pd.length := by
  rw [PacketEncoder.pdl, h.pdl, UInt8.toNat_ofNat', Nat.mod_eq_of_lt hlen]

/-- The message a fresh encoder starts from: no data, and in the header
whatever the buffer held. -/
def Message.ofBuffer (buffer : Mem) : Message where
  header f := beNat (buffer.read f.offset f.width)
  pd := []

/-- Bytes are the big-endian bytes of the number they spell. -/
theorem beBytes_beNat (bs : List UInt8) : beBytes bs.length (beNat bs) = bs := by
  have key : ∀ cs : List UInt8, leBytes cs.length (leNat cs) = cs := by
    intro cs
    induction cs with
    | nil => rfl
    | cons c cs ih =>
      have hc := c.toNat_lt
      rw [leNat_cons, List.length_cons, leBytes, show (c.toNat + 256 * leNat cs) / 256 = leNat cs by
        omega, ih]
      congr 1
      apply UInt8.toNat_inj.1
      rw [UInt8.toNat_ofNat']
      omega
  rw [beBytes, beNat]
  have h := key bs.reverse
  rw [List.length_reverse] at h
  rw [h, List.reverse_reverse]

/-- The constructor writes the start codes and an empty `PDL`. -/
theorem Carries.new (buffer : Mem) (n : ℕ) :
    Carries (PacketEncoder.new buffer n).pkt (Message.ofBuffer buffer) where
  startCode := rfl
  subStartCode := rfl
  header f := by
    obtain ⟨hlo, hhi⟩ := f.offset_bounds
    have hb := beBytes_beNat (buffer.read f.offset f.width)
    rw [Mem.length_read] at hb
    simp only [PacketEncoder.new, Message.ofBuffer]
    rw [hb, Mem.read_write_outside (by simp; omega), Mem.read_write_outside (by simp; omega),
      Mem.read_write_outside (by simp; omega)]
  pdl := rfl
  pd := rfl

/-- **A setter replaces its header value and nothing else.** -/
theorem Carries.setField (h : Carries e.pkt msg) (f : HeaderField) (v : ℕ) :
    Carries (e.setField f v).pkt (msg.set f v) := by
  obtain ⟨hlo, hhi⟩ := f.offset_bounds
  rw [PacketEncoder.setField_pkt]
  constructor
  · rw [Mem.write_apply_outside (by simp; omega), h.startCode]
  · rw [Mem.write_apply_outside (by simp; omega), h.subStartCode]
  · intro g
    by_cases hg : g = f
    · subst hg
      rw [Mem.read_write_of_length (length_beBytes ..), Message.set_header_self]
    · have hd := HeaderField.disjoint hg
      rw [Mem.read_write_outside (by simpa using hd), h.header, Message.set_header_of_ne _ hg]
  · rw [Mem.write_apply_outside (by simp; omega), h.pdl, Message.set_pd]
  · rw [Mem.read_write_outside (by simp; omega), Message.set_pd, h.pd]

/-- **`addPd` appends to the data and nothing else**, as long as `PDL`
can count them. -/
theorem Carries.addBytes (h : Carries e.pkt msg) (hlen : (msg.pd ++ bs).length < 256) :
    Carries (e.addBytes bs).pkt (msg.add bs) := by
  rw [List.length_append] at hlen
  have hpdl : e.pdl = msg.pd.length := h.pdl_eq (by omega)
  simp only [PacketEncoder.addBytes, PacketEncoder.store, hpdl]
  constructor
  · rw [Mem.write_apply_outside (by simp), Mem.write_apply_outside (by simp), h.startCode]
  · rw [Mem.write_apply_outside (by simp), Mem.write_apply_outside (by simp; omega),
      h.subStartCode]
  · intro f
    obtain ⟨hlo, hhi⟩ := f.offset_bounds
    rw [Mem.read_write_outside (by simp; omega), Mem.read_write_outside (by simp; omega), h.header,
      Message.add_header]
  · rw [← List.length_append]
    exact Mem.write_apply_add (p := Header.pdl) (i := 0) (by simp)
  · rw [Message.add_pd, List.length_append, Mem.read_write_outside (by simp), Mem.read_add,
      Mem.read_write_outside (by simp), h.pd, Mem.read_write]

/-- **`finalize` closes the packet.** -/
theorem Carries.finalize (h : Carries e.pkt msg) (hlen : msg.pd.length ≤ 231) :
    Sealed e.finalize.pkt msg := by
  have hpdl : e.pdl = msg.pd.length := h.pdl_eq (by omega)
  set e' := e.store Header.msgLength [UInt8.ofNat (Header.size + e.pdl)] with he'
  have hpkt : e'.pkt = e.pkt.write Header.msgLength [UInt8.ofNat (Header.size + msg.pd.length)] := by
    rw [he', PacketEncoder.store, hpdl]
  have hlow : ∀ i, i ≠ Header.msgLength → e'.pkt i = e.pkt i := fun i hi => by
    rw [hpkt, Mem.write_apply_outside (by simp at hi ⊢; omega)]
  have hlowr : ∀ p n, Header.msgLength < p → e'.pkt.read p n = e.pkt.read p n := fun p n hp =>
    Mem.read_congr fun i _ => hlow _ (by omega)
  have hml : e'.pkt Header.msgLength = UInt8.ofNat (Header.size + msg.pd.length) := by
    rw [hpkt]
    exact Mem.write_apply_add (p := Header.msgLength) (i := 0) (by simp)
  have hfin : e.finalize.pkt = e'.pkt.write (Header.size + msg.pd.length)
      (beBytes 2 (e'.pkt.sum16 0 (Header.size + msg.pd.length))) := by
    have h1 : e'.msgLength = Header.size + msg.pd.length := by
      rw [PacketEncoder.msgLength, hml, UInt8.toNat_ofNat', Nat.mod_eq_of_lt (by simp; omega)]
    have h2 : e'.pdl = msg.pd.length := by
      rw [PacketEncoder.pdl, hlow _ (by simp)]
      exact hpdl
    rw [PacketEncoder.finalize, ← he', h1, h2]
    rfl
  -- everything in front of the checksum is as it was before it was stored
  have hbyte : ∀ i, i < Header.size → e.finalize.pkt i = e'.pkt i := fun i hi => by
    rw [hfin, Mem.write_apply_of_lt (by omega)]
  have hread : ∀ p n, p + n ≤ Header.size + msg.pd.length →
      e.finalize.pkt.read p n = e'.pkt.read p n := fun p n hpn => by
    rw [hfin, Mem.read_write_outside (Or.inl hpn)]
  refine ⟨⟨?_, ?_, fun f => ?_, ?_, ?_⟩, ?_, ?_⟩
  · rw [hbyte _ (by simp), hlow _ (by simp), h.startCode]
  · rw [hbyte _ (by simp), hlow _ (by simp), h.subStartCode]
  · obtain ⟨hlo, hhi⟩ := f.offset_bounds
    rw [hread _ _ (by simp; omega), hlowr _ _ (by simp; omega), h.header]
  · rw [hbyte _ (by simp), hlow _ (by simp), h.pdl]
  · rw [hread _ _ le_rfl, hlowr _ _ (by simp), h.pd]
  · rw [hbyte _ (by simp), hml]
  · rw [Mem.sum16_congr (hread 0 _ (by simp)), hfin,
      Mem.read_write_of_length (length_beBytes ..)]

/-- `size()` counts header, data and checksum. -/
theorem Sealed.size_eq (h : Sealed e.pkt msg) (hlen : msg.pd.length ≤ 231) :
    e.size = 26 + msg.pd.length := by
  rw [PacketEncoder.size, PacketEncoder.msgLength, h.msgLength, UInt8.toNat_ofNat']
  simp
  omega

/-! ## The decoder reads the message -/

section Decoder

variable {d : PacketDecoder}

/-- The two halves of a `Uid` are one number of six bytes. -/
theorem PacketDecoder.uidAt_eq (p : ℕ) : d.uidAt p = beNat (d.pkt.read p 6) := by
  rw [show (6 : ℕ) = 2 + 4 from rfl, Mem.read_add, beNat_append, Mem.length_read,
    show (256 : ℕ) ^ 4 = 2 ^ 32 by norm_num]
  rfl

theorem Carries.isRdm (h : Carries d.pkt msg) : d.isRdm = true := by
  simp only [PacketDecoder.isRdm, PacketDecoder.startCode, PacketDecoder.subStartCode,
    h.startCode, h.subStartCode]
  decide

theorem Carries.source (h : Carries d.pkt msg) : d.source = msg.header .source % 2 ^ 48 := by
  have hf := h.header .source
  simp only [HeaderField.offset, HeaderField.width] at hf
  rw [PacketDecoder.source, PacketDecoder.uidAt_eq, hf, beNat_beBytes]
  norm_num

theorem Carries.destination (h : Carries d.pkt msg) :
    d.destination = msg.header .destination % 2 ^ 48 := by
  have hf := h.header .destination
  simp only [HeaderField.offset, HeaderField.width] at hf
  rw [PacketDecoder.destination, PacketDecoder.uidAt_eq, hf, beNat_beBytes]
  norm_num

theorem Carries.subDevice (h : Carries d.pkt msg) :
    d.subDevice = msg.header .subDevice % 2 ^ 16 := by
  have hf := h.header .subDevice
  simp only [HeaderField.offset, HeaderField.width] at hf
  rw [PacketDecoder.subDevice, hf, beNat_beBytes]
  norm_num

theorem Carries.pid (h : Carries d.pkt msg) : d.pid = msg.header .pid % 2 ^ 16 := by
  have hf := h.header .pid
  simp only [HeaderField.offset, HeaderField.width] at hf
  rw [PacketDecoder.pid, hf, beNat_beBytes]
  norm_num

/-- A header value of one byte, in memory. -/
theorem Carries.header_byte (h : Carries m msg) (hw : f.width = 1) :
    (m f.offset).toNat = msg.header f % 2 ^ 8 := by
  have hf := h.header f
  rw [hw, Mem.read_one] at hf
  rw [← beNat_singleton, hf, beNat_beBytes]
  norm_num

theorem Carries.commandClass (h : Carries d.pkt msg) :
    d.commandClass = msg.header .commandClass % 2 ^ 8 :=
  h.header_byte (f := .commandClass) rfl

theorem Carries.pdl_decode (h : Carries d.pkt msg) (hlen : msg.pd.length < 256) :
    d.pdl = msg.pd.length := by
  rw [PacketDecoder.pdl, h.pdl, UInt8.toNat_ofNat', Nat.mod_eq_of_lt hlen]

/-- The data at an offset, as bytes. -/
theorem Carries.read_pd (h : Carries m msg) {pos size : ℕ} (hp : pos + size ≤ msg.pd.length) :
    m.read (Header.size + pos) size = (msg.pd.drop pos).take size := by
  rw [Mem.read_inside hp, h.pd]

/-- **`PdAt` reads a number, most significant byte first.** -/
theorem Carries.pdAt (h : Carries d.pkt msg) (hlen : msg.pd.length < 256) {pos size : ℕ}
    (hp : pos + size ≤ msg.pd.length) :
    d.pdAt pos size = some (beNat ((msg.pd.drop pos).take size)) := by
  rw [PacketDecoder.pdAt, h.pdl_decode hlen, if_neg (by omega), h.read_pd hp]
  rfl

theorem Carries.pdAtChars (h : Carries d.pkt msg) (hlen : msg.pd.length < 256) {pos size : ℕ}
    (hp : pos + size ≤ msg.pd.length) :
    d.pdAtChars pos size = some ((msg.pd.drop pos).take size) := by
  rw [PacketDecoder.pdAtChars, h.pdl_decode hlen, if_neg (by omega), h.read_pd hp]

/-- **A copy of the bytes is a copy of the message.** -/
theorem Carries.congr (h : Carries m msg)
    (heq : ∀ i, i < Header.size + msg.pd.length → m' i = m i) : Carries m' msg := by
  have hread : ∀ p n, p + n ≤ Header.size + msg.pd.length → m'.read p n = m.read p n :=
    fun p n hpn => Mem.read_congr fun i hi => heq _ (by omega)
  refine ⟨?_, ?_, fun f => ?_, ?_, ?_⟩
  · rw [heq _ (by simp), h.startCode]
  · rw [heq _ (by simp; omega), h.subStartCode]
  · obtain ⟨-, hhi⟩ := f.offset_bounds
    rw [hread _ _ (by simp; omega), h.header]
  · rw [heq _ (by simp; omega), h.pdl]
  · rw [hread _ _ le_rfl, h.pd]

end Decoder

/-! ## The round trip -/

/-- One `addPd`, by the type of its argument. -/
inductive PdItem
  | u8 (v : UInt8)
  | u16 (v : UInt16)
  | u32 (v : UInt32)
  /-- `addPd(v, 6)` of a `uint64_t`. -/
  | u48 (v : UInt64)
  | str (s : List UInt8)
  deriving DecidableEq

namespace PdItem

/-- The number of bytes the item takes. -/
def size : PdItem → ℕ
  | u8 _ => 1
  | u16 _ => 2
  | u32 _ => 4
  | u48 _ => 6
  | str s => s.length

/-- A 48-bit number has no more than 48 bits, and a C string no zero
inside. -/
def Valid : PdItem → Prop
  | u48 v => v.toNat < 2 ^ 48
  | str s => ∀ c ∈ s, c ≠ 0
  | _ => True

instance : DecidablePred Valid
  | u8 _ | u16 _ | u32 _ => isTrue trivial
  | u48 v => inferInstanceAs (Decidable (v.toNat < 2 ^ 48))
  | str s => List.decidableBAll (fun c => c ≠ 0) s

/-- The bytes an item puts into the parameter data. -/
def bytes : PdItem → List UInt8
  | u8 v => [v]
  | u16 v => beBytes 2 v.toNat
  | u32 v => beBytes 4 v.toNat
  | u48 v => beBytes 6 v.toNat
  | str s => s.takeWhile (· ≠ 0)

/-- `PdAt` at the item's offset, with the item's size, gives the value
that was added. -/
def ReadAt (d : PacketDecoder) (pos : ℕ) : PdItem → Prop
  | u8 v => d.pdAt pos 1 = some v.toNat
  | u16 v => d.pdAt pos 2 = some v.toNat
  | u32 v => d.pdAt pos 4 = some v.toNat
  | u48 v => d.pdAt pos 6 = some v.toNat
  | str s => d.pdAtChars pos s.length = some s

theorem takeWhile_of_valid {s : List UInt8} (h : (str s).Valid) : s.takeWhile (· ≠ 0) = s :=
  List.takeWhile_eq_self_iff.2 fun c hc => by simpa using h c hc

theorem length_bytes {i : PdItem} (h : i.Valid) : i.bytes.length = i.size := by
  cases i with
  | str s => rw [bytes, takeWhile_of_valid h]; rfl
  | _ => simp [bytes, size]

/-- The bytes of an item, found at an offset of the data, read back as
its value. -/
theorem readAt_of_bytes {d : PacketDecoder} {pos : ℕ} {i : PdItem} (hv : i.Valid)
    (hc : Carries d.pkt msg) (hlen : msg.pd.length < 256) (hpos : pos + i.size ≤ msg.pd.length)
    (hb : (msg.pd.drop pos).take i.size = i.bytes) : i.ReadAt d pos := by
  cases i with
  | u8 v =>
    refine (hc.pdAt hlen hpos).trans ?_
    rw [hb, bytes, beNat_singleton]
  | u16 v =>
    refine (hc.pdAt hlen hpos).trans ?_
    rw [hb, bytes, beNat_beBytes_of_lt v.toNat_lt]
  | u32 v =>
    refine (hc.pdAt hlen hpos).trans ?_
    rw [hb, bytes, beNat_beBytes_of_lt v.toNat_lt]
  | u48 v =>
    refine (hc.pdAt hlen hpos).trans ?_
    rw [hb, bytes, beNat_beBytes_of_lt hv]
  | str s =>
    refine (hc.pdAtChars hlen hpos).trans ?_
    rw [hb, bytes, takeWhile_of_valid hv]

end PdItem

/-- A call on an encoder between its construction and `finalize`. -/
inductive Call
  | set (f : HeaderField) (v : ℕ)
  | addPd (i : PdItem)

namespace PacketEncoder

/-- `addPd`, by the type of its argument. -/
def addPd (e : PacketEncoder) : PdItem → PacketEncoder
  | .u8 v => e.addPdU8 v
  | .u16 v => e.addPdU16 v
  | .u32 v => e.addPdU32 v
  | .u48 v => e.addPdU64 v 6
  | .str s => e.addPdStr s

def call (e : PacketEncoder) : Call → PacketEncoder
  | .set f v => e.setField f v
  | .addPd i => e.addPd i

/-- Construct an encoder on a buffer, make the calls, finalize. -/
def encode (buffer : Mem) (bufSize : ℕ) (calls : List Call) : PacketEncoder :=
  (calls.foldl call (new buffer bufSize)).finalize

/-- Every `addPd` copies the item's bytes. -/
theorem addPd_eq (i : PdItem) : e.addPd i = e.addBytes i.bytes := by
  cases i with
  | u48 v => rw [addPd, addPdU64]; rfl
  | _ => rfl

end PacketEncoder

namespace Call

/-- The value a call gives a header field, if it sets that one. -/
def value? (f : HeaderField) : Call → Option ℕ
  | set g v => if g = f then some v else none
  | addPd _ => none

/-- The item a call adds. -/
def item? : Call → Option PdItem
  | set _ _ => none
  | addPd i => some i

/-- The value a field was set to last. -/
def lastSet (f : HeaderField) (calls : List Call) : Option ℕ :=
  (calls.filterMap (value? f)).getLast?

/-- The items added, in order. -/
def items (calls : List Call) : List PdItem := calls.filterMap item?

end Call

/-- What a call does to the message. -/
def Message.call (msg : Message) : Call → Message
  | .set f v => msg.set f v
  | .addPd i => msg.add i.bytes

/-- The data after the calls are the items' bytes behind the data before. -/
theorem Message.pd_calls (msg : Message) (calls : List Call) :
    (calls.foldl Message.call msg).pd = msg.pd ++ (Call.items calls).flatMap PdItem.bytes := by
  induction calls generalizing msg with
  | nil => simp [Call.items]
  | cons c calls ih =>
    rw [List.foldl_cons, ih]
    cases c with
    | set f v => rfl
    | addPd i => simp [Message.call, Call.items, Call.item?]

/-- **The last call on a field decides it.** -/
theorem Message.header_calls (msg : Message) (calls : List Call) (f : HeaderField) :
    (calls.foldl Message.call msg).header f = (Call.lastSet f calls).getD (msg.header f) := by
  induction calls generalizing msg with
  | nil => rfl
  | cons c calls ih =>
    rw [List.foldl_cons, ih]
    cases c with
    | addPd i => rfl
    | set g v =>
      by_cases hg : g = f
      · subst hg
        simp [Message.call, Call.lastSet, Call.value?, List.getLast?_cons]
      · simp [Message.call, Call.lastSet, Call.value?, hg, Ne.symm hg]

/-- **The calls act on the message as the encoder's methods do on the
buffer**, as long as the data fit `PDL`. -/
theorem Carries.calls (h : Carries e.pkt msg) (calls : List Call)
    (hlen : (calls.foldl Message.call msg).pd.length < 256) :
    Carries (calls.foldl PacketEncoder.call e).pkt (calls.foldl Message.call msg) := by
  induction calls generalizing e msg with
  | nil => exact h
  | cons c calls ih =>
    refine ih ?_ hlen
    cases c with
    | set f v => exact h.setField f v
    | addPd i =>
      rw [PacketEncoder.call, PacketEncoder.addPd_eq]
      refine h.addBytes ?_
      rw [List.foldl_cons, Message.pd_calls, List.length_append] at hlen
      have hcall : (msg.call (.addPd i)).pd = msg.pd ++ i.bytes := rfl
      rw [hcall] at hlen
      omega

/-- The items' bytes are as long as their sizes say. -/
theorem PdItem.length_flatMap_bytes {items : List PdItem} (hv : ∀ i ∈ items, i.Valid) :
    (items.flatMap PdItem.bytes).length = (items.map PdItem.size).sum := by
  induction items with
  | nil => rfl
  | cons i items ih =>
    rw [List.flatMap_cons, List.length_append, length_bytes (hv i (by simp)),
      ih fun j hj => hv j (by simp [hj]), List.map_cons, List.sum_cons]

/-- **Encode and decode.** Whatever the buffer held, and in whatever
order the setters and the `addPd` calls come, the finalized packet
decodes to the header values set last and to every item at its offset;
its size, its length byte and its checksum are those of the data added. -/
theorem encode_decode (buffer : Mem) (bufSize : ℕ) (h : HeaderField → ℕ) (calls : List Call)
    (hrange : ∀ f, h f < 256 ^ f.width) (hset : ∀ f, Call.lastSet f calls = some (h f))
    (hvalid : ∀ i ∈ Call.items calls, i.Valid)
    (hlen : ((Call.items calls).map PdItem.size).sum ≤ 230) :
    let e := PacketEncoder.encode buffer bufSize calls
    let d := PacketDecoder.ofData e.frame
    let L := ((Call.items calls).map PdItem.size).sum
    d.isRdm = true ∧ d.source = h .source ∧ d.destination = h .destination ∧
      d.commandClass = h .commandClass ∧ d.pid = h .pid ∧ d.subDevice = h .subDevice ∧
      (e.pkt Header.tn).toNat = h .transactionNumber ∧ (e.pkt Header.portId).toNat = h .portId ∧
      (e.pkt Header.msgCount).toNat = h .messageCount ∧ d.pdl = L ∧
      (∀ pre i post, Call.items calls = pre ++ i :: post →
        i.ReadAt d (pre.map PdItem.size).sum) ∧
      e.size = 26 + L ∧ (e.pkt Header.msgLength).toNat = 24 + L ∧
      e.pkt.read (24 + L) 2 = beBytes 2 (e.pkt.sum16 0 (24 + L)) := by
  intro e d L
  set msg := calls.foldl Message.call (Message.ofBuffer buffer) with hmsg
  have hpd : msg.pd = (Call.items calls).flatMap PdItem.bytes := by
    rw [hmsg, Message.pd_calls]; rfl
  have hL : msg.pd.length = L := by rw [hpd, PdItem.length_flatMap_bytes hvalid]
  have hL230 : L ≤ 230 := hlen
  have hs : Sealed e.pkt msg :=
    ((Carries.new buffer bufSize).calls calls (by rw [← hmsg]; omega)).finalize
      (by rw [← hmsg]; omega)
  have hc : Carries d.pkt msg := hs.toCarries
  have hh : ∀ f, msg.header f = h f := fun f => by
    rw [hmsg, Message.header_calls, hset, Option.getD_some]
  have hmod : ∀ f, msg.header f % 256 ^ f.width = h f := fun f => by
    rw [hh, Nat.mod_eq_of_lt (hrange f)]
  refine ⟨hc.isRdm, hc.source.trans (hmod .source), hc.destination.trans (hmod .destination),
    hc.commandClass.trans (hmod .commandClass), hc.pid.trans (hmod .pid),
    hc.subDevice.trans (hmod .subDevice),
    (hs.header_byte (f := .transactionNumber) rfl).trans (hmod .transactionNumber),
    (hs.header_byte (f := .portId) rfl).trans (hmod .portId),
    (hs.header_byte (f := .messageCount) rfl).trans (hmod .messageCount),
    (hc.pdl_decode (by omega)).trans hL, ?_, ?_, ?_, ?_⟩
  · intro pre i post hitems
    rw [hitems] at hvalid
    have hi : i.Valid := hvalid i (by simp)
    have hpre : (pre.flatMap PdItem.bytes).length = (pre.map PdItem.size).sum :=
      PdItem.length_flatMap_bytes fun j hj => hvalid j (by simp [hj])
    have hsplit : msg.pd = pre.flatMap PdItem.bytes ++ (i.bytes ++ post.flatMap PdItem.bytes) := by
      rw [hpd, hitems, List.flatMap_append, List.flatMap_cons]
    refine PdItem.readAt_of_bytes hi hc (by omega) ?_ ?_
    · rw [hsplit, List.length_append, List.length_append, hpre, PdItem.length_bytes hi]
      omega
    · rw [hsplit, List.drop_left' hpre, List.take_left' (PdItem.length_bytes hi)]
  · rw [hs.size_eq (by omega), hL]
  · rw [hs.msgLength, hL, UInt8.toNat_ofNat']
    simp
    omega
  · rw [← hL]
    exact hs.checksum

/-- A request with two items, its setters called before and behind them. -/
theorem encode_decode_example :
    let calls := [Call.set .destination 0x4D5300000005, .set .commandClass setCommand,
      .set .pid dmxStartAddress, .addPd (.u16 0x0102), .addPd (.str [0x56, 0x31]),
      .set .source 0x123400000001, .set .transactionNumber 0, .set .portId 0,
      .set .messageCount 0, .set .subDevice 0]
    (PacketEncoder.encode (fun _ => 0xEE) 256 calls).size = 30 ∧
      (PacketDecoder.ofData (PacketEncoder.encode (fun _ => 0xEE) 256 calls).frame).pdAt 0 2 =
        some 0x0102 := by
  intro calls
  have hsum : ((Call.items calls).map PdItem.size).sum = 4 := by decide
  obtain ⟨-, -, -, -, -, -, -, -, -, -, hitems, hsize, -⟩ := encode_decode (fun _ => 0xEE) 256
    (fun f => match f with
      | .destination => 0x4D5300000005
      | .source => 0x123400000001
      | .commandClass => setCommand
      | .pid => dmxStartAddress
      | _ => 0) calls (by intro f; cases f <;> decide) (by intro f; cases f <;> rfl)
    (by decide) (by decide)
  rw [hsum] at hsize
  exact ⟨hsize, hitems [] (.u16 0x0102) [.str [0x56, 0x31]] rfl⟩

end Librdm

end Dmx4Linux2
