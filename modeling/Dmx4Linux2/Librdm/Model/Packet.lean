import Dmx4Linux2.Common.Memory

/-!
# librdm — packets

The RDM values of `rdmvalues.hpp` and its two packet classes. A packet
is a `Header` of 24 bytes at the front of a buffer, the parameter data
behind it and a checksum of two bytes behind those. `PacketDecoder` and
`PacketEncoder` overlay the buffer, so both are modelled on its memory:
the decoder reads whatever lies at a field's offset, the encoder stores
there, and neither looks at the size it was given.

The host is little-endian. A field stored through `htons` or `htonl`
therefore lies in memory most significant byte first.
-/

namespace Dmx4Linux2

namespace Librdm

/-! ## Values -/

def scRdm : ℕ := 0xCC
def scSubMessage : ℕ := 0x01

def discoveryCommand : ℕ := 0x10
def discoveryCommandResponse : ℕ := 0x11
def getCommand : ℕ := 0x20
def getCommandResponse : ℕ := 0x21
def setCommand : ℕ := 0x30

def responseTypeAck : ℕ := 0x00
/-- Used internally to indicate that the pid is unknown. -/
def responseTypeUnknownPid : ℕ := 0xfe

def discUniqueBranch : ℕ := 0x0001
def discMute : ℕ := 0x0002
def discUnMute : ℕ := 0x0003
def deviceInfo : ℕ := 0x0060
def softwareVersionLabel : ℕ := 0x00C0
def dmxStartAddress : ℕ := 0x00F0
def identifyDevice : ℕ := 0x1000

/-- `Uid::broadcast()`. -/
def broadcast : ℕ := 0xFFFFFFFFFFFF

/-- `Uid::any()`. -/
def any : ℕ := 0

/-! ## Offsets of the header fields -/

namespace Header

@[simp] def startCode : ℕ := 0
@[simp] def subStartCode : ℕ := 1
@[simp] def msgLength : ℕ := 2
@[simp] def dstUid : ℕ := 3
@[simp] def srcUid : ℕ := 9
@[simp] def tn : ℕ := 15
@[simp] def portId : ℕ := 16
@[simp] def msgCount : ℕ := 17
@[simp] def subDevice : ℕ := 18
@[simp] def cc : ℕ := 20
@[simp] def pid : ℕ := 21
@[simp] def pdl : ℕ := 23

/-- `sizeof(Rdm::Header)`, which is also the offset of `Packet::data`. -/
@[simp] def size : ℕ := 24

end Header

/-- A frame as it is passed between receivers: a pointer to memory and
the number of bytes that belong to the frame (`IDmxData`). -/
structure DmxData where
  data : Mem
  size : ℕ

namespace DmxData

/-- The bytes of the frame. -/
def bytes (f : DmxData) : List UInt8 := f.data.read 0 f.size

/-- A frame over the bytes of a vector. What lies behind a vector is not
part of the model and reads as 0. -/
def ofVector (v : List UInt8) : DmxData := ⟨fun i => v.getD i 0, v.length⟩

end DmxData

/-! ## `PacketDecoder` -/

/-- A `Packet` overlaid on received memory. -/
structure PacketDecoder where
  pkt : Mem
  size : ℕ

/-- `PacketDecoder rdm(f.data(), f.size())`. -/
def PacketDecoder.ofData (f : DmxData) : PacketDecoder := ⟨f.data, f.size⟩

namespace PacketDecoder

variable (d : PacketDecoder)

def startCode : ℕ := (d.pkt Header.startCode).toNat

def subStartCode : ℕ := (d.pkt Header.subStartCode).toNat

def commandClass : ℕ := (d.pkt Header.cc).toNat

def subDevice : ℕ := beNat (d.pkt.read Header.subDevice 2)

def pid : ℕ := beNat (d.pkt.read Header.pid 2)

def pdl : ℕ := (d.pkt Header.pdl).toNat

/-- `uint64_t(Uid)` of the six bytes at `p`: the manufacturer above the
device. -/
def uidAt (p : ℕ) : ℕ := beNat (d.pkt.read p 2) * 2 ^ 32 + beNat (d.pkt.read (p + 2) 4)

def source : ℕ := d.uidAt Header.srcUid

def destination : ℕ := d.uidAt Header.dstUid

def isRdm : Bool := d.startCode == scRdm && d.subStartCode == scSubMessage

def isDmx : Bool := d.startCode == 0

def isRequest : Bool :=
  decide (discoveryCommand ≤ d.commandClass &&& 0xf0) &&
    decide (d.commandClass &&& 0xf0 ≤ setCommand) && d.commandClass &&& 0xF == 0

/-- `ItIsForMe`. -/
def itIsForMe (myUid : ℕ) : Bool := d.destination == myUid || d.destination == broadcast

/-- `PdAt(pos, v, size)` for an integer `v`: `v` is zeroed and then
filled from its low end by `memcpy_reverse`. -/
def pdAt (pos size : ℕ) : Option ℕ :=
  if pos + size > d.pdl then none
  else some (leNat (d.pkt.read (Header.size + pos) size).reverse)

/-- `PdAt(pos, char *, size)`. -/
def pdAtChars (pos size : ℕ) : Option (List UInt8) :=
  if pos + size > d.pdl then none
  else some (d.pkt.read (Header.size + pos) size)

end PacketDecoder

/-! ## `PacketEncoder` -/

/-- A `Packet` overlaid on a buffer of `bufSize` bytes. -/
structure PacketEncoder where
  pkt : Mem
  bufSize : ℕ

namespace PacketEncoder

/-- The constructor. -/
def new (buffer : Mem) (bufSize : ℕ) : PacketEncoder where
  pkt := ((buffer.write Header.startCode [UInt8.ofNat scRdm]).write
    Header.subStartCode [UInt8.ofNat scSubMessage]).write Header.pdl [0]
  bufSize := bufSize

variable (e : PacketEncoder)

/-- Store bytes at an offset of the packet. -/
def store (p : ℕ) (bs : List UInt8) : PacketEncoder := { e with pkt := e.pkt.write p bs }

/-- `header.PDL` as it stands. -/
def pdl : ℕ := (e.pkt Header.pdl).toNat

/-- Store a `Uid`: its manufacturer, then its device. -/
def storeUid (p uid : ℕ) : PacketEncoder :=
  (e.store p (beBytes 2 (uid / 2 ^ 32))).store (p + 2) (beBytes 4 uid)

def source (src : ℕ) : PacketEncoder := e.storeUid Header.srcUid src

def destination (dst : ℕ) : PacketEncoder := e.storeUid Header.dstUid dst

def transactionNumber (tn : ℕ) : PacketEncoder := e.store Header.tn [UInt8.ofNat tn]

def portId (id : ℕ) : PacketEncoder := e.store Header.portId [UInt8.ofNat id]

/-- `ResponseType` shares its slot with the port id. -/
def responseType (t : ℕ) : PacketEncoder := e.store Header.portId [UInt8.ofNat t]

def messageCount (c : ℕ) : PacketEncoder := e.store Header.msgCount [UInt8.ofNat c]

def subDevice (sd : ℕ) : PacketEncoder := e.store Header.subDevice (beBytes 2 sd)

def commandClass (cc : ℕ) : PacketEncoder := e.store Header.cc [UInt8.ofNat cc]

def pid (pid : ℕ) : PacketEncoder := e.store Header.pid (beBytes 2 pid)

/-- What every `addPd` does: copy bytes behind the parameter data so far
and count them in the one byte of `PDL`. -/
def addBytes (bs : List UInt8) : PacketEncoder :=
  (e.store (Header.size + e.pdl) bs).store Header.pdl [UInt8.ofNat (e.pdl + bs.length)]

/-- The first `size` bytes of an object of the host, reversed
(`memcpy_reverse`). -/
def memcpyReverse (object : List UInt8) (size : ℕ) : List UInt8 := (object.take size).reverse

/-- `addPd(const uint8_t)`. -/
def addPdU8 (v : UInt8) : PacketEncoder := e.addBytes [v]

/-- `addPd(const T)` at `uint16_t`. -/
def addPdU16 (v : UInt16) : PacketEncoder := e.addBytes (memcpyReverse (leBytes 2 v.toNat) 2)

/-- `addPd(const T)` at `uint32_t`. -/
def addPdU32 (v : UInt32) : PacketEncoder := e.addBytes (memcpyReverse (leBytes 4 v.toNat) 4)

/-- `addPd(const T &, size)` at `uint64_t`; no more than the object is
copied. -/
def addPdU64 (v : UInt64) (size : ℕ) : PacketEncoder :=
  e.addBytes (memcpyReverse (leBytes 8 v.toNat) (if size < 8 then size else 8))

/-- `addPd(const T &, size)` for an object of the host; no more than the
object is copied. -/
def addPdObject (object : List UInt8) (size : ℕ) : PacketEncoder :=
  e.addBytes (memcpyReverse object (if size < object.length then size else object.length))

/-- The six bytes of a `Uid` object, which keeps its manufacturer and its
device in network order. -/
def uidBytes (uid : ℕ) : List UInt8 := beBytes 2 (uid / 2 ^ 32) ++ beBytes 4 uid

/-- `addPd(const Uid &)`. -/
def addPdUid (uid : ℕ) : PacketEncoder := e.addPdObject (uidBytes uid) 6

/-- `addPd(const char *)`: the characters up to the terminating zero. -/
def addPdStr (str : List UInt8) : PacketEncoder := e.addBytes (str.takeWhile (· ≠ 0))

/-- `header.msgLength` as it stands. -/
def msgLength : ℕ := (e.pkt Header.msgLength).toNat

/-- Fix up the size field, then the checksum over the bytes it counts. -/
def finalize : PacketEncoder :=
  let e' := e.store Header.msgLength [UInt8.ofNat (Header.size + e.pdl)]
  e'.store (Header.size + e'.pdl) (beBytes 2 (e'.pkt.sum16 0 e'.msgLength))

def size : ℕ := e.msgLength + 2

/-- `ConstDmxData(buffer, e.size())`. -/
def frame : DmxData := ⟨e.pkt, e.size⟩

end PacketEncoder

end Librdm

end Dmx4Linux2
