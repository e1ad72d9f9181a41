import Dmx4Linux2.Librdm.Packet

/-!
# librdm — the bounds of an encoder

An encoder is given the size of its buffer and does not look at it. Its
stores are recorded with the offsets they go to. The data length is what
was added, modulo 256 (`pdl_addItems`), so the encoder does what its
packet needs just when the data, the header and the checksum fit the
buffer and the length byte can count them (`stays_inside_iff`).
-/

namespace Dmx4Linux2

namespace Librdm

variable {e : PacketEncoder} {bs : List UInt8} {bss : List (List UInt8)}

/-! ## The calls of `addPd` -/

/-- A call of `addPd`, by its overload. An object is given by the bytes
the host keeps it in. -/
inductive Item
  /-- `addPd(const uint8_t)` -/
  | u8 (v : UInt8)
  /-- `addPd(const T)` -/
  | value (object : List UInt8)
  /-- `addPd(const T &, size)` -/
  | sized (object : List UInt8) (size : ℕ)
  /-- `addPd(const T *, size)` -/
  | elements (objects : List (List UInt8))
  /-- `addPd(const char *)` -/
  | str (s : List UInt8)
  /-- `addPd(const Uid &)` -/
  | uid (u : ℕ)

namespace Item

/-- The size of what is added. -/
def size : Item → ℕ
  | u8 _ => 1
  | value object => object.length
  | sized object size => min size object.length
  | elements objects => (objects.map List.length).sum
  | str s => (s.takeWhile (· ≠ 0)).length
  | uid _ => 6

/-- The blocks that are copied one behind the other. -/
def blocks : Item → List (List UInt8)
  | u8 v => [[v]]
  | value object => [object.reverse]
  | sized object size => [(object.take size).reverse]
  | elements objects => objects.map List.reverse
  | str s => [s.takeWhile (· ≠ 0)]
  | uid u => [(PacketEncoder.uidBytes u).reverse]

theorem sum_length_blocks (i : Item) : (i.blocks.map List.length).sum = i.size := by
  cases i <;> simp [blocks, size, PacketEncoder.uidBytes, Function.comp_def]

end Item

/-- `addPd`, by its overload. -/
def PacketEncoder.addItem (e : PacketEncoder) : Item → PacketEncoder
  | .u8 v => e.addPdU8 v
  | .value object => e.addPdObject object object.length
  | .sized object size => e.addPdObject object size
  | .elements objects => objects.foldl (fun e object => e.addPdObject object object.length) e
  | .str s => e.addPdStr s
  | .uid u => e.addPdUid u

theorem PacketEncoder.addPdObject_eq (object : List UInt8) (size : ℕ) :
    e.addPdObject object size = e.addBytes (object.take size).reverse := by
  unfold addPdObject memcpyReverse
  split
  · rfl
  · rw [List.take_of_length_le (by omega : object.length ≤ size), List.take_length]

/-- **Every overload copies its blocks.** -/
theorem PacketEncoder.addItem_eq (i : Item) :
    e.addItem i = i.blocks.foldl PacketEncoder.addBytes e := by
  cases i with
  | u8 v => rfl
  | value object =>
    rw [addItem, addPdObject_eq, List.take_length]
    rfl
  | sized object size => exact addPdObject_eq object size
  | elements objects =>
    rw [addItem, Item.blocks, List.foldl_map]
    congr 1
    funext e object
    rw [addPdObject_eq, List.take_length]
  | str s => rfl
  | uid u =>
    rw [addItem, addPdUid, addPdObject_eq, List.take_of_length_le (by simp [uidBytes])]
    rfl

/-- The overloads for the numbers of the host are that for their type. -/
theorem PacketEncoder.addItem_numbers (e : PacketEncoder) :
    (∀ v, e.addItem (.value (leBytes 2 v.toNat)) = e.addPdU16 v) ∧
      (∀ v, e.addItem (.value (leBytes 4 v.toNat)) = e.addPdU32 v) ∧
      (∀ v n, e.addItem (.sized (leBytes 8 v.toNat) n) = e.addPdU64 v n) := by
  refine ⟨fun v => ?_, fun v => ?_, fun v n => ?_⟩
  · rw [addItem, addPdObject_eq, length_leBytes]
    rfl
  · rw [addItem, addPdObject_eq, length_leBytes]
    rfl
  · rw [addItem, addPdObject, length_leBytes]
    rfl

/-! ## Recording the stores -/

/-- An encoder, and the offsets of the bytes it has stored. -/
structure Traced where
  encoder : PacketEncoder
  written : List ℕ

namespace Traced

variable (t : Traced)

def store (p : ℕ) (bs : List UInt8) : Traced :=
  ⟨t.encoder.store p bs, t.written ++ List.range' p bs.length⟩

/-- The constructor. -/
def new (buffer : Mem) (bufSize : ℕ) : Traced :=
  ((store ⟨⟨buffer, bufSize⟩, []⟩ Header.startCode [UInt8.ofNat scRdm]).store
    Header.subStartCode [UInt8.ofNat scSubMessage]).store Header.pdl [0]

def addBytes (bs : List UInt8) : Traced :=
  (t.store (Header.size + t.encoder.pdl) bs).store Header.pdl
    [UInt8.ofNat (t.encoder.pdl + bs.length)]

def addItem (i : Item) : Traced := i.blocks.foldl addBytes t

def finalize : Traced :=
  let t' := t.store Header.msgLength [UInt8.ofNat (Header.size + t.encoder.pdl)]
  t'.store (Header.size + t'.encoder.pdl)
    (beBytes 2 (t'.encoder.pkt.sum16 0 t'.encoder.msgLength))

/-- Construct an encoder, make the calls, finalize. -/
def encode (buffer : Mem) (bufSize : ℕ) (items : List Item) : Traced :=
  (items.foldl addItem (new buffer bufSize)).finalize

/-- **The stores recorded are those of the encoder.** -/
theorem encoder_foldl_addItem (t : Traced) (items : List Item) :
    (items.foldl addItem t).encoder = items.foldl PacketEncoder.addItem t.encoder := by
  have hblocks : ∀ (bss : List (List UInt8)) (t : Traced),
      (bss.foldl addBytes t).encoder = bss.foldl PacketEncoder.addBytes t.encoder := by
    intro bss
    induction bss with
    | nil => intro t; rfl
    | cons bs bss ih => intro t; exact ih (t.addBytes bs)
  induction items generalizing t with
  | nil => rfl
  | cons i items ih =>
    rw [List.foldl_cons, List.foldl_cons, ih, PacketEncoder.addItem_eq]
    exact congrArg (items.foldl PacketEncoder.addItem) (hblocks i.blocks t)

theorem encoder_encode (buffer : Mem) (bufSize : ℕ) (items : List Item) :
    (encode buffer bufSize items).encoder =
      (items.foldl PacketEncoder.addItem (PacketEncoder.new buffer bufSize)).finalize := by
  have h := encoder_foldl_addItem (new buffer bufSize) items
  have hnew : (new buffer bufSize).encoder = PacketEncoder.new buffer bufSize := rfl
  rw [hnew] at h
  rw [← h]
  rfl

/-! ## What is counted -/

theorem store_apply (p : ℕ) (b : UInt8) : (t.store p [b]).encoder.pkt p = b := by
  show t.encoder.pkt.write p [b] p = b
  simp [Mem.write]

theorem store_apply_outside {p i : ℕ} (h : i < p ∨ p + bs.length ≤ i) :
    (t.store p bs).encoder.pkt i = t.encoder.pkt i := by
  show t.encoder.pkt.write p bs i = _
  exact Mem.write_apply_outside h

theorem pdl_new (buffer : Mem) (bufSize : ℕ) : (new buffer bufSize).encoder.pdl = 0 := by
  have hbyte : (new buffer bufSize).encoder.pkt Header.pdl = 0 := store_apply _ _ _
  exact congrArg UInt8.toNat hbyte

/-- **The data length is kept in a byte.** -/
theorem pdl_addBytes (bs : List UInt8) :
    (t.addBytes bs).encoder.pdl = (t.encoder.pdl + bs.length) % 2 ^ 8 := by
  have hbyte : (t.addBytes bs).encoder.pkt Header.pdl =
      UInt8.ofNat (t.encoder.pdl + bs.length) := store_apply _ _ _
  exact (congrArg UInt8.toNat hbyte).trans UInt8.toNat_ofNat'

theorem pdl_foldl_addBytes (bss : List (List UInt8)) : ∀ t : Traced, t.encoder.pdl < 2 ^ 8 →
    (bss.foldl addBytes t).encoder.pdl = (t.encoder.pdl + (bss.map List.length).sum) % 2 ^ 8 := by
  induction bss with
  | nil =>
    intro t ht
    exact (Nat.mod_eq_of_lt ht).symm
  | cons bs bss ih =>
    intro t _
    have hlt : (t.addBytes bs).encoder.pdl < 2 ^ 8 := UInt8.toNat_lt _
    rw [List.foldl_cons, ih _ hlt, pdl_addBytes, List.map_cons, List.sum_cons, Nat.mod_add_mod,
      Nat.add_assoc]

/-- **After any calls the data length is the sum of the sizes**, modulo
256. -/
theorem pdl_addItems (t : Traced) (items : List Item) :
    (items.foldl addItem t).encoder.pdl =
      (t.encoder.pdl + (items.map Item.size).sum) % 2 ^ 8 := by
  induction items generalizing t with
  | nil => exact (Nat.mod_eq_of_lt (UInt8.toNat_lt _)).symm
  | cons i items ih =>
    have hitem : (t.addItem i).encoder.pdl = (t.encoder.pdl + i.size) % 2 ^ 8 := by
      rw [← i.sum_length_blocks]
      exact pdl_foldl_addBytes i.blocks t (UInt8.toNat_lt _)
    rw [List.foldl_cons, ih, hitem, List.map_cons, List.sum_cons, Nat.mod_add_mod, Nat.add_assoc]

/-- The length byte and the checksum do not change the data length. -/
theorem pdl_finalize : t.finalize.encoder.pdl = t.encoder.pdl := by
  have hbyte : t.finalize.encoder.pkt Header.pdl = t.encoder.pkt Header.pdl := by
    rw [finalize, store_apply_outside _ (by simp; omega), store_apply_outside _ (by simp)]
  exact congrArg UInt8.toNat hbyte

/-- So is the length byte kept in a byte. -/
theorem msgLength_finalize :
    t.finalize.encoder.msgLength = (Header.size + t.encoder.pdl) % 2 ^ 8 := by
  have hbyte : t.finalize.encoder.pkt Header.msgLength =
      UInt8.ofNat (Header.size + t.encoder.pdl) := by
    rw [finalize, store_apply_outside _ (by simp; omega), store_apply]
  exact (congrArg UInt8.toNat hbyte).trans UInt8.toNat_ofNat'

theorem pdl_encode (buffer : Mem) (bufSize : ℕ) (items : List Item) :
    (encode buffer bufSize items).encoder.pdl = (items.map Item.size).sum % 2 ^ 8 := by
  rw [encode, pdl_finalize, pdl_addItems, pdl_new, Nat.zero_add]

theorem msgLength_encode (buffer : Mem) (bufSize : ℕ) (items : List Item) :
    (encode buffer bufSize items).encoder.msgLength =
      (Header.size + (items.map Item.size).sum % 2 ^ 8) % 2 ^ 8 := by
  rw [encode, msgLength_finalize, pdl_addItems, pdl_new, Nat.zero_add]

/-! ## Where bytes are stored -/

theorem written_addBytes : (t.addBytes bs).written =
    t.written ++ List.range' (Header.size + t.encoder.pdl) bs.length ++ [Header.pdl] := rfl

/-- **As long as the data length is right, data are stored behind the
header** and not past their end. -/
theorem written_foldl_addBytes (bss : List (List UInt8)) : ∀ t : Traced,
    t.encoder.pdl + (bss.map List.length).sum < 2 ^ 8 → ∀ i ∈ (bss.foldl addBytes t).written,
      i ∈ t.written ∨ i < Header.size + (t.encoder.pdl + (bss.map List.length).sum) := by
  induction bss with
  | nil => exact fun t _ i hi => Or.inl hi
  | cons bs bss ih =>
    intro t hlt i hi
    rw [List.map_cons, List.sum_cons] at hlt ⊢
    -- the next block is stored where the byte says this one ends
    have hpdl : (t.addBytes bs).encoder.pdl = t.encoder.pdl + bs.length := by
      rw [pdl_addBytes, Nat.mod_eq_of_lt (by omega)]
    rcases ih (t.addBytes bs) (by omega) i hi with hmem | hbelow
    · rw [written_addBytes, List.mem_append, List.mem_append, List.mem_range'_1,
        List.mem_singleton] at hmem
      rcases hmem with (hmem | hmem) | hmem
      · exact Or.inl hmem
      · exact Or.inr (by omega)
      · exact Or.inr (by simp at hmem ⊢; omega)
    · exact Or.inr (by omega)

theorem written_addItems (t : Traced) (items : List Item)
    (hlt : t.encoder.pdl + (items.map Item.size).sum < 2 ^ 8) :
    ∀ i ∈ (items.foldl addItem t).written,
      i ∈ t.written ∨ i < Header.size + (t.encoder.pdl + (items.map Item.size).sum) := by
  induction items generalizing t with
  | nil => exact fun i hi => Or.inl hi
  | cons j items ih =>
    intro i hi
    rw [List.map_cons, List.sum_cons] at hlt ⊢
    have hsize := j.sum_length_blocks
    have hpdl : (t.addItem j).encoder.pdl = t.encoder.pdl + j.size := by
      rw [addItem, pdl_foldl_addBytes j.blocks t (by omega), hsize, Nat.mod_eq_of_lt (by omega)]
    rcases ih (t.addItem j) (by omega) i hi with hmem | hbelow
    · rcases written_foldl_addBytes j.blocks t (by omega) i hmem with hmem | hbelow
      · exact Or.inl hmem
      · exact Or.inr (by omega)
    · exact Or.inr (by omega)

theorem written_finalize : t.finalize.written = t.written ++ [Header.msgLength] ++
    [Header.size + t.encoder.pdl, Header.size + t.encoder.pdl + 1] := by
  have hpdl : (t.store Header.msgLength
      [UInt8.ofNat (Header.size + t.encoder.pdl)]).encoder.pdl = t.encoder.pdl := by
    exact congrArg UInt8.toNat (store_apply_outside _ (by simp))
  unfold finalize
  dsimp only
  rw [hpdl]
  unfold store
  dsimp only
  rw [length_beBytes]
  rfl

/-- **The stores of a packet** that is counted right end with its
checksum. -/
theorem written_encode (buffer : Mem) (bufSize : ℕ) (items : List Item)
    (hlt : (items.map Item.size).sum < 2 ^ 8) :
    (∀ i ∈ (encode buffer bufSize items).written, i < 26 + (items.map Item.size).sum) ∧
      25 + (items.map Item.size).sum ∈ (encode buffer bufSize items).written := by
  have hzero := pdl_new buffer bufSize
  have hpdl : (items.foldl addItem (new buffer bufSize)).encoder.pdl =
      (items.map Item.size).sum := by
    rw [pdl_addItems, hzero, Nat.zero_add, Nat.mod_eq_of_lt hlt]
  have hbelow := written_addItems (new buffer bufSize) items (by omega)
  have hnew : ∀ i ∈ (new buffer bufSize).written, i < 24 := by
    intro i hi
    have hmem : i ∈ [0, 1, 23] := hi
    simp at hmem
    omega
  rw [encode, written_finalize, hpdl]
  constructor
  · intro i hi
    rw [List.mem_append, List.mem_append] at hi
    rcases hi with (hi | hi) | hi
    · rcases hbelow i hi with hi | hi
      · have := hnew i hi
        omega
      · simp only [Header.size] at hi
        omega
    · simp at hi
      omega
    · simp at hi
      omega
  · simp
    omega

end Traced

/-- **The encoder stays in its buffer**: no byte is stored past its end,
and the two lengths are those of the data. -/
structure StaysInside (buffer : Mem) (n : ℕ) (items : List Item) : Prop where
  inside : ∀ i ∈ (Traced.encode buffer n items).written, i < n
  pdl : (Traced.encode buffer n items).encoder.pdl = (items.map Item.size).sum
  msgLength : (Traced.encode buffer n items).encoder.msgLength =
    Header.size + (Traced.encode buffer n items).encoder.pdl

/-- **When the encoder stays in its buffer**: the data are no more than
231 bytes, and the buffer holds the header, the data and the checksum. -/
theorem stays_inside_iff (buffer : Mem) (n : ℕ) (items : List Item) :
    StaysInside buffer n items ↔
      (items.map Item.size).sum ≤ 231 ∧ 26 + (items.map Item.size).sum ≤ n := by
  have hpdl := Traced.pdl_encode buffer n items
  have hlength := Traced.msgLength_encode buffer n items
  constructor
  · intro h
    have hsum := h.pdl
    have hcount := h.msgLength
    rw [hpdl] at hsum
    rw [hlength, hpdl] at hcount
    -- the length byte is 24 more than the data length, and both fit in a byte
    have hle : (items.map Item.size).sum ≤ 231 := by
      simp only [Header.size] at hcount
      omega
    refine ⟨hle, ?_⟩
    -- the checksum is the last to be stored
    have := h.inside _ (Traced.written_encode buffer n items (by omega)).2
    omega
  · rintro ⟨hle, hn⟩
    refine ⟨fun i hi => ?_, ?_, ?_⟩
    · have := (Traced.written_encode buffer n items (by omega)).1 i hi
      omega
    · rw [hpdl, Nat.mod_eq_of_lt (by omega)]
    · rw [hlength, hpdl]
      simp only [Header.size]
      omega

/-- A string of 232 characters in the buffer of a setter: the length byte
says 0. -/
theorem longString_not_inside :
    ¬ StaysInside (fun _ => 0) 256 [.str (List.replicate 232 0x41)] := by
  intro h
  have hcount := h.msgLength
  rw [Traced.msgLength_encode, Traced.pdl_encode] at hcount
  have hsize : ([Item.str (List.replicate 232 0x41)].map Item.size).sum = 232 := by decide +kernel
  rw [hsize] at hcount
  exact absurd hcount (by decide)

end Librdm

end Dmx4Linux2
