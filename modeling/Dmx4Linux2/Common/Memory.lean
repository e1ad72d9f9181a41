import Mathlib.Data.Nat.Digits.Lemmas
import Mathlib.Data.List.Infix
import Mathlib.Tactic.IntervalCases
import Mathlib.Tactic.Ring

/-!
# Byte memory

The memory behind a pointer, as the byte at each offset, with the two
block operations a C program performs on it (`read`, `write`), the two
byte orders of an unsigned number, bytes with some bits set, and the
additive checksum over a block. Nothing here bounds an offset: a read or a write past the end of
an object is a read or a write of whatever lies there, and the bounds
are stated where an object is.
-/

namespace Dmx4Linux2

/-- **Memory behind a pointer**: the byte at each offset. -/
abbrev Mem := ℕ → UInt8

namespace Mem

variable {m : Mem} {p q n k i : ℕ} {bs cs : List UInt8}

/-- The `n` bytes from offset `p` on. -/
def read (m : Mem) (p n : ℕ) : List UInt8 := (List.range n).map fun i => m (p + i)

/-- Store a block at offset `p`; every other byte is kept. -/
def write (m : Mem) (p : ℕ) (bs : List UInt8) : Mem := fun i =>
  if p ≤ i then (bs[i - p]?).getD (m i) else m i

/-! ## Reading -/

@[simp] theorem length_read : (m.read p n).length = n := by simp [read]

@[simp] theorem read_zero : m.read p 0 = [] := rfl

theorem read_succ : m.read p (n + 1) = m p :: m.read (p + 1) n := by
  simp only [read, List.range_succ_eq_map, List.map_cons, List.map_map, Nat.add_zero]
  congr 1
  refine List.map_congr_left fun i _ => ?_
  simp only [Function.comp_apply]
  congr 1
  omega

@[simp] theorem read_one : m.read p 1 = [m p] := by rw [read_succ, read_zero]

theorem getElem?_read (h : i < n) : (m.read p n)[i]? = some (m (p + i)) := by
  simp [read, h]

/-- **Two adjacent reads are one.** -/
theorem read_add : m.read p (n + k) = m.read p n ++ m.read (p + n) k := by
  induction n generalizing p with
  | zero => simp
  | succ n ih =>
    rw [show n + 1 + k = (n + k) + 1 by omega, read_succ, ih, read_succ, List.cons_append,
      show p + 1 + n = p + (n + 1) by omega]

theorem read_prefix (h : n ≤ k) : m.read p n <+: m.read p k := by
  obtain ⟨r, rfl⟩ := Nat.exists_eq_add_of_le h
  rw [read_add]
  exact List.prefix_append _ _

theorem read_congr {m' : Mem} (h : ∀ i, i < n → m (p + i) = m' (p + i)) :
    m.read p n = m'.read p n :=
  List.map_congr_left fun i hi => h i (List.mem_range.1 hi)

/-- **A read inside a read.** -/
theorem read_inside (h : i + k ≤ n) : m.read (p + i) k = ((m.read p n).drop i).take k := by
  obtain ⟨r, rfl⟩ := Nat.exists_eq_add_of_le h
  rw [read_add, read_add, List.append_assoc, List.drop_left' length_read,
    List.take_left' length_read]

theorem take_read : (m.read p n).take k = m.read p (min k n) := by
  rw [read, read, ← List.map_take, List.take_range]

/-! ## Writing -/

theorem write_apply_of_lt (h : i < p) : m.write p bs i = m i := by
  simp [write, Nat.not_le.2 h]

theorem write_apply_of_ge (h : p + bs.length ≤ i) : m.write p bs i = m i := by
  have hnone : bs[i - p]? = none := List.getElem?_eq_none (by omega)
  simp [write, hnone]

/-- A write changes only the block it stores. -/
theorem write_apply_outside (h : i < p ∨ p + bs.length ≤ i) : m.write p bs i = m i :=
  h.elim write_apply_of_lt write_apply_of_ge

theorem write_apply_add (h : i < bs.length) : m.write p bs (p + i) = bs[i] := by
  simp [write, h]

@[simp] theorem write_nil : m.write p [] = m := by
  funext i
  simp [write]

/-- **A block just written is read back.** -/
theorem read_write : (m.write p bs).read p bs.length = bs := by
  refine List.ext_getElem (by simp) fun i hi hbs => ?_
  simp only [read, List.getElem_map, List.getElem_range]
  exact write_apply_add hbs

theorem read_write_of_length (h : bs.length = n) : (m.write p bs).read p n = bs := by
  rw [← h, read_write]

/-- A block copied from another memory. -/
theorem write_read_apply {m' : Mem} (h : i < n) : m.write 0 (m'.read 0 n) i = m' i := by
  have hget := getElem?_read (m := m') (p := 0) h
  simp [write, hget]

/-- A read is blind to a write elsewhere. -/
theorem read_write_outside (h : q + n ≤ p ∨ p + bs.length ≤ q) :
    (m.write p bs).read q n = m.read q n :=
  read_congr fun i hi => write_apply_outside (by omega)

/-- **Two adjacent writes are one.** -/
theorem write_append : m.write p (bs ++ cs) = (m.write p bs).write (p + bs.length) cs := by
  funext i
  rcases Nat.lt_or_ge i (p + bs.length) with h | h
  · rw [write_apply_of_lt h]
    rcases Nat.lt_or_ge i p with hp | hp
    · rw [write_apply_of_lt hp, write_apply_of_lt hp]
    · simp only [write, hp, if_true]
      rw [List.getElem?_append_left (by omega)]
  · have hp : p ≤ i := by omega
    simp only [write, hp, if_true, h]
    rw [List.getElem?_append_right (by omega), List.getElem?_eq_none (by omega : bs.length ≤ i - p),
      show i - p - bs.length = i - (p + bs.length) by omega]
    rfl

theorem write_singleton {b : UInt8} : m.write p [b] = Function.update m p b := by
  funext i
  rcases Nat.lt_trichotomy i p with hi | hi | hi
  · rw [Function.update_of_ne (by omega), write_apply_of_lt hi]
  · subst hi
    simp [write]
  · have hbehind : p + [b].length ≤ i := by
      rw [List.length_singleton]
      omega
    rw [Function.update_of_ne (by omega), write_apply_of_ge hbehind]

/-- A second write of as many bytes leaves nothing of the first. -/
theorem write_write (h : bs.length = cs.length) : (m.write p bs).write p cs = m.write p cs := by
  funext i
  rcases Nat.lt_or_ge i p with hp | hp
  · rw [write_apply_of_lt hp, write_apply_of_lt hp, write_apply_of_lt hp]
  · rcases Nat.lt_or_ge i (p + cs.length) with hc | hc
    · simp only [write, hp, if_true]
      rw [List.getElem?_eq_getElem (by omega : i - p < cs.length)]
      rfl
    · rw [write_apply_of_ge hc, write_apply_of_ge hc, write_apply_of_ge (by omega)]

/-! ## Byte order -/

end Mem

/-- The low `n` bytes of a number, least significant first: how a
little-endian host keeps it in memory. -/
def leBytes : ℕ → ℕ → List UInt8
  | 0, _ => []
  | n + 1, v => UInt8.ofNat v :: leBytes n (v / 256)

/-- The number whose little-endian bytes are given. -/
def leNat (bs : List UInt8) : ℕ := Nat.ofDigits 256 (bs.map UInt8.toNat)

/-- The low `n` bytes of a number, most significant first: network order. -/
def beBytes (n v : ℕ) : List UInt8 := (leBytes n v).reverse

/-- The number whose big-endian bytes are given. -/
def beNat (bs : List UInt8) : ℕ := leNat bs.reverse

@[simp] theorem length_leBytes (n v : ℕ) : (leBytes n v).length = n := by
  induction n generalizing v with
  | zero => rfl
  | succ n ih => simp [leBytes, ih]

@[simp] theorem length_beBytes (n v : ℕ) : (beBytes n v).length = n := by simp [beBytes]

@[simp] theorem leNat_nil : leNat [] = 0 := rfl

@[simp] theorem leNat_cons (b : UInt8) (bs : List UInt8) :
    leNat (b :: bs) = b.toNat + 256 * leNat bs := by
  simp [leNat, Nat.ofDigits_cons]

/-- **The bytes of a number determine it**, up to the bytes kept. -/
theorem leNat_leBytes (n v : ℕ) : leNat (leBytes n v) = v % 256 ^ n := by
  induction n generalizing v with
  | zero => simp [leBytes, Nat.mod_one]
  | succ n ih =>
    rw [leBytes, leNat_cons, ih, UInt8.toNat_ofNat', Nat.pow_succ' (m := 256), Nat.mod_mul]

theorem beNat_beBytes (n v : ℕ) : beNat (beBytes n v) = v % 256 ^ n := by
  rw [beNat, beBytes, List.reverse_reverse, leNat_leBytes]

theorem beNat_beBytes_of_lt {n v : ℕ} (h : v < 256 ^ n) : beNat (beBytes n v) = v := by
  rw [beNat_beBytes, Nat.mod_eq_of_lt h]

/-- The high and the low part of a number lie one behind the other. -/
theorem beBytes_add (n k v : ℕ) : beBytes (n + k) v = beBytes n (v / 256 ^ k) ++ beBytes k v := by
  induction k generalizing v with
  | zero => simp [beBytes, leBytes]
  | succ k ih =>
    have hs : ∀ j w, beBytes (j + 1) w = beBytes j (w / 256) ++ [UInt8.ofNat w] := by
      intro j w; simp [beBytes, leBytes]
    rw [← Nat.add_assoc, hs, ih, hs k v, Nat.div_div_eq_div_mul, ← Nat.pow_succ', List.append_assoc]

theorem beNat_append (bs cs : List UInt8) :
    beNat (bs ++ cs) = beNat bs * 256 ^ cs.length + beNat cs := by
  simp only [beNat, leNat, List.reverse_append, List.map_append, Nat.ofDigits_append,
    List.length_map, List.length_reverse]
  ring

theorem beNat_lt (bs : List UInt8) : beNat bs < 256 ^ bs.length := by
  have h := Nat.ofDigits_lt_base_pow_length (b := 256) (l := bs.reverse.map UInt8.toNat)
    (by decide) (by
      intro x hx
      obtain ⟨b, -, rfl⟩ := List.mem_map.1 hx
      exact b.toNat_lt)
  simpa [beNat, leNat] using h

@[simp] theorem beNat_singleton (b : UInt8) : beNat [b] = b.toNat := by simp [beNat]

/-! ## Bits of a byte -/

/-- The bits that are set are found set. -/
theorem masked_and_mask (m b : UInt8) : (m ||| b) &&& m = m := by
  refine UInt8.toBitVec_inj.1 (BitVec.eq_of_getLsbD_eq fun i _ => ?_)
  simp only [UInt8.toBitVec_and, UInt8.toBitVec_or, BitVec.getLsbD_and, BitVec.getLsbD_or]
  cases m.toBitVec.getLsbD i <;> simp

/-- Masks with no bit in common leave each other's bits alone. -/
theorem masked_and_masked {m n : UInt8} (h : m &&& n = 0) (b : UInt8) : (m ||| b) &&& (n ||| b) = b := by
  refine UInt8.toBitVec_inj.1 (BitVec.eq_of_getLsbD_eq fun i _ => ?_)
  have hbit : m.toBitVec.getLsbD i = false ∨ n.toBitVec.getLsbD i = false := by
    have hand := congrArg (fun x : UInt8 => x.toBitVec.getLsbD i) h
    simp only [UInt8.toBitVec_and, BitVec.getLsbD_and] at hand
    exact Bool.and_eq_false_iff.1 (hand.trans BitVec.getLsbD_zero)
  simp only [UInt8.toBitVec_and, UInt8.toBitVec_or, BitVec.getLsbD_and, BitVec.getLsbD_or]
  rcases hbit with hbit | hbit <;> rw [hbit] <;>
    cases b.toBitVec.getLsbD i <;> simp

/-- **Of two bytes with complementary bits set, each is recovered** from
what they have in common. -/
theorem mask_or_and {m n x y : UInt8} (h : m ||| n = 0xFF) (hx : x &&& m = m) (hy : y &&& n = n) :
    m ||| (x &&& y) = x := by
  refine UInt8.toBitVec_inj.1 (BitVec.eq_of_getLsbD_eq fun i hi => ?_)
  have hor := congrArg (fun x : UInt8 => x.toBitVec.getLsbD i) h
  have hxm := congrArg (fun x : UInt8 => x.toBitVec.getLsbD i) hx
  have hyn := congrArg (fun x : UInt8 => x.toBitVec.getLsbD i) hy
  have hones : (0xFF : UInt8).toBitVec.getLsbD i = true := by
    interval_cases i <;> rfl
  simp only [UInt8.toBitVec_and, UInt8.toBitVec_or, BitVec.getLsbD_and, BitVec.getLsbD_or]
    at hor hxm hyn ⊢
  rw [hones] at hor
  cases hm : m.toBitVec.getLsbD i <;> simp_all

/-! ## The additive checksum -/

/-- The sum of `n` bytes from offset `p` on, kept in 16 bits. -/
def Mem.sum16 (m : Mem) (p n : ℕ) : ℕ := ((m.read p n).map UInt8.toNat).sum % 2 ^ 16

theorem Mem.sum16_lt (m : Mem) (p n : ℕ) : m.sum16 p n < 2 ^ 16 :=
  Nat.mod_lt _ (by decide)

/-- The checksum is a function of the bytes it covers. -/
theorem Mem.sum16_congr {m m' : Mem} {p q n : ℕ} (h : m.read p n = m'.read q n) :
    m.sum16 p n = m'.sum16 q n := by
  rw [Mem.sum16, h, Mem.sum16]

/-- **A checksum behind the block it is of** is read back, and the block is
as it was. -/
theorem Mem.sum16_write_behind (m : Mem) (n : ℕ) :
    beNat ((m.write n (beBytes 2 (m.sum16 0 n))).read n 2) =
      (m.write n (beBytes 2 (m.sum16 0 n))).sum16 0 n := by
  rw [read_write_of_length (length_beBytes _ _), beNat_beBytes_of_lt (sum16_lt _ _ _)]
  exact sum16_congr (read_congr fun i hi => (write_apply_of_lt (by omega)).symm)

end Dmx4Linux2
