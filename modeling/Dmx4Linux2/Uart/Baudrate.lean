import Dmx4Linux2.Uart.Model.Pl011
import Mathlib.Tactic.Linarith

/-!
# PL011 driver — the divisor registers

The lower six bits of the divisor are its fraction. They are written with
the mask `0x63` where `0x3f` selects them, in both drivers, so bits 2, 3
and 4 of the divisor are lost and bit 6 is written to both registers.
-/

namespace Dmx4Linux2

namespace Uart

namespace Pl011Registers

variable {r : Pl011Registers} {clock d : UInt64}

/-! ## The mask -/

theorem and_of_lt_128 (n m : ℕ) (h : 127 &&& m = m) : n &&& m = n % 128 &&& m := by
  rw [← Nat.and_two_pow_sub_one_eq_mod n 7, Nat.and_assoc]
  exact congrArg (n &&& ·) h.symm

/-- **When the two masks select the same.** -/
theorem mask_iff (n : ℕ) :
    ((n &&& 0x63) < 64 ∧ (n &&& 0x63) = n % 64) ↔ n &&& 0x5c = 0 := by
  have hall : ∀ k < 128,
      ((k &&& 0x63) < 64 ∧ (k &&& 0x63) = k % 64) ↔ k &&& 0x5c = 0 := by decide
  have hn := hall (n % 128) (Nat.mod_lt _ (by decide))
  rw [← and_of_lt_128 n 0x63 rfl, ← and_of_lt_128 n 0x5c rfl, Nat.mod_mod_of_dvd n (by decide)] at hn
  exact hn

/-! ## The registers -/

theorem toNat_ibrd : (r.writeDivisor d).ibrd.toNat = d.toNat / 64 % 2 ^ 16 := by
  have hshift : d.toNat >>> ((6 : UInt64).toNat % 64) = d.toNat / 64 :=
    Nat.shiftRight_eq_div_pow _ _
  rw [writeDivisor, UInt16.toNat_toUInt64, UInt64.toNat_toUInt16, UInt64.toNat_shiftRight, hshift]

theorem toNat_fbrd : (r.writeDivisor d).fbrd.toNat = d.toNat &&& 0x63 := UInt64.toNat_and ..

theorem toNat_readDivisor :
    r.readDivisor.toNat = r.ibrd.toNat % 2 ^ 16 * 64 + r.fbrd.toNat % 64 := by
  have hibrd : (r.ibrd &&& 0xffff).toNat = r.ibrd.toNat % 2 ^ 16 := by
    rw [UInt64.toNat_and]
    exact Nat.and_two_pow_sub_one_eq_mod _ 16
  have hfbrd : (r.fbrd &&& 0x3f).toNat = r.fbrd.toNat % 64 := by
    rw [UInt64.toNat_and]
    exact Nat.and_two_pow_sub_one_eq_mod _ 6
  have hshift : (r.ibrd.toNat % 2 ^ 16) <<< ((6 : UInt64).toNat % 64) % 2 ^ 64 =
      2 ^ 6 * (r.ibrd.toNat % 2 ^ 16) := by
    refine (Nat.mod_eq_of_lt (?_ : (r.ibrd.toNat % 2 ^ 16) <<< 6 < 2 ^ 64)).trans
      ((Nat.shiftLeft_eq _ _).trans (Nat.mul_comm _ _))
    rw [Nat.shiftLeft_eq]
    omega
  have hfraction : r.fbrd.toNat % 64 < 2 ^ 6 := Nat.mod_lt _ (by decide)
  rw [readDivisor, UInt64.toNat_or, UInt64.toNat_shiftLeft, hibrd, hfbrd, hshift,
    ← Nat.two_pow_add_eq_or_of_lt hfraction]
  omega

/-- **The registers hold the divisor**, its fraction in six bits. -/
def Holds (r : Pl011Registers) (n : ℕ) : Prop :=
  r.ibrd.toNat * 64 + r.fbrd.toNat = n ∧ r.fbrd.toNat < 64

theorem holds_writeDivisor_iff (hd : d.toNat < 2 ^ 22) :
    Holds (r.writeDivisor d) d.toNat ↔ d.toNat &&& 0x5c = 0 := by
  rw [Holds, toNat_ibrd, toNat_fbrd, ← mask_iff]
  constructor
  · rintro ⟨hsum, hlt⟩
    exact ⟨hlt, by omega⟩
  · rintro ⟨hlt, heq⟩
    exact ⟨by omega, hlt⟩

theorem Holds.readDivisor {n : ℕ} (h : Holds r n) (hn : n < 2 ^ 22) : r.readDivisor.toNat = n := by
  obtain ⟨hsum, hlt⟩ := h
  rw [toNat_readDivisor]
  omega

/-! ## Rates -/

/-- The clock over any number, in sixteenths. -/
theorem toNat_quotient {m : UInt64} {n : ℕ} (hclock : clock.toNat < 2 ^ 48)
    (hm : m.toNat = 16 * n) : ((clock * 64) / m).toNat = 4 * clock.toNat / n := by
  have hmul : (clock * 64).toNat = 16 * (4 * clock.toNat) := by
    have h64 : (64 : UInt64).toNat = 64 := rfl
    rw [UInt64.toNat_mul, h64, Nat.mod_eq_of_lt (by omega)]
    omega
  rw [UInt64.toNat_div, hmul, hm, Nat.mul_div_mul_left _ _ (by decide)]

/-- **A rate is one to set** when its divisor fits the registers and 16
times the rate an `unsigned int`. -/
structure Settable (clock : UInt64) (b : ℕ) : Prop where
  mul_lt : 16 * b < 2 ^ 32
  le_divisor : 64 ≤ 4 * clock.toNat / b
  divisor_lt : 4 * clock.toNat / b < 2 ^ 22

namespace Settable

variable {b : ℕ}

theorem pos (h : Settable clock b) : 0 < b := by
  rcases Nat.eq_zero_or_pos b with rfl | hpos
  · have := h.le_divisor
    simp at this
  · exact hpos

/-- The clock times 64 does not overflow. -/
theorem clock_lt (h : Settable clock b) : clock.toNat < 2 ^ 48 := by
  have hlt := (Nat.div_lt_iff_lt_mul h.pos).1 h.divisor_lt
  have hmul := h.mul_lt
  omega

/-- The rate that is read is little more than the one that was set. -/
theorem rate_lt (h : Settable clock b) : 4 * clock.toNat / (4 * clock.toNat / b) < 2 ^ 32 := by
  have hle := h.le_divisor
  have hpos : 0 < 4 * clock.toNat / b := by omega
  have hmul := h.mul_lt
  -- the clock is less than the rate times the next divisor
  have hlt : 4 * clock.toNat < b * (4 * clock.toNat / b + 1) := Nat.lt_mul_div_succ _ h.pos
  generalize 4 * clock.toNat / b = n at hle hpos hlt ⊢
  rw [Nat.div_lt_iff_lt_mul hpos]
  nlinarith

/-- The rate of the divisor in the registers. -/
theorem toNat_rate (h : Settable clock b) (hr : Holds r (4 * clock.toNat / b)) :
    ((clock * 64) / (16 * r.readDivisor)).toNat = 4 * clock.toNat / (4 * clock.toNat / b) := by
  have hlt := h.divisor_lt
  refine toNat_quotient h.clock_lt ?_
  have h16 : (16 : UInt64).toNat = 16 := rfl
  rw [UInt64.toNat_mul, hr.readDivisor hlt, h16]
  exact Nat.mod_eq_of_lt (by omega)

end Settable

/-- **The registers hold the divisor of a rate just when the divisor has
none of the bits 2, 3, 4 and 6**, and the rate of the divisor is then what
is read back, in both drivers. -/
theorem pl011_baudrate_iff (r : Pl011Registers) (clock : UInt64) :
    (∀ b : UInt32, Settable clock b.toNat →
      ((Holds (r.setBaudrate clock b) (4 * clock.toNat / b.toNat) ∧
        ((r.setBaudrate clock b).getBaudrate clock).toNat =
          4 * clock.toNat / (4 * clock.toNat / b.toNat)) ↔
        4 * clock.toNat / b.toNat &&& 0x5c = 0)) ∧
    ∀ b : UInt64, Settable clock b.toNat →
      ((Holds (r.rtuartSetBaudrate clock b) (4 * clock.toNat / b.toNat) ∧
        ((r.rtuartSetBaudrate clock b).rtuartGetBaudrate clock).toNat =
          4 * clock.toNat / (4 * clock.toNat / b.toNat)) ↔
        4 * clock.toNat / b.toNat &&& 0x5c = 0) := by
  constructor
  · intro b h
    have hd : ((clock * 64) / (16 * b).toUInt64).toNat = 4 * clock.toNat / b.toNat := by
      refine toNat_quotient h.clock_lt ?_
      have h16 : (16 : UInt32).toNat = 16 := rfl
      rw [UInt32.toNat_toUInt64, UInt32.toNat_mul, h16]
      exact Nat.mod_eq_of_lt h.mul_lt
    rw [and_iff_left_of_imp, setBaudrate, ← hd]
    · exact holds_writeDivisor_iff (hd ▸ h.divisor_lt)
    · intro hr
      rw [getBaudrate, UInt64.toNat_toUInt32, h.toNat_rate hr]
      exact Nat.mod_eq_of_lt h.rate_lt
  · intro b h
    have hmul := h.mul_lt
    have hd : ((clock * 64) / (16 * b)).toNat = 4 * clock.toNat / b.toNat := by
      refine toNat_quotient h.clock_lt ?_
      have h16 : (16 : UInt64).toNat = 16 := rfl
      rw [UInt64.toNat_mul, h16]
      exact Nat.mod_eq_of_lt (by omega)
    rw [and_iff_left_of_imp, rtuartSetBaudrate, ← hd]
    · exact holds_writeDivisor_iff (hd ▸ h.divisor_lt)
    · intro hr
      rw [rtuartGetBaudrate, h.toNat_rate hr]

/-- With a clock of 48 MHz and 250000 baud, at which DMX is sent, the
divisor is 768. -/
theorem pl011_baudrate_250000 : Settable 48000000 250000 ∧
    Holds ((⟨0, 0, 0⟩ : Pl011Registers).setBaudrate 48000000 250000) 768 ∧
    Holds ((⟨0, 0, 0⟩ : Pl011Registers).rtuartSetBaudrate 48000000 250000) 768 := by
  have h : Settable 48000000 250000 := ⟨by decide, by decide, by decide⟩
  obtain ⟨huart, hrtuart⟩ := pl011_baudrate_iff ⟨0, 0, 0⟩ 48000000
  exact ⟨h, ((huart 250000 h).2 (by decide)).1, ((hrtuart 250000 h).2 (by decide)).1⟩

/-- With the same clock and 57600 baud it is 3333, of which 3329 is
written. -/
theorem pl011_baudrate_57600 : Settable 48000000 57600 ∧ 4 * 48000000 / 57600 = 3333 ∧
    ¬ Holds ((⟨0, 0, 0⟩ : Pl011Registers).setBaudrate 48000000 57600) 3333 ∧
    ¬ Holds ((⟨0, 0, 0⟩ : Pl011Registers).rtuartSetBaudrate 48000000 57600) 3333 := by
  refine ⟨⟨by decide, by decide, by decide⟩, by decide, fun h => ?_, fun h => ?_⟩
  · exact absurd h.1 (by decide)
  · exact absurd h.1 (by decide)

end Pl011Registers

end Uart

end Dmx4Linux2
