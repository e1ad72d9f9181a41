import Dmx4Linux2.Suart.Model.Handler
import Dmx4Linux2.Uart.Divisor

/-!
# suart — the baud rate

The divisor is the base clock over the baud rate, rounded down, and the
rate that is reported is the base clock over the divisor, rounded down
again. The reported rate is no lower than the one that was set, and it has
the same divisor (`div_div_div`), so setting it changes no register.
-/

namespace Dmx4Linux2

namespace Uart

namespace DummyBus

variable {bus : DummyBus}

/-! ## The driver of the simulation -/

theorem toNat_divisor16 (lsb msb : UInt8) :
    (lsb.toUInt16 ||| (msb.toUInt16 <<< 8)).toNat = lsb.toNat + 256 * msb.toNat := by
  have hmsb := msb.toNat_lt
  have hshift : msb.toNat <<< ((8 : UInt16).toNat % 16) % 2 ^ 16 = msb.toNat <<< 8 := by
    refine Nat.mod_eq_of_lt (?_ : msb.toNat <<< 8 < 2 ^ 16)
    rw [Nat.shiftLeft_eq]
    omega
  rw [UInt16.toNat_or, UInt16.toNat_shiftLeft, UInt8.toNat_toUInt16, UInt8.toNat_toUInt16, hshift,
    lor_shiftLeft_8 _ _ lsb.toNat_lt]

/-- The octets of a divisor. -/
theorem toNat_octets (d : UInt16) :
    d.toUInt8.toNat = d.toNat % 256 ∧ (d >>> 8).toUInt8.toNat = d.toNat / 256 := by
  have hd := d.toNat_lt
  have hshift : d.toNat >>> ((8 : UInt16).toNat % 16) = d.toNat / 256 :=
    Nat.shiftRight_eq_div_pow _ _
  refine ⟨by simp, ?_⟩
  rw [UInt16.toNat_toUInt8, UInt16.toNat_shiftRight, hshift]
  omega

/-- **What is set is read back**, with the registers as they were left. -/
theorem pc16x50Get_set (d : UInt16) :
    (bus.pc16x50SetBaudrateDivisor d).pc16x50GetBaudrateDivisor =
      (d, bus.pc16x50SetBaudrateDivisor d) := by
  have hback : d.toUInt8.toUInt16 ||| ((d >>> 8).toUInt8.toUInt16 <<< 8) = d := by
    obtain ⟨hlow, hhigh⟩ := toNat_octets d
    rw [← UInt16.toNat_inj, toNat_divisor16, hlow, hhigh]
    omega
  rw [pc16x50GetBaudrateDivisor, getDivisor_regDlm, pc16x50SetBaudrateDivisor, setDivisor_regDlm]
  dsimp only
  rw [Function.update_of_ne (by decide), Function.update_self, Function.update_self, hback]

/-- Reading leaves the registers alone, -/
theorem pc16x50Get_registers : bus.pc16x50GetBaudrateDivisor.2 = bus := by
  rw [pc16x50GetBaudrateDivisor, getDivisor_regDlm]

/-- The octets of a divisor made of two. -/
theorem octets_divisor16 (lsb msb : UInt8) :
    (lsb.toUInt16 ||| (msb.toUInt16 <<< 8)).toUInt8 = lsb ∧
      ((lsb.toUInt16 ||| (msb.toUInt16 <<< 8)) >>> 8).toUInt8 = msb := by
  have hlsb := lsb.toNat_lt
  obtain ⟨hlow, hhigh⟩ := toNat_octets (lsb.toUInt16 ||| (msb.toUInt16 <<< 8))
  rw [toNat_divisor16] at hlow hhigh
  constructor
  · rw [← UInt8.toNat_inj, hlow]
    omega
  · rw [← UInt8.toNat_inj, hhigh]
    omega

/-- **and setting what was read changes nothing.** -/
theorem pc16x50Set_get :
    bus.pc16x50SetBaudrateDivisor bus.pc16x50GetBaudrateDivisor.1 = bus := by
  obtain ⟨hlow, hhigh⟩ :=
    octets_divisor16 (bus.registerValues regnoDlabLsb) (bus.registerValues regnoDlabMsb)
  rw [pc16x50GetBaudrateDivisor, getDivisor_regDlm]
  dsimp only
  rw [pc16x50SetBaudrateDivisor, setDivisor_regDlm, hlow, hhigh, Function.update_eq_self,
    Function.update_eq_self]

theorem onlyLatch_pc16x50Set (d : UInt16) : OnlyLatch bus (bus.pc16x50SetBaudrateDivisor d) := by
  rw [pc16x50SetBaudrateDivisor, setDivisor_regDlm]
  intro regno hlsb hmsb
  exact (Function.update_of_ne hmsb _ _).trans (Function.update_of_ne hlsb _ _)

end DummyBus

end Uart

namespace Suart

open Uart (DummyBus regLcr regIer)

/-! ## Rounding -/

/-- Rounded down twice is no lower, -/
theorem le_div_div {n b : ℕ} (hb : 0 < b) (h : b ≤ n) : b ≤ n / (n / b) :=
  (Nat.le_div_iff_mul_le (Nat.div_pos h hb)).2 (Nat.mul_div_le n b)

/-- **and three times is rounded down once.** -/
theorem div_div_div {n b : ℕ} (hb : 0 < b) (h : b ≤ n) : n / (n / (n / b)) = n / b := by
  have hle := le_div_div hb h
  refine le_antisymm (Nat.div_le_div_left hle hb) ?_
  exact (Nat.le_div_iff_mul_le (by omega)).2 (Nat.mul_div_le n (n / b))

/-- The divisor of every rate from 96 on has 16 bits. -/
theorem baudrateDivisor_lt {b : UInt32} (h : 96 ≤ b.toNat) : baudrateDivisor b < 2 ^ 16 := by
  have hle : 100000000 / 16 / b.toNat ≤ 100000000 / 16 / 96 := Nat.div_le_div_left h (by decide)
  unfold baudrateDivisor
  omega

theorem baudrateDivisor_pos {b : UInt32} (h : 96 ≤ b.toNat) (hle : b.toNat ≤ 6250000) :
    0 < baudrateDivisor b :=
  Nat.div_pos hle (by omega)

/-- The rate that is reported after `b` was set. -/
def reportedRate (b : UInt32) : UInt32 := UInt32.ofNat (6250000 / baudrateDivisor b)

theorem toNat_reportedRate {b : UInt32} :
    (reportedRate b).toNat = 6250000 / baudrateDivisor b := by
  have hle : 6250000 / baudrateDivisor b ≤ 6250000 := Nat.div_le_self _ _
  rw [reportedRate, UInt32.toNat_ofNat']
  exact Nat.mod_eq_of_lt (lt_of_le_of_lt hle (by decide))

/-- What is reported, and that nothing else happens. -/
theorem handleBaudrate_get {bus : DummyBus} {b v : UInt32} (h : 96 ≤ b.toNat)
    (hle : b.toNat ≤ 6250000) :
    handleBaudrate (handleBaudrate bus (.setBaudrate b)).1 (.getBaudrate v) =
      ((handleBaudrate bus (.setBaudrate b)).1, some (.getBaudrate (reportedRate b))) := by
  have hlt := baudrateDivisor_lt h
  have hpos := baudrateDivisor_pos h hle
  have hdivisor : (UInt16.ofNat (baudrateDivisor b)).toNat = baudrateDivisor b := by
    rw [UInt16.toNat_ofNat']
    omega
  have hne : UInt16.ofNat (baudrateDivisor b) ≠ 0 := by
    intro hzero
    rw [hzero] at hdivisor
    exact absurd hdivisor.symm hpos.ne'
  simp only [handleBaudrate, DummyBus.pc16x50Get_set]
  rw [if_neg hne, hdivisor, reportedRate]

theorem baudrateDivisor_reportedRate {b : UInt32} (h : 96 ≤ b.toNat) (hle : b.toNat ≤ 6250000) :
    baudrateDivisor (reportedRate b) = baudrateDivisor b := by
  rw [baudrateDivisor, toNat_reportedRate]
  exact div_div_div (n := 6250000) (by omega) hle

/-- **A baud rate that is set**: the rate reported afterwards is no lower,
and setting that rate changes no register. The divisor is set and read
back as it is, with the other registers left alone. -/
theorem suart_baudrate (bus : DummyBus) :
    (∀ b v : UInt32, 96 ≤ b.toNat → b.toNat ≤ 6250000 → ∃ r : UInt32, b.toNat ≤ r.toNat ∧
      handleBaudrate (handleBaudrate bus (.setBaudrate b)).1 (.getBaudrate v) =
        ((handleBaudrate bus (.setBaudrate b)).1, some (.getBaudrate r)) ∧
      handleBaudrate (handleBaudrate bus (.setBaudrate b)).1 (.setBaudrate r) =
        ((handleBaudrate bus (.setBaudrate b)).1, none)) ∧
    (∀ d : UInt16, (bus.pc16x50SetBaudrateDivisor d).pc16x50GetBaudrateDivisor.1 = d ∧
      (bus.pc16x50SetBaudrateDivisor d).registerValues regLcr = bus.registerValues regLcr ∧
      (bus.pc16x50SetBaudrateDivisor d).registerValues regIer = bus.registerValues regIer) ∧
    bus.pc16x50SetBaudrateDivisor bus.pc16x50GetBaudrateDivisor.1 = bus ∧
    bus.pc16x50GetBaudrateDivisor.2 = bus := by
  refine ⟨fun b v h hle => ⟨reportedRate b, ?_, handleBaudrate_get h hle, ?_⟩, fun d => ?_,
    DummyBus.pc16x50Set_get, DummyBus.pc16x50Get_registers⟩
  · rw [toNat_reportedRate]
    exact le_div_div (n := 6250000) (by omega) hle
  · have hagain := @DummyBus.pc16x50Set_get (handleBaudrate bus (.setBaudrate b)).1
    simp only [handleBaudrate, baudrateDivisor_reportedRate h hle] at hagain ⊢
    rw [DummyBus.pc16x50Get_set] at hagain
    rw [hagain]
  · have hother := @DummyBus.onlyLatch_pc16x50Set bus d
    rw [DummyBus.pc16x50Get_set]
    exact ⟨rfl, hother regLcr (by decide) (by decide), hother regIer (by decide) (by decide)⟩

/-- 250000 baud, at which DMX is sent, over the registers as they are
initialised. -/
theorem suart_baudrate_250000 : ∃ r : UInt32, 250000 ≤ r.toNat ∧
    handleBaudrate (handleBaudrate (.init fun _ => 0) (.setBaudrate 250000)).1 (.setBaudrate r) =
      ((handleBaudrate (.init fun _ => 0) (.setBaudrate 250000)).1, none) := by
  obtain ⟨r, hle, -, hset⟩ :=
    (suart_baudrate (.init fun _ => 0)).1 250000 0 (by decide) (by decide)
  exact ⟨r, hle, hset⟩

end Suart

end Dmx4Linux2
