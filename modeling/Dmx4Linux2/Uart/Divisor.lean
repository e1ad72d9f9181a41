import Dmx4Linux2.Uart.Model.Bus
import Mathlib.Tactic.SplitIfs

/-!
# 16550 — the divisor latch

What the four accesses of a divisor leave in the registers
(`setDivisor_regDlm`, `setDivisor_regLcr`, `getDivisor_regDlm`). Two
drivers set the divisor. The one of the simulation writes both halves of
the latch; the one of the testbench writes the upper half to the line
control register, which is overwritten by the next access, and so does not
change that half of the latch.
-/

namespace Dmx4Linux2

namespace Uart

namespace DummyBus

variable {bus : DummyBus} {lsb msb v : UInt8}

/-! ## Single accesses -/

theorem readReg_regLcr : bus.readReg regLcr = bus.registerValues regLcr := by
  simp [readReg, readInternalReg, regLcr]

theorem writeReg_regLcr :
    bus.writeReg regLcr v = ⟨Function.update bus.registerValues regLcr v⟩ := by
  simp [writeReg, writeInternalReg, regLcr, regIir]

/-- The bit that is set is found set. -/
theorem dlab_writeReg : (bus.writeReg regLcr (v ||| lcrDlab)).dlab = true := by
  rw [writeReg_regLcr, dlab]
  dsimp only
  rw [Function.update_self, UInt8.or_comm, lcrDlab, masked_and_mask]
  rfl

theorem dlab_update {regno : ℕ} (h : regno ≠ regLcr) :
    (⟨Function.update bus.registerValues regno v⟩ : DummyBus).dlab = bus.dlab := by
  rw [dlab]
  dsimp only
  rw [Function.update_of_ne h.symm]
  rfl

theorem readReg_regDll (h : bus.dlab = true) :
    bus.readReg regDll = bus.registerValues regnoDlabLsb := by
  simp [readReg, readInternalReg, h, regDll, regnoDlabLsb]

theorem readReg_regDlm (h : bus.dlab = true) :
    bus.readReg regDlm = bus.registerValues regnoDlabMsb := by
  simp [readReg, readInternalReg, h, regDlm, regnoDlabMsb]

theorem writeReg_regDll (h : bus.dlab = true) :
    bus.writeReg regDll v = ⟨Function.update bus.registerValues regnoDlabLsb v⟩ := by
  simp [writeReg, writeInternalReg, h, regDll, regnoDlabLsb, regIir]

theorem writeReg_regDlm (h : bus.dlab = true) :
    bus.writeReg regDlm v = ⟨Function.update bus.registerValues regnoDlabMsb v⟩ := by
  simp [writeReg, writeInternalReg, h, regDlm, regnoDlabMsb, regIir]

/-! ## The divisor -/

/-- Both halves are written, and the line control register is as before. -/
theorem setDivisor_regDlm : bus.setDivisor regDlm lsb msb =
    ⟨Function.update (Function.update bus.registerValues regnoDlabLsb lsb) regnoDlabMsb msb⟩ := by
  have hdlab : (bus.writeReg regLcr (bus.registerValues regLcr ||| lcrDlab)).dlab = true :=
    dlab_writeReg
  rw [setDivisor, readReg_regLcr, writeReg_regDll hdlab,
    writeReg_regDlm ((dlab_update (by decide)).trans hdlab), writeReg_regLcr, writeReg_regLcr]
  congr 1
  funext i
  simp only [Function.update_apply, regLcr, regnoDlabLsb, regnoDlabMsb]
  split_ifs <;> simp_all

/-- **With the line control register in the place of the upper half, that
half is not written.** -/
theorem setDivisor_regLcr : bus.setDivisor regLcr lsb msb =
    ⟨Function.update bus.registerValues regnoDlabLsb lsb⟩ := by
  have hdlab : (bus.writeReg regLcr (bus.registerValues regLcr ||| lcrDlab)).dlab = true :=
    dlab_writeReg
  rw [setDivisor, readReg_regLcr, writeReg_regDll hdlab, writeReg_regLcr, writeReg_regLcr,
    writeReg_regLcr]
  congr 1
  funext i
  simp only [Function.update_apply, regLcr, regnoDlabLsb]
  split_ifs <;> simp_all

/-- Both halves are read, and no register changes. -/
theorem getDivisor_regDlm : bus.getDivisor regDlm =
    ((bus.registerValues regnoDlabLsb, bus.registerValues regnoDlabMsb), bus) := by
  have hdlab : (bus.writeReg regLcr (bus.registerValues regLcr ||| lcrDlab)).dlab = true :=
    dlab_writeReg
  have hback : (bus.writeReg regLcr (bus.registerValues regLcr ||| lcrDlab)).writeReg regLcr
      (bus.registerValues regLcr) = bus := by
    rw [writeReg_regLcr, writeReg_regLcr, Function.update_idem, Function.update_eq_self]
  rw [getDivisor, readReg_regLcr, readReg_regDll hdlab, readReg_regDlm hdlab, hback,
    writeReg_regLcr]
  dsimp only
  rw [Function.update_of_ne (by decide), Function.update_of_ne (by decide)]

/-- The halves of a number. -/
theorem lor_shiftLeft_8 (a b : ℕ) (ha : a < 256) : a ||| b <<< 8 = a + 256 * b := by
  have hor := Nat.two_pow_add_eq_or_of_lt (i := 8) ha b
  rw [Nat.shiftLeft_eq, Nat.or_comm, Nat.mul_comm b, ← hor]
  omega

/-- **All registers but the two of the latch are as before.** -/
def OnlyLatch (bus bus' : DummyBus) : Prop :=
  ∀ regno, regno ≠ regnoDlabLsb → regno ≠ regnoDlabMsb →
    bus'.registerValues regno = bus.registerValues regno

theorem onlyLatch_update {latch : ℕ} (h : latch = regnoDlabLsb ∨ latch = regnoDlabMsb) :
    OnlyLatch bus ⟨Function.update bus.registerValues latch v⟩ := by
  intro regno hlsb hmsb
  refine Function.update_of_ne ?_ _ _
  rcases h with rfl | rfl
  · exact hlsb
  · exact hmsb

/-! ## The driver of the testbench -/

theorem toNat_divisor (lsb msb : UInt8) :
    (lsb.toUInt32 ||| (msb.toUInt32 <<< 8)).toNat = lsb.toNat + 256 * msb.toNat := by
  have hmsb := msb.toNat_lt
  have hshift : msb.toNat <<< ((8 : UInt32).toNat % 32) % 2 ^ 32 = msb.toNat <<< 8 := by
    refine Nat.mod_eq_of_lt (?_ : msb.toNat <<< 8 < 2 ^ 32)
    rw [Nat.shiftLeft_eq]
    omega
  rw [UInt32.toNat_or, UInt32.toNat_shiftLeft, UInt8.toNat_toUInt32, UInt8.toNat_toUInt32, hshift,
    lor_shiftLeft_8 _ _ lsb.toNat_lt]

/-- What is read back is the lower half of what was set and the upper half
that was there. -/
theorem getBaudrateDivisor_set (d : UInt32) :
    (bus.pc16c550SetBaudrateDivisor d).pc16c550GetBaudrateDivisor =
      (d.toUInt8.toUInt32 ||| ((bus.registerValues regnoDlabMsb).toUInt32 <<< 8),
        bus.pc16c550SetBaudrateDivisor d) := by
  rw [pc16c550GetBaudrateDivisor, getDivisor_regDlm, pc16c550SetBaudrateDivisor, setDivisor_regLcr]
  dsimp only
  rw [Function.update_self, Function.update_of_ne (by decide)]

/-- **A divisor that is set is read back just when its upper half was in
the latch before**; all other registers are left alone by both calls. -/
theorem pc16c550_divisor_iff (bus : DummyBus) (d : UInt16) :
    ((bus.pc16c550SetBaudrateDivisor d.toUInt32).pc16c550GetBaudrateDivisor.1 = d.toUInt32 ∧
      OnlyLatch bus (bus.pc16c550SetBaudrateDivisor d.toUInt32) ∧
      OnlyLatch bus bus.pc16c550GetBaudrateDivisor.2) ↔
    (bus.registerValues regnoDlabMsb).toNat = d.toNat / 256 := by
  have hset : OnlyLatch bus (bus.pc16c550SetBaudrateDivisor d.toUInt32) := by
    rw [pc16c550SetBaudrateDivisor, setDivisor_regLcr]
    exact onlyLatch_update (.inl rfl)
  have hget : OnlyLatch bus bus.pc16c550GetBaudrateDivisor.2 := by
    rw [pc16c550GetBaudrateDivisor, getDivisor_regDlm]
    exact fun _ _ _ => rfl
  have hlow : d.toUInt32.toUInt8.toNat = d.toNat % 256 := by simp
  rw [and_iff_left ⟨hset, hget⟩, getBaudrateDivisor_set, ← UInt32.toNat_inj, toNat_divisor, hlow,
    UInt16.toNat_toUInt32]
  omega

/-- Divisor 256 over the registers as they are initialised: 0 is read
back. -/
theorem pc16c550_divisor_256 :
    (DummyBus.init fun _ => 0).dlab = false ∧
      ((DummyBus.init fun _ => 0).pc16c550SetBaudrateDivisor 256).pc16c550GetBaudrateDivisor.1 = 0 ∧
      ¬ ∀ (bus : DummyBus) (d : UInt16), bus.dlab = false →
        (bus.pc16c550SetBaudrateDivisor d.toUInt32).pc16c550GetBaudrateDivisor.1 = d.toUInt32 := by
  have hread : ((DummyBus.init fun _ => 0).pc16c550SetBaudrateDivisor 256).pc16c550GetBaudrateDivisor.1
      = 0 := by decide
  refine ⟨by decide, hread, fun h => ?_⟩
  have h256 := h (DummyBus.init fun _ => 0) 256 (by decide)
  exact absurd (hread.symm.trans h256) (by decide)

end DummyBus

end Uart

end Dmx4Linux2
