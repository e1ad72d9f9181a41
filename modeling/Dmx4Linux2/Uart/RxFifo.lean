import Dmx4Linux2.Common.Kfifo
import Dmx4Linux2.Common.Ring
import Dmx4Linux2.Common.Run
import Dmx4Linux2.Uart.Model.Pl011

/-!
# PL011 driver — the ring is a FIFO of 63 octets

The octets in the ring are those from `outptr` up to `inptr`
(`Represents`). Every call does to them what it does to a bounded FIFO,
and `level`, `full` and `empty`, each with a formula of its own, tell how
many there are.
-/

namespace Dmx4Linux2

namespace Uart

namespace RxFifo

/-- A call of `pl011_rx_fifo_put`, `pl011_rx_fifo_get` or
`pl011_rx_fifo_flush`. -/
inductive Call
  | put (v : UInt8)
  | get
  | flush
  deriving DecidableEq, Repr

def step (f : RxFifo) : Call → RxFifo
  | .put v => f.put v
  | .get => f.get.2
  | .flush => f.flush

/-- The octet a call returns, if any. -/
def returned (f : RxFifo) : Call → Option UInt8
  | .get => f.get.1
  | _ => none

/-! ## The bounded FIFO -/

/-- What a call is to do to a FIFO of 63 octets, -/
def Call.apply (q : Kfifo UInt8 63) : Call → Kfifo UInt8 63
  | .put v => q.put [v]
  | .get => (q.out 1).2
  | .flush => Kfifo.empty

/-- and what it is to return. -/
def Call.answer (q : Kfifo UInt8 63) : Call → Option UInt8
  | .get => q.peek
  | _ => none

/-- **The ring holds the octets of the FIFO**, with both positions inside
the array. -/
structure Represents (f : RxFifo) (q : Kfifo UInt8 63) : Prop where
  inptr_lt : f.inptr.toNat < 64
  outptr_lt : f.outptr.toNat < 64
  items : Ring.items 64 f.fifo f.outptr.toNat f.inptr.toNat = q.items

variable {f : RxFifo} {q : Kfifo UInt8 63}

theorem and_63 {p : ℕ} (hp : p < 64) : (p + 1) &&& 63 = Ring.next 64 p := by
  rw [show 63 = 2 ^ 6 - 1 from rfl, Nat.and_two_pow_sub_one_eq_mod]
  unfold Ring.next
  split <;> omega

/-- A position that was moved is one again. -/
theorem toNat_ofNat_next {p : ℕ} (hp : p < 64) :
    (UInt8.ofNat (Ring.next 64 p)).toNat = Ring.next 64 p := by
  have hlt := Ring.next_lt hp
  rw [UInt8.toNat_ofNat']
  omega

/-- A ring that was initialised or flushed is empty. -/
theorem represents_empty (h : f.inptr = f.outptr) (hlt : f.outptr.toNat < 64) :
    Represents f Kfifo.empty := by
  refine ⟨by rw [h]; exact hlt, hlt, ?_⟩
  rw [h, Ring.items_self]
  rfl

namespace Represents

theorem len_eq (h : Represents f q) :
    Ring.distance 64 f.outptr.toNat f.inptr.toNat = q.len := by
  have hlength := congrArg List.length h.items
  rwa [Ring.length_items] at hlength

/-- **`full` is exact**, -/
theorem full_iff (h : Represents f q) : f.full = true ↔ q.len = 63 := by
  rw [full, beq_iff_eq, and_63 h.inptr_lt, Ring.next_eq_iff h.outptr_lt h.inptr_lt, h.len_eq]

/-- **so is `empty`**, -/
theorem empty_iff (h : Represents f q) : f.empty = true ↔ q.len = 0 := by
  rw [empty, beq_iff_eq, ← h.len_eq, Ring.distance_eq_zero_iff h.outptr_lt, eq_comm,
    UInt8.toNat_inj]

/-- **and `level` is the number of octets.** -/
theorem level_eq (h : Represents f q) : f.level = q.len := by
  have hin := h.inptr_lt
  have hout := h.outptr_lt
  rw [← h.len_eq, level]
  by_cases hempty : f.empty = true
  · have hzero := h.len_eq.trans (h.empty_iff.1 hempty)
    rw [if_pos hempty, hzero]
    rfl
  · rw [if_neg hempty, Ring.distance]
    have hne : f.inptr.toNat ≠ f.outptr.toNat := by
      intro heq
      exact hempty (beq_iff_eq.2 (UInt8.toNat_inj.1 heq))
    simp only [UInt8.lt_iff_toNat_lt, sizeofFifo]
    split_ifs <;> omega

/-- A put into a full ring changes nothing, -/
theorem put_of_full (h : Represents f q) (hlen : q.len = 63) (v : UInt8) : f.put v = f := by
  rw [put, if_pos (h.full_iff.2 hlen)]

/-- and any other appends the octet. -/
theorem put_of_lt (h : Represents f q) (hlen : q.len < 63) (v : UInt8) :
    Represents (f.put v) (q.put [v]) := by
  have hfull : ¬ f.full = true := by
    intro hfull
    have := h.full_iff.1 hfull
    omega
  have hnext : Ring.next 64 f.inptr.toNat ≠ f.outptr.toNat := by
    intro hnext
    rw [Ring.next_eq_iff h.outptr_lt h.inptr_lt, h.len_eq] at hnext
    omega
  have hitems : (q.put [v]).items = q.items ++ [v] := by
    refine Kfifo.put_items_of_le ?_
    have : q.items.length = q.len := rfl
    simp only [List.length_singleton]
    omega
  rw [put, if_neg hfull]
  dsimp only
  rw [and_63 h.inptr_lt]
  refine ⟨?_, h.outptr_lt, ?_⟩
  · rw [toNat_ofNat_next h.inptr_lt]
    exact Ring.next_lt h.inptr_lt
  · rw [toNat_ofNat_next h.inptr_lt, Ring.items_store h.outptr_lt h.inptr_lt hnext, h.items,
      hitems]

theorem put (h : Represents f q) (v : UInt8) : Represents (f.put v) (q.put [v]) := by
  have hle : q.len ≤ 63 := q.length_le
  by_cases hlen : q.len = 63
  · have hsame : q.put [v] = q := by
      have hlength : q.items.length = 63 := hlen
      cases q
      simp_all [Kfifo.put, Kfifo.avail]
    rw [h.put_of_full hlen, hsame]
    exact h
  · exact h.put_of_lt (by omega) v

/-- **A get takes the oldest octet**, and fails when there is none. -/
theorem get (h : Represents f q) :
    f.get.1 = q.peek ∧ Represents f.get.2 (q.out 1).2 := by
  rw [RxFifo.get]
  by_cases hempty : f.empty = true
  · have hnil : q.items = [] := List.length_eq_zero_iff.1 (h.empty_iff.1 hempty)
    rw [if_pos hempty]
    refine ⟨by simp [Kfifo.peek, hnil], h.inptr_lt, h.outptr_lt, ?_⟩
    simp [h.items, Kfifo.out, hnil]
  · have hne : f.outptr.toNat ≠ f.inptr.toNat := by
      intro heq
      exact hempty (beq_iff_eq.2 (UInt8.toNat_inj.1 heq.symm))
    have hitems := h.items
    rw [Ring.items_take h.outptr_lt h.inptr_lt hne] at hitems
    rw [if_neg hempty]
    dsimp only
    rw [and_63 h.outptr_lt]
    refine ⟨by simp [Kfifo.peek, ← hitems], h.inptr_lt, ?_, ?_⟩
    · rw [toNat_ofNat_next h.outptr_lt]
      exact Ring.next_lt h.outptr_lt
    · rw [toNat_ofNat_next h.outptr_lt]
      simp [Kfifo.out, ← hitems]

theorem flush (h : Represents f q) : Represents f.flush Kfifo.empty :=
  represents_empty rfl h.outptr_lt

/-- One call. -/
theorem step (h : Represents f q) (c : Call) : Represents (f.step c) (c.apply q) := by
  cases c with
  | put v => exact h.put v
  | get => exact h.get.2
  | flush => exact h.flush

theorem returned_eq (h : Represents f q) (c : Call) : f.returned c = c.answer q := by
  cases c with
  | put v => rfl
  | get => exact h.get.1
  | flush => rfl

/-- Any number of calls. -/
theorem run (h : Represents f q) (cs : List Call) :
    Represents (Dmx4Linux2.run RxFifo.step f cs) (Dmx4Linux2.run Call.apply q cs) := by
  induction cs generalizing f q with
  | nil => exact h
  | cons c cs ih => exact ih (h.step c)

end Represents

/-- **The software FIFO of the PL011 driver is a FIFO of 63 octets**,
whatever is called in whatever order, from any state in which it is
empty. -/
theorem rxFifo_refines_fifo (h : f.inptr = f.outptr) (hlt : f.outptr.toNat < 64)
    (cs : List Call) {s : RxFifo} (hs : run step f cs = s) {q : Kfifo UInt8 63}
    (hq : run Call.apply Kfifo.empty cs = q) :
    Represents s q ∧ (∀ c, Represents (s.step c) (c.apply q) ∧ s.returned c = c.answer q) ∧
      (∀ v, q.len < 63 → (q.put [v]).items = q.items ++ [v]) ∧
      (∀ v, q.len = 63 → s.put v = s) ∧
      s.level = q.len ∧ (s.full = true ↔ q.len = 63) ∧ (s.empty = true ↔ q.len = 0) := by
  have hrep : Represents s q := by
    rw [← hs, ← hq]
    exact (represents_empty h hlt).run cs
  refine ⟨hrep, fun c => ⟨hrep.step c, hrep.returned_eq c⟩, fun v hlen => ?_,
    fun v hlen => hrep.put_of_full hlen v, hrep.level_eq, hrep.full_iff, hrep.empty_iff⟩
  exact Kfifo.put_items_of_le hlen

/-- Two octets through a ring whose positions are at its last cell. -/
theorem rxFifo_refines_fifo_last :
    (⟨fun _ => 0, 63, 63⟩ : RxFifo).inptr = 63 ∧
      Represents (run step ⟨fun _ => 0, 63, 63⟩ [.put 1, .put 2])
        (run Call.apply Kfifo.empty [.put 1, .put 2]) :=
  ⟨rfl, (rxFifo_refines_fifo (f := ⟨fun _ => 0, 63, 63⟩) rfl (by decide) [.put 1, .put 2]
    rfl rfl).1⟩

end RxFifo

end Uart

end Dmx4Linux2
