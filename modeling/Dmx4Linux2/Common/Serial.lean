import Mathlib.Data.List.Basic
import Mathlib.Data.UInt

/-!
# Asynchronous serial lines

An octet on a serial line is a low start bit, its eight bits from the lowest
on, and a high stop bit. A receiver that samples the line once for each bit
waits for the start bit; an octet without its stop bit is broken, and the
line has to be high again before the next one. Octets with any number of high
bits behind them are received as they were sent (`receive_idle_frame`).
-/

namespace Dmx4Linux2

namespace Serial

/-- The bits of an octet, from the lowest on, -/
def octetBits (c : UInt8) : List Bool := (List.range 8).map fun i => c.toBitVec.getLsbD i

/-- and the octet of some bits. -/
def ofBits (bits : List Bool) : UInt8 := bits.foldr (fun b c => 2 * c + if b then 1 else 0) 0

/-- An octet on the line, with `n` high bits behind its stop bit. -/
def frame (c : UInt8) (n : ℕ) : List Bool := false :: (octetBits c ++ List.replicate (n + 1) true)

/-- What is received. -/
inductive Symbol
  | octet (c : UInt8)
  | broken (c : UInt8)
  deriving DecidableEq, Repr

/-- **A receiver**: it waits for a start bit, it has some bits of an octet,
or it waits for the line to be high. -/
inductive Receiver
  | idle
  | bits (bs : List Bool)
  | low
  deriving DecidableEq, Repr

/-- A sample is taken. -/
def Receiver.sample : Receiver → Bool → Receiver × Option Symbol
  | .idle, b => (if b then .idle else .bits [], none)
  | .bits bs, b =>
    if bs.length < 8 then (.bits (bs ++ [b]), none)
    else if b then (.idle, some (.octet (ofBits bs)))
    else (.low, some (.broken (ofBits bs)))
  | .low, b => (if b then .idle else .low, none)

/-- What the samples of a line are received as. -/
def receive (r : Receiver) : List Bool → List Symbol
  | [] => []
  | b :: bs => (r.sample b).2.toList ++ receive (r.sample b).1 bs

variable {r : Receiver} {b : Bool} {bs cs : List Bool} {c : UInt8} {n : ℕ}

theorem length_octetBits : (octetBits c).length = 8 := by simp [octetBits]

theorem ofBits_octetBits (c : UInt8) : ofBits (octetBits c) = c := by
  have hall : ∀ n : Fin 256, ofBits (octetBits (UInt8.ofNat n)) = UInt8.ofNat n := by decide +kernel
  have h := hall ⟨c.toNat, c.toNat_lt⟩
  rwa [UInt8.ofNat_toNat] at h

/-- The bits of an octet are gathered. -/
theorem receive_bits (h : bs.length + cs.length = 8) (ds : List Bool) :
    receive (.bits bs) (cs ++ ds) = receive (.bits (bs ++ cs)) ds := by
  induction cs generalizing bs with
  | nil => rw [List.nil_append, List.append_nil]
  | cons c cs ih =>
    rw [List.length_cons] at h
    have hmore : bs.length < 8 := by omega
    have hrest : (bs ++ [c]).length + cs.length = 8 := by
      rw [List.length_append, List.length_singleton]
      omega
    rw [List.cons_append, receive, Receiver.sample, if_pos hmore, ih hrest]
    simp

/-- A line that is high says nothing. -/
theorem receive_idle_high (n : ℕ) (ds : List Bool) :
    receive .idle (List.replicate n true ++ ds) = receive .idle ds := by
  induction n with
  | zero => rfl
  | succ n ih =>
    rw [List.replicate_succ, List.cons_append, receive, Receiver.sample]
    exact ih

/-- **An octet is received as it was sent.** -/
theorem receive_idle_frame (c : UInt8) (n : ℕ) (ds : List Bool) :
    receive .idle (frame c n ++ ds) = .octet c :: receive .idle ds := by
  have hstart : ∀ bs, receive .idle (false :: bs) = receive (.bits []) bs := fun _ => rfl
  have hfull : ¬ (octetBits c).length < 8 := by
    rw [length_octetBits]
    omega
  rw [frame, List.cons_append, hstart, List.append_assoc, receive_bits (by simp [octetBits]),
    List.nil_append, List.replicate_succ, List.cons_append, receive, Receiver.sample,
    if_neg hfull, if_pos rfl, ofBits_octetBits]
  exact congrArg (_ :: ·) (receive_idle_high n ds)

/-- A line that stays low is waited for. -/
theorem receive_low (n : ℕ) (ds : List Bool) :
    receive .low (List.replicate n false ++ true :: ds) = receive .idle ds := by
  induction n with
  | zero => rfl
  | succ n ih =>
    rw [List.replicate_succ, List.cons_append, receive, Receiver.sample]
    exact ih

/-- **A break**: the line is low for an octet and its two other bits, or for
longer. -/
theorem receive_idle_break (n : ℕ) (ds : List Bool) :
    receive .idle (List.replicate (n + 10) false ++ true :: ds) =
      .broken 0 :: receive .idle ds := by
  have hsplit : List.replicate (n + 10) false =
      false :: (List.replicate 8 false ++ false :: List.replicate n false) := by
    rw [show n + 10 = 1 + (8 + (1 + n)) by omega, List.replicate_add, List.replicate_add,
      List.replicate_add]
    rfl
  have hstart : ∀ bs, receive .idle (false :: bs) = receive (.bits []) bs := fun _ => rfl
  have hstop : ∀ bs, receive (.bits (List.replicate 8 false)) (false :: bs) =
      .broken 0 :: receive .low bs := fun _ => rfl
  rw [hsplit, List.cons_append, hstart, List.append_assoc, receive_bits (by simp),
    List.nil_append, List.cons_append, hstop, receive_low]

end Serial

end Dmx4Linux2
