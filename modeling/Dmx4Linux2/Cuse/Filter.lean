import Dmx4Linux2.Cuse.Loop

/-!
# CUSE framework — the filter of a context

A frame selects the contexts in use whose mask has the bit that the
framework tests (`selects_iff`), whatever the other contexts of the card
are. The bit is computed in an `int` of 32 bits, so for the ports from 31
on the test is one of other bits of the mask (`and_shiftOne_iff`,
`selects_own_bit_iff`).
-/

namespace Dmx4Linux2

namespace Cuse

open Dmx4Linux2.Core

variable {ι : Type} [DecidableEq ι]
variable {d : Daemon ι} {k k' : Key ι} {card : ι} {i : Fin 32} {frame : Frame}
variable {interrupted : Req ι → Bool} {mask : UInt64} {port : UInt16}

/-! ## The bits that are tested -/

/-- The bit of the mask that the shift tests; for the ports 31 and 63, all
from the sign on. -/
def testedBits (mask : UInt64) (port : UInt16) : Prop :=
  if port.toNat % 32 = 31 then 2 ^ 31 ≤ mask.toNat
  else mask.toNat.testBit (port.toNat % 32) = true

/-- The bits that the sign is widened to. -/
theorem and_sign_eq_zero_iff {n : ℕ} (hn : n < 2 ^ 64) :
    n &&& 0xFFFFFFFF80000000 = 0 ↔ n < 2 ^ 31 := by
  have hbits : ∀ j, j < 64 → (0xFFFFFFFF80000000 : ℕ).testBit j = decide (31 ≤ j) := by decide
  constructor
  · intro hzero
    refine Nat.lt_pow_two_of_testBit n fun j hj => ?_
    by_cases hj' : j < 64
    · have hbit := congrArg (fun x => x.testBit j) hzero
      simpa [Nat.testBit_and, hbits j hj', hj] using hbit
    · refine Nat.testBit_lt_two_pow (lt_of_lt_of_le hn ?_)
      exact Nat.pow_le_pow_right (by decide) (by omega)
  · intro hlt
    refine Nat.eq_of_testBit_eq fun j => ?_
    rw [Nat.testBit_and, Nat.zero_testBit]
    by_cases hj : j < 31
    · rw [hbits j (by omega), decide_eq_false (by omega), Bool.and_false]
    · have hhigh : n.testBit j = false := by
        refine Nat.testBit_lt_two_pow (lt_of_lt_of_le hlt ?_)
        exact Nat.pow_le_pow_right (by decide) (by omega)
      rw [hhigh, Bool.false_and]

/-- **What the test of the framework tests.** -/
theorem and_shiftOne_iff (mask : UInt64) (port : UInt16) :
    mask &&& Context.shiftOne port ≠ 0 ↔ testedBits mask port := by
  unfold Context.shiftOne testedBits
  split
  · rw [Ne, ← UInt64.toNat_inj, UInt64.toNat_and]
    exact (not_congr (and_sign_eq_zero_iff mask.toNat_lt)).trans Nat.not_lt
  -- any other count leaves a single bit, which is not widened
  · have hpow : 2 ^ (port.toNat % 32) < 2 ^ 64 := Nat.pow_lt_pow_right (by omega) (by omega)
    rw [Ne, ← UInt64.toNat_inj, UInt64.toNat_and, UInt64.toNat_ofNat', Nat.mod_eq_of_lt hpow,
      Nat.and_two_pow]
    cases mask.toNat.testBit (port.toNat % 32) <;> simp

/-- For the lower ports it is their own bit. -/
theorem testedBits_iff_hasPort (hport : port.toNat < 31) :
    testedBits mask port ↔ hasPort mask port = true := by
  rw [← and_shiftOne_iff, and_shiftOne_ne_zero mask hport]

/-- The mask that applies to a frame. -/
def Context.maskFor (ctx : Context ι) (frame : Frame) : UInt64 :=
  if frame.flags &&& isTransmitFrame ≠ 0 then ctx.portTxmask else ctx.portMask

omit [DecidableEq ι] in
theorem passes_iff (ctx : Context ι) (frame : Frame) :
    ctx.passes frame = true ↔ frame.port.toNat < 64 ∧ testedBits (ctx.maskFor frame) frame.port := by
  have hlt : frame.port < 64 ↔ frame.port.toNat < 64 := UInt16.lt_iff_toNat_lt
  unfold Context.passes
  simp only [Bool.and_eq_true, decide_eq_true_eq, hlt]
  rw [← and_shiftOne_iff]
  rfl

/-! ## Which contexts a frame selects -/

/-- A frame passed the filter of the context. -/
def Action.selects (k : Key ι) : Action ι → Bool
  | .passed k' _ _ _ => k' = k
  | _ => false

/-- How often a frame has passed the filter of a context. -/
def Daemon.selections (d : Daemon ι) (k : Key ι) : ℕ := d.actions.countP (Action.selects k)

/-- **A received frame selects the context.** -/
def Daemon.Selects (d : Daemon ι) (card : ι) (i : Fin 32) (frame : Frame)
    (interrupted : Req ι → Bool) : Prop :=
  d.selections (card, i) < (d.handleReceivedFrame card frame interrupted).selections (card, i)

/-- What the test reads of a context. -/
def Context.gate (ctx : Context ι) : Bool × UInt64 × UInt64 :=
  (ctx.inUse, ctx.portMask, ctx.portTxmask)

/-- The context is in use and the frame passes its filter. -/
def Context.admits (ctx : Context ι) (frame : Frame) : Bool := ctx.inUse && ctx.passes frame

omit [DecidableEq ι] in
theorem Context.admits_congr {ctx ctx' : Context ι} (h : ctx.gate = ctx'.gate) (frame : Frame) :
    ctx.admits frame = ctx'.admits frame := by
  simp only [Context.gate, Prod.mk.injEq] at h
  unfold Context.admits Context.passes
  rw [h.1, h.2.1, h.2.2]

namespace Daemon

@[simp] theorem act_selections (a : Action ι) (k : Key ι) :
    (d.act a).selections k = d.selections k + (a.selects k).toNat := by
  simp only [selections, act, List.countP_append, List.countP_singleton]
  cases a.selects k <;> rfl

@[simp] theorem reply_selections (req : Req ι) (r : Reply) (k : Key ι) :
    (d.reply req r).selections k = d.selections k := by
  rw [reply, act_selections]
  rfl

@[simp] theorem setContext_selections (ctx : Context ι) :
    (d.setContext k ctx).selections k' = d.selections k' := rfl

/-- A context that is replaced by one with the same gate. -/
theorem gate_of_update {d' : Daemon ι} {ctx : Context ι}
    (hctx : d'.contexts = Function.update d.contexts k ctx) (h : ctx.gate = (d.contexts k).gate)
    (k' : Key ι) : (d'.contexts k').gate = (d.contexts k').gate := by
  rw [hctx]
  by_cases hk : k' = k
  · rw [hk, Function.update_self, h]
  · rw [Function.update_of_ne hk]

/-- **Neither is changed by what is not the test itself.** -/
theorem dropInterrupted_unselecting (k k' : Key ι) (interrupted : Req ι → Bool) :
    (d.dropInterrupted k interrupted).selections k' = d.selections k' ∧
      ((d.dropInterrupted k interrupted).contexts k').gate = (d.contexts k').gate := by
  unfold dropInterrupted
  split
  · split
    · refine ⟨?_, gate_of_update (k := k) rfl ?_ k'⟩
      · rw [setContext_selections, reply_selections]
      · rfl
    · exact ⟨rfl, rfl⟩
  · exact ⟨rfl, rfl⟩

theorem deliver_unselecting (k k' : Key ι) (frame : Frame) :
    (d.deliver k frame).selections k' = d.selections k' ∧
      ((d.deliver k frame).contexts k').gate = (d.contexts k').gate := by
  unfold deliver
  dsimp only
  split
  · refine ⟨?_, gate_of_update (k := k) rfl ?_ k'⟩
    · rw [setContext_selections, reply_selections]
    · rfl
  · unfold getFrame
    cases d.freeFramequeue.get with
    | mk e pool =>
      cases e with
      | none =>
        refine ⟨?_, rfl⟩
        rw [act_selections]
        rfl
      | some e =>
        refine ⟨?_, gate_of_update (k := k) rfl ?_ k'⟩
        · rw [act_selections, setContext_selections]
          rfl
        · rfl
  · exact ⟨rfl, rfl⟩

/-- **One context**: it is selected if it is the one and admits the
frame. -/
theorem receiveAt_selects (d : Daemon ι) (k k' : Key ι) (frame : Frame)
    (interrupted : Req ι → Bool) :
    (d.receiveAt k frame interrupted).selections k' =
      d.selections k' + (if k = k' ∧ (d.contexts k').admits frame then 1 else 0) ∧
    ((d.receiveAt k frame interrupted).contexts k').gate = (d.contexts k').gate := by
  obtain ⟨hdrop, hgate⟩ := dropInterrupted_unselecting (d := d) k k' interrupted
  rw [receiveAt_eq]
  split
  · rename_i hin
    obtain ⟨hcount, hgate'⟩ :=
      deliver_unselecting (d := d.noted k frame interrupted) k k' frame
    refine ⟨?_, hgate'.trans hgate⟩
    rw [hcount, noted, act_selections, hdrop]
    by_cases hk : k = k'
    · subst hk
      simp [Action.selects, Context.admits, hin]
    · simp [Action.selects, hk]
  · rename_i hout
    refine ⟨?_, hgate⟩
    rw [hdrop]
    by_cases hk : k = k'
    · subst hk
      have hadmits : (d.contexts k).admits frame = false := by
        simpa [Context.admits] using hout
      simp [hadmits]
    · simp [hk]

/-- **The contexts of a card**: each is selected for itself. -/
theorem receiveAll_selects (is : List (Fin 32)) (d : Daemon ι) (card : ι) (i : Fin 32)
    (frame : Frame) (interrupted : Req ι → Bool) :
    (d.receiveAll card frame interrupted is).selections (card, i) =
      d.selections (card, i) +
        (if (d.contexts (card, i)).admits frame then is.count i else 0) := by
  induction is generalizing d with
  | nil => simp [receiveAll]
  | cons j is ih =>
    -- the contexts before this one have left its gate as it was
    obtain ⟨hcount, hgate⟩ := d.receiveAt_selects (card, j) (card, i) frame interrupted
    rw [receiveAll_cons, ih, hcount, Context.admits_congr hgate, List.count_cons]
    by_cases hpass : (d.contexts (card, i)).admits frame
    · by_cases hj : j = i
      · simp [hpass, hj]
        omega
      · simp [hpass, hj]
    · simp [hpass]

end Daemon

/-- **A frame selects the contexts that admit it**, and no others. -/
theorem selects_iff (d : Daemon ι) (card : ι) (i : Fin 32) (frame : Frame)
    (interrupted : Req ι → Bool) :
    d.Selects card i frame interrupted ↔ (d.contexts (card, i)).admits frame = true := by
  -- the loop comes to every context once
  have hone : (List.finRange 32).count i = 1 :=
    List.count_eq_one_of_mem (List.nodup_finRange 32) (List.mem_finRange i)
  unfold Daemon.Selects
  rw [Daemon.handleReceivedFrame_eq, Daemon.receiveAll_selects, hone]
  split <;> simp_all

/-- **When a port is looked for in its own bit**: always for the ports
below 31, and for those up to 63 when the bits tested instead say the same
as its own. -/
theorem selects_own_bit_iff (d : Daemon ι) (card : ι) (i : Fin 32) (frame : Frame)
    (interrupted : Req ι → Bool) (huse : (d.contexts (card, i)).inUse = true) :
    (d.Selects card i frame interrupted ↔ frame.port.toNat < 64 ∧
        hasPort ((d.contexts (card, i)).maskFor frame) frame.port = true) ↔
      (31 ≤ frame.port.toNat → frame.port.toNat < 64 →
        (testedBits ((d.contexts (card, i)).maskFor frame) frame.port ↔
          hasPort ((d.contexts (card, i)).maskFor frame) frame.port = true)) := by
  rw [selects_iff, Context.admits, huse, Bool.true_and, passes_iff]
  rcases Nat.lt_or_ge frame.port.toNat 31 with hlow | hhigh
  · refine iff_of_true (and_congr_right fun _ => testedBits_iff_hasPort hlow) fun h => ?_
    omega
  · rcases Nat.lt_or_ge frame.port.toNat 64 with hlt | hge
    · rw [and_iff_right hlt, and_iff_right hlt]
      exact ⟨fun h _ _ => h, fun h => h hhigh hlt⟩
    · exact iff_of_true (iff_of_false (fun h => by omega) (fun h => by omega)) fun _ h => by omega

/-- The first file of the only card has the filter. -/
def filtering (mask : UInt64) : Daemon Unit :=
  (Daemon.coreInit fun _ => Frame.single).setContext ((), 0)
    { Context.fresh false with portMask := mask }

/-- A frame on port 0 is looked for in bit 0. -/
theorem selects_own_bit_port0 :
    (filtering 1).Selects () 0 Frame.single (fun _ => false) ↔
      Frame.single.port.toNat < 64 ∧
        hasPort (((filtering 1).contexts ((), 0)).maskFor Frame.single) Frame.single.port = true :=
  (selects_own_bit_iff (filtering 1) () 0 Frame.single (fun _ => false)
    (by rw [filtering, Daemon.setContext_self]; rfl)).2 fun h => absurd h (by decide)

/-- **A frame on port 32 is taken for one on port 0.** -/
theorem port32_selected_by_bit0 :
    ¬ ((filtering 1).Selects () 0 { Frame.single with port := 32 } (fun _ => false) ↔
      (32 : UInt16).toNat < 64 ∧ hasPort (((filtering 1).contexts ((), 0)).maskFor
        { Frame.single with port := 32 }) 32 = true) := by
  rw [selects_iff, filtering, Daemon.setContext_self]
  decide

end Cuse

end Dmx4Linux2
