import Dmx4Linux2.Core.Framequeue
import Dmx4Linux2.Cuse.Arrival
import Dmx4Linux2.Cuse.Model.Loop
import Mathlib.Data.Nat.Bitwise

/-!
# CUSE drivers — what the loop device delivers

A frame written to one card goes to the other card and then to the files
of its own card, marked as transmitted from the start. So both cards look
for it in the transmit filter, and the receive filter of the other card
is not asked: `loops_iff` says that the loop device delivers a frame by
the filters it should exactly where, for its port, the two filters of
every file of the other card agree.
-/

namespace Dmx4Linux2

namespace Cuse

open Dmx4Linux2.Core

variable {ι : Type} [DecidableEq ι]
variable {d d' : Daemon ι} {k : Key ι} {fs fs' answered queued : List Frame} {frame : Frame}

/-- **A context gets these frames**, as answers to its reads or in its
queue. -/
def Delivered (d d' : Daemon ι) (k : Key ι) (fs : List Frame) : Prop :=
  ∃ answered queued, Gets d d' k answered queued ∧ answered ++ queued = fs

/-- Which frames a context with a queue gets is determined. -/
theorem Delivered.unique (h : Delivered d d' k fs) (h' : Delivered d d' k fs')
    (hqueue : (d.contexts k).framequeue ≠ none) : fs = fs' := by
  obtain ⟨_, _, ⟨new, q, hacts, rfl, hq, rfl⟩, rfl⟩ := h
  obtain ⟨_, _, ⟨new', q', hacts', rfl, hq', rfl⟩, rfl⟩ := h'
  obtain ⟨q₀, hq₀⟩ := Option.ne_none_iff_exists'.1 hqueue
  have hnew : new = new' := List.append_cancel_left (hacts.symm.trans hacts')
  have hsome : some (q₀ ++ q) = some (q₀ ++ q') := by
    simpa only [hq₀, Option.map_some] using hq.symm.trans hq'
  have hqq : q = q' := List.append_cancel_left (Option.some.inj hsome)
  rw [hnew, hqq]

/-! ## The filters -/

/-- A mask has the bit of a port. -/
def hasPort (mask : UInt64) (port : UInt16) : Bool := mask.toNat.testBit port.toNat

theorem and_shiftOne_ne_zero (mask : UInt64) {port : UInt16} (hport : port.toNat < 31) :
    mask &&& Context.shiftOne port ≠ 0 ↔ hasPort mask port = true := by
  have hmod : port.toNat % 32 = port.toNat := Nat.mod_eq_of_lt (by omega)
  have hpow : 2 ^ port.toNat < 2 ^ 64 := Nat.pow_lt_pow_right (by omega) (by omega)
  have hne : port.toNat ≠ 31 := by omega
  have hshift : (Context.shiftOne port).toNat = 2 ^ port.toNat := by
    rw [Context.shiftOne, hmod, if_neg hne, UInt64.toNat_ofNat']
    exact Nat.mod_eq_of_lt hpow
  rw [Ne, ← UInt64.toNat_inj, UInt64.toNat_and, hshift, Nat.and_two_pow, hasPort]
  cases mask.toNat.testBit port.toNat <;> simp

theorem transmitted_flags (frame : Frame) :
    (Daemon.transmitted frame).flags &&& isTransmitFrame ≠ 0 := by
  have htop : isTransmitFrame.toNat.testBit 15 = true := by decide
  have hbit : ((Daemon.transmitted frame).flags &&& isTransmitFrame).toNat.testBit 15 = true := by
    simp only [Daemon.transmitted, UInt16.toNat_and, UInt16.toNat_or, Nat.testBit_and,
      Nat.testBit_or, htop, Bool.or_true, Bool.and_true]
  intro hzero
  rw [hzero] at hbit
  exact absurd hbit (by decide)

omit [DecidableEq ι] in
/-- A frame that is marked as transmitted is looked for in the transmit
filter. -/
theorem passes_transmitted (ctx : Context ι) (hport : frame.port.toNat < 31) :
    ctx.passes (Daemon.transmitted frame) = hasPort ctx.portTxmask frame.port := by
  have hlt : frame.port < 64 := by
    rw [UInt16.lt_iff_toNat_lt]
    exact Nat.lt_trans hport (by decide)
  have hmask := and_shiftOne_ne_zero ctx.portTxmask hport
  unfold Context.passes
  rw [if_pos (transmitted_flags frame)]
  simp only [Daemon.transmitted, hlt, decide_true, Bool.true_and, hmask, Bool.decide_eq_true]

/-! ## A write -/

section Write

variable {req : Req ι} {size : ℕ} {other : ι} {interrupted interrupted' : Req ι → Bool}

/-- A write with a driver that hands the frame to another card: it is
shown to that card, then to its own, and the write is answered. -/
theorem Daemon.cuseWrite_eq (hfh : req.fh < 32) (hsize : sizeofFrame ≤ size) :
    d.cuseWrite req size frame [⟨other, transmitted frame, interrupted⟩] interrupted' =
      ((d.receiveAll other (transmitted frame) interrupted (List.finRange 32)).receiveAll req.card
        (transmitted frame) interrupted' (List.finRange 32)).reply req (.write size) := by
  have hkey : req.key = some (req.card, ⟨req.fh, hfh⟩) := dif_pos hfh
  simp only [cuseWrite, hkey, if_neg (Nat.not_lt.2 hsize), handleArrivals, List.foldl_cons,
    List.foldl_nil, handleReceivedFrame_eq]

/-- The answer to the write hands no frame to anyone. -/
theorem Gets.reply_write (h : Gets d d' k answered queued) (req : Req ι) (size : ℕ) :
    Gets d (d'.reply req (.write size)) k answered queued :=
  h.trans_nil ⟨[.reply req (.write size)], [], rfl, rfl, by simp, rfl⟩

/-- **What the files of the other card get.** -/
theorem Daemon.cuseWrite_other (h : ∀ k, Delivers d k) (hfh : req.fh < 32)
    (hsize : sizeofFrame ≤ size) (hother : other ≠ req.card)
    (hroom : d.pollers other (List.finRange 32) ≤ d.freeFramequeue.length) {i : Fin 32}
    (hlisten : (d.contexts (other, i)).listens interrupted = true) :
    Delivered d
      (d.cuseWrite req size frame [⟨other, transmitted frame, interrupted⟩] interrupted') (other, i)
      (if (d.contexts (other, i)).passes (transmitted frame) then [transmitted frame] else []) := by
  refine ⟨_, _, ?_, Context.toRead_append_toQueue _ _ interrupted⟩
  rw [cuseWrite_eq hfh hsize]
  have h' := receiveAll_delivers h other (transmitted frame) interrupted (List.finRange 32)
  have hfirst := receiveAll_gets other (transmitted frame) interrupted h (List.nodup_finRange 32)
    hroom (List.mem_finRange i) hlisten
  have hne : ∀ j ∈ List.finRange 32, ((other, i) : Key ι) ≠ (req.card, j) :=
    fun j _ heq => hother (congrArg Prod.fst heq)
  have hsecond := receiveAll_spares req.card (transmitted frame) interrupted' h' hne
  exact (hfirst.trans_nil hsecond.2).reply_write req size

/-- **What the files of the card itself get.** -/
theorem Daemon.cuseWrite_self (h : ∀ k, Delivers d k) (hfh : req.fh < 32)
    (hsize : sizeofFrame ≤ size) (hother : other ≠ req.card)
    (hroom : d.pollers other (List.finRange 32) + d.pollers req.card (List.finRange 32) ≤
      d.freeFramequeue.length) {i : Fin 32}
    (hlisten : (d.contexts (req.card, i)).listens interrupted' = true) :
    Delivered d
      (d.cuseWrite req size frame [⟨other, transmitted frame, interrupted⟩] interrupted')
      (req.card, i)
      (if (d.contexts (req.card, i)).passes (transmitted frame) then [transmitted frame] else []) := by
  refine ⟨_, _, ?_, Context.toRead_append_toQueue _ _ interrupted'⟩
  rw [cuseWrite_eq hfh hsize]
  have h' := receiveAll_delivers h other (transmitted frame) interrupted (List.finRange 32)
  have hfirst : ∀ j, Spared d
      (d.receiveAll other (transmitted frame) interrupted (List.finRange 32)) (req.card, j) :=
    fun j => receiveAll_spares other (transmitted frame) interrupted h
      (fun i _ heq => hother (congrArg Prod.fst heq).symm)
  have hpool := receiveAll_pool other (transmitted frame) interrupted h (List.nodup_finRange 32)
  have hpollers : (d.receiveAll other (transmitted frame) interrupted
      (List.finRange 32)).pollers req.card (List.finRange 32) =
        d.pollers req.card (List.finRange 32) := by
    refine List.countP_congr fun j _ => ?_
    rw [(hfirst j).1]
  have hsecond := receiveAll_gets (i := i) req.card (transmitted frame) interrupted' h'
    (List.nodup_finRange 32) (by omega) (List.mem_finRange i) (by rw [(hfirst i).1]; exact hlisten)
  rw [(hfirst i).1] at hsecond
  exact ((hfirst i).2.nil_trans hsecond).reply_write req size

end Write

/-! ## The loop device -/

namespace LoopDevice

theorem peer_ne (cardno : Fin 2) : peer cardno ≠ cardno := by
  revert cardno
  decide

theorem eq_peer {cardno other : Fin 2} (h : other ≠ cardno) : other = peer cardno := by
  revert cardno other
  decide

/-- Both cards stay connected. -/
theorem otherCard_run (garbage : ℕ → Frame) (es : List Event) (cardno : Fin 2) :
    (run step (main garbage) es).otherCard cardno = some (peer cardno) := by
  have hall : Always step (fun l => ∀ cardno, l.otherCard cardno = some (peer cardno))
      (main garbage) es := by
    refine always_of_step (fun l e h => h) fun cardno => ?_
    obtain rfl | rfl : cardno = 0 ∨ cardno = 1 := by omega
    · rfl
    · rfl
  exact hall.last cardno

theorem delivers_run (garbage : ℕ → Frame) (es : List Event) (k : Key (Fin 2)) :
    Delivers (run step (main garbage) es).daemon k := by
  have hall : Always step (fun l => ∀ k, Delivers l.daemon k) (main garbage) es :=
    always_of_step (fun l e h k => Delivers.step h (l.event e) k) (Delivers.coreInit garbage)
  exact hall.last k

variable {l : LoopDevice}

/-- What is interrupted when a frame written to a card is shown to one of
the two. -/
def interruptedAt (req : Req (Fin 2)) (interrupted interrupted' : Req (Fin 2) → Bool)
    (cardno : Fin 2) : Req (Fin 2) → Bool :=
  if cardno = req.card then interrupted' else interrupted

/-- The filter by which a file is to get a frame: the transmit filter on
the card it is written to, the receive filter on the other. -/
def filter (req : Req (Fin 2)) (k : Key (Fin 2)) (ctx : Context (Fin 2)) : UInt64 :=
  if k.1 = req.card then ctx.portTxmask else ctx.portMask

/-- **The frame goes where it should**: every file that listens gets it
once if its filter has the port, and not at all if it has not. -/
def Loops (l : LoopDevice) (req : Req (Fin 2)) (size : ℕ) (frame : Frame)
    (interrupted interrupted' : Req (Fin 2) → Bool) : Prop :=
  ∀ k, (l.daemon.contexts k).listens (interruptedAt req interrupted interrupted' k.1) = true →
    Delivered l.daemon (l.step (.write req size frame interrupted interrupted')).daemon k
      (if hasPort (filter req k (l.daemon.contexts k)) frame.port then [Daemon.transmitted frame]
        else [])

/-- The pool has a frame for every file that is polled. -/
def Room (l : LoopDevice) : Prop :=
  ∀ cardno, l.daemon.pollers (peer cardno) (List.finRange 32) +
    l.daemon.pollers cardno (List.finRange 32) ≤ l.daemon.freeFramequeue.length

/-- **What the loop device does**: every file that listens, on either
card, gets the frame if its transmit filter has the port. -/
theorem write_delivered (req : Req (Fin 2)) (size : ℕ) (frame : Frame)
    (interrupted interrupted' : Req (Fin 2) → Bool) (hother : l.otherCard req.card = some (peer req.card))
    (h : ∀ k, Delivers l.daemon k) (hfh : req.fh < 32) (hsize : sizeofFrame ≤ size)
    (hport : frame.port.toNat < 31) (hroom : l.Room) {k : Key (Fin 2)}
    (hlisten : (l.daemon.contexts k).listens (interruptedAt req interrupted interrupted' k.1) =
      true) :
    Delivered l.daemon (l.step (.write req size frame interrupted interrupted')).daemon k
      (if hasPort (l.daemon.contexts k).portTxmask frame.port then [Daemon.transmitted frame]
        else []) := by
  have hboth := hroom req.card
  have hstep : (l.step (.write req size frame interrupted interrupted')).daemon =
      l.daemon.cuseWrite req size frame
        [⟨peer req.card, Daemon.transmitted frame, interrupted⟩] interrupted' := by
    simp only [step, event, Daemon.step, testdmxSendFrame, hother, Option.toList_some,
      List.map_cons, List.map_nil]
  rw [hstep, ← passes_transmitted _ hport]
  obtain ⟨cardno, i⟩ := k
  unfold interruptedAt at hlisten
  by_cases hcard : cardno = req.card
  · subst hcard
    rw [if_pos rfl] at hlisten
    exact Daemon.cuseWrite_self h hfh hsize (peer_ne req.card) hboth hlisten
  · obtain rfl := eq_peer hcard
    rw [if_neg hcard] at hlisten
    exact Daemon.cuseWrite_other h hfh hsize (peer_ne req.card)
      ((Nat.le_add_right _ _).trans hboth) hlisten

/-- **When the loop device delivers by the right filters.** In every state
it reaches, a frame on a port below 16 that is written to a file goes to
exactly the files it should, if and only if for its port the two filters
of every file that listens on the other card agree. -/
theorem loops_iff (garbage : ℕ → Frame) (es : List Event) (req : Req (Fin 2)) (size : ℕ)
    (frame : Frame) (interrupted interrupted' : Req (Fin 2) → Bool) (hfh : req.fh < 32)
    (hsize : sizeofFrame ≤ size) (hport : frame.port.toNat < 16)
    (hroom : (run step (main garbage) es).Room) :
    Loops (run step (main garbage) es) req size frame interrupted interrupted' ↔
      ∀ k, k.1 ≠ req.card →
        ((run step (main garbage) es).daemon.contexts k).listens interrupted = true →
        hasPort ((run step (main garbage) es).daemon.contexts k).portMask frame.port =
          hasPort ((run step (main garbage) es).daemon.contexts k).portTxmask frame.port := by
  have hother := otherCard_run garbage es req.card
  have h := delivers_run garbage es
  generalize run step (main garbage) es = l at *
  have hgets := fun k (hlisten : (l.daemon.contexts k).listens
      (interruptedAt req interrupted interrupted' k.1) = true) =>
    write_delivered req size frame interrupted interrupted' hother h hfh hsize (by omega) hroom
      hlisten
  constructor
  · intro hloops k hcard hlisten
    have hat : interruptedAt req interrupted interrupted' k.1 = interrupted := if_neg hcard
    have hfilter : filter req k (l.daemon.contexts k) = (l.daemon.contexts k).portMask :=
      if_neg hcard
    rw [← hat] at hlisten
    have huse : (l.daemon.contexts k).inUse = true := (Bool.and_eq_true_iff.1 hlisten).1
    obtain ⟨q, hq, -⟩ := (h k).kept huse
    -- the context is changed in one way only, so what it should get is what it gets
    have heq := (hloops k hlisten).unique (hgets k hlisten) (by rw [hq]; simp)
    rw [hfilter] at heq
    cases hrx : hasPort (l.daemon.contexts k).portMask frame.port <;>
      cases htx : hasPort (l.daemon.contexts k).portTxmask frame.port <;> simp [hrx, htx] at heq ⊢
  · intro hagree k hlisten
    have hgot := hgets k hlisten
    by_cases hcard : k.1 = req.card
    · rw [filter, if_pos hcard]
      exact hgot
    · have hat : interruptedAt req interrupted interrupted' k.1 = interrupted := if_neg hcard
      rw [filter, if_neg hcard, hagree k hcard (by rw [← hat]; exact hlisten)]
      exact hgot

/-! ## A file on the other card -/

/-- A file is opened on each card; that of the other card gets its filters
set and is polled. -/
def peerPolled (cardno : Fin 2) (mask txmask : UInt64) : List Event :=
  [.openReq ⟨0, cardno, 0⟩ false, .openReq ⟨1, peer cardno, 0⟩ false,
    .ioctl ⟨2, peer cardno, 0⟩ .setPortFilter ⟨8, 0, mask, false, 0, false⟩,
    .ioctl ⟨3, peer cardno, 0⟩ .setPortTxfilter ⟨8, 0, txmask, false, 0, false⟩,
    .poll ⟨4, peer cardno, 0⟩ (some 0)]

theorem run_peerPolled (hzero : ∀ k, l.daemon.contexts k = Context.zero) (cardno : Fin 2)
    (mask txmask : UInt64) :
    (run step l (peerPolled cardno mask txmask)).daemon.freeFramequeue =
        l.daemon.freeFramequeue ∧
      ∀ i, (run step l (peerPolled cardno mask txmask)).daemon.contexts (peer cardno, i) =
        if i = 0 then ⟨true, false, mask, txmask, none, some 0, some []⟩ else Context.zero := by
  obtain ⟨d, other⟩ := l
  have hfree : d.freeContextIndex (⟨0, cardno, 0⟩ : Req (Fin 2)).card = some 0 :=
    Daemon.freeContextIndex_zero (by rw [hzero]; rfl)
  simp only [peerPolled, run_cons, run_nil, step, event, Daemon.step]
  -- What the first file leaves of the other card is as it was.
  have hzero' : ∀ i, (d.cuseOpen ⟨0, cardno, 0⟩ false).contexts (peer cardno, i) =
      Context.zero := by
    intro i
    rw [Daemon.cuseOpen_of_some false hfree, Daemon.reply_contexts,
      Daemon.setContext_of_ne (by simp [peer_ne]), hzero]
  have hpool : (d.cuseOpen ⟨0, cardno, 0⟩ false).freeFramequeue = d.freeFramequeue := by
    rw [Daemon.cuseOpen_of_some false hfree]
    rfl
  generalize d.cuseOpen ⟨0, cardno, 0⟩ false = d' at *
  have hfree' : d'.freeContextIndex (⟨1, peer cardno, 0⟩ : Req (Fin 2)).card = some 0 :=
    Daemon.freeContextIndex_zero (by rw [hzero']; rfl)
  rw [Daemon.cuseOpen_of_some false hfree', ← hpool]
  refine ⟨?_, fun i => ?_⟩
  · simp [Daemon.cuseIoctl, Req.key, Daemon.setFilter, Daemon.cusePoll, Daemon.setPollhandle,
      Context.fresh, Context.zero, Daemon.setContext, Daemon.reply, Daemon.act]
  by_cases hi : i = 0
  · subst hi
    simp [Daemon.cuseIoctl, Req.key, Daemon.setFilter, Daemon.cusePoll, Daemon.setPollhandle,
      Context.fresh, Context.zero, Framequeue.init]
  · have hne : ((peer cardno, i) : Key (Fin 2)) ≠ (peer cardno, 0) := by simpa using hi
    simp [Daemon.cuseIoctl, Req.key, Daemon.setFilter, Daemon.cusePoll, Daemon.setPollhandle,
      Daemon.setContext_of_ne hne, hzero', hi, Context.fresh, Context.zero]

theorem room_of_pool (hpool : 64 ≤ l.daemon.freeFramequeue.length) : l.Room := by
  have hle : ∀ card, l.daemon.pollers card (List.finRange 32) ≤ 32 := fun card =>
    List.countP_le_length.trans_eq List.length_finRange
  intro cardno
  have hself := hle cardno
  have hpeer := hle (peer cardno)
  omega

theorem room_peerPolled (garbage : ℕ → Frame) (cardno : Fin 2) (mask txmask : UInt64) :
    (run step (main garbage) (peerPolled cardno mask txmask)).Room := by
  refine room_of_pool ?_
  rw [(run_peerPolled (l := main garbage) (fun _ => rfl) cardno mask txmask).1]
  simp only [main, testdmxInit, Daemon.coreInit, Framequeue.length_allocated]
  decide

/-- With both filters set to port 0, a frame on port 0 loops. -/
theorem loops_bothFilters :
    Loops (run step (main fun _ => Frame.single) (peerPolled 0 1 1)) ⟨5, 0, 0⟩ 555 Frame.single
      (fun _ => false) (fun _ => false) := by
  refine (loops_iff (fun _ => Frame.single) (peerPolled 0 1 1) ⟨5, 0, 0⟩ 555 Frame.single
    (fun _ => false) (fun _ => false) (by decide) (by decide) (by decide) (room_peerPolled _ 0 1 1)).2 ?_
  rintro ⟨cardno, i⟩ hcard -
  obtain rfl := eq_peer hcard
  rw [(run_peerPolled (l := main fun _ => Frame.single) (fun _ => rfl) 0 1 1).2 i]
  split <;> rfl

/-- **A frame that only the receive filter has is not delivered.** -/
theorem not_loops_receiveFilter :
    ¬ Loops (run step (main fun _ => Frame.single) (peerPolled 0 1 0)) ⟨5, 0, 0⟩ 555 Frame.single
      (fun _ => false) (fun _ => false) := by
  intro hloops
  have hctx : (run step (main fun _ => Frame.single) (peerPolled 0 1 0)).daemon.contexts (1, 0) =
      ⟨true, false, 1, 0, none, some 0, some []⟩ :=
    (run_peerPolled (l := main fun _ => Frame.single) (fun _ => rfl) 0 1 0).2 0
  have hlisten : ((run step (main fun _ => Frame.single) (peerPolled 0 1 0)).daemon.contexts
      (1, 0)).listens (fun _ => false) = true := by
    rw [hctx]
    rfl
  have hgot := write_delivered ⟨5, 0, 0⟩ 555 Frame.single (fun _ => false) (fun _ => false)
    (otherCard_run _ _ 0) (delivers_run _ _) (by decide) (by decide) (by decide)
    (room_peerPolled _ 0 1 0) (k := (1, 0)) hlisten
  have heq := (hloops (1, 0) hlisten).unique hgot (by rw [hctx]; simp)
  rw [hctx] at heq
  exact absurd heq (by decide)

end LoopDevice

end Cuse

end Dmx4Linux2
