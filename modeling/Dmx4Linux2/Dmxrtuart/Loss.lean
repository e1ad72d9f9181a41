import Dmx4Linux2.Dmxrtuart.Reception
import Dmx4Linux2.Dmxrtuart.Settings

/-!
# rtuart — what is lost in the driver of the PL011

Of an octet with an error the driver looks for the kind of error in the
eight bits of the octet, where there is none: such an octet may as well not
have been received, and the client is told of errors by their interrupt only
(`errors_silent`). A burst that is longer than the buffer is loaded into the
buffer the handler was called with, also when the client has started the next
one: that stays empty, and the end of the first is reported again with each
octet (`burst_past_end`).
-/

namespace Dmx4Linux2

namespace Dmxrtuart

namespace Pl011

open Pc16c550 (Callback receiverHasdata receiverTimeout capacity passedTriggers)

variable {s t : Pl011} {e : Seen} {p q : ℕ}

/-! ## Octets with an error -/

/-- What a pass meets without the octets that have an error. -/
def Seen.good (e : Seen) : Seen := { e with received := e.received.filter fun d => !hasError d }

def Event.good : Event → Event
  | .pass e => .pass e.good
  | ev => ev

/-- Such an octet does nothing. -/
theorem receive_of_hasError {d : UInt64} (h : hasError d = true) (s : Pl011) (e : Seen)
    (buffer : Option ℕ) (dueToTimeout : Bool) : s.receive e buffer dueToTimeout d = s := by
  unfold receive
  rw [if_pos h, if_neg (not_not.2 (drToEvent_eq_zero _))]

theorem handleReceivedData_good (s : Pl011) (e : Seen) (buffer : Option ℕ) (dueToTimeout : Bool) :
    s.handleReceivedData e.good buffer dueToTimeout =
      s.handleReceivedData e buffer dueToTimeout := by
  show (e.received.filter _).foldl (fun s d => s.receive e buffer dueToTimeout d) s =
    e.received.foldl (fun s d => s.receive e buffer dueToTimeout d) s
  induction e.received generalizing s with
  | nil => rfl
  | cons d ds ih =>
    by_cases h : hasError d = true
    · rw [List.filter_cons_of_neg (by simp [h]), List.foldl_cons, receive_of_hasError h, ih]
    · rw [List.filter_cons_of_pos (by simp [h]), List.foldl_cons, List.foldl_cons, ih]

theorem sendAsMuchAsPossible_good (s : Pl011) (e : Seen) (rooms : List ℕ) :
    s.sendAsMuchAsPossible e.good rooms = s.sendAsMuchAsPossible e rooms := by
  induction rooms generalizing s with
  | nil => rfl
  | cons room rooms ih =>
    have hpass : s.sendPass e.good room = s.sendPass e room := rfl
    rw [sendAsMuchAsPossible, sendAsMuchAsPossible, hpass, ih]

theorem fillTransmitter_good (s : Pl011) (e : Seen) :
    s.fillTransmitter e.good = s.fillTransmitter e := by
  have hrooms : e.good.rooms = e.rooms := rfl
  unfold fillTransmitter
  split
  · rfl
  · rw [hrooms, sendAsMuchAsPossible_good]

theorem step_good (s : Pl011) (e : Seen) : s.step e.good = s.step e := by
  have hmis : e.good.mis = e.mis := rfl
  have hempty : e.good.txEmpty = e.txEmpty := rfl
  have hnone : ∀ s : Pl011, s.handleNone e.good = s.handleNone e := fun _ => rfl
  have hcall : ∀ (s : Pl011) (cb : Callback), s.call e.good cb = s.call e cb := fun _ _ => rfl
  unfold step
  rw [hmis, hempty]
  simp only [fillTransmitter_good, handleReceivedData_good, hnone, hcall]

theorem handle_good (s : Pl011) (ev : Event) : s.handle ev.good = s.handle ev := by
  cases ev with
  | pass e => exact step_good s e
  | setBaudrate | setFormat | setHandshake | setControl | clrControl | request => rfl

/-! ## What the client is told -/

/-- What is found in MIS. A call of the client does not read it. -/
def Event.mis : Event → UInt64
  | .pass e => e.mis
  | _ => 0

/-- The client is told what `Told` says, and no more. -/
def Tells (mis : UInt64) (s t : Pl011) : Prop :=
  ∃ told, t.trace = s.trace ++ told ∧ ∀ a ∈ told, Told mis a

theorem Tells.of_trace {mis : UInt64} (h : t.trace = s.trace) : Tells mis s t :=
  ⟨[], by simp [h], by simp⟩

theorem frame_tells (mis : UInt64) : Frame mis (Tells mis) where
  trans := by
    rintro s t u ⟨as, has, hold⟩ ⟨bs, hbs, hnew⟩
    refine ⟨as ++ bs, by rw [hbs, has, List.append_assoc], fun a ha => ?_⟩
    exact (List.mem_append.1 ha).elim (hold a) (hnew a)
  of_eq _ _ htrace := .of_trace htrace
  act _ a h := ⟨[a], rfl, List.forall_mem_singleton.2 h⟩
  changeCr _ _ := .of_trace (trace_changeRegister _ _ _ _)
  changeIfls _ _ _ := .of_trace (trace_changeRegister _ _ _ _)
  writeImsc _ _ := .of_trace rfl

theorem trace_modControl (s : Pl011) (lm lv cm cv : UInt64) :
    (s.modControl lm lv cm cv).trace = s.trace := by
  rw [modControl, trace_changeRegister, trace_changeRegister]

/-- Of errors a step tells those whose interrupts are in the MIS it read. -/
theorem tells_handle (s : Pl011) (ev : Event) : Tells ev.mis s (s.handle ev) := by
  cases ev with
  | setBaudrate baudrate nonzero => exact .of_trace rfl
  | setFormat databits parity stopbits => exact .of_trace (trace_changeRegister _ _ _ _)
  | setHandshake hs => exact .of_trace (trace_modControl _ _ _ _ _)
  | setControl m => exact .of_trace (trace_modControl _ _ _ _ _)
  | clrControl m => exact .of_trace (trace_modControl _ _ _ _ _)
  | request r => exact (frame_tells 0).perform s r
  | pass e => exact (frame_tells e.mis).step s e rfl

/-- **An octet received with an error is lost without a word.** In every run
of calls and passes, those octets can be left out of what was received and
the driver ends in the same state, with the same trace; and whatever the
client asked to be told, no step of the run reports a change of an input, and
errors are reported only by a pass that finds their interrupts in MIS, and
are those it finds there. -/
theorem errors_silent (s : Pl011) (es : List Event) :
    run handle s (es.map Event.good) = run handle s es ∧
      ∀ before ev, before ++ [ev] <+: es →
        Tells ev.mis (run handle s before) (run handle s (before ++ [ev])) := by
  constructor
  · induction es generalizing s with
    | nil => rfl
    | cons ev es ih => rw [List.map_cons, run_cons, run_cons, handle_good, ih]
  · intro before ev _
    rw [run_append]
    exact tells_handle _ ev

/-! ## A burst that is longer than the buffer -/

/-- How often the end of a buffer was reported, -/
def ended (p : ℕ) (trace : List Action) : ℕ := trace.count (.call (.rxEnd p))

/-- and the octets that were reported by themselves. -/
def chars (trace : List Action) : List UInt8 :=
  trace.filterMap fun
    | .call (.rxChar c) => some c
    | _ => none

/-- **A client with two buffers**: at the end of the first it starts the
second, and it asks for nothing else. -/
structure Chains (p q : ℕ) (e : Seen) : Prop where
  rxEnd : e.requests (.rxEnd p) = [.rxStart q]
  other : ∀ cb, cb ≠ .rxEnd p → e.requests cb = []

theorem call_quiet (hc : Chains p q e) {cb : Callback} (h : cb ≠ .rxEnd p) (s : Pl011) :
    s.call e cb = s.act (.call cb) := by
  rw [call, hc.other cb h, List.foldl_nil]

theorem changeNotify_spec (s : Pl011) (notify : UInt64) :
    (s.changeNotify notify).notifyMask = notify ∧
      (s.changeNotify notify).buffers = s.buffers ∧
      (s.changeNotify notify).rxBuffer = s.rxBuffer ∧
      (s.changeNotify notify).trace = s.trace := by
  have hcr : ∀ (t : Pl011) (m v : UInt64), (t.changeRegister .cr m v).notifyMask = t.notifyMask ∧
      (t.changeRegister .cr m v).buffers = t.buffers ∧
      (t.changeRegister .cr m v).rxBuffer = t.rxBuffer := by
    intro t m v
    unfold changeRegister
    split
    · dsimp only
      split <;> exact ⟨rfl, rfl, rfl⟩
    · exact ⟨rfl, rfl, rfl⟩
  unfold changeNotify
  split
  · dsimp only
    split
    · exact ⟨rfl, rfl, rfl, rfl⟩
    · obtain ⟨hmask, hbuffers, hrx⟩ := hcr { s with notifyMask := notify } (crRxe ||| crTxe)
        ((if { s with notifyMask := notify }.notifies
          (receiverHasdata ||| receiverTimeout ||| Pc16c550.receiverEvent) then crRxe else 0) |||
            crTxe)
      exact ⟨hmask, hbuffers, hrx, trace_changeRegister _ _ _ _⟩
  · next h => exact ⟨not_not.1 h, rfl, rfl, rfl⟩

/-- The second buffer is started, and data is wanted again. -/
theorem rxStart_spec (h : s.rxBuffer = none) (q : ℕ) :
    (s.rxStart q).notifies receiverHasdata = true ∧
      (s.rxStart q).buffers =
        Function.update s.buffers q { s.buffers q with transfered := 0 } ∧
      (s.rxStart q).rxBuffer = some q ∧ (s.rxStart q).trace = s.trace := by
  have hstart : s.rxStart q = { s.setBuffer q { s.buffers q with transfered := 0 } with
      rxBuffer := some q }.changeNotify
        (s.notifyMask ||| (receiverHasdata ||| receiverTimeout)) := by
    simp [rxStart, h, setNotify, setBuffer]
  obtain ⟨hmask, hbuffers, hrx, htrace⟩ := changeNotify_spec
    { s.setBuffer q { s.buffers q with transfered := 0 } with rxBuffer := some q }
    (s.notifyMask ||| (receiverHasdata ||| receiverTimeout))
  rw [hstart]
  refine ⟨?_, hbuffers, hrx, htrace⟩
  have hhas : Mask.Has ((s.notifyMask ||| (receiverHasdata ||| receiverTimeout)) &&&
      receiverHasdata) 2 := by
    simp only [Mask.has_and, Mask.has_or]
    exact ⟨.inr (.inl (by decide)), by decide⟩
  rw [notifies, hmask, bne_iff_ne]
  exact Mask.ne_zero_iff.2 ⟨2, by omega, hhas⟩

/-- **The second buffer is being received**, it was `b`. -/
structure Next (p q : ℕ) (b : RtuartBuffer) (s : Pl011) : Prop where
  complete : (s.buffers p).isComplete = true
  notifies : s.notifies receiverHasdata = true
  rxBuffer : s.rxBuffer = some q
  buffer : s.buffers q = { b with transfered := 0 }

variable {b : RtuartBuffer} {d : UInt64}

/-- The end of the first buffer. -/
theorem callRxEnd_full (hc : Chains p q e) (hpq : p ≠ q) (hfull : (s.buffers p).isComplete = true)
    (hb : { s.buffers q with transfered := 0 } = { b with transfered := 0 }) (dueToTimeout : Bool) :
    Next p q b (s.callRxEnd e p dueToTimeout) ∧
      (s.callRxEnd e p dueToTimeout).buffers p = s.buffers p ∧
      (s.callRxEnd e p dueToTimeout).trace = s.trace ++ [.call (.rxEnd p)] := by
  obtain ⟨t, ht⟩ : ∃ t, t = { s with
      rxBuffer := none, notifyMask := s.notifyMask &&& ~~~ receiverHasdata }.act
        (.call (.rxEnd p)) := ⟨_, rfl⟩
  have hstep : s.callRxEnd e p dueToTimeout = t.rxStart q := by
    rw [callRxEnd, if_pos hfull, call, hc.rxEnd, ht]
    rfl
  obtain ⟨hnotifies, hbuffers, hrx, htrace⟩ := rxStart_spec (s := t) (by rw [ht]; rfl) q
  have htbuffers : t.buffers = s.buffers := by rw [ht]; rfl
  rw [htbuffers] at hbuffers
  have hp : (t.rxStart q).buffers p = s.buffers p := by rw [hbuffers, Function.update_of_ne hpq]
  rw [hstep]
  refine ⟨⟨by rw [hp, hfull], hnotifies, hrx, ?_⟩, hp, by rw [htrace, ht]; rfl⟩
  rw [hbuffers, Function.update_self, hb]

/-- **Another octet**: it is reported by itself, and the end again. -/
theorem Next.receive (hc : Chains p q e) (hpq : p ≠ q) (h : Next p q b s)
    (hd : hasError d = false) (dueToTimeout : Bool) :
    Next p q b (s.receive e (some p) dueToTimeout d) ∧
      (s.receive e (some p) dueToTimeout d).buffers p = s.buffers p ∧
      (s.receive e (some p) dueToTimeout d).trace =
        s.trace ++ [.call (.rxChar d.toUInt8), .call (.rxEnd p)] := by
  have hchar : s.receiveChar e d.toUInt8 = { s with
      notifyMask := s.notifyMask &&& ~~~ receiverHasdata }.act (.call (.rxChar d.toUInt8)) := by
    rw [receiveChar, call_quiet hc (by simp)]
  have hstep : s.receive e (some p) dueToTimeout d =
      (s.receiveChar e d.toUInt8).callRxEnd e p dueToTimeout := by
    rw [Pl011.receive, hd, h.notifies]
    simp only [h.complete, if_true]
    rfl
  have hbuffers : (s.receiveChar e d.toUInt8).buffers = s.buffers := by rw [hchar]; rfl
  have hend := callRxEnd_full (s := s.receiveChar e d.toUInt8) (b := b) hc hpq
    (by rw [hbuffers, h.complete]) (by rw [hbuffers, h.buffer]) dueToTimeout
  rw [hstep]
  refine ⟨hend.1, by rw [hend.2.1, hbuffers], ?_⟩
  rw [hend.2.2, hchar]
  simp [act]

/-! ### Until the buffer is full -/

/-- The octet is in the buffer, and its triggers have been reported. -/
theorem load_spec (hc : Chains p q e) (c : UInt8) :
    ∃ m as, ((s.storeOctet p c).handleTrigger e p).buffers = Function.update s.buffers p
        { s.buffers p with
          data := (s.buffers p).data.map fun data =>
            Function.update data (s.buffers p).transfered c
          transfered := (s.buffers p).transfered + 1
          triggermask := m } ∧
      ((s.storeOctet p c).handleTrigger e p).notifyMask = s.notifyMask ∧
      ((s.storeOctet p c).handleTrigger e p).trace = s.trace ++ as ∧
      chars as = [] ∧ ended p as = 0 := by
  unfold handleTrigger
  split
  · dsimp only
    split
    · rw [call_quiet hc (by simp)]
      refine ⟨(s.buffers p).triggermask &&& ~~~ passedTriggers ((s.storeOctet p c).buffers p),
        [.call (.rxTrigger p (passedTriggers ((s.storeOctet p c).buffers p)))],
        ?_, rfl, rfl, rfl, rfl⟩
      simp [storeOctet, setBuffer, act]
    · exact ⟨(s.buffers p).triggermask, [], rfl, rfl, by simp [storeOctet, setBuffer], rfl, rfl⟩
  · exact ⟨(s.buffers p).triggermask, [], rfl, rfl, by simp [storeOctet, setBuffer], rfl, rfl⟩

theorem chars_append (as bs : List Action) : chars (as ++ bs) = chars as ++ chars bs :=
  List.filterMap_append

theorem ended_append (as bs : List Action) : ended p (as ++ bs) = ended p as + ended p bs :=
  List.count_append

theorem isComplete_iff {b : RtuartBuffer} :
    b.isComplete = true ↔ capacity b ≤ b.transfered := by
  simp only [RtuartBuffer.isComplete, capacity, Bool.or_eq_true, decide_eq_true_eq]
  omega

/-- **An octet for the first buffer.** With the last one its end is
reported, and the second is started. -/
theorem receive_filling (hc : Chains p q e) (hpq : p ≠ q)
    (hopen : (s.buffers p).transfered < capacity (s.buffers p))
    (hn : s.notifies receiverHasdata = true) (hd : hasError d = false) (dueToTimeout : Bool) :
    ∃ t as, s.receive e (some p) dueToTimeout d = t ∧ t.trace = s.trace ++ as ∧ chars as = [] ∧
      (t.buffers p).data = (s.buffers p).data.map (fun data =>
        Function.update data (s.buffers p).transfered d.toUInt8) ∧
      (t.buffers p).transfered = (s.buffers p).transfered + 1 ∧
      capacity (t.buffers p) = capacity (s.buffers p) ∧
      if (s.buffers p).transfered + 1 = capacity (s.buffers p) then
        ended p as = 1 ∧ Next p q (s.buffers q) t
      else
        ended p as = 0 ∧ t.buffers q = s.buffers q ∧ t.notifies receiverHasdata = true := by
  obtain ⟨m, as, hbuffers, hmask, htrace, hchars, hended⟩ := load_spec (s := s) hc d.toUInt8
  obtain ⟨u, hu⟩ : ∃ u, u = (s.storeOctet p d.toUInt8).handleTrigger e p := ⟨_, rfl⟩
  rw [← hu] at hbuffers hmask htrace
  have hstep : s.receive e (some p) dueToTimeout d = u.callRxEnd e p dueToTimeout := by
    have hincomplete : ¬ (s.buffers p).isComplete = true := by
      rw [isComplete_iff]
      omega
    rw [receive, hd, hn]
    simp only [hincomplete, hu]
    rfl
  have hp : u.buffers p = { s.buffers p with
      data := (s.buffers p).data.map fun data =>
        Function.update data (s.buffers p).transfered d.toUInt8
      transfered := (s.buffers p).transfered + 1
      triggermask := m } := by
    rw [hbuffers, Function.update_self]
  have hq : u.buffers q = s.buffers q := by rw [hbuffers, Function.update_of_ne hpq.symm]
  have hcapacity : capacity (u.buffers p) = capacity (s.buffers p) := by rw [hp]; rfl
  have htransfered : (u.buffers p).transfered = (s.buffers p).transfered + 1 := by rw [hp]
  rw [hstep]
  by_cases hlast : (s.buffers p).transfered + 1 = capacity (s.buffers p)
  · have hfull : (u.buffers p).isComplete = true := by
      rw [isComplete_iff]
      omega
    obtain ⟨hnext, hsame, hadd⟩ := callRxEnd_full (b := s.buffers q) hc hpq hfull (by rw [hq])
      dueToTimeout
    refine ⟨_, as ++ [.call (.rxEnd p)], rfl, by rw [hadd, htrace, List.append_assoc], ?_,
      by rw [hsame, hp], by rw [hsame, hp], by rw [hsame, hcapacity], ?_⟩
    · rw [chars_append, hchars]
      rfl
    · rw [if_pos hlast, ended_append, hended]
      exact ⟨by simp [ended], hnext⟩
  · have hfull : ¬ (u.buffers p).isComplete = true := by
      rw [isComplete_iff]
      omega
    have hnotifies : u.notifies receiverHasdata = true := by rw [notifies, hmask]; exact hn
    rw [callRxEnd, if_neg hfull]
    split
    · rw [call_quiet hc (by simp)]
      refine ⟨_, as ++ [.call (.rxTimeout p)], rfl, by simp [act, htrace], ?_,
        by simp [act, hp], by simp [act, hp], hcapacity, ?_⟩
      · rw [chars_append, hchars]
        rfl
      · rw [ended_append, hended]
        exact ⟨by simp [ended], hq, hnotifies⟩
    · exact ⟨u, as, rfl, htrace, hchars, by rw [hp], htransfered, hcapacity, hended, hq, hnotifies⟩

/-- The octets behind the end of the first buffer. -/
theorem Next.foldl (hc : Chains p q e) (hpq : p ≠ q) (h : Next p q b s) (ds : List UInt64)
    (hd : ∀ d ∈ ds, hasError d = false) {dueToTimeout : Bool} {t : Pl011}
    (ht : t = ds.foldl (fun s d => s.receive e (some p) dueToTimeout d) s) :
    Next p q b t ∧ t.buffers p = s.buffers p ∧
      chars t.trace = chars s.trace ++ ds.map (·.toUInt8) ∧
      ended p t.trace = ended p s.trace + ds.length := by
  induction ds generalizing s with
  | nil =>
    subst ht
    exact ⟨h, rfl, by simp, by simp⟩
  | cons d ds ih =>
    obtain ⟨hnext, hp, htrace⟩ := h.receive hc hpq (hd d (List.mem_cons_self ..)) dueToTimeout
    obtain ⟨hlast, hp', hchars, hended⟩ := ih hnext (fun d h => hd d (List.mem_cons_of_mem _ h)) ht
    refine ⟨hlast, hp'.trans hp, ?_, ?_⟩
    · rw [hchars, htrace, chars_append]
      simp [chars]
    · rw [hended, htrace, ended_append, List.length_cons]
      have hone : ended p [.call (.rxChar d.toUInt8), .call (.rxEnd p)] = 1 := by
        simp [ended]
      omega

/-- **What a burst leaves behind** that has more octets than the `n` there
is space for: they are in the first buffer; the others are reported by
themselves, and each of them with another end of it; the second is empty. -/
structure Overrun (p q n : ℕ) (cs : List UInt8) (s t : Pl011) : Prop where
  data : (t.buffers p).data =
    (s.buffers p).data.map fun data => data.write (s.buffers p).transfered (cs.take n)
  chars : chars t.trace = chars s.trace ++ cs.drop n
  ended : ended p t.trace = ended p s.trace + (cs.length - n + 1)
  rxBuffer : t.rxBuffer = some q
  next : t.buffers q = { s.buffers q with transfered := 0 }

theorem overrun_of_foldl (hc : Chains p q e) (hpq : p ≠ q) {n : ℕ}
    (hspace : capacity (s.buffers p) = (s.buffers p).transfered + n + 1)
    (hn : s.notifies receiverHasdata = true) (ds : List UInt64)
    (hd : ∀ d ∈ ds, hasError d = false) (hlong : n + 1 ≤ ds.length) {dueToTimeout : Bool}
    (ht : t = ds.foldl (fun s d => s.receive e (some p) dueToTimeout d) s) :
    Overrun p q (n + 1) (ds.map (·.toUInt8)) s t := by
  induction ds generalizing s n with
  | nil => simp at hlong
  | cons d ds ih =>
    have hds : ∀ d ∈ ds, hasError d = false := fun d h => hd d (List.mem_cons_of_mem _ h)
    obtain ⟨u, as, hstep, htrace, hchars, hdata, htransfered, hcapacity, hlast⟩ :=
      receive_filling (s := s) hc hpq (by omega) hn (hd d (List.mem_cons_self ..)) dueToTimeout
    rw [List.foldl_cons, hstep] at ht
    cases n with
    | zero =>
      rw [if_pos (by omega)] at hlast
      obtain ⟨hend, hnext⟩ := hlast
      obtain ⟨hfinal, hsame, hchars', hended⟩ := hnext.foldl hc hpq ds hds ht
      refine ⟨?_, ?_, ?_, hfinal.rxBuffer, hfinal.buffer⟩
      · rw [hsame, hdata]
        simp [Mem.write_singleton]
      · rw [hchars', htrace, chars_append, hchars]
        simp
      · rw [hended, htrace, ended_append, hend]
        simp
        omega
    | succ n =>
      rw [if_neg (by omega)] at hlast
      obtain ⟨hend, hq, hnotifies⟩ := hlast
      have hrest := ih (s := u) (n := n) (by omega) hnotifies hds
        (by rw [List.length_cons] at hlong; omega) ht
      refine ⟨?_, ?_, ?_, hrest.rxBuffer, by rw [hrest.next, hq]⟩
      · have happend : ∀ m : Mem, ((m.write (s.buffers p).transfered [d.toUInt8]).write
            ((s.buffers p).transfered + 1) ((ds.map (·.toUInt8)).take (n + 1))) =
            m.write (s.buffers p).transfered (d.toUInt8 :: (ds.map (·.toUInt8)).take (n + 1)) :=
          fun m => Mem.write_append.symm
        rw [hrest.data, hdata, htransfered, Option.map_map]
        simp only [Mem.write_singleton] at happend
        simp only [Function.comp_def, happend, List.map_cons, List.take_succ_cons]
      · rw [hrest.chars, htrace, chars_append, hchars]
        simp
      · rw [hrest.ended, htrace, ended_append, hend]
        simp

/-- The octets of a pass without an error. -/
def Seen.octets (e : Seen) : List UInt8 := e.good.received.map (·.toUInt8)

/-- **A burst that is longer than its buffer.** A pass of the handler with
received octets, for a client with two buffers: the second is started at the
end of the first, but the octets left go on being taken for the first, which
is reported as ended with every one of them. -/
theorem burst_past_end (s : Pl011) (e : Seen) (hc : Chains p q e) (hpq : p ≠ q)
    (hrx : s.rxBuffer = some p) (hn : s.notifies receiverHasdata = true)
    (hopen : (s.buffers p).transfered < capacity (s.buffers p))
    (hlong : capacity (s.buffers p) - (s.buffers p).transfered ≤ e.octets.length)
    (hmis : e.mis &&& (misRx ||| misRt) ≠ 0) (htx : s.haveRemainingTxData = false) :
    Overrun p q (capacity (s.buffers p) - (s.buffers p).transfered) e.octets s (s.step e) := by
  obtain ⟨n, hspace⟩ : ∃ n, capacity (s.buffers p) = (s.buffers p).transfered + n + 1 :=
    ⟨capacity (s.buffers p) - (s.buffers p).transfered - 1, by omega⟩
  have hsome : e.mis &&& (misOe ||| misBe ||| misPe ||| misFe ||| misRt ||| misTx ||| misRx |||
      misCts) ≠ 0 := by
    intro hzero
    have hsub : (misRx ||| misRt) = (misOe ||| misBe ||| misPe ||| misFe ||| misRt ||| misTx |||
        misRx ||| misCts) &&& (misRx ||| misRt) := by decide
    rw [hsub, ← UInt64.and_assoc, hzero, UInt64.zero_and] at hmis
    exact hmis rfl
  have hstep : s.step e = ({ s with inIrq := true } : Pl011).handleReceivedData e.good (some p)
      (e.mis &&& misRt != 0) := by
    have htx' : ({ s with inIrq := true } : Pl011).haveRemainingTxData = false := htx
    unfold step
    dsimp only
    rw [if_neg (by rw [htx']; simp), if_neg hsome, if_pos hmis, hrx, handleReceivedData_good]
  have hn1 : capacity (s.buffers p) - (s.buffers p).transfered = n + 1 := by omega
  rw [hn1] at hlong ⊢
  have hgood : ∀ d ∈ e.good.received, hasError d = false := fun d hd => by
    simpa using (List.mem_filter.1 hd).2
  have hc' : Chains p q e.good := ⟨hc.rxEnd, hc.other⟩
  have hover := overrun_of_foldl (s := { s with inIrq := true }) hc' hpq hspace hn
    e.good.received hgood (by simpa [Seen.octets] using hlong) hstep
  exact ⟨hover.data, hover.chars, hover.ended, hover.rxBuffer, hover.next⟩

/-- A buffer for one octet that is being received, with another like it. -/
def oneWaiting : Pl011 :=
  ⟨0, 0xC, none, some 7, false, false, fun _ => ⟨some fun _ => 0, 1, 1, 0, 0, fun _ => 0⟩,
    fun _ => 0, []⟩

/-- Three octets at once, the second with a framing error. -/
def threeOctets : Seen :=
  ⟨0x10, true, false, [0x55, 0x1AA, 0x66], [], fun cb => if cb = .rxEnd 7 then [.rxStart 8] else []⟩

theorem burst_past_end_three :
    Overrun 7 8 1 [0x55, 0x66] oneWaiting (oneWaiting.step threeOctets) := by
  have hc : Chains 7 8 threeOctets := ⟨rfl, fun cb h => if_neg h⟩
  exact burst_past_end oneWaiting threeOctets hc (by decide) rfl rfl (by decide) (by decide)
    (by decide) rfl

end Pl011

end Dmxrtuart

end Dmx4Linux2
