import Dmx4Linux2.Rtuart.Chunking

/-!
# rtuart DMX client — the lock on the number of slots

A port that has received frames of one size often enough takes the next
one to have that size too. The lock is a function of the frames that were
received: it holds just when the last of them are of one size
(`lock_history`). A longer frame is then cut off where the lock says it
ends, so the lock never sees that it was longer; it does only if the first
chunk has more bytes than the lock allows (`released_iff`).
-/

namespace Dmx4Linux2

namespace Rtuart

/-! ## The lock and the frames received -/

/-- What a received frame does to the lock. -/
def SlotCountLock.receive (l : SlotCountLock) (f : Frame) : SlotCountLock :=
  if f.startcode = 0 then l.update f.payloadSize else l

/-- The sizes of the frames that have the null start code. -/
def nullSizes (fs : List Frame) : List ℕ :=
  (fs.filter fun f => f.startcode = 0).map Frame.payloadSize

/-- How many sizes at the front are equal. -/
def streak : List ℕ → ℕ
  | [] => 0
  | n :: ns => if ns.head? = some n then streak ns + 1 else 1

/-- **The lock counts a streak**: the sizes are listed from the latest
on, and the count of frames stops when the lock snaps in. -/
structure Tracks (l : SlotCountLock) (ns : List ℕ) : Prop where
  locked : l.locked ↔ requiredCount + 1 ≤ streak ns
  frames : l.matchingFrameCount = min (streak ns - 1) requiredCount
  slots : l.matchingSlotCount = ns.head?.getD 0

variable {l : SlotCountLock} {ns : List ℕ} {n k : ℕ}

theorem replicate_prefix_cons {m : ℕ} :
    List.replicate (k + 1) n <+: m :: ns ↔ n = m ∧ List.replicate k n <+: ns := by
  rw [List.replicate_succ, List.cons_prefix_cons]

theorem le_streak_iff : k + 1 ≤ streak ns ↔ ∃ n, List.replicate (k + 1) n <+: ns := by
  induction ns generalizing k with
  | nil => simp [streak, List.replicate_succ]
  | cons m ns ih =>
    -- two equal sizes at the front make the streak one longer
    have htwo : ∀ j n, List.replicate (j + 1) n <+: ns → ns.head? = some n := by
      intro j n h
      cases ns with
      | nil => simp [List.replicate_succ] at h
      | cons m' ns => exact congrArg some (replicate_prefix_cons.1 h).1.symm
    simp only [replicate_prefix_cons, exists_eq_left, streak]
    cases k with
    | zero => exact iff_of_true (by split <;> omega) (List.nil_prefix)
    | succ j =>
      constructor
      · intro h
        split at h
        · rename_i hhead
          obtain ⟨n, hn⟩ := ih.1 (by omega : j + 1 ≤ streak ns)
          have heq : m = n := Option.some.inj (hhead.symm.trans (htwo j n hn))
          rwa [heq]
        · omega
      · intro h
        rw [if_pos (htwo j m h)]
        have := ih.2 ⟨m, h⟩
        omega

theorem Tracks.create : Tracks Port.create.rx.slotCountLock [] := by
  refine ⟨?_, rfl, rfl⟩
  decide

/-- A frame of another size starts again with that size. -/
theorem update_of_ne (h : n ≠ l.matchingSlotCount) : l.update n = ⟨false, 0, n % 2 ^ 10⟩ := by
  unfold SlotCountLock.update
  rw [if_pos h, if_neg h, ite_self]

/-- The size the lock knows is that of the latest frame. -/
theorem Tracks.same_iff (h : Tracks l ns) (hpos : 1 ≤ n) :
    n = l.matchingSlotCount ↔ ns.head? = some n := by
  rw [h.slots]
  cases ns.head? with
  | none =>
    simp only [Option.getD_none, reduceCtorEq, iff_false]
    omega
  | some m => simp [eq_comm]

theorem Tracks.update_other (h : Tracks l ns) (hpos : 1 ≤ n) (hmax : n ≤ 512)
    (hne : n ≠ l.matchingSlotCount) : Tracks (l.update n) (n :: ns) := by
  have hstreak : streak (n :: ns) = 1 := if_neg (mt (h.same_iff hpos).2 hne)
  have hfits : n % 2 ^ 10 = n := by omega
  rw [update_of_ne hne]
  refine ⟨?_, ?_, hfits⟩
  · rw [hstreak]
    exact iff_of_false Bool.false_ne_true (by decide)
  · rw [hstreak]
    rfl

theorem Tracks.update_same (h : Tracks l ns) (hpos : 1 ≤ n) (heq : n = l.matchingSlotCount) :
    Tracks (l.update n) (n :: ns) := by
  have hhead := (h.same_iff hpos).1 heq
  have hstreak : streak (n :: ns) = streak ns + 1 := if_pos hhead
  have hone : 1 ≤ streak ns := by
    cases ns with
    | nil => simp at hhead
    | cons m ns =>
      unfold streak
      split <;> omega
  have hlocked := h.locked
  have hframes := h.frames
  unfold SlotCountLock.update
  by_cases hl : l.locked
  · -- the count has stopped
    have hlong := hlocked.1 hl
    rw [if_pos hl, if_neg (not_not.2 heq)]
    refine ⟨?_, ?_, heq.symm⟩
    · rw [hstreak]
      exact iff_of_true hl (by omega)
    · rw [hframes, hstreak]
      omega
  · have hshort := mt hlocked.2 hl
    -- the count fits into its six bits
    have hwidth : (l.matchingFrameCount + 1) % 2 ^ 6 = streak ns := by
      rw [hframes]
      unfold requiredCount at *
      omega
    rw [if_neg hl, if_pos heq]
    simp only [hwidth]
    refine ⟨?_, ?_, heq.symm⟩
    · rw [hstreak, beq_iff_eq]
      omega
    · rw [hstreak]
      simp only
      omega

/-- **One frame.** -/
theorem Tracks.update (h : Tracks l ns) (hpos : 1 ≤ n) (hmax : n ≤ 512) :
    Tracks (l.update n) (n :: ns) := by
  by_cases heq : n = l.matchingSlotCount
  · exact h.update_same hpos heq
  · exact h.update_other hpos hmax heq

/-- **A run of frames**, of which those with other start codes do not
matter. -/
theorem Tracks.receive_all (h : Tracks l ns) (fs : List Frame)
    (hsizes : ∀ n ∈ nullSizes fs, 1 ≤ n ∧ n ≤ 512) :
    Tracks (fs.foldl SlotCountLock.receive l) ((nullSizes fs).reverse ++ ns) := by
  induction fs generalizing l ns with
  | nil => exact h
  | cons f fs ih =>
    rw [List.foldl_cons, SlotCountLock.receive]
    by_cases hnull : f.startcode = 0
    · have hsizes' : nullSizes (f :: fs) = f.payloadSize :: nullSizes fs := by
        simp [nullSizes, hnull]
      rw [hsizes'] at hsizes ⊢
      obtain ⟨hpos, hmax⟩ := hsizes _ (List.mem_cons_self ..)
      rw [if_pos hnull, List.reverse_cons, List.append_assoc]
      exact ih (h.update hpos hmax) fun n hn => hsizes n (List.mem_cons_of_mem _ hn)
    · have hsizes' : nullSizes (f :: fs) = nullSizes fs := by simp [nullSizes, hnull]
      rw [hsizes'] at hsizes ⊢
      rw [if_neg hnull]
      exact ih h hsizes

/-- **The lock is the history**: after any frames it holds just when the
last eleven of those with the null start code have one size, it knows the
size of the last one, and the count of frames does not pass the number
required. -/
theorem lock_history (fs : List Frame) (hsizes : ∀ n ∈ nullSizes fs, 1 ≤ n ∧ n ≤ 512) :
    let l := fs.foldl SlotCountLock.receive Port.create.rx.slotCountLock
    (l.locked ↔ ∃ n, List.replicate (requiredCount + 1) n <:+ nullSizes fs) ∧
      (∀ n, (nullSizes fs).getLast? = some n → l.matchingSlotCount = n) ∧
      l.matchingFrameCount ≤ requiredCount := by
  have h := Tracks.create.receive_all fs hsizes
  rw [List.append_nil] at h
  refine ⟨?_, fun n hlast => ?_, ?_⟩
  · rw [h.locked, le_streak_iff]
    refine exists_congr fun n => ?_
    rw [← List.reverse_prefix, List.reverse_replicate]
  · rw [h.slots, List.head?_reverse, hlast]
    rfl
  · rw [h.frames]
    exact Nat.min_le_right _ _

/-- A frame of three slots. -/
def threeSlots : Frame := ⟨0, ⟨false, false, false, 0⟩, 0, 3, fun _ => 0⟩

/-- Eleven frames of three slots. -/
theorem lock_history_threeSlots :
    ((List.replicate 11 threeSlots).foldl SlotCountLock.receive
      Port.create.rx.slotCountLock).locked :=
  (lock_history (List.replicate 11 threeSlots) (by decide)).1.2 ⟨3, by decide⟩

/-! ## The lock of a port that receives -/

variable {p : Port} {g : Entry} {got next : Option Entry} {c : List UInt8} {cs : List (List UInt8)}

/-- The lock once frames have been handed up. -/
def lockOf (l : SlotCountLock) (acts : List Action) : SlotCountLock :=
  ((delivered acts).map Entry.frame).foldl SlotCountLock.receive l

theorem lockOf_append (acts acts' : List Action) :
    lockOf l (acts ++ acts') = lockOf (lockOf l acts) acts' := by
  unfold lockOf
  rw [delivered_append, List.map_append, List.foldl_append]

/-- The port receives DMX frames, or waits for one. -/
def AwaitsDmx (p : Port) : Prop :=
  p.state = .idle ∨ p.state = .expectStartcode ∨ p.state = .receiveDmxdata

/-- **What a callback keeps**: the port goes on receiving, and its lock is
that of the frames handed up. -/
def Accounts (p : Port) (r : Port × List Action) : Prop :=
  AwaitsDmx r.1 ∧ r.1.rx.slotCountLock = lockOf p.rx.slotCountLock r.2

theorem checkoutRxFrame_lock : p.checkoutRxFrame.1.rx.slotCountLock =
    lockOf p.rx.slotCountLock (receivedFrame p.checkoutRxFrame.2) := by
  unfold Port.checkoutRxFrame
  split <;> rfl

theorem checkReceivedData_lock (start size d : ℕ) :
    (p.checkReceivedData start size d).rx.slotCountLock = p.rx.slotCountLock := by
  obtain ⟨flags, expected, hrx⟩ := checkReceivedData_marked (p := p) start size d
  rw [hrx]
  rfl

theorem accounts_flushRx (h : AwaitsDmx p) : Accounts p p.flushRx := by
  refine ⟨?_, ?_⟩
  · unfold AwaitsDmx at h ⊢
    unfold Port.flushRx
    dsimp only
    split
    · exact Or.inl rfl
    · rw [Port.checkoutRxFrame_state]
      exact h
  · have hlock := checkoutRxFrame_lock (p := p)
    unfold Port.flushRx
    dsimp only
    split <;> exact hlock

theorem accounts_handleBreak (h : AwaitsDmx p) (got : Option Entry) :
    Accounts p (p.handleBreak got) := by
  have hnone : lockOf p.rx.slotCountLock (p.handleBreak got).2 = p.rx.slotCountLock := by
    unfold lockOf
    rw [delivered_handleBreak]
    rfl
  unfold Accounts
  rw [hnone]
  unfold Port.handleBreak AwaitsDmx
  rcases h with h | h | h
  · rw [h]
    cases got with
    | none => exact ⟨Or.inl rfl, rfl⟩
    | some g => exact ⟨Or.inr (Or.inl rfl), rfl⟩
  · rw [h]
    dsimp only
    split
    · exact ⟨Or.inr (Or.inl rfl), rfl⟩
    · exact ⟨Or.inr (Or.inl h), rfl⟩
  · rw [h]
    exact ⟨Or.inr (Or.inr h), rfl⟩

/-- **A break.** -/
theorem accounts_lineStatusEvent (h : AwaitsDmx p) (got : Option Entry) :
    Accounts p (p.lineStatusEvent true got) := by
  have hnotTx : ¬ p.state.isTx := by
    rcases h with h | h | h <;> rw [h] <;> decide
  unfold Port.lineStatusEvent
  rw [if_neg hnotTx, if_pos rfl]
  dsimp only
  -- what was being received has been handed up
  have hflushed : ∀ r : Port × List Action, Accounts p r →
      Accounts p ((r.1.handleBreak got).1,
        r.2 ++ (r.1.handleBreak got).2 ++ [.enableNotification .lineEvent]) := by
    intro r hr
    obtain ⟨hawaits, hlock⟩ := accounts_handleBreak hr.1 got
    refine ⟨hawaits, ?_⟩
    rw [lockOf_append, lockOf_append, ← hr.2]
    exact hlock
  split
  · exact hflushed _ (accounts_flushRx h)
  · exact hflushed (p, []) ⟨h, rfl⟩

theorem accounts_completeRx : Accounts p p.completeRx := by
  refine ⟨Or.inl rfl, ?_⟩
  unfold Port.completeRx
  dsimp only
  rw [lockOf_append, checkoutRxFrame_lock, Port.checkoutTxFrame_rx]
  have hput : ∀ o, lockOf p.rx.slotCountLock (putFrame o) = p.rx.slotCountLock := by
    intro o
    unfold lockOf
    rw [delivered_putFrame]
    rfl
  rw [hput]
  split
  · split <;> rfl
  · rfl

theorem accounts_receiveData (h : AwaitsDmx p) (count : ℕ) (fifo : List UInt8) :
    Accounts p (p.receiveData count fifo) := by
  have hflush : ∀ (b : Prop) [Decidable b] (l : SlotCountLock),
      lockOf l (if b then [Action.flushRxFifo] else []) = l := by
    intro b _ l
    split <;> rfl
  unfold Port.receiveData
  split
  · exact ⟨h, rfl⟩
  · rename_i d hdata
    dsimp only
    generalize readChars fifo (p.toread count) = bs
    split
    · have hlock : (((p.storeRx d bs).checkReceivedData p.rx.count bs.length d).advanceRx
          bs.length).rx.slotCountLock = p.rx.slotCountLock :=
        checkReceivedData_lock (p := p.storeRx d bs) _ _ _
      have hstate : (((p.storeRx d bs).checkReceivedData p.rx.count bs.length d).advanceRx
          bs.length).state = p.state := checkReceivedData_state (p := p.storeRx d bs)
      generalize ((p.storeRx d bs).checkReceivedData p.rx.count bs.length d).advanceRx
        bs.length = q at hlock hstate
      split
      · obtain ⟨hawaits, hdone⟩ := accounts_completeRx (p := q)
        refine ⟨hawaits, ?_⟩
        rw [lockOf_append, hflush, ← hlock]
        exact hdone
      · refine ⟨?_, ?_⟩
        · unfold AwaitsDmx
          rw [hstate]
          exact h
        · exact hlock.trans (hflush _ _).symm
    · exact ⟨h, (hflush _ _).symm⟩

/-- **Bytes.** -/
theorem accounts_receiverDataAvailable (h : AwaitsDmx p) (count : Option ℕ) (fifo : List UInt8) :
    Accounts p (p.receiverDataAvailable count fifo) := by
  have hnotTx : ¬ p.state.isTx := by
    rcases h with h | h | h <;> rw [h] <;> decide
  unfold Port.receiverDataAvailable
  dsimp only
  rw [if_neg hnotTx]
  split
  · exact ⟨Or.inl rfl, rfl⟩
  · rcases h with h | h | h
    · rw [h]
      exact ⟨Or.inl h, rfl⟩
    · rw [h]
      exact accounts_receiveData (p := { p with state := .receiveDmxdata }) (Or.inr (Or.inr rfl)) _ _
    · rw [h]
      exact accounts_receiveData (p := { p with state := .receiveDmxdata }) (Or.inr (Or.inr rfl)) _ _

/-- **A run of breaks and bytes**: the lock is that of the frames handed
up. -/
theorem accounts_run (h : AwaitsDmx p) (es : List Event)
    (hes : ∀ e ∈ es, (∃ got, e = .lineStatusEvent true got) ∨
      ∃ count fifo, e = .receiverDataAvailable count fifo) :
    Accounts p (p.handleAll es) := by
  induction es generalizing p with
  | nil => exact ⟨h, rfl⟩
  | cons e es ih =>
    have hstep : Accounts p (p.handle e) := by
      rcases hes e (List.mem_cons_self ..) with ⟨got, rfl⟩ | ⟨count, fifo, rfl⟩
      · exact accounts_lineStatusEvent h got
      · exact accounts_receiverDataAvailable h count fifo
    obtain ⟨hawaits, hlock⟩ := ih hstep.1 fun e' he' => hes e' (List.mem_cons_of_mem _ he')
    refine ⟨hawaits, ?_⟩
    rw [Port.handleAll, lockOf_append, ← hstep.2]
    exact hlock

/-! ## What is handed up for a frame -/

/-- A frame on the line: its break, its bytes in chunks, and the break of
the frame behind it. -/
def frameEvents (g : Entry) (next : Option Entry) (chunks : List (List UInt8)) : List Event :=
  .lineStatusEvent true (some g) :: (arrivals chunks ++ [.lineStatusEvent true next])

theorem accounts_frameEvents (h : AwaitsDmx p) :
    Accounts p (p.handleAll (frameEvents g next cs)) := by
  refine accounts_run h _ fun e he => ?_
  unfold frameEvents arrivals at he
  rcases List.mem_cons.1 he with rfl | he
  · exact Or.inl ⟨_, rfl⟩
  · rcases List.mem_append.1 he with he | he
    · obtain ⟨c, -, rfl⟩ := List.mem_map.1 he
      exact Or.inr ⟨_, _, rfl⟩
    · exact Or.inl ⟨_, List.mem_singleton.1 he⟩

/-- A frame handed up, wherever it was. -/
def Handed.unplaced (h : Handed) : Handed := { h with point := none }

theorem unplaced_ofFrame (point : Option ℕ) (f : Frame) :
    (Handed.ofFrame point f).unplaced = .ofFrame none f := by
  simp only [Handed.unplaced, Handed.ofFrame]

theorem handedAt_unplaced (point : Option ℕ) (acts : List Action) :
    (handedAt point acts).map Handed.unplaced = handedAt none acts := by
  unfold handedAt
  rw [List.map_map]
  exact List.map_congr_left fun e _ => unplaced_ofFrame point e.frame

theorem handedAt_append (acts acts' : List Action) :
    handedAt none (acts ++ acts') = handedAt none acts ++ handedAt none acts' := by
  unfold handedAt
  rw [delivered_append, List.map_append]

theorem receiveToBreak_run (pos : ℕ) : (receiveToBreak p pos cs next).map Handed.unplaced =
    handedAt none (p.handleAll (arrivals cs ++ [.lineStatusEvent true next])).2 := by
  induction cs generalizing p pos with
  | nil =>
    rw [receiveToBreak_nil, handedAt_unplaced]
    exact (congrArg (handedAt none) (List.append_nil _)).symm
  | cons c cs ih =>
    rw [receiveToBreak_cons, List.map_append, handedAt_unplaced, ih]
    exact (handedAt_append _ _).symm

theorem reception_run : (reception p (some g) next cs).map Handed.unplaced =
    handedAt none (p.handleAll (frameEvents g next cs)).2 := by
  unfold reception
  rw [List.map_append, handedAt_unplaced, receiveToBreak_run]
  exact (handedAt_append _ _).symm

/-- What is seen of a frame decides what it does to the lock. -/
theorem lockOf_handed {f : Frame} {acts : List Action}
    (h : handedAt none acts = [.ofFrame none f]) : lockOf l acts = l.receive f := by
  unfold handedAt at h
  obtain ⟨e, hdelivered, heq⟩ := List.map_eq_singleton_iff.1 h
  obtain ⟨-, hdata, hsize, -⟩ := Handed.mk.inj heq
  have hstart : e.frame.startcode = f.startcode := by
    have hfirst := congrArg (fun bs => bs[0]?) hdata
    simp only [Mem.getElem?_read (show 0 < 513 by omega)] at hfirst
    exact Option.some.inj hfirst
  unfold lockOf
  rw [hdelivered]
  show l.receive e.frame = l.receive f
  unfold SlotCountLock.receive
  rw [hstart, hsize]

/-- **The lock after a frame** that has the null start code. -/
theorem Quiet.lock_frame (h : Quiet p) {point : Option ℕ} {bytes : List UInt8} {flags : Flags}
    (hreception : reception p (some g) next cs = [.ofFrame point (handedFrame g bytes flags)])
    (hstart : bytes[0]? = some 0) :
    (p.handleAll (frameEvents g next cs)).1.rx.slotCountLock =
      p.rx.slotCountLock.update (bytes.length - 1) := by
  have hhanded : (reception p (some g) next cs).map Handed.unplaced = _ := reception_run
  rw [hreception, List.map_singleton, unplaced_ofFrame] at hhanded
  have hnull : (handedFrame g bytes flags).startcode = 0 := by
    show (blank g).write 0 bytes 0 = 0
    rw [blank_write_apply (by omega), hstart]
    rfl
  rw [(accounts_frameEvents (Or.inl h.state)).2, lockOf_handed hhanded.symm,
    SlotCountLock.receive, if_pos hnull]
  rfl

/-! ## A longer frame -/

theorem update_locked_iff (hl : l.locked) (n : ℕ) :
    (l.update n).locked = false ↔ n ≠ l.matchingSlotCount := by
  by_cases hne : n = l.matchingSlotCount
  · have hkept : l.update n = l := by
      unfold SlotCountLock.update
      rw [if_pos hl, if_neg (not_not.2 hne)]
    rw [hkept, hl]
    exact iff_of_false (by decide) (not_not.2 hne)
  · rw [update_of_ne hne]
    exact iff_of_true rfl hne

section Longer

variable {slots : List UInt8}

/-- The first chunk begins with the start code. -/
theorem first_of_flatten {chunk : List UInt8} (hne : chunk ≠ [])
    (hbytes : (chunk :: cs).flatten = 0 :: slots) : chunk[0]? = some 0 := by
  obtain ⟨b, bs, rfl⟩ := List.exists_cons_of_ne_nil hne
  exact congrArg some (List.cons.inj hbytes).1

/-- **More bytes came at once than the lock allows**: the frame is longer
for the lock too, whatever its flags. -/
theorem Quiet.releases (h : Quiet p) (hl : p.rx.slotCountLock.locked) (hc : c ≠ [])
    (hbytes : (c :: cs).flatten = 0 :: slots) (hlen : slots.length ≤ 512)
    (hover : p.rx.slotCountLock.matchingSlotCount + 1 < c.length) :
    (p.handleAll (frameEvents g next (c :: cs))).1.rx.slotCountLock.locked = false := by
  have hstart := first_of_flatten hc hbytes
  have htotal : c.length + cs.flatten.length ≤ 513 := by
    have := congrArg List.length hbytes
    rw [List.flatten_cons, List.length_append, List.length_cons] at this
    omega
  obtain ⟨q, flags, expected, hreception, hq, -, -⟩ := h.first (g := g) hc (by omega) next cs
  by_cases hfull : c.length = 513
  · rw [if_pos hfull] at hreception
    rw [h.lock_frame hreception hstart, update_locked_iff hl]
    omega
  · rw [if_neg hfull] at hreception
    obtain ⟨point, bytes, flags', heq, -, hleading, -⟩ :=
      (hq hfull).delivers (by omega) htotal c.length next
    obtain ⟨more, rfl⟩ := hleading
    have hstart' : (c ++ more)[0]? = some 0 := by
      rw [List.getElem?_append_left (by omega), hstart]
    rw [h.lock_frame (hreception.trans heq) hstart', update_locked_iff hl, List.length_append]
    omega

/-- **The first chunk ends where the lock says the frame does, or
before**: the frame is cut off there. -/
theorem Quiet.cut (h : Quiet p) (hl : p.rx.slotCountLock.locked)
    (hcs : ∀ c' ∈ c :: cs, c' ≠ []) (hbytes : (c :: cs).flatten = 0 :: slots)
    (hmore : p.rx.slotCountLock.matchingSlotCount < slots.length) (hlen : slots.length ≤ 512)
    (hfits : c.length ≤ p.rx.slotCountLock.matchingSlotCount + 1)
    (hrdm : g.frame.flags.isRdm = false) (hdisc : g.frame.flags.isRdmDisc = false)
    (next : Option Entry) :
    ∃ point bytes flags, reception p (some g) next (c :: cs) =
        [.ofFrame point (handedFrame g bytes flags)] ∧
      bytes[0]? = some 0 ∧ bytes.length - 1 = p.rx.slotCountLock.matchingSlotCount := by
  have hc : c ≠ [] := hcs c (List.mem_cons_self ..)
  have hstart := first_of_flatten hc hbytes
  have htotal : c.length + cs.flatten.length = slots.length + 1 := by
    have := congrArg List.length hbytes
    rwa [List.flatten_cons, List.length_append, List.length_cons] at this
  have hshows : ¬ ShowsRdm g.frame.flags c := by
    rintro ⟨-, hrdm' | hrdm'⟩
    · rw [hstart] at hrdm'
      exact absurd (Option.some.inj hrdm') (by decide)
    · rw [hrdm] at hrdm'
      exact Bool.false_ne_true hrdm'
  obtain ⟨q, flags, expected, hreception, hq, hplain, -⟩ :=
    h.first (g := g) hc (by omega) next cs
  have hshort : c.length ≠ 513 := by omega
  obtain ⟨rfl, rfl⟩ := hplain (Or.inr hshows)
  have hexpected : plainExpected p.rx.slotCountLock g.frame.flags c =
      p.rx.slotCountLock.matchingSlotCount := by
    refine if_pos ⟨?_, ?_, hstart, hl⟩
    · simp [hdisc]
    · simp [hrdm]
  rw [if_neg hshort] at hreception
  have hq := hq hshort
  rw [hexpected] at hq
  rcases Nat.lt_or_ge c.length (p.rx.slotCountLock.matchingSlotCount + 1) with hlow | hfull
  · have hend : p.rx.slotCountLock.matchingSlotCount < (c ++ cs.flatten).length := by
      rw [List.length_append]
      omega
    rw [hreception, hq.plain settled_plainFlags hc (by omega) (by omega)
      fun c' hc' => hcs c' (List.mem_cons_of_mem _ hc'), plainHanded, if_pos hend]
    refine ⟨_, _, _, rfl, ?_, ?_⟩
    · rw [List.getElem?_take_of_lt (by omega), List.getElem?_append_left, hstart]
      exact List.length_pos_iff.2 hc
    · rw [List.length_take]
      omega
  · -- all bytes the lock allows are there, and no more are taken
    rw [hreception, hq.stuck (by omega) (by omega)]
    exact ⟨_, _, _, rfl, hstart, by omega⟩

/-- So the lock does not see that it was longer. -/
theorem Quiet.keeps (h : Quiet p) (hl : p.rx.slotCountLock.locked)
    (hcs : ∀ c' ∈ c :: cs, c' ≠ []) (hbytes : (c :: cs).flatten = 0 :: slots)
    (hmore : p.rx.slotCountLock.matchingSlotCount < slots.length) (hlen : slots.length ≤ 512)
    (hfits : c.length ≤ p.rx.slotCountLock.matchingSlotCount + 1)
    (hrdm : g.frame.flags.isRdm = false) (hdisc : g.frame.flags.isRdmDisc = false)
    (next : Option Entry) :
    (p.handleAll (frameEvents g next (c :: cs))).1.rx.slotCountLock.locked = true := by
  obtain ⟨point, bytes, flags, heq, hnull, hsize⟩ :=
    h.cut hl hcs hbytes hmore hlen hfits hrdm hdisc next
  rw [h.lock_frame heq hnull, ← Bool.not_eq_false, update_locked_iff hl]
  exact not_not.2 hsize

/-- A frame can begin: the port is idle, or it receives a DMX frame, which
the break ends. -/
def Free (p : Port) : Prop := p.state = .idle ∨ p.state = .receiveDmxdata ∧ p.rx.frame.isSome

/-- The lock when the break of the next frame has come. -/
def Port.lockAtBreak (p : Port) : SlotCountLock := (p.lineStatusEvent true none).1.rx.slotCountLock

theorem Quiet.lockAtBreak (h : Quiet p) : p.lockAtBreak = p.rx.slotCountLock := by
  unfold Port.lockAtBreak
  rw [h.lineStatusEvent]
  unfold Port.handleBreak
  rw [h.state]

/-- The break leaves what it leaves where nothing is being received. -/
theorem Free.quiet (h : Free p) :
    ∃ q, Quiet q ∧ (∀ got, (p.lineStatusEvent true got).1 = (q.lineStatusEvent true got).1) ∧
      p.lockAtBreak = q.rx.slotCountLock := by
  by_cases hf : p.rx.frame.isSome
  · have hquiet : Quiet p.flushRx.1 := by
      have hview := congrArg View.rx (Port.checkoutRxFrame_view (p := p))
      have hrx : p.checkoutRxFrame.1.rx.frame = none := Option.map_eq_none_iff.1 hview
      have hstate : p.checkoutRxFrame.1.state = p.state := Port.checkoutRxFrame_state
      unfold Port.flushRx
      dsimp only
      rcases h with h | ⟨h, -⟩
      · rw [if_neg (by rw [hstate, h]; decide)]
        exact ⟨hstate.trans h, hrx⟩
      · rw [if_pos (by rw [hstate, h]; decide)]
        exact ⟨rfl, hrx⟩
    have hflush : p.state.code ≤ PortState.receiveDmxdata.code ∧ p.rx.frame.isSome ∧
        p.state ≠ .expectStartcode := by
      rcases h with h | ⟨h, -⟩ <;> rw [h] <;> exact ⟨by decide, hf, by decide⟩
    have hnotTx : ¬ p.state.isTx := by
      rcases h with h | ⟨h, -⟩ <;> rw [h] <;> decide
    have hsame : ∀ got, (p.lineStatusEvent true got).1 =
        (p.flushRx.1.lineStatusEvent true got).1 := by
      intro got
      rw [hquiet.lineStatusEvent]
      unfold Port.lineStatusEvent
      rw [if_neg hnotTx, if_pos rfl, if_pos hflush]
    refine ⟨_, hquiet, hsame, ?_⟩
    rw [← hquiet.lockAtBreak]
    exact congrArg (fun q : Port => q.rx.slotCountLock) (hsame none)
  · have hquiet : Quiet p :=
      ⟨h.resolve_right fun h => hf h.2, Option.not_isSome_iff_eq_none.1 hf⟩
    exact ⟨p, hquiet, fun _ => rfl, hquiet.lockAtBreak⟩

/-- **When a longer frame breaks the lock**: whichever entry it is
received into, just when its first chunk alone has more bytes than the
lock allows. -/
theorem released_iff {m : ℕ} (h : Free p) (hl : p.lockAtBreak.locked)
    (hm : p.lockAtBreak.matchingSlotCount = m) (hcs : ∀ c' ∈ c :: cs, c' ≠ [])
    (hbytes : (c :: cs).flatten = 0 :: slots) (hmore : m < slots.length)
    (hlen : slots.length ≤ 512) :
    (∀ g next, (p.handleAll (frameEvents g next (c :: cs))).1.rx.slotCountLock.locked = false) ↔
      m + 1 < c.length := by
  obtain ⟨q, hq, hsame, hlock⟩ := h.quiet
  rw [hlock] at hl hm
  subst hm
  have hrun : ∀ g next, (p.handleAll (frameEvents g next (c :: cs))).1 =
      (q.handleAll (frameEvents g next (c :: cs))).1 := by
    intro g next
    unfold frameEvents
    rw [Port.handleAll, Port.handleAll]
    dsimp only [Port.handle]
    rw [hsame]
  constructor
  · intro hreleased
    by_contra hfits
    have hkeeps := hq.keeps (g := zeroFrame) hl hcs hbytes hmore hlen (by omega) rfl rfl none
    have hnot := hreleased zeroFrame none
    rw [hrun, hkeeps] at hnot
    exact absurd hnot (by decide)
  · intro hover g next
    rw [hrun]
    exact hq.releases hl (hcs c (List.mem_cons_self ..)) hbytes hlen hover

end Longer

/-- A port that has received eleven frames of two slots. -/
def lockedPort : Port :=
  (Port.create.handleAll ((List.replicate 11 (frameEvents zeroFrame none [[0, 10, 20]])).flatten)).1

theorem lockedPort_quiet : Quiet lockedPort := ⟨by decide +kernel, by decide +kernel⟩

theorem lockedPort_lock : lockedPort.rx.slotCountLock = ⟨true, 10, 2⟩ := by decide +kernel

theorem lockedPort_lockAtBreak : lockedPort.lockAtBreak = ⟨true, 10, 2⟩ :=
  lockedPort_quiet.lockAtBreak.trans lockedPort_lock

/-- Three slots in one chunk break a lock on two. -/
theorem released_iff_oneChunk :
    (lockedPort.handleAll
      (frameEvents zeroFrame none [[0, 10, 20, 30]])).1.rx.slotCountLock.locked = false := by
  have hl : lockedPort.lockAtBreak.locked := by rw [lockedPort_lockAtBreak]
  have hm : lockedPort.lockAtBreak.matchingSlotCount = 2 := by rw [lockedPort_lockAtBreak]
  have hbytes : [[(0 : UInt8), 10, 20, 30]].flatten = 0 :: [10, 20, 30] := rfl
  exact (released_iff (Or.inl lockedPort_quiet.state) hl hm (by decide) hbytes (by decide)
    (by decide)).2 (by decide) zeroFrame none

/-- Three slots that come one by one do not. -/
theorem not_released_perByte :
    ¬ ∀ (p : Port) (c slots : List UInt8) (cs : List (List UInt8)) (m : ℕ), Free p →
      p.lockAtBreak.locked → p.lockAtBreak.matchingSlotCount = m → m < 512 →
      (∀ c' ∈ c :: cs, c' ≠ []) → (c :: cs).flatten = 0 :: slots → m < slots.length →
      slots.length ≤ 512 → ∀ g next,
      (p.handleAll (frameEvents g next (c :: cs))).1.rx.slotCountLock.locked = false := by
  intro h
  have hl : lockedPort.lockAtBreak.locked := by rw [lockedPort_lockAtBreak]
  have hm : lockedPort.lockAtBreak.matchingSlotCount = 2 := by rw [lockedPort_lockAtBreak]
  have hbytes : [[(0 : UInt8)], [10], [20], [30]].flatten = 0 :: [10, 20, 30] := rfl
  have hreleased := h lockedPort _ _ _ 2 (Or.inl lockedPort_quiet.state) hl hm (by decide)
    (by decide) hbytes (by decide) (by decide) zeroFrame none
  have hkeeps := lockedPort_quiet.keeps (g := zeroFrame) (by rw [lockedPort_lock]) (by decide)
    hbytes (by rw [lockedPort_lock]; decide) (by decide) (by rw [lockedPort_lock]; decide) rfl rfl
    none
  rw [hkeeps] at hreleased
  exact absurd hreleased (by decide)

end Rtuart

end Dmx4Linux2
