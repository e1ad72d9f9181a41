import Dmx4Linux2.Common.Linked
import Dmx4Linux2.Common.Run
import Dmx4Linux2.Dmxrtuart.Model.Forward
import Mathlib.Data.List.Palindrome

/-!
# rtuart testbench — the order of forwarded frames

A frame is put at the front of the list and a pass writes the list from its
front, so the frames of one pass are written last first. And nothing keeps
the two threads out of each other's statements: what is put on the list
between the two of a pass is forgotten, and a frame linked to a list that is
not the one any more brings the old one back. The frames are forwarded in
order as long as no pass takes two of them and no thread gets between.
-/

namespace Dmx4Linux2

namespace Dmxrtuart

namespace Forwarder

variable {ι : Type*} [DecidableEq ι] {s : Forwarder ι} {e : Event ι} {es : List (Event ι)}
variable {t t' : Thread} {x : ι} {fs fs' waiting waiting' : List ι}

def step (s : Forwarder ι) : Event ι → Forwarder ι
  | .link t frame => s.linkFrame t frame
  | .publish t => s.publishFrame t
  | .signal t => s.signalFrame t
  | .load => s.loadFrames
  | .clear => s.clearFrames
  | .write => s.writeFrame

/-- The passes that are to come for certain: one for each byte in the pipe
or about to be written there, and the one that has just begun. -/
def wakeups (s : Forwarder ι) : ℕ :=
  s.signals + (if s.calls .irq = .published then 1 else 0) +
    (if s.calls .main = .published then 1 else 0) + (if s.loaded then 1 else 0)

/-- What the pass has still to write, once the frames it found are its own. -/
def Passing (s : Forwarder ι) (fs : List ι) : Prop :=
  if s.loaded then fs = [] else Linked .head s.cells .f fs

/-- **The frames written, those the pass has still to write and those that
wait are the frames received**, in this order, and there is a pass to come
for each that waits. -/
def InOrder (s : Forwarder ι) : Prop :=
  ∃ fs waiting, s.Passing fs ∧ Linked .head s.cells .receivedFrames waiting ∧
    s.written ++ fs ++ waiting.reverse = s.received ∧ waiting.length ≤ s.wakeups

/-- So the frames are written in the order they were received. -/
theorem InOrder.written_isPrefix (h : InOrder s) : s.written <+: s.received := by
  obtain ⟨fs, waiting, -, -, hall, -⟩ := h
  rw [← hall, List.append_assoc]
  exact List.prefix_append _ _

/-- **No thread gets between the two statements of the other, and a pass
finds one frame at most.** When a frame is put on the list, the list is the
one it was linked to; when a pass clears the list, it is the one the pass
read, of one frame or none. -/
def Undisturbed (s : Forwarder ι) : Event ι → Prop
  | .publish t => ∀ x, s.calls t = .linked x → s.cells (.head x) = s.cells .receivedFrames
  | .clear => s.loaded → s.cells .f = s.cells .receivedFrames ∧
      ∀ x, s.cells .f = some x → s.cells (.head x) = none
  | _ => True

/-- What holds of the two lists in undisturbed runs: `fs` is what the pass
has still to write, `waiting` what is on the list. -/
structure Good (s : Forwarder ι) (fs waiting : List ι) : Prop where
  pass : Linked .head s.cells .f fs
  list : Linked .head s.cells .receivedFrames waiting
  /-- What a pass has read stays the end of the list until it is cleared, -/
  suffix : s.loaded → fs <:+ waiting
  /-- and is not on it any more then. -/
  disjoint : s.loaded = false → ∀ x ∈ fs, x ∉ waiting
  nodup : waiting.Nodup
  nodup_pass : fs.Nodup
  live : ∀ x, x ∈ fs ∨ x ∈ waiting → x ∈ s.live
  /-- A frame that is linked only is on neither, -/
  linked : ∀ t x, s.calls t = .linked x → x ∈ s.live ∧ x ∉ fs ∧ x ∉ waiting
  /-- and in the hands of one thread. -/
  apart : ∀ t t' x, s.calls t = .linked x → s.calls t' = .linked x → t = t'
  order : s.written ++ (if s.loaded then [] else fs) ++ waiting.reverse = s.received
  signalled : waiting.length ≤ s.wakeups

theorem good_init : Good (init : Forwarder ι) [] [] where
  pass := rfl
  list := rfl
  suffix := fun h => absurd h Bool.false_ne_true
  disjoint := fun _ x hx => absurd hx List.not_mem_nil
  nodup := List.nodup_nil
  nodup_pass := List.nodup_nil
  live := fun x hx => absurd hx (by simp)
  linked := fun t x h => by cases h
  apart := fun t t' x h => by cases h
  order := rfl
  signalled := Nat.zero_le _

theorem Good.passing (h : Good s fs waiting) : s.Passing (if s.loaded then [] else fs) := by
  rw [Passing]
  split
  · rfl
  · exact h.pass

theorem Good.inOrder (h : Good s fs waiting) : InOrder s :=
  ⟨_, waiting, h.passing, h.list, h.order, h.signalled⟩

/-! ## `dmx512_received_frame` -/

theorem Good.linkFrame (h : Good s fs waiting) (t : Thread) (frame : Option ι) :
    Good (s.linkFrame t frame) fs waiting := by
  cases frame with
  | none => exact h
  | some frame =>
    rw [Forwarder.linkFrame]
    split
    · next hcan =>
      obtain ⟨hidle, hnew, -⟩ := hcan
      have hfs : ∀ x ∈ fs, x ≠ frame := fun x hx heq => hnew (heq ▸ h.live x (.inl hx))
      have hwaiting : ∀ x ∈ waiting, x ≠ frame := fun x hx heq => hnew (heq ▸ h.live x (.inr hx))
      have hcalls : ∀ t' x, Function.update s.calls t (.linked frame) t' = .linked x →
          (t' = t ∧ x = frame) ∨ (t' ≠ t ∧ s.calls t' = .linked x) := by
        intro t' x hx
        by_cases ht : t' = t
        · rw [ht, Function.update_self] at hx
          exact .inl ⟨ht, (Call.linked.inj hx).symm⟩
        · rw [Function.update_of_ne ht] at hx
          exact .inr ⟨ht, hx⟩
      refine { h with pass := ?_, list := ?_, live := ?_, linked := ?_, apart := ?_,
                      signalled := ?_ }
      · exact h.pass.update_of_ne (by simp) (fun x hx => by simpa using hfs x hx) _
      · exact h.list.update_of_ne (by simp) (fun x hx => by simpa using hwaiting x hx) _
      · exact fun x hx => List.mem_cons_of_mem frame (h.live x hx)
      · intro t' x hx
        rcases hcalls t' x hx with ⟨-, rfl⟩ | ⟨-, hx'⟩
        · exact ⟨List.mem_cons_self, fun hx => hfs x hx rfl, fun hx => hwaiting x hx rfl⟩
        · obtain ⟨hlive, hrest⟩ := h.linked t' x hx'
          exact ⟨List.mem_cons_of_mem frame hlive, hrest⟩
      · intro t₁ t₂ x h₁ h₂
        rcases hcalls t₁ x h₁ with ⟨rfl, rfl⟩ | ⟨-, h₁'⟩ <;>
          rcases hcalls t₂ _ h₂ with ⟨rfl, heq⟩ | ⟨-, h₂'⟩
        · rfl
        · exact absurd (h.linked t₂ x h₂').1 hnew
        · exact absurd (heq ▸ (h.linked t₁ x h₁').1) hnew
        · exact h.apart t₁ t₂ x h₁' h₂'
      · refine h.signalled.trans (Nat.le_of_eq ?_)
        cases t <;> simp [wakeups, hidle]
    · exact h

omit [DecidableEq ι] in
theorem linked_of_update {c : Call ι} (hc : ∀ x, c ≠ .linked x)
    (h : Function.update s.calls t c t' = .linked x) : t' ≠ t ∧ s.calls t' = .linked x := by
  have ht : t' ≠ t := by
    rintro rfl
    exact hc x (by rwa [Function.update_self] at h)
  rw [Function.update_of_ne ht] at h
  exact ⟨ht, h⟩

/-- **The frame is at the front now**, if it was linked to the list as it is. -/
theorem Good.publishFrame (h : Good s fs waiting) (hx : s.calls t = .linked x)
    (heq : s.cells (.head x) = s.cells .receivedFrames) :
    Good (s.publishFrame t) fs (x :: waiting) := by
  obtain ⟨hlive, hfs, hwaiting⟩ := h.linked t x hx
  simp only [Forwarder.publishFrame, hx]
  refine { h with pass := ?_, list := ⟨?_, ?_⟩, suffix := ?_, disjoint := ?_, nodup := ?_,
                  live := ?_, linked := ?_, apart := ?_, order := ?_, signalled := ?_ }
  · exact h.pass.update_of_ne (by simp) (by simp) _
  · exact Function.update_self Cell.receivedFrames (some x) s.cells
  · exact (h.list.of_cell_eq heq).update_of_ne (by simp) (by simp) _
  · exact fun hloaded => (h.suffix hloaded).trans (List.suffix_cons x waiting)
  · intro hloaded y hy hmem
    rcases List.mem_cons.1 hmem with rfl | hmem
    · exact hfs hy
    · exact h.disjoint hloaded y hy hmem
  · exact List.nodup_cons.2 ⟨hwaiting, h.nodup⟩
  · rintro y (hy | hy)
    · exact h.live y (.inl hy)
    · rcases List.mem_cons.1 hy with rfl | hy
      · exact hlive
      · exact h.live y (.inr hy)
  · intro t' y hy
    obtain ⟨ht, hy'⟩ := linked_of_update (by simp) hy
    obtain ⟨hlive', hfs', hwaiting'⟩ := h.linked t' y hy'
    refine ⟨hlive', hfs', ?_⟩
    rw [List.mem_cons, not_or]
    exact ⟨fun hxy => ht (h.apart t' t y hy' (hxy ▸ hx)), hwaiting'⟩
  · intro t₁ t₂ y h₁ h₂
    exact h.apart t₁ t₂ y (linked_of_update (by simp) h₁).2 (linked_of_update (by simp) h₂).2
  · simp only [List.reverse_cons, ← h.order, List.append_assoc]
  · have hlen := h.signalled
    cases t <;> simp [wakeups, hx] at hlen ⊢ <;> omega

theorem Good.signalFrame (h : Good s fs waiting) (t : Thread) :
    Good (s.signalFrame t) fs waiting := by
  rw [Forwarder.signalFrame]
  split
  · next hpublished =>
    refine { h with linked := ?_, apart := ?_, signalled := ?_ }
    · exact fun t' x hx => h.linked t' x (linked_of_update (by simp) hx).2
    · intro t₁ t₂ x h₁ h₂
      exact h.apart t₁ t₂ x (linked_of_update (by simp) h₁).2 (linked_of_update (by simp) h₂).2
    · have hlen := h.signalled
      cases t <;> simp [wakeups, hpublished] at hlen ⊢ <;> omega
  · exact h

/-! ## A pass -/

/-- **A pass has what is on the list for its own list as well**, until it is
cleared. -/
theorem Good.loadFrames (h : Good s fs waiting) :
    ∃ fs', Good s.loadFrames fs' waiting := by
  rw [Forwarder.loadFrames]
  split
  · next hcan =>
    obtain ⟨⟨hloaded, hf⟩, -, hsignals⟩ := hcan
    obtain rfl : fs = [] := h.pass.unique hf
    have hlist : Linked Cell.head (Function.update s.cells .f (s.cells .receivedFrames))
        .receivedFrames waiting := h.list.update_of_ne (by simp) (by simp) _
    refine ⟨waiting, { h with pass := ?_, list := hlist, suffix := ?_, disjoint := ?_,
                              nodup_pass := h.nodup, live := ?_, linked := ?_, order := ?_,
                              signalled := ?_ }⟩
    · exact hlist.of_cell_eq (by simp)
    · exact fun _ => List.suffix_refl waiting
    · exact fun hfalse => by cases hfalse
    · exact fun x hx => h.live x (.inr (or_self_iff.1 hx))
    · intro t x hx
      obtain ⟨hlive, -, hwaiting⟩ := h.linked t x hx
      exact ⟨hlive, hwaiting, hwaiting⟩
    · have horder := h.order
      rw [hloaded] at horder
      exact horder
    · have hlen := h.signalled
      simp only [wakeups, hloaded] at hlen ⊢
      simp only [if_true]
      simp only [Bool.false_eq_true, if_false] at hlen
      omega
  · exact ⟨fs, h⟩

/-- **The pass has the list for its own alone**, if it is the one it read,
of one frame or none. -/
theorem Good.clearFrames (h : Good s fs waiting) (hok : Undisturbed s .clear) :
    ∃ waiting', Good s.clearFrames fs waiting' := by
  rw [Forwarder.clearFrames]
  split
  · next hloaded =>
    obtain ⟨hsame, hone⟩ := hok hloaded
    obtain rfl : fs = waiting := h.pass.unique (h.list.of_cell_eq hsame)
    have hreverse : fs.reverse = fs := by
      cases fs with
      | nil => rfl
      | cons x fs =>
        obtain rfl : fs = [] := h.pass.2.unique (hone x h.pass.1)
        rfl
    refine ⟨[], { h with pass := ?_, list := ?_, suffix := ?_, disjoint := ?_,
                         nodup := List.nodup_nil, live := ?_, linked := ?_, order := ?_,
                         signalled := Nat.zero_le _ }⟩
    · exact h.pass.update_of_ne (by simp) (by simp) _
    · exact Function.update_self Cell.receivedFrames none s.cells
    · exact fun hfalse => by cases hfalse
    · exact fun _ _ _ => List.not_mem_nil
    · exact fun x hx => h.live x (.inl (hx.resolve_right List.not_mem_nil))
    · intro t x hx
      obtain ⟨hlive, hfs, -⟩ := h.linked t x hx
      exact ⟨hlive, hfs, List.not_mem_nil⟩
    · have horder := h.order
      rw [hloaded, if_pos rfl, List.append_nil, hreverse] at horder
      simpa using horder
  · exact ⟨waiting, h⟩

theorem Good.writeFrame (h : Good s fs waiting) : ∃ fs', Good s.writeFrame fs' waiting := by
  rw [Forwarder.writeFrame]
  split
  · next x hloaded hf =>
    obtain ⟨fs', rfl⟩ : ∃ fs', fs = x :: fs' := by
      cases fs with
      | nil => exact absurd (hf.symm.trans h.pass) (by simp)
      | cons y fs' => exact ⟨fs', by rw [Option.some.inj (hf.symm.trans h.pass.1)]⟩
    obtain ⟨hx, hnodup⟩ := List.nodup_cons.1 h.nodup_pass
    have hwaiting : x ∉ waiting := h.disjoint hloaded x List.mem_cons_self
    refine ⟨fs', { h with pass := ?_, list := ?_, suffix := ?_, disjoint := ?_,
                          nodup_pass := hnodup, live := ?_, linked := ?_, order := ?_ }⟩
    · refine (h.pass.unlink (by simp)).update_of_ne (by simp) ?_ none
      exact fun y hy heq => absurd (Cell.head.inj heq ▸ hy : x ∈ fs') hx
    · refine (h.list.update_of_ne (by simp) (by simp) _).update_of_ne (by simp) ?_ none
      exact fun y hy heq => absurd (Cell.head.inj heq ▸ hy : x ∈ waiting) hwaiting
    · exact fun htrue => absurd (hloaded.symm.trans htrue) (by simp)
    · exact fun hl y hy => h.disjoint hl y (List.mem_cons_of_mem x hy)
    · rintro y (hy | hy)
      · exact (List.mem_erase_of_ne (show y ≠ x from fun heq => hx (heq ▸ hy))).2
          (h.live y (.inl (List.mem_cons_of_mem x hy)))
      · exact (List.mem_erase_of_ne (show y ≠ x from fun heq => hwaiting (heq ▸ hy))).2
          (h.live y (.inr hy))
    · intro t y hy
      obtain ⟨hlive, hfs, hrest⟩ := h.linked t y hy
      rw [List.mem_cons, not_or] at hfs
      exact ⟨(List.mem_erase_of_ne hfs.1).2 hlive, hfs.2, hrest⟩
    · have horder := h.order
      simp only [hloaded] at horder ⊢
      simpa using horder
  · exact ⟨fs, h⟩

/-! ## Runs -/

theorem Good.of_step (h : Good s fs waiting) (hok : Undisturbed s e) :
    ∃ fs' waiting', Good (s.step e) fs' waiting' := by
  cases e with
  | link t frame => exact ⟨fs, waiting, h.linkFrame t frame⟩
  | publish t =>
    rw [step]
    cases hcall : s.calls t with
    | linked x => exact ⟨fs, x :: waiting, h.publishFrame hcall (hok x hcall)⟩
    | _ => exact ⟨fs, waiting, by simpa only [Forwarder.publishFrame, hcall] using h⟩
  | signal t => exact ⟨fs, waiting, h.signalFrame t⟩
  | load =>
    obtain ⟨fs', h'⟩ := h.loadFrames
    exact ⟨fs', waiting, h'⟩
  | clear =>
    obtain ⟨waiting', h'⟩ := h.clearFrames hok
    exact ⟨fs, waiting', h'⟩
  | write =>
    obtain ⟨fs', h'⟩ := h.writeFrame
    exact ⟨fs', waiting, h'⟩

omit [DecidableEq ι] in
/-- The frames of the pass are determined. -/
theorem Passing.unique (h : s.Passing fs) (h' : s.Passing fs') : fs = fs' := by
  rw [Passing] at h h'
  split at h
  · next hloaded =>
    rw [if_pos hloaded] at h'
    rw [h, h']
  · next hloaded =>
    rw [if_neg hloaded] at h'
    exact h.unique h'

/-- **A frame linked to another list than the one it is put on brings back
what was on that, or forgets what is on this.** -/
theorem Good.cell_eq_of_publish (h : Good s fs waiting) (hx : s.calls t = .linked x)
    (hbad : InOrder (s.publishFrame t)) : s.cells (.head x) = s.cells .receivedFrames := by
  simp only [Forwarder.publishFrame, hx] at hbad
  obtain ⟨fs', waiting', hpass, hlist, horder, -⟩ := hbad
  have hself := Function.update_self Cell.receivedFrames (some x) s.cells
  cases waiting' with
  | nil => exact absurd (hself.symm.trans hlist) (by simp)
  | cons y rest =>
    obtain rfl : x = y := Option.some.inj (hself.symm.trans hlist.1)
    have hsame : fs' = if s.loaded then [] else fs := by
      refine hpass.unique ?_
      rw [Passing]
      dsimp only
      split
      · rfl
      · exact h.pass.update_of_ne (by simp) (by simp) _
    -- The frames received are those before and this one.
    have hrest : rest.reverse = waiting.reverse := by
      have heq := horder.trans (congrArg (· ++ [x]) h.order.symm)
      rw [hsame, List.reverse_cons, ← List.append_assoc] at heq
      exact List.append_cancel_left (List.append_cancel_right heq)
    calc s.cells (.head x)
        = Function.update s.cells .receivedFrames (some x) (.head x) :=
          (Function.update_of_ne (by simp) _ _).symm
      _ = rest.head? := hlist.2.cell_eq
      _ = s.cells .receivedFrames := by rw [List.reverse_injective hrest, h.list.cell_eq]

omit [DecidableEq ι] in
/-- A list without duplicates that reads the same from both ends has one
member at most. -/
theorem length_le_one_of_reverse_eq (hnodup : waiting.Nodup) (h : waiting.reverse = waiting) :
    waiting.length ≤ 1 := by
  cases List.Palindrome.of_reverse_eq h with
  | nil => exact Nat.zero_le 1
  | singleton x => exact Nat.le_refl 1
  | cons_concat x _ => exact absurd hnodup (by simp)

/-- **A pass turns round what it finds, and what was put on the list since
is forgotten.** -/
theorem Good.undisturbed_of_clear (h : Good s fs waiting) (hbad : InOrder s.clearFrames) :
    Undisturbed s .clear := by
  intro hloaded
  rw [Forwarder.clearFrames, if_pos hloaded] at hbad
  obtain ⟨fs', waiting', hpass, hlist, horder, -⟩ := hbad
  have hnil : Linked Cell.head (Function.update s.cells .receivedFrames none) .receivedFrames
      [] := by rw [Linked, Function.update_self]
  obtain rfl : waiting' = [] := hlist.unique hnil
  obtain rfl : fs' = fs := by
    refine hpass.unique ?_
    rw [Passing, if_neg Bool.false_ne_true]
    exact h.pass.update_of_ne (by simp) (by simp) _
  have hreverse : fs' = waiting.reverse := by
    have heq := horder.trans h.order.symm
    rw [hloaded, if_pos rfl, List.reverse_nil, List.append_nil, List.append_nil] at heq
    exact List.append_cancel_left heq
  obtain rfl : fs' = waiting := by
    refine (h.suffix hloaded).eq_of_length ?_
    rw [hreverse, List.length_reverse]
  have hone := length_le_one_of_reverse_eq h.nodup hreverse.symm
  refine ⟨by rw [h.pass.cell_eq, h.list.cell_eq], fun x hx => ?_⟩
  match fs', hone, h.pass with
  | [], _, hnil => exact absurd (hx.symm.trans hnil) (by simp)
  | [y], _, hy =>
    obtain rfl : x = y := Option.some.inj (hx.symm.trans hy.1)
    exact hy.2

/-- **Frames are forwarded in the order they were received just when no pass
takes two of them and no thread gets between two statements of the other**,
however the statements of the threads interleave. -/
theorem forwarding_iff (es : List (Event ι)) :
    Always step InOrder (init : Forwarder ι) es ↔ EachStep step Undisturbed init es := by
  refine always_iff_eachStep_of_invariant (Q := fun s => ∃ fs waiting, Good s fs waiting) ?_ ?_ ?_
    ⟨[], [], good_init⟩
  · rintro s ⟨fs, waiting, h⟩
    exact h.inOrder
  · rintro s e ⟨fs, waiting, h⟩ hstep
    cases e with
    | publish t => exact fun x hx => h.cell_eq_of_publish hx hstep
    | clear => exact h.undisturbed_of_clear hstep
    | _ => trivial
  · rintro s e ⟨fs, waiting, h⟩ hok
    exact h.of_step hok

/-- The statements of one call. -/
def wholeCall (t : Thread) (frame : ι) : List (Event ι) :=
  [.link t (some frame), .publish t, .signal t]

/-- **Two frames before a pass are written in reverse.** -/
theorem forwarding_two_frames :
    (run step init (wholeCall .irq 1 ++ wholeCall .irq 2 ++ [.load, .clear, .write, .write]) :
        Forwarder ℕ).written = [2, 1] ∧
      ¬ ∀ es : List (Event ℕ), (run step init es).written <+: (run step init es).received := by
  refine ⟨by decide, fun h => ?_⟩
  have htwo := h (wholeCall .irq 1 ++ wholeCall .irq 2 ++ [.load, .clear, .write])
  exact absurd htwo (by decide)

/-- A frame put on the list between the two statements of a pass is forgotten. -/
example :
    let s : Forwarder ℕ := run step init (wholeCall .irq 1 ++ [.load] ++ wholeCall .irq 2 ++
      [.clear, .write, .load, .clear, .write])
    s.written = [1] ∧ s.received = [1, 2] ∧ s.cells .receivedFrames = none := by
  decide

end Forwarder

end Dmxrtuart

end Dmx4Linux2
