import Dmx4Linux2.Common.Run
import Dmx4Linux2.Cuse.Model.Clients
import Dmx4Linux2.Cuse.Moves
import Mathlib.Data.Finset.Card

/-!
# CUSE framework — the contexts of the files

A context is a slot that is used again after its file was closed. The
open files and the contexts in use are tied to each other one to one
(`Tied`), so no two open files share a context, an open fails only when
all 32 contexts of the card belong to open files, and what is read back
through a file is what was last set through it (`isolation`).
-/

namespace Dmx4Linux2

namespace Cuse

open Dmx4Linux2.Core

variable {ι : Type}

/-- The context of a file, as the kernel names it. -/
def File.slot (f : File ι) : ι × ℕ := (f.card, f.fh)

namespace Clients

variable {s : Clients ι} {f : File ι} {k : Key ι}

/-- **No two open files share a context.** -/
def Apart (s : Clients ι) : Prop := (s.files.map File.slot).Nodup

/-- The context of a file: in use, with the filters last set. -/
structure Holds (d : Daemon ι) (f : File ι) (k : Key ι) : Prop where
  card : f.card = k.1
  fh : f.fh = k.2
  inUse : (d.contexts k).inUse = true
  filter : (d.contexts k).portMask = f.filter
  txfilter : (d.contexts k).portTxmask = f.txfilter

/-- **The open files and the contexts in use belong to each other.** -/
structure Tied (s : Clients ι) : Prop where
  ids : (s.files.map File.id).Nodup
  apart : s.Apart
  holds : ∀ f ∈ s.files, ∃ k, Holds s.daemon f k
  used : ∀ k, (s.daemon.contexts k).inUse = true → ∃ f ∈ s.files, f.slot = (k.1, (k.2 : ℕ))

theorem Tied.start (garbage : ℕ → Frame) : (start garbage : Clients ι).Tied where
  ids := List.nodup_nil
  apart := List.nodup_nil
  holds := fun f hf => absurd hf List.not_mem_nil
  used := fun k h => absurd h (by simp [Clients.start, Daemon.coreInit, Context.zero])

theorem Holds.slot {d : Daemon ι} (h : Holds d f k) : f.slot = (k.1, (k.2 : ℕ)) := by
  rw [File.slot, h.card, h.fh]

theorem Holds.key {d : Daemon ι} (h : Holds d f k) (unique : ℕ) :
    (⟨unique, f.card, f.fh⟩ : Req ι).key = some k := by
  have hlt : f.fh < 32 := h.fh ▸ k.2.isLt
  rw [Req.key, dif_pos hlt]
  exact congrArg some (Prod.ext h.card (Fin.ext h.fh))

/-- A context that is left alone. -/
theorem Holds.of_eq {d d' : Daemon ι} (h : Holds d f k) (heq : d'.contexts k = d.contexts k) :
    Holds d' f k :=
  ⟨h.card, h.fh, by rw [heq]; exact h.inUse, by rw [heq]; exact h.filter,
    by rw [heq]; exact h.txfilter⟩

theorem find_mem {id : ℕ} (h : s.find id = some f) : f ∈ s.files ∧ f.id = id :=
  ⟨List.mem_of_find?_eq_some h, by simpa using List.find?_some h⟩

/-- The context of a file belongs to no other. -/
theorem Tied.ne_of_ne (h : s.Tied) {g : File ι} {k' : Key ι} (hf : f ∈ s.files) (hg : g ∈ s.files)
    (hk : Holds s.daemon f k) (hk' : Holds s.daemon g k') (hne : f.id ≠ g.id) : k ≠ k' := by
  rintro rfl
  have heq : f = g := List.inj_on_of_nodup_map h.apart hf hg (hk.slot.trans hk'.slot.symm)
  exact hne (congrArg File.id heq)

variable [DecidableEq ι]

/-- The open files of a card. -/
def filesOf (s : Clients ι) (card : ι) : List (File ι) := s.files.filter (·.card = card)

/-- **How a request is answered**: an open fails just when the card has 32
open files, and the filters read back are those last set through the
file. -/
def AnswersRight (s : Clients ι) : Event ι → Prop
  | .openFile unique id card nonblock => s.find id = none →
    ((s.openFile unique id card nonblock).lastReply = some (.err .enomem) ↔
      (s.filesOf card).length = 32) ∧
    ((s.openFile unique id card nonblock).lastReply = some (.err .enomem) ∨
      ∃ fh, (s.openFile unique id card nonblock).lastReply = some (.opened fh))
  | .ioctl unique id .getPortFilter args => ∀ f, s.find id = some f → args.outBufsz ≠ 0 →
    (s.ioctl unique id .getPortFilter args).lastReply = some (.ioctl (some f.filter))
  | .ioctl unique id .getPortTxfilter args => ∀ f, s.find id = some f → args.outBufsz ≠ 0 →
    (s.ioctl unique id .getPortTxfilter args).lastReply = some (.ioctl (some f.txfilter))
  | _ => True

/-! ## Ioctls -/

omit [DecidableEq ι] in
@[simp] theorem lastReply_reply (d : Daemon ι) (req : Req ι) (r : Reply) (files : List (File ι)) :
    (⟨d.reply req r, files⟩ : Clients ι).lastReply = some r := by
  simp [lastReply, Daemon.reply, Daemon.act]

/-- An ioctl does to the context of a file what it is to do, and leaves
the others alone. -/
theorem Holds.ioctl {d : Daemon ι} (h : Holds d f k) (unique : ℕ) (cmd : IoctlCmd)
    (args : IoctlArgs) :
    Holds (d.cuseIoctl ⟨unique, f.card, f.fh⟩ cmd args) (f.note cmd args) k ∧
      ∀ k', k' ≠ k →
        (d.cuseIoctl ⟨unique, f.card, f.fh⟩ cmd args).contexts k' = d.contexts k' := by
  unfold Daemon.cuseIoctl
  simp only [h.key unique]
  -- Only the two that set a filter touch a context at all.
  have hkeeps : ∀ (req : Req ι) (r : Reply), Holds (d.reply req r) f k ∧
      ∀ k', k' ≠ k → (d.reply req r).contexts k' = d.contexts k' := fun req r =>
    ⟨h.of_eq rfl, fun _ _ => rfl⟩
  cases cmd with
  | setPortFilter =>
    by_cases hin : args.inBufsz = 0
    · simp only [Daemon.setFilter, File.note, hin, if_true]
      exact hkeeps _ _
    · simp only [Daemon.setFilter, File.note, hin, if_false]
      refine ⟨⟨h.card, h.fh, ?_, ?_, ?_⟩, fun k' hne => Daemon.setContext_of_ne hne _⟩
      · simpa using h.inUse
      · simp
      · simpa using h.txfilter
  | setPortTxfilter =>
    by_cases hin : args.inBufsz = 0
    · simp only [Daemon.setFilter, File.note, hin, if_true]
      exact hkeeps _ _
    · simp only [Daemon.setFilter, File.note, hin, if_false]
      refine ⟨⟨h.card, h.fh, ?_, ?_, ?_⟩, fun k' hne => Daemon.setContext_of_ne hne _⟩
      · simpa using h.inUse
      · simpa using h.filter
      · simp
  | _ => exact hkeeps _ _

omit [DecidableEq ι] in
theorem note_id (f : File ι) (cmd : IoctlCmd) (args : IoctlArgs) : (f.note cmd args).id = f.id := by
  cases cmd <;> simp only [File.note] <;> split <;> rfl

omit [DecidableEq ι] in
theorem note_slot (f : File ι) (cmd : IoctlCmd) (args : IoctlArgs) :
    (f.note cmd args).slot = f.slot := by
  cases cmd <;> simp only [File.note] <;> split <;> rfl

theorem Tied.ioctl (h : s.Tied) (unique id : ℕ) (cmd : IoctlCmd) (args : IoctlArgs) :
    (s.ioctl unique id cmd args).Tied := by
  unfold Clients.ioctl
  cases hfind : s.find id with
  | none => exact h
  | some f =>
    obtain ⟨hf, rfl⟩ := find_mem hfind
    obtain ⟨k, hk⟩ := h.holds f hf
    obtain ⟨hself, helse⟩ := hk.ioctl unique cmd args
    refine ⟨?_, ?_, fun g hg => ?_, fun k' huse => ?_⟩
    · rw [List.map_map, List.map_congr_left (g := File.id)]
      · exact h.ids
      · intro g _
        simp only [Function.comp]
        split
        · exact note_id g cmd args
        · rfl
    · unfold Apart
      rw [List.map_map, List.map_congr_left (g := File.slot)]
      · exact h.apart
      · intro g _
        simp only [Function.comp]
        split
        · exact note_slot g cmd args
        · rfl
    · obtain ⟨g, hg', rfl⟩ := List.mem_map.1 hg
      by_cases hid : g.id = f.id
      · rw [if_pos hid]
        obtain rfl : g = f := List.inj_on_of_nodup_map h.ids hg' hf hid
        exact ⟨k, hself⟩
      · rw [if_neg hid]
        obtain ⟨k', hk'⟩ := h.holds g hg'
        exact ⟨k', hk'.of_eq (helse k' (h.ne_of_ne hg' hf hk' hk hid))⟩
    · have huse' : (s.daemon.contexts k').inUse = true := by
        by_cases hne : k' = k
        · rw [hne]
          exact hk.inUse
        · rw [← helse k' hne]
          exact huse
      obtain ⟨g, hg, hslot⟩ := h.used k' huse'
      refine ⟨_, List.mem_map_of_mem hg, ?_⟩
      split
      · rw [note_slot, hslot]
      · exact hslot

/-- The filters read back through a file. -/
theorem Tied.answers_ioctl (h : s.Tied) (unique id : ℕ) (cmd : IoctlCmd) (args : IoctlArgs) :
    s.AnswersRight (.ioctl unique id cmd args) := by
  have hreads : ∀ f, s.find id = some f → ∃ k, Holds s.daemon f k ∧
      (⟨unique, f.card, f.fh⟩ : Req ι).key = some k := by
    intro f hfind
    obtain ⟨k, hk⟩ := h.holds f (find_mem hfind).1
    exact ⟨k, hk, hk.key unique⟩
  cases cmd with
  | getPortFilter =>
    intro f hfind hout
    obtain ⟨k, hk, hkey⟩ := hreads f hfind
    simp [Clients.ioctl, hfind, Daemon.cuseIoctl, hkey, replyValue, hout, hk.filter]
  | getPortTxfilter =>
    intro f hfind hout
    obtain ⟨k, hk, hkey⟩ := hreads f hfind
    simp [Clients.ioctl, hfind, Daemon.cuseIoctl, hkey, replyValue, hout, hk.txfilter]
  | _ => trivial

/-! ## Release -/

theorem Tied.closeFile (h : s.Tied) (unique id : ℕ) : (s.closeFile unique id).Tied := by
  unfold Clients.closeFile
  cases hfind : s.find id with
  | none => exact h
  | some f =>
    obtain ⟨hf, rfl⟩ := find_mem hfind
    obtain ⟨k, hk⟩ := h.holds f hf
    have hrelease : s.daemon.cuseRelease ⟨unique, f.card, f.fh⟩ =
        (s.daemon.close k).reply ⟨unique, f.card, f.fh⟩ (.err .success) := by
      simp only [Daemon.cuseRelease, hk.key unique]
      rfl
    simp only [hrelease]
    have hsub : (s.files.filter (·.id ≠ f.id)).Sublist s.files := List.filter_sublist
    refine ⟨h.ids.sublist (hsub.map File.id), h.apart.sublist (hsub.map File.slot), fun g hg => ?_,
      fun k' huse => ?_⟩
    · obtain ⟨hg', hid⟩ := List.mem_filter.1 hg
      obtain ⟨k', hk'⟩ := h.holds g hg'
      refine ⟨k', hk'.of_eq (Daemon.setContext_of_ne ?_ _)⟩
      exact h.ne_of_ne hg' hf hk' hk (by simpa using hid)
    · have hne : k' ≠ k := by
        rintro rfl
        simp [Daemon.close] at huse
      have hsame : (s.daemon.close k).contexts k' = s.daemon.contexts k' :=
        Daemon.setContext_of_ne hne _
      rw [Daemon.reply_contexts, hsame] at huse
      obtain ⟨g, hg, hslot⟩ := h.used k' huse
      refine ⟨g, List.mem_filter.2 ⟨hg, ?_⟩, hslot⟩
      refine decide_eq_true fun hid => hne ?_
      obtain rfl : g = f := List.inj_on_of_nodup_map h.ids hg hf hid
      obtain ⟨hcard, hfh⟩ := Prod.mk.inj (hslot.symm.trans hk.slot)
      exact Prod.ext hcard (Fin.ext hfh)

/-! ## Open -/

/-- The handles of the open files of a card are distinct numbers below
32, those of the contexts in use. -/
theorem Tied.handles (h : s.Tied) (card : ι) :
    ((s.filesOf card).map File.fh).Nodup ∧ ∀ i : Fin 32,
      (i : ℕ) ∈ (s.filesOf card).map File.fh ↔ (s.daemon.contexts (card, i)).inUse = true := by
  have hcard : ∀ f ∈ s.filesOf card, f ∈ s.files ∧ f.card = card := by
    intro f hf
    obtain ⟨hf', hcard⟩ := List.mem_filter.1 hf
    exact ⟨hf', of_decide_eq_true hcard⟩
  refine ⟨?_, fun i => ⟨fun hi => ?_, fun huse => ?_⟩⟩
  · refine List.Nodup.map_on ?_ ((List.Nodup.of_map _ h.ids).sublist List.filter_sublist)
    intro f hf g hg hfh
    refine List.inj_on_of_nodup_map h.apart (hcard f hf).1 (hcard g hg).1 ?_
    rw [File.slot, File.slot, (hcard f hf).2, (hcard g hg).2, hfh]
  · obtain ⟨f, hf, hfh⟩ := List.mem_map.1 hi
    obtain ⟨k, hk⟩ := h.holds f (hcard f hf).1
    have hkey : k = (card, i) := by
      refine Prod.ext (hk.card.symm.trans (hcard f hf).2) (Fin.ext ?_)
      exact hk.fh.symm.trans hfh
    rw [← hkey]
    exact hk.inUse
  · obtain ⟨f, hf, hslot⟩ := h.used (card, i) huse
    obtain ⟨hcard', hfh⟩ := Prod.mk.inj hslot
    exact List.mem_map.2 ⟨f, List.mem_filter.2 ⟨hf, decide_eq_true hcard'⟩, hfh⟩

/-- **There is no free context just when 32 files are open.** -/
theorem Tied.freeContextIndex_eq_none (h : s.Tied) (card : ι) :
    s.daemon.freeContextIndex card = none ↔ (s.filesOf card).length = 32 := by
  obtain ⟨hnodup, hmem⟩ := h.handles card
  have hsub : ((s.filesOf card).map File.fh).toFinset ⊆ Finset.range 32 := by
    intro n hn
    obtain ⟨f, hf, rfl⟩ := List.mem_map.1 (List.mem_toFinset.1 hn)
    obtain ⟨k, hk⟩ := h.holds f (List.mem_filter.1 hf).1
    rw [hk.fh, Finset.mem_range]
    exact k.2.isLt
  have hcard : ((s.filesOf card).map File.fh).toFinset.card = (s.filesOf card).length := by
    rw [List.toFinset_card_of_nodup hnodup, List.length_map]
  have hall : s.daemon.freeContextIndex card = none ↔
      ∀ i : Fin 32, (s.daemon.contexts (card, i)).inUse = true := by
    simp [Daemon.freeContextIndex, List.find?_eq_none]
  rw [hall, ← hcard]
  constructor
  · intro huse
    refine (Finset.card_le_card hsub).antisymm (Finset.card_le_card fun n hn => ?_)
    rw [List.mem_toFinset]
    exact (hmem ⟨n, Finset.mem_range.1 hn⟩).2 (huse _)
  · intro hfull i
    have heq : ((s.filesOf card).map File.fh).toFinset = Finset.range 32 :=
      Finset.eq_of_subset_of_card_le hsub (by rw [hfull, Finset.card_range])
    refine (hmem i).1 (List.mem_toFinset.1 ?_)
    rw [heq, Finset.mem_range]
    exact i.isLt

theorem openFile_of_none {unique id : ℕ} {card : ι} (nonblock : Bool) (hfind : s.find id = none)
    (hfree : s.daemon.freeContextIndex card = none) :
    s.openFile unique id card nonblock =
      { s with daemon := s.daemon.reply ⟨unique, card, 0⟩ (.err .enomem) } := by
  simp [openFile, hfind, Daemon.cuseOpen, hfree]

theorem openFile_of_some {unique id : ℕ} {card : ι} {i : Fin 32} (nonblock : Bool)
    (hfind : s.find id = none) (hfree : s.daemon.freeContextIndex card = some i) :
    s.openFile unique id card nonblock =
      ⟨(s.daemon.setContext (card, i) (Context.fresh nonblock)).reply ⟨unique, card, 0⟩ (.opened i),
        s.files ++ [⟨id, card, i, 0, 0⟩]⟩ := by
  have hopen : s.daemon.cuseOpen ⟨unique, card, 0⟩ nonblock =
      (s.daemon.setContext (card, i) (Context.fresh nonblock)).reply ⟨unique, card, 0⟩
        (.opened i) := Daemon.cuseOpen_of_some nonblock hfree
  simp [openFile, hfind, hopen]

theorem Tied.openFile (h : s.Tied) (unique id : ℕ) (card : ι) (nonblock : Bool) :
    (s.openFile unique id card nonblock).Tied := by
  cases hfind : s.find id with
  | some f =>
    have hsame : s.openFile unique id card nonblock = s := by simp [Clients.openFile, hfind]
    rw [hsame]
    exact h
  | none =>
    cases hfree : s.daemon.freeContextIndex card with
    | none =>
      rw [openFile_of_none nonblock hfind hfree]
      refine ⟨h.ids, h.apart, fun f hf => ?_, h.used⟩
      obtain ⟨k, hk⟩ := h.holds f hf
      exact ⟨k, hk.of_eq rfl⟩
    | some i =>
      rw [openFile_of_some nonblock hfind hfree]
      have hidle : (s.daemon.contexts (card, i)).inUse = false := by
        simpa using List.find?_some hfree
      -- No open file has the context that is free.
      have hne : ∀ f ∈ s.files, ∀ k, Holds s.daemon f k → k ≠ (card, i) := by
        rintro f hf k hk rfl
        rw [hk.inUse] at hidle
        exact absurd hidle (by simp)
      refine ⟨?_, ?_, fun f hf => ?_, fun k huse => ?_⟩
      · rw [List.map_append]
        refine h.ids.append (List.nodup_singleton id) (List.disjoint_singleton.2 fun hmem => ?_)
        obtain ⟨f, hf, hid⟩ := List.mem_map.1 hmem
        exact absurd (decide_eq_true hid) (List.find?_eq_none.1 hfind f hf)
      · unfold Apart
        rw [List.map_append]
        refine h.apart.append (List.nodup_singleton _) (List.disjoint_singleton.2 fun hmem => ?_)
        obtain ⟨f, hf, hslot⟩ := List.mem_map.1 hmem
        obtain ⟨k, hk⟩ := h.holds f hf
        obtain ⟨hcard, hfh⟩ := Prod.mk.inj (hk.slot.symm.trans hslot)
        exact hne f hf k hk (Prod.ext hcard (Fin.ext hfh))
      · rcases List.mem_append.1 hf with hf | hf
        · obtain ⟨k, hk⟩ := h.holds f hf
          exact ⟨k, hk.of_eq (Daemon.setContext_of_ne (hne f hf k hk) _)⟩
        · obtain rfl := List.mem_singleton.1 hf
          refine ⟨(card, i), rfl, rfl, ?_, ?_, ?_⟩
          · simp [Context.fresh]
          · simp [Context.fresh, Context.zero]
          · simp [Context.fresh, Context.zero]
      · by_cases hk : k = (card, i)
        · subst hk
          exact ⟨_, List.mem_append_right _ List.mem_cons_self, rfl⟩
        · rw [Daemon.reply_contexts, Daemon.setContext_of_ne hk] at huse
          obtain ⟨f, hf, hslot⟩ := h.used k huse
          exact ⟨f, List.mem_append_left _ hf, hslot⟩

theorem Tied.answers_openFile (h : s.Tied) (unique id : ℕ) (card : ι) (nonblock : Bool) :
    s.AnswersRight (.openFile unique id card nonblock) := by
  intro hfind
  rw [← h.freeContextIndex_eq_none card]
  cases hfree : s.daemon.freeContextIndex card with
  | none =>
    rw [openFile_of_none nonblock hfind hfree]
    simp
  | some i =>
    rw [openFile_of_some nonblock hfind hfree]
    simp

/-! ## A run -/

theorem Tied.step (h : s.Tied) (e : Event ι) : (s.step e).Tied := by
  cases e with
  | openFile unique id card nonblock => exact h.openFile unique id card nonblock
  | closeFile unique id => exact h.closeFile unique id
  | ioctl unique id cmd args => exact h.ioctl unique id cmd args

theorem Tied.answersRight (h : s.Tied) (e : Event ι) : s.AnswersRight e := by
  cases e with
  | openFile unique id card nonblock => exact h.answers_openFile unique id card nonblock
  | closeFile unique id => trivial
  | ioctl unique id cmd args => exact h.answers_ioctl unique id cmd args

/-- **Isolation.** Whatever the clients do, no two open files ever share
a context, an open fails exactly when 32 files of the card are open, and
the filters read back through a file are those last set through it since
it was opened, or 0. -/
theorem isolation (garbage : ℕ → Frame) (es : List (Event ι)) :
    Always step Apart (start garbage) es ∧ EachStep step AnswersRight (start garbage) es := by
  have htied : Always step Tied (start garbage) es :=
    always_of_step (fun _ e h => h.step e) (Tied.start garbage)
  refine ⟨fun pre hpre => (htied pre hpre).apart, fun pre e hpre => ?_⟩
  exact (htied pre ((List.prefix_append pre [e]).trans hpre)).answersRight e

end Clients

end Cuse

end Dmx4Linux2
