import Dmx4Linux2.Common.Run
import Dmx4Linux2.Core.Framequeue
import Dmx4Linux2.Core.Model.Pointers

/-!
# dmx512 core — frame queues refine lists

The circular list of a queue has the entries of the queue on it, those of
two queues have none in common (`Represents`), and every call does to the
lists what the list model of the queues says. Cleaning up ends after one
pass more than there are entries.
-/

namespace Dmx4Linux2

namespace Core

/-- The queue a call is on. -/
def QueueCall.queue : QueueCall → Option ℕ
  | .init q | .put q _ | .get q | .front q | .cleanup q => q
  | .isempty q => some q

/-! ## The queues as lists -/

/-- The queues that were initialised, and the entries that were freed. -/
structure Queues where
  queues : ℕ → Option Framequeue
  freed : List ℕ

namespace Queues

/-- No queue was initialised. -/
def start : Queues := ⟨fun _ => none, []⟩

variable (frame : ℕ → Frame) (a : Queues)

/-- The queue, which is none if it was not initialised. -/
def queue (q : ℕ) : Framequeue := (a.queues q).getD []

def setQueue (q : ℕ) (xs : Framequeue) : Queues :=
  { a with queues := Function.update a.queues q (some xs) }

/-- What a call is to do. The entry `e` holds `frame e`. -/
def step (a : Queues) : QueueCall → Queues
  | .init (some q) => a.setQueue q Framequeue.init
  | .put (some q) (some e) => a.setQueue q ((a.queue q).put (some ⟨e, frame e⟩))
  | .get (some q) => a.setQueue q (a.queue q).get.2
  | .cleanup (some q) =>
    { a.setQueue q (a.queue q).cleanup with freed := a.freed ++ (a.queue q).map Entry.id }
  | _ => a

/-- The pointer to an entry. -/
def pointer (e : Entry) : Node := .entry e.id

/-- What a call is to return. -/
def answer (a : Queues) : QueueCall → Answer
  | .put (some _) (some _) => .code 0
  | .put _ _ => .code (-1)
  | .get (some q) => .entry ((a.queue q).get.1.map pointer)
  | .front (some q) => .entry ((a.queue q).head?.map pointer)
  | .get none | .front none => .entry none
  | .isempty q => .code (if (a.queue q).isempty then 1 else 0)
  | .init _ | .cleanup _ => .nothing

/-- The call is on a queue that was initialised, and an entry that is put is
in no queue. -/
def Legal (a : Queues) : QueueCall → Prop
  | .put (some q) (some e) =>
    (a.queues q).isSome ∧ ∀ q' xs, a.queues q' = some xs → e ∉ xs.map Entry.id
  | .get (some q) | .front (some q) | .isempty q | .cleanup (some q) => (a.queues q).isSome
  | _ => True

/-! ## The memory of the queues -/

/-- **The list of each queue has its entries on it**, and no entry is on two
of them. -/
structure Represents (m : Memory) (a : Queues) : Prop where
  circle : ∀ q xs, a.queues q = some xs → m.links.Circle (.queue q) (xs.map pointer)
  disjoint : ∀ q q' xs ys, q ≠ q' → a.queues q = some xs → a.queues q' = some ys →
    ∀ e ∈ xs.map Entry.id, e ∉ ys.map Entry.id
  freed : m.freed = a.freed.map .entry

variable {frame : ℕ → Frame} {a : Queues} {m : Memory}

theorem queue_eq {q : ℕ} (h : (a.queues q).isSome) : a.queues q = some (a.queue q) := by
  obtain ⟨xs, hxs⟩ := Option.isSome_iff_exists.1 h
  rw [queue, hxs]
  rfl

theorem setQueue_self {q : ℕ} {xs : Framequeue} : (a.setQueue q xs).queues q = some xs :=
  Function.update_self ..

theorem setQueue_of_ne {q q' : ℕ} {xs : Framequeue} (h : q' ≠ q) :
    (a.setQueue q xs).queues q' = a.queues q' :=
  Function.update_of_ne h ..

theorem mem_pointers {e : ℕ} {xs : Framequeue} :
    Node.entry e ∈ xs.map pointer ↔ e ∈ xs.map Entry.id := by
  simp [pointer]

theorem queue_not_mem {q : ℕ} {xs : Framequeue} : Node.queue q ∉ xs.map pointer := by
  simp [pointer]

/-- The nodes of two queues are apart. -/
theorem Represents.nodes_disjoint (h : Represents m a) {q q' : ℕ} {xs ys : Framequeue}
    (hne : q' ≠ q) (hq : a.queues q = some xs) (hq' : a.queues q' = some ys) :
    ∀ n ∈ Node.queue q' :: ys.map pointer, n ∉ Node.queue q :: xs.map pointer := by
  intro n hn hmem
  cases n with
  | queue k =>
    have hk' : k = q' := by simpa [pointer] using hn
    have hk : k = q := by simpa [pointer] using hmem
    exact hne (hk'.symm.trans hk)
  | entry e =>
    have he' : e ∈ ys.map Entry.id := by simpa [pointer] using hn
    have he : e ∈ xs.map Entry.id := by simpa [pointer] using hmem
    exact h.disjoint q' q ys xs hne hq' hq e he' he

/-- **One queue is changed**, and the pointers of the others are kept. -/
theorem Represents.setQueue (h : Represents m a) {q : ℕ} {ys : Framequeue} {l : Links Node}
    (hself : l.Circle (.queue q) (ys.map pointer))
    (hother : ∀ q' zs, q' ≠ q → a.queues q' = some zs → l.Circle (.queue q') (zs.map pointer))
    (hapart : ∀ q' zs, q' ≠ q → a.queues q' = some zs → ∀ e ∈ ys.map Entry.id,
      e ∉ zs.map Entry.id) :
    Represents { m with links := l } (a.setQueue q ys) := by
  refine ⟨fun q' zs hq' => ?_, fun q₁ q₂ xs zs hne h₁ h₂ e he he' => ?_, h.freed⟩
  · by_cases hqq : q' = q
    · subst hqq
      rw [setQueue_self, Option.some_inj] at hq'
      exact hq' ▸ hself
    · rw [setQueue_of_ne hqq] at hq'
      exact hother q' zs hqq hq'
  · by_cases hq₁ : q₁ = q
    · subst hq₁
      rw [setQueue_self, Option.some_inj] at h₁
      rw [setQueue_of_ne hne.symm] at h₂
      exact hapart q₂ zs hne.symm h₂ e (h₁ ▸ he) he'
    · rw [setQueue_of_ne hq₁] at h₁
      by_cases hq₂ : q₂ = q
      · subst hq₂
        rw [setQueue_self, Option.some_inj] at h₂
        exact hapart q₁ xs hq₁ h₁ e (h₂ ▸ he') he
      · rw [setQueue_of_ne hq₂] at h₂
        exact h.disjoint q₁ q₂ xs zs hne h₁ h₂ e he he'

/-! ## Calls -/

theorem Represents.framequeueInit (h : Represents m a) (q : ℕ) :
    Represents (m.framequeueInit q) (a.setQueue q Framequeue.init) := by
  refine h.setQueue Links.Circle.initListHead (fun q' zs hne hq' => ?_) ?_
  · refine (h.circle q' zs hq').congr_initListHead fun hmem => ?_
    rcases List.mem_cons.1 hmem with heq | hmem
    · exact hne (Node.queue.inj heq).symm
    · exact queue_not_mem hmem
  · intro q' zs _ _ e he
    simp [Framequeue.init] at he

theorem Represents.framequeuePut (h : Represents m a) {q e : ℕ}
    (hlegal : Legal a (.put (some q) (some e))) :
    Represents (m.framequeuePut q e) (a.setQueue q ((a.queue q).put (some ⟨e, frame e⟩))) := by
  obtain ⟨hsome, hfree⟩ := hlegal
  have hq := queue_eq hsome
  have hc := h.circle q _ hq
  have hnew : ∀ q' zs, a.queues q' = some zs → Node.entry e ∉ Node.queue q' :: zs.map pointer := by
    intro q' zs hq' hmem
    rw [List.mem_cons, mem_pointers] at hmem
    rcases hmem with hmem | hmem
    · cases hmem
    · exact hfree q' zs hq' hmem
  have hids : ∀ k ∈ ((a.queue q).put (some ⟨e, frame e⟩)).map Entry.id,
      k ∈ (a.queue q).map Entry.id ∨ k = e := by
    intro k hk
    simpa [Framequeue.put] using hk
  refine h.setQueue ?_ (fun q' zs hne hq' => ?_) fun q' zs hne hq' k hk hk' => ?_
  · have hadd := hc.listAddTail (hnew q _ hq)
    simpa [Framequeue.put, pointer] using hadd
  · exact hc.congr_listAddTail (h.circle q' zs hq') (h.nodes_disjoint hne hq hq') (hnew q' zs hq')
  · rcases hids k hk with hold | rfl
    · exact h.disjoint q q' _ zs hne.symm hq hq' k hold hk'
    · exact hfree q' zs hq' hk'

theorem Represents.listEmpty_iff (h : Represents m a) {q : ℕ} (hsome : (a.queues q).isSome) :
    m.links.listEmpty (.queue q) = true ↔ a.queue q = [] := by
  rw [(h.circle q _ (queue_eq hsome)).listEmpty_iff, List.map_eq_nil_iff]

/-- The entry in front is taken, -/
theorem Represents.framequeueGet (h : Represents m a) {q : ℕ} (hsome : (a.queues q).isSome) :
    (m.framequeueGet q).1 = (a.queue q).get.1.map pointer ∧
      Represents (m.framequeueGet q).2 (a.setQueue q (a.queue q).get.2) := by
  have hq := queue_eq hsome
  have hc := h.circle q _ hq
  have hempty := h.listEmpty_iff hsome
  rw [Memory.framequeueGet]
  cases hxs : a.queue q with
  | nil =>
    rw [hxs] at hq hc
    rw [if_pos (hempty.2 hxs)]
    refine ⟨rfl, h.setQueue hc (fun q' zs _ hq' => h.circle q' zs hq') ?_⟩
    intro q' zs _ _ e he
    simp [Framequeue.get] at he
  | cons e xs =>
    rw [hxs] at hq hc
    have hnext : m.links.next (.queue q) = pointer e := hc.next_head
    have hne : ¬ m.links.listEmpty (.queue q) = true := by
      rw [hempty, hxs]
      exact List.cons_ne_nil e xs
    rw [if_neg hne]
    dsimp only
    rw [hnext]
    refine ⟨rfl, h.setQueue hc.listDel (fun q' zs hne hq' => ?_) fun q' zs hne hq' k hk => ?_⟩
    · exact hc.congr_listDel (h.circle q' zs hq') (h.nodes_disjoint hne hq hq')
    · exact h.disjoint q q' _ zs hne.symm hq hq' k (List.mem_cons_of_mem _ hk)

/-- and found. -/
theorem Represents.framequeueFront (h : Represents m a) {q : ℕ} (hsome : (a.queues q).isSome) :
    m.framequeueFront q = (a.queue q).head?.map pointer := by
  have hc := h.circle q _ (queue_eq hsome)
  have hempty := h.listEmpty_iff hsome
  rw [Memory.framequeueFront]
  cases hxs : a.queue q with
  | nil => rw [if_pos (hempty.2 hxs)]; rfl
  | cons e xs =>
    rw [hxs] at hc
    have hne : ¬ m.links.listEmpty (.queue q) = true := by
      rw [hempty, hxs]
      exact List.cons_ne_nil e xs
    rw [if_neg hne, hc.next_head]
    rfl

theorem Represents.framequeueIsempty (h : Represents m a) {q : ℕ} (hsome : (a.queues q).isSome) :
    m.framequeueIsempty q = (a.queue q).isempty := by
  rw [Memory.framequeueIsempty, Framequeue.isempty, Bool.eq_iff_iff, h.listEmpty_iff hsome,
    List.isEmpty_iff]

theorem Represents.entryFree (h : Represents m a) (e : ℕ) :
    Represents (m.entryFree (.entry e)) { a with freed := a.freed ++ [e] } := by
  refine ⟨h.circle, h.disjoint, ?_⟩
  simp [Memory.entryFree, h.freed]

/-- The loop of a cleanup ends at a queue that is empty, -/
theorem framequeueCleanup_of_none {q k : ℕ} (h : (m.framequeueGet q).1 = none) :
    Memory.framequeueCleanup q (k + 1) m = some (m.framequeueGet q).2 := by
  rw [Memory.framequeueCleanup]
  rcases hget : m.framequeueGet q with ⟨e, m'⟩
  rw [hget] at h
  cases h
  rfl

/-- and goes on behind an entry. -/
theorem framequeueCleanup_of_some {q k : ℕ} {e : Node} (h : (m.framequeueGet q).1 = some e) :
    Memory.framequeueCleanup q (k + 1) m =
      Memory.framequeueCleanup q k ((m.framequeueGet q).2.entryFree e) := by
  rw [Memory.framequeueCleanup]
  rcases hget : m.framequeueGet q with ⟨e', m'⟩
  rw [hget] at h
  cases h
  rfl

/-- **Cleaning up ends**, frees each entry of the queue once, and leaves it
empty. -/
theorem Represents.framequeueCleanup (h : Represents m a) {q passes : ℕ} {xs : Framequeue}
    (hq : a.queues q = some xs) (hpasses : xs.length < passes) :
    ∃ m', Memory.framequeueCleanup q passes m = some m' ∧
      Represents m' { a.setQueue q [] with freed := a.freed ++ xs.map Entry.id } := by
  induction xs generalizing m a passes with
  | nil =>
    rw [List.length_nil] at hpasses
    obtain ⟨k, rfl⟩ := Nat.exists_eq_add_of_le' (by omega : 1 ≤ passes)
    have hqueue : a.queue q = [] := by rw [queue, hq]; rfl
    obtain ⟨hget, hrep⟩ := h.framequeueGet (q := q) (by rw [hq]; rfl)
    rw [hqueue] at hget hrep
    refine ⟨(m.framequeueGet q).2, ?_, ?_⟩
    · exact framequeueCleanup_of_none hget
    · rw [List.map_nil, List.append_nil]
      exact hrep
  | cons e xs ih =>
    rw [List.length_cons] at hpasses
    obtain ⟨k, rfl⟩ := Nat.exists_eq_add_of_le' (by omega : 1 ≤ passes)
    have hqueue : a.queue q = e :: xs := by rw [queue, hq]; rfl
    obtain ⟨hget, hrep⟩ := h.framequeueGet (q := q) (by rw [hq]; rfl)
    rw [hqueue] at hget hrep
    obtain ⟨m', hrun, hrep'⟩ := ih (hrep.entryFree e.id) setQueue_self
      (by omega : xs.length < k)
    refine ⟨m', ?_, ?_⟩
    · rw [framequeueCleanup_of_some hget]
      exact hrun
    · simpa [Queues.setQueue, Framequeue.get] using hrep'

/-- **One call**, with enough passes for the longest queue. -/
theorem Represents.exec (h : Represents m a) {c : QueueCall} (hlegal : Legal a c) {passes : ℕ}
    (hpasses : ∀ q xs, a.queues q = some xs → xs.length < passes) :
    ∃ m', m.exec passes c = some (m', a.answer c) ∧ Represents m' (step frame a c) := by
  cases c with
  | init q =>
    cases q with
    | none => exact ⟨m, rfl, h⟩
    | some q => exact ⟨_, rfl, h.framequeueInit q⟩
  | put q e =>
    cases q with
    | none => exact ⟨m, rfl, h⟩
    | some q =>
      cases e with
      | none => exact ⟨m, rfl, h⟩
      | some e => exact ⟨_, rfl, h.framequeuePut hlegal⟩
  | get q =>
    cases q with
    | none => exact ⟨m, rfl, h⟩
    | some q =>
      obtain ⟨hget, hrep⟩ := h.framequeueGet hlegal
      exact ⟨_, by rw [Memory.exec, hget, answer], hrep⟩
  | front q =>
    cases q with
    | none => exact ⟨m, rfl, h⟩
    | some q => exact ⟨m, by rw [Memory.exec, h.framequeueFront hlegal, answer], h⟩
  | isempty q => exact ⟨m, by rw [Memory.exec, h.framequeueIsempty hlegal, answer], h⟩
  | cleanup q =>
    cases q with
    | none => exact ⟨m, rfl, h⟩
    | some q =>
      have hq := queue_eq hlegal
      obtain ⟨m', hrun, hrep⟩ := h.framequeueCleanup hq (hpasses q _ hq)
      exact ⟨m', by rw [Memory.exec, hrun]; rfl, hrep⟩

/-! ## Runs -/

/-- No queue has more entries. -/
def Short (k : ℕ) (a : Queues) : Prop := ∀ q xs, a.queues q = some xs → xs.length ≤ k

theorem Short.setQueue {k : ℕ} (h : Short k a) {q : ℕ} {xs : Framequeue}
    (hxs : xs.length ≤ k + 1) : Short (k + 1) (a.setQueue q xs) := by
  intro q' ys hq'
  by_cases hqq : q' = q
  · subst hqq
    rw [setQueue_self, Option.some_inj] at hq'
    exact hq' ▸ hxs
  · rw [setQueue_of_ne hqq] at hq'
    exact (h q' ys hq').trans (Nat.le_succ k)

theorem Short.queue {k : ℕ} (h : Short k a) (q : ℕ) : (a.queue q).length ≤ k := by
  rw [Queues.queue]
  cases hq : a.queues q with
  | none => exact Nat.zero_le k
  | some xs => exact h q xs hq

/-- A call makes a queue longer by one entry at most. -/
theorem Short.step {k : ℕ} (h : Short k a) (c : QueueCall) : Short (k + 1) (step frame a c) := by
  have hmono : Short (k + 1) a := fun q xs hq => (h q xs hq).trans (Nat.le_succ k)
  have hput : ∀ q e, ((a.queue q).put (some ⟨e, frame e⟩)).length ≤ k + 1 := by
    intro q e
    have := h.queue q
    simpa [Framequeue.put] using this
  have hget : ∀ q, (a.queue q).get.2.length ≤ k + 1 := by
    intro q
    have := h.queue q
    cases hq : a.queue q with
    | nil => exact Nat.zero_le _
    | cons e xs =>
      rw [hq, List.length_cons] at this
      change xs.length ≤ k + 1
      omega
  cases c with
  | init q =>
    cases q with
    | none => exact hmono
    | some q => exact h.setQueue (Nat.zero_le _)
  | put q e =>
    cases q with
    | none => exact hmono
    | some q =>
      cases e with
      | none => exact hmono
      | some e => exact h.setQueue (hput q e)
  | get q =>
    cases q with
    | none => exact hmono
    | some q => exact h.setQueue (hget q)
  | front q => cases q <;> exact hmono
  | isempty q => exact hmono
  | cleanup q =>
    cases q with
    | none => exact hmono
    | some q =>
      have hnone : (a.queue q).cleanup.length ≤ k + 1 := Nat.zero_le _
      exact h.setQueue hnone

/-- Any number of calls. -/
theorem Represents.execAll {k passes : ℕ} {cs : List QueueCall} (h : Represents m a)
    (hshort : Short k a) (hlegal : EachStep (Queues.step frame) Legal a cs)
    (hpasses : k + cs.length < passes) :
    ∃ m', m.execAll passes cs = some (m', outputs (Queues.step frame) answer a cs) ∧
      Represents m' (run (Queues.step frame) a cs) := by
  induction cs generalizing m a k with
  | nil => exact ⟨m, rfl, h⟩
  | cons c cs ih =>
    obtain ⟨hfirst, hrest⟩ := eachStep_cons.1 hlegal
    rw [List.length_cons] at hpasses
    have henough : ∀ q xs, a.queues q = some xs → xs.length < passes := by
      intro q xs hq
      have := hshort q xs hq
      omega
    obtain ⟨m₁, hexec, hrep₁⟩ :
        ∃ m₁, m.exec passes c = some (m₁, a.answer c) ∧ Represents m₁ (Queues.step frame a c) :=
      h.exec hfirst henough
    obtain ⟨m₂, hexecAll, hrep₂⟩ := ih hrep₁ (hshort.step c) hrest (by omega)
    refine ⟨m₂, ?_, hrep₂⟩
    rw [Memory.execAll, hexec]
    simp only [Option.bind_eq_bind, Option.bind_some, hexecAll, outputs]

theorem represents_start (links : Links Node) : Represents ⟨links, []⟩ start where
  circle q xs hq := by cases hq
  disjoint q q' xs ys _ hq := by cases hq
  freed := rfl

/-- A call changes no other queue. -/
theorem step_queues_of_ne {c : QueueCall} {q : ℕ} (h : c.queue ≠ some q) :
    (step frame a c).queues q = a.queues q := by
  have hne : ∀ q', c.queue = some q' → q ≠ q' := by
    rintro q' hc rfl
    exact h hc
  cases c with
  | init q' =>
    cases q' with
    | none => rfl
    | some q' => exact setQueue_of_ne (hne q' rfl)
  | put q' e =>
    cases q' with
    | none => rfl
    | some q' =>
      cases e with
      | none => rfl
      | some e => exact setQueue_of_ne (hne q' rfl)
  | get q' =>
    cases q' with
    | none => rfl
    | some q' => exact setQueue_of_ne (hne q' rfl)
  | front q' => cases q' <;> rfl
  | isempty q' => rfl
  | cleanup q' =>
    cases q' with
    | none => rfl
    | some q' => exact Function.update_of_ne (hne q' rfl) ..

/-- **The frame queues are lists**: whatever pointers the memory holds, every
sequence of calls on queues that were initialised, with no entry put while
it is in a queue, ends, returns what it returns for lists, and leaves the
lists it leaves. No call changes another queue. -/
theorem framequeue_refines_list (frame : ℕ → Frame) (links : Links Node) (cs : List QueueCall)
    (hlegal : EachStep (step frame) Legal start cs) {passes : ℕ} (hpasses : cs.length < passes) :
    (∃ m, Memory.execAll passes ⟨links, []⟩ cs =
        some (m, outputs (step frame) answer start cs) ∧
      Represents m (run (step frame) start cs)) ∧
    EachStep (step frame) (fun a c => ∀ q, c.queue ≠ some q →
      (step frame a c).queues q = a.queues q) start cs := by
  refine ⟨?_, fun _ _ _ q hq => step_queues_of_ne hq⟩
  refine (represents_start links).execAll (k := 0) (fun q xs hq => ?_) hlegal (by omega)
  cases hq

/-- An entry goes through a queue, and a second one is freed with it. -/
theorem framequeue_refines_list_two :
    ∃ m, Memory.execAll 6 ⟨⟨id, id⟩, []⟩ [.init (some 0), .put (some 0) (some 7),
        .get (some 0), .put (some 0) (some 8), .cleanup (some 0)] =
      some (m, [.nothing, .code 0, .entry (some (.entry 7)), .code 0, .nothing]) := by
  have hlegal : EachStep (step fun _ => Frame.single) Legal start [.init (some 0),
      .put (some 0) (some 7), .get (some 0), .put (some 0) (some 8), .cleanup (some 0)] := by
    have hempty : ∀ e (a : Queues), a.queues = (start.setQueue 0 []).queues →
        ∀ q' xs, a.queues q' = some xs → e ∉ xs.map Entry.id := by
      intro e a ha q' xs hq'
      by_cases hq : q' = 0
      · rw [ha, hq, setQueue_self] at hq'
        cases hq'
        exact List.not_mem_nil
      · rw [ha, setQueue_of_ne hq] at hq'
        cases hq'
    refine eachStep_cons.2 ⟨trivial, eachStep_cons.2 ⟨⟨rfl, hempty 7 _ rfl⟩, eachStep_cons.2
      ⟨rfl, eachStep_cons.2 ⟨⟨rfl, hempty 8 _ ?_⟩, eachStep_cons.2 ⟨rfl, eachStep_nil⟩⟩⟩⟩⟩
    funext q
    by_cases hq : q = 0 <;> simp [step, setQueue, start, queue, Framequeue.init, Framequeue.put,
      Framequeue.get, hq]
  obtain ⟨m, hrun, -⟩ :=
    (framequeue_refines_list (fun _ => Frame.single) ⟨id, id⟩ _ hlegal (by decide : 5 < 6)).1
  exact ⟨m, hrun⟩

end Queues

end Core

end Dmx4Linux2
