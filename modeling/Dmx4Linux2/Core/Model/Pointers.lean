import Dmx4Linux2.Common.Circular
import Mathlib.Data.Int.Notation

/-!
# dmx512 core — frame queues and their pointers

`dmx512_framequeue` as it is in memory: the head of a circular list, on
which the entries are linked through a member of their own. A pointer to an
entry is one to that member, which is its first. The loop that empties a
queue is given the number of its passes, and fails when they do not
suffice. Locks are left out: an operation is not interrupted.
-/

namespace Dmx4Linux2

namespace Core

/-- A `struct list_head`: that of a queue or that of an entry. -/
inductive Node
  | queue (q : ℕ)
  | entry (e : ℕ)
  deriving DecidableEq, Repr

structure Memory where
  links : Links Node
  /-- What `kfree` was called with. -/
  freed : List Node

namespace Memory

variable (m : Memory)

/-- `dmx512_framequeue_init`. -/
def framequeueInit (q : ℕ) : Memory := { m with links := m.links.initListHead (.queue q) }

/-- `dmx512_framequeue_isempty`. -/
def framequeueIsempty (q : ℕ) : Bool := m.links.listEmpty (.queue q)

/-- `_dmx512_framequeue_get`, and with the lock `dmx512_framequeue_get`. -/
def framequeueGet (q : ℕ) : Option Node × Memory :=
  if m.links.listEmpty (.queue q) then (none, m)
  else
    let e := m.links.next (.queue q)
    (some e, { m with links := m.links.listDel e })

/-- `dmx512_framequeue_front`. -/
def framequeueFront (q : ℕ) : Option Node :=
  if m.links.listEmpty (.queue q) then none else some (m.links.next (.queue q))

/-- `dmx512_framequeue_put`. -/
def framequeuePut (q e : ℕ) : Memory :=
  { m with links := m.links.listAddTail (.entry e) (.queue q) }

/-- `dmx512_framequeue_entry_free`. -/
def entryFree (e : Node) : Memory := { m with freed := m.freed ++ [e] }

/-- `dmx512_framequeue_cleanup`. -/
def framequeueCleanup (q : ℕ) : ℕ → Memory → Option Memory
  | 0, _ => none
  | passes + 1, m =>
    match m.framequeueGet q with
    | (none, m) => some m
    | (some e, m) => framequeueCleanup q passes (m.entryFree e)

end Memory

/-- A call; a pointer that may be `NULL` is nothing then. -/
inductive QueueCall
  | init (q : Option ℕ)
  | put (q e : Option ℕ)
  | get (q : Option ℕ)
  | front (q : Option ℕ)
  | isempty (q : ℕ)
  | cleanup (q : Option ℕ)
  deriving DecidableEq, Repr

/-- What a call returns. -/
inductive Answer
  | nothing
  | code (ret : ℤ)
  | entry (e : Option Node)
  deriving DecidableEq, Repr

namespace Memory

variable (m : Memory)

/-- A call, with so many passes for the loop of a cleanup. -/
def exec (passes : ℕ) : QueueCall → Option (Memory × Answer)
  | .init none => some (m, .nothing)
  | .init (some q) => some (m.framequeueInit q, .nothing)
  | .put (some q) (some e) => some (m.framequeuePut q e, .code 0)
  | .put _ _ => some (m, .code (-1))
  | .get none => some (m, .entry none)
  | .get (some q) => some ((m.framequeueGet q).2, .entry (m.framequeueGet q).1)
  | .front none => some (m, .entry none)
  | .front (some q) => some (m, .entry (m.framequeueFront q))
  | .isempty q => some (m, .code (if m.framequeueIsempty q then 1 else 0))
  | .cleanup none => some (m, .nothing)
  | .cleanup (some q) => (framequeueCleanup q passes m).map fun m => (m, .nothing)

def execAll (passes : ℕ) : Memory → List QueueCall → Option (Memory × List Answer)
  | m, [] => some (m, [])
  | m, c :: cs => do
    let (m, a) ← m.exec passes c
    let (m, as) ← execAll passes m cs
    some (m, a :: as)

end Memory

end Core

end Dmx4Linux2
