import Dmx4Linux2.Cuse.Model.Daemon

/-!
# CUSE framework — the fd watchers

The main loop selects on the files of its sessions and on those of the
watchers in `g_fdwatchers`, a table that a driver fills when it starts the
loop, and that it may change while the loop runs. A search that leaves the
table has no result: what it finds behind it is not the table's.
-/

namespace Dmx4Linux2

namespace Cuse

/-- `struct dmx512_cuse_fdwatcher`, its two pointers as numbers. -/
structure Fdwatcher where
  fd : ℤ
  callback : ℕ
  user : ℕ
  deriving DecidableEq

/-- `g_fdwatchers`, with its `MAX_FD_WATCHERS` entries, and
`g_num_fdwatchers`. -/
structure FdwatcherTable where
  watchers : Fin 256 → Fdwatcher
  num : ℕ

namespace FdwatcherTable

/-- The table as the program starts with it. -/
def zero : FdwatcherTable := ⟨fun _ => ⟨0, 0, 0⟩, 0⟩

variable (t : FdwatcherTable)

/-- What `fuse_multisession_loop` does with the watchers it is given. -/
def load (t : FdwatcherTable) : List Fdwatcher → FdwatcherTable
  | [] => t
  | w :: ws =>
    if h : t.num < 256 then
      load ⟨Function.update t.watchers ⟨t.num, h⟩ w, t.num + 1⟩ ws
    else t

/-- The entries the main loop selects on. -/
def Live (i : Fin 256) : Prop := i.val < t.num ∧ (t.watchers i).fd ≠ -1

/-- `dmx512_cuse_fdwatcher_find_fd`. What bounds its loop is the number of
watchers, which the loop does not change, and not the index. -/
def findFd (fd : ℤ) : Option (Option (Fin 256)) :=
  if t.num < 256 then
    ((List.finRange 256).find? fun i => (t.watchers i).fd = fd).map some
  else some none

/-- `dmx512_cuse_fdwatcher_add` -/
def add (w : Fdwatcher) : Option (Errno × FdwatcherTable) := do
  if (← t.findFd w.fd) ≠ none then
    return (.einval, t)
  match ← t.findFd (-1) with
  | none => return (.enomem, t)
  | some i =>
    let num := if i.val + 1 > t.num then i.val + 1 else t.num
    return (.success, ⟨Function.update t.watchers i w, num⟩)

/-- `dmx512_cuse_fdwatcher_remove` -/
def remove (w : Fdwatcher) : Option (Errno × FdwatcherTable) := do
  match ← t.findFd w.fd with
  | none => return (.einval, t)
  | some i => return (.success, { t with watchers := Function.update t.watchers i ⟨-1, 0, 0⟩ })

end FdwatcherTable

end Cuse

end Dmx4Linux2
