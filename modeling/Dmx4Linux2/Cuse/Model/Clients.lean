import Dmx4Linux2.Cuse.Model.Daemon

/-!
# CUSE framework — the files of the clients

The clients of the cards and the kernel between them and the daemon. The
kernel keeps the file handle it got in the reply to the open with the
file and sends it with every later request; it sends requests only for
files that are open. With each file stands what was last set through it.
-/

namespace Dmx4Linux2

namespace Cuse

open Dmx4Linux2.Core

/-- An open file, and the filters last set through it since its open. -/
structure File (ι : Type) where
  id : ℕ
  card : ι
  fh : ℕ
  filter : UInt64
  txfilter : UInt64

/-- The file after an ioctl. The client sets a filter with the second
call, the one that brings the number along. -/
def File.note {ι : Type} (f : File ι) (cmd : IoctlCmd) (args : IoctlArgs) : File ι :=
  match cmd with
  | .setPortFilter => if args.inBufsz = 0 then f else { f with filter := args.value }
  | .setPortTxfilter => if args.inBufsz = 0 then f else { f with txfilter := args.value }
  | _ => f

structure Clients (ι : Type) where
  daemon : Daemon ι
  files : List (File ι)

namespace Clients

variable {ι : Type}

/-- The reply the daemon gave last. -/
def lastReply (s : Clients ι) : Option Reply :=
  match s.daemon.actions.getLast? with
  | some (.reply _ r) => some r
  | _ => none

inductive Event (ι : Type)
  | openFile (unique id : ℕ) (card : ι) (nonblock : Bool)
  | closeFile (unique id : ℕ)
  | ioctl (unique id : ℕ) (cmd : IoctlCmd) (args : IoctlArgs)

def start (garbage : ℕ → Frame) : Clients ι := ⟨Daemon.coreInit garbage, []⟩

variable [DecidableEq ι] (s : Clients ι)

def find (id : ℕ) : Option (File ι) := s.files.find? (·.id = id)

/-- The open is sent, and the file added if it succeeded. A file that is
open is not opened again. -/
def openFile (unique id : ℕ) (card : ι) (nonblock : Bool) : Clients ι :=
  match s.find id with
  | some _ => s
  | none =>
    let s' := { s with daemon := s.daemon.cuseOpen ⟨unique, card, 0⟩ nonblock }
    match s'.lastReply with
    | some (.opened fh) => { s' with files := s.files ++ [⟨id, card, fh, 0, 0⟩] }
    | _ => s'

def closeFile (unique id : ℕ) : Clients ι :=
  match s.find id with
  | none => s
  | some f =>
    { daemon := s.daemon.cuseRelease ⟨unique, f.card, f.fh⟩, files := s.files.filter (·.id ≠ id) }

def ioctl (unique id : ℕ) (cmd : IoctlCmd) (args : IoctlArgs) : Clients ι :=
  match s.find id with
  | none => s
  | some f =>
    { daemon := s.daemon.cuseIoctl ⟨unique, f.card, f.fh⟩ cmd args
      files := s.files.map fun g => if g.id = id then g.note cmd args else g }

def step : Event ι → Clients ι
  | .openFile unique id card nonblock => s.openFile unique id card nonblock
  | .closeFile unique id => s.closeFile unique id
  | .ioctl unique id cmd args => s.ioctl unique id cmd args

end Clients

end Cuse

end Dmx4Linux2
