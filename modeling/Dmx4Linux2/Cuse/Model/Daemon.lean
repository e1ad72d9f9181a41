import Dmx4Linux2.Core.Model.Framequeue
import Mathlib.Algebra.Group.Nat.Defs
import Mathlib.Data.List.FinRange
import Mathlib.Data.Prod.Basic
import Mathlib.Logic.Function.Basic

/-!
# CUSE framework — the daemon

The cards of a CUSE daemon and the handlers of `cusetest_clop`. All cards
share one pool of frames; a card has 32 contexts, one for each file that
is open. A handler takes the daemon to the daemon it leaves; what it does
besides is appended to `actions`, in order: the `fuse_reply_*` calls, the
poll handles notified or destroyed and, for reference, each frame that
passed the filter of a context.

What the kernel and the card driver tell a handler is in the event: the
request with the file handle in it, whether a pending read has been
interrupted, and the frames the driver reports from inside `sendFrame`.
A driver does not write to the frame it is given to send.
-/

namespace Dmx4Linux2

namespace Cuse

open Dmx4Linux2.Core

/-- A FUSE request: its number, the card it is for, which is the user
data of the session it came over, and `fi->fh`. -/
structure Req (ι : Type) where
  unique : ℕ
  card : ι
  fh : ℕ
  deriving DecidableEq

inductive Errno
  | success | eintr | enomem | einval
  deriving DecidableEq

/-- The `fuse_reply_*` calls. -/
inductive Reply
  | err (e : Errno)
  | opened (fh : ℕ)
  | buf (frame : Frame)
  | nothing
  | write (size : ℕ)
  /-- The result is 0; a value is returned, or none. -/
  | ioctl (value : Option UInt64)
  /-- How many buffers to be sent in and out. -/
  | ioctlRetry (incount outcount : ℕ)
  | ioctlIov (count : ℕ)
  | poll (pollin : Bool)
  deriving DecidableEq

/-- `DMX512_CUSE_CONTEXT_COUNT` contexts on each card. -/
abbrev Key (ι : Type) := ι × Fin 32

/-- `struct dmx512_cuse_context`. -/
structure Context (ι : Type) where
  inUse : Bool
  nonblocking : Bool
  portMask : UInt64
  portTxmask : UInt64
  readReq : Option (Req ι)
  pollhandle : Option ℕ
  /-- Nothing while the head of the list is all zero: it is then neither
  empty nor has it an entry to get. -/
  framequeue : Option Framequeue

/-- A context after `bzero`. -/
def Context.zero {ι : Type} : Context ι := ⟨false, false, 0, 0, none, none, none⟩

inductive Action (ι : Type)
  | reply (req : Req ι) (r : Reply)
  | notifyPoll (ph : ℕ)
  | destroyPoll (ph : ℕ)
  /-- A frame passed the filter of a context in use, while a read that is
  not interrupted was pending there, or while it had a poll handle and
  the pool was not empty. -/
  | passed (k : Key ι) (frame : Frame) (waits room : Bool)

structure Daemon (ι : Type) where
  freeFramequeue : Framequeue
  contexts : Key ι → Context ι
  actions : List (Action ι)

variable {ι : Type} [DecidableEq ι]

/-- `dmx512_cuse_context` of a request. -/
def Req.key (req : Req ι) : Option (Key ι) :=
  if h : req.fh < 32 then some (req.card, ⟨req.fh, h⟩) else none

namespace Context

/-- `1<<port`, an `int` that is then made an `unsigned long long`. Where
C leaves the shift undefined the machine takes the count modulo 32; the
bit 31 is the sign. -/
def shiftOne (port : UInt16) : UInt64 :=
  if port.toNat % 32 = 31 then 0xFFFFFFFF80000000 else UInt64.ofNat (2 ^ (port.toNat % 32))

/-- The test of `dmx512_cuse_handle_received_frame`. -/
def passes (ctx : Context ι) (frame : Frame) : Bool :=
  let portMask := if frame.flags &&& isTransmitFrame ≠ 0 then ctx.portTxmask else ctx.portMask
  frame.port < 64 && portMask &&& shiftOne frame.port ≠ 0

end Context

namespace Daemon

/-- `dmx512_core_init`, with the sessions created: a pool of frames for
32 ports with 32 contexts, 2 directions with 4 frames each, and all
contexts zero. -/
def coreInit (garbage : ℕ → Frame) : Daemon ι where
  freeFramequeue := allocated (32 * 32 * 2 * 4) garbage
  contexts := fun _ => Context.zero
  actions := []

variable (d : Daemon ι)

def act (a : Action ι) : Daemon ι := { d with actions := d.actions ++ [a] }

def reply (req : Req ι) (r : Reply) : Daemon ι := d.act (.reply req r)

def setContext (k : Key ι) (ctx : Context ι) : Daemon ι :=
  { d with contexts := Function.update d.contexts k ctx }

/-- `dmx512_get_frame`, out of the pool. -/
def getFrame : Option Entry × Daemon ι :=
  (d.freeFramequeue.get.1, { d with freeFramequeue := d.freeFramequeue.get.2 })

/-- `dmx512_put_frame`, into the pool. -/
def putFrame (e : Entry) : Daemon ι := { d with freeFramequeue := d.freeFramequeue.put (some e) }

/-! ## Received frames -/

/-- A pending read that was interrupted is answered with `EINTR`. -/
def dropInterrupted (k : Key ι) (interrupted : Req ι → Bool) : Daemon ι :=
  match (d.contexts k).readReq with
  | some req =>
    if interrupted req then
      (d.reply req (.err .eintr)).setContext k { d.contexts k with readReq := none }
    else d
  | none => d

/-- A frame that passed the filter: it answers the pending read, or is
copied into the queue if there is a poll handle and a frame in the pool. -/
def deliver (k : Key ι) (frame : Frame) : Daemon ι :=
  let ctx := d.contexts k
  match ctx.readReq, ctx.pollhandle with
  | some req, _ => (d.reply req (.buf frame)).setContext k { ctx with readReq := none }
  | none, some ph =>
    match d.getFrame with
    | (some e, d) =>
      (d.setContext k { ctx with
        framequeue := ctx.framequeue.map (·.put (some { e with frame := frame })) }).act
          (.notifyPoll ph)
    | (none, d) => d.act (.notifyPoll ph)
  | none, none => d

/-- The body of the loop of `dmx512_cuse_handle_received_frame`. -/
def receiveAt (k : Key ι) (frame : Frame) (interrupted : Req ι → Bool) : Daemon ι :=
  let d := d.dropInterrupted k interrupted
  let ctx := d.contexts k
  if ctx.inUse ∧ ctx.passes frame then
    (d.act (.passed k frame ctx.readReq.isSome
      (ctx.pollhandle.isSome && !d.freeFramequeue.isempty))).deliver k frame
  else d

/-- `dmx512_cuse_handle_received_frame`. -/
def handleReceivedFrame (card : ι) (frame : Frame) (interrupted : Req ι → Bool) : Daemon ι :=
  (List.finRange 32).foldl (fun d i => d.receiveAt (card, i) frame interrupted) d

/-! ## Open and release -/

/-- `dmx512_cuse_free_context_index`. -/
def freeContextIndex (card : ι) : Option (Fin 32) :=
  (List.finRange 32).find? fun i => !(d.contexts (card, i)).inUse

/-- `dmx512_cuse_open`. -/
def cuseOpen (req : Req ι) (nonblock : Bool) : Daemon ι :=
  match d.freeContextIndex req.card with
  | none => d.reply req (.err .enomem)
  | some index =>
    (d.setContext (req.card, index)
      { Context.zero with
        inUse := true
        nonblocking := nonblock
        framequeue := some Framequeue.init }).reply req (.opened index)

/-- `dmx512_cuse_release`. -/
def cuseRelease (req : Req ι) : Daemon ι :=
  match req.key with
  | none => d.reply req (.err .einval)
  | some k =>
    (d.setContext k
      { d.contexts k with
        inUse := false
        portMask := 0
        framequeue := (d.contexts k).framequeue.map Framequeue.cleanup }).reply req (.err .success)

/-! ## Read and write -/

/-- A read that finds no frame waits in `read_req`, in the place of one
that waits there. -/
def readPending (req : Req ι) (k : Key ι) : Daemon ι :=
  let ctx := d.contexts k
  if ctx.nonblocking then d.reply req .nothing
  else
    let d := match ctx.readReq with
      | some old => d.reply old (.err .eintr)
      | none => d
    d.setContext k { ctx with readReq := some req }

/-- `dmx512_cuse_read`. -/
def cuseRead (req : Req ι) : Daemon ι :=
  match req.key with
  | none => d.reply req (.err .einval)
  | some k =>
    match (d.contexts k).framequeue with
    | none => d
    | some [] => d.readPending req k
    | some (e :: q) =>
      ((d.setContext k { d.contexts k with framequeue := some q }).reply req (.buf e.frame)).putFrame e

end Daemon

/-- A call of `dmx512_cuse_handle_received_frame` by a card driver. -/
structure Arrival (ι : Type) where
  card : ι
  frame : Frame
  interrupted : Req ι → Bool

namespace Daemon

variable (d : Daemon ι)

/-- The frames a driver reports, one after the other. -/
def handleArrivals (as : List (Arrival ι)) : Daemon ι :=
  as.foldl (fun d a => d.handleReceivedFrame a.card a.frame a.interrupted) d

/-- The frame as `dmx512_cuse_write` passes it on. -/
def transmitted (frame : Frame) : Frame := { frame with flags := frame.flags ||| isTransmitFrame }

/-- `dmx512_cuse_write` of `size` bytes; `sent` is what the driver
reports from inside `sendFrame`. -/
def cuseWrite (req : Req ι) (size : ℕ) (frame : Frame) (sent : List (Arrival ι))
    (interrupted : Req ι → Bool) : Daemon ι :=
  match req.key with
  | none => d.reply req (.err .einval)
  | some _ =>
    if size < sizeofFrame then d.reply req (.err .einval)
    else
      ((d.handleArrivals sent).handleReceivedFrame req.card (transmitted frame) interrupted).reply
        req (.write size)

end Daemon

/-! ## Ioctls -/

/-- What comes with an ioctl. -/
structure IoctlArgs where
  inBufsz : ℕ
  outBufsz : ℕ
  /-- The number in `in_buf`. -/
  value : UInt64
  /-- `tuples` of the card or port info in `in_buf` is not null. -/
  tuples : Bool
  /-- `tuple_count` there. -/
  tupleCount : ℤ
  /-- The function of the driver does not return 0, or there is none. -/
  fails : Bool

inductive IoctlCmd
  | version
  | setPortFilter | getPortFilter
  | setPortTxfilter | getPortTxfilter
  | queryCardInfo | changeCardInfo
  | queryPortInfo | changePortInfo
  | other (cmd : ℕ)

/-- `DMX4LINUX2_VERSION` -/
def dmx4linux2Version : UInt64 := 0x30000

/-- `sizeof` of the card info and of the port info. -/
def sizeofInfo : ℕ := 24

/-- A number that is read by the client: it is returned once there is a
buffer for it. -/
def replyValue (args : IoctlArgs) (value : UInt64) : Reply :=
  if args.outBufsz = 0 then .ioctlRetry 0 1 else .ioctl (some value)

/-- `dmx512_cuse_query_card_info` and `dmx512_cuse_query_port_info`. -/
def queryInfo (args : IoctlArgs) : Reply :=
  let count := if args.tuples then 2 else 1
  if args.inBufsz = 0 then .ioctlRetry 1 0
  else if args.outBufsz = 0 then .ioctlRetry count count
  else if args.fails then .err .einval
  else .ioctlIov count

/-- `dmx512_cuse_change_card_info` and `dmx512_cuse_change_port_info`. -/
def changeInfo (args : IoctlArgs) : Reply :=
  if args.inBufsz = 0 then .ioctlRetry 1 0
  else if 0 < args.tupleCount ∧ args.inBufsz = sizeofInfo then .ioctlRetry 2 0
  else if args.fails then .err .einval
  else .ioctl none

namespace Daemon

variable (d : Daemon ι)

/-- A number that is set by the client. -/
def setFilter (req : Req ι) (k : Key ι) (args : IoctlArgs) (ctx : Context ι) : Daemon ι :=
  if args.inBufsz = 0 then d.reply req (.ioctlRetry 1 0)
  else (d.setContext k ctx).reply req (.ioctl none)

/-- `dmx512_cuse_ioctl`. -/
def cuseIoctl (req : Req ι) (cmd : IoctlCmd) (args : IoctlArgs) : Daemon ι :=
  match req.key with
  | none => d.reply req (.err .einval)
  | some k =>
    let ctx := d.contexts k
    match cmd with
    | .version => d.reply req (replyValue args dmx4linux2Version)
    | .setPortFilter => d.setFilter req k args { ctx with portMask := args.value }
    | .getPortFilter => d.reply req (replyValue args ctx.portMask)
    | .setPortTxfilter => d.setFilter req k args { ctx with portTxmask := args.value }
    | .getPortTxfilter => d.reply req (replyValue args ctx.portTxmask)
    | .queryCardInfo | .queryPortInfo => d.reply req (queryInfo args)
    | .changeCardInfo | .changePortInfo => d.reply req (changeInfo args)
    | .other _ => d.reply req (.err .einval)

/-! ## Poll and destroy -/

/-- A new poll handle takes the place of the old one. -/
def setPollhandle (k : Key ι) (ph : ℕ) : Daemon ι :=
  let d' := d.setContext k { d.contexts k with pollhandle := some ph }
  match (d.contexts k).pollhandle with
  | some old => d'.act (.destroyPoll old)
  | none => d'

/-- `dmx512_cuse_poll`. -/
def cusePoll (req : Req ι) (ph : Option ℕ) : Daemon ι :=
  match req.key with
  | none => d.reply req (.err .einval)
  | some k =>
    let d := match ph with
      | some ph => d.setPollhandle k ph
      | none => d
    d.reply req (.poll ((d.contexts k).framequeue.map Framequeue.isempty != some true))

/-- The body of the loop of `dmx512_cuse_destroy`. -/
def destroyAt (k : Key ι) : Daemon ι :=
  match (d.contexts k).readReq with
  | some req => (d.reply req (.err .eintr)).setContext k { d.contexts k with readReq := none }
  | none => d

/-- `dmx512_cuse_destroy`, up to the card being freed. -/
def cuseDestroy (card : ι) : Daemon ι :=
  (List.finRange 32).foldl (fun d i => d.destroyAt (card, i)) d

end Daemon

/-! ## Events -/

inductive Event (ι : Type)
  | openReq (req : Req ι) (nonblock : Bool)
  | release (req : Req ι)
  | read (req : Req ι)
  | write (req : Req ι) (size : ℕ) (frame : Frame) (sent : List (Arrival ι))
      (interrupted : Req ι → Bool)
  | ioctl (req : Req ι) (cmd : IoctlCmd) (args : IoctlArgs)
  | poll (req : Req ι) (ph : Option ℕ)
  /-- A card driver reports a frame. -/
  | received (a : Arrival ι)

/-- The daemon after an event. -/
def Daemon.step (d : Daemon ι) : Event ι → Daemon ι
  | .openReq req nonblock => d.cuseOpen req nonblock
  | .release req => d.cuseRelease req
  | .read req => d.cuseRead req
  | .write req size frame sent interrupted => d.cuseWrite req size frame sent interrupted
  | .ioctl req cmd args => d.cuseIoctl req cmd args
  | .poll req ph => d.cusePoll req ph
  | .received a => d.handleArrivals [a]

end Cuse

end Dmx4Linux2
