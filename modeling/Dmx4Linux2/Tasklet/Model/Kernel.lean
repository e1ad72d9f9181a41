import Mathlib.Data.List.Basic
import Mathlib.Logic.Function.Basic

/-!
# Tasklets of the test bench

`tasklet_schedule` and `run_all_tasklets` of `kernel.c`. The tasklets that
are scheduled are linked through their `next`, from `g_tasklet_list` on,
and `tasklet_schedule` walks along the pointers. Of a tasklet the model
has the pointer only; what its callback schedules comes as events behind
its run.
-/

namespace Dmx4Linux2

namespace Tasklet

variable {τ : Type*}

/-- A pointer variable: `g_tasklet_list`, or `next` of a tasklet. -/
inductive Cell (τ : Type*)
  | taskletList
  | next (t : τ)
  deriving DecidableEq

structure Kernel (τ : Type*) where
  cells : Cell τ → Option τ
  /-- A walk along the list that never ends. -/
  stuck : Bool
  /-- The calls that found the tasklet not in the list. -/
  scheduled : List τ
  /-- The callbacks called. -/
  ran : List τ

/-- No tasklet was scheduled yet. -/
def Kernel.init : Kernel τ := ⟨fun _ => none, false, [], []⟩

/-- What the walk along the list comes to. -/
inductive Walk (τ : Type*)
  | found
  | stop (l : Cell τ)
  | endless

variable [DecidableEq τ]

/-- The loop of `tasklet_schedule`, for at most `fuel` pointers. -/
def walk (cells : Cell τ → Option τ) (t : τ) : ℕ → Cell τ → Walk τ
  | 0, _ => .endless
  | fuel + 1, l =>
    match cells l with
    | none => .stop l
    | some u => if u = t then .found else walk cells t fuel (.next u)

namespace Kernel

variable (k : Kernel τ)

/-- `tasklet_schedule`. A pointer holds only what was scheduled, so that a
walk past more pointers than that is in a circle. -/
def taskletSchedule (t : τ) : Kernel τ :=
  match walk k.cells t (k.scheduled.length + 1) .taskletList with
  | .found => k
  | .stop l =>
    { k with
      cells := Function.update k.cells l (some t)
      scheduled := k.scheduled ++ [t] }
  | .endless => { k with stuck := true }

/-- One round of the loop of `run_all_tasklets`, which returns when there
is no tasklet in the list. -/
def runNextTasklet : Kernel τ :=
  match k.cells .taskletList with
  | none => k
  | some t =>
    { k with
      cells := Function.update k.cells .taskletList (k.cells (.next t))
      ran := k.ran ++ [t] }

end Kernel

/-- A call from outside or from a callback, and a round of
`run_all_tasklets`. -/
inductive Event (τ : Type*)
  | schedule (t : τ)
  | runNext
  deriving DecidableEq

/-- Nothing happens any more when a call does not return. -/
def Kernel.step (k : Kernel τ) (e : Event τ) : Kernel τ :=
  if k.stuck then k
  else
    match e with
    | .schedule t => k.taskletSchedule t
    | .runNext => k.runNextTasklet

end Tasklet

end Dmx4Linux2
