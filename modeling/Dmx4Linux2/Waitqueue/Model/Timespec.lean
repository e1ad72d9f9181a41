import Mathlib.Data.Nat.Notation

/-!
# waitqueue — times

The arithmetic on `struct timespec` with which the emulated wait queue
computes when a wait ends and how much of its timeout is left, and what
a wait returns. `long` has
64 bits: both fields are signed words, and the milliseconds an unsigned
one, so an addition of the two is done unsigned and turned back.
-/

namespace Dmx4Linux2

namespace Waitqueue

/-- `struct timespec` -/
structure Timespec where
  tvSec : Int64
  tvNsec : Int64
  deriving DecidableEq, Repr

namespace Timespec

/-- `timespec_add_milliseconds`; a whole number of seconds leaves the
nanoseconds as they are. -/
def addMilliseconds (ts : Timespec) (milliseconds : UInt64) : Timespec :=
  let tvSec := (ts.tvSec.toUInt64 + milliseconds / 1000).toInt64
  if milliseconds % 1000 ≠ 0 then
    let tvNsec := (ts.tvNsec.toUInt64 + milliseconds % 1000 * 1000000).toInt64
    ⟨tvSec + tvNsec / 1000000000, tvNsec % 1000000000⟩
  else ⟨tvSec, ts.tvNsec⟩

/-- The loop of `timespec_sub`: a second is borrowed while there are
fewer than no nanoseconds. The condition is tested at most `tests` times;
`none` is a loop that has not ended by then. -/
def borrow : ℕ → Timespec → Option Timespec
  | 0, _ => none
  | tests + 1, ts =>
    if ts.tvNsec < 0 then borrow tests ⟨ts.tvSec - 1, ts.tvNsec + 1000000000⟩ else some ts

/-- `timespec_sub` -/
def sub (tests : ℕ) (ts subtractor : Timespec) : Option Timespec :=
  borrow tests ⟨ts.tvSec - subtractor.tvSec, ts.tvNsec - subtractor.tvNsec⟩

/-- `timespec_to_milliseconds` -/
def toMilliseconds (ts : Timespec) : UInt64 :=
  (ts.tvNsec / 1000000 + 1000 * ts.tvSec).toUInt64

end Timespec

/-- `ETIMEDOUT` -/
def etimedout : Int32 := 110

/-- `ERESTART` -/
def erestart : Int32 := 85

/-- `__wait_event_interruptible_timeout`, from what the clock said when it
was called and after the wait, and what `pthread_cond_timedwait` returned.
A jiffy is a millisecond, and those that are left are returned as an
`int`. -/
def waitEventInterruptibleTimeout (tests : ℕ) (start now : Timespec) (ret : Int32)
    (timeoutJiffies : UInt64) : Option Int32 :=
  if ret = 0 then
    (Timespec.sub tests (start.addMilliseconds timeoutJiffies) now).map fun left =>
      left.toMilliseconds.toUInt32.toInt32
  else if ret = etimedout then some 0
  else if ret < 0 then some (-erestart)
  else some (-ret)

end Waitqueue

end Dmx4Linux2
