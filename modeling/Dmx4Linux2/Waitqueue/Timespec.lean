import Dmx4Linux2.Waitqueue.Model.Timespec
import Mathlib.Algebra.Ring.Int.Defs
import Mathlib.Algebra.Ring.Nat

/-!
# waitqueue — times are exact

A time is a number of nanoseconds (`nanoseconds`), and every number has
one normalized time that stands for it, with the seconds wrapped around
(`ofNanoseconds`). On these the functions of the wait queue are the
arithmetic of the integers, for every number: adding milliseconds,
subtracting, and rounding down to milliseconds. Where the seconds of the
result do not wrap around (`FitsSeconds`), its fields are exact
(`timespec_exact`). A wait that is woken in time returns what is left of
its timeout (`wait_in_time`).
-/

namespace Dmx4Linux2

namespace Waitqueue

variable {x : ℤ} {tests : ℕ} {ts a b start now : Timespec}

/-! ## Words -/

/-- An unsigned word turned into a signed one wraps around. -/
theorem toInt64_eq_ofInt (u : UInt64) : u.toInt64 = Int64.ofInt u.toNat := by
  rw [Int64.ofInt_eq_ofNat, ← UInt64.toInt64_ofNat', UInt64.ofNat_toNat]

/-- A signed word turned into an unsigned one is a remainder. -/
theorem toNat_toUInt64_ofInt (x : ℤ) : ((Int64.ofInt x).toUInt64.toNat : ℤ) = x % 2 ^ 64 := by
  have hword : (Int64.ofInt x).toUInt64.toNat = (x % (2 ^ 64 : ℕ)).toNat := BitVec.toNat_ofInt x
  rw [hword]
  omega

/-- Division of a number that is not negative and fits into a word. -/
theorem ofInt_div (hx : 0 ≤ x) (hlt : x < 2 ^ 63) (n : ℤ) (hn : 0 < n) (hn' : n < 2 ^ 63) :
    Int64.ofInt x / Int64.ofInt n = Int64.ofInt (x / n) := by
  rw [← Int.tdiv_eq_ediv_of_nonneg hx]
  refine (Int64.ofInt_tdiv ?_ ?_ ?_ ?_).symm
  all_goals simp only [Int64.toInt_minValue, Int64.toInt_maxValue]; omega

theorem ofInt_mod (hx : 0 ≤ x) (hlt : x < 2 ^ 63) (n : ℤ) (hn : 0 < n) (hn' : n < 2 ^ 63) :
    Int64.ofInt x % Int64.ofInt n = Int64.ofInt (x % n) := by
  rw [← Int.tmod_eq_emod_of_nonneg hx]
  refine (Int64.ofInt_tmod ?_ ?_ ?_ ?_).symm
  all_goals simp only [Int64.toInt_minValue, Int64.toInt_maxValue]; omega

namespace Timespec

/-! ## Times as numbers -/

/-- The nanoseconds are less than a second. -/
def Normalized (ts : Timespec) : Prop := 0 ≤ ts.tvNsec.toInt ∧ ts.tvNsec.toInt < 10 ^ 9

instance : Decidable ts.Normalized := inferInstanceAs (Decidable (_ ∧ _))

/-- The number of nanoseconds a time stands for. -/
def nanoseconds (ts : Timespec) : ℤ := ts.tvSec.toInt * 10 ^ 9 + ts.tvNsec.toInt

/-- A number of nanoseconds whose seconds do not overflow. -/
def FitsSeconds (x : ℤ) : Prop := -2 ^ 63 ≤ x / 10 ^ 9 ∧ x / 10 ^ 9 < 2 ^ 63

instance : Decidable (FitsSeconds x) := inferInstanceAs (Decidable (_ ∧ _))

/-- The normalized time of a number of nanoseconds. -/
def ofNanoseconds (x : ℤ) : Timespec := ⟨Int64.ofInt (x / 10 ^ 9), Int64.ofInt (x % 10 ^ 9)⟩

theorem tvNsec_ofNanoseconds : (ofNanoseconds x).tvNsec.toInt = x % 10 ^ 9 :=
  Int64.toInt_ofInt_of_le (by omega) (by omega)

theorem normalized_ofNanoseconds : (ofNanoseconds x).Normalized := by
  rw [Normalized, tvNsec_ofNanoseconds]
  omega

/-- **Exact where the seconds do not overflow.** -/
theorem nanoseconds_ofNanoseconds (h : FitsSeconds x) : (ofNanoseconds x).nanoseconds = x := by
  have hsec : (ofNanoseconds x).tvSec.toInt = x / 10 ^ 9 := Int64.toInt_ofInt_of_le h.1 h.2
  rw [nanoseconds, hsec, tvNsec_ofNanoseconds]
  omega

/-- **A normalized time is the time of its number.** -/
theorem Normalized.eq_ofNanoseconds (h : ts.Normalized) : ts = ofNanoseconds ts.nanoseconds := by
  obtain ⟨hlow, hhigh⟩ := h
  have hsec : ts.nanoseconds / 10 ^ 9 = ts.tvSec.toInt := by rw [nanoseconds]; omega
  have hnsec : ts.nanoseconds % 10 ^ 9 = ts.tvNsec.toInt := by rw [nanoseconds]; omega
  rw [ofNanoseconds, hsec, hnsec, Int64.ofInt_toInt, Int64.ofInt_toInt]

/-! ## Adding milliseconds -/

/-- **Milliseconds are added**, whether they carry into the seconds or are
whole seconds. -/
theorem addMilliseconds_ofNanoseconds (x : ℤ) (m : UInt64) :
    (ofNanoseconds x).addMilliseconds m = ofNanoseconds (x + m.toNat * 10 ^ 6) := by
  have hsec : ((ofNanoseconds x).tvSec.toUInt64 + m / 1000).toInt64 =
      Int64.ofInt (x / 10 ^ 9 + m.toNat / 1000) := by
    rw [UInt64.toInt64_add, Int64.toInt64_toUInt64, toInt64_eq_ofInt, Int64.ofInt_add]
    rfl
  have hnsec : ((ofNanoseconds x).tvNsec.toUInt64 + m % 1000 * 1000000).toInt64 =
      Int64.ofInt (x % 10 ^ 9 + m.toNat % 1000 * 10 ^ 6) := by
    rw [UInt64.toInt64_add, UInt64.toInt64_mul, Int64.toInt64_toUInt64, toInt64_eq_ofInt,
      Int64.ofInt_add, Int64.ofInt_mul]
    rfl
  have hzero : m % 1000 ≠ 0 ↔ (m.toNat : ℤ) % 1000 ≠ 0 := by
    rw [Ne, ← UInt64.toNat_inj, UInt64.toNat_mod]
    have hlit : (1000 : UInt64).toNat = 1000 ∧ (0 : UInt64).toNat = 0 := ⟨rfl, rfl⟩
    rw [hlit.1, hlit.2]
    omega
  rw [addMilliseconds]
  simp only [hsec, hnsec]
  by_cases hm : m % 1000 ≠ 0
  · -- the nanoseconds are below two seconds, so at most one is carried
    rw [if_pos hm, show (1000000000 : Int64) = Int64.ofInt (10 ^ 9) from rfl,
      ofInt_div (by omega) (by omega) _ (by omega) (by omega),
      ofInt_mod (by omega) (by omega) _ (by omega) (by omega), ← Int64.ofInt_add, ofNanoseconds]
    congr 2 <;> omega
  · -- whole seconds leave the nanoseconds alone
    have hwhole := mt hzero.2 hm
    have hcarry : x / 10 ^ 9 + m.toNat / 1000 = (x + m.toNat * 10 ^ 6) / 10 ^ 9 := by omega
    have hsame : (ofNanoseconds x).tvNsec = (ofNanoseconds (x + m.toNat * 10 ^ 6)).tvNsec :=
      congrArg Int64.ofInt (by omega)
    rw [if_neg hm, hcarry, hsame]
    rfl

theorem Normalized.addMilliseconds (h : ts.Normalized) (m : UInt64) :
    ts.addMilliseconds m = ofNanoseconds (ts.nanoseconds + m.toNat * 10 ^ 6) := by
  rw [← addMilliseconds_ofNanoseconds, ← h.eq_ofNanoseconds]

/-! ## Subtracting -/

/-- Whether a second is borrowed. -/
theorem ofInt_neg_iff (hlow : -2 ^ 63 ≤ x) (hhigh : x < 2 ^ 63) : Int64.ofInt x < 0 ↔ x < 0 := by
  rw [Int64.lt_iff_toInt_lt, Int64.toInt_ofInt_of_le hlow hhigh, Int64.toInt_zero]

/-- One pass of the loop: a second goes over to the nanoseconds. -/
theorem borrow_step (hlow : -2 ^ 63 ≤ x) (hneg : x < 0) (s : ℤ) :
    borrow (tests + 1) ⟨Int64.ofInt s, Int64.ofInt x⟩ =
      borrow tests ⟨Int64.ofInt (s - 1), Int64.ofInt (x + 10 ^ 9)⟩ := by
  rw [borrow, if_pos ((ofInt_neg_iff hlow (by omega)).2 hneg), Int64.ofInt_sub, Int64.ofInt_add]
  rfl

/-- No pass, if there are nanoseconds. -/
theorem borrow_done (hlow : 0 ≤ x) (hhigh : x < 10 ^ 9) (s : ℤ) :
    borrow (tests + 1) ⟨Int64.ofInt s, Int64.ofInt x⟩ = some (ofNanoseconds (s * 10 ^ 9 + x)) := by
  have hnot := mt (ofInt_neg_iff (by omega) (by omega)).1 (by omega : ¬ x < 0)
  have hsec : (s * 10 ^ 9 + x) / 10 ^ 9 = s := by omega
  have hnsec : (s * 10 ^ 9 + x) % 10 ^ 9 = x := by omega
  rw [borrow, if_neg hnot, ofNanoseconds, hsec, hnsec]

/-- **The loop ends, and keeps the time**: it borrows as many seconds as
the nanoseconds are short of, and each pass keeps their number. -/
theorem borrow_ofInt (k : ℕ) (s : ℤ) (hlow : -2 ^ 63 ≤ x) (hk : -(k * 10 ^ 9) ≤ x)
    (hhigh : x < 10 ^ 9) (htests : k < tests) :
    borrow tests ⟨Int64.ofInt s, Int64.ofInt x⟩ = some (ofNanoseconds (s * 10 ^ 9 + x)) := by
  induction k generalizing s x tests with
  | zero =>
    obtain ⟨t, rfl⟩ := Nat.exists_eq_add_of_le' htests
    exact borrow_done (by omega) hhigh s
  | succ k ih =>
    obtain ⟨t, rfl⟩ := Nat.exists_eq_add_of_le' (by omega : 1 ≤ tests)
    by_cases hneg : x < 0
    · rw [borrow_step hlow hneg, ih (s - 1) (by omega) (by omega) (by omega) (by omega)]
      congr 2
      omega
    · exact borrow_done (by omega) hhigh s

/-- **Times are subtracted**: the loop is gone through once at most. -/
theorem sub_ofNanoseconds (x y : ℤ) (htests : 2 ≤ tests) :
    sub tests (ofNanoseconds x) (ofNanoseconds y) = some (ofNanoseconds (x - y)) := by
  have hrun := borrow_ofInt 1 (x / 10 ^ 9 - y / 10 ^ 9)
    (by omega : -2 ^ 63 ≤ x % 10 ^ 9 - y % 10 ^ 9) (by omega) (by omega) (by omega : 1 < tests)
  rw [Int64.ofInt_sub, Int64.ofInt_sub] at hrun
  refine Eq.trans hrun ?_
  congr 2
  omega

/-! ## Milliseconds -/

/-- **Milliseconds are rounded down**, up to the size of a word. -/
theorem toMilliseconds_ofNanoseconds (x : ℤ) :
    ((ofNanoseconds x).toMilliseconds.toNat : ℤ) = x / 10 ^ 6 % 2 ^ 64 := by
  have hmilli : (ofNanoseconds x).tvNsec / 1000000 + 1000 * (ofNanoseconds x).tvSec =
      Int64.ofInt (x / 10 ^ 6) := by
    have hsum : x / 10 ^ 6 = x % 10 ^ 9 / 10 ^ 6 + 1000 * (x / 10 ^ 9) := by omega
    rw [hsum, Int64.ofInt_add, Int64.ofInt_mul,
      ← ofInt_div (by omega) (by omega) _ (by omega) (by omega)]
    rfl
  rw [toMilliseconds, hmilli, toNat_toUInt64_ofInt]

/-! ## Normalized times -/

/-- What is left of `m` milliseconds when none have passed. -/
theorem toMilliseconds_milliseconds (m : UInt64) :
    (ofNanoseconds (m.toNat * 10 ^ 6)).toMilliseconds = m := by
  have hm := m.toNat_lt
  have hround := toMilliseconds_ofNanoseconds (m.toNat * 10 ^ 6)
  rw [← UInt64.toNat_inj]
  omega

theorem fitsSeconds_milliseconds (m : UInt64) : FitsSeconds (m.toNat * 10 ^ 6) := by
  have hm := m.toNat_lt
  rw [FitsSeconds]
  omega

/-- **The times of the wait queue are exact.** As long as the seconds do
not overflow, milliseconds are added and times are subtracted exactly,
with a normalized result, and the loop of the subtraction is left at the
second test at the latest. The milliseconds of a difference are rounded
down, up to the size of the word they are returned in; after `m`
milliseconds have been added, the difference is `m`. -/
theorem timespec_exact (ha : a.Normalized) (hb : b.Normalized) (m : UInt64) :
    (FitsSeconds (a.nanoseconds + m.toNat * 10 ^ 6) →
      (a.addMilliseconds m).Normalized ∧
        (a.addMilliseconds m).nanoseconds = a.nanoseconds + m.toNat * 10 ^ 6 ∧
        ∃ d, (∀ tests, 2 ≤ tests → sub tests (a.addMilliseconds m) a = some d) ∧
          d.Normalized ∧ d.nanoseconds = m.toNat * 10 ^ 6 ∧ d.toMilliseconds = m) ∧
    ∃ d, (∀ tests, 2 ≤ tests → sub tests a b = some d) ∧ d.Normalized ∧
      (FitsSeconds (a.nanoseconds - b.nanoseconds) →
        d.nanoseconds = a.nanoseconds - b.nanoseconds ∧
        (d.toMilliseconds.toNat : ℤ) = d.nanoseconds / 10 ^ 6 % 2 ^ 64 ∧
        (0 ≤ d.nanoseconds → d.nanoseconds / 10 ^ 6 < 2 ^ 64 →
          (d.toMilliseconds.toNat : ℤ) = d.nanoseconds / 10 ^ 6)) := by
  have hadd := ha.addMilliseconds m
  have hsub (tests : ℕ) (htests : 2 ≤ tests) :
      sub tests a b = some (ofNanoseconds (a.nanoseconds - b.nanoseconds)) := by
    rw [← sub_ofNanoseconds _ _ htests, ← ha.eq_ofNanoseconds, ← hb.eq_ofNanoseconds]
  refine ⟨fun hfits => ⟨?_, ?_, ofNanoseconds (m.toNat * 10 ^ 6), fun tests htests => ?_, ?_⟩,
    ofNanoseconds (a.nanoseconds - b.nanoseconds), hsub, normalized_ofNanoseconds,
    fun hfits => ?_⟩
  · rw [hadd]
    exact normalized_ofNanoseconds
  · rw [hadd, nanoseconds_ofNanoseconds hfits]
  · have hback := sub_ofNanoseconds (a.nanoseconds + m.toNat * 10 ^ 6) a.nanoseconds htests
    rw [← hadd, ← ha.eq_ofNanoseconds] at hback
    rw [hback]
    congr 2
    omega
  · exact ⟨normalized_ofNanoseconds, nanoseconds_ofNanoseconds (fitsSeconds_milliseconds m),
      toMilliseconds_milliseconds m⟩
  · have hround := toMilliseconds_ofNanoseconds (a.nanoseconds - b.nanoseconds)
    rw [nanoseconds_ofNanoseconds hfits]
    refine ⟨rfl, hround, fun hnonneg hlt => ?_⟩
    rw [hround, Int.emod_eq_of_lt (by omega) hlt]

/-- Almost three seconds are added, and a second is borrowed. -/
theorem timespec_exact_borrow :
    (⟨5, 0⟩ : Timespec).Normalized ∧ (⟨3, 1⟩ : Timespec).Normalized ∧
      (addMilliseconds ⟨5, 0⟩ 2999).nanoseconds = 7999000000 ∧
      ∃ d, (∀ tests, 2 ≤ tests → sub tests ⟨5, 0⟩ ⟨3, 1⟩ = some d) ∧
        d.nanoseconds = 1999999999 ∧ d.toMilliseconds.toNat = 1999 := by
  have ha : (⟨5, 0⟩ : Timespec).Normalized := by decide
  have hb : (⟨3, 1⟩ : Timespec).Normalized := by decide
  obtain ⟨hadd, d, hsub, -, hexact⟩ := timespec_exact ha hb 2999
  obtain ⟨-, hsum, -⟩ := hadd (by decide)
  obtain ⟨hdiff, -, hmilli⟩ := hexact (by decide)
  have hns : d.nanoseconds = 1999999999 := hdiff.trans (by decide)
  rw [hns] at hmilli
  have hround := hmilli (by decide) (by decide)
  exact ⟨ha, hb, hsum.trans (by decide), d, hsub, hns, by omega⟩

end Timespec

/-! ## What is left of a timeout -/

open Timespec

/-- The milliseconds as an `int`. -/
theorem toInt_toMilliseconds (x : ℤ) :
    (ofNanoseconds x).toMilliseconds.toUInt32.toInt32.toInt = (x / 10 ^ 6).bmod (2 ^ 32) := by
  have hround := toMilliseconds_ofNanoseconds x
  have hword : (ofNanoseconds x).toMilliseconds.toUInt32.toInt32.toInt =
      ((ofNanoseconds x).toMilliseconds.toUInt32.toNat : ℤ).bmod (2 ^ 32) :=
    BitVec.toInt_eq_toNat_bmod _
  have hmod : ((ofNanoseconds x).toMilliseconds.toUInt32.toNat : ℤ) =
      x / 10 ^ 6 % (2 ^ 32 : ℕ) := by
    rw [UInt64.toNat_toUInt32]
    omega
  rw [hword, hmod, Int.emod_bmod]

/-- **A wait that is woken returns what is left of its timeout**, rounded
down to milliseconds, up to the size of an `int`. -/
theorem wait_left (hstart : start.Normalized) (hnow : now.Normalized) (htests : 2 ≤ tests)
    (timeout : UInt64) :
    waitEventInterruptibleTimeout tests start now 0 timeout =
      some (Int32.ofInt
        ((start.nanoseconds + timeout.toNat * 10 ^ 6 - now.nanoseconds) / 10 ^ 6)) := by
  have hsub := sub_ofNanoseconds (start.nanoseconds + timeout.toNat * 10 ^ 6) now.nanoseconds htests
  rw [← hstart.addMilliseconds, ← hnow.eq_ofNanoseconds] at hsub
  rw [waitEventInterruptibleTimeout, if_pos rfl, hsub, Option.map_some, Option.some_inj,
    ← Int32.toInt_inj, toInt_toMilliseconds]
  exact Int32.toInt_ofInt.symm

/-- **Woken in time, a wait returns no more than its timeout**, and nothing
negative; with less than a millisecond left it returns what a timeout
does. -/
theorem wait_in_time (hstart : start.Normalized) (hnow : now.Normalized) (htests : 2 ≤ tests)
    {timeout : UInt64} (htimeout : timeout.toNat < 2 ^ 31)
    (hafter : start.nanoseconds ≤ now.nanoseconds)
    (hbefore : now.nanoseconds ≤ start.nanoseconds + timeout.toNat * 10 ^ 6) :
    ∃ ret, waitEventInterruptibleTimeout tests start now 0 timeout = some ret ∧
      0 ≤ ret.toInt ∧ ret.toInt ≤ timeout.toNat ∧
      (ret = 0 ↔ start.nanoseconds + timeout.toNat * 10 ^ 6 < now.nanoseconds + 10 ^ 6) := by
  refine ⟨_, wait_left hstart hnow htests timeout, ?_⟩
  rw [← Int32.toInt_inj, Int32.toInt_ofInt_of_le (by omega) (by omega), Int32.toInt_zero]
  omega

end Waitqueue

end Dmx4Linux2
