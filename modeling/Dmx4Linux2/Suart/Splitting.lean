import Dmx4Linux2.Suart.Encoding
import Mathlib.Algebra.Order.Floor.Div

/-!
# suart — splitting data into events

`suart_event_data_inline` takes as many events as the octets need, and is
to give up before that if the array has fewer. Its loop does the first
for every number of octets (`inlineEvents_pieces`). The test in front of
it counts the events in another way: it rounds `count / 14` to the nearest
number instead of up, so that with one to seven octets over, the array
may be one event short of what the loop stores. `splits_iff` says when
the test and the loop agree; `dmx512suart_create_frame` rounds up before
it calls the function and is not affected.
-/

namespace Dmx4Linux2

namespace Suart

variable {maxevents count : Int32}

/-! ## What the splitting is for -/

/-- The octets in pieces of one to fourteen, in as few events as that
takes. -/
structure Pieces (octets : List UInt8) (es : List Event) : Prop where
  length : es.length = octets.length ⌈/⌉ 14
  inline : ∀ e ∈ es, ∃ chunk, e = .dataInline chunk ∧ 1 ≤ chunk.octets.length ∧
    chunk.octets.length ≤ 14
  data : dataOctets es = octets

/-- **What the splitting is for**: no event and -1 if the events are too
few, and otherwise the octets in pieces and the number of their events. -/
def Splits (maxevents : ℤ) (octets : List UInt8) (r : List Event × Int32) : Prop :=
  if maxevents < (octets.length ⌈/⌉ 14 : ℕ) then r = ([], -1)
  else Pieces octets r.1 ∧ r.2.toInt = (octets.length ⌈/⌉ 14 : ℕ)

/-- **The loop splits the octets**, whatever their number. -/
theorem inlineEvents_pieces (octets : List UInt8) : Pieces octets (inlineEvents octets) where
  length := by
    rw [length_inlineEvents, Nat.ceilDiv_eq_add_pred_div]
    rfl
  inline := fun _ he => mem_inlineEvents he
  data := dataOctets_inlineEvents octets

/-! ## The test -/

theorem toNatClampNeg_count (hcount : 0 ≤ count) : (count.toNatClampNeg : ℤ) = count.toInt := by
  rw [Int32.le_iff_toInt_le, Int32.toInt_zero] at hcount
  exact Int.toNat_of_nonneg hcount

/-- The number of events that the octets take. -/
theorem ceilDiv_count (hcount : 0 ≤ count) (data : Mem) :
    ((data.read 0 count.toNatClampNeg).length ⌈/⌉ 14 : ℕ) = (count.toInt + 13) / 14 := by
  have hlength := toNatClampNeg_count hcount
  have hceil : (data.read 0 count.toNatClampNeg).length ⌈/⌉ 14 =
      (count.toNatClampNeg + 13) / 14 := by
    rw [Mem.length_read, Nat.ceilDiv_eq_add_pred_div]
    rfl
  omega

/-- When the test in front of the loop gives up. -/
theorem test_iff (hmax : 0 ≤ maxevents) (hcount : 0 ≤ count) :
    (count + 6) / Int32.ofNat octetsPerInlineDataChunk > maxevents ↔
      count.toInt + 6 < 2 ^ 31 ∧ maxevents.toInt < (count.toInt + 6) / 14 := by
  rw [Int32.le_iff_toInt_le, Int32.toInt_zero] at hmax hcount
  have hhigh := count.toInt_lt
  have hsix : (6 : Int32).toInt = 6 := rfl
  have hchunk : (Int32.ofNat octetsPerInlineDataChunk).toInt = 14 := rfl
  rw [gt_iff_lt, Int32.lt_iff_toInt_lt, Int32.toInt_div_of_ne_right _ _ (by decide), hchunk,
    Int32.toInt_add, hsix]
  by_cases hfits : count.toInt + 6 < 2 ^ 31
  · rw [Int.bmod_eq_of_le_mul_two (by omega) (by omega), Int.tdiv_eq_ediv_of_nonneg (by omega)]
    omega
  · -- the sum is negative, and nothing is less than no event
    have hwrapped : (count.toInt + 6).bmod (2 ^ 32) = count.toInt + 6 - 2 ^ 32 := by
      rw [Int.bmod_eq_emod, if_pos (by omega)]
      omega
    have hquot := Int.tdiv_nonneg (by omega : 0 ≤ 2 ^ 32 - 6 - count.toInt) (by omega : 0 ≤ (14 : ℤ))
    rw [hwrapped, show count.toInt + 6 - 2 ^ 32 = -(2 ^ 32 - 6 - count.toInt) by omega,
      Int.neg_tdiv]
    omega

/-- The two outcomes of the function. -/
theorem suartEventDataInline_cases (hmax : 0 ≤ maxevents) (hcount : 0 ≤ count) (data : Mem) :
    suartEventDataInline maxevents data count =
      if count.toInt + 6 < 2 ^ 31 ∧ maxevents.toInt < (count.toInt + 6) / 14 then ([], -1)
      else (inlineEvents (data.read 0 count.toNatClampNeg),
        Int32.ofNat (inlineEvents (data.read 0 count.toNatClampNeg)).length) := by
  rw [suartEventDataInline]
  simp only [test_iff hmax hcount]

/-- Below the counts where the sum wraps around, the function is the one
on integers that `dmx512suart_create_frame` is made of. -/
theorem suartEventDataInline_eq_store (hmax : 0 ≤ maxevents) (hcount : 0 ≤ count) (data : Mem)
    (hfits : count.toInt + 6 < 2 ^ 31) :
    storeDataInline maxevents.toInt (data.read 0 count.toNatClampNeg) count.toInt =
      ((suartEventDataInline maxevents data count).1,
        (suartEventDataInline maxevents data count).2.toInt) := by
  rw [suartEventDataInline_cases hmax hcount]
  have hlength := toNatClampNeg_count hcount
  have hquot : (count.toInt + 6).tdiv 14 = (count.toInt + 6) / 14 :=
    Int.tdiv_eq_ediv_of_nonneg (by omega)
  by_cases hmore : maxevents.toInt < (count.toInt + 6) / 14
  · rw [if_pos ⟨hfits, hmore⟩, storeDataInline, octetsPerInlineDataChunk,
      if_pos (by simpa [hquot] using hmore)]
    rfl
  · have hle : (count.toInt + 6).tdiv 14 ≤ maxevents.toInt := by omega
    rw [if_neg (fun h => hmore h.2), storeDataInline_of_le hle, Int32.toInt_ofNat_of_lt]
    rw [length_inlineEvents, Mem.length_read]
    omega

/-- The octets are split as they should be iff the test gives up where the
events are too few. -/
theorem splits_iff_test (hmax : 0 ≤ maxevents) (hcount : 0 ≤ count) (data : Mem) :
    Splits maxevents.toInt (data.read 0 count.toNatClampNeg)
        (suartEventDataInline maxevents data count) ↔
      (maxevents.toInt < (count.toInt + 13) / 14 →
        count.toInt + 6 < 2 ^ 31 ∧ maxevents.toInt < (count.toInt + 6) / 14) := by
  have hpieces := inlineEvents_pieces (data.read 0 count.toNatClampNeg)
  have hnumber := ceilDiv_count hcount data
  have hhigh := count.toInt_lt
  rw [suartEventDataInline_cases hmax hcount, Splits, hpieces.length, hnumber]
  rw [Int32.le_iff_toInt_le, Int32.toInt_zero] at hmax
  by_cases htest : count.toInt + 6 < 2 ^ 31 ∧ maxevents.toInt < (count.toInt + 6) / 14
  · -- giving up is right: the test never asks for more events than the loop
    rw [if_pos htest, if_pos (by omega)]
    exact ⟨fun _ _ => htest, fun _ => rfl⟩
  · rw [if_neg htest]
    by_cases hfew : maxevents.toInt < (count.toInt + 13) / 14
    · rw [if_pos hfew]
      refine ⟨fun hnone => ?_, fun hgives => absurd (hgives hfew) htest⟩
      -- the loop stores an event that there is no space for
      have hempty : (inlineEvents (data.read 0 count.toNatClampNeg)).length = 0 :=
        congrArg (fun r => r.1.length) hnone
      rw [hpieces.length] at hempty
      omega
    · rw [if_neg hfew]
      refine ⟨fun _ hfew' => absurd hfew' hfew, fun _ => ⟨hpieces, ?_⟩⟩
      rw [Int32.toInt_ofNat_of_lt (by omega), hnumber]

/-- **When the octets are split as they should be**: not if there is one
event for each fourteen octets, and one to seven octets are over. Where
the sum of the test wraps around, it never gives up, so the events have to
be enough. -/
theorem splits_iff (hmax : 0 ≤ maxevents) (hcount : 0 ≤ count) (data : Mem) :
    Splits maxevents.toInt (data.read 0 count.toNatClampNeg)
        (suartEventDataInline maxevents data count) ↔
      if count.toInt + 6 < 2 ^ 31 then
        ¬ (maxevents.toInt = count.toInt / 14 ∧ 1 ≤ count.toInt % 14 ∧ count.toInt % 14 ≤ 7)
      else (count.toInt + 13) / 14 ≤ maxevents.toInt := by
  rw [splits_iff_test hmax hcount]
  by_cases hfits : count.toInt + 6 < 2 ^ 31
  · rw [if_pos hfits]
    omega
  · rw [if_neg hfits]
    omega

/-- Two events are enough for twenty-eight octets. -/
theorem splits_iff_twentyEight :
    Splits 2 (Mem.read (fun _ => 0) 0 28) (suartEventDataInline 2 (fun _ => 0) 28) := by
  have hsplits := splits_iff (by decide : (0 : Int32) ≤ 2) (by decide : (0 : Int32) ≤ 28) fun _ => 0
  rw [show (2 : Int32).toInt = 2 from rfl, show (28 : Int32).toInt = 28 from rfl,
    show (28 : Int32).toNatClampNeg = 28 from rfl] at hsplits
  exact hsplits.2 (by decide)

/-- Fifteen octets are split into two events, though there is one. -/
theorem splits_fifteen :
    (suartEventDataInline 1 (fun _ => 0) 15).1.length = 2 ∧
      (suartEventDataInline 1 (fun _ => 0) 15).2 = 2 ∧
      ¬ Splits 1 (Mem.read (fun _ => 0) 0 15) (suartEventDataInline 1 (fun _ => 0) 15) := by
  have hlength : (inlineEvents (Mem.read (fun _ => 0) 0 15)).length = 2 := by
    rw [length_inlineEvents, Mem.length_read]
  have hcases := suartEventDataInline_cases (by decide : (0 : Int32) ≤ 1)
    (by decide : (0 : Int32) ≤ 15) fun _ => 0
  have htest := splits_iff_test (by decide : (0 : Int32) ≤ 1) (by decide : (0 : Int32) ≤ 15)
    fun _ => 0
  rw [show (1 : Int32).toInt = 1 from rfl, show (15 : Int32).toInt = 15 from rfl,
    show (15 : Int32).toNatClampNeg = 15 from rfl] at hcases htest
  refine ⟨?_, ?_, fun h => absurd (htest.1 h (by decide)) (by decide)⟩
  · rw [hcases, if_neg (by decide), hlength]
  · rw [hcases, if_neg (by decide), hlength]
    rfl

end Suart

end Dmx4Linux2
