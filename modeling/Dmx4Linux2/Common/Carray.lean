import Mathlib.Data.List.Basic
import Mathlib.Logic.Function.Basic

/-!
# Arrays and strings of C

A loop over an array whose every step changes its own entry only is the
same as changing each entry by itself (`updateEach_eq_some_iff`), a step
that fails included. A string in a `char` array ends before its first zero
byte, or with the array; `strcpy` and `strncpy` are what they do to the
string in the array they write to.
-/

namespace Dmx4Linux2

/-! ## Loops over an array -/

section Loops

variable {ι α : Type*} [DecidableEq ι] {f : ι → α → Option α} {a a' : ι → α} {l : List ι}

/-- The loop over the entries of the list, in order. -/
def updateEach (f : ι → α → Option α) (l : List ι) (a : ι → α) : Option (ι → α) :=
  l.foldlM (fun a i => (f i (a i)).map (Function.update a i)) a

theorem updateEach_cons (i : ι) : updateEach f (i :: l) a =
    (f i (a i)).bind fun x => updateEach f l (Function.update a i x) := by
  cases hx : f i (a i) with
  | none => simp [updateEach, List.foldlM_cons, hx]
  | some x => simp [updateEach, List.foldlM_cons, hx]

/-- **The loop, entry by entry**: those of the list are changed, each once,
and the others stay. -/
theorem updateEach_eq_some_iff (hl : l.Nodup) : updateEach f l a = some a' ↔
    (∀ i ∈ l, f i (a i) = some (a' i)) ∧ ∀ i ∉ l, a' i = a i := by
  induction l generalizing a with
  | nil => simp [updateEach, funext_iff, eq_comm]
  | cons i l ih =>
    obtain ⟨hi, hl⟩ := List.nodup_cons.1 hl
    rw [updateEach_cons, Option.bind_eq_some_iff]
    constructor
    · rintro ⟨x, hx, hrest⟩
      obtain ⟨hin, hout⟩ := (ih hl).1 hrest
      -- the rest of the loop does not come to `i` again
      have hai : a' i = x := by rw [hout i hi, Function.update_self]
      refine ⟨fun j hj => ?_, fun j hj => ?_⟩
      · rcases List.mem_cons.1 hj with rfl | hjl
        · rw [hx, hai]
        · have hne : j ≠ i := by
            rintro rfl
            exact hi hjl
          rw [← hin j hjl, Function.update_of_ne hne]
      · rw [List.mem_cons, not_or] at hj
        rw [hout j hj.2, Function.update_of_ne hj.1]
    · rintro ⟨hin, hout⟩
      refine ⟨a' i, hin i (List.mem_cons_self ..), (ih hl).2 ⟨fun j hj => ?_, fun j hj => ?_⟩⟩
      · have hne : j ≠ i := by
          rintro rfl
          exact hi hj
        rw [Function.update_of_ne hne, hin j (List.mem_cons_of_mem _ hj)]
      · by_cases hne : j = i
        · subst hne
          rw [Function.update_self]
        · rw [Function.update_of_ne hne, hout j]
          rw [List.mem_cons, not_or]
          exact ⟨hne, hj⟩

/-- A loop none of whose steps fails. -/
theorem updateEach_of_forall {g : ι → α} (hl : l.Nodup) (h : ∀ i ∈ l, f i (a i) = some (g i)) :
    updateEach f l a = some fun i => if i ∈ l then g i else a i := by
  refine (updateEach_eq_some_iff hl).2 ⟨fun i hi => ?_, fun i hi => if_neg hi⟩
  rw [if_pos hi, h i hi]

theorem updateEach_some (hl : l.Nodup) (g : ι → α → α) :
    updateEach (fun i x => some (g i x)) l a =
      some fun i => if i ∈ l then g i (a i) else a i :=
  updateEach_of_forall (f := fun i x => some (g i x)) hl fun _ _ => rfl

end Loops

/-! ## Strings -/

/-- The string in an array. -/
def cstr (bs : List UInt8) : List UInt8 := bs.takeWhile (· ≠ 0)

/-- A literal, without the zero byte behind it. -/
def literal (s : String) : List UInt8 := s.toList.map fun c => UInt8.ofNat c.toNat

/-- The array after `strcpy(dst, s)`, for a string shorter than it. -/
def strcpy (dst s : List UInt8) : List UInt8 := s ++ 0 :: dst.drop (s.length + 1)

/-- The array of `n` bytes after `strncpy(dst, src, n)`: what the string
leaves of it is zero. -/
def strncpy (n : ℕ) (src : List UInt8) : List UInt8 :=
  (cstr src).take n ++ List.replicate (n - (cstr src).length) 0

variable {bs cs dst s : List UInt8} {n : ℕ}

theorem length_strcpy (h : s.length < dst.length) : (strcpy dst s).length = dst.length := by
  simp [strcpy]
  omega

theorem length_strncpy : (strncpy n bs).length = n := by
  simp [strncpy]
  omega

/-- Bytes without a zero go into the string with what comes behind. -/
theorem cstr_append_of_not_mem (h : 0 ∉ bs) : cstr (bs ++ cs) = bs ++ cstr cs := by
  refine List.takeWhile_append_of_pos fun b hb => ?_
  have hne : b ≠ 0 := by
    rintro rfl
    exact h hb
  simpa using hne

theorem cstr_of_not_mem (h : 0 ∉ bs) : cstr bs = bs := by
  have happend : cstr (bs ++ []) = bs ++ cstr [] := cstr_append_of_not_mem h
  simpa [cstr] using happend

/-- With a zero it does not matter what comes behind. -/
theorem cstr_append_of_mem (h : 0 ∈ bs) : cstr (bs ++ cs) = cstr bs := by
  induction bs with
  | nil => cases h
  | cons b bs ih =>
    by_cases hb : b = 0
    · simp [cstr, hb]
    · have hmem : 0 ∈ bs := by simpa [eq_comm, hb] using h
      rw [cstr, cstr, List.cons_append, List.takeWhile_cons_of_pos (by simpa using hb),
        List.takeWhile_cons_of_pos (by simpa using hb)]
      exact congrArg (b :: ·) (ih hmem)

theorem not_mem_cstr : 0 ∉ cstr bs := by
  intro h
  have hall := List.all_takeWhile (l := bs) (p := (· ≠ 0))
  rw [List.all_eq_true] at hall
  simpa using hall 0 h

@[simp] theorem cstr_zero_cons : cstr (0 :: bs) = [] := by simp [cstr]

theorem cstr_cons_eq_nil_iff {b : UInt8} : cstr (b :: bs) = [] ↔ b = 0 := by
  by_cases hb : b = 0 <;> simp [cstr, hb]

/-- The string in the array is then the one copied, -/
theorem cstr_strcpy (h : 0 ∉ s) : cstr (strcpy dst s) = s := by
  rw [strcpy, cstr_append_of_not_mem h, cstr_zero_cons, List.append_nil]

/-- or its first `n` bytes. -/
theorem cstr_strncpy : cstr (strncpy n bs) = (cstr bs).take n := by
  have hnot : 0 ∉ (cstr bs).take n := fun h => not_mem_cstr (List.mem_of_mem_take h)
  -- the string ends with the zeros, or with the array if there are none
  have hrest : ∀ k, cstr (List.replicate k 0) = [] := by
    intro k
    cases k <;> simp [cstr]
  rw [strncpy, cstr_append_of_not_mem hnot, hrest, List.append_nil]

end Dmx4Linux2
