import Dmx4Linux2.Common.Run
import Dmx4Linux2.Cuse.CardInfo
import Dmx4Linux2.Cuse.Model.PortInfo

/-!
# CUSE drivers — the labels of the ports

The loop device keeps a label for each of its ports. `label_store_iff`
says when its calls do that and nothing else: when no port has a negative
index, which is found to be less than the number of ports and leads to
the memory in front of the labels, and no label has 64 characters, which
leaves no space for the zero byte behind it.
-/

namespace Dmx4Linux2

namespace Cuse

variable {cardno p idx : ℤ} {user : Around} {info : PortInfo}

/-! ## A store of labels -/

/-- There is a port of this index. -/
def InRange (user : Around) (p : ℤ) : Prop := 0 ≤ p ∧ p < numPorts user

instance : Decidable (InRange user p) := inferInstanceAs (Decidable (_ ∧ _))

/-- The label a client gives to a port: that of the last tuple with the
key for it. -/
def PortInfo.given (info : PortInfo) : Option (List UInt8) :=
  ((info.list.filter (·.key = idPortLabel)).getLast?).map fun t => cstr t.value

inductive PortCall
  | query (portIndex : ℤ) (info : PortInfo)
  | change (portIndex : ℤ) (info : PortInfo)

/-- A card, and the labels its ports should have. -/
structure Labelled where
  user : Around
  labels : ℤ → List UInt8

namespace Labelled

variable {m : Labelled}

/-- The change is one that the card has to make. -/
def Accepts (m : Labelled) (cardno portIndex : ℤ) (info : PortInfo) : Prop :=
  InRange m.user portIndex ∧ info.cardIndex = cardno ∧ info.portIndex = portIndex

instance : Decidable (m.Accepts cardno idx info) := inferInstanceAs (Decidable (_ ∧ _))

/-- The labels after a change: a label has at most 63 characters. -/
def relabel (m : Labelled) (cardno portIndex : ℤ) (info : PortInfo) :
    ℤ → List UInt8 :=
  if m.Accepts cardno portIndex info then
    Function.update m.labels portIndex ((info.given.map (·.take 63)).getD (m.labels portIndex))
  else m.labels

def step (cardno : ℤ) (m : Labelled) : PortCall → Labelled
  | .query .. => m
  | .change portIndex info =>
    ⟨(testdmxChangePortInfo cardno (some m.user) info portIndex).2.getD m.user,
      m.relabel cardno portIndex info⟩

/-- **The card has the labels**, and nothing else of it has changed. The
label is the string that a query copies. -/
structure Kept (start : Around) (m : Labelled) : Prop where
  labels : ∀ p, InRange m.user p → cstr (m.user.read (labelAt p) 256) = m.labels p
  fields : ∀ i, i < labelAt 0 ∨ labelAt (numPorts start) ≤ i → m.user i = start i

/-- A tuple that is asked for the label is returned with it. -/
def Answers (labels : ℤ → List UInt8) (portIndex : ℤ) (info answer : PortInfo) : Prop :=
  ∀ ts ∈ info.present, ∃ ts' ∈ answer.present, ∀ i : ℕ, i < info.tupleCount →
    ((ts i).key = idPortLabel ∨ i = 0 ∧ (ts i).key = idNone) →
      (ts' i).key = idPortLabel ∧ cstr (ts' i).value = labels portIndex ∧ 0 ∈ (ts' i).value

/-- **The call does what it is for**: for a port that is not there it
fails and changes nothing; a query returns the label, with a zero byte
behind it, and a change leaves everything alone but the label of its
port. -/
def Good (cardno : ℤ) (m : Labelled) : PortCall → Prop
  | .query portIndex info =>
    (InRange m.user portIndex → ∃ answer,
      testdmxQueryPortInfo cardno (some m.user) info portIndex = some (0, answer) ∧
        Answers m.labels portIndex info answer) ∧
    (¬ InRange m.user portIndex →
      testdmxQueryPortInfo cardno (some m.user) info portIndex = some (-1, info))
  | .change portIndex info =>
    (InRange m.user portIndex →
      ((testdmxChangePortInfo cardno (some m.user) info portIndex).1 = 0 ↔
        m.Accepts cardno portIndex info) ∧
      ∀ i, i < labelAt portIndex ∨ labelAt portIndex + 64 ≤ i →
        (m.step cardno (.change portIndex info)).user i = m.user i) ∧
    (¬ InRange m.user portIndex →
      testdmxChangePortInfo cardno (some m.user) info portIndex = (-1, some m.user))

/-- **The call is harmless**: the index is not negative, and the label
has at most 63 characters. A change for another card, or with two
different indices, is refused in any case. -/
def Harmless (cardno : ℤ) (m : Labelled) : PortCall → Prop
  | .query portIndex _ => 0 ≤ portIndex
  | .change portIndex info => info.cardIndex = cardno → info.portIndex = portIndex →
    0 ≤ portIndex ∧ (portIndex < numPorts m.user → ∀ s ∈ info.given, s.length ≤ 63)

end Labelled

/-! ## What the functions do -/

/-- The loop leaves what the last tuple with the key says. -/
theorem testdmxChangeLabels_eq (user : Around) (p : ℤ) (ts : List KeyValueTuple) :
    testdmxChangeLabels user p ts =
      ((ts.filter (·.key = idPortLabel)).getLast?.map fun t =>
        user.write (labelAt p) (strncpy 64 t.value)).getD user := by
  induction ts using List.reverseRecOn with
  | nil => rfl
  | append_singleton ts t ih =>
    have hlast : testdmxChangeLabels user p (ts ++ [t]) =
        if t.key = idPortLabel then
          (testdmxChangeLabels user p ts).write (labelAt p) (strncpy 64 t.value)
        else testdmxChangeLabels user p ts := by
      simp only [testdmxChangeLabels, List.foldl_append, List.foldl_cons, List.foldl_nil]
    rw [hlast, List.filter_append]
    by_cases hkey : t.key = idPortLabel
    · rw [if_pos hkey, ih, List.filter_singleton]
      simp only [hkey, decide_true, cond_true, List.getLast?_append, List.getLast?_singleton,
        Option.some_or, Option.map_some, Option.getD_some]
      cases (ts.filter (·.key = idPortLabel)).getLast? with
      | none => rfl
      | some t' => exact Around.write_write (by rw [length_strncpy, length_strncpy])
    · rw [if_neg hkey, ih, List.filter_singleton]
      simp [hkey]

/-- A call for a port that may be there gets past the check. -/
theorem change_of_lt (cardno : ℤ) (info : PortInfo) (h : idx < numPorts user ∧ idx < 16) :
    testdmxChangePortInfo cardno (some user) info idx =
      if info.cardIndex = cardno ∧ info.portIndex = idx then
        (0, some (testdmxChangeLabels user idx info.list))
      else (-1, some user) := by
  simp only [testdmxChangePortInfo]
  rw [if_neg (by omega)]
  by_cases hcard : info.cardIndex = cardno
  · by_cases hport : info.portIndex = idx <;> simp [hcard, hport]
  · simp [hcard]

/-- The tuple as a query returns it. -/
def answered (user : Around) (p : ℤ) (i : ℕ) (t : KeyValueTuple) : KeyValueTuple :=
  testdmxFillPort user p (if i < 1 then asked testdmxPortSupported i t else t)

/-- And a query that gets past the check returns 0. -/
theorem query_of_lt (cardno : ℤ) (info : PortInfo) (h : idx < numPorts user ∧ idx < 16) :
    ∃ answer, testdmxQueryPortInfo cardno (some user) info idx = some (0, answer) ∧
      ∀ ts ∈ info.present, answer.present = some fun i =>
        if i < info.tupleCount.toNat then answered user idx i (ts i) else ts i := by
  simp only [testdmxQueryPortInfo]
  rw [if_neg (by omega)]
  have hpresent : PortInfo.present { info with cardIndex := cardno, portIndex := idx } =
      info.present := rfl
  rw [hpresent]
  cases hts : info.present with
  | none => exact ⟨_, rfl, by simp⟩
  | some ts =>
    have hcount : 0 < info.tupleCount := by
      have hsome := Option.filter_eq_some_iff.1 hts
      simpa using hsome.2
    have hreplace := updateEach_of_forall (f := replaceNone testdmxPortSupported) (a := ts)
      (l := (List.range info.tupleCount.toNat).filter (· < testdmxPortSupported.length))
      (g := fun i => asked testdmxPortSupported i (ts i)) (List.nodup_range.filter _)
      fun i hi => replaceNone_eq_some (Or.inl (by simpa using (List.mem_filter.1 hi).2))
    simp only [hreplace, Option.bind_eq_bind, Option.bind_some,
      updateEach_some (List.nodup_range (n := info.tupleCount.toNat))]
    refine ⟨_, rfl, fun ts' hts' => ?_⟩
    obtain rfl : ts = ts' := by simpa using hts'
    simp only [PortInfo.present, hcount, decide_true, Option.filter_some, if_true, answered,
      Option.some.injEq]
    funext i
    by_cases hi : i < info.tupleCount.toNat
    · simp [hi, testdmxPortSupported]
    · simp [hi]

/-! ## The labels in memory -/

/-- A label with a zero byte in its 64 is read back, whatever is behind
it; -/
theorem cstr_read_of_mem (h : 0 ∈ user.read (labelAt p) 64) :
    cstr (user.read (labelAt p) 256) = cstr (user.read (labelAt p) 64) := by
  have hsplit : user.read (labelAt p) (64 + 192) =
      user.read (labelAt p) 64 ++ user.read (labelAt p + 64) 192 := Around.read_add
  rw [show (256 : ℕ) = 64 + 192 from rfl, hsplit, cstr_append_of_mem h]

/-- one of 64 characters or more is not cut. -/
theorem le_length_cstr_read (user : Around) (p : ℤ) {bs : List UInt8}
    (h : 64 ≤ (cstr bs).length) :
    64 ≤ (cstr ((user.write (labelAt p) (strncpy 64 bs)).read (labelAt p) 256)).length := by
  have hnot : 0 ∉ (cstr bs).take 64 := fun hmem => not_mem_cstr (List.mem_of_mem_take hmem)
  have hfull : strncpy 64 bs = (cstr bs).take 64 := by
    rw [strncpy, Nat.sub_eq_zero_of_le h, List.replicate_zero, List.append_nil]
  have hsplit : (user.write (labelAt p) (strncpy 64 bs)).read (labelAt p) (64 + 192) =
      (user.write (labelAt p) (strncpy 64 bs)).read (labelAt p) 64 ++
        (user.write (labelAt p) (strncpy 64 bs)).read (labelAt p + 64) 192 := Around.read_add
  rw [show (256 : ℕ) = 64 + 192 from rfl, hsplit, Around.read_write length_strncpy, hfull,
    cstr_append_of_not_mem hnot, List.length_append, List.length_take]
  omega

/-- The labels of two ports do not overlap. -/
theorem labelAt_apart {q : ℤ} (h : q ≠ p) : labelAt q + 64 ≤ labelAt p ∨ labelAt p + 64 ≤ labelAt q := by
  unfold labelAt
  omega

/-- The number of ports is in front of the labels. -/
theorem numPorts_congr {user' : Around} (h : ∀ i, i < labelAt 0 → user' i = user i) :
    numPorts user' = numPorts user := by
  have hread : user'.read 8 4 = user.read 8 4 := by
    refine Around.read_congr fun i hi => h _ ?_
    unfold labelAt
    omega
  rw [numPorts, numPorts, hread]

/-- A card as `main` sets it up: it has no more ports than labels, and
each label has a zero byte. -/
structure SetUp where
  user : Around
  numPorts_nonneg : 0 ≤ numPorts user
  numPorts_le : numPorts user ≤ 16
  terminated : ∀ p, InRange user p → 0 ∈ user.read (labelAt p) 64

def SetUp.start (card : SetUp) : Labelled := ⟨card.user, fun p => cstr (card.user.read (labelAt p) 64)⟩

namespace Labelled

variable {m : Labelled} {card : SetUp}

/-- **The labels are stored**, each with a zero byte in its array. -/
structure Stored (card : SetUp) (m : Labelled) : Prop where
  zero : ∀ p, InRange card.user p → 0 ∈ m.user.read (labelAt p) 64
  labels : ∀ p, InRange card.user p → cstr (m.user.read (labelAt p) 64) = m.labels p
  fields : ∀ i, i < labelAt 0 ∨ labelAt (numPorts card.user) ≤ i → m.user i = card.user i

theorem Stored.numPorts_eq (h : m.Stored card) : numPorts m.user = numPorts card.user :=
  numPorts_congr fun i hi => h.fields i (Or.inl hi)

theorem Stored.inRange_iff (h : m.Stored card) : InRange m.user p ↔ InRange card.user p := by
  rw [InRange, InRange, h.numPorts_eq]

/-- A port that is there has a label. -/
theorem Stored.lt_of_inRange (h : m.Stored card) (hin : InRange m.user idx) :
    idx < numPorts m.user ∧ idx < 16 :=
  ⟨hin.2, lt_of_lt_of_le (h.numPorts_eq ▸ hin.2) card.numPorts_le⟩

/-- A negative index is not told from one of a port. -/
theorem Stored.lt_of_neg (h : m.Stored card) (hneg : idx < 0) :
    idx < numPorts m.user ∧ idx < 16 :=
  ⟨lt_of_lt_of_le hneg (h.numPorts_eq ▸ card.numPorts_nonneg), by omega⟩

theorem Stored.kept (h : m.Stored card) : m.Kept card.user := by
  refine ⟨fun p hp => ?_, h.fields⟩
  have hin := h.inRange_iff.1 hp
  rw [cstr_read_of_mem (h.zero p hin), h.labels p hin]

theorem Stored.start (card : SetUp) : card.start.Stored card :=
  ⟨card.terminated, fun _ _ => rfl, fun _ _ => rfl⟩

/-! ## Queries -/

/-- A query for a port that is there returns its label. -/
theorem Stored.query (h : m.Stored card) (hin : InRange m.user idx) (info : PortInfo) :
    ∃ answer, testdmxQueryPortInfo cardno (some m.user) info idx = some (0, answer) ∧
      Answers m.labels idx info answer := by
  obtain ⟨answer, hquery, hanswer⟩ := query_of_lt cardno info (h.lt_of_inRange hin)
  refine ⟨answer, hquery, fun ts hts => ⟨_, hanswer ts hts, fun i hi hkey => ?_⟩⟩
  have hasked : (if i < 1 then asked testdmxPortSupported i (ts i) else ts i).key = idPortLabel := by
    rcases hkey with hkey | ⟨rfl, hnone⟩
    · split
      · rw [asked_of_key (by rw [hkey]; decide), hkey]
      · exact hkey
    · simp [asked, hnone, testdmxPortSupported]
  have hlabel := h.kept.labels idx hin
  have hlength : (m.labels idx).length < 256 := by
    rw [← h.labels idx (h.inRange_iff.1 hin)]
    have hle : (cstr (m.user.read (labelAt idx) 64)).length ≤ (m.user.read (labelAt idx) 64).length :=
      (List.takeWhile_sublist _).length_le
    rw [Around.length_read] at hle
    omega
  rw [if_pos (by omega), answered, testdmxFillPort, if_pos hasked]
  refine ⟨hasked, ?_, ?_⟩
  · simp only [KeyValueTuple.strncpy]
    rw [cstr_strncpy, hlabel, List.take_of_length_le (by omega)]
  · simp only [KeyValueTuple.strncpy, strncpy, hlabel]
    have hzero : 0 ∈ List.replicate (256 - (m.labels idx).length) (0 : UInt8) :=
      List.mem_replicate.2 ⟨by omega, rfl⟩
    exact List.mem_append_right _ hzero

/-- Only an index that is too large is refused. -/
theorem refused_of_ge (h : numPorts user ≤ idx) (info : PortInfo) :
    testdmxQueryPortInfo cardno (some user) info idx = some (-1, info) ∧
      testdmxChangePortInfo cardno (some user) info idx = (-1, some user) := by
  simp only [testdmxQueryPortInfo, testdmxChangePortInfo]
  rw [if_pos (Or.inl h), if_pos (Or.inl h)]
  exact ⟨rfl, rfl⟩

/-! ## Changes -/

/-- The card after a change that is made. -/
theorem step_user_of_accepts (hlt : idx < numPorts m.user ∧ idx < 16)
    (hcard : info.cardIndex = cardno) (hport : info.portIndex = idx) :
    (m.step cardno (.change idx info)).user =
      ((info.list.filter (·.key = idPortLabel)).getLast?.map fun t =>
        m.user.write (labelAt idx) (strncpy 64 t.value)).getD m.user := by
  rw [step, change_of_lt cardno info hlt, if_pos ⟨hcard, hport⟩]
  exact testdmxChangeLabels_eq m.user idx info.list

/-- Nothing but the label of the port is written. -/
theorem step_user_outside (hlt : idx < numPorts m.user ∧ idx < 16) (info : PortInfo) {i : ℤ}
    (hi : i < labelAt idx ∨ labelAt idx + 64 ≤ i) :
    (m.step cardno (.change idx info)).user i = m.user i := by
  by_cases haccepts : info.cardIndex = cardno ∧ info.portIndex = idx
  · rw [step_user_of_accepts hlt haccepts.1 haccepts.2]
    cases (info.list.filter (·.key = idPortLabel)).getLast? with
    | none => rfl
    | some t => exact Around.write_apply_outside (by rw [length_strncpy]; exact hi)
  · rw [step, change_of_lt cardno info hlt, if_neg haccepts]
    rfl

/-- What becomes of the label of the port. -/
theorem Stored.change_own (h : m.Stored card) (hin : InRange m.user idx) (info : PortInfo)
    (hshort : m.Accepts cardno idx info → ∀ s ∈ info.given, s.length ≤ 63) :
    0 ∈ (m.step cardno (.change idx info)).user.read (labelAt idx) 64 ∧
      cstr ((m.step cardno (.change idx info)).user.read (labelAt idx) 64) =
        (m.step cardno (.change idx info)).labels idx := by
  have hin' := h.inRange_iff.1 hin
  have hlt := h.lt_of_inRange hin
  by_cases haccepts : m.Accepts cardno idx info
  · have hlabels : (m.step cardno (.change idx info)).labels idx =
        (info.given.map (·.take 63)).getD (m.labels idx) := by
      simp only [step, relabel, if_pos haccepts, Function.update_self]
    rw [hlabels, step_user_of_accepts hlt haccepts.2.1 haccepts.2.2]
    have hgiven := hshort haccepts
    unfold PortInfo.given at hgiven ⊢
    cases hlast : (info.list.filter (·.key = idPortLabel)).getLast? with
    | none => exact ⟨h.zero idx hin', h.labels idx hin'⟩
    | some t =>
      rw [hlast] at hgiven
      have hlength : (cstr t.value).length ≤ 63 := hgiven _ rfl
      simp only [Option.map_some, Option.getD_some, Around.read_write length_strncpy]
      refine ⟨?_, ?_⟩
      · have hzero : 0 ∈ List.replicate (64 - (cstr t.value).length) (0 : UInt8) :=
          List.mem_replicate.2 ⟨by omega, rfl⟩
        exact List.mem_append_right _ hzero
      · rw [cstr_strncpy, List.take_of_length_le (by omega), List.take_of_length_le hlength]
  · have hsame : (m.step cardno (.change idx info)).user = m.user := by
      rw [step, change_of_lt cardno info hlt, if_neg fun hmatch => haccepts ⟨hin, hmatch⟩]
      rfl
    have hlabels : (m.step cardno (.change idx info)).labels = m.labels := by
      simp only [step, relabel, if_neg haccepts]
    rw [hsame, hlabels]
    exact ⟨h.zero idx hin', h.labels idx hin'⟩

/-- **A label of at most 63 characters is stored**, and the other labels
and fields are as they were. -/
theorem Stored.change (h : m.Stored card) (hin : InRange m.user idx) (info : PortInfo)
    (hshort : m.Accepts cardno idx info → ∀ s ∈ info.given, s.length ≤ 63) :
    (m.step cardno (.change idx info)).Stored card := by
  have hlt := h.lt_of_inRange hin
  -- the label of another port is as it was, and so is what it should be
  have hother : ∀ q, q ≠ idx →
      (m.step cardno (.change idx info)).user.read (labelAt q) 64 = m.user.read (labelAt q) 64 ∧
        (m.step cardno (.change idx info)).labels q = m.labels q := by
    intro q hq
    refine ⟨Around.read_congr fun i hi => step_user_outside hlt info ?_, ?_⟩
    · have hapart := labelAt_apart hq
      omega
    · simp only [step, relabel]
      split
      · rw [Function.update_of_ne hq]
      · rfl
  have hown := h.change_own hin info hshort
  refine ⟨fun q hq => ?_, fun q hq => ?_, fun i hi => ?_⟩
  · by_cases heq : q = idx
    · rw [heq]
      exact hown.1
    · rw [(hother q heq).1]
      exact h.zero q hq
  · by_cases heq : q = idx
    · rw [heq]
      exact hown.2
    · rw [(hother q heq).1, (hother q heq).2]
      exact h.labels q hq
  · have hbelow : idx < numPorts card.user := h.numPorts_eq ▸ hin.2
    have hfrom := hin.1
    rw [step_user_outside hlt info (by unfold labelAt at hi ⊢; omega)]
    exact h.fields i hi

/-- A change for a port that is not there, which is refused. -/
theorem Stored.change_refused (h : m.Stored card) (hin : ¬ InRange m.user idx)
    (hret : testdmxChangePortInfo cardno (some m.user) info idx = (-1, some m.user)) :
    (m.step cardno (.change idx info)).Stored card := by
  have hlabels : m.relabel cardno idx info = m.labels := if_neg fun haccepts => hin haccepts.1
  rw [step, hret, hlabels]
  exact h

/-! ## Calls -/

/-- **A harmless call keeps the labels stored and does what it is for.** -/
theorem Stored.step (h : m.Stored card) (call : PortCall) (hcall : m.Harmless cardno call) :
    (m.step cardno call).Stored card ∧ m.Good cardno call := by
  cases call with
  | query idx info =>
    refine ⟨h, fun hin => h.query hin info, fun hin => ?_⟩
    exact (refused_of_ge (Int.not_lt.1 fun hlt => hin ⟨hcall, hlt⟩) info).1
  | change idx info =>
    by_cases hin : InRange m.user idx
    · refine ⟨h.change hin info fun haccepts => (hcall haccepts.2.1 haccepts.2.2).2 hin.2,
        fun _ => ⟨?_, fun i hi => step_user_outside (h.lt_of_inRange hin) info hi⟩,
        fun hnot => absurd hin hnot⟩
      rw [change_of_lt cardno info (h.lt_of_inRange hin), Accepts]
      split
      case isTrue hmatch => exact iff_of_true rfl ⟨hin, hmatch⟩
      case isFalse hmatch => exact iff_of_false (by simp) fun haccepts => hmatch haccepts.2
    · have hret : testdmxChangePortInfo cardno (some m.user) info idx = (-1, some m.user) := by
        by_cases hneg : idx < 0
        · have hmatch : ¬ (info.cardIndex = cardno ∧ info.portIndex = idx) := fun hmatch =>
            absurd (hcall hmatch.1 hmatch.2).1 (Int.not_le.2 hneg)
          rw [change_of_lt cardno info (h.lt_of_neg hneg), if_neg hmatch]
        · exact (refused_of_ge (Int.not_lt.1 fun hlt => hin ⟨Int.not_lt.1 hneg, hlt⟩) info).2
      exact ⟨h.change_refused hin hret, fun hin' => absurd hin' hin, fun _ => hret⟩

/-- A change with a label of 64 characters or more is not one the labels
survive. -/
theorem Stored.length_le_of_kept (h : m.Stored card) (haccepts : m.Accepts cardno idx info)
    (hkept : (m.step cardno (.change idx info)).Kept card.user) :
    ∀ s ∈ info.given, s.length ≤ 63 := by
  intro s hs
  have hlt := h.lt_of_inRange haccepts.1
  have hin : InRange (m.step cardno (.change idx info)).user idx := by
    have hports : numPorts (m.step cardno (.change idx info)).user = numPorts m.user :=
      numPorts_congr fun i hi => step_user_outside hlt info (Or.inl (by
        have hfrom := haccepts.1.1
        unfold labelAt at hi ⊢
        omega))
    rw [InRange, hports]
    exact haccepts.1
  have hread := hkept.labels idx hin
  rw [step_user_of_accepts hlt haccepts.2.1 haccepts.2.2] at hread
  obtain ⟨t, hlast, hcstr⟩ := Option.map_eq_some_iff.1 hs
  have hlabels : (m.step cardno (.change idx info)).labels idx = s.take 63 := by
    have hgiven : info.given = some s := hs
    simp only [Labelled.step, relabel, if_pos haccepts, Function.update_self, hgiven,
      Option.map_some, Option.getD_some]
  rw [hlast, Option.map_some, Option.getD_some, hlabels] at hread
  by_contra hlong
  have hle : 64 ≤ (cstr t.value).length := by
    rw [hcstr]
    omega
  have hcopied := le_length_cstr_read m.user idx hle
  rw [hread, List.length_take] at hcopied
  omega

/-- **A call that is not harmless does something else.** -/
theorem Stored.harmless (h : m.Stored card) (call : PortCall)
    (hkept : (m.step cardno call).Kept card.user) (hgood : m.Good cardno call) :
    m.Harmless cardno call := by
  cases call with
  | query idx info =>
    refine Int.not_lt.1 fun hneg => ?_
    have hrefused := hgood.2 fun hin => absurd hin.1 (Int.not_le.2 hneg)
    obtain ⟨answer, hquery, -⟩ := query_of_lt cardno info (h.lt_of_neg hneg)
    rw [hquery] at hrefused
    exact absurd hrefused (by simp)
  | change idx info =>
    intro hcard hport
    have hfrom : 0 ≤ idx := by
      refine Int.not_lt.1 fun hneg => ?_
      have hrefused := hgood.2 fun hin => absurd hin.1 (Int.not_le.2 hneg)
      rw [change_of_lt cardno info (h.lt_of_neg hneg), if_pos ⟨hcard, hport⟩] at hrefused
      exact absurd hrefused (by simp)
    exact ⟨hfrom, fun hlt => h.length_le_of_kept ⟨⟨hfrom, hlt⟩, hcard, hport⟩ hkept⟩

end Labelled

/-- **When the loop device is a store of labels**, for every sequence of
queries and changes: when no call has a negative index, and no label that
is accepted has more than 63 characters. -/
theorem label_store_iff (cardno : ℤ) (card : SetUp) (calls : List PortCall) :
    (Always (Labelled.step cardno) (Labelled.Kept card.user) card.start calls ∧
      EachStep (Labelled.step cardno) (Labelled.Good cardno) card.start calls) ↔
        EachStep (Labelled.step cardno) (Labelled.Harmless cardno) card.start calls := by
  refine always_and_eachStep_iff_of_invariant (Q := Labelled.Stored card) (fun m h => h.kept) ?_ ?_
    (Labelled.Stored.start card)
  · exact fun m call h hkept hgood => h.harmless call hkept hgood
  · exact fun m call h hcall => h.step call hcall

/-- A card with 16 ports, none of which has a label yet. -/
def blankSetUp : SetUp where
  user := fun i => if i = 8 then 16 else 0
  numPorts_nonneg := by decide +kernel
  numPorts_le := by decide +kernel
  terminated := by
    intro p hp
    have hne : labelAt p ≠ 8 := by
      have hfrom := hp.1
      unfold labelAt
      omega
    have hzero : 0 = (fun i : ℤ => if i = 8 then (16 : UInt8) else 0) (labelAt p + (0 : ℕ)) := by
      simp [hne]
    exact List.mem_map.2 ⟨0, List.mem_range.2 (by decide), hzero.symm⟩

/-- A tuple with a label of `n` letters A. -/
def labelTuple (n : ℕ) : KeyValueTuple where
  key := idPortLabel
  changable := false
  maxlength := 0#9
  value := strncpy 256 (List.replicate n 65)
  length_value := length_strncpy

/-- A new label for a port of the first card. -/
def newLabel (portIndex : ℤ) (n : ℕ) : PortCall :=
  .change portIndex ⟨0, portIndex, 1, some fun _ => labelTuple n⟩

/-- The name of the customer is changed as the label of port -1, and a
label of 64 characters is not cut. -/
theorem negative_long_not_stored :
    ¬ (Always (Labelled.step 0) (Labelled.Kept blankSetUp.user) blankSetUp.start [newLabel (-1) 1] ∧
        EachStep (Labelled.step 0) (Labelled.Good 0) blankSetUp.start [newLabel (-1) 1]) ∧
      ¬ (Always (Labelled.step 0) (Labelled.Kept blankSetUp.user) blankSetUp.start [newLabel 0 64] ∧
        EachStep (Labelled.step 0) (Labelled.Good 0) blankSetUp.start [newLabel 0 64]) := by
  have hstored := Labelled.Stored.start blankSetUp
  refine ⟨fun h => ?_, fun h => ?_⟩
  · have hcall := hstored.harmless (newLabel (-1) 1) h.1.last (h.2 [] _ (List.prefix_refl _))
    exact absurd (hcall rfl rfl).1 (by decide)
  · have hcall := hstored.harmless (newLabel 0 64) h.1.last (h.2 [] _ (List.prefix_refl _))
    have hlength := (hcall rfl rfl).2 (by decide +kernel) (List.replicate 64 65) (by decide +kernel)
    exact absurd hlength (by decide)

end Cuse

end Dmx4Linux2
