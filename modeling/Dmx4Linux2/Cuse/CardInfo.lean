import Dmx4Linux2.Cuse.Model.CardInfo

/-!
# CUSE drivers — what a card query returns

The bounds of the two loops of `queryCardInfo` are the wrong way round: the
one that reads the table of supported keys goes over all tuples, and the
one that fills in the values goes no further than the table is long.
`answered_iff` is what that comes to for any driver, and
`testdmx_answered_iff` for the loop device, whose customer name may besides
run on into the label of the first port.
-/

namespace Dmx4Linux2

namespace Cuse

variable {supported : List UInt32} {value : UInt32 → List UInt8} {t : KeyValueTuple} {i : ℕ}

/-! ## What a query is for -/

/-- The tuple has the value of its key, or the empty string where the key
is not supported. -/
def KeyValueTuple.Holds (supported : List UInt32) (value : UInt32 → List UInt8)
    (t : KeyValueTuple) : Prop :=
  cstr t.value = if t.key ∈ supported then value t.key else []

/-- A tuple as it is asked for, and as it is returned. -/
structure TupleAnswered (supported : List UInt32) (value : UInt32 → List UInt8)
    (t t' : KeyValueTuple) : Prop where
  none_key : t.key = idNone → t'.key ∈ supported
  own_key : t.key ≠ idNone → t'.key = t.key
  holds : t'.Holds supported value

/-- **The query is answered**: the table of supported keys is read at its
own indices only, and each of the tuples asked for is returned with a key
and the value for it. -/
structure Answered (supported : List UInt32) (value : UInt32 → List UInt8) (info : CardInfo)
    (answer : Option (ℤ × CardInfo)) : Prop where
  inside : answer.isSome
  tuples : ∀ r ∈ answer, ∀ ts ∈ info.tuples, ∃ ts' ∈ r.2.tuples,
    ∀ i : ℕ, i < info.tupleCount → TupleAnswered supported value (ts i) (ts' i)

/-! ## Any driver -/

/-- The tuple with a supported key for none. -/
def asked (supported : List UInt32) (i : ℕ) (t : KeyValueTuple) : KeyValueTuple :=
  if t.key = idNone then { t with key := supported.getD i idNone } else t

theorem asked_of_key (h : t.key ≠ idNone) : asked supported i t = t := if_neg h

/-- The table is left for a tuple with no key behind its end. -/
theorem replaceNone_eq_none (h : supported.length ≤ i) (hkey : t.key = idNone) :
    replaceNone supported i t = none := by
  simp [replaceNone, hkey, List.getElem?_eq_none h]

theorem replaceNone_eq_some (h : i < supported.length ∨ t.key ≠ idNone) :
    replaceNone supported i t = some (asked supported i t) := by
  unfold replaceNone asked
  split
  · rename_i hkey
    have hlt : i < supported.length := h.resolve_right (not_not_intro hkey)
    simp [hlt]
  · rfl

section Driver

variable {σ : Type} {fill : σ → KeyValueTuple → KeyValueTuple} {portCount : σ → ℤ} {cardno : ℤ}
variable {user : σ} {info : CardInfo} {ts ts' : ℕ → KeyValueTuple}

/-- A tuple the table is long enough for is filled in right; another one
comes with a key, and already has the value for it. -/
def Ready (supported : List UInt32) (value : UInt32 → List UInt8)
    (fill : KeyValueTuple → KeyValueTuple) (i : ℕ) (t : KeyValueTuple) : Prop :=
  if i < supported.length then (fill (asked supported i t)).Holds supported value
  else t.key ≠ idNone ∧ t.Holds supported value

/-- The first loop does not fail for it. -/
theorem Ready.replaced (h : Ready supported value (fill user) i t) :
    replaceNone supported i t = some (asked supported i t) := by
  refine replaceNone_eq_some ?_
  by_cases hi : i < supported.length
  · exact Or.inl hi
  · rw [Ready, if_neg hi] at h
    exact Or.inr h.1

/-- What the loops make of one tuple. -/
theorem tupleAnswered_iff (hkey : ∀ t, (fill user t).key = t.key) {t' : KeyValueTuple}
    (hreplaced : replaceNone supported i t = some t') :
    TupleAnswered supported value t (if i < supported.length then fill user t' else t') ↔
      Ready supported value (fill user) i t := by
  unfold Ready
  by_cases hi : i < supported.length
  · rw [replaceNone_eq_some (Or.inl hi)] at hreplaced
    cases hreplaced
    rw [if_pos hi, if_pos hi]
    -- the keys are right in any case: `fill` does not touch them
    refine ⟨fun h => h.holds, fun h => ⟨fun hnone => ?_, fun hown => ?_, h⟩⟩
    · rw [hkey, asked, if_pos hnone]
      simp [hi]
    · rw [hkey, asked_of_key hown]
  · have hown : t.key ≠ idNone := by
      intro hnone
      rw [replaceNone_eq_none (not_lt.1 hi) hnone] at hreplaced
      cases hreplaced
    rw [replaceNone_eq_some (Or.inr hown), asked_of_key hown] at hreplaced
    cases hreplaced
    rw [if_neg hi, if_neg hi]
    exact ⟨fun h => ⟨hown, h.holds⟩, fun h => ⟨fun hnone => absurd hnone hown, fun _ => rfl, h.2⟩⟩

/-- The tuples as the second loop leaves them. -/
def filled (supported : List UInt32) (fill : KeyValueTuple → KeyValueTuple) (count : ℕ)
    (ts : ℕ → KeyValueTuple) (i : ℕ) : KeyValueTuple :=
  if i < count ∧ i < supported.length then fill (ts i) else ts i

/-- Only the first loop can fail. -/
theorem query_of_tuples (h : info.tuples = some ts) :
    queryCardInfo supported fill portCount cardno (some user) info =
      (updateEach (replaceNone supported) (List.range info.tupleCount.toNat) ts).map fun ts' =>
        (0, { info with
          cardIndex := cardno
          portCount := portCount user
          tuples := some (filled supported (fill user) info.tupleCount.toNat ts') }) := by
  have hfill : ∀ ts' : ℕ → KeyValueTuple, updateEach (fun _ t => some (fill user t))
      ((List.range info.tupleCount.toNat).filter (· < supported.length)) ts' =
        some (filled supported (fill user) info.tupleCount.toNat ts') := by
    intro ts'
    rw [updateEach_some (List.nodup_range.filter _)]
    unfold filled
    simp
  cases hreplaced : updateEach (replaceNone supported) (List.range info.tupleCount.toNat) ts with
  | none => simp [queryCardInfo, h, hreplaced]
  | some ts' => simp [queryCardInfo, h, hreplaced, hfill]

/-- Of the tuples that count, the bound of the second loop leaves the
length of the table. -/
theorem filled_of_lt {count : ℕ} (hi : i < count) : filled supported (fill user) count ts i =
    if i < supported.length then fill user (ts i) else ts i := by
  simp [filled, hi]

/-- **Any driver.** A query is answered just when all its tuples are
ready. -/
theorem answered_iff (hkey : ∀ t, (fill user t).key = t.key) :
    Answered supported value info (queryCardInfo supported fill portCount cardno (some user) info) ↔
      ∀ ts ∈ info.tuples, ∀ i : ℕ, i < info.tupleCount →
        Ready supported value (fill user) i (ts i) := by
  cases htuples : info.tuples with
  | none =>
    refine iff_of_true ⟨?_, ?_⟩ ?_
    · simp [queryCardInfo, htuples]
    · simp [htuples]
    · simp
  | some ts =>
    rw [query_of_tuples htuples]
    constructor
    · intro hanswer ts₁ hts₁ i hi
      cases hts₁
      obtain ⟨r, hr⟩ := Option.isSome_iff_exists.1 hanswer.inside
      obtain ⟨ts', hreplaced, hr'⟩ := Option.map_eq_some_iff.1 hr
      obtain ⟨ts₂, hts₂, hall⟩ := hanswer.tuples r hr ts htuples
      subst hr'
      cases hts₂
      have hlt : i < info.tupleCount.toNat := by omega
      -- that there is an answer at all means the first loop came through
      have hone := ((updateEach_eq_some_iff List.nodup_range).1 hreplaced).1 i (List.mem_range.2 hlt)
      have htuple := hall i hi
      rw [filled_of_lt hlt] at htuple
      exact (tupleAnswered_iff hkey hone).1 htuple
    · intro hall
      have hready : ∀ i < info.tupleCount.toNat, Ready supported value (fill user) i (ts i) :=
        fun i hi => hall ts rfl i (by omega)
      rw [updateEach_of_forall List.nodup_range fun i hi => (hready i (List.mem_range.1 hi)).replaced]
      refine ⟨rfl, fun r hr ts₁ hts₁ => ?_⟩
      cases hr
      have hts : ts = ts₁ := Option.some.inj (htuples.symm.trans hts₁)
      subst hts
      refine ⟨_, rfl, fun i hi => ?_⟩
      have hlt : i < info.tupleCount.toNat := by omega
      rw [filled_of_lt hlt, if_pos (List.mem_range.2 hlt)]
      exact (tupleAnswered_iff hkey (hready i hlt).replaced).2 (hready i hlt)

end Driver

theorem KeyValueTuple.holds_strcpy {s : List UInt8} (hlength : s.length < 256) (hzero : 0 ∉ s)
    (hvalue : s = if t.key ∈ supported then value t.key else []) :
    (t.strcpy s hlength).Holds supported value := by
  show cstr (Dmx4Linux2.strcpy t.value s) = if t.key ∈ supported then value t.key else []
  rw [cstr_strcpy hzero, hvalue]

/-! ## The loop device -/

variable {user : TestdmxCard}

/-- What the loop device has for a key. -/
def testdmxValue (user : TestdmxCard) (key : UInt32) : List UInt8 :=
  if key = idManufacturer then literal "llg-Dmx4linux2"
  else if key = idProduct then literal "dummydmx"
  else if key = idSerialNumber then literal "0123456789"
  else if key = idCustomerName then cstr user.customerName.toList
  else []

/-- The customer name ends in its array, or where the first label starts. -/
def TestdmxCard.NameEnds (user : TestdmxCard) : Prop :=
  0 ∈ user.customerName.toList ∨ user.portLabels[0][0] = 0

theorem toList_eq_cons {α : Type*} {n : ℕ} (v : Vector α (n + 1)) :
    ∃ rest, v.toList = v[0] :: rest := by
  cases h : v.toList with
  | nil =>
    have hlength := v.length_toList
    rw [h] at hlength
    cases hlength
  | cons a rest =>
    refine ⟨rest, ?_⟩
    have hhead : v.toList[0]? = some a := by rw [h]; rfl
    have hget : v.toList[0]? = some v[0] := by simp
    rw [Option.some.inj (hhead.symm.trans hget)]

/-- What `strncpy` copies is the name just when the name ends. -/
theorem name_copied_iff :
    (cstr user.fromName).take 256 = cstr user.customerName.toList ↔ user.NameEnds := by
  unfold TestdmxCard.fromName TestdmxCard.NameEnds
  obtain ⟨labels, hlabels⟩ := toList_eq_cons user.portLabels
  obtain ⟨label, hlabel⟩ := toList_eq_cons user.portLabels[0]
  rw [hlabels, List.flatMap_cons, hlabel, List.cons_append]
  have hlength : user.customerName.toList.length = 64 := user.customerName.length_toList
  by_cases hzero : 0 ∈ user.customerName.toList
  · rw [cstr_append_of_mem hzero]
    have hshort : (cstr user.customerName.toList).length ≤ user.customerName.toList.length :=
      (List.takeWhile_prefix _).length_le
    exact iff_of_true (List.take_of_length_le (by omega)) (Or.inl hzero)
  · -- the name fills its array, and the copy goes on with the label
    rw [cstr_append_of_not_mem hzero, cstr_of_not_mem hzero, or_iff_right hzero, List.take_append,
      List.take_of_length_le (by omega), hlength, List.append_right_eq_self, List.take_eq_nil_iff,
      or_iff_right (by omega)]
    exact cstr_cons_eq_nil_iff

theorem testdmxFill_key : (testdmxFill user t).key = t.key := by
  unfold testdmxFill
  repeat' split
  all_goals rfl

/-- Where a tuple does not ask for the name it is filled in right, -/
theorem testdmxFill_holds (hname : t.key ≠ idCustomerName) :
    (testdmxFill user t).Holds testdmxSupported (testdmxValue user) := by
  unfold testdmxFill
  split
  · rename_i hkey
    exact KeyValueTuple.holds_strcpy _ (by decide) (by rw [hkey]; rfl)
  split
  · rename_i hkey
    exact KeyValueTuple.holds_strcpy _ (by decide) (by rw [hkey]; rfl)
  split
  · rename_i hkey
    exact KeyValueTuple.holds_strcpy _ (by decide) (by rw [hkey]; rfl)
  refine KeyValueTuple.holds_strcpy _ (by decide) ?_
  rename_i hmanufacturer hproduct hserial
  rw [if_neg]
  · rfl
  · simp [testdmxSupported, hmanufacturer, hproduct, hserial, hname]

/-- and where it does, if the name ends. -/
theorem testdmxFill_holds_iff :
    (testdmxFill user t).Holds testdmxSupported (testdmxValue user) ↔
      (t.key = idCustomerName → user.NameEnds) := by
  by_cases hkey : t.key = idCustomerName
  · rw [← name_copied_iff, ← cstr_strncpy]
    have hfill : testdmxFill user t =
        { t.strncpy user.fromName with changable := true, maxlength := 63#9 } := by
      rw [testdmxFill, hkey]
      rfl
    have hvalue : (if t.key ∈ testdmxSupported then testdmxValue user t.key else []) =
        cstr user.customerName.toList := by
      rw [hkey]
      rfl
    rw [hfill]
    show cstr (Dmx4Linux2.strncpy 256 user.fromName) =
      (if t.key ∈ testdmxSupported then testdmxValue user t.key else []) ↔ _
    rw [hvalue]
    exact ⟨fun h _ => h, fun h => h hkey⟩
  · exact iff_of_true (testdmxFill_holds hkey) fun h => absurd h hkey

/-- The first four tuples ask for the name with its key, or the fourth with
none. -/
theorem asked_name_iff (hi : i < 4) : (asked testdmxSupported i t).key = idCustomerName ↔
    t.key = idCustomerName ∨ (t.key = idNone ∧ i = 3) := by
  by_cases hkey : t.key = idNone
  -- without a key it gets that of its place in the table
  · have hfourth : testdmxSupported.getD i idNone = idCustomerName ↔ i = 3 := by
      have hi' : i = 0 ∨ i = 1 ∨ i = 2 ∨ i = 3 := by omega
      rcases hi' with rfl | rfl | rfl | rfl <;> decide
    have hne : t.key ≠ idCustomerName := by
      rw [hkey]
      decide
    rw [asked, if_pos hkey, or_iff_right hne]
    show testdmxSupported.getD i idNone = idCustomerName ↔ _
    rw [hfourth]
    exact (and_iff_right hkey).symm
  · rw [asked_of_key hkey]
    simp [hkey]

/-- **The loop device.** A query is answered just when from the fifth tuple
on each comes with a key and already has the value for it, and of the
first four none asks for the customer name, unless that ends. -/
theorem testdmx_answered_iff (cardno : ℤ) (user : TestdmxCard) (info : CardInfo) :
    Answered testdmxSupported (testdmxValue user) info
        (testdmxQueryCardInfo cardno (some user) info) ↔
      ∀ ts ∈ info.tuples, ∀ i : ℕ, i < info.tupleCount →
        if i < 4 then
          ((ts i).key = idCustomerName ∨ ((ts i).key = idNone ∧ i = 3)) → user.NameEnds
        else
          (ts i).key ≠ idNone ∧ (ts i).Holds testdmxSupported (testdmxValue user) := by
  have hlength : testdmxSupported.length = 4 := rfl
  rw [testdmxQueryCardInfo, answered_iff fun _ => testdmxFill_key]
  refine forall₂_congr fun ts _ => forall₂_congr fun i _ => ?_
  rw [Ready, hlength]
  by_cases hi : i < 4
  · rw [if_pos hi, if_pos hi, testdmxFill_holds_iff, asked_name_iff hi]
  · rw [if_neg hi, if_neg hi]

/-- A tuple that asks for whatever there is. -/
def blankTuple : KeyValueTuple := ⟨idNone, false, 0#9, List.replicate 256 0, List.length_replicate⟩

/-- Five of them are asked for. -/
def fiveBlank : CardInfo := ⟨0, 0, 5, some fun _ => blankTuple⟩

/-- A card with no name and no labels. -/
def blankCard : TestdmxCard :=
  ⟨16, Vector.replicate 64 0, Vector.replicate 16 (Vector.replicate 64 0)⟩

/-- The table has four keys: it is read behind its end. -/
theorem fiveBlank_not_answered : ¬ Answered testdmxSupported (testdmxValue blankCard) fiveBlank
    (testdmxQueryCardInfo 0 (some blankCard) fiveBlank) := by
  rw [testdmxQueryCardInfo, answered_iff fun _ => testdmxFill_key]
  intro h
  have hfifth := h (fun _ => blankTuple) rfl 4 (by decide)
  rw [Ready, if_neg (by decide)] at hfifth
  exact hfifth.1 rfl

/-! ## The other two -/

/-- What they have for a key. -/
def productValue (product : List UInt8) (key : UInt32) : List UInt8 :=
  if key = idManufacturer then literal "LLG"
  else if key = idProduct then product
  else if key = idSerialNumber then literal "????????"
  else []

section Product

variable {product : List UInt8} {hlength : product.length < 256}

theorem productFill_key : (productFill product hlength t).key = t.key := by
  unfold productFill
  repeat' split
  all_goals rfl

theorem productFill_holds (hzero : 0 ∉ product) :
    (productFill product hlength t).Holds productSupported (productValue product) := by
  unfold productFill
  split
  · rename_i hkey
    exact KeyValueTuple.holds_strcpy _ (by decide) (by rw [hkey]; rfl)
  split
  · rename_i hkey
    exact KeyValueTuple.holds_strcpy _ hzero (by rw [hkey]; rfl)
  split
  · rename_i hkey
    exact KeyValueTuple.holds_strcpy _ (by decide) (by rw [hkey]; rfl)
  refine KeyValueTuple.holds_strcpy _ (by decide) ?_
  rename_i hmanufacturer hproduct hserial
  rw [if_neg]
  · rfl
  · simp [productSupported, hmanufacturer, hproduct, hserial]

/-- **A driver without customer names.** What it fills in is right; the
tuples behind the table are the callers' own. -/
theorem product_answered_iff {σ : Type} (hzero : 0 ∉ product) (portCount : σ → ℤ) (cardno : ℤ)
    (user : σ) (info : CardInfo) :
    Answered productSupported (productValue product) info
        (queryCardInfo productSupported (fun _ => productFill product hlength) portCount cardno
          (some user) info) ↔
      ∀ ts ∈ info.tuples, ∀ i : ℕ, i < info.tupleCount → 3 ≤ i →
        (ts i).key ≠ idNone ∧ (ts i).Holds productSupported (productValue product) := by
  have hthree : productSupported.length = 3 := rfl
  rw [answered_iff fun _ => productFill_key]
  refine forall₂_congr fun ts _ => forall₂_congr fun i _ => ?_
  rw [Ready, hthree]
  by_cases hi : i < 3
  · rw [if_pos hi]
    exact iff_of_true (productFill_holds hzero) fun h => absurd hi (by omega)
  · rw [if_neg hi]
    exact ⟨fun h _ => h, fun h => h (not_lt.1 hi)⟩

end Product

theorem dmxllgip_answered_iff (cardno numPorts : ℤ) (info : CardInfo) :
    Answered productSupported (productValue (literal "dmxllgip")) info
        (dmxllgipQueryCardInfo cardno (some numPorts) info) ↔
      ∀ ts ∈ info.tuples, ∀ i : ℕ, i < info.tupleCount → 3 ≤ i →
        (ts i).key ≠ idNone ∧ (ts i).Holds productSupported (productValue (literal "dmxllgip")) :=
  product_answered_iff (by decide) id cardno numPorts info

theorem uartdmx_answered_iff (cardno : ℤ) (info : CardInfo) :
    Answered productSupported (productValue (literal "UART")) info
        (uartdmxQueryCardInfo cardno (some ()) info) ↔
      ∀ ts ∈ info.tuples, ∀ i : ℕ, i < info.tupleCount → 3 ≤ i →
        (ts i).key ≠ idNone ∧ (ts i).Holds productSupported (productValue (literal "UART")) :=
  product_answered_iff (by decide) (fun _ => 1) cardno () info

end Cuse

end Dmx4Linux2
