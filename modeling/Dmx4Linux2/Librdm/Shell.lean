import Dmx4Linux2.Librdm.Commands
import Dmx4Linux2.Librdm.Muting

/-!
# librdm — sessions of the shell

What is printed can be typed again: a number that the shell has printed is read
as the same number (`strtol_numberText`, `uidOf_numberText`). So a file that
mutes and unmutes devices by the names under which they are listed does just
that (`script_lists`), and `test` lists all devices each time (`test_lists`).
-/

namespace Dmx4Linux2

namespace Librdm

open Bisection

variable {D : Fleet} {sys : System} {H : Finset ℕ} {s : Shell} {n u base fuel : ℕ} {c : Char}
variable {w v command : Text} {lines : List Text} {files : Files}

/-! ## Numbers -/

theorem digitValue_digitChar (h : n < 16) : digitValue n.digitChar = n := by
  have hall : ∀ d : Fin 16, digitValue d.val.digitChar = d.val := by decide
  exact hall ⟨n, h⟩

/-- The digits of a number are digits, and they are those of the number. -/
theorem toDigits_spec (hbase : 1 < base) (hle : base ≤ 16) (n : ℕ) :
    (∀ c ∈ Nat.toDigits base n, digitValue c < base) ∧
      ((Nat.toDigits base n).map digitValue).foldl (fun n d => n * base + d) 0 = n := by
  induction n using Nat.strong_induction_on with
  | _ n ih =>
    rcases Nat.lt_or_ge n base with hn | hn
    · have hd := digitValue_digitChar (n := n) (by omega)
      rw [Nat.toDigits_of_lt_base hn]
      simp [hd, hn]
    · obtain ⟨hdigits, hvalue⟩ := ih (n / base) (Nat.div_lt_self (by omega) hbase)
      have hlast := Nat.mod_lt n (by omega : 0 < base)
      have hd := digitValue_digitChar (n := n % base) (by omega)
      rw [Nat.toDigits_of_base_le hbase hn]
      refine ⟨List.forall_mem_append.2 ⟨hdigits, ?_⟩, ?_⟩
      · rw [List.forall_mem_singleton, hd]
        exact hlast
      · rw [List.map_append, List.foldl_append, hvalue, List.map_singleton, List.foldl_cons,
          List.foldl_nil, hd]
        exact Nat.div_add_mod' n base

theorem magnitude_toDigits (hbase : 1 < base) (hle : base ≤ 16) (n : ℕ) :
    magnitude base (Nat.toDigits base n) = n := by
  obtain ⟨hdigits, hvalue⟩ := toDigits_spec hbase hle n
  have hall : ((Nat.toDigits base n).map digitValue).takeWhile (fun d => d < base) =
      (Nat.toDigits base n).map digitValue := by
    rw [List.takeWhile_eq_self_iff]
    intro d hd
    obtain ⟨c, hc, rfl⟩ := List.mem_map.1 hd
    exact decide_eq_true (hdigits c hc)
  rw [magnitude, hall, hvalue]

/-- No number but 0 begins with 0. -/
theorem eq_zero_of_head_toDigits (hbase : 1 < base) (n : ℕ)
    (h : (Nat.toDigits base n).head? = some '0') : n = 0 := by
  induction n using Nat.strong_induction_on with
  | _ n ih =>
    rcases Nat.lt_or_ge n base with hn | hn
    · rw [Nat.toDigits_of_lt_base hn] at h
      exact Nat.digitChar_eq_zero.1 (Option.some.inj h)
    · have hpos : 0 < n / base := Nat.div_pos hn (by omega)
      rw [Nat.toDigits_of_base_le hbase hn, List.head?_append_of_ne_nil _ Nat.toDigits_ne_nil] at h
      have hzero := ih (n / base) (Nat.div_lt_self (by omega) hbase) h
      omega

/-- A text of letters and digits. -/
def Plain (w : Text) : Prop := w ≠ [] ∧ ∀ c ∈ w, digitValue c < 36

theorem plain_of_all (h : (!w.isEmpty && w.all fun c => Nat.blt (digitValue c) 36) = true) :
    Plain w := by
  obtain ⟨hne, hall⟩ := Bool.and_eq_true_iff.1 h
  refine ⟨?_, fun c hc => Nat.le_of_ble_eq_true (List.all_eq_true.1 hall c hc)⟩
  rintro rfl
  cases hne

theorem digitValue_of_isSpace (h : isSpace c = true) : digitValue c = 36 := by
  simp only [isSpace, Bool.or_eq_true, decide_eq_true_eq, Bool.and_eq_true] at h
  rcases h with rfl | ⟨-, hle⟩
  · decide
  · have hlt : c.toNat ≤ 13 := hle
    have hno : ∀ d : Char, 13 < d.toNat → ¬ d ≤ c := fun d hd hle => by
      have hle' : d.toNat ≤ c.toNat := hle
      omega
    rw [digitValue, if_neg fun h => hno _ (by decide) h.1, if_neg fun h => hno _ (by decide) h.1,
      if_neg fun h => hno _ (by decide) h.1]

/-- A number without a sign. -/
theorem signed_of_plain (h : Plain w) : signed w = (false, w) := by
  obtain ⟨hne, hw⟩ := h
  obtain ⟨c, cs, rfl⟩ := List.exists_cons_of_ne_nil hne
  have hc := hw c List.mem_cons_self
  have hspace : ¬ isSpace c = true := fun h => by
    rw [digitValue_of_isSpace h] at hc
    omega
  rw [signed, List.dropWhile_cons_of_neg hspace]
  split
  · next heq =>
    obtain ⟨rfl, -⟩ := List.cons.inj heq
    exact absurd hc (by decide)
  · next heq =>
    obtain ⟨rfl, -⟩ := List.cons.inj heq
    exact absurd hc (by decide)
  · rfl

theorem hasHexPrefix_of_digits (h : ∀ c ∈ w, digitValue c < 16) : hasHexPrefix w = false := by
  unfold hasHexPrefix
  split
  · next x d rest =>
    have hx : digitValue x < 16 := h x (by simp)
    have hx1 : x ≠ 'x' := by
      rintro rfl
      exact absurd hx (by decide)
    have hx2 : x ≠ 'X' := by
      rintro rfl
      exact absurd hx (by decide)
    simp [hx1, hx2]
  · rfl

theorem plain_numberText (hex : Bool) (n : ℕ) : Plain (numberText hex n) := by
  refine ⟨Nat.toDigits_ne_nil, fun c hc => ?_⟩
  have hlt : digitValue c < if hex then 16 else 10 :=
    (toDigits_spec (by split <;> decide) (by split <;> decide) n).1 c hc
  split at hlt <;> omega

/-- **A decimal number is read as it was printed.** -/
theorem strtol_numberText (hn : n < 2 ^ 63) : strtol (numberText false n) = n := by
  have hdigits : ∀ c ∈ numberText false n, digitValue c < 16 := fun c hc => by
    have hlt := (toDigits_spec (by decide : 1 < 10) (by decide) n).1 c hc
    omega
  rw [strtol, signed_of_plain (plain_numberText false n)]
  simp only [hasHexPrefix_of_digits hdigits, Bool.false_eq_true, if_false]
  split
  · next hzero =>
    rw [eq_zero_of_head_toDigits (by decide) n hzero]
    rfl
  · have hvalue : magnitude 10 (numberText false n) = n :=
      magnitude_toDigits (by decide) (by decide) n
    rw [hvalue]
    omega

/-- **A UID is read as it was printed.** -/
theorem uidOf_numberText (hu : u < 2 ^ 48) : uidOf (numberText true u) = u := by
  have hdigits : ∀ c ∈ numberText true u, digitValue c < 16 :=
    (toDigits_spec (by decide) (by decide) u).1
  have hvalue : magnitude 16 (numberText true u) = u :=
    magnitude_toDigits (by decide) (by decide) u
  have hread : strtoull (numberText true u) = u := by
    rw [strtoull, signed_of_plain (plain_numberText true u)]
    simp only [hasHexPrefix_of_digits hdigits, Bool.false_eq_true, if_false, hvalue]
    rw [if_neg (by omega)]
  rw [uidOf, hread]
  omega

/-! ## Lines -/

/-- What is neither a letter nor a digit is not in a plain text. -/
theorem Plain.notMem (h : Plain w) (hc : digitValue c = 36) : c ∉ w := by
  intro hmem
  have hlt := h.2 c hmem
  omega

theorem Plain.not_whitespace (h : Plain w) (hc : c ∈ w) : whitespace c = false := by
  have hspace : c ≠ ' ' := fun heq => h.notMem (by decide) (heq ▸ hc)
  have htab : c ≠ '\t' := fun heq => h.notMem (by decide) (heq ▸ hc)
  simp [whitespace, hspace, htab]

/-- A line that begins and ends with letters or digits is taken apart into its
words. -/
theorem splitCommand_line {ws : List Text} (hne : ws ≠ []) (hws : ∀ w ∈ ws, Plain w)
    (hline : command = [' '].intercalate ws) (hnul : '\x00' ∉ command) (hends : Unblank command) :
    splitCommand (cString command) = ws := by
  have hall : cString command = command := by
    rw [cString, List.takeWhile_eq_self_iff]
    intro c hc
    have hcnul : c ≠ '\x00' := fun heq => hnul (heq ▸ hc)
    simpa using hcnul
  rw [hall]
  refine splitCommand_of_trim hne (fun w hw => (hws w hw).notMem (by decide)) ?_
  rw [← hline]
  exact trim_eq_iff.2 ⟨hends, [], [], List.forall_mem_nil _, List.forall_mem_nil _, by simp⟩

theorem splitCommand_word (hw : Plain w) : splitCommand (cString w) = [w] := by
  refine splitCommand_line (List.cons_ne_nil _ _) (List.forall_mem_singleton.2 hw) (by simp)
    (hw.notMem (by decide)) ⟨fun c hc => ?_, fun c hc => ?_⟩
  · exact hw.not_whitespace (List.mem_of_mem_head? hc)
  · exact hw.not_whitespace (List.mem_of_mem_getLast? hc)

theorem splitCommand_words (hw : Plain w) (hv : Plain v) :
    splitCommand (cString (w ++ ' ' :: v)) = [w, v] := by
  refine splitCommand_line (List.cons_ne_nil _ _) ?_ (by simp) ?_ ⟨fun c hc => ?_, fun c hc => ?_⟩
  · exact List.forall_mem_cons.2 ⟨hw, List.forall_mem_singleton.2 hv⟩
  · intro hmem
    rcases List.mem_append.1 hmem with hmem | hmem
    · exact hw.notMem (by decide) hmem
    · rcases List.mem_cons.1 hmem with heq | hmem
      · exact absurd heq (by decide)
      · exact hv.notMem (by decide) hmem
  · rw [List.head?_append_of_ne_nil _ hw.1] at hc
    exact hw.not_whitespace (List.mem_of_mem_head? hc)
  · rw [List.getLast?_append_of_ne_nil _ (List.cons_ne_nil _ _),
      List.getLast?_cons_of_ne_nil hv.1] at hc
    exact hv.not_whitespace (List.mem_of_mem_getLast? hc)

theorem CommandParser.execute_function {σ : Type} {p : CommandParser σ} {x : σ} {name : Text}
    {args : Arguments} {f : Arguments → σ → σ} (hsplit : splitCommand (cString command) = name :: args)
    (hf : p.functions name = some (.function f)) :
    p.execute files (fuel + 1) command x = some (true, f (name :: args) x) := by
  rw [execute, hsplit]
  simp only [hf]

/-- **The lines of a file are those that were written to it.** -/
theorem getlines_flatMap (hlines : ∀ line ∈ lines, '\n' ∉ line) :
    getlines [] (lines.flatMap fun line => line ++ ['\n']) = lines := by
  have hline : ∀ (line front rest : Text), '\n' ∉ line →
      getlines front (line ++ '\n' :: rest) = (front ++ line) :: getlines [] rest := by
    intro line
    induction line with
    | nil =>
      intro front rest _
      rw [List.nil_append, List.append_nil, getlines, if_pos rfl]
    | cons c line ih =>
      intro front rest hno
      rw [List.mem_cons, not_or] at hno
      obtain ⟨hc, hno⟩ := hno
      rw [List.cons_append, getlines, if_neg (Ne.symm hc), ih _ _ hno, List.append_assoc]
      rfl
  induction lines with
  | nil => rfl
  | cons line lines ih =>
    obtain ⟨hno, hlines⟩ := List.forall_mem_cons.1 hlines
    rw [List.flatMap_cons, List.append_assoc, List.singleton_append, hline _ _ _ hno, ih hlines]
    rfl

/-! ## Discovering, listing and unmuting -/

/-- Every UID is in the range that is searched. -/
theorem Idle.inRange_all (h : Idle D sys H) : inRange (1, 0xFFFFFFFFFFFE) H = H := by
  ext u
  rw [mem_inRange]
  refine and_iff_left_of_imp fun hu => ?_
  obtain ⟨d, hd, rfl⟩ := h.uids u hu
  have h1 := D.lt d hd
  have h2 := D.ne_broadcast d hd
  have h3 := D.ne_any d hd
  unfold broadcast at h2
  unfold any at h3
  constructor <;> simp only <;> omega

theorem Idle.subset_uids (h : Idle D sys H) : H ⊆ D.uids :=
  fun u hu => Fleet.mem_uids.2 (h.uids u hu)

/-- **What the shell needs of the devices**: no two are left together by
halving, and a search makes passes enough for all of them. -/
structure Fleet.Discoverable (D : Fleet) : Prop where
  separable : Separable D.uids 1 0xFFFFFFFFFFFE
  few : 1 + 49 * D.devices.length ≤ 0xffffffff

/-- **A discovery finds the devices that are not muted**, and mutes them. -/
theorem Idle.startDiscoveryAll (h : Idle D s.sys H) (hD : D.Discoverable) :
    s.startDiscoveryAll.discoveredDevices.Nodup ∧
      s.startDiscoveryAll.discoveredDevices.toFinset = H ∧ Idle D s.startDiscoveryAll.sys ∅ := by
  have hcard : H.card ≤ D.devices.length := by
    have hlen := List.toFinset_card_le (D.devices.map RdmDevice.myUid)
    rw [List.length_map] at hlen
    exact (Finset.card_le_card h.subset_uids).trans hlen
  have hfew := hD.few
  obtain ⟨-, hall⟩ := h.discoverDevices (by decide : 1 ≤ 1) (by decide : 1 ≤ 0xFFFFFFFFFFFE)
    (by decide) (hD.separable.mono h.subset_uids) 0xffffffff
  rw [h.inRange_all, Finset.sdiff_self] at hall
  obtain ⟨-, hnodup, hfound, hidle⟩ := hall (by omega)
  exact ⟨hnodup, hfound, hidle⟩

/-- All devices are unmuted at once. -/
theorem Idle.unmuteAll (h : Idle D sys H) : Idle D (sys.unmute broadcast) D.uids := by
  have hall : (⟨false, broadcast⟩ : Muting).after D H = D.uids := by
    refine Finset.filter_true_of_mem fun u _ => ?_
    have hall : (⟨false, broadcast⟩ : Muting).Concerns u := Or.inl rfl
    rw [Muting.heard, if_pos hall]
    rfl
  have hsend := h.sendMute ⟨false, broadcast⟩ (Or.inl rfl)
  rw [hall] at hsend
  exact hsend

/-- The UIDs that `listdevices` prints, one a line. -/
def listed (us : List ℕ) : List Printed := us.flatMap fun u => [.number true (some u), .endl]

theorem Shell.out_listdevices (args : Arguments) (s : Shell) :
    (s.listdevices args).out = s.out ++ listed s.discoveredDevices ∧
      (s.listdevices args).sys = s.sys ∧
      (s.listdevices args).discoveredDevices = s.discoveredDevices := by
  have hloop : ∀ (us : List ℕ) (s : Shell),
      let t := us.foldl (fun s uid => (s.setHex.printNumber (some uid)).print [.endl]) s
      t.out = s.out ++ listed us ∧ t.sys = s.sys ∧ t.discoveredDevices = s.discoveredDevices := by
    intro us
    induction us with
    | nil => exact fun s => ⟨(List.append_nil _).symm, rfl, rfl⟩
    | cons u us ih =>
      intro s
      obtain ⟨hout, hsys, hdevices⟩ := ih ((s.setHex.printNumber (some u)).print [.endl])
      refine ⟨hout.trans ?_, hsys, hdevices⟩
      simp [listed, print, printNumber, setHex]
  exact hloop s.discoveredDevices s

/-- What a pass of `test` prints: the UIDs on a line. -/
def row (us : List ℕ) : List Printed :=
  (us.flatMap fun u => [.number true (some u), .text [' ']]) ++ [.endl]

theorem Shell.out_testPass (s : Shell) :
    s.testPass.out = s.out ++ row s.startDiscoveryAll.discoveredDevices ∧
      s.testPass.sys = s.startDiscoveryAll.sys.unmute broadcast := by
  have hloop : ∀ (us : List ℕ) (s : Shell),
      let t := us.foldl (fun s uid => (s.setHex.printNumber (some uid)).print [.text [' ']]) s
      t.out = s.out ++ (us.flatMap fun u => [.number true (some u), .text [' ']]) ∧
        t.sys = s.sys := by
    intro us
    induction us with
    | nil => exact fun s => ⟨(List.append_nil _).symm, rfl⟩
    | cons u us ih =>
      intro s
      obtain ⟨hout, hsys⟩ := ih ((s.setHex.printNumber (some u)).print [.text [' ']])
      refine ⟨hout.trans ?_, hsys⟩
      simp [print, printNumber, setHex]
  obtain ⟨hout, hsys⟩ := hloop s.startDiscoveryAll.discoveredDevices s.startDiscoveryAll
  refine ⟨?_, congrArg (fun sys => sys.unmute broadcast) hsys⟩
  show _ ++ [Printed.endl] = _
  rw [hout, row, List.append_assoc]
  rfl

/-- The rows that the passes of `test` print. -/
structure Rows (D : Fleet) (H : Finset ℕ) (n : ℕ) (rows : List (List ℕ)) : Prop where
  length : rows.length = n
  nodup : ∀ us ∈ rows, us.Nodup
  first : ∀ us ∈ rows.head?, us.toFinset = H
  others : ∀ us ∈ rows.tail, us.toFinset = D.uids

/-- **Each pass of `test` lists the devices that are not muted**, and leaves
none that is. -/
theorem Idle.testPasses (h : Idle D s.sys H) (hD : D.Discoverable) (n : ℕ) :
    ∃ rows, Rows D H n rows ∧ (Shell.testPass^[n] s).out = s.out ++ rows.flatMap row ∧
      Idle D (Shell.testPass^[n] s).sys (if n = 0 then H else D.uids) := by
  induction n generalizing s H with
  | zero =>
    refine ⟨[], ⟨rfl, List.forall_mem_nil _, (fun us h => nomatch h), List.forall_mem_nil _⟩,
      ?_, ?_⟩
    · exact (List.append_nil _).symm
    · exact h
  | succ n ih =>
    obtain ⟨hnodup, hfound, hidle⟩ := h.startDiscoveryAll hD
    obtain ⟨hout, hsys⟩ := s.out_testPass
    have hpass : Idle D s.testPass.sys D.uids := hsys ▸ hidle.unmuteAll
    obtain ⟨rows, hrows, hout', hidle'⟩ := ih hpass
    refine ⟨s.startDiscoveryAll.discoveredDevices :: rows, ⟨?_, ?_, ?_, ?_⟩, ?_, ?_⟩
    · rw [List.length_cons, hrows.length]
    · exact List.forall_mem_cons.2 ⟨hnodup, hrows.nodup⟩
    · intro us hus
      rw [← Option.some.inj hus]
      exact hfound
    · intro us hus
      rcases rows with _ | ⟨vs, rows⟩
      · cases hus
      · rcases List.mem_cons.1 hus with rfl | hus
        · exact hrows.first us rfl
        · exact hrows.others us hus
    · rw [Function.iterate_succ_apply, hout', hout, List.flatMap_cons, List.append_assoc]
    · rw [Function.iterate_succ_apply, if_neg (Nat.succ_ne_zero n)]
      rwa [ite_self] at hidle'

/-- **`test` lists all devices in each of its passes**, once, but in the first
pass those that were not muted; whatever number of passes is asked for. -/
theorem test_lists (D : Fleet) (hD : D.Discoverable) (s : Shell) (H : Finset ℕ)
    (h : Idle D s.sys H) (files : Files) (n : ℕ) (hn : n < 2 ^ 31) :
    ∃ t rows, rdmParser.execute files 1 ("test".toList ++ ' ' :: numberText false n) s =
        some (true, t) ∧
      Rows D H n rows ∧ t.out = s.out ++ rows.flatMap row ∧
        Idle D t.sys (if n = 0 then H else D.uids) := by
  obtain ⟨rows, hrows, hout, hidle⟩ := h.testPasses hD n
  have hcount : ((strtol (numberText false n)).bmod (2 ^ 32)).toNat = n := by
    rw [strtol_numberText (by omega), Int.bmod_eq_of_le (by omega) (by omega)]
    rfl
  have htest : Shell.test ["test".toList, numberText false n] s = Shell.testPass^[n] s := by
    rw [Shell.test, hcount]
  refine ⟨Shell.testPass^[n] s, rows, ?_, hrows, hout, hidle⟩
  rw [← htest]
  exact CommandParser.execute_function
    (splitCommand_words (plain_of_all rfl) (plain_numberText false n)) rfl

theorem apart_allUids : apart.uids = {5, 9} := by decide

theorem apart_discoverable : apart.Discoverable where
  separable := by
    have h := apart_separable 1 0xFFFFFFFFFFFE
    rwa [apart_uids, ← apart_allUids] at h
  few := by decide

/-- The shell with the two devices. -/
def startApart : Shell :=
  Shell.start ⟨freshApi, DmxBus.new apart.devices⟩ fun _ => clearedBuffer

/-- Two passes over two devices. -/
theorem test_lists_two :
    ∃ t rows, rdmParser.execute [] 1 "test 2".toList startApart = some (true, t) ∧
      Rows apart {5, 9} 2 rows ∧ t.out = rows.flatMap row := by
  obtain ⟨t, rows, hexec, hrows, hout, -⟩ := test_lists apart apart_discoverable startApart _
    (Idle.start freshApi rfl) [] 2 (by decide)
  rw [apart_uids] at hrows
  exact ⟨t, rows, hexec, hrows, hout⟩

/-! ## A file that mutes and unmutes -/

/-- The line for a mute or an unmute, with the UID as it is listed. -/
def Muting.line (m : Muting) : Text :=
  (if m.on then "mute" else "unmute").toList ++ ' ' :: numberText true m.whom

/-- What is written to a file of such lines, which lists the devices at its end. -/
def scriptText (ms : List Muting) : Text :=
  (ms.map Muting.line ++ ["discovery".toList, "listdevices".toList]).flatMap fun line =>
    line ++ ['\n']

theorem Muting.Names.lt {m : Muting} (h : m.Names D) : m.whom < 2 ^ 48 := by
  rcases h with h | h
  · rw [h]
    decide
  · exact (Muting.lt_broadcast_of_mem_uids h).trans (by decide)

theorem Muting.plain_command (m : Muting) :
    Plain (if m.on then "mute" else "unmute").toList := by
  split
  · exact plain_of_all rfl
  · exact plain_of_all rfl

/-- **A line mutes or unmutes the device it names.** -/
theorem Muting.execute_line (m : Muting) (h : m.Names D) (s : Shell) :
    rdmParser.execute files (fuel + 1) m.line s = some (true, { s with sys := m.send s.sys }) := by
  have hsplit := splitCommand_words m.plain_command (plain_numberText true m.whom)
  have huid := uidOf_numberText h.lt
  rw [Muting.line, Muting.send]
  cases hon : m.on
  · rw [hon] at hsplit
    rw [CommandParser.execute_function hsplit (f := Shell.unmute) rfl, Shell.unmute, huid]
    rfl
  · rw [hon] at hsplit
    rw [CommandParser.execute_function hsplit (f := Shell.mute) rfl, Shell.mute, huid]
    rfl

theorem execute_lines (ms : List Muting) (hms : ∀ m ∈ ms, m.Names D) (s : Shell) :
    (ms.map Muting.line).foldlM
        (fun s line => (rdmParser.execute files (fuel + 1) line s).map Prod.snd) s =
      some { s with sys := ms.foldl (fun sys m => m.send sys) s.sys } := by
  induction ms generalizing s with
  | nil => rfl
  | cons m ms ih =>
    obtain ⟨hm, hms⟩ := List.forall_mem_cons.1 hms
    rw [List.map_cons, List.foldlM_cons, m.execute_line hm s]
    exact ih hms { s with sys := m.send s.sys }

/-- The lines of the file are executed, all of them. -/
theorem commands_scriptText (ms : List Muting) {name path : Text}
    (hfile : files.lookup path = some (scriptText ms)) :
    CommandParser.commands files [name, path] =
      ms.map Muting.line ++ ["discovery".toList, "listdevices".toList] := by
  have hline : ∀ m : Muting, '\n' ∉ m.line ∧ m.line.head? ≠ some '#' := by
    intro m
    have hcommand := m.plain_command
    have hnumber := plain_numberText true m.whom
    constructor
    · intro hmem
      rcases List.mem_append.1 hmem with hmem | hmem
      · exact hcommand.notMem (by decide) hmem
      · rcases List.mem_cons.1 hmem with heq | hmem
        · exact absurd heq (by decide)
        · exact hnumber.notMem (by decide) hmem
    · rw [Muting.line, List.head?_append_of_ne_nil _ hcommand.1]
      exact fun hhead => hcommand.notMem (by decide) (List.mem_of_mem_head? hhead)
  have hall : ∀ line ∈ ms.map Muting.line ++ ["discovery".toList, "listdevices".toList],
      '\n' ∉ line ∧ line.head? ≠ some '#' := by
    intro line hmem
    rcases List.mem_append.1 hmem with hmem | hmem
    · obtain ⟨m, -, rfl⟩ := List.mem_map.1 hmem
      exact hline m
    · have hends : ∀ line ∈ ["discovery".toList, "listdevices".toList],
          '\n' ∉ line ∧ line.head? ≠ some '#' := by decide
      exact hends line hmem
  simp only [CommandParser.commands, hfile]
  rw [scriptText, getlines_flatMap fun line hmem => (hall line hmem).1, List.filter_eq_self]
  exact fun line hmem => by simpa using (hall line hmem).2

/-- **A file mutes what it names, and lists what is left.** A file with any
mutes and unmutes of devices by the names under which they are listed, or of
all, that discovers and lists the devices at its end: executing it prints just
the UIDs of the devices that the last line about them unmuted, or that were
unmuted and are in no line, once each. -/
theorem script_lists (D : Fleet) (hD : D.Discoverable) (s : Shell) (H : Finset ℕ)
    (h : Idle D s.sys H) (ms : List Muting) (hms : ∀ m ∈ ms, m.Names D) (files : Files)
    (path : Text) (hpath : Plain path) (hfile : files.lookup path = some (scriptText ms)) :
    ∃ t us, rdmParser.execute files 2 ("execfile".toList ++ ' ' :: path) s = some (true, t) ∧
      t.out = s.out ++ listed us ∧ us.Nodup ∧
        ∀ u, u ∈ us ↔ u ∈ D.uids ∧ heardAfter ms u (decide (u ∈ H)) = true := by
  set s₁ : Shell := { s with sys := ms.foldl (fun sys m => m.send sys) s.sys } with hs₁
  have hidle : Idle D s₁.sys (D.uids.filter fun u => heardAfter ms u (decide (u ∈ H))) :=
    h.sendMutes ms hms
  obtain ⟨hnodup, hfound, -⟩ := hidle.startDiscoveryAll hD
  obtain ⟨hout, -, -⟩ := Shell.out_listdevices ["listdevices".toList] s₁.startDiscoveryAll
  refine ⟨s₁.startDiscoveryAll.listdevices ["listdevices".toList],
    s₁.startDiscoveryAll.discoveredDevices, ?_, hout, hnodup, fun u => ?_⟩
  · have hdiscovery : rdmParser.execute files 1 "discovery".toList s₁ =
        some (true, s₁.startDiscoveryAll) :=
      CommandParser.execute_function (splitCommand_word (plain_of_all rfl))
        (f := Shell.discovery) rfl
    have hlist : rdmParser.execute files 1 "listdevices".toList s₁.startDiscoveryAll =
        some (true, s₁.startDiscoveryAll.listdevices ["listdevices".toList]) :=
      CommandParser.execute_function (splitCommand_word (plain_of_all rfl)) rfl
    have hrun : (CommandParser.commands files ["execfile".toList, path]).foldlM
        (fun s line => (rdmParser.execute files 1 line s).map Prod.snd) s =
          some (s₁.startDiscoveryAll.listdevices ["listdevices".toList]) := by
      rw [commands_scriptText ms hfile, List.foldlM_append, execute_lines ms hms s, ← hs₁]
      simp only [Option.bind_eq_bind, Option.bind_some, List.foldlM_cons, List.foldlM_nil,
        hdiscovery, hlist, Option.map_some]
      rfl
    have hexec : rdmParser.functions "execfile".toList = some .executeFile := rfl
    rw [CommandParser.execute, splitCommand_words (plain_of_all rfl) hpath]
    simp only [hexec, hrun, Option.map_some]
  · rw [← List.mem_toFinset, hfound, Finset.mem_filter]

/-- A file that mutes device 5 lists device 9. -/
theorem script_lists_rest :
    ∃ t, rdmParser.execute [("f".toList, "mute 5\ndiscovery\nlistdevices\n".toList)] 2
        "execfile f".toList startApart = some (true, t) ∧ t.out = listed [9] := by
  obtain ⟨t, us, hexec, hout, hnodup, hmem⟩ := script_lists apart apart_discoverable startApart _
    (Idle.start freshApi rfl) [⟨true, 5⟩] (List.forall_mem_singleton.2 (Or.inr (by decide)))
    [("f".toList, "mute 5\ndiscovery\nlistdevices\n".toList)] "f".toList (plain_of_all rfl) rfl
  refine ⟨t, hexec, ?_⟩
  have hus : us = [9] := by
    refine List.perm_singleton.1 ((List.perm_ext_iff_of_nodup hnodup (List.nodup_singleton 9)).2 ?_)
    intro u
    rw [hmem, apart_allUids, Finset.mem_insert, Finset.mem_singleton, List.mem_singleton]
    constructor
    · rintro ⟨rfl | rfl, hheard⟩
      · exact absurd hheard (by decide)
      · rfl
    · rintro rfl
      exact ⟨Or.inr rfl, by decide⟩
  rw [hout, hus]
  rfl

end Librdm

end Dmx4Linux2
