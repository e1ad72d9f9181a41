import Dmx4Linux2.Common.Script
import Dmx4Linux2.Librdm.Model.Shell
import Mathlib.Data.List.TakeWhile

/-!
# librdm — words of commands, and files of them

A line is taken apart at its spaces, and the words put together again are the
line without the blanks around it (`splitCommand_iff`); two spaces have a word
between them. A command that executes files ends unless it comes to one that
executes itself, and does what the commands in the files do, in order
(`execute_ends_iff`).
-/

namespace Dmx4Linux2

namespace Librdm

variable {s t front back command : Text} {ws : List Text}

/-! ## Words -/

/-- **What is between the blanks at the ends.** -/
theorem trim_eq (s : Text) :
    trim s = ((s.dropWhile whitespace).reverse.dropWhile whitespace).reverse := by
  have hdrop : s.dropWhile whitespace = s.drop (s.findIdx fun c => !whitespace c) :=
    List.dropWhile_eq_drop_findIdx_not
  rcases hfind : s.findIdx? fun c => !whitespace c with _ | strBegin
  · have hblank := List.findIdx?_eq_none_iff_findIdx_eq.1 hfind
    have hnil : s.dropWhile whitespace = [] := by rw [hdrop, hblank, List.drop_length]
    rw [trim, hfind, hnil]
    rfl
  · obtain ⟨hlt, hbegin⟩ := List.findIdx?_eq_some_iff_findIdx_eq.1 hfind
    rw [hbegin] at hdrop
    -- the last other character is not in front of the first
    have hother : ∃ c ∈ (s.drop strBegin).reverse, (!whitespace c) = true := by
      refine ⟨s[strBegin], List.mem_reverse.2 ?_, ?_⟩
      · rw [List.drop_eq_getElem_cons hlt]
        exact List.mem_cons_self
      · have hget := List.findIdx_getElem (w := hbegin ▸ hlt)
        simpa only [hbegin] using hget
    have hidx : (s.reverse.findIdx fun c => !whitespace c) =
        (s.drop strBegin).reverse.findIdx fun c => !whitespace c := by
      have hsplit : s.reverse = (s.drop strBegin).reverse ++ (s.take strBegin).reverse := by
        rw [← List.reverse_append, List.take_append_drop]
      rw [hsplit, List.findIdx_append, if_pos (List.findIdx_lt_length.2 hother)]
    have hend := List.findIdx_lt_length.2 hother
    rw [List.length_reverse, List.length_drop] at hend
    have htake : ((s.drop strBegin).reverse.drop ((s.drop strBegin).reverse.findIdx
        fun c => !whitespace c)).reverse =
        (s.drop strBegin).take (s.length - strBegin -
          (s.drop strBegin).reverse.findIdx fun c => !whitespace c) := by
      rw [List.drop_reverse, List.reverse_reverse, List.length_drop]
    rw [trim, hfind, hdrop, List.dropWhile_eq_drop_findIdx_not, htake]
    simp only
    rw [hidx]
    congr 1
    omega

/-- Neither end of a text is blank. -/
def Unblank (t : Text) : Prop :=
  (∀ c, t.head? = some c → whitespace c = false) ∧ ∀ c, t.getLast? = some c → whitespace c = false

theorem dropWhile_append_of_blank {p : Char → Bool} (hfront : ∀ c ∈ front, p c = true)
    (ht : ∀ c, t.head? = some c → p c = false) : (front ++ t).dropWhile p = t := by
  rw [List.dropWhile_append_of_pos hfront]
  cases t with
  | nil => rfl
  | cons c t => exact List.dropWhile_cons_of_neg (by simp [ht c rfl])

/-- **The text between the blanks is the only one.** -/
theorem trim_eq_iff : trim s = t ↔ Unblank t ∧ ∃ front back, (∀ c ∈ front, whitespace c = true) ∧
    (∀ c ∈ back, whitespace c = true) ∧ s = front ++ t ++ back := by
  constructor
  · rintro rfl
    rw [trim_eq]
    set u := s.dropWhile whitespace with hu
    have hfront : s = s.takeWhile whitespace ++ u := (List.takeWhile_append_dropWhile).symm
    have hback : u = (u.reverse.dropWhile whitespace).reverse ++
        (u.reverse.takeWhile whitespace).reverse := by
      rw [← List.reverse_append, List.takeWhile_append_dropWhile, List.reverse_reverse]
    have hdropped : ∀ (v : Text) c, (v.dropWhile whitespace).head? = some c →
        whitespace c = false := by
      intro v c hc
      have := List.head?_dropWhile_not whitespace v
      rw [hc] at this
      exact this
    refine ⟨⟨fun c hc => ?_, fun c hc => ?_⟩, s.takeWhile whitespace,
      (u.reverse.takeWhile whitespace).reverse, fun c hc => List.mem_takeWhile_imp hc,
      fun c hc => List.mem_takeWhile_imp (List.mem_reverse.1 hc), ?_⟩
    · refine hdropped s c ?_
      rw [← hu, hback, List.head?_append, hc]
      rfl
    · refine hdropped u.reverse c ?_
      rwa [List.getLast?_reverse] at hc
    · rw [List.append_assoc, ← hback]
      exact hfront
  · rintro ⟨⟨hhead, hlast⟩, front, back, hfront, hback, rfl⟩
    rw [trim_eq, List.append_assoc]
    rcases t.eq_nil_or_concat with rfl | ⟨t', c, rfl⟩
    · have hblank : ∀ c ∈ front ++ ([] ++ back), whitespace c = true := by
        intro c hc
        rcases List.mem_append.1 hc with hc | hc
        · exact hfront c hc
        · exact hback c (by simpa using hc)
      have hnil : (front ++ ([] ++ back)).dropWhile whitespace = [] :=
        List.dropWhile_eq_nil_iff.2 hblank
      rw [hnil]
      rfl
    · rw [dropWhile_append_of_blank hfront, List.reverse_append, dropWhile_append_of_blank,
        List.reverse_reverse]
      · exact fun c hc => hback c (List.mem_reverse.1 hc)
      · intro c hc
        rw [List.head?_reverse] at hc
        exact hlast c hc
      · intro d hd
        refine hhead d ?_
        rw [← hd, List.head?_append]
        cases t' <;> rfl

theorem splitLoop_eq (command : Text) (passes pos : ℕ) (h : command.length ≤ passes + pos) :
    splitLoop command passes pos = (command.drop pos).splitOn ' ' := by
  induction passes generalizing pos with
  | zero =>
    rw [splitLoop, List.drop_eq_nil_of_le (by omega)]
    rfl
  | succ passes ih =>
    rw [splitLoop]
    rcases hfind : find ' ' command pos with _ | next
    · rw [find, Option.map_eq_none_iff, List.findIdx?_eq_none_iff] at hfind
      exact (List.splitOn_eq_singleton_of_beq_eq_false hfind).symm
    · obtain ⟨i, hi, rfl⟩ := Option.map_eq_some_iff.1 hfind
      obtain ⟨hlt, hsep, hbefore⟩ := List.findIdx?_eq_some_iff_getElem.1 hi
      have hsplit : command.drop pos =
          (command.drop pos).take i ++ ' ' :: command.drop (pos + i + 1) := by
        have hdrop := List.drop_eq_getElem_cons hlt
        rw [beq_iff_eq.1 hsep, List.drop_drop, List.drop_drop] at hdrop
        rw [Nat.add_assoc, ← hdrop, ← List.drop_drop, List.take_append_drop]
      have hword : ∀ c ∈ (command.drop pos).take i, (c == ' ') = false := by
        intro c hc
        obtain ⟨j, hj, rfl⟩ := List.mem_take_iff_getElem.1 hc
        exact Bool.eq_false_iff.2 (hbefore j (by omega))
      simp only
      rw [ih (pos + i + 1) (by omega), Nat.add_sub_cancel_left]
      conv_rhs => rw [hsplit]
      exact (List.splitOn_append_cons_of_forall_mem_beq_eq_false hword ' ' (BEq.refl _) _).symm

theorem space_notMem_of_mem_splitOn (s : Text) : ∀ w ∈ s.splitOn ' ', ' ' ∉ w := by
  induction s with
  | nil =>
    intro w hw
    rw [List.mem_singleton.1 hw]
    exact List.not_mem_nil
  | cons c s ih =>
    intro w hw
    rw [List.splitOn_cons_eq_if_modifyHead] at hw
    split at hw
    · rcases List.mem_cons.1 hw with rfl | hw
      · exact List.not_mem_nil
      · exact ih w hw
    · next hc =>
      obtain ⟨v, vs, hv⟩ := List.exists_cons_of_ne_nil (List.splitOn_ne_nil ' ' s)
      rw [hv] at hw ih
      rcases List.mem_cons.1 hw with rfl | hw
      · intro hmem
        rcases List.mem_cons.1 hmem with rfl | hmem
        · exact hc (BEq.refl _)
        · exact ih v List.mem_cons_self hmem
      · exact ih w (List.mem_cons_of_mem _ hw)

theorem splitCommand_eq_splitOn (command : Text) :
    splitCommand command = (trim command).splitOn ' ' :=
  splitLoop_eq (trim command) _ 0 (Nat.le_refl _)

/-- What is put together of words is taken apart into them. -/
theorem splitCommand_of_trim (hne : ws ≠ []) (hws : ∀ w ∈ ws, ' ' ∉ w)
    (htrim : trim command = [' '].intercalate ws) : splitCommand command = ws := by
  rw [splitCommand_eq_splitOn, htrim]
  exact List.splitOn_intercalate ' ' hws hne

/-- **The words of a line**: they have no spaces, there is one at least, and
joined by spaces they are the line without the blanks around it. The words of a
line are the only ones of which this is so. -/
theorem splitCommand_iff (command : Text) (ws : List Text) :
    splitCommand command = ws ↔ ws ≠ [] ∧ (∀ w ∈ ws, ' ' ∉ w) ∧ Unblank ([' '].intercalate ws) ∧
      ∃ front back, (∀ c ∈ front, whitespace c = true) ∧ (∀ c ∈ back, whitespace c = true) ∧
        command = front ++ [' '].intercalate ws ++ back := by
  rw [← trim_eq_iff]
  constructor
  · rintro rfl
    rw [splitCommand_eq_splitOn]
    exact ⟨List.splitOn_ne_nil _ _, space_notMem_of_mem_splitOn _,
      (List.intercalate_splitOn ' ').symm⟩
  · rintro ⟨hne, hws, htrim⟩
    exact splitCommand_of_trim hne hws htrim

/-! ## Files of commands -/

namespace CommandParser

variable {σ : Type} (p : CommandParser σ) (files : Files)

/-- A command that executes a file is a script, of the lines of the file. -/
def script (command : Text) : Option (List Text) :=
  match splitCommand (cString command) with
  | [] => none
  | name :: args =>
    match p.functions name with
    | some .executeFile => some (commands files (name :: args))
    | _ => none

/-- What any other command does. -/
def act (command : Text) (s : σ) : σ :=
  match splitCommand (cString command) with
  | [] => s
  | name :: args =>
    match p.functions name with
    | some (.function f) => f (name :: args) s
    | _ => s

/-- **`Execute` carries out scripts.** -/
theorem execute_eq_exec (fuel : ℕ) (command : Text) (s : σ) :
    (p.execute files fuel command s).map Prod.snd =
      Script.exec (p.script files) p.act fuel command s := by
  induction fuel generalizing command s with
  | zero => rfl
  | succ fuel ih =>
    have hlines : (fun s line => (p.execute files fuel line s).map Prod.snd) =
        fun s line => Script.exec (p.script files) p.act fuel line s :=
      funext fun s => funext fun line => ih line s
    rw [execute, Script.exec, hlines, script, act]
    rcases splitCommand (cString command) with _ | ⟨name, args⟩
    · rfl
    · simp only
      rcases p.functions name with _ | _ | f
      · rfl
      · simp only [Option.map_map]
        exact Option.map_id'
      · rfl

/-- The lines of all files. -/
def allLines : List Text := files.flatMap fun file => getlines [] file.2

theorem commands_subset (args : Arguments) : ∀ c ∈ commands files args, c ∈ allLines files := by
  intro c hc
  rcases args with _ | ⟨name, _ | ⟨path, rest⟩⟩
  · cases hc
  · cases hc
  · rw [commands] at hc
    rcases hlookup : files.lookup path with _ | content
    · rw [hlookup] at hc
      cases hc
    · rw [hlookup] at hc
      obtain ⟨before, after, rfl, -⟩ := List.lookup_eq_some_iff.1 hlookup
      refine List.mem_flatMap.2 ⟨(path, content), ?_, (List.mem_filter.1 hc).1⟩
      exact List.mem_append_right _ List.mem_cons_self

/-- A command leads to the lines of the file it executes. -/
def Leads : Text → Text → Prop := Script.Within (p.script files)

theorem leads_finite (command : Text) : {c | Relation.TransGen (p.Leads files) command c}.Finite := by
  refine (allLines files).toFinset.finite_toSet.subset fun c hc => ?_
  obtain ⟨d, -, is, hscript, hc⟩ := Relation.TransGen.tail'_iff.1 hc
  rw [Finset.mem_coe, List.mem_toFinset]
  rw [script] at hscript
  split at hscript
  · cases hscript
  · split at hscript
    · cases hscript
      exact commands_subset files _ c hc
    · cases hscript

/-- **When a command ends, and what it does.** It ends just when it does not
lead to a command that leads to itself; and whatever the state, it does what
the same commands do, one after the other, none of which executes a file. -/
theorem execute_ends_iff (command : Text) (s : σ) :
    ((∃ fuel, (p.execute files fuel command s).isSome) ↔
      ¬ ∃ c, Relation.ReflTransGen (p.Leads files) command c ∧
        Relation.TransGen (p.Leads files) c c) ∧
    ∃ actions : List Text, (∀ c ∈ actions, p.script files c = none) ∧
      ∀ fuel s r, p.execute files fuel command s = some r →
        r.2 = actions.foldl (fun s c => p.act c s) s := by
  have hsome : ∀ fuel, (p.execute files fuel command s).isSome =
      (Script.exec (p.script files) p.act fuel command s).isSome := by
    intro fuel
    rw [← execute_eq_exec, Option.isSome_map]
  constructor
  · simp only [hsome]
    exact Script.exec_ends_iff p.act s (p.leads_finite files command)
  · by_cases hends : ∃ fuel, (Script.expansion (p.script files) fuel command).isSome
    · obtain ⟨fuel₀, h₀⟩ := hends
      obtain ⟨actions, h₀⟩ := Option.isSome_iff_exists.1 h₀
      refine ⟨actions, Script.expansion_actions h₀, fun fuel s r hr => ?_⟩
      have hexec := p.execute_eq_exec files fuel command s
      rw [hr, Script.exec_eq_expansion] at hexec
      obtain ⟨actions', h', hr⟩ := Option.map_eq_some_iff.1 hexec.symm
      rw [Script.expansion_unique h₀ h']
      exact hr.symm
    · refine ⟨[], List.forall_mem_nil _, fun fuel s r hr => absurd ⟨fuel, ?_⟩ hends⟩
      have hexec := p.execute_eq_exec files fuel command s
      rw [hr, Script.exec_eq_expansion] at hexec
      obtain ⟨actions, h, -⟩ := Option.map_eq_some_iff.1 hexec.symm
      exact Option.isSome_iff_exists.2 ⟨actions, h⟩

end CommandParser

end Librdm

end Dmx4Linux2
