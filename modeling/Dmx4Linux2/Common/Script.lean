import Mathlib.Data.Set.Card
import Mathlib.Logic.Relation

/-!
# Scripts

A command is an action, or it is a script: a list of commands that are carried
out one after the other. What a script does is what its actions do, in order
(`exec_eq_expansion`), so that an invariant of the actions is one of scripts
(`exec_invariant`). A command ends if no command within it is within itself
(`exec_ends_iff`), where there are finitely many.
-/

namespace Dmx4Linux2

namespace Script

variable {ι σ τ : Type*} {script : ι → Option (List ι)} {act : ι → σ → σ}
variable {i j : ι} {s t : σ} {fuel fuel' : ℕ}

/-- Carry out a command, with less than `fuel` scripts inside one another;
nothing if there are more. -/
def exec (script : ι → Option (List ι)) (act : ι → σ → σ) : ℕ → ι → σ → Option σ
  | 0, _, _ => none
  | fuel + 1, i, s =>
    match script i with
    | none => some (act i s)
    | some is => is.foldlM (fun s i => exec script act fuel i s) s

/-- `j` is one of the commands of the script `i`. -/
def Within (script : ι → Option (List ι)) (i j : ι) : Prop := ∃ is, script i = some is ∧ j ∈ is

theorem exec_act (h : script i = none) : exec script act (fuel + 1) i s = some (act i s) := by
  rw [exec, h]

theorem exec_script {is : List ι} (h : script i = some is) :
    exec script act (fuel + 1) i s = is.foldlM (fun s i => exec script act fuel i s) s := by
  rw [exec, h]

/-! ## Fuel -/

theorem foldlM_congr_some {f g : σ → ι → Option σ} {is : List ι}
    (hfg : ∀ i ∈ is, ∀ s t, f s i = some t → g s i = some t) (h : is.foldlM f s = some t) :
    is.foldlM g s = some t := by
  induction is generalizing s with
  | nil => exact h
  | cons i is ih =>
    rw [List.foldlM_cons] at h ⊢
    obtain ⟨s', hs', ht⟩ := Option.bind_eq_some_iff.1 h
    rw [hfg i List.mem_cons_self s s' hs']
    exact ih (fun j hj => hfg j (List.mem_cons_of_mem _ hj)) ht

theorem exec_mono (h : exec script act fuel i s = some t) (hle : fuel ≤ fuel') :
    exec script act fuel' i s = some t := by
  induction fuel generalizing i s t fuel' with
  | zero => cases h
  | succ fuel ih =>
    obtain ⟨k, rfl⟩ : ∃ k, fuel' = k + 1 := ⟨fuel' - 1, by omega⟩
    rcases hi : script i with _ | is
    · rw [exec_act hi] at h ⊢
      exact h
    · rw [exec_script hi] at h ⊢
      exact foldlM_congr_some (fun j _ s t hst => ih hst (by omega)) h

/-- **A command ends whatever the state**, with enough fuel, if none within it
goes on without end. -/
theorem exec_of_acc (act : ι → σ → σ) (h : Acc (fun j i => Within script i j) i) :
    ∃ fuel, ∀ s, (exec script act fuel i s).isSome := by
  induction h with
  | intro i _ ih =>
    rcases hi : script i with _ | is
    · refine ⟨1, fun s => ?_⟩
      rw [exec_act hi]
      rfl
    · have hall : ∀ js : List ι, (∀ j ∈ js, j ∈ is) →
          ∃ fuel, ∀ s, (js.foldlM (fun s i => exec script act fuel i s) s).isSome := by
        intro js
        induction js with
        | nil => exact fun _ => ⟨0, fun s => rfl⟩
        | cons j js ihjs =>
          intro hjs
          rw [List.forall_mem_cons] at hjs
          obtain ⟨m, hm⟩ := ih j ⟨is, hi, hjs.1⟩
          obtain ⟨n, hn⟩ := ihjs hjs.2
          refine ⟨max m n, fun s => ?_⟩
          obtain ⟨s', hs'⟩ := Option.isSome_iff_exists.1 (hm s)
          obtain ⟨t, ht⟩ := Option.isSome_iff_exists.1 (hn s')
          rw [List.foldlM_cons, exec_mono hs' (le_max_left m n)]
          refine Option.isSome_iff_exists.2 ⟨t, ?_⟩
          exact foldlM_congr_some (fun j _ s t hst => exec_mono hst (le_max_right m n)) ht
      obtain ⟨fuel, hfuel⟩ := hall is fun _ h => h
      refine ⟨fuel + 1, fun s => ?_⟩
      rw [exec_script hi]
      exact hfuel s

theorem acc_of_exec (h : (exec script act fuel i s).isSome) :
    Acc (fun j i => Within script i j) i := by
  induction fuel generalizing i s with
  | zero => cases h
  | succ fuel ih =>
    refine Acc.intro i fun j ⟨is, hi, hj⟩ => ?_
    rw [exec_script hi] at h
    clear hi
    induction is generalizing s with
    | nil => cases hj
    | cons k is ihis =>
      obtain ⟨t, ht⟩ := Option.isSome_iff_exists.1 h
      rw [List.foldlM_cons] at ht
      obtain ⟨s', hs', ht⟩ := Option.bind_eq_some_iff.1 ht
      rcases List.mem_cons.1 hj with rfl | hj
      · exact ih (Option.isSome_iff_exists.2 ⟨s', hs'⟩)
      · exact ihis (Option.isSome_iff_exists.2 ⟨t, ht⟩) hj

/-! ## Commands within themselves -/

/-- Nothing accessible leads to what leads to itself. -/
theorem not_leadsTo_itself {r : ι → ι → Prop} (h : Acc (fun j i => r i j) i) :
    ¬ ∃ j, Relation.ReflTransGen r i j ∧ Relation.TransGen r j j := by
  induction h with
  | intro i _ ih =>
    rintro ⟨j, hij, hjj⟩
    rcases Relation.ReflTransGen.cases_head hij with rfl | ⟨k, hik, hkj⟩
    · obtain ⟨k, hik, hki⟩ := Relation.TransGen.head'_iff.1 hjj
      exact ih k hik ⟨i, hki, hjj⟩
    · exact ih k hik ⟨j, hkj, hjj⟩

/-- **Where finitely many commands are within a command**, what goes on without
end comes to one that is within itself. -/
theorem acc_of_not_leadsTo_itself {r : ι → ι → Prop}
    (hfin : {j | Relation.TransGen r i j}.Finite)
    (h : ¬ ∃ j, Relation.ReflTransGen r i j ∧ Relation.TransGen r j j) :
    Acc (fun j i => r i j) i := by
  induction hn : {j | Relation.TransGen r i j}.ncard using Nat.strong_induction_on generalizing i with
  | _ n ih =>
    refine Acc.intro i fun k hik => ?_
    have hsub : {j | Relation.TransGen r k j} ⊆ {j | Relation.TransGen r i j} :=
      fun j hkj => Relation.TransGen.head hik hkj
    have hlt : {j | Relation.TransGen r k j}.ncard < {j | Relation.TransGen r i j}.ncard := by
      refine Set.ncard_lt_ncard (Set.ssubset_iff_of_subset hsub |>.2 ⟨k, ?_, ?_⟩) hfin
      · exact Relation.TransGen.single hik
      · exact fun hkk => h ⟨k, Relation.ReflTransGen.single hik, hkk⟩
    refine ih _ (hn ▸ hlt) (hfin.subset hsub) ?_ rfl
    rintro ⟨j, hkj, hjj⟩
    exact h ⟨j, Relation.ReflTransGen.head hik hkj, hjj⟩

/-- **A command ends just when it does not lead to one that is within itself**,
where finitely many are within it. -/
theorem exec_ends_iff (act : ι → σ → σ) (s : σ)
    (hfin : {j | Relation.TransGen (Within script) i j}.Finite) :
    (∃ fuel, (exec script act fuel i s).isSome) ↔
      ¬ ∃ j, Relation.ReflTransGen (Within script) i j ∧ Relation.TransGen (Within script) j j := by
  constructor
  · rintro ⟨fuel, hfuel⟩
    exact not_leadsTo_itself (acc_of_exec hfuel)
  · intro h
    obtain ⟨fuel, hfuel⟩ := exec_of_acc act (acc_of_not_leadsTo_itself hfin h)
    exact ⟨fuel, hfuel s⟩

/-! ## What a script does -/

/-- **An invariant of the actions is one of commands.** -/
theorem exec_invariant {P : σ → Prop} (hP : ∀ i, script i = none → ∀ s, P s → P (act i s))
    (hs : P s) (h : exec script act fuel i s = some t) : P t := by
  induction fuel generalizing i s t with
  | zero => cases h
  | succ fuel ih =>
    rcases hi : script i with _ | is
    · rw [exec_act hi] at h
      cases h
      exact hP i hi s hs
    · rw [exec_script hi] at h
      clear hi
      induction is generalizing s with
      | nil =>
        cases h
        exact hs
      | cons j is ihis =>
        rw [List.foldlM_cons] at h
        obtain ⟨s', hs', ht⟩ := Option.bind_eq_some_iff.1 h
        exact ihis (ih hs hs') ht

/-- **Carrying out a command in two worlds.** -/
theorem exec_map {act' : ι → τ → τ} {f : σ → τ} (hf : ∀ i s, f (act i s) = act' i (f s))
    (fuel : ℕ) (i : ι) (s : σ) :
    (exec script act fuel i s).map f = exec script act' fuel i (f s) := by
  induction fuel generalizing i s with
  | zero => rfl
  | succ fuel ih =>
    rcases hi : script i with _ | is
    · rw [exec_act hi, exec_act hi, Option.map_some, hf]
    · rw [exec_script hi, exec_script hi]
      clear hi
      induction is generalizing s with
      | nil => rfl
      | cons j is ihis =>
        rw [List.foldlM_cons, List.foldlM_cons, ← ih]
        rcases exec script act fuel j s with _ | s'
        · rfl
        · exact ihis s'

/-- The actions of a command, in order. -/
def expansion (script : ι → Option (List ι)) (fuel : ℕ) (i : ι) : Option (List ι) :=
  exec script (fun i is => is ++ [i]) fuel i []

/-- What is expanded is not a script. -/
theorem expansion_actions {is : List ι} (h : expansion script fuel i = some is) :
    ∀ j ∈ is, script j = none := by
  refine exec_invariant (P := fun is : List ι => ∀ j ∈ is, script j = none) ?_
    (List.forall_mem_nil _) h
  intro j hj is his
  exact List.forall_mem_append.2 ⟨his, List.forall_mem_singleton.2 hj⟩

/-- With more fuel it is the same. -/
theorem expansion_unique {is js : List ι} (h : expansion script fuel i = some is)
    (h' : expansion script fuel' i = some js) : is = js :=
  Option.some_injective _ <|
    (exec_mono h (le_max_left fuel fuel')).symm.trans (exec_mono h' (le_max_right fuel fuel'))

/-- **A command does what its actions do, in order.** -/
theorem exec_eq_expansion (act : ι → σ → σ) (fuel : ℕ) (i : ι) (s : σ) :
    exec script act fuel i s =
      (expansion script fuel i).map fun is => is.foldl (fun s i => act i s) s := by
  have hf : ∀ i (is : List ι), (is ++ [i]).foldl (fun s i => act i s) s =
      act i (is.foldl (fun s i => act i s) s) := fun i is => List.foldl_concat ..
  exact (exec_map hf fuel i []).symm

end Script

end Dmx4Linux2
