import Mathlib.Data.List.Infix

/-!
# Runs of a machine

A machine is its step function; a run is the list of events it is given.
`Always` says a property of the state holds in every state the run
reaches, `EachStep` that a condition on the state before and the event
holds of every step it takes. `always_and_eachStep_iff` is the invariant
rule in its exact form: where a step from a good state leads to a good state
just when the step meets a condition, a run stays good just when all its
steps meet it.
-/

namespace Dmx4Linux2

variable {σ ε : Type*} {step : σ → ε → σ}
variable {P Q Aux : σ → Prop} {ok good : σ → ε → Prop}
variable {s : σ} {e : ε} {es es' : List ε}

/-- The state a run ends in. -/
def run (step : σ → ε → σ) (s : σ) (es : List ε) : σ := es.foldl step s

@[simp] theorem run_nil : run step s [] = s := rfl

@[simp] theorem run_cons : run step s (e :: es) = run step (step s e) es := rfl

theorem run_append : run step s (es ++ es') = run step (run step s es) es' :=
  List.foldl_append

theorem run_concat : run step s (es ++ [e]) = step (run step s es) e := by
  rw [run_append, run_cons, run_nil]

/-- **The property holds in every state the run reaches**, its first and
its last included. -/
def Always (step : σ → ε → σ) (P : σ → Prop) (s : σ) (es : List ε) : Prop :=
  ∀ pre, pre <+: es → P (run step s pre)

/-- **Every step of the run meets the condition**, on the state before it
and the event it takes. -/
def EachStep (step : σ → ε → σ) (ok : σ → ε → Prop) (s : σ) (es : List ε) : Prop :=
  ∀ pre e, pre ++ [e] <+: es → ok (run step s pre) e

@[simp] theorem always_nil : Always step P s [] ↔ P s := by
  simp [Always, List.prefix_nil]

theorem always_cons : Always step P s (e :: es) ↔ P s ∧ Always step P (step s e) es := by
  constructor
  · intro h
    exact ⟨h [] List.nil_prefix, fun pre hpre => h (e :: pre) (List.cons_prefix_cons.2 ⟨rfl, hpre⟩)⟩
  · rintro ⟨h0, h⟩ pre hpre
    rcases List.prefix_cons_iff.1 hpre with rfl | ⟨pre', rfl, hpre'⟩
    · exact h0
    · exact h pre' hpre'

@[simp] theorem eachStep_nil : EachStep step ok s [] := by
  intro pre e h
  simp [List.prefix_nil] at h

theorem eachStep_cons :
    EachStep step ok s (e :: es) ↔ ok s e ∧ EachStep step ok (step s e) es := by
  constructor
  · intro h
    refine ⟨h [] e (by simp), fun pre e' hpre => h (e :: pre) e' ?_⟩
    exact List.cons_prefix_cons.2 ⟨rfl, hpre⟩
  · rintro ⟨h0, h⟩ pre e' hpre
    cases pre with
    | nil =>
      obtain ⟨rfl, -⟩ := List.cons_prefix_cons.1 hpre
      exact h0
    | cons a pre =>
      obtain ⟨rfl, hpre'⟩ := List.cons_prefix_cons.1 hpre
      exact h pre e' hpre'

theorem eachStep_append :
    EachStep step ok s (es ++ es') ↔
      EachStep step ok s es ∧ EachStep step ok (run step s es) es' := by
  induction es generalizing s with
  | nil => simp
  | cons e es ih => rw [List.cons_append, eachStep_cons, eachStep_cons, ih, run_cons, and_assoc]

theorem eachStep_congr (h : ∀ s e, ok s e ↔ good s e) :
    EachStep step ok s es ↔ EachStep step good s es :=
  forall_congr' fun _ => forall_congr' fun _ => imp_congr_right fun _ => h _ _

/-- The property holds of the last state in particular. -/
theorem Always.last (h : Always step P s es) : P (run step s es) := h es (List.prefix_refl es)

/-- So does every step lead to a state with it. -/
theorem Always.eachStep (h : Always step P s es) : EachStep step (fun s e => P (step s e)) s es := by
  intro pre e hpre
  have hnext := h (pre ++ [e]) hpre
  rw [run_concat] at hnext
  exact hnext

/-- **The invariant rule**: what every step that meets `ok` keeps holds
all along a run of such steps. -/
theorem always_of_eachStep (hstep : ∀ s e, ok s e → P s → P (step s e))
    (hok : EachStep step ok s es) (hP : P s) : Always step P s es := by
  induction es generalizing s with
  | nil => exact always_nil.2 hP
  | cons e es ih =>
    obtain ⟨hfirst, hrest⟩ := eachStep_cons.1 hok
    exact always_cons.2 ⟨hP, ih hrest (hstep s e hfirst hP)⟩

/-- What follows for a step from the invariant before it. -/
theorem eachStep_of_always (h : ∀ s e, P s → ok s e → good s e) (hall : Always step P s es)
    (hok : EachStep step ok s es) : EachStep step good s es := by
  intro pre e hpre
  have hprefix : pre <+: es := (List.prefix_append pre [e]).trans hpre
  exact h _ e (hall pre hprefix) (hok pre e hpre)

/-- The invariant rule for what every step keeps. -/
theorem always_of_step (hstep : ∀ s e, P s → P (step s e)) (hP : P s) : Always step P s es :=
  always_of_eachStep (fun s e (_ : True) => hstep s e) (fun _ _ _ => trivial) hP

/-- **The exact rule with a stronger invariant.** `Q` is what the steps
that meet `ok` keep, and it gives `P`; from a state with `Q` a step that
does not meet `ok` is not good or leads to a state without `P`. Then all
states have `P` and all steps are good just when every step meets `ok`. -/
theorem always_and_eachStep_iff_of_invariant (hP : ∀ s, Q s → P s)
    (hbad : ∀ s e, Q s → P (step s e) → good s e → ok s e)
    (hstep : ∀ s e, Q s → ok s e → Q (step s e) ∧ good s e) (hQ : Q s) :
    (Always step P s es ∧ EachStep step good s es) ↔ EachStep step ok s es := by
  induction es generalizing s with
  | nil => simpa using hP s hQ
  | cons e es ih =>
    rw [always_cons, eachStep_cons, eachStep_cons]
    constructor
    · rintro ⟨⟨-, h⟩, hgood, hrest⟩
      have hok : ok s e := hbad s e hQ (h [] List.nil_prefix) hgood
      exact ⟨hok, (ih (hstep s e hQ hok).1).1 ⟨h, hrest⟩⟩
    · rintro ⟨hok, h⟩
      obtain ⟨hQ', hgood⟩ := hstep s e hQ hok
      obtain ⟨hall, hrest⟩ := (ih hQ').2 h
      exact ⟨⟨hP s hQ, hall⟩, hgood, hrest⟩

/-- **The exact invariant rule**, with a property of the steps besides.
`Aux` holds whatever happens; from a good state satisfying it a step is
itself good and leads to a good state just when it meets `ok`. Then all
states and all steps of a run are good just when every step meets `ok`. -/
theorem always_and_eachStep_iff (haux : ∀ s e, Aux s → Aux (step s e))
    (hstep : ∀ s e, Aux s → P s → (P (step s e) ∧ good s e ↔ ok s e)) (hA : Aux s) (hP : P s) :
    (Always step P s es ∧ EachStep step good s es) ↔ EachStep step ok s es := by
  refine always_and_eachStep_iff_of_invariant (Q := fun s => Aux s ∧ P s) ?_ ?_ ?_ ⟨hA, hP⟩
  · exact fun s h => h.2
  · rintro s e ⟨hA, hP⟩ hP' hgood
    exact (hstep s e hA hP).1 ⟨hP', hgood⟩
  · rintro s e ⟨hA, hP⟩ hok
    obtain ⟨hP', hgood⟩ := (hstep s e hA hP).2 hok
    exact ⟨⟨haux s e hA, hP'⟩, hgood⟩

/-- **The simulation rule.** Two machines take the same events. In related
states the one's step is good just when the other's meets `ok`, and good
steps lead to related states. Then the steps of the one are all good just
when those of the other all meet `ok`. -/
theorem eachStep_iff_of_simulation {σ' : Type*} {step' : σ' → ε → σ'} {ok' : σ' → ε → Prop}
    {R : σ → σ' → Prop} (hgood : ∀ s s' e, R s s' → (good s e ↔ ok' s' e))
    (hstep : ∀ s s' e, R s s' → good s e → R (step s e) (step' s' e)) {s' : σ'} (hR : R s s') :
    EachStep step good s es ↔ EachStep step' ok' s' es := by
  induction es generalizing s s' with
  | nil => exact iff_of_true eachStep_nil eachStep_nil
  | cons e es ih =>
    rw [eachStep_cons, eachStep_cons, ← hgood s s' e hR]
    exact and_congr_right fun hfirst => ih (hstep s s' e hR hfirst)

/-- The exact rule for a property of the steps alone. -/
theorem eachStep_iff_of_invariant (hgood : ∀ s e, Q s → (good s e ↔ ok s e))
    (hstep : ∀ s e, Q s → ok s e → Q (step s e)) (hQ : Q s) :
    EachStep step good s es ↔ EachStep step ok s es := by
  refine eachStep_iff_of_simulation (R := fun s s' => s = s' ∧ Q s) ?_ ?_ ⟨rfl, hQ⟩
  · rintro s _ e ⟨rfl, hQ⟩
    exact hgood s e hQ
  · rintro s _ e ⟨rfl, hQ⟩ hfirst
    exact ⟨rfl, hstep s e hQ ((hgood s e hQ).1 hfirst)⟩

/-- The exact rule for a property of the states alone, with a stronger
invariant; -/
theorem always_iff_eachStep_of_invariant (hP : ∀ s, Q s → P s)
    (hbad : ∀ s e, Q s → P (step s e) → ok s e) (hstep : ∀ s e, Q s → ok s e → Q (step s e))
    (hQ : Q s) : Always step P s es ↔ EachStep step ok s es := by
  have hiff : (Always step P s es ∧ EachStep step (fun _ _ => True) s es) ↔
      EachStep step ok s es :=
    always_and_eachStep_iff_of_invariant hP (fun s e hQ hP' _ => hbad s e hQ hP')
      (fun s e hQ hok => ⟨hstep s e hQ hok, trivial⟩) hQ
  exact ⟨fun h => hiff.1 ⟨h, fun _ _ _ => trivial⟩, fun h => (hiff.2 h).1⟩

/-- and with what holds whatever happens. -/
theorem always_iff_eachStep (haux : ∀ s e, Aux s → Aux (step s e))
    (hstep : ∀ s e, Aux s → P s → (P (step s e) ↔ ok s e)) (hA : Aux s) (hP : P s) :
    Always step P s es ↔ EachStep step ok s es := by
  refine always_iff_eachStep_of_invariant (Q := fun s => Aux s ∧ P s) ?_ ?_ ?_ ⟨hA, hP⟩
  · exact fun s h => h.2
  · rintro s e ⟨hA, hP⟩ hP'
    exact (hstep s e hA hP).1 hP'
  · rintro s e ⟨hA, hP⟩ hok
    exact ⟨haux s e hA, (hstep s e hA hP).2 hok⟩

/-! ## What a run shows -/

/-- What each event of a run shows, in the state it finds. -/
def outputs {ο : Type*} (step : σ → ε → σ) (out : σ → ε → ο) (s : σ) : List ε → List ο
  | [] => []
  | e :: es => out s e :: outputs step out (step s e) es

/-- **The rule for what does not matter.** A map of the states and one of
the events leave out some of both. Where a step commutes with them, and
shows the same, a run shows the same when it is left out. -/
theorem outputs_map {ο : Type*} {out : σ → ε → ο} {f : σ → σ} {g : ε → ε} {Line : ε → Prop}
    (hstep : ∀ s e, Line e → step (f s) (g e) = f (step s e))
    (hout : ∀ s e, Line e → out (f s) (g e) = out s e) (hes : ∀ e ∈ es, Line e) :
    outputs step out (f s) (es.map g) = outputs step out s es := by
  induction es generalizing s with
  | nil => rfl
  | cons e es ih =>
    have he := hes e (List.mem_cons_self ..)
    rw [List.map_cons, outputs, outputs, hstep s e he, hout s e he,
      ih fun e' he' => hes e' (List.mem_cons_of_mem _ he')]

end Dmx4Linux2
