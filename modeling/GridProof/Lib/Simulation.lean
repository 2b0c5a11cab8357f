import GridProof.Lib.Keyed

/-!
# Simulation of systems that answer

A concrete system `step` beside an abstract one, over the same actions.

* `Along step ok s as`   every action meets `ok` in the state it is taken in;
* `Along.simulates`      a relation that a step keeps where the answers agree: whole runs answer the same;
* `possible`             the abstract states after a run, where an answer leaves several open;
* `Along.possible`       a relation to one of the states that are left open is kept by whole runs;
* `run_events`           an invariant of the state and of all that was answered so far;
* `Throughout`           every answer meets a condition on what was answered before it.
-/

namespace Keyed

variable {σ τ α β : Type*}

/-- every action meets `ok` in the state it is taken in -/
def Along (step : σ → α → σ × β) (ok : σ → α → Prop) : σ → List α → Prop
  | _, [] => True
  | s, a :: as => ok s a ∧ Along step ok (step s a).1 as

instance Along.decidable (step : σ → α → σ × β) (ok : σ → α → Prop) [∀ s a, Decidable (ok s a)] :
    ∀ s as, Decidable (Along step ok s as)
  | _, [] => isTrue trivial
  | s, a :: as =>
    have := Along.decidable step ok (step s a).1 as
    inferInstanceAs (Decidable (_ ∧ _))

/-- the states after the actions, with their answers; `after` gives those that one answer leaves open -/
def possible (after : τ → α → β → List τ) : τ → List (α × β) → List τ
  | t, [] => [t]
  | t, (a, b) :: es => (after t a b).flatMap fun t' => possible after t' es

variable {step : σ → α → σ × β} {ok : σ → α → Prop} {s : σ} {t : τ} {as : List α}

theorem along_true (step : σ → α → σ × β) (s : σ) (as : List α) : Along step (fun _ _ => True) s as := by
  induction as generalizing s with
  | nil => trivial
  | cons a as ih => exact ⟨trivial, ih _⟩

/-- **Runs of related systems answer the same, and end in related states.** -/
theorem Along.simulates (step' : τ → α → τ × β) (R : σ → τ → Prop)
    (hstep : ∀ s t a, R s t → ok s a → (step s a).2 = (step' t a).2 ∧ R (step s a).1 (step' t a).1)
    (h : Along step ok s as) (hs : R s t) :
    answers step s as = answers step' t as ∧ R (final step s as) (final step' t as) := by
  induction as generalizing s t with
  | nil => exact ⟨rfl, hs⟩
  | cons a as ih =>
    obtain ⟨hanswer, hnext⟩ := hstep s t a hs h.1
    obtain ⟨hanswers, hfinal⟩ := ih h.2 hnext
    rw [answers_cons, answers_cons, hanswer, hanswers]
    exact ⟨rfl, hfinal⟩

/-- **A run ends in a state that is related to one that its answers leave open.** -/
theorem Along.possible (after : τ → α → β → List τ) (R : σ → τ → Prop)
    (hstep : ∀ s t a, R s t → ok s a → ∃ t' ∈ after t a (step s a).2, R (step s a).1 t')
    (h : Along step ok s as) (hs : R s t) :
    ∃ t' ∈ possible after t (answers step s as), R (final step s as) t' := by
  induction as generalizing s t with
  | nil => exact ⟨t, List.mem_singleton_self t, hs⟩
  | cons a as ih =>
    obtain ⟨u, hu, hnext⟩ := hstep s t a hs h.1
    obtain ⟨t', ht', hfinal⟩ := ih h.2 hnext
    exact ⟨t', List.mem_flatMap.mpr ⟨u, hu, ht'⟩, hfinal⟩

/-! ## what was answered before -/

/-- **What every answer keeps, of the state and of all answers so far, holds after every run.** -/
theorem run_events (Inv : List (α × β) → σ → Prop) (h : Inv [] s)
    (hstep : ∀ es s a, Inv es s → Inv (es ++ [(a, (step s a).2)]) (step s a).1) (as : List α) :
    Inv (answers step s as) (final step s as) := by
  have hrun (es : List (α × β)) (s : σ) (hes : Inv es s) : Inv (es ++ answers step s as) (final step s as) := by
    induction as generalizing es s with
    | nil =>
      rw [answers, List.append_nil]
      exact hes
    | cons a as ih =>
      have hrest := ih _ _ (hstep es s a hes)
      rw [List.append_assoc] at hrest
      exact hrest
  exact hrun [] s h

/-- every element meets `P` with what is before it -/
def Throughout {ε : Type*} (P : List ε → ε → Prop) (es : List ε) : Prop :=
  ∀ before e after, es = before ++ e :: after → P before e

theorem throughout_nil {ε : Type*} {P : List ε → ε → Prop} : Throughout P [] := by
  intro before e after h
  exact absurd h.symm (List.append_ne_nil_of_right_ne_nil before (List.cons_ne_nil e after))

theorem throughout_concat {ε : Type*} {P : List ε → ε → Prop} {es : List ε} {e : ε} :
    Throughout P (es ++ [e]) ↔ Throughout P es ∧ P es e := by
  constructor
  · intro h
    refine ⟨fun before e' after he => h before e' (after ++ [e]) ?_, h es e [] rfl⟩
    rw [he, List.append_assoc]
    rfl
  · rintro ⟨h, he⟩ before e' after heq
    rcases List.eq_nil_or_concat after with rfl | ⟨after, last, rfl⟩
    · obtain ⟨rfl, hlast⟩ := List.append_inj' heq rfl
      obtain rfl := (List.cons.inj hlast).1
      exact he
    · rw [List.concat_eq_append, ← List.cons_append, ← List.append_assoc] at heq
      exact h before e' after (List.append_inj' heq rfl).1

end Keyed
