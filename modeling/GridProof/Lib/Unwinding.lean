import GridProof.Lib.Keyed

/-!
# Two runs seen by one observer

The same system runs twice, from states that are related and over actions that are related one by one.  What
the observer sees of an action and its answer is a list.

* `Alongside`         every action is related to the one at the same place of the other run, where the relation may
                      depend on the state of the first run;
* `Alongside.heard`   if related actions keep the states related and look the same, then the runs look the same.
-/

namespace Unwinding

variable {σ α β ω : Type*}

/-- the actions of the second run beside those of the first, which starts in `s` -/
def Alongside (step : σ → α → σ × β) (ok : σ → α → α → Prop) : σ → List α → List α → Prop
  | _, [], [] => True
  | s, a :: as, a' :: as' => ok s a a' ∧ Alongside step ok (step s a).1 as as'
  | _, [], _ :: _ => False
  | _, _ :: _, [] => False

/-- what the observer sees of a run -/
def heard (step : σ → α → σ × β) (see : α × β → List ω) (s : σ) (as : List α) : List ω :=
  (Keyed.answers step s as).flatMap see

theorem heard_cons (step : σ → α → σ × β) (see : α × β → List ω) (s : σ) (a : α) (as : List α) :
    heard step see s (a :: as) = see (a, (step s a).2) ++ heard step see (step s a).1 as := rfl

/-- **Two runs look the same if every pair of related actions does, and keeps the states related.** -/
theorem Alongside.heard {step : σ → α → σ × β} {ok : σ → α → α → Prop} {see : α × β → List ω}
    (R : σ → σ → Prop)
    (hstep : ∀ s s' a a', R s s' → ok s a a' →
      R (step s a).1 (step s' a').1 ∧ see (a, (step s a).2) = see (a', (step s' a').2))
    {s s' : σ} {as as' : List α} (hs : R s s') (h : Alongside step ok s as as') :
    heard step see s as = heard step see s' as' := by
  induction as generalizing s s' as' with
  | nil =>
    cases as' with
    | nil => rfl
    | cons a' as' => exact h.elim
  | cons a as ih =>
    cases as' with
    | nil => exact h.elim
    | cons a' as' =>
      obtain ⟨hok, hrest⟩ := h
      obtain ⟨hnext, hsee⟩ := hstep s s' a a' hs hok
      rw [heard_cons, heard_cons, hsee, ih hnext hrest]

end Unwinding
