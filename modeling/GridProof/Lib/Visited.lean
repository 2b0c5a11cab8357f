import GridProof.Lib.Runs

/-!
# The states of a run

* `Visited step s as`   the states that the run `as` from `s` is in, the first and the last among them;
* `run_visited`         an invariant that may speak of those states.
-/

namespace Runs

variable {σ α : Type*}

/-- the run is in the state after some of its actions -/
def Visited (step : σ → α → Option σ) (s : σ) (as : List α) (t : σ) : Prop :=
  ∃ before after, as = before ++ after ∧ run step s before = some t

section
variable {step : σ → α → Option σ} {s t u : σ} {a : α} {as : List α}

theorem visited_first : Visited step s as s := ⟨[], as, rfl, rfl⟩

theorem Visited.cons (ha : step s a = some t) (h : Visited step t as u) : Visited step s (a :: as) u := by
  obtain ⟨before, after, rfl, hrun⟩ := h
  refine ⟨a :: before, after, rfl, ?_⟩
  rw [run_cons, ha]
  exact hrun

variable (Inv : (σ → Prop) → σ → Prop)

/-- the invariant speaks of the states `V` before the run and of those of the run -/
theorem run_visited_from (hmono : ∀ V W s, (∀ t, V t → W t) → Inv V s → Inv W s)
    (hstep : ∀ V s a s', V s → V s' → Inv V s → step s a = some s' → Inv V s') {V : σ → Prop} (hV : V s)
    (hs : Inv V s) (h : run step s as = some u) : Inv (fun t => V t ∨ Visited step s as t) u := by
  induction as generalizing s V with
  | nil =>
    obtain rfl := Option.some.inj h
    exact hmono _ _ _ (fun _ => .inl) hs
  | cons a as ih =>
    obtain ⟨t, ht, hrun⟩ := run_cons_eq_some h
    have hold : Inv (fun x => V x ∨ x = t) s := hmono _ _ _ (fun _ => .inl) hs
    refine hmono _ _ _ ?_ (ih (.inr rfl) (hstep _ s a t (.inl hV) (.inr rfl) hold ht) hrun)
    intro x hx
    rcases hx with (hx | rfl) | hx
    · exact .inl hx
    · exact .inr (Visited.cons ht visited_first)
    · exact .inr (hx.cons ht)

/-- **An invariant about a state and those before it holds after every run.**  A step may use that both of its
states are among them. -/
theorem run_visited (hmono : ∀ V W s, (∀ t, V t → W t) → Inv V s → Inv W s)
    (hstep : ∀ V s a s', V s → V s' → Inv V s → step s a = some s' → Inv V s')
    (hs : Inv (fun t => t = s) s) (h : run step s as = some u) : Inv (Visited step s as) u := by
  have hfirst : (fun t => t = s) s := rfl
  have hall := @run_visited_from _ _ step s u as Inv hmono hstep (fun t => t = s) hfirst hs h
  refine hmono _ _ _ ?_ hall
  intro x hx
  rcases hx with rfl | hx
  · exact visited_first
  · exact hx

end

end Runs
