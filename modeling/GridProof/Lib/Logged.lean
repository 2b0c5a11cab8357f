import GridProof.Lib.Runs

/-!
# Runs with a log

A system that writes down what its actions report, latest first.

* `Reported`             an action of a run has reported something;
* `logged step report`   the system with its log beside it; `run_logged` says that it runs as the system;
* `mem_log_iff`          the log holds what was reported;
* `along_iff_forall`     a run is along a condition iff every action that it takes meets it.
-/

namespace Runs

variable {σ α β : Type*}

/-- a run is along a condition iff every action that it takes meets it -/
theorem along_iff_forall {step : σ → α → Option σ} {ok : σ → α → Prop} {s : σ} {as : List α} :
    Along step ok s as ↔
      ∀ before a after t, as = before ++ a :: after → run step s before = some t → ok t a := by
  constructor
  · rintro h before a after t rfl ht
    exact (along_append h ht).2.head
  · intro h
    induction as generalizing s with
    | nil => trivial
    | cons a as ih =>
      refine ⟨h [] a as s rfl rfl, ?_⟩
      cases hu : step s a with
      | none => trivial
      | some u =>
        apply ih
        intro before b after t he ht
        apply h (a :: before) b after t (by rw [he, List.cons_append])
        rw [run_cons, hu]
        exact ht

/-- an action of the run has reported `b` -/
def Reported (step : σ → α → Option σ) (report : σ → α → Option β) (s : σ) (as : List α) (b : β) :
    Prop :=
  ∃ before a after t, as = before ++ a :: after ∧ run step s before = some t ∧ report t a = some b

def logged (step : σ → α → Option σ) (report : σ → α → Option β) (s : σ × List β) (a : α) :
    Option (σ × List β) :=
  (step s.1 a).map fun t => (t, (report s.1 a).toList ++ s.2)

section
variable {step : σ → α → Option σ} {report : σ → α → Option β}

theorem reported_cons {s u : σ} {a : α} {as : List α} {b : β} (hu : step s a = some u) :
    Reported step report s (a :: as) b ↔ report s a = some b ∨ Reported step report u as b := by
  constructor
  · rintro ⟨before, c, after, t, he, ht, hreport⟩
    cases before with
    | nil =>
      obtain ⟨rfl, -⟩ := List.cons.inj he
      cases ht
      exact .inl hreport
    | cons d before =>
      obtain ⟨rfl, hrest⟩ := List.cons.inj he
      rw [run_cons, hu] at ht
      exact .inr ⟨before, c, after, t, hrest, ht, hreport⟩
  · rintro (hreport | ⟨before, c, after, t, rfl, ht, hreport⟩)
    · exact ⟨[], a, as, s, rfl, rfl, hreport⟩
    · refine ⟨a :: before, c, after, t, rfl, ?_, hreport⟩
      rw [run_cons, hu]
      exact ht

theorem logged_eq_some {s t : σ × List β} {a : α} (h : logged step report s a = some t) :
    step s.1 a = some t.1 ∧ t.2 = (report s.1 a).toList ++ s.2 := by
  obtain ⟨u, hu, rfl⟩ := Option.map_eq_some_iff.mp h
  exact ⟨hu, rfl⟩

variable (step report) in
theorem run_logged (s : σ × List β) (as : List α) :
    (run (logged step report) s as).map Prod.fst = run step s.1 as := by
  induction as generalizing s with
  | nil => rfl
  | cons a as ih =>
    rw [run_cons, run_cons]
    unfold logged
    cases step s.1 a with
    | none => rfl
    | some t => exact ih _

variable (report) in
theorem run_eq_some_iff {s t : σ} {as : List α} (log : List β) :
    run step s as = some t ↔ ∃ log', run (logged step report) (s, log) as = some (t, log') := by
  rw [← run_logged step report (s, log) as, Option.map_eq_some_iff]
  constructor
  · rintro ⟨⟨_, log'⟩, hrun, rfl⟩
    exact ⟨log', hrun⟩
  · rintro ⟨log', hrun⟩
    exact ⟨(t, log'), hrun, rfl⟩

/-- after a run the log holds what it has held, and what was reported -/
theorem mem_log_iff {s : σ} {log : List β} {t : σ × List β} {as : List α}
    (h : run (logged step report) (s, log) as = some t) {b : β} :
    b ∈ t.2 ↔ b ∈ log ∨ Reported step report s as b := by
  induction as generalizing s log with
  | nil =>
    cases h
    refine ⟨.inl, fun hb => hb.resolve_right ?_⟩
    rintro ⟨before, a, after, _, he, -⟩
    exact absurd he.symm (List.append_ne_nil_of_right_ne_nil _ (List.cons_ne_nil a after))
  | cons a as ih =>
    obtain ⟨⟨u, log'⟩, hu, hrest⟩ := run_cons_eq_some h
    obtain ⟨hstep, rfl⟩ := logged_eq_some hu
    rw [ih hrest, reported_cons hstep, List.mem_append, Option.mem_toList]
    exact or_assoc.trans or_left_comm

end

end Runs
