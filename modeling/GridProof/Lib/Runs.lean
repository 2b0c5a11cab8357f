import Mathlib.Logic.Function.Basic

/-!
# Runs of a partial step function

A system is a partial step function `step : σ → α → Option σ`: the state after an action, `none`
if the action is not possible in the state.

* `run step s as`       the state after the actions `as`, in order;
* `Along step ok s as`  every action of the run meets `ok` in the state it is taken in (the
                        actions after an impossible one are never taken);
* `Along.of_inv`        a condition replaced by one that it implies under an invariant;
* `along_iff_reached`   a condition that is exact for keeping `P` is exact for runs within `P`;
* `run_inv`             an invariant kept by every step that meets `ok` holds after every run
                        along `ok`; `run_inv_all` is the case without a condition.
-/

namespace Runs

variable {σ α : Type*}

/-- the state after the actions, `none` as soon as one is not possible -/
def run (step : σ → α → Option σ) : σ → List α → Option σ
  | s, [] => some s
  | s, a :: as => (step s a).bind fun s' => run step s' as

theorem run_nil (step : σ → α → Option σ) (s : σ) : run step s [] = some s := rfl

theorem run_cons (step : σ → α → Option σ) (s : σ) (a : α) (as : List α) :
    run step s (a :: as) = (step s a).bind fun s' => run step s' as := rfl

theorem run_append (step : σ → α → Option σ) (s : σ) (as bs : List α) :
    run step s (as ++ bs) = (run step s as).bind fun s' => run step s' bs := by
  induction as generalizing s with
  | nil => rfl
  | cons a as ih =>
    rw [List.cons_append, run_cons, run_cons]
    cases step s a with
    | none => rfl
    | some s' => exact ih s'

theorem run_cons_eq_some {step : σ → α → Option σ} {s s' : σ} {a : α} {as : List α}
    (h : run step s (a :: as) = some s') : ∃ t, step s a = some t ∧ run step t as = some s' :=
  Option.bind_eq_some_iff.mp h

/-- every action of the run meets `ok` in the state it is taken in -/
def Along (step : σ → α → Option σ) (ok : σ → α → Prop) : σ → List α → Prop
  | _, [] => True
  | s, a :: as => ok s a ∧
      match step s a with
      | some s' => Along step ok s' as
      | none => True

instance Along.decidable (step : σ → α → Option σ) (ok : σ → α → Prop)
    [∀ s a, Decidable (ok s a)] : ∀ s as, Decidable (Along step ok s as)
  | _, [] => isTrue trivial
  | s, a :: as =>
    have : Decidable (match step s a with | some s' => Along step ok s' as | none => True) :=
      match step s a with
      | some s' => Along.decidable step ok s' as
      | none => isTrue trivial
    inferInstanceAs (Decidable (ok s a ∧ _))

theorem along_true (step : σ → α → Option σ) (s : σ) (as : List α) :
    Along step (fun _ _ => True) s as := by
  induction as generalizing s with
  | nil => trivial
  | cons a as ih =>
    refine ⟨trivial, ?_⟩
    cases step s a with
    | none => trivial
    | some s' => exact ih s'

theorem along_of_forall {step : σ → α → Option σ} {ok : σ → α → Prop} {as : List α} (h : ∀ a ∈ as, ∀ s, ok s a)
    (s : σ) : Along step ok s as := by
  induction as generalizing s with
  | nil => trivial
  | cons a as ih =>
    obtain ⟨ha, has⟩ := List.forall_mem_cons.mp h
    refine ⟨ha s, ?_⟩
    cases step s a with
    | none => trivial
    | some s' => exact ih has s'

theorem Along.head {step : σ → α → Option σ} {ok : σ → α → Prop} {s : σ} {a : α} {as : List α}
    (h : Along step ok s (a :: as)) : ok s a := h.1

theorem Along.tail {step : σ → α → Option σ} {ok : σ → α → Prop} {s t : σ} {a : α} {as : List α}
    (h : Along step ok s (a :: as)) (ht : step s a = some t) : Along step ok t as := by
  have h2 := h.2
  rw [ht] at h2
  exact h2

theorem Along.cons {step : σ → α → Option σ} {ok : σ → α → Prop} {s t : σ} {a : α} {as : List α}
    (ha : ok s a) (ht : step s a = some t) (has : Along step ok t as) : Along step ok s (a :: as) := by
  refine ⟨ha, ?_⟩
  rw [ht]
  exact has

/-- a run along `ok` is along it in both of its parts -/
theorem along_append {step : σ → α → Option σ} {ok : σ → α → Prop} {s t : σ} {as bs : List α}
    (h : Along step ok s (as ++ bs)) (ht : run step s as = some t) : Along step ok s as ∧ Along step ok t bs := by
  induction as generalizing s with
  | nil =>
    obtain rfl := Option.some.inj ht
    exact ⟨trivial, h⟩
  | cons a as ih =>
    obtain ⟨u, hu, hrun⟩ := run_cons_eq_some ht
    obtain ⟨has, hbs⟩ := ih (Along.tail h hu) hrun
    refine ⟨⟨Along.head h, ?_⟩, hbs⟩
    rw [hu]
    exact has

theorem Along.append {step : σ → α → Option σ} {ok : σ → α → Prop} {s t : σ} {as bs : List α}
    (has : Along step ok s as) (ht : run step s as = some t) (hbs : Along step ok t bs) :
    Along step ok s (as ++ bs) := by
  induction as generalizing s with
  | nil =>
    obtain rfl := Option.some.inj ht
    exact hbs
  | cons a as ih =>
    obtain ⟨u, hu, hrun⟩ := run_cons_eq_some ht
    exact .cons has.head hu (ih (has.tail hu) hrun)

/-- **An invariant that every step along `ok` keeps holds after every run along `ok`.** -/
theorem run_inv {step : σ → α → Option σ} {ok : σ → α → Prop} (Inv : σ → Prop)
    (hstep : ∀ s a s', Inv s → ok s a → step s a = some s' → Inv s')
    {s s' : σ} {as : List α} (hs : Inv s) (hok : Along step ok s as)
    (h : run step s as = some s') : Inv s' := by
  induction as generalizing s with
  | nil => cases h; exact hs
  | cons a as ih =>
    obtain ⟨t, ht, hrun⟩ := run_cons_eq_some h
    exact ih (hstep s a t hs hok.head ht) (hok.tail ht) hrun

/-- each action of a run is taken after those before it -/
theorem along_split (step : σ → α → Option σ) (s : σ) (as : List α) :
    Along step (fun t a => ∃ before after, as = before ++ a :: after ∧ run step s before = some t) s as := by
  suffices hall : ∀ before after t, as = before ++ after → run step s before = some t →
      Along step (fun t a => ∃ before after, as = before ++ a :: after ∧ run step s before = some t) t after from
    hall [] as s rfl rfl
  intro before after t has ht
  induction after generalizing before t with
  | nil => trivial
  | cons a after ih =>
    refine ⟨⟨before, after, has, ht⟩, ?_⟩
    cases hnext : step t a with
    | none => trivial
    | some t' =>
      refine ih (before ++ [a]) t' (by rw [has, List.append_assoc, List.singleton_append]) ?_
      rw [run_append, ht, Option.bind_some, run_cons, hnext, Option.bind_some, run_nil]

/-- along a run whose steps keep an invariant, a condition may be replaced by what it implies -/
theorem Along.of_inv {step : σ → α → Option σ} {ok ok' : σ → α → Prop} (Inv : σ → Prop)
    (hstep : ∀ s a s', Inv s → ok s a → step s a = some s' → Inv s')
    (himp : ∀ s a, Inv s → ok s a → ok' s a) {s : σ} {as : List α} (hs : Inv s)
    (h : Along step ok s as) : Along step ok' s as := by
  induction as generalizing s with
  | nil => trivial
  | cons a as ih =>
    refine ⟨himp s a hs h.head, ?_⟩
    cases ht : step s a with
    | none => trivial
    | some t => exact ih (hstep s a t hs h.head ht) (h.tail ht)

/-- **If a step keeps `P` exactly when it meets `ok`, then a run is along `ok` iff `P` holds in every
state it reaches.**  The run starts in `P`; `Inv` is any invariant of the steps. -/
theorem along_iff_reached {step : σ → α → Option σ} {ok : σ → α → Prop} {P : σ → Prop}
    (Inv : σ → Prop) (hinv : ∀ s a s', Inv s → step s a = some s' → Inv s')
    (hiff : ∀ s a s', Inv s → P s → step s a = some s' → (ok s a ↔ P s')) {s s' : σ} {as : List α}
    (hs : Inv s) (hP : P s) (hrun : run step s as = some s') : Along step ok s as ↔
    ∀ before after t, as = before ++ after → run step s before = some t → P t := by
  induction as generalizing s with
  | nil =>
    refine ⟨fun _ before after t he ht => ?_, fun _ => trivial⟩
    obtain ⟨rfl, rfl⟩ := List.append_eq_nil_iff.mp he.symm
    cases ht
    exact hP
  | cons a as ih =>
    obtain ⟨t, ht, hrest⟩ := run_cons_eq_some hrun
    have hok := hiff s a t hs hP ht
    have hit := hinv s a t hs ht
    constructor
    · intro h before after u he hu
      cases before with
      | nil => cases hu; exact hP
      | cons b before =>
        obtain ⟨rfl, rfl⟩ := List.cons.inj he
        rw [run_cons, ht] at hu
        exact (ih hit (hok.mp h.head) hrest).mp (h.tail ht) before after u rfl hu
    · intro h
      have hPt : P t := h [a] as t rfl (by rw [run_cons, ht]; rfl)
      refine ⟨hok.mpr hPt, ?_⟩
      rw [ht]
      refine (ih hit hPt hrest).mpr fun before after u he hu => h (a :: before) after u ?_ ?_
      · rw [he, List.cons_append]
      · rw [run_cons, ht]
        exact hu

/-- an invariant that every step keeps holds after every run -/
theorem run_inv_all {step : σ → α → Option σ} (Inv : σ → Prop)
    (hstep : ∀ s a s', Inv s → step s a = some s' → Inv s')
    {s s' : σ} {as : List α} (hs : Inv s) (h : run step s as = some s') : Inv s' :=
  run_inv Inv (fun s a s' hi _ => hstep s a s' hi) hs (along_true step s as) h

end Runs
