import GridProof.Lib.Nested

/-!
# The calls behind a state

A machine whose calls nest, with the history of each state beside it: the calls that have led to the state
and have not been undone, latest first, each with the state it was made in.

* `recorded`        the machine that keeps the history; `run_forget` says that it runs as the machine without;
* `Leads`           a history leads from the first state to a state, and each of its calls met a condition;
* `run_leads`       the history of every frame leads to the frame's state;
* `Leads.since`     what every call since some point keeps holds from that point on.
-/

namespace Nested

open Runs

variable {σ α : Type*}

/-- a call and the state it was made in -/
structure Entry (σ α : Type*) where
  state : σ
  call : α

abbrev Recorded (σ α : Type*) := σ × List (Entry σ α)

def recorded (exec : σ → α → Outcome σ) (s : Recorded σ α) (a : α) : Outcome (Recorded σ α) :=
  match exec s.1 a with
  | .revert => .revert
  | .done t => .done (t, ⟨s.1, a⟩ :: s.2)
  | .opened t => .opened (t, ⟨s.1, a⟩ :: s.2)

section
variable {exec : σ → α → Outcome σ}

theorem recorded_done {s t : Recorded σ α} {a : α} (h : recorded exec s a = .done t) :
    exec s.1 a = .done t.1 ∧ t.2 = ⟨s.1, a⟩ :: s.2 := by
  unfold recorded at h
  cases he : exec s.1 a with
  | revert => rw [he] at h; cases h
  | done u => rw [he] at h; cases h; exact ⟨rfl, rfl⟩
  | opened u => rw [he] at h; cases h

theorem recorded_opened {s t : Recorded σ α} {a : α} (h : recorded exec s a = .opened t) :
    exec s.1 a = .opened t.1 ∧ t.2 = ⟨s.1, a⟩ :: s.2 := by
  unfold recorded at h
  cases he : exec s.1 a with
  | revert => rw [he] at h; cases h
  | done u => rw [he] at h; cases h
  | opened u => rw [he] at h; cases h; exact ⟨rfl, rfl⟩

/-! ## the machine without its history -/

def Machine.forget (m : Machine (Recorded σ α)) : Machine σ := ⟨m.top.1, m.saved.map Prod.fst⟩

theorem step_forget (m : Machine (Recorded σ α)) (a : Action α) :
    (step (recorded exec) m a).map Machine.forget = step exec m.forget a := by
  cases a with
  | call c =>
    have htop : m.forget.top = m.top.1 := rfl
    simp only [step, recorded, htop]
    cases exec m.top.1 c with
    | revert => rfl
    | done t => rfl
    | opened t => rfl
  | enter => rfl
  | ret ok =>
    obtain ⟨top, saved⟩ := m
    cases saved with
    | nil => rfl
    | cons s rest =>
      cases ok with
      | true => rfl
      | false => rfl

/-- **The machine with histories runs as the one without.** -/
theorem run_forget (m : Machine (Recorded σ α)) (as : List (Action α)) :
    (run (step (recorded exec)) m as).map Machine.forget = run (step exec) m.forget as := by
  induction as generalizing m with
  | nil => rfl
  | cons a as ih =>
    rw [run_cons, run_cons, ← step_forget]
    cases step (recorded exec) m a with
    | none => rfl
    | some t => exact ih t

/-! ## histories -/

/-- `trail` leads from `s₀` to a state, and each call met `Q` in its state and behind its history -/
inductive Leads (exec : σ → α → Outcome σ) (Q : Recorded σ α → α → Prop) (s₀ : σ) :
    Recorded σ α → Prop
  | start : Leads exec Q s₀ (s₀, [])
  | call {s : σ} {trail : List (Entry σ α)} {a : α} {t : σ} (hs : Leads exec Q s₀ (s, trail))
      (hQ : Q (s, trail) a) (h : exec s a = .done t ∨ exec s a = .opened t) :
      Leads exec Q s₀ (t, ⟨s, a⟩ :: trail)

/-- a call of the action meets `Q` in the current state -/
def Meets (Q : Recorded σ α → α → Prop) (m : Machine (Recorded σ α)) : Action α → Prop
  | .call a => Q m.top a
  | _ => True

instance (Q : Recorded σ α → α → Prop) [∀ s a, Decidable (Q s a)] (m : Machine (Recorded σ α))
    (a : Action α) : Decidable (Meets Q m a) := by
  unfold Meets
  split <;> infer_instance

/-- **The history of every frame leads to the frame's state.** -/
theorem run_leads {Q : Recorded σ α → α → Prop} {s₀ : σ} {m : Machine (Recorded σ α)}
    {as : List (Action α)} (hok : Along (step (recorded exec)) (Meets Q) ⟨(s₀, []), []⟩ as)
    (hrun : run (step (recorded exec)) ⟨(s₀, []), []⟩ as = some m) :
    m.All (Leads exec Q s₀) := by
  refine run_all (fun m c t hm hQ hc => ?_) (fun m c t hm hQ hc => ?_)
    (Machine.all_start .start) hok hrun
  · obtain ⟨t, trail⟩ := t
    obtain ⟨he, rfl⟩ := recorded_done hc
    exact .call hm hQ (.inl he)
  · obtain ⟨t, trail⟩ := t
    obtain ⟨he, rfl⟩ := recorded_opened hc
    exact .call hm hQ (.inr he)

/-- a property that every call since `s` has kept holds if it held in `s` -/
theorem Leads.since {Q : Recorded σ α → α → Prop} {s₀ s t : σ} {P : σ → Prop}
    {R : Entry σ α → Prop} {a : α} {later earlier : List (Entry σ α)}
    (hstep : ∀ s a t, P s → R ⟨s, a⟩ → (exec s a = .done t ∨ exec s a = .opened t) → P t)
    (h : Leads exec Q s₀ (t, later ++ ⟨s, a⟩ :: earlier)) (hs : P s)
    (hR : ∀ e ∈ later ++ [⟨s, a⟩], R e) : P t := by
  induction later generalizing t with
  | nil =>
    cases h with
    | call _ _ he => exact hstep s a t hs (hR ⟨s, a⟩ (List.mem_singleton_self _)) he
  | cons e later ih =>
    cases h with
    | @call u _ b _ hu _ he =>
      have hPu : P u := ih hu fun e' he' => hR e' (List.mem_cons_of_mem _ he')
      exact hstep u b t hPu (hR ⟨u, b⟩ List.mem_cons_self) he

end

end Nested
