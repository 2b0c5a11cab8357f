import GridProof.Lib.Runs

/-!
# Calls that nest and roll back

A component whose calls may hand control to foreign code: `exec s a` reverts, ends in a state, or
ends in a state from which foreign code runs until it returns.  While it runs, any further calls
may be made, and if it fails everything since the state before the outer call is undone.

* `Machine`, `step`   the current state and one saved state per frame still open; `enter` opens a
                      frame of foreign code alone (a caller that may revert as a whole);
* `run_all`           an invariant kept by `exec` holds of the current state and of every saved
                      one, at any depth;
* `step_revert`       a reverted call changes nothing;
* `rollback`          a frame that fails leaves the machine exactly as it was before the frame
                      was opened, whatever was called inside it.
-/

namespace Nested

open Runs

variable {σ α : Type*}

/-- how a call ends -/
inductive Outcome (σ : Type*) where
  | revert
  | done (s : σ)
  | opened (s : σ)

/-- the outcome for a state of which `σ` is a part -/
def Outcome.map {τ : Type*} (f : σ → τ) : Outcome σ → Outcome τ
  | .revert => .revert
  | .done s => .done (f s)
  | .opened s => .opened (f s)

structure Machine (σ : Type*) where
  top : σ
  saved : List σ

inductive Action (α : Type*) where
  | call (a : α)
  | enter
  | ret (ok : Bool)

def step (exec : σ → α → Outcome σ) (m : Machine σ) : Action α → Option (Machine σ)
  | .call a =>
    match exec m.top a with
    | .revert => some m
    | .done s => some ⟨s, m.saved⟩
    | .opened s => some ⟨s, m.top :: m.saved⟩
  | .enter => some ⟨m.top, m.top :: m.saved⟩
  | .ret ok =>
    match m.saved with
    | [] => none
    | s :: rest => some ⟨if ok then m.top else s, rest⟩

/-- `P` holds of the current state and of every saved one -/
def Machine.All (P : σ → Prop) (m : Machine σ) : Prop := P m.top ∧ ∀ s ∈ m.saved, P s

theorem Machine.all_start {P : σ → Prop} {s : σ} (h : P s) : Machine.All P ⟨s, []⟩ :=
  ⟨h, fun _ ht => absurd ht List.not_mem_nil⟩

section
variable {exec : σ → α → Outcome σ}

theorem Outcome.map_ends {τ : Type*} {f : σ → τ} {o : Outcome σ} {t : τ}
    (h : o.map f = .done t ∨ o.map f = .opened t) : ∃ s, (o = .done s ∨ o = .opened s) ∧ f s = t := by
  cases o with
  | revert => rcases h with h | h <;> cases h
  | done s =>
    rcases h with h | h
    · exact ⟨s, .inl rfl, Outcome.done.inj h⟩
    · cases h
  | opened s =>
    rcases h with h | h
    · cases h
    · exact ⟨s, .inr rfl, Outcome.opened.inj h⟩

theorem step_revert {m : Machine σ} {a : α} (h : exec m.top a = .revert) :
    step exec m (.call a) = some m := by
  simp only [step, h]

theorem step_opened {m : Machine σ} {a : α} {s : σ} (h : exec m.top a = .opened s) :
    step exec m (.call a) = some ⟨s, m.top :: m.saved⟩ := by
  simp only [step, h]

/-- what one step can do -/
theorem step_cases {m m' : Machine σ} {a : Action α} (h : step exec m a = some m') :
    (∃ c, a = .call c ∧ exec m.top c = .revert ∧ m' = m) ∨
    (∃ c s, a = .call c ∧ exec m.top c = .done s ∧ m' = ⟨s, m.saved⟩) ∨
    (∃ c s, a = .call c ∧ exec m.top c = .opened s ∧ m' = ⟨s, m.top :: m.saved⟩) ∨
    (a = .enter ∧ m' = ⟨m.top, m.top :: m.saved⟩) ∨
    (∃ ok s rest, a = .ret ok ∧ m.saved = s :: rest ∧ m' = ⟨if ok then m.top else s, rest⟩) := by
  cases a with
  | call c =>
    simp only [step] at h
    cases hc : exec m.top c with
    | revert => rw [hc] at h; exact .inl ⟨c, rfl, hc, (Option.some.inj h).symm⟩
    | done s => rw [hc] at h; exact .inr (.inl ⟨c, s, rfl, hc, (Option.some.inj h).symm⟩)
    | opened s => rw [hc] at h; exact .inr (.inr (.inl ⟨c, s, rfl, hc, (Option.some.inj h).symm⟩))
  | enter => exact .inr (.inr (.inr (.inl ⟨rfl, (Option.some.inj h).symm⟩)))
  | ret ok =>
    simp only [step] at h
    cases hs : m.saved with
    | nil => rw [hs] at h; cases h
    | cons s rest =>
      rw [hs] at h
      exact .inr (.inr (.inr (.inr ⟨ok, s, rest, rfl, rfl, (Option.some.inj h).symm⟩)))

/-- an invariant kept by `exec` under `ok` is kept, in every frame, by a step that meets `ok` -/
theorem step_all {P : σ → Prop} {ok : Machine σ → Action α → Prop}
    (hdone : ∀ m c s, P m.top → ok m (.call c) → exec m.top c = .done s → P s)
    (hopen : ∀ m c s, P m.top → ok m (.call c) → exec m.top c = .opened s → P s)
    (m : Machine σ) (a : Action α) (m' : Machine σ) (hm : m.All P) (hok : ok m a)
    (h : step exec m a = some m') : m'.All P := by
  obtain ⟨htop, hsaved⟩ := hm
  rcases step_cases h with ⟨c, rfl, -, rfl⟩ | ⟨c, s, rfl, hc, rfl⟩ | ⟨c, s, rfl, hc, rfl⟩ |
    ⟨rfl, rfl⟩ | ⟨b, s, rest, rfl, hs, rfl⟩
  · exact ⟨htop, hsaved⟩
  · exact ⟨hdone m c s htop hok hc, hsaved⟩
  · refine ⟨hopen m c s htop hok hc, fun t ht => ?_⟩
    rcases List.mem_cons.mp ht with rfl | ht'
    · exact htop
    · exact hsaved t ht'
  · refine ⟨htop, fun t ht => ?_⟩
    rcases List.mem_cons.mp ht with rfl | ht'
    · exact htop
    · exact hsaved t ht'
  · rw [hs] at hsaved
    refine ⟨?_, fun t ht => hsaved t (List.mem_cons_of_mem _ ht)⟩
    cases b with
    | true => exact htop
    | false => exact hsaved s List.mem_cons_self

/-- **An invariant kept by `exec` holds in every frame after every run.** -/
theorem run_all {P : σ → Prop} {ok : Machine σ → Action α → Prop}
    (hdone : ∀ m c s, P m.top → ok m (.call c) → exec m.top c = .done s → P s)
    (hopen : ∀ m c s, P m.top → ok m (.call c) → exec m.top c = .opened s → P s)
    {m m' : Machine σ} {as : List (Action α)} (hm : m.All P) (hok : Along (step exec) ok m as)
    (h : run (step exec) m as = some m') : m'.All P :=
  run_inv _ (fun m a m' => step_all hdone hopen m a m') hm hok h

/-- the action does not return from the frame at depth `k` -/
def Inside (k : Nat) (m : Machine σ) : Action α → Prop
  | .ret _ => k < m.saved.length
  | _ => True

/-- the frames below depth `k` are not touched while nothing returns from depth `k` -/
theorem run_inside {base : List σ} {m m' : Machine σ} {as : List (Action α)}
    (hm : base <:+ m.saved) (hin : Along (step exec) (Inside base.length) m as)
    (h : run (step exec) m as = some m') : base <:+ m'.saved := by
  refine run_inv (fun m => base <:+ m.saved) (fun m a m' hm hok h => ?_) hm hin h
  rcases step_cases h with ⟨c, -, -, rfl⟩ | ⟨c, s, -, -, rfl⟩ | ⟨c, s, -, -, rfl⟩ |
    ⟨-, rfl⟩ | ⟨b, s, rest, rfl, hs, rfl⟩
  · exact hm
  · exact hm
  · exact hm.trans (List.suffix_cons _ _)
  · exact hm.trans (List.suffix_cons _ _)
  · -- the popped frame lies above `base`, because the stack is longer than `base`
    rw [hs] at hm
    rcases List.suffix_cons_iff.mp hm with e | hsuf
    · have hlt : base.length < m.saved.length := hok
      rw [hs, e] at hlt
      exact absurd hlt (Nat.lt_irrefl _)
    · exact hsuf

/-- **A frame that fails leaves the machine as it was before the call that opened it.** -/
theorem rollback {m m₁ m₂ : Machine σ} {as : List (Action α)}
    (hsaved : m₁.saved = m.top :: m.saved)
    (hin : Along (step exec) (Inside m₁.saved.length) m₁ as)
    (hrun : run (step exec) m₁ as = some m₂) (hdepth : m₂.saved.length = m₁.saved.length) :
    step exec m₂ (.ret false) = some m := by
  have hsuf : m₁.saved <:+ m₂.saved := run_inside (List.suffix_refl _) hin hrun
  have e : m₂.saved = m.top :: m.saved := (hsuf.eq_of_length hdepth.symm).symm.trans hsaved
  simp only [step, e]
  rfl

end

end Nested
