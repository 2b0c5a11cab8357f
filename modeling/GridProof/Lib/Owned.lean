import GridProof.Lib.Runs

/-!
# Tasks with a cell of their own

Tasks that take their steps in any order, over a store in which each of them has one cell, under its own key.

* `next`              a task starts under a key that none has had, or a task takes a step on its cell;
* `run_owned_split`   what starting establishes of a task and its cell, and every step keeps, holds of every task after
                      every run, and a cell without a task is as it was;
* `run_owned`         the same, where all that counts of a step is a condition.
-/

namespace Owned
open Runs

variable {κ τ ρ α : Type*} [DecidableEq κ]

structure World (κ τ ρ : Type*) where
  tasks : κ → Option τ
  cells : κ → ρ

inductive Action (κ τ α : Type*) where
  | start (k : κ) (t : τ)
  | act (k : κ) (a : α)

/-- `exec` is the step of a task on its cell -/
def next (exec : τ → ρ → α → Option (τ × ρ)) (w : World κ τ ρ) : Action κ τ α → Option (World κ τ ρ)
  | .start k t =>
    if (w.tasks k).isSome then none else some { w with tasks := Function.update w.tasks k (some t) }
  | .act k a =>
    (w.tasks k).bind fun t => (exec t (w.cells k) a).map fun done =>
      ⟨Function.update w.tasks k (some done.1), Function.update w.cells k done.2⟩

/-- no task, and the same in every cell -/
def World.empty (blank : ρ) : World κ τ ρ := ⟨fun _ => none, fun _ => blank⟩

/-- `Inv` of every task and its cell, and blank cells elsewhere -/
structure World.Keeps (blank : ρ) (Inv : κ → τ → ρ → Prop) (w : World κ τ ρ) : Prop where
  task : ∀ k t, w.tasks k = some t → Inv k t (w.cells k)
  none : ∀ k, w.tasks k = none → w.cells k = blank

section
variable {exec : τ → ρ → α → Option (τ × ρ)} {blank : ρ} {Inv : κ → τ → ρ → Prop} {w w' : World κ τ ρ}

theorem World.Keeps.start (h : w.Keeps blank Inv) {k : κ} {t : τ} (hk : w.tasks k = Option.none) (ht : Inv k t blank) :
    World.Keeps blank Inv { w with tasks := Function.update w.tasks k (some t) } := by
  refine ⟨fun k' t' ht' => ?_, fun k' hk' => ?_⟩
  · by_cases heq : k' = k
    · rw [heq] at ht' ⊢
      dsimp only at ht' ⊢
      rw [Function.update_self] at ht'
      rw [← Option.some.inj ht', h.none k hk]
      exact ht
    · dsimp only at ht' ⊢
      rw [Function.update_of_ne heq] at ht'
      exact h.task k' t' ht'
  · by_cases heq : k' = k
    · rw [heq] at hk'
      dsimp only at hk'
      rw [Function.update_self] at hk'
      cases hk'
    · dsimp only at hk' ⊢
      rw [Function.update_of_ne heq] at hk'
      exact h.none k' hk'

theorem World.Keeps.act (h : w.Keeps blank Inv) {k : κ} {t : τ} {c : ρ} (ht : Inv k t c) :
    World.Keeps blank Inv ⟨Function.update w.tasks k (some t), Function.update w.cells k c⟩ := by
  refine ⟨fun k' t' ht' => ?_, fun k' hk' => ?_⟩
  · by_cases heq : k' = k
    · rw [heq] at ht' ⊢
      dsimp only at ht' ⊢
      rw [Function.update_self] at ht' ⊢
      rw [← Option.some.inj ht']
      exact ht
    · dsimp only at ht' ⊢
      rw [Function.update_of_ne heq] at ht' ⊢
      exact h.task k' t' ht'
  · by_cases heq : k' = k
    · rw [heq] at hk'
      dsimp only at hk'
      rw [Function.update_self] at hk'
      cases hk'
    · dsimp only at hk' ⊢
      rw [Function.update_of_ne heq] at hk' ⊢
      exact h.none k' hk'

theorem next_keeps (h : w.Keeps blank Inv) {a : Action κ τ α} (hstart : ∀ k t, a = .start k t → Inv k t blank)
    (hact : ∀ k b t t' c', a = .act k b → w.tasks k = some t → Inv k t (w.cells k) →
      exec t (w.cells k) b = some (t', c') → Inv k t' c')
    (hnext : next exec w a = some w') : w'.Keeps blank Inv := by
  match a with
  | .start k t =>
    by_cases hsome : (w.tasks k).isSome = true
    · rw [next, if_pos hsome] at hnext
      cases hnext
    · rw [next, if_neg hsome] at hnext
      rw [← Option.some.inj hnext]
      exact h.start (Option.not_isSome_iff_eq_none.mp hsome) (hstart k t rfl)
  | .act k a =>
    obtain ⟨t, ht, hdone⟩ := Option.bind_eq_some_iff.mp hnext
    obtain ⟨⟨t', c'⟩, hexec, rfl⟩ := Option.map_eq_some_iff.mp hdone
    exact h.act (hact k a t t' c' rfl ht (h.task k t ht) hexec)

/-- **What starting establishes and every step keeps holds of every task and its cell after every run.**  A step may
use what came before it. -/
theorem run_owned_split {as : List (Action κ τ α)} (hstart : ∀ k t, Action.start k t ∈ as → Inv k t blank)
    (hstep : ∀ before k a after v t t' c', as = before ++ .act k a :: after →
      run (next exec) (.empty blank) before = some v → v.tasks k = some t → Inv k t (v.cells k) →
        exec t (v.cells k) a = some (t', c') → Inv k t' c')
    (hrun : run (next exec) (.empty blank) as = some w) : w.Keeps blank Inv := by
  have hempty : (World.empty blank : World κ τ ρ).Keeps blank Inv := ⟨fun _ _ h => absurd h nofun, fun _ _ => rfl⟩
  refine run_inv _ ?_ hempty (along_split _ _ as) hrun
  rintro v a v' hv ⟨before, after, has, hbefore⟩ hnext
  refine next_keeps hv ?_ ?_ hnext
  · rintro k t rfl
    refine hstart k t ?_
    rw [has]
    exact List.mem_append_right _ List.mem_cons_self
  · rintro k b t t' c' rfl
    exact hstep before k b after v t t' c' has hbefore

/-- the steps of the run meet `ok` -/
theorem run_owned {ok : α → Prop}
    (hstep : ∀ k t c a t' c', Inv k t c → ok a → exec t c a = some (t', c') → Inv k t' c')
    {as : List (Action κ τ α)} (hstart : ∀ k t, Action.start k t ∈ as → Inv k t blank)
    (hact : ∀ k a, Action.act k a ∈ as → ok a) (hrun : run (next exec) (.empty blank) as = some w) :
    w.Keeps blank Inv := by
  refine run_owned_split hstart ?_ hrun
  rintro before k a after v t t' c' rfl - - hinv hexec
  exact hstep k t (v.cells k) a t' c' hinv (hact k a (List.mem_append_right _ List.mem_cons_self)) hexec

end

end Owned
