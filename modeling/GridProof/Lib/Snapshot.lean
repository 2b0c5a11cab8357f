import Mathlib.Data.Set.Insert
import Mathlib.Logic.Function.Basic

/-!
# Snapshots of a growing set

Processes share a set that only grows, and a cell.  A process adds an element to the set, takes a
copy of the set, and later writes its copy to the cell.

* `mem_facts_run`   the set holds what it held at first and what was added;
* `mem_cell_run`    the cell holds what the set held when the last writer took its copy;
* `exists_last`     the last action of a kind in a run, to apply `mem_cell_run`.
-/

namespace Snapshot

variable {π α β : Type*}

inductive Action (π α : Type*) where
  | add (x : α)
  | read (p : π)
  | write (p : π)

structure State (π α : Type*) where
  facts : Set α
  copy : π → Set α
  cell : Set α

variable [DecidableEq π]

def step (s : State π α) : Action π α → State π α
  | .add x => { s with facts := insert x s.facts }
  | .read p => { s with copy := Function.update s.copy p s.facts }
  | .write p => { s with cell := s.copy p }

def run (s : State π α) (acts : List (Action π α)) : State π α := acts.foldl step s

theorem run_cons (s : State π α) (a : Action π α) (acts : List (Action π α)) :
    run s (a :: acts) = run (step s a) acts := rfl

theorem run_append (s : State π α) (acts acts' : List (Action π α)) :
    run s (acts ++ acts') = run (run s acts) acts' := List.foldl_append

theorem mem_facts_run {s : State π α} {acts : List (Action π α)} {x : α} :
    x ∈ (run s acts).facts ↔ x ∈ s.facts ∨ .add x ∈ acts := by
  induction acts generalizing s with
  | nil => exact (or_iff_left List.not_mem_nil).symm
  | cons a acts ih =>
    rw [run_cons, ih, List.mem_cons]
    cases a with
    | add y =>
      show (x = y ∨ x ∈ s.facts) ∨ _ ↔ _
      rw [Action.add.injEq, or_comm (a := x = y), or_assoc]
    | read p => exact or_congr_right (or_iff_right nofun).symm
    | write p => exact or_congr_right (or_iff_right nofun).symm

theorem copy_run {s : State π α} {acts : List (Action π α)} {p : π} (h : .read p ∉ acts) :
    (run s acts).copy p = s.copy p := by
  induction acts generalizing s with
  | nil => rfl
  | cons a acts ih =>
    rw [run_cons, ih fun hmem => h (List.mem_cons_of_mem a hmem)]
    cases a with
    | add y => rfl
    | read q =>
      have hne : p ≠ q := fun e => h (e ▸ List.mem_cons_self)
      exact Function.update_of_ne hne _ _
    | write q => rfl

theorem cell_run {s : State π α} {acts : List (Action π α)} (h : ∀ p, .write p ∉ acts) :
    (run s acts).cell = s.cell := by
  induction acts generalizing s with
  | nil => rfl
  | cons a acts ih =>
    rw [run_cons, ih fun p hmem => h p (List.mem_cons_of_mem a hmem)]
    cases a with
    | add y => rfl
    | read q => rfl
    | write q => exact absurd List.mem_cons_self (h q)

/-- **The cell holds what the set held when the last writer took its copy.** -/
theorem mem_cell_run {s : State π α} {p : π} {before between after : List (Action π α)}
    (hread : .read p ∉ between) (hwrite : ∀ q, .write q ∉ after) {x : α} :
    x ∈ (run s (before ++ .read p :: (between ++ .write p :: after))).cell ↔
      x ∈ s.facts ∨ .add x ∈ before := by
  rw [run_append, run_cons, run_append, run_cons, cell_run hwrite]
  show x ∈ (run _ between).copy p ↔ _
  rw [copy_run hread]
  show x ∈ Function.update (run s before).copy p (run s before).facts p ↔ _
  rw [Function.update_self, mem_facts_run]

/-- the last element of a list with a property -/
theorem exists_last {l : List β} {q : β → Prop} [DecidablePred q] (h : ∃ a ∈ l, q a) :
    ∃ before a after, l = before ++ a :: after ∧ q a ∧ ∀ b ∈ after, ¬ q b := by
  induction l with
  | nil => exact absurd h.choose_spec.1 List.not_mem_nil
  | cons b l ih =>
    by_cases hl : ∃ a ∈ l, q a
    · obtain ⟨before, a, after, rfl, ha, hafter⟩ := ih hl
      exact ⟨b :: before, a, after, rfl, ha, hafter⟩
    · obtain ⟨a, ha, hq⟩ := h
      rcases List.mem_cons.mp ha with rfl | hmem
      · exact ⟨[], a, l, rfl, hq, fun c hc hqc => hl ⟨c, hc, hqc⟩⟩
      · exact absurd ⟨a, hmem, hq⟩ hl

end Snapshot
