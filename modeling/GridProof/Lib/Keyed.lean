import Mathlib.Data.List.Basic

/-!
# Systems that answer, seen one key at a time

A system answers every action: `step : σ → α → σ × β`.

* `final step s as`    the state after the actions;
* `answers step s as`  the actions of a run, each with its answer;
* `Local`              the part of the state that belongs to a key is moved by the actions of that key only, and
                       alone decides their answers;
* `Local.answers_filter`   the answers to the actions of one key are those of a run of that part alone.
-/

namespace Keyed

variable {σ τ κ α β : Type*}

def final (step : σ → α → σ × β) : σ → List α → σ
  | s, [] => s
  | s, a :: as => final step (step s a).1 as

def answers (step : σ → α → σ × β) : σ → List α → List (α × β)
  | _, [] => []
  | s, a :: as => (a, (step s a).2) :: answers step (step s a).1 as

section
variable (step : σ → α → σ × β)

theorem answers_cons (s : σ) (a : α) (as : List α) :
    answers step s (a :: as) = (a, (step s a).2) :: answers step (step s a).1 as := rfl

theorem final_append (s : σ) (as bs : List α) : final step s (as ++ bs) = final step (final step s as) bs := by
  induction as generalizing s with
  | nil => rfl
  | cons a as ih => exact ih _

theorem answers_append (s : σ) (as bs : List α) :
    answers step s (as ++ bs) = answers step s as ++ answers step (final step s as) bs := by
  induction as generalizing s with
  | nil => rfl
  | cons a as ih =>
    rw [List.cons_append, answers_cons, answers_cons, ih]
    rfl

theorem answers_fst (s : σ) (as : List α) : (answers step s as).map Prod.fst = as := by
  induction as generalizing s with
  | nil => rfl
  | cons a as ih => rw [answers_cons, List.map_cons, ih]

theorem answers_filter_fst (keep : α → Bool) (s : σ) (as : List α) :
    ((answers step s as).filter fun e => keep e.1).map Prod.fst = as.filter keep := by
  induction as generalizing s with
  | nil => rfl
  | cons a as ih =>
    rw [answers_cons, List.filter_cons, List.filter_cons]
    split
    · rw [List.map_cons, ih]
    · exact ih _

/-- the actions of another system, translated -/
theorem answers_map {γ : Type*} (f : γ → α) (s : σ) (cs : List γ) :
    (answers (fun s c => step s (f c)) s cs).map (Prod.map f id) = answers step s (cs.map f) := by
  induction cs generalizing s with
  | nil => rfl
  | cons c cs ih =>
    rw [answers_cons, List.map_cons, ih]
    rfl

/-- a system that is never moved -/
theorem answers_const {s : σ} {f : α → β} (h : ∀ a, step s a = (s, f a)) (as : List α) :
    answers step s as = as.map fun a => (a, f a) := by
  induction as with
  | nil => rfl
  | cons a as ih => rw [answers_cons, h a, ih, List.map_cons]

theorem answers_length (s : σ) (as : List α) : (answers step s as).length = as.length := by
  rw [← List.length_map Prod.fst, answers_fst]

end

/-- `part s k` is what the state holds for the key `k` -/
structure Local (step : σ → α → σ × β) (key : α → κ) (part : σ → κ → τ) (one : τ → α → τ × β) : Prop where
  answer : ∀ s a, (step s a).2 = (one (part s (key a)) a).2
  own : ∀ s a, part (step s a).1 (key a) = (one (part s (key a)) a).1
  other : ∀ s a k, k ≠ key a → part (step s a).1 k = part s k

/-- **the answers to the actions of one key** are decided by what the state holds for it -/
theorem Local.answers_filter [DecidableEq κ] {step : σ → α → σ × β} {key : α → κ} {part : σ → κ → τ}
    {one : τ → α → τ × β} (h : Local step key part one) (k : κ) (s : σ) (as : List α) :
    (answers step s as).filter (fun e => key e.1 = k) =
      answers one (part s k) (as.filter fun a => key a = k) := by
  induction as generalizing s with
  | nil => rfl
  | cons a as ih =>
    rw [answers_cons]
    by_cases hk : key a = k
    · obtain rfl := hk
      rw [List.filter_cons_of_pos (by simp), List.filter_cons_of_pos (by simp), answers_cons, ih,
        h.answer, h.own]
    · rw [List.filter_cons_of_neg (by simpa using hk), List.filter_cons_of_neg (by simpa using hk), ih,
        h.other s a k (Ne.symm hk)]

end Keyed
