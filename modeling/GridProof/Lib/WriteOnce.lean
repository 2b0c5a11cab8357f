import Mathlib.Order.Basic
import Mathlib.Order.Nat

/-!
# Registers that are written once

`x 0, x 1, …` are the values of a register along the steps of a system, and `writes i v` says that the step
from `x i` to `x (i + 1)` writes `v`.  A write needs a free register and leaves it taken.

* `Register.stays`   what was written is read forever;
* `Register.once`    no two steps write;
* `Register.taken_iff`  the register is taken iff a step before wrote.
-/

namespace WriteOnce

variable {α : Type*}

structure Register (x : ℕ → α) (free : α → Prop) (writes : ℕ → α → Prop) : Prop where
  start : free (x 0)
  was_free : ∀ i v, writes i v → free (x i)
  written : ∀ i v, writes i v → x (i + 1) = v
  taken : ∀ i v, writes i v → ¬ free v
  unchanged : ∀ i, (∀ v, ¬ writes i v) → x (i + 1) = x i

variable {x : ℕ → α} {free : α → Prop} {writes : ℕ → α → Prop}

theorem Register.stays (h : Register x free writes) {i n : ℕ} {v : α} (hw : writes i v)
    (hn : i < n) : x n = v := by
  induction n, hn using Nat.le_induction with
  | base => exact h.written i v hw
  | succ n _ ih =>
    -- another write would need a free register
    have hno : ∀ u, ¬ writes n u := by
      intro u hu
      have hfree := h.was_free n u hu
      rw [ih] at hfree
      exact h.taken i v hw hfree
    rw [h.unchanged n hno]
    exact ih

theorem Register.once (h : Register x free writes) {i j : ℕ} {u v : α} (hi : writes i u)
    (hj : writes j v) : i = j := by
  have key : ∀ {i j : ℕ} {u v : α}, writes i u → writes j v → ¬ i < j := by
    intro i j u v hi hj hlt
    have hfree := h.was_free j v hj
    rw [h.stays hi hlt] at hfree
    exact h.taken i u hi hfree
  have h1 := key hi hj
  have h2 := key hj hi
  omega

theorem Register.taken_iff (h : Register x free writes) (n : ℕ) :
    ¬ free (x n) ↔ ∃ i < n, ∃ v, writes i v := by
  constructor
  · intro hn
    by_contra hno
    have hfree : ∀ m ≤ n, free (x m) := by
      intro m
      induction m with
      | zero => exact fun _ => h.start
      | succ m ih =>
        intro hm
        have hsame : ∀ v, ¬ writes m v := fun v hv => hno ⟨m, by omega, v, hv⟩
        rw [h.unchanged m hsame]
        exact ih (by omega)
    exact hn (hfree n le_rfl)
  · rintro ⟨i, hi, v, hv⟩
    rw [h.stays hv hi]
    exact h.taken i v hv

end WriteOnce
