import Mathlib.Algebra.Order.Group.Int
import Mathlib.Data.List.Sort

/-!
# Lists sorted by time

A list sorted by an order that compares times first.  What the order does with things of one time is left open:
it need not be a total order.

* `sorted`           the times of the sorted list go up;
* `filter_sort`      the things of one time come as if they were sorted alone;
* `split_last`       a sorted list is cut behind the last thing of a time;
* `getLast?_at`      which of the things of a time that is;
* `pairwise_mapIdx`  what is made of the things of a list in order, place by place, is in order.
-/

/-- the order compares the times `at` first -/
structure TimeFirst {α : Type*} (r : α → α → Prop) (time : α → ℤ) : Prop where
  of_lt : ∀ a b, time a < time b → r a b
  le : ∀ a b, r a b → time a ≤ time b

section
variable {α : Type*} {time : α → ℤ} {a : α} {t : ℤ}

theorem filter_at_pos (h : time a = t) {l : List α} :
    (a :: l).filter (time · = t) = a :: l.filter (time · = t) := List.filter_cons_of_pos (decide_eq_true h)

theorem filter_at_neg (h : time a ≠ t) {l : List α} :
    (a :: l).filter (time · = t) = l.filter (time · = t) :=
  List.filter_cons_of_neg fun e => h (of_decide_eq_true e)

end

namespace TimeFirst

variable {α : Type*} {r : α → α → Prop} {time : α → ℤ}

theorem not_lt (h : TimeFirst r time) {a b : α} (hr : ¬ r a b) : time b ≤ time a :=
  le_of_not_gt fun hlt => hr (h.of_lt a b hlt)

variable [DecidableRel r]

theorem orderedInsert (h : TimeFirst r time) (a : α) (l : List α)
    (hl : l.Pairwise fun x y => time x ≤ time y) :
    (l.orderedInsert r a).Pairwise fun x y => time x ≤ time y := by
  induction l with
  | nil => exact List.pairwise_singleton _ a
  | cons b l ih =>
    obtain ⟨hb, hl'⟩ := List.pairwise_cons.mp hl
    by_cases hr : r a b
    · rw [List.orderedInsert_cons_of_le r l hr]
      have hab := h.le a b hr
      refine List.pairwise_cons.mpr ⟨fun x hx => ?_, hl⟩
      rcases List.mem_cons.mp hx with rfl | hx
      · exact hab
      · exact hab.trans (hb x hx)
    · rw [List.orderedInsert_of_not_le r l hr]
      refine List.pairwise_cons.mpr ⟨fun x hx => ?_, ih hl'⟩
      rcases (List.mem_orderedInsert r).mp hx with rfl | hx
      · exact h.not_lt hr
      · exact hb x hx

theorem sorted (h : TimeFirst r time) (l : List α) :
    (l.insertionSort r).Pairwise fun x y => time x ≤ time y := by
  induction l with
  | nil => exact List.Pairwise.nil
  | cons a l ih =>
    rw [List.insertionSort_cons]
    exact h.orderedInsert a _ ih

theorem filter_orderedInsert (h : TimeFirst r time) (t : ℤ) (a : α) (l : List α)
    (hl : l.Pairwise fun x y => time x ≤ time y) :
    (l.orderedInsert r a).filter (time · = t) =
      if time a = t then (l.filter (time · = t)).orderedInsert r a else l.filter (time · = t) := by
  induction l with
  | nil =>
    by_cases ha : time a = t
    · rw [if_pos ha, List.orderedInsert_nil, filter_at_pos ha]
      rfl
    · rw [if_neg ha, List.orderedInsert_nil, filter_at_neg ha]
  | cons b l ih =>
    obtain ⟨hb, hl'⟩ := List.pairwise_cons.mp hl
    by_cases hr : r a b
    · rw [List.orderedInsert_cons_of_le r l hr]
      by_cases ha : time a = t
      · rw [if_pos ha, filter_at_pos ha]
        by_cases hbt : time b = t
        · rw [filter_at_pos hbt, List.orderedInsert_cons_of_le r _ hr]
        · -- everything else is later
          have hab := h.le a b hr
          have hnone : (b :: l).filter (time · = t) = [] := by
            refine List.filter_eq_nil_iff.mpr fun x hx => ?_
            rcases List.mem_cons.mp hx with rfl | hx
            · exact fun e => hbt (of_decide_eq_true e)
            · have hle := hb x hx
              exact fun e => hbt (by have := of_decide_eq_true e; omega)
          rw [hnone, List.orderedInsert_nil]
      · rw [if_neg ha, filter_at_neg ha]
    · rw [List.orderedInsert_of_not_le r l hr]
      by_cases hbt : time b = t
      · rw [filter_at_pos hbt, filter_at_pos hbt, ih hl']
        split
        · rw [List.orderedInsert_of_not_le r _ hr]
        · rfl
      · rw [filter_at_neg hbt, filter_at_neg hbt, ih hl']

theorem filter_sort (h : TimeFirst r time) (t : ℤ) (l : List α) :
    (l.insertionSort r).filter (time · = t) = (l.filter (time · = t)).insertionSort r := by
  induction l with
  | nil => rfl
  | cons a l ih =>
    rw [List.insertionSort_cons, h.filter_orderedInsert t a _ (h.sorted l), ih]
    split
    · rename_i ha
      rw [filter_at_pos ha, List.insertionSort_cons]
    · rename_i ha
      rw [filter_at_neg ha]

end TimeFirst

section
variable {α : Type*} {time : α → ℤ}

/-- a sorted list is cut behind the last thing of a time -/
theorem split_last {l : List α} (hl : l.Pairwise fun x y => time x ≤ time y) {t : ℤ}
    (ht : ∃ a ∈ l, time a = t) :
    ∃ before a after, l = before ++ a :: after ∧ time a = t ∧ ∀ x ∈ after, t < time x := by
  induction l with
  | nil =>
    obtain ⟨a, ha, -⟩ := ht
    cases ha
  | cons b l ih =>
    obtain ⟨hb, hl'⟩ := List.pairwise_cons.mp hl
    by_cases hlater : ∃ a ∈ l, time a = t
    · obtain ⟨before, a, after, rfl, ha, hafter⟩ := ih hl' hlater
      exact ⟨b :: before, a, after, rfl, ha, hafter⟩
    · obtain ⟨a, ha, hat⟩ := ht
      rcases List.mem_cons.mp ha with rfl | ha
      · refine ⟨[], a, l, rfl, hat, fun x hx => lt_of_le_of_ne (hat ▸ hb x hx) fun e => ?_⟩
        exact hlater ⟨x, hx, e.symm⟩
      · exact absurd ⟨a, ha, hat⟩ hlater

/-- before a place of a sorted list the times are lower, behind it they are higher -/
theorem sorted_around {before after : List α} {a : α}
    (hl : (before ++ a :: after).Pairwise fun x y => time x ≤ time y) :
    (∀ x ∈ before, time x ≤ time a) ∧ ∀ x ∈ after, time a ≤ time x := by
  obtain ⟨-, hcons, hbefore⟩ := List.pairwise_append.mp hl
  exact ⟨fun x hx => hbefore x hx a List.mem_cons_self, (List.pairwise_cons.mp hcons).1⟩

/-- the last thing of a time, if what is behind it is later -/
theorem getLast?_at {before after : List α} {a : α} (hafter : ∀ x ∈ after, time a < time x) :
    ((before ++ a :: after).filter (time · = time a)).getLast? = some a := by
  have hnone : after.filter (time · = time a) = [] := by
    refine List.filter_eq_nil_iff.mpr fun x hx e => ?_
    exact absurd (of_decide_eq_true e) (hafter x hx).ne'
  rw [List.filter_append, filter_at_pos rfl, hnone, List.getLast?_concat]

end

theorem pairwise_mapIdx {α β : Type*} {r : α → α → Prop} {s : β → β → Prop} {l : List α} {f : ℕ → α → β}
    (h : l.Pairwise r) (hf : ∀ i j a b, r a b → s (f i a) (f j b)) : (l.mapIdx f).Pairwise s := by
  rw [List.pairwise_iff_getElem] at h ⊢
  intro i j hi hj hij
  rw [List.getElem_mapIdx, List.getElem_mapIdx]
  rw [List.length_mapIdx] at hi hj
  exact hf i j _ _ (h i j hi hj hij)
