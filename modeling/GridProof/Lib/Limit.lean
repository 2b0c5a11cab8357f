import Mathlib.Data.List.Sort

/-!
# The first elements of a sorted list

What a query with an order and a limit returns.

* `mem_take`         an element that few others may stand before is among the first;
* `mem_of_mem_take`  only elements of the list are;
* `not_mem_take`     an element that many others stand before is not.
-/

namespace Limit

variable {α : Type*} (r : α → α → Prop) [DecidableRel r] {l : List α} {a : α} {n : ℕ}

theorem mem_of_mem_take (h : a ∈ (l.insertionSort r).take n) : a ∈ l :=
  (List.mem_insertionSort r).mp (List.mem_of_mem_take h)

variable [DecidableEq α] [Std.Total r] [IsTrans α r]

/-- fewer than `n` others may stand before it -/
theorem mem_take (hl : l.Nodup) (ha : a ∈ l) (h : (l.filter fun b => b ≠ a ∧ r b a).length < n) :
    a ∈ (l.insertionSort r).take n := by
  have hsorted := List.pairwise_insertionSort r l
  rw [← List.take_append_drop n (l.insertionSort r), List.pairwise_append] at hsorted
  have hnodup : (l.insertionSort r).Nodup := (List.perm_insertionSort r l).nodup_iff.mpr hl
  have hmem : a ∈ (l.insertionSort r).take n ++ (l.insertionSort r).drop n := by
    rw [List.take_append_drop]
    exact (List.mem_insertionSort r).mpr ha
  refine (List.mem_append.mp hmem).resolve_right fun hdrop => ?_
  have hlong : n ≤ (l.insertionSort r).length := by
    by_contra hshort
    rw [List.drop_of_length_le (Nat.le_of_not_le hshort)] at hdrop
    cases hdrop
  -- the first `n` all stand before it
  have hsub : (l.insertionSort r).take n ⊆ l.filter fun b => b ≠ a ∧ r b a := by
    intro b hb
    refine List.mem_filter.mpr ⟨mem_of_mem_take r hb, decide_eq_true ⟨?_, hsorted.2.2 b hb a hdrop⟩⟩
    rintro rfl
    rw [← List.take_append_drop n (l.insertionSort r)] at hnodup
    exact List.disjoint_of_nodup_append hnodup hb hdrop
  have hle := (List.subperm_of_subset (hnodup.sublist (List.take_sublist n _)) hsub).length_le
  rw [List.length_take, Nat.min_eq_left hlong] at hle
  omega

omit [DecidableEq α] in
/-- at least `n` others stand before it -/
theorem not_mem_take (h : n ≤ (l.filter fun b => ¬ r a b).length) : a ∉ (l.insertionSort r).take n := by
  intro ha
  obtain ⟨before, after, hsplit⟩ := List.append_of_mem ha
  have hsorted := List.pairwise_insertionSort r l
  have hcut := List.take_append_drop n (l.insertionSort r)
  rw [hsplit, List.append_assoc, List.cons_append] at hcut
  rw [← hcut] at hsorted
  have hbehind := (List.pairwise_cons.mp (List.pairwise_append.mp hsorted).2.1).1
  -- what stands before it is among the first `n`
  have hfilter : (l.filter fun b => ¬ r a b).length ≤ before.length := by
    have hnone : (a :: (after ++ (l.insertionSort r).drop n)).filter (fun b => ¬ r a b) = [] := by
      refine List.filter_eq_nil_iff.mpr fun b hb h => of_decide_eq_true h ?_
      rcases List.mem_cons.mp hb with rfl | hb
      · exact refl_of r b
      · exact hbehind b hb
    rw [← ((List.perm_insertionSort r l).filter _).length_eq, ← hcut, List.filter_append, hnone, List.append_nil]
    exact List.length_filter_le _ _
  have hlen := congrArg List.length hsplit
  rw [List.length_append, List.length_cons] at hlen
  have hle := List.length_take_le n (l.insertionSort r)
  omega

end Limit
