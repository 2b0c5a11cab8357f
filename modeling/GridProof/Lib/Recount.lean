import Mathlib.Data.Set.Basic
import Mathlib.Order.Disjoint
import Mathlib.Data.Set.Disjoint

/-!
# Marked members and cached counts

Members come in groups, some are approved and some are marked.  For each group the set of members that were
approved at its last recount is kept.  A decision about one member may recount its group.

* `Board.Clean`    no marked member is among those counted for any group;
* `Board.Step`     what one decision may change;
* `Step.clean_iff` a decision keeps the board clean iff it does not recount a group with a marked member that is
                   approved or is approved by it.
-/

namespace Recount

variable {ι κ : Type*}

structure Board (ι κ : Type*) where
  group : ι → Option κ
  approved : Set ι
  marked : Set ι
  counted : κ → Set ι

namespace Board

/-- the members a recount of the group counts -/
def eligible (b : Board ι κ) (k : κ) : Set ι := {i | b.group i = some k ∧ i ∈ b.approved}

def Clean (b : Board ι κ) : Prop := ∀ k, ∀ i ∈ b.counted k, i ∉ b.marked

/-- only members of a group are marked or counted -/
structure Grouped (b : Board ι κ) : Prop where
  marked : ∀ i ∈ b.marked, b.group i ≠ none
  counted : ∀ k, ∀ i ∈ b.counted k, b.group i ≠ none

/-- a decision about the member `i` of the group `k`: a new member may be marked, and the group may be recounted,
not both -/
structure Step (b b' : Board ι κ) (i : ι) (k : κ) (marks recounts : Prop) : Prop where
  group : b'.group i = some k
  group_of_ne : ∀ j, j ≠ i → b'.group j = b.group j
  group_of_some : b.group i ≠ none → b.group i = some k
  approved : recounts → i ∈ b'.approved
  approved_of_ne : ∀ j, j ≠ i → (j ∈ b'.approved ↔ j ∈ b.approved)
  marked : ∀ j, j ∈ b'.marked ↔ j ∈ b.marked ∨ (marks ∧ j = i)
  fresh : marks → b.group i = none ∧ ¬ recounts
  kept : ¬ recounts → b'.counted = b.counted
  recounted : recounts → b'.counted k = b'.eligible k ∧ ∀ k', k' ≠ k → b'.counted k' = b.counted k'

/-- the group holds a marked member that is approved, or is the one that is decided on -/
def Leaks (b : Board ι κ) (i : ι) (k : κ) : Prop :=
  ∃ j ∈ b.marked, b.group j = some k ∧ (j = i ∨ j ∈ b.approved)

variable {b b' : Board ι κ} {i : ι} {k : κ} {marks recounts : Prop}

theorem Step.group_grows (h : Step b b' i k marks recounts) {j : ι} (hj : b.group j ≠ none) :
    b'.group j = b.group j := by
  by_cases he : j = i
  · subst he
    rw [h.group, h.group_of_some hj]
  · exact h.group_of_ne j he

theorem Step.grouped (hb : b.Grouped) (h : Step b b' i k marks recounts) : b'.Grouped := by
  have hgrow : ∀ j, b.group j ≠ none → b'.group j ≠ none := fun j hj => by
    rw [h.group_grows hj]
    exact hj
  constructor
  · intro j hj
    rcases (h.marked j).mp hj with hold | ⟨-, rfl⟩
    · exact hgrow j (hb.marked j hold)
    · rw [h.group]
      exact Option.some_ne_none k
  · intro k' j hj
    by_cases hre : recounts
    · obtain ⟨hk, hother⟩ := h.recounted hre
      by_cases he : k' = k
      · subst he
        rw [hk] at hj
        rw [hj.1]
        exact Option.some_ne_none k'
      · rw [hother k' he] at hj
        exact hgrow j (hb.counted k' j hj)
    · rw [h.kept hre] at hj
      exact hgrow j (hb.counted k' j hj)

/-- a member counted before the decision is not the one that the decision marks -/
theorem Step.old_not_marked (hb : b.Grouped) (hclean : b.Clean) (h : Step b b' i k marks recounts) {k' : κ}
    {j : ι} (hj : j ∈ b.counted k') : j ∉ b'.marked := by
  intro hm
  rcases (h.marked j).mp hm with hold | ⟨hmarks, rfl⟩
  · exact hclean k' j hj hold
  · exact hb.counted k' j hj (h.fresh hmarks).1

/-- **A decision keeps the board clean iff it does not recount a group that leaks.** -/
theorem Step.clean_iff (hb : b.Grouped) (hclean : b.Clean) (h : Step b b' i k marks recounts) :
    ¬ (recounts ∧ b.Leaks i k) ↔ b'.Clean := by
  by_cases hre : recounts
  · obtain ⟨hk, hother⟩ := h.recounted hre
    have hmarked : ∀ j, j ∈ b'.marked ↔ j ∈ b.marked := fun j =>
      (h.marked j).trans (or_iff_left fun hm => (h.fresh hm.1).2 hre)
    have happroved : ∀ j, j ∈ b'.approved ↔ j = i ∨ j ∈ b.approved := by
      intro j
      by_cases he : j = i
      · subst he
        exact iff_of_true (h.approved hre) (.inl rfl)
      · rw [h.approved_of_ne j he, or_iff_right he]
    constructor
    · intro hno k' j hj hm
      by_cases he : k' = k
      · subst he
        rw [hk] at hj
        have hold := (hmarked j).mp hm
        refine hno ⟨hre, j, hold, ?_, (happroved j).mp hj.2⟩
        rw [← h.group_grows (hb.marked j hold)]
        exact hj.1
      · rw [hother k' he] at hj
        exact h.old_not_marked hb hclean hj hm
    · rintro hnew ⟨-, j, hm, hgroup, happ⟩
      refine hnew k j ?_ ((hmarked j).mpr hm)
      rw [hk]
      refine ⟨?_, (happroved j).mpr happ⟩
      rw [h.group_grows (hb.marked j hm)]
      exact hgroup
  · refine iff_of_true (fun hno => hre hno.1) ?_
    intro k' j hj
    rw [h.kept hre] at hj
    exact h.old_not_marked hb hclean hj

end Board

end Recount
