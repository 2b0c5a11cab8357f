import Mathlib.Data.List.Induction
import GridProof.Lib.Comparator
import GridProof.Lib.OrderedMap

/-!
# The first of each key

A loop over a list that keeps, in a map, for each key the value that comes before the others.

* `get?_foldl_keep`   what the map holds of a key is decided by the values of that key alone;
* `foldl_keep_keys`   its keys are those of the list;
* `foldl_first_iff`   by a strict total order, the value that is kept is the least one;
* `get?_foldl_keep_congr`   so the map depends on the members of the list only.
-/

namespace Champion

variable {κ υ : Type*} [DecidableEq κ]

/-- the body of the loop -/
def keep (before : υ → υ → Bool) (key : υ → κ) (m : OrderedMap κ υ) (v : υ) : OrderedMap κ υ :=
  match m.get? (key v) with
  | some w => if before v w then m.set (key v) v else m
  | none => m.set (key v) v

/-- what it does to the value of the key -/
def first (before : υ → υ → Bool) (o : Option υ) (v : υ) : Option υ :=
  match o with
  | some w => if before v w then some v else some w
  | none => some v

section
variable {before : υ → υ → Bool} {key : υ → κ} {m : OrderedMap κ υ} {v : υ} {k : κ} {l l' : List υ}

theorem get?_keep : (keep before key m v).get? k = if key v = k then first before (m.get? k) v else m.get? k := by
  unfold keep first
  by_cases hk : key v = k
  · subst hk
    rw [if_pos rfl]
    cases hm : m.get? (key v) with
    | none => exact OrderedMap.get?_set_self
    | some w =>
      dsimp only
      split
      · exact OrderedMap.get?_set_self
      · exact hm
  · rw [if_neg hk]
    cases m.get? (key v) with
    | none => exact OrderedMap.get?_set_of_ne (Ne.symm hk)
    | some w =>
      dsimp only
      split
      · exact OrderedMap.get?_set_of_ne (Ne.symm hk)
      · rfl

/-- a key is decided by its own values -/
theorem get?_foldl_keep (l : List υ) (m : OrderedMap κ υ) :
    (l.foldl (keep before key) m).get? k = (l.filter (key · = k)).foldl (first before) (m.get? k) := by
  induction l generalizing m with
  | nil => rfl
  | cons v l ih =>
    rw [List.foldl_cons, ih, get?_keep]
    by_cases hk : key v = k
    · rw [if_pos hk, List.filter_cons_of_pos (by simpa using hk), List.foldl_cons]
    · rw [if_neg hk, List.filter_cons_of_neg (by simpa using hk)]

theorem foldl_first_ne_none (l : List υ) (w : υ) : l.foldl (first before) (some w) ≠ none := by
  induction l generalizing w with
  | nil => exact Option.some_ne_none w
  | cons v l ih =>
    rw [List.foldl_cons]
    unfold first
    dsimp only
    split
    · exact ih v
    · exact ih w

theorem foldl_first_eq_none : l.foldl (first before) none = none ↔ l = [] := by
  cases l with
  | nil => exact iff_of_true rfl rfl
  | cons v l => exact iff_of_false (foldl_first_ne_none l v) (List.cons_ne_nil v l)

theorem foldl_first_mem (l : List υ) (o : Option υ) (h : l.foldl (first before) o = some v) : v ∈ l ∨ o = some v := by
  induction l generalizing o with
  | nil => exact .inr h
  | cons w l ih =>
    rcases ih _ h with hv | hv
    · exact .inl (List.mem_cons_of_mem _ hv)
    · unfold first at hv
      split at hv
      · split at hv
        · exact .inl (Option.some.inj hv ▸ List.mem_cons_self)
        · exact .inr hv
      · exact .inl (Option.some.inj hv ▸ List.mem_cons_self)

/-- what is kept of a key is a value of it -/
theorem of_get?_foldl_keep (h : (l.foldl (keep before key) .empty).get? k = some v) : v ∈ l ∧ key v = k := by
  rw [get?_foldl_keep] at h
  rcases foldl_first_mem _ _ h with hv | hv
  · obtain ⟨hv, hk⟩ := List.mem_filter.mp hv
    exact ⟨hv, of_decide_eq_true hk⟩
  · cases hv

/-- the keys are those of the list -/
theorem foldl_keep_keys : (l.foldl (keep before key) .empty).get? k = none ↔ ∀ v ∈ l, key v ≠ k := by
  rw [get?_foldl_keep]
  refine foldl_first_eq_none.trans ?_
  rw [List.filter_eq_nil_iff]
  simp only [decide_eq_true_eq]

/-- the value that is kept is the least one -/
theorem foldl_first_iff (h : Comparator.Strict before l) : l.foldl (first before) none = some v ↔
    v ∈ l ∧ ∀ w ∈ l, before w v = false := by
  have hleast : ∀ v, l.foldl (first before) none = some v → v ∈ l ∧ ∀ w ∈ l, before w v = false := by
    induction l using List.reverseRecOn with
    | nil => exact fun v hv => nomatch hv
    | append_singleton l a ih =>
      intro v hv
      have hl : ∀ w ∈ l, w ∈ l ++ [a] := fun w hw => List.mem_append_left _ hw
      have ha : a ∈ l ++ [a] := List.mem_append_right _ (List.mem_singleton.mpr rfl)
      rw [List.foldl_append, List.foldl_cons, List.foldl_nil] at hv
      cases hfold : l.foldl (first before) none with
      | none =>
        obtain rfl := foldl_first_eq_none.mp hfold
        obtain rfl := Option.some.inj hv
        refine ⟨ha, fun w hw => ?_⟩
        rw [List.mem_singleton.mp hw]
        exact h.irrefl a ha
      | some u =>
        obtain ⟨hu, hmin⟩ := ih (h.mono hl) u hfold
        rw [hfold] at hv
        unfold first at hv
        dsimp only at hv
        split at hv
        · rename_i hbefore
          obtain rfl := Option.some.inj hv
          refine ⟨ha, fun w hw => ?_⟩
          rcases List.mem_append.mp hw with hw | hw
          · by_contra hwa
            have hwu := h.trans w (hl w hw) a ha u (hl u hu) (Bool.eq_true_of_not_eq_false hwa) hbefore
            rw [hmin w hw] at hwu
            cases hwu
          · rw [List.mem_singleton.mp hw]
            exact h.irrefl a ha
        · rename_i hbefore
          obtain rfl := Option.some.inj hv
          refine ⟨hl u hu, fun w hw => ?_⟩
          rcases List.mem_append.mp hw with hw | hw
          · exact hmin w hw
          · rw [List.mem_singleton.mp hw]
            exact Bool.eq_false_iff.mpr hbefore
  refine ⟨hleast v, fun ⟨hv, hmin⟩ => ?_⟩
  obtain ⟨u, hu⟩ : ∃ u, l.foldl (first before) none = some u :=
    Option.ne_none_iff_exists'.mp (mt foldl_first_eq_none.mp (List.ne_nil_of_mem hv))
  obtain ⟨humem, humin⟩ := hleast u hu
  by_cases hne : u = v
  · rw [hu, hne]
  · rcases h.total u humem v hv hne with hlt | hlt
    · rw [hmin u humem] at hlt
      cases hlt
    · rw [humin v hv] at hlt
      cases hlt

/-- the map depends on the members of the list only -/
theorem get?_foldl_keep_congr (h : Comparator.Strict before l) (hmem : ∀ v, v ∈ l' ↔ v ∈ l) :
    (l'.foldl (keep before key) .empty).get? k = (l.foldl (keep before key) .empty).get? k := by
  have hfilter : ∀ v, v ∈ l'.filter (key · = k) ↔ v ∈ l.filter (key · = k) := fun v => by
    rw [List.mem_filter, List.mem_filter, hmem]
  have hl : Comparator.Strict before (l.filter (key · = k)) := h.mono fun v hv => (List.mem_filter.mp hv).1
  have hl' : Comparator.Strict before (l'.filter (key · = k)) := hl.mono fun v hv => (hfilter v).mp hv
  rw [get?_foldl_keep, get?_foldl_keep]
  refine Option.ext fun v => ?_
  refine (foldl_first_iff hl').trans (Iff.trans ?_ (foldl_first_iff hl).symm)
  simp only [hfilter]

end

end Champion
