import Mathlib.Data.List.Basic

/-!
# Two cuts of one list

What two ways of cutting a list at a separator have to do with each other, where the piece between two
separators, or the first or the last piece, has no separator inside.

* `cut_left`, `cut_right`   the other cut is the same, or further inside;
* `cut_last`                cuts at the last separator are the same;
* `append_cases`            one of two prefixes of a list is a prefix of the other;
* `lines_inj`               lines without a separator are what their text says.
-/

namespace Cut

variable {α : Type*} {s : α}

theorem cut_left {a u r r' : List α} (ha : s ∉ a) (h : a ++ s :: r = u ++ s :: r') :
    (u = a ∧ r = r') ∨ ∃ v, u = a ++ s :: v ∧ r = v ++ s :: r' := by
  induction a generalizing u with
  | nil =>
    cases u with
    | nil => exact .inl ⟨rfl, (List.cons.inj h).2⟩
    | cons x v =>
      obtain ⟨rfl, hr⟩ := List.cons.inj h
      exact .inr ⟨v, rfl, hr⟩
  | cons x a ih =>
    have hx : x ≠ s := fun e => ha (e ▸ List.mem_cons_self)
    cases u with
    | nil => exact absurd (List.cons.inj h).1 hx
    | cons y u =>
      obtain ⟨rfl, ht⟩ := List.cons.inj h
      rcases ih (fun hm => ha (List.mem_cons_of_mem x hm)) ht with ⟨rfl, hr⟩ | ⟨v, rfl, hr⟩
      · exact .inl ⟨rfl, hr⟩
      · exact .inr ⟨v, rfl, hr⟩

theorem cut_right {a u r r' : List α} (ha : s ∉ a) (h : r ++ s :: a = r' ++ s :: u) :
    (u = a ∧ r = r') ∨ ∃ v, u = v ++ s :: a ∧ r = r' ++ s :: v := by
  have hrev : a.reverse ++ s :: r.reverse = u.reverse ++ s :: r'.reverse := by
    have h2 := congrArg List.reverse h
    rw [List.reverse_append, List.reverse_append, List.reverse_cons, List.reverse_cons,
      List.append_assoc, List.append_assoc] at h2
    exact h2
  rcases cut_left (fun hm => ha (List.mem_reverse.mp hm)) hrev with ⟨hu, hr⟩ | ⟨v, hu, hr⟩
  · exact .inl ⟨List.reverse_inj.mp hu, List.reverse_inj.mp hr⟩
  · refine .inr ⟨v.reverse, ?_, ?_⟩
    · rw [← List.reverse_reverse u, hu, List.reverse_append, List.reverse_cons, List.reverse_reverse,
        List.append_assoc]
      rfl
    · rw [← List.reverse_reverse r, hr, List.reverse_append, List.reverse_cons, List.reverse_reverse,
        List.append_assoc]
      rfl

theorem cut_last {a u r r' : List α} (ha : s ∉ a) (hu : s ∉ u) (h : r ++ s :: a = r' ++ s :: u) :
    u = a ∧ r = r' := by
  rcases cut_right ha h with he | ⟨v, rfl, -⟩
  · exact he
  · exact absurd (List.mem_append_right v List.mem_cons_self) hu

theorem cut_first {a u r r' : List α} (ha : s ∉ a) (hu : s ∉ u) (h : a ++ s :: r = u ++ s :: r') :
    u = a ∧ r = r' := by
  rcases cut_left ha h with he | ⟨v, rfl, -⟩
  · exact he
  · exact absurd (List.mem_append_right a List.mem_cons_self) hu

/-- one of two prefixes goes on to a separator where the other ends, or they are the same -/
theorem append_cases {a b r r' : List α} (h : a ++ s :: r = b ++ s :: r') :
    (a = b ∧ r = r') ∨ (∃ v, b = a ++ s :: v ∧ r = v ++ s :: r') ∨
      ∃ v, a = b ++ s :: v ∧ r' = v ++ s :: r := by
  rcases List.append_eq_append_iff.mp h with ⟨u, hb, hr⟩ | ⟨u, ha, hr⟩
  · cases u with
    | nil => exact .inl ⟨by rw [hb, List.append_nil], (List.cons.inj hr).2⟩
    | cons x v =>
      obtain ⟨rfl, hv⟩ := List.cons.inj hr
      exact .inr (.inl ⟨v, hb, hv⟩)
  · cases u with
    | nil => exact .inl ⟨by rw [ha, List.append_nil], (List.cons.inj hr).2.symm⟩
    | cons x v =>
      obtain ⟨rfl, hv⟩ := List.cons.inj hr
      exact .inr (.inr ⟨v, ha, hv⟩)

/-- lines that end with the separator, and a rest -/
def lines (s : α) (ls : List (List α)) (rest : List α) : List α := ls.foldr (fun l text => l ++ s :: text) rest

theorem intercalate_lines (ls : List (List α)) (rest : List α) :
    [s].intercalate (ls ++ [rest]) = lines s ls rest := by
  induction ls with
  | nil => exact List.intercalate_singleton
  | cons l ls ih =>
    have hne : ls ++ [rest] ≠ [] := List.append_ne_nil_of_right_ne_nil ls (List.cons_ne_nil rest [])
    rw [List.cons_append, List.intercalate_cons_of_ne_nil hne, ih, List.append_assoc, List.singleton_append]
    rfl

theorem lines_inj {ls ls' : List (List α)} {rest rest' : List α} (hlen : ls.length = ls'.length)
    (hs : ∀ l ∈ ls, s ∉ l) (hs' : ∀ l ∈ ls', s ∉ l) (h : lines s ls rest = lines s ls' rest') :
    ls = ls' ∧ rest = rest' := by
  induction ls generalizing ls' with
  | nil =>
    obtain rfl := List.length_eq_zero_iff.mp hlen.symm
    exact ⟨rfl, h⟩
  | cons l ls ih =>
    cases ls' with
    | nil => cases hlen
    | cons l' ls' =>
      obtain ⟨rfl, hlines⟩ := cut_first (hs l List.mem_cons_self) (hs' l' List.mem_cons_self) h
      obtain ⟨rfl, hrest⟩ := ih (Nat.succ.inj hlen) (fun l hl => hs l (List.mem_cons_of_mem _ hl))
        (fun l hl => hs' l (List.mem_cons_of_mem _ hl)) hlines
      exact ⟨rfl, hrest⟩

end Cut
