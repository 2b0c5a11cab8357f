import Mathlib.Data.List.Nodup

/-!
# Maps that remember insertion order

A map as JavaScript has it: `set` on a key that is present replaces the value in its place, on a
new key it appends.

* `get?_eq_some`       the entries, read through `get?`;
* `mem_entries_set`    what the map holds after a `set`;
* `values_set_of_none`, `set_eq_self`   the order after a `set`;
* `values_perm`, `values_perm_cons`     the values of maps that hold the same, or one value more.
-/

variable {κ υ : Type*}

structure OrderedMap (κ υ : Type*) where
  entries : List (κ × υ)
  nodup : (entries.map Prod.fst).Nodup

namespace OrderedMap

def empty : OrderedMap κ υ := ⟨[], List.nodup_nil⟩

def values (m : OrderedMap κ υ) : List υ := m.entries.map Prod.snd

variable [DecidableEq κ] {m : OrderedMap κ υ} {k k' : κ} {v v' : υ}

def get? (m : OrderedMap κ υ) (k : κ) : Option υ :=
  (m.entries.find? fun e => e.1 = k).map Prod.snd

theorem get?_eq_some : m.get? k = some v ↔ (k, v) ∈ m.entries := by
  unfold get?
  rw [Option.map_eq_some_iff]
  constructor
  · rintro ⟨⟨k', v'⟩, hfind, rfl⟩
    have hk : k' = k := of_decide_eq_true (List.find?_some hfind :)
    exact hk ▸ List.mem_of_find?_eq_some hfind
  · intro hmem
    refine ⟨(k, v), ?_, rfl⟩
    cases hfind : m.entries.find? fun e => decide (e.1 = k) with
    | none => exact absurd (decide_eq_true rfl) (List.find?_eq_none.mp hfind (k, v) hmem)
    | some e =>
      have hk : e.1 = k := of_decide_eq_true (List.find?_some hfind :)
      rw [List.inj_on_of_nodup_map m.nodup (List.mem_of_find?_eq_some hfind) hmem hk]

theorem mem_values : v ∈ m.values ↔ ∃ k, m.get? k = some v := by
  simp only [values, List.mem_map, get?_eq_some, Prod.exists, exists_eq_right]

theorem get?_eq_none : m.get? k = none ↔ k ∉ m.entries.map Prod.fst := by
  rw [Option.eq_none_iff_forall_ne_some]
  simp only [ne_eq, get?_eq_some, List.mem_map, Prod.exists, exists_and_right, exists_eq_right,
    not_exists]

/-! ## set -/

def set (m : OrderedMap κ υ) (k : κ) (v : υ) : OrderedMap κ υ :=
  if h : k ∈ m.entries.map Prod.fst then
    { entries := m.entries.map fun e => if e.1 = k then (k, v) else e
      nodup := by
        have hkeys : (m.entries.map fun e => if e.1 = k then (k, v) else e).map Prod.fst =
            m.entries.map Prod.fst := by
          rw [List.map_map]
          refine List.map_congr_left fun e _ => ?_
          show (if e.1 = k then (k, v) else e).1 = e.1
          split
          · rename_i he
            exact he.symm
          · rfl
        rw [hkeys]
        exact m.nodup }
  else
    { entries := m.entries ++ [(k, v)]
      nodup := by
        rw [List.map_append, List.map_singleton]
        exact m.nodup.append (List.nodup_singleton k) (List.disjoint_singleton.mpr h) }

theorem mem_entries_set {e : κ × υ} :
    e ∈ (m.set k v).entries ↔ (e ∈ m.entries ∧ e.1 ≠ k) ∨ e = (k, v) := by
  unfold set
  split
  · rename_i hk
    rw [List.mem_map]
    constructor
    · rintro ⟨e', he', rfl⟩
      by_cases h : e'.1 = k
      · rw [if_pos h]
        exact .inr rfl
      · rw [if_neg h]
        exact .inl ⟨he', h⟩
    · rintro (⟨he, hne⟩ | rfl)
      · exact ⟨e, he, if_neg hne⟩
      · obtain ⟨e', he', h⟩ := List.mem_map.mp hk
        exact ⟨e', he', if_pos h⟩
  · rename_i hk
    rw [List.mem_append, List.mem_singleton]
    refine or_congr_left ⟨fun he => ⟨he, ?_⟩, And.left⟩
    rintro rfl
    exact hk (List.mem_map_of_mem he)

theorem get?_set_self : (m.set k v).get? k = some v :=
  get?_eq_some.mpr (mem_entries_set.mpr (.inr rfl))

theorem get?_set_of_ne (h : k' ≠ k) : (m.set k v).get? k' = m.get? k' := by
  refine Option.ext fun w => ?_
  rw [get?_eq_some, get?_eq_some, mem_entries_set]
  constructor
  · rintro (⟨hmem, -⟩ | e)
    · exact hmem
    · exact absurd (congrArg Prod.fst e) h
  · exact fun hmem => .inl ⟨hmem, h⟩

theorem get?_set : (m.set k v).get? k' = if k' = k then some v else m.get? k' := by
  split
  · rename_i h
    rw [h, get?_set_self]
  · rename_i h
    exact get?_set_of_ne h

theorem mem_keys_set : k' ∈ (m.set k v).entries.map Prod.fst ↔ k' ∈ m.entries.map Prod.fst ∨ k' = k := by
  rw [← not_iff_not, ← get?_eq_none, get?_set, not_or, ← get?_eq_none]
  split
  · rename_i h
    exact iff_of_false (Option.some_ne_none v) fun hno => hno.2 h
  · rename_i h
    exact (and_iff_left h).symm

theorem values_set_of_none (h : m.get? k = none) : (m.set k v).values = m.values ++ [v] := by
  unfold set
  rw [dif_neg (get?_eq_none.mp h)]
  exact List.map_append

theorem set_eq_self (h : m.get? k = some v) : m.set k v = m := by
  have hmem := get?_eq_some.mp h
  unfold set
  rw [dif_pos (List.mem_map_of_mem hmem)]
  have hentries : (m.entries.map fun e => if e.1 = k then (k, v) else e) = m.entries := by
    refine (List.map_congr_left fun e he => ?_).trans (List.map_id _)
    split
    · rename_i hk
      exact (List.inj_on_of_nodup_map m.nodup he hmem hk).symm
    · rfl
  cases m
  simp only [mk.injEq] at hentries ⊢
  exact hentries

theorem map_values {f : υ → κ} (h : ∀ k v, m.get? k = some v → f v = k) :
    m.values.map f = m.entries.map Prod.fst := by
  unfold values
  rw [List.map_map]
  exact List.map_congr_left fun e he => h e.1 e.2 (get?_eq_some.mpr he)

/-- values that name their own keys are distinct -/
theorem values_nodup {f : υ → κ} (h : ∀ k v, m.get? k = some v → f v = k) : m.values.Nodup := by
  refine List.Nodup.of_map f ?_
  rw [map_values h]
  exact m.nodup

/-- a value that names its own key is the only one of that key -/
theorem count_values {f : υ → κ}
    (h : ∀ k v, m.get? k = some v → f v = k) (hk : m.get? k ≠ none) :
    (m.values.map f).count k = 1 := by
  rw [map_values h]
  refine List.count_eq_one_of_mem m.nodup ?_
  by_contra hno
  exact hk (get?_eq_none.mpr hno)

/-! ## maps that hold the same -/

omit [DecidableEq κ] in
theorem entries_nodup (m : OrderedMap κ υ) : m.entries.Nodup := m.nodup.of_map

theorem values_perm {m' : OrderedMap κ υ} (h : ∀ k, m.get? k = m'.get? k) : m.values.Perm m'.values := by
  have hentries : m.entries.Perm m'.entries := by
    refine (List.perm_ext_iff_of_nodup m.entries_nodup m'.entries_nodup).mpr fun ⟨k, v⟩ => ?_
    rw [← get?_eq_some, ← get?_eq_some, h]
  exact hentries.map Prod.snd

/-- a map that holds one value more -/
theorem values_perm_cons {m' : OrderedMap κ υ} (hk : m.get? k = none)
    (h : ∀ k', m'.get? k' = if k' = k then some v else m.get? k') : m'.values.Perm (v :: m.values) := by
  have hset : m'.values.Perm (m.set k v).values := values_perm fun k' => (h k').trans get?_set.symm
  rw [values_set_of_none hk] at hset
  exact hset.trans List.perm_append_comm

end OrderedMap
