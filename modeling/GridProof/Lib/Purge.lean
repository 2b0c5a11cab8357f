import GridProof.Lib.OrderedMap
import GridProof.Lib.Runs
import GridProof.Lib.Table

/-!
# Leaving part of a system out

What remains of a map, of a table and of a run when some keys, some rows and some actions are left out.

* `OrderedMap.keep`, `Table.keep`   the map and the table without them; what is written to a part that is kept
                    is written there, and what is written to the rest is not seen;
* `Runs.run_purge`  if an action that is left out is not seen, and every other one does in both systems what it
                    does in one, then the run without the former ends where the latter see no difference.
-/

section
variable {κ : Type*} [DecidableEq κ] {names : List κ} {k k' : κ}

theorem decide_notMem_cons_self : decide (k ∉ k :: names) = false :=
  decide_eq_false (not_not.mpr List.mem_cons_self)

theorem decide_notMem_cons_of_ne (h : k' ≠ k) : decide (k' ∉ k :: names) = decide (k' ∉ names) :=
  decide_eq_decide.mpr (not_congr (List.mem_cons.trans (or_iff_right h)))

end

/-! ## maps -/

namespace OrderedMap

variable {κ υ : Type*} {m : OrderedMap κ υ} {p q : κ → Bool} {k : κ} {v : υ}

/-- the entries whose key is in `p` -/
def keep (m : OrderedMap κ υ) (p : κ → Bool) : OrderedMap κ υ where
  entries := m.entries.filter fun e => p e.1
  nodup := m.nodup.sublist (List.filter_sublist.map Prod.fst)

theorem eq_of_entries {m' : OrderedMap κ υ} (h : m.entries = m'.entries) : m = m' := by
  cases m
  cases m'
  simpa only [mk.injEq] using h

theorem keep_congr (h : ∀ k ∈ m.entries.map Prod.fst, p k = q k) : m.keep p = m.keep q := by
  apply eq_of_entries
  exact List.filter_congr fun e he => h e.1 (List.mem_map_of_mem he)

/-- values that are left out make no difference to a selection that passes over them -/
theorem filter_values_keep {f : υ → Bool} (h : ∀ e ∈ m.entries, p e.1 = false → f e.2 = false) :
    (m.keep p).values.filter f = m.values.filter f := by
  unfold keep values
  rw [List.filter_map, List.filter_map, List.filter_filter]
  congr 1
  refine List.filter_congr fun e he => ?_
  cases hp : p e.1 with
  | true => exact Bool.and_true _
  | false =>
    rw [Bool.and_false]
    exact (h e he hp).symm

variable [DecidableEq κ]

theorem get?_keep (hk : p k = true) : (m.keep p).get? k = m.get? k := by
  refine Option.ext fun v => ?_
  rw [get?_eq_some, get?_eq_some]
  show (k, v) ∈ m.entries.filter _ ↔ _
  rw [List.mem_filter]
  exact and_iff_left hk

omit [DecidableEq κ] in
theorem mem_keys_keep : k ∈ (m.keep p).entries.map Prod.fst ↔ k ∈ m.entries.map Prod.fst ∧ p k = true := by
  show k ∈ (m.entries.filter fun e => p e.1).map Prod.fst ↔ _
  rw [List.mem_map, List.mem_map]
  constructor
  · rintro ⟨e, he, rfl⟩
    obtain ⟨he, hp⟩ := List.mem_filter.mp he
    exact ⟨⟨e, he, rfl⟩, hp⟩
  · rintro ⟨⟨e, he, rfl⟩, hp⟩
    exact ⟨e, List.mem_filter.mpr ⟨he, hp⟩, rfl⟩

/-- a `set` on a key that is present changes no key -/
theorem set_fst {e : κ × υ} : (if e.1 = k then (k, v) else e).1 = e.1 := by
  split
  · rename_i he
    exact he.symm
  · rfl

theorem set_keep (hk : p k = true) : (m.set k v).keep p = (m.keep p).set k v := by
  have hmem : k ∈ (m.keep p).entries.map Prod.fst ↔ k ∈ m.entries.map Prod.fst := by
    rw [mem_keys_keep]
    exact and_iff_left hk
  apply eq_of_entries
  show (m.set k v).entries.filter _ = _
  unfold set
  by_cases h : k ∈ m.entries.map Prod.fst
  · rw [dif_pos h, dif_pos (hmem.mpr h), List.filter_map]
    show List.map _ _ = List.map _ (m.entries.filter fun e => p e.1)
    congr 1
    exact List.filter_congr fun e _ => congrArg p set_fst
  · rw [dif_neg h, dif_neg fun hno => h (hmem.mp hno), List.filter_append]
    show _ ++ List.filter _ [(k, v)] = _ ++ [(k, v)]
    rw [List.filter_singleton, hk]
    rfl

theorem set_keep_of_not (hk : p k = false) : (m.set k v).keep p = m.keep p := by
  apply eq_of_entries
  show (m.set k v).entries.filter _ = m.entries.filter _
  unfold set
  by_cases h : k ∈ m.entries.map Prod.fst
  · rw [dif_pos h, List.filter_map]
    show List.map _ (m.entries.filter fun e => p (if e.1 = k then (k, v) else e).1) = _
    simp only [set_fst]
    refine (List.map_congr_left fun e he => if_neg ?_).trans (List.map_id _)
    rintro rfl
    rw [(List.mem_filter.mp he).2] at hk
    cases hk
  · rw [dif_neg h, List.filter_append]
    show _ ++ List.filter _ [(k, v)] = _
    rw [List.filter_singleton, hk]
    exact List.append_nil _

/-- a new key is left out together with what is set on it -/
theorem set_keep_cons {names : List κ} (h : k ∉ m.entries.map Prod.fst) :
    (m.set k v).keep (fun x => x ∉ k :: names) = m.keep fun x => x ∉ names :=
  calc (m.set k v).keep (fun x => x ∉ k :: names)
    _ = m.keep fun x => x ∉ k :: names := set_keep_of_not decide_notMem_cons_self
    _ = m.keep fun x => x ∉ names := keep_congr fun x hx => decide_notMem_cons_of_ne fun he : x = k => h (he ▸ hx)

end OrderedMap

/-! ## tables -/

namespace Table

variable {ρ ι κ : Type*} {id : ρ → ι} {key : ρ → κ} {t t' : Table ρ id key} {p q : ρ → Bool} {r : ρ}

/-- the rows in `p` -/
def keep (t : Table ρ id key) (p : ρ → Bool) : Table ρ id key where
  rows := t.rows.filter p
  id_nodup := t.id_nodup.sublist (List.filter_sublist.map id)
  key_nodup := t.key_nodup.sublist (List.filter_sublist.map key)

theorem mem_keep : r ∈ (t.keep p).rows ↔ r ∈ t.rows ∧ p r = true := List.mem_filter

theorem eq_of_rows (h : t.rows = t'.rows) : t = t' := by
  cases t
  cases t'
  simpa only [mk.injEq] using h

theorem keep_congr (h : ∀ r ∈ t.rows, p r = q r) : t.keep p = t.keep q := by
  apply eq_of_rows
  exact List.filter_congr h

variable [DecidableEq κ]

theorem find?_keep {k : κ} (h : ∀ r ∈ t.rows, key r = k → p r = true) : (t.keep p).find? k = t.find? k := by
  refine Option.ext fun r => ?_
  rw [find?_eq_some, find?_eq_some, mem_keep]
  refine and_congr_left fun hk => and_iff_left_of_imp fun hr => h r hr hk

variable [DecidableEq ι]

theorem insert_keep (h : t.insert r = some t') (hp : p r = true) :
    (t.keep p).insert r = some (t'.keep p) := by
  obtain ⟨hrows, hids, hkeys⟩ := insert_eq_some h
  have hfree : id r ∉ (t.keep p).rows.map id ∧ key r ∉ (t.keep p).rows.map key := by
    constructor
    · intro hin
      obtain ⟨s, hs, he⟩ := List.mem_map.mp hin
      exact hids s (mem_keep.mp hs).1 he
    · intro hin
      obtain ⟨s, hs, he⟩ := List.mem_map.mp hin
      exact hkeys s (mem_keep.mp hs).1 he
  unfold insert
  rw [dif_pos hfree]
  apply congrArg some
  apply eq_of_rows
  show t.rows.filter p ++ [r] = t'.rows.filter p
  rw [hrows, List.filter_append, List.filter_singleton, hp]
  rfl

theorem insert_keep_of_not (h : t.insert r = some t') (hp : p r = false) : t'.keep p = t.keep p := by
  apply eq_of_rows
  show t'.rows.filter p = t.rows.filter p
  rw [(insert_eq_some h).1, List.filter_append, List.filter_singleton, hp]
  exact List.append_nil _

theorem insert_keep_cons {α : Type*} [DecidableEq α] {names : List α} {g : ρ → α}
    (h : t.insert r = some t') (hnew : ∀ s ∈ t.rows, g s ≠ g r) :
    t'.keep (fun s => g s ∉ g r :: names) = t.keep fun s => g s ∉ names :=
  calc t'.keep (fun s => g s ∉ g r :: names)
    _ = t.keep fun s => g s ∉ g r :: names := insert_keep_of_not h decide_notMem_cons_self
    _ = t.keep fun s => g s ∉ names := keep_congr fun s hs => decide_notMem_cons_of_ne (hnew s hs)

section
variable {f : ρ → ρ} {hid : ∀ r, id (f r) = id r} {hkey : ∀ r, key (f r) = key r}

omit [DecidableEq ι] [DecidableEq κ] in
theorem update_keep {u : ρ → Bool} (hf : ∀ s, p (f s) = p s) :
    (t.update u f hid hkey).keep p = (t.keep p).update u f hid hkey := by
  apply eq_of_rows
  show (t.rows.map fun r => if u r then f r else r).filter p =
    (t.rows.filter p).map fun r => if u r then f r else r
  rw [List.filter_map]
  congr 1
  refine List.filter_congr fun r _ => ?_
  show p (if u r then f r else r) = p r
  split
  · exact hf r
  · rfl

omit [DecidableEq ι] [DecidableEq κ] in
theorem update_keep_of_not {u : ρ → Bool} (hu : ∀ s ∈ t.rows, u s = true → p s = false)
    (hf : ∀ s, p (f s) = p s) : (t.update u f hid hkey).keep p = t.keep p := by
  apply eq_of_rows
  show (t.rows.map fun r => if u r then f r else r).filter p = t.rows.filter p
  rw [List.filter_map]
  have hsame : (t.rows.filter fun r => p (if u r then f r else r)) = t.rows.filter p := by
    refine List.filter_congr fun r _ => ?_
    split
    · exact hf r
    · rfl
  show ((t.rows.filter fun r => p (if u r then f r else r)).map fun r => if u r then f r else r) = _
  rw [hsame]
  refine (List.map_congr_left fun r hr => if_neg fun hur => ?_).trans (List.map_id _)
  obtain ⟨hr, hp⟩ := List.mem_filter.mp hr
  exact absurd ((hu r hr hur).symm.trans hp) Bool.false_ne_true

theorem upsert_keep (h : t.upsert r f hid hkey = some t') (hp : p r = true)
    (hkept : ∀ s ∈ t.rows, key s = key r → p s = true) (hf : ∀ s, p (f s) = p s) :
    (t.keep p).upsert r f hid hkey = some (t'.keep p) := by
  unfold upsert at h ⊢
  rw [find?_keep hkept]
  cases hfind : t.find? (key r) with
  | some old =>
    rw [hfind] at h
    obtain rfl := Option.some.inj h
    exact congrArg some (update_keep hf).symm
  | none =>
    rw [hfind] at h
    exact insert_keep h hp

theorem upsert_keep_of_not (h : t.upsert r f hid hkey = some t') (hp : p r = false)
    (hkept : ∀ s ∈ t.rows, key s = key r → p s = false) (hf : ∀ s, p (f s) = p s) : t'.keep p = t.keep p := by
  unfold upsert at h
  cases hfind : t.find? (key r) with
  | some old =>
    rw [hfind] at h
    obtain rfl := Option.some.inj h
    exact update_keep_of_not (fun s hs hu => hkept s hs (of_decide_eq_true hu)) hf
  | none =>
    rw [hfind] at h
    exact insert_keep_of_not h hp

end

end Table

/-! ## runs -/

namespace Runs

variable {σ τ α : Type*} {step : σ → α → Option σ} {step' : τ → α → Option τ} {ok : σ → α → Prop}
  {kept : α → Bool} {R : σ → τ → Prop}

/-- **A run without the actions that are not seen ends where nothing else is seen.** -/
theorem run_purge
    (hskip : ∀ s a s' t, R s t → ok s a → kept a = false → step s a = some s' → R s' t)
    (hstep : ∀ s a s' t, R s t → ok s a → kept a = true → step s a = some s' →
      ∃ t', step' t a = some t' ∧ R s' t')
    {s s' : σ} {t : τ} {as : List α} (hR : R s t) (hok : Along step ok s as) (h : run step s as = some s') :
    ∃ t', run step' t (as.filter kept) = some t' ∧ R s' t' := by
  induction as generalizing s t with
  | nil =>
    obtain rfl := Option.some.inj h
    exact ⟨t, rfl, hR⟩
  | cons a as ih =>
    obtain ⟨u, hu, hrun⟩ := run_cons_eq_some h
    cases ha : kept a with
    | false =>
      rw [List.filter_cons_of_neg (Bool.eq_false_iff.mp ha)]
      exact ih (hskip s a u t hR hok.head ha hu) (hok.tail hu) hrun
    | true =>
      rw [List.filter_cons_of_pos ha, run_cons]
      obtain ⟨v, hv, hRv⟩ := hstep s a u t hR hok.head ha hu
      rw [hv]
      exact ih hRv (hok.tail hu) hrun

end Runs
