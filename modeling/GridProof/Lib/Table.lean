import Mathlib.Data.List.Nodup

/-!
# Tables with unique columns

A table is a list of rows in which two columns are unique: a primary key `id` and a further key
`key`.  A statement either yields the new table or fails on a unique violation.

* `Table.insert`  `insert`, which fails if either column is taken;
* `Table.upsert`  `insert .. on conflict (key) do update`;
* `Table.update`  `update .. where`;

and `Puts t t' r`, which says of `upsert` and of an update by key what the new table holds: `r` as
the row of its key, and the other rows as they were.
-/

variable {ρ ι κ : Type*}

structure Table (ρ : Type*) {ι κ : Type*} (id : ρ → ι) (key : ρ → κ) where
  rows : List ρ
  id_nodup : (rows.map id).Nodup
  key_nodup : (rows.map key).Nodup

namespace Table

variable {id : ρ → ι} {key : ρ → κ}

def empty : Table ρ id key := ⟨[], List.nodup_nil, List.nodup_nil⟩

theorem eq_of_id {t : Table ρ id key} {r s : ρ} (hr : r ∈ t.rows) (hs : s ∈ t.rows)
    (h : id r = id s) : r = s :=
  List.inj_on_of_nodup_map t.id_nodup hr hs h

theorem eq_of_key {t : Table ρ id key} {r s : ρ} (hr : r ∈ t.rows) (hs : s ∈ t.rows)
    (h : key r = key s) : r = s :=
  List.inj_on_of_nodup_map t.key_nodup hr hs h

/-! ## reading -/

section
variable [DecidableEq ι]

def get? (t : Table ρ id key) (i : ι) : Option ρ := t.rows.find? fun r => id r = i

theorem get?_eq_some {t : Table ρ id key} {i : ι} {r : ρ} :
    t.get? i = some r ↔ r ∈ t.rows ∧ id r = i := by
  constructor
  · intro h
    exact ⟨List.mem_of_find?_eq_some h, of_decide_eq_true (List.find?_some h :)⟩
  · rintro ⟨hr, rfl⟩
    cases hf : t.get? (id r) with
    | none => exact absurd (decide_eq_true rfl) (List.find?_eq_none.mp hf r hr)
    | some s =>
      have hs : id s = id r := of_decide_eq_true (List.find?_some hf :)
      rw [eq_of_id (List.mem_of_find?_eq_some hf) hr hs]

end

section
variable [DecidableEq κ]

def find? (t : Table ρ id key) (k : κ) : Option ρ := t.rows.find? fun r => key r = k

theorem find?_eq_some {t : Table ρ id key} {k : κ} {r : ρ} :
    t.find? k = some r ↔ r ∈ t.rows ∧ key r = k := by
  constructor
  · intro h
    exact ⟨List.mem_of_find?_eq_some h, of_decide_eq_true (List.find?_some h :)⟩
  · rintro ⟨hr, rfl⟩
    cases hf : t.find? (key r) with
    | none => exact absurd (decide_eq_true rfl) (List.find?_eq_none.mp hf r hr)
    | some s =>
      have hs : key s = key r := of_decide_eq_true (List.find?_some hf :)
      rw [eq_of_key (List.mem_of_find?_eq_some hf) hr hs]

theorem find?_eq_none {t : Table ρ id key} {k : κ} :
    t.find? k = none ↔ ∀ r ∈ t.rows, key r ≠ k := by
  unfold find?
  rw [List.find?_eq_none]
  simp only [decide_eq_true_eq, ne_eq]

end

/-! ## update -/

section
variable (t : Table ρ id key) (p : ρ → Bool) (f : ρ → ρ) (hid : ∀ r, id (f r) = id r)
  (hkey : ∀ r, key (f r) = key r)

def update : Table ρ id key where
  rows := t.rows.map fun r => if p r then f r else r
  id_nodup := by
    have h : (t.rows.map fun r => if p r then f r else r).map id = t.rows.map id := by
      rw [List.map_map]
      refine List.map_congr_left fun r _ => ?_
      show id (if p r then f r else r) = id r
      split
      · exact hid r
      · rfl
    rw [h]
    exact t.id_nodup
  key_nodup := by
    have h : (t.rows.map fun r => if p r then f r else r).map key = t.rows.map key := by
      rw [List.map_map]
      refine List.map_congr_left fun r _ => ?_
      show key (if p r then f r else r) = key r
      split
      · exact hkey r
      · rfl
    rw [h]
    exact t.key_nodup

theorem mem_update {s : ρ} : s ∈ (t.update p f hid hkey).rows ↔
    ∃ r ∈ t.rows, s = if p r then f r else r := by
  show s ∈ t.rows.map _ ↔ _
  rw [List.mem_map]
  exact ⟨fun ⟨r, hr, e⟩ => ⟨r, hr, e.symm⟩, fun ⟨r, hr, e⟩ => ⟨r, hr, e.symm⟩⟩

/-- an update keeps the id and the key of a row -/
theorem update_keeps {r : ρ} (hr : r ∈ t.rows) :
    ∃ s ∈ (t.update p f hid hkey).rows, (s = r ∨ s = f r) ∧ id s = id r ∧ key s = key r := by
  refine ⟨_, (t.mem_update p f hid hkey).mpr ⟨r, hr, rfl⟩, ?_⟩
  split
  · exact ⟨.inr rfl, hid r, hkey r⟩
  · exact ⟨.inl rfl, rfl, rfl⟩

end

/-! ## insert -/

section
variable [DecidableEq ι] [DecidableEq κ]

def insert (t : Table ρ id key) (r : ρ) : Option (Table ρ id key) :=
  if h : id r ∉ t.rows.map id ∧ key r ∉ t.rows.map key then
    some
      { rows := t.rows ++ [r]
        id_nodup := by
          rw [List.map_append, List.map_singleton]
          exact t.id_nodup.append (List.nodup_singleton _)
            (List.disjoint_singleton.mpr h.1)
        key_nodup := by
          rw [List.map_append, List.map_singleton]
          exact t.key_nodup.append (List.nodup_singleton _)
            (List.disjoint_singleton.mpr h.2) }
  else none

theorem insert_eq_some {t t' : Table ρ id key} {r : ρ} (h : t.insert r = some t') :
    t'.rows = t.rows ++ [r] ∧ (∀ s ∈ t.rows, id s ≠ id r) ∧ ∀ s ∈ t.rows, key s ≠ key r := by
  unfold insert at h
  split at h
  · rename_i hfree
    cases h
    exact ⟨rfl, fun s hs e => hfree.1 (e ▸ List.mem_map_of_mem hs),
      fun s hs e => hfree.2 (e ▸ List.mem_map_of_mem hs)⟩
  · cases h

/-- `insert .. on conflict (key) do update`; `f` is the update of the row in conflict -/
def upsert (t : Table ρ id key) (r : ρ) (f : ρ → ρ) (hid : ∀ r, id (f r) = id r)
    (hkey : ∀ r, key (f r) = key r) : Option (Table ρ id key) :=
  match t.find? (key r) with
  | some _ => some (t.update (fun s => key s = key r) f hid hkey)
  | none => t.insert r

/-- an upsert keeps the id and the key of a row -/
theorem upsert_keeps {t t' : Table ρ id key} {r : ρ} {f : ρ → ρ} {hid : ∀ r, id (f r) = id r}
    {hkey : ∀ r, key (f r) = key r} (h : t.upsert r f hid hkey = some t') {s : ρ}
    (hs : s ∈ t.rows) : ∃ s' ∈ t'.rows, (s' = s ∨ s' = f s) ∧ id s' = id s ∧ key s' = key s := by
  unfold upsert at h
  split at h
  · cases h
    exact t.update_keeps _ f hid hkey hs
  · refine ⟨s, ?_, .inl rfl, rfl, rfl⟩
    rw [(insert_eq_some h).1]
    exact List.mem_append_left _ hs

/-- a row after an upsert was there, is the update of one, or is the new one under a new key -/
theorem upsert_cases {t t' : Table ρ id key} {r : ρ} {f : ρ → ρ} {hid : ∀ r, id (f r) = id r}
    {hkey : ∀ r, key (f r) = key r} (h : t.upsert r f hid hkey = some t') {s : ρ}
    (hs : s ∈ t'.rows) : (∃ old ∈ t.rows, s = old ∨ s = f old ∧ key old = key r) ∨
      (s = r ∧ ∀ old ∈ t.rows, id old ≠ id r ∧ key old ≠ key r) := by
  unfold upsert at h
  split at h
  · cases h
    obtain ⟨old, hold, rfl⟩ := (t.mem_update _ f hid hkey).mp hs
    refine .inl ⟨old, hold, ?_⟩
    split
    · rename_i hk
      exact .inr ⟨rfl, of_decide_eq_true hk⟩
    · exact .inl rfl
  · obtain ⟨hrows, hids, hkeys⟩ := insert_eq_some h
    rw [hrows, List.mem_append, List.mem_singleton] at hs
    rcases hs with hs | rfl
    · exact .inl ⟨s, hs, .inl rfl⟩
    · exact .inr ⟨rfl, fun old hold => ⟨hids old hold, hkeys old hold⟩⟩

/-- the row that an upsert leaves for the key -/
def stored (t : Table ρ id key) (r : ρ) (f : ρ → ρ) : ρ :=
  match t.find? (key r) with
  | some old => f old
  | none => r

theorem insert_map {β : Type*} (t : Table ρ id key) (r : ρ) (x : β) :
    (t.insert r).map (fun _ => x) =
      if id r ∉ t.rows.map id ∧ key r ∉ t.rows.map key then some x else none := by
  unfold insert
  split
  · rfl
  · rfl

/-- the id an upsert answers with depends on the id and the key of its row only -/
theorem upsert_stored_id {t : Table ρ id key} {r s : ρ} {f g : ρ → ρ} {hid : ∀ r, id (f r) = id r}
    {hkey : ∀ r, key (f r) = key r} {gid : ∀ r, id (g r) = id r} {gkey : ∀ r, key (g r) = key r}
    (hi : id r = id s) (hk : key r = key s) :
    (t.upsert r f hid hkey).map (fun _ => id (t.stored r f)) =
      (t.upsert s g gid gkey).map fun _ => id (t.stored s g) := by
  have hfind : t.find? (key r) = t.find? (key s) := by rw [hk]
  unfold upsert stored
  cases h : t.find? (key s) with
  | some old =>
    rw [hfind, h]
    exact congrArg some ((hid old).trans (gid old).symm)
  | none =>
    rw [hfind, h]
    show (t.insert r).map (fun _ => id r) = (t.insert s).map fun _ => id s
    rw [insert_map, insert_map, hi, hk]

end

/-! ## writing one row -/

/-- `t'` is `t` with `r` as the row of its key -/
def Puts (t t' : Table ρ id key) (r : ρ) : Prop :=
  ∀ s, s ∈ t'.rows ↔ (s ∈ t.rows ∧ key s ≠ key r) ∨ s = r

theorem Puts.self {t t' : Table ρ id key} {r : ρ} (h : t.Puts t' r) : r ∈ t'.rows :=
  (h r).mpr (.inr rfl)

theorem Puts.of_ne {t t' : Table ρ id key} {r s : ρ} (h : t.Puts t' r) (hs : s ∈ t.rows)
    (hne : key s ≠ key r) : s ∈ t'.rows :=
  (h s).mpr (.inl ⟨hs, hne⟩)

theorem Puts.cases {t t' : Table ρ id key} {r s : ρ} (h : t.Puts t' r) (hs : s ∈ t'.rows) :
    (s ∈ t.rows ∧ key s ≠ key r) ∨ s = r :=
  (h s).mp hs

theorem update_puts {t : Table ρ id key} {f : ρ → ρ} {hid : ∀ r, id (f r) = id r}
    {hkey : ∀ r, key (f r) = key r} {p : ρ → Bool} {old : ρ} (hold : old ∈ t.rows)
    (hp : ∀ r ∈ t.rows, p r = true ↔ r = old) : t.Puts (t.update p f hid hkey) (f old) := by
  intro s
  rw [mem_update]
  constructor
  · rintro ⟨q, hq, rfl⟩
    by_cases hqo : q = old
    · rw [if_pos ((hp q hq).mpr hqo), hqo]
      exact .inr rfl
    · rw [if_neg fun h => hqo ((hp q hq).mp h)]
      refine .inl ⟨hq, fun h => hqo ?_⟩
      exact eq_of_key hq hold (h.trans (hkey old))
  · rintro (⟨hs, hsk⟩ | rfl)
    · refine ⟨s, hs, ?_⟩
      rw [if_neg fun h => hsk ?_]
      rw [(hp s hs).mp h, hkey]
    · exact ⟨old, hold, by rw [if_pos ((hp old hold).mpr rfl)]⟩

section
variable [DecidableEq ι] [DecidableEq κ]

theorem insert_puts {t t' : Table ρ id key} {r : ρ} (h : t.insert r = some t') : t.Puts t' r := by
  obtain ⟨hrows, -, hkeys⟩ := insert_eq_some h
  intro s
  rw [hrows, List.mem_append, List.mem_singleton]
  exact or_congr_left ⟨fun hs => ⟨hs, hkeys s hs⟩, fun hs => hs.1⟩

theorem upsert_puts {t t' : Table ρ id key} {r : ρ} {f : ρ → ρ} {hid : ∀ r, id (f r) = id r}
    {hkey : ∀ r, key (f r) = key r} (h : t.upsert r f hid hkey = some t') :
    t.Puts t' (t.stored r f) := by
  unfold upsert at h
  unfold stored
  cases hf : t.find? (key r) with
  | none =>
    rw [hf] at h
    exact insert_puts h
  | some old =>
    rw [hf] at h
    cases h
    obtain ⟨hold, hk⟩ := find?_eq_some.mp hf
    refine update_puts hold fun q hq => ?_
    rw [decide_eq_true_iff]
    exact ⟨fun hqk => eq_of_key hq hold (hqk.trans hk.symm), fun e => e ▸ hk⟩

omit [DecidableEq ι] in
theorem stored_key {t : Table ρ id key} {r : ρ} {f : ρ → ρ} (hkey : ∀ r, key (f r) = key r) :
    key (t.stored r f) = key r := by
  unfold stored
  cases hf : t.find? (key r) with
  | none => rfl
  | some old => exact (hkey old).trans (find?_eq_some.mp hf).2

omit [DecidableEq κ] in
/-- an update of the row with a given id -/
theorem update_get?_puts {t : Table ρ id key} {f : ρ → ρ} (hid : ∀ r, id (f r) = id r)
    (hkey : ∀ r, key (f r) = key r) {i : ι} {old : ρ} (h : t.get? i = some old) :
    t.Puts (t.update (fun r => id r = i) f hid hkey) (f old) := by
  obtain ⟨hold, hi⟩ := get?_eq_some.mp h
  refine update_puts hold fun q hq => ?_
  rw [decide_eq_true_iff]
  exact ⟨fun hqi => eq_of_id hq hold (hqi.trans hi.symm), fun e => e ▸ hi⟩

end

end Table
