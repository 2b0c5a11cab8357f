import Mathlib.Data.List.Sort

/-!
# Sorting with a comparator

`sort((a, b) => first(a, b) || second(a, b))` with comparators that are total orders on the values at hand.

* `TotalOn`                    a comparator is a strict total order on a set of values;
* `thenBy`                     the second comparator where the first answers zero;
* `insertionSort_unique`       lists of the same elements sort to one list, if their order is total on them;
* `Strict.insertionSort_perm`  the same for a strict order, on distinct elements;
* `ByKeys`                     two comparators, each of a key of the elements, are such an order.
-/

namespace Comparator

variable {α β γ : Type*}

/-- `cmp` orders the values of `X` totally and answers zero for equal values only -/
structure TotalOn (cmp : β → β → Int) (X : β → Prop) : Prop where
  zero : ∀ a b, X a → X b → (cmp a b = 0 ↔ a = b)
  swap : ∀ a b, X a → X b → (cmp a b < 0 ↔ 0 < cmp b a)
  trans : ∀ a b c, X a → X b → X c → cmp a b < 0 → cmp b c < 0 → cmp a c < 0

/-- `first(a, b) || second(a, b)` -/
def thenBy (first second : α → α → Int) (a b : α) : Int :=
  if first a b ≠ 0 then first a b else second a b

/-! ## sorting -/

section
variable {r : α → α → Prop} [DecidableRel r] {l l' : List α}

/-- an insertion sort sorts, if the order is total and transitive on the elements -/
theorem pairwise_insertionSort (htotal : ∀ a ∈ l, ∀ b ∈ l, r a b ∨ r b a)
    (htrans : ∀ a ∈ l, ∀ b ∈ l, ∀ c ∈ l, r a b → r b c → r a c) : (l.insertionSort r).Pairwise r := by
  let s : {a // a ∈ l} → {a // a ∈ l} → Prop := fun a b => r a b
  have : DecidableRel s := fun a b => inferInstanceAs (Decidable (r a b))
  have : Std.Total s := ⟨fun a b => htotal a a.2 b b.2⟩
  have : IsTrans _ s := ⟨fun a b c => htrans a a.2 b b.2 c c.2⟩
  have hsorted := (List.pairwise_insertionSort s l.attach).map (S := r) Subtype.val fun _ _ h => h
  rw [List.map_insertionSort s r Subtype.val l.attach fun _ _ _ _ => Iff.rfl,
    List.attach_map_subtype_val] at hsorted
  exact hsorted

/-- **Two lists of the same elements sort to the same list**, if the order is total on them. -/
theorem insertionSort_unique (hl : l.Nodup) (hl' : l'.Nodup) (hmem : ∀ a, a ∈ l ↔ a ∈ l')
    (htotal : ∀ a ∈ l, ∀ b ∈ l, r a b ∨ r b a)
    (htrans : ∀ a ∈ l, ∀ b ∈ l, ∀ c ∈ l, r a b → r b c → r a c)
    (hanti : ∀ a ∈ l, ∀ b ∈ l, r a b → r b a → a = b) : l.insertionSort r = l'.insertionSort r := by
  have hperm : (l.insertionSort r).Perm (l'.insertionSort r) :=
    ((List.perm_insertionSort r l).trans ((List.perm_ext_iff_of_nodup hl hl').mpr hmem)).trans
      (List.perm_insertionSort r l').symm
  have hsorted' : (l'.insertionSort r).Pairwise r := by
    refine pairwise_insertionSort ?_ ?_
    · exact fun a ha b hb => htotal a ((hmem a).mpr ha) b ((hmem b).mpr hb)
    · exact fun a ha b hb c hc => htrans a ((hmem a).mpr ha) b ((hmem b).mpr hb) c ((hmem c).mpr hc)
  refine hperm.eq_of_pairwise ?_ (pairwise_insertionSort htotal htrans) hsorted'
  intro a b ha hb hab hba
  rw [List.mem_insertionSort] at ha hb
  exact hanti a ha b ((hmem b).mpr hb) hab hba

end

theorem orderedInsert_congr {r s : α → α → Prop} [DecidableRel r] [DecidableRel s] {a : α} {l : List α}
    (h : ∀ b ∈ l, (r a b ↔ s a b)) : l.orderedInsert r a = l.orderedInsert s a := by
  induction l with
  | nil => rfl
  | cons b l ih =>
    have hb := h b List.mem_cons_self
    by_cases hr : r a b
    · rw [List.orderedInsert_cons_of_le r l hr, List.orderedInsert_cons_of_le s l (hb.mp hr)]
    · rw [List.orderedInsert_of_not_le r l hr, List.orderedInsert_of_not_le s l (mt hb.mpr hr),
        ih fun b hb => h b (List.mem_cons_of_mem _ hb)]

/-- orders that agree on distinct elements sort a list of distinct elements alike -/
theorem insertionSort_congr {r s : α → α → Prop} [DecidableRel r] [DecidableRel s] {l : List α} (hl : l.Nodup)
    (h : ∀ a ∈ l, ∀ b ∈ l, a ≠ b → (r a b ↔ s a b)) : l.insertionSort r = l.insertionSort s := by
  induction l with
  | nil => rfl
  | cons a l ih =>
    obtain ⟨ha, hnodup⟩ := List.nodup_cons.mp hl
    rw [List.insertionSort_cons, List.insertionSort_cons,
      ih hnodup fun b hb c hc => h b (List.mem_cons_of_mem _ hb) c (List.mem_cons_of_mem _ hc)]
    refine orderedInsert_congr fun b hb => ?_
    have hmem := (List.mem_insertionSort s).mp hb
    exact h a List.mem_cons_self b (List.mem_cons_of_mem _ hmem) fun heq => ha (heq ▸ hmem)

/-- a strict total order of the elements -/
structure Strict (before : α → α → Bool) (l : List α) : Prop where
  irrefl : ∀ a ∈ l, before a a = false
  trans : ∀ a ∈ l, ∀ b ∈ l, ∀ c ∈ l, before a b = true → before b c = true → before a c = true
  total : ∀ a ∈ l, ∀ b ∈ l, a ≠ b → before a b = true ∨ before b a = true

theorem Strict.mono {before : α → α → Bool} {l l' : List α} (h : Strict before l) (hsub : ∀ a ∈ l', a ∈ l) :
    Strict before l' where
  irrefl a ha := h.irrefl a (hsub a ha)
  trans a ha b hb c hc := h.trans a (hsub a ha) b (hsub b hb) c (hsub c hc)
  total a ha b hb := h.total a (hsub a ha) b (hsub b hb)

theorem Strict.asymm {before : α → α → Bool} {l : List α} (h : Strict before l) {a b : α} (ha : a ∈ l) (hb : b ∈ l)
    (hab : before a b = true) : before b a = false := by
  by_contra hba
  have hself := h.trans a ha b hb a ha hab (Bool.eq_true_of_not_eq_false hba)
  rw [h.irrefl a ha] at hself
  cases hself

/-- sorting by a strict total order depends on the elements only -/
theorem Strict.insertionSort_perm {before : α → α → Bool} {l l' : List α} (h : Strict before l) (hl : l.Nodup)
    (hperm : l'.Perm l) : l'.insertionSort (fun a b => before a b = true) =
      l.insertionSort fun a b => before a b = true := by
  have hl' : l'.Nodup := hperm.nodup_iff.mpr hl
  have hmem : ∀ a ∈ l', a ∈ l := fun a => hperm.mem_iff.mp
  have hweak : ∀ a ∈ l, ∀ b ∈ l, a ≠ b → (before a b = true ↔ before b a = false) := fun a ha b hb hne =>
    ⟨h.asymm ha hb, fun hba => (h.total a ha b hb hne).resolve_right (Bool.eq_false_iff.mp hba)⟩
  rw [insertionSort_congr hl' fun a ha b hb => hweak a (hmem a ha) b (hmem b hb), insertionSort_congr hl hweak]
  refine insertionSort_unique hl' hl (fun a => hperm.mem_iff) (fun a ha b hb => ?_)
    (fun a ha b hb c hc hab hbc => ?_) fun a ha b hb hab hba => ?_
  · by_cases hba : before b a = true
    · exact .inr (h.asymm (hmem b hb) (hmem a ha) hba)
    · exact .inl (Bool.eq_false_iff.mpr hba)
  · by_contra hca
    have hca : before c a = true := Bool.eq_true_of_not_eq_false hca
    by_cases hne : a = b
    · rw [hne, hbc] at hca
      cases hca
    · have hlt := (h.total a (hmem a ha) b (hmem b hb) hne).resolve_right (Bool.eq_false_iff.mp hab)
      have hcb := h.trans c (hmem c hc) a (hmem a ha) b (hmem b hb) hca hlt
      rw [hbc] at hcb
      cases hcb
  · by_contra hne
    rcases h.total a (hmem a ha) b (hmem b hb) hne with hlt | hlt
    · rw [hba] at hlt
      cases hlt
    · rw [hab] at hlt
      cases hlt

/-- two orders that both sort a list agree on its elements -/
theorem agree_of_pairwise {r s : α → α → Prop} {l : List α} (hr : l.Pairwise r) (hs : l.Pairwise s)
    (hself : ∀ a ∈ l, r a a ↔ s a a) (ranti : ∀ a ∈ l, ∀ b ∈ l, r a b → r b a → a = b)
    (santi : ∀ a ∈ l, ∀ b ∈ l, s a b → s b a → a = b) {a b : α} (ha : a ∈ l) (hb : b ∈ l) :
    r a b ↔ s a b := by
  have hboth := hr.and hs
  refine List.Pairwise.forall_of_forall_of_flip (R := fun a b => r a b ↔ s a b) hself
    (hboth.imp fun h => iff_of_true h.1 h.2) (hboth.imp_of_mem fun {a b} ha hb h => ?_) ha hb
  constructor
  · intro hba
    have he := ranti a ha b hb h.1 hba
    subst he
    exact h.2
  · intro hba
    have he := santi a ha b hb h.2 hba
    subst he
    exact h.1

/-! ## two comparators -/

section
variable {cmp : β → β → Int} {cmp' : γ → γ → Int} {X : β → Prop}

theorem TotalOn.total (h : TotalOn cmp X) {a b : β} (ha : X a) (hb : X b) : cmp a b ≤ 0 ∨ cmp b a ≤ 0 := by
  by_cases hab : cmp a b ≤ 0
  · exact .inl hab
  · exact .inr ((h.swap b a hb ha).mpr (by omega)).le

theorem TotalOn.neg_of_ne (h : TotalOn cmp X) {a b : β} (ha : X a) (hb : X b) (hle : cmp a b ≤ 0)
    (hne : a ≠ b) : cmp a b < 0 :=
  lt_of_le_of_ne hle fun h0 => hne ((h.zero a b ha hb).mp h0)

theorem TotalOn.antisymm (h : TotalOn cmp X) {a b : β} (ha : X a) (hb : X b) (hab : cmp a b ≤ 0)
    (hba : cmp b a ≤ 0) : a = b := by
  by_contra hne
  have hpos := (h.swap a b ha hb).mp (h.neg_of_ne ha hb hab hne)
  omega

theorem TotalOn.trans_le (h : TotalOn cmp X) {a b c : β} (ha : X a) (hb : X b) (hc : X c)
    (hab : cmp a b ≤ 0) (hbc : cmp b c ≤ 0) : cmp a c ≤ 0 := by
  by_cases hne : a = b
  · rw [hne]
    exact hbc
  · by_cases hne' : b = c
    · rw [← hne']
      exact hab
    · exact (h.trans a b c ha hb hc (h.neg_of_ne ha hb hab hne) (h.neg_of_ne hb hc hbc hne')).le

/-- the order of two comparators, each on a key: smaller by the first, or equal and not greater by the second -/
theorem thenBy_le_iff (h : TotalOn cmp X) {f : α → β} {g : α → γ} {a b : α} (ha : X (f a)) (hb : X (f b)) :
    thenBy (fun a b => cmp (f a) (f b)) (fun a b => cmp' (g a) (g b)) a b ≤ 0 ↔
      cmp (f a) (f b) < 0 ∨ f a = f b ∧ cmp' (g a) (g b) ≤ 0 := by
  show (if cmp (f a) (f b) ≠ 0 then cmp (f a) (f b) else cmp' (g a) (g b)) ≤ 0 ↔ _
  rw [← h.zero (f a) (f b) ha hb]
  split
  · omega
  · omega

/-- the comparators of two keys, and a relation that says "not after" -/
structure ByKeys (cmp : β → β → Int) (cmp' : γ → γ → Int) (f : α → β) (g : α → γ) (r : α → α → Prop)
    (l : List α) : Prop where
  first : TotalOn cmp fun x => ∃ a ∈ l, f a = x
  second : TotalOn cmp' fun y => ∃ a ∈ l, g a = y
  inj : ∀ a ∈ l, ∀ b ∈ l, g a = g b → a = b
  rel : ∀ a b, r a b ↔ thenBy (fun a b => cmp (f a) (f b)) (fun a b => cmp' (g a) (g b)) a b ≤ 0

namespace ByKeys

variable {f : α → β} {g : α → γ} {r : α → α → Prop} {l : List α} (h : ByKeys cmp cmp' f g r l) {a b c : α}

include h

theorem le_iff (ha : a ∈ l) (hb : b ∈ l) : r a b ↔ cmp (f a) (f b) < 0 ∨ f a = f b ∧ cmp' (g a) (g b) ≤ 0 :=
  (h.rel a b).trans (thenBy_le_iff h.first ⟨a, ha, rfl⟩ ⟨b, hb, rfl⟩)

theorem total (ha : a ∈ l) (hb : b ∈ l) : r a b ∨ r b a := by
  rw [h.le_iff ha hb, h.le_iff hb ha]
  by_cases he : f a = f b
  · refine (h.second.total ⟨a, ha, rfl⟩ ⟨b, hb, rfl⟩).imp (fun hab => .inr ⟨he, hab⟩) fun hba => ?_
    exact .inr ⟨he.symm, hba⟩
  · refine (h.first.total ⟨a, ha, rfl⟩ ⟨b, hb, rfl⟩).imp (fun hab => .inl ?_) fun hba => .inl ?_
    · exact h.first.neg_of_ne ⟨a, ha, rfl⟩ ⟨b, hb, rfl⟩ hab he
    · exact h.first.neg_of_ne ⟨b, hb, rfl⟩ ⟨a, ha, rfl⟩ hba (Ne.symm he)

theorem trans (ha : a ∈ l) (hb : b ∈ l) (hc : c ∈ l) (hab : r a b) (hbc : r b c) : r a c := by
  rw [h.le_iff ha hb] at hab
  rw [h.le_iff hb hc] at hbc
  rw [h.le_iff ha hc]
  rcases hab with hab | ⟨hab, hab'⟩
  · rcases hbc with hbc | ⟨hbc, -⟩
    · exact .inl (h.first.trans _ _ _ ⟨a, ha, rfl⟩ ⟨b, hb, rfl⟩ ⟨c, hc, rfl⟩ hab hbc)
    · exact .inl (hbc ▸ hab)
  · rcases hbc with hbc | ⟨hbc, hbc'⟩
    · exact .inl (hab ▸ hbc)
    · exact .inr ⟨hab.trans hbc,
        h.second.trans_le ⟨a, ha, rfl⟩ ⟨b, hb, rfl⟩ ⟨c, hc, rfl⟩ hab' hbc'⟩

theorem antisymm (ha : a ∈ l) (hb : b ∈ l) (hab : r a b) (hba : r b a) : a = b := by
  rw [h.le_iff ha hb] at hab
  rw [h.le_iff hb ha] at hba
  rcases hab with hab | ⟨he, hab⟩
  · have hpos := (h.first.swap _ _ ⟨a, ha, rfl⟩ ⟨b, hb, rfl⟩).mp hab
    rcases hba with hba | ⟨he', -⟩
    · omega
    · have h0 := (h.first.zero _ _ ⟨a, ha, rfl⟩ ⟨b, hb, rfl⟩).mpr he'.symm
      omega
  · rcases hba with hba | ⟨-, hba⟩
    · have h0 := (h.first.zero _ _ ⟨b, hb, rfl⟩ ⟨a, ha, rfl⟩).mpr he.symm
      omega
    · exact h.inj a ha b hb (h.second.antisymm ⟨a, ha, rfl⟩ ⟨b, hb, rfl⟩ hab hba)

theorem insertionSort_unique [DecidableRel r] {l' : List α} (hl : l.Nodup) (hl' : l'.Nodup)
    (hmem : ∀ a, a ∈ l ↔ a ∈ l') : l.insertionSort r = l'.insertionSort r :=
  Comparator.insertionSort_unique hl hl' hmem (fun _ ha _ hb => h.total ha hb)
    (fun _ ha _ hb _ hc => h.trans ha hb hc) fun _ ha _ hb => h.antisymm ha hb

end ByKeys

end

/-! ## code points -/

/-- the order of texts by their code points is one -/
theorem totalOn_codePoints (X : String → Prop) :
    TotalOn (fun a b : String => if a < b then -1 else if a = b then 0 else 1) X := by
  have hneg (a b : String) : (if a < b then -1 else if a = b then 0 else 1 : Int) < 0 ↔ a < b := by
    split
    · rename_i hlt
      exact iff_of_true (by decide) hlt
    · rename_i hlt
      refine iff_of_false ?_ hlt
      split
      · decide
      · decide
  have hpos (a b : String) : 0 < (if a < b then -1 else if a = b then 0 else 1 : Int) ↔ b < a := by
    split
    · rename_i hlt
      exact iff_of_false (by decide) (String.lt_asymm hlt)
    · rename_i hlt
      split
      · rename_i heq
        exact iff_of_false (by decide) (heq ▸ String.lt_irrefl a)
      · rename_i heq
        refine iff_of_true (by decide) ?_
        by_contra hgt
        exact heq (String.le_antisymm (String.not_lt.mp hgt) (String.not_lt.mp hlt))
  refine ⟨fun a b _ _ => ?_, fun a b _ _ => (hneg a b).trans (hpos b a).symm, fun a b c _ _ _ hab hbc => ?_⟩
  · split
    · rename_i hlt
      exact iff_of_false (by decide) fun heq => String.lt_irrefl b (heq ▸ hlt)
    · split
      · rename_i heq
        exact iff_of_true rfl heq
      · rename_i heq
        exact iff_of_false (by decide) heq
  · rw [hneg] at *
    exact String.lt_trans hab hbc

end Comparator
