import Mathlib.Data.List.Sort
import GridProof.Lib.OrderedMap

/-!
# Maps whose values are replaced

The keys and their order stay.  A function that reads the values through the replacement only, sees the same
in both maps.

* `get?_mapValues`, `values_mapValues`, `mapValues_set`   the operations, one equation each;
* `insertionSort_map_of`, `filter_map_of`   a list sorted or filtered by what the replacement keeps.
-/

namespace OrderedMap
variable {κ υ ω : Type*} {f : υ → ω}

def mapValues (f : υ → ω) (m : OrderedMap κ υ) : OrderedMap κ ω where
  entries := m.entries.map fun e => (e.1, f e.2)
  nodup := by
    rw [List.map_map]
    exact m.nodup

theorem keys_mapValues (m : OrderedMap κ υ) :
    (m.mapValues f).entries.map Prod.fst = m.entries.map Prod.fst := by
  show (m.entries.map fun e => (e.1, f e.2)).map Prod.fst = _
  rw [List.map_map]
  rfl

theorem values_mapValues (m : OrderedMap κ υ) : (m.mapValues f).values = m.values.map f := by
  show (m.entries.map fun e => (e.1, f e.2)).map Prod.snd = (m.entries.map Prod.snd).map f
  rw [List.map_map, List.map_map]
  rfl

theorem ext_entries {m m' : OrderedMap κ υ} (h : m.entries = m'.entries) : m = m' := by
  cases m
  cases m'
  cases h
  rfl

variable [DecidableEq κ]

theorem get?_mapValues (m : OrderedMap κ υ) (k : κ) : (m.mapValues f).get? k = (m.get? k).map f := by
  show ((m.entries.map fun e => (e.1, f e.2)).find? fun e => decide (e.1 = k)).map Prod.snd =
    ((m.entries.find? fun e => decide (e.1 = k)).map Prod.snd).map f
  rw [List.find?_map, Option.map_map, Option.map_map]
  rfl

theorem mapValues_set (m : OrderedMap κ υ) (k : κ) (v : υ) :
    (m.set k v).mapValues f = (m.mapValues f).set k (f v) := by
  apply ext_entries
  unfold set
  by_cases h : k ∈ m.entries.map Prod.fst
  · rw [dif_pos h, dif_pos (by rwa [keys_mapValues])]
    show (m.entries.map fun e => if e.1 = k then (k, v) else e).map _ = (m.entries.map _).map _
    rw [List.map_map, List.map_map]
    refine List.map_congr_left fun e _ => ?_
    simp only [Function.comp_apply]
    split
    · rfl
    · rfl
  · rw [dif_neg h, dif_neg (by rwa [keys_mapValues])]
    exact List.map_append

end OrderedMap

/-! ## lists of such values -/

section
variable {α β : Type*} {f : α → β}

/-- the order of the images is that of the list -/
theorem insertionSort_map_of {r : α → α → Prop} {r' : β → β → Prop} [DecidableRel r] [DecidableRel r']
    (h : ∀ a b, r' (f a) (f b) ↔ r a b) (l : List α) :
    (l.map f).insertionSort r' = (l.insertionSort r).map f :=
  (List.map_insertionSort r r' f l fun a _ b _ => (h a b).symm).symm

theorem filter_map_of {p : α → Bool} {q : β → Bool} (h : ∀ a, q (f a) = p a) (l : List α) :
    (l.map f).filter q = (l.filter p).map f := by
  rw [List.filter_map]
  congr 2
  funext a
  exact h a

end
