import Mathlib.Algebra.GroupWithZero.Nat
import Mathlib.Data.List.DropRight

/-!
# Texts as JavaScript has them

`utf16Length` is the `length` of a text (a character beyond the basic plane counts twice), `trim` takes
white space and line terminators off both ends.  The functions that rest on Unicode's data are those of a
`Runtime`, which the results leave open.
-/

namespace JsText

def utf16Length (s : String) : ℕ := (s.toList.map fun c => if c.toNat < 0x10000 then 1 else 2).sum

/-- `WhiteSpace` and `LineTerminator` -/
def isWhiteSpace (c : Char) : Bool :=
  (0x09 ≤ c.toNat && c.toNat ≤ 0x0D) || (0x2000 ≤ c.toNat && c.toNat ≤ 0x200A) ||
    [0x20, 0xA0, 0x1680, 0x2028, 0x2029, 0x202F, 0x205F, 0x3000, 0xFEFF].contains c.toNat

def trim (s : String) : String :=
  String.ofList ((s.toList.dropWhile isWhiteSpace).rdropWhile isWhiteSpace)

/-- the lower case of an ASCII text -/
def asciiLower (s : String) : String := String.ofList (s.toList.map Char.toLower)

class Runtime where
  toLowerCase : String → String
  localeCompare : String → String → Int

export Runtime (toLowerCase localeCompare)

/-- a runtime that behaves as the real one does on ASCII texts of one case -/
@[reducible] def asciiRuntime : Runtime where
  toLowerCase := asciiLower
  localeCompare := fun a b => if a < b then -1 else if a = b then 0 else 1

/-! ## lengths -/

theorem length_le_utf16Length (s : String) : s.length ≤ utf16Length s := by
  unfold utf16Length
  rw [← String.length_toList]
  induction s.toList with
  | nil => exact Nat.le_refl 0
  | cons c cs ih =>
    rw [List.map_cons, List.sum_cons, List.length_cons]
    split
    · omega
    · omega

/-- a text of one unit a character -/
theorem utf16Length_eq_length {s : String} (h : ∀ c ∈ s.toList, c.toNat < 0x10000) :
    utf16Length s = s.length := by
  unfold utf16Length
  rw [List.map_congr_left fun c hc => if_pos (h c hc), ← String.length_toList]
  induction s.toList with
  | nil => rfl
  | cons c cs ih => rw [List.map_cons, List.sum_cons, ih, List.length_cons, Nat.add_comm]

end JsText
