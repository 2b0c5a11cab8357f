import Mathlib.Data.Rat.Floor
import Mathlib.Tactic.Linarith

/-!
# Binary interchange floats

The values of the IEEE 754 binary formats with `w` exponent bits and `t` trailing significand
bits, the comparison `<` and the rounding to an integer.

* `decode w t x`     the value of the bit pattern `x`;
* `Value.lt`         the comparison of the language: false as soon as one side is not a number;
* `lower_lt_iff`     a running minimum of numbers is below a bound iff one of them is;
* `roundAway_le_iff` rounding to nearest, ties away from zero, against an integer bound.
-/

namespace BinaryFloat

inductive Value where
  | nan
  | inf (negative : Bool)
  | fin (q : ℚ)
deriving DecidableEq

/-- the value of a bit pattern: sign, exponent and trailing significand, from the top -/
def decode (w t : Nat) (x : BitVec (1 + w + t)) : Value :=
  let sign : ℚ := if x.msb then -1 else 1
  let e := x.toNat / 2 ^ t % 2 ^ w
  let m := x.toNat % 2 ^ t
  let least : ℤ := 2 - 2 ^ (w - 1) - t
  if e = 2 ^ w - 1 then (if m = 0 then .inf x.msb else .nan)
  else if e = 0 then .fin (sign * m * 2 ^ least)
  else .fin (sign * (2 ^ t + m) * 2 ^ (least + e - 1))

/-! ## comparison -/

def Value.lt : Value → Value → Bool
  | .fin p, .fin q => p < q
  | .fin _, .inf negative => !negative
  | .inf negative, .fin _ => negative
  | .inf n₁, .inf n₂ => n₁ && !n₂
  | _, _ => false

/-- `x == x` of the language -/
def Value.isNumber : Value → Bool
  | .nan => false
  | _ => true

theorem Value.lt_of_lt_of_not_lt {x y z : Value} (h : x.lt z) (hy : y.isNumber)
    (hxy : ¬ x.lt y) : y.lt z := by
  cases x <;> cases y <;> cases z <;> simp_all [Value.lt, Value.isNumber]
  exact lt_of_le_of_lt ‹_› ‹_›

theorem Value.lt_trans {x y z : Value} (hxy : x.lt y) (hyz : y.lt z) : x.lt z := by
  cases x <;> cases y <;> cases z <;> simp_all [Value.lt]
  exact LT.lt.trans ‹_› ‹_›

/-- one step of a running minimum -/
def Value.lower (low x : Value) : Value := if x.lt low then x else low

theorem Value.lower_isNumber {low x : Value} (hlow : low.isNumber) (hx : x.isNumber) :
    (low.lower x).isNumber := by
  unfold Value.lower
  split
  · exact hx
  · exact hlow

theorem Value.lower_lt_iff {low x z : Value} (hlow : low.isNumber) :
    (low.lower x).lt z ↔ low.lt z ∨ x.lt z := by
  unfold Value.lower
  split
  · rename_i h
    exact ⟨.inr, fun hz => hz.elim (fun hlz => Value.lt_trans h hlz) id⟩
  · rename_i h
    exact ⟨.inl, fun hz => hz.elim id fun hxz => Value.lt_of_lt_of_not_lt hxz hlow h⟩

theorem Value.lower_fin (p q : ℚ) : (Value.fin p).lower (.fin q) = .fin (min p q) := by
  show (if decide (q < p) = true then Value.fin q else Value.fin p) = .fin (min p q)
  split
  · rename_i h
    rw [min_eq_right (le_of_lt (of_decide_eq_true h))]
  · rename_i h
    rw [min_eq_left (not_lt.mp fun hlt => h (decide_eq_true hlt))]

/-! ## rounding to an integer -/

/-- to nearest, ties away from zero -/
def roundAway (q : ℚ) : ℤ := if 0 ≤ q then ⌊q + 1 / 2⌋ else -⌊-q + 1 / 2⌋

theorem roundAway_le_iff (q : ℚ) (n : ℕ) : roundAway q ≤ n ↔ q < n + 1 / 2 := by
  unfold roundAway
  split
  · rw [← Int.lt_add_one_iff, Int.floor_lt]
    push_cast
    constructor
    · intro h
      linarith
    · intro h
      linarith
  · rename_i hq
    have hfloor : 0 ≤ ⌊-q + 1 / 2⌋ := Int.floor_nonneg.mpr (by linarith)
    have hn : (0 : ℚ) ≤ n := Nat.cast_nonneg n
    refine ⟨fun _ => by linarith, fun _ => ?_⟩
    omega

end BinaryFloat
