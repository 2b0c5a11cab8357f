import Mathlib.Tactic.NormNum
import GridProof.Lib.Sha256

/-!
# Words of call data

The arguments of a call are words of thirty-two bytes, behind four bytes that name the function.

* `word`, `argument`   a word's bytes, and the word at a position of the arguments;
* `argument_word`      a word is read from its bytes, whatever follows.
-/

namespace Abi
open Sha256 (Byte)

/-- the bytes of a number, the highest first, as many as asked for -/
def bytesOf : ℕ → ℕ → List Byte
  | 0, _ => []
  | width + 1, n => bytesOf width (n / 256) ++ [BitVec.ofNat 8 n]

def number (bs : List Byte) : ℕ := bs.foldl (fun n b => 256 * n + b.toNat) 0

theorem bytesOf_length (width n : ℕ) : (bytesOf width n).length = width := by
  induction width generalizing n with
  | zero => rfl
  | succ width ih =>
    unfold bytesOf
    rw [List.length_append, ih]
    rfl

theorem number_bytesOf {width n : ℕ} (h : n < 256 ^ width) : number (bytesOf width n) = n := by
  induction width generalizing n with
  | zero =>
    rw [pow_zero] at h
    exact (Nat.lt_one_iff.mp h).symm
  | succ width ih =>
    rw [pow_succ] at h
    have hhigh := ih (Nat.div_lt_of_lt_mul (show n < 256 * 256 ^ width by omega))
    unfold number at hhigh ⊢
    unfold bytesOf
    rw [List.foldl_append, hhigh, List.foldl_cons, List.foldl_nil, BitVec.toNat_ofNat]
    omega

/-! ## arguments -/

def word (w : BitVec 256) : List Byte := bytesOf 32 w.toNat

theorem word_length (w : BitVec 256) : (word w).length = 32 := bytesOf_length 32 _

/-- the word at a position, absent where the arguments end before it does -/
def argument (args : List Byte) (i : ℕ) : Option (BitVec 256) :=
  if 32 * (i + 1) ≤ args.length then some (BitVec.ofNat 256 (number ((args.drop (32 * i)).take 32))) else none

/-- **A word is read from its bytes, whatever follows.** -/
theorem argument_word (w : BitVec 256) (rest : List Byte) : argument (word w ++ rest) 0 = some w := by
  have hlength := word_length w
  have hbound : w.toNat < 256 ^ 32 := lt_of_lt_of_eq w.isLt (by norm_num)
  unfold argument
  rw [if_pos (by rw [List.length_append]; omega), Nat.mul_zero, List.drop_zero,
    List.take_append_of_le_length (by omega), List.take_of_length_le (by omega)]
  unfold word
  rw [number_bytesOf hbound, BitVec.ofNat_toNat, BitVec.setWidth_eq]

theorem argument_succ (w : BitVec 256) (rest : List Byte) (i : ℕ) :
    argument (word w ++ rest) (i + 1) = argument rest i := by
  have hlength := word_length w
  unfold argument
  rw [List.length_append, hlength, List.drop_append, List.drop_of_length_le (by omega), hlength,
    show 32 * (i + 1) - 32 = 32 * i by omega, List.nil_append]
  refine if_congr ?_ rfl rfl
  omega

end Abi
