import Mathlib.Data.List.GetD
import Mathlib.Logic.Function.Iterate

/-!
# Shift registers with feedback

A cyclic redundancy check of `w` bits.  A bit of the message is added to the lowest bit of the register, which is then
shifted right; where a one falls out, the feedback is added.  Bits are lowest first.

* `shift`          one shift; `shift_injective`: it loses nothing if the feedback has the highest bit;
* `run`            a message fed in, bit by bit;
* `run_eq_shifts`  up to `w` bits may be added at once, and shifted afterwards;
* `run_eq_zero`    a register is cleared by its own bits, and by no others;
* `burst_eq`       messages that differ in a burst of up to `w` bits leave different registers.
-/

namespace ShiftRegister

variable {w : ℕ}

/-! ## words -/

/-- a word with this lowest bit and no other -/
def lowest (b : Bool) : BitVec w := (BitVec.ofBool b).setWidth w

/-- bits as a word -/
def word (bits : List Bool) : BitVec w := (BitVec.ofBoolListLE bits).setWidth w

theorem getLsbD_lowest (b : Bool) (i : ℕ) :
    (lowest b : BitVec w).getLsbD i = (decide (i < w) && (decide (i = 0) && b)) := by
  unfold lowest
  rw [BitVec.getLsbD_setWidth, BitVec.getLsbD_ofBool]

theorem getLsbD_word (bits : List Bool) (i : ℕ) :
    (word bits : BitVec w).getLsbD i = (decide (i < w) && bits.getD i false) := by
  unfold word
  rw [BitVec.getLsbD_setWidth, BitVec.getLsbD_ofBoolListLE]

theorem word_nil : (word [] : BitVec w) = 0#w := by
  apply BitVec.eq_of_getLsbD_eq
  intro i _
  rw [getLsbD_word, List.getD_nil, Bool.and_false, BitVec.getLsbD_zero]

theorem word_cons (b : Bool) (bits : List Bool) :
    (word (b :: bits) : BitVec w) = lowest b ^^^ word bits <<< 1 := by
  apply BitVec.eq_of_getLsbD_eq
  intro i hi
  rw [getLsbD_word, BitVec.getLsbD_xor, getLsbD_lowest, BitVec.getLsbD_shiftLeft, getLsbD_word]
  cases i with
  | zero => simp [hi]
  | succ i => simp [hi, show i < w by omega]

theorem word_msb {bits : List Bool} (h : bits.length < w) : (word bits : BitVec w).msb = false := by
  rw [BitVec.msb_eq_getLsbD_last, getLsbD_word, List.getD_eq_default _ _ (by omega), Bool.and_false]

theorem word_inj {bits bits' : List Bool} (hlength : bits.length = bits'.length) (hw : bits.length ≤ w)
    (h : (word bits : BitVec w) = word bits') : bits = bits' := by
  apply List.ext_getElem hlength
  intro i hi hi'
  have hbit := congrArg (fun x => x.getLsbD i) h
  simp only [getLsbD_word] at hbit
  rw [decide_eq_true (Nat.lt_of_lt_of_le hi hw), Bool.true_and, Bool.true_and,
    List.getD_eq_getElem _ _ hi, List.getD_eq_getElem _ _ hi'] at hbit
  exact hbit

/-! ## shifts -/

section
variable (feedback : BitVec w)

def shift (x : BitVec w) : BitVec w := if x.getLsbD 0 then x >>> 1 ^^^ feedback else x >>> 1

theorem shift_zero : shift feedback 0#w = 0#w := by
  unfold shift
  rw [BitVec.getLsbD_zero, BitVec.zero_ushiftRight]
  rfl

/-- what is added above the lowest bit may as well be added after the shift -/
theorem shift_xor (x : BitVec w) {y : BitVec w} (hy : y.msb = false) :
    shift feedback (x ^^^ y <<< 1) = shift feedback x ^^^ y := by
  have hlow : (x ^^^ y <<< 1).getLsbD 0 = x.getLsbD 0 := by
    rw [BitVec.getLsbD_xor, BitVec.getLsbD_shiftLeft]
    simp
  have hback : y <<< 1 >>> 1 = y := by
    apply BitVec.eq_of_getLsbD_eq
    intro i hi
    rw [BitVec.msb_eq_getLsbD_last] at hy
    rw [BitVec.getLsbD_ushiftRight, BitVec.getLsbD_shiftLeft, Nat.add_sub_cancel_left]
    by_cases hlast : i = w - 1
    · rw [hlast, hy, Bool.and_false]
    · simp [show 1 + i < w by omega]
  unfold shift
  rw [hlow, BitVec.ushiftRight_xor_distrib, hback]
  split
  · rw [BitVec.xor_assoc, BitVec.xor_assoc, BitVec.xor_comm y]
  · rfl

variable {feedback} (h : feedback.msb = true)
include h

/-- the bit that falls out is the highest one afterwards -/
theorem msb_shift (x : BitVec w) : (shift feedback x).msb = x.getLsbD 0 := by
  unfold shift
  split
  · rename_i hlow
    rw [BitVec.msb_xor, BitVec.msb_ushiftRight, h, hlow]
    rfl
  · rename_i hlow
    rw [BitVec.msb_ushiftRight, Bool.eq_false_iff.mpr hlow]
    rfl

theorem shift_injective : Function.Injective (shift feedback) := by
  intro x y hxy
  have hlow : x.getLsbD 0 = y.getLsbD 0 := by rw [← msb_shift h, hxy, msb_shift h]
  have hhigh : x >>> 1 = y >>> 1 := by
    unfold shift at hxy
    rw [hlow] at hxy
    split at hxy
    · exact (BitVec.xor_left_inj feedback).mp hxy
    · exact hxy
  apply BitVec.eq_of_getLsbD_eq
  intro i _
  cases i with
  | zero => exact hlow
  | succ i =>
    have hbit := congrArg (fun z => z.getLsbD i) hhigh
    simp only [BitVec.getLsbD_ushiftRight] at hbit
    rw [Nat.add_comm i 1]
    exact hbit

end

/-! ## messages -/

section
variable (feedback : BitVec w)

/-- the register after the bits of a message -/
def run (x : BitVec w) (bits : List Bool) : BitVec w := bits.foldl (fun x b => shift feedback (x ^^^ lowest b)) x

theorem run_append (x : BitVec w) (bits bits' : List Bool) :
    run feedback x (bits ++ bits') = run feedback (run feedback x bits) bits' := List.foldl_append

/-- **Bits that fit in the register may be added at once.** -/
theorem run_eq_shifts (x : BitVec w) {bits : List Bool} (hw : bits.length ≤ w) :
    run feedback x bits = (shift feedback)^[bits.length] (x ^^^ word bits) := by
  induction bits generalizing x with
  | nil =>
    rw [word_nil, BitVec.xor_zero]
    rfl
  | cons b bits ih =>
    rw [List.length_cons] at hw
    have hmsb : (word bits : BitVec w).msb = false := word_msb (by omega)
    show run feedback (shift feedback (x ^^^ lowest b)) bits = _
    rw [ih _ (by omega), ← shift_xor feedback _ hmsb, List.length_cons, Function.iterate_succ_apply, word_cons,
      BitVec.xor_assoc]

variable {feedback} (h : feedback.msb = true)
include h

theorem run_injective (bits : List Bool) : Function.Injective fun x => run feedback x bits := by
  induction bits with
  | nil => exact fun _ _ hxy => hxy
  | cons b bits ih =>
    intro x y hxy
    have hshift := shift_injective h (ih hxy)
    exact (BitVec.xor_left_inj _).mp hshift

/-- a register is cleared by its own bits, and by no others -/
theorem run_eq_zero (x : BitVec w) {bits : List Bool} (hw : bits.length ≤ w) :
    run feedback x bits = 0#w ↔ x = word bits := by
  have hzero : (shift feedback)^[bits.length] 0#w = 0#w := Function.iterate_fixed (shift_zero feedback) _
  have hinj := (shift_injective h).iterate bits.length
  rw [run_eq_shifts feedback x hw]
  constructor
  · intro hrun
    exact BitVec.xor_eq_zero_iff.mp (hinj (hrun.trans hzero.symm))
  · rintro rfl
    rw [BitVec.xor_self]
    exact hzero

/-- **No burst of up to `w` bits goes unseen.** -/
theorem burst_eq {x : BitVec w} {before burst burst' after : List Bool} (hlength : burst.length = burst'.length)
    (hw : burst.length ≤ w)
    (hrun : run feedback x (before ++ burst ++ after) = run feedback x (before ++ burst' ++ after)) :
    burst = burst' := by
  rw [run_append, run_append, run_append, run_append] at hrun
  have hburst := run_injective h after hrun
  have hleft := run_eq_shifts feedback (run feedback x before) hw
  have hright := run_eq_shifts feedback (run feedback x before) (hlength ▸ hw)
  rw [← hlength] at hright
  have hshifts := (shift_injective h).iterate burst.length (hleft.symm.trans (hburst.trans hright))
  have hword := (BitVec.xor_right_inj _).mp hshifts
  exact word_inj hlength hw hword

end

end ShiftRegister
