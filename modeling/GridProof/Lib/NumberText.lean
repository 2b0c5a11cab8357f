import Mathlib.Data.Int.Log
import Mathlib.Data.List.TakeWhile
import Mathlib.Data.Rat.Floor
import Mathlib.Tactic.Ring
import Mathlib.Tactic.FieldSimp
import Mathlib.Tactic.Linarith

/-!
# Numbers as JavaScript writes them

`Number::toString` of a number that is not negative: the shortest decimal that rounds to the double, written
with a point or with an exponent.

* `nearest`, `toDouble`   the double nearest to a rational, ties to even; `nearest_mono`, it keeps the order;
* `shortest`   the digits, and where the point stands: of the decimals of the fewest digits that round to
               the double, the closest;
* `Number`     zero, infinity, or a double with its shortest decimal (seventeen digits always do);
* `read_text`  a text reads back as the decimal it was written from, so that
* `text_inj`   two numbers with the same text are the same;
* `Finite`     the finite numbers of either sign, and the same for their texts.
-/

namespace NumberText

/-! ## doubles -/

/-- the nearest integer, ties to even -/
def roundEven (q : ℚ) : ℤ :=
  let f := ⌊q⌋
  if q - f < 1 / 2 then f
  else if 1 / 2 < q - f then f + 1
  else if f % 2 = 0 then f else f + 1

/-- the double nearest to a rational that is not negative, as if there were no largest one -/
def nearest (q : ℚ) : ℚ :=
  let e := max (Int.log 2 q - 52) (-1074)
  roundEven (q / 2 ^ e) * 2 ^ e

/-- the double nearest to a positive rational, `none` for infinity -/
def toDouble (q : ℚ) : Option ℚ := if nearest q < 2 ^ 1024 then some (nearest q) else none

/-! ## rounding keeps the order -/

theorem floor_le_roundEven (q : ℚ) : ⌊q⌋ ≤ roundEven q := by
  unfold roundEven
  dsimp only
  split_ifs <;> omega

theorem roundEven_le (q : ℚ) : roundEven q ≤ ⌊q⌋ + 1 := by
  unfold roundEven
  dsimp only
  split_ifs <;> omega

theorem roundEven_mono {q q' : ℚ} (h : q ≤ q') : roundEven q ≤ roundEven q' := by
  rcases (Int.floor_mono h).lt_or_eq with hlt | heq
  · have hle := roundEven_le q
    have hge := floor_le_roundEven q'
    omega
  · -- with one integer below both, the remainders decide
    unfold roundEven
    dsimp only
    rw [heq]
    split_ifs <;> first | omega | (exfalso; linarith)

theorem roundEven_intCast (n : ℤ) : roundEven n = n := by
  unfold roundEven
  dsimp only
  rw [Int.floor_intCast, sub_self, if_pos (by norm_num)]

theorem roundEven_two_pow {k : ℤ} (hk : 0 ≤ k) : (roundEven (2 ^ k) : ℚ) = 2 ^ k := by
  obtain ⟨n, rfl⟩ := Int.eq_ofNat_of_zero_le hk
  have hcast : ((2 : ℚ) ^ ((n : ℕ) : ℤ)) = ((2 ^ n : ℤ) : ℚ) := by
    rw [zpow_natCast]
    push_cast
    rfl
  rw [hcast, roundEven_intCast]

section
variable {q q' : ℚ} {e k : ℤ}

/-- a power of two that is a multiple of the unit bounds what is rounded to it -/
theorem scaled_le (hk : e ≤ k) (h : q ≤ 2 ^ k) : (roundEven (q / 2 ^ e) : ℚ) * 2 ^ e ≤ 2 ^ k := by
  have he : (0 : ℚ) < 2 ^ e := zpow_pos (by norm_num) e
  have hdiv : q / 2 ^ e ≤ 2 ^ (k - e) := by
    rw [zpow_sub₀ (by norm_num)]
    exact div_le_div_of_nonneg_right h he.le
  have hround : (roundEven (q / 2 ^ e) : ℚ) ≤ 2 ^ (k - e) := by
    rw [← roundEven_two_pow (by omega : 0 ≤ k - e)]
    exact_mod_cast roundEven_mono hdiv
  calc (roundEven (q / 2 ^ e) : ℚ) * 2 ^ e ≤ 2 ^ (k - e) * 2 ^ e := mul_le_mul_of_nonneg_right hround he.le
    _ = 2 ^ k := by rw [← zpow_add₀ (by norm_num), sub_add_cancel]

theorem le_scaled (hk : e ≤ k) (h : 2 ^ k ≤ q) : 2 ^ k ≤ (roundEven (q / 2 ^ e) : ℚ) * 2 ^ e := by
  have he : (0 : ℚ) < 2 ^ e := zpow_pos (by norm_num) e
  have hdiv : 2 ^ (k - e) ≤ q / 2 ^ e := by
    rw [zpow_sub₀ (by norm_num)]
    exact div_le_div_of_nonneg_right h he.le
  have hround : (2 : ℚ) ^ (k - e) ≤ roundEven (q / 2 ^ e) := by
    rw [← roundEven_two_pow (by omega : 0 ≤ k - e)]
    exact_mod_cast roundEven_mono hdiv
  calc (2 : ℚ) ^ k = 2 ^ (k - e) * 2 ^ e := by rw [← zpow_add₀ (by norm_num), sub_add_cancel]
    _ ≤ roundEven (q / 2 ^ e) * 2 ^ e := mul_le_mul_of_nonneg_right hround he.le

theorem nearest_nonneg (hq : 0 ≤ q) : 0 ≤ nearest q := by
  have hround : 0 ≤ roundEven (q / 2 ^ max (Int.log 2 q - 52) (-1074)) :=
    (Int.floor_nonneg.mpr (div_nonneg hq (zpow_pos (by norm_num) _).le)).trans (floor_le_roundEven _)
  exact mul_nonneg (by exact_mod_cast hround) (zpow_pos (by norm_num) _).le

/-- **Rounding keeps the order.** -/
theorem nearest_mono (hq : 0 ≤ q) (h : q ≤ q') : nearest q ≤ nearest q' := by
  rcases hq.eq_or_lt with rfl | hpos
  · have hzero : nearest 0 = 0 := by
      unfold nearest
      dsimp only
      rw [zero_div]
      have h0 : roundEven 0 = 0 := by exact_mod_cast roundEven_intCast 0
      rw [h0, Int.cast_zero, zero_mul]
    rw [hzero]
    exact nearest_nonneg h
  · have hlog : Int.log 2 q ≤ Int.log 2 q' := Int.log_mono_right hpos h
    unfold nearest
    dsimp only
    by_cases he : max (Int.log 2 q' - 52) (-1074) = max (Int.log 2 q - 52) (-1074)
    · -- one unit for both
      have hu : (0 : ℚ) < 2 ^ max (Int.log 2 q - 52) (-1074) := zpow_pos (by norm_num) _
      have hround := roundEven_mono (div_le_div_of_nonneg_right h hu.le)
      rw [he]
      exact mul_le_mul_of_nonneg_right (by exact_mod_cast hround) hu.le
    · -- a power of two lies between them
      have hbelow : q ≤ 2 ^ Int.log 2 q' := by
        have hlt := Int.lt_zpow_succ_log_self (by decide : 1 < 2) q
        have hexp : (2 : ℚ) ^ (Int.log 2 q + 1) ≤ 2 ^ Int.log 2 q' :=
          zpow_le_zpow_right₀ (by norm_num) (by omega)
        exact (hlt.trans_le (by exact_mod_cast hexp)).le
      have habove : (2 : ℚ) ^ Int.log 2 q' ≤ q' := by
        exact_mod_cast Int.zpow_log_le_self (by decide : 1 < 2) (hpos.trans_le h)
      exact (scaled_le (by omega) hbelow).trans (le_scaled (by omega) habove)

end

/-! ## decimals -/

/-- the decimal `0.s * 10 ^ n`, where `s` has `k` digits -/
structure Decimal where
  s : ℕ
  k : ℕ
  n : ℤ
deriving DecidableEq

def Decimal.value (d : Decimal) : ℚ := d.s * 10 ^ (d.n - d.k)

/-- the decimal has `k` digits and rounds to the double -/
def Decimal.fits (d : Decimal) (x : ℚ) : Prop :=
  1 ≤ d.k ∧ 10 ^ (d.k - 1) ≤ d.s ∧ d.s < 10 ^ d.k ∧ toDouble d.value = some x

instance (d : Decimal) (x : ℚ) : Decidable (d.fits x) := inferInstanceAs (Decidable (_ ∧ _ ∧ _ ∧ _))

/-- the neighbours of `x` among the decimals of `k` digits, the closer one first -/
def neighbours (x : ℚ) (k : ℕ) : List Decimal :=
  let n := Int.log 10 x + 1
  let y := x * 10 ^ ((k : ℤ) - n)
  let below := ⌊y⌋.toNat
  let decimal (s : ℕ) : Decimal := if s = 10 ^ k then ⟨10 ^ (k - 1), k, n + 1⟩ else ⟨s, k, n⟩
  if y - below < 1 / 2 ∨ (y - below = 1 / 2 ∧ below % 2 = 0) then
    [decimal below, decimal (below + 1)]
  else [decimal (below + 1), decimal below]

def shortest (x : ℚ) : Option Decimal :=
  (List.range' 1 17).findSome? fun k => (neighbours x k).find? fun d => d.fits x

theorem shortest_fits {x : ℚ} {d : Decimal} (h : shortest x = some d) : d.fits x := by
  obtain ⟨k, -, hk⟩ := List.exists_of_findSome?_eq_some h
  exact of_decide_eq_true (List.find?_some hk :)

theorem Decimal.fits.value_pos {d : Decimal} {x : ℚ} (h : d.fits x) : 0 < d.value := by
  have hs : 0 < d.s := lt_of_lt_of_le (Nat.pow_pos (by decide)) h.2.1
  have hs' : (0 : ℚ) < d.s := by exact_mod_cast hs
  exact mul_pos hs' (zpow_pos (by norm_num) _)

inductive Number where
  | zero
  | finite (value : ℚ) (decimal : Decimal) (h : shortest value = some decimal)
  | infinity

/-! ## texts -/

def digits (s : ℕ) : List Char := Nat.toDigits 10 s

def Decimal.text (d : Decimal) : List Char :=
  if d.k ≤ d.n ∧ d.n ≤ 21 then digits d.s ++ List.replicate (d.n - d.k).toNat '0'
  else if 0 < d.n ∧ d.n ≤ 21 then
    (digits d.s).take d.n.toNat ++ '.' :: (digits d.s).drop d.n.toNat
  else if -6 < d.n ∧ d.n ≤ 0 then
    '0' :: '.' :: (List.replicate (-d.n).toNat '0' ++ digits d.s)
  else
    let e := d.n - 1
    let exponent := 'e' :: (if e < 0 then '-' else '+') :: digits e.natAbs
    if d.k = 1 then digits d.s ++ exponent
    else (digits d.s).take 1 ++ '.' :: ((digits d.s).drop 1 ++ exponent)

def Number.text : Number → List Char
  | .zero => ['0']
  | .finite _ decimal _ => decimal.text
  | .infinity => "Infinity".toList

/-! ## reading a text -/

/-- digits, and possibly a point and further digits -/
def readMantissa (t : List Char) : ℚ :=
  let whole := t.takeWhile (· ≠ '.')
  let fraction := (t.dropWhile (· ≠ '.')).drop 1
  Nat.ofDigitChars 10 (whole ++ fraction) 0 / 10 ^ fraction.length

/-- the part from the `e` on -/
def readExponent : List Char → ℤ
  | 'e' :: '-' :: ds => -(Nat.ofDigitChars 10 ds 0 : ℤ)
  | 'e' :: '+' :: ds => Nat.ofDigitChars 10 ds 0
  | _ => 0

def read (t : List Char) : ℚ :=
  readMantissa (t.takeWhile (· ≠ 'e')) * 10 ^ readExponent (t.dropWhile (· ≠ 'e'))

theorem read_plain {m : List Char} (hm : ∀ c ∈ m, c ≠ 'e') : read m = readMantissa m := by
  have htake : m.takeWhile (· ≠ 'e') = m :=
    List.takeWhile_eq_self_iff.mpr fun c hc => decide_eq_true (hm c hc)
  have hdrop : m.dropWhile (· ≠ 'e') = [] :=
    List.dropWhile_eq_nil_iff.mpr fun c hc => decide_eq_true (hm c hc)
  unfold read
  rw [htake, hdrop]
  exact mul_one _

theorem read_exponent {m : List Char} (hm : ∀ c ∈ m, c ≠ 'e') (rest : List Char) :
    read (m ++ 'e' :: rest) = readMantissa m * 10 ^ readExponent ('e' :: rest) := by
  have hp : ∀ c ∈ m, decide (c ≠ 'e') = true := fun c hc => decide_eq_true (hm c hc)
  unfold read
  rw [List.takeWhile_append_of_pos hp, List.dropWhile_append_of_pos hp]
  simp

theorem readMantissa_plain {w : List Char} (hw : ∀ c ∈ w, c ≠ '.') :
    readMantissa w = Nat.ofDigitChars 10 w 0 := by
  have htake : w.takeWhile (· ≠ '.') = w :=
    List.takeWhile_eq_self_iff.mpr fun c hc => decide_eq_true (hw c hc)
  have hdrop : w.dropWhile (· ≠ '.') = [] :=
    List.dropWhile_eq_nil_iff.mpr fun c hc => decide_eq_true (hw c hc)
  unfold readMantissa
  dsimp only
  rw [htake, hdrop]
  simp

theorem readMantissa_point {w : List Char} (hw : ∀ c ∈ w, c ≠ '.') (f : List Char) :
    readMantissa (w ++ '.' :: f) = Nat.ofDigitChars 10 (w ++ f) 0 / 10 ^ f.length := by
  have hp : ∀ c ∈ w, decide (c ≠ '.') = true := fun c hc => decide_eq_true (hw c hc)
  unfold readMantissa
  dsimp only
  rw [List.takeWhile_append_of_pos hp, List.dropWhile_append_of_pos hp]
  simp

/-! ## digits -/

theorem digit_of_mem {s : ℕ} {c : Char} (h : c ∈ digits s) : c.isDigit = true :=
  Nat.isDigit_of_mem_toDigits (by decide) (by decide) h

theorem ofDigitChars_digits (s : ℕ) : Nat.ofDigitChars 10 (digits s) 0 = s :=
  Nat.ofDigitChars_ten_toDigits

theorem digits_length {d : Decimal} {x : ℚ} (h : d.fits x) : (digits d.s).length = d.k := by
  obtain ⟨hk, hlow, hhigh, -⟩ := h
  apply le_antisymm
  · exact (Nat.length_toDigits_le_iff (by decide) hk).mpr hhigh
  · by_contra hlt
    have hpos : 0 < (digits d.s).length := Nat.length_toDigits_pos
    have hle : (digits d.s).length ≤ d.k - 1 := by omega
    have hs : d.s < 10 ^ (d.k - 1) := (Nat.length_toDigits_le_iff (by decide) (by omega)).mp hle
    omega

theorem not_e_of_digit {c : Char} (h : c.isDigit = true) : c ≠ 'e' := by
  rintro rfl
  cases h

theorem not_point_of_digit {c : Char} (h : c.isDigit = true) : c ≠ '.' := by
  rintro rfl
  cases h

theorem digit_of_mem_zeros {n : ℕ} {c : Char} (h : c ∈ List.replicate n '0') : c.isDigit = true := by
  rw [List.eq_of_mem_replicate h]
  rfl

/-! ## a text reads back -/

/-- the four ways of writing a decimal, with `w` before the point and `f` behind it -/
theorem read_point {w f : List Char} (hw : ∀ c ∈ w, c.isDigit = true) (hf : ∀ c ∈ f, c.isDigit = true) :
    read (w ++ '.' :: f) = Nat.ofDigitChars 10 (w ++ f) 0 / 10 ^ f.length := by
  have he : ∀ c ∈ w ++ '.' :: f, c ≠ 'e' := by
    intro c hc
    rw [List.mem_append, List.mem_cons] at hc
    rcases hc with hc | rfl | hc
    · exact not_e_of_digit (hw c hc)
    · decide
    · exact not_e_of_digit (hf c hc)
  rw [read_plain he, readMantissa_point fun c hc => not_point_of_digit (hw c hc)]

theorem readExponent_text (e : ℤ) :
    readExponent ('e' :: (if e < 0 then '-' else '+') :: digits e.natAbs) = e := by
  by_cases he : e < 0
  · rw [if_pos he]
    show -(Nat.ofDigitChars 10 (digits e.natAbs) 0 : ℤ) = e
    rw [ofDigitChars_digits]
    omega
  · rw [if_neg he]
    show (Nat.ofDigitChars 10 (digits e.natAbs) 0 : ℤ) = e
    rw [ofDigitChars_digits]
    omega

theorem div_pow_eq (s : ℕ) (j : ℕ) {z : ℤ} (hz : z = -j) : (s : ℚ) / 10 ^ j = s * 10 ^ z := by
  rw [hz, zpow_neg, zpow_natCast, div_eq_mul_inv]

/-- **A text reads back as the decimal it was written from.** -/
theorem read_text {d : Decimal} {x : ℚ} (h : d.fits x) : read d.text = d.value := by
  have hdig : ∀ c ∈ digits d.s, c.isDigit = true := fun c hc => digit_of_mem hc
  have hlen := digits_length h
  have htake : ∀ n, ∀ c ∈ (digits d.s).take n, c.isDigit = true :=
    fun n c hc => hdig c (List.mem_of_mem_take hc)
  have hdrop : ∀ n, ∀ c ∈ (digits d.s).drop n, c.isDigit = true :=
    fun n c hc => hdig c (List.mem_of_mem_drop hc)
  unfold Decimal.text Decimal.value
  split
  · rename_i hn
    have hall : ∀ c ∈ digits d.s ++ List.replicate (d.n - d.k).toNat '0', c.isDigit = true := by
      intro c hc
      rcases List.mem_append.mp hc with hc | hc
      · exact hdig c hc
      · exact digit_of_mem_zeros hc
    rw [read_plain fun c hc => not_e_of_digit (hall c hc),
      readMantissa_plain fun c hc => not_point_of_digit (hall c hc), Nat.ofDigitChars_append,
      ofDigitChars_digits, Nat.ofDigitChars_replicate_zero]
    have hz : d.n - d.k = ((d.n - d.k).toNat : ℤ) := by omega
    rw [hz, Int.toNat_natCast, zpow_natCast]
    push_cast
    ring
  · split
    · rename_i hn
      rw [read_point (htake _) (hdrop _), List.take_append_drop, ofDigitChars_digits]
      refine div_pow_eq d.s _ ?_
      rw [List.length_drop, hlen]
      omega
    · split
      · rename_i hn
        have hf : ∀ c ∈ List.replicate (-d.n).toNat '0' ++ digits d.s, c.isDigit = true := by
          intro c hc
          rcases List.mem_append.mp hc with hc | hc
          · exact digit_of_mem_zeros hc
          · exact hdig c hc
        have hw : ∀ c ∈ ['0'], c.isDigit = true := List.forall_mem_singleton.mpr rfl
        show read (['0'] ++ '.' :: (List.replicate (-d.n).toNat '0' ++ digits d.s)) = _
        rw [read_point hw hf]
        have hvalue : Nat.ofDigitChars 10 (['0'] ++ (List.replicate (-d.n).toNat '0' ++ digits d.s)) 0 =
            d.s := by
          rw [← List.append_assoc, show ['0'] = List.replicate 1 '0' from rfl,
            List.replicate_append_replicate, Nat.ofDigitChars_append, Nat.ofDigitChars_replicate_zero,
            Nat.mul_zero, ofDigitChars_digits]
        rw [hvalue]
        refine div_pow_eq d.s _ ?_
        rw [List.length_append, List.length_replicate, hlen]
        omega
      · dsimp only
        split
        · rename_i hk
          rw [read_exponent fun c hc => not_e_of_digit (hdig c hc), readExponent_text,
            readMantissa_plain fun c hc => not_point_of_digit (hdig c hc), ofDigitChars_digits, hk]
          rfl
        · rename_i hk
          have hm : ∀ c ∈ (digits d.s).take 1 ++ '.' :: (digits d.s).drop 1, c ≠ 'e' := by
            intro c hc
            rw [List.mem_append, List.mem_cons] at hc
            rcases hc with hc | rfl | hc
            · exact not_e_of_digit (htake 1 c hc)
            · decide
            · exact not_e_of_digit (hdrop 1 c hc)
          rw [← List.cons_append, ← List.append_assoc, read_exponent hm, readExponent_text,
            readMantissa_point fun c hc => not_point_of_digit (htake 1 c hc), List.take_append_drop,
            ofDigitChars_digits, div_pow_eq d.s _ rfl, mul_assoc, ← zpow_add₀ (by norm_num)]
          congr 2
          have hpos := h.1
          rw [List.length_drop, hlen]
          omega

/-! ## texts tell numbers apart -/

/-- the characters of a text other than digits -/
def marks : List Char := ".e+-Infinity".toList

theorem Decimal.text_chars {d : Decimal} {c : Char} (hc : c ∈ d.text) :
    c.isDigit = true ∨ c ∈ ['.', 'e', '+', '-'] := by
  have hdig : ∀ {s : ℕ} {c : Char}, c ∈ digits s → c.isDigit = true ∨ c ∈ ['.', 'e', '+', '-'] :=
    fun h => .inl (digit_of_mem h)
  unfold Decimal.text at hc
  split at hc
  · rcases List.mem_append.mp hc with hc | hc
    · exact hdig hc
    · exact .inl (digit_of_mem_zeros hc)
  · split at hc
    · rw [List.mem_append, List.mem_cons] at hc
      rcases hc with hc | rfl | hc
      · exact hdig (List.mem_of_mem_take hc)
      · exact .inr (by decide)
      · exact hdig (List.mem_of_mem_drop hc)
    · split at hc
      · rw [List.mem_cons, List.mem_cons, List.mem_append] at hc
        rcases hc with rfl | rfl | hc | hc
        · exact .inl rfl
        · exact .inr (by decide)
        · exact .inl (digit_of_mem_zeros hc)
        · exact hdig hc
      · have hexp : ∀ {e : ℤ}, c ∈ 'e' :: (if e < 0 then '-' else '+') :: digits e.natAbs →
            c.isDigit = true ∨ c ∈ ['.', 'e', '+', '-'] := by
          intro e hc
          rw [List.mem_cons, List.mem_cons] at hc
          rcases hc with rfl | rfl | hc
          · exact .inr (by decide)
          · split
            · exact .inr (by decide)
            · exact .inr (by decide)
          · exact hdig hc
        dsimp only at hc
        split at hc
        · rcases List.mem_append.mp hc with hc | hc
          · exact hdig hc
          · exact hexp hc
        · rw [List.mem_append, List.mem_cons, List.mem_append] at hc
          rcases hc with hc | rfl | hc | hc
          · exact hdig (List.mem_of_mem_take hc)
          · exact .inr (by decide)
          · exact hdig (List.mem_of_mem_drop hc)
          · exact hexp hc

theorem Decimal.text_start {d : Decimal} {x : ℚ} (h : d.fits x) :
    ∃ c rest, d.text = c :: rest ∧ c.isDigit = true := by
  have hlen := digits_length h
  obtain ⟨c, rest, hs⟩ : ∃ c rest, digits d.s = c :: rest :=
    List.exists_cons_of_length_pos (hlen ▸ h.1)
  have hc : c.isDigit = true := digit_of_mem (hs ▸ List.mem_cons_self)
  unfold Decimal.text
  rw [hs]
  split
  · exact ⟨c, _, rfl, hc⟩
  · split
    · rename_i hn
      obtain ⟨m, hm⟩ : ∃ m, d.n.toNat = m + 1 := ⟨d.n.toNat - 1, by omega⟩
      rw [hm]
      exact ⟨c, _, rfl, hc⟩
    · split
      · exact ⟨'0', _, rfl, rfl⟩
      · dsimp only
        split
        · exact ⟨c, _, rfl, hc⟩
        · exact ⟨c, _, rfl, hc⟩

theorem Number.text_start (a : Number) : ∃ c rest, a.text = c :: rest ∧ c ≠ '.' := by
  cases a with
  | zero => exact ⟨'0', [], rfl, by decide⟩
  | finite value decimal h =>
    obtain ⟨c, rest, htext, hc⟩ := Decimal.text_start (shortest_fits h)
    exact ⟨c, rest, htext, not_point_of_digit hc⟩
  | infinity => exact ⟨'I', "nfinity".toList, rfl, by decide⟩

theorem Number.text_chars {a : Number} {c : Char} (hc : c ∈ a.text) : c.isDigit = true ∨ c ∈ marks := by
  cases a with
  | zero =>
    have hc0 : c = '0' := List.mem_singleton.mp hc
    rw [hc0]
    exact .inl rfl
  | finite value decimal h =>
    refine (Decimal.text_chars hc).imp_right fun hmem => ?_
    have hsub : (['.', 'e', '+', '-'].all fun c => marks.contains c) = true := by decide
    exact List.contains_iff_mem.mp (List.all_eq_true.mp hsub c hmem)
  | infinity => exact .inr (List.mem_append_right ".e+-".toList hc)

/-- the text of a positive number reads as a positive number -/
theorem finite_text_ne {value : ℚ} {decimal : Decimal} (h : shortest value = some decimal) {a : Number}
    (ha : ∀ v d h', a ≠ .finite v d h') : decimal.text ≠ a.text := by
  intro he
  cases a with
  | zero =>
    have hread := read_text (shortest_fits h)
    have hzero : read decimal.text = 0 := by
      rw [he]
      decide +kernel
    have hpos := (shortest_fits h).value_pos
    rw [← hread, hzero] at hpos
    exact lt_irrefl 0 hpos
  | finite v d h' => exact ha v d h' rfl
  | infinity =>
    have hI : 'I' ∈ decimal.text := by
      rw [he]
      exact List.mem_cons_self
    rcases Decimal.text_chars hI with hc | hc
    · cases hc
    · exact absurd hc (by decide)

/-- **Two numbers with the same text are the same.** -/
theorem Number.text_inj {a b : Number} (h : a.text = b.text) : a = b := by
  cases a with
  | finite x d hx =>
    cases b with
    | finite y d' hy =>
      have hvalue : d.value = d'.value := by
        rw [← read_text (shortest_fits hx), ← read_text (shortest_fits hy)]
        exact congrArg read h
      have hxd := (shortest_fits hx).2.2.2
      have hyd := (shortest_fits hy).2.2.2
      rw [hvalue, hyd] at hxd
      obtain rfl := Option.some.inj hxd
      rw [hx] at hy
      cases hy
      rfl
    | zero => exact absurd h (finite_text_ne hx fun _ _ _ he => by cases he)
    | infinity => exact absurd h (finite_text_ne hx fun _ _ _ he => by cases he)
  | zero =>
    cases b with
    | zero => rfl
    | finite y d' hy => exact absurd h.symm (finite_text_ne hy fun _ _ _ he => by cases he)
    | infinity => cases h
  | infinity =>
    cases b with
    | zero => cases h
    | finite y d' hy => exact absurd h.symm (finite_text_ne hy fun _ _ _ he => by cases he)
    | infinity => rfl

/-! ## numbers of either sign -/

/-- a finite number; `-0` has the text of `0` and counts as `0` -/
inductive Finite where
  | zero
  | signed (negative : Bool) (value : ℚ) (decimal : Decimal) (h : shortest value = some decimal)

def sign (negative : Bool) : List Char := if negative then ['-'] else []

def Finite.text : Finite → List Char
  | .zero => ['0']
  | .signed negative _ decimal _ => sign negative ++ decimal.text

theorem Finite.text_chars {a : Finite} {c : Char} (hc : c ∈ a.text) :
    c.isDigit = true ∨ c ∈ ['.', 'e', '+', '-'] := by
  cases a with
  | zero =>
    have hc0 : c = '0' := List.mem_singleton.mp hc
    rw [hc0]
    exact .inl rfl
  | signed negative value decimal h =>
    rcases List.mem_append.mp hc with hc | hc
    · cases negative with
      | false => exact absurd hc List.not_mem_nil
      | true =>
        have hminus : c = '-' := List.mem_singleton.mp hc
        rw [hminus]
        exact .inr (by decide)
    · exact Decimal.text_chars hc

/-- the text of a positive number does not start with a sign -/
theorem Decimal.text_ne_minus {d : Decimal} {x : ℚ} (h : d.fits x) (t : List Char) : d.text ≠ '-' :: t := by
  obtain ⟨c, rest, htext, hc⟩ := Decimal.text_start h
  rw [htext]
  intro he
  rw [(List.cons.inj he).1] at hc
  cases hc

theorem sign_text_inj {n n' : Bool} {d d' : Decimal} {x x' : ℚ} (h : d.fits x) (h' : d'.fits x')
    (he : sign n ++ d.text = sign n' ++ d'.text) : n = n' ∧ d.text = d'.text := by
  cases n with
  | false =>
    cases n' with
    | false => exact ⟨rfl, he⟩
    | true => exact absurd he (Decimal.text_ne_minus h _)
  | true =>
    cases n' with
    | false => exact absurd he.symm (Decimal.text_ne_minus h' _)
    | true => exact ⟨rfl, (List.cons.inj he).2⟩

theorem zero_text_ne {n : Bool} {d : Decimal} {x : ℚ} (h : shortest x = some d) :
    sign n ++ d.text ≠ ['0'] := by
  cases n with
  | false => exact finite_text_ne h (a := .zero) fun _ _ _ he => by cases he
  | true =>
    intro he
    exact absurd (List.cons.inj he).1 (by decide)

/-- **Two finite numbers with the same text are the same.** -/
theorem Finite.text_injective : Function.Injective Finite.text := by
  intro a b h
  cases a with
  | zero =>
    cases b with
    | zero => rfl
    | signed n y d' hy => exact absurd h.symm (zero_text_ne hy)
  | signed n x d hx =>
    cases b with
    | zero => exact absurd h (zero_text_ne hx)
    | signed n' y d' hy =>
      obtain ⟨rfl, htext⟩ := sign_text_inj (shortest_fits hx) (shortest_fits hy) h
      have hsame : Number.finite x d hx = Number.finite y d' hy := Number.text_inj htext
      cases hsame
      rfl

end NumberText
