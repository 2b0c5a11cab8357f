import GridProof.Lib.NumberText

/-!
# Natural numbers as doubles

A natural number below `2 ^ 53` is a double, and JavaScript writes it with its digits and no exponent.

* `nearest_nat`, `toDouble_nat`   rounding leaves it as it is;
* `shortest_nat`     its shortest decimal has no more digits than it, and ends where it ends;
* `Number.ofRat`     the number that a decimal literal denotes;
* `ofRat_nat`        the literal of a natural number is written back as it was read.

The decimal digits may be fewer than those of the number, whose last ones are zeros then.
-/

namespace NumberText

/-! ## rounding -/

theorem nearest_nat {n : ℕ} (h : n < 2 ^ 53) : nearest n = n := by
  have hlog : Nat.log 2 n ≤ 52 := by
    have := Nat.log_lt_of_lt_pow' (by decide : 53 ≠ 0) h
    omega
  obtain ⟨j, hj⟩ : ∃ j : ℕ, max (Int.log 2 (n : ℚ) - 52) (-1074) = -(j : ℤ) := by
    rw [Int.log_natCast]
    exact ⟨(52 - Nat.log 2 n), by omega⟩
  have hscaled : (n : ℚ) / 2 ^ (-(j : ℤ)) = ((n * 2 ^ j : ℕ) : ℤ) := by
    rw [zpow_neg, zpow_natCast, div_inv_eq_mul]
    push_cast
    rfl
  have hback : (((n * 2 ^ j : ℕ) : ℤ) : ℚ) * 2 ^ (-(j : ℤ)) = n := by
    rw [← hscaled]
    exact div_mul_cancel₀ _ (zpow_ne_zero _ two_ne_zero)
  unfold nearest
  dsimp only
  rw [hj, hscaled, roundEven_intCast, hback]

theorem toDouble_nat {n : ℕ} (h : n < 2 ^ 53) : toDouble n = some (n : ℚ) := by
  unfold toDouble
  rw [nearest_nat h]
  refine if_pos ?_
  calc (n : ℚ) < 2 ^ 53 := by exact_mod_cast h
    _ ≤ 2 ^ 1024 := pow_le_pow_right₀ (by norm_num) (by norm_num)

/-! ## the shortest decimal -/

theorem neighbours_shape {x : ℚ} {k : ℕ} {d : Decimal} (h : d ∈ neighbours x k) :
    d.k = k ∧ (d.n = Int.log 10 x + 1 ∨ d.n = Int.log 10 x + 2) := by
  have hdecimal (s : ℕ) :
      let d : Decimal := if s = 10 ^ k then ⟨10 ^ (k - 1), k, Int.log 10 x + 1 + 1⟩ else ⟨s, k, Int.log 10 x + 1⟩
      d.k = k ∧ (d.n = Int.log 10 x + 1 ∨ d.n = Int.log 10 x + 2) := by
    dsimp only
    split
    · exact ⟨rfl, .inr (add_assoc _ 1 1)⟩
    · exact ⟨rfl, .inl rfl⟩
  unfold neighbours at h
  dsimp only at h
  split at h
  · rcases List.mem_pair.mp h with rfl | rfl
    · exact hdecimal _
    · exact hdecimal _
  · rcases List.mem_pair.mp h with rfl | rfl
    · exact hdecimal _
    · exact hdecimal _

/-- among the decimals of its own length is the number itself -/
theorem neighbours_self {n : ℕ} (hpos : 0 < n) (h : n < 2 ^ 53) :
    ((neighbours n (Nat.log 10 n + 1)).find? fun d => d.fits n).isSome = true := by
  have hexponent : ((Nat.log 10 n + 1 : ℕ) : ℤ) - (Int.log 10 (n : ℚ) + 1) = 0 := by
    rw [Int.log_natCast]
    push_cast
    omega
  have hlt : n < 10 ^ (Nat.log 10 n + 1) := Nat.lt_pow_succ_log_self (by decide) n
  have hfits : (⟨n, Nat.log 10 n + 1, Int.log 10 (n : ℚ) + 1⟩ : Decimal).fits n := by
    refine ⟨Nat.le_add_left 1 _, Nat.pow_log_le_self 10 (Nat.ne_of_gt hpos), hlt, ?_⟩
    have hvalue : (⟨n, Nat.log 10 n + 1, Int.log 10 (n : ℚ) + 1⟩ : Decimal).value = n := by
      have hzero : Int.log 10 (n : ℚ) + 1 - ((Nat.log 10 n + 1 : ℕ) : ℤ) = 0 := by omega
      show (n : ℚ) * 10 ^ (Int.log 10 (n : ℚ) + 1 - ((Nat.log 10 n + 1 : ℕ) : ℤ)) = n
      rw [hzero, zpow_zero, mul_one]
    rw [hvalue]
    exact toDouble_nat h
  have hmem : (⟨n, Nat.log 10 n + 1, Int.log 10 (n : ℚ) + 1⟩ : Decimal) ∈ neighbours n (Nat.log 10 n + 1) := by
    unfold neighbours
    dsimp only
    rw [hexponent, zpow_zero, mul_one, Int.floor_natCast, Int.toNat_natCast, sub_self,
      if_pos (.inl (by norm_num)), if_neg (Nat.ne_of_lt hlt)]
    exact List.mem_cons_self
  exact List.find?_isSome.mpr ⟨_, hmem, decide_eq_true hfits⟩

/-- it has no more digits than the number -/
theorem shortest_nat {n : ℕ} (hpos : 0 < n) (h : n < 10 ^ 14) :
    ∃ d, shortest n = some d ∧ (d.k : ℤ) ≤ d.n ∧ d.n ≤ 15 := by
  have hdouble : n < 2 ^ 53 := lt_trans h (by norm_num)
  have hlog : Nat.log 10 n < 14 := Nat.log_lt_of_lt_pow' (by decide) h
  have hself := neighbours_self hpos hdouble
  have hsome : (shortest (n : ℚ)).isSome = true := by
    unfold shortest
    rw [List.findSome?_isSome_iff]
    exact ⟨Nat.log 10 n + 1, List.mem_range'_1.mpr ⟨by omega, by omega⟩, hself⟩
  obtain ⟨d, hd⟩ := Option.isSome_iff_exists.mp hsome
  obtain ⟨before, k, after, hrange, hk, hnone⟩ := List.findSome?_eq_some_iff.mp hd
  obtain ⟨hdk, hdn⟩ := neighbours_shape (List.mem_of_find?_eq_some hk)
  -- the search ends where the number itself is found, at the latest
  have hle : k ≤ Nat.log 10 n + 1 := by
    have hmem : Nat.log 10 n + 1 ∈ before ++ k :: after := by
      rw [← hrange]
      exact List.mem_range'_1.mpr ⟨by omega, by omega⟩
    rcases List.mem_append.mp hmem with hmem | hmem
    · rw [hnone _ hmem] at hself
      cases hself
    · rcases List.mem_cons.mp hmem with hmem | hmem
      · exact le_of_eq hmem.symm
      · have hsorted := List.pairwise_lt_range' (s := 1) (n := 17)
        rw [hrange] at hsorted
        exact le_of_lt ((List.pairwise_cons.mp (List.pairwise_append.mp hsorted).2.1).1 _ hmem)
  rw [Int.log_natCast] at hdn
  exact ⟨d, hd, by omega, by omega⟩

/-! ## the text -/

theorem digits_zeros {s : ℕ} (hpos : 0 < s) (j : ℕ) : digits s ++ List.replicate j '0' = digits (s * 10 ^ j) := by
  induction j with
  | zero => rw [List.replicate_zero, List.append_nil, pow_zero, mul_one]
  | succ j ih =>
    have hstep : digits (s * 10 ^ j) ++ digits 0 = digits (10 * (s * 10 ^ j) + 0) :=
      Nat.toDigits_append_toDigits (by decide) (by positivity) (by decide)
    rw [List.replicate_succ', ← List.append_assoc, ih]
    calc digits (s * 10 ^ j) ++ ['0'] = digits (10 * (s * 10 ^ j) + 0) := hstep
      _ = digits (s * 10 ^ (j + 1)) := by
        congr 1
        ring

/-- the text of a decimal that denotes a natural number -/
theorem text_nat {d : Decimal} {x : ℚ} (hfits : d.fits x) (hk : (d.k : ℤ) ≤ d.n) (hn : d.n ≤ 15) :
    ∃ m : ℕ, d.value = m ∧ m < 10 ^ 15 ∧ d.text = digits m := by
  obtain ⟨j, hj⟩ : ∃ j : ℕ, d.n - d.k = j := ⟨(d.n - d.k).toNat, by omega⟩
  have hs : 0 < d.s := lt_of_lt_of_le (Nat.pow_pos (by decide)) hfits.2.1
  refine ⟨d.s * 10 ^ j, ?_, ?_, ?_⟩
  · unfold Decimal.value
    rw [hj, zpow_natCast]
    push_cast
    rfl
  · calc d.s * 10 ^ j < 10 ^ d.k * 10 ^ j := Nat.mul_lt_mul_of_pos_right hfits.2.2.1 (Nat.pow_pos (by decide))
      _ = 10 ^ (d.k + j) := (pow_add 10 d.k j).symm
      _ ≤ 10 ^ 15 := Nat.pow_le_pow_right (by decide) (by omega)
  · unfold Decimal.text
    rw [if_pos ⟨hk, by omega⟩, hj, Int.toNat_natCast]
    exact digits_zeros hs j

/-! ## literals -/

/-- the number of a literal that is not negative; seventeen digits always do -/
def Number.ofRat (q : ℚ) : Option Number :=
  match toDouble q with
  | none => some .infinity
  | some x =>
    if x = 0 then some .zero
    else
      match h : shortest x with
      | none => none
      | some d => some (.finite x d h)

/-- **The literal of a natural number is written back as it was read.** -/
theorem ofRat_nat {n : ℕ} (h : n < 10 ^ 14) : ∃ a, Number.ofRat n = some a ∧ a.text = digits n := by
  have hdouble : toDouble (n : ℚ) = some (n : ℚ) := toDouble_nat (lt_trans h (by norm_num))
  unfold Number.ofRat
  rw [hdouble]
  dsimp only
  by_cases hzero : n = 0
  · rw [hzero, if_pos Nat.cast_zero]
    exact ⟨.zero, rfl, rfl⟩
  · rw [if_neg (Nat.cast_ne_zero.mpr hzero)]
    obtain ⟨d, hd, hk, hn⟩ := shortest_nat (Nat.pos_of_ne_zero hzero) h
    obtain ⟨m, hvalue, hm, htext⟩ := text_nat (shortest_fits hd) hk hn
    have hsame : m = n := by
      have hfits := (shortest_fits hd).2.2.2
      rw [hvalue, toDouble_nat (lt_trans hm (by norm_num))] at hfits
      exact Nat.cast_injective (Option.some.inj hfits)
    split
    · rename_i hnone
      exact absurd (hnone.symm.trans hd) nofun
    · rename_i d' hd'
      obtain rfl := Option.some.inj (hd.symm.trans hd')
      exact ⟨_, rfl, htext.trans (congrArg digits hsame)⟩

end NumberText
