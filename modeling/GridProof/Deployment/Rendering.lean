import GridProof.Lib.DateText
import GridProof.Deployment.Script
import GridProof.Deployment.Verifier
import GridProof.Firmware.Verified

/-!
# How the script writes values

Numbers, times and addresses as `Deploy.s.sol` renders them, and what their texts say.

* `isoTimestamp_eq`   the time of a block is the ISO text of its seconds;
* `addressText_inj`   an address is known by its text in lower case;
* `Visible`           the characters of these texts, which no reader trims or escapes.
-/

namespace Deployment
open ReputationEscrow (Address Bytes32)
open Sha256 (Byte)
open Calendar (civilOfDays padded yearText timeText)

/-! ## the time of the block -/

theorem civilFromDays_eq (days : ℕ) : civilFromDays days =
    ((civilOfDays days).1.toNat, (civilOfDays days).2.1, (civilOfDays days).2.2) := by
  have hdiv : ((days : ℤ) + 719468).fdiv 146097 = ((days + 719468) / 146097 : ℕ) := by
    rw [Int.fdiv_eq_ediv_of_nonneg _ (by decide)]
    omega
  have hmod : (((days : ℤ) + 719468).fmod 146097).toNat = days + 719468 - (days + 719468) / 146097 * 146097 := by
    rw [Int.fmod_eq_emod_of_nonneg _ (by decide)]
    omega
  rw [Calendar.civilOfDays_eq]
  unfold civilFromDays
  dsimp only
  rw [hdiv, hmod]
  generalize days + 719468 - (days + 719468) / 146097 * 146097 = doe
  generalize (days + 719468) / 146097 = era
  refine Prod.ext ?_ rfl
  show (if Calendar.monthOf (doe - Calendar.yearStart (Calendar.yearOfEra doe)) ≤ 2 then
    Calendar.yearOfEra doe + era * 400 + 1 else Calendar.yearOfEra doe + era * 400) = _
  split
  · omega
  · omega

theorem pad2_eq : ∀ value < 100, pad2 value = padded 2 value := by
  decide +kernel

theorem toString_year {n : ℕ} (h : 1000 ≤ n) (h' : n ≤ 9999) : toString n = padded 4 n := by
  have hle : (Nat.toDigits 10 n).length ≤ 4 := (Nat.length_toDigits_le_iff (by decide) (by decide)).mpr (by omega)
  have hgt : ¬(Nat.toDigits 10 n).length ≤ 3 := fun hle =>
    absurd ((Nat.length_toDigits_le_iff (by decide) (by decide)).mp hle) (by omega)
  refine String.toList_inj.mp ?_
  rw [Calendar.padded_toList, Nat.toString_eq_ofList_toDigits, String.toList_ofList,
    show 4 - (Nat.toDigits 10 n).length = 0 by omega]
  rfl

/-- since 1970 -/
theorem civil_year_ge (days : ℕ) : 1000 ≤ (civilOfDays days).1 := by
  have hera : 4 ≤ ((days : ℤ) + 719468).fdiv 146097 := by
    rw [Int.fdiv_eq_ediv_of_nonneg _ (by decide)]
    omega
  rw [Calendar.civilOfDays_eq]
  dsimp only
  split
  · omega
  · omega

/-- **The script writes the time of a block as the seconds of its ISO text.** -/
theorem isoTimestamp_eq {t : ℕ} (h : t < 253402300800) : isoTimestamp t = Calendar.isoSeconds t := by
  have hdays : (t : ℤ).fdiv 86400 = (t / 86400 : ℕ) := by
    rw [Int.fdiv_eq_ediv_of_nonneg _ (by decide)]
    omega
  have hseconds : ((t : ℤ).fmod 86400).toNat = t % 86400 := by
    rw [Int.fmod_eq_emod_of_nonneg _ (by decide)]
    omega
  have hmax := (Calendar.civil_year_of_range (show -719468 ≤ ((t / 86400 : ℕ) : ℤ) by omega) (by omega)).2
  have hmin := civil_year_ge (t / 86400)
  have hvalid := Calendar.civil_valid ((t / 86400 : ℕ) : ℤ)
  have hmonth := hvalid.month
  have hday := Nat.lt_of_le_of_lt hvalid.day.2 (Calendar.daysInMonth_lt _ _)
  unfold isoTimestamp
  rw [Calendar.isoSeconds_eq, civilFromDays_eq, hdays, hseconds]
  unfold Calendar.utcText timeText
  dsimp only
  rw [Calendar.yearText_eq ⟨by omega, hmax⟩, toString_year (by omega) (by omega), pad2_eq _ (by omega), pad2_eq _ hday,
    pad2_eq _ (by omega), pad2_eq _ (by omega), pad2_eq _ (by omega),
    show t % 86400 % 3600 / 60 = t % 86400 / 60 % 60 by omega]
  simp only [String.append_assoc]

/-! ## characters -/

/-- neither white space nor escaped -/
def Visible (c : Char) : Prop := (32 < c.toNat ∧ c.toNat < 127) ∧ c ≠ '"' ∧ c ≠ '\\'

instance (c : Char) : Decidable (Visible c) := inferInstanceAs (Decidable ((_ ∧ _) ∧ _ ∧ _))

theorem visible_of_digit {c : Char} (h : c.isDigit = true) : Visible c := by
  have hrange : 48 ≤ c.toNat ∧ c.toNat ≤ 57 := Char.isDigit_iff_toNat.mp h
  refine ⟨by omega, ?_, ?_⟩
  · rintro rfl
    exact absurd h (by decide)
  · rintro rfl
    exact absurd h (by decide)

theorem visible_of_mem {l : List Char} (h : (l.all fun c => Visible c) = true) {c : Char} (hc : c ∈ l) : Visible c :=
  of_decide_eq_true (List.all_eq_true.mp h c hc)

theorem visible_of_wallet {s : String} (h : Ingestion.isWalletAddress s = true) : ∀ c ∈ s.toList, Visible c := by
  unfold Ingestion.isWalletAddress at h
  rw [Bool.and_eq_true, Bool.and_eq_true, decide_eq_true_eq, List.all_eq_true] at h
  intro c hc
  rw [← List.take_append_drop 2 s.toList, h.1.1] at hc
  rcases List.mem_append.mp hc with hc | hc
  · exact visible_of_mem (by decide) hc
  · exact visible_of_mem (by decide) (List.contains_iff_mem.mp (h.1.2 c hc))

theorem visible_of_digits {s : String} (h : isDigits s = true) : ∀ c ∈ s.toList, Visible c := by
  unfold isDigits at h
  rw [Bool.and_eq_true, List.all_eq_true] at h
  exact fun c hc => visible_of_digit (h.2 c hc)

theorem plain_of_visible {s : String} (h : ∀ c ∈ s.toList, Visible c) : Json.Plain s := fun c hc =>
  ⟨(h c hc).2.1, (h c hc).2.2, Nat.le_of_lt (h c hc).1.1⟩

theorem Visible.not_white {c : Char} (h : Visible c) : JsText.isWhiteSpace c = false := by
  obtain ⟨⟨hlow, hhigh⟩, -⟩ := h
  unfold JsText.isWhiteSpace
  generalize c.toNat = n at hlow hhigh
  simp
  omega

theorem trim_of_visible {s : String} (h : ∀ c ∈ s.toList, Visible c) : JsText.trim s = s := by
  have hnone : ∀ c ∈ s.toList, ¬JsText.isWhiteSpace c = true := fun c hc => by
    rw [(h c hc).not_white]
    exact Bool.false_ne_true
  unfold JsText.trim
  rw [List.dropWhile_eq_self_iff.mpr fun hpos => hnone _ (List.getElem_mem hpos),
    List.rdropWhile_eq_self_iff.mpr fun hne => hnone _ (List.getLast_mem hne), String.ofList_toList]

/-! ## addresses -/

theorem lowerHex_length (width n : ℕ) : (lowerHex width n).length = width := by
  induction width generalizing n with
  | zero => rfl
  | succ width ih =>
    unfold lowerHex
    rw [List.length_append, ih]
    rfl

theorem mem_lowerHex {width n : ℕ} {c : Char} (h : c ∈ lowerHex width n) : ∃ k < 16, c = Sha256.hexDigit k := by
  induction width generalizing n with
  | zero => exact absurd h List.not_mem_nil
  | succ width ih =>
    unfold lowerHex at h
    rcases List.mem_append.mp h with h | h
    · exact ih h
    · exact ⟨n % 16, Nat.mod_lt n (by decide), List.mem_singleton.mp h⟩

theorem hexDigit_inj : ∀ k < 16, ∀ l < 16, Sha256.hexDigit k = Sha256.hexDigit l → k = l := by
  decide

/-- **A number is known by its digits.** -/
theorem lowerHex_inj {width m n : ℕ} (hm : m < 16 ^ width) (hn : n < 16 ^ width)
    (h : lowerHex width m = lowerHex width n) : m = n := by
  induction width generalizing m n with
  | zero =>
    rw [pow_zero] at hm hn
    omega
  | succ width ih =>
    unfold lowerHex at h
    obtain ⟨hhigh, hlow⟩ := List.append_inj h (by rw [lowerHex_length, lowerHex_length])
    rw [pow_succ] at hm hn
    have hquotient := ih (Nat.div_lt_of_lt_mul (by omega)) (Nat.div_lt_of_lt_mul (by omega)) hhigh
    have hdigit := hexDigit_inj (m % 16) (Nat.mod_lt m (by decide)) (n % 16) (Nat.mod_lt n (by decide))
      (List.cons.inj hlow).1
    omega

/-- a digit in either case -/
theorem hexDigit_cases : ∀ k < 16, (Ingestion.isHexDigit (Sha256.hexDigit k) = true ∧
      Ingestion.isHexDigit (Sha256.hexDigit k).toUpper = true) ∧
    (Sha256.hexDigit k).toLower = Sha256.hexDigit k ∧ (Sha256.hexDigit k).toUpper.toLower = Sha256.hexDigit k := by
  decide

theorem map_zipWith_left {α β γ : Type} (f : α → β → γ) (g : γ → α) {l : List α} {l' : List β}
    (hlength : l.length ≤ l'.length) (h : ∀ a ∈ l, ∀ b, g (f a b) = a) : (List.zipWith f l l').map g = l := by
  induction l generalizing l' with
  | nil => rfl
  | cons a l ih =>
    cases l' with
    | nil => exact absurd hlength (Nat.not_succ_le_zero _)
    | cons b l' =>
      obtain ⟨ha, hl⟩ := List.forall_mem_cons.mp h
      rw [List.zipWith_cons_cons, List.map_cons, ha, ih (Nat.le_of_succ_le_succ hlength) hl]

theorem mem_zipWith {α β γ : Type} {f : α → β → γ} {l : List α} {l' : List β} {c : γ} (h : c ∈ List.zipWith f l l') :
    ∃ a ∈ l, ∃ b, c = f a b := by
  rw [← List.map_uncurry_zip_eq_zipWith] at h
  obtain ⟨⟨a, b⟩, hab, rfl⟩ := List.mem_map.mp h
  exact ⟨a, (List.of_mem_zip hab).1, b, rfl⟩

section
variable (keccak256 : List Byte → Bytes32) (a : Address)

/-- the digits of an address with their capitals -/
def addressDigits : List Char :=
  List.zipWith (fun c h => if '8' ≤ h then c.toUpper else c) (lowerHex 40 a.val)
    (lowerHex 64 (keccak256 ((lowerHex 40 a.val).map fun c => BitVec.ofNat 8 c.toNat)).toNat)

theorem addressText_toList : (addressText keccak256 a).toList = '0' :: 'x' :: addressDigits keccak256 a :=
  String.toList_ofList

theorem addressDigits_length : (addressDigits keccak256 a).length = 40 := by
  unfold addressDigits
  rw [List.length_zipWith, lowerHex_length, lowerHex_length]
  rfl

theorem mem_addressDigits {c : Char} (h : c ∈ addressDigits keccak256 a) :
    ∃ k < 16, c = Sha256.hexDigit k ∨ c = (Sha256.hexDigit k).toUpper := by
  obtain ⟨digit, hdigit, b, rfl⟩ := mem_zipWith h
  obtain ⟨k, hk, rfl⟩ := mem_lowerHex hdigit
  refine ⟨k, hk, ?_⟩
  split
  · exact .inr rfl
  · exact .inl rfl

theorem addressText_wallet : Ingestion.isWalletAddress (addressText keccak256 a) = true := by
  have hdigits : (addressDigits keccak256 a).all Ingestion.isHexDigit = true := by
    refine List.all_eq_true.mpr fun c hc => ?_
    obtain ⟨k, hk, rfl | rfl⟩ := mem_addressDigits keccak256 a hc
    · exact (hexDigit_cases k hk).1.1
    · exact (hexDigit_cases k hk).1.2
  have hlength : ('0' :: 'x' :: addressDigits keccak256 a).length = 42 := by
    rw [List.length_cons, List.length_cons, addressDigits_length]
  unfold Ingestion.isWalletAddress
  rw [addressText_toList, hlength]
  generalize addressDigits keccak256 a = digits at hdigits
  show (decide (['0', 'x'] = ['0', 'x']) && digits.all Ingestion.isHexDigit && _) = true
  rw [hdigits]
  rfl

/-- the digits of an address in lower case -/
def lowerAddress (a : Address) : String := String.ofList ('0' :: 'x' :: lowerHex 40 a.val)

theorem asciiLower_addressText : JsText.asciiLower (addressText keccak256 a) = lowerAddress a := by
  have hdigits : (addressDigits keccak256 a).map Char.toLower = lowerHex 40 a.val := by
    unfold addressDigits
    refine map_zipWith_left _ _ ?_ fun c hc hash => ?_
    · rw [lowerHex_length, lowerHex_length]
      decide
    · obtain ⟨k, hk, rfl⟩ := mem_lowerHex hc
      split
      · exact (hexDigit_cases k hk).2.2
      · exact (hexDigit_cases k hk).2.1
  unfold JsText.asciiLower lowerAddress
  rw [addressText_toList, List.map_cons, List.map_cons, hdigits]
  rfl

end

/-- **An address is known by the lower case of its text.** -/
theorem lowerAddress_inj {a b : Address} (h : lowerAddress a = lowerAddress b) : a = b := by
  have hlists := congrArg String.toList h
  unfold lowerAddress at hlists
  rw [String.toList_ofList, String.toList_ofList] at hlists
  have hbound : ∀ a : Address, a.val < 16 ^ 40 := fun a => lt_of_lt_of_eq a.isLt (by norm_num)
  exact Fin.ext (lowerHex_inj (hbound a) (hbound b) (List.cons.inj (List.cons.inj hlists).2).2)

end Deployment
