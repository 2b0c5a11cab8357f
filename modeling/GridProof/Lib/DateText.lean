import Mathlib.Data.List.Basic
import GridProof.Lib.CivilDate

/-!
# Dates are read back

The date of a count of days is counted back, and an instant is read from its text.

* `daysOfCivil_civilOfDays`   the date of a count of days is counted back;
* `number_padded`             a number is read from its padded digits;
* `readMicros_utcText`        a time of a valid date is read from its text;
* `readMicros_isoSeconds`     an instant of a year of four digits is read from its text in seconds.
-/

namespace Calendar

/-! ## days -/

/-- the day of its year, which begins in March -/
def dayOfYear (m d : Nat) : Nat := (153 * ((m + 9) % 12) + 2) / 5 + d - 1

theorem dayOfYear_monthOf : ∀ doy < 366, dayOfYear (monthOf doy) (dayOf doy) = doy := by
  decide +kernel

/-- the year that begins in March -/
def marchYear (y : Int) (m : Nat) : Int := if m ≤ 2 then y - 1 else y

theorem daysOfCivil_eq {y era : Int} {m d yoe : Nat} (hera : marchYear y m = era * 400 + yoe) (hyoe : yoe < 400)
    (hd : 1 ≤ d) : daysOfCivil y m d = era * 146097 + (yearStart yoe + dayOfYear m d : Nat) - 719468 := by
  have hyear : (if (m : Int) ≤ 2 then y - 1 else y) = era * 400 + yoe := by
    rw [← hera]
    unfold marchYear
    split
    · exact (if_pos (by omega)).symm
    · exact (if_neg (by omega)).symm
  have hfdiv : (era * 400 + yoe).fdiv 400 = era := by
    rw [Int.fdiv_eq_ediv_of_nonneg _ (by decide)]
    omega
  have hsub : era * 400 + (yoe : Int) - era * 400 = yoe := by omega
  have hmonths : ((((153 * ((m + 9) % 12) + 2) / 5 : Nat)) : Int) = (153 * ((m + 9) % 12) + 2) / 5 := by
    push_cast
    rfl
  unfold daysOfCivil
  dsimp only
  rw [hyear, hfdiv, hsub, ← hmonths]
  unfold yearStart dayOfYear
  generalize (153 * ((m + 9) % 12) + 2) / 5 = days
  omega

/-- **The date of a count of days is counted back.** -/
theorem daysOfCivil_civilOfDays (days : Int) :
    daysOfCivil (civilOfDays days).1 (civilOfDays days).2.1 (civilOfDays days).2.2 = days := by
  obtain ⟨era, doe, hdays, hdoe⟩ : ∃ (era : Int) (doe : Nat), days + 719468 = era * 146097 + doe ∧ doe < 146097 :=
    ⟨(days + 719468) / 146097, ((days + 719468) % 146097).toNat, by omega, by omega⟩
  have hfdiv : (days + 719468).fdiv 146097 = era := by
    rw [Int.fdiv_eq_ediv_of_nonneg _ (by decide)]
    omega
  have hfmod : ((days + 719468).fmod 146097).toNat = doe := by
    rw [Int.fmod_eq_emod_of_nonneg _ (by decide)]
    omega
  obtain ⟨hyear, hstart, hend⟩ := yearOfEra_spec hdoe
  obtain ⟨-, -, hlength⟩ := year_ends _ hyear
  have hdoy : doe - yearStart (yearOfEra doe) < 366 := by
    rw [hlength] at hend
    split at hend
    · omega
    · omega
  obtain ⟨-, hday, -⟩ := month_day _ hdoy
  rw [civilOfDays_eq]
  dsimp only
  rw [hfdiv, hfmod]
  have hmarch : marchYear (era * 400 + yearOfEra doe + if monthOf (doe - yearStart (yearOfEra doe)) ≤ 2 then 1 else 0)
      (monthOf (doe - yearStart (yearOfEra doe))) = era * 400 + yearOfEra doe := by
    unfold marchYear
    split
    · omega
    · omega
  rw [daysOfCivil_eq hmarch hyear hday, dayOfYear_monthOf _ hdoy]
  omega

/-- the years from March of the year 0 to the end of the year 9999 -/
theorem civil_year_of_range {days : Int} (h : -719468 ≤ days) (h' : days < 2932897) :
    0 ≤ (civilOfDays days).1 ∧ (civilOfDays days).1 ≤ 9999 := by
  obtain ⟨era, doe, hdays, hdoe⟩ : ∃ (era : Int) (doe : Nat), days + 719468 = era * 146097 + doe ∧ doe < 146097 :=
    ⟨(days + 719468) / 146097, ((days + 719468) % 146097).toNat, by omega, by omega⟩
  have hfdiv : (days + 719468).fdiv 146097 = era := by
    rw [Int.fdiv_eq_ediv_of_nonneg _ (by decide)]
    omega
  have hfmod : ((days + 719468).fmod 146097).toNat = doe := by
    rw [Int.fmod_eq_emod_of_nonneg _ (by decide)]
    omega
  obtain ⟨hyear, hstart, -⟩ := yearOfEra_spec hdoe
  rw [civilOfDays_eq]
  dsimp only
  rw [hfdiv, hfmod]
  split
  · rename_i hmonth
    refine ⟨by omega, ?_⟩
    by_contra hbig
    -- January and February of the year 10000
    have hlast : era = 24 ∧ yearOfEra doe = 399 := by omega
    have hdoy : doe - yearStart (yearOfEra doe) < 306 := by
      rw [hlast.2] at hstart ⊢
      change 145731 ≤ doe at hstart
      show doe - 145731 < 306
      omega
    have hspring : ∀ doy < 306, 3 ≤ monthOf doy := by decide +kernel
    exact absurd (hspring _ hdoy) (by omega)
  · omega

/-! ## texts -/

/-- **A number is read from its padded digits.** -/
theorem number_padded (width n : Nat) : Nat.ofDigitChars 10 (padded width n).toList 0 = n := by
  rw [padded_toList, Nat.ofDigitChars_append, Nat.ofDigitChars_replicate_zero, Nat.mul_zero,
    Nat.ofDigitChars_ten_toDigits]

/-- the fields of a text, by their places -/
theorem readMicros_fields {text : String} {year month day hour minute second rest : List Char}
    (htext : text.toList = year ++ '-' :: (month ++ '-' :: (day ++ 'T' :: (hour ++ ':' :: (minute ++ ':' ::
      (second ++ rest))))))
    (hyear : year.length = 4) (hmonth : month.length = 2) (hday : day.length = 2) (hhour : hour.length = 2)
    (hminute : minute.length = 2) (hsecond : second.length = 2) {fraction zone : List Char}
    (hrest : rest = fraction ++ zone) (hfraction : ∀ c ∈ fraction, (c = '.' || c.isDigit) = true)
    (hzone : zone = ['Z']) : readMicros text =
      ((daysOfCivil (Nat.ofDigitChars 10 year 0) (Nat.ofDigitChars 10 month 0) (Nat.ofDigitChars 10 day 0) * 1440 +
        Nat.ofDigitChars 10 hour 0 * 60 + Nat.ofDigitChars 10 minute 0) * 60 + Nat.ofDigitChars 10 second 0) * 1000000 +
      Nat.ofDigitChars 10 ((fraction.drop 1 ++ List.replicate 6 '0').take 6) 0 := by
  subst hzone
  obtain ⟨m₁, m₂, rfl⟩ := List.length_eq_two.mp hmonth
  obtain ⟨d₁, d₂, rfl⟩ := List.length_eq_two.mp hday
  obtain ⟨h₁, h₂, rfl⟩ := List.length_eq_two.mp hhour
  obtain ⟨n₁, n₂, rfl⟩ := List.length_eq_two.mp hminute
  obtain ⟨s₁, s₂, rfl⟩ := List.length_eq_two.mp hsecond
  obtain ⟨y₁, y₂, y₃, y₄, rfl⟩ := List.length_eq_four.mp hyear
  have hdrop : text.toList.drop 19 = rest := by
    rw [htext]
    rfl
  have htake : (text.toList.drop 19).takeWhile (fun c => c = '.' || c.isDigit) = fraction := by
    rw [hdrop, hrest, List.takeWhile_append_of_pos hfraction]
    simp
  have hskip : (text.toList.drop 19).dropWhile (fun c => c = '.' || c.isDigit) = ['Z'] := by
    rw [hdrop, hrest, List.dropWhile_append_of_pos hfraction]
    simp
  unfold readMicros
  dsimp only
  rw [htake, hskip, htext]
  simp

section
variable {y : Int} {m d seconds : Nat}

/-- a date and a time of day, with what stands behind the seconds -/
theorem readMicros_of_parts (hy : 0 ≤ y ∧ y ≤ 9999) (hdate : ValidDate y m d) (hseconds : seconds < 86400)
    {text : String} (fraction : List Char)
    (htext : text.toList = (yearText y ++ "-" ++ padded 2 m ++ "-" ++ padded 2 d ++ "T" ++ timeText seconds).toList ++
      (fraction ++ ['Z'])) (hfraction : ∀ c ∈ fraction, (c = '.' || c.isDigit) = true) :
    readMicros text = (daysOfCivil y m d * 86400 + seconds) * 1000000 +
      Nat.ofDigitChars 10 ((fraction.drop 1 ++ List.replicate 6 '0').take 6) 0 := by
  have htwo {n : Nat} (h : n < 100) : (padded 2 n).toList.length = 2 := by
    rw [String.length_toList]
    exact padded_length (by decide) h
  have hfour : (padded 4 y.toNat).toList.length = 4 := by
    rw [String.length_toList]
    exact padded_length (by decide) (by omega)
  have hmonth : m < 100 := Nat.lt_of_le_of_lt hdate.month.2 (by decide)
  have hday : d < 100 := Nat.lt_of_le_of_lt hdate.day.2 (daysInMonth_lt y m)
  have hdash : "-".toList = ['-'] := rfl
  have hT : "T".toList = ['T'] := rfl
  have hcolon : ":".toList = [':'] := rfl
  rw [yearText_eq hy] at htext
  unfold timeText at htext
  simp only [String.toList_append, hdash, hT, hcolon, List.append_assoc, List.cons_append, List.nil_append] at htext
  rw [readMicros_fields htext hfour (htwo hmonth) (htwo hday) (htwo (by omega)) (htwo (by omega)) (htwo (by omega))
    rfl hfraction rfl]
  simp only [number_padded]
  rw [Int.toNat_of_nonneg hy.1]
  generalize daysOfCivil y m d = days
  generalize Nat.ofDigitChars 10 ((fraction.drop 1 ++ List.replicate 6 '0').take 6) 0 = decimals
  omega

/-- **A time of a valid date is read from its text.** -/
theorem readMicros_utcText (hy : 0 ≤ y ∧ y ≤ 9999) (hdate : ValidDate y m d) (hseconds : seconds < 86400) :
    readMicros (utcText y m d seconds) = (daysOfCivil y m d * 86400 + seconds) * 1000000 := by
  have htext : (utcText y m d seconds).toList = (yearText y ++ "-" ++ padded 2 m ++ "-" ++ padded 2 d ++ "T" ++
      timeText seconds).toList ++ ([] ++ ['Z']) := by
    unfold utcText
    rw [String.toList_append]
    rfl
  rw [readMicros_of_parts hy hdate hseconds [] htext (List.forall_mem_nil _)]
  exact Int.add_zero _

end

/-- **An instant is read from its text in seconds.** -/
theorem readMicros_isoSeconds {s : Int} (h : -62162035200 ≤ s) (h' : s < 253402300800) :
    readMicros (isoSeconds s) = s * 1000000 := by
  have hfdiv : s.fdiv 86400 = s / 86400 := Int.fdiv_eq_ediv_of_nonneg _ (by decide)
  have hfmod : s.fmod 86400 = s % 86400 := Int.fmod_eq_emod_of_nonneg _ (by decide)
  rw [isoSeconds_eq, hfdiv, hfmod, readMicros_utcText (civil_year_of_range (by omega) (by omega))
    (civil_valid _) (by omega), daysOfCivil_civilOfDays]
  omega

end Calendar
