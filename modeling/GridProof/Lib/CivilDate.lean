import Mathlib.Algebra.GroupWithZero.Nat
import Mathlib.Order.Monotone.Basic
import GridProof.Lib.Calendar

/-!
# Days of the calendar

`civilOfDays` yields a day that the Gregorian calendar has.

* `ValidDate`       a month of the year and a day of the month, with leap years;
* `yearOfEra_spec`  the year that the quotient finds is the year the day lies in;
* `civil_valid`     every count of days is the count of a valid date;
* `utcText`         an instant as `strftime` prints it with `%Y-%m-%dT%H:%M:%SZ`.

The year found is a quotient of a monotone function of the day, so that its value at the ends of a year is its value
in between; the ends of the 400 years of an era are checked one by one.
-/

namespace Calendar

def isLeap (y : Int) : Bool := y % 4 = 0 && (y % 100 ≠ 0 || y % 400 = 0)

def daysInMonth (y : Int) (m : Nat) : Nat :=
  if m = 2 then (if isLeap y then 29 else 28)
  else if m = 4 ∨ m = 6 ∨ m = 9 ∨ m = 11 then 30
  else 31

structure ValidDate (y : Int) (m d : Nat) : Prop where
  month : 1 ≤ m ∧ m ≤ 12
  day : 1 ≤ d ∧ d ≤ daysInMonth y m

/-! ## years of an era -/

/-- the days of an era that are not leap days -/
def plainDays (doe : Nat) : Nat := doe - doe / 1460 + doe / 36524 - doe / 146096

def yearOfEra (doe : Nat) : Nat := plainDays doe / 365

/-- the first day of a year, which begins in March -/
def yearStart (yoe : Nat) : Nat := 365 * yoe + yoe / 4 - yoe / 100

/-- the first day behind a year; the last year of an era ends with a leap day -/
def yearEnd (yoe : Nat) : Nat := if yoe = 399 then 146097 else yearStart (yoe + 1)

theorem plainDays_mono : Monotone plainDays := by
  refine monotone_nat_of_le_succ fun doe => ?_
  unfold plainDays
  omega

/-- the quotient at the ends of a year -/
theorem year_ends : ∀ yoe < 400, yoe ≤ yearOfEra (yearStart yoe) ∧ yearOfEra (yearEnd yoe - 1) ≤ yoe ∧
    yearEnd yoe = yearStart yoe + if isLeap (yoe + 1) then 366 else 365 := by
  decide +kernel

theorem yearOfEra_mono : Monotone yearOfEra := fun _ _ h => Nat.div_le_div_right (plainDays_mono h)

theorem yearOfEra_spec {doe : Nat} (h : doe < 146097) : yearOfEra doe < 400 ∧ yearStart (yearOfEra doe) ≤ doe ∧
    doe < yearEnd (yearOfEra doe) := by
  have hlt : yearOfEra doe < 400 := by
    have hlast : yearOfEra 146096 = 399 := by decide
    have hle := yearOfEra_mono (Nat.le_of_lt_succ h)
    omega
  refine ⟨hlt, ?_, ?_⟩
  · by_contra hbefore
    -- the day would lie in the year before
    obtain ⟨yoe, hyoe⟩ : ∃ yoe, yearOfEra doe = yoe + 1 := by
      refine Nat.exists_eq_succ_of_ne_zero fun hzero => hbefore ?_
      rw [hzero]
      exact Nat.zero_le doe
    have hend : yearEnd yoe = yearStart (yoe + 1) := if_neg (by omega)
    have hle := yearOfEra_mono (show doe ≤ yearEnd yoe - 1 by rw [hend, ← hyoe]; omega)
    have hold := (year_ends yoe (by omega)).2.1
    omega
  · by_contra hbehind
    by_cases hlast : yearOfEra doe = 399
    · rw [hlast] at hbehind
      exact hbehind h
    · have hend : yearEnd (yearOfEra doe) = yearStart (yearOfEra doe + 1) := if_neg hlast
      have hle := yearOfEra_mono (show yearStart (yearOfEra doe + 1) ≤ doe by rw [← hend]; omega)
      have hnew := (year_ends (yearOfEra doe + 1) (by omega)).1
      omega

/-! ## months and days -/

def monthOf (doy : Nat) : Nat :=
  let mp := (5 * doy + 2) / 153
  if mp < 10 then mp + 3 else mp - 9

def dayOf (doy : Nat) : Nat := doy - (153 * ((5 * doy + 2) / 153) + 2) / 5 + 1

/-- in a year of 365 days; the 366th is the leap day -/
theorem month_day : ∀ doy < 366, (1 ≤ monthOf doy ∧ monthOf doy ≤ 12) ∧ 1 ≤ dayOf doy ∧
    (dayOf doy ≤ daysInMonth 1 (monthOf doy) ∨ doy = 365 ∧ monthOf doy = 2 ∧ dayOf doy = 29) := by
  decide +kernel

theorem daysInMonth_le (y : Int) (m : Nat) : daysInMonth 1 m ≤ daysInMonth y m := by
  unfold daysInMonth
  split
  · cases isLeap y with
    | false => exact Nat.le_refl _
    | true => decide
  · exact Nat.le_refl _

theorem isLeap_era (era y : Int) : isLeap (era * 400 + y) = isLeap y := by
  have h4 : (era * 400 + y) % 4 = y % 4 := by omega
  have h100 : (era * 400 + y) % 100 = y % 100 := by omega
  have h400 : (era * 400 + y) % 400 = y % 400 := by omega
  unfold isLeap
  rw [h4, h100, h400]

theorem civilOfDays_eq (days : Int) : civilOfDays days =
    let z := days + 719468
    let doe := (z.fmod 146097).toNat
    let doy := doe - yearStart (yearOfEra doe)
    (z.fdiv 146097 * 400 + yearOfEra doe + (if monthOf doy ≤ 2 then 1 else 0), monthOf doy, dayOf doy) :=
  rfl

/-- **Every count of days is the count of a valid date.** -/
theorem civil_valid (days : Int) :
    ValidDate (civilOfDays days).1 (civilOfDays days).2.1 (civilOfDays days).2.2 := by
  have hdoe : ((days + 719468).fmod 146097).toNat < 146097 := by
    rw [Int.fmod_eq_emod_of_nonneg _ (by decide)]
    omega
  rw [civilOfDays_eq]
  dsimp only
  generalize ((days + 719468).fmod 146097).toNat = doe at hdoe
  generalize (days + 719468).fdiv 146097 = era
  obtain ⟨hyear, hstart, hend⟩ := yearOfEra_spec hdoe
  obtain ⟨-, -, hlength⟩ := year_ends (yearOfEra doe) hyear
  have hdoy : doe - yearStart (yearOfEra doe) < 366 := by
    rw [hlength] at hend
    split at hend
    · omega
    · omega
  obtain ⟨hmonth, hone, hday⟩ := month_day _ hdoy
  refine ⟨hmonth, hone, ?_⟩
  rcases hday with hday | ⟨hleap, hfeb, hday⟩
  · exact Nat.le_trans hday (daysInMonth_le _ _)
  · -- the year has a leap day, as it has 366 days
    have hyes : isLeap (yearOfEra doe + 1) = true := by
      cases hno : isLeap (yearOfEra doe + 1) with
      | true => rfl
      | false =>
        rw [hno, if_neg Bool.false_ne_true] at hlength
        omega
    rw [hfeb, hday, if_pos (Nat.le_refl 2)]
    unfold daysInMonth
    rw [if_pos rfl, Int.add_assoc, isLeap_era, hyes]
    exact Nat.le_refl 29

/-! ## texts -/

/-- `%Y-%m-%dT%H:%M:%SZ` -/
def utcText (y : Int) (m d seconds : Nat) : String :=
  yearText y ++ "-" ++ padded 2 m ++ "-" ++ padded 2 d ++ "T" ++ timeText seconds ++ "Z"

theorem isoSeconds_eq (seconds : Int) :
    let date := civilOfDays (seconds.fdiv 86400)
    isoSeconds seconds = utcText date.1 date.2.1 date.2.2 (seconds.fmod 86400).toNat := by
  dsimp only
  unfold isoSeconds dateText utcText
  rfl

theorem padded_toList (width n : Nat) : (padded width n).toList =
    List.replicate (width - (Nat.toDigits 10 n).length) '0' ++ Nat.toDigits 10 n := by
  unfold padded
  dsimp only
  rw [String.toList_ofList, Nat.toString_eq_ofList_toDigits, String.toList_ofList]

theorem padded_length {width n : Nat} (hwidth : 0 < width) (h : n < 10 ^ width) :
    (padded width n).length = width := by
  have hle := (Nat.length_toDigits_le_iff (by decide) hwidth).mpr h
  rw [← String.length_toList, padded_toList, List.length_append, List.length_replicate]
  omega

theorem padded_digit {width n : Nat} {c : Char} (h : c ∈ (padded width n).toList) : c.isDigit = true := by
  rw [padded_toList] at h
  rcases List.mem_append.mp h with h | h
  · rw [List.eq_of_mem_replicate h]
    rfl
  · exact Nat.isDigit_of_mem_toDigits (by decide) (by decide) h

theorem yearText_eq {y : Int} (h : 0 ≤ y ∧ y ≤ 9999) : yearText y = padded 4 y.toNat := if_pos h

theorem daysInMonth_lt (y : Int) (m : Nat) : daysInMonth y m < 100 := by
  unfold daysInMonth
  split
  · split
    · decide
    · decide
  · split
    · decide
    · decide

theorem timeText_length {seconds : Nat} (h : seconds < 86400) : (timeText seconds).length = 8 := by
  have hhour : (padded 2 (seconds / 3600)).length = 2 := padded_length (by decide) (by omega)
  have hminute : (padded 2 (seconds / 60 % 60)).length = 2 := padded_length (by decide) (by omega)
  have hsecond : (padded 2 (seconds % 60)).length = 2 := padded_length (by decide) (by omega)
  unfold timeText
  rw [String.length_append, String.length_append, String.length_append, String.length_append, hhour, hminute,
    hsecond]
  rfl

theorem utcText_length {y : Int} {m d seconds : Nat} (hy : 0 ≤ y ∧ y ≤ 9999) (hdate : ValidDate y m d)
    (hseconds : seconds < 86400) : (utcText y m d seconds).length = 20 := by
  have hyear : (padded 4 y.toNat).length = 4 := padded_length (by decide) (by omega)
  have hmonth : (padded 2 m).length = 2 := padded_length (by decide) (by have := hdate.month; omega)
  have hday : (padded 2 d).length = 2 :=
    padded_length (by decide) (Nat.lt_of_le_of_lt hdate.day.2 (daysInMonth_lt y m))
  unfold utcText
  rw [yearText_eq hy, String.length_append, String.length_append, String.length_append, String.length_append,
    String.length_append, String.length_append, String.length_append, hyear, hmonth, hday, timeText_length hseconds]
  rfl

theorem timeText_char {seconds : Nat} {c : Char} (h : c ∈ (timeText seconds).toList) :
    c.isDigit = true ∨ c = ':' := by
  have hcolon : c ∈ ":".toList → c = ':' := fun h => List.mem_singleton.mp h
  unfold timeText at h
  simp only [String.toList_append, List.mem_append] at h
  rcases h with (((h | h) | h) | h) | h
  · exact .inl (padded_digit h)
  · exact .inr (hcolon h)
  · exact .inl (padded_digit h)
  · exact .inr (hcolon h)
  · exact .inl (padded_digit h)

/-- the date, and what stands behind its `T` -/
theorem utcText_parts {y : Int} {m d seconds : Nat} (hy : 0 ≤ y ∧ y ≤ 9999) : ∃ date time,
    (utcText y m d seconds).toList = date ++ 'T' :: time ∧ (∀ c ∈ date, c.isDigit = true ∨ c = '-') ∧
      ∀ c ∈ time, c.isDigit = true ∨ c = ':' ∨ c = 'Z' := by
  have hdash : ∀ {c : Char}, c ∈ "-".toList → c = '-' := fun h => List.mem_singleton.mp h
  have hT : "T".toList = ['T'] := rfl
  refine ⟨(yearText y ++ "-" ++ padded 2 m ++ "-" ++ padded 2 d).toList, (timeText seconds ++ "Z").toList,
    ?_, ?_, ?_⟩
  · unfold utcText
    rw [String.toList_append, String.toList_append, String.toList_append (t := "T"),
      String.toList_append (t := "Z"), List.append_assoc, List.append_assoc, hT, List.singleton_append]
  · intro c hc
    rw [yearText_eq hy] at hc
    simp only [String.toList_append, List.mem_append] at hc
    rcases hc with (((hc | hc) | hc) | hc) | hc
    · exact .inl (padded_digit hc)
    · exact .inr (hdash hc)
    · exact .inl (padded_digit hc)
    · exact .inr (hdash hc)
    · exact .inl (padded_digit hc)
  · intro c hc
    rw [String.toList_append] at hc
    rcases List.mem_append.mp hc with hc | hc
    · exact (timeText_char hc).imp_right .inl
    · exact .inr (.inr (List.mem_singleton.mp hc))

/-- for some thousands of years -/
theorem civil_year {days : Int} (h : 0 ≤ days) (h' : days < 1000000) :
    0 ≤ (civilOfDays days).1 ∧ (civilOfDays days).1 ≤ 9999 := by
  have hdoe : ((days + 719468).fmod 146097).toNat < 146097 := by
    rw [Int.fmod_eq_emod_of_nonneg _ (by decide)]
    omega
  have hera : 0 ≤ (days + 719468).fdiv 146097 ∧ (days + 719468).fdiv 146097 ≤ 20 := by
    rw [Int.fdiv_eq_ediv_of_nonneg _ (by decide)]
    omega
  rw [civilOfDays_eq]
  dsimp only
  generalize ((days + 719468).fmod 146097).toNat = doe at hdoe
  generalize (days + 719468).fdiv 146097 = era at hera
  obtain ⟨hyear, -⟩ := yearOfEra_spec hdoe
  split
  · omega
  · omega

end Calendar
