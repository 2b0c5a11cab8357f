/-!
# Civil dates of an instant

The proleptic Gregorian date and the time of day of an instant in UTC, and their ISO 8601 text.

* `civilOfDays`   year, month and day of a count of days from 1970-01-01;
* `isoSeconds`    `YYYY-MM-DDThh:mm:ssZ` of a count of seconds;
* `isoMillis`     `YYYY-MM-DDThh:mm:ss.sssZ` of a count of milliseconds;
* `readMicros`    the instant of such a text in microseconds, also with an offset or another number of decimals.

Years are counted from March, so that the leap day is the last of its year and the days before
each month are a linear function of the month.
-/

namespace Calendar

def civilOfDays (days : Int) : Int × Nat × Nat :=
  let z := days + 719468
  let era := z.fdiv 146097
  let doe := (z.fmod 146097).toNat
  let yoe := (doe - doe / 1460 + doe / 36524 - doe / 146096) / 365
  let doy := doe - (365 * yoe + yoe / 4 - yoe / 100)
  let mp := (5 * doy + 2) / 153
  let day := doy - (153 * mp + 2) / 5 + 1
  let month := if mp < 10 then mp + 3 else mp - 9
  (era * 400 + yoe + (if month ≤ 2 then 1 else 0), month, day)

/-- the decimal digits of `n`, with zeros in front up to the width -/
def padded (width n : Nat) : String :=
  let digits := (toString n).toList
  String.ofList (List.replicate (width - digits.length) '0' ++ digits)

/-- four digits, or a sign and six outside 0 to 9999 -/
def yearText (y : Int) : String :=
  if 0 ≤ y ∧ y ≤ 9999 then padded 4 y.toNat
  else (if y < 0 then "-" else "+") ++ padded 6 y.natAbs

def dateText (days : Int) : String :=
  let (y, m, d) := civilOfDays days
  yearText y ++ "-" ++ padded 2 m ++ "-" ++ padded 2 d

def timeText (seconds : Nat) : String :=
  padded 2 (seconds / 3600) ++ ":" ++ padded 2 (seconds / 60 % 60) ++ ":" ++ padded 2 (seconds % 60)

def isoSeconds (seconds : Int) : String :=
  dateText (seconds.fdiv 86400) ++ "T" ++ timeText (seconds.fmod 86400).toNat ++ "Z"

def isoMillis (millis : Int) : String :=
  dateText (millis.fdiv 86400000) ++ "T" ++ timeText ((millis.fmod 86400000).toNat / 1000) ++ "." ++
    padded 3 ((millis.fmod 1000).toNat) ++ "Z"

example : isoSeconds 1700000000 = "2023-11-14T22:13:20Z" := by decide +kernel

example : isoMillis (-1) = "1969-12-31T23:59:59.999Z" := by decide +kernel

/-! ## reading a text -/

def daysOfCivil (year month day : Int) : Int :=
  let y := if month ≤ 2 then year - 1 else year
  let era := y.fdiv 400
  let yoe := y - era * 400
  let doy := (153 * ((month + 9) % 12) + 2) / 5 + day - 1
  era * 146097 + (yoe * 365 + yoe / 4 - yoe / 100 + doy) - 719468

/-- `YYYY-MM-DDThh:mm:ss`, up to six decimals behind a point, and `Z` or an offset `+hh:mm` -/
def readMicros (text : String) : Int :=
  let cs := text.toList
  let number (i n : Nat) : Int := Nat.ofDigitChars 10 ((cs.drop i).take n) 0
  let fraction := (cs.drop 19).takeWhile fun c => c = '.' || c.isDigit
  let zone := (cs.drop 19).dropWhile fun c => c = '.' || c.isDigit
  let offset : Int :=
    match zone with
    | sign :: h₁ :: h₂ :: _ :: m₁ :: m₂ :: _ =>
      (if sign = '-' then -1 else 1) *
        (Nat.ofDigitChars 10 [h₁, h₂] 0 * 60 + Nat.ofDigitChars 10 [m₁, m₂] 0 : Nat)
    | _ => 0
  let minutes := daysOfCivil (number 0 4) (number 5 2) (number 8 2) * 1440 + number 11 2 * 60 + number 14 2
  ((minutes - offset) * 60 + number 17 2) * 1000000 +
    Nat.ofDigitChars 10 ((fraction.drop 1 ++ List.replicate 6 '0').take 6) 0

example : readMicros "2023-11-14T22:13:20Z" = 1700000000000000 := by decide +kernel

example : readMicros "2023-11-14T17:43:20.25-04:30" = 1700000000250000 := by decide +kernel

end Calendar
