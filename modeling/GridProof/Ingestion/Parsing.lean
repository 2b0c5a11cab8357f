import GridProof.Lib.CivilDate
import GridProof.Lib.Json
import GridProof.Lib.NaturalText
import GridProof.Ingestion.Telemetry

/-!
# The body of a telemetry request

The body arrives as a JSON text.  `telemetryIngestRequestSchema` asks for its fields by name and type, and for the
formats of `Accepted`.

* `jsonBody`           what a parsed text is for the endpoint;
* `Zod.AcceptsUtc`     the format of a time takes every second of the calendar;
* `utcZod`             formats that do.
-/

namespace Ingestion
open NumberText (Number toDouble)

/-! ## fields -/

def stringField (v : Json.Value) (name : String) : Option String :=
  match v.member name with
  | some (.string s) => some s
  | _ => none

/-- `evidenceStatusSchema` -/
def statusOf (text : String) : Option EvidenceStatus :=
  [EvidenceStatus.gridUp, .gridDown, .unknown].find? fun status => status.text = text

/-- `z.number().nonnegative()` of the double that the literal denotes; minus zero is not negative -/
def nonnegative (q : ℚ) : Option Number :=
  if 0 ≤ q then Number.ofRat q
  else if toDouble (-q) = some 0 then some .zero
  else none

/-- an optional number: a field that is there is a number, `null` is not -/
def optionalNumber (v : Json.Value) (name : String) : Option (Option Number) :=
  match v.member name with
  | none => some none
  | some (.number q) => (nonnegative q).map some
  | some _ => none

/-- the fields that the schema asks for -/
def telemetryFields (v : Json.Value) : Option TelemetryBody := do
  let deviceId ← stringField v "deviceId"
  let providerWallet ← stringField v "providerWallet"
  let zoneId ← stringField v "zoneId"
  let idempotencyKey ← stringField v "idempotencyKey"
  let observedAt ← stringField v "observedAt"
  let status ← statusOf (← stringField v "status")
  let voltage ← optionalNumber v "voltage"
  let currentAmps ← optionalNumber v "currentAmps"
  let signature ← stringField v "signature"
  return { deviceId, providerWallet, zoneId, idempotencyKey, observedAt, status, voltage, currentAmps, signature }

def jsonBody (v : Json.Value) : JsonBody :=
  match telemetryFields v with
  | some input => .telemetry input
  | none => .other (stringField v "deviceId")

/-! ## formats -/

/-- a second of a day that the calendar has, in UTC -/
def Zod.AcceptsUtc (zod : Zod) : Prop := ∀ y m d seconds, 0 ≤ y ∧ y ≤ 9999 → Calendar.ValidDate y m d →
  seconds < 86400 → zod.datetime (Calendar.utcText y m d seconds) = true

instance (y : Int) (m d : ℕ) : Decidable (Calendar.ValidDate y m d) :=
  decidable_of_iff ((1 ≤ m ∧ m ≤ 12) ∧ 1 ≤ d ∧ d ≤ Calendar.daysInMonth y m)
    ⟨fun h => ⟨h.1, h.2⟩, fun h => ⟨h.month, h.day⟩⟩

/-- a time of day in UTC, without a fraction -/
def IsUtc (s : String) : Prop := ∃ y < 10000, ∃ m < 13, ∃ d < 32, ∃ hour < 24, ∃ minute < 60, ∃ second < 60,
  Calendar.ValidDate (y : ℕ) m d ∧ s = Calendar.utcText (y : ℕ) m d ((hour * 60 + minute) * 60 + second)

instance (s : String) : Decidable (IsUtc s) := inferInstanceAs (Decidable
  (∃ y < 10000, ∃ m < 13, ∃ d < 32, ∃ hour < 24, ∃ minute < 60, ∃ second < 60,
    Calendar.ValidDate (y : ℕ) m d ∧ s = Calendar.utcText (y : ℕ) m d ((hour * 60 + minute) * 60 + second)))

theorem isUtc_utcText {y : ℤ} {m d seconds : ℕ} (hy : 0 ≤ y ∧ y ≤ 9999) (hdate : Calendar.ValidDate y m d)
    (hseconds : seconds < 86400) : IsUtc (Calendar.utcText y m d seconds) := by
  obtain ⟨n, rfl⟩ := Int.eq_ofNat_of_zero_le hy.1
  have hday : d < 32 := by
    have hle := hdate.day.2
    unfold Calendar.daysInMonth at hle
    split at hle
    · split at hle
      · omega
      · omega
    · split at hle
      · omega
      · omega
  have hsplit : (seconds / 3600 * 60 + seconds / 60 % 60) * 60 + seconds % 60 = seconds := by omega
  refine ⟨n, by omega, m, Nat.lt_succ_of_le hdate.month.2, d, hday, seconds / 3600, by omega, seconds / 60 % 60,
    by omega, seconds % 60, by omega, hdate, ?_⟩
  rw [hsplit]

@[irreducible] def utcDatetime (s : String) : Bool := decide (IsUtc s)

theorem utcDatetime_iff (s : String) : utcDatetime s = true ↔ IsUtc s := by
  unfold utcDatetime
  exact decide_eq_true_iff

theorem IsUtc.parts {s : String} (h : IsUtc s) :
    ∃ date time, s.toList = date ++ 'T' :: time ∧ '.' ∉ date ∧ 'T' ∉ time := by
  obtain ⟨y, hy, m, -, d, -, hour, -, minute, -, second, -, -, rfl⟩ := h
  obtain ⟨date, time, htext, hdate, htime⟩ := Calendar.utcText_parts (y := y) (m := m) (d := d) (by omega)
  refine ⟨date, time, htext, ?_, ?_⟩
  · intro hdot
    rcases hdate '.' hdot with h | h
    · cases h
    · exact absurd h (by decide)
  · intro hT
    rcases htime 'T' hT with h | h | h
    · cases h
    · exact absurd h (by decide)
    · exact absurd h (by decide)

/-- zones as in `sampleZod`, and these times -/
def utcZod : Zod where
  uuid := sampleZod.uuid
  datetime := utcDatetime
  uuid_chars := sampleZod.uuid_chars
  datetime_parts s h := ((utcDatetime_iff s).mp h).parts

theorem utcZod_acceptsUtc : utcZod.AcceptsUtc :=
  fun _ _ _ _ hy hdate hseconds => (utcDatetime_iff _).mpr (isUtc_utcText hy hdate hseconds)

end Ingestion
