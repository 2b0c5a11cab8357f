import GridProof.Firmware.Meter
import GridProof.Lib.Calendar
import GridProof.Lib.Sha256

/-!
# The GridProof body of a record

The GridProof sink of `hardware.ino`: the voltage and the status derived from a record, and the
signed body built from them.  Buffers are kept as the source sizes them: a text that does not fit
is cut, and a body that does not fit is not built.  The texts are those of an ASCII configuration,
so that a character is a byte.
-/

namespace Firmware

open BinaryFloat

/-! ## configuration -/

structure Config where
  devEui : Fin 2 → String
  providerWallet : Fin 2 → String
  zoneId : Fin 2 → String
  hmacSecret : String

/-- the constants as the source ships them -/
def shipped : Config where
  devEui := fun i => if i = 0 then "a84041ed485a0b9f" else "a84041911d5a0b87"
  providerWallet := fun _ => "0x0000000000000000000000000000000000000000"
  zoneId := fun _ => "00000000-0000-0000-0000-000000000000"
  hmacSecret := "REPLACE_WITH_TELEMETRY_HMAC_SECRET"

/-- `GRIDPROOF_DOWN_VOLTAGE_V` -/
def downVoltage : Int := 5

/-! ## voltage and status -/

/-- the value of a `float` -/
def float (x : Binary32) : Value := decode 8 23 x

/-- `lroundf` of a value in range -/
def lroundf : Value → Int
  | .fin q => roundAway q
  | _ => 0

/-- the weakest of the line voltages, compared in the order of the source -/
def lowest (x : Readings) : Value :=
  ((float x.V_L12).lower (float x.V_L23)).lower (float x.V_L31)

/-- the end of `gridproofVoltage`: not a number counts as zero, the rest is cut to 0 .. 65535 -/
def reported (low : Value) : Int :=
  if !low.isNumber then 0
  else if low.lt (.fin 0) then 0
  else if (Value.fin 65535).lt low then 65535
  else lroundf low

/-- -1 where no voltage is to be sent -/
def gridproofVoltage (rec : TelemetryRecord) : Int :=
  if rec.online = 0 then -1 else reported (lowest rec.readings)

theorem reported_le (low : Value) : reported low ≤ 65535 := by
  unfold reported
  split
  · decide
  · split
    · decide
    · split
      · exact le_refl _
      · rename_i hbig
        cases low with
        | nan => decide
        | inf negative =>
          show (0 : Int) ≤ 65535
          decide
        | fin q =>
          have hq : q ≤ 65535 := not_lt.mp fun h => hbig (decide_eq_true h)
          refine (roundAway_le_iff q 65535).mpr ?_
          push_cast
          linarith

inductive GridStatus where
  | unknown
  | gridUp
  | gridDown
deriving DecidableEq

def GridStatus.text : GridStatus → String
  | .unknown => "unknown"
  | .gridUp => "grid_up"
  | .gridDown => "grid_down"

def gridproofStatusFor (rec : TelemetryRecord) : GridStatus :=
  if rec.online = 0 then .unknown
  else if gridproofVoltage rec ≤ downVoltage then .gridDown else .gridUp

/-! ## the body -/

/-- what `snprintf` leaves in a buffer of `size` bytes -/
def snprintf (size : Nat) (s : String) : String := String.ofList (s.toList.take (size - 1))

def makeTimestamp (epoch : BitVec 32) : String := Calendar.isoSeconds epoch.toNat

def makeIdempotencyKey (cfg : Config) (rec : TelemetryRecord) (outSize : Nat) : String :=
  snprintf outSize (cfg.devEui rec.meterIndex ++ "-" ++ toString rec.timestamp.toNat)

def copyLowered (src : String) (dstSize : Nat) : String :=
  String.ofList ((src.toList.take (dstSize - 1)).map Char.toLower)

def hmacSha256Hex (key msg : String) : String :=
  Sha256.hex (Sha256.hmac (Sha256.utf8 key) (Sha256.utf8 msg))

structure GridProofBody where
  deviceId : String
  providerWallet : String
  zoneId : String
  idempotencyKey : String
  observedAt : String
  status : GridStatus
  /-- the field is left out when there is none -/
  voltage : Option Int
  signature : String

/-- the JSON text in the buffer -/
def GridProofBody.text (b : GridProofBody) : String :=
  "\x7b\"deviceId\":\"" ++ b.deviceId ++ "\",\"providerWallet\":\"" ++ b.providerWallet ++
    "\",\"zoneId\":\"" ++ b.zoneId ++ "\",\"idempotencyKey\":\"" ++ b.idempotencyKey ++
    "\",\"observedAt\":\"" ++ b.observedAt ++ "\",\"status\":\"" ++ b.status.text ++ "\"," ++
    (match b.voltage with
      | none => ""
      | some v => "\"voltage\":" ++ toString v ++ ",") ++
    "\"signature\":\"" ++ b.signature ++ "\"\x7d"

/-- the string that is signed; an absent voltage leaves the trailing dot -/
def signingString (cfg : Config) (rec : TelemetryRecord) : String :=
  let voltage := gridproofVoltage rec
  let voltageStr := if voltage < 0 then "" else snprintf 16 (toString voltage)
  cfg.devEui rec.meterIndex ++ "." ++ copyLowered (cfg.providerWallet rec.meterIndex) 64 ++ "." ++
    cfg.zoneId rec.meterIndex ++ "." ++ makeIdempotencyKey cfg rec 48 ++ "." ++
    snprintf 25 (makeTimestamp rec.timestamp) ++ "." ++ (gridproofStatusFor rec).text ++ "." ++
    voltageStr

def gridProofBody (cfg : Config) (rec : TelemetryRecord) : GridProofBody where
  deviceId := cfg.devEui rec.meterIndex
  providerWallet := cfg.providerWallet rec.meterIndex
  zoneId := cfg.zoneId rec.meterIndex
  idempotencyKey := makeIdempotencyKey cfg rec 48
  observedAt := snprintf 25 (makeTimestamp rec.timestamp)
  status := gridproofStatusFor rec
  voltage := if gridproofVoltage rec < 0 then none else some (gridproofVoltage rec)
  signature := hmacSha256Hex cfg.hmacSecret (signingString cfg rec)

/-- `none` where the source refuses because the signing string or the body does not fit -/
def buildGridProofPayload (cfg : Config) (rec : TelemetryRecord) (outSize : Nat) :
    Option GridProofBody :=
  if 320 ≤ (signingString cfg rec).length then none
  else if outSize ≤ (gridProofBody cfg rec).text.length then none
  else some (gridProofBody cfg rec)

/-- the body of one cycle of a meter; `sendRecordGridProof` gives it 640 bytes -/
def cycleBody (cfg : Config) (now : BitVec 32) (meterIndex : Fin 2) (bus : Bus) :
    Option GridProofBody :=
  buildGridProofPayload cfg (captureRecord now meterIndex bus) 640

theorem buildGridProofPayload_eq_some {cfg : Config} {rec : TelemetryRecord} {outSize : Nat}
    {body : GridProofBody} (h : buildGridProofPayload cfg rec outSize = some body) :
    body = gridProofBody cfg rec := by
  unfold buildGridProofPayload at h
  split at h
  · cases h
  · split at h
    · cases h
    · exact (Option.some.inj h).symm

/-! ## everything fits -/

/-- the identities are no longer than a device id, a wallet and a UUID -/
def Config.Fits (cfg : Config) : Prop := ∀ i, (cfg.devEui i).length ≤ 32 ∧
  (cfg.providerWallet i).length ≤ 42 ∧ (cfg.zoneId i).length ≤ 36

theorem shipped_fits : shipped.Fits := by
  unfold Config.Fits
  decide

theorem snprintf_length_le (size : Nat) (s : String) : (snprintf size s).length ≤ size - 1 := by
  unfold snprintf
  rw [String.length_ofList]
  exact List.length_take_le _ _

theorem copyLowered_length_le (src : String) (dstSize : Nat) :
    (copyLowered src dstSize).length ≤ dstSize - 1 := by
  unfold copyLowered
  rw [String.length_ofList, List.length_map]
  exact List.length_take_le _ _

theorem GridStatus.text_length_le (s : GridStatus) : s.text.length ≤ 9 := by
  cases s <;> decide

theorem hmacSha256Hex_length (key msg : String) : (hmacSha256Hex key msg).length = 64 := by
  unfold hmacSha256Hex
  rw [Sha256.hex_length]
  rfl

theorem signingString_length_le {cfg : Config} (hfits : cfg.Fits) (rec : TelemetryRecord) :
    (signingString cfg rec).length < 320 := by
  obtain ⟨hdev, hwallet, hzone⟩ := hfits rec.meterIndex
  have hlow := copyLowered_length_le (cfg.providerWallet rec.meterIndex) 64
  have hkey := snprintf_length_le 48
    (cfg.devEui rec.meterIndex ++ "-" ++ toString rec.timestamp.toNat)
  have htime := snprintf_length_le 25 (makeTimestamp rec.timestamp)
  have hstatus := (gridproofStatusFor rec).text_length_le
  have hvolt : (if gridproofVoltage rec < 0 then ""
      else snprintf 16 (toString (gridproofVoltage rec))).length ≤ 15 := by
    split
    · decide
    · exact snprintf_length_le 16 _
  have hdot : ".".length = 1 := rfl
  unfold signingString makeIdempotencyKey
  simp only [String.length_append, hdot]
  omega

/-- a reported voltage has at most five digits -/
theorem voltage_length_le (rec : TelemetryRecord) (h : ¬ gridproofVoltage rec < 0) :
    (toString (gridproofVoltage rec)).length ≤ 5 := by
  have hle : gridproofVoltage rec ≤ 65535 := by
    unfold gridproofVoltage
    split
    · decide
    · exact reported_le _
  obtain ⟨n, hn⟩ := Int.eq_ofNat_of_zero_le (not_lt.mp h)
  rw [hn] at hle ⊢
  show (Nat.repr n).length ≤ 5
  rw [Nat.length_repr_le_iff (by decide)]
  omega

/-- **With identities of their proper length every record's body is built.** -/
theorem buildGridProofPayload_fits {cfg : Config} (hfits : cfg.Fits) (rec : TelemetryRecord) :
    buildGridProofPayload cfg rec 640 = some (gridProofBody cfg rec) := by
  obtain ⟨hdev, hwallet, hzone⟩ := hfits rec.meterIndex
  have hkey := snprintf_length_le 48
    (cfg.devEui rec.meterIndex ++ "-" ++ toString rec.timestamp.toNat)
  have htime := snprintf_length_le 25 (makeTimestamp rec.timestamp)
  have hstatus := (gridproofStatusFor rec).text_length_le
  have hvolt : (match if gridproofVoltage rec < 0 then none else some (gridproofVoltage rec) with
      | none => ""
      | some v => "\"voltage\":" ++ toString v ++ ",").length ≤ 16 := by
    split
    · decide
    · rename_i v hv
      split at hv
      · cases hv
      · rename_i hneg
        cases hv
        have hdigits := voltage_length_le rec hneg
        rw [String.length_append, String.length_append]
        show 10 + _ + 1 ≤ 16
        omega
  have hbody : (gridProofBody cfg rec).text.length < 640 := by
    unfold GridProofBody.text gridProofBody makeIdempotencyKey
    simp only [String.length_append, hmacSha256Hex_length]
    have hquotes : "\x7b\"deviceId\":\"".length + "\",\"providerWallet\":\"".length +
      "\",\"zoneId\":\"".length + "\",\"idempotencyKey\":\"".length +
      "\",\"observedAt\":\"".length + "\",\"status\":\"".length + "\",".length +
      "\"signature\":\"".length + "\"\x7d".length ≤ 140 := by decide
    omega
  unfold buildGridProofPayload
  rw [if_neg (Nat.not_le.mpr (signingString_length_le hfits rec)), if_neg (Nat.not_le.mpr hbody)]

end Firmware
