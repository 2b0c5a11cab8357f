import GridProof.Firmware.Payload
import GridProof.Ingestion.Parsing

/-!
# Firmware and server agree on a reading

The body that the firmware builds, read by the server.

* `Uncut`             what the buffers of `buildGridProofPayload` hold is not cut;
* `body_text`         the body is the JSON text of its members;
* `received`          what the server makes of it;
* `signed_received`   the server signs the string that the firmware signed;
* `reading_verified`  so the body of every record is built, parsed and accepted.
-/

namespace Firmware
open Ingestion (Zod TelemetryBody EvidenceStatus Accepted isHexDigit isWalletAddress signedPayload jsonBody
  telemetryFields validateBody isValidTelemetrySignature)
open NumberText (Number)

/-! ## what is configured -/

def isDevEui (s : String) : Bool := s.toList.all isHexDigit && s.toList.length = 16

/-- the identities are those that the schema accepts -/
structure Config.Identities (cfg : Config) (zod : Zod) : Prop where
  devEui : ∀ i, isDevEui (cfg.devEui i) = true
  wallet : ∀ i, isWalletAddress (cfg.providerWallet i) = true
  zone : ∀ i, zod.uuid (cfg.zoneId i) = true
  zoneLength : ∀ i, (cfg.zoneId i).length = 36

/-- `toLowerCase` of an ASCII text -/
def LowersAscii [JsText.Runtime] : Prop :=
  ∀ s : String, (∀ c ∈ s.toList, c.toNat < 128) → JsText.toLowerCase s = JsText.asciiLower s

/-! ## buffers -/

structure Uncut (cfg : Config) (rec : TelemetryRecord) : Prop where
  timestamp : (makeTimestamp rec.timestamp).length < 25
  observedAt : snprintf 25 (makeTimestamp rec.timestamp) = makeTimestamp rec.timestamp
  idempotencyKey : makeIdempotencyKey cfg rec 48 =
    cfg.devEui rec.meterIndex ++ "-" ++ toString rec.timestamp.toNat
  walletLower : copyLowered (cfg.providerWallet rec.meterIndex) 64 =
    JsText.asciiLower (cfg.providerWallet rec.meterIndex)
  voltageStr : 0 ≤ gridproofVoltage rec →
    snprintf 16 (toString (gridproofVoltage rec)) = toString (gridproofVoltage rec)
  signing : (signingString cfg rec).length < 320
  signature : (hmacSha256Hex cfg.hmacSecret (signingString cfg rec)).length < 65
  body : (gridProofBody cfg rec).text.length < 640

theorem snprintf_of_lt {size : Nat} {s : String} (h : s.length < size) : snprintf size s = s := by
  unfold snprintf
  rw [List.take_of_length_le (by rw [String.length_toList]; omega), String.ofList_toList]

theorem copyLowered_of_lt {size : Nat} {s : String} (h : s.length < size) :
    copyLowered s size = JsText.asciiLower s := by
  unfold copyLowered
  rw [List.take_of_length_le (by rw [String.length_toList]; omega)]
  rfl

/-- a timestamp lies in a year of four digits -/
theorem timestamp_year (epoch : BitVec 32) : let days := Int.fdiv (epoch.toNat : Int) 86400
    0 ≤ (Calendar.civilOfDays days).1 ∧ (Calendar.civilOfDays days).1 ≤ 9999 := by
  have hlt := epoch.isLt
  refine Calendar.civil_year ?_ ?_
  · rw [Int.fdiv_eq_ediv_of_nonneg _ (by decide)]
    omega
  · rw [Int.fdiv_eq_ediv_of_nonneg _ (by decide)]
    omega

theorem timestamp_seconds (epoch : BitVec 32) : (Int.fmod (epoch.toNat : Int) 86400).toNat < 86400 := by
  rw [Int.fmod_eq_emod_of_nonneg _ (by decide)]
  omega

theorem makeTimestamp_length (epoch : BitVec 32) : (makeTimestamp epoch).length = 20 := by
  unfold makeTimestamp
  rw [Calendar.isoSeconds_eq]
  exact Calendar.utcText_length (timestamp_year epoch) (Calendar.civil_valid _) (timestamp_seconds epoch)

theorem Config.Identities.fits {cfg : Config} {zod : Zod} (h : cfg.Identities zod) : cfg.Fits := by
  intro i
  have hdev := h.devEui i
  have hwallet := h.wallet i
  unfold isDevEui at hdev
  unfold isWalletAddress at hwallet
  rw [Bool.and_eq_true, decide_eq_true_eq, String.length_toList] at hdev hwallet
  refine ⟨?_, le_of_eq hwallet.2, le_of_eq (h.zoneLength i)⟩
  rw [hdev.2]
  decide

theorem Config.Identities.uncut {cfg : Config} {zod : Zod} (h : cfg.Identities zod) (rec : TelemetryRecord) :
    Uncut cfg rec := by
  obtain ⟨-, hwallet, -⟩ := h.fits rec.meterIndex
  have hdev := h.devEui rec.meterIndex
  unfold isDevEui at hdev
  rw [Bool.and_eq_true, decide_eq_true_eq, String.length_toList] at hdev
  have htime := makeTimestamp_length rec.timestamp
  have hdigits : (toString rec.timestamp.toNat).length ≤ 10 := by
    have hlt := rec.timestamp.isLt
    show (Nat.repr _).length ≤ 10
    rw [Nat.length_repr_le_iff (by decide)]
    omega
  refine ⟨by omega, snprintf_of_lt (by omega), snprintf_of_lt ?_, copyLowered_of_lt (by omega), fun hv => ?_,
    signingString_length_le h.fits rec, ?_, ?_⟩
  · rw [String.length_append, String.length_append, hdev.2]
    show 16 + 1 + _ < 48
    omega
  · have hle := voltage_length_le rec (not_lt.mpr hv)
    exact snprintf_of_lt (by omega)
  · rw [hmacSha256Hex_length]
    decide
  · by_contra hbig
    have hbuilt := buildGridProofPayload_fits h.fits rec
    unfold buildGridProofPayload at hbuilt
    rw [if_neg (Nat.not_le.mpr (signingString_length_le h.fits rec)), if_pos (Nat.le_of_not_lt hbig)] at hbuilt
    cases hbuilt

/-! ## the text of the body -/

def bodyMembers (b : GridProofBody) : List (String × Json.Scalar) :=
  [("deviceId", .text b.deviceId), ("providerWallet", .text b.providerWallet), ("zoneId", .text b.zoneId),
    ("idempotencyKey", .text b.idempotencyKey), ("observedAt", .text b.observedAt),
    ("status", .text b.status.text)] ++
  (b.voltage.map fun v => ("voltage", Json.Scalar.natural v.toNat)).toList ++ [("signature", .text b.signature)]

theorem body_text {b : GridProofBody} (h : ∀ v, b.voltage = some v → 0 ≤ v) :
    b.text.toList = '\x7b' :: Json.printMembers (bodyMembers b) := by
  unfold GridProofBody.text bodyMembers
  cases hv : b.voltage with
  | none => simp [Json.printMembers, Json.printMember, Json.Scalar.print]
  | some v =>
    obtain ⟨n, rfl⟩ := Int.eq_ofNat_of_zero_le (h v hv)
    simp [Json.printMembers, Json.printMember, Json.Scalar.print, NumberText.digits]
    exact Nat.toList_repr

/-! ## its characters -/

/-- an ASCII character that a JSON text holds as it is -/
def Simple (c : Char) : Prop := (c ≠ '"' ∧ c ≠ '\\' ∧ 32 ≤ c.toNat) ∧ c.toNat < 128

instance (c : Char) : Decidable (Simple c) := inferInstanceAs (Decidable ((_ ∧ _ ∧ _) ∧ _))

theorem simple_of_mem {l : List Char} (h : (l.all fun c => Simple c) = true) {c : Char} (hc : c ∈ l) : Simple c :=
  of_decide_eq_true (List.all_eq_true.mp h c hc)

theorem simple_of_digit {c : Char} (h : c.isDigit = true) : Simple c := by
  have hquote : c ≠ '"' := by
    rintro rfl
    cases h
  have hslash : c ≠ '\\' := by
    rintro rfl
    cases h
  unfold Char.isDigit at h
  rw [Bool.and_eq_true, decide_eq_true_eq, decide_eq_true_eq, ge_iff_le, UInt32.le_iff_toNat_le,
    UInt32.le_iff_toNat_le] at h
  have hlow : 48 ≤ c.toNat := h.1
  have hhigh : c.toNat ≤ 57 := h.2
  exact ⟨⟨hquote, hslash, by omega⟩, by omega⟩

theorem simple_of_hex {c : Char} (h : isHexDigit c = true) : Simple c :=
  simple_of_mem (by decide) (List.contains_iff_mem.mp h)

section
variable {cfg : Config} {zod : Zod}

theorem devEui_simple (h : cfg.Identities zod) (i : Fin 2) : ∀ c ∈ (cfg.devEui i).toList, Simple c := by
  have hdev := h.devEui i
  unfold isDevEui at hdev
  rw [Bool.and_eq_true] at hdev
  exact fun c hc => simple_of_hex (List.all_eq_true.mp hdev.1 c hc)

theorem wallet_simple (h : cfg.Identities zod) (i : Fin 2) : ∀ c ∈ (cfg.providerWallet i).toList, Simple c := by
  have hwallet := h.wallet i
  unfold isWalletAddress at hwallet
  rw [Bool.and_eq_true, Bool.and_eq_true, decide_eq_true_eq] at hwallet
  intro c hc
  rw [← List.take_append_drop 2 (cfg.providerWallet i).toList, hwallet.1.1] at hc
  rcases List.mem_append.mp hc with hc | hc
  · exact simple_of_mem (by decide) hc
  · exact simple_of_hex (List.all_eq_true.mp hwallet.1.2 c hc)

theorem zone_simple (h : cfg.Identities zod) (i : Fin 2) : ∀ c ∈ (cfg.zoneId i).toList, Simple c := by
  intro c hc
  rcases zod.uuid_chars _ (h.zone i) c hc with hhex | rfl
  · exact simple_of_hex hhex
  · decide

theorem key_simple (h : cfg.Identities zod) (rec : TelemetryRecord) :
    ∀ c ∈ (makeIdempotencyKey cfg rec 48).toList, Simple c := by
  rw [(h.uncut rec).idempotencyKey]
  intro c hc
  rw [String.toList_append, String.toList_append] at hc
  rcases List.mem_append.mp hc with hc | hc
  · rcases List.mem_append.mp hc with hc | hc
    · exact devEui_simple h _ c hc
    · exact simple_of_mem (by decide) hc
  · have hc : c ∈ Nat.toDigits 10 rec.timestamp.toNat := by
      rw [← Nat.toList_repr]
      exact hc
    exact simple_of_digit (Nat.isDigit_of_mem_toDigits (by decide) (by decide) hc)

theorem timestamp_simple (epoch : BitVec 32) : ∀ c ∈ (makeTimestamp epoch).toList, Simple c := by
  unfold makeTimestamp
  rw [Calendar.isoSeconds_eq]
  obtain ⟨date, time, htext, hdate, htime⟩ := Calendar.utcText_parts (timestamp_year epoch)
  rw [htext]
  intro c hc
  rcases List.mem_append.mp hc with hc | hc
  · rcases hdate c hc with h | rfl
    · exact simple_of_digit h
    · decide
  · rcases List.mem_cons.mp hc with rfl | hc
    · decide
    · rcases htime c hc with h | rfl | rfl
      · exact simple_of_digit h
      · decide
      · decide

theorem status_simple (s : GridStatus) : ∀ c ∈ s.text.toList, Simple c := by
  intro c hc
  cases s with
  | unknown => exact simple_of_mem (by decide) hc
  | gridUp => exact simple_of_mem (by decide) hc
  | gridDown => exact simple_of_mem (by decide) hc

theorem signature_simple (key msg : String) : ∀ c ∈ (hmacSha256Hex key msg).toList, Simple c := by
  intro c hc
  obtain ⟨n, rfl⟩ := Ingestion.hmacHex_chars hc
  have hdigits : ∀ n : Fin 16, Simple (Sha256.hexDigit n.val) := by decide
  exact hdigits n

end

/-! ## what the server receives -/

def evidenceStatus : GridStatus → EvidenceStatus
  | .unknown => .unknown
  | .gridUp => .gridUp
  | .gridDown => .gridDown

theorem evidenceStatus_text (s : GridStatus) : (evidenceStatus s).text = s.text := by
  cases s <;> rfl

theorem statusOf_text (s : GridStatus) : Ingestion.statusOf s.text = some (evidenceStatus s) := by
  cases s <;> decide +kernel

def received (b : GridProofBody) (voltage : Option Number) : TelemetryBody where
  deviceId := b.deviceId
  providerWallet := b.providerWallet
  zoneId := b.zoneId
  idempotencyKey := b.idempotencyKey
  observedAt := b.observedAt
  status := evidenceStatus b.status
  voltage := voltage
  currentAmps := none
  signature := b.signature

def bodyValue (b : GridProofBody) : Json.Value := .object ((bodyMembers b).map fun m => (m.1, m.2.value))

/-- the texts of a body -/
def bodyTexts (b : GridProofBody) : List (String × String) :=
  [("deviceId", b.deviceId), ("providerWallet", b.providerWallet), ("zoneId", b.zoneId),
    ("idempotencyKey", b.idempotencyKey), ("observedAt", b.observedAt), ("status", b.status.text),
    ("signature", b.signature)]

theorem stringField_body (b : GridProofBody) :
    ∀ m ∈ bodyTexts b, Ingestion.stringField (bodyValue b) m.1 = some m.2 := by
  obtain ⟨deviceId, providerWallet, zoneId, idempotencyKey, observedAt, status, voltage, signature⟩ := b
  unfold bodyTexts
  simp only [List.forall_mem_cons]
  cases voltage with
  | none => exact ⟨rfl, rfl, rfl, rfl, rfl, rfl, rfl, List.forall_mem_nil _⟩
  | some v => exact ⟨rfl, rfl, rfl, rfl, rfl, rfl, rfl, List.forall_mem_nil _⟩

theorem optionalNumber_currentAmps (b : GridProofBody) :
    Ingestion.optionalNumber (bodyValue b) "currentAmps" = some none := by
  unfold Ingestion.optionalNumber bodyValue bodyMembers Json.Value.member
  cases b.voltage with
  | none => simp
  | some v => simp

/-- a voltage is received as the double that is written with its digits -/
theorem optionalNumber_voltage {b : GridProofBody} (h : ∀ v, b.voltage = some v → 0 ≤ v ∧ v ≤ 65535) :
    ∃ voltage, Ingestion.optionalNumber (bodyValue b) "voltage" = some voltage ∧
      voltage.map Number.text = b.voltage.map fun v => (toString v).toList := by
  cases hv : b.voltage with
  | none =>
    refine ⟨none, ?_, rfl⟩
    unfold Ingestion.optionalNumber bodyValue bodyMembers Json.Value.member
    rw [hv]
    simp
  | some v =>
    obtain ⟨hnonneg, hle⟩ := h v hv
    obtain ⟨n, rfl⟩ := Int.eq_ofNat_of_zero_le hnonneg
    obtain ⟨a, hread, htext⟩ := NumberText.ofRat_nat (show n < 10 ^ 14 by omega)
    refine ⟨some a, ?_, ?_⟩
    · unfold Ingestion.optionalNumber bodyValue bodyMembers Json.Value.member
      rw [hv]
      simp [Json.Scalar.value, Ingestion.nonnegative, hread]
    · rw [Option.map_some, Option.map_some, htext]
      exact congrArg some Nat.toList_repr.symm

theorem fields_received {b : GridProofBody} {voltage : Option Number}
    (h : Ingestion.optionalNumber (bodyValue b) "voltage" = some voltage) :
    telemetryFields (bodyValue b) = some (received b voltage) := by
  have htexts := stringField_body b
  unfold bodyTexts at htexts
  simp only [List.forall_mem_cons] at htexts
  obtain ⟨hdevice, hwallet, hzone, hkey, htime, hstatus, hsignature, -⟩ := htexts
  unfold telemetryFields
  rw [hdevice, hwallet, hzone, hkey, htime, hstatus, hsignature, h, optionalNumber_currentAmps]
  simp only [Option.bind_eq_bind, Option.bind_some, statusOf_text]
  rfl

/-! ## the string that is signed -/

section
variable {cfg : Config} {zod : Zod}

/-- the voltage of a body is the one that was signed -/
theorem body_voltage (cfg : Config) (rec : TelemetryRecord) :
    ∀ v, (gridProofBody cfg rec).voltage = some v → v = gridproofVoltage rec ∧ 0 ≤ v ∧ v ≤ 65535 := by
  intro v hv
  have hvoltage : (if gridproofVoltage rec < 0 then none else some (gridproofVoltage rec)) = some v := hv
  split at hvoltage
  · cases hvoltage
  · rename_i hneg
    obtain rfl := Option.some.inj hvoltage
    refine ⟨rfl, not_lt.mp hneg, ?_⟩
    unfold gridproofVoltage
    split
    · decide
    · exact reported_le _

/-- **The server signs the string that the firmware signed.** -/
theorem signed_received (h : cfg.Identities zod) (rec : TelemetryRecord) {voltage : Option Number}
    (hvoltage : voltage.map Number.text = (gridProofBody cfg rec).voltage.map fun v => (toString v).toList) :
    signedPayload (received (gridProofBody cfg rec) voltage) = signingString cfg rec := by
  have hcut := h.uncut rec
  have hdot : ".".toList = ['.'] := rfl
  have hnumber : Ingestion.numbers (received (gridProofBody cfg rec) voltage).voltage none =
      (if gridproofVoltage rec < 0 then "" else snprintf 16 (toString (gridproofVoltage rec))).toList := by
    show (voltage.map Number.text).getD [] = _
    rw [hvoltage]
    show ((if gridproofVoltage rec < 0 then none else some (gridproofVoltage rec)).map _).getD [] = _
    split
    · rfl
    · rename_i hneg
      rw [hcut.voltageStr (not_lt.mp hneg)]
      rfl
  apply String.toList_inj.mp
  rw [Ingestion.signedPayload_toList]
  unfold signingString
  simp only [String.toList_append, hdot, List.append_assoc, List.singleton_append]
  rw [← hnumber, hcut.walletLower]
  show _ ++ '.' :: (_ ++ '.' :: (_ ++ '.' :: (_ ++ '.' :: (_ ++ '.' ::
    ((evidenceStatus (gridProofBody cfg rec).status).text.toList ++ _))))) = _
  rw [evidenceStatus_text]
  rfl

/-! ## the reading is accepted -/

theorem received_accepted (h : cfg.Identities zod) (hzod : zod.AcceptsUtc) (rec : TelemetryRecord)
    (voltage : Option Number) : Accepted zod (received (gridProofBody cfg rec) voltage) := by
  have hcut := h.uncut rec
  have hdev := h.devEui rec.meterIndex
  unfold isDevEui at hdev
  rw [Bool.and_eq_true, decide_eq_true_eq, String.length_toList] at hdev
  refine ⟨?_, h.wallet _, h.zone _, ?_, ?_, ?_⟩
  · show 3 ≤ JsText.utf16Length (cfg.devEui rec.meterIndex)
    have hle := JsText.length_le_utf16Length (cfg.devEui rec.meterIndex)
    omega
  · show 12 ≤ JsText.utf16Length (makeIdempotencyKey cfg rec 48)
    rw [hcut.idempotencyKey]
    have hle := JsText.length_le_utf16Length (cfg.devEui rec.meterIndex ++ "-" ++ toString rec.timestamp.toNat)
    rw [String.length_append, String.length_append, hdev.2] at hle
    omega
  · show zod.datetime (snprintf 25 (makeTimestamp rec.timestamp)) = true
    rw [hcut.observedAt]
    unfold makeTimestamp
    rw [Calendar.isoSeconds_eq]
    exact hzod _ _ _ _ (timestamp_year _) (Calendar.civil_valid _) (timestamp_seconds _)
  · show 32 ≤ JsText.utf16Length (hmacSha256Hex cfg.hmacSecret (signingString cfg rec))
    have hlen : JsText.utf16Length (hmacSha256Hex cfg.hmacSecret (signingString cfg rec)) = 64 :=
      Ingestion.hmacHex_utf16Length _ _
    omega

/-- the members of a body are written as they are -/
theorem members_plain (h : cfg.Identities zod) (rec : TelemetryRecord) :
    ∀ m ∈ bodyMembers (gridProofBody cfg rec), Json.Plain m.1 ∧ m.2.Plain := by
  have hplain {s : String} (hs : ∀ c ∈ s.toList, Simple c) : Json.Plain s := fun c hc => (hs c hc).1
  have hname (s : String) (hs : (s.toList.all fun c => Simple c) = true) : Json.Plain s :=
    hplain fun c hc => simple_of_mem hs hc
  have htime : Json.Plain (snprintf 25 (makeTimestamp rec.timestamp)) := by
    rw [(h.uncut rec).observedAt]
    exact hplain (timestamp_simple rec.timestamp)
  intro m hm
  unfold bodyMembers at hm
  rw [List.append_assoc, List.mem_append, List.mem_append, List.mem_singleton, Option.mem_toList] at hm
  simp only [List.mem_cons, List.not_mem_nil, or_false] at hm
  rcases hm with (rfl | rfl | rfl | rfl | rfl | rfl) | hm | rfl
  · exact ⟨hname "deviceId" (by decide), hplain (devEui_simple h _)⟩
  · exact ⟨hname "providerWallet" (by decide), hplain (wallet_simple h _)⟩
  · exact ⟨hname "zoneId" (by decide), hplain (zone_simple h _)⟩
  · exact ⟨hname "idempotencyKey" (by decide), hplain (key_simple h rec)⟩
  · exact ⟨hname "observedAt" (by decide), htime⟩
  · exact ⟨hname "status" (by decide), hplain (status_simple _)⟩
  · obtain ⟨v, -, rfl⟩ := Option.map_eq_some_iff.mp hm
    exact ⟨hname "voltage" (by decide), trivial⟩
  · exact ⟨hname "signature" (by decide), hplain (signature_simple _ _)⟩

/-- the body is built and read, and its signature is the server's -/
def Agrees [JsText.Runtime] (cfg : Config) (zod : Zod) (rec : TelemetryRecord) : Prop :=
  ∃ v input, buildGridProofPayload cfg rec 640 = some (gridProofBody cfg rec) ∧
    Json.parse (gridProofBody cfg rec).text = some v ∧ validateBody zod (jsonBody v) = .ok input ∧
    signedPayload input = signingString cfg rec ∧ isValidTelemetrySignature input cfg.hmacSecret = some true

end

/-- **The body of every record is built uncut, and the server parses and verifies it.** -/
theorem reading_verified [JsText.Runtime] (hlower : LowersAscii) {zod : Zod} (hzod : zod.AcceptsUtc) {cfg : Config}
    (hcfg : cfg.Identities zod) (rec : TelemetryRecord) : Uncut cfg rec ∧ Agrees cfg zod rec := by
  have hvoltages := body_voltage cfg rec
  obtain ⟨voltage, hnumber, htext⟩ := optionalNumber_voltage fun v hv => (hvoltages v hv).2
  have hparse : Json.parse (gridProofBody cfg rec).text = some (bodyValue (gridProofBody cfg rec)) :=
    Json.parse_plain (List.cons_ne_nil _ _) (members_plain hcfg rec) (body_text fun v hv => (hvoltages v hv).2.1)
  have hbody : jsonBody (bodyValue (gridProofBody cfg rec)) =
      .telemetry (received (gridProofBody cfg rec) voltage) := by
    unfold jsonBody
    rw [fields_received hnumber]
  have hsigned := signed_received hcfg rec htext
  refine ⟨hcfg.uncut rec, bodyValue (gridProofBody cfg rec), received (gridProofBody cfg rec) voltage,
    buildGridProofPayload_fits hcfg.fits rec, hparse, ?_, hsigned, Ingestion.isValid_own ?_⟩
  · rw [hbody]
    exact if_pos (received_accepted hcfg hzod rec voltage)
  · rw [hsigned]
    exact (hlower (hmacSha256Hex _ _) fun c hc => (signature_simple _ _ c hc).2).trans
      (Ingestion.asciiLower_hmacHex _ _)

/-- the shipped devices with a provider and a zone -/
def installed : Config where
  devEui := shipped.devEui
  providerWallet := fun _ => "0xF39Fd6e51aad88F6F4ce6aB8827279cffFb92266"
  zoneId := fun _ => "00000000-0000-4000-8000-000000000001"
  hmacSecret := "telemetry-secret"

/-- the last second of the clock -/
def lastSecond : TelemetryRecord := ⟨4294967295, Fin.last 1, 1, .zero⟩

theorem reading_verified_last : letI := JsText.asciiRuntime
    Uncut installed lastSecond ∧ Agrees installed Ingestion.utcZod lastSecond := by
  have hinstalled : installed.Identities Ingestion.utcZod :=
    ⟨by decide +kernel, by decide +kernel, by decide +kernel, by decide +kernel⟩
  let _ := JsText.asciiRuntime
  exact reading_verified (fun _ _ => rfl) Ingestion.utcZod_acceptsUtc hinstalled lastSecond

end Firmware
