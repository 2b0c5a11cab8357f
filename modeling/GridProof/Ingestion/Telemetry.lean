import GridProof.Lib.Sha256
import GridProof.Ingestion.GapBounds
import GridProof.Ingestion.Signature
import GridProof.Limiter.RateLimit

/-!
# The telemetry endpoint

`POST /telemetry` up to the store: the evidence mode, the rate limit, the schema, the time of the reading and the
signature, in this order.

* `isValidTelemetrySignature`    the comparison of signatures, which throws where they decode to buffers of
                                 different lengths;
* `checkTelemetry`               the checks behind the rate limit; they read nothing but the call;
* `telemetry`                    the endpoint, with the limiter's counters as its state.
-/

namespace Ingestion
open Pipeline (IsoDate)
open RateLimit (HttpError)

/-! ## the evidence mode -/

inductive EvidenceMode where
  | sensor
  | reporter
  | hybrid
deriving DecidableEq

def EvidenceMode.text : EvidenceMode → String
  | .sensor => "sensor"
  | .reporter => "reporter"
  | .hybrid => "hybrid"

def EvidenceSource.text : EvidenceSource → String
  | .sensor => "sensor"
  | .reporter => "reporter"

def sourceAllowed (mode : EvidenceMode) (source : EvidenceSource) : Bool :=
  mode = .hybrid || mode.text = source.text

section
variable [JsText.Runtime]

/-- `raw` is `GRIDPROOF_EVIDENCE_MODE` -/
def evidenceModeFromEnv (raw : Option String) : Option EvidenceMode :=
  let mode := (raw.map fun text => JsText.toLowerCase (JsText.trim text)).getD ""
  if mode = "" then some .hybrid
  else [EvidenceMode.sensor, .reporter, .hybrid].find? fun m => m.text = mode

def requireEvidenceSource (raw : Option String) (source : EvidenceSource) : Option HttpError :=
  match evidenceModeFromEnv raw with
  | none => some ⟨500, "EVIDENCE_MODE_INVALID",
      "GRIDPROOF_EVIDENCE_MODE must be one of sensor, reporter, or hybrid"⟩
  | some mode =>
    if sourceAllowed mode source then none
    else some ⟨403, "EVIDENCE_SOURCE_DISABLED",
      source.text ++ " ingestion is disabled while GRIDPROOF_EVIDENCE_MODE=" ++ mode.text⟩

end

/-! ## signatures -/

def nibble (c : Char) : Option ℕ :=
  if c.isDigit then some (c.toNat - 48)
  else if 'a' ≤ c ∧ c ≤ 'f' then some (c.toNat - 87)
  else if 'A' ≤ c ∧ c ≤ 'F' then some (c.toNat - 55)
  else none

/-- `Buffer.from(text, "hex")`, which ends before the first pair that is no byte, as documented.  Of a character beyond
U+00FF Node 22 reads the low byte of each UTF-16 unit, so that 64 times U+0131 are 32 bytes there and none here. -/
def bufferFromHex : List Char → List ℕ
  | high :: low :: rest =>
    match nibble high, nibble low with
    | some h, some l => (16 * h + l) :: bufferFromHex rest
    | _, _ => []
  | _ => []

theorem bufferFromHex_cons {high low : Char} {h l : ℕ} (hhigh : nibble high = some h) (hlow : nibble low = some l)
    (rest : List Char) : bufferFromHex (high :: low :: rest) = (16 * h + l) :: bufferFromHex rest := by
  rw [bufferFromHex, hhigh, hlow]

theorem bufferFromHex_stop {high low : Char} (h : ¬ ((nibble high).isSome ∧ (nibble low).isSome))
    (rest : List Char) : bufferFromHex (high :: low :: rest) = [] := by
  rw [bufferFromHex]
  cases hhigh : nibble high with
  | none => rfl
  | some a =>
    cases hlow : nibble low with
    | none => rfl
    | some b => exact absurd ⟨by rw [hhigh]; rfl, by rw [hlow]; rfl⟩ h

/-- two characters a byte -/
theorem bufferFromHex_length_le (text : List Char) : 2 * (bufferFromHex text).length ≤ text.length := by
  induction text using bufferFromHex.induct with
  | case1 high low rest a b ha hb ih =>
    rw [bufferFromHex_cons hb ha]
    simp only [List.length_cons]
    omega
  | case2 high low rest hnone =>
    rw [bufferFromHex_stop]
    · exact Nat.zero_le _
    · rintro ⟨hhigh, hlow⟩
      obtain ⟨a, ha⟩ := Option.isSome_iff_exists.mp hhigh
      obtain ⟨b, hb⟩ := Option.isSome_iff_exists.mp hlow
      exact hnone a b ha hb
  | case3 text hshort =>
    cases text with
    | nil => exact Nat.zero_le _
    | cons high text =>
      cases text with
      | nil => exact Nat.zero_le _
      | cons low rest => exact absurd rfl (hshort high low rest)

/-- `createHmac("sha256", secret).update(text).digest("hex")` -/
def hmacHex (secret text : String) : String := Sha256.hex (Sha256.hmac (Sha256.utf8 secret) (Sha256.utf8 text))

/-- `timingSafeEqual`, which throws for buffers of different lengths -/
def timingSafeEqual (a b : List ℕ) : Option Bool := if a.length = b.length then some (a = b) else none

section
variable [JsText.Runtime]

/-- nothing is returned where the comparison throws -/
def isValidTelemetrySignature (input : TelemetryBody) (secret : String) : Option Bool :=
  let expected := hmacHex secret (signedPayload input)
  let provided := JsText.toLowerCase input.signature
  if JsText.utf16Length provided ≠ JsText.utf16Length expected then some false
  else timingSafeEqual (bufferFromHex provided.toList) (bufferFromHex expected.toList)

end

/-- every digit of a digest is one of these -/
theorem hmacHex_chars {secret text : String} {c : Char} (h : c ∈ (hmacHex secret text).toList) :
    ∃ n : Fin 16, c = Sha256.hexDigit n.val := by
  unfold hmacHex Sha256.hex at h
  rw [String.toList_ofList, List.mem_flatMap] at h
  obtain ⟨b, -, hc⟩ := h
  have hhigh : b.toNat / 16 < 16 := Nat.div_lt_of_lt_mul b.isLt
  have hlow : b.toNat % 16 < 16 := Nat.mod_lt b.toNat (show 0 < 16 by decide)
  rcases List.mem_pair.mp hc with rfl | rfl
  · exact ⟨⟨b.toNat / 16, hhigh⟩, rfl⟩
  · exact ⟨⟨b.toNat % 16, hlow⟩, rfl⟩

theorem hmacHex_length (secret text : String) : (hmacHex secret text).length = 64 := Sha256.hex_length _

theorem hmacHex_utf16Length (secret text : String) : JsText.utf16Length (hmacHex secret text) = 64 := by
  have hunits : ∀ n : Fin 16, (Sha256.hexDigit n.val).toNat < 0x10000 := by decide
  rw [JsText.utf16Length_eq_length, hmacHex_length]
  intro c hc
  obtain ⟨n, rfl⟩ := hmacHex_chars hc
  exact hunits n

theorem asciiLower_hmacHex (secret text : String) : JsText.asciiLower (hmacHex secret text) = hmacHex secret text := by
  have hlower : ∀ n : Fin 16, (Sha256.hexDigit n.val).toLower = Sha256.hexDigit n.val := by decide
  apply String.toList_inj.mp
  unfold JsText.asciiLower
  rw [String.toList_ofList]
  conv_rhs => rw [← List.map_id (hmacHex secret text).toList]
  refine List.map_congr_left fun c hc => ?_
  obtain ⟨n, rfl⟩ := hmacHex_chars hc
  exact hlower n

section
variable [JsText.Runtime] {input : TelemetryBody} {secret : String}

/-- a body is valid with its own digest -/
theorem isValid_own (h : JsText.toLowerCase input.signature = hmacHex secret (signedPayload input)) :
    isValidTelemetrySignature input secret = some true := by
  unfold isValidTelemetrySignature
  rw [h]
  refine (if_neg (not_not_intro rfl)).trans ?_
  unfold timingSafeEqual
  rw [if_pos rfl, decide_eq_true rfl]

/-- the body with its own digest -/
def TelemetryBody.sign (b : TelemetryBody) (secret : String) : TelemetryBody :=
  { b with signature := hmacHex secret (signedPayload b) }

/-- a digest has 64 digits -/
theorem isValid_length (h : JsText.utf16Length (JsText.toLowerCase input.signature) ≠ 64) :
    isValidTelemetrySignature input secret = some false := by
  refine if_pos ?_
  rw [hmacHex_utf16Length]
  exact h

end

theorem isValid_sign (b : TelemetryBody) (secret : String) : letI := JsText.asciiRuntime
    isValidTelemetrySignature (b.sign secret) secret = some true := by
  let _ := JsText.asciiRuntime
  have hpayload : signedPayload (b.sign secret) = signedPayload b := rfl
  apply isValid_own
  rw [hpayload]
  exact asciiLower_hmacHex secret (signedPayload b)

/-! ## calls -/

/-- the body of a call: of the fields and types that the schema asks for, or another one with its `deviceId`, if
that is a text -/
inductive JsonBody where
  | telemetry (input : TelemetryBody)
  | other (deviceId : Option String)

/-- `bodyString(req.body, "deviceId")` -/
def JsonBody.deviceId : JsonBody → Option String
  | .telemetry input => some input.deviceId
  | .other deviceId => deviceId

structure TelemetryCall where
  body : JsonBody
  ip : Option String
  remoteAddress : Option String
  /-- the limiter's readings of the clock, and how its attempt with Redis fares -/
  clock : RateLimit.Clock
  attempt : RateLimit.Attempt
  /-- `Date.now()` in `validateObservedAt` -/
  now : Int

/-- what the limiter reads of a call -/
def TelemetryCall.limited (c : TelemetryCall) : RateLimit.Request where
  limiter := .telemetry
  key := c.body.deviceId
  ip := c.ip
  remoteAddress := c.remoteAddress
  clock := c.clock
  attempt := c.attempt

structure TelemetryEnv where
  zod : Zod
  evidenceMode : Option String
  rateLimit : RateLimit.Env
  window : AcceptanceWindow
  /-- `Date.parse`, absent for a time that is no number -/
  parse : String → Option IsoDate
  /-- `NODE_ENV` is `production` -/
  production : Bool
  /-- `TELEMETRY_HMAC_SECRET`, absent where it is empty -/
  hmacSecret : Option String
  /-- somebody listens for unhandled rejections, which end the process otherwise -/
  rejectionsHandled : Bool

inductive Response where
  | error (e : HttpError)
  /-- the input is handed to `upsertTelemetryEvidence` -/
  | accepted (input : TelemetryBody)
  /-- the handler threw, and the call is never answered -/
  | threw
  /-- the process is not there any more -/
  | down

def Response.isAccepted : Response → Bool
  | .accepted _ => true
  | _ => false

/-! ## the endpoint -/

def validateBody (zod : Zod) : JsonBody → Except HttpError TelemetryBody
  | .telemetry input =>
    if Accepted zod input then .ok input
    else .error ⟨400, "VALIDATION_FAILED", "Request body failed validation"⟩
  | .other _ => .error ⟨400, "VALIDATION_FAILED", "Request body failed validation"⟩

def TelemetryEnv.validateTime (env : TelemetryEnv) (input : TelemetryBody) (now : Int) : Except HttpError Unit :=
  match env.parse input.observedAt with
  | none => .ok ()
  | some observedAt => (validateObservedAt env.window observedAt now).mapError fun e => ⟨400, e.1, e.2⟩

section
variable [JsText.Runtime]

/-- the handler -/
def TelemetryEnv.handle (env : TelemetryEnv) (input : TelemetryBody) : Response :=
  match env.hmacSecret with
  | none =>
    if env.production then .error ⟨500, "TELEMETRY_HMAC_SECRET_REQUIRED",
      "TELEMETRY_HMAC_SECRET must be configured in production before telemetry ingestion is accepted"⟩
    else .accepted input
  | some secret =>
    match isValidTelemetrySignature input secret with
    | none => .threw
    | some false => .error ⟨401, "BAD_SIGNATURE", "Telemetry signature is invalid"⟩
    | some true => .accepted input

/-- what stands behind the rate limit -/
def checkTelemetry (env : TelemetryEnv) (c : TelemetryCall) : Response :=
  match validateBody env.zod c.body with
  | .error e => .error e
  | .ok input =>
    match env.validateTime input c.now with
    | .error e => .error e
    | .ok () => env.handle input

structure Api where
  counters : RateLimit.Counters
  running : Bool

def Api.start : Api := ⟨.empty, true⟩

def telemetry (env : TelemetryEnv) (api : Api) (c : TelemetryCall) : Api × Response :=
  if api.running = false then (api, .down)
  else
    match requireEvidenceSource env.evidenceMode .sensor with
    | some e => (api, .error e)
    | none =>
      let (counters, reply) := RateLimit.rateLimit env.rateLimit api.counters c.limited
      match reply.error with
      | some e => (⟨counters, true⟩, .error e)
      | none =>
        match checkTelemetry env c with
        | .threw => (⟨counters, env.rejectionsHandled⟩, .threw)
        | response => (⟨counters, true⟩, response)

end

end Ingestion
