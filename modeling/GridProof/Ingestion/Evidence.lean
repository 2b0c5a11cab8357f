import GridProof.Lib.JsText
import GridProof.Pipeline.Domain

/-!
# Evidence and the requests that bring it

The evidence events, the three kinds of ingestion requests as their schemas leave them, and the report that
the webhook makes of a message.
-/

namespace Ingestion
open Pipeline (IsoDate)

inductive EvidenceStatus where
  | gridUp
  | gridDown
  | unknown
deriving DecidableEq

def EvidenceStatus.text : EvidenceStatus → String
  | .gridUp => "grid_up"
  | .gridDown => "grid_down"
  | .unknown => "unknown"

inductive EvidenceSource where
  | sensor
  | reporter
deriving DecidableEq

/-- what `rawPayload` holds of a telemetry reading and of a report -/
inductive RawPayload where
  | telemetry (deviceId providerWallet : String) (currentAmps : Option ℚ)
  | report (reporterWallet : String) (note : Option String)
deriving DecidableEq

namespace RawPayload

def deviceId : RawPayload → Option String
  | .telemetry deviceId _ _ => some deviceId
  | .report _ _ => none

def reporterWallet : RawPayload → Option String
  | .telemetry _ _ _ => none
  | .report reporterWallet _ => some reporterWallet

def providerWallet : RawPayload → Option String
  | .telemetry _ providerWallet _ => some providerWallet
  | .report _ _ => none

def currentAmps : RawPayload → Option ℚ
  | .telemetry _ _ currentAmps => currentAmps
  | .report _ _ => none

end RawPayload

structure EvidenceEvent where
  id : String
  providerId : String
  zoneId : String
  idempotencyKey : String
  source : EvidenceSource
  status : EvidenceStatus
  voltage : Option ℚ
  currentAmps : Option ℚ
  confidenceHint : Option ℚ
  rawPayload : RawPayload
  observedAt : IsoDate
  receivedAt : IsoDate
deriving DecidableEq

/-! ## formats -/

def hexDigits : List Char := "0123456789abcdefABCDEF".toList

def isHexDigit (c : Char) : Bool := hexDigits.contains c

/-- the two formats of the schema library that the bodies use, and what it documents of them -/
structure Zod where
  uuid : String → Bool
  /-- with `offset: true` -/
  datetime : String → Bool
  /-- hexadecimal digits and hyphens -/
  uuid_chars : ∀ s, uuid s = true → ∀ c ∈ s.toList, isHexDigit c = true ∨ c = '-'
  /-- a date, `T`, and a time -/
  datetime_parts : ∀ s, datetime s = true →
    ∃ date time, s.toList = date ++ 'T' :: time ∧ '.' ∉ date ∧ 'T' ∉ time

/-! ## requests -/

structure TelemetryIngestRequest where
  deviceId : String
  providerWallet : String
  zoneId : String
  idempotencyKey : String
  observedAt : IsoDate
  status : EvidenceStatus
  voltage : Option ℚ
  currentAmps : Option ℚ
deriving DecidableEq

structure ReporterIngestRequest where
  reporterWallet : String
  zoneId : String
  idempotencyKey : String
  observedAt : IsoDate
  status : EvidenceStatus
  note : Option String
deriving DecidableEq

inductive WebhookSource where
  | whatsappCloud
  | twilio
  | demo
deriving DecidableEq

def WebhookSource.text : WebhookSource → String
  | .whatsappCloud => "whatsapp_cloud"
  | .twilio => "twilio"
  | .demo => "demo"

structure WhatsAppWebhookRequest where
  source : WebhookSource
  messageId : String
  fromPhone : String
  reporterWallet : String
  zoneId : String
  observedAt : Option IsoDate
  text : String
  status : Option EvidenceStatus
deriving DecidableEq

/-! ## messages -/

/-- `\w` -/
def isWordChar (c : Char) : Bool := c.isAlphanum || c = '_'

/-- `\b`, between two neighbours of which either may be an end of the text -/
def boundary (left right : Option Char) : Bool := left.any isWordChar != right.any isWordChar

/-- `\bword\b` at the start of `rest`, where `left` is the character before it -/
def wordAt (word : List Char) (left : Option Char) (rest : List Char) : Bool :=
  word.isPrefixOf rest && boundary left rest.head? &&
    boundary (word.getLast?.or left) (rest.drop word.length).head?

/-- `/\b(words)\b/.test(text)` -/
def containsWord (words : List String) (left : Option Char) : List Char → Bool
  | [] => words.any fun word => wordAt word.toList left []
  | c :: rest => words.any (fun word => wordAt word.toList left (c :: rest)) ||
      containsWord words (some c) rest

def downWords : List String :=
  ["down", "outage", "blackout", "off", "no power", "no light", "no electricity"]

def upWords : List String :=
  ["up", "back", "restored", "light", "lights", "power is on", "electricity is on"]

section
variable [JsText.Runtime]

def inferStatusFromMessage (text : String) : EvidenceStatus :=
  let normalized := (JsText.toLowerCase text).toList
  if containsWord downWords none normalized then .gridDown
  else if containsWord upWords none normalized then .gridUp
  else .unknown

/-- `now` is the clock's reading where the message has no time of its own -/
def reporterInputFromWhatsapp (input : WhatsAppWebhookRequest) (now : IsoDate) :
    ReporterIngestRequest where
  reporterWallet := input.reporterWallet
  zoneId := input.zoneId
  idempotencyKey := "whatsapp:" ++ input.source.text ++ ":" ++ input.messageId
  observedAt := input.observedAt.getD now
  status := input.status.getD (inferStatusFromMessage input.text)
  note := some ("[" ++ input.source.text ++ " " ++ input.fromPhone ++ "] " ++ input.text)

end

/-- a request to one of the three endpoints -/
inductive Request where
  | telemetry (input : TelemetryIngestRequest)
  | report (input : ReporterIngestRequest)
  | webhook (input : WhatsAppWebhookRequest)
deriving DecidableEq

/-! ## formats of the runs that are checked by evaluation -/

/-- the formats on lower case hexadecimal digits and on one time -/
def sampleZod : Zod where
  uuid s := s.toList.all (fun c => isHexDigit c || c = '-') &&
    (s.toList.splitOn '-').map List.length = [8, 4, 4, 4, 12]
  datetime s := s.toList = "2026-01-01T14:00:00.000Z".toList
  uuid_chars s h c hc := by
    rw [Bool.and_eq_true, List.all_eq_true] at h
    have := h.1 c hc
    rwa [Bool.or_eq_true, decide_eq_true_eq] at this
  datetime_parts s h := by
    refine ⟨"2026-01-01".toList, "14:00:00.000Z".toList, ?_, by decide, by decide⟩
    rw [decide_eq_true_eq] at h
    rw [h]
    decide

end Ingestion
