import GridProof.Detection.Rules

/-!
# The in-memory evidence store

The two maps that ingestion keeps when no database is configured, and the functions that fill them.  Random
ids and the clock's reading are drawn for each request.
-/

namespace Ingestion
open Pipeline (IsoDate CandidateEvent)

/-- what a request draws: random ids, the clock, and the order in which the database keeps rows -/
structure Draw where
  evidenceId : String
  /-- in database mode, the id of the provider's row -/
  providerId : String
  candidateId : String
  now : IsoDate
  rank : EvidenceEvent → ℕ

structure IngestStoreResult where
  duplicate : Bool
  evidenceEvent : EvidenceEvent
  candidateEvent : Option CandidateEvent

def candidateKeyFor (evidenceEvent : EvidenceEvent) : String :=
  evidenceEvent.zoneId ++ ":" ++ evidenceEvent.status.text ++ ":" ++ evidenceEvent.idempotencyKey

/-! ## the maps -/

structure Memory where
  evidenceByIdempotencyKey : OrderedMap String EvidenceEvent
  candidatesByKey : OrderedMap String CandidateEvent

def Memory.empty : Memory := ⟨.empty, .empty⟩

def listMemoryEvidence (m : Memory) (zoneId : String) : List EvidenceEvent :=
  m.evidenceByIdempotencyKey.values.filter fun event => event.zoneId = zoneId

def findMemoryCandidate (m : Memory) (evidenceEvent : EvidenceEvent) : Option CandidateEvent :=
  m.candidatesByKey.get? (candidateKeyFor evidenceEvent)

section
variable [JsText.Runtime]

def storeMemoryCandidate (m : Memory) (evidenceEvent : EvidenceEvent) (draw : Draw) :
    Memory × Option CandidateEvent :=
  match Detection.detectCandidateFromEvidence evidenceEvent
    (listMemoryEvidence m evidenceEvent.zoneId) draw.candidateId draw.now with
  | none => (m, none)
  | some candidate =>
    ({ m with candidatesByKey := m.candidatesByKey.set (candidateKeyFor evidenceEvent) candidate },
      some candidate)

/-- the part that both kinds of evidence share; `evidenceEvent` is what the request would store -/
def upsertMemoryEvidence (m : Memory) (evidenceEvent : EvidenceEvent) (draw : Draw) :
    Memory × IngestStoreResult :=
  match m.evidenceByIdempotencyKey.get? evidenceEvent.idempotencyKey with
  | some existing => (m, ⟨true, existing, findMemoryCandidate m existing⟩)
  | none =>
    let evidence := m.evidenceByIdempotencyKey.set evidenceEvent.idempotencyKey evidenceEvent
    let (m, candidateEvent) := storeMemoryCandidate { m with evidenceByIdempotencyKey := evidence }
      evidenceEvent draw
    (m, ⟨false, evidenceEvent, candidateEvent⟩)

def telemetryEvent (input : TelemetryIngestRequest) (draw : Draw) : EvidenceEvent where
  id := draw.evidenceId
  providerId := draw.providerId
  zoneId := input.zoneId
  idempotencyKey := input.idempotencyKey
  source := .sensor
  status := input.status
  voltage := input.voltage
  currentAmps := input.currentAmps
  confidenceHint := none
  rawPayload := .telemetry input.deviceId input.providerWallet input.currentAmps
  observedAt := input.observedAt
  receivedAt := draw.now

def reporterEvent (input : ReporterIngestRequest) (draw : Draw) : EvidenceEvent where
  id := draw.evidenceId
  providerId := draw.providerId
  zoneId := input.zoneId
  idempotencyKey := input.idempotencyKey
  source := .reporter
  status := input.status
  voltage := none
  currentAmps := none
  confidenceHint := none
  rawPayload := .report input.reporterWallet input.note
  observedAt := input.observedAt
  receivedAt := draw.now

/-- the memory branch of `upsertTelemetryEvidence` -/
def upsertTelemetryEvidence (m : Memory) (input : TelemetryIngestRequest) (draw : Draw) :
    Memory × IngestStoreResult :=
  upsertMemoryEvidence m (telemetryEvent input draw) draw

/-- the memory branch of `upsertReporterEvidence` -/
def upsertReporterEvidence (m : Memory) (input : ReporterIngestRequest) (draw : Draw) :
    Memory × IngestStoreResult :=
  upsertMemoryEvidence m (reporterEvent input draw) draw

end

end Ingestion
