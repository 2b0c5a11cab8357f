import GridProof.Pipeline.Operations
import GridProof.Ingestion.Store

/-!
# The evidence tables

The statements that ingestion sends to the database, one function each, and `upsertDatabaseEvidence`, which
sends them in a row.  A statement that fails is `none`, and what was stored before it stays.

A column of type `uuid` holds the lower case of its text, and a timestamp is read back in milliseconds.  The
rows of zones and providers that a request makes sure of are not kept: nothing here reads them but the
provider's id.
-/

namespace Ingestion
open Pipeline (IsoDate CandidateEvent CandidateRow)

/-- the text of a `uuid` column -/
def uuid (s : String) : String := JsText.asciiLower s

/-- `evidence_events` by `idempotency_key`, and the tables and the queue of the pipeline -/
structure Database where
  evidence : OrderedMap String EvidenceEvent
  system : Pipeline.System

def Database.empty : Database := ⟨.empty, .empty⟩

/-- the argument of `upsertDatabaseEvidence` -/
structure DatabaseEvidence where
  zoneId : String
  source : EvidenceSource
  idempotencyKey : String
  status : EvidenceStatus
  voltage : Option ℚ
  rawPayload : RawPayload
  observedAt : IsoDate

/-- the database branch of `upsertTelemetryEvidence` -/
def telemetryEvidence (input : TelemetryIngestRequest) : DatabaseEvidence where
  zoneId := input.zoneId
  source := .sensor
  idempotencyKey := input.idempotencyKey
  status := input.status
  voltage := input.voltage
  rawPayload := .telemetry input.deviceId input.providerWallet input.currentAmps
  observedAt := input.observedAt

/-- the database branch of `upsertReporterEvidence` -/
def reporterEvidence (input : ReporterIngestRequest) : DatabaseEvidence where
  zoneId := input.zoneId
  source := .reporter
  idempotencyKey := input.idempotencyKey
  status := input.status
  voltage := none
  rawPayload := .report input.reporterWallet input.note
  observedAt := input.observedAt

/-! ## statements -/

/-- the row of an evidence event; its current is in the raw payload -/
def evidenceRow (input : DatabaseEvidence) (draw : Draw) : EvidenceEvent where
  id := draw.evidenceId
  providerId := draw.providerId
  zoneId := uuid input.zoneId
  idempotencyKey := input.idempotencyKey
  source := input.source
  status := input.status
  voltage := input.voltage
  currentAmps := none
  confidenceHint := none
  rawPayload := input.rawPayload
  observedAt := input.observedAt
  receivedAt := draw.now

def mapEvidenceRow (row : EvidenceEvent) : EvidenceEvent :=
  { row with
    currentAmps := row.rawPayload.currentAmps.filter fun value => 0 ≤ value
    observedAt := row.observedAt.readBack
    receivedAt := row.receivedAt.readBack }

/-- `insert .. on conflict (idempotency_key) do nothing`, with whether a row was inserted -/
def insertEvidence (d : Database) (row : EvidenceEvent) : Database × Bool :=
  match d.evidence.get? row.idempotencyKey with
  | some _ => (d, false)
  | none => ({ d with evidence := d.evidence.set row.idempotencyKey row }, true)

def findEvidenceByIdempotencyKey (d : Database) (idempotencyKey : String) : Option EvidenceEvent :=
  (d.evidence.get? idempotencyKey).map mapEvidenceRow

/-- `order by observed_at desc`; rows of one instant come as they are kept -/
def newestFirst (rank : EvidenceEvent → ℕ) (a b : EvidenceEvent) : Prop :=
  b.observedAt.micros < a.observedAt.micros ∨
    a.observedAt.micros = b.observedAt.micros ∧ rank a ≤ rank b

instance (rank : EvidenceEvent → ℕ) : DecidableRel (newestFirst rank) :=
  fun _ _ => inferInstanceAs (Decidable (_ ∨ _))

/-- the `where` of the query of recent evidence -/
def inWindow (evidenceEvent row : EvidenceEvent) : Bool :=
  row.zoneId = evidenceEvent.zoneId && row.id ≠ evidenceEvent.id &&
    evidenceEvent.observedAt.micros - Detection.agreementWindowMs * 1000 ≤ row.observedAt.micros &&
    row.observedAt.micros ≤ evidenceEvent.observedAt.micros + Detection.agreementWindowMs * 1000

def findRecentZoneEvidence (d : Database) (evidenceEvent : EvidenceEvent)
    (rank : EvidenceEvent → ℕ) : List EvidenceEvent :=
  (((d.evidence.values.filter (inWindow evidenceEvent)).insertionSort (newestFirst rank)).take 50).map
    mapEvidenceRow

/-- `insert .. on conflict (candidate_key) do nothing`, with whether a row was inserted -/
def insertCandidate (d : Database) (row : CandidateRow) : Option (Database × Bool) :=
  match d.system.db.candidates.find? row.candidateKey with
  | some _ => some (d, false)
  | none => (d.system.db.candidates.insert row).map fun candidates =>
      ({ d with system := { d.system with db := { d.system.db with candidates := candidates } } }, true)

def findDatabaseCandidate (d : Database) (evidenceEvent : EvidenceEvent) : Option CandidateEvent :=
  (d.system.db.candidates.find? (candidateKeyFor evidenceEvent)).map fun row => row.event.readBack

/-! ## the statements in a row -/

section
variable [JsText.Runtime]

/-- `none` if a statement fails -/
def storeDatabaseCandidate (d : Database) (evidenceEvent : EvidenceEvent) (draw : Draw) :
    Database × Option (Option CandidateEvent) :=
  match Detection.detectCandidateFromEvidence evidenceEvent
    (findRecentZoneEvidence d evidenceEvent draw.rank) draw.candidateId draw.now with
  | none => (d, some none)
  | some candidate =>
    match insertCandidate d ⟨candidateKeyFor evidenceEvent, candidate⟩ with
    | none => (d, none)
    | some (d, _) => (d, some (findDatabaseCandidate d evidenceEvent))

def upsertDatabaseEvidence (d : Database) (input : DatabaseEvidence) (draw : Draw) :
    Database × Option IngestStoreResult :=
  let (d, inserted) := insertEvidence d (evidenceRow input draw)
  match findEvidenceByIdempotencyKey d input.idempotencyKey with
  | none => (d, none)
  | some evidenceEvent =>
    if inserted then
      let (d, candidateEvent) := storeDatabaseCandidate d evidenceEvent draw
      (d, candidateEvent.map fun candidateEvent => ⟨false, evidenceEvent, candidateEvent⟩)
    else (d, some ⟨true, evidenceEvent, findDatabaseCandidate d evidenceEvent⟩)

/-- the key is there: nothing is written -/
theorem upsertDatabaseEvidence_taken {d : Database} {input : DatabaseEvidence} {draw : Draw}
    {row : EvidenceEvent} (h : d.evidence.get? input.idempotencyKey = some row) : upsertDatabaseEvidence d input draw =
      (d, some ⟨true, mapEvidenceRow row, findDatabaseCandidate d (mapEvidenceRow row)⟩) := by
  have hinsert : insertEvidence d (evidenceRow input draw) = (d, false) := by
    unfold insertEvidence
    rw [show (evidenceRow input draw).idempotencyKey = input.idempotencyKey from rfl, h]
  unfold upsertDatabaseEvidence
  rw [hinsert]
  dsimp only
  unfold findEvidenceByIdempotencyKey
  rw [h]
  rfl

/-- the key is new: the row is written, and what its candidate makes of it follows -/
theorem upsertDatabaseEvidence_new {d : Database} {input : DatabaseEvidence} {draw : Draw}
    (h : d.evidence.get? input.idempotencyKey = none) : upsertDatabaseEvidence d input draw =
      ((storeDatabaseCandidate { d with evidence := d.evidence.set input.idempotencyKey (evidenceRow input draw) }
        (mapEvidenceRow (evidenceRow input draw)) draw).1,
      (storeDatabaseCandidate { d with evidence := d.evidence.set input.idempotencyKey (evidenceRow input draw) }
        (mapEvidenceRow (evidenceRow input draw)) draw).2.map
          fun c => ⟨false, mapEvidenceRow (evidenceRow input draw), c⟩) := by
  have hinsert : insertEvidence d (evidenceRow input draw) =
      ({ d with evidence := d.evidence.set input.idempotencyKey (evidenceRow input draw) }, true) := by
    unfold insertEvidence
    rw [show (evidenceRow input draw).idempotencyKey = input.idempotencyKey from rfl, h]
  unfold upsertDatabaseEvidence
  rw [hinsert]
  dsimp only
  unfold findEvidenceByIdempotencyKey
  rw [OrderedMap.get?_set_self]
  rfl

end

end Ingestion
