import GridProof.Demo.Authorization
import GridProof.Ingestion.Unseen

/-!
# Demo runs and restarts

In database mode a run is kept in the process, and an audit row is written from which `databaseRun` builds it again
where the process does not have it.

* `runDemoSimulation`   the reading, its candidate, the decision on it, and the run;
* `getDemoSimulation`   the run, from the process or from the database;
* `Server.restart`      the process forgets its maps;
* `run_forgotten`       what was completed is not found again.

`databaseRun` joins the decision of `evidence-verification-agent`, and no decision on a candidate of the pipeline has
that name.
-/

namespace Demo
open Ingestion (Database Draw DemoScenario EvidenceStatus TelemetryIngestRequest IngestStoreResult readingFor
  telemetryEvidence upsertDatabaseEvidence mapEvidenceRow evidenceRow candidateKeyFor uuid)
open Pipeline (IsoDate AgentName AgentDecision CandidateEvent CandidateRow CandidateStatus TraceSource Verdict
  Commitments EpochStart floorToEpoch)
open RateLimit (HttpError)

/-! ## rows -/

def agentText : AgentName → String
  | .policyGate => "deterministic-policy-gate"
  | .verificationAgent => "ai-evidence-verification-agent"

/-- `reasoningTrace.candidateStatus` -/
def traceStatus : TraceSource → CandidateStatus
  | .deterministic _ _ candidateStatus => candidateStatus
  | .agentWorker _ _ candidateStatus => candidateStatus
  | .agentWorkerEscalation _ candidateStatus => candidateStatus

/-- what a run keeps of a row of `agent_decisions` -/
structure DecisionRow where
  id : String
  candidateEventId : String
  agentName : String
  confidence : ℚ
  decision : Verdict
  hypothesis : String
  candidateStatus : Option CandidateStatus
  createdAt : IsoDate
deriving DecidableEq

def decisionRow (d : AgentDecision) : DecisionRow where
  id := d.id
  candidateEventId := d.candidateEventId
  agentName := agentText d.agentName
  confidence := d.confidence
  decision := d.decision
  hypothesis := d.hypothesis
  candidateStatus := some (traceStatus d.reasoningTrace.source)
  createdAt := d.createdAt

structure Telemetry where
  evidenceId : String
  deviceId : Option String
  status : EvidenceStatus
  voltage : ℚ
  currentAmps : ℚ
  observedAt : IsoDate
deriving DecidableEq

structure DemoRunRecord extends Started where
  evidenceId : String
  candidateId : String
  policyDecision : DecisionRow
  telemetry : Telemetry
  createdAt : IsoDate

/-- `after` of an audit row `demo.simulation_started` -/
structure SimulationStarted where
  runId : String
  initiatedBy : String
  scenario : DemoScenario
  zoneId : String
  evidenceEventId : String
  candidateEventId : String
  chainMode : String
  observationMode : String
  observedAt : IsoDate

/-- the audit rows that are read here -/
inductive AuditLog where
  | simulationStarted (after : SimulationStarted) (createdAt : IsoDate)
  /-- `demo.proof_previewed` -/
  | proofPreviewed (candidateEventId : String)

structure Store where
  database : Database
  /-- the decisions that the seed script wrote -/
  seeded : List DecisionRow
  auditLogs : List AuditLog

/-- the rows of `agent_decisions` -/
def Store.decisions (t : Store) : List DecisionRow :=
  t.seeded ++ t.database.system.db.decisions.rows.map decisionRow

structure Server where
  memoryChallenges : Challenges
  memoryRuns : OrderedMap String DemoRunRecord
  store : Store

def Server.restart (s : Server) : Server := ⟨.empty, .empty, s.store⟩

/-! ## what a client is answered -/

inductive ChainStatus where
  | notRequested
  | preview
  | pending
  | confirmed
  | failed
deriving DecidableEq

structure ChainState where
  mode : String
  status : ChainStatus
  txHash : Option String
  explorerUrl : Option String
deriving DecidableEq

inductive AgentState where
  | complete
  | queued
  | notRequired
deriving DecidableEq

inductive Stage where
  | chainConfirmed
  | chainFailed
  | chainPending
  | proofPreview
  | aiComplete
  | aiQueued
  | telemetryAccepted
deriving DecidableEq

structure DecisionView where
  agentName : String
  decision : Verdict
  confidence : ℚ
  hypothesis : String
  createdAt : IsoDate
deriving DecidableEq

structure CandidateView where
  id : String
  status : CandidateStatus
  confidence : ℚ
deriving DecidableEq

structure DemoSimulation where
  id : String
  initiatedBy : String
  scenario : DemoScenario
  zoneId : String
  createdAt : IsoDate
  stage : Stage
  telemetry : Telemetry
  candidate : CandidateView
  policyDecision : DecisionView
  aiDecision : Option DecisionView
  agentState : AgentState
  chain : ChainState
deriving DecidableEq

def decisionView (decision : DecisionRow) : DecisionView where
  agentName := decision.agentName
  decision := decision.decision
  confidence := decision.confidence
  hypothesis := decision.hypothesis
  createdAt := decision.createdAt

def scenarioCandidate : DemoScenario → CandidateStatus
  | .restoration => .restored
  | _ => .outage

def findAiDecision (t : Store) (candidateId : String) : Option DecisionRow :=
  t.decisions.find? fun d => d.candidateEventId = candidateId ∧ d.agentName = "ai-evidence-verification-agent"

def hasProofPreview (t : Store) (candidateId : String) : Bool :=
  t.auditLogs.any fun
    | .proofPreviewed candidateEventId => candidateEventId = candidateId
    | _ => false

def commitmentStatus : Pipeline.CommitmentStatus → ChainStatus
  | .pending => .pending
  | .confirmed => .confirmed
  | .failed => .failed

/-- the commitment of the score of the candidate's epoch -/
def findCommitment (db : Pipeline.Db) (zoneId candidateId : String) : Option Pipeline.ChainCommitment := do
  let c ← db.candidates.get? candidateId
  if c.event.zoneId ≠ uuid zoneId then none
  let es ← db.epochScores.find? (c.event.zoneId, floorToEpoch c.event.windowEnd)
  db.commitments.find? es.id

def findChainState (t : Store) (zoneId candidateId : String) (allowChainWrite : Bool) : ChainState :=
  if !allowChainWrite then
    ⟨"preview", if hasProofPreview t candidateId then .preview else .notRequested, none, none⟩
  else
    match findCommitment t.database.system.db zoneId candidateId with
    | none => ⟨"live", .notRequested, none, none⟩
    | some row => ⟨"live", commitmentStatus row.status, row.txHash, row.explorerUrl⟩

def stageOf (status : ChainStatus) (agentState : AgentState) : Stage :=
  match status with
  | .confirmed => .chainConfirmed
  | .failed => .chainFailed
  | .pending => .chainPending
  | .preview => .proofPreview
  | .notRequested =>
    match agentState with
    | .complete => .aiComplete
    | .queued => .aiQueued
    | .notRequired => .telemetryAccepted

def simulationFromRun (t : Store) (run : DemoRunRecord) : DemoSimulation :=
  let aiDecision := findAiDecision t run.candidateId
  let chain := findChainState t run.zoneId run.candidateId run.allowChainWrite
  let agentState : AgentState :=
    if run.policyDecision.decision = .escalate then
      if aiDecision.isSome then .complete else .queued
    else .notRequired
  { id := run.id
    initiatedBy := run.initiatedBy
    scenario := run.scenario
    zoneId := run.zoneId
    createdAt := run.createdAt
    stage := stageOf chain.status agentState
    telemetry := run.telemetry
    candidate :=
      { id := run.candidateId
        status :=
          if run.policyDecision.candidateStatus = some .restored then .restored else scenarioCandidate run.scenario
        confidence := run.policyDecision.confidence }
    policyDecision := decisionView run.policyDecision
    aiDecision := aiDecision.map decisionView
    agentState := agentState
    chain := chain }

/-! ## a run of the database -/

def findStarted (t : Store) (id : String) : Option (SimulationStarted × IsoDate) :=
  t.auditLogs.findSome? fun
    | .simulationStarted after createdAt => if after.runId = id then some (after, createdAt) else none
    | _ => none

def databaseRun (t : Store) (id : String) : Option DemoRunRecord := do
  let (after, createdAt) ← findStarted t id
  if after.candidateEventId = "" ∨ after.evidenceEventId = "" ∨ after.zoneId = "" ∨ after.initiatedBy = "" then none
  let e ← t.database.evidence.values.find? fun e => e.id = after.evidenceEventId
  let d ← t.decisions.find? fun d =>
    d.candidateEventId = after.candidateEventId ∧ d.agentName = "evidence-verification-agent"
  return {
    id := id
    initiatedBy := after.initiatedBy
    scenario := after.scenario
    zoneId := after.zoneId
    evidenceId := after.evidenceEventId
    candidateId := after.candidateEventId
    policyDecision := { d with createdAt := d.createdAt.readBack }
    telemetry :=
      { evidenceId := after.evidenceEventId
        deviceId := e.rawPayload.deviceId
        status := e.status
        voltage := e.voltage.getD 0
        currentAmps := e.rawPayload.currentAmps.getD 0
        observedAt := e.observedAt.readBack }
    createdAt := createdAt.readBack
    allowChainWrite := after.chainMode = "live" }

def getDemoSimulation (s : Server) (id : String) : Except HttpError DemoSimulation :=
  match (s.memoryRuns.get? id).or (databaseRun s.store id) with
  | none => .error ⟨404, "DEMO_NOT_FOUND", "Demo simulation not found"⟩
  | some run => .ok (simulationFromRun s.store run)

/-! ## a simulation -/

/-- the 168 epochs that ended last, the last one first -/
def completedEpochs (now : Int) : List EpochStart :=
  (List.range 168).map fun k => floorToEpoch (.ofMillis (now - (k + 1) * Pipeline.epochDurationMs))

def demoObservedAt (db : Pipeline.Db) (zoneId : String) (publishToChain : Bool) (now : Int) :
    Except HttpError IsoDate :=
  if !publishToChain then .ok (.ofMillis now)
  else
    match (completedEpochs now).find? fun epochStart => (db.epochScores.find? (uuid zoneId, epochStart)).isNone with
    | none => .error ⟨409, "DEMO_EPOCH_UNAVAILABLE",
        "No unused completed epoch is available for this feeder's live demo proof"⟩
    | some epochStart => .ok (.ofMillis (epochStart.ms + 30 * 60 * 1000))

/-- what a simulation draws, and what other parts of the system answer to it -/
structure SimulationDraw where
  runId : String
  /-- the clock's readings -/
  now : Int
  createdAt : Int
  observedNow : Int
  auditedAt : Int
  evidence : Draw
  decisionId : String
  decidedAt : IsoDate
  /-- the commitments after `submitPendingCommitments` -/
  submitted : Commitments
  /-- `appendAuditLog` catches the error of its statement -/
  previewLogged : Bool
  startLogged : Bool
  /-- the message of a statement that fails -/
  failure : String

def demoTelemetry (input : DemoSimulationRequest) (runId : String) (observedAt : IsoDate) :
    TelemetryIngestRequest :=
  let (status, voltage, currentAmps) := readingFor input.scenario
  { deviceId := "gridproof-judge-lab-01"
    providerWallet := "0xdE00000000000000000000000000000000000001"
    zoneId := input.zoneId
    idempotencyKey := "judge-demo:" ++ runId
    observedAt := observedAt
    status := status
    voltage := some voltage
    currentAmps := some currentAmps }

def demoRun (input : DemoSimulationRequest) (draw : SimulationDraw) (observedAt : IsoDate)
    (evidenceId candidateId : String) (decision : AgentDecision) : DemoRunRecord :=
  let (status, voltage, currentAmps) := readingFor input.scenario
  { toStarted := startedBy input draw.runId
    evidenceId := evidenceId
    candidateId := candidateId
    policyDecision := decisionRow decision
    telemetry :=
      { evidenceId := evidenceId
        deviceId := some "gridproof-judge-lab-01"
        status := status
        voltage := voltage
        currentAmps := currentAmps
        observedAt := observedAt }
    createdAt := .ofMillis draw.createdAt }

def startedLog (run : DemoRunRecord) : SimulationStarted where
  runId := run.id
  initiatedBy := run.initiatedBy
  scenario := run.scenario
  zoneId := run.zoneId
  evidenceEventId := run.evidenceId
  candidateEventId := run.candidateId
  chainMode := chainMode run.allowChainWrite
  observationMode := if run.allowChainWrite then "completed_epoch_replay" else "current_preview"
  observedAt := run.telemetry.observedAt

/-- the audit rows of a simulation, in the order in which they are written -/
def auditLogsOf (draw : SimulationDraw) (run : DemoRunRecord) : List AuditLog :=
  (if run.policyDecision.decision = .approve && !run.allowChainWrite && draw.previewLogged then
      [.proofPreviewed run.candidateId] else []) ++
    (if draw.startLogged then [.simulationStarted (startedLog run) (.ofMillis draw.auditedAt)] else [])

def orFail {α : Type} (failure : String) : Option α → Except HttpError α
  | none => .error ⟨500, "INTERNAL_ERROR", failure⟩
  | some a => .ok a

section
variable [JsText.Runtime] (ethers : Ethers)

/-- what it leaves where it does not throw -/
def runDemoSimulation (s : Server) (input : DemoSimulationRequest) (draw : SimulationDraw) :
    Except HttpError (Server × DemoSimulation) := do
  let challenges ← consumeChallenge ethers s.memoryChallenges input draw.now
  let observedAt ← demoObservedAt s.store.database.system.db input.zoneId input.publishToChain draw.observedNow
  let telemetry := telemetryEvidence (demoTelemetry input draw.runId observedAt)
  let (database, ingest) := upsertDatabaseEvidence s.store.database telemetry draw.evidence
  let ingest ← orFail draw.failure ingest
  match ingest.candidateEvent with
  | none => .error ⟨500, "DEMO_CANDIDATE_MISSING", "The selected scenario did not produce a candidate event"⟩
  | some candidate =>
    let simulation := ⟨draw.runId, JsText.asciiLower input.walletAddress, input.publishToChain⟩
    let (system, pipeline) ← orFail draw.failure
      (Pipeline.processCandidatePipeline database.system candidate (some simulation) draw.decisionId draw.decidedAt)
    let submits := input.publishToChain && pipeline.commitment.isSome
    let db := if submits then { system.db with commitments := draw.submitted } else system.db
    let run := demoRun input draw observedAt ingest.evidenceEvent.id candidate.id pipeline.decision
    let store : Store :=
      { database := { database with system := { system with db := db } }
        seeded := s.store.seeded
        auditLogs := s.store.auditLogs ++ auditLogsOf draw run }
    return (⟨challenges, s.memoryRuns.set run.id run, store⟩, simulationFromRun store run)

end

end Demo
