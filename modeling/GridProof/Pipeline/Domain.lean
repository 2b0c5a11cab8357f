import Mathlib.Data.Rat.Defs
import GridProof.Lib.Calendar

/-!
# Candidates and decisions

The records the pipeline works on, the policy gate's decision on a candidate, and the decision the
agent worker makes of an orchestration result.

A timestamp is a text and the instant it denotes.  Texts are whatever ISO 8601 text the producer
wrote; the database compares instants, the in-memory store sorts by text.  Random ids and clock
readings are arguments.
-/

namespace Pipeline

/-! ## records -/

inductive CandidateStatus where
  | outage
  | restored
deriving DecidableEq

def CandidateStatus.text : CandidateStatus → String
  | .outage => "outage"
  | .restored => "restored"

/-- the value of a decision -/
inductive Verdict where
  | approve
  | escalate
  | reject
deriving DecidableEq

/-- `deterministic-policy-gate` and `ai-evidence-verification-agent` -/
inductive AgentName where
  | policyGate
  | verificationAgent
deriving DecidableEq

/-- an ISO 8601 text and its instant, in microseconds -/
structure IsoDate where
  text : String
  micros : Int
deriving DecidableEq

/-- `new Date(text).getTime()` -/
def IsoDate.getTime (d : IsoDate) : Int := d.micros / 1000

/-- `new Date(ms).toISOString()` -/
def IsoDate.ofMillis (ms : Int) : IsoDate := ⟨Calendar.isoMillis ms, ms * 1000⟩

structure CandidateEvent where
  id : String
  zoneId : String
  status : CandidateStatus
  confidence : ℚ
  windowStart : IsoDate
  windowEnd : IsoDate
  evidenceEventIds : List String
  createdAt : IsoDate
deriving DecidableEq

/-- `AnomalyAnalysisOutput`, the first agent's reply -/
structure Analysis where
  hypothesis : String
  confidence : ℚ
  supportingEvidenceIds : List String
deriving DecidableEq

/-- `VerificationOutput`, the second agent's reply -/
structure Verification where
  decision : Verdict
  finalConfidence : ℚ
  notificationDraft : String
deriving DecidableEq

/-- what a reviewer adds to the trace of a decision -/
structure Review where
  initialDecision : Verdict
  decision : Verdict
  note : String
  reviewedAt : IsoDate
deriving DecidableEq

inductive TraceSource where
  | deterministic (approveAt escalateAt : ℚ) (candidateStatus : CandidateStatus)
  | agentWorker (analysis : Analysis) (verification : Verification)
      (candidateStatus : CandidateStatus)
  | agentWorkerEscalation (reason : String) (candidateStatus : CandidateStatus)
deriving DecidableEq

structure ReasoningTrace where
  source : TraceSource
  review : Option Review
deriving DecidableEq

structure AgentDecision where
  id : String
  candidateEventId : String
  agentName : AgentName
  confidence : ℚ
  decision : Verdict
  hypothesis : String
  supportingEvidenceIds : List String
  notificationDraft : Option String
  reasoningTrace : ReasoningTrace
  createdAt : IsoDate
deriving DecidableEq

structure Simulation where
  runId : String
  initiatedBy : String
  allowChainWrite : Bool
deriving DecidableEq

/-- the job of the agent worker; the evidence and the providers it also carries are read only by
the agents -/
structure AgentReviewJob where
  candidate : CandidateEvent
  simulation : Option Simulation
deriving DecidableEq

/-- `options.simulation && !options.simulation.allowChainWrite` -/
def previewOnly (simulation : Option Simulation) : Bool :=
  simulation.any fun s => !s.allowChainWrite

/-! ## the policy gate -/

/-- `AUTO_APPROVE_THRESHOLD` -/
def autoApproveThreshold : ℚ := 85 / 100

/-- `ESCALATE_THRESHOLD` -/
def escalateThreshold : ℚ := 1 / 2

/-- the rounding of an exact arithmetic -/
def exactly (q : ℚ) : ℚ := q

/-- in an arithmetic that rounds its numbers by `round` -/
def decisionForConfidenceIn (round : ℚ → ℚ) (confidence : ℚ) : Verdict :=
  if round autoApproveThreshold ≤ confidence then .approve
  else if round escalateThreshold ≤ confidence then .escalate
  else .reject

def decisionForConfidence (confidence : ℚ) : Verdict := decisionForConfidenceIn exactly confidence

def hypothesisFor (candidate : CandidateEvent) : Verdict → String
  | .approve => "Candidate " ++ candidate.status.text ++ " passed deterministic confidence threshold."
  | .escalate => "Candidate " ++ candidate.status.text ++
      " is plausible but below auto-approval confidence; reviewer confirmation required."
  | .reject => "Candidate " ++ candidate.status.text ++ " fell below the minimum confidence threshold."

def decisionForCandidate (id : String) (now : IsoDate) (candidate : CandidateEvent) :
    AgentDecision :=
  let decision := decisionForConfidence candidate.confidence
  { id := id
    candidateEventId := candidate.id
    agentName := .policyGate
    confidence := candidate.confidence
    decision := decision
    hypothesis := hypothesisFor candidate decision
    supportingEvidenceIds := candidate.evidenceEventIds
    notificationDraft :=
      if decision = .approve then some "Evidence approved for epoch commitment." else none
    reasoningTrace :=
      ⟨.deterministic autoApproveThreshold escalateThreshold candidate.status, none⟩
    createdAt := now }

/-! ## the agent worker -/

inductive OrchestrationResult where
  | agentDecision (analysis : Analysis) (decision : Verification)
  | escalate (reason : String)
deriving DecidableEq

/-- the end of `orchestrateCandidateReview`, from the replies of the two agents or from the error
that one of them ended with -/
def orchestrateCandidateReview : Except String (Analysis × Verification) → OrchestrationResult
  | .error message => .escalate message
  | .ok (analysis, decision) =>
    if decision.decision = .approve ∧ decision.finalConfidence < 85 / 100 then
      .escalate "Agent attempted low-confidence approval"
    else .agentDecision analysis decision

def agentDecisionFromResult (id : String) (now : IsoDate) (input : AgentReviewJob) :
    OrchestrationResult → AgentDecision
  | .agentDecision analysis decision =>
    { id := id
      candidateEventId := input.candidate.id
      agentName := .verificationAgent
      confidence := decision.finalConfidence
      decision := decision.decision
      hypothesis := analysis.hypothesis
      supportingEvidenceIds :=
        if analysis.supportingEvidenceIds.length > 0 then analysis.supportingEvidenceIds
        else input.candidate.evidenceEventIds
      notificationDraft := some decision.notificationDraft
      reasoningTrace := ⟨.agentWorker analysis decision input.candidate.status, none⟩
      createdAt := now }
  | .escalate reason =>
    { id := id
      candidateEventId := input.candidate.id
      agentName := .verificationAgent
      confidence := input.candidate.confidence
      decision := .escalate
      hypothesis := "Agent worker escalated candidate: " ++ reason
      supportingEvidenceIds := input.candidate.evidenceEventIds
      notificationDraft := some reason
      reasoningTrace := ⟨.agentWorkerEscalation reason input.candidate.status, none⟩
      createdAt := now }

/-- the worker writes only its own row of the job's candidate -/
theorem agentDecisionFromResult_key (id : String) (now : IsoDate) (input : AgentReviewJob)
    (result : OrchestrationResult) :
    (agentDecisionFromResult id now input result).candidateEventId = input.candidate.id ∧
    (agentDecisionFromResult id now input result).agentName = .verificationAgent := by
  cases result with
  | agentDecision analysis decision => exact ⟨rfl, rfl⟩
  | escalate reason => exact ⟨rfl, rfl⟩

end Pipeline
