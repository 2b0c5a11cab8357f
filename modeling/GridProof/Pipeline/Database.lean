import Mathlib.Data.List.Sort
import GridProof.Lib.Table
import GridProof.Pipeline.Scoring

/-!
# The database

The tables of the pipeline with their unique columns, and the statements the API and the agent
worker send, one function each.  A statement that fails is `none`.

A row of `epoch_scores` also records the votes it was computed from (`counted`); no statement
reads them.  Foreign keys are checked where a statement could miss its row.
-/

namespace Pipeline

/-! ## tables -/

structure Zone where
  id : String
  zoneKey : String
deriving DecidableEq

structure CandidateRow where
  candidateKey : String
  event : CandidateEvent
deriving DecidableEq

abbrev CandidateRow.id (r : CandidateRow) : String := r.event.id

abbrev AgentDecision.key (d : AgentDecision) : String × AgentName := (d.candidateEventId, d.agentName)

structure ScoreRow extends EpochScore where
  counted : List Vote
  valid : uptimeBps = Pipeline.uptimeBps counted ∧
    evidenceHash = Pipeline.evidenceHash zoneId epochStart counted

abbrev ScoreRow.key (r : ScoreRow) : String × EpochStart := (r.zoneId, r.epochStart)

inductive CommitmentStatus where
  | pending
  | confirmed
  | failed
deriving DecidableEq

structure ChainCommitment where
  id : String
  epochScoreId : String
  txHash : Option String
  blockNumber : Option Nat
  status : CommitmentStatus
  explorerUrl : Option String
  createdAt : IsoDate
  confirmedAt : Option IsoDate
deriving DecidableEq

abbrev Zones := Table Zone Zone.id Zone.zoneKey
abbrev Candidates := Table CandidateRow CandidateRow.id CandidateRow.candidateKey
abbrev Decisions := Table AgentDecision AgentDecision.id AgentDecision.key
abbrev EpochScores := Table ScoreRow (fun r => r.id) ScoreRow.key
abbrev Commitments := Table ChainCommitment ChainCommitment.id ChainCommitment.epochScoreId

structure Db where
  zones : Zones
  candidates : Candidates
  decisions : Decisions
  epochScores : EpochScores
  commitments : Commitments

def Db.empty : Db := ⟨.empty, .empty, .empty, .empty, .empty⟩

/-! ## decisions -/

/-- the `do update` of the two decision upserts -/
def AgentDecision.overwrite (excluded old : AgentDecision) : AgentDecision :=
  { old with
    confidence := excluded.confidence
    decision := excluded.decision
    hypothesis := excluded.hypothesis
    supportingEvidenceIds := excluded.supportingEvidenceIds
    notificationDraft := excluded.notificationDraft
    reasoningTrace := excluded.reasoningTrace }

/-- the decision upsert of the API and of the worker -/
def upsertDatabaseDecision (db : Db) (decision : AgentDecision) : Option (Db × AgentDecision) :=
  if decision.candidateEventId ∉ db.candidates.rows.map CandidateRow.id then none
  else
    (db.decisions.upsert decision decision.overwrite (fun _ => rfl) (fun _ => rfl)).map
      fun decisions => ({ db with decisions := decisions }, db.decisions.stored decision decision.overwrite)

inductive ReviewDecision where
  | approve
  | reject
deriving DecidableEq

def ReviewDecision.verdict : ReviewDecision → Verdict
  | .approve => .approve
  | .reject => .reject

/-- the `set` clause of a review; `initialDecision` was read by an earlier statement -/
def AgentDecision.reviewed (initialDecision : Verdict) (reviewDecision : ReviewDecision)
    (note : String) (reviewedAt : IsoDate) (old : AgentDecision) : AgentDecision :=
  { old with
    decision := reviewDecision.verdict
    hypothesis := old.hypothesis ++ " Reviewer note: " ++ note
    notificationDraft := some note
    reasoningTrace := { old.reasoningTrace with
      review := some ⟨initialDecision, reviewDecision.verdict, note, reviewedAt⟩ } }

/-- the two decision statements of `resolveReviewDecision` -/
def updateReview (db : Db) (decisionId : String) (reviewDecision : ReviewDecision)
    (note : String) (reviewedAt : IsoDate) : Option (Db × AgentDecision) :=
  (db.decisions.get? decisionId).map fun before =>
    let reviewed := AgentDecision.reviewed before.decision reviewDecision note reviewedAt
    let decisions := db.decisions.update (fun d => d.id = decisionId) reviewed (fun _ => rfl)
      (fun _ => rfl)
    ({ db with decisions := decisions }, reviewed before)

/-! ## epoch scores -/

/-- `order by c.window_end asc, c.id asc` -/
def windowOrder (a b : CandidateEvent) : Prop :=
  a.windowEnd.micros < b.windowEnd.micros ∨ a.windowEnd.micros = b.windowEnd.micros ∧ a.id ≤ b.id

instance : DecidableRel windowOrder := fun _ _ => inferInstanceAs (Decidable (_ ∨ _))

/-- the decisions that join with a candidate in the query of a recompute -/
def Db.approvals (db : Db) (candidateId : String) : List AgentDecision :=
  db.decisions.rows.filter fun d => d.candidateEventId = candidateId ∧ d.decision = .approve

/-- the candidate is of the zone and its window ends in the epoch -/
def CandidateEvent.inEpoch (c : CandidateEvent) (zoneId : String) (epochStart : EpochStart) : Bool :=
  c.zoneId = zoneId && epochStart.contains c.windowEnd

/-- the query of a recompute: one row for each approving decision of each candidate -/
def selectApproved (db : Db) (zoneId : String) (epochStart : EpochStart) : List CandidateEvent :=
  ((db.candidates.rows.filter fun c => c.event.inEpoch zoneId epochStart).flatMap fun c =>
    (db.approvals c.id).map fun _ => c.event).insertionSort windowOrder

/-- a score with the votes it was computed from -/
def ScoreRow.ofVotes (zoneId : String) (epochStart : EpochStart) (votes : List Vote) : ScoreRow where
  toEpochScore := epochScoreForApprovedCandidates zoneId epochStart votes
  counted := votes
  valid := ⟨rfl, rfl⟩

/-- the `do update` of the score upsert; the row in conflict has the key of the new one -/
def ScoreRow.overwrite (excluded old : ScoreRow) : ScoreRow :=
  if h : old.key = excluded.key then
    { old with
      uptimeBps := excluded.uptimeBps
      evidenceHash := excluded.evidenceHash
      counted := excluded.counted
      valid := by
        obtain ⟨hzone, hstart⟩ := Prod.mk.inj h
        rw [hzone, hstart]
        exact excluded.valid }
  else old

theorem ScoreRow.overwrite_id (excluded old : ScoreRow) : (excluded.overwrite old).id = old.id := by
  unfold ScoreRow.overwrite
  split
  · rfl
  · rfl

theorem ScoreRow.overwrite_key (excluded old : ScoreRow) :
    (excluded.overwrite old).key = old.key := by
  unfold ScoreRow.overwrite
  split
  · rfl
  · rfl

theorem ScoreRow.overwrite_counted {excluded old : ScoreRow} (h : old.key = excluded.key) :
    (excluded.overwrite old).counted = excluded.counted := by
  unfold ScoreRow.overwrite
  rw [dif_pos h]

/-- the score upsert of the API and of the worker -/
def upsertEpochScore (db : Db) (row : ScoreRow) : Option (Db × EpochScore) :=
  (db.epochScores.upsert row row.overwrite row.overwrite_id row.overwrite_key).map
    fun epochScores => ({ db with epochScores := epochScores }, (db.epochScores.stored row row.overwrite).toEpochScore)

def recomputeDatabaseEpochScore (db : Db) (candidate : CandidateEvent) : Option (Db × EpochScore) :=
  let epochStart := floorToEpoch candidate.windowEnd
  let approved := selectApproved db candidate.zoneId epochStart
  upsertEpochScore db (.ofVotes candidate.zoneId epochStart (approved.map CandidateEvent.vote))

/-- the votes of the worker's recompute: it counts the job's candidate if the query is empty -/
def workerVotes (candidate : CandidateEvent) (approved : List CandidateEvent) : List Vote :=
  if approved.length > 0 then approved.map CandidateEvent.vote else [candidate.vote]

/-! ## commitments -/

def pendingCommitmentForEpochScore (epochScore : EpochScore) (now : IsoDate) : ChainCommitment where
  id := stableUuid ("commitment:" ++ epochScore.id)
  epochScoreId := epochScore.id
  txHash := none
  blockNumber := none
  status := .pending
  explorerUrl := none
  createdAt := now
  confirmedAt := none

/-- the `do update` of the commitment upsert -/
def ChainCommitment.overwrite (excluded old : ChainCommitment) : ChainCommitment :=
  { old with status := excluded.status }

theorem ChainCommitment.overwrite_txHash (excluded old : ChainCommitment) :
    (excluded.overwrite old).txHash = old.txHash := rfl

/-- the commitment upsert of the API and of the worker -/
def upsertCommitment (db : Db) (commitment : ChainCommitment) : Option (Db × ChainCommitment) :=
  (db.commitments.upsert commitment commitment.overwrite (fun _ => rfl) (fun _ => rfl)).map
    fun commitments => ({ db with commitments := commitments },
      db.commitments.stored commitment commitment.overwrite)

def upsertDatabasePendingCommitment (db : Db) (epochScore : EpochScore) (now : IsoDate) :
    Option (Db × ChainCommitment) :=
  upsertCommitment db (pendingCommitmentForEpochScore epochScore now)

/-- the worker's score and commitment for an approval -/
def queueApprovedDecisionForChain (db : Db) (candidate : CandidateEvent) (now : IsoDate) :
    Option (Db × EpochScore × ChainCommitment) := do
  let epochStart := floorToEpoch candidate.windowEnd
  let approved := selectApproved db candidate.zoneId epochStart
  let (db, epochScore) ← upsertEpochScore db
    (.ofVotes candidate.zoneId epochStart (workerVotes candidate approved))
  let (db, commitment) ← upsertDatabasePendingCommitment db epochScore now
  return (db, epochScore, commitment)

end Pipeline
