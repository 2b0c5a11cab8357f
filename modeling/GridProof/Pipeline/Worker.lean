import GridProof.Pipeline.Operations

/-!
# The worker's copy of the score

The worker has its own copy of the code that recomputes a score: its own constants, rows, text, ids and
select list, and a fallback to the job's candidate.  Here the copy is translated by itself, under the names
of the API's functions.

* `queueApprovedDecisionForChain_eq`   the copy does what `Pipeline.queueApprovedDecisionForChain` does;
* `fallback_unused`                    an approved candidate is among the rows of the query;
* `proofs_agree`                       the worker's proof of a candidate is the API's.
-/

namespace Pipeline

namespace Worker

/-! ## the copy -/

/-- `EPOCH_DURATION_MS` -/
def epochDurationMs : Int := 60 * 60 * 1000

structure ApprovedCandidateRow where
  id : String
  zoneId : String
  status : CandidateStatus
  confidence : ℚ
  evidenceEventIds : List String

/-- the worker's select list -/
def ApprovedCandidateRow.ofCandidate (c : CandidateEvent) : ApprovedCandidateRow :=
  ⟨c.id, c.zoneId, c.status, c.confidence, c.evidenceEventIds⟩

def floorToEpoch (isoDate : IsoDate) : EpochStart :=
  let timestamp := isoDate.getTime
  ⟨timestamp / epochDurationMs * epochDurationMs, Dvd.intro_left _ rfl⟩

def stableUuid (value : String) : String :=
  let hex := (sha256Hex value).toList.take 32
  let slice (i j : Nat) : String := String.ofList ((hex.drop i).take (j - i))
  slice 0 8 ++ "-" ++ slice 8 12 ++ "-4" ++ slice 13 16 ++ "-8" ++ slice 17 20 ++ "-" ++ slice 20 32

def ApprovedCandidateRow.json (item : ApprovedCandidateRow) : String :=
  "\x7b\"id\":" ++ jsonString item.id ++ ",\"status\":" ++ jsonString item.status.text ++
    ",\"confidence\":" ++ numberText item.confidence ++ ",\"evidenceEventIds\":" ++
    jsonArray (item.evidenceEventIds.map jsonString) ++ "\x7d"

def epochScoreForApprovedCandidates (zoneId : String) (epochStart : EpochStart)
    (approvedCandidates : List ApprovedCandidateRow) : EpochScore :=
  let upVotes := (approvedCandidates.filter fun item => item.status = .restored).length
  let totalVotes := approvedCandidates.length
  { id := stableUuid ("epoch:" ++ zoneId ++ ":" ++ epochStart.text)
    zoneId := zoneId
    epochStart := epochStart
    uptimeBps := if totalVotes = 0 then 0 else mathRound ((upVotes : ℚ) / totalVotes * 10000)
    evidenceHash := "0x" ++ sha256Hex ("\x7b\"zoneId\":" ++ jsonString zoneId ++ ",\"epochStart\":" ++
      jsonString epochStart.text ++ ",\"approvedCandidates\":" ++
      jsonArray (approvedCandidates.map ApprovedCandidateRow.json) ++ "\x7d") }

def pendingCommitmentForEpochScore (epochScore : EpochScore) (now : IsoDate) : ChainCommitment where
  id := stableUuid ("commitment:" ++ epochScore.id)
  epochScoreId := epochScore.id
  txHash := none
  blockNumber := none
  status := .pending
  explorerUrl := none
  createdAt := now
  confirmedAt := none

/-- the worker's query: from `epochStart` up to `epochEnd`, one hour later -/
def selectApproved (db : Db) (zoneId : String) (epochStart : EpochStart) : List ApprovedCandidateRow :=
  let epochEnd := epochStart.ms + epochDurationMs
  let joined := (db.candidates.rows.filter fun c => c.event.zoneId = zoneId ∧
    epochStart.ms * 1000 ≤ c.event.windowEnd.micros ∧ c.event.windowEnd.micros < epochEnd * 1000).flatMap
      fun c => (db.decisions.rows.filter fun d => d.candidateEventId = c.id ∧ d.decision = .approve).map
        fun _ => c.event
  (joined.insertionSort windowOrder).map ApprovedCandidateRow.ofCandidate

/-! ## the copy computes the same -/

theorem floorToEpoch_eq (d : IsoDate) : floorToEpoch d = Pipeline.floorToEpoch d := rfl

theorem stableUuid_eq (value : String) : stableUuid value = Pipeline.stableUuid value := by
  unfold stableUuid Pipeline.stableUuid
  simp only [List.take_drop, List.take_take]
  rfl

theorem selectApproved_eq (db : Db) (zoneId : String) (epochStart : EpochStart) :
    selectApproved db zoneId epochStart =
      (Pipeline.selectApproved db zoneId epochStart).map .ofCandidate := by
  unfold selectApproved Pipeline.selectApproved CandidateEvent.inEpoch EpochStart.contains Db.approvals
  simp only [Bool.decide_and]
  rfl

theorem pendingCommitmentForEpochScore_eq (epochScore : EpochScore) (now : IsoDate) :
    pendingCommitmentForEpochScore epochScore now =
      Pipeline.pendingCommitmentForEpochScore epochScore now := by
  unfold pendingCommitmentForEpochScore Pipeline.pendingCommitmentForEpochScore
  rw [stableUuid_eq]

/-! ## the stored proof -/

/-- the votes of the copy, as the rows of the table record them -/
def ApprovedCandidateRow.vote (item : ApprovedCandidateRow) : Vote :=
  ⟨item.id, item.status, item.confidence, item.evidenceEventIds⟩

theorem epochScoreForApprovedCandidates_votes (zoneId : String) (epochStart : EpochStart)
    (items : List ApprovedCandidateRow) :
    epochScoreForApprovedCandidates zoneId epochStart items =
      Pipeline.epochScoreForApprovedCandidates zoneId epochStart (items.map ApprovedCandidateRow.vote) := by
  unfold epochScoreForApprovedCandidates Pipeline.epochScoreForApprovedCandidates uptimeBps evidenceHash
    evidenceText
  simp only [stableUuid_eq, List.filter_map, List.length_map, List.map_map]
  rfl

/-- the row of a score of the copy -/
def scoreRow (zoneId : String) (epochStart : EpochStart) (items : List ApprovedCandidateRow) : ScoreRow where
  toEpochScore := epochScoreForApprovedCandidates zoneId epochStart items
  counted := items.map ApprovedCandidateRow.vote
  valid := by
    rw [epochScoreForApprovedCandidates_votes]
    exact ⟨rfl, rfl⟩

def queueApprovedDecisionForChain (db : Db) (candidate : CandidateEvent) (now : IsoDate) :
    Option (Db × EpochScore × ChainCommitment) := do
  let epochStart := floorToEpoch candidate.windowEnd
  let approvedCandidates := selectApproved db candidate.zoneId epochStart
  let fallbackCandidates :=
    if approvedCandidates.length > 0 then approvedCandidates else [.ofCandidate candidate]
  let (db, storedEpochScore) ← upsertEpochScore db (scoreRow candidate.zoneId epochStart fallbackCandidates)
  let (db, commitment) ← upsertCommitment db (pendingCommitmentForEpochScore storedEpochScore now)
  return (db, storedEpochScore, commitment)

theorem scoreRow_eq (zoneId : String) (epochStart : EpochStart) (items : List ApprovedCandidateRow) :
    scoreRow zoneId epochStart items =
      .ofVotes zoneId epochStart (items.map ApprovedCandidateRow.vote) := by
  unfold scoreRow ScoreRow.ofVotes
  simp only [epochScoreForApprovedCandidates_votes]

/-- **The copy does what the worker of the model does.** -/
theorem queueApprovedDecisionForChain_eq (db : Db) (candidate : CandidateEvent) (now : IsoDate) :
    queueApprovedDecisionForChain db candidate now =
      Pipeline.queueApprovedDecisionForChain db candidate now := by
  have hvotes : ((if (selectApproved db candidate.zoneId (floorToEpoch candidate.windowEnd)).length > 0 then
      selectApproved db candidate.zoneId (floorToEpoch candidate.windowEnd)
      else [.ofCandidate candidate]).map ApprovedCandidateRow.vote) =
      workerVotes candidate
        (Pipeline.selectApproved db candidate.zoneId (Pipeline.floorToEpoch candidate.windowEnd)) := by
    unfold workerVotes
    rw [selectApproved_eq, List.length_map, floorToEpoch_eq]
    split
    · rw [List.map_map]
      rfl
    · rfl
  unfold queueApprovedDecisionForChain Pipeline.queueApprovedDecisionForChain
    upsertDatabasePendingCommitment
  simp only [scoreRow_eq, hvotes, pendingCommitmentForEpochScore_eq]
  rfl

end Worker

/-! ## the two processes -/

/-- what the API does for an approval: the score, then its commitment -/
def recomputeApproval (db : Db) (candidate : CandidateEvent) (now : IsoDate) :
    Option (Db × EpochScore × ChainCommitment) := do
  let (db, epochScore) ← recomputeDatabaseEpochScore db candidate
  let (db, commitment) ← upsertDatabasePendingCommitment db epochScore now
  return (db, epochScore, commitment)

/-- what is committed: the score's id, uptime and hash, and the commitment's id -/
def proofOf (stored : Db × EpochScore × ChainCommitment) : String × Int × String × String :=
  (stored.2.1.id, stored.2.1.uptimeBps, stored.2.1.evidenceHash, stored.2.2.id)

/-- a recorded candidate as a process holds it: as it was recorded, or as it is read back -/
def CandidateRow.HeldAs (row : CandidateRow) (c : CandidateEvent) : Prop :=
  c = row.event ∨ c = row.event.readBack

theorem CandidateRow.HeldAs.zoneId {row : CandidateRow} {c : CandidateEvent} (h : row.HeldAs c) :
    c.zoneId = row.event.zoneId := by
  rcases h with rfl | rfl
  · rfl
  · rfl

theorem CandidateRow.HeldAs.floorToEpoch {row : CandidateRow} {c : CandidateEvent} (h : row.HeldAs c) :
    floorToEpoch c.windowEnd = floorToEpoch row.event.windowEnd := by
  rcases h with rfl | rfl
  · rfl
  · exact IsoDate.floorToEpoch_readBack row.event.windowEnd

theorem approved_mem_selectApproved {db : Db} {row : CandidateRow} (hrow : row ∈ db.candidates.rows)
    (happ : db.Approved row.id) :
    row.event ∈ selectApproved db row.event.zoneId (floorToEpoch row.event.windowEnd) :=
  mem_selectApproved.mpr ⟨⟨row, hrow, rfl⟩, CandidateEvent.inEpoch_iff.mpr rfl, happ⟩

theorem upsertCommitment_id (db : Db) {c c' : ChainCommitment} (hid : c.id = c'.id)
    (hscore : c.epochScoreId = c'.epochScoreId) :
    (upsertCommitment db c).map (fun r => r.2.id) = (upsertCommitment db c').map fun r => r.2.id := by
  unfold upsertCommitment
  rw [Option.map_map, Option.map_map]
  exact Table.upsert_stored_id hid hscore

/-- a stored score and the commitment made for it -/
def withCommitment (now : IsoDate) (stored : Db × EpochScore) : Option (Db × EpochScore × ChainCommitment) :=
  (upsertDatabasePendingCommitment stored.1 stored.2 now).map fun r => (r.1, stored.2, r.2)

/-- the commitment of a score has the same id whenever it is made -/
theorem withCommitment_proof (now now' : IsoDate) (stored : Db × EpochScore) :
    (withCommitment now stored).map proofOf = (withCommitment now' stored).map proofOf := by
  have hproof : ∀ now, (withCommitment now stored).map proofOf =
      ((upsertCommitment stored.1 (pendingCommitmentForEpochScore stored.2 now)).map fun r => r.2.id).map
        fun i => (stored.2.id, stored.2.uptimeBps, stored.2.evidenceHash, i) := by
    intro now
    unfold withCommitment upsertDatabasePendingCommitment
    rw [Option.map_map, Option.map_map]
    rfl
  have hid : (upsertCommitment stored.1 (pendingCommitmentForEpochScore stored.2 now)).map (fun r => r.2.id) =
      (upsertCommitment stored.1 (pendingCommitmentForEpochScore stored.2 now')).map fun r => r.2.id :=
    upsertCommitment_id stored.1 rfl rfl
  rw [hproof, hproof, hid]

theorem recomputeApproval_eq (db : Db) (c : CandidateEvent) (now : IsoDate) :
    recomputeApproval db c now = (recomputeDatabaseEpochScore db c).bind (withCommitment now) := by
  unfold recomputeApproval withCommitment
  simp only [Option.map_eq_bind]
  rfl

theorem queueApprovedDecisionForChain_eq_bind (db : Db) (c : CandidateEvent) (now : IsoDate) :
    queueApprovedDecisionForChain db c now =
      (upsertEpochScore db (.ofVotes c.zoneId (floorToEpoch c.windowEnd) (workerVotes c
        (selectApproved db c.zoneId (floorToEpoch c.windowEnd))))).bind (withCommitment now) := by
  unfold queueApprovedDecisionForChain withCommitment
  simp only [Option.map_eq_bind]
  rfl

/-- **The worker's proof of a candidate is the API's**: where a candidate has an approving decision, the
worker's query finds a row, so that it never falls back to the job's candidate, and the score and the
commitment the worker stores have the id, uptime and hash of those the API stores. -/
theorem proofs_agree (db : Db) (row : CandidateRow) (hrow : row ∈ db.candidates.rows)
    (happ : db.Approved row.id) (c c' : CandidateEvent) (hc : row.HeldAs c) (hc' : row.HeldAs c')
    (now now' : IsoDate) :
    Worker.selectApproved db c'.zoneId (Worker.floorToEpoch c'.windowEnd) ≠ [] ∧
    (Worker.queueApprovedDecisionForChain db c' now').map proofOf =
      (recomputeApproval db c now).map proofOf := by
  have hmem := approved_mem_selectApproved hrow happ
  rw [Worker.floorToEpoch_eq, Worker.queueApprovedDecisionForChain_eq, queueApprovedDecisionForChain_eq_bind,
    recomputeApproval_eq, recomputeDatabaseEpochScore, hc.zoneId, hc.floorToEpoch, hc'.zoneId,
    hc'.floorToEpoch, Worker.selectApproved_eq]
  have hfallback : workerVotes c' (selectApproved db row.event.zoneId (floorToEpoch row.event.windowEnd)) =
      (selectApproved db row.event.zoneId (floorToEpoch row.event.windowEnd)).map CandidateEvent.vote :=
    if_pos (List.length_pos_of_mem hmem)
  constructor
  · exact List.ne_nil_of_mem (List.mem_map_of_mem hmem)
  · rw [hfallback, Option.map_bind, Option.map_bind]
    congr 1
    funext stored
    exact withCommitment_proof now' now stored

/-! ## a recorded evening -/

/-- a candidate of the first hour, `minute` minutes past it -/
def eveningRow (id zoneId : String) (status : CandidateStatus) (confidence : ℚ) (minute : Int) : CandidateRow where
  candidateKey := zoneId ++ ":" ++ status.text ++ ":" ++ id
  event :=
    { id := id, zoneId := zoneId, status := status, confidence := confidence, windowStart := .ofMillis 0,
      windowEnd := .ofMillis (minute * 60000), evidenceEventIds := [id], createdAt := .ofMillis (minute * 60000) }

def eveningOutage : CandidateRow := eveningRow "c1" "z1" .outage (7 / 10) 20

def eveningRestored : CandidateRow := eveningRow "c2" "z1" .restored (9 / 10) 10

/-- a candidate below the threshold, which nobody has reviewed -/
def eveningDoubt : CandidateRow := eveningRow "c3" "z1" .outage (7 / 10) 30

/-- a candidate of another zone -/
def eveningElsewhere : CandidateRow := eveningRow "c4" "z2" .outage (9 / 10) 10

/-- a database in which the worker has approved the outage; the other decisions are the thresholds' -/
def eveningDb : Db :=
  { Db.empty with
    candidates := ⟨[eveningOutage, eveningRestored, eveningDoubt, eveningElsewhere], by decide, by decide⟩
    decisions := ⟨[agentDecisionFromResult "d1" (.ofMillis 1200000) ⟨eveningOutage.event, none⟩
        (.agentDecision ⟨"outage", 9 / 10, []⟩ ⟨.approve, 9 / 10, ""⟩),
      decisionForCandidate "d2" (.ofMillis 600000) eveningRestored.event,
      decisionForCandidate "d3" (.ofMillis 1800000) eveningDoubt.event,
      decisionForCandidate "d4" (.ofMillis 600000) eveningElsewhere.event], by decide, by decide⟩ }

/-- two of the four rows count, the restoration first -/
theorem eveningDb_agrees :
    ((Worker.selectApproved eveningDb "z1" (Worker.floorToEpoch eveningOutage.event.windowEnd)).map
      Worker.ApprovedCandidateRow.id = ["c2", "c1"]) ∧
    Worker.selectApproved eveningDb eveningOutage.event.zoneId
      (Worker.floorToEpoch eveningOutage.event.windowEnd) ≠ [] ∧
    (Worker.queueApprovedDecisionForChain eveningDb eveningOutage.event (.ofMillis 1300000)).map proofOf =
      (recomputeApproval eveningDb eveningOutage.event.readBack (.ofMillis 1400000)).map proofOf :=
  ⟨by decide +kernel, proofs_agree eveningDb eveningOutage List.mem_cons_self ⟨_, List.mem_cons_self, rfl, rfl⟩ _ _
    (.inr rfl) (.inl rfl) _ _⟩

end Pipeline
