import GridProof.Pipeline.Database

/-!
# Operations on the database

The operations that write decisions and scores, each run to its end: the API's pipeline on a fresh
candidate, the worker's handling of a delivered job, and a reviewer's decision.

* `step`          the operations on the database and the jobs that were queued, with the result the
                  source returns; `none` if a statement fails or there is nothing to do;
* `Op.target`     which decision row an operation writes and with which verdict, read off its input
                  and the state before it;
* `step_effect`   what an operation does: one decision row, and for an approval that is not a
                  preview the score of the candidate's zone and epoch.
-/

namespace Pipeline

/-! ## operations -/

structure PipelineResult where
  decision : AgentDecision
  epochScore : Option EpochScore
  commitment : Option ChainCommitment

/-- the database and the jobs that were ever queued for the worker -/
structure System where
  db : Db
  jobs : List AgentReviewJob

def System.empty : System := ⟨.empty, []⟩

/-- the database branch of `processCandidatePipeline` -/
def processCandidatePipeline (s : System) (candidate : CandidateEvent)
    (simulation : Option Simulation) (decisionId : String) (now : IsoDate) :
    Option (System × PipelineResult) := do
  let (db, stored) ← upsertDatabaseDecision s.db (decisionForCandidate decisionId now candidate)
  match stored.decision with
  | .approve =>
    if previewOnly simulation then return (⟨db, s.jobs⟩, ⟨stored, none, none⟩)
    let (db, epochScore) ← recomputeDatabaseEpochScore db candidate
    let (db, commitment) ← upsertDatabasePendingCommitment db epochScore now
    return (⟨db, s.jobs⟩, ⟨stored, some epochScore, some commitment⟩)
  | .escalate => return (⟨db, s.jobs ++ [⟨candidate, simulation⟩]⟩, ⟨stored, none, none⟩)
  | .reject => return (⟨db, s.jobs⟩, ⟨stored, none, none⟩)

/-- the worker's `persistOrchestrationResult` for a job that was delivered -/
def persistOrchestrationResult (s : System) (input : AgentReviewJob) (result : OrchestrationResult)
    (decisionId : String) (now : IsoDate) : Option (System × PipelineResult) := do
  let decision := agentDecisionFromResult decisionId now input result
  let (db, _) ← upsertDatabaseDecision s.db decision
  if decision.decision ≠ .approve then return (⟨db, s.jobs⟩, ⟨decision, none, none⟩)
  if previewOnly input.simulation then return (⟨db, s.jobs⟩, ⟨decision, none, none⟩)
  let (db, epochScore, commitment) ← queueApprovedDecisionForChain db input.candidate now
  return (⟨db, s.jobs⟩, ⟨decision, some epochScore, some commitment⟩)

/-- a timestamp as it is read back from the database -/
def IsoDate.readBack (d : IsoDate) : IsoDate := .ofMillis d.getTime

def CandidateEvent.readBack (c : CandidateEvent) : CandidateEvent :=
  { c with
    windowStart := c.windowStart.readBack
    windowEnd := c.windowEnd.readBack
    createdAt := c.createdAt.readBack }

def findDatabaseCandidate (db : Db) (candidateId : String) : Option CandidateEvent :=
  (db.candidates.get? candidateId).map fun row => row.event.readBack

/-- the database branch of `resolveReviewDecision` -/
def resolveReviewDecision (s : System) (decisionId : String) (reviewDecision : ReviewDecision)
    (note : String) (now : IsoDate) : Option (System × PipelineResult) := do
  let (db, decision) ← updateReview s.db decisionId reviewDecision note now
  if decision.decision ≠ .approve then return (⟨db, s.jobs⟩, ⟨decision, none, none⟩)
  let candidate ← findDatabaseCandidate db decision.candidateEventId
  let (db, epochScore) ← recomputeDatabaseEpochScore db candidate
  let (db, commitment) ← upsertDatabasePendingCommitment db epochScore now
  return (⟨db, s.jobs⟩, ⟨decision, some epochScore, some commitment⟩)

inductive Op where
  /-- evidence or a sweep records a new candidate and the pipeline runs on it -/
  | ingest (row : CandidateRow) (simulation : Option Simulation) (decisionId : String)
      (now : IsoDate)
  /-- a job that was queued reaches the worker, for the first time or again -/
  | deliver (job : AgentReviewJob) (result : OrchestrationResult) (decisionId : String)
      (now : IsoDate)
  | review (decisionId : String) (reviewDecision : ReviewDecision) (note : String) (now : IsoDate)

/-- a candidate whose key or id is taken is not recorded, and the pipeline does not run -/
def step (s : System) : Op → Option (System × PipelineResult)
  | .ingest row simulation decisionId now => do
    let candidates ← s.db.candidates.insert row
    processCandidatePipeline ⟨{ s.db with candidates := candidates }, s.jobs⟩ row.event simulation
      decisionId now
  | .deliver job result decisionId now =>
    if job ∈ s.jobs then persistOrchestrationResult s job result decisionId now else none
  | .review decisionId reviewDecision note now =>
    resolveReviewDecision s decisionId reviewDecision note now

def next (s : System) (op : Op) : Option System := (step s op).map Prod.fst

/-! ## statements, seen from outside -/

theorem IsoDate.floorToEpoch_readBack (d : IsoDate) : floorToEpoch d.readBack = floorToEpoch d := by
  have h : d.readBack.getTime = d.getTime := Int.mul_ediv_cancel _ (by decide)
  rw [EpochStart.ext_iff]
  show d.readBack.getTime / _ * _ = d.getTime / _ * _
  rw [h]

theorem upsertDatabaseDecision_eq_some {db db' : Db} {decision d : AgentDecision}
    (h : upsertDatabaseDecision db decision = some (db', d)) :
    db' = { db with decisions := db'.decisions } ∧ db.decisions.Puts db'.decisions d ∧
    d.key = decision.key ∧ d.decision = decision.decision := by
  unfold upsertDatabaseDecision at h
  split at h
  · cases h
  · obtain ⟨decisions, hup, he⟩ := Option.map_eq_some_iff.mp h
    obtain ⟨rfl, rfl⟩ := Prod.mk.inj he
    refine ⟨rfl, Table.upsert_puts hup, Table.stored_key fun _ => rfl, ?_⟩
    unfold Table.stored
    split
    · rfl
    · rfl

theorem updateReview_eq_some {db db' : Db} {decisionId note : String}
    {reviewDecision : ReviewDecision} {now : IsoDate} {d : AgentDecision}
    (h : updateReview db decisionId reviewDecision note now = some (db', d)) :
    ∃ before, db.decisions.get? decisionId = some before ∧
    db' = { db with decisions := db'.decisions } ∧ db.decisions.Puts db'.decisions d ∧
    d = before.reviewed before.decision reviewDecision note now := by
  obtain ⟨before, hget, he⟩ := Option.map_eq_some_iff.mp h
  obtain ⟨rfl, rfl⟩ := Prod.mk.inj he
  refine ⟨before, hget, rfl, ?_, rfl⟩
  refine Table.update_get?_puts ?_ ?_ hget
  · exact fun _ => rfl
  · exact fun _ => rfl

theorem upsertEpochScore_eq_some {db db' : Db} {row : ScoreRow} {es : EpochScore}
    (h : upsertEpochScore db row = some (db', es)) :
    db' = { db with epochScores := db'.epochScores } ∧ ∃ r : ScoreRow,
    db.epochScores.Puts db'.epochScores r ∧ r.key = row.key ∧ r.counted = row.counted ∧
    es = r.toEpochScore := by
  obtain ⟨scores, hup, he⟩ := Option.map_eq_some_iff.mp h
  obtain ⟨rfl, rfl⟩ := Prod.mk.inj he
  refine ⟨rfl, _, Table.upsert_puts hup, Table.stored_key row.overwrite_key, ?_, rfl⟩
  unfold Table.stored
  cases hf : db.epochScores.find? row.key with
  | none => rfl
  | some old => exact ScoreRow.overwrite_counted (Table.find?_eq_some.mp hf).2

theorem upsertCommitment_eq_some {db db' : Db} {commitment c : ChainCommitment}
    (h : upsertCommitment db commitment = some (db', c)) :
    db' = { db with commitments := db'.commitments } ∧
    db.commitments.Puts db'.commitments c ∧
    c = db.commitments.stored commitment commitment.overwrite := by
  obtain ⟨commitments, hup, he⟩ := Option.map_eq_some_iff.mp h
  obtain ⟨rfl, rfl⟩ := Prod.mk.inj he
  exact ⟨rfl, Table.upsert_puts hup, rfl⟩

/-- the candidate has an approving decision -/
def Db.Approved (db : Db) (candidateId : String) : Prop :=
  ∃ d ∈ db.decisions.rows, d.candidateEventId = candidateId ∧ d.decision = .approve

theorem Db.approvals_ne_nil {db : Db} {candidateId : String} :
    db.approvals candidateId ≠ [] ↔ db.Approved candidateId := by
  unfold Db.approvals Db.Approved
  rw [ne_eq, List.filter_eq_nil_iff]
  push Not
  simp only [decide_eq_true_eq]

theorem mem_selectApproved {db : Db} {zoneId : String} {epochStart : EpochStart}
    {c : CandidateEvent} : c ∈ selectApproved db zoneId epochStart ↔
    (∃ row ∈ db.candidates.rows, row.event = c) ∧ c.inEpoch zoneId epochStart ∧
      db.Approved c.id := by
  unfold selectApproved
  rw [List.mem_insertionSort, List.mem_flatMap]
  constructor
  · rintro ⟨row, hrow, hc⟩
    obtain ⟨hmem, hin⟩ := List.mem_filter.mp hrow
    obtain ⟨d, hd, rfl⟩ := List.mem_map.mp hc
    exact ⟨⟨row, hmem, rfl⟩, hin, Db.approvals_ne_nil.mp (List.ne_nil_of_mem hd)⟩
  · rintro ⟨⟨row, hrow, rfl⟩, hin, happ⟩
    obtain ⟨d, hd⟩ := List.exists_mem_of_ne_nil _ (Db.approvals_ne_nil.mpr happ)
    exact ⟨row, List.mem_filter.mpr ⟨hrow, hin⟩, List.mem_map.mpr ⟨d, hd, rfl⟩⟩

theorem CandidateEvent.inEpoch_iff {c : CandidateEvent} {zoneId : String}
    {epochStart : EpochStart} :
    c.inEpoch zoneId epochStart ↔ (c.zoneId, floorToEpoch c.windowEnd) = (zoneId, epochStart) := by
  unfold CandidateEvent.inEpoch
  rw [Bool.and_eq_true, decide_eq_true_iff, EpochStart.contains_iff, Prod.mk.injEq]

/-- the zone and epoch a candidate counts in -/
def CandidateEvent.epochKey (c : CandidateEvent) : String × EpochStart :=
  (c.zoneId, floorToEpoch c.windowEnd)

theorem CandidateEvent.readBack_id (c : CandidateEvent) : c.readBack.id = c.id := by
  unfold CandidateEvent.readBack
  rfl

theorem CandidateEvent.readBack_epochKey (c : CandidateEvent) :
    c.readBack.epochKey = c.epochKey := by
  unfold CandidateEvent.epochKey CandidateEvent.readBack
  exact Prod.ext rfl (IsoDate.floorToEpoch_readBack c.windowEnd)

/-! ## what an operation does -/

/-- a decision to be written: the row of `agentName` for `candidate` becomes `verdict` -/
structure Target where
  candidate : CandidateEvent
  agentName : AgentName
  verdict : Verdict
deriving DecidableEq

/-- the decision an operation writes -/
def Op.target (s : System) : Op → Option Target
  | .ingest row _ _ _ =>
    some ⟨row.event, .policyGate, decisionForConfidence row.event.confidence⟩
  | .deliver job result decisionId now =>
    some ⟨job.candidate, .verificationAgent, (agentDecisionFromResult decisionId now job result).decision⟩
  | .review decisionId reviewDecision _ _ => do
    let d ← s.db.decisions.get? decisionId
    let row ← s.db.candidates.get? d.candidateEventId
    return ⟨row.event, d.agentName, reviewDecision.verdict⟩

/-- the operation handles a simulation whose chain writes are off -/
def Op.preview : Op → Bool
  | .ingest _ simulation _ _ => previewOnly simulation
  | .deliver job _ _ _ => previewOnly job.simulation
  | .review .. => false

/-- jobs and decisions are about recorded candidates -/
structure System.Wf (s : System) : Prop where
  jobs : ∀ job ∈ s.jobs, ∃ row ∈ s.db.candidates.rows, row.event = job.candidate
  decisions : ∀ d ∈ s.db.decisions.rows, ∃ row ∈ s.db.candidates.rows, row.id = d.candidateEventId

theorem System.empty_wf : System.empty.Wf :=
  ⟨fun _ h => absurd h List.not_mem_nil, fun _ h => absurd h List.not_mem_nil⟩

theorem System.Wf.congr {s s' : System} (h : s.Wf) (hc : s'.db.candidates = s.db.candidates)
    (hd : s'.db.decisions = s.db.decisions) (hj : s'.jobs = s.jobs) : s'.Wf := by
  obtain ⟨hjobs, hdecisions⟩ := h
  rw [← hj, ← hc] at hjobs
  rw [← hd, ← hc] at hdecisions
  exact ⟨hjobs, hdecisions⟩

/-- the scores after an operation that wrote the decision `d`: as before, or with the score of the
candidate's zone and epoch computed from the new decisions -/
inductive ScoreEffect (s s' : System) (op : Op) (d : AgentDecision) : Option EpochScore → Prop
  | none (hscores : s'.db.epochScores = s.db.epochScores)
      (hwhy : d.decision = .approve → op.preview) : ScoreEffect s s' op d none
  | stored (c : CandidateRow) (r : ScoreRow) (hd : d.decision = .approve)
      (hpre : op.preview = false) (hc : c ∈ s'.db.candidates.rows) (hid : c.id = d.candidateEventId)
      (hputs : s.db.epochScores.Puts s'.db.epochScores r) (hkey : r.key = c.event.epochKey)
      (hcounted : r.counted = (selectApproved s'.db r.zoneId r.epochStart).map CandidateEvent.vote) :
      ScoreEffect s s' op d (some r.toEpochScore)

/-- what the decision statement of an operation leaves in the tables and in the queue -/
structure DecisionEffect (s s' : System) (op : Op) (d : AgentDecision) : Prop where
  puts : s.db.decisions.Puts s'.db.decisions d
  target : ∃ row ∈ s'.db.candidates.rows, row.id = d.candidateEventId ∧
    op.target s = some ⟨row.event, d.agentName, d.decision⟩
  candidates : s'.db.candidates = s.db.candidates ∨ ∃ row simulation decisionId now,
    op = .ingest row simulation decisionId now ∧
    s.db.candidates.insert row = some s'.db.candidates
  jobs : ∀ job ∈ s'.jobs, job ∈ s.jobs ∨ ∃ row ∈ s'.db.candidates.rows, row.event = job.candidate

structure Effect (s s' : System) (op : Op) (d : AgentDecision) (score : Option EpochScore) : Prop
    extends DecisionEffect s s' op d where
  score : ScoreEffect s s' op d score

theorem DecisionEffect.congr {s s₁ s₂ : System} {op : Op} {d : AgentDecision}
    (h : DecisionEffect s s₁ op d) (hc : s₂.db.candidates = s₁.db.candidates)
    (hd : s₂.db.decisions = s₁.db.decisions) (hj : s₂.jobs = s₁.jobs) : DecisionEffect s s₂ op d := by
  obtain ⟨hputs, htarget, hcandidates, hjobs⟩ := h
  rw [← hc] at htarget hcandidates
  rw [← hd] at hputs
  rw [← hj, ← hc] at hjobs
  exact ⟨hputs, htarget, hcandidates, hjobs⟩

/-- the score and the commitment statement of an approval -/
theorem store_eq_some {db db₁ db₂ : Db} {zoneId : String} {epochStart : EpochStart}
    {votes : List Vote} {es : EpochScore} {now : IsoDate} {c : ChainCommitment}
    (hscore : upsertEpochScore db (.ofVotes zoneId epochStart votes) = some (db₁, es))
    (hcommit : upsertDatabasePendingCommitment db₁ es now = some (db₂, c)) :
    db₂.candidates = db.candidates ∧ db₂.decisions = db.decisions ∧ ∃ r : ScoreRow,
    db.epochScores.Puts db₂.epochScores r ∧ r.key = (zoneId, epochStart) ∧ r.counted = votes ∧
    es = r.toEpochScore := by
  obtain ⟨hdb₁, r, hputs, hkey, hcounted, hes⟩ := upsertEpochScore_eq_some hscore
  obtain ⟨hdb₂, -, -⟩ := upsertCommitment_eq_some hcommit
  rw [hdb₂]
  refine ⟨?_, ?_, r, hputs, hkey, hcounted, hes⟩
  · rw [hdb₁]
  · rw [hdb₁]

theorem selectApproved_congr {db db' : Db} (hc : db'.candidates = db.candidates)
    (hd : db'.decisions = db.decisions) (zoneId : String) (epochStart : EpochStart) :
    selectApproved db' zoneId epochStart = selectApproved db zoneId epochStart := by
  unfold selectApproved Db.approvals
  rw [hc, hd]

/-- an approval whose score is stored from the decisions it has just written -/
theorem ScoreEffect.of_store {s : System} {op : Op} {d : AgentDecision} {db db₁ db₂ : Db}
    {jobs : List AgentReviewJob} {row : CandidateRow} {zoneId : String} {epochStart : EpochStart}
    {es : EpochScore} {now : IsoDate} {c : ChainCommitment} (hd : d.decision = .approve)
    (hpre : op.preview = false) (hrow : row ∈ db.candidates.rows) (hid : row.id = d.candidateEventId)
    (hepoch : row.event.epochKey = (zoneId, epochStart))
    (hold : db.epochScores = s.db.epochScores)
    (hscore : upsertEpochScore db (.ofVotes zoneId epochStart
      ((selectApproved db zoneId epochStart).map CandidateEvent.vote)) = some (db₁, es))
    (hcommit : upsertDatabasePendingCommitment db₁ es now = some (db₂, c)) :
    ScoreEffect s ⟨db₂, jobs⟩ op d (some es) := by
  obtain ⟨hcand, hdec, r, hputs, hkey, hcounted, rfl⟩ := store_eq_some hscore hcommit
  obtain ⟨hzone, hstart⟩ := Prod.mk.inj hkey
  refine .stored row r hd hpre ?_ hid ?_ (hkey.trans hepoch.symm) ?_
  · show row ∈ db₂.candidates.rows
    rw [hcand]
    exact hrow
  · rw [← hold]
    exact hputs
  · show r.counted = (selectApproved db₂ r.zoneId r.epochStart).map CandidateEvent.vote
    rw [hcounted, selectApproved_congr hcand hdec, hzone, hstart]

/-- the decision of an ingestion; `jobs` are the jobs after it -/
theorem ingest_decision {s : System} {candidates : Candidates} {row : CandidateRow}
    {simulation : Option Simulation} {decisionId : String} {now : IsoDate} {db : Db}
    {d : AgentDecision} {jobs : List AgentReviewJob}
    (hins : s.db.candidates.insert row = some candidates)
    (hup : upsertDatabaseDecision { s.db with candidates := candidates }
      (decisionForCandidate decisionId now row.event) = some (db, d))
    (hjobs : ∀ job ∈ jobs, job ∈ s.jobs ∨ job = ⟨row.event, simulation⟩) :
    DecisionEffect s ⟨db, jobs⟩ (.ingest row simulation decisionId now) d ∧
    row ∈ db.candidates.rows ∧ row.id = d.candidateEventId := by
  obtain ⟨hdb, hputs, hkey, hverdict⟩ := upsertDatabaseDecision_eq_some hup
  obtain ⟨hcand, hagent⟩ := Prod.mk.inj hkey
  have hcandidates : db.candidates = candidates := by rw [hdb]
  have hrow : row ∈ db.candidates.rows := hcandidates ▸ (Table.insert_puts hins).self
  have htarget : (Op.ingest row simulation decisionId now).target s =
      some ⟨row.event, d.agentName, d.decision⟩ := by
    rw [hagent, hverdict]
    rfl
  refine ⟨⟨hputs, ⟨row, hrow, hcand.symm, htarget⟩, .inr ⟨row, simulation, decisionId, now, rfl, ?_⟩,
    fun job hjob => ?_⟩, hrow, hcand.symm⟩
  · show s.db.candidates.insert row = some db.candidates
    rw [hcandidates]
    exact hins
  · exact (hjobs job hjob).imp id fun e => ⟨row, hrow, by rw [e]⟩

theorem processCandidatePipeline_effect {s s' : System} {candidates : Candidates}
    {row : CandidateRow} {simulation : Option Simulation} {decisionId : String} {now : IsoDate}
    {res : PipelineResult} (hins : s.db.candidates.insert row = some candidates)
    (h : processCandidatePipeline ⟨{ s.db with candidates := candidates }, s.jobs⟩ row.event
      simulation decisionId now = some (s', res)) :
    ∃ d, Effect s s' (.ingest row simulation decisionId now) d res.epochScore := by
  simp only [processCandidatePipeline, Option.bind_eq_bind, Option.bind_eq_some_iff, Prod.exists] at h
  obtain ⟨db, d, hup, h⟩ := h
  have hscores : db.epochScores = s.db.epochScores := by rw [(upsertDatabaseDecision_eq_some hup).1]
  obtain ⟨hdec, hrow, hid⟩ :=
    @ingest_decision s candidates row simulation decisionId now db d s.jobs hins hup fun _ => .inl
  refine ⟨d, ?_⟩
  cases hd : d.decision with
  | approve =>
    rw [hd] at h
    dsimp only at h
    split at h
    · rename_i hpre
      obtain ⟨rfl, rfl⟩ := Prod.mk.inj (Option.some.inj h)
      exact ⟨hdec, .none hscores fun _ => hpre⟩
    · rename_i hpre
      simp only [Option.bind_eq_some_iff, Prod.exists] at h
      obtain ⟨db₁, es, hscore, db₂, c, hcommit, h⟩ := h
      obtain ⟨rfl, rfl⟩ := Prod.mk.inj (Option.some.inj h)
      obtain ⟨hc₂, hd₂, -⟩ := store_eq_some hscore hcommit
      refine ⟨hdec.congr hc₂ hd₂ rfl, ?_⟩
      exact .of_store hd (Bool.eq_false_of_not_eq_true hpre) hrow hid rfl hscores hscore hcommit
  | escalate =>
    rw [hd] at h
    obtain ⟨rfl, rfl⟩ := Prod.mk.inj (Option.some.inj h)
    refine ⟨(ingest_decision hins hup fun job hjob => ?_).1,
      .none hscores fun e => absurd (hd.symm.trans e) (by decide)⟩
    exact (List.mem_append.mp hjob).imp id List.mem_singleton.mp
  | reject =>
    rw [hd] at h
    obtain ⟨rfl, rfl⟩ := Prod.mk.inj (Option.some.inj h)
    exact ⟨hdec, .none hscores fun e => absurd (hd.symm.trans e) (by decide)⟩

/-- the query of a recompute is not empty right after an approval of the candidate -/
theorem workerVotes_eq {db : Db} {row : CandidateRow} (hrow : row ∈ db.candidates.rows)
    (happ : db.Approved row.id) :
    workerVotes row.event (selectApproved db row.event.zoneId (floorToEpoch row.event.windowEnd)) =
      (selectApproved db row.event.zoneId (floorToEpoch row.event.windowEnd)).map
        CandidateEvent.vote := by
  have hmem : row.event ∈ selectApproved db row.event.zoneId (floorToEpoch row.event.windowEnd) :=
    mem_selectApproved.mpr ⟨⟨row, hrow, rfl⟩, CandidateEvent.inEpoch_iff.mpr rfl, happ⟩
  unfold workerVotes
  rw [if_pos (List.length_pos_of_mem hmem)]

/-- the decision of a delivered job -/
theorem deliver_decision {s : System} {job : AgentReviewJob} {result : OrchestrationResult}
    {decisionId : String} {now : IsoDate} {row : CandidateRow} {db : Db} {d : AgentDecision}
    (hrow : row ∈ s.db.candidates.rows) (hjob : row.event = job.candidate)
    (hup : upsertDatabaseDecision s.db (agentDecisionFromResult decisionId now job result) =
      some (db, d)) :
    DecisionEffect s ⟨db, s.jobs⟩ (.deliver job result decisionId now) d ∧
    row ∈ db.candidates.rows ∧ row.id = d.candidateEventId := by
  obtain ⟨hdb, hputs, hkey, hverdict⟩ := upsertDatabaseDecision_eq_some hup
  obtain ⟨hcand, hagent⟩ := Prod.mk.inj hkey
  obtain ⟨hid, hname⟩ := agentDecisionFromResult_key decisionId now job result
  have hrowid : row.id = d.candidateEventId := by
    rw [hcand, hid, ← hjob]
  have htarget : (Op.deliver job result decisionId now).target s =
      some ⟨row.event, d.agentName, d.decision⟩ := by
    rw [hjob, hagent, hverdict, hname]
    rfl
  have hcandidates : db.candidates = s.db.candidates := by rw [hdb]
  have hrow' : row ∈ db.candidates.rows := hcandidates ▸ hrow
  exact ⟨⟨hputs, ⟨row, hrow', hrowid, htarget⟩, .inl hcandidates, fun _ => .inl⟩, hrow', hrowid⟩

theorem persistOrchestrationResult_effect {s s' : System} {job : AgentReviewJob}
    {result : OrchestrationResult} {decisionId : String} {now : IsoDate} {res : PipelineResult}
    {row : CandidateRow} (hrow : row ∈ s.db.candidates.rows) (hjob : row.event = job.candidate)
    (h : persistOrchestrationResult s job result decisionId now = some (s', res)) :
    ∃ d, Effect s s' (.deliver job result decisionId now) d res.epochScore := by
  simp only [persistOrchestrationResult, Option.bind_eq_bind, Option.bind_eq_some_iff,
    Prod.exists] at h
  obtain ⟨db, d, hup, h⟩ := h
  obtain ⟨hdb, hputs, -, hverdict⟩ := upsertDatabaseDecision_eq_some hup
  have hscores : db.epochScores = s.db.epochScores := by rw [hdb]
  obtain ⟨hdec, hrow', hrowid⟩ := deliver_decision hrow hjob hup
  refine ⟨d, ?_⟩
  split at h
  · rename_i hne
    obtain ⟨rfl, rfl⟩ := Prod.mk.inj (Option.some.inj h)
    exact ⟨hdec, .none hscores fun e => absurd (hverdict.symm.trans e) hne⟩
  · rename_i happ
    have hd : d.decision = .approve := hverdict.trans (not_not.mp happ)
    split at h
    · rename_i hpre
      obtain ⟨rfl, rfl⟩ := Prod.mk.inj (Option.some.inj h)
      exact ⟨hdec, .none hscores fun _ => hpre⟩
    · rename_i hpre
      simp only [Option.bind_eq_some_iff, Prod.exists, queueApprovedDecisionForChain,
        Option.bind_eq_bind] at h
      obtain ⟨db₂, es, c, ⟨db₁, es', hscore, db₂', c', hcommit, he⟩, h⟩ := h
      obtain ⟨rfl, he'⟩ := Prod.mk.inj (Option.some.inj he)
      obtain ⟨rfl, rfl⟩ := Prod.mk.inj he'
      obtain ⟨rfl, rfl⟩ := Prod.mk.inj (Option.some.inj h)
      obtain ⟨hc₂, hd₂, -⟩ := store_eq_some hscore hcommit
      refine ⟨hdec.congr hc₂ hd₂ rfl, ?_⟩
      have happroved : db.Approved row.id := ⟨d, hputs.self, hrowid.symm, hd⟩
      rw [← hjob, workerVotes_eq hrow' happroved] at hscore
      exact .of_store hd (Bool.eq_false_of_not_eq_true hpre) hrow' hrowid rfl hscores hscore hcommit

/-- the decision of a review -/
theorem review_decision {s : System} {decisionId note : String} {reviewDecision : ReviewDecision}
    {now : IsoDate} {db : Db} {d : AgentDecision} (hs : s.Wf)
    (hup : updateReview s.db decisionId reviewDecision note now = some (db, d)) :
    DecisionEffect s ⟨db, s.jobs⟩ (.review decisionId reviewDecision note now) d ∧
    ∃ row ∈ db.candidates.rows, row.id = d.candidateEventId ∧
      findDatabaseCandidate db d.candidateEventId = some row.event.readBack := by
  obtain ⟨before, hget, hdb, hputs, rfl⟩ := updateReview_eq_some hup
  obtain ⟨row, hrow, hrowid⟩ := hs.decisions before (Table.get?_eq_some.mp hget).1
  have hrowget : s.db.candidates.get? before.candidateEventId = some row :=
    Table.get?_eq_some.mpr ⟨hrow, hrowid⟩
  have htarget : (Op.review decisionId reviewDecision note now).target s =
      some ⟨row.event, before.agentName, reviewDecision.verdict⟩ := by
    simp only [Op.target, hget, hrowget, Option.bind_eq_bind, Option.bind_some, Option.pure_def]
  have hcandidates : db.candidates = s.db.candidates := by rw [hdb]
  have hrow' : row ∈ db.candidates.rows := hcandidates ▸ hrow
  refine ⟨⟨hputs, ⟨row, hrow', hrowid, htarget⟩, .inl hcandidates, fun _ => .inl⟩, row, hrow', hrowid,
    ?_⟩
  show (db.candidates.get? before.candidateEventId).map _ = _
  rw [hcandidates, hrowget]
  rfl

theorem resolveReviewDecision_effect {s s' : System} {decisionId note : String}
    {reviewDecision : ReviewDecision} {now : IsoDate} {res : PipelineResult}
    (hs : s.Wf) (h : resolveReviewDecision s decisionId reviewDecision note now = some (s', res)) :
    ∃ d, Effect s s' (.review decisionId reviewDecision note now) d res.epochScore := by
  simp only [resolveReviewDecision, Option.bind_eq_bind, Option.bind_eq_some_iff, Prod.exists] at h
  obtain ⟨db, d, hup, h⟩ := h
  obtain ⟨before, -, hdb, -⟩ := updateReview_eq_some hup
  have hscores : db.epochScores = s.db.epochScores := by rw [hdb]
  obtain ⟨hdec, row, hrow, hrowid, hfind⟩ := review_decision hs hup
  refine ⟨d, ?_⟩
  split at h
  · rename_i hne
    obtain ⟨rfl, rfl⟩ := Prod.mk.inj (Option.some.inj h)
    exact ⟨hdec, .none hscores fun e => absurd e hne⟩
  · rename_i happ
    simp only [Option.bind_eq_some_iff, Prod.exists] at h
    obtain ⟨c, hc, db₁, es, hscore, db₂, cm, hcommit, h⟩ := h
    obtain ⟨rfl, rfl⟩ := Prod.mk.inj (Option.some.inj h)
    obtain ⟨hc₂, hd₂, -⟩ := store_eq_some hscore hcommit
    refine ⟨hdec.congr hc₂ hd₂ rfl, ?_⟩
    obtain rfl := Option.some.inj (hfind.symm.trans hc)
    exact .of_store (not_not.mp happ) rfl hrow hrowid row.event.readBack_epochKey.symm hscores hscore
      hcommit

/-- **What an operation does: one decision row, and the score of an approval.** -/
theorem step_effect {s s' : System} {op : Op} {res : PipelineResult} (hs : s.Wf)
    (h : step s op = some (s', res)) : ∃ d, Effect s s' op d res.epochScore := by
  cases op with
  | ingest row simulation decisionId now =>
    obtain ⟨candidates, hins, h⟩ := Option.bind_eq_some_iff.mp h
    exact processCandidatePipeline_effect hins h
  | deliver job result decisionId now =>
    unfold step at h
    dsimp only at h
    split at h
    · rename_i hjob
      obtain ⟨row, hrow, he⟩ := hs.jobs job hjob
      exact persistOrchestrationResult_effect hrow he h
    · cases h
  | review decisionId reviewDecision note now => exact resolveReviewDecision_effect hs h

theorem DecisionEffect.candidates_subset {s s' : System} {op : Op} {d : AgentDecision}
    (h : DecisionEffect s s' op d) {row : CandidateRow}
    (hrow : row ∈ s.db.candidates.rows) : row ∈ s'.db.candidates.rows := by
  rcases h.candidates with e | ⟨_, _, _, _, -, hins⟩
  · rw [e]
    exact hrow
  · rw [(Table.insert_eq_some hins).1]
    exact List.mem_append_left _ hrow

/-- a candidate recorded by an operation is the one the operation decides on -/
theorem DecisionEffect.candidates_cases {s s' : System} {op : Op} {d : AgentDecision}
    (h : DecisionEffect s s' op d) {row : CandidateRow}
    (hrow : row ∈ s'.db.candidates.rows) :
    row ∈ s.db.candidates.rows ∨ row.id = d.candidateEventId := by
  rcases h.candidates with e | ⟨new, simulation, decisionId, now, rfl, hins⟩
  · exact .inl (e ▸ hrow)
  · rw [(Table.insert_eq_some hins).1, List.mem_append, List.mem_singleton] at hrow
    refine hrow.imp_right ?_
    rintro rfl
    obtain ⟨row', -, hid, htarget⟩ := h.target
    have hevent : row.event = row'.event := congrArg Target.candidate (Option.some.inj htarget)
    show row.event.id = d.candidateEventId
    rw [hevent]
    exact hid

theorem DecisionEffect.approved_of_ne {s s' : System} {op : Op} {d : AgentDecision}
    (h : DecisionEffect s s' op d) {candidateId : String} (hne : candidateId ≠ d.candidateEventId) :
    s'.db.Approved candidateId ↔ s.db.Approved candidateId := by
  constructor
  · rintro ⟨d', hd', hid, happ⟩
    rcases h.puts.cases hd' with ⟨hold, -⟩ | rfl
    · exact ⟨d', hold, hid, happ⟩
    · exact absurd hid.symm hne
  · rintro ⟨d', hd', hid, happ⟩
    refine ⟨d', h.puts.of_ne hd' fun e => hne ?_, hid, happ⟩
    exact hid.symm.trans (congrArg Prod.fst e)

/-- a score row after an operation is an old one or the recompute of the operation's approval -/
theorem Effect.scores_cases {s s' : System} {op : Op} {d : AgentDecision}
    {score : Option EpochScore} (h : Effect s s' op d score) {r : ScoreRow}
    (hr : r ∈ s'.db.epochScores.rows) : r ∈ s.db.epochScores.rows ∨
    (d.decision = .approve ∧ op.preview = false ∧ (∃ c ∈ s'.db.candidates.rows,
      c.id = d.candidateEventId ∧ r.key = c.event.epochKey) ∧
      r.counted = (selectApproved s'.db r.zoneId r.epochStart).map CandidateEvent.vote) := by
  cases h.score with
  | none hscores _ => exact .inl (hscores ▸ hr)
  | stored c new hd hpre hc hid hputs hkey hcounted =>
    rcases hputs.cases hr with ⟨hold, -⟩ | rfl
    · exact .inl hold
    · exact .inr ⟨hd, hpre, ⟨c, hc, hid, hkey⟩, hcounted⟩

/-- an approval that is not a preview stores the recompute of its hour -/
theorem Effect.stored_of_approve {s s' : System} {op : Op} {d : AgentDecision}
    {score : Option EpochScore} (h : Effect s s' op d score) (hd : d.decision = .approve)
    (hpre : op.preview = false) : ∃ c ∈ s'.db.candidates.rows, c.id = d.candidateEventId ∧
    ∃ r ∈ s'.db.epochScores.rows, r.key = c.event.epochKey ∧
      r.counted = (selectApproved s'.db r.zoneId r.epochStart).map CandidateEvent.vote := by
  cases h.score with
  | none _ hwhy =>
    rw [hpre] at hwhy
    exact absurd (hwhy hd) Bool.false_ne_true
  | stored c r _ _ hc hid hputs hkey hcounted => exact ⟨c, hc, hid, r, hputs.self, hkey, hcounted⟩

/-- the score was computed with a vote of the candidate -/
def ScoreRow.Counts (r : ScoreRow) (candidateId : String) : Prop :=
  ∃ v ∈ r.counted, v.id = candidateId

instance (r : ScoreRow) (candidateId : String) : Decidable (r.Counts candidateId) :=
  inferInstanceAs (Decidable (∃ v ∈ r.counted, v.id = candidateId))

instance (db : Db) (candidateId : String) : Decidable (db.Approved candidateId) :=
  inferInstanceAs (Decidable (∃ d ∈ db.decisions.rows, _))

theorem ScoreRow.Counts.approved {r : ScoreRow} {db : Db} {candidateId : String}
    (h : r.Counts candidateId)
    (hcounted : r.counted = (selectApproved db r.zoneId r.epochStart).map CandidateEvent.vote) :
    db.Approved candidateId ∧
      ∃ row ∈ db.candidates.rows, row.id = candidateId ∧ row.event.epochKey = r.key := by
  obtain ⟨v, hv, rfl⟩ := h
  rw [hcounted] at hv
  obtain ⟨c, hc, rfl⟩ := List.mem_map.mp hv
  obtain ⟨⟨row, hrow, rfl⟩, hin, happ⟩ := mem_selectApproved.mp hc
  exact ⟨happ, row, hrow, rfl, CandidateEvent.inEpoch_iff.mp hin⟩

theorem ScoreRow.counts_of_approved {r : ScoreRow} {db : Db} {row : CandidateRow}
    (hcounted : r.counted = (selectApproved db r.zoneId r.epochStart).map CandidateEvent.vote)
    (hrow : row ∈ db.candidates.rows) (hkey : row.event.epochKey = r.key)
    (happ : db.Approved row.id) : r.Counts row.id := by
  refine ⟨row.event.vote, ?_, rfl⟩
  rw [hcounted]
  exact List.mem_map_of_mem
    (mem_selectApproved.mpr ⟨⟨row, hrow, rfl⟩, CandidateEvent.inEpoch_iff.mpr hkey, happ⟩)

theorem DecisionEffect.wf {s s' : System} {op : Op} {d : AgentDecision}
    (hs : s.Wf) (h : DecisionEffect s s' op d) : s'.Wf := by
  constructor
  · intro job hjob
    rcases h.jobs job hjob with hold | hnew
    · obtain ⟨row, hrow, e⟩ := hs.jobs job hold
      exact ⟨row, h.candidates_subset hrow, e⟩
    · exact hnew
  · intro d' hd'
    rcases h.puts.cases hd' with ⟨hold, -⟩ | rfl
    · obtain ⟨row, hrow, e⟩ := hs.decisions d' hold
      exact ⟨row, h.candidates_subset hrow, e⟩
    · obtain ⟨row, hrow, hid, -⟩ := h.target
      exact ⟨row, hrow, hid⟩

theorem next_effect {s s' : System} {op : Op} (hs : s.Wf) (h : next s op = some s') :
    ∃ res d, step s op = some (s', res) ∧ Effect s s' op d res.epochScore := by
  obtain ⟨⟨_, res⟩, hstep, rfl⟩ := Option.map_eq_some_iff.mp h
  obtain ⟨d, heff⟩ := step_effect hs hstep
  exact ⟨res, d, hstep, heff⟩

theorem next_wf {s s' : System} {op : Op} (hs : s.Wf) (h : next s op = some s') : s'.Wf := by
  obtain ⟨_, _, _, heff⟩ := next_effect hs h
  exact heff.wf hs

/-! ## inputs of the runs that are checked by evaluation -/

def sampleTime : IsoDate := ⟨"2026-01-01T12:00:00.000Z", 1767268800000000⟩

/-- a candidate of zone `z` whose window ends at `sampleTime` -/
def sampleRow (id : String) (status : CandidateStatus) (confidence : ℚ) : CandidateRow where
  candidateKey := id
  event :=
    { id := id
      zoneId := "z"
      status := status
      confidence := confidence
      windowStart := sampleTime
      windowEnd := sampleTime
      evidenceEventIds := []
      createdAt := sampleTime }

/-- the agents agree on a verdict with confidence 0.9 -/
def sampleResult (verdict : Verdict) : OrchestrationResult :=
  .agentDecision ⟨"", 9 / 10, []⟩ ⟨verdict, 9 / 10, ""⟩

end Pipeline
