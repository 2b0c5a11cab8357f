import GridProof.Lib.Runs
import GridProof.Pipeline.Operations

/-!
# Operations, one statement at a time

The API and the worker send the statements of an operation one after the other, without a
transaction, so the statements of several operations interleave.

* `statement`        the next statement of an operation, from the phase the operation is in;
* `next_eq_complete` an operation whose statements run in a row is the `next` of `Operations`;
* `storeDecision_effect`, `statement_selected`, `statement_scored`   what a statement does to the
                     tables.

The candidate is recorded together with the policy gate's decision on it, and a review reads the old
decision, updates it and reads the candidate as one statement: nothing else writes these rows.
-/

namespace Pipeline

/-! ## phases -/

inductive Phase where
  | started (op : Op)
  /-- the approval is stored; next is the query of the recompute -/
  | decided (candidate : CandidateEvent) (byWorker : Bool) (now : IsoDate)
  /-- the query has returned; next is the score -/
  | selected (candidate : CandidateEvent) (votes : List Vote) (now : IsoDate)
  /-- the score is stored; next is the commitment -/
  | scored (candidate : CandidateEvent) (epochScore : EpochScore) (now : IsoDate)
  /-- with the candidate, if a score was stored -/
  | finished (candidate : Option CandidateEvent)

/-- the first statement of an operation: its decision -/
def storeDecision (s : System) : Op → Option (System × Phase)
  | .ingest row simulation decisionId now => do
    let candidates ← s.db.candidates.insert row
    let (db, stored) ← upsertDatabaseDecision { s.db with candidates := candidates }
      (decisionForCandidate decisionId now row.event)
    match stored.decision with
    | .approve =>
      if previewOnly simulation then return (⟨db, s.jobs⟩, .finished none)
      return (⟨db, s.jobs⟩, .decided row.event false now)
    | .escalate => return (⟨db, s.jobs ++ [⟨row.event, simulation⟩]⟩, .finished none)
    | .reject => return (⟨db, s.jobs⟩, .finished none)
  | .deliver job result decisionId now =>
    if job ∈ s.jobs then do
      let decision := agentDecisionFromResult decisionId now job result
      let (db, _) ← upsertDatabaseDecision s.db decision
      if decision.decision ≠ .approve then return (⟨db, s.jobs⟩, .finished none)
      if previewOnly job.simulation then return (⟨db, s.jobs⟩, .finished none)
      return (⟨db, s.jobs⟩, .decided job.candidate true now)
    else none
  | .review decisionId reviewDecision note now => do
    let (db, decision) ← updateReview s.db decisionId reviewDecision note now
    if decision.decision ≠ .approve then return (⟨db, s.jobs⟩, .finished none)
    let candidate ← findDatabaseCandidate db decision.candidateEventId
    return (⟨db, s.jobs⟩, .decided candidate false now)

/-- the votes of a recompute, by the worker or by the API -/
def recomputeVotes (db : Db) (candidate : CandidateEvent) (byWorker : Bool) : List Vote :=
  let approved := selectApproved db candidate.zoneId (floorToEpoch candidate.windowEnd)
  if byWorker then workerVotes candidate approved else approved.map CandidateEvent.vote

/-- the next statement of an operation -/
def statement (s : System) : Phase → Option (System × Phase)
  | .started op => storeDecision s op
  | .decided candidate byWorker now =>
    some (s, .selected candidate (recomputeVotes s.db candidate byWorker) now)
  | .selected candidate votes now => do
    let (db, epochScore) ← upsertEpochScore s.db
      (.ofVotes candidate.zoneId (floorToEpoch candidate.windowEnd) votes)
    return (⟨db, s.jobs⟩, .scored candidate epochScore now)
  | .scored candidate epochScore now => do
    let (db, _) ← upsertDatabasePendingCommitment s.db epochScore now
    return (⟨db, s.jobs⟩, .finished (some candidate))
  | .finished _ => none

/-! ## an operation is its statements in a row -/

/-- `n` statements of one operation -/
def statements (s : System) (phase : Phase) : Nat → Option (System × Phase)
  | 0 => some (s, phase)
  | n + 1 => (statement s phase).bind fun (s', phase') => statements s' phase' n

/-- the rest of an operation after its decision -/
def complete (s : System) : Phase → Option System
  | .finished _ => some s
  | phase => (statements s phase 3).map Prod.fst

theorem complete_decided (s : System) (candidate : CandidateEvent) (byWorker : Bool)
    (now : IsoDate) : complete s (.decided candidate byWorker now) =
    (upsertEpochScore s.db (.ofVotes candidate.zoneId (floorToEpoch candidate.windowEnd)
      (recomputeVotes s.db candidate byWorker))).bind fun p =>
        (upsertDatabasePendingCommitment p.1 p.2 now).map fun q => ⟨q.1, s.jobs⟩ := by
  show (statements s (.decided candidate byWorker now) 3).map Prod.fst = _
  simp only [statements, statement, Option.bind_eq_bind, Option.bind_some, Option.pure_def]
  cases upsertEpochScore s.db (.ofVotes candidate.zoneId (floorToEpoch candidate.windowEnd)
      (recomputeVotes s.db candidate byWorker)) with
  | none => rfl
  | some p =>
    simp only [Option.bind_some]
    cases upsertDatabasePendingCommitment p.1 p.2 now with
    | none => rfl
    | some q => rfl

/-- what an operation stores does not depend on what it returns -/
theorem map_fst_bind_bind {α β γ δ : Type*} {x : Option α} {u : α → Option β} {f : α → β → γ}
    {g : α → β → δ} : (x.bind fun a => (u a).bind fun b => some (f a b, g a b)).map Prod.fst =
      x.bind fun a => (u a).map (f a) := by
  cases x with
  | none => rfl
  | some a =>
    simp only [Option.bind_some]
    cases u a with
    | none => rfl
    | some b => rfl

/-- **An operation is its decision and then the rest of its statements, in a row.** -/
theorem next_eq_complete (s : System) (op : Op) :
    next s op = (storeDecision s op).bind fun p => complete p.1 p.2 := by
  cases op with
  | ingest row simulation decisionId now =>
    simp only [next, step, storeDecision, processCandidatePipeline, Option.bind_eq_bind,
      Option.pure_def]
    cases s.db.candidates.insert row with
    | none => rfl
    | some candidates =>
      simp only [Option.bind_some]
      cases upsertDatabaseDecision { s.db with candidates := candidates }
          (decisionForCandidate decisionId now row.event) with
      | none => rfl
      | some p =>
        obtain ⟨db, stored⟩ := p
        simp only [Option.bind_some]
        cases stored.decision with
        | approve =>
          dsimp only
          split
          · rfl
          · simp only [Option.bind_some, complete_decided]
            exact map_fst_bind_bind
        | escalate => rfl
        | reject => rfl
  | deliver job result decisionId now =>
    simp only [next, step, storeDecision, persistOrchestrationResult, queueApprovedDecisionForChain,
      Option.bind_eq_bind, Option.pure_def]
    split
    · cases upsertDatabaseDecision s.db (agentDecisionFromResult decisionId now job result) with
      | none => rfl
      | some p =>
        simp only [Option.bind_some]
        split
        · rfl
        · split
          · rfl
          · simp only [Option.bind_some, complete_decided, Option.bind_assoc]
            exact map_fst_bind_bind
    · rfl
  | review decisionId reviewDecision note now =>
    simp only [next, step, storeDecision, resolveReviewDecision, Option.bind_eq_bind,
      Option.pure_def]
    cases updateReview s.db decisionId reviewDecision note now with
    | none => rfl
    | some p =>
      simp only [Option.bind_some]
      split
      · rfl
      · cases findDatabaseCandidate p.1 p.2.candidateEventId with
        | none => rfl
        | some candidate =>
          simp only [Option.bind_some, complete_decided]
          exact map_fst_bind_bind

/-! ## what a statement does -/

/-- the candidate whose score the operation stores, once its decision is an approval -/
def Phase.candidate : Phase → Option CandidateEvent
  | .started _ => none
  | .decided candidate _ _ => some candidate
  | .selected candidate _ _ => some candidate
  | .scored candidate _ _ => some candidate
  | .finished candidate => candidate

/-- the candidate of an approval, as the approval reads it -/
def Db.Records (db : Db) (c : CandidateEvent) : Prop :=
  ∃ row ∈ db.candidates.rows, row.id = c.id ∧ row.event.epochKey = c.epochKey

theorem storeDecision_effect {s s' : System} {op : Op} {phase : Phase} (hs : s.Wf)
    (h : storeDecision s op = some (s', phase)) : ∃ d, DecisionEffect s s' op d ∧
    s'.db = { s.db with candidates := s'.db.candidates, decisions := s'.db.decisions } ∧
    (phase = .finished none ∨ ∃ c byWorker now, phase = .decided c byWorker now ∧
      d.decision = .approve ∧ d.candidateEventId = c.id ∧ s'.db.Records c) := by
  cases op with
  | ingest row simulation decisionId now =>
    simp only [storeDecision, Option.bind_eq_bind, Option.bind_eq_some_iff, Prod.exists] at h
    obtain ⟨candidates, hins, db, d, hup, h⟩ := h
    have hframe : db = { s.db with candidates := db.candidates, decisions := db.decisions } := by
      rw [(upsertDatabaseDecision_eq_some hup).1]
    obtain ⟨hdec, hrow, hid⟩ :=
      @ingest_decision s candidates row simulation decisionId now db d s.jobs hins hup fun _ => .inl
    cases hd : d.decision with
    | approve =>
      rw [hd] at h
      dsimp only at h
      split at h
      · cases h
        exact ⟨d, hdec, hframe, .inl rfl⟩
      · cases h
        exact ⟨d, hdec, hframe, .inr ⟨_, _, _, rfl, hd, hid.symm, row, hrow, rfl, rfl⟩⟩
    | escalate =>
      rw [hd] at h
      cases h
      refine ⟨d, (ingest_decision hins hup fun job hjob => ?_).1, hframe, .inl rfl⟩
      exact (List.mem_append.mp hjob).imp id List.mem_singleton.mp
    | reject =>
      rw [hd] at h
      cases h
      exact ⟨d, hdec, hframe, .inl rfl⟩
  | deliver job result decisionId now =>
    unfold storeDecision at h
    dsimp only at h
    split at h
    · rename_i hjob
      simp only [Option.bind_eq_bind, Option.bind_eq_some_iff, Prod.exists] at h
      obtain ⟨db, d, hup, h⟩ := h
      obtain ⟨row, hrow, he⟩ := hs.jobs job hjob
      obtain ⟨hdb, -, -, hverdict⟩ := upsertDatabaseDecision_eq_some hup
      have hframe : db = { s.db with candidates := db.candidates, decisions := db.decisions } := by
        rw [hdb]
      obtain ⟨hdec, hrow', hid⟩ := deliver_decision hrow he hup
      split at h
      · cases h
        exact ⟨d, hdec, hframe, .inl rfl⟩
      · rename_i happ
        split at h
        · cases h
          exact ⟨d, hdec, hframe, .inl rfl⟩
        · cases h
          refine ⟨d, hdec, hframe, .inr ⟨_, _, _, rfl, hverdict.trans (not_not.mp happ), ?_, row, hrow',
            ?_, ?_⟩⟩
          · rw [← hid, ← he]
          · rw [← he]
          · rw [← he]
    · cases h
  | review decisionId reviewDecision note now =>
    simp only [storeDecision, Option.bind_eq_bind, Option.bind_eq_some_iff, Prod.exists] at h
    obtain ⟨db, d, hup, h⟩ := h
    obtain ⟨before, -, hdb, -⟩ := updateReview_eq_some hup
    have hframe : db = { s.db with candidates := db.candidates, decisions := db.decisions } := by
      rw [hdb]
    obtain ⟨hdec, row, hrow, hid, hfind⟩ := review_decision hs hup
    split at h
    · cases h
      exact ⟨d, hdec, hframe, .inl rfl⟩
    · rename_i happ
      simp only [hfind, Option.bind_some] at h
      cases h
      refine ⟨d, hdec, hframe, .inr ⟨row.event.readBack, _, _, rfl, not_not.mp happ, ?_, row, hrow, ?_,
        row.event.readBack_epochKey.symm⟩⟩
      · rw [CandidateEvent.readBack_id]
        exact hid.symm
      · rw [CandidateEvent.readBack_id]

theorem statement_selected {s s' : System} {c : CandidateEvent} {votes : List Vote} {now : IsoDate}
    {phase : Phase} (h : statement s (.selected c votes now) = some (s', phase)) :
    s'.db = { s.db with epochScores := s'.db.epochScores } ∧ s'.jobs = s.jobs ∧ ∃ r : ScoreRow,
    s.db.epochScores.Puts s'.db.epochScores r ∧ r.key = c.epochKey ∧ r.counted = votes ∧
    phase = .scored c r.toEpochScore now := by
  simp only [statement, Option.bind_eq_bind, Option.bind_eq_some_iff, Prod.exists] at h
  obtain ⟨db, es, hup, h⟩ := h
  cases h
  obtain ⟨hdb, r, hputs, hkey, hcounted, rfl⟩ := upsertEpochScore_eq_some hup
  exact ⟨hdb, rfl, r, hputs, hkey, hcounted, rfl⟩

theorem statement_scored {s s' : System} {c : CandidateEvent} {es : EpochScore} {now : IsoDate}
    {phase : Phase} (h : statement s (.scored c es now) = some (s', phase)) :
    s'.db = { s.db with commitments := s'.db.commitments } ∧ s'.jobs = s.jobs ∧
    (∃ commitment, s.db.commitments.Puts s'.db.commitments commitment ∧
      commitment = s.db.commitments.stored (pendingCommitmentForEpochScore es now)
        (pendingCommitmentForEpochScore es now).overwrite) ∧
    phase = .finished (some c) := by
  obtain ⟨⟨db, commitment⟩, hup, h⟩ := Option.bind_eq_some_iff.mp h
  obtain ⟨rfl, rfl⟩ := Prod.mk.inj (Option.some.inj h)
  obtain ⟨hdb, hputs, hstored⟩ := upsertCommitment_eq_some hup
  exact ⟨hdb, rfl, ⟨commitment, hputs, hstored⟩, rfl⟩

theorem statement_wf {s s' : System} {phase phase' : Phase} (hs : s.Wf)
    (h : statement s phase = some (s', phase')) : s'.Wf := by
  cases phase with
  | started op =>
    obtain ⟨d, hdec, -⟩ := storeDecision_effect hs h
    exact hdec.wf hs
  | decided c byWorker now =>
    obtain ⟨hsystem, -⟩ := Prod.mk.inj (Option.some.inj h)
    exact hsystem ▸ hs
  | selected c votes now =>
    obtain ⟨hframe, hjobs, -⟩ := statement_selected h
    exact hs.congr (by rw [hframe]) (by rw [hframe]) hjobs
  | scored c es now =>
    obtain ⟨hframe, hjobs, -⟩ := statement_scored h
    exact hs.congr (by rw [hframe]) (by rw [hframe]) hjobs
  | finished c => cases h

end Pipeline
