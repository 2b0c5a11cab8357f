import GridProof.Pipeline.Agents
import GridProof.Pipeline.Worker

/-!
# The worker's guardrail

A job of the worker, from the agents' replies to the statements that persist the result.  A statement may
fail, and there is no transaction around them.

* `persistOrchestrationResult`   the statements, one after the other;
* `persistOrchestrationResult_returns`  a run that returns did what the operation on the database does;
* `NoProof`                      nothing was written to the scores or the commitments;
* `persistOrchestrationResult_noProof`  without an approval that may be written, this holds of every run;
* `worker_guardrail`             a score or a commitment is written only for an accepted approval, and a
                                 review that fails leaves an escalation.

The ids and times that a statement draws are those of `Draws`.  That two random ids of the audit log are
equal is one of the ways in which a statement can fail.
-/

namespace Pipeline

namespace ResultSink

/-! ## the store -/

structure OrchestrationInput extends AgentReviewJob where
  /-- the ids of the evidence; the rest of it, and the providers, are read by the agents only -/
  evidenceIds : List String

inductive AuditAfter where
  /-- `agent_decision.created` -/
  | agentDecisionCreated (decision : AgentDecision) (id zoneId : String) (status : CandidateStatus)
      (confidence : ℚ) (evidenceEventIds : List String)
  /-- `demo.proof_previewed` -/
  | demoProofPreviewed (runId initiatedBy : Option String) (candidateEventId decisionId reason : String)
  /-- `chain_commitment.queued` -/
  | chainCommitmentQueued (source : String) (epochScore : EpochScore) (commitment : ChainCommitment)

/-- a random id and the time -/
structure Stamp where
  id : String
  createdAt : IsoDate

structure AuditLog extends Stamp where
  after : AuditAfter

/-- a statement that was carried out, with the row that it left -/
inductive Write where
  | decision (decision : AgentDecision)
  | audit (log : AuditLog)
  | epochScore (epochScore : EpochScore)
  | commitment (commitment : ChainCommitment)

/-- the write is one of a score or of a commitment -/
def Write.IsProof : Write → Prop
  | .epochScore _ => True
  | .commitment _ => True
  | _ => False

structure Store where
  db : Db
  auditLogs : List AuditLog
  /-- what the worker has written -/
  writes : List Write

inductive DbError where
  /-- a unique column or a foreign key -/
  | violation
  /-- anything else: the connection, a timeout, a full disk -/
  | failed

abbrev Statements := Script Store DbError

variable {α : Type}

/-- a statement on the tables that answers with the row it left -/
def upsert (write : α → Write) (run : Db → Option (Db × α)) : Statements α :=
  Script.execute fun s =>
    match run s.db with
    | none => .error .violation
    | some (db, row) => .ok ({ s with db := db, writes := s.writes ++ [write row] }, row)

def query (read : Db → α) : Statements α := Script.execute fun s => .ok (s, read s.db)

def insertAuditLog (log : AuditLog) : Statements PUnit :=
  Script.execute fun s =>
    .ok ({ s with auditLogs := s.auditLogs ++ [log], writes := s.writes ++ [.audit log] }, ⟨⟩)

/-! ## the sink -/

/-- what the statements of one job draw -/
structure Draws where
  decision : Stamp
  audit : Stamp
  preview : Stamp
  commitment : IsoDate
  queued : Stamp

inductive PersistResult where
  | persisted (decision : AgentDecision) (epochScore : Option EpochScore)
      (commitment : Option ChainCommitment)
  | notPersisted (decision : AgentDecision) (reason : String)

def auditAgentDecision (input : OrchestrationInput) (decision : AgentDecision) (stamp : Stamp) :
    Statements PUnit :=
  insertAuditLog ⟨stamp, .agentDecisionCreated decision input.candidate.id input.candidate.zoneId
    input.candidate.status input.candidate.confidence input.evidenceIds⟩

def auditSimulationProofPreview (input : OrchestrationInput) (decision : AgentDecision) (stamp : Stamp) :
    Statements PUnit :=
  insertAuditLog ⟨stamp, .demoProofPreviewed (input.simulation.map Simulation.runId)
    (input.simulation.map Simulation.initiatedBy) input.candidate.id decision.id
    "Synthetic demo chain writes are disabled"⟩

def auditChainQueued (epochScore : EpochScore) (commitment : ChainCommitment) (stamp : Stamp) :
    Statements PUnit :=
  insertAuditLog ⟨stamp, .chainCommitmentQueued "ai_worker_approval" epochScore commitment⟩

def queueApprovedDecisionForChain (candidate : CandidateEvent) (now : IsoDate) :
    Statements (EpochScore × ChainCommitment) := do
  let epochStart := Worker.floorToEpoch candidate.windowEnd
  let approvedCandidates ← query fun db => Worker.selectApproved db candidate.zoneId epochStart
  let fallbackCandidates :=
    if approvedCandidates.length > 0 then approvedCandidates else [.ofCandidate candidate]
  let storedEpochScore ← upsert .epochScore fun db =>
    upsertEpochScore db (Worker.scoreRow candidate.zoneId epochStart fallbackCandidates)
  let commitment ← upsert .commitment fun db =>
    upsertCommitment db (Worker.pendingCommitmentForEpochScore storedEpochScore now)
  return (storedEpochScore, commitment)

/-- the statements behind the decision's own -/
def persistApproval (input : OrchestrationInput) (decision : AgentDecision) (draws : Draws) :
    Statements PersistResult :=
  if decision.decision ≠ .approve then return .persisted decision none none
  else if previewOnly input.simulation then do
    auditSimulationProofPreview input decision draws.preview
    return .persisted decision none none
  else do
    let (epochScore, commitment) ← queueApprovedDecisionForChain input.candidate draws.commitment
    auditChainQueued epochScore commitment draws.queued
    return .persisted decision (some epochScore) (some commitment)

/-- `configured`: `DATABASE_URL` is set -/
def persistOrchestrationResult (configured : Bool) (input : OrchestrationInput)
    (result : OrchestrationResult) (draws : Draws) : Statements PersistResult :=
  let decision :=
    agentDecisionFromResult draws.decision.id draws.decision.createdAt input.toAgentReviewJob result
  if configured = false then return .notPersisted decision "DATABASE_URL is not configured"
  else do
    let _ ← upsert .decision fun db => upsertDatabaseDecision db decision
    auditAgentDecision input decision draws.audit
    persistApproval input decision draws

/-- a job that is delivered to the worker -/
def processJob {τ : Type} (env : AgentEnv τ) (configured : Bool) (input : OrchestrationInput) (draws : Draws) :
    Statements PersistResult :=
  persistOrchestrationResult configured input env.orchestrate draws

/-! ## the statements -/

section
variable {P R : Store → Prop} {write : α → Write} {run : Db → Option (Db × α)}

theorem upsert_triple {Q : α → Store → Prop}
    (hok : ∀ s db row, P s → run s.db = some (db, row) →
      Q row { s with db := db, writes := s.writes ++ [write row] })
    (herror : ∀ s, P s → R s) : Script.Triple P (upsert write run) Q fun _ => R := by
  refine Script.Triple.execute ?_ fun s _ hs => herror s hs
  intro s t row hs h
  cases hrun : run s.db with
  | none =>
    rw [hrun] at h
    exact nomatch h
  | some answer =>
    obtain ⟨db, row'⟩ := answer
    rw [hrun] at h
    obtain ⟨rfl, rfl⟩ := Prod.mk.inj (Except.ok.inj h)
    exact hok s db _ hs hrun

theorem insertAuditLog_triple {log : AuditLog} {Q : Store → Prop}
    (hok : ∀ s, P s → Q { s with auditLogs := s.auditLogs ++ [log], writes := s.writes ++ [.audit log] })
    (herror : ∀ s, P s → R s) : Script.Triple P (insertAuditLog log) (fun _ => Q) fun _ => R := by
  refine Script.Triple.execute ?_ fun s _ hs => herror s hs
  intro s t _ hs h
  obtain ⟨rfl, -⟩ := Prod.mk.inj (Except.ok.inj h)
  exact hok s hs

theorem query_triple {read : Db → α} :
    Script.Triple P (query read) (fun a s => P s ∧ a = read s.db) fun _ => P := by
  refine Script.Triple.execute ?_ fun s _ hs => hs
  intro s t a hs h
  obtain ⟨rfl, rfl⟩ := Prod.mk.inj (Except.ok.inj h)
  exact ⟨hs, rfl⟩

end

/-! ## what was written -/

/-- since `s₀` the worker wrote only what `p` allows -/
def Store.Wrote (p : Write → Prop) (s₀ s : Store) : Prop :=
  ∃ new, s.writes = s₀.writes ++ new ∧ ∀ w ∈ new, p w

theorem Store.Wrote.refl {p : Write → Prop} (s : Store) : s.Wrote p s :=
  ⟨[], (List.append_nil _).symm, fun _ hw => absurd hw List.not_mem_nil⟩

theorem Store.Wrote.append {p : Write → Prop} {s₀ s t : Store} {w : Write} (h : s₀.Wrote p s)
    (ht : t.writes = s.writes ++ [w]) (hw : p w) : s₀.Wrote p t := by
  obtain ⟨new, hs, hnew⟩ := h
  refine ⟨new ++ [w], ?_, ?_⟩
  · rw [ht, hs, List.append_assoc]
  · intro v hv
    rcases List.mem_append.mp hv with hold | hlast
    · exact hnew v hold
    · rw [List.mem_singleton.mp hlast]
      exact hw

/-- neither a score nor a commitment was written -/
structure NoProof (s₀ s : Store) : Prop where
  wrote : s₀.Wrote (fun w => ¬ w.IsProof) s
  epochScores : s.db.epochScores = s₀.db.epochScores
  commitments : s.db.commitments = s₀.db.commitments

theorem NoProof.refl (s : Store) : NoProof s s := ⟨.refl s, rfl, rfl⟩

/-- the decision's row was put -/
def Decided (decision : AgentDecision) (s₀ s : Store) : Prop :=
  ∃ d new, s.writes = s₀.writes ++ .decision d :: new ∧ s₀.db.decisions.Puts s.db.decisions d ∧
    d.key = decision.key ∧ d.decision = decision.decision

theorem Decided.append {decision : AgentDecision} {s₀ s t : Store} {w : Write} (h : Decided decision s₀ s)
    (ht : t.writes = s.writes ++ [w]) (hdb : t.db.decisions = s.db.decisions) : Decided decision s₀ t := by
  obtain ⟨d, new, hs, hputs, hkey, hverdict⟩ := h
  refine ⟨d, new ++ [w], ?_, hdb ▸ hputs, hkey, hverdict⟩
  rw [ht, hs, List.append_assoc]
  rfl

/-! ## every run -/

variable {input : OrchestrationInput} {decision : AgentDecision} {result : OrchestrationResult}
  {draws : Draws} {s₀ : Store}

theorem queueApprovedDecisionForChain_keeps {P : Store → Prop} {candidate : CandidateEvent} {now : IsoDate}
    (hscore : ∀ s scores row, P s → P { s with
      db := { s.db with epochScores := scores }, writes := s.writes ++ [.epochScore row] })
    (hcommitment : ∀ s commitments row, P s → P { s with
      db := { s.db with commitments := commitments }, writes := s.writes ++ [.commitment row] }) :
    Script.Keeps P (queueApprovedDecisionForChain candidate now) := by
  refine Script.Triple.bind (query_triple.mono (fun _ hs => hs) (fun _ _ hs => hs.1) fun _ _ hs => hs) ?_
  intro approved
  refine Script.Keeps.bind (upsert_triple ?_ fun _ hs => hs) fun epochScore => ?_
  · intro s db row hs h
    rw [(upsertEpochScore_eq_some h).1]
    exact hscore s _ row hs
  · refine Script.Keeps.bind (upsert_triple ?_ fun _ hs => hs) fun commitment => .pure
    intro s db row hs h
    rw [(upsertCommitment_eq_some h).1]
    exact hcommitment s _ row hs

/-- what the audit log keeps, and a score and a commitment keep where they may be written -/
theorem persistApproval_keeps {P : Store → Prop}
    (haudit : ∀ s log, P s → P { s with
      auditLogs := s.auditLogs ++ [log], writes := s.writes ++ [.audit log] })
    (hscore : decision.decision = .approve ∧ previewOnly input.simulation = false → ∀ s scores row, P s →
      P { s with db := { s.db with epochScores := scores }, writes := s.writes ++ [.epochScore row] })
    (hcommitment : decision.decision = .approve ∧ previewOnly input.simulation = false →
      ∀ s commitments row, P s →
      P { s with db := { s.db with commitments := commitments }, writes := s.writes ++ [.commitment row] }) :
    Script.Keeps P (persistApproval input decision draws) := by
  have hlog (log : AuditLog) : Script.Keeps P (insertAuditLog log) :=
    insertAuditLog_triple (fun s hs => haudit s log hs) fun _ hs => hs
  refine Script.Triple.ite (fun _ => Script.Keeps.pure) fun happrove => ?_
  refine Script.Triple.ite (fun _ => (hlog _).bind fun _ => .pure) fun hpreview => ?_
  have hallowed : decision.decision = .approve ∧ previewOnly input.simulation = false :=
    ⟨not_not.mp happrove, Bool.eq_false_of_not_eq_true hpreview⟩
  refine Script.Keeps.bind (queueApprovedDecisionForChain_keeps (hscore hallowed) (hcommitment hallowed)) ?_
  exact fun _ => (hlog _).bind fun _ => .pure

theorem persistOrchestrationResult_keeps {P : Store → Prop} {configured : Bool}
    (hdecision : ∀ s decisions row, P s →
      P { s with db := { s.db with decisions := decisions }, writes := s.writes ++ [.decision row] })
    (haudit : ∀ s log, P s → P { s with
      auditLogs := s.auditLogs ++ [log], writes := s.writes ++ [.audit log] })
    (hdecided : decision = agentDecisionFromResult draws.decision.id draws.decision.createdAt
      input.toAgentReviewJob result)
    (hscore : decision.decision = .approve ∧ previewOnly input.simulation = false → ∀ s scores row, P s →
      P { s with db := { s.db with epochScores := scores }, writes := s.writes ++ [.epochScore row] })
    (hcommitment : decision.decision = .approve ∧ previewOnly input.simulation = false →
      ∀ s commitments row, P s →
      P { s with db := { s.db with commitments := commitments }, writes := s.writes ++ [.commitment row] }) :
    Script.Keeps P (persistOrchestrationResult configured input result draws) := by
  subst hdecided
  refine Script.Triple.ite (fun _ => Script.Keeps.pure) fun _ => ?_
  refine Script.Keeps.bind (upsert_triple ?_ fun _ hs => hs) fun _ => ?_
  · intro s db row hs h
    rw [(upsertDatabaseDecision_eq_some h).1]
    exact hdecision s _ row hs
  · refine Script.Keeps.bind (insertAuditLog_triple (fun s hs => haudit s _ hs) fun _ hs => hs) fun _ => ?_
    exact persistApproval_keeps haudit hscore hcommitment

theorem persistOrchestrationResult_wrote {configured : Bool} : Script.Keeps (s₀.Wrote fun _ => True)
    (persistOrchestrationResult configured input result draws) := by
  refine persistOrchestrationResult_keeps ?_ ?_ rfl ?_ ?_
  · exact fun _ _ _ hs => hs.append rfl trivial
  · exact fun _ _ hs => hs.append rfl trivial
  · exact fun _ _ _ _ hs => hs.append rfl trivial
  · exact fun _ _ _ _ hs => hs.append rfl trivial

/-- without an approval that may be written, neither a score nor a commitment is -/
theorem persistOrchestrationResult_noProof {configured : Bool}
    (hdecided : decision = agentDecisionFromResult draws.decision.id draws.decision.createdAt
      input.toAgentReviewJob result)
    (h : ¬ (decision.decision = .approve ∧ previewOnly input.simulation = false)) :
    Script.Keeps (NoProof s₀) (persistOrchestrationResult configured input result draws) := by
  refine persistOrchestrationResult_keeps ?_ ?_ hdecided (fun ha => absurd ha h) fun ha => absurd ha h
  · exact fun _ _ _ hs => ⟨hs.wrote.append rfl id, hs.epochScores, hs.commitments⟩
  · exact fun _ _ hs => ⟨hs.wrote.append rfl id, hs.epochScores, hs.commitments⟩

/-- where a database is configured, a run puts the decision's row or leaves the store as it was -/
theorem persistOrchestrationResult_decided
    (hdecided : decision = agentDecisionFromResult draws.decision.id draws.decision.createdAt
      input.toAgentReviewJob result) :
    Script.Triple (fun s => s = s₀) (persistOrchestrationResult true input result draws)
      (fun _ s => Decided decision s₀ s) fun _ s => s = s₀ ∨ Decided decision s₀ s := by
  have hrest : Script.Keeps (Decided decision s₀) (persistApproval input decision draws) := by
    refine persistApproval_keeps ?_ ?_ ?_
    · exact fun _ _ hs => hs.append rfl rfl
    · exact fun _ _ _ _ hs => hs.append rfl rfl
    · exact fun _ _ _ _ hs => hs.append rfl rfl
  unfold persistOrchestrationResult
  rw [← hdecided]
  refine Script.Triple.ite (fun h : true = false => absurd h.symm Bool.false_ne_true) fun _ => ?_
  refine Script.Triple.bind (Q := fun _ => Decided decision s₀) (upsert_triple ?_ fun _ hs => .inl hs) ?_
  · rintro s db row rfl h
    obtain ⟨-, hputs, hkey, hverdict⟩ := upsertDatabaseDecision_eq_some h
    exact ⟨row, [], rfl, hputs, hkey, hverdict⟩
  · intro _
    refine Script.Triple.bind (Q := fun _ => Decided decision s₀) (insertAuditLog_triple ?_ fun _ hs => .inr hs) ?_
    · exact fun _ hs => hs.append rfl rfl
    · exact fun _ => hrest.mono (fun _ hs => hs) (fun _ _ hs => hs) fun _ _ hs => .inr hs

/-! ## runs that return -/

section
variable {db : Db}

theorem queueApprovedDecisionForChain_returns {candidate : CandidateEvent} {now : IsoDate} :
    Script.Triple (fun s => s.db = db) (queueApprovedDecisionForChain candidate now)
      (fun stored s => Pipeline.queueApprovedDecisionForChain db candidate now =
        some (s.db, stored.1, stored.2)) fun _ _ => True := by
  rw [← Worker.queueApprovedDecisionForChain_eq]
  refine Script.Triple.bind (query_triple.mono (fun _ hs => hs) (fun _ _ hs => hs) fun _ _ _ => trivial) ?_
  intro approved
  refine Script.Triple.bind (Q := fun epochScore s => upsertEpochScore db (Worker.scoreRow candidate.zoneId
      (Worker.floorToEpoch candidate.windowEnd) (if approved.length > 0 then approved else [.ofCandidate candidate])) =
      some (s.db, epochScore) ∧ approved = Worker.selectApproved db candidate.zoneId
      (Worker.floorToEpoch candidate.windowEnd)) (upsert_triple ?_ fun _ _ => trivial) ?_
  · rintro s db' row ⟨rfl, happroved⟩ h
    exact ⟨h, happroved⟩
  · intro epochScore
    refine Script.Triple.bind (Q := fun commitment s => Worker.queueApprovedDecisionForChain db candidate now =
      some (s.db, epochScore, commitment)) (upsert_triple ?_ fun _ _ => trivial) ?_
    · rintro s db' row ⟨hscore, rfl⟩ h
      exact Option.bind_eq_some_iff.mpr ⟨_, hscore, Option.bind_eq_some_iff.mpr ⟨_, h, rfl⟩⟩
    · exact fun commitment => .pure fun _ h => h

/-- **A run that returns did what the operation on the database does.** -/
theorem persistOrchestrationResult_returns {jobs : List AgentReviewJob}
    (hnow : draws.commitment = draws.decision.createdAt) :
    Script.Triple (fun s => s.db = db) (persistOrchestrationResult true input result draws)
      (fun r s => ∃ res : PipelineResult, Pipeline.persistOrchestrationResult ⟨db, jobs⟩
        input.toAgentReviewJob result draws.decision.id draws.decision.createdAt = some (⟨s.db, jobs⟩, res) ∧
        r = .persisted res.decision res.epochScore res.commitment) fun _ _ => True := by
  unfold persistOrchestrationResult Pipeline.persistOrchestrationResult
  rw [← hnow]
  refine Script.Triple.ite (fun h : true = false => absurd h.symm Bool.false_ne_true) fun _ => ?_
  generalize agentDecisionFromResult draws.decision.id draws.commitment input.toAgentReviewJob result = decision
  -- after the decision's row only the branch of the verdict is left
  refine Script.Triple.bind (Q := fun row s => upsertDatabaseDecision db decision = some (s.db, row))
    (upsert_triple ?_ fun _ _ => trivial) fun row => ?_
  · rintro s db' row rfl h
    exact h
  refine Script.Triple.bind (Q := fun _ s => upsertDatabaseDecision db decision = some (s.db, row))
    (insertAuditLog_triple ?_ fun _ _ => trivial) fun _ => ?_
  · exact fun _ hs => hs
  refine Script.Triple.ite (fun hverdict => Script.Triple.pure ?_) fun happrove => ?_
  · intro s hs
    exact ⟨⟨decision, none, none⟩, Option.bind_eq_some_iff.mpr ⟨_, hs, if_pos hverdict⟩, rfl⟩
  refine Script.Triple.ite (fun hpreview => ?_) fun hpreview => ?_
  · refine Script.Triple.bind (Q := fun _ s => upsertDatabaseDecision db decision = some (s.db, row))
      (insertAuditLog_triple ?_ fun _ _ => trivial) fun _ => Script.Triple.pure ?_
    · exact fun _ hs => hs
    · intro s hs
      refine ⟨⟨decision, none, none⟩, Option.bind_eq_some_iff.mpr ⟨_, hs, ?_⟩, rfl⟩
      exact (if_neg happrove).trans (if_pos hpreview)
  · refine Script.Triple.of_state fun s hs => ?_
    have hqueue : Script.Triple (fun t => t.db = s.db)
        (queueApprovedDecisionForChain input.candidate draws.commitment)
        (fun stored t => Pipeline.queueApprovedDecisionForChain s.db input.candidate draws.commitment =
          some (t.db, stored.1, stored.2)) fun _ _ => True :=
      queueApprovedDecisionForChain_returns
    refine Script.Triple.bind (hqueue.mono (fun t ht => ?_) (fun _ _ h => h) fun _ _ _ => trivial)
      fun stored => ?_
    · rw [ht]
    refine Script.Triple.bind (Q := fun _ t => Pipeline.queueApprovedDecisionForChain s.db input.candidate
      draws.commitment = some (t.db, stored.1, stored.2)) (insertAuditLog_triple ?_ fun _ _ => trivial)
      fun _ => Script.Triple.pure ?_
    · exact fun _ ht => ht
    · intro t ht
      refine ⟨⟨decision, some stored.1, some stored.2⟩, Option.bind_eq_some_iff.mpr ⟨_, hs, ?_⟩, rfl⟩
      refine (if_neg happrove).trans ((if_neg hpreview).trans ?_)
      exact Option.bind_eq_some_iff.mpr ⟨_, ht, rfl⟩

end

/-! ## the guardrail -/

/-- a triple about the store, read at a run -/
theorem run_of_keeps {P : Store → Prop} {x : Statements α} (h : Script.Keeps P x)
    {s : Session Store DbError} (hs : P s.state) : P (x s).2.state := by
  obtain ⟨hok, herror⟩ := h s hs
  match hx : x s with
  | (.ok a, t) => exact hok a t hx
  | (.error e, t) => exact herror e t hx

/-- a candidate whose agents approve has a decision of the second agent -/
theorem approve_reviewed {τ : Type} {env : AgentEnv τ} {id : String} {now : IsoDate} {job : AgentReviewJob}
    (h : (agentDecisionFromResult id now job env.orchestrate).decision = .approve) :
    ∃ analysis verification, env.Reviewed analysis verification ∧ verification.decision = .approve ∧
      85 / 100 ≤ verification.finalConfidence := by
  cases ho : env.orchestrate with
  | escalate reason =>
    rw [ho] at h
    exact nomatch h
  | agentDecision analysis verification =>
    rw [ho] at h
    obtain ⟨hreviewed, hhigh⟩ := AgentEnv.orchestrate_eq_agentDecision.mp ho
    exact ⟨analysis, verification, hreviewed, h, not_lt.mp fun hlow => hhigh ⟨h, hlow⟩⟩

theorem previewOnly_eq_false {simulation : Option Simulation} (h : previewOnly simulation = false) :
    ∀ s, simulation = some s → s.allowChainWrite = true := by
  rintro s rfl
  exact Bool.not_eq_eq_eq_not.mp h

/-- an escalation that reaches the database is put there, or nothing is -/
theorem persistOrchestrationResult_escalates (input : OrchestrationInput) (draws : Draws) (reason : String)
    (s : Session Store DbError) :
    let run := persistOrchestrationResult true input (.escalate reason) draws s
    ((∃ e, run.1 = .error e) ∧ run.2.state = s.state) ∨
      ∃ d new, run.2.state.writes = s.state.writes ++ .decision d :: new ∧
        s.state.db.decisions.Puts run.2.state.db.decisions d ∧ d.candidateEventId = input.candidate.id ∧
        d.agentName = .verificationAgent ∧ d.decision = .escalate := by
  intro run
  have hdecided : ∀ t, Decided (agentDecisionFromResult draws.decision.id draws.decision.createdAt
      input.toAgentReviewJob (.escalate reason)) s.state t →
      ∃ d new, t.writes = s.state.writes ++ .decision d :: new ∧
        s.state.db.decisions.Puts t.db.decisions d ∧ d.candidateEventId = input.candidate.id ∧
        d.agentName = .verificationAgent ∧ d.decision = .escalate := by
    rintro t ⟨d, new, hnew, hputs, hkey, hverdict⟩
    obtain ⟨hid, hname⟩ := Prod.mk.inj hkey
    exact ⟨d, new, hnew, hputs, hid, hname, hverdict⟩
  have hput : Script.Triple (fun t => t = s.state)
      (persistOrchestrationResult true input (.escalate reason) draws) _ _ :=
    persistOrchestrationResult_decided rfl
  obtain ⟨hok, herror⟩ := hput s rfl
  match hrun : run with
  | (.ok r, t) => exact .inr (hdecided t.state (hok r t hrun))
  | (.error e, t) => exact (herror e t hrun).imp (fun h => ⟨⟨e, rfl⟩, h⟩) (hdecided t.state)

/-- **The worker writes a score or a commitment only where the second agent's reply is accepted, approves with
at least 0.85, and a simulation of the job allows chain writes; and a review that fails leaves no score and no
commitment, and an escalation, unless the decision's own statement fails or no database is configured.** A job that
returns has done what the operation on the database does, where its statements draw the same time. -/
theorem worker_guardrail {τ : Type} (env : AgentEnv τ) (configured : Bool) (input : OrchestrationInput)
    (draws : Draws) (s : Session Store DbError) :
    let run := processJob env configured input draws s
    ∃ new, run.2.state.writes = s.state.writes ++ new ∧
      ((∃ w ∈ new, w.IsProof) →
        (∃ analysis verification, env.Reviewed analysis verification ∧ verification.decision = .approve ∧
          85 / 100 ≤ verification.finalConfidence) ∧
        ∀ simulation, input.simulation = some simulation → simulation.allowChainWrite = true) ∧
      (env.ReviewFails → (∀ w ∈ new, ¬ w.IsProof) ∧
        run.2.state.db.epochScores = s.state.db.epochScores ∧
        run.2.state.db.commitments = s.state.db.commitments ∧
        (configured = true → ((∃ e, run.1 = .error e) ∧ run.2.state = s.state) ∨
          ∃ d, .decision d ∈ new ∧ s.state.db.decisions.Puts run.2.state.db.decisions d ∧
            d.candidateEventId = input.candidate.id ∧ d.agentName = .verificationAgent ∧
            d.decision = .escalate)) ∧
      (configured = true → draws.commitment = draws.decision.createdAt → ∀ r jobs, run.1 = .ok r →
        ∃ res : PipelineResult, Pipeline.persistOrchestrationResult ⟨s.state.db, jobs⟩ input.toAgentReviewJob
          env.orchestrate draws.decision.id draws.decision.createdAt = some (⟨run.2.state.db, jobs⟩, res) ∧
          r = .persisted res.decision res.epochScore res.commitment) := by
  intro run
  generalize hdecided : agentDecisionFromResult draws.decision.id draws.decision.createdAt
    input.toAgentReviewJob env.orchestrate = decision
  obtain ⟨new, hnew, -⟩ : s.state.Wrote (fun _ => True) run.2.state :=
    run_of_keeps persistOrchestrationResult_wrote (.refl _)
  have hnoProof : ¬ (decision.decision = .approve ∧ previewOnly input.simulation = false) →
      NoProof s.state run.2.state :=
    fun h => run_of_keeps (persistOrchestrationResult_noProof hdecided.symm h) (.refl _)
  have hnew_of (h : NoProof s.state run.2.state) : ∀ w ∈ new, ¬ w.IsProof := by
    obtain ⟨new', hnew', hw⟩ := h.wrote
    rw [List.append_cancel_left (hnew.symm.trans hnew')]
    exact hw
  refine ⟨new, hnew, ?_, ?_, ?_⟩
  · rintro ⟨w, hw, hproof⟩
    have hallowed : decision.decision = .approve ∧ previewOnly input.simulation = false := by
      by_contra h
      exact hnew_of (hnoProof h) w hw hproof
    obtain ⟨happrove, hpreview⟩ := hallowed
    rw [← hdecided] at happrove
    exact ⟨approve_reviewed happrove, previewOnly_eq_false hpreview⟩
  · intro hfails
    obtain ⟨reason, hreason⟩ := AgentEnv.orchestrate_escalates_iff.mpr hfails
    rw [hreason] at hdecided
    subst hdecided
    have hno : NoProof s.state run.2.state := hnoProof fun h => nomatch h.1
    refine ⟨hnew_of hno, hno.epochScores, hno.commitments, ?_⟩
    rintro rfl
    have hput := persistOrchestrationResult_escalates input draws reason s
    rw [← hreason] at hput
    refine hput.imp_right fun ⟨d, new', hnew', h⟩ => ⟨d, ?_, h⟩
    rw [List.append_cancel_left (hnew.symm.trans hnew')]
    exact List.mem_cons_self
  · rintro rfl hnow r jobs hr
    exact (persistOrchestrationResult_returns hnow s rfl).1 r run.2 (Prod.ext hr rfl)

/-- both agents get the same reply, and every text parses as an approval with confidence 0.9 -/
def sampleEnv (completion : Except Thrown Json) : AgentEnv Unit where
  parse _ := .ok (.obj [("hypothesis", .str "h"), ("confidence", .num (9 / 10)),
    ("supportingEvidenceIds", .arr []), ("decision", .str "approve"), ("finalConfidence", .num (9 / 10)),
    ("notificationDraft", .str "n")])
  zodMessage _ := ""
  analysisOptions := ⟨"http://localhost/", "", "", none⟩
  verificationOptions := ⟨"http://localhost/", "", "", none⟩
  analysisFetch _ := .response 200 completion
  verificationFetch _ := .response 200 completion
  toolContext := none
  contextText _ := ""
  verificationText _ _ := ""

def sampleCompletion : Json :=
  .obj [("choices", .arr [.obj [("message", .obj [("content", .str "text")])]])]

def sampleInput : OrchestrationInput := ⟨⟨(sampleRow "c" .restored (6 / 10)).event, none⟩, []⟩

def sampleDraws : Draws :=
  ⟨⟨"d", sampleTime⟩, ⟨"a", sampleTime⟩, ⟨"p", sampleTime⟩, sampleTime, ⟨"q", sampleTime⟩⟩

/-- the candidate is recorded, and no statement fails -/
def sampleSession : Session Store DbError :=
  ⟨⟨{ Db.empty with candidates := ⟨[sampleRow "c" .restored (6 / 10)], by decide, by decide⟩ }, [], []⟩, []⟩

theorem worker_guardrail_sample :
    (∃ analysis verification, (sampleEnv (.ok sampleCompletion)).Reviewed analysis verification ∧
      verification.decision = .approve ∧ 85 / 100 ≤ verification.finalConfidence) ∧
    ∃ d, .decision d ∈ (processJob (sampleEnv (.error .other)) true sampleInput sampleDraws
      sampleSession).2.state.writes ∧ d.decision = .escalate := by
  constructor
  · obtain ⟨new, hnew, hproof, -⟩ :=
      worker_guardrail (sampleEnv (.ok sampleCompletion)) true sampleInput sampleDraws sampleSession
    have hany : (processJob (sampleEnv (.ok sampleCompletion)) true sampleInput sampleDraws
        sampleSession).2.state.writes.any (fun w => w matches .epochScore _) = true := by decide +kernel
    obtain ⟨w, hw, hscore⟩ := List.any_eq_true.mp hany
    rw [hnew] at hw
    refine (hproof ⟨w, hw, ?_⟩).1
    cases w with
    | epochScore score => trivial
    | decision d => exact nomatch hscore
    | audit log => exact nomatch hscore
    | commitment c => exact nomatch hscore
  · obtain ⟨new, hnew, -, hfails, -⟩ :=
      worker_guardrail (sampleEnv (.error .other)) true sampleInput sampleDraws sampleSession
    have hreview : (sampleEnv (.error .other)).ReviewFails := .analysis none rfl nofun
    obtain ⟨-, -, -, hput⟩ := hfails hreview
    rcases hput rfl with ⟨⟨e, he⟩, -⟩ | ⟨d, hd, -, -, -, hescalate⟩
    · have hok : (processJob (sampleEnv (.error .other)) true sampleInput sampleDraws
          sampleSession).1.isOk = true := by decide +kernel
      rw [he] at hok
      exact nomatch hok
    · rw [hnew]
      exact ⟨d, hd, hescalate⟩

end ResultSink

end Pipeline
