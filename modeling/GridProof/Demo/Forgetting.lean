import GridProof.Demo.Restart
import GridProof.Lib.Checked

/-!
# No demo run survives a restart

* `decisions_unnamed`   no decision on a candidate of the pipeline has the name that `databaseRun` asks for;
* `Completed`           what a simulation that does not throw leaves;
* `run_forgotten`       in every state, its run is found before a restart, and not after it.
-/

namespace Demo
open Ingestion (Draw upsertDatabaseEvidence_new storeDatabaseCandidate_some mapEvidenceRow evidenceRow
  telemetryEvidence candidateKeyFor uuid readingFor upsertDatabaseEvidence)
open Pipeline (AgentName AgentDecision CandidateRow IsoDate upsertDatabaseDecision)
open RateLimit (HttpError)

/-! ## before and after -/

/-- what a client sees of a run, but for what goes on after it -/
structure SameRun (a b : DemoSimulation) : Prop where
  id : a.id = b.id
  initiatedBy : a.initiatedBy = b.initiatedBy
  zoneId : a.zoneId = b.zoneId
  scenario : a.scenario = b.scenario
  telemetry : a.telemetry = b.telemetry
  candidate : a.candidate = b.candidate
  policyDecision : a.policyDecision = b.policyDecision

/-- the run is the same before and after a restart -/
def Survives (s : Server) (id : String) : Prop :=
  ∃ before after, getDemoSimulation s id = .ok before ∧ getDemoSimulation s.restart id = .ok after ∧
    SameRun before after

/-- the key of the candidate that a simulation raises -/
def demoCandidateKey (input : DemoSimulationRequest) (runId : String) : String :=
  uuid input.zoneId ++ ":" ++ (readingFor input.scenario).1.text ++ ":" ++ ("judge-demo:" ++ runId)

/-- the foreign key of the decisions, and what holds of a random id of a run -/
structure Fresh (s : Server) (input : DemoSimulationRequest) (runId : String) : Prop where
  references : ∀ d ∈ s.store.seeded, ∃ row ∈ s.store.database.system.db.candidates.rows, row.id = d.candidateEventId
  run : ∀ after createdAt, .simulationStarted after createdAt ∈ s.store.auditLogs → after.runId ≠ runId
  evidence : s.store.database.evidence.get? ("judge-demo:" ++ runId) = none
  candidate : ∀ row ∈ s.store.database.system.db.candidates.rows,
    row.candidateKey ≠ demoCandidateKey input runId

/-! ## names -/

theorem agentText_ne (name : AgentName) : agentText name ≠ "evidence-verification-agent" := by
  cases name with
  | policyGate => decide +kernel
  | verificationAgent => decide +kernel

/-- on a candidate that the seed script did not write, no decision has the name -/
theorem decisions_unnamed {t : Store} {candidateId : String}
    (h : ∀ d ∈ t.seeded, d.candidateEventId ≠ candidateId) :
    t.decisions.find? (fun d => d.candidateEventId = candidateId ∧ d.agentName = "evidence-verification-agent") =
      none := by
  refine List.find?_eq_none.mpr fun d hd hfound => ?_
  obtain ⟨hcandidate, hname⟩ := of_decide_eq_true hfound
  rcases List.mem_append.mp hd with hd | hd
  · exact h d hd hcandidate
  · obtain ⟨decision, -, rfl⟩ := List.mem_map.mp hd
    exact agentText_ne decision.agentName hname

/-! ## a simulation -/

/-- what a simulation that does not throw leaves -/
structure Completed (s s' : Server) (draw : SimulationDraw) (simulation : DemoSimulation) (run : DemoRunRecord) :
    Prop where
  id : run.id = draw.runId
  runs : s'.memoryRuns = s.memoryRuns.set run.id run
  answer : simulation = simulationFromRun s'.store run
  seeded : s'.store.seeded = s.store.seeded
  logs : s'.store.auditLogs = s.store.auditLogs ++ auditLogsOf draw run
  new : ∀ row ∈ s.store.database.system.db.candidates.rows, row.id ≠ run.candidateId

theorem orFail_eq_ok {α : Type} {failure : String} {o : Option α} {a : α} (h : orFail failure o = .ok a) :
    o = some a := by
  cases o with
  | none => cases h
  | some b =>
    cases h
    rfl

section
variable [JsText.Runtime] {ethers : Ethers} {s s' : Server} {input : DemoSimulationRequest} {draw : SimulationDraw}
  {simulation : DemoSimulation}

/-- the candidate of a simulation is new -/
theorem candidate_new {observedAt : IsoDate} {database : Ingestion.Database} {ingest : Ingestion.IngestStoreResult}
    {candidate : Pipeline.CandidateEvent} (hfresh : Fresh s input draw.runId)
    (h : upsertDatabaseEvidence s.store.database (telemetryEvidence (demoTelemetry input draw.runId observedAt))
      draw.evidence = (database, some ingest))
    (hcandidate : ingest.candidateEvent = some candidate) :
    ∀ row ∈ s.store.database.system.db.candidates.rows, row.id ≠ candidate.id := by
  have hkey : (telemetryEvidence (demoTelemetry input draw.runId observedAt)).idempotencyKey =
      "judge-demo:" ++ draw.runId := rfl
  rw [upsertDatabaseEvidence_new (hkey ▸ hfresh.evidence)] at h
  obtain ⟨rfl, hingest⟩ := Prod.mk.inj h
  obtain ⟨stored, hstored, rfl⟩ := Option.map_eq_some_iff.mp hingest
  obtain rfl : stored = some candidate := hcandidate
  obtain ⟨hid, row, hrow, -, hinsert, -⟩ := storeDatabaseCandidate_some (Prod.ext rfl hstored) hfresh.candidate
  intro old hold
  rw [hid, ← hrow]
  exact (Table.insert_eq_some hinsert).2.1 old hold

theorem run_completed (h : runDemoSimulation ethers s input draw = .ok (s', simulation))
    (hfresh : Fresh s input draw.runId) : ∃ run, Completed s s' draw simulation run := by
  obtain ⟨challenges, -, h⟩ := Except.bind_eq_ok.mp h
  obtain ⟨observedAt, -, h⟩ := Except.bind_eq_ok.mp h
  dsimp only at h
  obtain ⟨ingest, hingest, h⟩ := Except.bind_eq_ok.mp h
  split at h
  · cases h
  · rename_i candidate hcandidate
    obtain ⟨⟨system, pipeline⟩, -, h⟩ := Except.bind_eq_ok.mp h
    cases h
    refine ⟨_, rfl, rfl, rfl, rfl, rfl, ?_⟩
    exact candidate_new hfresh (Prod.ext rfl (orFail_eq_ok hingest)) hcandidate

end

/-! ## after a restart -/

section
variable {s s' : Server} {input : DemoSimulationRequest} {draw : SimulationDraw} {simulation : DemoSimulation}
  {run : DemoRunRecord}

/-- the audit row of a run is the only one with its id -/
theorem Completed.found (h : Completed s s' draw simulation run) (hfresh : Fresh s input draw.runId)
    {after : SimulationStarted} {createdAt : IsoDate}
    (hfound : findStarted s'.store run.id = some (after, createdAt)) :
    after = startedLog run := by
  obtain ⟨log, hlog, hsome⟩ := List.exists_of_findSome?_eq_some hfound
  split at hsome
  · rename_i after' createdAt'
    split at hsome
    · rename_i hid
      cases hsome
      rw [h.logs, List.mem_append] at hlog
      rcases hlog with hlog | hlog
      · exact absurd (hid.trans h.id) (hfresh.run _ _ hlog)
      · -- of the rows that the simulation wrote, one is of its start
        unfold auditLogsOf at hlog
        rcases List.mem_append.mp hlog with hlog | hlog
        · split at hlog
          · cases List.mem_singleton.mp hlog
          · cases hlog
        · split at hlog
          · cases List.mem_singleton.mp hlog
            rfl
          · cases hlog
    · cases hsome
  · cases hsome

theorem Completed.databaseRun_none (h : Completed s s' draw simulation run) (hfresh : Fresh s input draw.runId) :
    databaseRun s'.store run.id = none := by
  have hforeign : ∀ d ∈ s'.store.seeded, d.candidateEventId ≠ run.candidateId := by
    intro d hd hsame
    rw [h.seeded] at hd
    obtain ⟨row, hrow, hrowid⟩ := hfresh.references d hd
    exact h.new row hrow (hrowid.trans hsame)
  cases hfound : findStarted s'.store run.id with
  | none =>
    unfold databaseRun
    rw [hfound]
    rfl
  | some found =>
    obtain ⟨after, createdAt⟩ := found
    obtain rfl := h.found hfresh hfound
    have hdecision := decisions_unnamed hforeign
    refine Option.eq_none_iff_forall_not_mem.mpr fun result hresult => ?_
    obtain ⟨found', hfound', hresult⟩ := Option.bind_eq_some_iff.mp hresult
    obtain rfl := Option.some.inj (hfound.symm.trans hfound')
    dsimp only at hresult
    split at hresult
    · cases hresult
    · obtain ⟨e, -, hresult⟩ := Option.bind_eq_some_iff.mp hresult
      obtain ⟨d, hd, -⟩ := Option.bind_eq_some_iff.mp hresult
      exact absurd (hdecision.symm.trans hd) nofun

theorem Completed.before (h : Completed s s' draw simulation run) :
    getDemoSimulation s' simulation.id = .ok simulation := by
  have hid : simulation.id = run.id := by rw [h.answer]; rfl
  unfold getDemoSimulation
  rw [hid, h.runs, OrderedMap.get?_set_self, h.answer]
  rfl

theorem Completed.after (h : Completed s s' draw simulation run) (hfresh : Fresh s input draw.runId) :
    getDemoSimulation s'.restart simulation.id = .error ⟨404, "DEMO_NOT_FOUND", "Demo simulation not found"⟩ := by
  have hid : simulation.id = run.id := by rw [h.answer]; rfl
  have hnone : databaseRun s'.restart.store run.id = none := h.databaseRun_none hfresh
  unfold getDemoSimulation
  rw [hid, hnone]
  rfl

theorem not_survives {id : String} {e : HttpError} (h : getDemoSimulation s.restart id = .error e) :
    ¬Survives s id := by
  rintro ⟨before, after, -, hafter, -⟩
  rw [h] at hafter
  cases hafter

end

/-- **Every run that was completed is found before a restart and not after it.** -/
theorem run_forgotten [JsText.Runtime] (ethers : Ethers) (s s' : Server) (input : DemoSimulationRequest)
    (draw : SimulationDraw) (simulation : DemoSimulation) (hfresh : Fresh s input draw.runId)
    (h : runDemoSimulation ethers s input draw = .ok (s', simulation)) :
    getDemoSimulation s' simulation.id = .ok simulation ∧
      getDemoSimulation s'.restart simulation.id =
        .error ⟨404, "DEMO_NOT_FOUND", "Demo simulation not found"⟩ ∧
      ¬Survives s' simulation.id := by
  obtain ⟨run, hcompleted⟩ := run_completed h hfresh
  have hafter := hcompleted.after hfresh
  exact ⟨hcompleted.before, hafter, not_survives hafter⟩

/-! ## the preview of a judge -/

/-- no run was made, and the challenge is given out -/
def judgeServer : Server where
  memoryChallenges := OrderedMap.empty.set judgeNonce (challengeFor judgeAsked judgeNonce judgeTime)
  memoryRuns := .empty
  store := ⟨.empty, [], []⟩

def judgeDraw : SimulationDraw where
  runId := "5b0cf7a1-93d2-4f0e-8a6b-7c8d9e0f1a2b"
  now := judgeTime + 60000
  createdAt := judgeTime + 60001
  observedNow := judgeTime + 60002
  auditedAt := judgeTime + 60020
  evidence :=
    { evidenceId := "0e1d2c3b-4a59-4867-8a5b-1c0d2e3f4a5b"
      providerId := "1f2e3d4c-5b6a-4978-9a8b-2d1e3f405162"
      candidateId := "2a3b4c5d-6e7f-4081-8b9c-3e2f40516273"
      now := .ofMillis (judgeTime + 60010)
      rank := fun _ => 0 }
  decisionId := "3b4c5d6e-7f80-4192-9cad-4f3051627384"
  decidedAt := .ofMillis (judgeTime + 60015)
  submitted := .empty
  previewLogged := true
  startLogged := true
  failure := ""

theorem judge_fresh : Fresh judgeServer judgeInput judgeDraw.runId where
  references _ hd := absurd hd List.not_mem_nil
  run _ _ hlog := absurd hlog List.not_mem_nil
  evidence := rfl
  candidate _ hrow := absurd hrow List.not_mem_nil

/-- the simulation does not throw -/
theorem judge_runs :
    letI := JsText.asciiRuntime
    (runDemoSimulation judgeEthers judgeServer judgeInput judgeDraw).isOk = true := by
  decide +kernel

theorem exists_of_isOk {ε α : Type} {x : Except ε α} (h : x.isOk = true) : ∃ a, x = .ok a := by
  cases x with
  | error e => cases h
  | ok a => exact ⟨a, rfl⟩

theorem run_forgotten_preview :
    letI := JsText.asciiRuntime
    ∃ s' simulation, runDemoSimulation judgeEthers judgeServer judgeInput judgeDraw = .ok (s', simulation) ∧
      getDemoSimulation s' simulation.id = .ok simulation ∧
      getDemoSimulation s'.restart simulation.id =
        .error ⟨404, "DEMO_NOT_FOUND", "Demo simulation not found"⟩ ∧
      ¬Survives s' simulation.id := by
  let _ := JsText.asciiRuntime
  obtain ⟨⟨s', simulation⟩, h⟩ := exists_of_isOk judge_runs
  exact ⟨s', simulation, h, run_forgotten judgeEthers judgeServer s' judgeInput judgeDraw simulation judge_fresh h⟩

/-- the judge's preview does not survive -/
theorem preview_lost :
    letI := JsText.asciiRuntime
    ∃ s' simulation, runDemoSimulation judgeEthers judgeServer judgeInput judgeDraw = .ok (s', simulation) ∧
      ¬Survives s' simulation.id := by
  let _ := JsText.asciiRuntime
  obtain ⟨⟨s', simulation⟩, h⟩ := exists_of_isOk judge_runs
  obtain ⟨run, hcompleted⟩ := run_completed h judge_fresh
  exact ⟨s', simulation, h, not_survives (hcompleted.after judge_fresh)⟩

end Demo
