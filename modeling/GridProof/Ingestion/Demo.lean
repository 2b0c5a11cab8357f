import GridProof.Lib.Purge
import GridProof.Ingestion.Duplicates
import GridProof.Ingestion.MemorySweep
import GridProof.Pipeline.Memory
import GridProof.Pipeline.Statements

/-!
# Preview simulations

The Judge Demo Lab stores a synthetic reading next to the real ones, raises its candidate and runs the pipeline
on it.  A preview stores no score, but its reading stays.

* `runPipeline`      `processCandidatePipeline` with what remains of it if a statement behind its decision fails;
* `Site`             the stores of either mode, with requests, sweeps and simulations as steps;
* `Lab.next`         a step, with what the sweeps found and what the previews recorded.

Random ids that are taken do not occur.  A simulation whose challenge is not signed, or expired, ends before it
writes anything; it is no step here.
-/

namespace Ingestion
open Pipeline (IsoDate CandidateEvent AgentDecision Simulation System Phase upsertDatabaseDecision
  decisionForCandidate previewOnly processMemoryPipeline)

/-! ## the pipeline -/

/-- the statements of an operation from its phase on, up to one that fails -/
def settle : ℕ → System → Phase → System
  | 0, s, _ => s
  | n + 1, s, phase =>
    match Pipeline.statement s phase with
    | none => s
    | some (s, phase) => settle n s phase

/-- the database branch of `processCandidatePipeline`; `none` if the decision is not stored -/
def runPipeline (s : System) (candidate : CandidateEvent) (simulation : Option Simulation)
    (decisionId : String) (now : IsoDate) : Option System := do
  let (db, stored) ← upsertDatabaseDecision s.db (decisionForCandidate decisionId now candidate)
  match stored.decision with
  | .approve =>
    if previewOnly simulation then return ⟨db, s.jobs⟩
    return settle 3 ⟨db, s.jobs⟩ (.decided candidate false now)
  | .escalate => return ⟨db, s.jobs ++ [⟨candidate, simulation⟩]⟩
  | .reject => return ⟨db, s.jobs⟩

theorem settle_succ {n : ℕ} {s s' : System} {phase phase' : Phase}
    (h : Pipeline.statement s phase = some (s', phase')) : settle (n + 1) s phase = settle n s' phase' := by
  rw [settle, h]

/-- behind a decision only scores and commitments are written -/
theorem settle_frame {n : ℕ} {s : System} {phase : Phase} (hphase : Decided phase) :
    (settle n s phase).db.candidates = s.db.candidates ∧ (settle n s phase).db.decisions = s.db.decisions := by
  induction n generalizing s phase with
  | zero => exact ⟨rfl, rfl⟩
  | succ n ih =>
    unfold settle
    cases h : Pipeline.statement s phase with
    | none => exact ⟨rfl, rfl⟩
    | some answer =>
      obtain ⟨s', phase'⟩ := answer
      obtain ⟨hcandidates, hphase'⟩ := statement_eq_some hphase h
      obtain ⟨hc, hd⟩ := ih hphase'
      refine ⟨hc.trans hcandidates, hd.trans ?_⟩
      cases phase with
      | started op => exact absurd rfl (hphase op)
      | decided c byWorker now =>
        obtain ⟨rfl, -⟩ := Prod.mk.inj (Option.some.inj h)
        rfl
      | selected c votes now => rw [(Pipeline.statement_selected h).1]
      | scored c es now => rw [(Pipeline.statement_scored h).1]
      | finished c => cases h

/-- the pipeline takes place if the decision is stored, and leaves the candidates and that decision -/
theorem runPipeline_of_upsert {s : System} {candidate : CandidateEvent} {simulation : Option Simulation}
    {decisionId : String} {now : IsoDate} {db : Pipeline.Db} {stored : AgentDecision}
    (h : upsertDatabaseDecision s.db (decisionForCandidate decisionId now candidate) = some (db, stored)) :
    ∃ s', runPipeline s candidate simulation decisionId now = some s' ∧ s'.db.candidates = db.candidates ∧
      s'.db.decisions = db.decisions := by
  have hbind (f : Pipeline.Db × AgentDecision → Option System) :
      (upsertDatabaseDecision s.db (decisionForCandidate decisionId now candidate) >>= f) = f (db, stored) := by
    rw [h]
    rfl
  unfold runPipeline
  rw [hbind]
  dsimp only
  cases stored.decision with
  | approve =>
    dsimp only
    by_cases hpreview : previewOnly simulation = true
    · rw [if_pos hpreview]
      exact ⟨_, rfl, rfl, rfl⟩
    · rw [if_neg hpreview]
      refine ⟨_, rfl, settle_frame fun op he => ?_⟩
      cases he
  | escalate => exact ⟨_, rfl, rfl, rfl⟩
  | reject => exact ⟨_, rfl, rfl, rfl⟩

/-- a pipeline that takes place stores its decision and keeps the candidates -/
theorem decisions_of_runPipeline {s s' : System} {candidate : CandidateEvent} {simulation : Option Simulation}
    {decisionId : String} {now : IsoDate} (h : runPipeline s candidate simulation decisionId now = some s') :
    s.db.decisions.upsert (decisionForCandidate decisionId now candidate)
        (decisionForCandidate decisionId now candidate).overwrite (fun _ => rfl) (fun _ => rfl) =
        some s'.db.decisions ∧ s'.db.candidates = s.db.candidates := by
  obtain ⟨⟨db, stored⟩, hup, -⟩ := Option.bind_eq_some_iff.mp h
  have hspec : ∃ s'', runPipeline s candidate simulation decisionId now = some s'' ∧ _ :=
    runPipeline_of_upsert hup
  obtain ⟨s'', h'', hcandidates, hdecisions⟩ := hspec
  obtain rfl := Option.some.inj (h.symm.trans h'')
  unfold upsertDatabaseDecision at hup
  split at hup
  · cases hup
  · obtain ⟨decisions, hupsert, he⟩ := Option.map_eq_some_iff.mp hup
    obtain ⟨rfl, -⟩ := Prod.mk.inj he
    exact ⟨hdecisions ▸ hupsert, hcandidates⟩

/-- **Where no statement fails, it does what the operation on the database does.** -/
theorem runPipeline_of_process {s s' : System} {candidate : CandidateEvent} {simulation : Option Simulation}
    {decisionId : String} {now : IsoDate} {result : Pipeline.PipelineResult}
    (h : Pipeline.processCandidatePipeline s candidate simulation decisionId now = some (s', result)) :
    runPipeline s candidate simulation decisionId now = some s' := by
  obtain ⟨⟨db, stored⟩, hup, h⟩ := Option.bind_eq_some_iff.mp h
  refine Option.bind_eq_some_iff.mpr ⟨⟨db, stored⟩, hup, ?_⟩
  cases hverdict : stored.decision with
  | approve =>
    simp only [hverdict] at h ⊢
    by_cases hpreview : previewOnly simulation = true
    · rw [if_pos hpreview] at h ⊢
      obtain ⟨rfl, -⟩ := Prod.mk.inj (Option.some.inj h)
      rfl
    · rw [if_neg hpreview] at h ⊢
      obtain ⟨⟨db', epochScore⟩, hscore, h⟩ := Option.bind_eq_some_iff.mp h
      obtain ⟨⟨db'', commitment⟩, hcommitment, h⟩ := Option.bind_eq_some_iff.mp h
      obtain ⟨rfl, -⟩ := Prod.mk.inj (Option.some.inj h)
      have hselected : Pipeline.statement ⟨db, s.jobs⟩
          (.selected candidate (Pipeline.recomputeVotes db candidate false) now) =
          some (⟨db', s.jobs⟩, .scored candidate epochScore now) :=
        Option.bind_eq_some_iff.mpr ⟨_, hscore, rfl⟩
      have hscored : Pipeline.statement ⟨db', s.jobs⟩ (.scored candidate epochScore now) =
          some (⟨db'', s.jobs⟩, .finished (some candidate)) :=
        Option.bind_eq_some_iff.mpr ⟨_, hcommitment, rfl⟩
      apply congrArg some
      calc settle 3 ⟨db, s.jobs⟩ (.decided candidate false now)
        _ = settle 2 ⟨db, s.jobs⟩ (.selected candidate (Pipeline.recomputeVotes db candidate false) now) := rfl
        _ = settle 1 ⟨db', s.jobs⟩ (.scored candidate epochScore now) := settle_succ hselected
        _ = ⟨db'', s.jobs⟩ := settle_succ hscored
  | escalate =>
    simp only [hverdict] at h ⊢
    obtain ⟨rfl, -⟩ := Prod.mk.inj (Option.some.inj h)
    rfl
  | reject =>
    simp only [hverdict] at h ⊢
    obtain ⟨rfl, -⟩ := Prod.mk.inj (Option.some.inj h)
    rfl

/-! ## the stores -/

/-- the evidence and the pipeline's stores, in the process or in the database -/
inductive Site where
  | memory (m : Memory) (pipeline : Pipeline.Memory)
  | database (d : Database)

/-- the pipeline is started for a candidate of evidence that is not a duplicate -/
def IngestStoreResult.starts (result : IngestStoreResult) : Option CandidateEvent :=
  if result.duplicate then none else result.candidateEvent

structure LabDraw extends StepDraw where
  /-- the id of a simulation, and the clock's reading for its reading -/
  runId : String
  observedAt : IsoDate
  /-- the id of the decision on a gap candidate -/
  gapDecisionId : String → String

namespace Site

def start : Mode → Site
  | .memory => memory .empty .empty
  | .database => database .empty

def store : Site → Store
  | memory m _ => .memory m
  | database d => .database d

def evidence : Site → List (String × EvidenceEvent)
  | memory m _ => m.evidenceByIdempotencyKey.entries
  | database d => d.evidence.entries

/-- by their keys -/
def candidates : Site → List (String × CandidateEvent)
  | memory m _ => m.candidatesByKey.entries
  | database d => d.candidates.rows.map fun row => (row.candidateKey, row.event)

/-- by the ids of their candidates -/
def decisions : Site → List (String × AgentDecision)
  | memory _ pipeline => pipeline.memoryDecisions.entries
  | database d => d.system.db.decisions.rows.map fun row => (row.candidateEventId, row)

section
variable [JsText.Runtime]

/-- the evidence is stored and its candidate recorded -/
def ingest : Site → Request → Draw → Option (Site × IngestStoreResult)
  | memory m pipeline, r, draw =>
    match Ingestion.ingest (.memory m) r draw with
    | (.memory m, some result) => some (memory m pipeline, result)
    | _ => none
  | database d, r, draw =>
    match Ingestion.ingest (.database d) r draw with
    | (.database d, some result) => some (database d, result)
    | _ => none

/-- `processCandidatePipeline` -/
def pipeline : Site → CandidateEvent → Option Simulation → String → IsoDate → Option Site
  | memory m pipeline, candidate, simulation, decisionId, now =>
    some (memory m
      (processMemoryPipeline JsText.localeCompare pipeline candidate simulation decisionId now).1)
  | database d, candidate, simulation, decisionId, now =>
    (runPipeline d.system candidate simulation decisionId now).map fun system =>
      database { d with system := system }

/-- `recordGapCandidate`, with whether it is new -/
def recordGap : Site → CandidateEvent → Option (Site × Bool)
  | memory m pipeline, candidate =>
    let (m, recorded) := recordMemoryGap m candidate
    some (memory m pipeline, recorded.isSome)
  | database d, candidate =>
    (recordGapCandidate d candidate).map fun (d, recorded) => (database d, recorded)

/-- a request that passed the middlewares -/
def request (site : Site) (r : Request) (draw : LabDraw) : Option Site := do
  let (site, result) ← site.ingest r draw.toDraw
  match result.starts with
  | none => return site
  | some candidate => site.pipeline candidate none draw.decisionId draw.now

/-- the gap candidates that a sweep finds -/
def findGaps (site : Site) (now : Int) (draw : LabDraw) : List CandidateEvent :=
  let evidence : EvidenceStore :=
    match site with
    | memory m _ => .memory m
    | database d => .database d draw.rank
  sweepCandidates (evidence.sweepEvidenceByZone now) now draw.gapIds

/-- the inner loop of a sweep -/
def recordGaps (site : Site) (draw : LabDraw) : List CandidateEvent → Option Site
  | [] => some site
  | candidate :: rest => do
    let (site, recorded) ← site.recordGap candidate
    let site ←
      if recorded then site.pipeline candidate none (draw.gapDecisionId candidate.id) draw.now else some site
    site.recordGaps draw rest

end

end Site

/-! ## simulations -/

inductive DemoScenario where
  | confirmedOutage
  | restoration
  | ambiguousOutage
deriving DecidableEq

/-- a signed request with `publishToChain` false -/
structure DemoSimulationRequest where
  walletAddress : String
  zoneId : String
  scenario : DemoScenario

def readingFor : DemoScenario → EvidenceStatus × ℚ × ℚ
  | .confirmedOutage => (.gridDown, 0, 0)
  | .restoration => (.gridUp, 10700, 42)
  | .ambiguousOutage => (.gridDown, 72, 32 / 10)

def demoTelemetry (input : DemoSimulationRequest) (draw : LabDraw) : TelemetryIngestRequest :=
  let (status, voltage, currentAmps) := readingFor input.scenario
  { deviceId := "gridproof-judge-lab-01"
    providerWallet := "0xdE00000000000000000000000000000000000001"
    zoneId := input.zoneId
    idempotencyKey := "judge-demo:" ++ draw.runId
    observedAt := draw.observedAt
    status := status
    voltage := some voltage
    currentAmps := some currentAmps }

/-- what a preview recorded -/
structure Preview where
  idempotencyKey : String
  candidateKey : String
  candidateId : String
deriving DecidableEq

section
variable [JsText.Runtime]

/-- the event of a simulation's reading, as it is read back -/
def demoEvent (site : Site) (input : DemoSimulationRequest) (draw : LabDraw) : EvidenceEvent :=
  fresh site.store (.telemetry (demoTelemetry input draw), draw.toDraw)

/-- `none` if a candidate is missing or the random id of the run is in a key already -/
def runDemoSimulation (site : Site) (input : DemoSimulationRequest) (draw : LabDraw) :
    Option (Site × Preview) := do
  let event := demoEvent site input draw
  if event.idempotencyKey ∈ site.evidence.map Prod.fst ∨ candidateKeyFor event ∈ site.candidates.map Prod.fst then
    none
  let (site, result) ← site.ingest (.telemetry (demoTelemetry input draw)) draw.toDraw
  let candidate ← result.candidateEvent
  let site ← site.pipeline candidate (some ⟨draw.runId, JsText.toLowerCase input.walletAddress, false⟩)
    draw.decisionId draw.now
  return (site, ⟨event.idempotencyKey, candidateKeyFor event, candidate.id⟩)

/-! ## steps -/

end

def Request.zoneId : Request → String
  | .telemetry input => input.zoneId
  | .report input => input.zoneId
  | .webhook input => input.zoneId

/-- the schemas have checked the zones -/
inductive Action where
  | request (r : Request) (hzone : ZoneText r.zoneId)
  | sweep (now : Int)
  | preview (input : DemoSimulationRequest) (hzone : ZoneText input.zoneId)

def Action.isReal : Action → Bool
  | preview _ _ => false
  | _ => true

structure Lab where
  site : Site
  /-- what each sweep found -/
  found : List (List CandidateEvent)
  previews : List Preview

namespace Lab

def start (mode : Mode) : Lab := ⟨.start mode, [], []⟩

/-- the ids that candidates were given -/
def ids (s : Lab) : List String :=
  s.previews.map Preview.candidateId ++ s.site.candidates.map (fun c => c.2.id) ++ s.site.decisions.map Prod.fst

section
variable [JsText.Runtime]

def next (s : Lab) (x : Action × LabDraw) : Option Lab :=
  match x.1 with
  | .request r _ =>
    if x.2.candidateId ∈ s.ids then none
    else (s.site.request r x.2).map fun site => { s with site := site }
  | .sweep now =>
    let found := s.site.findGaps now x.2
    if ∃ c ∈ found, c.id ∈ s.ids then none
    else (s.site.recordGaps x.2 found).map fun site => { s with site := site, found := s.found ++ [found] }
  | .preview input _ =>
    if x.2.candidateId ∈ s.ids then none
    else (runDemoSimulation s.site input x.2).map fun (site, preview) =>
      { s with site := site, previews := preview :: s.previews }

end

end Lab

end Ingestion
