import GridProof.Detection.Heartbeat
import GridProof.Ingestion.Database
import GridProof.Pipeline.Statements

/-!
# Deliveries and sweeps, one statement at a time

A delivery of a request and a heartbeat sweep send their statements one after the other, without a
transaction, from any number of API instances.

* `Task.step`      the next statement of a delivery or a sweep;
* `upsert_eq_steps`   the statements of a delivery in a row are `upsertDatabaseEvidence`;
* `World`, `next`  the statements of any number of deliveries and sweeps, interleaved.

The code between two statements runs together with the statement before it; a pipeline is started there.
-/

namespace Ingestion
open Pipeline (IsoDate CandidateEvent CandidateRow System Phase)

/-! ## the sweep's reads and writes -/

/-- `SWEEP_LOOKBACK_MS` -/
def sweepLookbackMs : Int := 3 * Detection.heartbeatGapMs

/-- `order by observed_at asc`; rows of one instant come as they are kept -/
def oldestFirst (rank : EvidenceEvent → ℕ) (a b : EvidenceEvent) : Prop :=
  a.observedAt.micros < b.observedAt.micros ∨
    a.observedAt.micros = b.observedAt.micros ∧ rank a ≤ rank b

instance (rank : EvidenceEvent → ℕ) : DecidableRel (oldestFirst rank) :=
  fun _ _ => inferInstanceAs (Decidable (_ ∨ _))

/-- the `where` of the sweep's query -/
def inLookback (now : Int) (row : EvidenceEvent) : Bool :=
  row.source = .sensor && (now - sweepLookbackMs) * 1000 ≤ row.observedAt.micros

/-- the events of each zone, zones in the order of their first event -/
def groupEvidenceByZone (events : List EvidenceEvent) : OrderedMap String (List EvidenceEvent) :=
  events.foldl (fun byZone event =>
    byZone.set event.zoneId (((byZone.get? event.zoneId).getD []) ++ [event])) .empty

def listSweepEvidenceByZone (d : Database) (now : Int) (rank : EvidenceEvent → ℕ) :
    OrderedMap String (List EvidenceEvent) :=
  groupEvidenceByZone ((((d.evidence.values.filter (inLookback now)).insertionSort
    (oldestFirst rank)).take 5000).map mapEvidenceRow)

section
variable [JsText.Runtime]

/-- the gap candidates of all zones; `ids zone` are the random ids of the zone's candidates -/
def sweepCandidatesIn (round : ℚ → ℚ) (byZone : OrderedMap String (List EvidenceEvent)) (now : Int)
    (ids : String → ℕ → String) : List CandidateEvent :=
  byZone.entries.flatMap fun (zoneId, evidence) =>
    Detection.detectHeartbeatGapCandidatesIn round zoneId evidence now Detection.heartbeatGapMs (ids zoneId)

/-- in exact arithmetic -/
def sweepCandidates (byZone : OrderedMap String (List EvidenceEvent)) (now : Int)
    (ids : String → ℕ → String) : List CandidateEvent :=
  sweepCandidatesIn Pipeline.exactly byZone now ids

end

/-- the database branch of `recordGapCandidate`, with whether a row was inserted -/
def recordGapCandidate (d : Database) (candidate : CandidateEvent) : Option (Database × Bool) :=
  insertCandidate d ⟨Detection.heartbeatGapKey candidate, candidate⟩

/-! ## the pipeline on a recorded candidate -/

/-- the first statement of `processCandidatePipeline`: the decision of the policy gate -/
def decideCandidate (s : System) (candidate : CandidateEvent) (decisionId : String) (now : IsoDate) :
    Option (System × Phase) := do
  let (db, stored) ← Pipeline.upsertDatabaseDecision s.db
    (Pipeline.decisionForCandidate decisionId now candidate)
  match stored.decision with
  | .approve => return (⟨db, s.jobs⟩, .decided candidate false now)
  | .escalate => return (⟨db, s.jobs ++ [⟨candidate, none⟩]⟩, .finished none)
  | .reject => return (⟨db, s.jobs⟩, .finished none)

/-! ## tasks -/

/-- where a delivery or a sweep stands, by what it does next -/
inductive Task where
  | insertEvidence (input : DatabaseEvidence)
  | findEvidence (idempotencyKey : String) (inserted : Bool)
  /-- a duplicate reads its candidate and replies -/
  | replyDuplicate (evidenceEvent : EvidenceEvent)
  | readRecent (evidenceEvent : EvidenceEvent)
  | insertCandidate (evidenceEvent : EvidenceEvent) (candidate : CandidateEvent)
  | findCandidate (evidenceEvent : EvidenceEvent)
  | listEvidence (now : Int)
  /-- the gap candidates that are still to be recorded -/
  | recordGaps (candidates : List CandidateEvent)
  /-- the pipeline was started; `rest` are the gap candidates behind it -/
  | decide (candidate : CandidateEvent) (rest : List CandidateEvent)
  /-- the pipeline after an approval -/
  | score (phase : Phase) (rest : List CandidateEvent)
  | finished

/-- a sweep goes on to its next candidate -/
def resume : List CandidateEvent → Task
  | [] => .finished
  | candidate :: rest => .recordGaps (candidate :: rest)

/-- a pipeline goes on, or its sweep does -/
def afterStatement (phase : Phase) (rest : List CandidateEvent) : Task :=
  match phase with
  | .finished _ => resume rest
  | phase => .score phase rest

/-- what is drawn at a statement: random ids and the clock -/
structure StepDraw extends Draw where
  decisionId : String
  gapIds : String → ℕ → String

/-- after a statement, with the candidate whose pipeline is started right after it -/
structure Outcome where
  database : Database
  task : Task
  starts : Option CandidateEvent

section
variable [JsText.Runtime]

/-- the next statement, `none` if it fails -/
def Task.step (d : Database) (draw : StepDraw) : Task → Option Outcome
  | .insertEvidence input =>
    if draw.evidenceId ∈ d.evidence.values.map EvidenceEvent.id then none
    else
      let (d, inserted) := Ingestion.insertEvidence d (evidenceRow input draw.toDraw)
      some ⟨d, .findEvidence input.idempotencyKey inserted, none⟩
  | .findEvidence idempotencyKey inserted =>
    (findEvidenceByIdempotencyKey d idempotencyKey).map fun evidenceEvent =>
      ⟨d, if inserted then .readRecent evidenceEvent else .replyDuplicate evidenceEvent, none⟩
  | .replyDuplicate _ => some ⟨d, .finished, none⟩
  | .readRecent evidenceEvent =>
    match Detection.detectCandidateFromEvidence evidenceEvent
      (findRecentZoneEvidence d evidenceEvent draw.rank) draw.candidateId draw.now with
    | none => some ⟨d, .finished, none⟩
    | some candidate => some ⟨d, .insertCandidate evidenceEvent candidate, none⟩
  | .insertCandidate evidenceEvent candidate =>
    (Ingestion.insertCandidate d ⟨candidateKeyFor evidenceEvent, candidate⟩).map fun (d, _) =>
      ⟨d, .findCandidate evidenceEvent, none⟩
  | .findCandidate evidenceEvent =>
    match findDatabaseCandidate d evidenceEvent with
    | none => some ⟨d, .finished, none⟩
    | some candidate => some ⟨d, .decide candidate [], some candidate⟩
  | .listEvidence now =>
    some ⟨d, resume (sweepCandidates (listSweepEvidenceByZone d now draw.rank) now draw.gapIds), none⟩
  | .recordGaps [] => none
  | .recordGaps (candidate :: rest) =>
    (recordGapCandidate d candidate).map fun (d, recorded) =>
      if recorded then ⟨d, .decide candidate rest, some candidate⟩ else ⟨d, resume rest, none⟩
  | .decide candidate rest =>
    (decideCandidate d.system candidate draw.decisionId draw.now).map fun (system, phase) =>
      ⟨{ d with system := system }, afterStatement phase rest, none⟩
  | .score phase rest =>
    (Pipeline.statement d.system phase).map fun (system, phase) =>
      ⟨{ d with system := system }, afterStatement phase rest, none⟩
  | .finished => none

/-! ## a delivery is its statements in a row -/

/-- the statements of a delivery up to its reply, each with the same draw -/
def delivery (d : Database) (draw : StepDraw) : ℕ → Task → Option Outcome
  | 0, _ => none
  | fuel + 1, task => do
    let outcome ← task.step d draw
    match outcome.task with
    | .finished => some outcome
    | .decide _ _ => some outcome
    | task => delivery outcome.database draw fuel task

/-- **`upsertDatabaseEvidence` and what follows it: a result that is not a duplicate starts the pipeline on its
candidate.** -/
theorem upsert_eq_steps (d : Database) (input : DatabaseEvidence) (draw : StepDraw)
    (hid : draw.evidenceId ∉ d.evidence.values.map EvidenceEvent.id) :
    (delivery d draw 5 (.insertEvidence input)).map (fun o => (o.database, o.starts)) =
      (upsertDatabaseEvidence d input draw.toDraw).2.map fun result =>
        ((upsertDatabaseEvidence d input draw.toDraw).1,
          if result.duplicate then none else result.candidateEvent) := by
  have hinsert : delivery d draw 5 (.insertEvidence input) =
      delivery (insertEvidence d (evidenceRow input draw.toDraw)).1 draw 4
        (.findEvidence input.idempotencyKey (insertEvidence d (evidenceRow input draw.toDraw)).2) := by
    simp only [delivery, Task.step, if_neg hid, Option.bind_eq_bind, Option.bind_some]
  rw [hinsert]
  unfold upsertDatabaseEvidence storeDatabaseCandidate
  generalize insertEvidence d (evidenceRow input draw.toDraw) = p
  obtain ⟨d', inserted⟩ := p
  dsimp only
  cases hfind : findEvidenceByIdempotencyKey d' input.idempotencyKey with
  | none => simp only [delivery, Task.step, hfind, Option.map_none, Option.bind_eq_bind, Option.bind_none]
  | some e =>
    cases inserted with
    | false => simp [delivery, Task.step, hfind]
    | true =>
      cases hdetect : Detection.detectCandidateFromEvidence e (findRecentZoneEvidence d' e draw.rank)
          draw.candidateId draw.now with
      | none => simp [delivery, Task.step, hfind, hdetect]
      | some c =>
        cases hins : insertCandidate d' ⟨candidateKeyFor e, c⟩ with
        | none => simp [delivery, Task.step, hfind, hdetect, hins]
        | some q =>
          cases hc : findDatabaseCandidate q.1 e with
          | none => simp [delivery, Task.step, hfind, hdetect, hins, hc]
          | some c' => simp [delivery, Task.step, hfind, hdetect, hins, hc]

end

/-! ## interleaved tasks -/

/-- the database, the tasks, and the candidates that the pipeline was started for -/
structure World (π : Type*) where
  database : Database
  task : π → Task
  starts : List String

section
variable [JsText.Runtime] {π : Type*} [DecidableEq π]

/-- the task `e.1` sends its next statement -/
def next (w : World π) (e : π × StepDraw) : Option (World π) :=
  ((w.task e.1).step w.database e.2).map fun o =>
    ⟨o.database, Function.update w.task e.1 o.task, (o.starts.map CandidateEvent.id).toList ++ w.starts⟩

/-- a delivery that has not begun, or a sweep; the schema has checked the zone -/
def Task.Fresh (zod : Zod) : Task → Prop
  | .insertEvidence input => zod.uuid input.zoneId = true
  | .listEvidence _ => True
  | _ => False

def start (task : π → Task) : World π := ⟨.empty, task, []⟩

end

end Ingestion
