import GridProof.Ingestion.ExactlyOnce

/-!
# Attempts that fail half way

One API instance handles requests and sweeps one after the other, and any statement may fail.  An error ends a
delivery, which the client may repeat, or a sweep, which the timer repeats; an error in the pipeline of a gap
candidate is logged and the sweep goes on.

* `Server.next`     an attempt begins, sends its next statement, or fails;
* `Stored`          what holds of the evidence and the candidates, whatever fails;
* `Decided`, `Held` what holds of the decisions and the scores, and of the candidate in the pipeline.

A failed write of the audit log is logged, so it is no step here.
-/

namespace Ingestion
open Pipeline (IsoDate CandidateEvent CandidateRow System Phase Db AgentDecision Vote EpochScore ScoreRow
  ChainCommitment selectApproved floorToEpoch)

/-! ## one instance -/

structure Server where
  database : Database
  task : Task

inductive Server.Action where
  | deliver (input : DatabaseEvidence)
  | sweep (now : Int)
  | statement (draw : StepDraw)
  | fail

def Server.start : Server := ⟨.empty, .finished⟩

/-- where an error leaves the attempt -/
def Task.failed : Task → Task
  | .decide _ rest => resume rest
  | .score _ rest => resume rest
  | _ => .finished

section
variable [JsText.Runtime]

/-- a new attempt begins when the one before it has ended; the schema checks the zone of a request -/
def Server.next (zod : Zod) (s : Server) : Server.Action → Option Server
  | .deliver input =>
    match s.task with
    | .finished => if zod.uuid input.zoneId then some ⟨s.database, .insertEvidence input⟩ else none
    | _ => none
  | .sweep now =>
    match s.task with
    | .finished => some ⟨s.database, .listEvidence now⟩
    | _ => none
  | .statement draw => (s.task.step s.database draw).map fun o => ⟨o.database, o.task⟩
  | .fail =>
    match s.task with
    | .finished => none
    | task => some ⟨s.database, task.failed⟩

/-- what a step can do -/
inductive Server.Effect (zod : Zod) (s : Server) : Server.Action → Server → Prop
  | deliver (input : DatabaseEvidence) (hidle : s.task = .finished) (hzone : zod.uuid input.zoneId = true) :
      Effect zod s (.deliver input) ⟨s.database, .insertEvidence input⟩
  | sweep (now : Int) (hidle : s.task = .finished) : Effect zod s (.sweep now) ⟨s.database, .listEvidence now⟩
  | statement (draw : StepDraw) (o : Outcome) (ho : s.task.step s.database draw = some o) :
      Effect zod s (.statement draw) ⟨o.database, o.task⟩
  | fail (hbusy : s.task ≠ .finished) : Effect zod s .fail ⟨s.database, s.task.failed⟩

theorem Server.next_effect {zod : Zod} {s s' : Server} {a : Server.Action} (h : s.next zod a = some s') :
    Effect zod s a s' := by
  obtain ⟨database, task⟩ := s
  cases a with
  | deliver input =>
    cases task with
    | finished =>
      unfold next at h
      dsimp only at h
      split at h
      · rename_i hzone
        cases h
        exact .deliver input rfl hzone
      · cases h
    | _ => cases h
  | sweep now =>
    cases task with
    | finished =>
      cases h
      exact .sweep now rfl
    | _ => cases h
  | statement draw =>
    obtain ⟨o, ho, rfl⟩ := Option.map_eq_some_iff.mp h
    exact .statement draw o ho
  | fail =>
    cases task with
    | finished => cases h
    | _ =>
      cases h
      refine .fail fun he => ?_
      cases he

end

/-! ## evidence and candidates -/

theorem Task.failed_idle (task : Task) : task.failed.Idle := by
  cases task with
  | decide c rest => exact resume_idle rest
  | score phase rest => exact resume_idle rest
  | _ => trivial

/-- every row of evidence is under its key, and every candidate is of a row or of a gap -/
structure Database.Keyed (d : Database) : Prop where
  row : ∀ key row, d.evidence.get? key = some row → row.idempotencyKey = key ∧ ZoneText row.zoneId
  origin : ∀ r ∈ d.candidates.rows,
    (∃ key row, d.evidence.get? key = some row ∧ r.candidateKey = candidateKeyFor row) ∨
      r.candidateKey = Detection.heartbeatGapKey r.event

theorem Database.Keyed.get?_eq {d : Database} (hd : d.Keyed) {e : EvidenceEvent} (he : e ∈ d.evidence.values) :
    d.evidence.get? e.idempotencyKey = some e := by
  obtain ⟨key, hget⟩ := OrderedMap.mem_values.mp he
  obtain ⟨rfl, -⟩ := hd.row key e hget
  exact hget

/-- no candidate is of a row that is not stored -/
theorem Database.Keyed.unclaimed {d : Database} (hd : d.Keyed) {row : EvidenceEvent} (hzone : ZoneText row.zoneId)
    (hfree : d.evidence.get? row.idempotencyKey = none) :
    ∀ r ∈ d.candidates.rows, r.candidateKey ≠ candidateKeyFor row := by
  intro r hr he
  rcases hd.origin r hr with ⟨key, old, hold, hkey⟩ | hgap
  · obtain ⟨rfl, hzone'⟩ := hd.row key old hold
    rw [candidateKeyFor_inj hzone hzone' (he.symm.trans hkey), hold] at hfree
    cases hfree
  · exact candidateKeyFor_ne_gapKey hzone r.event (he.symm.trans hgap)

/-- what holds of the evidence and the candidates, whatever fails -/
structure Stored (zod : Zod) (d : Database) (task : Task) : Prop extends d.Keyed where
  ok : task.Ok zod d
  pending : ∀ key row, task.pending = some key → d.evidence.get? key = some row →
    ∀ r ∈ d.candidates.rows, r.candidateKey ≠ candidateKeyFor row

section
variable {zod : Zod} {d d' : Database} {task task' : Task}

/-- the event of a task is the row of its key -/
theorem Stored.event_eq (h : Stored zod d task) {e row : EvidenceEvent} (he : task.event = some e)
    (hrow : row ∈ d.evidence.values) (hkey : e.idempotencyKey = row.idempotencyKey) : e = mapEvidenceRow row := by
  obtain ⟨row', hget, hmap⟩ := h.ok.event e he
  rw [hkey, h.toKeyed.get?_eq hrow] at hget
  rw [Option.some.inj hget]
  exact hmap

theorem Stored.of_idle (h : Stored zod d task) (hidle : task'.Idle) : Stored zod d task' where
  row := h.row
  origin := h.origin
  ok := hidle.ok
  pending key row hpend := by
    rw [hidle.nothing.2.2] at hpend
    cases hpend

theorem Database.Keyed.congr (h : d.Keyed) (hevidence : d'.evidence = d.evidence)
    (hcandidates : d'.candidates = d.candidates) : d'.Keyed := by
  obtain ⟨hrow, horigin⟩ := h
  rw [← hevidence] at hrow horigin
  rw [← hcandidates] at horigin
  exact ⟨hrow, horigin⟩

/-- a new candidate, of a stored row or of a gap -/
theorem Database.Keyed.inserts (h : d.Keyed) {r : CandidateRow} (hins : Inserts d d' r true)
    (hr : (∃ key row, d.evidence.get? key = some row ∧ r.candidateKey = candidateKeyFor row) ∨
      r.candidateKey = Detection.heartbeatGapKey r.event) : d'.Keyed := by
  refine ⟨?_, fun r' hr' => ?_⟩
  · rw [hins.evidence]
    exact h.row
  · rw [hins.evidence]
    rw [hins.rows rfl] at hr'
    rcases List.mem_append.mp hr' with hold | hnew
    · exact h.origin r' hold
    · rw [List.mem_singleton.mp hnew]
      exact hr

variable [JsText.Runtime]

theorem Stored.effect {o : Outcome} (h : Stored zod d task) (heff : Task.Effect d task o) :
    Stored zod o.database o.task := by
  have hmove : ∀ {key}, task.pending = some key → ∀ task' : Task, task'.pending = some key → task'.Ok zod d →
      Stored zod d task' := by
    intro key hkey task' hkey' hok
    refine ⟨h.toKeyed, hok, fun key' row hpend => ?_⟩
    rw [hkey'] at hpend
    exact h.pending key' row (hkey.trans hpend)
  cases heff with
  | evidence input row hfree hkey hzone hid =>
    have hget : ∀ key row', (d.evidence.set input.idempotencyKey row).get? key = some row' →
        (key = input.idempotencyKey ∧ row' = row) ∨ d.evidence.get? key = some row' := by
      intro key row' hrow'
      rw [OrderedMap.get?_set] at hrow'
      split at hrow'
      · rename_i he
        exact .inl ⟨he, (Option.some.inj hrow').symm⟩
      · exact .inr hrow'
    have hgrow : ∀ key row', d.evidence.get? key = some row' →
        (d.evidence.set input.idempotencyKey row).get? key = some row' := by
      intro key row' hrow'
      rw [OrderedMap.get?_set_of_ne]
      · exact hrow'
      · rintro rfl
        rw [hfree] at hrow'
        cases hrow'
    have hrowZone : ZoneText row.zoneId := by
      rw [hzone]
      exact zoneText_uuid (zod.uuid_chars _ (h.ok.input input rfl))
    have hfree' : d.evidence.get? row.idempotencyKey = none := by
      rw [hkey]
      exact hfree
    refine ⟨⟨fun key row' hrow' => ?_, fun r hr => ?_⟩, ?_, fun key row' hpend hrow' => ?_⟩
    · rcases hget key row' hrow' with ⟨rfl, rfl⟩ | hold
      · exact ⟨hkey, hrowZone⟩
      · exact h.row key row' hold
    · refine (h.origin r hr).imp_left ?_
      rintro ⟨key, row', hrow', he⟩
      exact ⟨key, row', hgrow key row' hrow', he⟩
    · refine Task.ok_findEvidence true ?_
      rw [OrderedMap.get?_set_self]
      exact Option.some_ne_none row
    · obtain rfl := Option.some.inj hpend
      rcases hget _ row' hrow' with ⟨-, rfl⟩ | hold
      · exact h.toKeyed.unclaimed hrowZone hfree'
      · rw [hfree] at hold
        cases hold
  | taken input hrow =>
    refine ⟨h.toKeyed, Task.ok_findEvidence false hrow, fun key row hpend => ?_⟩
    cases hpend
  | found key row hrow =>
    obtain ⟨hkey, -⟩ := h.row key row hrow
    refine hmove rfl _ (congrArg some hkey) (Task.ok_event rfl ⟨row, ?_, rfl⟩ fun c he => ?_)
    · show d.evidence.get? row.idempotencyKey = some row
      rw [hkey]
      exact hrow
    · cases he
  | detected e c rank id now hc =>
    refine hmove rfl _ rfl (Task.ok_event rfl (h.ok.event e rfl) fun c' _ hunknown => ?_)
    rw [Detection.detectCandidateFromEvidence_eq_none.mpr hunknown] at hc
    cases hc
  | unknown e he => exact h.of_idle trivial
  | candidate e c d' inserted hins =>
    obtain ⟨row, hrow, rfl⟩ := h.ok.event e rfl
    have hrow' : d'.evidence.get? row.idempotencyKey = some row := by
      rw [hins.evidence]
      exact hrow
    refine ⟨?_, Task.ok_event rfl ⟨row, hrow', rfl⟩ fun c he => ?_, fun key row hpend => ?_⟩
    · cases inserted with
      | true => exact h.toKeyed.inserts hins (.inl ⟨_, row, hrow, rfl⟩)
      | false => exact (hins.taken rfl).1 ▸ h.toKeyed
    · cases he
    · cases hpend
  | started e r hr hkey => exact h.of_idle trivial
  | missing e hnone => exact h.of_idle trivial
  | gap c rest d' hins =>
    have hidle : (Task.decide c rest).Idle := trivial
    refine ⟨h.toKeyed.inserts hins (.inr rfl), hidle.ok, fun key row hpend => ?_⟩
    cases hpend
  | quiet task task' d' hevidence hcandidates hidle htask =>
    refine ⟨h.toKeyed.congr hevidence hcandidates, hidle.ok, fun key row hpend => ?_⟩
    rw [hidle.nothing.2.2] at hpend
    cases hpend

end

/-! ## before the pipeline -/

/-- the task has no candidate in its hands -/
def Task.Plain : Task → Prop
  | .findCandidate _ => False
  | .decide _ _ => False
  | .score _ _ => False
  | _ => True

theorem resume_plain (rest : List CandidateEvent) : (resume rest).Plain := by
  cases rest with
  | nil => trivial
  | cons c rest => trivial

theorem Task.failed_plain (task : Task) : task.failed.Plain := by
  cases task with
  | decide c rest => exact resume_plain rest
  | score phase rest => exact resume_plain rest
  | _ => trivial

/-- what a statement before the pipeline does to the tables of the pipeline, and which task it leaves -/
inductive Task.Before (d : Database) : Task → Outcome → Prop
  | quiet (task task' : Task) (d' : Database) (hsystem : d'.system = d.system) (hplain : task.Plain)
      (hplain' : task'.Plain) : Before d task ⟨d', task', none⟩
  | candidate (e : EvidenceEvent) (c : CandidateEvent) (d' : Database) (inserted : Bool)
      (hins : Inserts d d' ⟨candidateKeyFor e, c⟩ inserted)
      (hframe : d'.system.db = { d.system.db with candidates := d'.candidates }) :
      Before d (.insertCandidate e c) ⟨d', .findCandidate e, none⟩
  | started (e : EvidenceEvent) (r : CandidateRow) (hr : r ∈ d.candidates.rows)
      (hkey : r.candidateKey = candidateKeyFor e) :
      Before d (.findCandidate e) ⟨d, .decide r.event.readBack [], some r.event.readBack⟩
  | missing (e : EvidenceEvent) (hnone : ∀ r ∈ d.candidates.rows, r.candidateKey ≠ candidateKeyFor e) :
      Before d (.findCandidate e) ⟨d, .finished, none⟩
  | gap (c : CandidateEvent) (rest : List CandidateEvent) (d' : Database)
      (hins : Inserts d d' ⟨Detection.heartbeatGapKey c, c⟩ true)
      (hframe : d'.system.db = { d.system.db with candidates := d'.candidates }) :
      Before d (.recordGaps (c :: rest)) ⟨d', .decide c rest, some c⟩

theorem insertCandidate_frame {d d' : Database} {row : CandidateRow} {inserted : Bool}
    (h : insertCandidate d row = some (d', inserted)) :
    d'.system.db = { d.system.db with candidates := d'.candidates } := by
  unfold insertCandidate at h
  split at h
  · cases h
    rfl
  · obtain ⟨candidates, -, he⟩ := Option.map_eq_some_iff.mp h
    cases he
    rfl

section
variable [JsText.Runtime] {d : Database} {draw : StepDraw} {task : Task} {o : Outcome}

theorem Task.step_before (h : task.step d draw = some o)
    (htask : (∀ c rest, task ≠ .decide c rest) ∧ ∀ phase rest, task ≠ .score phase rest) :
    Task.Before d task o := by
  cases task with
  | insertEvidence input =>
    unfold step at h
    dsimp only at h
    split at h
    · cases h
    · have hsystem : ∀ row, (Ingestion.insertEvidence d row).1.system = d.system := by
        intro row
        unfold Ingestion.insertEvidence
        split
        · rfl
        · rfl
      cases h
      exact .quiet _ _ _ (hsystem _) trivial trivial
  | findEvidence key inserted =>
    obtain ⟨e, -, rfl⟩ := Option.map_eq_some_iff.mp h
    cases inserted with
    | true => exact .quiet _ _ d rfl trivial trivial
    | false => exact .quiet _ _ d rfl trivial trivial
  | replyDuplicate e =>
    cases h
    exact .quiet _ _ d rfl trivial trivial
  | readRecent e =>
    unfold step at h
    dsimp only at h
    split at h
    · cases h
      exact .quiet _ _ d rfl trivial trivial
    · cases h
      exact .quiet _ _ d rfl trivial trivial
  | insertCandidate e c =>
    obtain ⟨⟨d', inserted⟩, hins, rfl⟩ := Option.map_eq_some_iff.mp h
    exact .candidate e c d' inserted (insertCandidate_inserts hins) (insertCandidate_frame hins)
  | findCandidate e =>
    have heff := Task.step_effect (fun phase rest he => by cases he) h
    cases heff with
    | started _ r hr hkey => exact .started e r hr hkey
    | missing _ hnone => exact .missing e hnone
    | quiet _ task' d' _ _ _ hquiet =>
      rcases hquiet with hidle | ⟨now, he⟩ | ⟨key, he⟩
      · exact hidle.elim
      · cases he
      · cases he
  | listEvidence now =>
    cases h
    exact .quiet _ _ d rfl trivial (resume_plain _)
  | recordGaps candidates =>
    cases candidates with
    | nil => cases h
    | cons c rest =>
      obtain ⟨⟨d', recorded⟩, hins, rfl⟩ := Option.map_eq_some_iff.mp h
      cases recorded with
      | true => exact .gap c rest d' (insertCandidate_inserts hins) (insertCandidate_frame hins)
      | false =>
        obtain ⟨rfl, -⟩ := (insertCandidate_inserts hins).taken rfl
        exact .quiet _ _ _ rfl trivial (resume_plain rest)
  | decide c rest => exact absurd rfl (htask.1 c rest)
  | score phase rest => exact absurd rfl (htask.2 phase rest)
  | finished => cases h

end

/-! ## decisions, scores and commitments -/

/-- what a statement of a pipeline writes, and which task it leaves -/
inductive Task.Advance (d : Database) : Task → Outcome → Prop
  | decided (c : CandidateEvent) (rest : List CandidateEvent) (d' : Database) (phase : Phase)
      (decision : AgentDecision) (hevidence : d'.evidence = d.evidence)
      (hframe : d'.system.db = { d.system.db with decisions := d'.system.db.decisions })
      (hputs : d.system.db.decisions.Puts d'.system.db.decisions decision)
      (hkey : decision.key = (c.id, .policyGate))
      (hphase : (decision.decision = .approve ∧ ∃ now, phase = .decided c false now) ∨
        (decision.decision ≠ .approve ∧ phase = .finished none)) :
      Advance d (.decide c rest) ⟨d', afterStatement phase rest, none⟩
  | selected (c : CandidateEvent) (byWorker : Bool) (now : IsoDate) (rest : List CandidateEvent) :
      Advance d (.score (.decided c byWorker now) rest)
        ⟨d, .score (.selected c (Pipeline.recomputeVotes d.system.db c byWorker) now) rest, none⟩
  | scored (c : CandidateEvent) (votes : List Vote) (now : IsoDate) (rest : List CandidateEvent)
      (d' : Database) (row : ScoreRow) (hevidence : d'.evidence = d.evidence)
      (hframe : d'.system.db = { d.system.db with epochScores := d'.system.db.epochScores })
      (hputs : d.system.db.epochScores.Puts d'.system.db.epochScores row)
      (hkey : row.key = c.epochKey) (hcounted : row.counted = votes)
      (hkeeps : ∀ s ∈ d.system.db.epochScores.rows, s.key = row.key → s.id = row.id) :
      Advance d (.score (.selected c votes now) rest) ⟨d', .score (.scored c row.toEpochScore now) rest, none⟩
  | committed (c : CandidateEvent) (es : EpochScore) (now : IsoDate) (rest : List CandidateEvent)
      (d' : Database) (row : ChainCommitment) (hevidence : d'.evidence = d.evidence)
      (hframe : d'.system.db = { d.system.db with commitments := d'.system.db.commitments })
      (hputs : d.system.db.commitments.Puts d'.system.db.commitments row) (hkey : row.epochScoreId = es.id) :
      Advance d (.score (.scored c es now) rest) ⟨d', resume rest, none⟩

theorem decideCandidate_puts {s s' : System} {c : CandidateEvent} {decisionId : String} {now : IsoDate}
    {phase : Phase} (h : decideCandidate s c decisionId now = some (s', phase)) :
    s'.db = { s.db with decisions := s'.db.decisions } ∧ ∃ decision : AgentDecision,
      s.db.decisions.Puts s'.db.decisions decision ∧ decision.key = (c.id, .policyGate) ∧
        ((decision.decision = .approve ∧ ∃ now, phase = .decided c false now) ∨
          (decision.decision ≠ .approve ∧ phase = .finished none)) := by
  simp only [decideCandidate, Option.bind_eq_bind, Option.bind_eq_some_iff, Prod.exists] at h
  obtain ⟨db, decision, hup, h⟩ := h
  obtain ⟨hframe, hputs, hkey, -⟩ := Pipeline.upsertDatabaseDecision_eq_some hup
  cases hd : decision.decision with
  | approve =>
    rw [hd] at h
    obtain ⟨rfl, rfl⟩ := Prod.mk.inj (Option.some.inj h)
    exact ⟨hframe, decision, hputs, hkey, .inl ⟨hd, now, rfl⟩⟩
  | escalate =>
    rw [hd] at h
    obtain ⟨rfl, rfl⟩ := Prod.mk.inj (Option.some.inj h)
    refine ⟨hframe, decision, hputs, hkey, .inr ⟨?_, rfl⟩⟩
    rw [hd]
    decide
  | reject =>
    rw [hd] at h
    obtain ⟨rfl, rfl⟩ := Prod.mk.inj (Option.some.inj h)
    refine ⟨hframe, decision, hputs, hkey, .inr ⟨?_, rfl⟩⟩
    rw [hd]
    decide

theorem stored_commitment_key {db : Db} {commitment : ChainCommitment} :
    (db.commitments.stored commitment commitment.overwrite).epochScoreId = commitment.epochScoreId :=
  Table.stored_key fun _ => rfl

/-- a score statement keeps the id of the row in conflict -/
theorem upsertEpochScore_keeps {db db' : Db} {row : ScoreRow} {es : EpochScore}
    (h : Pipeline.upsertEpochScore db row = some (db', es)) {r s : ScoreRow}
    (hputs : db.epochScores.Puts db'.epochScores r) (hs : s ∈ db.epochScores.rows) (hkey : s.key = r.key) :
    s.id = r.id := by
  obtain ⟨scores, hup, he⟩ := Option.map_eq_some_iff.mp h
  obtain ⟨rfl, -⟩ := Prod.mk.inj he
  obtain ⟨s', hs', -, hid, hkey'⟩ := Table.upsert_keeps hup hs
  rw [← hid, Table.eq_of_key hs' hputs.self (hkey'.trans hkey)]

section
variable [JsText.Runtime] {d : Database} {draw : StepDraw} {c : CandidateEvent} {rest : List CandidateEvent}
  {phase : Phase} {o : Outcome}

theorem decide_advance (h : (Task.decide c rest).step d draw = some o) : Task.Advance d (.decide c rest) o := by
  obtain ⟨⟨s, phase⟩, hdec, rfl⟩ := Option.map_eq_some_iff.mp h
  obtain ⟨hframe, decision, hputs, hkey, hphase⟩ := decideCandidate_puts hdec
  exact .decided c rest _ phase decision rfl hframe hputs hkey hphase

theorem score_advance (hdecided : Decided phase) (h : (Task.score phase rest).step d draw = some o) :
    Task.Advance d (.score phase rest) o := by
  obtain ⟨⟨s, phase'⟩, hst, rfl⟩ := Option.map_eq_some_iff.mp h
  cases phase with
  | started op => exact absurd rfl (hdecided op)
  | decided c byWorker now =>
    obtain ⟨rfl, rfl⟩ := Prod.mk.inj (Option.some.inj hst)
    exact .selected c byWorker now rest
  | selected c votes now =>
    simp only [Pipeline.statement, Option.bind_eq_bind, Option.bind_eq_some_iff, Prod.exists] at hst
    obtain ⟨db, es, hup, hst⟩ := hst
    cases hst
    obtain ⟨hframe, r, hputs, hkey, hcounted, rfl⟩ := Pipeline.upsertEpochScore_eq_some hup
    exact .scored c votes now rest _ r rfl hframe hputs hkey hcounted
      fun s hs hskey => upsertEpochScore_keeps hup hputs hs hskey
  | scored c es now =>
    obtain ⟨hframe, -, ⟨row, hputs, hrow⟩, rfl⟩ := Pipeline.statement_scored hst
    exact .committed c es now rest _ row rfl hframe hputs ((congrArg _ hrow).trans stored_commitment_key)
  | finished c => exact absurd hst.symm (Option.some_ne_none _)

/-- a statement is before the pipeline or in it -/
theorem Task.step_cases {task : Task} (hphase : ∀ phase rest, task = .score phase rest → Decided phase)
    (h : task.step d draw = some o) : Task.Before d task o ∨ Task.Advance d task o := by
  cases task with
  | decide c rest => exact .inr (decide_advance h)
  | score phase rest => exact .inr (score_advance (hphase phase rest rfl) h)
  | _ =>
    refine .inl (Task.step_before h ⟨fun c rest he => ?_, fun phase rest he => ?_⟩)
    · cases he
    · cases he

end

/-- no decision on the candidate is stored -/
def Undecided (db : Db) (candidateId : String) : Prop :=
  ∀ decision ∈ db.decisions.rows, decision.candidateEventId ≠ candidateId

/-- the policy gate has approved the stored candidate -/
def Gated (db : Db) (c : CandidateEvent) : Prop :=
  db.Records c ∧ ∃ decision ∈ db.decisions.rows, decision.key = (c.id, .policyGate) ∧ decision.decision = .approve

def Uncounted (db : Db) (candidateId : String) : Prop :=
  ∀ s ∈ db.epochScores.rows, ¬ s.Counts candidateId

/-- the candidate in the pipeline, by how far the pipeline is -/
def Task.Held (db : Db) : Task → Prop
  | .findCandidate e => ∃ r ∈ db.candidates.rows, r.candidateKey = candidateKeyFor e ∧ Undecided db r.id
  | .decide c _ => db.Records c ∧ Undecided db c.id
  | .score (.decided c byWorker _) _ => byWorker = false ∧ Gated db c ∧ Uncounted db c.id
  | .score (.selected c votes _) _ => Gated db c ∧ Uncounted db c.id ∧
      votes = (selectApproved db c.zoneId (floorToEpoch c.windowEnd)).map CandidateEvent.vote
  | .score (.scored c es _) _ => Gated db c ∧
      ∃ s ∈ db.epochScores.rows, s.toEpochScore = es ∧ s.key = c.epochKey ∧ s.Counts c.id
  | .score _ _ => False
  | _ => True

theorem resume_held (db : Db) (rest : List CandidateEvent) : (resume rest).Held db := by
  cases rest with
  | nil => trivial
  | cons c rest => trivial

theorem Task.failed_held (db : Db) (task : Task) : task.failed.Held db := by
  cases task with
  | decide c rest => exact resume_held db rest
  | score phase rest => exact resume_held db rest
  | _ => trivial

/-- what holds of an instance, whatever fails -/
structure Consistent (zod : Zod) (d : Database) (task : Task) : Prop extends Stored zod d task where
  decisions : ∀ decision ∈ d.system.db.decisions.rows,
    ∃ r ∈ d.candidates.rows, r.id = decision.candidateEventId
  scores : ∀ s ∈ d.system.db.epochScores.rows, ∀ id, s.Counts id → d.system.db.Approved id
  held : task.Held d.system.db

end Ingestion
