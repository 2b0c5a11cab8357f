import GridProof.Ingestion.TaskEffect
import GridProof.Provenance.Counted
import GridProof.Provenance.Grid

/-!
# What a delivery or a sweep has in its hands

* `TaskBacked`    stored readings, evidenced candidates, operations that know of an approval;
* `step_backed`   what a statement leaves in the tables and in the hands of its task.
-/

namespace Provenance
open Ingestion (Database EvidenceEvent Outcome StepDraw Task mapEvidenceRow)
open Pipeline

/-- what a delivery or a sweep has in its hands -/
def TaskBacked (V : Db → Prop) (rows : List EvidenceEvent) (db : Db) : Task → Prop
  | .readRecent e => Stored rows e
  | .insertCandidate _ c => Evidenced rows c
  | .recordGaps cs => ∀ c ∈ cs, Evidenced rows c
  | .decide c rest => Recorded db c ∧ ∀ c ∈ rest, Evidenced rows c
  | .score phase rest => PhaseBacked V db phase ∧ ∀ c ∈ rest, Evidenced rows c
  | .insertEvidence _ => True
  | .findEvidence _ _ => True
  | .replyDuplicate _ => True
  | .findCandidate _ => True
  | .listEvidence _ => True
  | .finished => True

section
variable {V W : Db → Prop} {rows rows' : List EvidenceEvent} {db db' : Db}

theorem TaskBacked.mono (hV : ∀ x, V x → W x) (hrows : ∀ row ∈ rows, row ∈ rows') (hkeeps : Keeps db db')
    {task : Task} (h : TaskBacked V rows db task) : TaskBacked W rows' db' task := by
  cases task with
  | readRecent e =>
    obtain ⟨row, hrow, rfl⟩ := h
    exact ⟨row, hrows row hrow, rfl⟩
  | insertCandidate e c => exact Evidenced.mono hrows h
  | recordGaps cs => exact fun c hc => (h c hc).mono hrows
  | decide c rest => exact ⟨h.1.mono hkeeps, fun c hc => (h.2 c hc).mono hrows⟩
  | score phase rest => exact ⟨h.1.mono hV hkeeps, fun c hc => (h.2 c hc).mono hrows⟩
  | _ => trivial

theorem resume_backed {rest : List CandidateEvent} (h : ∀ c ∈ rest, Evidenced rows c) :
    TaskBacked V rows db (Ingestion.resume rest) := by
  cases rest with
  | nil => trivial
  | cons c rest => exact h

theorem afterStatement_backed {phase : Phase} {rest : List CandidateEvent} (hphase : PhaseBacked V db phase)
    (hrest : ∀ c ∈ rest, Evidenced rows c) : TaskBacked V rows db (Ingestion.afterStatement phase rest) := by
  cases phase with
  | finished c => exact resume_backed hrest
  | _ => exact ⟨hphase, hrest⟩

end

section
variable {V : Db → Prop} {d d' : Database}

/-- evidence is only added -/
theorem insertEvidence_keeps (d : Database) (row : EvidenceEvent) :
    (∀ x ∈ d.evidence.values, x ∈ (Ingestion.insertEvidence d row).1.evidence.values) ∧
      (Ingestion.insertEvidence d row).1.system = d.system := by
  unfold Ingestion.insertEvidence
  cases hget : d.evidence.get? row.idempotencyKey with
  | some old => exact ⟨fun _ => id, rfl⟩
  | none =>
    refine ⟨fun x hx => ?_, rfl⟩
    show x ∈ (d.evidence.set row.idempotencyKey row).values
    rw [OrderedMap.values_set_of_none hget]
    exact List.mem_append_left _ hx

/-- an evidenced candidate is recorded, or its key is taken -/
theorem insertCandidate_backed {row : CandidateRow} {inserted : Bool}
    (hs : Backed V d.evidence.values d.system) (hrow : Evidenced d.evidence.values row.event)
    (h : Ingestion.insertCandidate d row = some (d', inserted)) :
    Backed V d'.evidence.values d'.system ∧ d'.evidence = d.evidence ∧ Keeps d.system.db d'.system.db ∧
      (inserted = true → row ∈ d'.system.db.candidates.rows) := by
  unfold Ingestion.insertCandidate at h
  split at h
  · obtain ⟨rfl, rfl⟩ := Prod.mk.inj (Option.some.inj h)
    exact ⟨hs, rfl, .refl _, nofun⟩
  · obtain ⟨candidates, hins, he⟩ := Option.map_eq_some_iff.mp h
    obtain ⟨rfl, rfl⟩ := Prod.mk.inj he
    have hrows : candidates.rows = d.system.db.candidates.rows ++ [row] := (Table.insert_eq_some hins).1
    have hkeeps : Keeps d.system.db { d.system.db with candidates := candidates } :=
      ⟨fun r hr => hrows ▸ List.mem_append_left _ hr, rfl⟩
    refine ⟨⟨fun r hr => ?_, fun job hjob => (hs.jobs job hjob).mono hkeeps, hs.authorized,
      fun r hr => (hs.tallied r hr).mono (fun _ => id) hkeeps⟩, rfl, hkeeps, fun _ => ?_⟩
    · have hmem : r ∈ d.system.db.candidates.rows ++ [row] := hrows ▸ hr
      rcases List.mem_append.mp hmem with hold | hnew
      · exact hs.evidenced r hold
      · rw [List.mem_singleton.mp hnew]
        exact hrow
    · exact hrows ▸ List.mem_append_right _ (List.mem_singleton_self row)

theorem decide_backed {s s' : System} {rows : List EvidenceEvent} {c : CandidateEvent}
    {simulation : Option Simulation} {decisionId : String} {now : IsoDate} {phase : Phase} (hV' : V s'.db)
    (hs : Backed V rows s) (hc : Recorded s.db c)
    (h : decideCandidate s c simulation decisionId now = some (s', phase)) :
    Backed V rows s' ∧ PhaseBacked V s'.db phase ∧ Keeps s.db s'.db := by
  simp only [decideCandidate, Option.bind_eq_bind, Option.bind_eq_some_iff, Prod.exists] at h
  obtain ⟨db, d, hup, h⟩ := h
  obtain ⟨hframe, hputs, hkey, -⟩ := upsertDatabaseDecision_eq_some hup
  have hd := upsert_authorized hup authorized_policy
  have hkeeps : Keeps s.db db := by
    rw [hframe]
    exact .of_eq rfl rfl
  cases hverdict : d.decision with
  | approve =>
    rw [hverdict] at h
    dsimp only at h
    split at h
    · cases h
      exact ⟨hs.decide hframe hputs hd hs.jobs, trivial, hkeeps⟩
    · cases h
      refine ⟨hs.decide hframe hputs hd hs.jobs, ⟨hc.mono hkeeps, ?_⟩, hkeeps⟩
      exact ⟨db, hV', d, hputs.self, congrArg Prod.fst hkey, hverdict, hd hverdict⟩
  | escalate =>
    rw [hverdict] at h
    cases h
    refine ⟨hs.decide hframe hputs hd fun job hjob => ?_, trivial, hkeeps⟩
    rcases List.mem_append.mp hjob with hold | hnew
    · exact hs.jobs job hold
    · rw [List.mem_singleton.mp hnew]
      exact hc
  | reject =>
    rw [hverdict] at h
    cases h
    exact ⟨hs.decide hframe hputs hd hs.jobs, trivial, hkeeps⟩

/-- what a statement of a delivery or a sweep leaves -/
structure StepBacked (V : Db → Prop) (d : Database) (o : Outcome) : Prop where
  system : Backed V o.database.evidence.values o.database.system
  task : TaskBacked V o.database.evidence.values o.database.system.db o.task
  rows : ∀ row ∈ d.evidence.values, row ∈ o.database.evidence.values
  keeps : Keeps d.system.db o.database.system.db

/-- a statement that writes nothing -/
theorem StepBacked.read {task : Task} {starts : Option CandidateEvent} (hs : Backed V d.evidence.values d.system)
    (htask : TaskBacked V d.evidence.values d.system.db task) : StepBacked V d ⟨d, task, starts⟩ :=
  ⟨hs, htask, fun _ => id, .refl _⟩

variable [JsText.Runtime]

/-- **A statement of a delivery, a sweep or a demo run.** -/
theorem step_backed {simulation : Option Simulation} {draw : StepDraw} {task : Task} {o : Outcome}
    (hV : V d.system.db) (hV' : V o.database.system.db) (hs : Backed V d.evidence.values d.system)
    (htask : TaskBacked V d.evidence.values d.system.db task) (h : stepAs simulation d draw task = some o) :
    StepBacked V d o := by
  cases task with
  | insertEvidence input =>
    unfold stepAs Task.step at h
    dsimp only at h
    split at h
    · cases h
    · obtain ⟨hrows, hsystem⟩ := insertEvidence_keeps d (Ingestion.evidenceRow input draw.toDraw)
      cases h
      refine ⟨?_, trivial, hrows, ?_⟩
      · exact hsystem ▸ hs.mono (fun _ => id) hrows
      · exact hsystem ▸ .refl _
  | findEvidence key inserted =>
    obtain ⟨e, hfind, rfl⟩ := Option.map_eq_some_iff.mp h
    obtain ⟨row, hrow, rfl⟩ := Option.map_eq_some_iff.mp hfind
    cases inserted with
    | true => exact .read hs ⟨row, OrderedMap.mem_values.mpr ⟨key, hrow⟩, rfl⟩
    | false => exact .read hs trivial
  | replyDuplicate e =>
    cases h
    exact .read hs trivial
  | readRecent e =>
    unfold stepAs Task.step at h
    dsimp only at h
    split at h
    · cases h
      exact .read hs trivial
    · rename_i c hc
      cases h
      exact .read hs (evidenced_of_detect htask hc)
  | insertCandidate e c =>
    obtain ⟨⟨d', inserted⟩, hins, rfl⟩ := Option.map_eq_some_iff.mp h
    obtain ⟨hbacked, hevidence, hkeeps, -⟩ :=
      @insertCandidate_backed V d d' ⟨Ingestion.candidateKeyFor e, c⟩ inserted hs htask hins
    exact ⟨hbacked, trivial, fun row hrow => hevidence ▸ hrow, hkeeps⟩
  | findCandidate e =>
    unfold stepAs Task.step Ingestion.findDatabaseCandidate at h
    dsimp only at h
    cases hf : d.system.db.candidates.find? (Ingestion.candidateKeyFor e) with
    | none =>
      rw [hf] at h
      cases h
      exact .read hs trivial
    | some r =>
      rw [hf] at h
      cases h
      refine .read hs ⟨⟨r, (Table.find?_eq_some.mp hf).1, rfl, r.event.readBack_epochKey.symm⟩, fun c hc => ?_⟩
      exact absurd hc List.not_mem_nil
  | listEvidence now =>
    cases h
    exact .read hs (resume_backed fun c hc => evidenced_of_sweep hc)
  | recordGaps candidates =>
    cases candidates with
    | nil => cases h
    | cons c rest =>
      obtain ⟨⟨d', recorded⟩, hins, rfl⟩ := Option.map_eq_some_iff.mp h
      have hc : Evidenced d.evidence.values c := htask c List.mem_cons_self
      have hrest : ∀ c ∈ rest, Evidenced d.evidence.values c := fun c hc => htask c (List.mem_cons_of_mem _ hc)
      obtain ⟨hbacked, hevidence, hkeeps, hin⟩ :=
        @insertCandidate_backed V d d' ⟨Detection.heartbeatGapKey c, c⟩ recorded hs hc hins
      rw [← hevidence] at hrest
      cases recorded with
      | true => exact ⟨hbacked, ⟨⟨_, hin rfl, rfl, rfl⟩, hrest⟩, fun row hrow => hevidence ▸ hrow, hkeeps⟩
      | false => exact ⟨hbacked, resume_backed hrest, fun row hrow => hevidence ▸ hrow, hkeeps⟩
  | decide c rest =>
    obtain ⟨⟨s, phase⟩, hdecide, rfl⟩ := Option.map_eq_some_iff.mp h
    obtain ⟨hbacked, hphase, hkeeps⟩ := decide_backed hV' hs htask.1 hdecide
    exact ⟨hbacked, afterStatement_backed hphase htask.2, fun _ => id, hkeeps⟩
  | score phase rest =>
    obtain ⟨⟨s, phase'⟩, hstatement, rfl⟩ := Option.map_eq_some_iff.mp h
    obtain ⟨hbacked, hphase, hkeeps⟩ := statement_backed hV hV' hs htask.1 hstatement
    exact ⟨hbacked, afterStatement_backed hphase htask.2, fun _ => id, hkeeps⟩
  | finished => cases h

end

end Provenance
