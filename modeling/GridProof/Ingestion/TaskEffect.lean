import GridProof.Lib.Cut
import GridProof.Ingestion.Delivery

/-!
# What the statements of deliveries and sweeps do

* `candidateKeyFor_inj`, `candidateKeyFor_ne_gapKey`   the two formats of candidate keys: evidence keys name their
                     evidence, and none is a gap key;
* `Inserts`          a candidate insert stores its row or finds its key taken;
* `Task.Effect`      what a statement does to the evidence and the candidates, and which task it leaves: what is
                     stored stays.
-/

namespace Ingestion
open Pipeline (IsoDate CandidateEvent CandidateRow System Phase)

/-! ## keys -/

/-- hexadecimal digits and hyphens -/
def ZoneText (zoneId : String) : Prop := ∀ c ∈ zoneId.toList, isHexDigit c = true ∨ c = '-'

theorem zoneText_iff {zoneId : String} :
    ZoneText zoneId ↔ (zoneId.toList.all fun c => isHexDigit c || decide (c = '-')) = true := by
  rw [List.all_eq_true]
  simp only [Bool.or_eq_true, decide_eq_true_eq]
  rfl

instance (zoneId : String) : Decidable (ZoneText zoneId) := decidable_of_iff' _ zoneText_iff

theorem zoneText_uuid {zoneId : String} (h : ZoneText zoneId) : ZoneText (uuid zoneId) := by
  intro c hc
  unfold uuid JsText.asciiLower at hc
  rw [String.toList_ofList] at hc
  obtain ⟨c', hc', rfl⟩ := List.mem_map.mp hc
  rcases h c' hc' with hex | rfl
  · have hlower : (hexDigits.all fun c => isHexDigit c.toLower) = true := by decide
    exact .inl (List.all_eq_true.mp hlower c' (List.contains_iff_mem.mp hex))
  · exact .inr (by decide)

theorem ZoneText.no_colon {zoneId : String} (h : ZoneText zoneId) : ':' ∉ zoneId.toList :=
  fun hc => absurd (h ':' hc) (by decide)

theorem status_no_colon (status : EvidenceStatus) : ':' ∉ status.text.toList := by
  cases status with
  | _ => decide

theorem candidateKeyFor_toList (e : EvidenceEvent) : (candidateKeyFor e).toList =
    e.zoneId.toList ++ ':' :: (e.status.text.toList ++ ':' :: e.idempotencyKey.toList) := by
  unfold candidateKeyFor
  simp only [String.toList_append, List.append_assoc]
  rfl

theorem candidateKeyFor_inj {e e' : EvidenceEvent} (hz : ZoneText e.zoneId) (hz' : ZoneText e'.zoneId)
    (h : candidateKeyFor e = candidateKeyFor e') : e.idempotencyKey = e'.idempotencyKey := by
  have hlist := congrArg String.toList h
  rw [candidateKeyFor_toList, candidateKeyFor_toList] at hlist
  obtain ⟨-, hrest⟩ := Cut.cut_first hz.no_colon hz'.no_colon hlist
  obtain ⟨-, hkey⟩ := Cut.cut_first (status_no_colon e.status) (status_no_colon e'.status) hrest
  exact String.toList_inj.mp hkey

/-- **No evidence key is a gap key:** no zone begins with the letter that gap keys begin with. -/
theorem candidateKeyFor_ne_gapKey {e : EvidenceEvent} (hz : ZoneText e.zoneId) (c : CandidateEvent) :
    candidateKeyFor e ≠ Detection.heartbeatGapKey c := by
  intro h
  have hlist := congrArg String.toList h
  rw [candidateKeyFor_toList] at hlist
  have hgap : ∃ rest, (Detection.heartbeatGapKey c).toList = 'h' :: rest := by
    unfold Detection.heartbeatGapKey
    simp only [String.toList_append, List.append_assoc]
    exact ⟨_, rfl⟩
  obtain ⟨rest, hrest⟩ := hgap
  rw [hrest] at hlist
  cases hzone : e.zoneId.toList with
  | nil =>
    rw [hzone] at hlist
    exact absurd (List.cons.inj hlist).1 (by decide)
  | cons x xs =>
    rw [hzone] at hlist
    obtain ⟨rfl, -⟩ := List.cons.inj hlist
    exact absurd (hz 'h' (hzone ▸ List.mem_cons_self)) (by decide)

/-! ## what a statement does -/

/-- the phases of a pipeline after its decision -/
def Decided (phase : Phase) : Prop := ∀ op, phase ≠ .started op

/-- the task has no evidence and no candidate of its own that is still to be handled -/
def Task.Idle : Task → Prop
  | .replyDuplicate _ => True
  | .recordGaps _ => True
  | .decide _ _ => True
  | .score phase _ => Decided phase
  | .finished => True
  | _ => False

theorem resume_idle (rest : List CandidateEvent) : (resume rest).Idle := by
  cases rest with
  | nil => trivial
  | cons c rest => trivial

theorem afterStatement_idle {phase : Phase} (h : Decided phase) (rest : List CandidateEvent) :
    (afterStatement phase rest).Idle := by
  cases phase with
  | finished c => exact resume_idle rest
  | started op => exact h
  | decided c byWorker now => exact h
  | selected c votes now => exact h
  | scored c es now => exact h

/-- the candidates of a database -/
abbrev Database.candidates (d : Database) : Pipeline.Candidates := d.system.db.candidates

/-- a row with a new id is stored, if its key is new -/
structure Inserts (d d' : Database) (row : CandidateRow) (inserted : Bool) : Prop where
  evidence : d'.evidence = d.evidence
  taken : inserted = false → d' = d ∧ ∃ r ∈ d.candidates.rows, r.candidateKey = row.candidateKey
  rows : inserted = true → d'.candidates.rows = d.candidates.rows ++ [row]
  fresh : inserted = true → (∀ r ∈ d.candidates.rows, r.id ≠ row.id) ∧
    ∀ r ∈ d.candidates.rows, r.candidateKey ≠ row.candidateKey

theorem insertCandidate_inserts {d d' : Database} {row : CandidateRow} {inserted : Bool}
    (h : insertCandidate d row = some (d', inserted)) : Inserts d d' row inserted := by
  unfold insertCandidate at h
  cases hf : d.system.db.candidates.find? row.candidateKey with
  | some r =>
    rw [hf] at h
    obtain ⟨rfl, rfl⟩ := Prod.mk.inj (Option.some.inj h)
    obtain ⟨hr, hkey⟩ := Table.find?_eq_some.mp hf
    exact ⟨rfl, fun _ => ⟨rfl, r, hr, hkey⟩, nofun, nofun⟩
  | none =>
    rw [hf] at h
    obtain ⟨candidates, hins, he⟩ := Option.map_eq_some_iff.mp h
    obtain ⟨rfl, rfl⟩ := Prod.mk.inj he
    obtain ⟨hrows, hids, hkeys⟩ := Table.insert_eq_some hins
    exact ⟨rfl, nofun, fun _ => hrows, fun _ => ⟨hids, hkeys⟩⟩

theorem decideCandidate_eq_some {s s' : System} {c : CandidateEvent} {decisionId : String} {now : IsoDate}
    {phase : Phase} (h : decideCandidate s c decisionId now = some (s', phase)) :
    s'.db.candidates = s.db.candidates ∧ Decided phase := by
  simp only [decideCandidate, Option.bind_eq_bind, Option.bind_eq_some_iff, Prod.exists] at h
  obtain ⟨db, d, hup, h⟩ := h
  have hdb := congrArg Pipeline.Db.candidates (Pipeline.upsertDatabaseDecision_eq_some hup).1
  cases hd : d.decision with
  | _ =>
    rw [hd] at h
    obtain ⟨rfl, rfl⟩ := Prod.mk.inj (Option.some.inj h)
    refine ⟨hdb, fun op he => ?_⟩
    cases he

theorem statement_eq_some {s s' : System} {phase phase' : Phase} (hdecided : Decided phase)
    (h : Pipeline.statement s phase = some (s', phase')) :
    s'.db.candidates = s.db.candidates ∧ Decided phase' := by
  cases phase with
  | started op => exact absurd rfl (hdecided op)
  | decided c byWorker now =>
    obtain ⟨rfl, rfl⟩ := Prod.mk.inj (Option.some.inj h)
    refine ⟨rfl, fun op he => ?_⟩
    cases he
  | selected c votes now =>
    obtain ⟨hframe, -, r, -, -, -, rfl⟩ := Pipeline.statement_selected h
    refine ⟨by rw [hframe], fun op he => ?_⟩
    cases he
  | scored c es now =>
    obtain ⟨hframe, -, -, rfl⟩ := Pipeline.statement_scored h
    refine ⟨by rw [hframe], fun op he => ?_⟩
    cases he
  | finished c => cases h

section
variable [JsText.Runtime]

/-- what a statement does to the evidence and the candidates, and which task it leaves -/
inductive Task.Effect (d : Database) : Task → Outcome → Prop
  | evidence (input : DatabaseEvidence) (row : EvidenceEvent)
      (hfree : d.evidence.get? input.idempotencyKey = none)
      (hkey : row.idempotencyKey = input.idempotencyKey) (hzone : row.zoneId = uuid input.zoneId)
      (hid : row.id ∉ d.evidence.values.map EvidenceEvent.id) :
      Effect d (.insertEvidence input)
        ⟨{ d with evidence := d.evidence.set input.idempotencyKey row },
          .findEvidence input.idempotencyKey true, none⟩
  | taken (input : DatabaseEvidence) (hrow : d.evidence.get? input.idempotencyKey ≠ none) :
      Effect d (.insertEvidence input) ⟨d, .findEvidence input.idempotencyKey false, none⟩
  | found (key : String) (row : EvidenceEvent) (hrow : d.evidence.get? key = some row) :
      Effect d (.findEvidence key true) ⟨d, .readRecent (mapEvidenceRow row), none⟩
  | detected (e : EvidenceEvent) (c : CandidateEvent) (rank : EvidenceEvent → ℕ) (id : String)
      (now : IsoDate) (hc : Detection.detectCandidateFromEvidence e (findRecentZoneEvidence d e rank) id now =
        some c) :
      Effect d (.readRecent e) ⟨d, .insertCandidate e c, none⟩
  | unknown (e : EvidenceEvent) (he : e.status = .unknown) : Effect d (.readRecent e) ⟨d, .finished, none⟩
  | candidate (e : EvidenceEvent) (c : CandidateEvent) (d' : Database) (inserted : Bool)
      (hins : Inserts d d' ⟨candidateKeyFor e, c⟩ inserted) :
      Effect d (.insertCandidate e c) ⟨d', .findCandidate e, none⟩
  | started (e : EvidenceEvent) (r : CandidateRow) (hr : r ∈ d.candidates.rows)
      (hkey : r.candidateKey = candidateKeyFor e) :
      Effect d (.findCandidate e) ⟨d, .decide r.event.readBack [], some r.event.readBack⟩
  | missing (e : EvidenceEvent) (hnone : ∀ r ∈ d.candidates.rows, r.candidateKey ≠ candidateKeyFor e) :
      Effect d (.findCandidate e) ⟨d, .finished, none⟩
  | gap (c : CandidateEvent) (rest : List CandidateEvent) (d' : Database)
      (hins : Inserts d d' ⟨Detection.heartbeatGapKey c, c⟩ true) :
      Effect d (.recordGaps (c :: rest)) ⟨d', .decide c rest, some c⟩
  | quiet (task task' : Task) (d' : Database) (hevidence : d'.evidence = d.evidence)
      (hcandidates : d'.candidates = d.candidates) (hidle : task'.Idle)
      (htask : task.Idle ∨ (∃ now, task = .listEvidence now) ∨ ∃ key, task = .findEvidence key false) :
      Effect d task ⟨d', task', none⟩

theorem Task.step_effect {d : Database} {draw : StepDraw} {task : Task} {o : Outcome}
    (hidle : ∀ phase rest, task = .score phase rest → Decided phase)
    (h : task.step d draw = some o) : Effect d task o := by
  cases task with
  | insertEvidence input =>
    unfold step at h
    dsimp only at h
    split at h
    · cases h
    · rename_i hid
      unfold Ingestion.insertEvidence at h
      cases hget : d.evidence.get? (evidenceRow input draw.toDraw).idempotencyKey with
      | some row =>
        rw [hget] at h
        cases h
        exact .taken input (by rw [show d.evidence.get? input.idempotencyKey = _ from hget]; nofun)
      | none =>
        rw [hget] at h
        cases h
        exact .evidence input _ hget rfl rfl hid
  | findEvidence key inserted =>
    obtain ⟨e, hfind, rfl⟩ := Option.map_eq_some_iff.mp h
    obtain ⟨row, hrow, rfl⟩ := Option.map_eq_some_iff.mp hfind
    cases inserted with
    | true => exact .found key row hrow
    | false => exact .quiet _ _ d rfl rfl trivial (.inr (.inr ⟨key, rfl⟩))
  | replyDuplicate e =>
    cases h
    exact .quiet _ _ d rfl rfl trivial (.inl trivial)
  | readRecent e =>
    unfold step at h
    dsimp only at h
    cases hc : Detection.detectCandidateFromEvidence e (findRecentZoneEvidence d e draw.rank) draw.candidateId
        draw.now with
    | none =>
      rw [hc] at h
      cases h
      exact .unknown e (Detection.detectCandidateFromEvidence_eq_none.mp hc)
    | some c =>
      rw [hc] at h
      cases h
      exact .detected e c draw.rank draw.candidateId draw.now hc
  | insertCandidate e c =>
    obtain ⟨⟨d', inserted⟩, hins, rfl⟩ := Option.map_eq_some_iff.mp h
    exact .candidate e c d' inserted (insertCandidate_inserts hins)
  | findCandidate e =>
    unfold step findDatabaseCandidate at h
    dsimp only at h
    cases hf : d.system.db.candidates.find? (candidateKeyFor e) with
    | none =>
      rw [hf] at h
      cases h
      exact .missing e (Table.find?_eq_none.mp hf)
    | some r =>
      rw [hf] at h
      cases h
      obtain ⟨hr, hkey⟩ := Table.find?_eq_some.mp hf
      exact .started e r hr hkey
  | listEvidence now =>
    cases h
    exact .quiet _ _ d rfl rfl (resume_idle _) (.inr (.inl ⟨now, rfl⟩))
  | recordGaps candidates =>
    cases candidates with
    | nil => cases h
    | cons c rest =>
      obtain ⟨⟨d', recorded⟩, hins, rfl⟩ := Option.map_eq_some_iff.mp h
      have hins := insertCandidate_inserts hins
      cases recorded with
      | true => exact .gap c rest d' hins
      | false =>
        obtain ⟨rfl, -⟩ := hins.taken rfl
        exact .quiet _ _ _ rfl rfl (resume_idle rest) (.inl trivial)
  | decide c rest =>
    obtain ⟨⟨s, phase⟩, hdec, rfl⟩ := Option.map_eq_some_iff.mp h
    obtain ⟨hcand, hphase⟩ := decideCandidate_eq_some hdec
    exact .quiet _ _ _ rfl hcand (afterStatement_idle hphase rest) (.inl trivial)
  | score phase rest =>
    have hdecided := hidle phase rest rfl
    obtain ⟨⟨s, phase'⟩, hst, rfl⟩ := Option.map_eq_some_iff.mp h
    obtain ⟨hcand, hphase⟩ := statement_eq_some hdecided hst
    exact .quiet _ _ _ rfl hcand (afterStatement_idle hphase rest) (.inl hdecided)
  | finished => cases h

/-- evidence that is stored stays as it is -/
theorem Task.Effect.keeps {d : Database} {task : Task} {o : Outcome} (h : Task.Effect d task o)
    {key : String} {row : EvidenceEvent} (hrow : d.evidence.get? key = some row) :
    o.database.evidence.get? key = some row := by
  cases h with
  | evidence input row' hfree hkey hzone hid =>
    refine OrderedMap.get?_set.trans ((if_neg ?_).trans hrow)
    rintro rfl
    rw [hfree] at hrow
    cases hrow
  | candidate e c d' inserted hins => exact hins.evidence ▸ hrow
  | gap c rest d' hins => exact hins.evidence ▸ hrow
  | quiet task task' d' hevidence hcandidates hidle htask => exact hevidence ▸ hrow
  | _ => exact hrow

/-- candidates stay -/
theorem Task.Effect.grows {d : Database} {task : Task} {o : Outcome} (h : Task.Effect d task o)
    {r : CandidateRow} (hr : r ∈ d.candidates.rows) : r ∈ o.database.candidates.rows := by
  have hins : ∀ {d' row inserted}, Inserts d d' row inserted → r ∈ d'.candidates.rows := by
    intro d' row inserted h
    cases inserted with
    | false => exact (h.taken rfl).1 ▸ hr
    | true =>
      rw [h.rows rfl]
      exact List.mem_append_left _ hr
  cases h with
  | candidate e c d' inserted h => exact hins h
  | gap c rest d' h => exact hins h
  | quiet task task' d' hevidence hcandidates hidle htask => exact hcandidates ▸ hr
  | _ => exact hr

/-- a delivery's first statement leaves a row of its key -/
theorem Task.Effect.begun {d : Database} {input : DatabaseEvidence} {o : Outcome}
    (h : Task.Effect d (.insertEvidence input) o) : o.database.evidence.get? input.idempotencyKey ≠ none := by
  cases h with
  | evidence _ row hfree hkey hzone hid =>
    show (OrderedMap.set _ _ _).get? _ ≠ none
    rw [OrderedMap.get?_set_self]
    exact Option.some_ne_none row
  | taken _ hrow => exact hrow
  | quiet _ task' d' hevidence hcandidates hidle htask =>
    rcases htask with hno | ⟨now, hno⟩ | ⟨key, hno⟩
    · exact hno.elim
    · cases hno
    · cases hno

end

end Ingestion
