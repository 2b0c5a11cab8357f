import GridProof.Lib.MapValues
import GridProof.Ingestion.SweepModes

/-!
# What the notes of reports decide

A report's note is kept in its event and read by no function that raises candidates: each of them says the
same of events without their notes.

* `detect_withoutNote`   a candidate, of an event and the recent evidence;
* `gaps_withoutNote`     the gaps of a zone;
* `Store.withoutNotes`, `upsertMemory_withoutNotes`, `upsertDatabase_withoutNotes`   a request, in either store;
* `sweep_withoutNotes`   a sweep.
-/

namespace Ingestion
open Pipeline (IsoDate CandidateEvent)
open Detection (Tally AgreementScore evidenceSourceIdentity counts isEarlier tally)

/-! ## events -/

def RawPayload.withoutNote : RawPayload → RawPayload
  | telemetry deviceId providerWallet currentAmps => telemetry deviceId providerWallet currentAmps
  | report reporterWallet _ => report reporterWallet none

def EvidenceEvent.withoutNote (e : EvidenceEvent) : EvidenceEvent :=
  { e with rawPayload := e.rawPayload.withoutNote }

def RawPayload.note : RawPayload → Option String
  | telemetry _ _ _ => none
  | report _ note => note

/-- an event is what it is without its note, and the note -/
theorem EvidenceEvent.eq_iff {e e' : EvidenceEvent} :
    e = e' ↔ e.withoutNote = e'.withoutNote ∧ e.rawPayload.note = e'.rawPayload.note := by
  refine ⟨fun h => h ▸ ⟨rfl, rfl⟩, fun ⟨h, hnote⟩ => ?_⟩
  have hfields := h
  cases e with | mk id providerId zoneId key source status voltage amps hint payload observedAt receivedAt =>
  cases e' with | mk id' providerId' zoneId' key' source' status' voltage' amps' hint' payload' observedAt' received' =>
  simp only [EvidenceEvent.withoutNote, EvidenceEvent.mk.injEq] at hfields
  obtain ⟨rfl, rfl, rfl, rfl, rfl, rfl, rfl, rfl, rfl, hpayload, rfl, rfl⟩ := hfields
  have heq : payload = payload' := by
    cases payload with
    | telemetry d w a =>
      cases payload' with
      | telemetry d' w' a' => exact hpayload
      | report w' n' => cases hpayload
    | report w n =>
      cases payload' with
      | telemetry d' w' a' => cases hpayload
      | report w' n' =>
        obtain ⟨rfl, -⟩ := RawPayload.report.inj hpayload
        exact congrArg (RawPayload.report w) hnote
  rw [heq]

theorem EvidenceEvent.status_of_withoutNote {e e' : EvidenceEvent} (h : e.withoutNote = e'.withoutNote) :
    e.zoneId = e'.zoneId ∧ e.status = e'.status ∧ e.observedAt = e'.observedAt := by
  have hzone := congrArg EvidenceEvent.zoneId h
  have hstatus := congrArg EvidenceEvent.status h
  have hobservedAt := congrArg EvidenceEvent.observedAt h
  exact ⟨hzone, hstatus, hobservedAt⟩

theorem mapEvidenceRow_withoutNote (row : EvidenceEvent) :
    mapEvidenceRow row.withoutNote = (mapEvidenceRow row).withoutNote := by
  cases row with | mk id providerId zoneId key source status voltage amps hint payload observedAt receivedAt =>
  cases payload with
  | telemetry d w a => rfl
  | report w n => rfl

theorem map_mapEvidenceRow_withoutNote (rows : List EvidenceEvent) :
    (rows.map EvidenceEvent.withoutNote).map mapEvidenceRow =
      (rows.map mapEvidenceRow).map EvidenceEvent.withoutNote := by
  rw [List.map_map, List.map_map]
  exact List.map_congr_left fun row _ => mapEvidenceRow_withoutNote row

section
variable [JsText.Runtime]

/-! ## candidates -/

theorem identity_withoutNote (e : EvidenceEvent) :
    evidenceSourceIdentity e.withoutNote = evidenceSourceIdentity e := by
  cases e with | mk id providerId zoneId key source status voltage amps hint payload observedAt receivedAt =>
  cases payload with
  | telemetry d w a => rfl
  | report w n => rfl

theorem counts_withoutNote (subject other : EvidenceEvent) :
    counts subject.withoutNote other.withoutNote = counts subject other := by
  unfold counts
  rw [identity_withoutNote, identity_withoutNote]
  rfl

def eraseTally (t : Tally) : Tally :=
  { t with agreeingByIdentity := t.agreeingByIdentity.mapValues EvidenceEvent.withoutNote }

theorem add_withoutNote (subject : EvidenceEvent) (t : Tally) (other : EvidenceEvent) :
    (eraseTally t).add subject.withoutNote other.withoutNote = eraseTally (t.add subject other) := by
  unfold Tally.add
  rw [counts_withoutNote, identity_withoutNote]
  by_cases hcounts : (!counts subject other) = true
  · rw [if_pos hcounts, if_pos hcounts]
  · rw [if_neg hcounts, if_neg hcounts]
    dsimp only
    by_cases hstatus : other.status ≠ subject.status
    · rw [if_pos hstatus]
      exact if_pos hstatus
    · rw [if_neg hstatus]
      refine (if_neg hstatus).trans ?_
      have hget : (eraseTally t).agreeingByIdentity.get? (evidenceSourceIdentity other) =
          (t.agreeingByIdentity.get? (evidenceSourceIdentity other)).map EvidenceEvent.withoutNote :=
        OrderedMap.get?_mapValues _ _
      rw [hget]
      have hset : { eraseTally t with
          agreeingByIdentity := (eraseTally t).agreeingByIdentity.set (evidenceSourceIdentity other) other.withoutNote } =
          eraseTally { t with
            agreeingByIdentity := t.agreeingByIdentity.set (evidenceSourceIdentity other) other } :=
        congrArg (fun m => ({ t with agreeingByIdentity := m } : Tally))
          (OrderedMap.mapValues_set t.agreeingByIdentity _ other).symm
      cases t.agreeingByIdentity.get? (evidenceSourceIdentity other) with
      | none => exact hset
      | some existing =>
        by_cases hearlier : isEarlier other existing = true
        · exact (if_pos hearlier).trans (hset.trans (congrArg eraseTally (if_pos hearlier).symm))
        · exact (if_neg hearlier).trans (congrArg eraseTally (if_neg hearlier).symm)

theorem tally_withoutNote (subject : EvidenceEvent) (recent : List EvidenceEvent) :
    tally subject.withoutNote (recent.map EvidenceEvent.withoutNote) = eraseTally (tally subject recent) := by
  unfold tally
  induction recent using List.reverseRecOn with
  | nil => rfl
  | append_singleton recent other ih =>
    rw [List.map_append, List.foldl_append, List.foldl_append, ih]
    exact add_withoutNote subject _ other

theorem agreement_withoutNote (subject : EvidenceEvent) (recent : List EvidenceEvent) :
    Detection.scoreCrossSourceAgreement subject.withoutNote (recent.map EvidenceEvent.withoutNote) =
      Detection.scoreCrossSourceAgreement subject recent := by
  unfold Detection.scoreCrossSourceAgreement
  dsimp only
  rw [tally_withoutNote]
  have hsort : (eraseTally (tally subject recent)).agreeingByIdentity.values.insertionSort
        (fun left right => isEarlier left right) =
      ((tally subject recent).agreeingByIdentity.values.insertionSort fun left right =>
        isEarlier left right).map EvidenceEvent.withoutNote := by
    show ((tally subject recent).agreeingByIdentity.mapValues _).values.insertionSort _ = _
    rw [OrderedMap.values_mapValues]
    exact insertionSort_map_of (fun _ _ => Iff.rfl) _
  rw [hsort, List.map_map, List.map_map, List.any_map, List.length_map]
  rfl

/-- **The notes do not decide on a candidate.** -/
theorem detect_withoutNote (evidence : EvidenceEvent) (recent : List EvidenceEvent) (id : String)
    (now : IsoDate) :
    Detection.detectCandidateFromEvidence evidence.withoutNote (recent.map EvidenceEvent.withoutNote) id now =
      Detection.detectCandidateFromEvidence evidence recent id now := by
  unfold Detection.detectCandidateFromEvidence
  rw [agreement_withoutNote]
  rfl

/-! ## gaps -/

theorem heartbeatsFor_withoutNote (zoneId : String) (events : List EvidenceEvent) :
    Detection.heartbeatsFor zoneId (events.map EvidenceEvent.withoutNote) =
      (Detection.heartbeatsFor zoneId events).map EvidenceEvent.withoutNote := by
  unfold Detection.heartbeatsFor
  rw [filter_map_of (p := fun event => event.zoneId = zoneId && event.source = .sensor) fun _ => rfl]
  exact insertionSort_map_of (fun _ _ => Iff.rfl) _

theorem nodes_withoutNote (startedAt : Int) (gapMs : ℚ) (beats : List EvidenceEvent) :
    Detection.nodesReportingBefore startedAt (beats.map EvidenceEvent.withoutNote) gapMs =
      Detection.nodesReportingBefore startedAt beats gapMs := by
  unfold Detection.nodesReportingBefore
  rw [List.takeWhile_map, List.map_map]
  congr 1
  exact List.map_congr_left fun e _ => identity_withoutNote e

def eraseGap (gap : Detection.Gap) : Detection.Gap :=
  { gap with
    startBeat := gap.startBeat.withoutNote
    closingBeat := gap.closingBeat.map EvidenceEvent.withoutNote }

theorem gapsFrom_withoutNote (now : Int) (gapMs : ℚ) (heard : List EvidenceEvent) (previous : EvidenceEvent)
    (rest : List EvidenceEvent) :
    Detection.gapsFrom now gapMs (heard.map EvidenceEvent.withoutNote) previous.withoutNote
      (rest.map EvidenceEvent.withoutNote) = (Detection.gapsFrom now gapMs heard previous rest).map eraseGap := by
  induction rest generalizing heard previous with
  | nil =>
    simp only [List.map_nil, Detection.gapsFrom, nodes_withoutNote]
    rw [apply_ite (List.map eraseGap)]
    rfl
  | cons next rest ih =>
    simp only [List.map_cons, Detection.gapsFrom, nodes_withoutNote]
    have hlater := ih (next :: heard) next
    rw [List.map_cons] at hlater
    rw [hlater, apply_ite (List.map eraseGap)]
    rfl

theorem heartbeatGaps_withoutNote (zoneId : String) (events : List EvidenceEvent) (now : Int) (gapMs : ℚ) :
    Detection.heartbeatGaps zoneId (events.map EvidenceEvent.withoutNote) now gapMs =
      (Detection.heartbeatGaps zoneId events now gapMs).map eraseGap := by
  unfold Detection.heartbeatGaps
  rw [heartbeatsFor_withoutNote]
  cases Detection.heartbeatsFor zoneId events with
  | nil => rfl
  | cons first rest => exact gapsFrom_withoutNote now gapMs [first] first rest

omit [JsText.Runtime] in
theorem buildGap_withoutNote (round : ℚ → ℚ) (zoneId : String) (now : Int) (gapMs : ℚ) (gap : Detection.Gap)
    (id : String) : Detection.buildGapCandidate round zoneId now gapMs (eraseGap gap) id =
      Detection.buildGapCandidate round zoneId now gapMs gap id := by
  obtain ⟨startBeat, closingBeat, silentNodes⟩ := gap
  cases closingBeat with
  | none => rfl
  | some beat =>
    -- whether the closing beat is named depends on the ids
    have hids : (((some beat.withoutNote).filter fun b => b.id ≠ startBeat.id).map EvidenceEvent.id) =
        ((some beat).filter fun b => b.id ≠ startBeat.id).map EvidenceEvent.id := by
      rw [Option.filter_some, Option.filter_some, apply_ite (Option.map EvidenceEvent.id),
        apply_ite (Option.map EvidenceEvent.id)]
      rfl
    let built := Detection.buildGapCandidate round zoneId now gapMs ⟨startBeat, some beat, silentNodes⟩ id
    exact congrArg (fun ids => { built with evidenceEventIds := startBeat.id :: ids.toList }) hids

/-- **The notes do not decide on a gap.** -/
theorem gaps_withoutNote (zoneId : String) (events : List EvidenceEvent) (now : Int) (ids : ℕ → String) :
    Detection.detectHeartbeatGapCandidates zoneId (events.map EvidenceEvent.withoutNote) now ids =
      Detection.detectHeartbeatGapCandidates zoneId events now ids := by
  unfold Detection.detectHeartbeatGapCandidates
  rw [Detection.detect_default, Detection.detect_default, heartbeatGaps_withoutNote]
  refine List.ext_getElem? fun i => ?_
  rw [List.getElem?_mapIdx, List.getElem?_mapIdx, List.getElem?_map, Option.map_map]
  congr 1
  funext gap
  exact buildGap_withoutNote _ zoneId now _ gap (ids i)

end

/-! ## stores -/

def Memory.withoutNotes (m : Memory) : Memory :=
  { m with evidenceByIdempotencyKey := m.evidenceByIdempotencyKey.mapValues EvidenceEvent.withoutNote }

def Database.withoutNotes (d : Database) : Database :=
  { d with evidence := d.evidence.mapValues EvidenceEvent.withoutNote }

def IngestStoreResult.withoutNote (result : IngestStoreResult) : IngestStoreResult :=
  { result with evidenceEvent := result.evidenceEvent.withoutNote }

theorem setMemory_withoutNotes (m : Memory) (key : String) (e : EvidenceEvent) :
    { m.withoutNotes with
      evidenceByIdempotencyKey := m.withoutNotes.evidenceByIdempotencyKey.set key e.withoutNote } =
    Memory.withoutNotes { m with evidenceByIdempotencyKey := m.evidenceByIdempotencyKey.set key e } :=
  congrArg (fun evidence => ({ m with evidenceByIdempotencyKey := evidence } : Memory))
    (OrderedMap.mapValues_set m.evidenceByIdempotencyKey key e).symm

theorem listMemoryEvidence_withoutNotes (m : Memory) (zoneId : String) :
    listMemoryEvidence m.withoutNotes zoneId = (listMemoryEvidence m zoneId).map EvidenceEvent.withoutNote := by
  unfold listMemoryEvidence
  show (m.evidenceByIdempotencyKey.mapValues _).values.filter _ = _
  rw [OrderedMap.values_mapValues]
  exact filter_map_of (fun _ => rfl) _

def DatabaseEvidence.withoutNote (input : DatabaseEvidence) : DatabaseEvidence :=
  { input with rawPayload := input.rawPayload.withoutNote }

theorem insertEvidence_withoutNotes (d : Database) (row : EvidenceEvent) :
    insertEvidence d.withoutNotes row.withoutNote =
      ((insertEvidence d row).1.withoutNotes, (insertEvidence d row).2) := by
  unfold insertEvidence
  have hget : d.withoutNotes.evidence.get? row.withoutNote.idempotencyKey =
      (d.evidence.get? row.idempotencyKey).map EvidenceEvent.withoutNote := OrderedMap.get?_mapValues _ _
  rw [hget]
  cases d.evidence.get? row.idempotencyKey with
  | some existing => rfl
  | none =>
    exact congrArg (fun evidence => (({ d with evidence := evidence } : Database), true))
      (OrderedMap.mapValues_set d.evidence row.idempotencyKey row).symm

theorem findEvidence_withoutNotes (d : Database) (key : String) :
    findEvidenceByIdempotencyKey d.withoutNotes key =
      (findEvidenceByIdempotencyKey d key).map EvidenceEvent.withoutNote := by
  unfold findEvidenceByIdempotencyKey
  rw [show d.withoutNotes.evidence.get? key = _ from OrderedMap.get?_mapValues d.evidence key, Option.map_map,
    Option.map_map]
  congr 1
  funext row
  exact mapEvidenceRow_withoutNote row

theorem insertCandidate_withoutNotes (d : Database) (row : Pipeline.CandidateRow) :
    insertCandidate d.withoutNotes row = (insertCandidate d row).map fun r => (r.1.withoutNotes, r.2) := by
  have hsame : d.withoutNotes.system = d.system := rfl
  unfold insertCandidate
  rw [hsame]
  cases d.system.db.candidates.find? row.candidateKey with
  | some old => rfl
  | none =>
    dsimp only
    rw [Option.map_map]
    rfl

/-- the order in which the database keeps rows does not depend on the notes -/
def Draw.Blind (draw : Draw) : Prop := ∀ e : EvidenceEvent, draw.rank e.withoutNote = draw.rank e

theorem findRecent_withoutNotes (d : Database) (e : EvidenceEvent) {draw : Draw} (hdraw : draw.Blind) :
    findRecentZoneEvidence d.withoutNotes e.withoutNote draw.rank =
      (findRecentZoneEvidence d e draw.rank).map EvidenceEvent.withoutNote := by
  have horder : ∀ a b : EvidenceEvent, newestFirst draw.rank a.withoutNote b.withoutNote ↔
      newestFirst draw.rank a b := fun a b => by
    unfold newestFirst
    rw [hdraw a, hdraw b]
    rfl
  have hfilter (l : List EvidenceEvent) : (l.map EvidenceEvent.withoutNote).filter (inWindow e.withoutNote) =
      (l.filter (inWindow e)).map EvidenceEvent.withoutNote := filter_map_of (fun _ => rfl) l
  unfold findRecentZoneEvidence
  show ((((d.evidence.mapValues _).values.filter _).insertionSort _).take 50).map _ = _
  rw [OrderedMap.values_mapValues, hfilter, insertionSort_map_of horder,
    ← List.map_take, map_mapEvidenceRow_withoutNote]

section
variable [JsText.Runtime]

theorem storeMemoryCandidate_withoutNotes (m : Memory) (e : EvidenceEvent) (draw : Draw) :
    storeMemoryCandidate m.withoutNotes e.withoutNote draw =
      ((storeMemoryCandidate m e draw).1.withoutNotes, (storeMemoryCandidate m e draw).2) := by
  unfold storeMemoryCandidate
  rw [show listMemoryEvidence m.withoutNotes e.withoutNote.zoneId =
    (listMemoryEvidence m e.zoneId).map EvidenceEvent.withoutNote from
      listMemoryEvidence_withoutNotes m e.zoneId, detect_withoutNote]
  cases Detection.detectCandidateFromEvidence e (listMemoryEvidence m e.zoneId) draw.candidateId draw.now with
  | none => rfl
  | some candidate => rfl

/-- **The memory takes the event as it takes it without the note.** -/
theorem upsertMemory_withoutNotes (m : Memory) (e : EvidenceEvent) (draw : Draw) :
    upsertMemoryEvidence m.withoutNotes e.withoutNote draw =
      ((upsertMemoryEvidence m e draw).1.withoutNotes, (upsertMemoryEvidence m e draw).2.withoutNote) := by
  unfold upsertMemoryEvidence
  have hget : m.withoutNotes.evidenceByIdempotencyKey.get? e.withoutNote.idempotencyKey =
      (m.evidenceByIdempotencyKey.get? e.idempotencyKey).map EvidenceEvent.withoutNote :=
    OrderedMap.get?_mapValues _ _
  rw [hget]
  cases m.evidenceByIdempotencyKey.get? e.idempotencyKey with
  | some existing => rfl
  | none =>
    simp only [Option.map_none]
    rw [show e.withoutNote.idempotencyKey = e.idempotencyKey from rfl, setMemory_withoutNotes,
      storeMemoryCandidate_withoutNotes]
    rfl

theorem storeDatabaseCandidate_withoutNotes (d : Database) (e : EvidenceEvent) {draw : Draw} (hdraw : draw.Blind) :
    storeDatabaseCandidate d.withoutNotes e.withoutNote draw =
      ((storeDatabaseCandidate d e draw).1.withoutNotes, (storeDatabaseCandidate d e draw).2) := by
  unfold storeDatabaseCandidate
  rw [findRecent_withoutNotes d e hdraw, detect_withoutNote]
  cases Detection.detectCandidateFromEvidence e (findRecentZoneEvidence d e draw.rank) draw.candidateId draw.now with
  | none => rfl
  | some candidate =>
    dsimp only
    rw [show candidateKeyFor e.withoutNote = candidateKeyFor e from rfl, insertCandidate_withoutNotes]
    cases insertCandidate d ⟨candidateKeyFor e, candidate⟩ with
    | none => rfl
    | some r => rfl

/-- **The database takes the event as it takes it without the note.** -/
theorem upsertDatabase_withoutNotes (d : Database) (input : DatabaseEvidence) {draw : Draw} (hdraw : draw.Blind) :
    upsertDatabaseEvidence d.withoutNotes input.withoutNote draw =
      ((upsertDatabaseEvidence d input draw).1.withoutNotes,
        (upsertDatabaseEvidence d input draw).2.map IngestStoreResult.withoutNote) := by
  unfold upsertDatabaseEvidence
  rw [show evidenceRow input.withoutNote draw = (evidenceRow input draw).withoutNote from rfl,
    insertEvidence_withoutNotes]
  dsimp only
  rw [show input.withoutNote.idempotencyKey = input.idempotencyKey from rfl, findEvidence_withoutNotes]
  cases findEvidenceByIdempotencyKey (insertEvidence d (evidenceRow input draw)).1 input.idempotencyKey with
  | none => rfl
  | some e =>
    dsimp only [Option.map_some]
    by_cases hinserted : (insertEvidence d (evidenceRow input draw)).2 = true
    · rw [if_pos hinserted, if_pos hinserted, storeDatabaseCandidate_withoutNotes _ _ hdraw]
      dsimp only
      rw [Option.map_map]
      rfl
    · rw [if_neg hinserted, if_neg hinserted]
      rfl

end

/-! ## sweeps -/

theorem groupByZone_withoutNote (events : List EvidenceEvent) :
    groupEvidenceByZone (events.map EvidenceEvent.withoutNote) =
      (groupEvidenceByZone events).mapValues (List.map EvidenceEvent.withoutNote) := by
  unfold groupEvidenceByZone
  induction events using List.reverseRecOn with
  | nil => rfl
  | append_singleton events e ih =>
    rw [List.map_append, List.foldl_append, List.foldl_append, ih, List.map_singleton, List.foldl_cons,
      List.foldl_nil, List.foldl_cons, List.foldl_nil, OrderedMap.mapValues_set, OrderedMap.get?_mapValues]
    congr 1
    rw [List.map_append, List.map_singleton]
    refine congrArg (· ++ [e.withoutNote]) ?_
    show (Option.map _ (OrderedMap.get? _ e.zoneId)).getD [] = _
    cases OrderedMap.get? (events.foldl _ OrderedMap.empty) e.zoneId with
    | none => rfl
    | some found => rfl

theorem sweepRows_withoutNotes (now : Int) (m : Memory) :
    (EvidenceStore.memory m.withoutNotes).sweepRows now =
      ((EvidenceStore.memory m).sweepRows now).map EvidenceEvent.withoutNote := by
  show (m.evidenceByIdempotencyKey.mapValues _).values.filter _ = _
  rw [OrderedMap.values_mapValues]
  exact filter_map_of (fun _ => rfl) _

theorem sweepDatabaseRows_withoutNotes (now : Int) (d : Database) {draw : Draw} (hdraw : draw.Blind) :
    (EvidenceStore.database d.withoutNotes draw.rank).sweepRows now =
      ((EvidenceStore.database d draw.rank).sweepRows now).map EvidenceEvent.withoutNote := by
  have horder : ∀ a b : EvidenceEvent, oldestFirst draw.rank a.withoutNote b.withoutNote ↔
      oldestFirst draw.rank a b := fun a b => by
    unfold oldestFirst
    rw [hdraw a, hdraw b]
    rfl
  have hfilter (l : List EvidenceEvent) : (l.map EvidenceEvent.withoutNote).filter (inLookback now) =
      (l.filter (inLookback now)).map EvidenceEvent.withoutNote := filter_map_of (fun _ => rfl) l
  show ((((d.evidence.mapValues _).values.filter _).insertionSort _).take 5000).map _ = _
  rw [OrderedMap.values_mapValues, hfilter, insertionSort_map_of horder,
    ← List.map_take, map_mapEvidenceRow_withoutNote]
  rfl

section
variable [JsText.Runtime]

/-- **A sweep finds the same without the notes.** -/
theorem sweep_withoutNotes (events : List EvidenceEvent) (now : Int) (ids : String → ℕ → String) :
    sweepCandidates (groupEvidenceByZone (events.map EvidenceEvent.withoutNote)) now ids =
      sweepCandidates (groupEvidenceByZone events) now ids := by
  rw [groupByZone_withoutNote]
  unfold sweepCandidates sweepCandidatesIn
  show ((groupEvidenceByZone events).entries.map _).flatMap _ = _
  rw [List.flatMap_map]
  congr 1
  funext entry
  exact gaps_withoutNote entry.1 entry.2 now (ids entry.1)

end

end Ingestion
