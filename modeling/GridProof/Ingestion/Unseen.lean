import GridProof.Ingestion.Demo
import GridProof.Ingestion.GapBounds

/-!
# What previews leave unchanged

A preview's reading is read like any other: it witnesses for and against real readings, and it is a heartbeat.

* `Site.Hides`       one site is another one without what the previews recorded;
* `Lab.Spares`       the step reads no reading of a preview;
* `previews_unseen`  along every run whose steps do not, the run without the previews raises the same candidates,
                     finds the same gaps and decides the same.
-/

namespace Ingestion
open Pipeline (IsoDate CandidateEvent AgentDecision CandidateRow Simulation System Phase upsertDatabaseDecision
  decisionForCandidate previewOnly processMemoryPipeline)
open Detection (counts heartbeatGapKey)

section
variable [JsText.Runtime]

/-! ## what the detection reads -/

/-- evidence that does not count makes no difference -/
theorem tally_filter (e : EvidenceEvent) (l : List EvidenceEvent) :
    Detection.tally e (l.filter (counts e)) = Detection.tally e l := by
  unfold Detection.tally
  rw [List.foldl_filter]
  congr 1
  funext t x
  unfold Detection.Tally.add
  cases counts e x with
  | true => rfl
  | false => rfl

theorem detect_congr {e : EvidenceEvent} {l l' : List EvidenceEvent}
    (h : l.filter (counts e) = l'.filter (counts e)) (id : String) (now : IsoDate) :
    Detection.detectCandidateFromEvidence e l id now = Detection.detectCandidateFromEvidence e l' id now := by
  have htally : Detection.tally e l = Detection.tally e l' := by
    rw [← tally_filter e l, h, tally_filter]
  unfold Detection.detectCandidateFromEvidence Detection.scoreCrossSourceAgreement
  rw [htally]

theorem detect_id {l : List EvidenceEvent} {e : EvidenceEvent} {id : String} {now : IsoDate} {c : CandidateEvent}
    (h : Detection.detectCandidateFromEvidence e l id now = some c) : c.id = id := by
  unfold Detection.detectCandidateFromEvidence at h
  split at h
  · cases h
  · rw [← Option.some.inj h]

end

/-! ## without the previews -/

def realKey (previews : List Preview) (key : String) : Bool := key ∉ previews.map Preview.idempotencyKey

def realCandidate (previews : List Preview) (key : String) : Bool := key ∉ previews.map Preview.candidateKey

def realId (previews : List Preview) (id : String) : Bool := id ∉ previews.map Preview.candidateId

theorem realCandidate_cons_of_ne {previews : List Preview} {p : Preview} {key : String} (h : key ≠ p.candidateKey) :
    realCandidate (p :: previews) key = realCandidate previews key :=
  decide_notMem_cons_of_ne h

theorem realId_cons_of_ne {previews : List Preview} {p : Preview} {id : String} (h : id ≠ p.candidateId) :
    realId (p :: previews) id = realId previews id :=
  decide_notMem_cons_of_ne h

theorem realId_cons_self (previews : List Preview) (p : Preview) : realId (p :: previews) p.candidateId = false :=
  decide_notMem_cons_self

/-- the process without what the previews recorded -/
structure Memory.Hides (previews : List Preview) (m m' : Memory) : Prop where
  evidence : m'.evidenceByIdempotencyKey = m.evidenceByIdempotencyKey.keep (realKey previews)
  candidates : m'.candidatesByKey = m.candidatesByKey.keep (realCandidate previews)

/-- the tables without what the previews recorded -/
structure Database.Hides (previews : List Preview) (d d' : Database) : Prop where
  evidence : d'.evidence = d.evidence.keep (realKey previews)
  candidates : d'.candidates = d.candidates.keep fun row => realCandidate previews row.candidateKey
  decisions : d'.system.db.decisions = d.system.db.decisions.keep fun row => realId previews row.candidateEventId
  ids : ∀ row ∈ d.candidates.rows, realId previews row.id = realCandidate previews row.candidateKey

def Site.Hides (previews : List Preview) : Site → Site → Prop
  | .memory m pipeline, .memory m' pipeline' => m.Hides previews m' ∧
      pipeline'.memoryDecisions = pipeline.memoryDecisions.keep (realId previews)
  | .database d, .database d' => d.Hides previews d'
  | _, _ => False

section
variable [JsText.Runtime] {previews : List Preview} {e : EvidenceEvent} {draw : Draw}

/-! ## the process -/

theorem storeMemoryCandidate_hides {m m' : Memory} (h : m.Hides previews m')
    (hkey : realCandidate previews (candidateKeyFor e) = true)
    (hblind : ∀ x ∈ m.evidenceByIdempotencyKey.entries, realKey previews x.1 = false → counts e x.2 = false) :
    (storeMemoryCandidate m e draw).1.Hides previews (storeMemoryCandidate m' e draw).1 ∧
      (storeMemoryCandidate m' e draw).2 = (storeMemoryCandidate m e draw).2 := by
  have hread : (listMemoryEvidence m' e.zoneId).filter (counts e) =
      (listMemoryEvidence m e.zoneId).filter (counts e) := by
    unfold listMemoryEvidence
    rw [List.filter_filter, List.filter_filter, h.evidence]
    refine OrderedMap.filter_values_keep fun x hx hp => ?_
    rw [hblind x hx hp]
    rfl
  unfold storeMemoryCandidate
  rw [detect_congr hread]
  cases Detection.detectCandidateFromEvidence e (listMemoryEvidence m e.zoneId) draw.candidateId draw.now with
  | none => exact ⟨h, rfl⟩
  | some c =>
    refine ⟨⟨h.evidence, ?_⟩, rfl⟩
    show m'.candidatesByKey.set _ c = _
    rw [h.candidates]
    exact (OrderedMap.set_keep hkey).symm

theorem upsertMemoryEvidence_hides {m m' : Memory} (h : m.Hides previews m')
    (hkey : realKey previews e.idempotencyKey = true)
    (hcandidate : realCandidate previews (candidateKeyFor e) = true)
    (hblind : e.idempotencyKey ∉ m.evidenceByIdempotencyKey.entries.map Prod.fst →
      ∀ x ∈ m.evidenceByIdempotencyKey.entries, realKey previews x.1 = false → counts e x.2 = false) :
    (upsertMemoryEvidence m e draw).1.Hides previews (upsertMemoryEvidence m' e draw).1 ∧
      (upsertMemoryEvidence m' e draw).2.starts = (upsertMemoryEvidence m e draw).2.starts := by
  have hget : m'.evidenceByIdempotencyKey.get? e.idempotencyKey =
      m.evidenceByIdempotencyKey.get? e.idempotencyKey := by
    rw [h.evidence]
    exact OrderedMap.get?_keep hkey
  unfold upsertMemoryEvidence
  rw [hget]
  cases hnew : m.evidenceByIdempotencyKey.get? e.idempotencyKey with
  | some existing => exact ⟨h, rfl⟩
  | none =>
    dsimp only
    have hset : Memory.Hides previews
        { m with evidenceByIdempotencyKey := m.evidenceByIdempotencyKey.set e.idempotencyKey e }
        { m' with evidenceByIdempotencyKey := m'.evidenceByIdempotencyKey.set e.idempotencyKey e } := by
      refine ⟨?_, h.candidates⟩
      show m'.evidenceByIdempotencyKey.set _ e = _
      rw [h.evidence]
      exact (OrderedMap.set_keep hkey).symm
    refine storeMemoryCandidate_hides hset hcandidate fun x hx hp => ?_
    rcases OrderedMap.mem_entries_set.mp hx with ⟨hx, -⟩ | rfl
    · exact hblind (OrderedMap.get?_eq_none.mp hnew) x hx hp
    · exact absurd (hp.symm.trans hkey) Bool.false_ne_true

theorem upsertMemoryEvidence_starts {m : Memory} {c : CandidateEvent}
    (h : (upsertMemoryEvidence m e draw).2.starts = some c) : c.id = draw.candidateId := by
  unfold upsertMemoryEvidence at h
  split at h
  · cases h
  · unfold storeMemoryCandidate at h
    dsimp only at h
    split at h
    · cases h
    · rename_i hdetect
      obtain rfl := Option.some.inj h
      exact detect_id hdetect

omit [JsText.Runtime] in
theorem processMemoryPipeline_decisions (localeCompare : String → String → Int) (m : Pipeline.Memory)
    (c : CandidateEvent) (simulation : Option Simulation) (decisionId : String) (now : IsoDate) :
    (processMemoryPipeline localeCompare m c simulation decisionId now).1.memoryDecisions =
      m.memoryDecisions.set c.id (decisionForCandidate decisionId now c) := by
  unfold processMemoryPipeline
  dsimp only
  split
  · split
    · rfl
    · rfl
  · rfl

omit [JsText.Runtime] in
theorem recordMemoryGap_hides {m m' : Memory} {c : CandidateEvent} (h : m.Hides previews m')
    (hkey : realCandidate previews (heartbeatGapKey c) = true) :
    (recordMemoryGap m c).1.Hides previews (recordMemoryGap m' c).1 ∧
      (recordMemoryGap m' c).2 = (recordMemoryGap m c).2 := by
  have hget : m'.candidatesByKey.get? (heartbeatGapKey c) = m.candidatesByKey.get? (heartbeatGapKey c) := by
    rw [h.candidates]
    exact OrderedMap.get?_keep hkey
  unfold recordMemoryGap
  dsimp only
  rw [hget]
  cases m.candidatesByKey.get? (heartbeatGapKey c) with
  | some existing => exact ⟨h, rfl⟩
  | none =>
    refine ⟨⟨h.evidence, ?_⟩, rfl⟩
    show m'.candidatesByKey.set _ c = _
    rw [h.candidates]
    exact (OrderedMap.set_keep hkey).symm

/-! ## the database -/

omit [JsText.Runtime] in
theorem insertCandidate_hides {d d' d₁ : Database} {row : CandidateRow} {inserted : Bool}
    (h : d.Hides previews d') (hkey : realCandidate previews row.candidateKey = true)
    (hid : realId previews row.id = true) (hins : insertCandidate d row = some (d₁, inserted)) :
    ∃ d₁', insertCandidate d' row = some (d₁', inserted) ∧ d₁.Hides previews d₁' := by
  have hfind : d'.system.db.candidates.find? row.candidateKey =
      d.system.db.candidates.find? row.candidateKey := by
    show d'.candidates.find? _ = _
    rw [h.candidates]
    exact Table.find?_keep fun r _ hr => hr ▸ hkey
  unfold insertCandidate at hins ⊢
  rw [hfind]
  cases hf : d.system.db.candidates.find? row.candidateKey with
  | some r =>
    rw [hf] at hins
    obtain ⟨rfl, rfl⟩ := Prod.mk.inj (Option.some.inj hins)
    exact ⟨d', rfl, h⟩
  | none =>
    rw [hf] at hins
    obtain ⟨candidates, hinsert, he⟩ := Option.map_eq_some_iff.mp hins
    obtain ⟨rfl, rfl⟩ := Prod.mk.inj he
    have hinsert' : d'.candidates.insert row =
        some (candidates.keep fun row => realCandidate previews row.candidateKey) := by
      rw [h.candidates]
      exact Table.insert_keep hinsert hkey
    refine ⟨_, Option.map_eq_some_iff.mpr ⟨_, hinsert', rfl⟩, h.evidence, rfl, h.decisions, ?_⟩
    intro r hr
    have hr : r ∈ candidates.rows := hr
    rw [(Table.insert_eq_some hinsert).1, List.mem_append, List.mem_singleton] at hr
    rcases hr with hr | rfl
    · exact h.ids r hr
    · rw [hid, hkey]

omit [JsText.Runtime] in
theorem insertCandidate_records {d d₁ : Database} {row : CandidateRow}
    (h : insertCandidate d row = some (d₁, true)) : row.id ∈ d₁.candidates.rows.map CandidateRow.id := by
  unfold insertCandidate at h
  split at h
  · cases h
  · obtain ⟨candidates, hinsert, he⟩ := Option.map_eq_some_iff.mp h
    obtain ⟨rfl, -⟩ := Prod.mk.inj he
    apply List.mem_map_of_mem
    show row ∈ candidates.rows
    rw [(Table.insert_eq_some hinsert).1]
    exact List.mem_append_right _ List.mem_cons_self

omit [JsText.Runtime] in
theorem findDatabaseCandidate_hides {d d' : Database} (h : d.Hides previews d')
    (hkey : realCandidate previews (candidateKeyFor e) = true) :
    findDatabaseCandidate d' e = findDatabaseCandidate d e := by
  unfold findDatabaseCandidate
  congr 1
  show d'.candidates.find? _ = _
  rw [h.candidates]
  exact Table.find?_keep fun r _ hr => hr ▸ hkey

omit [JsText.Runtime] in
theorem runPipeline_hides {d d' : Database} {s : System} {c : CandidateEvent} {simulation : Option Simulation}
    {decisionId : String} {now : IsoDate} (h : d.Hides previews d') (hid : realId previews c.id = true)
    (hrecorded : c.id ∈ d'.candidates.rows.map CandidateRow.id)
    (hrun : runPipeline d.system c simulation decisionId now = some s) :
    ∃ s', runPipeline d'.system c simulation decisionId now = some s' ∧
      Database.Hides previews { d with system := s } { d' with system := s' } := by
  obtain ⟨hupsert, hcandidates⟩ := decisions_of_runPipeline hrun
  -- the decision's key is the candidate's, which no preview has
  have hupsert' : d'.system.db.decisions.upsert (decisionForCandidate decisionId now c)
      (decisionForCandidate decisionId now c).overwrite (fun _ => rfl) (fun _ => rfl) =
      some (s.db.decisions.keep fun row => realId previews row.candidateEventId) := by
    rw [h.decisions]
    refine Table.upsert_keep hupsert hid ?_ fun _ => rfl
    intro row _ hkey
    rw [(Prod.mk.inj hkey).1]
    exact hid
  have hup' : upsertDatabaseDecision d'.system.db (decisionForCandidate decisionId now c) =
      some ({ d'.system.db with decisions := s.db.decisions.keep fun row => realId previews row.candidateEventId },
        d'.system.db.decisions.stored (decisionForCandidate decisionId now c)
          (decisionForCandidate decisionId now c).overwrite) := by
    refine (if_neg (not_not.mpr hrecorded)).trans ?_
    exact Option.map_eq_some_iff.mpr ⟨_, hupsert', rfl⟩
  have hspec : ∃ s', runPipeline d'.system c simulation decisionId now = some s' ∧ _ :=
    runPipeline_of_upsert hup'
  obtain ⟨s', hs', hcandidates', hdecisions'⟩ := hspec
  refine ⟨s', hs', h.evidence, ?_, hdecisions', ?_⟩
  · exact hcandidates'.trans (h.candidates.trans (congrArg (Table.keep · _) hcandidates.symm))
  · intro row hrow
    have hrow : row ∈ s.db.candidates.rows := hrow
    rw [hcandidates] at hrow
    exact h.ids row hrow

omit [JsText.Runtime] in
theorem findRecentZoneEvidence_hides {d d' : Database} (h : d.Hides previews d')
    (hblind : ∀ x ∈ d.evidence.entries, realKey previews x.1 = false → inWindow e x.2 = false)
    (rank : EvidenceEvent → ℕ) : findRecentZoneEvidence d' e rank = findRecentZoneEvidence d e rank := by
  unfold findRecentZoneEvidence
  rw [h.evidence, OrderedMap.filter_values_keep hblind]

omit [JsText.Runtime] in
/-- the candidate that the pipeline is started for is recorded, and not by a preview -/
theorem findDatabaseCandidate_real {d d' : Database} {c : CandidateEvent} (h : d.Hides previews d')
    (hkey : realCandidate previews (candidateKeyFor e) = true) (hc : findDatabaseCandidate d' e = some c) :
    realId previews c.id = true ∧ c.id ∈ d'.candidates.rows.map CandidateRow.id := by
  obtain ⟨row, hfind, rfl⟩ := Option.map_eq_some_iff.mp hc
  obtain ⟨hrow, hrowkey⟩ := Table.find?_eq_some.mp hfind
  rw [CandidateEvent.readBack_id]
  refine ⟨?_, List.mem_map_of_mem hrow⟩
  have hrow : row ∈ d'.candidates.rows := hrow
  rw [h.candidates, Table.mem_keep] at hrow
  show realId previews row.id = true
  rw [h.ids row hrow.1, hrowkey]
  exact hkey

theorem storeDatabaseCandidate_hides {d d' d₁ : Database} {candidate : Option CandidateEvent}
    (h : d.Hides previews d') (hkey : realCandidate previews (candidateKeyFor e) = true)
    (hid : realId previews draw.candidateId = true)
    (hblind : ∀ x ∈ d.evidence.entries, realKey previews x.1 = false → inWindow e x.2 = false)
    (hrun : storeDatabaseCandidate d e draw = (d₁, some candidate)) :
    ∃ d₁', storeDatabaseCandidate d' e draw = (d₁', some candidate) ∧ d₁.Hides previews d₁' ∧
      ∀ c ∈ candidate, realId previews c.id = true ∧ c.id ∈ d₁'.candidates.rows.map CandidateRow.id := by
  unfold storeDatabaseCandidate at hrun ⊢
  rw [findRecentZoneEvidence_hides h hblind]
  cases hdetect : Detection.detectCandidateFromEvidence e (findRecentZoneEvidence d e draw.rank) draw.candidateId
      draw.now with
  | none =>
    rw [hdetect] at hrun
    obtain ⟨rfl, hnone⟩ := Prod.mk.inj hrun
    obtain rfl := Option.some.inj hnone
    exact ⟨d', rfl, h, fun c hc => nomatch hc⟩
  | some c =>
    rw [hdetect] at hrun
    dsimp only at hrun ⊢
    cases hins : insertCandidate d ⟨candidateKeyFor e, c⟩ with
    | none =>
      rw [hins] at hrun
      cases hrun
    | some answer =>
      obtain ⟨d₂, inserted⟩ := answer
      rw [hins] at hrun
      obtain ⟨rfl, hcandidate⟩ := Prod.mk.inj hrun
      obtain rfl := Option.some.inj hcandidate
      have hcid' : realId previews (CandidateRow.id ⟨candidateKeyFor e, c⟩) = true := by
        show realId previews c.id = true
        rw [detect_id hdetect]
        exact hid
      obtain ⟨d₂', hins', hhides⟩ := insertCandidate_hides h hkey hcid' hins
      rw [hins']
      dsimp only
      rw [findDatabaseCandidate_hides hhides hkey]
      refine ⟨d₂', rfl, hhides, fun c' hc' => findDatabaseCandidate_real hhides hkey ?_⟩
      rw [findDatabaseCandidate_hides hhides hkey]
      exact hc'

theorem upsertDatabaseEvidence_hides {d d' d₁ : Database} {input : DatabaseEvidence} {result : IngestStoreResult}
    (h : d.Hides previews d') (hkey : realKey previews input.idempotencyKey = true)
    (he : e = mapEvidenceRow (evidenceRow input draw))
    (hcandidate : realCandidate previews (candidateKeyFor e) = true)
    (hid : realId previews draw.candidateId = true)
    (hblind : input.idempotencyKey ∉ d.evidence.entries.map Prod.fst →
      ∀ x ∈ d.evidence.entries, realKey previews x.1 = false → inWindow e x.2 = false)
    (hrun : upsertDatabaseEvidence d input draw = (d₁, some result)) :
    ∃ d₁' result', upsertDatabaseEvidence d' input draw = (d₁', some result') ∧ d₁.Hides previews d₁' ∧
      result'.starts = result.starts ∧
      ∀ c ∈ result.starts, realId previews c.id = true ∧ c.id ∈ d₁'.candidates.rows.map CandidateRow.id := by
  have hget : d'.evidence.get? input.idempotencyKey = d.evidence.get? input.idempotencyKey := by
    rw [h.evidence]
    exact OrderedMap.get?_keep hkey
  cases hd : d.evidence.get? input.idempotencyKey with
  | some row =>
    rw [upsertDatabaseEvidence_taken hd] at hrun
    obtain ⟨rfl, hresult⟩ := Prod.mk.inj hrun
    obtain rfl := Option.some.inj hresult
    exact ⟨d', _, upsertDatabaseEvidence_taken (hget.trans hd), h, rfl, fun c hc => nomatch hc⟩
  | none =>
    rw [upsertDatabaseEvidence_new hd] at hrun
    rw [upsertDatabaseEvidence_new (hget.trans hd), ← he]
    rw [← he] at hrun
    obtain ⟨rfl, hresult⟩ := Prod.mk.inj hrun
    obtain ⟨candidate, hcandidate', rfl⟩ := Option.map_eq_some_iff.mp hresult
    have hset : Database.Hides previews
        { d with evidence := d.evidence.set input.idempotencyKey (evidenceRow input draw) }
        { d' with evidence := d'.evidence.set input.idempotencyKey (evidenceRow input draw) } := by
      refine ⟨?_, h.candidates, h.decisions, h.ids⟩
      show d'.evidence.set _ _ = _
      rw [h.evidence]
      exact (OrderedMap.set_keep hkey).symm
    have hblind' : ∀ x ∈ (d.evidence.set input.idempotencyKey (evidenceRow input draw)).entries,
        realKey previews x.1 = false → inWindow e x.2 = false := by
      intro x hx hp
      rcases OrderedMap.mem_entries_set.mp hx with ⟨hx, -⟩ | rfl
      · exact hblind (OrderedMap.get?_eq_none.mp hd) x hx hp
      · exact absurd (hp.symm.trans hkey) Bool.false_ne_true
    obtain ⟨d₁', hstore, hhides, hreal⟩ :=
      storeDatabaseCandidate_hides hset hcandidate hid hblind' (Prod.ext rfl hcandidate')
    rw [hstore]
    exact ⟨d₁', _, rfl, hhides, rfl, hreal⟩

/-! ## either mode -/

namespace Site

/-- the evidence is among that which the detection weighs -/
def weighs : Site → EvidenceEvent → EvidenceEvent → Bool
  | memory _ _ => counts
  | database _ => inWindow

/-- the evidence is among that which a sweep at `now` lists -/
def lists (now : Int) : Site → EvidenceEvent → Bool
  | memory _ _ => EvidenceStore.recent now
  | database _ => inLookback now

/-- in the database the candidate is recorded -/
def Records (id : String) : Site → Prop
  | memory _ _ => True
  | database d => id ∈ d.candidates.rows.map CandidateRow.id

variable {site site' site₁ : Site} {c : CandidateEvent}

theorem ingest_of_memory (m : Memory) (p : Pipeline.Memory) (r : Request) (draw : Draw) :
    (memory m p).ingest r draw = some (memory (upsertMemoryEvidence m (fresh (.memory m) (r, draw)) draw).1 p,
      (upsertMemoryEvidence m (fresh (.memory m) (r, draw)) draw).2) := by
  rw [ingest, show Ingestion.ingest (.memory m) r draw = _ from ingest_memory m (r, draw)]

theorem ingest_of_database (d : Database) (r : Request) (draw : Draw) :
    (database d).ingest r draw = (upsertDatabaseEvidence d (databaseInput (r, draw)) draw).2.map fun result =>
      (database (upsertDatabaseEvidence d (databaseInput (r, draw)) draw).1, result) := by
  rw [ingest, show Ingestion.ingest (.database d) r draw = _ from ingest_database d (r, draw)]
  cases (upsertDatabaseEvidence d (databaseInput (r, draw)) draw).2 with
  | none => rfl
  | some result => rfl

/-- the event of a request depends on the mode alone -/
theorem fresh_hides (h : site.Hides previews site') (r : Request) :
    fresh site'.store (r, draw) = fresh site.store (r, draw) := by
  cases site with
  | memory m p =>
    cases site' with
    | memory m' p' => cases r with | _ => rfl
    | database d' => exact h.elim
  | database d =>
    cases site' with
    | memory m' p' => exact h.elim
    | database d' => cases r with | _ => rfl

theorem ingest_hides {r : Request} {result : IngestStoreResult} (h : site.Hides previews site')
    (hkey : realKey previews r.idempotencyKey = true)
    (hcandidate : realCandidate previews (candidateKeyFor (fresh site.store (r, draw))) = true)
    (hid : realId previews draw.candidateId = true)
    (hblind : r.idempotencyKey ∉ site.evidence.map Prod.fst → ∀ x ∈ site.evidence, realKey previews x.1 = false →
      site.weighs (fresh site.store (r, draw)) x.2 = false)
    (hrun : site.ingest r draw = some (site₁, result)) :
    ∃ site₁' result', site'.ingest r draw = some (site₁', result') ∧ site₁.Hides previews site₁' ∧
      result'.starts = result.starts ∧
      ∀ c ∈ result.starts, realId previews c.id = true ∧ site₁'.Records c.id := by
  have hevent : fresh site'.store (r, draw) = fresh site.store (r, draw) := fresh_hides h r
  cases site with
  | memory m p =>
    cases site' with
    | database d' => exact h.elim
    | memory m' p' =>
      rw [ingest_of_memory] at hrun
      obtain ⟨rfl, rfl⟩ := Prod.mk.inj (Option.some.inj hrun)
      have hsame : (fresh (.memory m) (r, draw)).idempotencyKey = r.idempotencyKey := fresh_idempotencyKey _ _
      have hstored : (upsertMemoryEvidence m _ draw).1.Hides previews (upsertMemoryEvidence m' _ draw).1 ∧ _ :=
        upsertMemoryEvidence_hides h.1 (hsame ▸ hkey) hcandidate fun hnew => hblind (hsame ▸ hnew)
      refine ⟨_, _, ingest_of_memory m' p' r draw, ?_⟩
      rw [show fresh (.memory m') (r, draw) = fresh (.memory m) (r, draw) from hevent]
      refine ⟨⟨hstored.1, h.2⟩, hstored.2, fun c hc => ⟨?_, trivial⟩⟩
      rw [upsertMemoryEvidence_starts hc]
      exact hid
  | database d =>
    cases site' with
    | memory m' p' => exact h.elim
    | database d' =>
      rw [ingest_of_database] at hrun ⊢
      obtain ⟨result₁, hresult, he⟩ := Option.map_eq_some_iff.mp hrun
      obtain ⟨rfl, rfl⟩ := Prod.mk.inj he
      have hsame : (databaseInput (r, draw)).idempotencyKey = r.idempotencyKey := databaseInput_idempotencyKey _
      obtain ⟨d₁', result', hstored, hhides, hstarts, hreal⟩ := upsertDatabaseEvidence_hides h (hsame ▸ hkey)
        (fresh_database d (r, draw)) hcandidate hid (fun hnew => hblind (hsame ▸ hnew)) (Prod.ext rfl hresult)
      rw [hstored]
      exact ⟨_, _, rfl, hhides, hstarts, hreal⟩

theorem pipeline_hides {simulation : Option Simulation} {decisionId : String} {now : IsoDate}
    (h : site.Hides previews site') (hid : realId previews c.id = true) (hrecorded : site'.Records c.id)
    (hrun : site.pipeline c simulation decisionId now = some site₁) :
    ∃ site₁', site'.pipeline c simulation decisionId now = some site₁' ∧ site₁.Hides previews site₁' := by
  cases site with
  | memory m p =>
    cases site' with
    | database d' => exact h.elim
    | memory m' p' =>
      obtain rfl := Option.some.inj hrun
      refine ⟨_, rfl, h.1, ?_⟩
      rw [processMemoryPipeline_decisions, processMemoryPipeline_decisions, h.2]
      exact (OrderedMap.set_keep hid).symm
  | database d =>
    cases site' with
    | memory m' p' => exact h.elim
    | database d' =>
      obtain ⟨s, hs, rfl⟩ := Option.map_eq_some_iff.mp hrun
      obtain ⟨s', hs', hhides⟩ := runPipeline_hides h hid hrecorded hs
      exact ⟨_, Option.map_eq_some_iff.mpr ⟨s', hs', rfl⟩, hhides⟩

omit [JsText.Runtime] in
theorem recordGap_hides {recorded : Bool} (h : site.Hides previews site')
    (hkey : realCandidate previews (heartbeatGapKey c) = true) (hid : realId previews c.id = true)
    (hrun : site.recordGap c = some (site₁, recorded)) :
    ∃ site₁', site'.recordGap c = some (site₁', recorded) ∧ site₁.Hides previews site₁' ∧
      (recorded = true → site₁'.Records c.id) := by
  cases site with
  | memory m p =>
    cases site' with
    | database d' => exact h.elim
    | memory m' p' =>
      have hrun : some (memory (recordMemoryGap m c).1 p, (recordMemoryGap m c).2.isSome) =
        some (site₁, recorded) := hrun
      obtain ⟨rfl, rfl⟩ := Prod.mk.inj (Option.some.inj hrun)
      obtain ⟨hhides, hrecorded⟩ := recordMemoryGap_hides h.1 hkey
      refine ⟨memory (recordMemoryGap m' c).1 p', ?_, ⟨hhides, h.2⟩, fun _ => trivial⟩
      rw [← hrecorded]
      rfl
  | database d =>
    cases site' with
    | memory m' p' => exact h.elim
    | database d' =>
      obtain ⟨⟨d₁, recorded₁⟩, hins, he⟩ := Option.map_eq_some_iff.mp hrun
      obtain ⟨rfl, rfl⟩ := Prod.mk.inj he
      obtain ⟨d₁', hins', hhides⟩ := insertCandidate_hides h hkey hid hins
      refine ⟨_, Option.map_eq_some_iff.mpr ⟨_, hins', rfl⟩, hhides, fun hrecorded => ?_⟩
      subst hrecorded
      exact insertCandidate_records hins'

theorem request_eq (site : Site) (r : Request) (draw : LabDraw) :
    site.request r draw = (site.ingest r draw.toDraw).bind fun answer =>
      answer.2.starts.elim (some answer.1) fun c => answer.1.pipeline c none draw.decisionId draw.now := by
  unfold request
  cases site.ingest r draw.toDraw with
  | none => rfl
  | some answer =>
    obtain ⟨site₁, result⟩ := answer
    dsimp only [Option.bind_eq_bind, Option.bind_some]
    cases result.starts with
    | _ => rfl

theorem recordGaps_cons (site : Site) (draw : LabDraw) (c : CandidateEvent) (rest : List CandidateEvent) :
    site.recordGaps draw (c :: rest) = (site.recordGap c).bind fun answer =>
      (if answer.2 = true then answer.1.pipeline c none (draw.gapDecisionId c.id) draw.now
        else some answer.1).bind (recordGaps · draw rest) := by
  rw [recordGaps]
  cases site.recordGap c with
  | none => rfl
  | some answer =>
    obtain ⟨site₁, recorded⟩ := answer
    cases recorded with
    | _ => rfl

theorem recordGaps_hides {draw : LabDraw} {found : List CandidateEvent} (h : site.Hides previews site')
    (hkey : ∀ c ∈ found, realCandidate previews (heartbeatGapKey c) = true)
    (hid : ∀ c ∈ found, realId previews c.id = true) (hrun : site.recordGaps draw found = some site₁) :
    ∃ site₁', site'.recordGaps draw found = some site₁' ∧ site₁.Hides previews site₁' := by
  induction found generalizing site site' with
  | nil =>
    obtain rfl := Option.some.inj hrun
    exact ⟨site', rfl, h⟩
  | cons c rest ih =>
    rw [recordGaps_cons] at hrun
    obtain ⟨⟨site₂, recorded⟩, hrecord, hrun⟩ := Option.bind_eq_some_iff.mp hrun
    obtain ⟨site₃, hdecide, hrun⟩ := Option.bind_eq_some_iff.mp hrun
    obtain ⟨site₂', hrecord', hhides, hrecorded⟩ :=
      recordGap_hides h (hkey c List.mem_cons_self) (hid c List.mem_cons_self) hrecord
    have hdecided : ∃ site₃', (if recorded = true then
        site₂'.pipeline c none (draw.gapDecisionId c.id) draw.now else some site₂') = some site₃' ∧
        site₃.Hides previews site₃' := by
      cases recorded with
      | false =>
        obtain rfl := Option.some.inj hdecide
        exact ⟨site₂', rfl, hhides⟩
      | true => exact pipeline_hides hhides (hid c List.mem_cons_self) (hrecorded rfl) hdecide
    obtain ⟨site₃', hdecide', hhides'⟩ := hdecided
    obtain ⟨site₁', hrest', hhides''⟩ := ih hhides' (fun c hc => hkey c (List.mem_cons_of_mem _ hc))
      (fun c hc => hid c (List.mem_cons_of_mem _ hc)) hrun
    refine ⟨site₁', ?_, hhides''⟩
    rw [recordGaps_cons]
    exact Option.bind_eq_some_iff.mpr ⟨_, hrecord', Option.bind_eq_some_iff.mpr ⟨_, hdecide', hrest'⟩⟩

/-- no preview's reading is listed, so the sweep lists the same readings -/
theorem findGaps_hides {now : Int} {draw : LabDraw} (h : site.Hides previews site')
    (hblind : ∀ x ∈ site.evidence, realKey previews x.1 = false → site.lists now x.2 = false) :
    site'.findGaps now draw = site.findGaps now draw := by
  cases site with
  | memory m p =>
    cases site' with
    | database d' => exact h.elim
    | memory m' p' =>
      have hrows : m'.evidenceByIdempotencyKey.values.filter (EvidenceStore.recent now) =
          m.evidenceByIdempotencyKey.values.filter (EvidenceStore.recent now) := by
        rw [h.1.evidence]
        exact OrderedMap.filter_values_keep hblind
      unfold findGaps EvidenceStore.sweepEvidenceByZone
      dsimp only
      rw [hrows]
  | database d =>
    cases site' with
    | memory m' p' => exact h.elim
    | database d' =>
      have hrows : d'.evidence.values.filter (inLookback now) = d.evidence.values.filter (inLookback now) := by
        rw [h.evidence]
        exact OrderedMap.filter_values_keep hblind
      unfold findGaps EvidenceStore.sweepEvidenceByZone listSweepEvidenceByZone
      dsimp only
      rw [hrows]

end Site

/-! ## a preview -/

theorem storeMemoryCandidate_some {m : Memory} {c : CandidateEvent}
    (h : (storeMemoryCandidate m e draw).2 = some c) : c.id = draw.candidateId ∧
      (storeMemoryCandidate m e draw).1 =
        { m with candidatesByKey := m.candidatesByKey.set (candidateKeyFor e) c } := by
  unfold storeMemoryCandidate at h ⊢
  split at h
  · cases h
  · rename_i hdetect
    obtain rfl := Option.some.inj h
    exact ⟨detect_id hdetect, rfl⟩

theorem upsertMemoryEvidence_preview {m m' : Memory} {c : CandidateEvent} (h : m.Hides previews m')
    (hkey : e.idempotencyKey ∉ m.evidenceByIdempotencyKey.entries.map Prod.fst)
    (hcandidate : candidateKeyFor e ∉ m.candidatesByKey.entries.map Prod.fst)
    (hc : (upsertMemoryEvidence m e draw).2.candidateEvent = some c) : c.id = draw.candidateId ∧
      (upsertMemoryEvidence m e draw).1.Hides (⟨e.idempotencyKey, candidateKeyFor e, c.id⟩ :: previews) m' := by
  unfold upsertMemoryEvidence at hc ⊢
  rw [OrderedMap.get?_eq_none.mpr hkey] at hc ⊢
  dsimp only at hc ⊢
  obtain ⟨hid, hstore⟩ := storeMemoryCandidate_some hc
  rw [hstore]
  refine ⟨hid, ?_, ?_⟩
  · exact h.evidence.trans (OrderedMap.set_keep_cons hkey).symm
  · exact h.candidates.trans (OrderedMap.set_keep_cons hcandidate).symm

/-- the row of a new candidate, and nothing else, is added -/
theorem storeDatabaseCandidate_some {d d₁ : Database} {c : CandidateEvent}
    (h : storeDatabaseCandidate d e draw = (d₁, some (some c)))
    (hnew : ∀ row ∈ d.candidates.rows, row.candidateKey ≠ candidateKeyFor e) :
    c.id = draw.candidateId ∧ ∃ row, row.id = draw.candidateId ∧ row.candidateKey = candidateKeyFor e ∧
      d.candidates.insert row = some d₁.candidates ∧ d₁.evidence = d.evidence ∧
      d₁.system.db.decisions = d.system.db.decisions := by
  unfold storeDatabaseCandidate at h
  cases hdetect : Detection.detectCandidateFromEvidence e (findRecentZoneEvidence d e draw.rank) draw.candidateId
      draw.now with
  | none =>
    rw [hdetect] at h
    cases h
  | some candidate =>
    rw [hdetect] at h
    dsimp only at h
    have hfree : d.system.db.candidates.find? (candidateKeyFor e) = none := Table.find?_eq_none.mpr hnew
    unfold insertCandidate at h
    rw [show CandidateRow.candidateKey ⟨candidateKeyFor e, candidate⟩ = candidateKeyFor e from rfl, hfree] at h
    dsimp only at h
    cases hinsert : d.system.db.candidates.insert ⟨candidateKeyFor e, candidate⟩ with
    | none =>
      rw [hinsert] at h
      cases h
    | some candidates =>
      rw [hinsert] at h
      obtain ⟨rfl, hc⟩ := Prod.mk.inj h
      obtain ⟨row, hfind, rfl⟩ := Option.map_eq_some_iff.mp (Option.some.inj hc)
      obtain ⟨hrow, hrowkey⟩ := Table.find?_eq_some.mp hfind
      have hrow : row ∈ candidates.rows := hrow
      rw [(Table.insert_eq_some hinsert).1, List.mem_append, List.mem_singleton] at hrow
      rcases hrow with hrow | rfl
      · exact absurd hrowkey (hnew row hrow)
      · have hid : candidate.id = draw.candidateId := detect_id hdetect
        exact ⟨hid, _, hid, rfl, hinsert, rfl, rfl⟩

theorem upsertDatabaseEvidence_preview {d d' d₁ : Database} {input : DatabaseEvidence} {result : IngestStoreResult}
    {c : CandidateEvent} (h : d.Hides previews d') (he : e = mapEvidenceRow (evidenceRow input draw))
    (hkey : e.idempotencyKey ∉ d.evidence.entries.map Prod.fst)
    (hcandidate : ∀ row ∈ d.candidates.rows, row.candidateKey ≠ candidateKeyFor e)
    (hid : ∀ row ∈ d.candidates.rows, row.id ≠ draw.candidateId)
    (hdecided : ∀ row ∈ d.system.db.decisions.rows, row.candidateEventId ≠ draw.candidateId)
    (hrun : upsertDatabaseEvidence d input draw = (d₁, some result)) (hc : result.candidateEvent = some c) :
    c.id = draw.candidateId ∧ d₁.Hides (⟨e.idempotencyKey, candidateKeyFor e, c.id⟩ :: previews) d' := by
  have hinput : e.idempotencyKey = input.idempotencyKey := by
    rw [he]
    rfl
  rw [upsertDatabaseEvidence_new (OrderedMap.get?_eq_none.mpr (hinput ▸ hkey)), ← he, ← hinput] at hrun
  obtain ⟨rfl, hresult⟩ := Prod.mk.inj hrun
  obtain ⟨candidate, hcandidate', rfl⟩ := Option.map_eq_some_iff.mp hresult
  dsimp only at hc
  obtain rfl := hc
  obtain ⟨hcid, row, hrowid, hrowkey, hinsert, hevidence, hdecisions⟩ :=
    storeDatabaseCandidate_some (Prod.ext rfl hcandidate') hcandidate
  refine ⟨hcid, ?_, ?_, ?_, ?_⟩
  · rw [hevidence]
    exact h.evidence.trans (OrderedMap.set_keep_cons hkey).symm
  · have hkeep : d.candidates.keep (fun s => s.candidateKey ∉ previews.map Preview.candidateKey) = _ :=
      (Table.insert_keep_cons hinsert fun s hs => hrowkey ▸ hcandidate s hs).symm
    rw [hrowkey] at hkeep
    exact h.candidates.trans hkeep
  · show d'.system.db.decisions = Table.keep _ _
    rw [hdecisions, hcid]
    refine h.decisions.trans (Table.keep_congr fun s hs => ?_)
    exact (decide_notMem_cons_of_ne (hdecided s hs)).symm
  · intro s hs
    rw [(Table.insert_eq_some hinsert).1, List.mem_append, List.mem_singleton] at hs
    rcases hs with hs | rfl
    · rw [hcid, realId_cons_of_ne (hid s hs), realCandidate_cons_of_ne (hcandidate s hs)]
      exact h.ids s hs
    · rw [hrowid, hrowkey, hcid]
      exact decide_notMem_cons_self.trans decide_notMem_cons_self.symm

omit [JsText.Runtime] in
theorem runPipeline_preview {d d' : Database} {s : System} {c : CandidateEvent} {simulation : Option Simulation}
    {decisionId : String} {now : IsoDate} (h : d.Hides previews d') (hid : realId previews c.id = false)
    (hrun : runPipeline d.system c simulation decisionId now = some s) :
    Database.Hides previews { d with system := s } d' := by
  obtain ⟨hupsert, hcandidates⟩ := decisions_of_runPipeline hrun
  have hkeep : s.db.decisions.keep (fun row => realId previews row.candidateEventId) =
      d.system.db.decisions.keep fun row => realId previews row.candidateEventId := by
    refine Table.upsert_keep_of_not hupsert hid ?_ fun _ => rfl
    intro row _ hkey
    rw [(Prod.mk.inj hkey).1]
    exact hid
  refine ⟨h.evidence, ?_, ?_, ?_⟩
  · exact h.candidates.trans (congrArg (Table.keep · _) hcandidates.symm)
  · exact h.decisions.trans hkeep.symm
  · intro row hrow
    have hrow : row ∈ s.db.candidates.rows := hrow
    rw [hcandidates] at hrow
    exact h.ids row hrow

theorem Site.pipeline_preview {site site' site₁ : Site} {c : CandidateEvent} {simulation : Option Simulation}
    {decisionId : String} {now : IsoDate} (h : site.Hides previews site') (hid : realId previews c.id = false)
    (hrun : site.pipeline c simulation decisionId now = some site₁) : site₁.Hides previews site' := by
  cases site with
  | memory m p =>
    cases site' with
    | database d' => exact h.elim
    | memory m' p' =>
      obtain rfl := Option.some.inj hrun
      refine ⟨h.1, ?_⟩
      rw [processMemoryPipeline_decisions]
      exact h.2.trans (OrderedMap.set_keep_of_not hid).symm
  | database d =>
    cases site' with
    | memory m' p' => exact h.elim
    | database d' =>
      obtain ⟨s, hs, rfl⟩ := Option.map_eq_some_iff.mp hrun
      exact runPipeline_preview h hid hs

/-- a preview's keys are new; it stores the reading and runs the pipeline on its candidate -/
theorem runDemoSimulation_eq_some {site site₁ : Site} {input : DemoSimulationRequest} {draw : LabDraw} {p : Preview}
    (h : runDemoSimulation site input draw = some (site₁, p)) :
    (demoEvent site input draw).idempotencyKey ∉ site.evidence.map Prod.fst ∧
      candidateKeyFor (demoEvent site input draw) ∉ site.candidates.map Prod.fst ∧
      ∃ site₂ result c simulation,
        site.ingest (.telemetry (demoTelemetry input draw)) draw.toDraw = some (site₂, result) ∧
        result.candidateEvent = some c ∧ site₂.pipeline c simulation draw.decisionId draw.now = some site₁ ∧
        p = ⟨(demoEvent site input draw).idempotencyKey, candidateKeyFor (demoEvent site input draw), c.id⟩ := by
  unfold runDemoSimulation at h
  dsimp only at h
  by_cases htaken : (demoEvent site input draw).idempotencyKey ∈ site.evidence.map Prod.fst ∨
      candidateKeyFor (demoEvent site input draw) ∈ site.candidates.map Prod.fst
  · rw [if_pos htaken] at h
    cases h
  · rw [if_neg htaken] at h
    obtain ⟨⟨site₂, result⟩, hingest, h⟩ := Option.bind_eq_some_iff.mp h
    obtain ⟨c, hc, h⟩ := Option.bind_eq_some_iff.mp h
    obtain ⟨site₃, hpipeline, he⟩ := Option.bind_eq_some_iff.mp h
    obtain ⟨rfl, rfl⟩ := Prod.mk.inj (Option.some.inj he)
    obtain ⟨hkey, hcandidate⟩ := not_or.mp htaken
    exact ⟨hkey, hcandidate, site₂, result, c, _, hingest, hc, hpipeline, rfl⟩

/-- **A preview leaves what is without it.** -/
theorem runDemoSimulation_hides {site site' site₁ : Site} {input : DemoSimulationRequest} {draw : LabDraw}
    {p : Preview} (h : site.Hides previews site') (hid : draw.candidateId ∉ site.candidates.map fun c => c.2.id)
    (hdecided : draw.candidateId ∉ site.decisions.map Prod.fst)
    (hrun : runDemoSimulation site input draw = some (site₁, p)) : site₁.Hides (p :: previews) site' := by
  obtain ⟨hkey, hcandidate, site₂, result, c, simulation, hingest, hc, hpipeline, rfl⟩ :=
    runDemoSimulation_eq_some hrun
  refine Site.pipeline_preview ?_ (realId_cons_self previews _) hpipeline
  cases site with
  | memory m pipeline =>
    cases site' with
    | database d' => exact h.elim
    | memory m' pipeline' =>
      rw [Site.ingest_of_memory] at hingest
      obtain ⟨rfl, rfl⟩ := Prod.mk.inj (Option.some.inj hingest)
      obtain ⟨hcid, hhides⟩ := upsertMemoryEvidence_preview h.1 hkey hcandidate hc
      refine ⟨hhides, h.2.trans (OrderedMap.keep_congr fun id hin => ?_)⟩
      refine (realId_cons_of_ne ?_).symm
      rintro rfl
      exact hdecided (hcid ▸ hin)
  | database d =>
    cases site' with
    | memory m' pipeline' => exact h.elim
    | database d' =>
      rw [Site.ingest_of_database] at hingest
      obtain ⟨result₁, hresult, he⟩ := Option.map_eq_some_iff.mp hingest
      obtain ⟨rfl, rfl⟩ := Prod.mk.inj he
      refine (upsertDatabaseEvidence_preview h (fresh_database d _) hkey ?_ ?_ ?_ (Prod.ext rfl hresult) hc).2
      · intro row hrow hsame
        refine hcandidate (List.mem_map.mpr ⟨_, List.mem_map_of_mem hrow, hsame⟩)
      · intro row hrow hsame
        exact hid (List.mem_map.mpr ⟨_, List.mem_map_of_mem hrow, hsame⟩)
      · intro row hrow hsame
        exact hdecided (List.mem_map.mpr ⟨_, List.mem_map_of_mem hrow, hsame⟩)

/-! ## runs -/

omit [JsText.Runtime] in
theorem Site.Hides.candidates {site site' : Site} (h : site.Hides previews site') :
    site'.candidates = site.candidates.filter fun c => realCandidate previews c.1 := by
  cases site with
  | memory m p =>
    cases site' with
    | memory m' p' => exact congrArg OrderedMap.entries h.1.candidates
    | database d' => exact h.elim
  | database d =>
    cases site' with
    | memory m' p' => exact h.elim
    | database d' =>
      unfold Site.candidates
      dsimp only
      rw [Site.Hides.eq_def] at h
      rw [h.candidates, List.filter_map]
      rfl

omit [JsText.Runtime] in
theorem Site.Hides.decisions {site site' : Site} (h : site.Hides previews site') :
    site'.decisions = site.decisions.filter fun d => realId previews d.1 := by
  cases site with
  | memory m p =>
    cases site' with
    | memory m' p' => exact congrArg OrderedMap.entries h.2
    | database d' => exact h.elim
  | database d =>
    cases site' with
    | memory m' p' => exact h.elim
    | database d' =>
      unfold Site.decisions
      dsimp only
      rw [Site.Hides.eq_def] at h
      rw [h.decisions, List.filter_map]
      rfl

theorem fresh_zoneText {r : Request} (h : ZoneText r.zoneId) (s : Store) (draw : Draw) :
    ZoneText (fresh s (r, draw)).zoneId := by
  cases s with
  | memory m => cases r with | _ => exact h
  | database d => cases r with | _ => exact zoneText_uuid h

namespace Lab

/-- the stored reading is one of a preview -/
def Previewed (s : Lab) (e : String × EvidenceEvent) : Prop := e.1 ∈ s.previews.map Preview.idempotencyKey

omit [JsText.Runtime] in
theorem previewed_of_realKey {s : Lab} {e : String × EvidenceEvent} (h : realKey s.previews e.1 = false) :
    s.Previewed e := by
  by_contra hno
  exact absurd (h.symm.trans (decide_eq_true hno)) Bool.false_ne_true

/-- the step reads no reading of a preview -/
def Spares (s : Lab) (x : Action × LabDraw) : Prop :=
  match x.1 with
  | .request r _ => r.idempotencyKey ∉ s.previews.map Preview.idempotencyKey ∧
      (r.idempotencyKey ∉ s.site.evidence.map Prod.fst → ∀ e ∈ s.site.evidence, s.Previewed e →
        s.site.weighs (fresh s.site.store (r, x.2.toDraw)) e.2 = false)
  | .sweep now => ∀ e ∈ s.site.evidence, s.Previewed e → s.site.lists now e.2 = false
  | .preview _ _ => True

instance (s : Lab) : DecidablePred s.Previewed := fun _ => inferInstanceAs (Decidable (_ ∈ _))

instance (s : Lab) : DecidablePred (Spares s)
  | (.request _ _, _) => inferInstanceAs (Decidable (_ ∧ (_ → ∀ e ∈ s.site.evidence, s.Previewed e → _)))
  | (.sweep _, _) => inferInstanceAs (Decidable (∀ e ∈ s.site.evidence, s.Previewed e → _))
  | (.preview _ _, _) => inferInstanceAs (Decidable True)

/-- the candidates, gaps and decisions of `t` are those of `s` without the previews' own -/
structure Unchanged (s t : Lab) : Prop where
  candidates : t.site.candidates = s.site.candidates.filter fun c => c.1 ∉ s.previews.map Preview.candidateKey
  decisions : t.site.decisions = s.site.decisions.filter fun d => d.1 ∉ s.previews.map Preview.candidateId
  found : t.found = s.found

structure Hides (s t : Lab) : Prop where
  site : s.site.Hides s.previews t.site
  found : t.found = s.found
  previews : t.previews = []
  keys : ∀ p ∈ s.previews, ∃ e : EvidenceEvent, ZoneText e.zoneId ∧ p.idempotencyKey = e.idempotencyKey ∧
    p.candidateKey = candidateKeyFor e

variable {s t s' : Lab}

omit [JsText.Runtime] in
theorem Hides.unchanged (h : s.Hides t) : s.Unchanged t := ⟨h.site.candidates, h.site.decisions, h.found⟩

omit [JsText.Runtime] in
/-- an id that is taken without the previews is taken with them -/
theorem Hides.ids (h : s.Hides t) {id : String} (hid : id ∈ t.ids) : id ∈ s.ids := by
  unfold Lab.ids at hid ⊢
  rw [h.previews, h.site.candidates, h.site.decisions] at hid
  rw [List.mem_append, List.mem_append] at hid ⊢
  rcases hid with (hid | hid) | hid
  · exact absurd hid List.not_mem_nil
  · exact .inl (.inr (List.map_subset _ (List.filter_subset_self _) hid))
  · exact .inr (List.map_subset _ (List.filter_subset_self _) hid)

omit [JsText.Runtime] in
theorem Hides.realCandidate (h : s.Hides t) {e : EvidenceEvent} (hzone : ZoneText e.zoneId)
    (hkey : realKey s.previews e.idempotencyKey = true) : realCandidate s.previews (candidateKeyFor e) = true := by
  refine decide_eq_true fun hin => ?_
  obtain ⟨p, hp, he⟩ := List.mem_map.mp hin
  obtain ⟨e', hzone', hpkey, hpcandidate⟩ := h.keys p hp
  refine of_decide_eq_true hkey (List.mem_map.mpr ⟨p, hp, ?_⟩)
  rw [hpkey]
  exact candidateKeyFor_inj hzone' hzone (hpcandidate ▸ he)

omit [JsText.Runtime] in
theorem Hides.realGap (h : s.Hides t) (c : CandidateEvent) :
    Ingestion.realCandidate s.previews (heartbeatGapKey c) = true := by
  refine decide_eq_true fun hin => ?_
  obtain ⟨p, hp, he⟩ := List.mem_map.mp hin
  obtain ⟨e', hzone', -, hpcandidate⟩ := h.keys p hp
  exact candidateKeyFor_ne_gapKey hzone' c (hpcandidate ▸ he)

omit [JsText.Runtime] in
theorem realId_of_notMem {id : String} (h : id ∉ s.ids) : realId s.previews id = true := by
  refine decide_eq_true fun hin => h ?_
  unfold Lab.ids
  exact List.mem_append_left _ (List.mem_append_left _ hin)

/-- what a preview adds is hidden -/
theorem Hides.preview (h : s.Hides t) {x : Action × LabDraw} (hpreview : x.1.isReal = false)
    (hnext : next s x = some s') : s'.Hides t := by
  obtain ⟨action, draw⟩ := x
  cases action with
  | request r hzone => cases hpreview
  | sweep now => cases hpreview
  | preview input hzone =>
    unfold next at hnext
    dsimp only at hnext
    split at hnext
    · cases hnext
    · rename_i hid
      obtain ⟨⟨site, p⟩, hrun, rfl⟩ := Option.map_eq_some_iff.mp hnext
      unfold Lab.ids at hid
      rw [List.mem_append, List.mem_append, not_or, not_or] at hid
      refine ⟨runDemoSimulation_hides h.site hid.1.2 hid.2 hrun, h.found, h.previews, ?_⟩
      intro q hq
      rcases List.mem_cons.mp hq with rfl | hq
      · obtain ⟨-, -, -, -, -, -, -, -, -, rfl⟩ := runDemoSimulation_eq_some hrun
        have htext : ZoneText (Request.telemetry (demoTelemetry input draw)).zoneId := hzone
        exact ⟨demoEvent s.site input draw, fresh_zoneText htext _ _, rfl, rfl⟩
      · exact h.keys q hq

/-- a request that spares the previews does the same without them -/
theorem Hides.request (h : s.Hides t) {r : Request} (hzone : ZoneText r.zoneId) {draw : LabDraw} {site₁ : Site}
    (hid : draw.candidateId ∉ s.ids) (hspared : Spares s (.request r hzone, draw))
    (hrun : s.site.request r draw = some site₁) :
    ∃ site₁', t.site.request r draw = some site₁' ∧ site₁.Hides s.previews site₁' := by
  obtain ⟨hkey, hblind⟩ := hspared
  rw [Site.request_eq] at hrun
  have hreal : realKey s.previews r.idempotencyKey = true := decide_eq_true hkey
  have hfresh : realKey s.previews (fresh s.site.store (r, draw.toDraw)).idempotencyKey = true := by
    rw [fresh_idempotencyKey]
    exact hreal
  obtain ⟨⟨site₂, result⟩, hingest, hrun⟩ := Option.bind_eq_some_iff.mp hrun
  obtain ⟨site₂', result', hingest', hhides, hstarts, hrecorded⟩ := Site.ingest_hides h.site hreal
    (h.realCandidate (fresh_zoneText hzone _ _) hfresh) (realId_of_notMem hid)
    (fun hnew e he hp => hblind hnew e he (previewed_of_realKey hp)) hingest
  rw [Site.request_eq, hingest']
  show ∃ site₁', result'.starts.elim (some site₂') _ = some site₁' ∧ _
  rw [hstarts]
  dsimp only at hrun
  cases hc : result.starts with
  | none =>
    rw [hc] at hrun
    obtain rfl := Option.some.inj hrun
    exact ⟨site₂', rfl, hhides⟩
  | some c =>
    rw [hc] at hrun
    obtain ⟨hcid, hrec⟩ := hrecorded c hc
    exact Site.pipeline_hides hhides hcid hrec hrun

/-- **A step that spares the previews does the same without them.** -/
theorem Hides.next (h : s.Hides t) {x : Action × LabDraw} (hreal : x.1.isReal = true) (hspared : Spares s x)
    (hnext : Lab.next s x = some s') : ∃ t', Lab.next t x = some t' ∧ s'.Hides t' := by
  obtain ⟨action, draw⟩ := x
  cases action with
  | preview input hzone => cases hreal
  | request r hzone =>
    unfold Lab.next at hnext ⊢
    dsimp only at hnext ⊢
    split at hnext
    · cases hnext
    · rename_i hid
      obtain ⟨site₁, hrun, rfl⟩ := Option.map_eq_some_iff.mp hnext
      obtain ⟨site₁', hrun', hhides⟩ := h.request hzone hid hspared hrun
      rw [if_neg fun hin => hid (h.ids hin), hrun']
      exact ⟨_, rfl, hhides, h.found, h.previews, h.keys⟩
  | sweep now =>
    unfold Lab.next at hnext ⊢
    dsimp only at hnext ⊢
    rw [Site.findGaps_hides h.site fun e he hp => hspared e he (previewed_of_realKey hp)]
    split at hnext
    · cases hnext
    · rename_i hid
      obtain ⟨site₁, hrun, rfl⟩ := Option.map_eq_some_iff.mp hnext
      obtain ⟨site₁', hrun', hhides⟩ := Site.recordGaps_hides h.site (fun c _ => h.realGap c)
        (fun c hc => realId_of_notMem fun hin => hid ⟨c, hc, hin⟩) hrun
      rw [if_neg fun ⟨c, hc, hin⟩ => hid ⟨c, hc, h.ids hin⟩, hrun']
      refine ⟨_, rfl, hhides, ?_, h.previews, h.keys⟩
      rw [h.found]

omit [JsText.Runtime] in
theorem hides_start (mode : Mode) : (start mode).Hides (start mode) where
  site := by
    cases mode with
    | memory => exact ⟨⟨rfl, rfl⟩, rfl⟩
    | database => exact ⟨rfl, rfl, rfl, fun row hrow => absurd hrow List.not_mem_nil⟩
  found := rfl
  previews := rfl
  keys := fun p hp => absurd hp List.not_mem_nil

/-- **In every run whose steps spare the previews, the run without them raises the same candidates, finds the same
gaps and decides the same.** -/
theorem previews_unseen (mode : Mode) (xs : List (Action × LabDraw)) {s : Lab}
    (hrun : Runs.run next (start mode) xs = some s) (hspared : Runs.Along next Spares (start mode) xs) :
    ∃ t, Runs.run next (start mode) (xs.filter (·.1.isReal)) = some t ∧ s.Unchanged t := by
  have hpurge : ∃ t, Runs.run next (start mode) (xs.filter (·.1.isReal)) = some t ∧ s.Hides t := by
    refine Runs.run_purge (fun s x s' t h _ hpreview hnext => h.preview hpreview hnext) ?_ (hides_start mode)
      hspared hrun
    intro s x s' t h hok hreal hnext
    exact h.next hreal hok hnext
  obtain ⟨t, ht, hhides⟩ := hpurge
  exact ⟨t, ht, hhides.unchanged⟩

end Lab

end

/-! ## an outage that is a demo -/

theorem feederZone_text : ZoneText feederZone := by decide

def labDraw (name : String) (minutes : ℕ) : LabDraw where
  evidenceId := "evidence " ++ name
  providerId := "provider"
  candidateId := "candidate " ++ name
  now := minuteAt minutes
  rank := fun _ => 0
  decisionId := "decision " ++ name
  gapIds := fun _ i => "gap " ++ toString i
  runId := name
  observedAt := minuteAt minutes
  gapDecisionId := fun id => "decision on " ++ id

/-- power is back, says a meter -/
def backUp (minutes : ℕ) : TelemetryIngestRequest where
  deviceId := "meter"
  providerWallet := "0x2222222222222222222222222222222222222222"
  zoneId := feederZone
  idempotencyKey := "meter reading"
  observedAt := minuteAt minutes
  status := .gridUp
  voltage := some 230
  currentAmps := none

/-- a previewed outage, a meter's reading and a sweep -/
def demoThenReading (minutes : ℕ) : List (Action × LabDraw) :=
  [(.preview ⟨"0x1111111111111111111111111111111111111111", feederZone, .confirmedOutage⟩ feederZone_text,
      labDraw "demo" 0),
    (.request (.telemetry (backUp minutes)) feederZone_text, labDraw "meter" minutes),
    (.sweep (minuteAt 20).getTime, labDraw "sweep" 20)]

def Lab.verdicts (s : Lab) : List (String × Pipeline.Verdict) := s.site.decisions.map fun d => (d.1, d.2.decision)

theorem distant_spared : letI := JsText.asciiRuntime
    Runs.Along Lab.next Lab.Spares (Lab.start .memory) (demoThenReading 15) := by
  decide +kernel

theorem distant_preview : letI := JsText.asciiRuntime
    ∃ s, Runs.run Lab.next (Lab.start .memory) (demoThenReading 15) = some s ∧
      s.verdicts = [("candidate demo", .approve), ("candidate meter", .approve)] ∧
      ∃ t, Runs.run Lab.next (Lab.start .memory) ((demoThenReading 15).filter (·.1.isReal)) = some t ∧
        s.Unchanged t := by
  let _ := JsText.asciiRuntime
  have hrun : (Runs.run Lab.next (Lab.start .memory) (demoThenReading 15)).any (fun s => decide (
      s.verdicts = [("candidate demo", .approve), ("candidate meter", .approve)])) = true := by
    decide +kernel
  obtain ⟨s, hs, hverdicts⟩ := (Option.any_eq_true _ _).mp hrun
  exact ⟨s, hs, of_decide_eq_true hverdicts, Lab.previews_unseen .memory _ hs distant_spared⟩

/-- **A previewed outage one minute earlier holds back the reading of a meter.** -/
theorem near_preview : letI := JsText.asciiRuntime
    ∃ s t, Runs.run Lab.next (Lab.start .memory) (demoThenReading 1) = some s ∧
      Runs.run Lab.next (Lab.start .memory) ((demoThenReading 1).filter (·.1.isReal)) = some t ∧
      s.verdicts = [("candidate demo", .approve), ("candidate meter", .escalate)] ∧
      t.verdicts = [("candidate meter", .approve)] ∧ ¬ s.Unchanged t := by
  let _ := JsText.asciiRuntime
  have hrun : (Runs.run Lab.next (Lab.start .memory) (demoThenReading 1)).any (fun s =>
      (Runs.run Lab.next (Lab.start .memory) ((demoThenReading 1).filter (·.1.isReal))).any fun t => decide (
        s.verdicts = [("candidate demo", .approve), ("candidate meter", .escalate)] ∧
        t.verdicts = [("candidate meter", .approve)] ∧
        s.previews.map Preview.candidateId = ["candidate demo"])) = true := by
    decide +kernel
  obtain ⟨s, hs, hrun⟩ := (Option.any_eq_true _ _).mp hrun
  obtain ⟨t, ht, h⟩ := (Option.any_eq_true _ _).mp hrun
  obtain ⟨hverdicts, hwithout, hids⟩ := of_decide_eq_true h
  refine ⟨s, t, hs, ht, hverdicts, hwithout, fun hun => ?_⟩
  -- the decision on the meter's candidate is kept, as it is
  have hkept : (("candidate meter", .escalate) : String × Pipeline.Verdict) ∈ t.verdicts := by
    have hin : (("candidate meter", .escalate) : String × Pipeline.Verdict) ∈ s.verdicts := by
      rw [hverdicts]
      exact List.mem_cons_of_mem _ List.mem_cons_self
    obtain ⟨d, hd, he⟩ := List.mem_map.mp hin
    refine List.mem_map.mpr ⟨d, ?_, he⟩
    rw [hun.decisions, List.mem_filter, hids]
    refine ⟨hd, ?_⟩
    rw [(Prod.mk.inj he).1]
    decide
  rw [hwithout] at hkept
  exact absurd hkept (by decide)

end Ingestion
