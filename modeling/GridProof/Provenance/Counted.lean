import GridProof.Provenance.Evidenced
import GridProof.Pipeline.Statements

/-!
# What a score counts

The candidates a score counts, seen from the states `V` that the database has been in.

* `Authorized`           an approval at the threshold or by a reviewer;
* `Tallied`              votes of recorded candidates that were approved, all of them read in one state;
* `Backed`               the tables hold evidenced candidates, authorized approvals and tallied scores;
* `statement_backed`     what a statement leaves.
-/

namespace Provenance
open Ingestion (EvidenceEvent)
open Pipeline

/-! ## approvals -/

/-- the confidence reaches the threshold, or a reviewer has decided -/
def Authorized (d : AgentDecision) : Prop :=
  autoApproveThreshold ≤ d.confidence ∨ d.reasoningTrace.review.isSome = true

/-- the candidate has had an approval that was authorized -/
def Approved (V : Db → Prop) (candidateId : String) : Prop :=
  ∃ db, V db ∧ ∃ d ∈ db.decisions.rows, d.candidateEventId = candidateId ∧ d.decision = .approve ∧ Authorized d

/-- the agents approve at the threshold only -/
def Guarded (result : OrchestrationResult) : Prop :=
  ∀ analysis decision, result = .agentDecision analysis decision → decision.decision = .approve →
    autoApproveThreshold ≤ decision.finalConfidence

theorem guarded_orchestrate (replies : Except String (Analysis × Verification)) :
    Guarded (orchestrateCandidateReview replies) := by
  intro analysis decision h happrove
  cases replies with
  | error message => cases h
  | ok reply =>
    obtain ⟨a, v⟩ := reply
    unfold orchestrateCandidateReview at h
    dsimp only at h
    split at h
    · cases h
    · rename_i hguard
      obtain ⟨-, rfl⟩ := OrchestrationResult.agentDecision.inj h
      exact not_lt.mp fun hlow => hguard ⟨happrove, hlow⟩

theorem authorized_agent {id : String} {now : IsoDate} {job : AgentReviewJob} {result : OrchestrationResult}
    (hresult : Guarded result) (h : (agentDecisionFromResult id now job result).decision = .approve) :
    Authorized (agentDecisionFromResult id now job result) := by
  cases result with
  | agentDecision analysis decision => exact .inl (hresult analysis decision rfl h)
  | escalate reason => cases h

theorem authorized_policy {id : String} {now : IsoDate} {c : CandidateEvent}
    (h : (decisionForCandidate id now c).decision = .approve) : Authorized (decisionForCandidate id now c) := by
  refine .inl ?_
  show autoApproveThreshold ≤ c.confidence
  by_contra hlow
  have hdecision : decisionForConfidence c.confidence = .approve := h
  unfold decisionForConfidence decisionForConfidenceIn exactly at hdecision
  rw [if_neg hlow] at hdecision
  split at hdecision
  · cases hdecision
  · cases hdecision

/-- what the decision upsert stores is authorized if the new decision is -/
theorem upsert_authorized {db db' : Db} {decision d : AgentDecision}
    (h : upsertDatabaseDecision db decision = some (db', d))
    (hdecision : decision.decision = .approve → Authorized decision) : d.decision = .approve → Authorized d := by
  have hsame : d.decision = decision.decision ∧ d.confidence = decision.confidence ∧
      d.reasoningTrace = decision.reasoningTrace := by
    unfold upsertDatabaseDecision at h
    split at h
    · cases h
    · obtain ⟨decisions, -, he⟩ := Option.map_eq_some_iff.mp h
      obtain ⟨-, rfl⟩ := Prod.mk.inj he
      unfold Table.stored
      split
      · exact ⟨rfl, rfl, rfl⟩
      · exact ⟨rfl, rfl, rfl⟩
  obtain ⟨hverdict, hconfidence, htrace⟩ := hsame
  unfold Authorized at *
  rw [hverdict, hconfidence, htrace]
  exact hdecision

/-! ## votes -/

/-- the candidate is in the table, as far as a score reads it -/
def Recorded (db : Db) (c : CandidateEvent) : Prop :=
  ∃ r ∈ db.candidates.rows, r.event.vote = c.vote ∧ r.event.epochKey = c.epochKey

/-- the vote of a recorded candidate of the zone and the epoch that has been approved -/
def Counted (V : Db → Prop) (db : Db) (key : String × EpochStart) (v : Vote) : Prop :=
  ∃ r ∈ db.candidates.rows, r.event.vote = v ∧ r.event.epochKey = key ∧ Approved V r.id

/-- in one state the votes were those of all approved candidates; the worker counts its own if there is none -/
def Snapshot (V : Db → Prop) (key : String × EpochStart) (votes : List Vote) : Prop :=
  ∃ db, V db ∧ (votes = (selectApproved db key.1 key.2).map CandidateEvent.vote ∨
    selectApproved db key.1 key.2 = [] ∧ votes.length = 1)

structure Tallied (V : Db → Prop) (db : Db) (key : String × EpochStart) (votes : List Vote) : Prop where
  counted : ∀ v ∈ votes, Counted V db key v
  snapshot : Snapshot V key votes

/-- no candidate is taken away, and the zones are the same -/
structure Keeps (db db' : Db) : Prop where
  candidates : ∀ r ∈ db.candidates.rows, r ∈ db'.candidates.rows
  zones : db'.zones = db.zones

theorem Keeps.of_eq {db db' : Db} (hcandidates : db'.candidates = db.candidates) (hzones : db'.zones = db.zones) :
    Keeps db db' := ⟨fun _ hr => hcandidates ▸ hr, hzones⟩

theorem Keeps.refl (db : Db) : Keeps db db := .of_eq rfl rfl

section
variable {V W : Db → Prop} {db db' : Db}

theorem Approved.mono (hV : ∀ x, V x → W x) {candidateId : String} (h : Approved V candidateId) :
    Approved W candidateId := by
  obtain ⟨x, hx, hrest⟩ := h
  exact ⟨x, hV x hx, hrest⟩

theorem Recorded.mono (hkeeps : Keeps db db') {c : CandidateEvent} (h : Recorded db c) : Recorded db' c := by
  obtain ⟨r, hr, hrest⟩ := h
  exact ⟨r, hkeeps.candidates r hr, hrest⟩

theorem Tallied.mono (hV : ∀ x, V x → W x) (hkeeps : Keeps db db') {key : String × EpochStart} {votes : List Vote}
    (h : Tallied V db key votes) : Tallied W db' key votes := by
  refine ⟨fun v hv => ?_, ?_⟩
  · obtain ⟨r, hr, hvote, hkey, happroved⟩ := h.counted v hv
    exact ⟨r, hkeeps.candidates r hr, hvote, hkey, happroved.mono hV⟩
  · obtain ⟨x, hx, hrest⟩ := h.snapshot
    exact ⟨x, hV x hx, hrest⟩

end

/-! ## the tables -/

structure Backed (V : Db → Prop) (rows : List EvidenceEvent) (s : System) : Prop where
  evidenced : ∀ r ∈ s.db.candidates.rows, Evidenced rows r.event
  jobs : ∀ job ∈ s.jobs, Recorded s.db job.candidate
  authorized : ∀ d ∈ s.db.decisions.rows, d.decision = .approve → Authorized d
  tallied : ∀ r ∈ s.db.epochScores.rows, Tallied V s.db r.key r.counted

/-- what an operation knows of its candidate; candidates are recorded by deliveries and sweeps only -/
def PhaseBacked (V : Db → Prop) (db : Db) : Phase → Prop
  | .started (.ingest _ _ _ _) => False
  | .started (.deliver _ result _ _) => Guarded result
  | .started (.review _ _ _ _) => True
  | .decided c _ _ => Recorded db c ∧ Approved V c.id
  | .selected c votes _ => Tallied V db c.epochKey votes
  | .scored _ _ _ => True
  | .finished _ => True

section
variable {V W : Db → Prop} {rows rows' : List EvidenceEvent} {s s' : System}

theorem Backed.mono (hV : ∀ x, V x → W x) (hrows : ∀ row ∈ rows, row ∈ rows') (h : Backed V rows s) :
    Backed W rows' s where
  evidenced r hr := (h.evidenced r hr).mono hrows
  jobs := h.jobs
  authorized := h.authorized
  tallied r hr := (h.tallied r hr).mono hV (.refl _)

theorem PhaseBacked.mono {db db' : Db} (hV : ∀ x, V x → W x) (hkeeps : Keeps db db') {phase : Phase}
    (h : PhaseBacked V db phase) : PhaseBacked W db' phase := by
  cases phase with
  | started op =>
    cases op with
    | ingest row simulation decisionId now => exact h
    | deliver job result decisionId now => exact h
    | review decisionId reviewDecision note now => exact h
  | decided c byWorker now => exact ⟨h.1.mono hkeeps, h.2.mono hV⟩
  | selected c votes now => exact Tallied.mono hV hkeeps h
  | scored c es now => trivial
  | finished c => trivial

/-- the same candidates, and new rows that are in order -/
theorem Backed.write (h : Backed V rows s) (hcandidates : s'.db.candidates = s.db.candidates)
    (hzones : s'.db.zones = s.db.zones)
    (hjobs : ∀ job ∈ s'.jobs, Recorded s.db job.candidate)
    (hauthorized : ∀ d ∈ s'.db.decisions.rows, d ∈ s.db.decisions.rows ∨ (d.decision = .approve → Authorized d))
    (htallied : ∀ r ∈ s'.db.epochScores.rows, r ∈ s.db.epochScores.rows ∨ Tallied V s.db r.key r.counted) :
    Backed V rows s' := by
  have hkeeps : Keeps s.db s'.db := .of_eq hcandidates hzones
  refine ⟨fun r hr => h.evidenced r (hcandidates ▸ hr), fun job hjob => (hjobs job hjob).mono hkeeps,
    fun d hd => ?_, fun r hr => ?_⟩
  · exact (hauthorized d hd).elim (h.authorized d) id
  · exact ((htallied r hr).elim (h.tallied r) id).mono (fun _ => id) hkeeps

/-- a decision is stored; the jobs are of recorded candidates -/
theorem Backed.decide (h : Backed V rows s) {db : Db} {jobs : List AgentReviewJob} {d : AgentDecision}
    (hframe : db = { s.db with decisions := db.decisions }) (hputs : s.db.decisions.Puts db.decisions d)
    (hd : d.decision = .approve → Authorized d) (hjobs : ∀ job ∈ jobs, Recorded s.db job.candidate) :
    Backed V rows ⟨db, jobs⟩ := by
  refine h.write ?_ ?_ hjobs (fun x hx => ?_) fun r hr => .inl ?_
  · show db.candidates = _
    rw [hframe]
  · show db.zones = _
    rw [hframe]
  · rcases hputs.cases hx with ⟨hold, -⟩ | rfl
    · exact .inl hold
    · exact .inr hd
  · have hsame : db.epochScores = s.db.epochScores := by rw [hframe]
    exact hsame ▸ hr

/-- the votes of a recompute are those of approved candidates -/
theorem Backed.recompute (h : Backed V rows s) (hV : V s.db) {c : CandidateEvent} (byWorker : Bool)
    (hc : Recorded s.db c) (happroved : Approved V c.id) :
    Tallied V s.db c.epochKey (recomputeVotes s.db c byWorker) := by
  have hselected : ∀ v ∈ (selectApproved s.db c.zoneId (floorToEpoch c.windowEnd)).map CandidateEvent.vote,
      Counted V s.db c.epochKey v := by
    intro v hv
    obtain ⟨x, hx, rfl⟩ := List.mem_map.mp hv
    obtain ⟨⟨r, hr, rfl⟩, hin, d, hd, hid, happrove⟩ := mem_selectApproved.mp hx
    exact ⟨r, hr, rfl, CandidateEvent.inEpoch_iff.mp hin, s.db, hV, d, hd, hid, happrove,
      h.authorized d hd happrove⟩
  have hall : Tallied V s.db c.epochKey
      ((selectApproved s.db c.zoneId (floorToEpoch c.windowEnd)).map CandidateEvent.vote) :=
    ⟨hselected, s.db, hV, .inl rfl⟩
  unfold recomputeVotes workerVotes
  dsimp only
  split
  · split
    · exact hall
    · -- nothing is approved by now
      rename_i hnone
      refine ⟨fun v hv => ?_, s.db, hV, .inr ⟨List.eq_nil_of_length_eq_zero (Nat.eq_zero_of_not_pos hnone), rfl⟩⟩
      rw [List.mem_singleton.mp hv]
      obtain ⟨r, hr, hvote, hkey⟩ := hc
      refine ⟨r, hr, hvote, hkey, ?_⟩
      have hid : r.id = c.id := congrArg Vote.id hvote
      rw [hid]
      exact happroved
  · exact hall

/-! ## statements -/

theorem deliver_backed {job : AgentReviewJob} {result : OrchestrationResult} {decisionId : String} {now : IsoDate}
    {phase : Phase} (hV' : V s'.db) (hs : Backed V rows s) (hresult : Guarded result)
    (h : storeDecision s (.deliver job result decisionId now) = some (s', phase)) :
    Backed V rows s' ∧ PhaseBacked V s'.db phase ∧ Keeps s.db s'.db := by
  unfold storeDecision at h
  dsimp only at h
  split at h
  · rename_i hjob
    simp only [Option.bind_eq_bind, Option.bind_eq_some_iff, Prod.exists] at h
    obtain ⟨db, d, hup, h⟩ := h
    obtain ⟨hframe, hputs, hkey, hverdict⟩ := upsertDatabaseDecision_eq_some hup
    have hd := upsert_authorized hup (authorized_agent hresult)
    have hkeeps : Keeps s.db db := .of_eq (by rw [hframe]) (by rw [hframe])
    have hbacked : Backed V rows ⟨db, s.jobs⟩ := hs.decide hframe hputs hd hs.jobs
    split at h
    · cases h
      exact ⟨hbacked, trivial, hkeeps⟩
    · rename_i happ
      split at h
      · cases h
        exact ⟨hbacked, trivial, hkeeps⟩
      · cases h
        have happrove : d.decision = .approve := hverdict.trans (not_not.mp happ)
        refine ⟨hbacked, ⟨(hs.jobs job hjob).mono hkeeps, ?_⟩, hkeeps⟩
        have hid : d.candidateEventId = job.candidate.id :=
          (congrArg Prod.fst hkey).trans (agentDecisionFromResult_key decisionId now job result).1
        exact ⟨db, hV', d, hputs.self, hid, happrove, hd happrove⟩
  · cases h

theorem review_backed {decisionId note : String} {reviewDecision : ReviewDecision} {now : IsoDate} {phase : Phase}
    (hV' : V s'.db) (hs : Backed V rows s)
    (h : storeDecision s (.review decisionId reviewDecision note now) = some (s', phase)) :
    Backed V rows s' ∧ PhaseBacked V s'.db phase ∧ Keeps s.db s'.db := by
  simp only [storeDecision, Option.bind_eq_bind, Option.bind_eq_some_iff, Prod.exists] at h
  obtain ⟨db, d, hup, h⟩ := h
  obtain ⟨before, -, hframe, hputs, rfl⟩ := updateReview_eq_some hup
  have hd : Authorized (before.reviewed before.decision reviewDecision note now) := .inr rfl
  have hkeeps : Keeps s.db db := .of_eq (by rw [hframe]) (by rw [hframe])
  have hbacked : Backed V rows ⟨db, s.jobs⟩ := hs.decide hframe hputs (fun _ => hd) hs.jobs
  split at h
  · cases h
    exact ⟨hbacked, trivial, hkeeps⟩
  · rename_i happ
    obtain ⟨c, hfind, h⟩ := Option.bind_eq_some_iff.mp h
    cases h
    unfold findDatabaseCandidate at hfind
    obtain ⟨r, hget, rfl⟩ := Option.map_eq_some_iff.mp hfind
    obtain ⟨hr, hid⟩ := Table.get?_eq_some.mp hget
    refine ⟨hbacked, ⟨⟨r, hr, rfl, r.event.readBack_epochKey.symm⟩, ?_⟩, hkeeps⟩
    rw [CandidateEvent.readBack_id]
    exact ⟨db, hV', _, hputs.self, hid.symm, not_not.mp happ, hd⟩

/-- **What a statement of an operation leaves.** -/
theorem statement_backed {phase phase' : Phase} (hV : V s.db) (hV' : V s'.db) (hs : Backed V rows s)
    (hphase : PhaseBacked V s.db phase) (h : statement s phase = some (s', phase')) :
    Backed V rows s' ∧ PhaseBacked V s'.db phase' ∧ Keeps s.db s'.db := by
  cases phase with
  | started op =>
    cases op with
    | ingest row simulation decisionId now => exact hphase.elim
    | deliver job result decisionId now => exact deliver_backed hV' hs hphase h
    | review decisionId reviewDecision note now => exact review_backed hV' hs h
  | decided c byWorker now =>
    obtain ⟨rfl, rfl⟩ := Prod.mk.inj (Option.some.inj h)
    exact ⟨hs, hs.recompute hV byWorker hphase.1 hphase.2, .refl _⟩
  | selected c votes now =>
    obtain ⟨hframe, hjobs, r, hputs, hkey, hcounted, rfl⟩ := statement_selected h
    have hcandidates : s'.db.candidates = s.db.candidates := by rw [hframe]
    have hzones : s'.db.zones = s.db.zones := by rw [hframe]
    have hdecisions : s'.db.decisions = s.db.decisions := by rw [hframe]
    refine ⟨hs.write hcandidates hzones (fun job hjob => hs.jobs job (hjobs ▸ hjob))
      (fun d hd => .inl (hdecisions ▸ hd)) fun x hx => ?_, trivial, .of_eq hcandidates hzones⟩
    rcases hputs.cases hx with ⟨hold, -⟩ | rfl
    · exact .inl hold
    · rw [hkey, hcounted]
      exact .inr hphase
  | scored c es now =>
    obtain ⟨hframe, hjobs, -, rfl⟩ := statement_scored h
    have hcandidates : s'.db.candidates = s.db.candidates := by rw [hframe]
    have hzones : s'.db.zones = s.db.zones := by rw [hframe]
    have hdecisions : s'.db.decisions = s.db.decisions := by rw [hframe]
    have hscores : s'.db.epochScores = s.db.epochScores := by rw [hframe]
    exact ⟨hs.write hcandidates hzones (fun job hjob => hs.jobs job (hjobs ▸ hjob)) (fun d hd => .inl (hdecisions ▸ hd))
      fun x hx => .inl (hscores ▸ hx), trivial, .of_eq hcandidates hzones⟩
  | finished c => cases h

end

end Provenance
