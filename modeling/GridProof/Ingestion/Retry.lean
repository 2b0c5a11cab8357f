import GridProof.Ingestion.Attempts

/-!
# Retries after failures

The keys that make a retry harmless also make it return early: what an attempt has inserted is nobody's once the
attempt has failed.

* `Settled`          what no attempt has in its hands is complete;
* `Task.Exposed`     the attempt has inserted a row and its last write is still to come;
* `retry_safe_iff`   a run is settled in every state iff no attempt fails while it is exposed.
-/

namespace Ingestion
open Pipeline (IsoDate CandidateEvent CandidateRow Db Phase)

/-! ## settled tables -/

/-- the task is about to decide on the candidate, or to count it -/
def Task.InHand (r : CandidateRow) : Task → Prop
  | .findCandidate e => r.candidateKey = candidateKeyFor e
  | .decide c _ => r.id = c.id
  | .score phase _ => phase.candidate.map CandidateEvent.id = some r.id
  | _ => False

/-- the candidate has its decision, and an approved one is in its score, which has a commitment -/
def Complete (db : Db) (r : CandidateRow) : Prop :=
  (∃ decision ∈ db.decisions.rows, decision.key = (r.id, .policyGate)) ∧
    (db.Approved r.id → ∃ s ∈ db.epochScores.rows, s.key = r.event.epochKey ∧ s.Counts r.id ∧
      ∃ k ∈ db.commitments.rows, k.epochScoreId = s.id)

/-- everything is complete but what the task has in its hands -/
structure Settled (d : Database) (task : Task) : Prop where
  evidence : ∀ e ∈ d.evidence.values, e.status ≠ .unknown →
    task.pending = some e.idempotencyKey ∨ ∃ r ∈ d.candidates.rows, r.candidateKey = candidateKeyFor e
  candidates : ∀ r ∈ d.candidates.rows, task.InHand r ∨ Complete d.system.db r

/-- what the task has inserted would stay incomplete -/
def Task.Exposed (d : Database) : Task → Prop
  | .findEvidence key true => ∃ e ∈ d.evidence.get? key, e.status ≠ .unknown
  | .readRecent e => e.status ≠ .unknown
  | .insertCandidate _ _ => True
  | .findCandidate _ => True
  | .decide _ _ => True
  | .score (.scored _ es _) _ => ∀ k ∈ d.system.db.commitments.rows, k.epochScoreId ≠ es.id
  | .score _ _ => True
  | _ => False

instance (d : Database) : (task : Task) → Decidable (task.Exposed d)
  | .findEvidence key true => inferInstanceAs (Decidable (∃ e ∈ d.evidence.get? key, _))
  | .readRecent _ => inferInstanceAs (Decidable (_ ≠ _))
  | .score (.scored _ _ _) _ => inferInstanceAs (Decidable (∀ k ∈ d.system.db.commitments.rows, _))
  | .insertCandidate _ _ => isTrue trivial
  | .findCandidate _ => isTrue trivial
  | .decide _ _ => isTrue trivial
  | .score (.started _) _ => isTrue trivial
  | .score (.decided _ _ _) _ => isTrue trivial
  | .score (.selected _ _ _) _ => isTrue trivial
  | .score (.finished _) _ => isTrue trivial
  | .findEvidence _ false => isFalse id
  | .insertEvidence _ => isFalse id
  | .replyDuplicate _ => isFalse id
  | .listEvidence _ => isFalse id
  | .recordGaps _ => isFalse id
  | .finished => isFalse id

theorem Task.Plain.held {task : Task} (h : task.Plain) (db : Db) : task.Held db := by
  cases task with
  | findCandidate e => exact h.elim
  | decide c rest => exact h.elim
  | score phase rest => exact h.elim
  | _ => trivial

theorem Task.Plain.not_inHand {task : Task} (h : task.Plain) (r : CandidateRow) : ¬ task.InHand r := by
  cases task with
  | findCandidate e => exact h.elim
  | decide c rest => exact h.elim
  | score phase rest => exact h.elim
  | _ => exact id

/-! ## what holds whatever fails -/

section
variable {zod : Zod} {d d' : Database} {task : Task} {o : Outcome}

/-- the tables of the pipeline with more candidates -/
theorem Consistent.inserts (h : Consistent zod d task) {row : CandidateRow} (hins : Inserts d d' row true)
    (hframe : d'.system.db = { d.system.db with candidates := d'.candidates }) :
    (∀ decision ∈ d'.system.db.decisions.rows, ∃ r ∈ d'.candidates.rows, r.id = decision.candidateEventId) ∧
      (∀ s ∈ d'.system.db.epochScores.rows, ∀ id, s.Counts id → d'.system.db.Approved id) ∧
      row ∈ d'.candidates.rows ∧ Undecided d'.system.db row.id := by
  have hdecisions : d'.system.db.decisions = d.system.db.decisions := by rw [hframe]
  have hscores : d'.system.db.epochScores = d.system.db.epochScores := by rw [hframe]
  refine ⟨?_, ?_, ?_, ?_⟩
  · rw [hdecisions, hins.rows rfl]
    intro decision hdecision
    obtain ⟨r, hr, hid⟩ := h.decisions decision hdecision
    exact ⟨r, List.mem_append_left _ hr, hid⟩
  · unfold Db.Approved
    rw [hscores, hdecisions]
    exact h.scores
  · rw [hins.rows rfl]
    exact List.mem_append_right _ (List.mem_singleton_self row)
  · unfold Undecided
    rw [hdecisions]
    intro decision hdecision hid
    obtain ⟨r, hr, hr'⟩ := h.decisions decision hdecision
    exact (hins.fresh rfl).1 r hr (hr'.trans hid)

theorem Consistent.before (h : Consistent zod d task) (hstored : Stored zod o.database o.task)
    (heff : Task.Before d task o) : Consistent zod o.database o.task := by
  cases heff with
  | quiet task task' d' hsystem hplain hplain' =>
    have hcandidates : d'.candidates = d.candidates := congrArg (fun s => s.db.candidates) hsystem
    refine ⟨hstored, ?_, ?_, hplain'.held _⟩
    · rw [hcandidates, hsystem]
      exact h.decisions
    · rw [hsystem]
      exact h.scores
  | candidate e c d' inserted hins hframe =>
    cases inserted with
    | true =>
      obtain ⟨hdecisions, hscores, hrow, hund⟩ := h.inserts hins hframe
      exact ⟨hstored, hdecisions, hscores, _, hrow, rfl, hund⟩
    | false =>
      obtain ⟨-, r, hr, hkey⟩ := hins.taken rfl
      obtain ⟨row, hrow, rfl⟩ := h.ok.event e rfl
      exact absurd hkey (h.pending _ row rfl hrow r hr)
  | started e r hr hkey =>
    obtain ⟨r', hr', hkey', hund⟩ := h.held
    have hread := r.event.readBack_id
    rw [Table.eq_of_key hr' hr (hkey'.trans hkey.symm), CandidateRow.id, ← hread] at hund
    exact ⟨hstored, h.decisions, h.scores, ⟨r, hr, hread.symm, r.event.readBack_epochKey.symm⟩, hund⟩
  | missing e hnone => exact ⟨hstored, h.decisions, h.scores, trivial⟩
  | gap c rest d' hins hframe =>
    obtain ⟨hdecisions, hscores, hrow, hund⟩ := h.inserts hins hframe
    exact ⟨hstored, hdecisions, hscores, ⟨_, hrow, rfl, rfl⟩, hund⟩

/-- an approved candidate stays one when only scores or commitments are written -/
theorem Gated.congr {db db' : Db} {c : CandidateEvent} (h : Gated db c) (hc : db'.candidates = db.candidates)
    (hd : db'.decisions = db.decisions) : Gated db' c := by
  obtain ⟨hrecords, hdecision⟩ := h
  unfold Gated Db.Records
  rw [hc, hd]
  exact ⟨hrecords, hdecision⟩

theorem Gated.approved {db : Db} {c : CandidateEvent} (h : Gated db c) : db.Approved c.id := by
  obtain ⟨-, decision, hdecision, hkey, happrove⟩ := h
  exact ⟨decision, hdecision, congrArg Prod.fst hkey, happrove⟩

/-- the score of an approved candidate, from the votes of its query -/
theorem Gated.counted {db : Db} {c : CandidateEvent} (h : Gated db c) {row : Pipeline.ScoreRow}
    (hkey : row.key = c.epochKey) (hcounted : row.counted =
      (Pipeline.selectApproved db c.zoneId (Pipeline.floorToEpoch c.windowEnd)).map CandidateEvent.vote) :
    row.counted = (Pipeline.selectApproved db row.zoneId row.epochStart).map CandidateEvent.vote ∧
      row.Counts c.id := by
  obtain ⟨hzone, hstart⟩ := Prod.mk.inj hkey
  rw [← hzone, ← hstart] at hcounted
  refine ⟨hcounted, ?_⟩
  obtain ⟨r, hr, hid, hepoch⟩ := h.1
  rw [← hid]
  refine Pipeline.ScoreRow.counts_of_approved hcounted hr (hepoch.trans hkey.symm) ?_
  rw [hid]
  exact h.approved

theorem Consistent.advance (h : Consistent zod d task) (hstored : Stored zod o.database o.task)
    (heff : Task.Advance d task o) : Consistent zod o.database o.task := by
  cases heff with
  | decided c rest d' phase decision hevidence hframe hputs hkey hphase =>
    obtain ⟨hrecords, hund⟩ := h.held
    have hcandidates : d'.system.db.candidates = d.system.db.candidates := by rw [hframe]
    have hscores : d'.system.db.epochScores = d.system.db.epochScores := by rw [hframe]
    have hid : decision.candidateEventId = c.id := congrArg Prod.fst hkey
    have happroved : ∀ id, d.system.db.Approved id → d'.system.db.Approved id := by
      rintro id ⟨old, hold, hrest⟩
      refine ⟨old, hputs.of_ne hold fun he => hund old hold ?_, hrest⟩
      exact (congrArg Prod.fst he).trans hid
    refine ⟨hstored, fun x hx => ?_, ?_, ?_⟩
    · show ∃ r ∈ d'.system.db.candidates.rows, _
      rw [hcandidates]
      rcases hputs.cases hx with ⟨hold, -⟩ | rfl
      · exact h.decisions x hold
      · obtain ⟨r, hr, hr', -⟩ := hrecords
        exact ⟨r, hr, hr'.trans hid.symm⟩
    · rw [hscores]
      exact fun s hs id hcounts => happroved id (h.scores s hs id hcounts)
    · rcases hphase with ⟨happrove, now, rfl⟩ | ⟨-, rfl⟩
      · refine ⟨rfl, ⟨?_, decision, hputs.self, hkey, happrove⟩, ?_⟩
        · unfold Db.Records
          rw [hcandidates]
          exact hrecords
        · unfold Uncounted
          rw [hscores]
          intro s hs hcounts
          obtain ⟨old, hold, hold', -⟩ := h.scores s hs c.id hcounts
          exact hund old hold hold'
      · exact resume_held _ rest
  | selected c byWorker now rest =>
    obtain ⟨rfl, hgated, huncounted⟩ := h.held
    exact ⟨hstored, h.decisions, h.scores, hgated, huncounted, rfl⟩
  | scored c votes now rest d' row hevidence hframe hputs hkey hcounted hkeeps =>
    obtain ⟨hgated, -, rfl⟩ := h.held
    have hcandidates : d'.system.db.candidates = d.system.db.candidates := by rw [hframe]
    have hdecisions : d'.system.db.decisions = d.system.db.decisions := by rw [hframe]
    obtain ⟨hcounted, hcounts⟩ := hgated.counted hkey hcounted
    refine ⟨hstored, ?_, fun s hs id hid => ?_, ?_⟩
    · show ∀ decision ∈ _, ∃ r ∈ d'.system.db.candidates.rows, _
      rw [hdecisions, hcandidates]
      exact h.decisions
    · show d'.system.db.Approved id
      unfold Db.Approved
      rw [hdecisions]
      rcases hputs.cases hs with ⟨hold, -⟩ | rfl
      · exact h.scores s hold id hid
      · exact (hid.approved hcounted).1
    · exact ⟨hgated.congr hcandidates hdecisions, row, hputs.self, rfl, hkey, hcounts⟩
  | committed c es now rest d' row hevidence hframe hputs hkey =>
    have hcandidates : d'.system.db.candidates = d.system.db.candidates := by rw [hframe]
    have hdecisions : d'.system.db.decisions = d.system.db.decisions := by rw [hframe]
    have hscores : d'.system.db.epochScores = d.system.db.epochScores := by rw [hframe]
    refine ⟨hstored, ?_, ?_, resume_held _ rest⟩
    · show ∀ decision ∈ _, ∃ r ∈ d'.system.db.candidates.rows, _
      rw [hdecisions, hcandidates]
      exact h.decisions
    · unfold Db.Approved
      rw [hdecisions, hscores]
      exact h.scores

/-! ## a step keeps the tables settled -/

/-- a complete candidate, seen from tables in which only candidates were added -/
theorem Complete.congr {db db' : Db} {r : CandidateRow} (h : Complete db r) (hd : db'.decisions = db.decisions)
    (hs : db'.epochScores = db.epochScores) (hk : db'.commitments = db.commitments) : Complete db' r := by
  unfold Complete Db.Approved at *
  rw [hd, hs, hk]
  exact h

/-- a new candidate is the only one that may be incomplete -/
theorem Settled.inserts (h : Settled d task) (hplain : task.Plain) {row : CandidateRow}
    (hins : Inserts d d' row true) (hframe : d'.system.db = { d.system.db with candidates := d'.candidates })
    {r : CandidateRow} (hr : r ∈ d'.candidates.rows) : r = row ∨ Complete d'.system.db r := by
  rw [hins.rows rfl] at hr
  rcases List.mem_append.mp hr with hold | hnew
  · refine .inr (((h.candidates r hold).resolve_left (hplain.not_inHand r)).congr ?_ ?_ ?_)
    · rw [hframe]
    · rw [hframe]
    · rw [hframe]
  · exact .inl (List.mem_singleton.mp hnew)

theorem Settled.before (hc : Consistent zod d task) (h : Settled d task) (heff : Task.Before d task o) :
    ∀ r ∈ o.database.candidates.rows, o.task.InHand r ∨ Complete o.database.system.db r := by
  cases heff with
  | quiet task task' d' hsystem hplain hplain' =>
    have hcandidates : d'.candidates = d.candidates := congrArg (fun s => s.db.candidates) hsystem
    show ∀ r ∈ d'.candidates.rows, task'.InHand r ∨ Complete d'.system.db r
    rw [hcandidates, hsystem]
    exact fun r hr => .inr ((h.candidates r hr).resolve_left (hplain.not_inHand r))
  | candidate e c d' inserted hins hframe =>
    cases inserted with
    | true => exact fun r hr => (h.inserts trivial hins hframe hr).imp_left (congrArg CandidateRow.candidateKey)
    | false =>
      obtain ⟨-, r, hr, hkey⟩ := hins.taken rfl
      obtain ⟨row, hrow, rfl⟩ := hc.ok.event e rfl
      exact absurd hkey (hc.pending _ row rfl hrow r hr)
  | started e r hr hkey =>
    refine fun r' hr' => (h.candidates r' hr').imp_left fun hhand => ?_
    have hkey' : r'.candidateKey = candidateKeyFor e := hhand
    rw [Table.eq_of_key hr' hr (hkey'.trans hkey.symm)]
    exact r.event.readBack_id.symm
  | missing e hnone => exact fun r hr => .inr ((h.candidates r hr).resolve_left (hnone r hr))
  | gap c rest d' hins hframe =>
    exact fun r hr => (h.inserts trivial hins hframe hr).imp_left (congrArg CandidateRow.id)

theorem Settled.advance (hc : Consistent zod d task) (h : Settled d task) (heff : Task.Advance d task o) :
    ∀ r ∈ o.database.candidates.rows, o.task.InHand r ∨ Complete o.database.system.db r := by
  cases heff with
  | decided c rest d' phase decision hevidence hframe hputs hkey hphase =>
    obtain ⟨-, hund⟩ := hc.held
    have hcandidates : d'.candidates = d.candidates := by
      show d'.system.db.candidates = d.system.db.candidates
      rw [hframe]
    have hscores : d'.system.db.epochScores = d.system.db.epochScores := by rw [hframe]
    have hcommitments : d'.system.db.commitments = d.system.db.commitments := by rw [hframe]
    have hid : decision.candidateEventId = c.id := congrArg Prod.fst hkey
    show ∀ r ∈ d'.candidates.rows, (afterStatement phase rest).InHand r ∨ Complete d'.system.db r
    rw [hcandidates]
    intro r hr
    by_cases hrc : r.id = c.id
    · rcases hphase with ⟨-, now, rfl⟩ | ⟨hno, rfl⟩
      · exact .inl (congrArg some hrc.symm)
      · refine .inr ⟨⟨decision, hputs.self, ?_⟩, ?_⟩
        · rw [hkey, hrc]
        · rintro ⟨x, hx, hxid, happrove⟩
          rcases hputs.cases hx with ⟨hold, -⟩ | rfl
          · exact absurd (hxid.trans hrc) (hund x hold)
          · exact absurd happrove hno
    · obtain ⟨⟨x, hx, hxkey⟩, hscore⟩ := (h.candidates r hr).resolve_left hrc
      refine .inr ⟨⟨x, hputs.of_ne hx fun he => hrc ?_, hxkey⟩, ?_⟩
      · exact (congrArg Prod.fst (hxkey.symm.trans (he.trans hkey)) :)
      · rw [hscores, hcommitments]
        rintro ⟨x, hx, hxid, happrove⟩
        rcases hputs.cases hx with ⟨hold, -⟩ | rfl
        · exact hscore ⟨x, hold, hxid, happrove⟩
        · exact absurd (hxid.symm.trans hid) hrc
  | selected c byWorker now rest => exact h.candidates
  | scored c votes now rest d' row hevidence hframe hputs hkey hcounted hkeeps =>
    obtain ⟨hgated, -, rfl⟩ := hc.held
    have hcandidates : d'.candidates = d.candidates := by
      show d'.system.db.candidates = d.system.db.candidates
      rw [hframe]
    have hdecisions : d'.system.db.decisions = d.system.db.decisions := by rw [hframe]
    have hcommitments : d'.system.db.commitments = d.system.db.commitments := by rw [hframe]
    obtain ⟨hcounted, -⟩ := hgated.counted hkey hcounted
    show ∀ r ∈ d'.candidates.rows, _
    rw [hcandidates]
    refine fun r hr => (h.candidates r hr).imp_right fun hcomplete => ?_
    unfold Complete Db.Approved at hcomplete ⊢
    rw [hdecisions, hcommitments]
    refine ⟨hcomplete.1, fun happroved => ?_⟩
    obtain ⟨s, hs, hskey, hscounts, k, hk, hkid⟩ := hcomplete.2 happroved
    by_cases hsame : s.key = row.key
    · refine ⟨row, hputs.self, hsame.symm.trans hskey, ?_, k, hk, hkid.trans (hkeeps s hs hsame)⟩
      exact Pipeline.ScoreRow.counts_of_approved hcounted hr (hskey.symm.trans hsame) happroved
    · exact ⟨s, hputs.of_ne hs hsame, hskey, hscounts, k, hk, hkid⟩
  | committed c es now rest d' row hevidence hframe hputs hkey =>
    obtain ⟨⟨⟨r₀, hr₀, hid₀, hepoch₀⟩, decision, hdecision, hdkey, -⟩, s₀, hs₀, rfl, hskey₀, hcounts₀⟩ := hc.held
    have hcandidates : d'.candidates = d.candidates := by
      show d'.system.db.candidates = d.system.db.candidates
      rw [hframe]
    have hdecisions : d'.system.db.decisions = d.system.db.decisions := by rw [hframe]
    have hscores : d'.system.db.epochScores = d.system.db.epochScores := by rw [hframe]
    show ∀ r ∈ d'.candidates.rows, _
    rw [hcandidates]
    intro r hr
    refine .inr ?_
    unfold Complete Db.Approved
    rw [hdecisions, hscores]
    rcases h.candidates r hr with hhand | hcomplete
    · have hid : c.id = r.id := Option.some.inj hhand
      have hsame : r₀ = r := Table.eq_of_id hr₀ hr (hid₀.trans hid)
      refine ⟨⟨decision, hdecision, hdkey.trans (by rw [hid])⟩, fun _ => ?_⟩
      refine ⟨s₀, hs₀, hskey₀.trans (hsame ▸ hepoch₀.symm), hid ▸ hcounts₀, row, hputs.self, hkey⟩
    · refine ⟨hcomplete.1, fun happroved => ?_⟩
      obtain ⟨s, hs, hskey, hscounts, k, hk, hkid⟩ := hcomplete.2 happroved
      by_cases hsame : k.epochScoreId = row.epochScoreId
      · exact ⟨s, hs, hskey, hscounts, row, hputs.self, hsame.symm.trans hkid⟩
      · exact ⟨s, hs, hskey, hscounts, k, hputs.of_ne hk hsame, hkid⟩

variable [JsText.Runtime]

theorem Settled.stored (hc : Consistent zod d task) (h : Settled d task) (heff : Task.Effect d task o) :
    ∀ e ∈ o.database.evidence.values, e.status ≠ .unknown →
      o.task.pending = some e.idempotencyKey ∨
        ∃ r ∈ o.database.candidates.rows, r.candidateKey = candidateKeyFor e := by
  have hgrow : ∀ {e : EvidenceEvent}, (∃ r ∈ d.candidates.rows, r.candidateKey = candidateKeyFor e) →
      ∃ r ∈ o.database.candidates.rows, r.candidateKey = candidateKeyFor e :=
    fun ⟨r, hr, hkey⟩ => ⟨r, heff.grows hr, hkey⟩
  -- the task that is about to store the candidate of the row
  have hrow : ∀ {ev e : EvidenceEvent}, task.event = some ev → task.pending = some ev.idempotencyKey →
      e ∈ d.evidence.values → e.status ≠ .unknown →
        ev = mapEvidenceRow e ∨ ∃ r ∈ o.database.candidates.rows, r.candidateKey = candidateKeyFor e := by
    intro ev e hev hpend he hknown
    refine (h.evidence e he hknown).imp (fun hkey => ?_) hgrow
    exact hc.event_eq hev he (Option.some.inj (hpend.symm.trans hkey))
  have hnone : task.pending = none → ∀ e ∈ d.evidence.values, e.status ≠ .unknown →
      ∃ r ∈ o.database.candidates.rows, r.candidateKey = candidateKeyFor e := by
    intro hpend e he hknown
    refine hgrow ((h.evidence e he hknown).resolve_left ?_)
    rw [hpend]
    exact (Option.some_ne_none _).symm
  cases heff with
  | evidence input row hfree hkey hzone hid =>
    intro e he hknown
    have hvalues := OrderedMap.values_set_of_none (v := row) hfree
    rcases List.mem_append.mp (hvalues ▸ he) with hold | hnew
    · exact .inr (hnone rfl e hold hknown)
    · rw [List.mem_singleton.mp hnew]
      exact .inl (congrArg some hkey.symm)
  | taken input hrow => exact fun e he hknown => .inr (hnone rfl e he hknown)
  | found key row hget =>
    intro e he hknown
    refine (h.evidence e he hknown).imp_left fun hkey => ?_
    exact (congrArg some (hc.row key row hget).1).trans hkey
  | detected ev c rank id now hcand => exact h.evidence
  | unknown ev hunknown =>
    intro e he hknown
    refine .inr ((hrow rfl rfl he hknown).resolve_left fun hev => hknown ?_)
    rw [hev] at hunknown
    exact hunknown
  | candidate ev c d' inserted hins =>
    show ∀ e ∈ d'.evidence.values, _
    rw [hins.evidence]
    intro e he hknown
    refine .inr ((hrow rfl rfl he hknown).elim (fun hev => ?_) id)
    have hkey : candidateKeyFor ev = candidateKeyFor e := by
      rw [hev]
      rfl
    cases inserted with
    | true =>
      refine ⟨⟨candidateKeyFor ev, c⟩, ?_, hkey⟩
      show _ ∈ d'.candidates.rows
      rw [hins.rows rfl]
      exact List.mem_append_right _ (List.mem_singleton_self _)
    | false =>
      obtain ⟨rfl, r, hr, hr'⟩ := hins.taken rfl
      exact ⟨r, hr, hr'.trans hkey⟩
  | started ev r hr hkey => exact fun e he hknown => .inr (hnone rfl e he hknown)
  | missing ev hmissing => exact fun e he hknown => .inr (hnone rfl e he hknown)
  | gap c rest d' hins =>
    show ∀ e ∈ d'.evidence.values, _
    rw [hins.evidence]
    exact fun e he hknown => .inr (hnone rfl e he hknown)
  | quiet task task' d' hevidence hcandidates hidle htask =>
    show ∀ e ∈ d'.evidence.values, _
    rw [hevidence]
    refine fun e he hknown => .inr (hnone ?_ e he hknown)
    rcases htask with hquiet | ⟨now, rfl⟩ | ⟨key, rfl⟩
    · exact hquiet.nothing.2.2
    · rfl
    · rfl

variable {draw : StepDraw}

theorem Consistent.statement (h : Consistent zod d task) (ho : task.step d draw = some o) :
    Consistent zod o.database o.task := by
  have hstored := h.toStored.effect (Task.step_effect h.ok.phase ho)
  exact (Task.step_cases h.ok.phase ho).elim (h.before hstored) (h.advance hstored)

theorem Settled.statement (hc : Consistent zod d task) (h : Settled d task) (ho : task.step d draw = some o) :
    Settled o.database o.task where
  evidence := h.stored hc (Task.step_effect hc.ok.phase ho)
  candidates := (Task.step_cases hc.ok.phase ho).elim (h.before hc) (h.advance hc)

/-! ## a failure -/

omit [JsText.Runtime] in
theorem Task.failed_pending (task : Task) : task.failed.pending = none := task.failed_idle.nothing.2.2

omit [JsText.Runtime] in
/-- a row that is to have a candidate has none after the failure -/
theorem not_settled_of_pending (h : Consistent zod d task) {e : EvidenceEvent} (he : e ∈ d.evidence.values)
    (hknown : e.status ≠ .unknown) (hpend : task.pending = some e.idempotencyKey) :
    ¬ Settled d task.failed := by
  intro hs
  rcases hs.evidence e he hknown with hkey | ⟨r, hr, hkey⟩
  · rw [task.failed_pending] at hkey
    cases hkey
  · exact h.pending _ e hpend (h.toKeyed.get?_eq he) r hr hkey

omit [JsText.Runtime] in
/-- a candidate that is not complete is in nobody's hands after the failure -/
theorem not_settled_of_incomplete {r : CandidateRow} (hr : r ∈ d.candidates.rows)
    (hno : ¬ Complete d.system.db r) : ¬ Settled d task.failed :=
  fun hs => (hs.candidates r hr).elim (task.failed_plain.not_inHand r) hno

omit [JsText.Runtime] in
theorem not_complete_of_undecided {db : Db} {r : CandidateRow} (h : Undecided db r.id) : ¬ Complete db r := by
  rintro ⟨⟨decision, hdecision, hkey⟩, -⟩
  exact h decision hdecision (congrArg Prod.fst hkey)

omit [JsText.Runtime] in
theorem not_complete_of_uncounted {db : Db} {r : CandidateRow} (happroved : db.Approved r.id)
    (h : Uncounted db r.id) : ¬ Complete db r := by
  rintro ⟨-, hscore⟩
  obtain ⟨s, hs, -, hcounts, -⟩ := hscore happroved
  exact h s hs hcounts

omit [JsText.Runtime] in
/-- a failure of a task with nothing in its hands -/
theorem Settled.of_plain (h : Settled d task) (hpend : task.pending = none) (hplain : task.Plain)
    (task' : Task) : Settled d task' where
  evidence e he hknown := by
    refine .inr ((h.evidence e he hknown).resolve_left ?_)
    rw [hpend]
    exact (Option.some_ne_none _).symm
  candidates r hr := .inr ((h.candidates r hr).resolve_left (hplain.not_inHand r))

omit [JsText.Runtime] in
/-- **A failure leaves everything complete iff the task is not exposed.** -/
theorem Settled.failed_iff (hc : Consistent zod d task) (h : Settled d task) :
    ¬ task.Exposed d ↔ Settled d task.failed := by
  have hquiet : task.pending = none → task.Plain → ¬ task.Exposed d → (¬ task.Exposed d ↔ Settled d task.failed) :=
    fun hpend hplain hno => iff_of_true hno (h.of_plain hpend hplain _)
  have hbroken : task.Exposed d → ¬ Settled d task.failed → (¬ task.Exposed d ↔ Settled d task.failed) :=
    fun hexposed hno => iff_of_false (not_not.mpr hexposed) hno
  cases task with
  | insertEvidence input => exact hquiet rfl trivial id
  | replyDuplicate e => exact hquiet rfl trivial id
  | listEvidence now => exact hquiet rfl trivial id
  | recordGaps candidates => exact hquiet rfl trivial id
  | finished => exact hquiet rfl trivial id
  | findEvidence key inserted =>
    cases inserted with
    | false => exact hquiet rfl trivial id
    | true =>
      by_cases hexposed : (Task.findEvidence key true).Exposed d
      · obtain ⟨e, he, hknown⟩ := hexposed
        have hkey : e.idempotencyKey = key := (hc.row key e he).1
        refine hbroken ⟨e, he, hknown⟩ (not_settled_of_pending hc (OrderedMap.mem_values.mpr ⟨key, he⟩) hknown ?_)
        exact congrArg some hkey.symm
      · refine iff_of_true hexposed ⟨fun e he hknown => ?_, fun r hr => h.candidates r hr⟩
        refine .inr ((h.evidence e he hknown).resolve_left fun hkey => hexposed ⟨e, ?_, hknown⟩)
        rw [Option.some.inj hkey]
        exact hc.toKeyed.get?_eq he
  | readRecent event =>
    obtain ⟨row, hrow, rfl⟩ := hc.ok.event event rfl
    have hmem := OrderedMap.mem_values.mpr ⟨_, hrow⟩
    by_cases hunknown : row.status = .unknown
    · refine iff_of_true (not_not.mpr hunknown) ⟨fun e he hknown => ?_, fun r hr => h.candidates r hr⟩
      refine .inr ((h.evidence e he hknown).resolve_left fun hkey => hknown ?_)
      rw [hc.toKeyed.get?_eq he |>.symm.trans (Option.some.inj hkey ▸ hrow) |> Option.some.inj]
      exact hunknown
    · exact hbroken hunknown (not_settled_of_pending hc hmem hunknown rfl)
  | insertCandidate event c =>
    obtain ⟨row, hrow, rfl⟩ := hc.ok.event event rfl
    have hmem := OrderedMap.mem_values.mpr ⟨_, hrow⟩
    exact hbroken trivial (not_settled_of_pending hc hmem (hc.ok.known (mapEvidenceRow row) c rfl) rfl)
  | findCandidate event =>
    obtain ⟨r, hr, -, hund⟩ := hc.held
    exact hbroken trivial (not_settled_of_incomplete hr (not_complete_of_undecided hund))
  | decide c rest =>
    obtain ⟨⟨r, hr, hid, -⟩, hund⟩ := hc.held
    rw [← hid] at hund
    exact hbroken trivial (not_settled_of_incomplete hr (not_complete_of_undecided hund))
  | score phase rest =>
    cases phase with
    | started op => exact hc.held.elim
    | finished c => exact hc.held.elim
    | decided c byWorker now =>
      obtain ⟨-, hgated, huncounted⟩ := hc.held
      obtain ⟨r, hr, hid, -⟩ := hgated.1
      have happroved := hgated.approved
      rw [← hid] at huncounted happroved
      exact hbroken trivial (not_settled_of_incomplete hr (not_complete_of_uncounted happroved huncounted))
    | selected c votes now =>
      obtain ⟨hgated, huncounted, -⟩ := hc.held
      obtain ⟨r, hr, hid, -⟩ := hgated.1
      have happroved := hgated.approved
      rw [← hid] at huncounted happroved
      exact hbroken trivial (not_settled_of_incomplete hr (not_complete_of_uncounted happroved huncounted))
    | scored c es now =>
      obtain ⟨hgated, s, hs, rfl, hskey, hcounts⟩ := hc.held
      have happroved := hgated.approved
      obtain ⟨⟨r, hr, hid, hepoch⟩, decision, hdecision, hdkey, -⟩ := hgated
      rw [← hid] at happroved hcounts hdkey
      by_cases hexposed : (Task.score (.scored c s.toEpochScore now) rest).Exposed d
      · refine hbroken hexposed (not_settled_of_incomplete hr ?_)
        rintro ⟨-, hscore⟩
        obtain ⟨s', hs', hskey', -, k, hk, hkid⟩ := hscore happroved
        rw [Table.eq_of_key hs' hs (hskey'.trans (hepoch.trans hskey.symm))] at hkid
        exact hexposed k hk hkid
      · have hcommitted : ∃ k ∈ d.system.db.commitments.rows, k.epochScoreId = s.id := by
          by_contra hno
          exact hexposed fun k hk hkid => hno ⟨k, hk, hkid⟩
        refine iff_of_true hexposed ⟨fun e he hknown => .inr ?_, fun r' hr' => .inr ?_⟩
        · exact (h.evidence e he hknown).resolve_left (Option.some_ne_none _).symm
        · refine (h.candidates r' hr').elim (fun hhand => ?_) id
          have hsame : r' = r := Table.eq_of_id hr' hr ((Option.some.inj hhand).symm.trans hid.symm)
          rw [hsame]
          exact ⟨⟨decision, hdecision, hdkey⟩, fun _ => ⟨s, hs, hskey.trans hepoch.symm, hcounts, hcommitted⟩⟩

/-! ## runs -/

variable {s s' t : Server} {a : Server.Action}

/-- the step is not a failure of an exposed attempt -/
def Server.Spares (s : Server) : Server.Action → Prop
  | .fail => ¬ s.task.Exposed s.database
  | _ => True

instance (s : Server) : (a : Server.Action) → Decidable (s.Spares a)
  | .fail => inferInstanceAs (Decidable (¬ s.task.Exposed s.database))
  | .deliver _ => isTrue trivial
  | .sweep _ => isTrue trivial
  | .statement _ => isTrue trivial

omit [JsText.Runtime] in
theorem Consistent.begin (h : Consistent zod d .finished) (hfresh : task.Fresh zod) (hplain : task.Plain) :
    Consistent zod d task where
  row := h.row
  origin := h.origin
  ok := hfresh.nothing.1
  pending key row hpend := by
    have howned := Task.owned_of_pending hpend
    rw [(hfresh.nothing (d := d)).2.1] at howned
    cases howned
  decisions := h.decisions
  scores := h.scores
  held := hplain.held _

theorem Consistent.next (h : Consistent zod s.database s.task) (hnext : s.next zod a = some s') :
    Consistent zod s'.database s'.task := by
  cases Server.next_effect hnext with
  | deliver input hidle hzone =>
    rw [hidle] at h
    exact h.begin hzone trivial
  | sweep now hidle =>
    rw [hidle] at h
    exact h.begin trivial trivial
  | statement draw o ho => exact h.statement ho
  | fail hbusy => exact ⟨h.toStored.of_idle s.task.failed_idle, h.decisions, h.scores, s.task.failed_held _⟩

/-- a step keeps the tables settled iff it is not a failure of an exposed attempt -/
theorem Settled.next_iff (hc : Consistent zod s.database s.task) (h : Settled s.database s.task)
    (hnext : s.next zod a = some s') : s.Spares a ↔ Settled s'.database s'.task := by
  cases Server.next_effect hnext with
  | deliver input hidle hzone =>
    rw [hidle] at h
    exact iff_of_true trivial (h.of_plain rfl trivial _)
  | sweep now hidle =>
    rw [hidle] at h
    exact iff_of_true trivial (h.of_plain rfl trivial _)
  | statement draw o ho => exact iff_of_true trivial (h.statement hc ho)
  | fail hbusy => exact h.failed_iff hc

omit [JsText.Runtime] in
theorem Consistent.start (zod : Zod) : Consistent zod Server.start.database Server.start.task where
  row _ _ h := nomatch h
  origin _ h := absurd h List.not_mem_nil
  ok := Task.Idle.ok (show Task.finished.Idle from trivial)
  pending _ _ h := nomatch h
  decisions _ h := absurd h List.not_mem_nil
  scores _ h := absurd h List.not_mem_nil
  held := trivial

omit [JsText.Runtime] in
theorem Settled.start : Settled Server.start.database Server.start.task where
  evidence _ h := absurd h List.not_mem_nil
  candidates _ h := absurd h List.not_mem_nil

theorem Consistent.run {actions : List Server.Action} (h : Consistent zod s.database s.task)
    (hrun : Runs.run (Server.next zod) s actions = some s') : Consistent zod s'.database s'.task :=
  Runs.run_inv_all (fun s => Consistent zod s.database s.task) (fun _ _ _ h hnext => h.next hnext) h hrun

/-! ## an attempt without a failure -/

/-- the rows of evidence and of candidates stay -/
theorem Server.next_keeps (h : Consistent zod s.database s.task) (hnext : s.next zod a = some s') :
    (∀ key row, s.database.evidence.get? key = some row → s'.database.evidence.get? key = some row) ∧
      ∀ r ∈ s.database.candidates.rows, r ∈ s'.database.candidates.rows := by
  cases Server.next_effect hnext with
  | statement draw o ho =>
    have heff := Task.step_effect h.ok.phase ho
    exact ⟨fun key row hrow => heff.keeps hrow, fun r hr => heff.grows hr⟩
  | deliver input hidle hzone => exact ⟨fun _ _ hrow => hrow, fun _ hr => hr⟩
  | sweep now hidle => exact ⟨fun _ _ hrow => hrow, fun _ hr => hr⟩
  | fail hbusy => exact ⟨fun _ _ hrow => hrow, fun _ hr => hr⟩

/-- the gap candidates that a sweep is still to record -/
def Task.remaining : Task → List CandidateEvent
  | .recordGaps candidates => candidates
  | .decide _ rest => rest
  | .score _ rest => rest
  | _ => []

omit [JsText.Runtime] in
theorem resume_remaining (rest : List CandidateEvent) : (resume rest).remaining = rest := by
  cases rest with
  | nil => rfl
  | cons c rest => rfl

omit [JsText.Runtime] in
theorem afterStatement_remaining (phase : Phase) (rest : List CandidateEvent) :
    (afterStatement phase rest).remaining = rest := by
  cases phase with
  | finished c => exact resume_remaining rest
  | _ => rfl

/-- a gap candidate of a sweep has a row of its key, or is still to be recorded -/
theorem recorded_step (hphase : ∀ phase rest, task = .score phase rest → Decided phase)
    (ho : task.step d draw = some o) {c : CandidateEvent}
    (hc : (∃ r ∈ d.candidates.rows, r.candidateKey = Detection.heartbeatGapKey c) ∨ c ∈ task.remaining) :
    (∃ r ∈ o.database.candidates.rows, r.candidateKey = Detection.heartbeatGapKey c) ∨ c ∈ o.task.remaining := by
  have hgrow : (∃ r ∈ d.candidates.rows, r.candidateKey = Detection.heartbeatGapKey c) →
      ∃ r ∈ o.database.candidates.rows, r.candidateKey = Detection.heartbeatGapKey c :=
    fun ⟨r, hr, hkey⟩ => ⟨r, (Task.step_effect hphase ho).grows hr, hkey⟩
  refine hc.elim (fun hrow => .inl (hgrow hrow)) fun hmem => ?_
  cases task with
  | recordGaps candidates =>
    cases candidates with
    | nil => cases ho
    | cons c₀ rest =>
      obtain ⟨⟨d', recorded⟩, hins, rfl⟩ := Option.map_eq_some_iff.mp ho
      have hins := insertCandidate_inserts hins
      cases recorded with
      | true =>
        refine (List.mem_cons.mp hmem).imp (fun he => ?_) id
        refine ⟨⟨Detection.heartbeatGapKey c₀, c₀⟩, ?_, by rw [he]⟩
        show _ ∈ d'.candidates.rows
        rw [hins.rows rfl]
        exact List.mem_append_right _ (List.mem_singleton_self _)
      | false =>
        obtain ⟨rfl, r, hr, hkey⟩ := hins.taken rfl
        refine (List.mem_cons.mp hmem).imp (fun he => ⟨r, hr, ?_⟩) fun hrest => ?_
        · rw [he]
          exact hkey
        · show c ∈ (resume rest).remaining
          rw [resume_remaining]
          exact hrest
  | decide c₀ rest =>
    obtain ⟨⟨system, phase⟩, -, rfl⟩ := Option.map_eq_some_iff.mp ho
    refine .inr ?_
    show c ∈ (afterStatement phase rest).remaining
    rw [afterStatement_remaining]
    exact hmem
  | score phase rest =>
    obtain ⟨⟨system, phase'⟩, -, rfl⟩ := Option.map_eq_some_iff.mp ho
    refine .inr ?_
    show c ∈ (afterStatement phase' rest).remaining
    rw [afterStatement_remaining]
    exact hmem
  | _ => exact absurd hmem List.not_mem_nil

/-- the attempt sends its statements to the end, and none of them fails -/
def Server.Attempt (zod : Zod) (s : Server) (first : Server.Action) (draws : List StepDraw) (t : Server) : Prop :=
  Runs.run (Server.next zod) s (first :: draws.map .statement) = some t ∧ t.task = .finished

/-- what statements keep holds at the end of the attempt -/
theorem run_statements {P : Server → Prop} (hstep : ∀ d task draw o, Consistent zod d task →
      P ⟨d, task⟩ → task.step d draw = some o → P ⟨o.database, o.task⟩) {draws : List StepDraw}
    (hc : Consistent zod s.database s.task) (hs : P s)
    (hrun : Runs.run (Server.next zod) s (draws.map .statement) = some t) : P t := by
  have hok : Runs.Along (Server.next zod) (fun _ a => ∃ draw, a = .statement draw) s (draws.map .statement) := by
    refine Runs.along_of_forall (fun a ha s => ?_) s
    obtain ⟨draw, -, rfl⟩ := List.mem_map.mp ha
    exact ⟨draw, rfl⟩
  refine (Runs.run_inv (fun s => Consistent zod s.database s.task ∧ P s) ?_ ⟨hc, hs⟩ hok hrun).2
  intro s a s' hs ha hnext
  obtain ⟨draw, rfl⟩ := ha
  refine ⟨hs.1.next hnext, ?_⟩
  obtain ⟨o, ho, rfl⟩ := Option.map_eq_some_iff.mp hnext
  exact hstep s.database s.task draw o hs.1 hs.2 ho

theorem Server.Attempt.delivered (hc : Consistent zod s.database s.task) {input : DatabaseEvidence}
    {draws : List StepDraw} (h : s.Attempt zod (.deliver input) draws t) :
    t.database.evidence.get? input.idempotencyKey ≠ none := by
  obtain ⟨hrun, hend⟩ := h
  obtain ⟨s₁, hbegin, hrun⟩ := Runs.run_cons_eq_some hrun
  have hc₁ := hc.next hbegin
  have htask : s₁.task = .insertEvidence input := by
    cases Server.next_effect hbegin with
    | deliver _ hidle hzone => rfl
  have hmain : t.task = .insertEvidence input ∨ t.database.evidence.get? input.idempotencyKey ≠ none := by
    refine run_statements (P := fun s => s.task = .insertEvidence input ∨
      s.database.evidence.get? input.idempotencyKey ≠ none) ?_ hc₁ (.inl htask) hrun
    intro d task draw o hc hor ho
    have heff := Task.step_effect hc.ok.phase ho
    refine .inr (hor.elim (fun ht => ?_) fun hrow => ?_)
    · have ht : task = .insertEvidence input := ht
      rw [ht] at heff
      exact heff.begun
    · obtain ⟨row, hrow⟩ := Option.ne_none_iff_exists'.mp hrow
      rw [heff.keeps hrow]
      exact Option.some_ne_none row
  refine hmain.resolve_left fun ht => ?_
  rw [hend] at ht
  cases ht

theorem Server.Attempt.recorded (hc : Consistent zod s.database s.task) {now : Int} {draw : StepDraw}
    {draws : List StepDraw} (h : s.Attempt zod (.sweep now) (draw :: draws) t) :
    ∀ c ∈ sweepCandidates (listSweepEvidenceByZone s.database now draw.rank) now draw.gapIds,
      ∃ r ∈ t.database.candidates.rows, r.candidateKey = Detection.heartbeatGapKey c := by
  obtain ⟨hrun, hend⟩ := h
  obtain ⟨s₁, hbegin, hrun⟩ := Runs.run_cons_eq_some hrun
  obtain ⟨s₂, hlist, hrun⟩ := Runs.run_cons_eq_some hrun
  have hc₂ := (hc.next hbegin).next hlist
  intro c hmem
  have hfound : c ∈ s₂.task.remaining := by
    cases Server.next_effect hbegin with
    | sweep _ hidle =>
      cases hlist
      show c ∈ (resume _).remaining
      rw [resume_remaining]
      exact hmem
  have hmain := run_statements (P := fun s => (∃ r ∈ s.database.candidates.rows,
    r.candidateKey = Detection.heartbeatGapKey c) ∨ c ∈ s.task.remaining)
      (fun d task draw o hc hor ho => recorded_step hc.ok.phase ho hor) hc₂ (.inr hfound) hrun
  refine hmain.resolve_right fun hrest => ?_
  rw [hend] at hrest
  exact List.not_mem_nil hrest

/-! ## safe retries -/

/-- in every state, what no attempt has in its hands is complete; and an attempt without a failure has left its
row of evidence, or the candidates of its gaps, in every state after it -/
structure RetrySafe (zod : Zod) (actions : List Server.Action) : Prop where
  settled : ∀ before after t, actions = before ++ after →
    Runs.run (Server.next zod) .start before = some t → Settled t.database t.task
  delivered : ∀ before input draws after s t w, actions = before ++ .deliver input :: draws.map .statement ++ after →
    Runs.run (Server.next zod) .start before = some s → s.Attempt zod (.deliver input) draws t →
    Runs.run (Server.next zod) t after = some w → w.database.evidence.get? input.idempotencyKey ≠ none
  recorded : ∀ before now draw draws after s t w,
    actions = before ++ .sweep now :: .statement draw :: draws.map .statement ++ after →
    Runs.run (Server.next zod) .start before = some s → s.Attempt zod (.sweep now) (draw :: draws) t →
    Runs.run (Server.next zod) t after = some w →
    ∀ c ∈ sweepCandidates (listSweepEvidenceByZone s.database now draw.rank) now draw.gapIds,
      ∃ r ∈ w.database.candidates.rows, r.candidateKey = Detection.heartbeatGapKey c

theorem run_keeps {actions : List Server.Action} (h : Consistent zod s.database s.task)
    (hrun : Runs.run (Server.next zod) s actions = some t) :
    (∀ key row, s.database.evidence.get? key = some row → t.database.evidence.get? key = some row) ∧
      ∀ r ∈ s.database.candidates.rows, r ∈ t.database.candidates.rows := by
  induction actions generalizing s with
  | nil =>
    cases hrun
    exact ⟨fun _ _ hrow => hrow, fun _ hr => hr⟩
  | cons a actions ih =>
    obtain ⟨s₁, hnext, hrest⟩ := Runs.run_cons_eq_some hrun
    obtain ⟨hevidence, hcandidates⟩ := Server.next_keeps h hnext
    obtain ⟨hevidence', hcandidates'⟩ := ih (h.next hnext) hrest
    exact ⟨fun key row hrow => hevidence' key row (hevidence key row hrow),
      fun r hr => hcandidates' r (hcandidates r hr)⟩

/-- **Retries are safe exactly along the runs in which no attempt fails while it is exposed.** -/
theorem retry_safe_iff {actions : List Server.Action} (hrun : Runs.run (Server.next zod) .start actions = some t) :
    Runs.Along (Server.next zod) Server.Spares .start actions ↔ RetrySafe zod actions := by
  have hsettled : Runs.Along (Server.next zod) Server.Spares .start actions ↔ ∀ before after t,
      actions = before ++ after → Runs.run (Server.next zod) .start before = some t →
        Settled t.database t.task :=
    Runs.along_iff_reached (P := fun s => Settled s.database s.task)
      (fun s => Consistent zod s.database s.task) (fun _ _ _ hc hnext => hc.next hnext)
      (fun _ _ _ hc h hnext => h.next_iff hc hnext) (Consistent.start zod) Settled.start hrun
  refine hsettled.trans ⟨fun h => ⟨h, ?_, ?_⟩, fun h => h.settled⟩
  · intro before input draws after s t w _ hbefore hattempt hafter
    have hc := (Consistent.start zod).run hbefore
    obtain ⟨row, hrow⟩ := Option.ne_none_iff_exists'.mp (hattempt.delivered hc)
    rw [(run_keeps (hc.run hattempt.1) hafter).1 _ row hrow]
    exact Option.some_ne_none row
  · intro before now draw draws after s t w _ hbefore hattempt hafter c hmem
    have hc := (Consistent.start zod).run hbefore
    obtain ⟨r, hr, hkey⟩ := hattempt.recorded hc c hmem
    exact ⟨r, (run_keeps (hc.run hattempt.1) hafter).2 r hr, hkey⟩

end

/-! ## a failure before the insert and one after it -/

/-- the first delivery fails after the given statements -/
def failedDelivery (draws : List StepDraw) : List Server.Action :=
  .deliver sampleTasks.sampleEvidence :: draws.map .statement ++ [.fail]

/-- the insert fails, and the retry stores everything -/
theorem retry_safe_early : letI := JsText.asciiRuntime
    ∃ t, Runs.run (Server.next sampleZod) .start
        (failedDelivery [] ++ .deliver sampleTasks.sampleEvidence :: ((List.range 9).map sampleStepDraw).map .statement) =
          some t ∧
      t.database.system.db.commitments.rows.length = 1 ∧
      RetrySafe sampleZod
        (failedDelivery [] ++ .deliver sampleTasks.sampleEvidence :: ((List.range 9).map sampleStepDraw).map .statement) := by
  let _ := JsText.asciiRuntime
  have hrun : (Runs.run (Server.next sampleZod) .start (failedDelivery [] ++
      .deliver sampleTasks.sampleEvidence :: ((List.range 9).map sampleStepDraw).map .statement)).any
        (fun t => decide (t.database.system.db.commitments.rows.length = 1)) = true := by
    decide +kernel
  obtain ⟨t, ht, hrows⟩ := (Option.any_eq_true _ _).mp hrun
  refine ⟨t, ht, of_decide_eq_true hrows, (retry_safe_iff ht).mp ?_⟩
  decide +kernel

def Task.isFinished : Task → Bool
  | .finished => true
  | _ => false

theorem Task.eq_finished {task : Task} (h : task.isFinished = true) : task = .finished := by
  cases task with
  | finished => rfl
  | _ => cases h

/-- **The attempt fails after its insert, and the retry that meets no failure is a duplicate:** the reading never gets
its candidate. -/
theorem retry_lost : letI := JsText.asciiRuntime
    ∃ s t, Runs.run (Server.next sampleZod) .start (failedDelivery [sampleStepDraw 0]) = some s ∧
      s.Attempt sampleZod (.deliver sampleTasks.sampleEvidence) ([1, 2, 3].map sampleStepDraw) t ∧
      ∃ e ∈ t.database.evidence.values, e.status ≠ .unknown ∧
        ∀ r ∈ t.database.candidates.rows, r.candidateKey ≠ candidateKeyFor e := by
  let _ := JsText.asciiRuntime
  have hrun : (Runs.run (Server.next sampleZod) .start (failedDelivery [sampleStepDraw 0])).any (fun s =>
      (Runs.run (Server.next sampleZod) s
        (.deliver sampleTasks.sampleEvidence :: ([1, 2, 3].map sampleStepDraw).map .statement)).any fun t =>
          decide (t.task.isFinished = true ∧
            ∃ e ∈ t.database.evidence.values, e.status ≠ .unknown ∧
              ∀ r ∈ t.database.candidates.rows, r.candidateKey ≠ candidateKeyFor e)) = true := by
    decide +kernel
  obtain ⟨s, hs, h⟩ := (Option.any_eq_true _ _).mp hrun
  obtain ⟨t, ht, h⟩ := (Option.any_eq_true _ _).mp h
  obtain ⟨hend, hlost⟩ := of_decide_eq_true h
  exact ⟨s, t, hs, ⟨ht, Task.eq_finished hend⟩, hlost⟩

end Ingestion
