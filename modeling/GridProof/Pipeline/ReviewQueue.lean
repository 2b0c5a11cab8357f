import GridProof.Lib.Runs
import GridProof.Pipeline.Operations

/-!
# The review queue

* `listReviewItems`    the escalated decisions with their candidates, newest first;
* `QueueDisjoint`      the queue lists each candidate at most once, and none that a stored score
                       counts; `queueDisjoint_iff` says it of the decision rows;
* `KeepsQueue`         the operations that keep it so;
* `queue_disjoint_iff` the states of a run all have it iff every operation of the run is one of
                       these.
-/

namespace Pipeline

/-! ## the queue -/

structure ReviewItem where
  decision : AgentDecision
  candidate : CandidateEvent
deriving DecidableEq

/-- `order by d.created_at desc` -/
def newestFirst (a b : AgentDecision) : Prop := b.createdAt.micros ≤ a.createdAt.micros

instance : DecidableRel newestFirst := fun _ _ => inferInstanceAs (Decidable (_ ≤ _))

def listReviewItems (db : Db) : List ReviewItem :=
  ((db.decisions.rows.filter fun d => d.decision = .escalate).insertionSort newestFirst).filterMap
    fun d => (db.candidates.get? d.candidateEventId).map fun row =>
      ⟨{ d with createdAt := d.createdAt.readBack }, row.event.readBack⟩

/-- the candidates of the queue are those of the escalated rows -/
theorem listReviewItems_candidates {s : System} (hs : s.Wf) :
    ((listReviewItems s.db).map fun item => item.candidate.id).Perm
      ((s.db.decisions.rows.filter fun d => d.decision = .escalate).map
        AgentDecision.candidateEventId) := by
  unfold listReviewItems
  rw [List.map_filterMap]
  have hall : ∀ d ∈ (s.db.decisions.rows.filter fun d => d.decision = .escalate).insertionSort
      newestFirst, ((s.db.candidates.get? d.candidateEventId).map fun row : CandidateRow =>
        (⟨{ d with createdAt := d.createdAt.readBack }, row.event.readBack⟩ : ReviewItem)).map
          (fun item => item.candidate.id) = some d.candidateEventId := by
    intro d hd
    obtain ⟨row, hrow, hid⟩ :=
      hs.decisions d (List.mem_of_mem_filter ((List.mem_insertionSort newestFirst).mp hd))
    rw [Table.get?_eq_some.mpr ⟨hrow, hid⟩, Option.map_some, Option.map_some, CandidateEvent.readBack_id]
    exact congrArg some hid
  rw [List.filterMap_congr hall, List.filterMap_eq_map']
  exact (List.perm_insertionSort newestFirst _).map _

/-- the queue lists no candidate twice and none that a stored score counts -/
def QueueDisjoint (db : Db) : Prop :=
  ((listReviewItems db).map fun item => item.candidate.id).Nodup ∧
    ∀ item ∈ listReviewItems db, ∀ r ∈ db.epochScores.rows, ¬ r.Counts item.candidate.id

instance (db : Db) : Decidable (QueueDisjoint db) := inferInstanceAs (Decidable (_ ∧ _))

/-- `QueueDisjoint`, said of the decision rows -/
structure Exclusive (db : Db) : Prop where
  escalatedOnce : ∀ d ∈ db.decisions.rows, ∀ d' ∈ db.decisions.rows, d.decision = .escalate →
    d'.decision = .escalate → d.candidateEventId = d'.candidateEventId → d = d'
  uncounted : ∀ d ∈ db.decisions.rows, d.decision = .escalate → ∀ r ∈ db.epochScores.rows,
    ¬ r.Counts d.candidateEventId

theorem queueDisjoint_iff {s : System} (hs : s.Wf) : QueueDisjoint s.db ↔ Exclusive s.db := by
  have hperm := listReviewItems_candidates hs
  have hrows : (s.db.decisions.rows.filter fun d => d.decision = .escalate).Nodup :=
    (List.Nodup.of_map _ s.db.decisions.id_nodup).sublist List.filter_sublist
  have hmem (d : AgentDecision) :
      d ∈ (s.db.decisions.rows.filter fun d => d.decision = .escalate) ↔
      d ∈ s.db.decisions.rows ∧ d.decision = .escalate := by
    rw [List.mem_filter, decide_eq_true_iff]
  have hids (candidateId : String) : (∃ item ∈ listReviewItems s.db, item.candidate.id = candidateId) ↔
      ∃ d ∈ s.db.decisions.rows, d.decision = .escalate ∧ d.candidateEventId = candidateId := by
    rw [← List.mem_map, hperm.mem_iff, List.mem_map]
    simp only [hmem, and_assoc]
  unfold QueueDisjoint
  rw [hperm.nodup_iff, List.nodup_map_iff_inj_on hrows]
  constructor
  · rintro ⟨honce, huncounted⟩
    refine ⟨fun d hd d' hd' he he' heq => ?_, fun d hd he r hr hcounts => ?_⟩
    · exact honce d ((hmem d).mpr ⟨hd, he⟩) d' ((hmem d').mpr ⟨hd', he'⟩) heq
    · obtain ⟨item, hitem, hid⟩ := (hids d.candidateEventId).mpr ⟨d, hd, he, rfl⟩
      exact huncounted item hitem r hr (hid ▸ hcounts)
  · rintro ⟨honce, huncounted⟩
    refine ⟨fun d hd d' hd' heq => ?_, fun item hitem r hr hcounts => ?_⟩
    · obtain ⟨hdrow, he⟩ := (hmem d).mp hd
      obtain ⟨hdrow', he'⟩ := (hmem d').mp hd'
      exact honce d hdrow d' hdrow' he he' heq
    · obtain ⟨d, hd, he, hid⟩ := (hids item.candidate.id).mp ⟨item, hitem, rfl⟩
      exact huncounted d hd he r hr (hid ▸ hcounts)

/-! ## the operations that keep the queue disjoint -/

/-- the candidate has an escalated decision -/
def Db.Escalated (db : Db) (candidateId : String) : Prop :=
  ∃ d ∈ db.decisions.rows, d.candidateEventId = candidateId ∧ d.decision = .escalate

instance (db : Db) (candidateId : String) : Decidable (db.Escalated candidateId) :=
  inferInstanceAs (Decidable (∃ d ∈ db.decisions.rows, _))

/-- An escalation finds no other escalated row of its candidate and no score that counts it.  An
approval that stores a score finds no other escalated row of its candidate, and no candidate of the
hour that is both approved and escalated. -/
def KeepsQueue (s : System) (op : Op) : Prop :=
  ∀ t ∈ op.target s,
    (t.verdict = .escalate ∨ t.verdict = .approve ∧ op.preview = false →
      ∀ d ∈ s.db.decisions.rows, d.candidateEventId = t.candidate.id → d.decision = .escalate →
        d.agentName = t.agentName) ∧
    (t.verdict = .escalate → ∀ r ∈ s.db.epochScores.rows, ¬ r.Counts t.candidate.id) ∧
    (t.verdict = .approve ∧ op.preview = false → ∀ row ∈ s.db.candidates.rows,
      row.event.epochKey = t.candidate.epochKey → row.id ≠ t.candidate.id →
        ¬ (s.db.Approved row.id ∧ s.db.Escalated row.id))

instance (s : System) (op : Op) : Decidable (KeepsQueue s op) :=
  inferInstanceAs (Decidable (∀ t ∈ op.target s, _))

section
variable {s s' : System} {op : Op} {d : AgentDecision} {score : Option EpochScore}

/-- the rows of the other agents, and of the other candidates, stay -/
theorem Effect.other_mem (h : Effect s s' op d score) {d' : AgentDecision}
    (hd' : d' ∈ s.db.decisions.rows)
    (hne : d'.candidateEventId = d.candidateEventId → d'.agentName ≠ d.agentName) :
    d' ∈ s'.db.decisions.rows := by
  refine h.puts.of_ne hd' fun e => ?_
  obtain ⟨hcand, hagent⟩ := Prod.mk.inj e
  exact hne hcand hagent

theorem Effect.exclusive (h : Effect s s' op d score) (hex : Exclusive s.db)
    (hok : KeepsQueue s op) : Exclusive s'.db := by
  obtain ⟨c, hc, hid, htarget⟩ := h.target
  obtain ⟨hsame, hfree, hhour⟩ := hok _ htarget
  -- another escalated row of the candidate would be the row that was written
  have hclash (hv : d.decision = .escalate ∨ d.decision = .approve ∧ op.preview = false)
      {d' : AgentDecision} (hd' : d' ∈ s.db.decisions.rows) (he : d'.decision = .escalate)
      (hcand : d'.candidateEventId = d.candidateEventId) : d'.key = d.key :=
    Prod.ext hcand (hsame hv d' hd' (hcand.trans hid.symm) he)
  constructor
  · intro d₁ h₁ d₂ h₂ he₁ he₂ heq
    rcases h.puts.cases h₁ with ⟨hold₁, hne₁⟩ | rfl
    · rcases h.puts.cases h₂ with ⟨hold₂, -⟩ | rfl
      · exact hex.escalatedOnce d₁ hold₁ d₂ hold₂ he₁ he₂ heq
      · exact absurd (hclash (.inl he₂) hold₁ he₁ heq) hne₁
    · rcases h.puts.cases h₂ with ⟨hold₂, hne₂⟩ | rfl
      · exact absurd (hclash (.inl he₁) hold₂ he₂ heq.symm) hne₂
      · rfl
  · intro d₁ h₁ he₁ r hr hcounts
    rcases h.scores_cases hr with hold | ⟨hd, hpre, ⟨c', hc', hid', hkey⟩, hcounted⟩
    · rcases h.puts.cases h₁ with ⟨hold₁, -⟩ | rfl
      · exact hex.uncounted d₁ hold₁ he₁ r hold hcounts
      · exact hfree he₁ r hold (hid.symm ▸ hcounts : r.Counts c.id)
    · obtain rfl := Table.eq_of_id hc hc' (hid.trans hid'.symm)
      obtain ⟨happ, row, hrow, hrowid, hrowkey⟩ := hcounts.approved hcounted
      rcases h.puts.cases h₁ with ⟨hold₁, hne₁⟩ | rfl
      · by_cases hcand : d₁.candidateEventId = d.candidateEventId
        · exact hne₁ (hclash (.inr ⟨hd, hpre⟩) hold₁ he₁ hcand)
        · have hrowne : row.id ≠ d.candidateEventId := fun e => hcand (hrowid.symm.trans e)
          obtain ⟨d₂, h₂, hd₂, ha₂⟩ := happ
          have hold₂ : d₂ ∈ s.db.decisions.rows := by
            rcases h.puts.cases h₂ with ⟨hold₂, -⟩ | rfl
            · exact hold₂
            · exact absurd hd₂.symm hcand
          refine hhour ⟨hd, hpre⟩ row ((h.candidates_cases hrow).resolve_right hrowne)
            (hrowkey.trans hkey) (fun e => hrowne (e.trans hid)) ⟨?_, ?_⟩
          · exact ⟨d₂, hold₂, hd₂.trans hrowid.symm, ha₂⟩
          · exact ⟨d₁, hold₁, hrowid.symm, he₁⟩
      · exact absurd (he₁.symm.trans hd) (by decide)

theorem Effect.keepsQueue (h : Effect s s' op d score) (hex : Exclusive s'.db) :
    KeepsQueue s op := by
  obtain ⟨c, hc, hid, htarget⟩ := h.target
  intro t ht
  obtain rfl := Option.some.inj (htarget.symm.trans ht)
  refine ⟨?_, ?_, ?_⟩
  · intro hv d' hd' hcand he
    by_contra hagent
    have hmem : d' ∈ s'.db.decisions.rows := h.other_mem hd' fun _ => hagent
    rcases hv with hesc | ⟨happ, hpre⟩
    · have heq := hex.escalatedOnce d' hmem d h.puts.self he hesc (hcand.trans hid)
      exact hagent (congrArg AgentDecision.agentName heq)
    · obtain ⟨c', hc', hid', r, hr, hkey, hcounted⟩ := h.stored_of_approve happ hpre
      obtain rfl := Table.eq_of_id hc hc' (hid.trans hid'.symm)
      refine hex.uncounted d' hmem he r hr (hcand ▸ ?_)
      exact ScoreRow.counts_of_approved hcounted hc hkey.symm ⟨d, h.puts.self, hid.symm, happ⟩
  · intro hesc r hr hcounts
    cases h.score with
    | none hscores _ =>
      exact hex.uncounted d h.puts.self hesc r (hscores ▸ hr) (hid ▸ hcounts)
    | stored _ _ hd _ _ _ _ _ _ => exact absurd (hesc.symm.trans hd) (by decide)
  · rintro ⟨happ, hpre⟩ row hrow hkey hne ⟨⟨d₁, h₁, hd₁, ha₁⟩, ⟨d₂, h₂, hd₂, he₂⟩⟩
    obtain ⟨c', hc', hid', r, hr, hrkey, hcounted⟩ := h.stored_of_approve happ hpre
    obtain rfl := Table.eq_of_id hc hc' (hid.trans hid'.symm)
    have hstay {d' : AgentDecision} (hd' : d' ∈ s.db.decisions.rows)
        (hcand : d'.candidateEventId = row.id) : d' ∈ s'.db.decisions.rows :=
      h.other_mem hd' fun e => absurd (hcand.symm.trans (e.trans hid.symm)) hne
    refine hex.uncounted d₂ (hstay h₂ hd₂) he₂ r hr (hd₂ ▸ ?_)
    exact ScoreRow.counts_of_approved hcounted (h.candidates_subset hrow) (hkey.trans hrkey.symm)
      ⟨d₁, hstay h₁ hd₁, hd₁, ha₁⟩

end

/-! ## runs -/

theorem Exclusive.empty : Exclusive Db.empty :=
  ⟨fun _ h => absurd h List.not_mem_nil, fun _ h => absurd h List.not_mem_nil⟩

/-- **The queue is disjoint from the scores, and lists no candidate twice, in every state of a run iff
every operation of the run meets `KeepsQueue`.** -/
theorem queue_disjoint_iff {ops : List Op} {s : System}
    (hrun : Runs.run next .empty ops = some s) : Runs.Along next KeepsQueue .empty ops ↔
    ∀ before after m, ops = before ++ after → Runs.run next .empty before = some m →
      QueueDisjoint m.db := by
  refine Runs.along_iff_reached System.Wf (fun _ _ _ => next_wf) ?_ System.empty_wf
    ((queueDisjoint_iff System.empty_wf).mpr .empty) hrun
  intro s op s' hs hex h
  obtain ⟨res, d, -, heff⟩ := next_effect hs h
  have hs' := heff.wf hs
  have hex := (queueDisjoint_iff hs).mp hex
  exact ⟨fun hok => (queueDisjoint_iff hs').mpr (heff.exclusive hex hok),
    fun hex' => heff.keepsQueue ((queueDisjoint_iff hs').mp hex')⟩

/-- a reviewer approves an escalated candidate, and another candidate is escalated -/
def reviewedRun : List Op :=
  [.ingest (sampleRow "c1" .restored (6 / 10)) none "d1" sampleTime,
   .review "d1" .approve "" sampleTime,
   .ingest (sampleRow "c2" .outage (6 / 10)) none "d2" sampleTime]

theorem queue_disjoint_reviewedRun : ∃ s, Runs.run next .empty reviewedRun = some s ∧
    (listReviewItems s.db).length = 1 ∧ s.db.epochScores.rows.length = 1 ∧
    (Runs.Along next KeepsQueue .empty reviewedRun ↔
      ∀ before after m, reviewedRun = before ++ after → Runs.run next .empty before = some m →
        QueueDisjoint m.db) := by
  have h : ((Runs.run next .empty reviewedRun).any fun s =>
      decide ((listReviewItems s.db).length = 1 ∧ s.db.epochScores.rows.length = 1)) = true := by
    decide +kernel
  simp only [Option.any_eq_true, decide_eq_true_eq] at h
  obtain ⟨s, hs, hone, hscore⟩ := h
  exact ⟨s, hs, hone, hscore, queue_disjoint_iff hs⟩

example : Runs.Along next KeepsQueue .empty reviewedRun := by decide +kernel

/-- a candidate is escalated, and the agents reach a verdict on it -/
def agentRun (verdict : Verdict) : List Op :=
  [.ingest (sampleRow "c1" .restored (6 / 10)) none "d1" sampleTime,
   .deliver ⟨(sampleRow "c1" .restored (6 / 10)).event, none⟩ (sampleResult verdict) "d2" sampleTime]

/-- when the agents approve, the row of the policy gate keeps the candidate in the queue -/
theorem approved_and_listed : ∃ s, Runs.run next .empty (agentRun .approve) = some s ∧
    (∃ item ∈ listReviewItems s.db, item.candidate.id = "c1") ∧
    (∃ r ∈ s.db.epochScores.rows, r.Counts "c1") ∧ ¬ QueueDisjoint s.db := by
  have h : ((Runs.run next .empty (agentRun .approve)).any fun s : System =>
      decide ((∃ item ∈ listReviewItems s.db, item.candidate.id = "c1") ∧
        (∃ r ∈ s.db.epochScores.rows, r.Counts "c1") ∧ ¬ QueueDisjoint s.db)) = true := by
    decide +kernel
  simp only [Option.any_eq_true, decide_eq_true_eq] at h
  exact h

/-- when they escalate too, the candidate is listed twice -/
example : (Runs.run next .empty (agentRun .escalate)).map (fun s =>
    (listReviewItems s.db).map fun item => item.candidate.id) = some ["c1", "c1"] := by
  decide +kernel

end Pipeline
