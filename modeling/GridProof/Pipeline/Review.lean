import GridProof.Lib.Runs
import GridProof.Pipeline.Operations

/-!
# A rejection is final

What happens to a candidate after a reviewer has rejected one of its decisions.

* `LeavesRejected`   the operation does not land on the row that was reviewed, and stores no score
                     of the candidate's hour that would count the candidate;
* `reject_final`     along every run of such operations the reviewed row stays as the reviewer left
                     it, and every score that counts the candidate was stored before the rejection;
* `redelivered`      a redelivered job replaces the reviewed row and counts the candidate.
-/

namespace Pipeline

/-! ## operations after a rejection -/

/-- the operation writes another row than the one `agentName` has for the candidate, and if it
stores the score of the candidate's hour then neither it nor an older decision approves the
candidate -/
def LeavesRejected (candidate : CandidateEvent) (agentName : AgentName) (s : System) (op : Op) :
    Prop :=
  ∀ t ∈ op.target s, (t.candidate.id = candidate.id → t.agentName ≠ agentName) ∧
    (t.verdict = .approve → op.preview = false → t.candidate.epochKey = candidate.epochKey →
      t.candidate.id ≠ candidate.id ∧ ¬ s.db.Approved candidate.id)

instance (candidate : CandidateEvent) (agentName : AgentName) (s : System) (op : Op) :
    Decidable (LeavesRejected candidate agentName s op) :=
  inferInstanceAs (Decidable (∀ t ∈ op.target s, _))

/-- the candidate and the reviewed decision are recorded, and the scores that count the candidate
are among `scores` -/
structure Settled (candidate : CandidateRow) (reviewed : AgentDecision) (scores : EpochScores)
    (s : System) : Prop where
  wf : s.Wf
  candidate_mem : candidate ∈ s.db.candidates.rows
  reviewed_mem : reviewed ∈ s.db.decisions.rows
  counts : ∀ r ∈ s.db.epochScores.rows, r.Counts candidate.id → r ∈ scores.rows

theorem Settled.step {candidate : CandidateRow} {reviewed : AgentDecision} {scores : EpochScores}
    {s s' : System} {op : Op} (hs : Settled candidate reviewed scores s)
    (hcand : reviewed.candidateEventId = candidate.id)
    (hok : LeavesRejected candidate.event reviewed.agentName s op) (h : next s op = some s') :
    Settled candidate reviewed scores s' := by
  obtain ⟨res, d, -, heff⟩ := next_effect hs.wf h
  obtain ⟨c, hc, hid, htarget⟩ := heff.target
  obtain ⟨hrow, hscore⟩ := hok _ htarget
  have hcandidate := heff.candidates_subset hs.candidate_mem
  refine ⟨heff.wf hs.wf, hcandidate, ?_, ?_⟩
  · refine heff.puts.of_ne hs.reviewed_mem fun e => ?_
    obtain ⟨hcid, hagent⟩ := Prod.mk.inj e
    exact hrow (hid.trans (hcid.symm.trans hcand)) hagent.symm
  · intro r hr hcounts
    rcases heff.scores_cases hr with hold | ⟨hd, hpre, ⟨c', hc', hid', hkey⟩, hcounted⟩
    · exact hs.counts r hold hcounts
    · obtain rfl := Table.eq_of_id hc hc' (hid.trans hid'.symm)
      obtain ⟨happ, row, hrow', hrowid, hrowkey⟩ := hcounts.approved hcounted
      obtain rfl := Table.eq_of_id hrow' hcandidate hrowid
      obtain ⟨hne, hnot⟩ := hscore hd hpre (hkey.symm.trans hrowkey.symm)
      obtain ⟨d', hd', hd'id, happrove⟩ := happ
      -- the approval is an older decision of the candidate, which the condition excludes
      rcases heff.puts.cases hd' with ⟨hold, -⟩ | rfl
      · exact absurd ⟨d', hold, hd'id, happrove⟩ hnot
      · exact absurd (hid.trans hd'id) hne

/-- the row a reviewer leaves -/
theorem step_review {s s' : System} {decisionId note : String} {reviewDecision : ReviewDecision}
    {now : IsoDate} {res : PipelineResult}
    (h : step s (.review decisionId reviewDecision note now) = some (s', res)) :
    ∃ before, s.db.decisions.get? decisionId = some before ∧
    res.decision = before.reviewed before.decision reviewDecision note now ∧
    res.decision ∈ s'.db.decisions.rows := by
  simp only [step, resolveReviewDecision, Option.bind_eq_bind, Option.bind_eq_some_iff,
    Prod.exists] at h
  obtain ⟨db, d, hup, h⟩ := h
  obtain ⟨before, hget, hdb, hputs, hd⟩ := updateReview_eq_some hup
  refine ⟨before, hget, ?_⟩
  split at h
  · obtain ⟨rfl, rfl⟩ := Prod.mk.inj (Option.some.inj h)
    exact ⟨hd, hputs.self⟩
  · simp only [Option.bind_eq_some_iff, Prod.exists] at h
    obtain ⟨c, hc, db₁, es, hscore, db₂, cm, hcommit, h⟩ := h
    obtain ⟨rfl, rfl⟩ := Prod.mk.inj (Option.some.inj h)
    obtain ⟨-, hd₂, -⟩ := store_eq_some hscore hcommit
    refine ⟨hd, ?_⟩
    show d ∈ db₂.decisions.rows
    rw [hd₂]
    exact hputs.self

/-! ## runs -/

/-- **After a rejection: along every run that leaves the rejected candidate alone, the reviewed row
stays as the reviewer left it and no later score counts the candidate.** -/
theorem reject_final {before after : List Op} {s₀ s s' : System} {decisionId note : String}
    {now : IsoDate} {res : PipelineResult} {candidate : CandidateRow}
    (hbefore : Runs.run next .empty before = some s₀)
    (hreject : step s₀ (.review decisionId .reject note now) = some (s, res))
    (hcandidate : s.db.candidates.get? res.decision.candidateEventId = some candidate)
    (hok : Runs.Along next (LeavesRejected candidate.event res.decision.agentName) s after)
    (hafter : Runs.run next s after = some s') :
    res.decision ∈ s'.db.decisions.rows ∧
      ∀ r ∈ s'.db.epochScores.rows, r.Counts candidate.id → r ∈ s.db.epochScores.rows := by
  have hwf₀ : s₀.Wf := Runs.run_inv_all System.Wf (fun _ _ _ => next_wf) System.empty_wf hbefore
  have hwf : s.Wf := next_wf hwf₀ (Option.map_eq_some_iff.mpr ⟨(s, res), hreject, rfl⟩)
  obtain ⟨hmem, hid⟩ := Table.get?_eq_some.mp hcandidate
  obtain ⟨_, _, _, hreviewed⟩ := step_review hreject
  have hstart : Settled candidate res.decision s.db.epochScores s :=
    ⟨hwf, hmem, hreviewed, fun r hr _ => hr⟩
  have hend := Runs.run_inv (Settled candidate res.decision s.db.epochScores)
    (fun _ _ _ hs hok h => hs.step hid.symm hok h) hstart hok hafter
  exact ⟨hend.reviewed_mem, hend.counts⟩

/-- the agents escalate a candidate that the policy gate has escalated -/
def escalatedTwice : List Op :=
  [.ingest (sampleRow "c1" .restored (6 / 10)) none "d1" sampleTime,
   .deliver ⟨(sampleRow "c1" .restored (6 / 10)).event, none⟩ (sampleResult .escalate) "d2" sampleTime]

/-- another candidate of the hour is approved after the rejection -/
theorem reject_final_neighbour : ∃ s₀ s s' res,
    Runs.run next .empty escalatedTwice = some s₀ ∧
    step s₀ (.review "d2" .reject "" sampleTime) = some (s, res) ∧
    next s (.ingest (sampleRow "c2" .outage (9 / 10)) none "d3" sampleTime) = some s' ∧
    s'.db.epochScores.rows.length = 1 ∧ res.decision ∈ s'.db.decisions.rows ∧
    ∀ r ∈ s'.db.epochScores.rows, r.Counts "c1" → r ∈ s.db.epochScores.rows := by
  have h : ((Runs.run next .empty escalatedTwice).any fun s₀ =>
      (step s₀ (.review "d2" .reject "" sampleTime)).any fun (s, res) =>
        (Runs.run next s [.ingest (sampleRow "c2" .outage (9 / 10)) none "d3" sampleTime]).any
          fun s' => decide (s'.db.epochScores.rows.length = 1 ∧
            s.db.candidates.get? res.decision.candidateEventId =
              some (sampleRow "c1" .restored (6 / 10)) ∧
            Runs.Along next
              (LeavesRejected (sampleRow "c1" .restored (6 / 10)).event res.decision.agentName) s
              [.ingest (sampleRow "c2" .outage (9 / 10)) none "d3" sampleTime])) = true := by
    decide +kernel
  simp only [Option.any_eq_true, Prod.exists, decide_eq_true_eq] at h
  obtain ⟨s₀, hs₀, s, res, hreject, s', hrun, hlen, hcandidate, hok⟩ := h
  have hfinal := reject_final hs₀ hreject hcandidate hok hrun
  obtain ⟨t, ht, hnil⟩ := Runs.run_cons_eq_some hrun
  cases hnil
  exact ⟨s₀, s, _, res, hs₀, hreject, ht, hlen, hfinal⟩

/-- the job is delivered again after the rejection, and this time the agents approve -/
theorem redelivered : ∃ s₀ s s' res,
    Runs.run next .empty escalatedTwice = some s₀ ∧
    step s₀ (.review "d2" .reject "" sampleTime) = some (s, res) ∧
    next s (.deliver ⟨(sampleRow "c1" .restored (6 / 10)).event, none⟩ (sampleResult .approve) "d3"
      sampleTime) = some s' ∧
    s.db.epochScores.rows = [] ∧ res.decision.decision = .reject ∧
    (∃ d ∈ s'.db.decisions.rows, d.id = res.decision.id ∧
      d.decision = .approve ∧ d.hypothesis ≠ res.decision.hypothesis ∧
        d.reasoningTrace ≠ res.decision.reasoningTrace) ∧
    ∃ r ∈ s'.db.epochScores.rows, r.Counts "c1" := by
  have h : ((Runs.run next .empty escalatedTwice).any fun s₀ =>
      (step s₀ (.review "d2" .reject "" sampleTime)).any fun (s, res) =>
        (next s (.deliver ⟨(sampleRow "c1" .restored (6 / 10)).event, none⟩ (sampleResult .approve)
          "d3" sampleTime)).any fun s' => decide (s.db.epochScores.rows.length = 0 ∧
            res.decision.decision = .reject ∧
            (∃ d ∈ s'.db.decisions.rows, d.id = res.decision.id ∧
              d.decision = .approve ∧ d.hypothesis ≠ res.decision.hypothesis ∧
                d.reasoningTrace ≠ res.decision.reasoningTrace) ∧
            ∃ r ∈ s'.db.epochScores.rows, r.Counts "c1")) = true := by
    decide +kernel
  simp only [Option.any_eq_true, Prod.exists, decide_eq_true_eq, List.length_eq_zero_iff] at h
  obtain ⟨s₀, hs₀, s, res, hreject, s', hs', hrest⟩ := h
  exact ⟨s₀, s, s', res, hs₀, hreject, hs', hrest⟩

end Pipeline
