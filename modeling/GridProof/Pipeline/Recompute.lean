import GridProof.Pipeline.Approvals
import GridProof.Pipeline.Memory

/-!
# Stored scores and the approved candidates

A stored score is a cache of the score of the candidates that are approved now.  Ingestion and
reviews keep it current, in the database and in memory, unless one of them changes whether its
candidate is approved and stores no score.

* `Db.ScoresCurrent`, `Memory.ScoresCurrent`   every stored score is that of the approved candidates;
* `KeepsScores`, `MemoryOp.KeepsScores`        the operations that keep it so;
* `scores_current`     along every run of such operations every stored score is current, in both
                       stores;
* `rejected_still_counts`   a reviewer's rejection leaves the score as it was.
-/

namespace Pipeline

/-! ## the database -/

/-- every stored score is the score of the candidates that are approved now -/
def Db.ScoresCurrent (db : Db) : Prop :=
  ∀ r ∈ db.epochScores.rows,
    let votes := (approvedCandidates db r.zoneId r.epochStart).map CandidateEvent.vote
    r.uptimeBps = uptimeBps votes ∧ r.evidenceHash = evidenceHash r.zoneId r.epochStart votes

/-- the operation is one of the agent worker -/
def Op.byWorker : Op → Bool
  | .deliver .. => true
  | _ => false

/-- the operation stores a score, or leaves its candidate approved or not as it was, or finds no
score of its candidate's hour -/
def KeepsScores (s : System) (op : Op) : Prop :=
  ∀ t ∈ op.target s, (t.verdict = .approve ∧ op.preview = false) ∨
    (t.verdict = .approve ↔ s.db.Approved t.candidate.id) ∨
    ∀ r ∈ s.db.epochScores.rows, r.key ≠ t.candidate.epochKey

instance (s : System) (op : Op) : Decidable (KeepsScores s op) :=
  inferInstanceAs (Decidable (∀ t ∈ op.target s, _))

section
variable {s s' : System} {op : Op} {d : AgentDecision}

/-- the approved candidates of the hours whose approvals the operation does not change -/
theorem DecisionEffect.approvedCandidates_eq (hs : s.Wf) (h : DecisionEffect s s' op d) {c : CandidateRow}
    (hc : c ∈ s'.db.candidates.rows) (hid : c.id = d.candidateEventId) {zoneId : String}
    {epochStart : EpochStart} (hsame : (zoneId, epochStart) ≠ c.event.epochKey ∨
      (s'.db.Approved c.id ↔ s.db.Approved c.id)) :
    approvedCandidates s'.db zoneId epochStart = approvedCandidates s.db zoneId epochStart := by
  refine approvedCandidates_unique (approvedCandidates_nodup s'.db zoneId epochStart)
    (List.pairwise_insertionSort windowOrder _) fun e => ?_
  rw [mem_approvedCandidates]
  constructor
  · rintro ⟨⟨row, hrow, rfl⟩, hin, happ⟩
    by_cases hrowid : row.id = d.candidateEventId
    · obtain rfl := Table.eq_of_id hrow hc (hrowid.trans hid.symm)
      rcases hsame with hkey | hiff
      · exact absurd (CandidateEvent.inEpoch_iff.mp hin).symm hkey
      · obtain ⟨d', hd', hd'id, -⟩ := hiff.mp happ
        obtain ⟨row', hrow', hrow'id⟩ := hs.decisions d' hd'
        have heq := Table.eq_of_id (h.candidates_subset hrow') hrow (hrow'id.trans hd'id)
        exact ⟨⟨row, heq ▸ hrow', rfl⟩, hin, hiff.mp happ⟩
    · exact ⟨⟨row, (h.candidates_cases hrow).resolve_right hrowid, rfl⟩, hin,
        (h.approved_of_ne hrowid).mp happ⟩
  · rintro ⟨⟨row, hrow, rfl⟩, hin, happ⟩
    refine ⟨⟨row, h.candidates_subset hrow, rfl⟩, hin, ?_⟩
    by_cases hrowid : row.id = d.candidateEventId
    · obtain rfl := Table.eq_of_id (h.candidates_subset hrow) hc (hrowid.trans hid.symm)
      rcases hsame with hkey | hiff
      · exact absurd (CandidateEvent.inEpoch_iff.mp hin).symm hkey
      · exact hiff.mpr happ
    · exact (h.approved_of_ne hrowid).mpr happ

end

/-- only the policy gate has written decisions, and every score was computed from the candidates
that are approved now -/
structure Current (s : System) : Prop where
  wf : s.Wf
  gate : ∀ d ∈ s.db.decisions.rows, d.agentName = .policyGate
  counted : ∀ r ∈ s.db.epochScores.rows,
    r.counted = (approvedCandidates s.db r.zoneId r.epochStart).map CandidateEvent.vote

theorem Current.empty : Current System.empty :=
  ⟨System.empty_wf, fun _ h => absurd h List.not_mem_nil, fun _ h => absurd h List.not_mem_nil⟩

theorem Current.scoresCurrent {s : System} (h : Current s) : s.db.ScoresCurrent := by
  intro r hr
  have hvalid := r.valid
  rw [h.counted r hr] at hvalid
  exact hvalid

theorem Op.target_policyGate {s : System} {op : Op} (hgate : ∀ d ∈ s.db.decisions.rows,
    d.agentName = .policyGate) (hop : op.byWorker = false) {t : Target} (ht : op.target s = some t) :
    t.agentName = .policyGate := by
  cases op with
  | ingest row simulation decisionId now =>
    cases ht
    rfl
  | deliver job result decisionId now => cases hop
  | review decisionId reviewDecision note now =>
    obtain ⟨d, hd, ht⟩ := Option.bind_eq_some_iff.mp ht
    obtain ⟨row, -, ht⟩ := Option.bind_eq_some_iff.mp ht
    cases ht
    exact hgate d (Table.get?_eq_some.mp hd).1

theorem Current.step {s s' : System} {op : Op} (hs : Current s)
    (hok : op.byWorker = false ∧ KeepsScores s op) (h : next s op = some s') : Current s' := by
  obtain ⟨res, d, -, heff⟩ := next_effect hs.wf h
  generalize res.epochScore = score at heff
  obtain ⟨c, hc, hid, htarget⟩ := heff.target
  have hgate : ∀ d' ∈ s'.db.decisions.rows, d'.agentName = .policyGate := by
    intro d' hd'
    rcases heff.puts.cases hd' with ⟨hold, -⟩ | rfl
    · exact hs.gate d' hold
    · exact Op.target_policyGate hs.gate hok.1 htarget
  -- the row that was written is the only one of its candidate
  have happroved : s'.db.Approved c.id ↔ d.decision = .approve := by
    constructor
    · rintro ⟨d', hd', hd'id, happ⟩
      have hkey : d'.key = d.key := Prod.ext (hd'id.trans hid)
        ((hgate d' hd').trans (hgate d heff.puts.self).symm)
      exact Table.eq_of_key hd' heff.puts.self hkey ▸ happ
    · exact fun happ => ⟨d, heff.puts.self, hid.symm, happ⟩
  refine ⟨heff.wf hs.wf, hgate, fun r hr => ?_⟩
  have hkeep (hold : r ∈ s.db.epochScores.rows) (hsame : r.key ≠ c.event.epochKey ∨
      (s'.db.Approved c.id ↔ s.db.Approved c.id)) :
      r.counted = (approvedCandidates s'.db r.zoneId r.epochStart).map CandidateEvent.vote := by
    rw [heff.approvedCandidates_eq hs.wf hc hid hsame]
    exact hs.counted r hold
  cases heff.score with
  | none hscores hwhy =>
    have hold : r ∈ s.db.epochScores.rows := hscores ▸ hr
    rcases hok.2 _ htarget with ⟨happ, hpre⟩ | hiff | hfree
    · rw [hpre] at hwhy
      exact absurd (hwhy happ) Bool.false_ne_true
    · exact hkeep hold (.inr (happroved.trans hiff))
    · exact hkeep hold (.inl (hfree r hold))
  | stored c' r' hd hpre hc' hid' hputs hkey hcounted =>
    obtain rfl := Table.eq_of_id hc hc' (hid.trans hid'.symm)
    rcases hputs.cases hr with ⟨hold, hne⟩ | rfl
    · exact hkeep hold (.inl (hkey ▸ hne))
    · rw [hcounted]
      refine congrArg (List.map CandidateEvent.vote) (selectApproved_eq_iff.mpr fun row _ _ => ?_)
      refine Db.approvedOnce_iff.mpr fun d₁ h₁ d₂ h₂ => ?_
      rw [hgate d₁ (Db.mem_approvals.mp h₁).1, hgate d₂ (Db.mem_approvals.mp h₂).1]

/-! ## the in-memory store -/

section
variable {localeCompare : String → String → Int}

/-- every stored score is the score of the candidates that are approved now -/
def Memory.ScoresCurrent (localeCompare : String → String → Int) (m : Memory) : Prop :=
  ∀ es ∈ m.memoryEpochScoresByKey.values,
    let votes := (m.approvedCandidates localeCompare es.zoneId es.epochStart).map CandidateEvent.vote
    es.uptimeBps = uptimeBps votes ∧ es.evidenceHash = evidenceHash es.zoneId es.epochStart votes

/-- as `Pipeline.KeepsScores` -/
def MemoryOp.KeepsScores (m : Memory) (op : MemoryOp) : Prop :=
  ∀ t ∈ op.target m, (t.verdict = .approve ∧ op.preview = false) ∨
    (t.verdict = .approve ↔ m.approved t.candidate.id) ∨
    m.memoryEpochScoresByKey.get? t.candidate.epochKey = none

instance (m : Memory) (op : MemoryOp) : Decidable (op.KeepsScores m) :=
  inferInstanceAs (Decidable (∀ t ∈ op.target m, _))

/-- a candidate whose id is new is not among the candidates by id -/
theorem Memory.Wf.get?_eq_none {m : Memory} (hm : m.Wf) {c : CandidateEvent}
    (hnew : ∀ c' ∈ m.candidatesByKey.values, c'.id ≠ c.id) : m.memoryCandidatesById.get? c.id = none := by
  rw [Option.eq_none_iff_forall_ne_some]
  intro c' hc'
  obtain ⟨hc'id, hmem⟩ := hm.recorded c.id c' hc'
  exact hnew c' hmem hc'id

namespace MemoryOp

variable {m m' : Memory} {op : MemoryOp} {c : CandidateEvent} {d : AgentDecision}

theorem Effect.approved_self (h : Effect localeCompare m m' op c d) :
    m'.approved c.id = decide (d.decision = .approve) := by
  unfold Memory.approved
  rw [h.decisions, OrderedMap.get?_set_self]
  rfl

theorem Effect.approved_of_ne (h : Effect localeCompare m m' op c d) {candidateId : String}
    (hne : candidateId ≠ c.id) : m'.approved candidateId = m.approved candidateId := by
  unfold Memory.approved
  rw [h.decisions, OrderedMap.get?_set_of_ne hne]

/-- the approved candidates of the hours whose approvals the operation does not change -/
theorem Effect.approvedCandidates_eq (hm : m.Wf) (h : Effect localeCompare m m' op c d)
    {zoneId : String} {epochStart : EpochStart} (hsame : (zoneId, epochStart) ≠ c.epochKey ∨
      (d.decision = .approve ↔ m.approved c.id)) :
    m'.approvedCandidates localeCompare zoneId epochStart =
      m.approvedCandidates localeCompare zoneId epochStart := by
  -- the test of the recompute fails for the candidate of the operation, if that is of another hour
  have hother (hkey : (zoneId, epochStart) ≠ c.epochKey) (b : Bool) :
      (decide (c.zoneId = zoneId) && b && epochStart.containsTime c.windowEnd) = false := by
    rw [Bool.eq_false_iff]
    intro hin
    obtain ⟨hleft, htime⟩ := Bool.and_eq_true_iff.mp hin
    obtain ⟨hzone, -⟩ := Bool.and_eq_true_iff.mp hleft
    refine hkey (Prod.ext (of_decide_eq_true hzone).symm ?_)
    exact ((EpochStart.containsTime_iff epochStart c.windowEnd).mp htime).symm
  unfold Memory.approvedCandidates
  cases h.candidates with
  | old hget hbyId hbyKey =>
    rw [hbyId]
    congr 1
    refine List.filter_congr fun item hitem => ?_
    by_cases hid : item.id = c.id
    · obtain ⟨id, hitem⟩ := OrderedMap.mem_values.mp hitem
      obtain ⟨hitemid, -⟩ := hm.recorded id item hitem
      rw [← hitemid, hid, hget] at hitem
      obtain rfl := Option.some.inj hitem
      rcases hsame with hkey | hiff
      · rw [hother hkey, hother hkey]
      · rw [h.approved_self, (Bool.eq_iff_iff.mpr (decide_eq_true_iff.trans hiff))]
    · rw [h.approved_of_ne hid]
  | new key hfree hnew hbyId hbyKey =>
    have hnone := hm.get?_eq_none hnew
    have hundecided : m.approved c.id = false := by
      unfold Memory.approved
      cases hd : m.memoryDecisions.get? c.id with
      | none => rfl
      | some d' =>
        obtain ⟨-, c', hc'⟩ := hm.decided c.id d' hd
        rw [hnone] at hc'
        cases hc'
    rw [hbyId, OrderedMap.values_set_of_none hnone, List.filter_append, List.filter_singleton]
    have hc : (decide (c.zoneId = zoneId) && m'.approved c.id &&
        epochStart.containsTime c.windowEnd) = false := by
      rcases hsame with hkey | hiff
      · exact hother hkey _
      · rw [h.approved_self, Bool.eq_iff_iff.mpr (decide_eq_true_iff.trans hiff), hundecided,
          Bool.and_false, Bool.false_and]
    rw [hc, cond_false, List.append_nil]
    congr 1
    refine List.filter_congr fun item hitem => ?_
    obtain ⟨id, hitem⟩ := OrderedMap.mem_values.mp hitem
    obtain ⟨-, hmem⟩ := hm.recorded id item hitem
    rw [h.approved_of_ne (hnew item hmem)]

end MemoryOp

/-- every score is stored under its zone and epoch, and is the recompute of the present state -/
structure Memory.Current (localeCompare : String → String → Int) (m : Memory) : Prop where
  wf : m.Wf
  scores : ∀ key es, m.memoryEpochScoresByKey.get? key = some es →
    es = epochScoreForApprovedCandidates key.1 key.2
      ((m.approvedCandidates localeCompare key.1 key.2).map CandidateEvent.vote)

theorem Memory.Current.empty : Memory.empty.Current localeCompare where
  wf := Memory.empty_wf
  scores _ _ h := nomatch h

theorem Memory.Current.scoresCurrent {m : Memory} (h : m.Current localeCompare) :
    m.ScoresCurrent localeCompare := by
  intro es hes
  obtain ⟨key, hget⟩ := OrderedMap.mem_values.mp hes
  rw [h.scores key es hget]
  exact ⟨rfl, rfl⟩

theorem Memory.Current.step {m m' : Memory} {op : MemoryOp} (hm : m.Current localeCompare)
    (hok : op.KeepsScores m) (h : op.next localeCompare m = some m') : m'.Current localeCompare := by
  obtain ⟨c, d, heff⟩ := MemoryOp.next_effect hm.wf h
  refine ⟨heff.wf hm.wf, fun key es hes => ?_⟩
  have hkeep (hold : m.memoryEpochScoresByKey.get? key = some es) (hsame : key ≠ c.epochKey ∨
      (d.decision = .approve ↔ m.approved c.id)) :
      es = epochScoreForApprovedCandidates key.1 key.2
        ((m'.approvedCandidates localeCompare key.1 key.2).map CandidateEvent.vote) := by
    rw [heff.approvedCandidates_eq hm.wf hsame]
    exact hm.scores key es hold
  rcases heff.scores with ⟨hscores, hwhy⟩ | ⟨happ, hpre, hscores⟩
  · rw [hscores] at hes
    rcases hok _ heff.target with ⟨happ, hpre⟩ | hiff | hfree
    · rw [hpre] at hwhy
      exact absurd (hwhy happ) Bool.false_ne_true
    · exact hkeep hes (.inr hiff)
    · refine hkeep hes (.inl fun e => ?_)
      rw [e, hfree] at hes
      cases hes
  · rw [hscores] at hes
    by_cases hkey : key = c.epochKey
    · subst hkey
      rw [OrderedMap.get?_set_self] at hes
      exact (Option.some.inj hes).symm
    · rw [OrderedMap.get?_set_of_ne hkey] at hes
      exact hkeep hes (.inl hkey)

/-! ## runs -/

/-- **Along every run of ingestions and reviews that meet `KeepsScores`, every stored score is the
score of the candidates that are approved now, in memory and in the database.** -/
theorem scores_current {memoryOps : List MemoryOp} {m : Memory} {ops : List Op} {s : System}
    (hmemory : Runs.Along (MemoryOp.next localeCompare) MemoryOp.KeepsScores .empty memoryOps)
    (hm : Runs.run (MemoryOp.next localeCompare) .empty memoryOps = some m)
    (hdb : Runs.Along next (fun s op => op.byWorker = false ∧ KeepsScores s op) .empty ops)
    (hs : Runs.run next .empty ops = some s) :
    m.ScoresCurrent localeCompare ∧ s.db.ScoresCurrent := by
  have hmemory := Runs.run_inv (Memory.Current localeCompare) (fun _ _ _ hm hok => hm.step hok)
    Memory.Current.empty hmemory hm
  have hdb := Runs.run_inv Current (fun _ _ _ hs hok => hs.step hok) Current.empty hdb hs
  exact ⟨hmemory.scoresCurrent, hdb.scoresCurrent⟩

end

/-- the order of code points, one possible `localeCompare` -/
def compareCodePoints (a b : String) : Int := if a < b then -1 else if a = b then 0 else 1

/-- two candidates of an hour are approved, one of them up -/
def twoApprovals : List Op :=
  [.ingest (sampleRow "c1" .restored (9 / 10)) none "d1" sampleTime,
   .ingest (sampleRow "c2" .outage (9 / 10)) none "d2" sampleTime]

def twoMemoryApprovals : List MemoryOp :=
  [.ingest "c1" (sampleRow "c1" .restored (9 / 10)).event none "d1" sampleTime,
   .ingest "c2" (sampleRow "c2" .outage (9 / 10)).event none "d2" sampleTime]

theorem scores_current_twoApprovals : ∃ m s,
    Runs.run (MemoryOp.next compareCodePoints) .empty twoMemoryApprovals = some m ∧
    Runs.run next .empty twoApprovals = some s ∧
    m.memoryEpochScoresByKey.values.map EpochScore.uptimeBps = [5000] ∧
    s.db.epochScores.rows.map (fun r => r.uptimeBps) = [5000] ∧
    m.ScoresCurrent compareCodePoints ∧ s.db.ScoresCurrent := by
  have hm : (Runs.run (MemoryOp.next compareCodePoints) .empty twoMemoryApprovals).any
      (fun m => decide (m.memoryEpochScoresByKey.values.map EpochScore.uptimeBps = [5000])) = true := by
    decide +kernel
  have hs : (Runs.run next .empty twoApprovals).any
      (fun s => decide (s.db.epochScores.rows.map (fun r => r.uptimeBps) = [5000])) = true := by
    decide +kernel
  obtain ⟨m, hmrun, hm⟩ := (Option.any_eq_true _ _).mp hm
  obtain ⟨s, hsrun, hs⟩ := (Option.any_eq_true _ _).mp hs
  exact ⟨m, s, hmrun, hsrun, of_decide_eq_true hm, of_decide_eq_true hs,
    scores_current (by decide +kernel) hmrun (by decide +kernel) hsrun⟩

/-- a reviewer rejects the second of the two: both stores keep the old score -/
theorem rejected_still_counts : ∃ m s,
    Runs.run (MemoryOp.next compareCodePoints) .empty
      (twoMemoryApprovals ++ [.review "d2" .reject "" sampleTime]) = some m ∧
    Runs.run next .empty (twoApprovals ++ [.review "d2" .reject "" sampleTime]) = some s ∧
    (∃ es ∈ m.memoryEpochScoresByKey.values, es.uptimeBps = 5000 ∧ uptimeBps
      ((m.approvedCandidates compareCodePoints es.zoneId es.epochStart).map CandidateEvent.vote) =
        10000) ∧
    (∃ r ∈ s.db.epochScores.rows, r.uptimeBps = 5000 ∧ uptimeBps
      ((approvedCandidates s.db r.zoneId r.epochStart).map CandidateEvent.vote) = 10000) := by
  have hm : (Runs.run (MemoryOp.next compareCodePoints) .empty
      (twoMemoryApprovals ++ [.review "d2" .reject "" sampleTime])).any (fun m =>
        decide (∃ es ∈ m.memoryEpochScoresByKey.values, es.uptimeBps = 5000 ∧ uptimeBps
          ((m.approvedCandidates compareCodePoints es.zoneId es.epochStart).map
            CandidateEvent.vote) = 10000)) = true := by
    decide +kernel
  have hs : (Runs.run next .empty (twoApprovals ++ [.review "d2" .reject "" sampleTime])).any
      (fun s => decide (∃ r ∈ s.db.epochScores.rows, r.uptimeBps = 5000 ∧ uptimeBps
        ((approvedCandidates s.db r.zoneId r.epochStart).map CandidateEvent.vote) = 10000)) = true := by
    decide +kernel
  obtain ⟨m, hmrun, hm⟩ := (Option.any_eq_true _ _).mp hm
  obtain ⟨s, hsrun, hs⟩ := (Option.any_eq_true _ _).mp hs
  exact ⟨m, s, hmrun, hsrun, of_decide_eq_true hm, of_decide_eq_true hs⟩

end Pipeline
