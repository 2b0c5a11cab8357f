import GridProof.Lib.OrderedMap
import GridProof.Pipeline.Operations

/-!
# The in-memory store

The maps the API keeps when no database is configured, and its two operations on them.  The worker
persists nothing in that mode.

* `MemoryOp.step`     ingestion of a candidate and a reviewer's decision;
* `MemoryOp.Effect`   what an operation does: one decision, and for an approval that is not a preview
                      the score of the candidate's zone and epoch.

`localeCompare` is the order of strings of the runtime.
-/

namespace Pipeline

/-! ## the maps -/

structure Memory where
  candidatesByKey : OrderedMap String CandidateEvent
  memoryDecisions : OrderedMap String AgentDecision
  memoryCandidatesById : OrderedMap String CandidateEvent
  /-- the key is the pair that the text `${zoneId}:${epochStart}` spells out -/
  memoryEpochScoresByKey : OrderedMap (String × EpochStart) EpochScore
  memoryCommitmentsByEpochScore : OrderedMap String ChainCommitment

def Memory.empty : Memory := ⟨.empty, .empty, .empty, .empty, .empty⟩

section
variable (localeCompare : String → String → Int)

/-- the comparison of the sort: by the text of the window's end, then by id -/
def compareCandidates (a b : CandidateEvent) : Int :=
  let byWindowEnd := localeCompare a.windowEnd.text b.windowEnd.text
  if byWindowEnd ≠ 0 then byWindowEnd else localeCompare a.id b.id

/-- `a` may stand before `b` in the sorted list -/
def notAfter (a b : CandidateEvent) : Prop := compareCandidates localeCompare a b ≤ 0

instance : DecidableRel (notAfter localeCompare) := fun _ _ => inferInstanceAs (Decidable (_ ≤ _))

/-- the test on an instant in milliseconds -/
def EpochStart.containsTime (epochStart : EpochStart) (d : IsoDate) : Bool :=
  decide (epochStart.ms ≤ d.getTime) && decide (d.getTime < epochStart.ms + epochDurationMs)

theorem EpochStart.containsTime_iff (epochStart : EpochStart) (d : IsoDate) :
    epochStart.containsTime d ↔ floorToEpoch d = epochStart := by
  rw [← EpochStart.contains_iff, containsTime, EpochStart.contains, Bool.and_eq_true,
    Bool.and_eq_true, decide_eq_true_iff, decide_eq_true_iff, decide_eq_true_iff, decide_eq_true_iff]
  unfold IsoDate.getTime
  omega

def Memory.approved (m : Memory) (candidateId : String) : Bool :=
  (m.memoryDecisions.get? candidateId).any fun decision => decision.decision = .approve

/-- the candidates of the zone and epoch that are approved, as the recompute lists them -/
def Memory.approvedCandidates (m : Memory) (zoneId : String) (epochStart : EpochStart) :
    List CandidateEvent :=
  (m.memoryCandidatesById.values.filter fun item =>
    item.zoneId = zoneId && m.approved item.id && epochStart.containsTime item.windowEnd).insertionSort
      (notAfter localeCompare)

def recomputeMemoryEpochScore (m : Memory) (candidate : CandidateEvent) : EpochScore :=
  let epochStart := floorToEpoch candidate.windowEnd
  epochScoreForApprovedCandidates candidate.zoneId epochStart
    ((m.approvedCandidates localeCompare candidate.zoneId epochStart).map CandidateEvent.vote)

/-- the score and the commitment of an approval -/
def Memory.storeScore (m : Memory) (candidate : CandidateEvent) (now : IsoDate) :
    Memory × EpochScore × ChainCommitment :=
  let epochScore := recomputeMemoryEpochScore localeCompare m candidate
  let commitment := pendingCommitmentForEpochScore epochScore now
  ({ m with
      memoryEpochScoresByKey :=
        m.memoryEpochScoresByKey.set (epochScore.zoneId, epochScore.epochStart) epochScore
      memoryCommitmentsByEpochScore :=
        m.memoryCommitmentsByEpochScore.set epochScore.id commitment },
    epochScore, commitment)

/-! ## operations -/

/-- the memory branch of `processCandidatePipeline` -/
def processMemoryPipeline (m : Memory) (candidate : CandidateEvent)
    (simulation : Option Simulation) (decisionId : String) (now : IsoDate) :
    Memory × PipelineResult :=
  let decision := decisionForCandidate decisionId now candidate
  let m := { m with
    memoryDecisions := m.memoryDecisions.set candidate.id decision
    memoryCandidatesById := m.memoryCandidatesById.set candidate.id candidate }
  if decision.decision = .approve then
    if previewOnly simulation then (m, ⟨decision, none, none⟩)
    else
      let (m, epochScore, commitment) := m.storeScore localeCompare candidate now
      (m, ⟨decision, some epochScore, some commitment⟩)
  else (m, ⟨decision, none, none⟩)

/-- the decision a review makes of an old one; unlike the database it keeps the draft -/
def AgentDecision.reviewedInMemory (reviewDecision : ReviewDecision) (note : String)
    (reviewedAt : IsoDate) (current : AgentDecision) : AgentDecision :=
  { current with
    decision := reviewDecision.verdict
    hypothesis := current.hypothesis ++ " Reviewer note: " ++ note
    reasoningTrace := { current.reasoningTrace with
      review := some ⟨current.decision, reviewDecision.verdict, note, reviewedAt⟩ } }

/-- the memory branch of `resolveReviewDecision` -/
def resolveMemoryReviewDecision (m : Memory) (decisionId : String)
    (reviewDecision : ReviewDecision) (note : String) (now : IsoDate) :
    Option (Memory × PipelineResult) :=
  (m.memoryDecisions.values.find? fun decision => decision.id = decisionId).map fun current =>
    let updated := current.reviewedInMemory reviewDecision note now
    let m := { m with memoryDecisions := m.memoryDecisions.set current.candidateEventId updated }
    match m.candidatesByKey.values.find? fun item => item.id = current.candidateEventId with
    | none => (m, ⟨updated, none, none⟩)
    | some candidate =>
      let m := { m with memoryCandidatesById := m.memoryCandidatesById.set candidate.id candidate }
      if reviewDecision = .approve then
        let (m, epochScore, commitment) := m.storeScore localeCompare candidate now
        (m, ⟨updated, some epochScore, some commitment⟩)
      else (m, ⟨updated, none, none⟩)

inductive MemoryOp where
  | ingest (candidateKey : String) (candidate : CandidateEvent) (simulation : Option Simulation)
      (decisionId : String) (now : IsoDate)
  | review (decisionId : String) (reviewDecision : ReviewDecision) (note : String) (now : IsoDate)

/-- a candidate whose key is taken is not recorded; its id comes from `randomUUID`, so one that is
taken does not occur -/
def MemoryOp.step (m : Memory) : MemoryOp → Option (Memory × PipelineResult)
  | .ingest candidateKey candidate simulation decisionId now =>
    if (m.candidatesByKey.get? candidateKey).isNone ∧
        candidate.id ∉ m.candidatesByKey.values.map CandidateEvent.id then
      some (processMemoryPipeline localeCompare
        { m with candidatesByKey := m.candidatesByKey.set candidateKey candidate } candidate simulation
        decisionId now)
    else none
  | .review decisionId reviewDecision note now =>
    resolveMemoryReviewDecision localeCompare m decisionId reviewDecision note now

def MemoryOp.next (m : Memory) (op : MemoryOp) : Option Memory :=
  (op.step localeCompare m).map Prod.fst

end

/-! ## what an operation does -/

/-- the decision an operation writes -/
def MemoryOp.target (m : Memory) : MemoryOp → Option Target
  | .ingest _ candidate _ _ _ =>
    some ⟨candidate, .policyGate, decisionForConfidence candidate.confidence⟩
  | .review decisionId reviewDecision _ _ => do
    let d ← m.memoryDecisions.values.find? fun decision => decision.id = decisionId
    let candidate ← m.memoryCandidatesById.get? d.candidateEventId
    return ⟨candidate, d.agentName, reviewDecision.verdict⟩

def MemoryOp.preview : MemoryOp → Bool
  | .ingest _ _ simulation _ _ => previewOnly simulation
  | .review .. => false

/-- every decision is about a recorded candidate, and a candidate is recorded under one id -/
structure Memory.Wf (m : Memory) : Prop where
  id_inj : ∀ c ∈ m.candidatesByKey.values, ∀ c' ∈ m.candidatesByKey.values, c.id = c'.id → c = c'
  recorded : ∀ id c, m.memoryCandidatesById.get? id = some c →
    c.id = id ∧ c ∈ m.candidatesByKey.values
  decided : ∀ id d, m.memoryDecisions.get? id = some d →
    d.candidateEventId = id ∧ ∃ c, m.memoryCandidatesById.get? id = some c

theorem Memory.empty_wf : Memory.empty.Wf where
  id_inj _ h := absurd h List.not_mem_nil
  recorded _ _ h := nomatch h
  decided _ _ h := nomatch h

section
variable {localeCompare : String → String → Int}

namespace MemoryOp

/-- the candidate was recorded, or is recorded now under a key and an id that were free -/
inductive CandidateEffect (m m' : Memory) (c : CandidateEvent) : Prop
  | old (hget : m.memoryCandidatesById.get? c.id = some c)
      (hbyId : m'.memoryCandidatesById = m.memoryCandidatesById)
      (hbyKey : m'.candidatesByKey = m.candidatesByKey)
  | new (key : String) (hfree : m.candidatesByKey.get? key = none)
      (hid : ∀ c' ∈ m.candidatesByKey.values, c'.id ≠ c.id)
      (hbyId : m'.memoryCandidatesById = m.memoryCandidatesById.set c.id c)
      (hbyKey : m'.candidatesByKey = m.candidatesByKey.set key c)

structure Effect (localeCompare : String → String → Int) (m m' : Memory) (op : MemoryOp)
    (c : CandidateEvent) (d : AgentDecision) : Prop where
  target : op.target m = some ⟨c, d.agentName, d.decision⟩
  id : d.candidateEventId = c.id
  decisions : m'.memoryDecisions = m.memoryDecisions.set c.id d
  candidates : CandidateEffect m m' c
  scores : (m'.memoryEpochScoresByKey = m.memoryEpochScoresByKey ∧
      (d.decision = .approve → op.preview)) ∨
    (d.decision = .approve ∧ op.preview = false ∧
      m'.memoryEpochScoresByKey = m.memoryEpochScoresByKey.set c.epochKey
        (recomputeMemoryEpochScore localeCompare m' c))

/-- the score an operation returns is the one it stores -/
def Returns (localeCompare : String → String → Int) (m' : Memory) (op : MemoryOp) (c : CandidateEvent)
    (d : AgentDecision) (res : PipelineResult) : Prop :=
  res.epochScore = if d.decision = .approve ∧ op.preview = false then
    some (recomputeMemoryEpochScore localeCompare m' c) else none

theorem processMemoryPipeline_effect {m m' : Memory} {key : String} {c : CandidateEvent}
    {simulation : Option Simulation} {decisionId : String} {now : IsoDate} {res : PipelineResult}
    (hfree : m.candidatesByKey.get? key = none) (hid : ∀ c' ∈ m.candidatesByKey.values, c'.id ≠ c.id)
    (h : processMemoryPipeline localeCompare
      { m with candidatesByKey := m.candidatesByKey.set key c } c simulation decisionId now =
        (m', res)) :
    Effect localeCompare m m' (.ingest key c simulation decisionId now) c
      (decisionForCandidate decisionId now c) ∧
    Returns localeCompare m' (.ingest key c simulation decisionId now) c
      (decisionForCandidate decisionId now c) res := by
  unfold processMemoryPipeline at h
  dsimp only at h
  split at h
  · rename_i happ
    split at h
    · rename_i hpre
      cases h
      refine ⟨⟨rfl, rfl, rfl, .new key hfree hid rfl rfl, .inl ⟨rfl, fun _ => hpre⟩⟩, ?_⟩
      exact (if_neg fun hno => absurd (hpre.symm.trans hno.2) (by decide)).symm
    · rename_i hpre
      have hno : previewOnly simulation = false := Bool.eq_false_of_not_eq_true hpre
      cases h
      exact ⟨⟨rfl, rfl, rfl, .new key hfree hid rfl rfl, .inr ⟨happ, hno, rfl⟩⟩,
        (if_pos ⟨happ, hno⟩).symm⟩
  · rename_i hne
    cases h
    exact ⟨⟨rfl, rfl, rfl, .new key hfree hid rfl rfl, .inl ⟨rfl, fun happ => absurd happ hne⟩⟩,
      (if_neg fun hno => hne hno.1).symm⟩

theorem resolveMemoryReviewDecision_effect {m m' : Memory} {decisionId note : String}
    {reviewDecision : ReviewDecision} {now : IsoDate} {res : PipelineResult} (hm : m.Wf)
    (h : resolveMemoryReviewDecision localeCompare m decisionId reviewDecision note now =
      some (m', res)) :
    ∃ c d, Effect localeCompare m m' (.review decisionId reviewDecision note now) c d ∧
      Returns localeCompare m' (.review decisionId reviewDecision note now) c d res := by
  obtain ⟨current, hfind, h⟩ := Option.map_eq_some_iff.mp h
  obtain ⟨id, hget⟩ := OrderedMap.mem_values.mp (List.mem_of_find?_eq_some hfind)
  obtain ⟨hid, c, hc⟩ := hm.decided id current hget
  obtain ⟨hcid, hmem⟩ := hm.recorded id c hc
  have hccurrent : current.candidateEventId = c.id := hid.trans hcid.symm
  have hbyId : m.memoryCandidatesById.get? c.id = some c := hcid.symm ▸ hc
  have htarget : (MemoryOp.review decisionId reviewDecision note now).target m =
      some ⟨c, current.agentName, reviewDecision.verdict⟩ := by
    simp only [target, hfind, hccurrent, hbyId, Option.bind_eq_bind, Option.bind_some, Option.pure_def]
  have hitem : (m.candidatesByKey.values.find? fun item => item.id = current.candidateEventId) =
      some c := by
    cases hf : m.candidatesByKey.values.find? fun item => decide (item.id = current.candidateEventId) with
    | none => exact absurd (decide_eq_true hccurrent.symm) (List.find?_eq_none.mp hf c hmem)
    | some c' =>
      have hc' : c'.id = current.candidateEventId := of_decide_eq_true (List.find?_some hf :)
      rw [hm.id_inj c' (List.mem_of_find?_eq_some hf) c hmem (hc'.trans hccurrent)]
  refine ⟨c, current.reviewedInMemory reviewDecision note now, ?_⟩
  dsimp only at h
  rw [hitem] at h
  dsimp only at h
  split at h
  · rename_i happ
    have hverdict : reviewDecision.verdict = .approve := congrArg ReviewDecision.verdict happ
    cases h
    refine ⟨⟨htarget, hccurrent, hccurrent ▸ rfl, .old hbyId (OrderedMap.set_eq_self hbyId) rfl, ?_⟩, ?_⟩
    · exact .inr ⟨hverdict, rfl, rfl⟩
    · exact (if_pos ⟨hverdict, rfl⟩).symm
  · rename_i hne
    have hverdict : reviewDecision.verdict ≠ .approve := by
      cases reviewDecision with
      | approve => exact absurd rfl hne
      | reject => decide
    cases h
    refine ⟨⟨htarget, hccurrent, hccurrent ▸ rfl, .old hbyId (OrderedMap.set_eq_self hbyId) rfl, ?_⟩, ?_⟩
    · exact .inl ⟨rfl, fun happ => absurd happ hverdict⟩
    · exact (if_neg fun happ => hverdict happ.1).symm

/-- **What an operation does: one decision, and the score of an approval.** -/
theorem step_effect {m m' : Memory} {op : MemoryOp} {res : PipelineResult} (hm : m.Wf)
    (h : op.step localeCompare m = some (m', res)) :
    ∃ c d, Effect localeCompare m m' op c d ∧ Returns localeCompare m' op c d res := by
  cases op with
  | ingest key c simulation decisionId now =>
    unfold step at h
    dsimp only at h
    split at h
    · rename_i hfree
      refine ⟨c, _, processMemoryPipeline_effect (Option.isNone_iff_eq_none.mp hfree.1) ?_
        (Option.some.inj h)⟩
      exact fun c' hc' e => hfree.2 (e ▸ List.mem_map_of_mem hc')
    · cases h
  | review decisionId reviewDecision note now =>
    exact resolveMemoryReviewDecision_effect hm h

theorem next_effect {m m' : Memory} {op : MemoryOp} (hm : m.Wf)
    (h : op.next localeCompare m = some m') : ∃ c d, Effect localeCompare m m' op c d := by
  obtain ⟨⟨_, res⟩, hstep, rfl⟩ := Option.map_eq_some_iff.mp h
  obtain ⟨c, d, heff, -⟩ := step_effect hm hstep
  exact ⟨c, d, heff⟩

theorem Effect.wf {m m' : Memory} {op : MemoryOp} {c : CandidateEvent} {d : AgentDecision}
    (hm : m.Wf) (h : Effect localeCompare m m' op c d) : m'.Wf := by
  have hdecided (hbyId : ∀ id c', m.memoryCandidatesById.get? id = some c' →
        ∃ c', m'.memoryCandidatesById.get? id = some c')
      (hc : ∃ c', m'.memoryCandidatesById.get? c.id = some c') (id : String) (d' : AgentDecision)
      (hd' : m'.memoryDecisions.get? id = some d') :
      d'.candidateEventId = id ∧ ∃ c', m'.memoryCandidatesById.get? id = some c' := by
    rw [h.decisions] at hd'
    by_cases hid : id = c.id
    · subst hid
      rw [OrderedMap.get?_set_self] at hd'
      cases hd'
      exact ⟨h.id, hc⟩
    · rw [OrderedMap.get?_set_of_ne hid] at hd'
      obtain ⟨hid', c', hc'⟩ := hm.decided id d' hd'
      exact ⟨hid', hbyId id c' hc'⟩
  cases h.candidates with
  | old hget hbyId hbyKey =>
    refine ⟨?_, ?_, hdecided ?_ ?_⟩
    · rw [hbyKey]
      exact hm.id_inj
    · rw [hbyId, hbyKey]
      exact hm.recorded
    · rw [hbyId]
      exact fun id c' hc' => ⟨c', hc'⟩
    · rw [hbyId]
      exact ⟨c, hget⟩
  | new key hfree hid hbyId hbyKey =>
    have hvalues : m'.candidatesByKey.values = m.candidatesByKey.values ++ [c] := by
      rw [hbyKey, OrderedMap.values_set_of_none hfree]
    refine ⟨?_, ?_, hdecided ?_ ?_⟩
    · rw [hvalues]
      intro c₁ h₁ c₂ h₂ e
      rcases List.mem_append.mp h₁ with h₁ | h₁
      · rcases List.mem_append.mp h₂ with h₂ | h₂
        · exact hm.id_inj c₁ h₁ c₂ h₂ e
        · rw [List.mem_singleton.mp h₂] at e
          exact absurd e (hid c₁ h₁)
      · rw [List.mem_singleton.mp h₁] at e ⊢
        rcases List.mem_append.mp h₂ with h₂ | h₂
        · exact absurd e.symm (hid c₂ h₂)
        · exact (List.mem_singleton.mp h₂).symm
    · intro id c' hc'
      rw [hvalues]
      rw [hbyId] at hc'
      by_cases hid' : id = c.id
      · subst hid'
        rw [OrderedMap.get?_set_self] at hc'
        cases hc'
        exact ⟨rfl, List.mem_append_right _ (List.mem_singleton_self c)⟩
      · rw [OrderedMap.get?_set_of_ne hid'] at hc'
        obtain ⟨hc'id, hmem⟩ := hm.recorded id c' hc'
        exact ⟨hc'id, List.mem_append_left _ hmem⟩
    · intro id c' hc'
      rw [hbyId]
      by_cases hid' : id = c.id
      · exact ⟨c, hid' ▸ OrderedMap.get?_set_self⟩
      · exact ⟨c', (OrderedMap.get?_set_of_ne hid').trans hc'⟩
    · rw [hbyId]
      exact ⟨c, OrderedMap.get?_set_self⟩

end MemoryOp

end

end Pipeline
