import GridProof.Pipeline.Memory
import GridProof.Pipeline.Review
import GridProof.Pipeline.ReviewQueue

/-!
# Alerts

What the public feed says of a decision that reviewers have decided on, from the rows of the database or
from the maps of the in-memory store.

* `alertFromDecision`, `initialHypothesis`   an alert, with the reviewer's note taken off the hypothesis;
* `reviewFromDecisionRow`, `memoryReviewForDecision`   the review of an alert, in the two modes;
* `ApiState`           the database or the maps, with the audit log of the reviews;
* `Tells`              the alert tells the original decision and the latest review;
* `alert_tells_iff`    it does iff there was one review.

The audit log holds other entries too; nothing here reads them.
-/

namespace Pipeline

/-! ## alerts -/

structure AlertReview where
  initialDecision : Verdict
  decision : ReviewDecision
  note : String
  reviewedAt : Option IsoDate

structure AlertItem where
  id : String
  candidateEventId : String
  zoneId : String
  status : CandidateStatus
  confidence : ℚ
  decision : Verdict
  hypothesis : String
  supportingEvidenceIds : List String
  review : Option AlertReview
  createdAt : IsoDate
  candidateCreatedAt : IsoDate

/-- what a review appends to a hypothesis -/
def noteSuffix (reviewNote : String) : String := " Reviewer note: " ++ reviewNote

def initialHypothesis (hypothesis reviewNote : String) : String :=
  if (noteSuffix reviewNote).toList <:+ hypothesis.toList then
    String.ofList (hypothesis.toList.take (hypothesis.length - (noteSuffix reviewNote).length))
  else hypothesis

def alertFromDecision (decision : AgentDecision) (candidate : CandidateEvent)
    (review : Option AlertReview) : AlertItem where
  id := decision.id
  candidateEventId := candidate.id
  zoneId := candidate.zoneId
  status := candidate.status
  confidence := decision.confidence
  decision := decision.decision
  hypothesis :=
    match review with
    | some review => initialHypothesis decision.hypothesis review.note
    | none => decision.hypothesis
  supportingEvidenceIds := decision.supportingEvidenceIds
  review := review
  createdAt := decision.createdAt
  candidateCreatedAt := candidate.createdAt

/-! ## the review of an alert -/

/-- a verdict that a reviewer can give -/
def Verdict.reviewDecision : Verdict → Option ReviewDecision
  | .approve => some .approve
  | .reject => some .reject
  | .escalate => none

/-- a string that is not empty -/
def nonEmpty (s : String) : Option String := if s = "" then none else some s

/-- the entry of `audit_logs` about a review: its `before` and `after` hold the decision -/
structure ReviewAudit where
  before : AgentDecision
  after : AgentDecision
  note : String
  createdAt : IsoDate

def memoryReviewForDecision (auditLogs : List ReviewAudit) (decisionId : String) :
    Option AlertReview := do
  let audit ← auditLogs.find? fun item => nonEmpty item.after.id = some decisionId
  let decision ← audit.after.decision.reviewDecision
  let note ← nonEmpty audit.note
  return ⟨audit.before.decision, decision, note, some audit.createdAt⟩

def reviewFromReasoningTrace (trace : ReasoningTrace) : Option AlertReview := do
  let review ← trace.review
  let decision ← review.decision.reviewDecision
  let note ← nonEmpty review.note
  if review.reviewedAt.text = "" then none
  else return ⟨review.initialDecision, decision, note, some review.reviewedAt⟩

/-- `order by al.created_at desc` -/
def newestAudit (a b : ReviewAudit) : Prop := b.createdAt.micros ≤ a.createdAt.micros

instance : DecidableRel newestAudit := fun _ _ => inferInstanceAs (Decidable (_ ≤ _))

/-- the latest entry about the decision, which the query joins to it -/
def latestReviewAudit (auditLogs : List ReviewAudit) (decisionId : String) : Option ReviewAudit :=
  ((auditLogs.filter fun al => al.after.id = decisionId).insertionSort newestAudit).head?

def reviewFromAudit (d : AgentDecision) (audit : Option ReviewAudit) : Option AlertReview := do
  let audit ← audit
  let decision ← d.decision.reviewDecision
  let note ← nonEmpty audit.note
  return ⟨audit.before.decision, decision, note, some audit.createdAt.readBack⟩

/-- the note of a review that left no entry is the draft -/
def reviewFromDraft (d : AgentDecision) : Option AlertReview :=
  let initialDecision := decisionForConfidence d.confidence
  if initialDecision = d.decision then none
  else do
    let decision ← d.decision.reviewDecision
    let note ← d.notificationDraft.bind nonEmpty
    return ⟨initialDecision, decision, note, none⟩

def reviewFromDecisionRow (d : AgentDecision) (audit : Option ReviewAudit) : Option AlertReview :=
  (reviewFromReasoningTrace d.reasoningTrace).or ((reviewFromAudit d audit).or (reviewFromDraft d))

/-! ## the feed -/

/-- the database branch of `listAlertItems` -/
def listDatabaseAlertItems (db : Db) (auditLogs : List ReviewAudit) (limit : Nat) : List AlertItem :=
  ((db.decisions.rows.insertionSort newestFirst).filterMap fun d =>
    (db.candidates.get? d.candidateEventId).map fun row =>
      alertFromDecision { d with createdAt := d.createdAt.readBack } row.event.readBack
        (reviewFromDecisionRow d (latestReviewAudit auditLogs d.id))).take limit

/-- `right.createdAt.localeCompare(left.createdAt)` is not positive -/
def newestAlert (localeCompare : String → String → Int) (left right : AlertItem) : Prop :=
  localeCompare right.createdAt.text left.createdAt.text ≤ 0

instance (localeCompare : String → String → Int) : DecidableRel (newestAlert localeCompare) :=
  fun _ _ => inferInstanceAs (Decidable (_ ≤ _))

/-- the memory branch of `listAlertItems` -/
def listMemoryAlertItems (localeCompare : String → String → Int) (m : Memory)
    (auditLogs : List ReviewAudit) (limit : Nat) : List AlertItem :=
  ((m.memoryDecisions.values.filterMap fun decision =>
    (m.memoryCandidatesById.get? decision.candidateEventId).map fun candidate =>
      alertFromDecision decision candidate (memoryReviewForDecision auditLogs decision.id)).insertionSort
        (newestAlert localeCompare)).take limit

/-! ## the two modes -/

/-- what the API stores: a database, or the maps of the in-memory store -/
inductive ApiState where
  | database (system : System) (auditLogs : List ReviewAudit)
  | memory (memory : Memory) (auditLogs : List ReviewAudit)

structure Reviewing where
  decision : ReviewDecision
  note : String
  /-- the clock, in milliseconds -/
  reviewedAt : Int

inductive ApiOp where
  | ingest (row : CandidateRow) (simulation : Option Simulation) (decisionId : String) (now : IsoDate)
  | deliver (job : AgentReviewJob) (result : OrchestrationResult) (decisionId : String) (now : IsoDate)
  /-- the entry of the audit log is written at `auditedAt`, unless the database refuses it -/
  | review (decisionId : String) (review : Reviewing) (auditedAt : IsoDate) (refused : Bool)

namespace ApiState

section
variable (localeCompare : String → String → Int)

def next : ApiState → ApiOp → Option ApiState
  | .database s auditLogs, .ingest row simulation decisionId now =>
    (Pipeline.next s (.ingest row simulation decisionId now)).map (.database · auditLogs)
  | .database s auditLogs, .deliver job result decisionId now =>
    (Pipeline.next s (.deliver job result decisionId now)).map (.database · auditLogs)
  | .database s auditLogs, .review decisionId review auditedAt refused => do
    let before ← s.db.decisions.get? decisionId
    let (s', result) ← step s (.review decisionId review.decision review.note
      (.ofMillis review.reviewedAt))
    let entry : ReviewAudit := ⟨before, result.decision, review.note, auditedAt⟩
    return .database s' (if refused then auditLogs else auditLogs ++ [entry])
  | .memory m auditLogs, .ingest row simulation decisionId now =>
    (MemoryOp.next localeCompare m (.ingest row.candidateKey row.event simulation decisionId now)).map
      (.memory · auditLogs)
  | .memory _ _, .deliver .. => none
  | .memory m auditLogs, .review decisionId review auditedAt _ => do
    let before ← m.memoryDecisions.values.find? fun decision => decision.id = decisionId
    let (m', result) ← resolveMemoryReviewDecision localeCompare m decisionId review.decision review.note
      (.ofMillis review.reviewedAt)
    return .memory m' (auditLogs ++ [⟨before, result.decision, review.note, auditedAt⟩])

def listAlertItems : ApiState → Nat → List AlertItem
  | .database s auditLogs, limit => listDatabaseAlertItems s.db auditLogs limit
  | .memory m auditLogs, limit => listMemoryAlertItems localeCompare m auditLogs limit

end

def decisions : ApiState → List AgentDecision
  | .database s _ => s.db.decisions.rows
  | .memory m _ => m.memoryDecisions.values

end ApiState

/-! ## notes and the hypothesis -/

def hypothesisAfter (hypothesis : String) (reviews : List Reviewing) : String :=
  reviews.foldl (fun h review => h ++ noteSuffix review.note) hypothesis

theorem hypothesisAfter_concat (hypothesis : String) (reviews : List Reviewing) (r : Reviewing) :
    hypothesisAfter hypothesis (reviews ++ [r]) =
      hypothesisAfter hypothesis reviews ++ noteSuffix r.note := by
  unfold hypothesisAfter
  rw [List.foldl_append]
  rfl

theorem length_hypothesisAfter (hypothesis : String) (reviews : List Reviewing) :
    (hypothesisAfter hypothesis reviews).length =
      hypothesis.length + (reviews.map fun r => (noteSuffix r.note).length).sum := by
  unfold hypothesisAfter
  induction reviews generalizing hypothesis with
  | nil => rfl
  | cons r reviews ih =>
    rw [List.foldl_cons, ih, String.length_append, List.map_cons, List.sum_cons]
    omega

theorem length_noteSuffix_pos (note : String) : 0 < (noteSuffix note).length := by
  unfold noteSuffix
  rw [String.length_append]
  exact Nat.add_pos_left (by decide) _

/-- the note that was appended last comes off -/
theorem initialHypothesis_append (hypothesis note : String) :
    initialHypothesis (hypothesis ++ noteSuffix note) note = hypothesis := by
  unfold initialHypothesis
  rw [String.toList_append, if_pos (List.suffix_append _ _), String.length_append, Nat.add_sub_cancel,
    ← String.length_toList, List.take_left, String.ofList_toList]

/-- no more than one note comes off -/
theorem length_initialHypothesis (hypothesis note : String) :
    hypothesis.length ≤ (initialHypothesis hypothesis note).length + (noteSuffix note).length := by
  unfold initialHypothesis
  split
  · rw [String.length_ofList, List.length_take, String.length_toList]
    omega
  · omega

/-- with two notes or more, what is left when one of them comes off is not the first text -/
theorem initialHypothesis_ne {hypothesis : String} {reviews : List Reviewing} {r : Reviewing}
    (hr : r ∈ reviews) (htwo : 1 < reviews.length) :
    initialHypothesis (hypothesisAfter hypothesis reviews) r.note ≠ hypothesis := by
  intro he
  have hlength := length_initialHypothesis (hypothesisAfter hypothesis reviews) r.note
  rw [he, length_hypothesisAfter] at hlength
  obtain ⟨before, after, rfl⟩ := List.append_of_mem hr
  rw [List.map_append, List.map_cons, List.sum_append, List.sum_cons] at hlength
  rw [List.length_append, List.length_cons] at htwo
  have hpos (q : Reviewing) (qs : List Reviewing) :
      0 < ((q :: qs).map fun r => (noteSuffix r.note).length).sum := by
    rw [List.map_cons, List.sum_cons]
    exact Nat.add_pos_left (length_noteSuffix_pos q.note) _
  cases before with
  | cons q qs =>
    have := hpos q qs
    omega
  | nil =>
    cases after with
    | cons q qs =>
      have := hpos q qs
      omega
    | nil => exact absurd htwo (by decide)

/-! ## a decision and its reviews -/

/-- the row of the decision `d` after the reviews -/
structure Reviewed (d : AgentDecision) (reviews : List Reviewing) (row : AgentDecision) : Prop where
  id : row.id = d.id
  key : row.key = d.key
  hypothesis : row.hypothesis = hypothesisAfter d.hypothesis reviews
  first : reviews = [] → row.decision = d.decision
  last : ∀ r ∈ reviews.getLast?, row.decision = r.decision.verdict ∧ ∃ initialDecision,
    row.reasoningTrace.review =
      some ⟨initialDecision, r.decision.verdict, r.note, .ofMillis r.reviewedAt⟩ ∧
    (reviews.length = 1 → initialDecision = d.decision)

theorem Reviewed.refl (d : AgentDecision) : Reviewed d [] d :=
  ⟨rfl, rfl, rfl, fun _ => rfl, fun _ h => nomatch h⟩

/-- the row after one more review; the two modes differ in the draft only -/
theorem Reviewed.concat {d row row' : AgentDecision} {reviews : List Reviewing} {r : Reviewing}
    (h : Reviewed d reviews row) (hid : row'.id = row.id) (hkey : row'.key = row.key)
    (hdecision : row'.decision = r.decision.verdict)
    (hhypothesis : row'.hypothesis = row.hypothesis ++ " Reviewer note: " ++ r.note)
    (hreview : row'.reasoningTrace.review =
      some ⟨row.decision, r.decision.verdict, r.note, .ofMillis r.reviewedAt⟩) :
    Reviewed d (reviews ++ [r]) row' := by
  refine ⟨hid.trans h.id, hkey.trans h.key, ?_, fun hnil => absurd hnil (by simp), fun q hq => ?_⟩
  · rw [hhypothesis, h.hypothesis, hypothesisAfter_concat, String.append_assoc]
    rfl
  · rw [List.getLast?_concat] at hq
    obtain rfl := Option.some.inj hq
    refine ⟨hdecision, row.decision, hreview, fun hone => h.first ?_⟩
    rw [List.length_append, List.length_singleton] at hone
    exact List.eq_nil_of_length_eq_zero (by omega)

/-- the first entry of the audit log about the decision is that of the first review -/
structure Audited (d : AgentDecision) (reviews : List Reviewing) (auditLogs : List ReviewAudit) :
    Prop where
  unaudited : reviews = [] → ∀ al ∈ auditLogs, al.after.id ≠ d.id
  first : ∀ r ∈ reviews.head?, ∃ al,
    (auditLogs.find? fun item => nonEmpty item.after.id = some d.id) = some al ∧
      al.before.decision = d.decision ∧ al.after.decision = r.decision.verdict ∧ al.note = r.note

theorem nonEmpty_eq_some {s t : String} : nonEmpty s = some t ↔ s = t ∧ t ≠ "" := by
  unfold nonEmpty
  split
  · rename_i h
    refine iff_of_false nofun ?_
    rintro ⟨rfl, hne⟩
    exact hne h
  · rename_i h
    rw [Option.some_inj]
    refine ⟨?_, And.left⟩
    rintro rfl
    exact ⟨rfl, h⟩

/-- an entry about another decision -/
theorem Audited.other {d : AgentDecision} {reviews : List Reviewing} {auditLogs : List ReviewAudit}
    {al : ReviewAudit} (h : Audited d reviews auditLogs) (hne : al.after.id ≠ d.id) :
    Audited d reviews (auditLogs ++ [al]) := by
  refine ⟨fun hnil item hitem => ?_, fun r hr => ?_⟩
  · rcases List.mem_append.mp hitem with hold | hnew
    · exact h.unaudited hnil item hold
    · rw [List.mem_singleton.mp hnew]
      exact hne
  · obtain ⟨first, hfind, hfirst⟩ := h.first r hr
    exact ⟨first, by rw [List.find?_append, hfind]; rfl, hfirst⟩

/-- the entry of one more review -/
theorem Audited.concat {d row : AgentDecision} {reviews : List Reviewing}
    {auditLogs : List ReviewAudit} {r : Reviewing} {al : ReviewAudit} (hid : d.id ≠ "")
    (h : Audited d reviews auditLogs) (hrow : Reviewed d reviews row) (hbefore : al.before = row)
    (hafter : al.after.id = d.id) (hdecision : al.after.decision = r.decision.verdict)
    (hnote : al.note = r.note) : Audited d (reviews ++ [r]) (auditLogs ++ [al]) := by
  refine ⟨fun hnil => absurd hnil (by simp), fun q hq => ?_⟩
  rw [List.find?_append]
  cases reviews with
  | nil =>
    obtain rfl := Option.some.inj hq
    have hnone : (auditLogs.find? fun item => nonEmpty item.after.id = some d.id) = none := by
      refine List.find?_eq_none.mpr fun item hitem hfound => ?_
      exact h.unaudited rfl item hitem (nonEmpty_eq_some.mp (of_decide_eq_true hfound)).1
    refine ⟨al, ?_, ?_, hdecision, hnote⟩
    · rw [hnone, List.find?_singleton, if_pos]
      · rfl
      · exact decide_eq_true (nonEmpty_eq_some.mpr ⟨hafter, hid⟩)
    · rw [hbefore]
      exact hrow.first rfl
  | cons p ps =>
    obtain ⟨first, hfind, hfirst⟩ := h.first p rfl
    obtain rfl := Option.some.inj hq
    exact ⟨first, by rw [hfind]; rfl, hfirst⟩

/-! ## reviews in the database -/

/-- what an operation that decides on other rows leaves -/
theorem Effect.row_mem {s s' : System} {op : Op} {d row : AgentDecision} {score : Option EpochScore}
    (h : Effect s s' op d score) (hrow : row ∈ s.db.decisions.rows)
    (hne : ∀ t ∈ op.target s, (t.candidate.id, t.agentName) ≠ row.key) : row ∈ s'.db.decisions.rows := by
  obtain ⟨c, -, hid, htarget⟩ := h.target
  refine h.puts.of_ne hrow fun he => hne _ htarget ?_
  rw [he]
  exact Prod.ext hid rfl

namespace ApiOp

/-- the review of the decision, if the operation is one -/
def reviewing (decisionId : String) : ApiOp → Option Reviewing
  | .review id r _ _ => if id = decisionId then some r else none
  | _ => none

/-- no job of the worker writes the row of the decision again, and no other decision draws its id -/
def OnlyReviewed (d : AgentDecision) : ApiOp → Prop
  | .ingest _ _ decisionId _ => decisionId ≠ d.id
  | .deliver job _ _ _ => (job.candidate.id, AgentName.verificationAgent) ≠ d.key
  | .review .. => True

end ApiOp

/-- the row of the decision after an operation on the database -/
theorem reviewed_database {d row : AgentDecision} {reviews : List Reviewing} {s s' : System}
    {auditLogs auditLogs' : List ReviewAudit} {localeCompare : String → String → Int} {op : ApiOp}
    (hs : s.Wf) (hrow : row ∈ s.db.decisions.rows) (hreviewed : Reviewed d reviews row)
    (hop : op.OnlyReviewed d)
    (h : ApiState.next localeCompare (.database s auditLogs) op = some (.database s' auditLogs')) :
    s'.Wf ∧ ∃ row' ∈ s'.db.decisions.rows, Reviewed d (reviews ++ (op.reviewing d.id).toList) row' := by
  cases op with
  | ingest new simulation decisionId now =>
    obtain ⟨t, ht, he⟩ := Option.map_eq_some_iff.mp h
    cases he
    obtain ⟨res, d', hstep, heff⟩ := next_effect hs ht
    refine ⟨heff.wf hs, row, heff.row_mem hrow fun t ht => ?_, ?_⟩
    · -- the candidate of the row is recorded, so its id is not the new one's
      obtain rfl := Option.some.inj ht
      obtain ⟨candidates, hins, -⟩ := Option.bind_eq_some_iff.mp hstep
      obtain ⟨c, hc, hid⟩ := hs.decisions row hrow
      intro hkey
      apply (Table.insert_eq_some hins).2.1 c hc
      exact hid.trans (congrArg Prod.fst hkey).symm
    · exact (List.append_nil reviews).symm ▸ hreviewed
  | deliver job result decisionId now =>
    obtain ⟨t, ht, he⟩ := Option.map_eq_some_iff.mp h
    cases he
    obtain ⟨res, d', hstep, heff⟩ := next_effect hs ht
    refine ⟨heff.wf hs, row, heff.row_mem hrow fun t ht => ?_, ?_⟩
    · obtain rfl := Option.some.inj ht
      rw [hreviewed.key]
      exact hop
    · exact (List.append_nil reviews).symm ▸ hreviewed
  | review decisionId r auditedAt refused =>
    obtain ⟨before, hget, h⟩ := Option.bind_eq_some_iff.mp h
    obtain ⟨⟨t, result⟩, hstep, h⟩ := Option.bind_eq_some_iff.mp h
    cases h
    have hnext : Pipeline.next s (.review decisionId r.decision r.note (.ofMillis r.reviewedAt)) =
        some s' := Option.map_eq_some_iff.mpr ⟨_, hstep, rfl⟩
    obtain ⟨_, d', -, heff⟩ := next_effect hs hnext
    refine ⟨next_wf hs hnext, ?_⟩
    by_cases hid : decisionId = d.id
    · obtain ⟨old, hold, hresult, hmem⟩ := step_review hstep
      obtain ⟨holdmem, holdid⟩ := Table.get?_eq_some.mp hold
      obtain rfl := Table.eq_of_id hrow holdmem (hreviewed.id.trans (hid.symm.trans holdid.symm))
      refine ⟨result.decision, hmem, ?_⟩
      rw [show (ApiOp.review decisionId r auditedAt refused).reviewing d.id = some r from if_pos hid]
      rw [hresult]
      exact hreviewed.concat rfl rfl rfl rfl rfl
    · refine ⟨row, heff.row_mem hrow fun t ht hkey => ?_, ?_⟩
      · -- the row with the key of the row that is reviewed is that row
        obtain ⟨hmem, hbid⟩ := Table.get?_eq_some.mp hget
        obtain ⟨c, hc, hcid⟩ := hs.decisions before hmem
        have hcget : s.db.candidates.get? before.candidateEventId = some c :=
          Table.get?_eq_some.mpr ⟨hc, hcid⟩
        simp only [Op.target, Option.bind_eq_bind, hget, hcget, Option.bind_some, Option.pure_def,
          Option.mem_def, Option.some_inj] at ht
        obtain rfl := ht
        have hsame : before.key = row.key := by
          rw [← hkey]
          exact Prod.ext hcid.symm rfl
        obtain rfl := Table.eq_of_key hmem hrow hsame
        exact hid (hbid.symm.trans hreviewed.id)
      · rw [show (ApiOp.review decisionId r auditedAt refused).reviewing d.id = none from if_neg hid]
        rw [Option.toList_none, List.append_nil]
        exact hreviewed

/-! ## reviews in memory -/

/-- the decision that a review in memory leaves -/
theorem resolveMemoryReviewDecision_decision {localeCompare : String → String → Int} {m m' : Memory}
    {decisionId note : String} {reviewDecision : ReviewDecision} {now : IsoDate} {res : PipelineResult}
    (h : resolveMemoryReviewDecision localeCompare m decisionId reviewDecision note now =
      some (m', res)) : ∃ current,
    (m.memoryDecisions.values.find? fun decision => decision.id = decisionId) = some current ∧
      res.decision = current.reviewedInMemory reviewDecision note now ∧
      m'.memoryDecisions = m.memoryDecisions.set current.candidateEventId res.decision := by
  obtain ⟨current, hfind, h⟩ := Option.map_eq_some_iff.mp h
  refine ⟨current, hfind, ?_⟩
  dsimp only at h
  split at h
  · cases h
    exact ⟨rfl, rfl⟩
  · split at h
    · cases h
      exact ⟨rfl, rfl⟩
    · cases h
      exact ⟨rfl, rfl⟩

/-- the decision in the maps, and the only one with its id -/
structure Kept (d : AgentDecision) (reviews : List Reviewing) (m : Memory) : Prop where
  wf : m.Wf
  row : ∃ row, m.memoryDecisions.get? d.candidateEventId = some row ∧ Reviewed d reviews row
  unique : ∀ id row, m.memoryDecisions.get? id = some row → row.id = d.id → id = d.candidateEventId

/-- another decision is set -/
theorem Kept.set {d : AgentDecision} {reviews : List Reviewing} {m m' : Memory} {id : String}
    {other : AgentDecision} (h : Kept d reviews m) (hwf : m'.Wf)
    (hset : m'.memoryDecisions = m.memoryDecisions.set id other) (hid : id ≠ d.candidateEventId)
    (hother : other.id ≠ d.id) : Kept d reviews m' := by
  obtain ⟨row, hget, hreviewed⟩ := h.row
  refine ⟨hwf, ⟨row, ?_, hreviewed⟩, fun k row' hget' hrow' => ?_⟩
  · rw [hset, OrderedMap.get?_set_of_ne hid.symm]
    exact hget
  · rw [hset, OrderedMap.get?_set] at hget'
    split at hget'
    · cases hget'
      exact absurd hrow' hother
    · exact h.unique k row' hget' hrow'

/-- the decision itself is set -/
theorem Kept.review {d row' : AgentDecision} {reviews reviews' : List Reviewing} {m m' : Memory}
    (h : Kept d reviews m) (hwf : m'.Wf)
    (hset : m'.memoryDecisions = m.memoryDecisions.set d.candidateEventId row')
    (hreviewed : Reviewed d reviews' row') : Kept d reviews' m' := by
  refine ⟨hwf, ⟨row', ?_, hreviewed⟩, fun k row hget hrow => ?_⟩
  · rw [hset, OrderedMap.get?_set_self]
  · rw [hset, OrderedMap.get?_set] at hget
    split at hget
    · rename_i hk
      exact hk
    · exact h.unique k row hget hrow

theorem reviewed_memory {d : AgentDecision} {reviews : List Reviewing} {m m' : Memory}
    {auditLogs auditLogs' : List ReviewAudit} {localeCompare : String → String → Int} {op : ApiOp}
    (hid : d.id ≠ "") (hm : Kept d reviews m) (haudited : Audited d reviews auditLogs)
    (hop : op.OnlyReviewed d)
    (h : ApiState.next localeCompare (.memory m auditLogs) op = some (.memory m' auditLogs')) :
    Kept d (reviews ++ (op.reviewing d.id).toList) m' ∧
      Audited d (reviews ++ (op.reviewing d.id).toList) auditLogs' := by
  obtain ⟨row, hget, hreviewed⟩ := hm.row
  cases op with
  | ingest new simulation decisionId now =>
    obtain ⟨t, ht, he⟩ := Option.map_eq_some_iff.mp h
    cases he
    rw [show reviews ++ (ApiOp.reviewing d.id (.ingest new simulation decisionId now)).toList = reviews
      from List.append_nil reviews]
    refine ⟨?_, haudited⟩
    obtain ⟨⟨_, res⟩, hstep, rfl⟩ := Option.map_eq_some_iff.mp ht
    unfold MemoryOp.step at hstep
    dsimp only at hstep
    split at hstep
    · rename_i hfree
      have hfresh : ∀ c ∈ m.candidatesByKey.values, c.id ≠ new.event.id :=
        fun c hc he => hfree.2 (he ▸ List.mem_map_of_mem hc)
      obtain ⟨heff, -⟩ := MemoryOp.processMemoryPipeline_effect (Option.isNone_iff_eq_none.mp hfree.1)
        hfresh (Option.some.inj hstep)
      refine hm.set (heff.wf hm.wf) heff.decisions ?_ hop
      -- the candidate of the decision is recorded, so its id is not the new one's
      obtain ⟨-, c, hc⟩ := hm.wf.decided _ row hget
      obtain ⟨hcid, hmem⟩ := hm.wf.recorded _ c hc
      exact fun he => hfresh c hmem (hcid.trans he.symm)
    · cases hstep
  | deliver job result decisionId now => cases h
  | review decisionId r auditedAt refused =>
    obtain ⟨before, hfind, h⟩ := Option.bind_eq_some_iff.mp h
    obtain ⟨⟨t, result⟩, hresolve, h⟩ := Option.bind_eq_some_iff.mp h
    cases h
    obtain ⟨_, _, heff, -⟩ := MemoryOp.resolveMemoryReviewDecision_effect hm.wf hresolve
    have hwf := heff.wf hm.wf
    obtain ⟨current, hcurrent, hresult, hset⟩ := resolveMemoryReviewDecision_decision hresolve
    obtain rfl := Option.some.inj (hfind.symm.trans hcurrent)
    have hbid : before.id = decisionId := of_decide_eq_true (List.find?_some hfind :)
    obtain ⟨k, hk⟩ := OrderedMap.mem_values.mp (List.mem_of_find?_eq_some hfind)
    obtain ⟨hkid, -⟩ := hm.wf.decided k before hk
    by_cases hsame : decisionId = d.id
    · rw [show (ApiOp.review decisionId r auditedAt refused).reviewing d.id = some r from if_pos hsame]
      have hkd : k = d.candidateEventId := hm.unique k before hk (hbid.trans hsame)
      rw [hkd] at hk hkid
      obtain rfl := Option.some.inj (hk.symm.trans hget)
      have hafter : Reviewed d (reviews ++ [r]) result.decision := by
        rw [hresult]
        exact hreviewed.concat rfl rfl rfl rfl rfl
      refine ⟨hm.review hwf (hkid ▸ hset) hafter, ?_⟩
      refine haudited.concat hid hreviewed rfl hafter.id ?_ rfl
      show result.decision.decision = _
      rw [hresult]
      rfl
    · rw [show (ApiOp.review decisionId r auditedAt refused).reviewing d.id = none from if_neg hsame,
        Option.toList_none, List.append_nil]
      have hne : result.decision.id ≠ d.id := by
        rw [hresult]
        exact fun he => hsame (hbid.symm.trans he)
      refine ⟨hm.set hwf hset (fun he => ?_) hne, haudited.other hne⟩
      rw [← hkid, he] at hk
      obtain rfl := Option.some.inj (hk.symm.trans hget)
      exact hsame (hbid.symm.trans hreviewed.id)

/-! ## runs -/

namespace ApiState

/-- the decision as the reviews have left it -/
def Holds (d : AgentDecision) (reviews : List Reviewing) : ApiState → Prop
  | .database s _ => s.Wf ∧ ∃ row ∈ s.db.decisions.rows, Reviewed d reviews row
  | .memory m auditLogs => Kept d reviews m ∧ Audited d reviews auditLogs

/-- the decision is as the machine made it: no reviewer has decided on it -/
def Made (d : AgentDecision) (s : ApiState) : Prop :=
  d.id ≠ "" ∧ d.reasoningTrace.review = none ∧
    match s with
    | .database s _ => s.Wf ∧ d ∈ s.db.decisions.rows
    | .memory m auditLogs => m.Wf ∧ m.memoryDecisions.get? d.candidateEventId = some d ∧
        (∀ d' ∈ m.memoryDecisions.values, d'.id = d.id → d' = d) ∧
        ∀ al ∈ auditLogs, al.after.id ≠ d.id

theorem Made.holds {d : AgentDecision} {s : ApiState} (h : s.Made d) : s.Holds d [] := by
  obtain ⟨-, -, h⟩ := h
  cases s with
  | database s auditLogs => exact ⟨h.1, d, h.2, .refl d⟩
  | memory m auditLogs =>
    obtain ⟨hwf, hget, honly, haudit⟩ := h
    refine ⟨⟨hwf, ⟨d, hget, .refl d⟩, fun id row hrow hid => ?_⟩, fun _ => haudit, fun _ h => nomatch h⟩
    obtain rfl := honly row (OrderedMap.mem_values.mpr ⟨id, hrow⟩) hid
    exact (hwf.decided id row hrow).1.symm

variable {localeCompare : String → String → Int}

theorem next_database {s : System} {auditLogs : List ReviewAudit} {op : ApiOp} {t : ApiState}
    (h : next localeCompare (.database s auditLogs) op = some t) :
    ∃ s' auditLogs', t = .database s' auditLogs' := by
  cases op with
  | ingest row simulation decisionId now =>
    obtain ⟨s', -, rfl⟩ := Option.map_eq_some_iff.mp h
    exact ⟨s', auditLogs, rfl⟩
  | deliver job result decisionId now =>
    obtain ⟨s', -, rfl⟩ := Option.map_eq_some_iff.mp h
    exact ⟨s', auditLogs, rfl⟩
  | review decisionId r auditedAt refused =>
    obtain ⟨before, -, h⟩ := Option.bind_eq_some_iff.mp h
    obtain ⟨⟨s', result⟩, -, h⟩ := Option.bind_eq_some_iff.mp h
    exact ⟨s', _, (Option.some.inj h).symm⟩

theorem next_memory {m : Memory} {auditLogs : List ReviewAudit} {op : ApiOp} {t : ApiState}
    (h : next localeCompare (.memory m auditLogs) op = some t) :
    ∃ m' auditLogs', t = .memory m' auditLogs' := by
  cases op with
  | ingest row simulation decisionId now =>
    obtain ⟨m', -, rfl⟩ := Option.map_eq_some_iff.mp h
    exact ⟨m', auditLogs, rfl⟩
  | deliver job result decisionId now => cases h
  | review decisionId r auditedAt refused =>
    obtain ⟨before, -, h⟩ := Option.bind_eq_some_iff.mp h
    obtain ⟨⟨m', result⟩, -, h⟩ := Option.bind_eq_some_iff.mp h
    exact ⟨m', _, (Option.some.inj h).symm⟩

theorem Holds.step {d : AgentDecision} {reviews : List Reviewing} {s t : ApiState} {op : ApiOp}
    (hid : d.id ≠ "") (hs : s.Holds d reviews) (hop : op.OnlyReviewed d)
    (h : next localeCompare s op = some t) : t.Holds d (reviews ++ (op.reviewing d.id).toList) := by
  cases s with
  | database s auditLogs =>
    obtain ⟨s', auditLogs', rfl⟩ := next_database h
    obtain ⟨hwf, row, hrow, hreviewed⟩ := hs
    exact reviewed_database hwf hrow hreviewed hop h
  | memory m auditLogs =>
    obtain ⟨m', auditLogs', rfl⟩ := next_memory h
    exact reviewed_memory hid hs.1 hs.2 hop h

/-- what the reviews of a run leave of the decision -/
theorem Holds.run {d : AgentDecision} {reviews : List Reviewing} {s t : ApiState} {ops : List ApiOp}
    (hid : d.id ≠ "") (hs : s.Holds d reviews) (hops : ∀ op ∈ ops, op.OnlyReviewed d)
    (h : Runs.run (next localeCompare) s ops = some t) :
    t.Holds d (reviews ++ ops.filterMap (ApiOp.reviewing d.id)) := by
  induction ops generalizing s reviews with
  | nil =>
    cases h
    rw [List.filterMap_nil, List.append_nil]
    exact hs
  | cons op ops ih =>
    obtain ⟨u, hu, hrest⟩ := Runs.run_cons_eq_some h
    obtain ⟨hop, hops⟩ := List.forall_mem_cons.mp hops
    have htail := ih (hs.step hid hop hu) hops hrest
    rw [List.append_assoc] at htail
    cases hreviewing : op.reviewing d.id with
    | none =>
      rw [List.filterMap_cons_none hreviewing]
      rw [hreviewing] at htail
      exact htail
    | some r =>
      rw [List.filterMap_cons_some hreviewing]
      rw [hreviewing] at htail
      exact htail

end ApiState

/-! ## what an alert tells -/

/-- the alert tells the current decision, the latest note, and what the machine decided and supposed -/
def Tells (machine current : AgentDecision) (latest : Reviewing) (alert : AlertItem) : Prop :=
  ∃ review ∈ alert.review, review.decision.verdict = current.decision ∧ review.note = latest.note ∧
    review.initialDecision = machine.decision ∧ alert.hypothesis = machine.hypothesis

theorem reviewDecision_verdict (d : ReviewDecision) : d.verdict.reviewDecision = some d := by
  cases d with
  | approve => rfl
  | reject => rfl

/-- a review from the row has a note, and one review is told from the trace -/
theorem reviewFromDecisionRow_note {d : AgentDecision} {audit : Option ReviewAudit}
    {review : AlertReview} (h : reviewFromDecisionRow d audit = some review) : review.note ≠ "" := by
  rcases Option.or_eq_some_iff.mp h with h | ⟨-, h⟩
  · simp only [reviewFromReasoningTrace, Option.bind_eq_bind, Option.bind_eq_some_iff] at h
    obtain ⟨traced, -, decision, -, note, hnote, h⟩ := h
    split at h
    · cases h
    · cases h
      exact (nonEmpty_eq_some.mp hnote).2
  · rcases Option.or_eq_some_iff.mp h with h | ⟨-, h⟩
    · simp only [reviewFromAudit, Option.bind_eq_bind, Option.bind_eq_some_iff] at h
      obtain ⟨al, -, decision, -, note, hnote, h⟩ := h
      cases h
      exact (nonEmpty_eq_some.mp hnote).2
    · unfold reviewFromDraft at h
      dsimp only at h
      split at h
      · cases h
      · simp only [Option.bind_eq_bind, Option.bind_eq_some_iff] at h
        obtain ⟨decision, -, note, ⟨draft, -, hnote⟩, h⟩ := h
        cases h
        exact (nonEmpty_eq_some.mp hnote).2

theorem memoryReviewForDecision_note {auditLogs : List ReviewAudit} {decisionId : String}
    {review : AlertReview} (h : memoryReviewForDecision auditLogs decisionId = some review) :
    review.note ≠ "" := by
  simp only [memoryReviewForDecision, Option.bind_eq_bind, Option.bind_eq_some_iff] at h
  obtain ⟨al, -, decision, -, note, hnote, h⟩ := h
  cases h
  exact (nonEmpty_eq_some.mp hnote).2

theorem isoMillis_ne_empty (millis : Int) : Calendar.isoMillis millis ≠ "" := by
  intro h
  have hlength := congrArg String.length h
  unfold Calendar.isoMillis at hlength
  rw [String.length_append] at hlength
  exact absurd hlength (by simp)

/-- one review with a note, from the row -/
theorem reviewFromDecisionRow_one {d row : AgentDecision} {r : Reviewing} (h : Reviewed d [r] row)
    (hnote : r.note ≠ "") (audit : Option ReviewAudit) : ∃ reviewedAt,
    reviewFromDecisionRow row audit = some ⟨d.decision, r.decision, r.note, reviewedAt⟩ := by
  obtain ⟨-, initialDecision, hreview, hinitial⟩ := h.last r rfl
  obtain rfl := hinitial rfl
  refine ⟨some (.ofMillis r.reviewedAt), ?_⟩
  have htrace : reviewFromReasoningTrace row.reasoningTrace =
      some ⟨d.decision, r.decision, r.note, some (.ofMillis r.reviewedAt)⟩ := by
    unfold reviewFromReasoningTrace
    rw [hreview]
    simp only [Option.bind_eq_bind, Option.bind_some, reviewDecision_verdict,
      nonEmpty_eq_some.mpr ⟨rfl, hnote⟩]
    exact if_neg (isoMillis_ne_empty r.reviewedAt)
  unfold reviewFromDecisionRow
  rw [htrace]
  rfl

/-- one review with a note, from the audit log -/
theorem memoryReviewForDecision_one {d : AgentDecision} {auditLogs : List ReviewAudit} {r : Reviewing}
    (h : Audited d [r] auditLogs) (hnote : r.note ≠ "") : ∃ reviewedAt,
    memoryReviewForDecision auditLogs d.id = some ⟨d.decision, r.decision, r.note, reviewedAt⟩ := by
  obtain ⟨al, hfind, hbefore, hafter, hal⟩ := h.first r rfl
  refine ⟨some al.createdAt, ?_⟩
  unfold memoryReviewForDecision
  rw [hfind]
  simp only [Option.bind_eq_bind, Option.bind_some, hafter, reviewDecision_verdict, hal,
    nonEmpty_eq_some.mpr ⟨rfl, hnote⟩, hbefore]
  rfl

/-- **An alert of a reviewed decision tells its story iff there was one review, with a note.** -/
theorem tells_iff {d row : AgentDecision} {reviews : List Reviewing} {r : Reviewing}
    {candidate : CandidateEvent} {createdAt : IsoDate} {review : Option AlertReview}
    (h : Reviewed d reviews row) (hlast : reviews.getLast? = some r)
    (hnote : ∀ told, review = some told → told.note ≠ "")
    (hone : reviews = [r] → r.note ≠ "" → ∃ reviewedAt,
      review = some ⟨d.decision, r.decision, r.note, reviewedAt⟩) :
    Tells d row r (alertFromDecision { row with createdAt := createdAt } candidate review) ↔
      reviews.length = 1 ∧ r.note ≠ "" := by
  have hmem : r ∈ reviews := List.mem_of_getLast? hlast
  constructor
  · rintro ⟨told, htold, -, htoldNote, -, hhypothesis⟩
    obtain rfl : review = some told := htold
    refine ⟨?_, htoldNote ▸ hnote told rfl⟩
    by_contra hne
    have hpos := List.length_pos_of_mem hmem
    have hleft : initialHypothesis (hypothesisAfter d.hypothesis reviews) r.note = d.hypothesis := by
      rw [← h.hypothesis, ← htoldNote]
      exact hhypothesis
    exact initialHypothesis_ne hmem (by omega) hleft
  · rintro ⟨hlength, hne⟩
    obtain ⟨q, rfl⟩ := List.length_eq_one_iff.mp hlength
    obtain rfl := Option.some.inj hlast
    obtain ⟨reviewedAt, rfl⟩ := hone rfl hne
    refine ⟨_, rfl, (h.last q rfl).1.symm, rfl, rfl, ?_⟩
    show initialHypothesis row.hypothesis q.note = d.hypothesis
    rw [h.hypothesis]
    exact initialHypothesis_append d.hypothesis q.note

/-! ## the listed alerts -/

theorem mem_listDatabaseAlertItems {db : Db} {auditLogs : List ReviewAudit} {limit : Nat}
    {alert : AlertItem} (h : alert ∈ listDatabaseAlertItems db auditLogs limit) :
    ∃ row ∈ db.decisions.rows, ∃ candidate, alert =
      alertFromDecision { row with createdAt := row.createdAt.readBack } candidate
        (reviewFromDecisionRow row (latestReviewAudit auditLogs row.id)) := by
  obtain ⟨row, hrow, h⟩ := List.mem_filterMap.mp (List.mem_of_mem_take h)
  obtain ⟨candidate, -, rfl⟩ := Option.map_eq_some_iff.mp h
  exact ⟨row, (List.mem_insertionSort _).mp hrow, _, rfl⟩

theorem mem_listMemoryAlertItems {localeCompare : String → String → Int} {m : Memory}
    {auditLogs : List ReviewAudit} {limit : Nat} {alert : AlertItem}
    (h : alert ∈ listMemoryAlertItems localeCompare m auditLogs limit) :
    ∃ decision ∈ m.memoryDecisions.values, ∃ candidate, alert =
      alertFromDecision decision candidate (memoryReviewForDecision auditLogs decision.id) := by
  obtain ⟨decision, hmem, h⟩ :=
    List.mem_filterMap.mp ((List.mem_insertionSort _).mp (List.mem_of_mem_take h))
  obtain ⟨candidate, -, rfl⟩ := Option.map_eq_some_iff.mp h
  exact ⟨decision, hmem, candidate, rfl⟩

/-- the decision that a state keeps for `d`, and its alert -/
theorem ApiState.Holds.tells_iff {localeCompare : String → String → Int} {d current : AgentDecision}
    {reviews : List Reviewing} {r : Reviewing} {s : ApiState} {limit : Nat} {alert : AlertItem}
    (h : s.Holds d reviews) (hlast : reviews.getLast? = some r) (hcurrent : current ∈ s.decisions)
    (hid : current.id = d.id) (halert : alert ∈ s.listAlertItems localeCompare limit)
    (halertid : alert.id = d.id) :
    Tells d current r alert ↔ reviews.length = 1 ∧ r.note ≠ "" := by
  cases s with
  | database s auditLogs =>
    obtain ⟨-, row, hrow, hreviewed⟩ := h
    obtain ⟨row', hrow', candidate, rfl⟩ := mem_listDatabaseAlertItems halert
    obtain rfl := Table.eq_of_id hrow hcurrent (hreviewed.id.trans hid.symm)
    obtain rfl := Table.eq_of_id hrow hrow' (hreviewed.id.trans halertid.symm)
    refine Pipeline.tells_iff hreviewed hlast (fun told => reviewFromDecisionRow_note) ?_
    rintro rfl hne
    exact reviewFromDecisionRow_one hreviewed hne _
  | memory m auditLogs =>
    obtain ⟨⟨hwf, ⟨row, hget, hreviewed⟩, hunique⟩, haudited⟩ := h
    have honly {row' : AgentDecision} (hrow' : row' ∈ m.memoryDecisions.values)
        (hid' : row'.id = d.id) : row' = row := by
      obtain ⟨k, hk⟩ := OrderedMap.mem_values.mp hrow'
      rw [hunique k row' hk hid'] at hk
      exact Option.some.inj (hk.symm.trans hget)
    obtain ⟨decision, hdecision, candidate, rfl⟩ := mem_listMemoryAlertItems halert
    obtain rfl := honly hcurrent hid
    obtain rfl := honly hdecision halertid
    refine Pipeline.tells_iff hreviewed hlast (fun told => memoryReviewForDecision_note) ?_
    rintro rfl hne
    rw [hreviewed.id]
    exact memoryReviewForDecision_one haudited hne

/-- **In both modes the alert of a decision that reviewers have decided on tells the whole story iff it
was reviewed once, with a note.** -/
theorem alert_tells_iff {localeCompare : String → String → Int} {d current : AgentDecision}
    {s t : ApiState} {ops : List ApiOp} {latest : Reviewing} {limit : Nat} {alert : AlertItem}
    (hmade : s.Made d) (hops : ∀ op ∈ ops, op.OnlyReviewed d)
    (hrun : Runs.run (ApiState.next localeCompare) s ops = some t)
    (hlatest : (ops.filterMap (ApiOp.reviewing d.id)).getLast? = some latest)
    (hcurrent : current ∈ t.decisions) (hid : current.id = d.id)
    (halert : alert ∈ t.listAlertItems localeCompare limit) (halertid : alert.id = d.id) :
    Tells d current latest alert ↔
      (ops.filterMap (ApiOp.reviewing d.id)).length = 1 ∧ latest.note ≠ "" := by
  have hholds := hmade.holds.run hmade.1 hops hrun
  rw [List.nil_append] at hholds
  exact hholds.tells_iff hlatest hcurrent hid halert halertid

/-- the policy gate has escalated an outage -/
def escalatedDecision : AgentDecision :=
  decisionForCandidate "d1" sampleTime (sampleRow "c1" .outage (6 / 10)).event

def escalatedState : Option ApiState :=
  ApiState.next (fun _ _ => 0) (.database .empty [])
    (.ingest (sampleRow "c1" .outage (6 / 10)) none "d1" sampleTime)

theorem escalatedState_made {s : ApiState} (h : escalatedState = some s)
    (hmem : escalatedDecision ∈ s.decisions) : s.Made escalatedDecision := by
  obtain ⟨s', hnext, rfl⟩ := Option.map_eq_some_iff.mp h
  exact ⟨by decide, rfl, next_wf System.empty_wf hnext, hmem⟩

/-- two hours later -/
def sampleReview (decision : ReviewDecision) (note : String) : ApiOp :=
  .review "d1" ⟨decision, note, 1767276000000⟩ sampleTime false

theorem alert_tells_iff_once : ∃ s t current, escalatedState = some s ∧
    Runs.run (ApiState.next fun _ _ => 0) s [sampleReview .approve "seen"] = some t ∧
    current ∈ t.decisions ∧ current.decision = .approve ∧
    ∃ alert ∈ t.listAlertItems (fun _ _ => 0) 50,
      Tells escalatedDecision current ⟨.approve, "seen", 1767276000000⟩ alert := by
  have h : (escalatedState.any fun s =>
      (Runs.run (ApiState.next fun _ _ => 0) s [sampleReview .approve "seen"]).any fun t => decide
        (escalatedDecision ∈ s.decisions ∧ (∃ current ∈ t.decisions, current.id = "d1" ∧
          current.decision = .approve) ∧
          ∃ alert ∈ t.listAlertItems (fun _ _ => 0) 50, alert.id = "d1")) = true := by
    decide +kernel
  simp only [Option.any_eq_true, decide_eq_true_eq] at h
  obtain ⟨s, hs, t, hrun, hmade, ⟨current, hcurrent, hid, happrove⟩, alert, halert, halertid⟩ := h
  refine ⟨s, t, current, hs, hrun, hcurrent, happrove, alert, halert, ?_⟩
  refine (alert_tells_iff (escalatedState_made hs hmade) ?_ hrun rfl hcurrent hid halert halertid).mpr ?_
  · exact List.forall_mem_singleton.mpr trivial
  · exact ⟨rfl, by decide⟩

/-- **After two reviews the alert gives the first verdict as the machine's, and a note as its
hypothesis.** -/
theorem second_review : ∃ s t current, escalatedState = some s ∧
    Runs.run (ApiState.next fun _ _ => 0) s
      [sampleReview .reject "not seen", sampleReview .approve "seen"] = some t ∧
    s.Made escalatedDecision ∧ current ∈ t.decisions ∧ current.id = "d1" ∧
    ∃ alert ∈ t.listAlertItems (fun _ _ => 0) 50, alert.id = "d1" ∧
      (∃ review ∈ alert.review, review.initialDecision = .reject) ∧
      ¬ Tells escalatedDecision current ⟨.approve, "seen", 1767276000000⟩ alert := by
  have h : (escalatedState.any fun s =>
      (Runs.run (ApiState.next fun _ _ => 0) s
        [sampleReview .reject "not seen", sampleReview .approve "seen"]).any fun t => decide
        (escalatedDecision ∈ s.decisions ∧ (∃ current ∈ t.decisions, current.id = "d1") ∧
          ∃ alert ∈ t.listAlertItems (fun _ _ => 0) 50, alert.id = "d1" ∧
            ∃ review ∈ alert.review, review.initialDecision = .reject)) = true := by
    decide +kernel
  simp only [Option.any_eq_true, decide_eq_true_eq] at h
  obtain ⟨s, hs, t, hrun, hmade, ⟨current, hcurrent, hid⟩, alert, halert, halertid, review, hreview,
    hinitial⟩ := h
  refine ⟨s, t, current, hs, hrun, escalatedState_made hs hmade, hcurrent, hid, alert, halert, halertid,
    ⟨review, hreview, hinitial⟩, ?_⟩
  rintro ⟨told, htold, -, -, hmachine, -⟩
  obtain rfl := Option.some.inj (hreview.symm.trans htold)
  rw [hinitial] at hmachine
  exact absurd hmachine (by decide +kernel)

end Pipeline
