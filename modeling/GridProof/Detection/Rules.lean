import Mathlib.Data.List.Sort
import Mathlib.Algebra.Order.Floor.Ring
import Mathlib.Data.Rat.Floor
import GridProof.Lib.OrderedMap
import GridProof.Ingestion.Evidence

/-!
# Candidates from evidence

Who stands behind an evidence event, how far other recent evidence agrees with it, and the candidate it
raises.  Confidences are exact numbers of four decimals, which is what the rounding of the source leaves, except
where an arithmetic is named (`roundConfidenceIn`).

* `detectCandidateFromEvidence_eq_none`   only an unknown status raises no candidate;
* `detectCandidateFromEvidence_contested`   the ceiling of a candidate that another witness contradicts.
-/

namespace Detection
open Pipeline (IsoDate CandidateEvent CandidateStatus exactly)
open Ingestion

/-! ## constants -/

/-- `AGREEMENT_WINDOW_MS` -/
def agreementWindowMs : Int := 10 * 60 * 1000

/-- `CONFLICT_CONFIDENCE_CEILING` -/
def conflictConfidenceCeiling : ℚ := 8 / 10

def crossSourceBonus : ℚ := 8 / 100
def sameSourceBonus : ℚ := 4 / 100
def maxAgreementBonus : ℚ := 16 / 100
def maxAgreedConfidence : ℚ := 97 / 100

/-- in an arithmetic that rounds its results by `round` -/
def roundConfidenceIn (round : ℚ → ℚ) (value : ℚ) : ℚ := round (⌊round (value * 10000) + 1 / 2⌋ / 10000)

def roundConfidence (value : ℚ) : ℚ := roundConfidenceIn exactly value

theorem roundConfidence_mono {value value' : ℚ} (h : value ≤ value') :
    roundConfidence value ≤ roundConfidence value' := by
  have hfloor : ⌊value * 10000 + 1 / 2⌋ ≤ ⌊value' * 10000 + 1 / 2⌋ := Int.floor_mono (by linarith)
  have hcast : (⌊value * 10000 + 1 / 2⌋ : ℚ) ≤ ⌊value' * 10000 + 1 / 2⌋ := by exact_mod_cast hfloor
  unfold roundConfidence roundConfidenceIn exactly
  exact div_le_div_of_nonneg_right hcast (by norm_num)

/-- a value of four decimals is left as it is -/
theorem roundConfidence_decimal (n : ℤ) : roundConfidence (n / 10000) = n / 10000 := by
  have hfloor : ⌊(n / 10000 : ℚ) * 10000 + 1 / 2⌋ = n := by
    rw [div_mul_cancel₀ _ (by norm_num), Int.floor_intCast_add]
    norm_num
  unfold roundConfidence roundConfidenceIn exactly
  rw [hfloor]

/-- a bound of four decimals survives the rounding -/
theorem roundConfidence_le {value : ℚ} {n : ℤ} (h : value ≤ n / 10000) :
    roundConfidence value ≤ n / 10000 :=
  (roundConfidence_mono h).trans_eq (roundConfidence_decimal n)

theorem le_roundConfidence {value : ℚ} {n : ℤ} (h : (n : ℚ) / 10000 ≤ value) :
    (n : ℚ) / 10000 ≤ roundConfidence value :=
  (roundConfidence_decimal n).symm.trans_le (roundConfidence_mono h)

/-- between the thresholds a candidate is escalated -/
theorem decision_escalate {confidence : ℚ} (hlow : 1 / 2 ≤ confidence) (hhigh : confidence < 85 / 100) :
    Pipeline.decisionForConfidence confidence = .escalate := by
  unfold Pipeline.decisionForConfidence Pipeline.decisionForConfidenceIn exactly Pipeline.autoApproveThreshold
    Pipeline.escalateThreshold
  rw [if_neg (not_le.mpr hhigh), if_pos hlow]

section
variable [JsText.Runtime]

/-! ## witnesses -/

def trimmedString (value : Option String) : String := (value.map JsText.trim).getD ""

def evidenceSourceIdentity (evidence : EvidenceEvent) : String :=
  let payload := evidence.rawPayload
  let deviceId := trimmedString payload.deviceId
  if deviceId ≠ "" then "device:" ++ JsText.toLowerCase deviceId
  else
    let reporterWallet := trimmedString payload.reporterWallet
    if reporterWallet ≠ "" then "wallet:" ++ JsText.toLowerCase reporterWallet
    else
      let providerWallet := trimmedString payload.providerWallet
      if providerWallet ≠ "" then "wallet:" ++ JsText.toLowerCase providerWallet
      else "provider:" ++ evidence.providerId

/-! ## agreement -/

structure AgreementScore where
  agreeing : ℕ
  conflicting : ℕ
  crossSource : Bool
  bonus : ℚ
  supportingEvidenceIds : List String

def isEarlier (left right : EvidenceEvent) : Bool :=
  let leftAt := left.observedAt.getTime
  let rightAt := right.observedAt.getTime
  if leftAt ≠ rightAt then decide (leftAt < rightAt)
  else decide (JsText.localeCompare left.id right.id < 0)

/-- the other event is of the same zone and window, by another witness, and knows its status -/
def counts (subject other : EvidenceEvent) : Bool :=
  other.id ≠ subject.id && other.zoneId = subject.zoneId && other.status ≠ .unknown &&
    evidenceSourceIdentity other ≠ evidenceSourceIdentity subject &&
    (other.observedAt.getTime - subject.observedAt.getTime).natAbs ≤ agreementWindowMs

/-- the maps of the loop: who agrees, with the earliest event, and who does not -/
structure Tally where
  agreeingByIdentity : OrderedMap String EvidenceEvent
  conflictingIdentities : List String

def Tally.empty : Tally := ⟨.empty, []⟩

/-- the body of the loop -/
def Tally.add (subject : EvidenceEvent) (t : Tally) (other : EvidenceEvent) : Tally :=
  if !counts subject other then t
  else
    let identity := evidenceSourceIdentity other
    if other.status ≠ subject.status then
      { t with conflictingIdentities := t.conflictingIdentities.insert identity }
    else
      match t.agreeingByIdentity.get? identity with
      | some existing =>
        if isEarlier other existing then
          { t with agreeingByIdentity := t.agreeingByIdentity.set identity other }
        else t
      | none => { t with agreeingByIdentity := t.agreeingByIdentity.set identity other }

def tally (subject : EvidenceEvent) (recentEvidence : List EvidenceEvent) : Tally :=
  recentEvidence.foldl (Tally.add subject) .empty

def scoreCrossSourceAgreement (subject : EvidenceEvent) (recentEvidence : List EvidenceEvent) :
    AgreementScore :=
  let t := tally subject recentEvidence
  let agreeingEvents := t.agreeingByIdentity.values.insertionSort fun left right => isEarlier left right
  let bonus := (agreeingEvents.map fun event =>
    if event.source = subject.source then sameSourceBonus else crossSourceBonus).sum
  { agreeing := agreeingEvents.length
    conflicting := t.conflictingIdentities.length
    crossSource := agreeingEvents.any fun event => event.source ≠ subject.source
    bonus := roundConfidence (min bonus maxAgreementBonus)
    supportingEvidenceIds := agreeingEvents.map EvidenceEvent.id }

def applyAgreement (base : ℚ) (agreement : AgreementScore) : ℚ :=
  let corroborated := min (base + agreement.bonus) maxAgreedConfidence
  let contested :=
    if agreement.conflicting > 0 then min corroborated conflictConfidenceCeiling else corroborated
  roundConfidence (min (max contested 0) 1)

def confidenceForEvidence (evidence : EvidenceEvent) : ℚ :=
  if evidence.source = .reporter then evidence.confidenceHint.getD (65 / 100)
  else if evidence.status = .gridDown ∧ ∃ voltage ∈ evidence.voltage, voltage ≤ 5 then 95 / 100
  else if evidence.status = .gridUp ∧ ∃ voltage ∈ evidence.voltage, 180 ≤ voltage then 9 / 10
  else evidence.confidenceHint.getD (72 / 100)

/-! ## candidates -/

/-- `id` is the random id and `now` the clock's reading -/
def detectCandidateFromEvidence (evidence : EvidenceEvent) (recentEvidence : List EvidenceEvent)
    (id : String) (now : IsoDate) : Option CandidateEvent :=
  if evidence.status = .unknown then none
  else
    let agreement := scoreCrossSourceAgreement evidence recentEvidence
    some
      { id := id
        zoneId := evidence.zoneId
        status := if evidence.status = .gridDown then .outage else .restored
        confidence := applyAgreement (confidenceForEvidence evidence) agreement
        windowStart := .ofMillis (evidence.observedAt.getTime - 5 * 60 * 1000)
        windowEnd := evidence.observedAt
        evidenceEventIds := evidence.id :: agreement.supportingEvidenceIds
        createdAt := now }

theorem detectCandidateFromEvidence_eq_none {evidence : EvidenceEvent} {recentEvidence : List EvidenceEvent}
    {id : String} {now : IsoDate} :
    detectCandidateFromEvidence evidence recentEvidence id now = none ↔ evidence.status = .unknown := by
  unfold detectCandidateFromEvidence
  split
  · rename_i h
    exact iff_of_true rfl h
  · rename_i h
    exact iff_of_false (Option.some_ne_none _) h

/-! ## contested candidates -/

/-- a witness that was counted as a conflict stays counted -/
theorem Tally.add_conflicting {subject other : EvidenceEvent} {t : Tally}
    (h : t.conflictingIdentities ≠ []) : (t.add subject other).conflictingIdentities ≠ [] := by
  unfold Tally.add
  split
  · exact h
  · dsimp only
    split
    · exact List.ne_nil_of_mem List.mem_insert_self
    · split
      · split
        · exact h
        · exact h
      · exact h

theorem Tally.foldl_conflicting {subject : EvidenceEvent} (recentEvidence : List EvidenceEvent) {t : Tally}
    (h : t.conflictingIdentities ≠ []) :
    (recentEvidence.foldl (Tally.add subject) t).conflictingIdentities ≠ [] := by
  induction recentEvidence generalizing t with
  | nil => exact h
  | cons other rest ih => exact ih (Tally.add_conflicting h)

/-- an event that counts and says otherwise is a conflict -/
theorem tally_conflicting {subject other : EvidenceEvent} {recentEvidence : List EvidenceEvent}
    (hmem : other ∈ recentEvidence) (hcounts : counts subject other = true)
    (hstatus : other.status ≠ subject.status) :
    (tally subject recentEvidence).conflictingIdentities ≠ [] := by
  unfold tally
  obtain ⟨before, after, rfl⟩ := List.append_of_mem hmem
  rw [List.foldl_append, List.foldl_cons]
  refine Tally.foldl_conflicting after ?_
  unfold Tally.add
  rw [hcounts, Bool.not_true, if_neg Bool.false_ne_true]
  dsimp only
  rw [if_pos hstatus]
  exact List.ne_nil_of_mem List.mem_insert_self

omit [JsText.Runtime] in
theorem applyAgreement_le {base : ℚ} {agreement : AgreementScore} (h : 0 < agreement.conflicting) :
    applyAgreement base agreement ≤ conflictConfidenceCeiling := by
  unfold applyAgreement conflictConfidenceCeiling
  dsimp only
  rw [if_pos h]
  have hle : min (max (min (min (base + agreement.bonus) maxAgreedConfidence) (8 / 10)) 0) 1 ≤
      ((8000 : ℤ) : ℚ) / 10000 := by
    refine (min_le_left _ _).trans (max_le ((min_le_right _ _).trans ?_) ?_)
    · norm_num
    · norm_num
  exact (roundConfidence_le hle).trans (by norm_num)

theorem detectCandidateFromEvidence_contested {evidence other : EvidenceEvent}
    {recentEvidence : List EvidenceEvent} {id : String} {now : IsoDate} {c : CandidateEvent}
    (hc : detectCandidateFromEvidence evidence recentEvidence id now = some c)
    (hmem : other ∈ recentEvidence) (hcounts : counts evidence other = true)
    (hstatus : other.status ≠ evidence.status) : c.confidence ≤ conflictConfidenceCeiling := by
  unfold detectCandidateFromEvidence at hc
  split at hc
  · cases hc
  · obtain rfl := Option.some.inj hc
    exact applyAgreement_le (List.length_pos_of_ne_nil (tally_conflicting hmem hcounts hstatus))

end

end Detection
