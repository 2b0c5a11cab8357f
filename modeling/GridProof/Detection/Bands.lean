import Mathlib.Algebra.Order.BigOperators.Group.List
import GridProof.Detection.Witnesses

/-!
# The bands of a confidence

What `detectCandidateFromEvidence` makes of a reading as ingestion stores it, without a hint.

* `baseConfidence_range`   the ladder of sources, statuses and voltages;
* `applyAgreement_mono`    the bonus raises, a conflict does not;
* `bonus_insert`           a new witness adds its part to the bonus;
* `safe_bands`             the bounds, and in which direction a witness moves the confidence.
-/

namespace Detection
open Ingestion (EvidenceEvent)
open Pipeline (IsoDate CandidateEvent decisionForConfidence)

/-! ## the ladder and the ceilings -/

theorem baseConfidence_range {evidence : EvidenceEvent} (h : evidence.confidenceHint = none) :
    65 / 100 ≤ confidenceForEvidence evidence ∧ confidenceForEvidence evidence ≤ 95 / 100 := by
  unfold confidenceForEvidence
  rw [h]
  split
  · norm_num
  · split
    · norm_num
    · split
      · norm_num
      · norm_num

theorem baseConfidence_reporter {evidence : EvidenceEvent} (h : evidence.confidenceHint = none)
    (hsource : evidence.source = .reporter) : confidenceForEvidence evidence = 65 / 100 := by
  unfold confidenceForEvidence
  rw [if_pos hsource, h]
  rfl

section
variable {base base' : ℚ} {a b : AgreementScore}

theorem applyAgreement_mono (hbase : base ≤ base') (hbonus : a.bonus ≤ b.bonus)
    (hconflict : 0 < b.conflicting → 0 < a.conflicting) : applyAgreement base a ≤ applyAgreement base' b := by
  have hcorroborated : min (base + a.bonus) maxAgreedConfidence ≤ min (base' + b.bonus) maxAgreedConfidence :=
    min_le_min_right _ (add_le_add hbase hbonus)
  unfold applyAgreement
  dsimp only
  refine roundConfidence_mono (min_le_min_right _ (max_le_max_right _ ?_))
  by_cases hb : 0 < b.conflicting
  · rw [if_pos hb, if_pos (hconflict hb)]
    exact min_le_min_right _ hcorroborated
  · rw [if_neg hb]
    split
    · exact (min_le_left _ _).trans hcorroborated
    · exact hcorroborated

theorem applyAgreement_range (hbase : 65 / 100 ≤ base) (hbonus : 0 ≤ a.bonus) :
    65 / 100 ≤ applyAgreement base a ∧ applyAgreement base a ≤ 97 / 100 := by
  have hlow : 65 / 100 ≤ min (base + a.bonus) maxAgreedConfidence :=
    le_min (by linarith) (by norm_num [maxAgreedConfidence])
  have hhigh : min (base + a.bonus) maxAgreedConfidence ≤ 97 / 100 :=
    (min_le_right _ _).trans (by norm_num [maxAgreedConfidence])
  unfold applyAgreement
  dsimp only
  generalize min (base + a.bonus) maxAgreedConfidence = corroborated at *
  have hcontested :
      65 / 100 ≤ (if a.conflicting > 0 then min corroborated conflictConfidenceCeiling else corroborated) ∧
      (if a.conflicting > 0 then min corroborated conflictConfidenceCeiling else corroborated) ≤ 97 / 100 := by
    split
    · exact ⟨le_min hlow (by norm_num [conflictConfidenceCeiling]), (min_le_left _ _).trans hhigh⟩
    · exact ⟨hlow, hhigh⟩
  generalize (if a.conflicting > 0 then min corroborated conflictConfidenceCeiling else corroborated) =
    contested at hcontested
  obtain ⟨hlow', hhigh'⟩ := hcontested
  constructor
  · have hcast : (65 : ℚ) / 100 = (6500 : ℤ) / 10000 := by norm_num
    rw [hcast] at hlow' ⊢
    exact le_roundConfidence (le_min (hlow'.trans (le_max_left _ _)) (by norm_num))
  · have hcast : (97 : ℚ) / 100 = (9700 : ℤ) / 10000 := by norm_num
    rw [hcast] at hhigh' ⊢
    exact roundConfidence_le ((min_le_left _ _).trans (max_le hhigh' (by norm_num)))

/-- a reporter with the largest bonus stays below the approval -/
theorem applyAgreement_reporter (hbonus : a.bonus ≤ 16 / 100) : applyAgreement (65 / 100) a ≤ 81 / 100 := by
  have hcast : (81 : ℚ) / 100 = (8100 : ℤ) / 10000 := by norm_num
  unfold applyAgreement
  dsimp only
  rw [hcast]
  refine roundConfidence_le ((min_le_left _ _).trans (max_le ?_ (by norm_num)))
  have hle : min (65 / 100 + a.bonus) maxAgreedConfidence ≤ ((8100 : ℤ) : ℚ) / 10000 := by
    refine (min_le_left _ _).trans ?_
    norm_num
    linarith
  split
  · exact (min_le_left _ _).trans hle
  · exact hle

end

/-! ## the bonus -/

/-- what a witness adds -/
def bonusOf (subject event : EvidenceEvent) : ℚ :=
  if event.source = subject.source then sameSourceBonus else crossSourceBonus

theorem bonusOf_nonneg (subject event : EvidenceEvent) : 0 ≤ bonusOf subject event := by
  unfold bonusOf
  split
  · norm_num [sameSourceBonus]
  · norm_num [crossSourceBonus]

section
variable [JsText.Runtime]

variable (subject : EvidenceEvent) (l : List EvidenceEvent)

theorem bonus_eq : (scoreCrossSourceAgreement subject l).bonus =
    roundConfidence (min ((agreeingEvents subject l).map (bonusOf subject)).sum maxAgreementBonus) := by
  have hperm := List.perm_insertionSort (fun left right => isEarlier left right = true) (agreeingEvents subject l)
  show roundConfidence (min (((agreeingEvents subject l).insertionSort fun left right =>
    isEarlier left right = true).map (bonusOf subject)).sum maxAgreementBonus) = _
  rw [(hperm.map (bonusOf subject)).sum_eq]

theorem bonus_range : 0 ≤ (scoreCrossSourceAgreement subject l).bonus ∧
    (scoreCrossSourceAgreement subject l).bonus ≤ 16 / 100 := by
  have hsum : 0 ≤ ((agreeingEvents subject l).map (bonusOf subject)).sum :=
    List.sum_nonneg (by simp [bonusOf_nonneg])
  rw [bonus_eq]
  constructor
  · have hzero : (0 : ℚ) = (0 : ℤ) / 10000 := by norm_num
    rw [hzero] at hsum ⊢
    exact le_roundConfidence (le_min hsum (by norm_num [maxAgreementBonus]))
  · have hcast : (16 : ℚ) / 100 = (1600 : ℤ) / 10000 := by norm_num
    rw [hcast]
    exact roundConfidence_le ((min_le_right _ _).trans (by norm_num [maxAgreementBonus]))

variable {subject} {before after : List EvidenceEvent} {e : EvidenceEvent}

/-- a new witness comes to those that agree -/
theorem agreeingEvents_insert (he : agrees subject e = true)
    (hnew : evidenceSourceIdentity e ∉ identities ((before ++ after).filter (agrees subject))) :
    (agreeingEvents subject (before ++ e :: after)).Perm (e :: agreeingEvents subject (before ++ after)) := by
  unfold agreeingEvents
  rw [tally_agreeing, tally_agreeing, List.filter_append, List.filter_append, List.filter_cons_of_pos he]
  rw [List.filter_append, mem_identities] at hnew
  have hkeys : ∀ v ∈ before.filter (agrees subject) ++ after.filter (agrees subject),
      evidenceSourceIdentity v ≠ evidenceSourceIdentity e := fun v hv heq => hnew ⟨v, hv, heq⟩
  refine OrderedMap.values_perm_cons (Champion.foldl_keep_keys.mpr hkeys) fun k => ?_
  rw [Champion.get?_foldl_keep, Champion.get?_foldl_keep, List.filter_append, List.filter_append]
  split
  · -- the others are of other witnesses
    rename_i hk
    subst hk
    have hnone {l' : List EvidenceEvent}
        (h : ∀ v ∈ l', v ∈ before.filter (agrees subject) ++ after.filter (agrees subject)) :
        l'.filter (evidenceSourceIdentity · = evidenceSourceIdentity e) = [] :=
      List.filter_eq_nil_iff.mpr fun v hv heq => hkeys v (h v hv) (of_decide_eq_true heq)
    rw [hnone fun v hv => List.mem_append_left _ hv, List.filter_cons_of_pos (by simp),
      hnone fun v hv => List.mem_append_right _ hv]
    rfl
  · rename_i hk
    rw [List.filter_cons_of_neg (by simpa using Ne.symm hk)]

theorem bonus_insert (he : agrees subject e = true)
    (hnew : evidenceSourceIdentity e ∉ identities ((before ++ after).filter (agrees subject))) :
    (scoreCrossSourceAgreement subject (before ++ after)).bonus ≤
      (scoreCrossSourceAgreement subject (before ++ e :: after)).bonus := by
  have hperm := (agreeingEvents_insert he hnew).map (bonusOf subject)
  rw [bonus_eq, bonus_eq, hperm.sum_eq, List.map_cons, List.sum_cons]
  refine roundConfidence_mono (min_le_min_right _ ?_)
  have hnonneg := bonusOf_nonneg subject e
  linarith

omit [JsText.Runtime] in
theorem filter_insert {p : EvidenceEvent → Bool} (h : p e = false) :
    (before ++ e :: after).filter p = (before ++ after).filter p := by
  rw [List.filter_append, List.filter_append, List.filter_cons_of_neg (Bool.eq_false_iff.mp h)]

/-- a row that agrees leaves the conflicts -/
theorem conflicting_insert (he : agrees subject e = true) :
    (scoreCrossSourceAgreement subject (before ++ e :: after)).conflicting =
      (scoreCrossSourceAgreement subject (before ++ after)).conflicting := by
  have hnot : contradicts subject e = false := by
    rcases row_cases subject e with ⟨-, h⟩ | ⟨h, -⟩ | ⟨h, -⟩
    · exact h
    · exact absurd (h.symm.trans he) Bool.false_ne_true
    · exact absurd (h.symm.trans he) Bool.false_ne_true
  rw [conflicting_eq_card, conflicting_eq_card, filter_insert hnot]

/-- a row that contradicts leaves the bonus, and the conflicts that there are -/
theorem contradict_insert (he : contradicts subject e = true) :
    (scoreCrossSourceAgreement subject (before ++ e :: after)).bonus =
        (scoreCrossSourceAgreement subject (before ++ after)).bonus ∧
      (scoreCrossSourceAgreement subject (before ++ after)).conflicting ≤
        (scoreCrossSourceAgreement subject (before ++ e :: after)).conflicting := by
  have hnot : agrees subject e = false := by
    rcases row_cases subject e with ⟨-, h⟩ | ⟨h, -⟩ | ⟨-, h, -⟩
    · exact absurd (h.symm.trans he) Bool.false_ne_true
    · exact h
    · exact absurd (h.symm.trans he) Bool.false_ne_true
  constructor
  · rw [bonus_eq, bonus_eq]
    unfold agreeingEvents
    rw [tally_agreeing, tally_agreeing, filter_insert hnot]
  · rw [conflicting_eq_card, conflicting_eq_card]
    refine Finset.card_le_card fun x hx => ?_
    obtain ⟨v, hv, rfl⟩ := mem_identities.mp hx
    obtain ⟨hv, hp⟩ := List.mem_filter.mp hv
    refine mem_identities.mpr ⟨v, List.mem_filter.mpr ⟨?_, hp⟩, rfl⟩
    rcases List.mem_append.mp hv with hv | hv
    · exact List.mem_append_left _ hv
    · exact List.mem_append_right _ (List.mem_cons_of_mem _ hv)

/-! ## the candidate -/

theorem confidence_eq {evidence : EvidenceEvent} {recent : List EvidenceEvent} {id : String} {now : IsoDate}
    {c : CandidateEvent} (h : detectCandidateFromEvidence evidence recent id now = some c) :
    c.confidence = applyAgreement (confidenceForEvidence evidence) (scoreCrossSourceAgreement evidence recent) := by
  unfold detectCandidateFromEvidence at h
  split at h
  · cases h
  · rw [← Option.some.inj h]

/-- where the confidence of a candidate lies, and how it moves -/
structure SafeBands (evidence : EvidenceEvent) (recent : List EvidenceEvent) (c : CandidateEvent) : Prop where
  range : 65 / 100 ≤ c.confidence ∧ c.confidence ≤ 97 / 100
  /-- a contested candidate is left to a reviewer -/
  contested : 0 < (scoreCrossSourceAgreement evidence recent).conflicting →
    c.confidence ≤ 8 / 10 ∧ decisionForConfidence c.confidence = .escalate
  /-- so is a report, whoever agrees -/
  report : evidence.source = .reporter → decisionForConfidence c.confidence = .escalate
  agreeing : ∀ before e after, recent = before ++ after → agrees evidence e = true →
    evidenceSourceIdentity e ∉ identities (recent.filter (agrees evidence)) → ∀ id now d,
      detectCandidateFromEvidence evidence (before ++ e :: after) id now = some d → c.confidence ≤ d.confidence
  conflicting : ∀ before e after, recent = before ++ after → contradicts evidence e = true → ∀ id now d,
    detectCandidateFromEvidence evidence (before ++ e :: after) id now = some d → d.confidence ≤ c.confidence

/-- **A confidence keeps to its band, and a witness moves it in its own direction only.** -/
theorem safe_bands {evidence : EvidenceEvent} (hhint : evidence.confidenceHint = none) {recent : List EvidenceEvent}
    {id : String} {now : IsoDate} {c : CandidateEvent}
    (h : detectCandidateFromEvidence evidence recent id now = some c) : SafeBands evidence recent c := by
  have hscore := confidence_eq h
  obtain ⟨hbase, -⟩ := baseConfidence_range hhint
  obtain ⟨hbonus, hcap⟩ := bonus_range evidence recent
  have hrange := applyAgreement_range hbase hbonus
  rw [← hscore] at hrange
  refine ⟨hrange, fun hconflict => ?_, fun hsource => ?_, fun before e after hrecent he hnew id' now' d hd => ?_,
    fun before e after hrecent he id' now' d hd => ?_⟩
  · have hceiling : c.confidence ≤ 8 / 10 := by
      rw [hscore]
      exact applyAgreement_le hconflict
    exact ⟨hceiling, decision_escalate (by linarith) (by linarith)⟩
  · have hceiling : c.confidence ≤ 81 / 100 := by
      rw [hscore, baseConfidence_reporter hhint hsource]
      exact applyAgreement_reporter hcap
    exact decision_escalate (by linarith) (by linarith)
  · subst hrecent
    rw [hscore, confidence_eq hd]
    exact applyAgreement_mono le_rfl (bonus_insert he hnew) fun hpos => (conflicting_insert he) ▸ hpos
  · subst hrecent
    rw [hscore, confidence_eq hd]
    exact applyAgreement_mono le_rfl (contradict_insert he).1.le fun hpos => hpos.trans_le (contradict_insert he).2

end

/-- a dead feeder, which one meter sees and another one does not -/
def deadFeeder : List EvidenceEvent := [noonReading "e1" "meter-2" .gridDown, noonReading "e2" "meter-3" .gridUp]

def deadFeederCandidate : CandidateEvent where
  id := "c1"
  zoneId := "z1"
  status := .outage
  confidence := 19 / 25
  windowStart := .ofMillis 1767268500000
  windowEnd := ⟨"2026-01-01T12:00:00Z", 1767268800000000⟩
  evidenceEventIds := ["e0", "e1"]
  createdAt := ⟨"2026-01-01T12:00:00Z", 1767268800000000⟩

theorem safe_bands_contested : letI := JsText.asciiRuntime
    SafeBands (noonReading "e0" "meter-1" .gridDown) deadFeeder deadFeederCandidate := by
  let _ := JsText.asciiRuntime
  have hcandidate : detectCandidateFromEvidence (noonReading "e0" "meter-1" .gridDown) deadFeeder "c1"
      ⟨"2026-01-01T12:00:00Z", 1767268800000000⟩ = some deadFeederCandidate := by decide +kernel
  exact safe_bands rfl hcandidate

end Detection
