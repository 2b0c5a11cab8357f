import GridProof.Detection.Threshold

/-!
# The confidence of a gap

A candidate of the gap detection has the confidence of its length and of the nodes that were heard of in the
threshold before it.

* `gapConfidence_range`, `gapConfidence_single`   its bounds, and the ceiling of one node;
* `gapConfidence_mono`    it goes up with the length and with the nodes, also from one node to two;
* `candidate_confidence`  a candidate's confidence, from the evidence;
* `gap_confidence`        one silent node is escalated, and further readings of it change nothing.
-/

namespace Detection
open Ingestion (EvidenceEvent)
open Pipeline (CandidateEvent decisionForConfidence exactly)

namespace Threshold

/-! ## the score -/

section
variable {observedGapMs observedGapMs' : ℤ} {thresholdMs : ℚ} {silentNodes silentNodes' : ℕ}

/-- how far the silence is over the threshold, up to three times it -/
def overrun (observedGapMs : ℤ) (thresholdMs : ℚ) : ℚ :=
  min (max (observedGapMs - thresholdMs) 0 / (2 * thresholdMs)) 1

theorem overrun_nonneg (hpos : 0 < thresholdMs) : 0 ≤ overrun observedGapMs thresholdMs :=
  le_min (div_nonneg (le_max_right _ _) (by linarith)) zero_le_one

theorem overrun_mono (hpos : 0 < thresholdMs) (h : observedGapMs ≤ observedGapMs') :
    overrun observedGapMs thresholdMs ≤ overrun observedGapMs' thresholdMs := by
  have hcast : (observedGapMs : ℚ) ≤ observedGapMs' := by exact_mod_cast h
  unfold overrun
  refine min_le_min_right _ (div_le_div_of_nonneg_right (max_le_max_right _ ?_) (by linarith))
  linarith

/-- before the ceilings -/
def earned (observedGapMs : ℤ) (thresholdMs : ℚ) (silentNodes : ℕ) : ℚ :=
  minGapConfidence + gapLengthWeight * overrun observedGapMs thresholdMs +
    corroborationBonus * (max ((silentNodes : ℤ) - 1) 0 : ℤ)

theorem gapConfidence_eq (observedGapMs : ℤ) (thresholdMs : ℚ) (silentNodes : ℕ) :
    gapConfidence observedGapMs thresholdMs silentNodes = roundConfidence (min
      (if silentNodes < 2 then min (earned observedGapMs thresholdMs silentNodes) singleNodeCeiling
        else earned observedGapMs thresholdMs silentNodes) maxGapConfidence) := rfl

theorem le_earned (hpos : 0 < thresholdMs) (silentNodes : ℕ) :
    6 / 10 ≤ earned observedGapMs thresholdMs silentNodes := by
  have hover : 0 ≤ overrun observedGapMs thresholdMs := overrun_nonneg hpos
  have hnodes : (0 : ℚ) ≤ (max ((silentNodes : ℤ) - 1) 0 : ℤ) := by exact_mod_cast le_max_right _ _
  unfold earned minGapConfidence gapLengthWeight corroborationBonus
  linarith

theorem earned_mono (hpos : 0 < thresholdMs) (hgap : observedGapMs ≤ observedGapMs')
    (hnodes : silentNodes ≤ silentNodes') :
    earned observedGapMs thresholdMs silentNodes ≤ earned observedGapMs' thresholdMs silentNodes' := by
  have hover := overrun_mono hpos hgap
  have hmax : max ((silentNodes : ℤ) - 1) 0 ≤ max ((silentNodes' : ℤ) - 1) 0 := by omega
  have hcast : ((max ((silentNodes : ℤ) - 1) 0 : ℤ) : ℚ) ≤ (max ((silentNodes' : ℤ) - 1) 0 : ℤ) := by
    exact_mod_cast hmax
  unfold earned minGapConfidence gapLengthWeight corroborationBonus
  linarith

theorem gapConfidence_range (hpos : 0 < thresholdMs) :
    6 / 10 ≤ gapConfidence observedGapMs thresholdMs silentNodes ∧
      gapConfidence observedGapMs thresholdMs silentNodes ≤ 95 / 100 := by
  have hearned : 6 / 10 ≤ earned observedGapMs thresholdMs silentNodes := le_earned hpos silentNodes
  rw [gapConfidence_eq]
  constructor
  · have hlow : (6 : ℚ) / 10 = (6000 : ℤ) / 10000 := by norm_num
    rw [hlow]
    refine le_roundConfidence (le_min ?_ ?_)
    · rw [← hlow]
      split
      · exact le_min hearned (by norm_num [singleNodeCeiling])
      · exact hearned
    · norm_num [maxGapConfidence]
  · have hhigh : (95 : ℚ) / 100 = (9500 : ℤ) / 10000 := by norm_num
    rw [hhigh]
    refine roundConfidence_le ((min_le_right _ _).trans ?_)
    norm_num [maxGapConfidence]

/-- one node alone -/
theorem gapConfidence_single (h : silentNodes < 2) :
    gapConfidence observedGapMs thresholdMs silentNodes ≤ 8 / 10 := by
  have hceiling : (8 : ℚ) / 10 = (8000 : ℤ) / 10000 := by norm_num
  rw [gapConfidence_eq, if_pos h, hceiling]
  refine roundConfidence_le ((min_le_left _ _).trans ((min_le_right _ _).trans ?_))
  norm_num [singleNodeCeiling]

theorem gapConfidence_mono (hpos : 0 < thresholdMs) (hgap : observedGapMs ≤ observedGapMs')
    (hnodes : silentNodes ≤ silentNodes') :
    gapConfidence observedGapMs thresholdMs silentNodes ≤ gapConfidence observedGapMs' thresholdMs silentNodes' := by
  have hearned := earned_mono hpos hgap hnodes
  rw [gapConfidence_eq, gapConfidence_eq]
  refine roundConfidence_mono (min_le_min_right _ ?_)
  by_cases hone : silentNodes < 2
  · rw [if_pos hone]
    by_cases hone' : silentNodes' < 2
    · rw [if_pos hone']
      exact min_le_min_right _ hearned
    · -- the ceiling is gone
      rw [if_neg hone']
      exact (min_le_left _ _).trans hearned
  · rw [if_neg hone, if_neg (by omega)]
    exact hearned

end

/-! ## the nodes -/

section
variable [JsText.Runtime] {zoneId : String} {evidence : List EvidenceEvent} {now : ℤ} {gapMs : ℚ}

/-- the nodes of the zone that reported in the threshold before the silence began -/
def nodesBefore (zoneId : String) (evidence : List EvidenceEvent) (startedAt : ℤ) (gapMs : ℚ) : List String :=
  ((evidence.filter fun e => isBeat zoneId e && e.observedAt.getTime ≤ startedAt &&
    ((startedAt - e.observedAt.getTime : ℤ) : ℚ) ≤ gapMs).map evidenceSourceIdentity).dedup

theorem nodesBefore_floor (zoneId : String) (evidence : List EvidenceEvent) (startedAt : ℤ) (gapMs : ℚ) :
    nodesBefore zoneId evidence startedAt gapMs = heardNodes zoneId evidence startedAt ⌊gapMs⌋ := by
  unfold nodesBefore heardNodes
  congr 3
  funext e
  rw [Bool.and_assoc, Bool.and_assoc, Bool.and_comm (decide (e.observedAt.getTime ≤ startedAt))]
  refine congrArg₂ _ rfl (congrArg₂ _ (decide_eq_decide.mpr ?_) rfl)
  rw [← Int.le_floor]
  omega

theorem mem_nodesBefore {startedAt : ℤ} {x : String} : x ∈ nodesBefore zoneId evidence startedAt gapMs ↔
    ∃ e ∈ evidence, isBeat zoneId e = true ∧ e.observedAt.getTime ≤ startedAt ∧
      ((startedAt - e.observedAt.getTime : ℤ) : ℚ) ≤ gapMs ∧ evidenceSourceIdentity e = x := by
  unfold nodesBefore
  simp only [List.mem_dedup, List.mem_map, List.mem_filter, Bool.and_eq_true, decide_eq_true_eq, and_assoc]

/-- how long a candidate's window is -/
def windowMs (c : CandidateEvent) : ℤ := c.windowEnd.getTime - c.windowStart.getTime

theorem candidate_confidence (hpos : 0 < gapMs) {ids : ℕ → String} {c : CandidateEvent}
    (h : c ∈ detectHeartbeatGapCandidates zoneId evidence now gapMs ids) :
    c.confidence = gapConfidence (windowMs c) gapMs
      (nodesBefore zoneId evidence c.windowStart.getTime gapMs).length := by
  obtain ⟨gap, hgap, id, rfl⟩ := mem_detect hpos h
  have hnodes := (isGap_of_mem hpos.le hgap).nodes
  unfold windowMs
  rw [windowEnd_getTime, nodesBefore_floor]
  show gapConfidence _ _ gap.silentNodes = _
  rw [hnodes]
  rfl

/-- `extra` brings readings of the zone's counted nodes from before the silence, and what is no beat of the zone -/
def Redundant (zoneId : String) (evidence : List EvidenceEvent) (startedAt : ℤ) (gapMs : ℚ)
    (extra : List EvidenceEvent) : Prop :=
  ∀ e ∈ extra, isBeat zoneId e = true →
    e.observedAt.getTime ≤ startedAt ∧ evidenceSourceIdentity e ∈ nodesBefore zoneId evidence startedAt gapMs

section
variable {evidence' extra : List EvidenceEvent} {startedAt endsAt : ℤ}

theorem nodesBefore_redundant (hextra : Redundant zoneId evidence startedAt gapMs extra)
    (hmem : ∀ e, e ∈ evidence' ↔ e ∈ evidence ∨ e ∈ extra) :
    (nodesBefore zoneId evidence' startedAt gapMs).length = (nodesBefore zoneId evidence startedAt gapMs).length := by
  refine ((List.perm_ext_iff_of_nodup (List.nodup_dedup _) (List.nodup_dedup _)).mpr fun x => ?_).length_eq
  show x ∈ nodesBefore _ _ _ _ ↔ x ∈ nodesBefore _ _ _ _
  constructor
  · intro hx
    obtain ⟨e, he, hbeat, hle, hnear, rfl⟩ := mem_nodesBefore.mp hx
    rcases (hmem e).mp he with he | he
    · exact mem_nodesBefore.mpr ⟨e, he, hbeat, hle, hnear, rfl⟩
    · exact (hextra e he hbeat).2
  · intro hx
    obtain ⟨e, he, hrest⟩ := mem_nodesBefore.mp hx
    exact mem_nodesBefore.mpr ⟨e, (hmem e).mpr (.inl he), hrest⟩

theorem silence_redundant (hextra : Redundant zoneId evidence startedAt gapMs extra)
    (hmem : ∀ e, e ∈ evidence' ↔ e ∈ evidence ∨ e ∈ extra)
    (h : SilenceOver gapMs now (beatTimes zoneId evidence) startedAt endsAt) :
    SilenceOver gapMs now (beatTimes zoneId evidence') startedAt endsAt := by
  have hkept : ∀ t ∈ beatTimes zoneId evidence, t ∈ beatTimes zoneId evidence' := by
    rintro t ⟨e, he, hbeat, rfl⟩
    exact ⟨e, (hmem e).mpr (.inl he), hbeat, rfl⟩
  have hnew : ∀ t ∈ beatTimes zoneId evidence', t ∈ beatTimes zoneId evidence ∨ t ≤ startedAt := by
    rintro t ⟨e, he, hbeat, rfl⟩
    exact ((hmem e).mp he).imp (fun he => ⟨e, he, hbeat, rfl⟩) fun he => (hextra e he hbeat).1
  refine ⟨hkept _ h.start, h.long, h.stop.imp (fun hstop => ⟨hkept _ hstop.1, fun t ht => ?_⟩)
    fun hstop => ⟨hstop.1, fun t ht => ?_⟩⟩
  · exact (hnew t ht).elim (hstop.2 t) .inl
  · exact (hnew t ht).elim (hstop.2 t) id

end

/-! ## the bands -/

/-- what the confidence of a candidate promises -/
structure Banded (zoneId : String) (evidence : List EvidenceEvent) (now : ℤ) (gapMs : ℚ) (c : CandidateEvent) :
    Prop where
  range : 6 / 10 ≤ c.confidence ∧ c.confidence ≤ 95 / 100
  /-- one silent node is left to a reviewer -/
  single : (nodesBefore zoneId evidence c.windowStart.getTime gapMs).length = 1 →
    c.confidence ≤ 8 / 10 ∧ decisionForConfidence c.confidence = .escalate
  /-- a silence as long or longer, of as many nodes or more, in whatever zone and at whatever instant -/
  mono : ∀ zoneId' evidence' now' ids', ∀ d ∈ detectHeartbeatGapCandidates zoneId' evidence' now' gapMs ids',
    windowMs c ≤ windowMs d → (nodesBefore zoneId evidence c.windowStart.getTime gapMs).length ≤
      (nodesBefore zoneId' evidence' d.windowStart.getTime gapMs).length → c.confidence ≤ d.confidence
  /-- the same silence after further readings of counted nodes before it -/
  again : ∀ extra evidence' ids', Redundant zoneId evidence c.windowStart.getTime gapMs extra →
    (∀ e, e ∈ evidence' ↔ e ∈ evidence ∨ e ∈ extra) →
    ∃ d ∈ detectHeartbeatGapCandidates zoneId evidence' now gapMs ids',
      d.windowStart.getTime = c.windowStart.getTime ∧ d.windowEnd.getTime = c.windowEnd.getTime ∧
        d.confidence = c.confidence

/-- **One silent node is escalated, and the confidence goes up with the silence and with its nodes only.** -/
theorem gap_confidence (hpos : 0 < gapMs) {ids : ℕ → String} {c : CandidateEvent}
    (h : c ∈ detectHeartbeatGapCandidates zoneId evidence now gapMs ids) : Banded zoneId evidence now gapMs c := by
  have hscore := candidate_confidence hpos h
  refine ⟨?_, fun hone => ?_, fun zoneId' evidence' now' ids' d hd hlonger hmore => ?_,
    fun extra evidence' ids' hextra hmem => ?_⟩
  · rw [hscore]
    exact gapConfidence_range hpos
  · have hsingle : c.confidence ≤ 8 / 10 := by
      rw [hscore, hone]
      exact gapConfidence_single (by decide)
    have hlow : 6 / 10 ≤ c.confidence := by
      rw [hscore]
      exact (gapConfidence_range hpos).1
    exact ⟨hsingle, decision_escalate (by linarith) (by linarith)⟩
  · rw [hscore, candidate_confidence hpos hd]
    exact gapConfidence_mono hpos hlonger hmore
  · have hsilence := ((exact_detect hpos ids).silences _ _).mp ⟨c, h, rfl, rfl⟩
    obtain ⟨d, hd, hstart, hend⟩ :=
      ((exact_detect hpos ids').silences _ _).mpr (silence_redundant hextra hmem hsilence)
    refine ⟨d, hd, hstart, hend, ?_⟩
    have hwindow : windowMs d = windowMs c := by
      unfold windowMs
      rw [hstart, hend]
    rw [candidate_confidence hpos hd, hscore, hwindow, hstart, nodesBefore_redundant hextra hmem]

end

/-- one meter, silent for a second -/
def silentMeter : CandidateEvent := buildGapCandidate exactly "z1" 1767268801000 (1 / 2) ⟨beatAt "a" 0, none, 1⟩ "g"

theorem gap_confidence_silentMeter : letI := JsText.asciiRuntime
    Banded "z1" [beatAt "a" 0] 1767268801000 (1 / 2) silentMeter := by
  let _ := JsText.asciiRuntime
  have hmem : silentMeter ∈ detectHeartbeatGapCandidates "z1" [beatAt "a" 0] 1767268801000 (1 / 2) fun _ => "g" := by
    decide +kernel
  exact gap_confidence (by norm_num) hmem

end Threshold

end Detection
