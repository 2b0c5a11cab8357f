import GridProof.Lib.NumberText
import GridProof.Detection.Heartbeat

/-!
# The confidence of a gap in doubles

`gapConfidence` and the policy gate as the source computes them: every constant is the nearest double, and so is
the result of every operation.

* `gapConfidence_mono`   with two nodes or more it goes up with the length and with the nodes;
* `Doubtful`, `gapConfidence_le_iff`   the silences that are not above the ceiling of contested evidence.

Exactly, a silence of two nodes is above the ceiling from 864180 ms on; here that one is rounded down.
-/

namespace Detection.Doubles
open NumberText (nearest nearest_mono nearest_nonneg)
open Pipeline (autoApproveThreshold Verdict)

def gapConfidence (observedGapMs : ℤ) (thresholdMs : ℚ) (silentNodes : ℕ) : ℚ :=
  gapConfidenceIn nearest observedGapMs thresholdMs silentNodes

def conflictConfidenceCeiling : ℚ := nearest Detection.conflictConfidenceCeiling

def decisionForConfidence (confidence : ℚ) : Verdict := Pipeline.decisionForConfidenceIn nearest confidence

/-! ## the score goes up -/

theorem roundConfidence_mono {value value' : ℚ} (h0 : 0 ≤ value) (h : value ≤ value') :
    roundConfidenceIn nearest value ≤ roundConfidenceIn nearest value' := by
  have hscaled : nearest (value * 10000) ≤ nearest (value' * 10000) := nearest_mono (by linarith) (by linarith)
  have hnonneg : 0 ≤ nearest (value * 10000) := nearest_nonneg (by linarith)
  have hfloor : ⌊nearest (value * 10000) + 1 / 2⌋ ≤ ⌊nearest (value' * 10000) + 1 / 2⌋ :=
    Int.floor_mono (by linarith)
  have hfloor0 : 0 ≤ ⌊nearest (value * 10000) + 1 / 2⌋ := Int.floor_nonneg.mpr (by linarith)
  have hcast : (⌊nearest (value * 10000) + 1 / 2⌋ : ℚ) ≤ ⌊nearest (value' * 10000) + 1 / 2⌋ := by
    exact_mod_cast hfloor
  have hcast0 : (0 : ℚ) ≤ ⌊nearest (value * 10000) + 1 / 2⌋ := by exact_mod_cast hfloor0
  exact nearest_mono (div_nonneg hcast0 (by norm_num)) (div_le_div_of_nonneg_right hcast (by norm_num))

section
variable {observedGapMs observedGapMs' : ℤ} {thresholdMs : ℚ} {silentNodes silentNodes' : ℕ}

/-- how far the silence is over the threshold, up to three times it -/
def overrun (observedGapMs : ℤ) (thresholdMs : ℚ) : ℚ :=
  min (nearest (max (nearest (observedGapMs - thresholdMs)) 0 / nearest (2 * thresholdMs))) 1

theorem overrun_nonneg (hpos : 0 ≤ thresholdMs) : 0 ≤ overrun observedGapMs thresholdMs :=
  le_min (nearest_nonneg (div_nonneg (le_max_right _ _) (nearest_nonneg (by linarith)))) zero_le_one

theorem overrun_mono (hpos : 0 ≤ thresholdMs) (hlong : thresholdMs ≤ observedGapMs)
    (h : observedGapMs ≤ observedGapMs') :
    overrun observedGapMs thresholdMs ≤ overrun observedGapMs' thresholdMs := by
  have hcast : (observedGapMs : ℚ) ≤ observedGapMs' := by exact_mod_cast h
  have hlonger : nearest (observedGapMs - thresholdMs) ≤ nearest (observedGapMs' - thresholdMs) :=
    nearest_mono (by linarith) (by linarith)
  have hunit : 0 ≤ nearest (2 * thresholdMs) := nearest_nonneg (by linarith)
  refine min_le_min_right _ (nearest_mono (div_nonneg (le_max_right _ _) hunit) ?_)
  exact div_le_div_of_nonneg_right (max_le_max_right _ hlonger) hunit

/-- before the ceilings -/
def earned (observedGapMs : ℤ) (thresholdMs : ℚ) (silentNodes : ℕ) : ℚ :=
  nearest (nearest (nearest minGapConfidence + nearest (nearest gapLengthWeight * overrun observedGapMs thresholdMs)) +
    nearest (nearest corroborationBonus * (max ((silentNodes : ℤ) - 1) 0 : ℤ)))

theorem gapConfidence_eq (h : 2 ≤ silentNodes) : gapConfidence observedGapMs thresholdMs silentNodes =
    roundConfidenceIn nearest (min (earned observedGapMs thresholdMs silentNodes) (nearest maxGapConfidence)) := by
  unfold gapConfidence gapConfidenceIn
  dsimp only
  rw [if_neg (by omega)]
  rfl

theorem earned_mono (hpos : 0 ≤ thresholdMs) (hlong : thresholdMs ≤ observedGapMs)
    (hgap : observedGapMs ≤ observedGapMs') (hnodes : silentNodes ≤ silentNodes') :
    0 ≤ earned observedGapMs thresholdMs silentNodes ∧
      earned observedGapMs thresholdMs silentNodes ≤ earned observedGapMs' thresholdMs silentNodes' := by
  have hbase : 0 ≤ nearest minGapConfidence := nearest_nonneg (by norm_num [minGapConfidence])
  have hweight : 0 ≤ nearest gapLengthWeight := nearest_nonneg (by norm_num [gapLengthWeight])
  have hbonus : 0 ≤ nearest corroborationBonus := nearest_nonneg (by norm_num [corroborationBonus])
  have hover : 0 ≤ nearest gapLengthWeight * overrun observedGapMs thresholdMs :=
    mul_nonneg hweight (overrun_nonneg hpos)
  have hmax : max ((silentNodes : ℤ) - 1) 0 ≤ max ((silentNodes' : ℤ) - 1) 0 := by omega
  have hcast : ((max ((silentNodes : ℤ) - 1) 0 : ℤ) : ℚ) ≤ (max ((silentNodes' : ℤ) - 1) 0 : ℤ) := by
    exact_mod_cast hmax
  have hcast0 : (0 : ℚ) ≤ (max ((silentNodes : ℤ) - 1) 0 : ℤ) := by exact_mod_cast le_max_right _ _
  have hnodes0 := mul_nonneg hbonus hcast0
  have hsum0 := add_nonneg hbase (nearest_nonneg hover)
  have hlength :
      nearest (nearest minGapConfidence + nearest (nearest gapLengthWeight * overrun observedGapMs thresholdMs)) ≤
        nearest (nearest minGapConfidence + nearest (nearest gapLengthWeight * overrun observedGapMs' thresholdMs)) :=
    nearest_mono hsum0 (add_le_add_right
      (nearest_mono hover (mul_le_mul_of_nonneg_left (overrun_mono hpos hlong hgap) hweight)) _)
  have hmore := nearest_mono hnodes0 (mul_le_mul_of_nonneg_left hcast hbonus)
  have htotal0 := add_nonneg (nearest_nonneg hsum0) (nearest_nonneg hnodes0)
  exact ⟨nearest_nonneg htotal0, nearest_mono htotal0 (add_le_add hlength hmore)⟩

theorem gapConfidence_mono (hpos : 0 ≤ thresholdMs) (hlong : thresholdMs ≤ observedGapMs)
    (hgap : observedGapMs ≤ observedGapMs') (htwo : 2 ≤ silentNodes) (hnodes : silentNodes ≤ silentNodes') :
    gapConfidence observedGapMs thresholdMs silentNodes ≤ gapConfidence observedGapMs' thresholdMs silentNodes' := by
  obtain ⟨hearned0, hearned⟩ := earned_mono hpos hlong hgap hnodes
  rw [gapConfidence_eq htwo, gapConfidence_eq (by omega)]
  exact roundConfidence_mono (le_min hearned0 (nearest_nonneg (by norm_num [maxGapConfidence])))
    (min_le_min_right _ hearned)

/-- one node alone -/
theorem gapConfidence_single (hpos : 0 ≤ thresholdMs) (hlong : thresholdMs ≤ observedGapMs) (h : silentNodes < 2) :
    gapConfidence observedGapMs thresholdMs silentNodes ≤ conflictConfidenceCeiling := by
  have hearned : 0 ≤ earned observedGapMs thresholdMs silentNodes := (earned_mono hpos hlong le_rfl le_rfl).1
  have hceiling : 0 ≤ nearest singleNodeCeiling := nearest_nonneg (by norm_num [singleNodeCeiling])
  have hmax : 0 ≤ nearest maxGapConfidence := nearest_nonneg (by norm_num [maxGapConfidence])
  have heq : gapConfidence observedGapMs thresholdMs silentNodes = roundConfidenceIn nearest
      (min (min (earned observedGapMs thresholdMs silentNodes) (nearest singleNodeCeiling))
        (nearest maxGapConfidence)) := by
    unfold gapConfidence gapConfidenceIn
    dsimp only
    rw [if_pos h]
    rfl
  have hfixed : roundConfidenceIn nearest (nearest singleNodeCeiling) = conflictConfidenceCeiling := by decide +kernel
  rw [heq, ← hfixed]
  exact roundConfidence_mono (le_min (le_min hearned hceiling) hmax)
    ((min_le_left _ _).trans (min_le_right _ _))

end

/-! ## below the ceiling -/

/-- one silent node, or too few for the length of the silence -/
def Doubtful (nodes : ℕ) (lengthMs : ℤ) : Prop :=
  nodes ≤ 1 ∨ nodes = 2 ∧ lengthMs ≤ 864180 ∨ nodes = 3 ∧ lengthMs ≤ 648179 ∨ nodes = 4 ∧ lengthMs ≤ 432180

section
variable {nodes nodes' : ℕ} {lengthMs : ℤ} (bound : ℤ)

/-- a silence that is no longer, of no more nodes -/
theorem le_ceiling_of_le (hlong : heartbeatGapMs < lengthMs) (htwo : 2 ≤ nodes) (h : lengthMs ≤ bound)
    (hbound : gapConfidence bound heartbeatGapMs nodes ≤ conflictConfidenceCeiling) :
    gapConfidence lengthMs heartbeatGapMs nodes ≤ conflictConfidenceCeiling :=
  (gapConfidence_mono (by norm_num [heartbeatGapMs, heartbeatIntervalMs]) (by exact_mod_cast hlong.le) h htwo
    le_rfl).trans hbound

/-- a silence that is no shorter, of no fewer nodes -/
theorem above_ceiling_of_le (hlong : heartbeatGapMs < bound) (htwo : 2 ≤ nodes) (h : bound ≤ lengthMs)
    (hnodes : nodes ≤ nodes') (hbound : conflictConfidenceCeiling < gapConfidence bound heartbeatGapMs nodes) :
    ¬ gapConfidence lengthMs heartbeatGapMs nodes' ≤ conflictConfidenceCeiling :=
  not_le.mpr (hbound.trans_le (gapConfidence_mono (by norm_num [heartbeatGapMs, heartbeatIntervalMs])
    (by exact_mod_cast hlong.le) h htwo hnodes))

/-- where the score of so many nodes passes the ceiling -/
theorem passes_at (hlong : heartbeatGapMs < lengthMs) (htwo : 2 ≤ nodes) (hbound : heartbeatGapMs ≤ bound)
    (hlow : gapConfidence bound heartbeatGapMs nodes ≤ conflictConfidenceCeiling)
    (hhigh : conflictConfidenceCeiling < gapConfidence (bound + 1) heartbeatGapMs nodes) :
    gapConfidence lengthMs heartbeatGapMs nodes ≤ conflictConfidenceCeiling ↔ lengthMs ≤ bound := by
  refine ⟨fun h => ?_, fun h => le_ceiling_of_le bound hlong htwo h hlow⟩
  by_contra hlonger
  exact above_ceiling_of_le (bound + 1) (by omega) htwo (by omega) le_rfl hhigh h

/-- **Where the score passes the ceiling.** -/
theorem gapConfidence_le_iff (hlong : heartbeatGapMs < lengthMs) :
    gapConfidence lengthMs heartbeatGapMs nodes ≤ conflictConfidenceCeiling ↔ Doubtful nodes lengthMs := by
  have hthreshold : heartbeatGapMs = 360000 := by decide
  unfold Doubtful
  rcases (by omega : nodes < 2 ∨ nodes = 2 ∨ nodes = 3 ∨ nodes = 4 ∨ 5 ≤ nodes) with h | rfl | rfl | rfl | h
  · refine iff_of_true (gapConfidence_single ?_ (by exact_mod_cast hlong.le) h) (.inl (by omega))
    norm_num [heartbeatGapMs, heartbeatIntervalMs]
  · rw [passes_at 864180 hlong (by decide) (by omega) (by decide +kernel) (by decide +kernel)]
    omega
  · rw [passes_at 648179 hlong (by decide) (by omega) (by decide +kernel) (by decide +kernel)]
    omega
  · rw [passes_at 432180 hlong (by decide) (by omega) (by decide +kernel) (by decide +kernel)]
    omega
  · refine iff_of_false ?_ (by omega)
    exact above_ceiling_of_le 360001 (by omega) (by decide) (by omega) h (by decide +kernel)

end

end Detection.Doubles
