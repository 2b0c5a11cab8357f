import Mathlib.Algebra.Order.Field.Basic
import Mathlib.Tactic.Linarith
import GridProof.Pipeline.Worker

/-!
# Uptime responds to its votes

The uptime of an hour is the share of restored votes, in basis points and rounded.

* `uptimeBps_eq`       the rounded share; of no votes the share is zero;
* `share_restored`, `share_outage`   in which direction a vote moves the share;
* `uptime_responds`    the bounds, the direction, the order of the votes and the worker's copy.
-/

namespace Pipeline

/-! ## rounding -/

theorem mathRound_mono {p q : ℚ} (h : p ≤ q) : mathRound p ≤ mathRound q :=
  Int.floor_mono (by linarith)

/-- a whole number is left as it is -/
theorem mathRound_intCast (n : ℤ) : mathRound n = n := by
  unfold mathRound
  rw [Int.floor_intCast_add]
  norm_num

theorem mathRound_near (q : ℚ) : |(mathRound q : ℚ) - q| ≤ 1 / 2 := by
  have hle : (⌊q + 1 / 2⌋ : ℚ) ≤ q + 1 / 2 := Int.floor_le _
  have hlt : q + 1 / 2 < (⌊q + 1 / 2⌋ : ℚ) + 1 := Int.lt_floor_add_one _
  unfold mathRound
  rw [abs_le]
  constructor
  · linarith
  · linarith

/-! ## the share -/

def restoredVotes (votes : List Vote) : ℕ := (votes.filter fun v => v.status = .restored).length

/-- the share of restored votes, zero where there are none -/
def restoredShare (votes : List Vote) : ℚ := (restoredVotes votes : ℚ) / votes.length

section
variable (votes : List Vote)

theorem restored_le : restoredVotes votes ≤ votes.length := List.length_filter_le ..

theorem uptimeBps_eq : uptimeBps votes = mathRound (restoredShare votes * 10000) := by
  unfold uptimeBps
  dsimp only
  split
  · rename_i hnone
    unfold restoredShare
    rw [hnone, Nat.cast_zero, div_zero, zero_mul]
    exact (mathRound_intCast 0).symm
  · rfl

theorem share_range : 0 ≤ restoredShare votes ∧ restoredShare votes ≤ 1 := by
  have hle : (restoredVotes votes : ℚ) ≤ votes.length := Nat.cast_le.mpr (restored_le votes)
  have hlength : (0 : ℚ) ≤ votes.length := Nat.cast_nonneg _
  exact ⟨div_nonneg (Nat.cast_nonneg _) hlength, div_le_one_of_le₀ hle hlength⟩

/-- the share of some votes among all is rounded to `0` at least and `10000` at most -/
theorem uptimeBps_range : 0 ≤ uptimeBps votes ∧ uptimeBps votes ≤ 10000 := by
  obtain ⟨hlow, hhigh⟩ := share_range votes
  have hzero := mathRound_intCast 0
  have hfull := mathRound_intCast 10000
  rw [uptimeBps_eq]
  constructor
  · calc (0 : ℤ) = mathRound ((0 : ℤ) : ℚ) := hzero.symm
      _ ≤ mathRound (restoredShare votes * 10000) := mathRound_mono (by push_cast; linarith)
  · calc mathRound (restoredShare votes * 10000) ≤ mathRound ((10000 : ℤ) : ℚ) :=
          mathRound_mono (by push_cast; linarith)
      _ = 10000 := hfull

end

section
variable {votes votes' before after : List Vote} {v : Vote}

theorem share_perm (h : votes'.Perm votes) : restoredShare votes' = restoredShare votes := by
  unfold restoredShare restoredVotes
  rw [(h.filter _).length_eq, h.length_eq]

/-- one restored vote more -/
theorem share_restored (h : v.status = .restored) :
    restoredShare (before ++ after) ≤ restoredShare (before ++ v :: after) := by
  have hperm : (before ++ v :: after).Perm (v :: (before ++ after)) := List.perm_middle
  have hcount : restoredVotes (v :: (before ++ after)) = restoredVotes (before ++ after) + 1 := by
    unfold restoredVotes
    rw [List.filter_cons_of_pos (by simpa using h), List.length_cons]
  rw [share_perm hperm]
  unfold restoredShare
  rw [hcount, List.length_cons]
  have hle := restored_le (before ++ after)
  generalize restoredVotes (before ++ after) = up, (before ++ after).length = total at hle ⊢
  have hcast : (up : ℚ) ≤ total := Nat.cast_le.mpr hle
  rcases Nat.eq_zero_or_pos total with rfl | hpos
  · rw [Nat.cast_zero, div_zero]
    positivity
  · have htotal : (0 : ℚ) < total := Nat.cast_pos.mpr hpos
    push_cast
    rw [div_le_div_iff₀ htotal (by linarith)]
    linarith

/-- one outage vote more -/
theorem share_outage (h : v.status = .outage) :
    restoredShare (before ++ v :: after) ≤ restoredShare (before ++ after) := by
  have hperm : (before ++ v :: after).Perm (v :: (before ++ after)) := List.perm_middle
  have hcount : restoredVotes (v :: (before ++ after)) = restoredVotes (before ++ after) := by
    unfold restoredVotes
    rw [List.filter_cons_of_neg (by rw [h]; decide)]
  rw [share_perm hperm]
  unfold restoredShare
  rw [hcount, List.length_cons]
  have hle := restored_le (before ++ after)
  generalize restoredVotes (before ++ after) = up, (before ++ after).length = total at hle ⊢
  rcases Nat.eq_zero_or_pos total with rfl | hpos
  · obtain rfl := Nat.le_zero.mp hle
    norm_num
  · have htotal : (0 : ℚ) < total := Nat.cast_pos.mpr hpos
    push_cast
    exact div_le_div_of_nonneg_left (Nat.cast_nonneg _) htotal (by linarith)

end

/-! ## the score -/

/-- what the uptime of some approved candidates promises -/
structure Responds (votes : List Vote) : Prop where
  range : 0 ≤ uptimeBps votes ∧ uptimeBps votes ≤ 10000
  near : |(uptimeBps votes : ℚ) - restoredShare votes * 10000| ≤ 1 / 2
  raised : ∀ before v after, votes = before ++ after → v.status = .restored →
    uptimeBps votes ≤ uptimeBps (before ++ v :: after)
  lowered : ∀ before v after, votes = before ++ after → v.status = .outage →
    uptimeBps (before ++ v :: after) ≤ uptimeBps votes
  unordered : ∀ votes', votes'.Perm votes → uptimeBps votes' = uptimeBps votes

/-- **Uptime goes with its votes, and the worker's copy computes the same.** -/
theorem uptime_responds (approved : List CandidateEvent) : Responds (approved.map CandidateEvent.vote) ∧
    ∀ zoneId epochStart,
      Worker.epochScoreForApprovedCandidates zoneId epochStart (approved.map .ofCandidate) =
        epochScoreForApprovedCandidates zoneId epochStart (approved.map CandidateEvent.vote) := by
  refine ⟨⟨uptimeBps_range _, ?_, fun before v after h hv => ?_, fun before v after h hv => ?_,
    fun votes' h => ?_⟩, fun zoneId epochStart => ?_⟩
  · rw [uptimeBps_eq]
    exact mathRound_near _
  · have hshare : restoredShare (before ++ after) ≤ restoredShare (before ++ v :: after) := share_restored hv
    rw [h, uptimeBps_eq, uptimeBps_eq]
    exact mathRound_mono (by linarith)
  · have hshare : restoredShare (before ++ v :: after) ≤ restoredShare (before ++ after) := share_outage hv
    rw [h, uptimeBps_eq, uptimeBps_eq]
    exact mathRound_mono (by linarith)
  · rw [uptimeBps_eq, uptimeBps_eq, share_perm h]
  · rw [Worker.epochScoreForApprovedCandidates_votes, List.map_map]
    rfl

end Pipeline
