import GridProof.Lib.Comparator
import GridProof.Detection.Gaps

/-!
# The gap detection for any threshold

`detectHeartbeatGapCandidates` with the options it takes: an instant, and a threshold that need not be a whole number
of milliseconds.

* `heartbeatsFor_perm`   the beats do not depend on the order of the evidence;
* `Exact`, `detect_exact`   the candidates are the silences of the zone.
-/

namespace Detection
open Ingestion (EvidenceEvent)
open Pipeline (IsoDate CandidateEvent exactly)

namespace Threshold

/-- in exact arithmetic; `ids i` is the random id of the candidate `i` -/
def detectHeartbeatGapCandidates [JsText.Runtime] (zoneId : String) (evidence : List EvidenceEvent) (now : ℤ)
    (gapMs : ℚ) (ids : ℕ → String) : List CandidateEvent :=
  detectHeartbeatGapCandidatesIn exactly zoneId evidence now gapMs ids

section
variable [JsText.Runtime]

/-! ## the order of the evidence -/

/-- the beats do not depend on the order of the evidence, if ids are compared by a total order -/
theorem heartbeatsFor_perm {evidence evidence' : List EvidenceEvent} (hperm : evidence'.Perm evidence)
    (hids : (evidence.map EvidenceEvent.id).Nodup)
    (hcompare : Comparator.TotalOn JsText.localeCompare fun id => ∃ e ∈ evidence, e.id = id) (zoneId : String) :
    heartbeatsFor zoneId evidence' = heartbeatsFor zoneId evidence := by
  have hsame : ∀ a ∈ evidence, ∀ b ∈ evidence, a.id = b.id → a = b := fun a ha b hb =>
    List.inj_on_of_nodup_map hids ha hb
  have hnodup : evidence.Nodup := hids.of_map
  have hmem : ∀ e ∈ evidence'.filter (isBeat zoneId), e ∈ evidence := fun e he =>
    hperm.mem_iff.mp (List.mem_filter.mp he).1
  have hid : ∀ e ∈ evidence'.filter (isBeat zoneId), ∃ e' ∈ evidence, e'.id = e.id := fun e he =>
    ⟨e, hmem e he, rfl⟩
  refine Comparator.insertionSort_unique ((hperm.nodup_iff.mpr hnodup).filter _) (hnodup.filter _)
    (fun e => (hperm.filter _).mem_iff) ?_ ?_ ?_
  · intro a ha b hb
    rcases lt_trichotomy a.observedAt.getTime b.observedAt.getTime with hlt | heq | hgt
    · exact .inl (.inl hlt)
    · exact (hcompare.total (hid a ha) (hid b hb)).imp (fun h => .inr ⟨heq, h⟩) fun h => .inr ⟨heq.symm, h⟩
    · exact .inr (.inl hgt)
  · intro a ha b hb c hc hab hbc
    rcases hab with hab | ⟨hab, hle⟩
    · exact .inl (hab.trans_le (beatOrder_timeFirst.le b c hbc))
    · rcases hbc with hbc | ⟨hbc, hle'⟩
      · exact .inl (hab ▸ hbc)
      · exact .inr ⟨hab.trans hbc, hcompare.trans_le (hid a ha) (hid b hb) (hid c hc) hle hle'⟩
  · intro a ha b hb hab hba
    have htime := le_antisymm (beatOrder_timeFirst.le a b hab) (beatOrder_timeFirst.le b a hba)
    have hle : JsText.localeCompare a.id b.id ≤ 0 := hab.elim (fun h => absurd htime h.ne) And.right
    have hge : JsText.localeCompare b.id a.id ≤ 0 := hba.elim (fun h => absurd htime.symm h.ne) And.right
    exact hsame a (hmem a ha) b (hmem b hb) (hcompare.antisymm (hid a ha) (hid b hb) hle hge)

end

/-! ## the silences of the zone -/

/-- an interval longer than the threshold from one time to the next one, or from the last one to now -/
structure SilenceOver (gapMs : ℚ) (now : ℤ) (T : Set ℤ) (s e : ℤ) : Prop where
  start : s ∈ T
  long : gapMs < (e - s : ℤ)
  stop : (e ∈ T ∧ ∀ t ∈ T, t ≤ s ∨ e ≤ t) ∨ (e = now ∧ ∀ t ∈ T, t ≤ s)

theorem silenceOver_iff {gapMs : ℚ} {now s e : ℤ} {T : Set ℤ} :
    SilenceOver gapMs now T s e ↔ IsSilence ⌊gapMs⌋ now T s e :=
  ⟨fun h => ⟨h.start, Int.floor_lt.mpr h.long, h.stop⟩, fun h => ⟨h.start, Int.floor_lt.mp h.long, h.stop⟩⟩

/-- the candidates are the silences of the zone, in the order of time -/
structure Exact (zoneId : String) (evidence : List EvidenceEvent) (now : ℤ) (gapMs : ℚ)
    (candidates : List CandidateEvent) : Prop where
  outage : ∀ c ∈ candidates, c.zoneId = zoneId ∧ c.status = .outage
  silences : ∀ s e, (∃ c ∈ candidates, c.windowStart.getTime = s ∧ c.windowEnd.getTime = e) ↔
    SilenceOver gapMs now (beatTimes zoneId evidence) s e
  /-- one after the other, and apart -/
  ordered : candidates.Pairwise fun c d =>
    c.windowStart.getTime < d.windowStart.getTime ∧ c.windowEnd.getTime ≤ d.windowStart.getTime
  /-- no reading of the zone is inside -/
  clear : ∀ c ∈ candidates, ∀ e ∈ evidence, isBeat zoneId e = true →
    e.observedAt.getTime ≤ c.windowStart.getTime ∨ c.windowEnd.getTime ≤ e.observedAt.getTime

/-- a candidate without its random id -/
def unnamed (c : CandidateEvent) : CandidateEvent := { c with id := "" }

theorem unnamed_candidates (zoneId : String) (now : ℤ) (gapMs : ℚ) (gaps : List Gap) (ids ids' : ℕ → String) :
    (gaps.mapIdx fun i gap => buildGapCandidate exactly zoneId now gapMs gap (ids i)).map unnamed =
      (gaps.mapIdx fun i gap => buildGapCandidate exactly zoneId now gapMs gap (ids' i)).map unnamed := by
  refine List.ext_getElem (by simp only [List.length_map, List.length_mapIdx]) fun i hi hi' => ?_
  rw [List.getElem_map, List.getElem_map, List.getElem_mapIdx, List.getElem_mapIdx]
  rfl

section
variable [JsText.Runtime] {zoneId : String} {evidence : List EvidenceEvent} {now : ℤ} {gapMs : ℚ}

omit [JsText.Runtime] in
theorem windowEnd_getTime (gap : Gap) (id : String) :
    (buildGapCandidate exactly zoneId now gapMs gap id).windowEnd.getTime = gap.endsAt now := by
  obtain ⟨startBeat, closingBeat, silentNodes⟩ := gap
  cases closingBeat with
  | none => exact IsoDate.getTime_ofMillis now
  | some beat => rfl

theorem detect_pos (hpos : 0 < gapMs) (ids : ℕ → String) :
    detectHeartbeatGapCandidates zoneId evidence now gapMs ids =
      (heartbeatGaps zoneId evidence now gapMs).mapIdx fun i gap =>
        buildGapCandidate exactly zoneId now gapMs gap (ids i) := by
  unfold detectHeartbeatGapCandidates detectHeartbeatGapCandidatesIn
  rw [if_neg (not_le.mpr hpos)]

theorem mem_detect (hpos : 0 < gapMs) {ids : ℕ → String} {c : CandidateEvent}
    (h : c ∈ detectHeartbeatGapCandidates zoneId evidence now gapMs ids) :
    ∃ gap ∈ heartbeatGaps zoneId evidence now gapMs, ∃ id,
      c = buildGapCandidate exactly zoneId now gapMs gap id := by
  rw [detect_pos hpos] at h
  obtain ⟨i, hi, rfl⟩ := List.mem_mapIdx.mp h
  exact ⟨_, List.getElem_mem hi, ids i, rfl⟩

theorem detect_of_gap (hpos : 0 < gapMs) (ids : ℕ → String) {gap : Gap}
    (h : gap ∈ heartbeatGaps zoneId evidence now gapMs) :
    ∃ id, buildGapCandidate exactly zoneId now gapMs gap id ∈
      detectHeartbeatGapCandidates zoneId evidence now gapMs ids := by
  obtain ⟨i, hi, rfl⟩ := List.getElem_of_mem h
  rw [detect_pos hpos]
  exact ⟨ids i, List.mem_mapIdx.mpr ⟨i, hi, rfl⟩⟩

theorem exact_detect (hpos : 0 < gapMs) (ids : ℕ → String) :
    Exact zoneId evidence now gapMs (detectHeartbeatGapCandidates zoneId evidence now gapMs ids) := by
  have hsilence : ∀ c ∈ detectHeartbeatGapCandidates zoneId evidence now gapMs ids,
      IsSilence ⌊gapMs⌋ now (beatTimes zoneId evidence) c.windowStart.getTime c.windowEnd.getTime := by
    intro c hc
    obtain ⟨gap, hgap, id, rfl⟩ := mem_detect hpos hc
    rw [windowEnd_getTime]
    exact (isGap_of_mem hpos.le hgap).silence
  refine ⟨fun c hc => ?_, fun s e => ⟨?_, fun h => ?_⟩, ?_, fun c hc e he hbeat => ?_⟩
  · obtain ⟨gap, hgap, id, rfl⟩ := mem_detect hpos hc
    exact ⟨rfl, rfl⟩
  · rintro ⟨c, hc, rfl, rfl⟩
    exact silenceOver_iff.mpr (hsilence c hc)
  · obtain ⟨gap, hgap, rfl, rfl⟩ := exists_gap hpos.le (silenceOver_iff.mp h)
    obtain ⟨id, hmem⟩ := detect_of_gap hpos ids hgap
    exact ⟨_, hmem, rfl, windowEnd_getTime gap id⟩
  · have hstarts : (detectHeartbeatGapCandidates zoneId evidence now gapMs ids).Pairwise
        fun c d => c.windowStart.getTime < d.windowStart.getTime := by
      have hgaps : (heartbeatGaps zoneId evidence now gapMs).Pairwise
          fun x y => x.startBeat.observedAt.getTime < y.startBeat.observedAt.getTime :=
        heartbeatGaps_sorted hpos.le zoneId evidence
      rw [detect_pos hpos]
      exact pairwise_mapIdx hgaps fun _ _ _ _ h => h
    exact hstarts.imp_of_mem fun hc hd hlt => ⟨hlt, (hsilence _ hc).disjoint (hsilence _ hd).start hlt⟩
  · exact (hsilence c hc).clear _ ⟨e, he, hbeat, rfl⟩

/-- **The detection finds the silences of the zone, whatever the order of the evidence.** -/
theorem detect_exact (hids : (evidence.map EvidenceEvent.id).Nodup)
    (hcompare : Comparator.TotalOn JsText.localeCompare fun id => ∃ e ∈ evidence, e.id = id) (hpos : 0 < gapMs)
    (ids : ℕ → String) :
    Exact zoneId evidence now gapMs (detectHeartbeatGapCandidates zoneId evidence now gapMs ids) ∧
      ∀ evidence' : List EvidenceEvent, evidence'.Perm evidence → ∀ ids' : ℕ → String,
        (detectHeartbeatGapCandidates zoneId evidence' now gapMs ids').map unnamed =
          (detectHeartbeatGapCandidates zoneId evidence now gapMs ids).map unnamed := by
  refine ⟨exact_detect hpos ids, fun evidence' hperm ids' => ?_⟩
  have hgaps : heartbeatGaps zoneId evidence' now gapMs =
      heartbeatGaps zoneId evidence now gapMs := by
    unfold heartbeatGaps
    rw [heartbeatsFor_perm hperm hids hcompare]
  rw [detect_pos hpos, detect_pos hpos, hgaps]
  exact unnamed_candidates zoneId now gapMs _ ids' ids

end

/-! ## two beats of one instant -/

/-- a beat so many milliseconds after noon -/
def beatAt (id : String) (ms : ℤ) : EvidenceEvent where
  id := id
  providerId := "p1"
  zoneId := "z1"
  idempotencyKey := id
  source := .sensor
  status := .gridUp
  voltage := none
  currentAmps := none
  confidenceHint := none
  rawPayload := .telemetry "meter-1" "0x1111111111111111111111111111111111111111" none
  observedAt := .ofMillis (1767268800000 + ms)
  receivedAt := .ofMillis (1767268800000 + ms)

theorem detect_exact_tied : letI := JsText.asciiRuntime
    Exact "z1" [beatAt "b" 0, beatAt "a" 0, beatAt "c" 2] 1767268800003 (3 / 2)
        (detectHeartbeatGapCandidates "z1" [beatAt "b" 0, beatAt "a" 0, beatAt "c" 2] 1767268800003 (3 / 2)
          fun _ => "g") ∧
      ∀ evidence' : List EvidenceEvent, evidence'.Perm [beatAt "b" 0, beatAt "a" 0, beatAt "c" 2] →
        ∀ ids' : ℕ → String, (detectHeartbeatGapCandidates "z1" evidence' 1767268800003 (3 / 2) ids').map unnamed =
          (detectHeartbeatGapCandidates "z1" [beatAt "b" 0, beatAt "a" 0, beatAt "c" 2] 1767268800003 (3 / 2)
            fun _ => "g").map unnamed := by
  let _ := JsText.asciiRuntime
  exact detect_exact (by decide) (Comparator.totalOn_codePoints _) (by norm_num) _

end Threshold

end Detection
