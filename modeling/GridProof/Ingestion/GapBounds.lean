import GridProof.Detection.Doubles
import GridProof.Ingestion.Sweep

/-!
# What a sweep's candidates assert

* `gaps_past_iff`    when every silence that a sweep records is over by the time of the sweep: a device whose clock
                     is ahead may end a silence in the future;
* `contested_gaps_iff`   when a silence in which somebody reported the grid up is left to a reviewer: the ceiling
                     of contested evidence is not part of the confidence of a silence, which is computed in doubles.
-/

namespace Ingestion
open Pipeline (IsoDate CandidateEvent)
open Detection (isBeat beatTimes silentNodes heartbeatGapMs heartbeatGapKey IsGapCandidate)
open NumberText (nearest)

/-! ## the acceptance window -/

/-- `INGEST_MAX_EVENT_AGE_MS` and `INGEST_MAX_CLOCK_SKEW_MS` -/
structure AcceptanceWindow where
  maxEventAgeMs : Int
  maxClockSkewMs : Int

/-- `DEFAULT_MAX_EVENT_AGE_MS` and `DEFAULT_MAX_CLOCK_SKEW_MS` -/
def AcceptanceWindow.default : AcceptanceWindow := ⟨24 * 60 * 60 * 1000, 5 * 60 * 1000⟩

/-- `now` is the clock's reading; an error is its code and its message -/
def validateObservedAt (window : AcceptanceWindow) (observedAt : IsoDate) (now : Int) :
    Except (String × String) Unit :=
  if now + window.maxClockSkewMs < observedAt.getTime then
    .error ("OBSERVED_AT_OUT_OF_RANGE", "observedAt is too far in the future")
  else if observedAt.getTime < now - window.maxEventAgeMs then
    .error ("OBSERVED_AT_OUT_OF_RANGE", "observedAt is older than the accepted ingestion window")
  else .ok ()

/-- the event was accepted when it was received, which is not after `now` -/
def AcceptedAt (window : AcceptanceWindow) (now : Int) (event : EvidenceEvent) : Prop :=
  event.receivedAt.getTime ≤ now ∧
    validateObservedAt window event.observedAt event.receivedAt.getTime = .ok ()

/-! ## silences that are over -/

/-- what the candidate asserts has happened -/
def InThePast (now : Int) (c : CandidateEvent) : Prop :=
  c.windowEnd.getTime ≤ now ∧ heartbeatGapMs < c.windowEnd.getTime - c.windowStart.getTime

/-- a reading that is ahead of the clock follows another one of its zone within the threshold -/
def NoLeap (now : Int) (events : List EvidenceEvent) : Prop :=
  ∀ zoneId, ∀ t ∈ beatTimes zoneId events, now < t → ∀ s ∈ beatTimes zoneId events,
    heartbeatGapMs < t - s → ∃ u ∈ beatTimes zoneId events, s < u ∧ u < t

/-- without such a leap no silence ends after now -/
theorem noLeap_iff {now : Int} {events : List EvidenceEvent} : NoLeap now events ↔
    ∀ zoneId s e, IsSilence heartbeatGapMs now (beatTimes zoneId events) s e → e ≤ now := by
  constructor
  · intro h zoneId s e hsilence
    rcases hsilence.stop with ⟨he, hclear⟩ | ⟨he, -⟩
    · refine le_of_not_gt fun hlate => ?_
      obtain ⟨u, hu, hsu, hue⟩ := h zoneId e he hlate s hsilence.start hsilence.long
      have := hclear u hu
      omega
    · exact he.le
  · intro h zoneId t ht hlate s hs hlong
    by_contra hnone
    push Not at hnone
    refine absurd (h zoneId s t ⟨hs, hlong, .inl ⟨ht, fun u hu => ?_⟩⟩) (not_le.mpr hlate)
    by_cases hsu : s < u
    · exact .inr (hnone u hu hsu)
    · exact .inl (le_of_not_gt hsu)

section
variable [JsText.Runtime]

/-- **Whatever was recorded before, a sweep records only silences that are over iff no reading ahead of the clock
is more than the threshold behind the one before it.** -/
theorem gaps_past_iff {parse : String → Int} (store : EvidenceStore) (now : Int) (ids : String → ℕ → String)
    (hread : ∀ event ∈ store.sweepRows now, WellRead parse event) :
    (∀ taken, ∀ c ∈ recordGaps taken (sweepCandidates (store.sweepEvidenceByZone now) now ids),
      InThePast now c) ↔ NoLeap now (store.sweepRows now) := by
  rw [store.sweepEvidenceByZone_eq, noLeap_iff]
  constructor
  · intro h zoneId s e hsilence
    obtain ⟨c, hc, hgap⟩ := Detection.exists_isGapCandidate Pipeline.exactly (ids zoneId) hsilence
    have hfound : c ∈ sweepCandidates (groupEvidenceByZone (store.sweepRows now)) now ids := by
      rw [mem_sweepCandidates, hgap.zone]
      exact hc
    -- with nothing recorded before, the candidate of this key is of the same silence
    obtain ⟨c', hc', hkey⟩ := exists_recordGaps hfound (List.not_mem_nil (a := heartbeatGapKey c))
    have hgap' := Detection.isGapCandidate_of_mem (mem_sweepCandidates.mp (mem_recordGaps hc').1)
    obtain ⟨hzone, hstart⟩ := same_start hread hread hgap' hgap hkey
    have hsilence' := hgap'.silence
    rw [hzone, hstart] at hsilence'
    rw [hsilence.eq_stop Detection.heartbeatGapMs_pos.le hsilence']
    exact (h [] c' hc').1
  · intro h taken c hc
    have hgap := Detection.isGapCandidate_of_mem (mem_sweepCandidates.mp (mem_recordGaps hc).1)
    exact ⟨h _ _ _ hgap.silence, hgap.silence.long⟩

end

/-! ## a clock that is ahead -/

/-- some minutes after 14:00 -/
def minuteAt (minutes : ℕ) : IsoDate := .ofMillis (1767276000000 + minutes * 60000)

/-- the instants of the first half hour, read from their texts -/
def readMinute (text : String) : Int :=
  (((List.range 30).map minuteAt).find? fun d => d.text = text).elim 0 IsoDate.micros

def feederZone : String := "bbbbbbbb-bbbb-4bbb-8bbb-bbbbbbbbbbbb"

def feederEvent (id deviceId : String) (source : EvidenceSource) (minutes received : ℕ) : EvidenceEvent where
  id := id
  providerId := "provider"
  zoneId := feederZone
  idempotencyKey := id
  source := source
  status := .gridUp
  voltage := none
  currentAmps := none
  confidenceHint := none
  rawPayload := .telemetry deviceId "0x2222222222222222222222222222222222222222" none
  observedAt := minuteAt minutes
  receivedAt := minuteAt received

/-- a process that holds two events -/
def holding (first second : EvidenceEvent) (h : first.idempotencyKey ≠ second.idempotencyKey) : EvidenceStore :=
  .memory ⟨⟨[(first.idempotencyKey, first), (second.idempotencyKey, second)],
    List.nodup_cons.mpr ⟨fun hin => h (List.mem_singleton.mp hin), List.nodup_singleton _⟩⟩, .empty⟩

def feederIds (_ : String) (i : ℕ) : String := "gap " ++ toString i

/-- readings of 14:00 and 14:08, and one of 14:13 that arrives at 14:12 -/
def aheadEvents : List EvidenceEvent :=
  [feederEvent "a" "meter 1" .sensor 0 0, feederEvent "b" "meter 1" .sensor 8 8,
    feederEvent "c" "meter 2" .sensor 13 12]

def aheadStore : EvidenceStore :=
  .memory ⟨⟨aheadEvents.map fun event => (event.idempotencyKey, event), by decide⟩, .empty⟩

/-- at 14:12 the silence of eight minutes is recorded, and none that ends at 14:13 -/
theorem late_sweep_past : letI := JsText.asciiRuntime
    (sweepCandidates (aheadStore.sweepEvidenceByZone 1767276720000) 1767276720000 feederIds).length = 1 ∧
      (∃ event ∈ aheadStore.sweepRows 1767276720000, 1767276720000 < event.observedAt.getTime) ∧
      ∀ taken, ∀ c ∈ recordGaps taken (sweepCandidates (aheadStore.sweepEvidenceByZone 1767276720000) 1767276720000
        feederIds), InThePast 1767276720000 c := by
  let _ := JsText.asciiRuntime
  have hrows : ∀ event ∈ aheadStore.sweepRows 1767276720000, event ∈ aheadEvents := fun event he =>
    (List.mem_filter.mp he).1
  have hread : ∀ event ∈ aheadEvents, ZoneText event.zoneId ∧
      event.observedAt.micros = readMinute event.observedAt.text := by decide +kernel
  have hnear : ∀ event ∈ aheadEvents, 1767276720000 < event.observedAt.getTime → ∀ other ∈ aheadEvents,
      heartbeatGapMs < event.observedAt.getTime - other.observedAt.getTime →
        event.zoneId = feederZone ∧ other.observedAt.getTime < (minuteAt 8).getTime ∧
          (minuteAt 8).getTime < event.observedAt.getTime := by decide +kernel
  refine ⟨by decide +kernel, ⟨feederEvent "c" "meter 2" .sensor 13 12, ?_, by decide +kernel⟩, ?_⟩
  · exact List.mem_filter.mpr ⟨List.mem_cons_of_mem _ (List.mem_cons_of_mem _ List.mem_cons_self), by decide +kernel⟩
  refine (gaps_past_iff _ _ _ fun event he => (⟨(hread event (hrows event he)).1, (hread event (hrows event he)).2⟩ :
    WellRead readMinute event)).mpr ?_
  rintro zoneId t ⟨event, he, hbeat, rfl⟩ hlate s ⟨other, hother, -, rfl⟩ hlong
  obtain ⟨hzone, hafter, hbefore⟩ := hnear event (hrows event he) hlate other (hrows other hother) hlong
  -- the reading of 14:08 lies between
  refine ⟨_, ⟨feederEvent "b" "meter 1" .sensor 8 8, ?_, ?_, rfl⟩, hafter, hbefore⟩
  · exact List.mem_filter.mpr ⟨List.mem_cons_of_mem _ List.mem_cons_self, by decide +kernel⟩
  · exact Detection.isBeat_iff.mpr ⟨hzone.symm.trans (Detection.isBeat_iff.mp hbeat).1, rfl⟩

/-- **A reading of 14:08 that arrives at 14:03 makes a silence of eight minutes at 14:04.** -/
theorem early_sweep : letI := JsText.asciiRuntime
    let store := holding (feederEvent "a" "meter 1" .sensor 0 0) (feederEvent "b" "meter 1" .sensor 8 3) (by decide)
    (∀ event ∈ store.evidence, AcceptedAt .default 1767276240000 event) ∧
      ∃ c ∈ recordGaps [] (sweepCandidates (store.sweepEvidenceByZone 1767276240000) 1767276240000 feederIds),
        c.windowEnd.getTime = 1767276480000 ∧ ¬ InThePast 1767276240000 c := by
  let _ := JsText.asciiRuntime
  constructor
  · have haccepted : ∀ event ∈ [feederEvent "a" "meter 1" .sensor 0 0, feederEvent "b" "meter 1" .sensor 8 3],
        event.receivedAt.getTime ≤ 1767276240000 ∧
          ¬ event.receivedAt.getTime + 300000 < event.observedAt.getTime ∧
          ¬ event.observedAt.getTime < event.receivedAt.getTime - 86400000 := by decide +kernel
    intro event he
    obtain ⟨hreceived, hskew, hage⟩ := haccepted event he
    refine ⟨hreceived, ?_⟩
    unfold validateObservedAt
    exact (if_neg hskew).trans (if_neg hage)
  · have hfound : (recordGaps [] (sweepCandidates (EvidenceStore.sweepEvidenceByZone 1767276240000
        (holding (feederEvent "a" "meter 1" .sensor 0 0) (feederEvent "b" "meter 1" .sensor 8 3) (by decide)))
        1767276240000 feederIds)).any (fun c => decide (c.windowEnd.getTime = 1767276480000)) = true := by
      decide +kernel
    obtain ⟨c, hc, hend⟩ := List.any_eq_true.mp hfound
    have hend := of_decide_eq_true hend
    exact ⟨c, hc, hend, fun hpast => absurd hpast.1 (by rw [hend]; decide)⟩

/-! ## silences that somebody contests -/

/-- a stored report of the zone says that the grid is up, within the window -/
def Contested (store : EvidenceStore) (zoneId : String) (windowStart windowEnd : ℤ) : Prop :=
  ∃ event ∈ store.evidence, event.zoneId = zoneId ∧ event.source = .reporter ∧ event.status = .gridUp ∧
    windowStart ≤ event.observedAt.getTime ∧ event.observedAt.getTime ≤ windowEnd

theorem decision_of_le {confidence : ℚ} (h : confidence ≤ Detection.Doubles.conflictConfidenceCeiling) :
    Detection.Doubles.decisionForConfidence confidence ≠ .approve := by
  have hthreshold : Detection.Doubles.conflictConfidenceCeiling < nearest Pipeline.autoApproveThreshold := by
    decide +kernel
  have hlow : ¬ nearest Pipeline.autoApproveThreshold ≤ confidence := not_le.mpr (h.trans_lt hthreshold)
  unfold Detection.Doubles.decisionForConfidence Pipeline.decisionForConfidenceIn
  rw [if_neg hlow]
  split
  · nofun
  · nofun

section
variable [JsText.Runtime]

/-- **Every contested silence is left to a reviewer iff each one is doubtful by itself.** -/
theorem contested_gaps_iff (store : EvidenceStore) (now : Int) (ids : String → ℕ → String) :
    (∀ c ∈ sweepCandidatesIn nearest (store.sweepEvidenceByZone now) now ids,
      Contested store c.zoneId c.windowStart.getTime c.windowEnd.getTime →
        c.confidence ≤ Detection.Doubles.conflictConfidenceCeiling ∧
          Detection.Doubles.decisionForConfidence c.confidence ≠ .approve) ↔
    ∀ zoneId s e, IsSilence heartbeatGapMs now (beatTimes zoneId (store.sweepRows now)) s e →
      Contested store zoneId s e → Detection.Doubles.Doubtful (silentNodes zoneId (store.sweepRows now) s) (e - s) := by
  rw [store.sweepEvidenceByZone_eq]
  constructor
  · intro h zoneId s e hsilence hcontested
    obtain ⟨c, hc, hgap⟩ := Detection.exists_isGapCandidate nearest (ids zoneId) hsilence
    have hfound : c ∈ sweepCandidatesIn nearest (groupEvidenceByZone (store.sweepRows now)) now ids := by
      rw [mem_sweepCandidatesIn, hgap.zone]
      exact hc
    have hle := (h c hfound (by rw [hgap.zone, hgap.start, hgap.stop]; exact hcontested)).1
    rw [hgap.confidence] at hle
    exact (Detection.Doubles.gapConfidence_le_iff hsilence.long).mp hle
  · intro h c hc hcontested
    have hgap := Detection.isGapCandidate_of_mem (mem_sweepCandidatesIn.mp hc)
    have hle : c.confidence ≤ Detection.Doubles.conflictConfidenceCeiling := by
      rw [hgap.confidence]
      exact (Detection.Doubles.gapConfidence_le_iff hgap.silence.long).mpr (h _ _ _ hgap.silence hcontested)
    exact ⟨hle, decision_of_le hle⟩

end

/-! ## a silence that somebody contests -/

def resident : EvidenceEvent :=
  { feederEvent "c" "" .reporter 10 10 with
    rawPayload := .report "0x3333333333333333333333333333333333333333" none }

/-- two meters that were last heard of at 14:00, and a report of 14:10 that the grid is up -/
def contestedStore : EvidenceStore :=
  .memory ⟨⟨[("a", feederEvent "a" "meter 1" .sensor 0 0), ("b", feederEvent "b" "meter 2" .sensor 0 0),
    ("c", resident)], by decide⟩, .empty⟩

/-- **A silence of eighteen minutes of two meters is approved, whatever the report says.** -/
theorem contested_gap : letI := JsText.asciiRuntime
    ∃ c ∈ sweepCandidatesIn nearest (contestedStore.sweepEvidenceByZone 1767277080000) 1767277080000 feederIds,
      Contested contestedStore c.zoneId c.windowStart.getTime c.windowEnd.getTime ∧
        c.confidence = nearest (86 / 100) ∧ Detection.Doubles.decisionForConfidence c.confidence = .approve := by
  let _ := JsText.asciiRuntime
  have hfound : (sweepCandidatesIn nearest (contestedStore.sweepEvidenceByZone 1767277080000) 1767277080000
      feederIds).any (fun c => decide (c.zoneId = resident.zoneId ∧ c.windowStart.getTime = 1767276000000 ∧
        c.windowEnd.getTime = 1767277080000 ∧ c.confidence = nearest (86 / 100))) = true := by
    decide +kernel
  obtain ⟨c, hc, h⟩ := List.any_eq_true.mp hfound
  obtain ⟨hzone, hstart, hend, hconfidence⟩ := of_decide_eq_true h
  refine ⟨c, hc, ⟨resident, ?_, hzone.symm, rfl, rfl, ?_, ?_⟩, hconfidence, ?_⟩
  · exact List.mem_cons_of_mem _ (List.mem_cons_of_mem _ List.mem_cons_self)
  · rw [hstart]
    decide +kernel
  · rw [hend]
    decide +kernel
  · rw [hconfidence]
    decide +kernel

end Ingestion
