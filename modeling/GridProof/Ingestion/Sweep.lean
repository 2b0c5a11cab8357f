import GridProof.Detection.Gaps
import GridProof.Ingestion.TaskEffect

/-!
# Heartbeat sweeps

What a sweep reads from either store, and what it records of what it finds.

* `mem_sweepCandidatesIn`   a sweep finds what the detection finds in the evidence that it read;
* `recordGaps`       the candidates that are recorded, one after the other, where some keys are taken;
* `heartbeatGapKey_inj`   a key names the zone and the start of a silence.
-/

namespace Ingestion
open Pipeline (IsoDate CandidateEvent)
open Detection (isBeat IsGapCandidate heartbeatGapKey)

/-! ## what a sweep reads -/

/-- the evidence of a process, or of a database with the order in which it keeps rows -/
inductive EvidenceStore where
  | memory (m : Memory)
  | database (d : Database) (rank : EvidenceEvent → ℕ)

namespace EvidenceStore

/-- the evidence that is stored, as it is read -/
def evidence : EvidenceStore → List EvidenceEvent
  | memory m => m.evidenceByIdempotencyKey.values
  | database d _ => d.evidence.values.map mapEvidenceRow

/-- the filter of the memory branch -/
def recent (now : Int) (event : EvidenceEvent) : Bool :=
  event.source = .sensor && now - sweepLookbackMs ≤ event.observedAt.getTime

def sweepRows (now : Int) : EvidenceStore → List EvidenceEvent
  | memory m => m.evidenceByIdempotencyKey.values.filter (recent now)
  | database d rank =>
    (((d.evidence.values.filter (inLookback now)).insertionSort (oldestFirst rank)).take 5000).map mapEvidenceRow

/-- `listSweepEvidenceByZone` in either mode -/
def sweepEvidenceByZone (now : Int) : EvidenceStore → OrderedMap String (List EvidenceEvent)
  | memory m => groupEvidenceByZone (m.evidenceByIdempotencyKey.values.filter (recent now))
  | database d rank => listSweepEvidenceByZone d now rank

theorem sweepEvidenceByZone_eq (now : Int) (s : EvidenceStore) :
    s.sweepEvidenceByZone now = groupEvidenceByZone (s.sweepRows now) := by
  cases s with
  | memory m => rfl
  | database d rank => rfl

end EvidenceStore

/-! ## the zones -/

theorem groupEvidenceByZone_get? (events : List EvidenceEvent) (zoneId : String) :
    ((groupEvidenceByZone events).get? zoneId).getD [] = events.filter (·.zoneId = zoneId) ∧
      ((groupEvidenceByZone events).get? zoneId = some [] → False) := by
  induction events using List.reverseRecOn with
  | nil => exact ⟨rfl, fun h => by cases h⟩
  | append_singleton events e ih =>
    obtain ⟨hget, hne⟩ := ih
    have hstep : groupEvidenceByZone (events ++ [e]) = (groupEvidenceByZone events).set e.zoneId
        ((((groupEvidenceByZone events).get? e.zoneId).getD []) ++ [e]) := by
      unfold groupEvidenceByZone
      rw [List.foldl_append, List.foldl_cons, List.foldl_nil]
    rw [hstep, OrderedMap.get?_set, List.filter_append]
    by_cases hz : zoneId = e.zoneId
    · subst hz
      rw [if_pos rfl, Option.getD_some, hget, List.filter_singleton, decide_eq_true rfl]
      refine ⟨rfl, fun h => ?_⟩
      exact List.append_ne_nil_of_right_ne_nil _ (List.cons_ne_nil e []) (Option.some.inj h)
    · rw [if_neg hz, List.filter_singleton, decide_eq_false (Ne.symm hz)]
      exact ⟨by rw [hget]; exact (List.append_nil _).symm, hne⟩

section
variable [JsText.Runtime] {round : ℚ → ℚ} {gapMs : ℚ}

/-- the beats of a zone are among the events of the zone -/
theorem detect_zone (zoneId : String) (events : List EvidenceEvent) (now : Int) (ids : ℕ → String) :
    Detection.detectHeartbeatGapCandidatesIn round zoneId (events.filter (·.zoneId = zoneId)) now gapMs ids =
      Detection.detectHeartbeatGapCandidatesIn round zoneId events now gapMs ids := by
  have hbeats : Detection.heartbeatsFor zoneId (events.filter (·.zoneId = zoneId)) =
      Detection.heartbeatsFor zoneId events := by
    unfold Detection.heartbeatsFor
    rw [List.filter_filter]
    congr 2
    funext e
    by_cases hz : e.zoneId = zoneId
    · rw [decide_eq_true hz, Bool.true_and, Bool.and_true]
    · rw [decide_eq_false hz, Bool.false_and, Bool.and_false]
  unfold Detection.detectHeartbeatGapCandidatesIn Detection.heartbeatGaps
  rw [hbeats]

theorem detect_zoneId {zoneId : String} {events : List EvidenceEvent} {now : Int} {ids : ℕ → String}
    {c : CandidateEvent}
    (h : c ∈ Detection.detectHeartbeatGapCandidatesIn round zoneId events now Detection.heartbeatGapMs ids) :
    c.zoneId = zoneId := (Detection.isGapCandidate_of_mem h).zone

/-- **A sweep finds what the detection finds.** -/
theorem mem_sweepCandidatesIn {events : List EvidenceEvent} {now : Int} {ids : String → ℕ → String}
    {c : CandidateEvent} : c ∈ sweepCandidatesIn round (groupEvidenceByZone events) now ids ↔
      c ∈ Detection.detectHeartbeatGapCandidatesIn round c.zoneId events now Detection.heartbeatGapMs
        (ids c.zoneId) := by
  unfold sweepCandidatesIn
  rw [List.mem_flatMap]
  constructor
  · rintro ⟨⟨zoneId, evidence⟩, hentry, hc⟩
    dsimp only at hc
    have hget := OrderedMap.get?_eq_some.mpr hentry
    have hevidence := (groupEvidenceByZone_get? events zoneId).1
    rw [hget, Option.getD_some] at hevidence
    rw [hevidence, detect_zone] at hc
    rw [detect_zoneId hc]
    exact hc
  · intro hc
    rw [← detect_zone] at hc
    obtain ⟨hget, -⟩ := groupEvidenceByZone_get? events c.zoneId
    cases hzone : (groupEvidenceByZone events).get? c.zoneId with
    | none =>
      rw [hzone, Option.getD_none] at hget
      rw [← hget, Detection.detect_default] at hc
      exact absurd hc List.not_mem_nil
    | some evidence =>
      rw [hzone, Option.getD_some] at hget
      exact ⟨(c.zoneId, evidence), OrderedMap.get?_eq_some.mp hzone, hget ▸ hc⟩

theorem mem_sweepCandidates {events : List EvidenceEvent} {now : Int} {ids : String → ℕ → String}
    {c : CandidateEvent} : c ∈ sweepCandidates (groupEvidenceByZone events) now ids ↔
      c ∈ Detection.detectHeartbeatGapCandidates c.zoneId events now (ids c.zoneId) := mem_sweepCandidatesIn

end

/-! ## what a sweep records -/

/-- the candidates that `recordGapCandidate` gives back, called on each of them in turn where the keys `taken`
are stored -/
def recordGaps (taken : List String) : List CandidateEvent → List CandidateEvent
  | [] => []
  | candidate :: rest =>
    if heartbeatGapKey candidate ∈ taken then recordGaps taken rest
    else candidate :: recordGaps (heartbeatGapKey candidate :: taken) rest

/-- only which keys are stored matters -/
theorem recordGaps_congr {taken taken' : List String} (h : ∀ key, key ∈ taken ↔ key ∈ taken')
    (found : List CandidateEvent) : recordGaps taken found = recordGaps taken' found := by
  induction found generalizing taken taken' with
  | nil => rfl
  | cons c found ih =>
    have hcons : ∀ key, key ∈ heartbeatGapKey c :: taken ↔ key ∈ heartbeatGapKey c :: taken' := fun key => by
      rw [List.mem_cons, List.mem_cons, h]
    rw [recordGaps, recordGaps, ih h, ih hcons]
    exact if_congr (h _) rfl rfl

theorem mem_recordGaps {taken : List String} {found : List CandidateEvent} {c : CandidateEvent}
    (h : c ∈ recordGaps taken found) : c ∈ found ∧ heartbeatGapKey c ∉ taken := by
  induction found generalizing taken with
  | nil => exact absurd h List.not_mem_nil
  | cons d found ih =>
    rw [recordGaps] at h
    split at h
    · obtain ⟨hmem, hkey⟩ := ih h
      exact ⟨List.mem_cons_of_mem d hmem, hkey⟩
    · rename_i hnew
      rcases List.mem_cons.mp h with rfl | h
      · exact ⟨List.mem_cons_self, hnew⟩
      · obtain ⟨hmem, hkey⟩ := ih h
        exact ⟨List.mem_cons_of_mem d hmem, fun hin => hkey (List.mem_cons_of_mem _ hin)⟩

/-- a key that is not stored is recorded, with its first candidate -/
theorem exists_recordGaps {taken : List String} {found : List CandidateEvent} {c : CandidateEvent}
    (h : c ∈ found) (hkey : heartbeatGapKey c ∉ taken) :
    ∃ c' ∈ recordGaps taken found, heartbeatGapKey c' = heartbeatGapKey c := by
  induction found generalizing taken with
  | nil => exact absurd h List.not_mem_nil
  | cons d found ih =>
    rw [recordGaps]
    split
    · rename_i htaken
      rcases List.mem_cons.mp h with rfl | h
      · exact absurd htaken hkey
      · exact ih h hkey
    · by_cases he : heartbeatGapKey d = heartbeatGapKey c
      · exact ⟨d, List.mem_cons_self, he⟩
      · have hmem : c ∈ found := (List.mem_cons.mp h).resolve_left fun hcd => he (hcd ▸ rfl)
        obtain ⟨c', hc', hkey'⟩ := ih hmem fun hin => (List.mem_cons.mp hin).elim (fun e => he e.symm) hkey
        exact ⟨c', List.mem_cons_of_mem d hc', hkey'⟩

/-- no key is recorded twice -/
theorem recordGaps_nodup (taken : List String) (found : List CandidateEvent) :
    ((recordGaps taken found).map heartbeatGapKey).Nodup := by
  induction found generalizing taken with
  | nil => exact List.nodup_nil
  | cons d found ih =>
    rw [recordGaps]
    split
    · exact ih taken
    · rw [List.map_cons]
      refine List.nodup_cons.mpr ⟨fun hin => ?_, ih _⟩
      obtain ⟨c, hc, he⟩ := List.mem_map.mp hin
      exact (mem_recordGaps hc).2 (he ▸ List.mem_cons_self)

/-! ## keys -/

/-- the schema has checked the zone, and the instant is what `parse` reads from the text -/
structure WellRead (parse : String → Int) (event : EvidenceEvent) : Prop where
  zone : ZoneText event.zoneId
  date : event.observedAt.micros = parse event.observedAt.text

theorem heartbeatGapKey_inj {c c' : CandidateEvent} (hz : ZoneText c.zoneId) (hz' : ZoneText c'.zoneId)
    (h : heartbeatGapKey c = heartbeatGapKey c') :
    c.zoneId = c'.zoneId ∧ c.windowStart.text = c'.windowStart.text := by
  have hlist := congrArg String.toList h
  unfold heartbeatGapKey at hlist
  simp only [String.toList_append, List.append_assoc] at hlist
  have hrest := List.append_cancel_left hlist
  obtain ⟨hzone, htext⟩ := Cut.cut_first hz.no_colon hz'.no_colon hrest
  exact ⟨(String.toList_inj.mp hzone).symm, String.toList_inj.mp htext⟩

/-- the window starts when the reading was observed -/
def StartsAt (parse : String → Int) (b : EvidenceEvent) (c : CandidateEvent) : Prop :=
  WellRead parse b ∧ b.zoneId = c.zoneId ∧ c.windowStart = b.observedAt

/-- two candidates of one key are of one zone and start at one instant -/
theorem StartsAt.eq_of_key {parse : String → Int} {b b' : EvidenceEvent} {c c' : CandidateEvent}
    (h : StartsAt parse b c) (h' : StartsAt parse b' c') (hkey : heartbeatGapKey c = heartbeatGapKey c') :
    c.zoneId = c'.zoneId ∧ c.windowStart.getTime = c'.windowStart.getTime := by
  obtain ⟨hread, hzone, hstart⟩ := h
  obtain ⟨hread', hzone', hstart'⟩ := h'
  obtain ⟨hzones, htext⟩ := heartbeatGapKey_inj (hzone ▸ hread.zone) (hzone' ▸ hread'.zone) hkey
  refine ⟨hzones, congrArg (· / 1000) ?_⟩
  rw [hstart, hstart', hread.date, hread'.date, ← hstart, ← hstart', htext]

section
variable [JsText.Runtime] {zoneId : String} {events : List EvidenceEvent} {now s e : ℤ} {c : CandidateEvent}

/-- the beat that a silence starts at is one of the zone's -/
theorem startBeatAt_mem {b : EvidenceEvent} (h : Detection.startBeatAt zoneId events s = some b) :
    b ∈ events ∧ isBeat zoneId b = true ∧ b.observedAt.getTime = s := by
  have hmem := List.mem_of_getLast? h
  rw [List.mem_insertionSort, List.mem_filter, Bool.and_eq_true, decide_eq_true_eq] at hmem
  exact hmem

/-- the window of a candidate starts when one of the zone's readings was observed -/
theorem startsAt_of_gap {parse : String → Int} (hread : ∀ b ∈ events, WellRead parse b)
    (h : IsGapCandidate zoneId events now s e c) : ∃ b ∈ events, StartsAt parse b c := by
  obtain ⟨b, hb, hstart⟩ := h.beat
  obtain ⟨hmem, hbeat, -⟩ := startBeatAt_mem hb
  exact ⟨b, hmem, hread b hmem, (Detection.isBeat_iff.mp hbeat).1.trans h.zone.symm, hstart⟩

/-- so two candidates of one key are of one silence -/
theorem same_start {parse : String → Int} {zoneId' : String} {events' : List EvidenceEvent} {now' s' e' : ℤ}
    {c' : CandidateEvent} (hread : ∀ b ∈ events, WellRead parse b) (hread' : ∀ b ∈ events', WellRead parse b)
    (h : IsGapCandidate zoneId events now s e c) (h' : IsGapCandidate zoneId' events' now' s' e' c')
    (hkey : heartbeatGapKey c = heartbeatGapKey c') : zoneId = zoneId' ∧ s = s' := by
  obtain ⟨b, -, hb⟩ := startsAt_of_gap hread h
  obtain ⟨b', -, hb'⟩ := startsAt_of_gap hread' h'
  obtain ⟨hzone, hstart⟩ := hb.eq_of_key hb' hkey
  rw [h.zone, h'.zone] at hzone
  rw [h.start, h'.start] at hstart
  exact ⟨hzone, hstart⟩

end

end Ingestion
