import GridProof.Lib.Limit
import GridProof.Ingestion.GapBounds
import GridProof.Ingestion.Providers

/-!
# What the agents are shown

The read-only queries that gather the agents' context: the evidence of the candidate's own window, a baseline
of the zone, the reports of the window and the providers behind them.  The score of a candidate was computed
from another window, ten minutes to either side of the reading.

* `collectAgentToolContext`   the context; `none` where a provider is missing and the review ends with an error;
* `telemetry_shows_iff`, `reports_show_iff`   which stored rows the two event queries return;
* `witnesses_shown_iff`       a witness that was counted is shown iff it lies in the candidate's window and is a
                              report, or has few rows of the window before it;
* `early_witness`             a conflict that the score counts and the agents do not see.

An average is exact here, and a day of an interval has 24 hours.
-/

namespace Ingestion
open Pipeline (IsoDate CandidateEvent)

structure Range where
  start : IsoDate
  stop : IsoDate

/-- `mapEvidenceRow` of the tools, which leaves the current in the raw payload -/
def toolEvent (row : EvidenceEvent) : EvidenceEvent :=
  { row with
    currentAmps := none
    observedAt := row.observedAt.readBack
    receivedAt := row.receivedAt.readBack }

/-- `order by observed_at asc, received_at asc, id asc` -/
def arrivalOrder (a b : EvidenceEvent) : Prop :=
  a.observedAt.micros < b.observedAt.micros ∨ a.observedAt.micros = b.observedAt.micros ∧
    (a.receivedAt.micros < b.receivedAt.micros ∨
      a.receivedAt.micros = b.receivedAt.micros ∧ a.id ≤ b.id)

instance : DecidableRel arrivalOrder := fun _ _ => inferInstanceAs (Decidable (_ ∨ _))

/-- the `where` of the two event queries, but for the source -/
def inRange (zoneId : String) (range : Range) (row : EvidenceEvent) : Bool :=
  row.zoneId = zoneId && range.start.micros ≤ row.observedAt.micros &&
    row.observedAt.micros ≤ range.stop.micros

/-! ## telemetry and reports -/

structure TelemetryWindowOutput where
  zoneId : String
  range : Range
  events : List EvidenceEvent

/-- the default of `limit` -/
def telemetryLimit : ℕ := 200

def getTelemetryWindow (d : Database) (zoneId : String) (range : Range) (limit : ℕ) :
    TelemetryWindowOutput where
  zoneId := zoneId
  range := range
  events := (((d.evidence.values.filter (inRange zoneId range)).insertionSort arrivalOrder).take
    limit).map toolEvent

structure ReportConflictGroup where
  status : EvidenceStatus
  count : ℕ
  evidenceEventIds : List String

def groupReportsByStatus (reports : List EvidenceEvent) : List ReportConflictGroup :=
  let groups : OrderedMap EvidenceStatus (List String) := reports.foldl (fun groups report =>
    groups.set report.status ((groups.get? report.status).getD [] ++ [report.id])) .empty
  groups.entries.map fun entry => ⟨entry.1, entry.2.length, entry.2⟩

structure ConflictingReportsOutput where
  zoneId : String
  range : Range
  hasConflict : Bool
  reports : List EvidenceEvent
  statusGroups : List ReportConflictGroup

def isReport (row : EvidenceEvent) : Bool := row.source = .reporter

def getConflictingReports (d : Database) (zoneId : String) (range : Range) :
    ConflictingReportsOutput :=
  let reports := ((d.evidence.values.filter fun row => inRange zoneId range row && isReport row).insertionSort
    arrivalOrder).map toolEvent
  let statusGroups := groupReportsByStatus reports
  { zoneId := zoneId
    range := range
    hasConflict := (statusGroups.filter fun group => 0 < group.count && group.status ≠ .unknown).length > 1
    reports := reports
    statusGroups := statusGroups }

/-! ## baseline and providers -/

/-- the default of `windowDays`, in microseconds -/
def baselineMicros : Int := 7 * 24 * 60 * 60 * 1000000

structure HistoricalBaselineOutput where
  zoneId : String
  sampleSize : ℕ
  gridUp : ℕ
  gridDown : ℕ
  unknown : ℕ
  averageVoltage : Option ℚ
  firstObservedAt : Option IsoDate
  lastObservedAt : Option IsoDate

/-- `toIso` of a timestamp in microseconds -/
def toIso (micros : Int) : IsoDate := .ofMillis (micros / 1000)

def getHistoricalBaseline (d : Database) (zoneId : String) (asOf : IsoDate) :
    HistoricalBaselineOutput :=
  let rows := d.evidence.values.filter fun row => row.zoneId = zoneId &&
    asOf.micros - baselineMicros ≤ row.observedAt.micros && row.observedAt.micros < asOf.micros
  let voltages := rows.filterMap EvidenceEvent.voltage
  let times := rows.map fun row => row.observedAt.micros
  { zoneId := zoneId
    sampleSize := rows.length
    gridUp := rows.countP fun row => row.status = .gridUp
    gridDown := rows.countP fun row => row.status = .gridDown
    unknown := rows.countP fun row => row.status = .unknown
    averageVoltage := if voltages = [] then none else some (voltages.sum / voltages.length)
    firstObservedAt := times.min?.map toIso
    lastObservedAt := times.max?.map toIso }

/-- `order by observed_at desc, received_at desc`; rows of one instant come as they are kept -/
def latestFirst (rank : EvidenceEvent → ℕ) (a b : EvidenceEvent) : Prop :=
  b.observedAt.micros < a.observedAt.micros ∨ a.observedAt.micros = b.observedAt.micros ∧
    (b.receivedAt.micros < a.receivedAt.micros ∨
      a.receivedAt.micros = b.receivedAt.micros ∧ rank a ≤ rank b)

instance (rank : EvidenceEvent → ℕ) : DecidableRel (latestFirst rank) :=
  fun _ _ => inferInstanceAs (Decidable (_ ∨ _))

structure ProviderMetadataOutput where
  provider : ProviderRow
  recentEvidenceCount : ℕ
  lastEvidenceAt : Option IsoDate
  latestStatus : Option EvidenceStatus

/-- `none` where the provider is not found -/
def getProviderMetadata (b : Backend) (rank : EvidenceEvent → ℕ) (asOf : IsoDate) (providerId : String) :
    Option ProviderMetadataOutput :=
  (b.providers.get? providerId).map fun provider =>
    let rows := b.database.evidence.values.filter fun row => row.providerId = providerId &&
      asOf.micros - baselineMicros ≤ row.observedAt.micros && row.observedAt.micros ≤ asOf.micros
    { provider := provider
      recentEvidenceCount := rows.length
      lastEvidenceAt := (rows.map fun row => row.observedAt.micros).max?.map toIso
      latestStatus := (rows.insertionSort (latestFirst rank)).head?.map EvidenceEvent.status }

/-! ## the context -/

structure AgentToolContext where
  telemetryWindow : TelemetryWindowOutput
  historicalBaseline : HistoricalBaselineOutput
  conflictingReports : ConflictingReportsOutput
  providerMetadata : List ProviderMetadataOutput

/-- the range of a candidate's own window -/
def ownRange (candidate : CandidateEvent) : Range := ⟨candidate.windowStart, candidate.windowEnd⟩

def collectAgentToolContext (b : Backend) (candidate : CandidateEvent) (providers : List ProviderRow)
    (rank : EvidenceEvent → ℕ) : Option AgentToolContext := do
  let range := ownRange candidate
  let telemetryWindow := getTelemetryWindow b.database candidate.zoneId range telemetryLimit
  let historicalBaseline := getHistoricalBaseline b.database candidate.zoneId candidate.windowEnd
  let conflictingReports := getConflictingReports b.database candidate.zoneId range
  let providerIds := (providers.map ProviderRow.id ++
    telemetryWindow.events.map EvidenceEvent.providerId ++
    conflictingReports.reports.map EvidenceEvent.providerId).eraseDups
  let providerMetadata ← providerIds.mapM (getProviderMetadata b rank candidate.windowEnd)
  return ⟨telemetryWindow, historicalBaseline, conflictingReports, providerMetadata⟩

theorem collect_eq_some {b : Backend} {candidate : CandidateEvent} {providers : List ProviderRow}
    {rank : EvidenceEvent → ℕ} {context : AgentToolContext}
    (h : collectAgentToolContext b candidate providers rank = some context) :
    context.telemetryWindow =
      getTelemetryWindow b.database candidate.zoneId (ownRange candidate) telemetryLimit ∧
    context.conflictingReports =
      getConflictingReports b.database candidate.zoneId (ownRange candidate) := by
  obtain ⟨providerMetadata, -, hcontext⟩ := Option.bind_eq_some_iff.mp h
  obtain rfl := Option.some.inj hcontext
  exact ⟨rfl, rfl⟩

/-! ## which rows the queries return -/

instance arrivalOrder_total : Std.Total arrivalOrder where
  total a b := by
    have hid := String.le_total a.id b.id
    unfold arrivalOrder
    grind

instance arrivalOrder_trans : IsTrans EvidenceEvent arrivalOrder where
  trans a b c := by
    have hid : a.id ≤ b.id → b.id ≤ c.id → a.id ≤ c.id := String.le_trans
    unfold arrivalOrder
    grind

theorem arrivalOrder_antisymm {a b : EvidenceEvent} (hab : arrivalOrder a b)
    (hba : arrivalOrder b a) : a.id = b.id := by
  have hid : a.id ≤ b.id → b.id ≤ a.id → a.id = b.id := String.le_antisymm
  unfold arrivalOrder at hab hba
  grind

/-- the rows of the range that come before a row -/
def rowsBefore (d : Database) (zoneId : String) (range : Range) (row : EvidenceEvent) :
    List EvidenceEvent :=
  (d.evidence.values.filter (inRange zoneId range)).filter fun other => ¬ arrivalOrder row other

/-- the events show the row with this id -/
def Shows (events : List EvidenceEvent) (id : String) : Prop := ∃ event ∈ events, event.id = id

section
variable {d : Database} {zoneId : String} {range : Range} {row : EvidenceEvent} {limit : ℕ}

theorem shows_map_iff {rows : List EvidenceEvent} (hids : (d.evidence.values.map EvidenceEvent.id).Nodup)
    (hrows : ∀ r ∈ rows, r ∈ d.evidence.values) (hrow : row ∈ d.evidence.values) :
    Shows (rows.map toolEvent) row.id ↔ row ∈ rows := by
  constructor
  · rintro ⟨event, hevent, hid⟩
    obtain ⟨r, hr, rfl⟩ := List.mem_map.mp hevent
    have he : r = row := List.inj_on_of_nodup_map hids (hrows r hr) hrow hid
    rwa [← he]
  · intro h
    exact ⟨toolEvent row, List.mem_map_of_mem h, rfl⟩

/-- **The telemetry window shows the rows of the range that few others come before.** -/
theorem telemetry_shows_iff (hids : (d.evidence.values.map EvidenceEvent.id).Nodup)
    (hrow : row ∈ d.evidence.values) :
    Shows (getTelemetryWindow d zoneId range limit).events row.id ↔
      inRange zoneId range row = true ∧ (rowsBefore d zoneId range row).length < limit := by
  have hmem : ∀ r ∈ ((d.evidence.values.filter (inRange zoneId range)).insertionSort arrivalOrder).take
      limit, r ∈ d.evidence.values.filter (inRange zoneId range) :=
    fun r hr => Limit.mem_of_mem_take _ hr
  refine (shows_map_iff hids (fun r hr => (List.mem_filter.mp (hmem r hr)).1) hrow).trans ?_
  constructor
  · intro h
    refine ⟨(List.mem_filter.mp (hmem row h)).2, ?_⟩
    by_contra hmany
    exact Limit.not_mem_take arrivalOrder (Nat.le_of_not_lt hmany) h
  · rintro ⟨hin, hfew⟩
    have hnodup : (d.evidence.values.filter (inRange zoneId range)).Nodup := hids.of_map.filter _
    refine Limit.mem_take _ hnodup (List.mem_filter.mpr ⟨hrow, hin⟩) (lt_of_le_of_lt ?_ hfew)
    -- what stands before the row in the sorted list comes strictly before it
    have hsub : ∀ other ∈ (d.evidence.values.filter (inRange zoneId range)).filter
        (fun other => other ≠ row ∧ arrivalOrder other row), other ∈ rowsBefore d zoneId range row := by
      intro other hother
      obtain ⟨hin', hbefore⟩ := List.mem_filter.mp hother
      obtain ⟨hne, horder⟩ := of_decide_eq_true hbefore
      refine List.mem_filter.mpr ⟨hin', decide_eq_true fun hback => hne ?_⟩
      exact List.inj_on_of_nodup_map hids (List.mem_filter.mp hin').1 hrow
        (arrivalOrder_antisymm horder hback)
    exact (List.subperm_of_subset (hnodup.filter _) hsub).length_le

/-- **The conflicting reports show the reports of the range.** -/
theorem reports_show_iff (hids : (d.evidence.values.map EvidenceEvent.id).Nodup)
    (hrow : row ∈ d.evidence.values) :
    Shows (getConflictingReports d zoneId range).reports row.id ↔
      inRange zoneId range row = true ∧ row.source = .reporter := by
  have hmem : ∀ r, r ∈ (d.evidence.values.filter fun row => inRange zoneId range row &&
      isReport row).insertionSort arrivalOrder ↔
      r ∈ d.evidence.values ∧ inRange zoneId range r = true ∧ isReport r = true := by
    intro r
    rw [List.mem_insertionSort, List.mem_filter, Bool.and_eq_true]
  refine (shows_map_iff hids (fun r hr => ((hmem r).mp hr).1) hrow).trans ((hmem row).trans ?_)
  unfold isReport
  rw [decide_eq_true_eq]
  exact and_iff_right hrow

end

/-! ## witnesses of a candidate -/

section
variable [JsText.Runtime]

/-- the candidate of a reading, as the pipeline reads it back -/
def Raises (d : Database) (evidence : EvidenceEvent) (draw : Draw) (candidate : CandidateEvent) : Prop :=
  ∃ raised, Detection.detectCandidateFromEvidence evidence
    (findRecentZoneEvidence d evidence draw.rank) draw.candidateId draw.now = some raised ∧
    raised.readBack = candidate

/-- the row is among the recent evidence of a reading and counts for or against it -/
def Witness (d : Database) (evidence : EvidenceEvent) (draw : Draw) (row : EvidenceEvent) : Prop :=
  row ∈ d.evidence.values ∧ mapEvidenceRow row ∈ findRecentZoneEvidence d evidence draw.rank ∧
    Detection.counts evidence (mapEvidenceRow row) = true

/-- the row was observed in the candidate's window -/
def InOwnWindow (candidate : CandidateEvent) (row : EvidenceEvent) : Prop :=
  candidate.windowStart.micros ≤ row.observedAt.micros ∧
    row.observedAt.micros ≤ candidate.windowEnd.micros

theorem Raises.zoneId {d : Database} {evidence : EvidenceEvent} {draw : Draw}
    {candidate : CandidateEvent} (h : Raises d evidence draw candidate) :
    candidate.zoneId = evidence.zoneId := by
  obtain ⟨raised, hraised, rfl⟩ := h
  unfold Detection.detectCandidateFromEvidence at hraised
  split at hraised
  · cases hraised
  · obtain rfl := Option.some.inj hraised
    rfl

theorem inRange_of_witness {d : Database} {evidence row : EvidenceEvent} {draw : Draw}
    {candidate : CandidateEvent} (hraises : Raises d evidence draw candidate)
    (hwitness : Witness d evidence draw row) :
    inRange candidate.zoneId (ownRange candidate) row = true ↔ InOwnWindow candidate row := by
  have hcounts := hwitness.2.2
  unfold Detection.counts at hcounts
  simp only [Bool.and_eq_true, decide_eq_true_eq] at hcounts
  have hzone : row.zoneId = candidate.zoneId := hcounts.1.1.1.2.trans hraises.zoneId.symm
  unfold inRange InOwnWindow ownRange
  simp only [Bool.and_eq_true, decide_eq_true_eq, hzone, true_and]

/-- **A witness that was counted is shown to the agents iff it lies in the candidate's own window and is a
report, or has fewer than 200 rows of the window before it.** -/
theorem witnesses_shown_iff {b : Backend} {d : Database} {evidence row : EvidenceEvent} {draw : Draw}
    {candidate : CandidateEvent} {providers : List ProviderRow} {rank : EvidenceEvent → ℕ}
    {context : AgentToolContext} (hids : (b.database.evidence.values.map EvidenceEvent.id).Nodup)
    (hkept : ∀ row ∈ d.evidence.values, row ∈ b.database.evidence.values)
    (hraises : Raises d evidence draw candidate)
    (hcontext : collectAgentToolContext b candidate providers rank = some context)
    (hwitness : Witness d evidence draw row) :
    Shows (context.telemetryWindow.events ++ context.conflictingReports.reports) row.id ↔
      InOwnWindow candidate row ∧ (row.source = .reporter ∨
        (rowsBefore b.database candidate.zoneId (ownRange candidate) row).length < telemetryLimit) := by
  have hrow : row ∈ b.database.evidence.values := hkept row hwitness.1
  obtain ⟨htelemetry, hreports⟩ := collect_eq_some hcontext
  have happend : Shows (context.telemetryWindow.events ++ context.conflictingReports.reports) row.id ↔
      Shows context.telemetryWindow.events row.id ∨ Shows context.conflictingReports.reports row.id := by
    unfold Shows
    simp only [List.mem_append, or_and_right, exists_or]
  rw [happend, htelemetry, hreports, telemetry_shows_iff hids hrow, reports_show_iff hids hrow,
    inRange_of_witness hraises hwitness, ← and_or_left, or_comm]

end

/-! ## a witness outside the window -/

/-- a meter that reports an outage -/
def meterDown (deviceId : String) (minutes : ℕ) : EvidenceEvent :=
  { feederEvent deviceId deviceId .sensor minutes minutes with
    status := .gridDown, voltage := some 0 }

theorem twoMeters_keys : (["first", "second"] : List String).Nodup := by decide

/-- one meter has power at minute 10; another had none -/
def twoMeters (minutes : ℕ) : Backend where
  providers := ⟨[newProvider "provider" "0x2222222222222222222222222222222222222222" .sensor feederZone],
    List.nodup_singleton _, List.nodup_singleton _⟩
  audits := []
  database := ⟨⟨[("first", feederEvent "first" "first" .sensor 10 10),
    ("second", meterDown "second" minutes)], twoMeters_keys⟩, .empty⟩

def poweredMeter : EvidenceEvent := mapEvidenceRow (feederEvent "first" "first" .sensor 10 10)

/-- the candidate of the meter that has power -/
def poweredCandidate : CandidateEvent where
  id := "candidate"
  zoneId := feederZone
  status := .restored
  confidence := 18 / 25
  windowStart := minuteAt 5
  windowEnd := minuteAt 10
  evidenceEventIds := ["first"]
  createdAt := sampleTime.readBack

/-- the other meter is the conflicting witness of its candidate -/
theorem poweredCandidate_raised (minutes : ℕ) (hminutes : minutes = 3 ∨ minutes = 7) :
    letI := JsText.asciiRuntime
    Raises (twoMeters minutes).database poweredMeter strayDraw.toDraw poweredCandidate ∧
    Witness (twoMeters minutes).database poweredMeter strayDraw.toDraw (meterDown "second" minutes) := by
  let _ := JsText.asciiRuntime
  rcases hminutes with rfl | rfl
  all_goals
    refine ⟨⟨{ poweredCandidate with createdAt := sampleTime }, by decide +kernel, by decide +kernel⟩, ?_, ?_, ?_⟩
    · exact List.mem_cons_of_mem _ List.mem_cons_self
    · decide +kernel
    · decide +kernel

theorem witnesses_shown_iff_recent : letI := JsText.asciiRuntime
    ∃ context, collectAgentToolContext (twoMeters 7) poweredCandidate [] (fun _ => 0) = some context ∧
      Shows (context.telemetryWindow.events ++ context.conflictingReports.reports) "second" := by
  let _ := JsText.asciiRuntime
  obtain ⟨context, hcontext⟩ : ∃ context,
    collectAgentToolContext (twoMeters 7) poweredCandidate [] (fun _ => 0) = some context := ⟨_, rfl⟩
  obtain ⟨hraises, hwitness⟩ := poweredCandidate_raised 7 (.inr rfl)
  have hids : ((twoMeters 7).database.evidence.values.map EvidenceEvent.id).Nodup := by decide +kernel
  refine ⟨context, hcontext, ?_⟩
  refine (witnesses_shown_iff hids (fun _ h => h) hraises hcontext hwitness).mpr ⟨?_, .inr ?_⟩
  · exact ⟨by decide +kernel, by decide +kernel⟩
  · decide +kernel

/-- **A conflict seven minutes before the reading is counted, and the agents do not see it.** -/
theorem early_witness : letI := JsText.asciiRuntime
    Raises (twoMeters 3).database poweredMeter strayDraw.toDraw poweredCandidate ∧
    Witness (twoMeters 3).database poweredMeter strayDraw.toDraw (meterDown "second" 3) ∧
    ∃ context, collectAgentToolContext (twoMeters 3) poweredCandidate [] (fun _ => 0) = some context ∧
      ¬ Shows (context.telemetryWindow.events ++ context.conflictingReports.reports) "second" := by
  let _ := JsText.asciiRuntime
  obtain ⟨hraises, hwitness⟩ := poweredCandidate_raised 3 (.inl rfl)
  refine ⟨hraises, hwitness, ?_⟩
  have hrun : (collectAgentToolContext (twoMeters 3) poweredCandidate [] (fun _ => 0)).any (fun context =>
      !((context.telemetryWindow.events ++ context.conflictingReports.reports).any
        fun event => event.id = "second")) = true := by
    decide +kernel
  obtain ⟨context, hcontext, hnone⟩ := (Option.any_eq_true _ _).mp hrun
  refine ⟨context, hcontext, ?_⟩
  rintro ⟨event, hevent, hid⟩
  rw [Bool.not_eq_true', List.any_eq_false] at hnone
  exact hnone event hevent (decide_eq_true hid)

end Ingestion
