import GridProof.Detection.Witnesses
import GridProof.Ingestion.Sweep

/-!
# The evidence that a candidate names

* `Evidenced`             a candidate names stored readings of its zone that say what it says, or the sensor
                          readings at the ends of a silence;
* `evidenced_of_detect`   so does a candidate of ingestion;
* `evidenced_of_sweep`    so does one of the heartbeat sweep.
-/

namespace Provenance
open Ingestion (EvidenceEvent EvidenceStatus Database mapEvidenceRow findRecentZoneEvidence)
open Pipeline (IsoDate CandidateEvent CandidateStatus)

/-- what a reading says that raises such a candidate -/
def reported : CandidateStatus → EvidenceStatus
  | .outage => .gridDown
  | .restored => .gridUp

/-- the reading says what the candidate says, at most the agreement window away from it -/
structure Supports (row : EvidenceEvent) (c : CandidateEvent) : Prop where
  zone : row.zoneId = c.zoneId
  status : row.status = reported c.status
  near : (row.observedAt.getTime - c.windowEnd.getTime).natAbs ≤ Detection.agreementWindowMs

/-- the candidate is an outage over a silence, and the sensor was heard of at one of its ends -/
structure Bounds (row : EvidenceEvent) (c : CandidateEvent) : Prop where
  zone : row.zoneId = c.zoneId
  source : row.source = .sensor
  outage : c.status = .outage
  silent : Detection.heartbeatGapMs < c.windowEnd.getTime - c.windowStart.getTime
  at_end : row.observedAt.getTime = c.windowStart.getTime ∨ row.observedAt.getTime = c.windowEnd.getTime

/-- every id that the candidate names is of a stored row, and it names one -/
def Evidenced (rows : List EvidenceEvent) (c : CandidateEvent) : Prop :=
  c.evidenceEventIds ≠ [] ∧
    ((∀ id ∈ c.evidenceEventIds, ∃ row ∈ rows, row.id = id ∧ Supports row c) ∨
      ∀ id ∈ c.evidenceEventIds, ∃ row ∈ rows, row.id = id ∧ Bounds row c)

theorem Evidenced.mono {rows rows' : List EvidenceEvent} {c : CandidateEvent} (hrows : ∀ row ∈ rows, row ∈ rows')
    (h : Evidenced rows c) : Evidenced rows' c := by
  refine ⟨h.1, h.2.imp (fun hall id hid => ?_) fun hall id hid => ?_⟩
  · obtain ⟨row, hrow, hrest⟩ := hall id hid
    exact ⟨row, hrows row hrow, hrest⟩
  · obtain ⟨row, hrow, hrest⟩ := hall id hid
    exact ⟨row, hrows row hrow, hrest⟩

/-! ## what is read back -/

theorem getTime_readBack (d : IsoDate) : d.readBack.getTime = d.getTime := Int.mul_ediv_cancel _ (by decide)

theorem observedAt_mapEvidenceRow (row : EvidenceEvent) :
    (mapEvidenceRow row).observedAt.getTime = row.observedAt.getTime := getTime_readBack row.observedAt

/-- an event that was read back is of a stored row -/
def Stored (rows : List EvidenceEvent) (e : EvidenceEvent) : Prop := ∃ row ∈ rows, e = mapEvidenceRow row

theorem stored_recent {d : Database} {e x : EvidenceEvent} {rank : EvidenceEvent → ℕ}
    (h : x ∈ findRecentZoneEvidence d e rank) : Stored d.evidence.values x := by
  unfold findRecentZoneEvidence at h
  obtain ⟨row, hrow, rfl⟩ := List.mem_map.mp h
  have hsorted := List.mem_of_mem_take hrow
  rw [List.mem_insertionSort] at hsorted
  exact ⟨row, (List.mem_filter.mp hsorted).1, rfl⟩

/-- the events that a sweep reads -/
def swept (d : Database) (now : Int) (rank : EvidenceEvent → ℕ) : List EvidenceEvent :=
  (((d.evidence.values.filter (Ingestion.inLookback now)).insertionSort (Ingestion.oldestFirst rank)).take 5000).map
    mapEvidenceRow

theorem stored_swept {d : Database} {now : Int} {rank : EvidenceEvent → ℕ} {x : EvidenceEvent}
    (h : x ∈ swept d now rank) : Stored d.evidence.values x := by
  obtain ⟨row, hrow, rfl⟩ := List.mem_map.mp h
  have hsorted := List.mem_of_mem_take hrow
  rw [List.mem_insertionSort] at hsorted
  exact ⟨row, (List.mem_filter.mp hsorted).1, rfl⟩

section
variable [JsText.Runtime]

/-! ## the candidates of ingestion -/

/-- **A candidate that a reading raises names it and the readings that agree with it.** -/
theorem evidenced_of_detect {d : Database} {e : EvidenceEvent} {rank : EvidenceEvent → ℕ} {id : String}
    {now : IsoDate} {c : CandidateEvent} (he : Stored d.evidence.values e)
    (h : Detection.detectCandidateFromEvidence e (findRecentZoneEvidence d e rank) id now = some c) :
    Evidenced d.evidence.values c := by
  unfold Detection.detectCandidateFromEvidence at h
  split at h
  · cases h
  · rename_i hknown
    obtain rfl := Option.some.inj h
    have hstatus : e.status = reported (if e.status = .gridDown then .outage else .restored) := by
      cases hs : e.status with
      | gridUp => rfl
      | gridDown => rfl
      | unknown => exact absurd hs hknown
    refine ⟨List.cons_ne_nil _ _, .inl fun x hx => ?_⟩
    rcases List.mem_cons.mp hx with rfl | hx
    · obtain ⟨row, hrow, rfl⟩ := he
      refine ⟨row, hrow, rfl, rfl, hstatus, ?_⟩
      dsimp only
      rw [observedAt_mapEvidenceRow, sub_self]
      decide
    · -- an agreeing witness
      obtain ⟨witness, hwitness, rfl⟩ := List.mem_map.mp hx
      rw [List.mem_insertionSort] at hwitness
      obtain ⟨hrecent, hagrees⟩ := Detection.mem_agreeingEvents hwitness
      obtain ⟨hcounts, hsame⟩ := Detection.agrees_iff.mp hagrees
      obtain ⟨-, hzone, -, -, hnear⟩ := Detection.counts_iff.mp hcounts
      obtain ⟨row, hrow, rfl⟩ := stored_recent hrecent
      refine ⟨row, hrow, rfl, hzone, (show row.status = e.status from hsame).trans hstatus, ?_⟩
      rw [observedAt_mapEvidenceRow] at hnear
      exact hnear

/-! ## the candidates of the sweep -/

/-- **A candidate of a silence names the beats at its ends.** -/
theorem evidenced_of_sweep {d : Database} {now : Int} {rank : EvidenceEvent → ℕ} {ids : String → ℕ → String}
    {c : CandidateEvent}
    (h : c ∈ Ingestion.sweepCandidates (Ingestion.listSweepEvidenceByZone d now rank) now ids) :
    Evidenced d.evidence.values c := by
  have hdetected : c ∈ Detection.detectHeartbeatGapCandidates c.zoneId (swept d now rank) now (ids c.zoneId) :=
    Ingestion.mem_sweepCandidates.mp h
  have hsilence := (Detection.isGapCandidate_of_mem hdetected).silence.long
  -- the rows behind the beats of the zone
  have hbeat : ∀ b ∈ Detection.heartbeatsFor c.zoneId (swept d now rank), ∃ row ∈ d.evidence.values,
      row.id = b.id ∧ row.zoneId = c.zoneId ∧ row.source = .sensor ∧
        row.observedAt.getTime = b.observedAt.getTime := by
    intro b hb
    obtain ⟨hmem, hbeat⟩ := Detection.mem_heartbeatsFor.mp hb
    obtain ⟨hzone, hsource⟩ := Detection.isBeat_iff.mp hbeat
    obtain ⟨row, hrow, rfl⟩ := stored_swept hmem
    exact ⟨row, hrow, rfl, hzone, hsource, (observedAt_mapEvidenceRow row).symm⟩
  obtain ⟨i, hi, hc⟩ := List.mem_mapIdx.mp hdetected
  obtain ⟨before, startBeat, after, hbeats, hgap⟩ := Detection.mem_heartbeatGaps.mp (List.getElem_mem hi)
  rw [(Detection.gapAt_eq_some hgap).1] at hc
  have hbounds : ∀ b ∈ Detection.heartbeatsFor c.zoneId (swept d now rank),
      b.observedAt.getTime = c.windowStart.getTime ∨ b.observedAt.getTime = c.windowEnd.getTime →
      ∃ row ∈ d.evidence.values, row.id = b.id ∧ Bounds row c := by
    intro b hb hend
    obtain ⟨row, hrow, hid, hzone, hsource, hat⟩ := hbeat b hb
    refine ⟨row, hrow, hid, hzone, hsource, ?_, hsilence, hat ▸ hend⟩
    rw [← hc]
    rfl
  have hstart : startBeat ∈ Detection.heartbeatsFor c.zoneId (swept d now rank) := by
    rw [hbeats]
    exact List.mem_append_right _ List.mem_cons_self
  refine ⟨?_, .inr fun id hid => ?_⟩
  · rw [← hc]
    exact List.cons_ne_nil _ _
  · rw [← hc] at hid
    rcases List.mem_cons.mp hid with rfl | hid
    · exact hbounds startBeat hstart (.inl (by rw [← hc]; rfl))
    · obtain ⟨b, hb, rfl⟩ := Option.map_eq_some_iff.mp (Option.mem_toList.mp hid)
      have hhead : after.head? = some b := (Option.filter_eq_some_iff.mp hb).1
      refine hbounds b ?_ (.inr ?_)
      · rw [hbeats]
        exact List.mem_append_right _ (List.mem_cons_of_mem _ (List.mem_of_head? hhead))
      · rw [← hc]
        show b.observedAt.getTime = ((after.head?.map EvidenceEvent.observedAt).getD _).getTime
        rw [hhead]
        rfl

end

end Provenance
