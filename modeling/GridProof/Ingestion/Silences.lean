import GridProof.Lib.Runs
import GridProof.Ingestion.GapBounds
import GridProof.Ingestion.MemorySweep

/-!
# Every silence is recorded once

In a process whose sweeps come often enough, readings that arrive when they are observed leave each silence of a
zone with one gap candidate.

* `StartsSilence`    a reading that no other one of the zone follows within the threshold;
* `Process.Inv`      what is recorded are such starts, once each, and as soon as a sweep comes late enough;
* `silence_recorded_once`   what holds along a run.
-/

namespace Ingestion
open Pipeline (IsoDate CandidateEvent)
open Detection (isBeat beatTimes startBeatAt heartbeatGapKey heartbeatGapMs IsGapCandidate)

/-- a reading of the zone at `s`, and none in the threshold after it -/
def StartsSilence (zoneId : String) (events : List EvidenceEvent) (s : ℤ) : Prop :=
  s ∈ beatTimes zoneId events ∧ ∀ t ∈ beatTimes zoneId events, t ≤ s ∨ s + heartbeatGapMs < t

/-! ## one more event -/

theorem beatTimes_concat {zoneId : String} {events : List EvidenceEvent} {e : EvidenceEvent} {t : ℤ} :
    t ∈ beatTimes zoneId (events ++ [e]) ↔
      t ∈ beatTimes zoneId events ∨ (isBeat zoneId e = true ∧ e.observedAt.getTime = t) := by
  constructor
  · rintro ⟨b, hb, hbeat, rfl⟩
    rcases List.mem_append.mp hb with hb | hb
    · exact .inl ⟨b, hb, hbeat, rfl⟩
    · obtain rfl := List.mem_singleton.mp hb
      exact .inr ⟨hbeat, rfl⟩
  · rintro (⟨b, hb, hbeat, rfl⟩ | ⟨hbeat, rfl⟩)
    · exact ⟨b, List.mem_append_left _ hb, hbeat, rfl⟩
    · exact ⟨e, List.mem_append_right _ List.mem_cons_self, hbeat, rfl⟩

section
variable [JsText.Runtime]

theorem startBeatAt_concat {zoneId : String} {events : List EvidenceEvent} {e : EvidenceEvent} {s : ℤ}
    (h : isBeat zoneId e = true → e.observedAt.getTime ≠ s) :
    startBeatAt zoneId (events ++ [e]) s = startBeatAt zoneId events s := by
  have hnone : [e].filter (fun e => isBeat zoneId e && e.observedAt.getTime = s) = [] := by
    refine List.filter_eq_nil_iff.mpr fun b hb hin => ?_
    obtain rfl := List.mem_singleton.mp hb
    rw [Bool.and_eq_true, decide_eq_true_eq] at hin
    exact h hin.1 hin.2
  unfold startBeatAt
  rw [List.filter_append, hnone, List.append_nil]

/-! ## what a sweep reads -/

omit [JsText.Runtime] in
theorem recent_iff {zoneId : String} {now : Int} {e : EvidenceEvent} (h : isBeat zoneId e = true) :
    EvidenceStore.recent now e = true ↔ now - sweepLookbackMs ≤ e.observedAt.getTime := by
  unfold EvidenceStore.recent
  rw [Bool.and_eq_true, decide_eq_true_eq, decide_eq_true_eq, and_iff_right (Detection.isBeat_iff.mp h).2]

omit [JsText.Runtime] in
theorem beatTimes_recent (zoneId : String) (events : List EvidenceEvent) (now : Int) :
    beatTimes zoneId (events.filter (EvidenceStore.recent now)) =
      {t | t ∈ beatTimes zoneId events ∧ now - sweepLookbackMs ≤ t} := by
  ext t
  constructor
  · rintro ⟨e, he, hbeat, rfl⟩
    obtain ⟨he, hrecent⟩ := List.mem_filter.mp he
    exact ⟨⟨e, he, hbeat, rfl⟩, (recent_iff hbeat).mp hrecent⟩
  · rintro ⟨⟨e, he, hbeat, rfl⟩, hold⟩
    exact ⟨e, List.mem_filter.mpr ⟨he, (recent_iff hbeat).mpr hold⟩, hbeat, rfl⟩

/-- ageing leaves the beats of an instant together -/
theorem startBeatAt_recent {zoneId : String} {events : List EvidenceEvent} {now : Int} {s : ℤ}
    (hs : now - sweepLookbackMs ≤ s) :
    startBeatAt zoneId (events.filter (EvidenceStore.recent now)) s = startBeatAt zoneId events s := by
  unfold startBeatAt
  rw [List.filter_filter]
  congr 2
  refine List.filter_congr fun e _ => ?_
  by_cases hin : (isBeat zoneId e && decide (e.observedAt.getTime = s)) = true
  · rw [hin, Bool.true_and]
    rw [Bool.and_eq_true, decide_eq_true_eq] at hin
    exact (recent_iff hin.1).mpr (hin.2 ▸ hs)
  · rw [Bool.eq_false_iff.mpr hin, Bool.false_and]

/-! ## the invariant -/

namespace Process

/-- the candidate is of a silence that a sweep came late enough for, and starts at the beat it starts at -/
structure Records (p : Process) (c : CandidateEvent) : Prop where
  silence : StartsSilence c.zoneId p.evidence c.windowStart.getTime
  late : ∃ n ∈ p.sweeps, c.windowStart.getTime + heartbeatGapMs < n
  beat : ∃ b, startBeatAt c.zoneId p.evidence c.windowStart.getTime = some b ∧ c.windowStart = b.observedAt

structure Inv (parse : String → Int) (p : Process) : Prop where
  read : ∀ e ∈ p.evidence, e.source = .sensor → WellRead parse e
  past : ∀ e ∈ p.evidence, e.source = .sensor → e.observedAt.getTime ≤ p.clock
  swept : ∀ e ∈ p.evidence, e.source = .sensor → p.sweeps ≠ []
  sweeps : ∀ n ∈ p.sweeps, n ≤ p.clock
  keys : ∀ key ∈ p.memory.keys, (∃ c ∈ p.recorded, heartbeatGapKey c = key) ∨
    ∃ e : EvidenceEvent, ZoneText e.zoneId ∧ key = candidateKeyFor e
  stored : ∀ c ∈ p.recorded, heartbeatGapKey c ∈ p.memory.keys
  once : (p.recorded.map heartbeatGapKey).Nodup
  sound : ∀ c ∈ p.recorded, p.Records c
  complete : ∀ zoneId s, StartsSilence zoneId p.evidence s → (∃ n ∈ p.sweeps, s + heartbeatGapMs < n) →
    ∃ c ∈ p.recorded, c.zoneId = zoneId ∧ c.windowStart.getTime = s

theorem inv_start (parse : String → Int) (clock : Int) : Inv parse (start clock) where
  read _ he := absurd he List.not_mem_nil
  past _ he := absurd he List.not_mem_nil
  swept _ he := absurd he List.not_mem_nil
  sweeps _ hn := absurd hn List.not_mem_nil
  keys _ hkey := absurd hkey List.not_mem_nil
  stored _ hc := absurd hc List.not_mem_nil
  once := List.nodup_nil
  sound _ hc := absurd hc List.not_mem_nil
  complete _ _ _ hn := by
    obtain ⟨n, hn, -⟩ := hn
    exact absurd hn List.not_mem_nil

section
variable {parse : String → Int} {p : Process} {now : Int}

/-- the times of a zone are in the past -/
theorem Inv.times (h : Inv parse p) {zoneId : String} {t : ℤ} (ht : t ∈ beatTimes zoneId p.evidence) :
    t ≤ p.clock ∧ p.sweeps ≠ [] := by
  obtain ⟨e, he, hbeat, rfl⟩ := ht
  have hsensor := (Detection.isBeat_iff.mp hbeat).2
  exact ⟨h.past e he hsensor, h.swept e he hsensor⟩

/-- the reading that a recorded silence starts at -/
theorem Inv.startsAt (h : Inv parse p) {c : CandidateEvent} (hc : c ∈ p.recorded) : ∃ b, StartsAt parse b c := by
  obtain ⟨b, hb, hstart⟩ := (h.sound c hc).beat
  obtain ⟨hmem, hbeat, -⟩ := startBeatAt_mem hb
  obtain ⟨hzone, hsensor⟩ := Detection.isBeat_iff.mp hbeat
  exact ⟨b, h.read b hmem hsensor, hzone, hstart⟩

theorem Inv.duplicate (h : Inv parse p) (hnow : p.clock ≤ now) : Inv parse { p with clock := now } where
  read := h.read
  past e he hsensor := (h.past e he hsensor).trans hnow
  swept := h.swept
  sweeps n hn := (h.sweeps n hn).trans hnow
  keys := h.keys
  stored := h.stored
  once := h.once
  sound c hc := ⟨(h.sound c hc).silence, (h.sound c hc).late, (h.sound c hc).beat⟩
  complete := h.complete

/-- an event that is new comes later than what was recorded -/
theorem Inv.event (h : Inv parse p) (hnow : p.clock ≤ now) {e : EvidenceEvent} {m : Memory}
    (hevidence : m.evidenceByIdempotencyKey.values = p.evidence ++ [e]) (hzone : ZoneText e.zoneId)
    (hsensor : e.source = .sensor → WellRead parse e ∧ e.observedAt.getTime = now ∧ p.sweeps ≠ [])
    (hkeys : ∀ key ∈ m.keys, key ∈ p.memory.keys ∨ key = candidateKeyFor e)
    (hkept : ∀ key ∈ p.memory.keys, key ∈ m.keys) : Inv parse { p with memory := m, clock := now } := by
  have hbeat : ∀ {zoneId}, isBeat zoneId e = true → e.observedAt.getTime = now :=
    fun hb => (hsensor (Detection.isBeat_iff.mp hb).2).2.1
  have hmem : ∀ b, b ∈ m.evidenceByIdempotencyKey.values ↔ b ∈ p.evidence ∨ b = e := fun b => by
    rw [hevidence, List.mem_append, List.mem_singleton]
  refine ⟨fun b hb hs => ?_, fun b hb hs => ?_, fun b hb hs => ?_, fun n hn => (h.sweeps n hn).trans hnow, ?_,
    fun c hc => hkept _ (h.stored c hc), h.once, fun c hc => ?_, ?_⟩
  · rcases (hmem b).mp hb with hb | rfl
    · exact h.read b hb hs
    · exact (hsensor hs).1
  · rcases (hmem b).mp hb with hb | rfl
    · exact (h.past b hb hs).trans hnow
    · exact (hsensor hs).2.1.le
  · rcases (hmem b).mp hb with hb | rfl
    · exact h.swept b hb hs
    · exact (hsensor hs).2.2
  · intro key hkey
    rcases hkeys key hkey with hold | rfl
    · exact h.keys key hold
    · exact .inr ⟨e, hzone, rfl⟩
  · obtain ⟨⟨hs, hclear⟩, ⟨n, hn, hlate⟩, hstart⟩ := h.sound c hc
    have hpast := h.sweeps n hn
    have hgap := Detection.heartbeatGapMs_pos
    refine ⟨?_, ⟨n, hn, hlate⟩, ?_⟩
    · show StartsSilence c.zoneId m.evidenceByIdempotencyKey.values c.windowStart.getTime
      rw [hevidence]
      refine ⟨beatTimes_concat.mpr (.inl hs), fun t ht => ?_⟩
      rcases beatTimes_concat.mp ht with ht | ⟨hb, rfl⟩
      · exact hclear t ht
      · rw [hbeat hb]
        omega
    · show ∃ b, startBeatAt c.zoneId m.evidenceByIdempotencyKey.values c.windowStart.getTime = some b ∧ _
      rw [hevidence, startBeatAt_concat]
      · exact hstart
      · intro hb
        rw [hbeat hb]
        omega
  · show ∀ zoneId s, StartsSilence zoneId m.evidenceByIdempotencyKey.values s → _
    rw [hevidence]
    rintro zoneId s ⟨hs, hclear⟩ ⟨n, hn, hlate⟩
    have hold : s ∈ beatTimes zoneId p.evidence := by
      refine (beatTimes_concat.mp hs).resolve_right ?_
      rintro ⟨hb, rfl⟩
      rw [hbeat hb] at hlate
      have hpast := h.sweeps n hn
      have hgap := Detection.heartbeatGapMs_pos
      omega
    exact h.complete zoneId s ⟨hold, fun t ht => hclear t (beatTimes_concat.mpr (.inl ht))⟩ ⟨n, hn, hlate⟩

/-- what a sweep finds is a silence of the process -/
theorem Inv.found (h : Inv parse p) (hnow : p.clock ≤ now) {zoneId : String} {s e : ℤ} {c : CandidateEvent}
    (hgap : IsGapCandidate zoneId (EvidenceStore.sweepRows now (.memory p.memory)) now s e c) :
    StartsSilence zoneId p.evidence s ∧ s + heartbeatGapMs < now ∧
      ∃ b, startBeatAt zoneId p.evidence s = some b ∧ c.windowStart = b.observedAt := by
  have hsilence := hgap.silence.congr (beatTimes_recent zoneId p.evidence now)
  obtain ⟨hsilence, hold⟩ := (isSilence_ageing Detection.heartbeatGapMs_pos.le _).mp hsilence
  have hlong := hsilence.long
  have hend : e ≤ now := by
    rcases hsilence.stop with ⟨he, -⟩ | ⟨he, -⟩
    · exact (h.times he).1.trans hnow
    · exact he.le
  refine ⟨⟨hsilence.start, fun t ht => ?_⟩, by omega, ?_⟩
  · have := hsilence.clear t ht
    omega
  · obtain ⟨b, hb, hstart⟩ := hgap.beat
    exact ⟨b, (startBeatAt_recent hold).symm.trans hb, hstart⟩

/-- a silence that no sweep has come for is found by the next one that comes late enough -/
theorem Inv.finds (h : Inv parse p) (hdue : ∀ last ∈ p.sweeps.head?, now ≤ last + 2 * heartbeatGapMs)
    (ids : ℕ → String) {zoneId : String} {s : ℤ} (hsilence : StartsSilence zoneId p.evidence s)
    (hnone : ∀ n ∈ p.sweeps, n ≤ s + heartbeatGapMs) (hlate : s + heartbeatGapMs < now) :
    ∃ e, ∃ c ∈ Detection.detectHeartbeatGapCandidates zoneId (EvidenceStore.sweepRows now (.memory p.memory)) now ids,
      IsGapCandidate zoneId (EvidenceStore.sweepRows now (.memory p.memory)) now s e c := by
  obtain ⟨hs, hclear⟩ := hsilence
  -- the last sweep was not too late, so the start is still in the lookback
  have hold : now - sweepLookbackMs ≤ s := by
    cases hlast : p.sweeps.head? with
    | none => exact absurd (List.head?_eq_none_iff.mp hlast) (h.times hs).2
    | some last =>
      have hle := hdue last hlast
      have hlow := hnone last (List.mem_of_head? hlast)
      unfold sweepLookbackMs
      omega
  have hno : ¬ Followed heartbeatGapMs now (beatTimes zoneId p.evidence) s := by
    rintro (⟨t, ht, hst, hle⟩ | ⟨hle, -⟩)
    · have := hclear t ht
      omega
    · omega
  obtain ⟨e, he⟩ := (exists_isSilence_iff Detection.heartbeatGapMs_pos.le).mpr ⟨hs, hno⟩
  refine ⟨e, Detection.exists_isGapCandidate Pipeline.exactly ids ?_⟩
  exact ((isSilence_ageing Detection.heartbeatGapMs_pos.le _).mpr ⟨he, hold⟩).congr
    (beatTimes_recent zoneId p.evidence now).symm

theorem Inv.sweep (h : Inv parse p) (hnow : p.clock ≤ now) {m : Memory} {ids : String → ℕ → String}
    {recorded : List CandidateEvent} (hrecorded : recorded = recordGaps p.memory.keys
      (sweepCandidates (EvidenceStore.sweepEvidenceByZone now (.memory p.memory)) now ids))
    (hevidence : m.evidenceByIdempotencyKey = p.memory.evidenceByIdempotencyKey)
    (hkeys : ∀ key, key ∈ m.keys ↔ key ∈ p.memory.keys ∨ ∃ c ∈ recorded, heartbeatGapKey c = key)
    (hdue : ∀ last ∈ p.sweeps.head?, now ≤ last + 2 * heartbeatGapMs) :
    Inv parse ⟨m, now, now :: p.sweeps, p.recorded ++ recorded⟩ := by
  have hfound : ∀ c ∈ recorded, heartbeatGapKey c ∉ p.memory.keys ∧
      IsGapCandidate c.zoneId (EvidenceStore.sweepRows now (.memory p.memory)) now c.windowStart.getTime
        c.windowEnd.getTime c := by
    rw [hrecorded, EvidenceStore.sweepEvidenceByZone_eq]
    intro c hc
    obtain ⟨hc, hkey⟩ := mem_recordGaps hc
    exact ⟨hkey, Detection.isGapCandidate_of_mem (mem_sweepCandidates.mp hc)⟩
  have hread : ∀ b ∈ EvidenceStore.sweepRows now (.memory p.memory), WellRead parse b := by
    intro b hb
    obtain ⟨hb, hrecent⟩ := List.mem_filter.mp hb
    unfold EvidenceStore.recent at hrecent
    rw [Bool.and_eq_true, decide_eq_true_eq] at hrecent
    exact h.read b hb hrecent.1
  refine ⟨?_, ?_, fun _ _ _ => List.cons_ne_nil now p.sweeps, ?_, ?_, ?_, ?_, ?_, ?_⟩
  · show ∀ e ∈ m.evidenceByIdempotencyKey.values, _
    rw [hevidence]
    exact h.read
  · show ∀ e ∈ m.evidenceByIdempotencyKey.values, _
    rw [hevidence]
    exact fun e he hs => (h.past e he hs).trans hnow
  · exact List.forall_mem_cons.mpr ⟨le_refl now, fun n hn => (h.sweeps n hn).trans hnow⟩
  · intro key hkey
    rcases (hkeys key).mp hkey with hold | ⟨c, hc, rfl⟩
    · refine (h.keys key hold).imp_left ?_
      rintro ⟨c, hc, rfl⟩
      exact ⟨c, List.mem_append_left _ hc, rfl⟩
    · exact .inl ⟨c, List.mem_append_right _ hc, rfl⟩
  · intro c hc
    refine (hkeys _).mpr ((List.mem_append.mp hc).imp (h.stored c) fun hc => ⟨c, hc, rfl⟩)
  · show ((p.recorded ++ recorded).map heartbeatGapKey).Nodup
    rw [List.map_append]
    refine h.once.append ?_ fun key hold hnew => ?_
    · rw [hrecorded]
      exact recordGaps_nodup _ _
    · obtain ⟨c, hc, rfl⟩ := List.mem_map.mp hold
      obtain ⟨c', hc', he⟩ := List.mem_map.mp hnew
      exact (hfound c' hc').1 (he ▸ h.stored c hc)
  · have hsame : Process.evidence ⟨m, now, now :: p.sweeps, p.recorded ++ recorded⟩ = p.evidence := by
      unfold Process.evidence
      rw [hevidence]
    intro c hc
    rcases List.mem_append.mp hc with hc | hc
    · obtain ⟨hsilence, ⟨n, hn, hlate⟩, hstart⟩ := h.sound c hc
      exact ⟨hsame ▸ hsilence, ⟨n, List.mem_cons_of_mem now hn, hlate⟩, hsame ▸ hstart⟩
    · obtain ⟨hsilence, hlate, hstart⟩ := h.found hnow (hfound c hc).2
      exact ⟨hsame ▸ hsilence, ⟨now, List.mem_cons_self, hlate⟩, hsame ▸ hstart⟩
  · show ∀ zoneId s, StartsSilence zoneId m.evidenceByIdempotencyKey.values s → (∃ n ∈ now :: p.sweeps, _) →
      ∃ c ∈ p.recorded ++ recorded, _
    rw [hevidence]
    intro zoneId s hsilence hlate
    by_cases hbefore : ∃ n ∈ p.sweeps, s + heartbeatGapMs < n
    · obtain ⟨c, hc, hzone⟩ := h.complete zoneId s hsilence hbefore
      exact ⟨c, List.mem_append_left _ hc, hzone⟩
    · have hnone : ∀ n ∈ p.sweeps, n ≤ s + heartbeatGapMs :=
        fun n hn => le_of_not_gt fun hlt => hbefore ⟨n, hn, hlt⟩
      have hnow : s + heartbeatGapMs < now := by
        obtain ⟨n, hn, hlt⟩ := hlate
        rcases List.mem_cons.mp hn with rfl | hn
        · exact hlt
        · exact absurd hlt (not_lt.mpr (hnone n hn))
      obtain ⟨e, c, hc, hgap⟩ := h.finds hdue (ids zoneId) hsilence hnone hnow
      by_cases hfree : heartbeatGapKey c ∈ p.memory.keys
      · -- the key would be of this silence, so it would be recorded
        rcases h.keys _ hfree with ⟨r, hr, hkey⟩ | ⟨event, hzone, hkey⟩
        · obtain ⟨b, hb⟩ := h.startsAt hr
          obtain ⟨b', -, hb'⟩ := startsAt_of_gap hread hgap
          obtain ⟨hzone, hstart⟩ := hb.eq_of_key hb' hkey
          exact ⟨r, List.mem_append_left _ hr, hzone.trans hgap.zone, hstart.trans hgap.start⟩
        · exact absurd hkey.symm (candidateKeyFor_ne_gapKey hzone c)
      · have hmem : c ∈ sweepCandidates (EvidenceStore.sweepEvidenceByZone now (.memory p.memory)) now ids := by
          rw [EvidenceStore.sweepEvidenceByZone_eq, mem_sweepCandidates, hgap.zone]
          exact hc
        obtain ⟨c', hc', hkey⟩ := exists_recordGaps hmem hfree
        rw [← hrecorded] at hc'
        obtain ⟨hzone, hstart⟩ := same_start hread hread (hfound c' hc').2 hgap hkey
        exact ⟨c', List.mem_append_right _ hc', hzone, hstart⟩

theorem Inv.step (h : Inv parse p) {p' : Process} {x : Int × Happening} (hok : Timely parse p x)
    (hstep : next p x = some p') : Inv parse p' := by
  cases next_effect hok hstep with
  | duplicate => exact h.duplicate hok.1
  | stored e m hevidence hzone hsensor hkeys hkept => exact h.event hok.1 hevidence hzone hsensor hkeys hkept
  | swept m ids recorded hrecorded hevidence hkeys hdue => exact h.sweep hok.1 hrecorded hevidence hkeys hdue

/-! ## runs -/

/-- what a process adds: readings of later instants, and candidates -/
def Extends (p p' : Process) : Prop :=
  p.clock ≤ p'.clock ∧
  (∀ zoneId t, t ∈ beatTimes zoneId p'.evidence → t ∈ beatTimes zoneId p.evidence ∨ p.clock ≤ t) ∧
  (∀ zoneId t, t ∈ beatTimes zoneId p.evidence → t ∈ beatTimes zoneId p'.evidence) ∧
  ∃ later, p'.recorded = p.recorded ++ later

omit [JsText.Runtime] in
theorem Extends.refl (p : Process) : Extends p p :=
  ⟨le_refl _, fun _ _ => .inl, fun _ _ => id, [], (List.append_nil _).symm⟩

omit [JsText.Runtime] in
theorem Extends.trans {p q r : Process} (h : Extends p q) (h' : Extends q r) : Extends p r := by
  obtain ⟨hclock, hnew, hold, later, hlater⟩ := h
  obtain ⟨hclock', hnew', hold', later', hlater'⟩ := h'
  refine ⟨hclock.trans hclock', fun zoneId t ht => ?_, fun zoneId t ht => hold' zoneId t (hold zoneId t ht),
    later ++ later', ?_⟩
  · rcases hnew' zoneId t ht with ht | ht
    · exact hnew zoneId t ht
    · exact .inr (hclock.trans ht)
  · rw [hlater', hlater, List.append_assoc]

theorem extends_step {p' : Process} {x : Int × Happening} (hok : Timely parse p x) (hstep : next p x = some p') :
    Extends p p' := by
  cases next_effect hok hstep with
  | duplicate => exact ⟨hok.1, fun _ _ => .inl, fun _ _ => id, [], (List.append_nil _).symm⟩
  | stored e m hevidence hzone hsensor hkeys hkept =>
    have htimes : ∀ zoneId t, t ∈ beatTimes zoneId m.evidenceByIdempotencyKey.values ↔
        t ∈ beatTimes zoneId p.evidence ∨ (isBeat zoneId e = true ∧ e.observedAt.getTime = t) := fun zoneId t => by
      rw [hevidence, beatTimes_concat]
    refine ⟨hok.1, fun zoneId t ht => ?_, fun zoneId t ht => (htimes zoneId t).mpr (.inl ht), [],
      (List.append_nil _).symm⟩
    refine ((htimes zoneId t).mp ht).imp_right ?_
    rintro ⟨hbeat, rfl⟩
    rw [(hsensor (Detection.isBeat_iff.mp hbeat).2).2.1]
    exact hok.1
  | swept m ids recorded hrecorded hevidence hkeys hdue =>
    have htimes : ∀ zoneId, beatTimes zoneId m.evidenceByIdempotencyKey.values = beatTimes zoneId p.evidence :=
      fun zoneId => by rw [hevidence]
    exact ⟨hok.1, fun zoneId t ht => .inl (htimes zoneId ▸ ht), fun zoneId t ht => (htimes zoneId).symm ▸ ht,
      recorded, rfl⟩

theorem extends_run {p' : Process} {xs : List (Int × Happening)} (hok : Runs.Along next (Timely parse) p xs)
    (hrun : Runs.run next p xs = some p') : Extends p p' := by
  induction xs generalizing p with
  | nil =>
    obtain rfl := Option.some.inj hrun
    exact Extends.refl p
  | cons x xs ih =>
    obtain ⟨q, hq, hrest⟩ := Runs.run_cons_eq_some hrun
    exact (extends_step hok.head hq).trans (ih (hok.tail hq) hrest)

/-- the gap candidates of a zone with one start -/
def gapsAt (p : Process) (zoneId : String) (s : ℤ) : List CandidateEvent :=
  p.recorded.filter fun c => c.zoneId = zoneId && c.windowStart.getTime = s

omit [JsText.Runtime] in
theorem mem_gapsAt {zoneId : String} {s : ℤ} {c : CandidateEvent} :
    c ∈ p.gapsAt zoneId s ↔ c ∈ p.recorded ∧ c.zoneId = zoneId ∧ c.windowStart.getTime = s := by
  unfold gapsAt
  rw [List.mem_filter, Bool.and_eq_true, decide_eq_true_eq, decide_eq_true_eq]

/-- there is at most one -/
theorem Inv.gapsAt_unique (h : Inv parse p) {zoneId : String} {s : ℤ} {c : CandidateEvent}
    (hc : c ∈ p.gapsAt zoneId s) : p.gapsAt zoneId s = [c] := by
  have hnodup : ((p.gapsAt zoneId s).map heartbeatGapKey).Nodup :=
    h.once.sublist (List.filter_sublist.map heartbeatGapKey)
  -- one start means one beat and so one key
  have hkey : ∀ c ∈ p.gapsAt zoneId s, ∃ b, startBeatAt zoneId p.evidence s = some b ∧
      heartbeatGapKey c = "heartbeat-gap:" ++ zoneId ++ ":" ++ b.observedAt.text := by
    intro c hc
    obtain ⟨hmem, rfl, rfl⟩ := mem_gapsAt.mp hc
    obtain ⟨b, hb, hstart⟩ := (h.sound c hmem).beat
    refine ⟨b, hb, ?_⟩
    unfold heartbeatGapKey
    rw [hstart]
  have hsame : ∀ c' ∈ p.gapsAt zoneId s, c' = c := by
    intro c' hc'
    obtain ⟨b, hb, he⟩ := hkey c hc
    obtain ⟨b', hb', he'⟩ := hkey c' hc'
    obtain rfl := Option.some.inj (hb.symm.trans hb')
    exact List.inj_on_of_nodup_map hnodup hc' hc (he'.trans he.symm)
  cases hl : p.gapsAt zoneId s with
  | nil =>
    rw [hl] at hc
    exact absurd hc List.not_mem_nil
  | cons d rest =>
    rw [hl] at hsame hnodup
    obtain rfl := hsame d List.mem_cons_self
    cases rest with
    | nil => rfl
    | cons d' rest =>
      obtain rfl := hsame d' (List.mem_cons_of_mem d List.mem_cons_self)
      exact absurd List.mem_cons_self (List.nodup_cons.mp hnodup).1

end

end Process

/-- **Every silence is recorded once:** by the first sweep that comes more than the threshold after its start, and
by no other one; and nothing else is recorded. -/
theorem silence_recorded_once {parse : String → Int} {clock : Int} {xs : List (Int × Happening)} {p : Process}
    (hok : Runs.Along Process.next (Process.Timely parse) (.start clock) xs)
    (hrun : Runs.run Process.next (.start clock) xs = some p) :
    (∀ before now ids after p₁ p₂ zoneId s, xs = before ++ (now, .sweep ids) :: after →
      Runs.run Process.next (.start clock) before = some p₁ → Process.next p₁ (now, .sweep ids) = some p₂ →
      StartsSilence zoneId p.evidence s → (∀ n ∈ p₁.sweeps, n ≤ s + heartbeatGapMs) → s + heartbeatGapMs < now →
      p₁.gapsAt zoneId s = [] ∧ ∃ c, p₂.gapsAt zoneId s = [c] ∧ p.gapsAt zoneId s = [c]) ∧
    ∀ c ∈ p.recorded, StartsSilence c.zoneId p.evidence c.windowStart.getTime ∧
      p.gapsAt c.zoneId c.windowStart.getTime = [c] := by
  have hrunInv : ∀ {xs q}, Runs.Along Process.next (Process.Timely parse) (.start clock) xs →
      Runs.run Process.next (.start clock) xs = some q → Process.Inv parse q := fun hok hrun =>
    Runs.run_inv (Process.Inv parse) (fun p x p' hp hx hstep => hp.step hx hstep) (Process.inv_start parse clock)
      hok hrun
  have hp := hrunInv hok hrun
  refine ⟨?_, fun c hc => ⟨(hp.sound c hc).silence, hp.gapsAt_unique (Process.mem_gapsAt.mpr ⟨hc, rfl, rfl⟩)⟩⟩
  rintro before now ids after p₁ p₂ zoneId s rfl hbefore hsweep ⟨hs, hclear⟩ hnone hlate
  obtain ⟨hokBefore, hokRest⟩ := Runs.along_append hok hbefore
  have hp₁ := hrunInv hokBefore hbefore
  have hok₂ := hokRest.head
  have hp₂ := hp₁.step hok₂ hsweep
  have hrest : Runs.run Process.next p₂ after = some p := by
    rw [Runs.run_append, hbefore, Option.bind_some] at hrun
    obtain ⟨q, hq, hrest⟩ := Runs.run_cons_eq_some hrun
    obtain rfl := Option.some.inj (hsweep.symm.trans hq)
    exact hrest
  obtain ⟨-, hnew, hold, later, hlater⟩ := Process.extends_run (hokRest.tail hsweep) hrest
  have hclock : p₂.clock = now ∧ p₂.sweeps = now :: p₁.sweeps := by
    obtain rfl := Option.some.inj hsweep
    exact ⟨rfl, rfl⟩
  -- the silence had begun by then
  have hgap := Detection.heartbeatGapMs_pos
  have hsilence : StartsSilence zoneId p₂.evidence s := by
    refine ⟨(hnew zoneId s hs).resolve_right (by omega), fun t ht => hclear t (hold zoneId t ht)⟩
  constructor
  · refine List.filter_eq_nil_iff.mpr fun c hc hin => ?_
    rw [Bool.and_eq_true, decide_eq_true_eq, decide_eq_true_eq] at hin
    obtain ⟨n, hn, hlt⟩ := (hp₁.sound c hc).late
    rw [hin.2] at hlt
    exact absurd (hnone n hn) (not_le.mpr hlt)
  · obtain ⟨c, hc, hzone, hstart⟩ := hp₂.complete zoneId s hsilence
      ⟨now, hclock.2 ▸ List.mem_cons_self, hlate⟩
    refine ⟨c, hp₂.gapsAt_unique (Process.mem_gapsAt.mpr ⟨hc, hzone, hstart⟩),
      hp.gapsAt_unique (Process.mem_gapsAt.mpr ⟨?_, hzone, hstart⟩)⟩
    rw [hlater]
    exact List.mem_append_left _ hc

end

instance (parse : String → Int) (p : Process) (x : Int × Happening) : Decidable (Process.Timely parse p x) :=
  match x with
  | (_, .telemetry _ _) => inferInstanceAs (Decidable (_ ∧ ZoneText _ ∧ _ ∧ _))
  | (_, .report _ _) => inferInstanceAs (Decidable (_ ∧ ZoneText _))
  | (_, .sweep _) => inferInstanceAs (Decidable (_ ∧ ∀ last ∈ _, _))

/-- a reading at 14:01 of a feeder that is not heard of again, and sweeps every six minutes -/
def quietFeeder : List (Int × Happening) :=
  [(1767276000000, .sweep feederIds),
    (1767276060000, .telemetry ⟨"meter", "0x2222222222222222222222222222222222222222", feederZone, "a", minuteAt 1,
      .gridUp, none, none⟩ ⟨"a", "provider", "candidate", minuteAt 1, fun _ => 0⟩),
    (1767276360000, .sweep feederIds), (1767276720000, .sweep feederIds), (1767277080000, .sweep feederIds)]

/-- the sweep at 14:12 records its silence, and the later one nothing -/
theorem quietFeeder_recorded : letI := JsText.asciiRuntime
    ∃ p, Runs.run Process.next (.start 1767276000000) quietFeeder = some p ∧
      p.recorded.map (fun c => (c.windowStart, c.windowEnd)) = [(minuteAt 1, minuteAt 12)] ∧
      ∀ c ∈ p.recorded, StartsSilence c.zoneId p.evidence c.windowStart.getTime ∧
        p.gapsAt c.zoneId c.windowStart.getTime = [c] := by
  let _ := JsText.asciiRuntime
  have hok : Runs.Along Process.next (Process.Timely readMinute) (.start 1767276000000) quietFeeder := by
    decide +kernel
  have hrun : (Runs.run Process.next (.start 1767276000000) quietFeeder).any (fun p => decide (
      p.recorded.map (fun c => (c.windowStart, c.windowEnd)) = [(minuteAt 1, minuteAt 12)])) = true := by
    decide +kernel
  obtain ⟨p, hp, hrecorded⟩ := (Option.any_eq_true _ _).mp hrun
  exact ⟨p, hp, of_decide_eq_true hrecorded, (silence_recorded_once hok hp).2⟩

end Ingestion
