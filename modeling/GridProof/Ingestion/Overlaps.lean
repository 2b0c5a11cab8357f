import Mathlib.Data.Fintype.Basic
import GridProof.Ingestion.ExactlyOnce
import GridProof.Ingestion.Silences
import GridProof.Ingestion.SweepModes

/-!
# Silences that are recorded twice

A silence is named by the reading that it starts at.  A reading that is delivered late may fall into a silence
that was recorded already, and the next sweep finds another one behind it.

* `Clear`            nothing is known of the zone inside the window;
* `Process.Unharmed`, `Task.Unharmed`   the steps that leave the windows clear;
* `no_silence_twice`   no two windows overlap in a run of such steps.
-/

namespace Ingestion
open Pipeline (IsoDate CandidateEvent CandidateRow Phase)
open Detection (isBeat beatTimes startBeatAt heartbeatGapKey heartbeatGapMs IsGapCandidate)

/-! ## windows -/

/-- the windows have an instant in common that is inside both -/
def Overlaps (c c' : CandidateEvent) : Prop :=
  c.zoneId = c'.zoneId ∧ c.windowStart.getTime < c'.windowEnd.getTime ∧
    c'.windowStart.getTime < c.windowEnd.getTime

instance (c c' : CandidateEvent) : Decidable (Overlaps c c') := inferInstanceAs (Decidable (_ ∧ _ ∧ _))

/-- the instant is inside the window -/
def Inside (c : CandidateEvent) (t : ℤ) : Prop := c.windowStart.getTime < t ∧ t < c.windowEnd.getTime

instance (c : CandidateEvent) (t : ℤ) : Decidable (Inside c t) := inferInstanceAs (Decidable (_ ∧ _))

/-- the window starts at a reading of its zone and has none inside -/
structure Clear (events : List EvidenceEvent) (c : CandidateEvent) : Prop where
  start : c.windowStart.getTime ∈ beatTimes c.zoneId events
  clear : ∀ t ∈ beatTimes c.zoneId events, ¬ Inside c t

/-- clear windows overlap only if they start together -/
theorem Clear.apart {events : List EvidenceEvent} {c c' : CandidateEvent} (h : Clear events c) (h' : Clear events c')
    (hstart : c.zoneId = c'.zoneId → c.windowStart.getTime ≠ c'.windowStart.getTime) : ¬ Overlaps c c' := by
  rintro ⟨hzone, hlt, hlt'⟩
  have hne := hstart hzone
  have hin := h.clear _ (hzone ▸ h'.start)
  have hin' := h'.clear _ (hzone ▸ h.start)
  unfold Inside at hin hin'
  omega

theorem Clear.concat {events : List EvidenceEvent} {c : CandidateEvent} {e : EvidenceEvent} (h : Clear events c)
    (he : isBeat c.zoneId e = true → ¬ Inside c e.observedAt.getTime) : Clear (events ++ [e]) c where
  start := beatTimes_concat.mpr (.inl h.start)
  clear t ht := by
    rcases beatTimes_concat.mp ht with ht | ⟨hbeat, rfl⟩
    · exact h.clear t ht
    · exact he hbeat

section
variable [JsText.Runtime]

/-- what a sweep finds in all readings of its lookback is clear of all readings -/
theorem clear_of_gap {events rows : List EvidenceEvent} {zoneId : String} {now s e : ℤ} {c : CandidateEvent}
    (bound : ℤ) (h : IsGapCandidate zoneId rows now s e c)
    (hrows : beatTimes zoneId rows = {t | t ∈ beatTimes zoneId events ∧ bound ≤ t}) : Clear events c := by
  have hsilence := ((isSilence_ageing Detection.heartbeatGapMs_pos.le _).mp (h.silence.congr hrows)).1
  have hzone := h.zone
  have hstart := h.start
  have hstop := h.stop
  subst hzone hstart hstop
  refine ⟨hsilence.start, fun t ht hin => ?_⟩
  obtain ⟨hlt, hlt'⟩ := hin
  have := hsilence.clear t ht
  omega

/-! ## a process -/

namespace Process

/-- a reading that is new is not inside a recorded window, and where it is of the instant that one starts at, the
zone's readings of this instant have one text -/
def Unharmed (p : Process) (x : Int × Happening) : Prop :=
  match x.2 with
  | .telemetry input _ => p.memory.evidenceByIdempotencyKey.get? input.idempotencyKey = none →
      ∀ c ∈ p.recorded, c.zoneId = input.zoneId → ¬ Inside c input.observedAt.getTime ∧
        (input.observedAt.getTime = c.windowStart.getTime → input.observedAt.text = c.windowStart.text ∧
          ∀ b ∈ p.evidence, isBeat c.zoneId b = true → b.observedAt.getTime = c.windowStart.getTime →
            b.observedAt.text = c.windowStart.text)
  | _ => True

instance (p : Process) (x : Int × Happening) : Decidable (p.Unharmed x) :=
  match x with
  | (_, .telemetry _ _) => inferInstanceAs (Decidable (_ → _))
  | (_, .report _ _) => isTrue trivial
  | (_, .sweep _) => isTrue trivial

/-- the key of the window is the one that a sweep would give it -/
def Named (events : List EvidenceEvent) (c : CandidateEvent) : Prop :=
  ∃ b, startBeatAt c.zoneId events c.windowStart.getTime = some b ∧ b.observedAt.text = c.windowStart.text

theorem Named.key {events : List EvidenceEvent} {c c' : CandidateEvent} (h : Named events c) (h' : Named events c')
    (hzone : c.zoneId = c'.zoneId) (hstart : c.windowStart.getTime = c'.windowStart.getTime) :
    heartbeatGapKey c = heartbeatGapKey c' := by
  obtain ⟨b, hb, htext⟩ := h
  obtain ⟨b', hb', htext'⟩ := h'
  rw [hzone, hstart] at hb
  obtain rfl := Option.some.inj (hb.symm.trans hb')
  unfold heartbeatGapKey
  rw [hzone, ← htext, ← htext']

structure Apart (p : Process) : Prop where
  clear : ∀ c ∈ p.recorded, Clear p.evidence c
  named : ∀ c ∈ p.recorded, Named p.evidence c
  stored : ∀ c ∈ p.recorded, heartbeatGapKey c ∈ p.memory.keys
  apart : p.recorded.Pairwise fun c c' => ¬ Overlaps c c'

/-- an event that leaves the windows clear and their names as they are -/
theorem Apart.event {p : Process} (h : p.Apart) {m : Memory} {e : EvidenceEvent} (now : Int)
    (hvalues : m.evidenceByIdempotencyKey.values = p.evidence ++ [e]) (hkept : ∀ key ∈ p.memory.keys, key ∈ m.keys)
    (hclear : ∀ c ∈ p.recorded, isBeat c.zoneId e = true → ¬ Inside c e.observedAt.getTime)
    (hnamed : ∀ c ∈ p.recorded, isBeat c.zoneId e = true → e.observedAt.getTime = c.windowStart.getTime →
      e.observedAt.text = c.windowStart.text ∧ ∀ b ∈ p.evidence, isBeat c.zoneId b = true →
        b.observedAt.getTime = c.windowStart.getTime → b.observedAt.text = c.windowStart.text) :
    Apart { p with memory := m, clock := now } := by
  refine ⟨fun c hc => ?_, fun c hc => ?_, fun c hc => hkept _ (h.stored c hc), h.apart⟩
  · show Clear m.evidenceByIdempotencyKey.values c
    rw [hvalues]
    exact (h.clear c hc).concat (hclear c hc)
  · show Named m.evidenceByIdempotencyKey.values c
    rw [hvalues]
    by_cases hsame : isBeat c.zoneId e = true ∧ e.observedAt.getTime = c.windowStart.getTime
    · obtain ⟨htext, hothers⟩ := hnamed c hc hsame.1 hsame.2
      -- there is a first beat, and all of the instant have this text
      have hmem : e ∈ (((p.evidence ++ [e]).filter fun b => isBeat c.zoneId b &&
          b.observedAt.getTime = c.windowStart.getTime).insertionSort Detection.beatOrder) := by
        rw [List.mem_insertionSort, List.mem_filter, Bool.and_eq_true, decide_eq_true_eq]
        exact ⟨List.mem_append_right _ List.mem_cons_self, hsame⟩
      obtain ⟨b, hb⟩ := Option.ne_none_iff_exists'.mp
        fun hnone => List.ne_nil_of_mem hmem (List.getLast?_eq_none_iff.mp hnone)
      refine ⟨b, hb, ?_⟩
      obtain ⟨hin, hbeat, htime⟩ := startBeatAt_mem hb
      rcases List.mem_append.mp hin with hin | hin
      · exact hothers b hin hbeat htime
      · rw [List.mem_singleton.mp hin]
        exact htext
    · obtain ⟨b, hb, htext⟩ := h.named c hc
      exact ⟨b, (startBeatAt_concat fun hbeat htime => hsame ⟨hbeat, htime⟩).trans hb, htext⟩

theorem Apart.sweep {p : Process} (h : p.Apart) (now : Int) (ids : String → ℕ → String) {m : Memory}
    {recorded : List CandidateEvent} (hrecorded : recorded = recordGaps p.memory.keys
      (sweepCandidates (EvidenceStore.sweepEvidenceByZone now (.memory p.memory)) now ids))
    (hevidence : m.evidenceByIdempotencyKey = p.memory.evidenceByIdempotencyKey)
    (hkeys : ∀ key, key ∈ m.keys ↔ key ∈ p.memory.keys ∨ ∃ c ∈ recorded, heartbeatGapKey c = key) :
    Apart ⟨m, now, now :: p.sweeps, p.recorded ++ recorded⟩ := by
  have hfound : ∀ c ∈ recorded, heartbeatGapKey c ∉ p.memory.keys ∧ Clear p.evidence c ∧ Named p.evidence c := by
    rw [hrecorded, EvidenceStore.sweepEvidenceByZone_eq]
    intro c hc
    obtain ⟨hc, hkey⟩ := mem_recordGaps hc
    have hgap := Detection.isGapCandidate_of_mem (mem_sweepCandidates.mp hc)
    have hrows := beatTimes_recent c.zoneId p.evidence now
    have hold := ((isSilence_ageing Detection.heartbeatGapMs_pos.le _).mp (hgap.silence.congr hrows)).2
    obtain ⟨b, hb, hstart⟩ := hgap.beat
    exact ⟨hkey, clear_of_gap _ hgap hrows, b, (startBeatAt_recent hold).symm.trans hb, by rw [hstart]⟩
  have hsame : Process.evidence ⟨m, now, now :: p.sweeps, p.recorded ++ recorded⟩ = p.evidence := by
    unfold Process.evidence
    rw [hevidence]
  refine ⟨fun c hc => ?_, fun c hc => ?_, fun c hc => ?_, List.pairwise_append.mpr ⟨h.apart, ?_, ?_⟩⟩
  · rw [hsame]
    exact (List.mem_append.mp hc).elim (h.clear c) fun hc => (hfound c hc).2.1
  · rw [hsame]
    exact (List.mem_append.mp hc).elim (h.named c) fun hc => (hfound c hc).2.2
  · exact (hkeys _).mpr ((List.mem_append.mp hc).imp (h.stored c) fun hc => ⟨c, hc, rfl⟩)
  · have hnodup : recorded.Pairwise fun c c' => heartbeatGapKey c ≠ heartbeatGapKey c' := by
      rw [hrecorded]
      exact List.pairwise_map.mp (recordGaps_nodup _ _)
    refine hnodup.imp_of_mem fun {c c'} hc hc' hne => ?_
    obtain ⟨-, hclear, hnamed⟩ := hfound c hc
    obtain ⟨-, hclear', hnamed'⟩ := hfound c' hc'
    exact hclear.apart hclear' fun hzone hstart => hne (hnamed.key hnamed' hzone hstart)
  · intro c hc c' hc'
    obtain ⟨hfree, hclear', hnamed'⟩ := hfound c' hc'
    refine (h.clear c hc).apart hclear' fun hzone hstart => hfree ?_
    rw [← (h.named c hc).key hnamed' hzone hstart]
    exact h.stored c hc

theorem Apart.step {p p' : Process} (h : p.Apart) {x : Int × Happening} (hok : p.Unharmed x)
    (hstep : next p x = some p') : p'.Apart := by
  obtain ⟨now, happening⟩ := x
  cases happening with
  | telemetry input draw =>
    obtain rfl := Option.some.inj hstep
    rcases upsertMemoryEvidence_cases p.memory (telemetryEvent input draw) draw with he | ⟨hget, hvalues, -, hkept⟩
    · unfold upsertTelemetryEvidence
      rw [he]
      exact ⟨h.clear, h.named, h.stored, h.apart⟩
    · refine h.event now hvalues hkept (fun c hc hbeat => ?_) fun c hc hbeat => ?_
      · exact (hok hget c hc (Detection.isBeat_iff.mp hbeat).1.symm).1
      · exact (hok hget c hc (Detection.isBeat_iff.mp hbeat).1.symm).2
  | report input draw =>
    obtain rfl := Option.some.inj hstep
    have hno : ∀ c : CandidateEvent, isBeat c.zoneId (reporterEvent input draw) ≠ true :=
      fun c hbeat => absurd (Detection.isBeat_iff.mp hbeat).2 (nofun : EvidenceSource.reporter ≠ .sensor)
    rcases upsertMemoryEvidence_cases p.memory (reporterEvent input draw) draw with he | ⟨hget, hvalues, -, hkept⟩
    · unfold upsertReporterEvidence
      rw [he]
      exact ⟨h.clear, h.named, h.stored, h.apart⟩
    · exact h.event now hvalues hkept (fun c _ hbeat => absurd hbeat (hno c)) fun c _ hbeat => absurd hbeat (hno c)
  | sweep ids =>
    obtain rfl := Option.some.inj hstep
    obtain ⟨hevidence, hrecorded, hkeys⟩ := recordMemoryGaps_spec p.memory
      (sweepCandidates (EvidenceStore.sweepEvidenceByZone now (.memory p.memory)) now ids)
    rw [← hrecorded] at hkeys
    exact h.sweep now ids hrecorded hevidence hkeys

theorem apart_start (clock : Int) : (start clock).Apart where
  clear _ hc := absurd hc List.not_mem_nil
  named _ hc := absurd hc List.not_mem_nil
  stored _ hc := absurd hc List.not_mem_nil
  apart := List.Pairwise.nil

end Process

/-! ## a database -/

/-- the candidates that the sweep has found and is not done with -/
def Task.gaps : Task → List CandidateEvent
  | .recordGaps candidates => candidates
  | .decide _ rest => rest
  | .score _ rest => rest
  | _ => []

omit [JsText.Runtime] in
theorem gaps_resume (rest : List CandidateEvent) : (resume rest).gaps = rest := by
  cases rest with
  | nil => rfl
  | cons c rest => rfl

omit [JsText.Runtime] in
theorem gaps_afterStatement (phase : Phase) (rest : List CandidateEvent) : (afterStatement phase rest).gaps = rest := by
  cases phase with
  | finished c => exact gaps_resume rest
  | _ => rfl

/-- a statement leaves candidates that were found before, or it is the one that finds them -/
theorem Task.step_gaps {d : Database} {draw : StepDraw} {task : Task} {o : Outcome} (h : task.step d draw = some o)
    {c : CandidateEvent} (hc : c ∈ o.task.gaps) : c ∈ task.gaps ∨ ∃ now, task = .listEvidence now ∧
      c ∈ sweepCandidates (listSweepEvidenceByZone d now draw.rank) now draw.gapIds := by
  cases task with
  | insertEvidence input =>
    unfold step at h
    dsimp only at h
    split at h
    · cases h
    · obtain rfl := Option.some.inj h
      exact absurd hc List.not_mem_nil
  | findEvidence key inserted =>
    obtain ⟨e, -, rfl⟩ := Option.map_eq_some_iff.mp h
    cases inserted with
    | true => exact absurd hc List.not_mem_nil
    | false => exact absurd hc List.not_mem_nil
  | replyDuplicate e =>
    obtain rfl := Option.some.inj h
    exact absurd hc List.not_mem_nil
  | readRecent e =>
    unfold step at h
    dsimp only at h
    split at h
    · obtain rfl := Option.some.inj h
      exact absurd hc List.not_mem_nil
    · obtain rfl := Option.some.inj h
      exact absurd hc List.not_mem_nil
  | insertCandidate e c' =>
    obtain ⟨⟨d', inserted⟩, -, rfl⟩ := Option.map_eq_some_iff.mp h
    exact absurd hc List.not_mem_nil
  | findCandidate e =>
    unfold step at h
    dsimp only at h
    split at h
    · obtain rfl := Option.some.inj h
      exact absurd hc List.not_mem_nil
    · obtain rfl := Option.some.inj h
      exact absurd hc List.not_mem_nil
  | listEvidence now =>
    obtain rfl := Option.some.inj h
    rw [show (Outcome.task _).gaps = _ from gaps_resume _] at hc
    exact .inr ⟨now, rfl, hc⟩
  | recordGaps candidates =>
    cases candidates with
    | nil => cases h
    | cons first rest =>
      obtain ⟨⟨d', recorded⟩, -, rfl⟩ := Option.map_eq_some_iff.mp h
      refine .inl (List.mem_cons_of_mem first ?_)
      cases recorded with
      | true => exact hc
      | false =>
        rw [show (Outcome.task _).gaps = _ from gaps_resume _] at hc
        exact hc
  | decide c' rest =>
    obtain ⟨⟨s, phase⟩, -, rfl⟩ := Option.map_eq_some_iff.mp h
    rw [show (Outcome.task _).gaps = _ from gaps_afterStatement _ _] at hc
    exact .inl hc
  | score phase rest =>
    obtain ⟨⟨s, phase'⟩, -, rfl⟩ := Option.map_eq_some_iff.mp h
    rw [show (Outcome.task _).gaps = _ from gaps_afterStatement _ _] at hc
    exact .inl hc
  | finished => cases h

variable {π : Type*}

omit [JsText.Runtime] in
/-- what is recorded of sweeps, and what they have found and are not done with -/
def World.Found (w : World π) (P : CandidateEvent → Prop) : Prop :=
  (∀ r ∈ w.database.candidates.rows, r.candidateKey = heartbeatGapKey r.event → P r.event) ∧
    ∀ p, ∀ c ∈ (w.task p).gaps, P c

/-- the evidence of a database, as it is read -/
abbrev Database.events (d : Database) : List EvidenceEvent := d.evidence.values.map mapEvidenceRow

/-- a reading that is new is not inside a window that was found, and a sweep reads all of its lookback -/
def Task.Unharmed (w : World π) : Task → Prop
  | .insertEvidence input => input.source = .sensor → w.database.evidence.get? input.idempotencyKey = none →
      w.Found fun c => c.zoneId = uuid input.zoneId → ¬ Inside c input.observedAt.getTime
  | .listEvidence now => (w.database.evidence.values.filter (inLookback now)).length ≤ 5000
  | _ => True

omit [JsText.Runtime] in
instance [Fintype π] (w : World π) (P : CandidateEvent → Prop) [DecidablePred P] : Decidable (w.Found P) :=
  inferInstanceAs (Decidable (_ ∧ _))

omit [JsText.Runtime] in
instance [Fintype π] (w : World π) (task : Task) : Decidable (task.Unharmed w) :=
  match task with
  | .insertEvidence _ => inferInstanceAs (Decidable (_ → _ → _))
  | .listEvidence _ => inferInstanceAs (Decidable (_ ≤ _))
  | .findEvidence _ _ => isTrue trivial
  | .replyDuplicate _ => isTrue trivial
  | .readRecent _ => isTrue trivial
  | .insertCandidate _ _ => isTrue trivial
  | .findCandidate _ => isTrue trivial
  | .recordGaps _ => isTrue trivial
  | .decide _ _ => isTrue trivial
  | .score _ _ => isTrue trivial
  | .finished => isTrue trivial

/-- a window that a sweep found: the key is of its zone and its start -/
structure Windowed (events : List EvidenceEvent) (c : CandidateEvent) : Prop where
  clear : Clear events c
  text : c.windowStart = .ofMillis c.windowStart.getTime

theorem windowed_of_sweep {d : Database} {now : Int} {rank : EvidenceEvent → ℕ} {ids : String → ℕ → String}
    (hall : (d.evidence.values.filter (inLookback now)).length ≤ 5000) {c : CandidateEvent}
    (hc : c ∈ sweepCandidates (listSweepEvidenceByZone d now rank) now ids) : Windowed d.events c := by
  have hgap := Detection.isGapCandidate_of_mem (mem_sweepCandidates.mp
    (show c ∈ sweepCandidates (groupEvidenceByZone (EvidenceStore.sweepRows now (.database d rank))) now ids from hc))
  have hcut : cutRows d rank now = [] := by
    unfold cutRows
    rw [List.drop_of_length_le (by rw [List.length_insertionSort]; exact hall), List.map_nil]
  have hheard := heard_database d rank now c.zoneId
  rw [hcut, List.append_nil] at hheard
  refine ⟨clear_of_gap (now - sweepLookbackMs) hgap ?_, ?_⟩
  · ext t
    rw [mem_beatTimes_iff, hheard]
    show (∃ node, (t, node) ∈ heard c.zoneId d.events ∧ now - sweepLookbackMs ≤ t) ↔
      t ∈ beatTimes c.zoneId d.events ∧ _
    rw [mem_beatTimes_iff, exists_and_right]
  · obtain ⟨b, hb, hstart⟩ := hgap.beat
    obtain ⟨row, -, rfl⟩ := List.mem_map.mp (startBeatAt_mem hb).1
    rw [hstart, show (mapEvidenceRow row).observedAt = .ofMillis row.observedAt.getTime from rfl,
      Detection.IsoDate.getTime_ofMillis]

variable [DecidableEq π] {zod : Zod} {w w' : World π}

omit [JsText.Runtime] [DecidableEq π] in
/-- a window stays clear of what was stored, if it is clear of what is new -/
theorem Windowed.event {d d' : Database} {c : CandidateEvent} {row : EvidenceEvent} (h : Windowed d.events c)
    (hvalues : d'.evidence.values = d.evidence.values ++ [row])
    (hclear : row.source = .sensor → c.zoneId = row.zoneId → ¬ Inside c row.observedAt.getTime) :
    Windowed d'.events c := by
  refine ⟨?_, h.text⟩
  unfold Database.events
  rw [hvalues, List.map_append, List.map_singleton]
  refine h.clear.concat fun hbeat => ?_
  obtain ⟨hzone, hsensor⟩ := Detection.isBeat_iff.mp hbeat
  rw [mapEvidenceRow_getTime]
  exact hclear hsensor hzone.symm

omit [DecidableEq π] in
/-- what a statement stores of evidence -/
theorem step_evidence (hw : Inv zod w) {p : π} {draw : StepDraw} {o : Outcome}
    (h : (w.task p).step w.database draw = some o) : o.database.evidence = w.database.evidence ∨
      ∃ input, w.task p = .insertEvidence input ∧ w.database.evidence.get? input.idempotencyKey = none ∧
        o.database.evidence.values = w.database.evidence.values ++ [evidenceRow input draw.toDraw] := by
  have heffect := Task.step_effect (hw.ok p).phase h
  by_cases hbegin : ∃ input, w.task p = .insertEvidence input
  · obtain ⟨input, ht⟩ := hbegin
    rw [ht] at h
    unfold Task.step at h
    dsimp only at h
    split at h
    · cases h
    · unfold Ingestion.insertEvidence at h
      cases hget : w.database.evidence.get? (evidenceRow input draw.toDraw).idempotencyKey with
      | some row =>
        rw [hget] at h
        obtain rfl := Option.some.inj h
        exact .inl rfl
      | none =>
        rw [hget] at h
        obtain rfl := Option.some.inj h
        exact .inr ⟨input, ht, hget, OrderedMap.values_set_of_none hget⟩
  · refine .inl ?_
    generalize w.task p = task at heffect hbegin
    cases heffect with
    | evidence input row hfree hkey hzone hid => exact absurd ⟨input, rfl⟩ hbegin
    | candidate e c d' inserted hins => exact hins.evidence
    | gap c rest d' hins => exact hins.evidence
    | quiet task task' d' hevidence hcandidates hidle htask => exact hevidence
    | _ => rfl

omit [DecidableEq π] in
/-- what a statement stores of windows was found before -/
theorem step_rows (hw : Inv zod w) {p : π} {draw : StepDraw} {o : Outcome}
    (h : (w.task p).step w.database draw = some o) {r : CandidateRow} (hr : r ∈ o.database.candidates.rows)
    (hkey : r.candidateKey = heartbeatGapKey r.event) :
    r ∈ w.database.candidates.rows ∨ r.event ∈ (w.task p).gaps := by
  have heffect := Task.step_effect (hw.ok p).phase h
  have hins : ∀ {d' row inserted}, Inserts w.database d' row inserted → r ∈ d'.candidates.rows →
      r ∈ w.database.candidates.rows ∨ r = row := by
    intro d' row inserted hins hr
    cases inserted with
    | false => exact .inl ((hins.taken rfl).1 ▸ hr)
    | true =>
      rw [hins.rows rfl] at hr
      exact (List.mem_append.mp hr).imp_right List.mem_singleton.mp
  generalize ht : w.task p = task at heffect
  cases heffect with
  | candidate e c d' inserted h' =>
    refine .inl ((hins h' hr).resolve_right ?_)
    rintro rfl
    obtain ⟨row, hrow, rfl⟩ := (hw.ok p).event e (by rw [ht]; rfl)
    exact candidateKeyFor_ne_gapKey (e := mapEvidenceRow row) (hw.row _ row hrow).2 c hkey
  | gap c rest d' h' =>
    rcases hins h' hr with hr | rfl
    · exact .inl hr
    · exact .inr List.mem_cons_self
  | quiet task task' d' hevidence hcandidates hidle htask => exact .inl (hcandidates ▸ hr)
  | _ => exact .inl hr

/-- a statement leaves the windows clear -/
theorem windowed_step (hw : Inv zod w) (hfound : w.Found (Windowed w.database.events)) {e : π × StepDraw}
    (hok : (w.task e.1).Unharmed w) (h : next w e = some w') : w'.Found (Windowed w'.database.events) := by
  obtain ⟨o, ho, rfl⟩ := next_eq_some h
  have hkeep : ∀ c, Windowed w.database.events c → (∀ input, w.task e.1 = .insertEvidence input →
      w.database.evidence.get? input.idempotencyKey = none → input.source = .sensor →
        c.zoneId = uuid input.zoneId → ¬ Inside c input.observedAt.getTime) →
      Windowed o.database.events c := by
    intro c hc hclear
    rcases step_evidence hw ho with he | ⟨input, ht, hget, hvalues⟩
    · unfold Database.events
      rw [he]
      exact hc
    · exact hc.event hvalues (hclear input ht hget)
  have hnew : ∀ input, w.task e.1 = .insertEvidence input → w.database.evidence.get? input.idempotencyKey = none →
      input.source = .sensor → w.Found fun c => c.zoneId = uuid input.zoneId →
        ¬ Inside c input.observedAt.getTime := by
    intro input ht hget hsensor
    rw [ht] at hok
    exact hok hsensor hget
  have hpending : ∀ p, ∀ c ∈ (w.task p).gaps, Windowed o.database.events c := fun p c hc =>
    hkeep c (hfound.2 p c hc) fun input ht hget hsensor => (hnew input ht hget hsensor).2 p c hc
  constructor
  · intro r hr hkey
    rcases step_rows hw ho hr hkey with hr | hc
    · exact hkeep r.event (hfound.1 r hr hkey) fun input ht hget hsensor => (hnew input ht hget hsensor).1 r hr hkey
    · exact hpending e.1 r.event hc
  · intro p c hc
    rcases w.task_after e.1 o p with ⟨-, ht⟩ | ⟨-, ht⟩
    · rw [ht] at hc
      rcases Task.step_gaps ho hc with hc | ⟨now, hlist, hc⟩
      · exact hpending e.1 c hc
      · -- a sweep that lists the evidence leaves it as it is
        rw [hlist] at hok
        refine hkeep c (windowed_of_sweep hok hc) fun input hinsert => ?_
        rw [hlist] at hinsert
        cases hinsert
    · rw [ht] at hc
      exact hpending p c hc

omit [JsText.Runtime] [DecidableEq π] in
theorem windowed_start {task : π → Task} (hfresh : ∀ p, (task p).Fresh zod) :
    (Ingestion.start task).Found (Windowed (Ingestion.start task).database.events) := by
  refine ⟨fun r hr => absurd hr List.not_mem_nil, fun p c hc => ?_⟩
  have hp := hfresh p
  unfold Ingestion.start at hc
  dsimp only at hc
  cases ht : task p with
  | insertEvidence input =>
    rw [ht] at hc
    exact absurd hc List.not_mem_nil
  | listEvidence now =>
    rw [ht] at hc
    exact absurd hc List.not_mem_nil
  | _ =>
    rw [ht] at hp
    exact hp.elim

/-- **No silence is recorded twice** where no reading arrives inside a window that was found, in a database if no
sweep reads more than the limit, and in a process if the readings of an instant that a window starts at have one
text. -/
theorem no_silence_twice {task : π → Task} (hfresh : ∀ p, (task p).Fresh zod) :
    (∀ steps w, Runs.Along next (fun w e => (w.task e.1).Unharmed w) (Ingestion.start task) steps →
      Runs.run next (Ingestion.start task) steps = some w →
      ∀ r ∈ w.database.candidates.rows, ∀ r' ∈ w.database.candidates.rows,
        r.candidateKey = heartbeatGapKey r.event → r'.candidateKey = heartbeatGapKey r'.event → r ≠ r' →
          ¬ Overlaps r.event r'.event) ∧
    ∀ clock xs p, Runs.Along Process.next Process.Unharmed (.start clock) xs →
      Runs.run Process.next (.start clock) xs = some p → p.recorded.Pairwise fun c c' => ¬ Overlaps c c' := by
  constructor
  · intro steps w hok hrun r hr r' hr' hkey hkey' hne
    have hinv := Runs.run_inv (fun w => Inv zod w ∧ w.Found (Windowed w.database.events))
      (fun w e w' hw hok h => ⟨hw.1.next h, windowed_step hw.1 hw.2 hok h⟩)
      ⟨Inv.start hfresh, windowed_start hfresh⟩ hok hrun
    have hwindow := hinv.2.1 r hr hkey
    have hwindow' := hinv.2.1 r' hr' hkey'
    refine hwindow.clear.apart hwindow'.clear fun hzone hstart => hne (Table.eq_of_key hr hr' ?_)
    rw [hkey, hkey']
    unfold heartbeatGapKey
    rw [hzone, hwindow.text, hwindow'.text, hstart]
  · intro clock xs p hok hrun
    exact (Runs.run_inv Process.Apart (fun p x p' hp hok h => hp.step hok h) (Process.apart_start clock) hok hrun).apart

end

/-! ## a late reading -/

def feederReading (id : String) (minutes : ℕ) : Happening :=
  .telemetry ⟨"meter", "0x2222222222222222222222222222222222222222", feederZone, id, minuteAt minutes, .gridUp,
    none, none⟩ ⟨id, "provider", "candidate " ++ id, minuteAt minutes, fun _ => 0⟩

/-- the silence from 14:05 on is recorded at 14:12, then a reading of 14:02 arrives, and one of 14:13 -/
def twoSilences : List (Int × Happening) :=
  [(1767276300000, feederReading "a" 5), (1767276720000, .sweep feederIds),
    (1767276780000, feederReading "late" 2), (1767276840000, feederReading "b" 13),
    (1767277200000, .sweep fun _ i => "later gap " ++ toString i)]

def feederDelivery (id : String) (minutes : ℕ) : DatabaseEvidence where
  zoneId := feederZone
  source := .sensor
  idempotencyKey := id
  status := .unknown
  voltage := none
  rawPayload := .telemetry "meter" "0x2222222222222222222222222222222222222222" none
  observedAt := minuteAt minutes

/-- the same readings and sweeps, each one a task -/
def twoSilencesTasks : Fin 5 → Task
  | 0 => .insertEvidence (feederDelivery "a" 5)
  | 1 => .listEvidence 1767276720000
  | 2 => .insertEvidence (feederDelivery "late" 2)
  | 3 => .insertEvidence (feederDelivery "b" 13)
  | 4 => .listEvidence 1767277200000

theorem twoSilencesTasks_fresh (p : Fin 5) : (twoSilencesTasks p).Fresh sampleZod := by
  have hzone : sampleZod.uuid feederZone = true := by decide +kernel
  match p with
  | 0 => exact hzone
  | 1 => exact trivial
  | 2 => exact hzone
  | 3 => exact hzone
  | 4 => exact trivial

/-- the late reading arrives while the first sweep has not decided on its candidate -/
def twoSilencesSteps : List (Fin 5 × StepDraw) :=
  ([0, 0, 0, 1, 1, 2, 1, 2, 2, 3, 3, 3, 4, 4, 4].zipIdx).map fun (p, n) =>
    (p, { sampleStepDraw n with gapIds := fun _ i => "gap" ++ toString n ++ "." ++ toString i })

/-- two silences of one zone, with a late and a new reading between them, in a database and in a process -/
theorem no_silence_twice_sample : letI := JsText.asciiRuntime
    (∃ w, Runs.run next (start twoSilencesTasks) twoSilencesSteps = some w ∧
      w.database.evidence.values.map (fun e => e.observedAt) = [minuteAt 5, minuteAt 2, minuteAt 13] ∧
      w.database.candidates.rows.map (fun r => (r.event.windowStart, r.event.windowEnd)) =
        [(minuteAt 5, minuteAt 12), (minuteAt 13, minuteAt 20)] ∧
      ∀ r ∈ w.database.candidates.rows, ∀ r' ∈ w.database.candidates.rows,
        r.candidateKey = heartbeatGapKey r.event → r'.candidateKey = heartbeatGapKey r'.event → r ≠ r' →
          ¬ Overlaps r.event r'.event) ∧
    ∃ p, Runs.run Process.next (.start 1767276000000) twoSilences = some p ∧
      p.recorded.map (fun c => (c.windowStart, c.windowEnd)) =
        [(minuteAt 5, minuteAt 12), (minuteAt 13, minuteAt 20)] ∧
      p.recorded.Pairwise fun c c' => ¬ Overlaps c c' := by
  let _ := JsText.asciiRuntime
  obtain ⟨hdatabase, hprocess⟩ := no_silence_twice twoSilencesTasks_fresh
  have hrun : (Runs.run next (start twoSilencesTasks) twoSilencesSteps).any (fun w => decide (
      w.database.evidence.values.map (fun e => e.observedAt) = [minuteAt 5, minuteAt 2, minuteAt 13] ∧
      w.database.candidates.rows.map (fun r => (r.event.windowStart, r.event.windowEnd)) =
        [(minuteAt 5, minuteAt 12), (minuteAt 13, minuteAt 20)])) = true := by decide +kernel
  have hok : Runs.Along next (fun w e => (w.task e.1).Unharmed w) (start twoSilencesTasks) twoSilencesSteps := by
    decide +kernel
  have hrun' : (Runs.run Process.next (.start 1767276000000) twoSilences).any (fun p => decide (
      p.recorded.map (fun c => (c.windowStart, c.windowEnd)) =
        [(minuteAt 5, minuteAt 12), (minuteAt 13, minuteAt 20)])) = true := by decide +kernel
  have hok' : Runs.Along Process.next Process.Unharmed (.start 1767276000000) twoSilences := by decide +kernel
  obtain ⟨w, hw, hrows⟩ := (Option.any_eq_true _ _).mp hrun
  obtain ⟨hevidence, hwindows⟩ := of_decide_eq_true hrows
  obtain ⟨p, hp, hrecorded⟩ := (Option.any_eq_true _ _).mp hrun'
  exact ⟨⟨w, hw, hevidence, hwindows, hdatabase _ w hok hw⟩, p, hp, of_decide_eq_true hrecorded,
    hprocess _ _ p hok' hp⟩

/-- **The reading of 14:03 is delivered at 14:08, when the silence from 14:00 to 14:07 is recorded: the sweep at
14:10 records another one from 14:03 on.** -/
theorem late_reading : letI := JsText.asciiRuntime
    ∃ p, Runs.run Process.next (.start 1767276000000) [(1767276000000, feederReading "a" 0),
        (1767276420000, .sweep feederIds), (1767276480000, feederReading "b" 3),
        (1767276600000, .sweep feederIds)] = some p ∧
      p.recorded.map (fun c => (c.zoneId, c.windowStart, c.windowEnd)) =
        [(feederZone, minuteAt 0, minuteAt 7), (feederZone, minuteAt 3, minuteAt 10)] ∧
      ¬ p.recorded.Pairwise fun c c' => ¬ Overlaps c c' := by
  let _ := JsText.asciiRuntime
  have hrun : (Runs.run Process.next (.start 1767276000000) [(1767276000000, feederReading "a" 0),
      (1767276420000, .sweep feederIds), (1767276480000, feederReading "b" 3),
      (1767276600000, .sweep feederIds)]).any (fun p => decide (
        p.recorded.map (fun c => (c.zoneId, c.windowStart, c.windowEnd)) =
          [(feederZone, minuteAt 0, minuteAt 7), (feederZone, minuteAt 3, minuteAt 10)] ∧
        ¬ p.recorded.Pairwise fun c c' => ¬ Overlaps c c')) = true := by
    decide +kernel
  obtain ⟨p, hp, h⟩ := (Option.any_eq_true _ _).mp hrun
  exact ⟨p, hp, of_decide_eq_true h⟩

end Ingestion
