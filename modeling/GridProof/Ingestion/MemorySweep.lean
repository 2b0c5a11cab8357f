import GridProof.Ingestion.Sweep

/-!
# A process without a database

Readings, reports and sweeps of one process, each at an instant of its clock.  Nothing that a sweep waits for
leaves the process, so a sweep is one step.

* `runHeartbeatSweep`, `runHeartbeatSweep_spec`   the memory branch of a sweep, and what it records;
* `Process.next`     a step of the process;
* `Process.Effect`   what a step does to the evidence, the keys and what is recorded.
-/

namespace Ingestion
open Pipeline (IsoDate CandidateEvent)
open Detection (heartbeatGapKey heartbeatGapMs)

/-! ## the sweep -/

/-- the memory branch of `recordGapCandidate` -/
def recordMemoryGap (m : Memory) (candidate : CandidateEvent) : Memory × Option CandidateEvent :=
  let key := heartbeatGapKey candidate
  match m.candidatesByKey.get? key with
  | some _ => (m, none)
  | none => ({ m with candidatesByKey := m.candidatesByKey.set key candidate }, some candidate)

/-- the inner loop of `runHeartbeatSweep`, with the candidates that it goes on with -/
def recordMemoryGaps (m : Memory) : List CandidateEvent → Memory × List CandidateEvent
  | [] => (m, [])
  | candidate :: rest =>
    let (m, recorded) := recordMemoryGap m candidate
    let (m, later) := recordMemoryGaps m rest
    (m, recorded.toList ++ later)

/-- the keys of the candidates -/
def Memory.keys (m : Memory) : List String := m.candidatesByKey.entries.map Prod.fst

theorem recordMemoryGaps_spec (m : Memory) (found : List CandidateEvent) :
    (recordMemoryGaps m found).1.evidenceByIdempotencyKey = m.evidenceByIdempotencyKey ∧
      (recordMemoryGaps m found).2 = recordGaps m.keys found ∧
      ∀ key, key ∈ (recordMemoryGaps m found).1.keys ↔
        key ∈ m.keys ∨ ∃ c ∈ recordGaps m.keys found, heartbeatGapKey c = key := by
  induction found generalizing m with
  | nil => exact ⟨rfl, rfl, fun key => (or_iff_left fun ⟨_, hc, _⟩ => List.not_mem_nil hc).symm⟩
  | cons c found ih =>
    rw [recordMemoryGaps, recordMemoryGap, recordGaps]
    dsimp only
    cases hget : m.candidatesByKey.get? (heartbeatGapKey c) with
    | some c' =>
      have htaken : heartbeatGapKey c ∈ m.keys := List.mem_map_of_mem (OrderedMap.get?_eq_some.mp hget)
      rw [if_pos htaken]
      exact ih m
    | none =>
      have hfree : heartbeatGapKey c ∉ m.keys := OrderedMap.get?_eq_none.mp hget
      rw [if_neg hfree]
      dsimp only
      obtain ⟨hevidence, hrecorded, hkeys⟩ :=
        ih { m with candidatesByKey := m.candidatesByKey.set (heartbeatGapKey c) c }
      have hmem : ∀ key, key ∈ Memory.keys { m with candidatesByKey := m.candidatesByKey.set (heartbeatGapKey c) c } ↔
          key ∈ heartbeatGapKey c :: m.keys := fun key => by
        rw [List.mem_cons, or_comm]
        exact OrderedMap.mem_keys_set
      have hcongr := recordGaps_congr hmem found
      refine ⟨hevidence, ?_, fun key => ?_⟩
      · rw [hrecorded, hcongr]
        rfl
      · rw [hkeys, hmem, hcongr, List.mem_cons, List.exists_mem_cons_iff, or_comm (a := key = _), or_assoc,
          eq_comm (a := key)]

section
variable [JsText.Runtime]

def runHeartbeatSweep (m : Memory) (now : Int) (ids : String → ℕ → String) : Memory × List CandidateEvent :=
  recordMemoryGaps m (sweepCandidates (EvidenceStore.sweepEvidenceByZone now (.memory m)) now ids)

/-! ## the process -/

inductive Happening where
  | telemetry (input : TelemetryIngestRequest) (draw : Draw)
  /-- a report, or what the webhook makes of a message -/
  | report (input : ReporterIngestRequest) (draw : Draw)
  | sweep (ids : String → ℕ → String)

structure Process where
  memory : Memory
  clock : Int
  /-- the instants of the sweeps, the latest one first -/
  sweeps : List Int
  /-- the gap candidates that the sweeps recorded, in order -/
  recorded : List CandidateEvent

namespace Process

def start (clock : Int) : Process := ⟨.empty, clock, [], []⟩

abbrev evidence (p : Process) : List EvidenceEvent := p.memory.evidenceByIdempotencyKey.values

/-- what happens at the instant `x.1` -/
def next (p : Process) (x : Int × Happening) : Option Process :=
  match x.2 with
  | .telemetry input draw =>
    some { p with memory := (upsertTelemetryEvidence p.memory input draw).1, clock := x.1 }
  | .report input draw =>
    some { p with memory := (upsertReporterEvidence p.memory input draw).1, clock := x.1 }
  | .sweep ids =>
    let (memory, recorded) := runHeartbeatSweep p.memory x.1 ids
    some ⟨memory, x.1, x.1 :: p.sweeps, p.recorded ++ recorded⟩

/-- time goes on, the schemas check the zones and `parse` reads the dates; a reading that is new arrives at the
instant it was observed and after a first sweep, and a sweep comes at most twice the threshold after the last one -/
def Timely (parse : String → Int) (p : Process) (x : Int × Happening) : Prop :=
  p.clock ≤ x.1 ∧
    match x.2 with
    | .telemetry input _ => ZoneText input.zoneId ∧ input.observedAt.micros = parse input.observedAt.text ∧
        (p.memory.evidenceByIdempotencyKey.get? input.idempotencyKey = none →
          input.observedAt.getTime = x.1 ∧ p.sweeps ≠ [])
    | .report input _ => ZoneText input.zoneId
    | .sweep _ => ∀ last ∈ p.sweeps.head?, x.1 ≤ last + 2 * heartbeatGapMs

/-! ## what a step does -/

/-- the evidence, the keys and what is recorded after a step at `now` -/
inductive Effect (parse : String → Int) (p : Process) (now : Int) : Process → Prop
  | duplicate : Effect parse p now { p with clock := now }
  | stored (e : EvidenceEvent) (m : Memory) (hevidence : m.evidenceByIdempotencyKey.values = p.evidence ++ [e])
      (hzone : ZoneText e.zoneId)
      (hsensor : e.source = .sensor → WellRead parse e ∧ e.observedAt.getTime = now ∧ p.sweeps ≠ [])
      (hkeys : ∀ key ∈ m.keys, key ∈ p.memory.keys ∨ key = candidateKeyFor e)
      (hkept : ∀ key ∈ p.memory.keys, key ∈ m.keys) :
      Effect parse p now { p with memory := m, clock := now }
  | swept (m : Memory) (ids : String → ℕ → String) (recorded : List CandidateEvent)
      (hrecorded : recorded = recordGaps p.memory.keys
        (sweepCandidates (EvidenceStore.sweepEvidenceByZone now (.memory p.memory)) now ids))
      (hevidence : m.evidenceByIdempotencyKey = p.memory.evidenceByIdempotencyKey)
      (hkeys : ∀ key, key ∈ m.keys ↔ key ∈ p.memory.keys ∨ ∃ c ∈ recorded, heartbeatGapKey c = key)
      (hdue : ∀ last ∈ p.sweeps.head?, now ≤ last + 2 * heartbeatGapMs) :
      Effect parse p now ⟨m, now, now :: p.sweeps, p.recorded ++ recorded⟩

/-- a key that is new adds the event, and its candidate's key -/
theorem upsertMemoryEvidence_cases (m : Memory) (e : EvidenceEvent) (draw : Draw) :
    (upsertMemoryEvidence m e draw).1 = m ∨
      (m.evidenceByIdempotencyKey.get? e.idempotencyKey = none ∧
        (upsertMemoryEvidence m e draw).1.evidenceByIdempotencyKey.values =
          m.evidenceByIdempotencyKey.values ++ [e] ∧
        (∀ key ∈ (upsertMemoryEvidence m e draw).1.keys, key ∈ m.keys ∨ key = candidateKeyFor e) ∧
        ∀ key ∈ m.keys, key ∈ (upsertMemoryEvidence m e draw).1.keys) := by
  unfold upsertMemoryEvidence
  cases hget : m.evidenceByIdempotencyKey.get? e.idempotencyKey with
  | some existing => exact .inl rfl
  | none =>
    dsimp only
    unfold storeMemoryCandidate
    have hvalues := OrderedMap.values_set_of_none (v := e) hget
    split
    · exact .inr ⟨rfl, hvalues, fun key => .inl, fun key => id⟩
    · exact .inr ⟨rfl, hvalues, fun key => OrderedMap.mem_keys_set.mp,
        fun key hkey => OrderedMap.mem_keys_set.mpr (.inl hkey)⟩

theorem upsertMemoryEvidence_effect {parse : String → Int} {p : Process} {now : Int} (e : EvidenceEvent)
    (draw : Draw) (hzone : ZoneText e.zoneId)
    (hsensor : p.memory.evidenceByIdempotencyKey.get? e.idempotencyKey = none → e.source = .sensor →
      WellRead parse e ∧ e.observedAt.getTime = now ∧ p.sweeps ≠ []) :
    Effect parse p now { p with memory := (upsertMemoryEvidence p.memory e draw).1, clock := now } := by
  rcases upsertMemoryEvidence_cases p.memory e draw with he | ⟨hget, hvalues, hkeys, hkept⟩
  · rw [he]
    exact .duplicate
  · exact .stored e _ hvalues hzone (hsensor hget) hkeys hkept

theorem next_effect {parse : String → Int} {p p' : Process} {x : Int × Happening} (hok : Timely parse p x)
    (h : next p x = some p') : Effect parse p x.1 p' := by
  obtain ⟨now, happening⟩ := x
  obtain ⟨-, hok⟩ := hok
  cases happening with
  | telemetry input draw =>
    obtain rfl := Option.some.inj h
    obtain ⟨hzone, hdate, hnew⟩ := hok
    exact upsertMemoryEvidence_effect (telemetryEvent input draw) draw hzone
      fun hget _ => ⟨⟨hzone, hdate⟩, hnew hget⟩
  | report input draw =>
    obtain rfl := Option.some.inj h
    exact upsertMemoryEvidence_effect (reporterEvent input draw) draw hok fun _ hsource => by cases hsource
  | sweep ids =>
    obtain rfl := Option.some.inj h
    obtain ⟨hevidence, hrecorded, hkeys⟩ := recordMemoryGaps_spec p.memory
      (sweepCandidates (EvidenceStore.sweepEvidenceByZone now (.memory p.memory)) now ids)
    rw [← hrecorded] at hkeys
    exact .swept _ ids _ hrecorded hevidence hkeys hok

end Process

end

end Ingestion
