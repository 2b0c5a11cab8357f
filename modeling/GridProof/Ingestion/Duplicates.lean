import GridProof.Lib.WriteOnce
import GridProof.Ingestion.Database

/-!
# Whose event a duplicate returns

The three endpoints share one space of idempotency keys, in either store.  The place of a key is written
once: by the first request with that key, whoever sends it.

* `register`            the event of a key, as a register that is written once;
* `duplicate_sound_iff` every request answered as a duplicate gets the event of its own reading iff equal
                        keys mean equal readings.

The requests are those that the middlewares let through.
-/

namespace Ingestion
open Pipeline (IsoDate)

inductive Mode where
  | memory
  | database
deriving DecidableEq

inductive Store where
  | memory (m : Memory)
  | database (d : Database)

def Store.empty : Mode → Store
  | .memory => .memory .empty
  | .database => .database .empty

/-- the event of a key, as a request reads it -/
def Store.find? : Store → String → Option EvidenceEvent
  | .memory m, key => m.evidenceByIdempotencyKey.get? key
  | .database d, key => findEvidenceByIdempotencyKey d key

section
variable [JsText.Runtime]

/-- what a request asks the store to keep: a reading or a report -/
def input (r : Request) (draw : Draw) : TelemetryIngestRequest ⊕ ReporterIngestRequest :=
  match r with
  | .telemetry input => .inl input
  | .report input => .inr input
  | .webhook input => .inr (reporterInputFromWhatsapp input draw.now)

/-- a request, with `none` as the reply if a statement of the database fails -/
def ingest (s : Store) (r : Request) (draw : Draw) : Store × Option IngestStoreResult :=
  match s with
  | .memory m =>
    let (m, result) :=
      match input r draw with
      | .inl input => upsertTelemetryEvidence m input draw
      | .inr input => upsertReporterEvidence m input draw
    (.memory m, some result)
  | .database d =>
    let (d, result) :=
      match input r draw with
      | .inl input => upsertDatabaseEvidence d (telemetryEvidence input) draw
      | .inr input => upsertDatabaseEvidence d (reporterEvidence input) draw
    (.database d, result)

/-- the store after these requests, in order -/
def after (mode : Mode) (requests : List (Request × Draw)) : Store :=
  requests.foldl (fun s q => (ingest s q.1 q.2).1) (.empty mode)

/-! ## readings -/

/-- the device, or the wallet of the reporter -/
inductive Sender where
  | device (deviceId : String)
  | wallet (reporterWallet : String)
deriving DecidableEq

/-- what a request reports; a webhook message need not say when -/
structure Reading where
  source : EvidenceSource
  zone : String
  sender : Sender
  status : EvidenceStatus
  observedAt : Option Int
deriving DecidableEq

/-- zones and wallets are compared without case, times as instants -/
def reading : Request → Reading
  | .telemetry input =>
    ⟨.sensor, uuid input.zoneId, .device input.deviceId, input.status, some input.observedAt.micros⟩
  | .report input =>
    ⟨.reporter, uuid input.zoneId, .wallet (JsText.asciiLower input.reporterWallet), input.status,
      some input.observedAt.micros⟩
  | .webhook input =>
    ⟨.reporter, uuid input.zoneId, .wallet (JsText.asciiLower input.reporterWallet),
      input.status.getD (inferStatusFromMessage input.text), input.observedAt.map (·.micros)⟩

omit [JsText.Runtime] in
def Request.idempotencyKey : Request → String
  | .telemetry input => input.idempotencyKey
  | .report input => input.idempotencyKey
  | .webhook input => "whatsapp:" ++ input.source.text ++ ":" ++ input.messageId

/-- the event `e` was not in the store before the request and is after it -/
def Stores (s : Store) (q : Request × Draw) (e : EvidenceEvent) : Prop :=
  s.find? e.idempotencyKey = none ∧ (ingest s q.1 q.2).1.find? e.idempotencyKey = some e

/-! ## one request -/

/-- the event of a request whose key is new -/
def fresh (s : Store) (q : Request × Draw) : EvidenceEvent :=
  match s, input q.1 q.2 with
  | .memory _, .inl input => telemetryEvent input q.2
  | .memory _, .inr input => reporterEvent input q.2
  | .database _, .inl input => mapEvidenceRow (evidenceRow (telemetryEvidence input) q.2)
  | .database _, .inr input => mapEvidenceRow (evidenceRow (reporterEvidence input) q.2)

theorem fresh_idempotencyKey (s : Store) (q : Request × Draw) :
    (fresh s q).idempotencyKey = q.1.idempotencyKey := by
  obtain ⟨r, draw⟩ := q
  cases s <;> cases r <;> rfl

theorem ingest_memory (m : Memory) (q : Request × Draw) : ingest (.memory m) q.1 q.2 =
    (.memory (upsertMemoryEvidence m (fresh (.memory m) q) q.2).1,
      some (upsertMemoryEvidence m (fresh (.memory m) q) q.2).2) := by
  obtain ⟨r, draw⟩ := q
  cases r with
  | _ => rfl

/-- the argument of `upsertDatabaseEvidence` for a request -/
def databaseInput (q : Request × Draw) : DatabaseEvidence :=
  match input q.1 q.2 with
  | .inl input => telemetryEvidence input
  | .inr input => reporterEvidence input

theorem ingest_database (d : Database) (q : Request × Draw) : ingest (.database d) q.1 q.2 =
    (.database (upsertDatabaseEvidence d (databaseInput q) q.2).1,
      (upsertDatabaseEvidence d (databaseInput q) q.2).2) := by
  obtain ⟨r, draw⟩ := q
  cases r with
  | _ => rfl

theorem fresh_database (d : Database) (q : Request × Draw) :
    fresh (.database d) q = mapEvidenceRow (evidenceRow (databaseInput q) q.2) := by
  obtain ⟨r, draw⟩ := q
  cases r with
  | _ => rfl

theorem databaseInput_idempotencyKey (q : Request × Draw) :
    (databaseInput q).idempotencyKey = q.1.idempotencyKey := by
  obtain ⟨r, draw⟩ := q
  cases r with
  | _ => rfl

theorem storeMemoryCandidate_evidence (m : Memory) (e : EvidenceEvent) (draw : Draw) :
    (storeMemoryCandidate m e draw).1.evidenceByIdempotencyKey = m.evidenceByIdempotencyKey := by
  unfold storeMemoryCandidate
  split
  · rfl
  · rfl

omit [JsText.Runtime] in
theorem insertCandidate_evidence {d d' : Database} {row : Pipeline.CandidateRow} {inserted : Bool}
    (h : insertCandidate d row = some (d', inserted)) : d'.evidence = d.evidence := by
  unfold insertCandidate at h
  split at h
  · cases h
    rfl
  · obtain ⟨candidates, -, he⟩ := Option.map_eq_some_iff.mp h
    cases he
    rfl

theorem storeDatabaseCandidate_evidence (d : Database) (e : EvidenceEvent) (draw : Draw) :
    (storeDatabaseCandidate d e draw).1.evidence = d.evidence := by
  unfold storeDatabaseCandidate
  split
  · rfl
  · split
    · rfl
    · rename_i h
      exact insertCandidate_evidence h

/-- a key that is taken: nothing is stored, and its event is returned as a duplicate -/
theorem ingest_taken {s : Store} {q : Request × Draw} {e : EvidenceEvent}
    (h : s.find? q.1.idempotencyKey = some e) : (ingest s q.1 q.2).1 = s ∧
      ∃ res, (ingest s q.1 q.2).2 = some res ∧ res.duplicate = true ∧ res.evidenceEvent = e := by
  cases s with
  | memory m =>
    have hkey : m.evidenceByIdempotencyKey.get? (fresh (.memory m) q).idempotencyKey = some e := by
      rw [fresh_idempotencyKey]
      exact h
    rw [ingest_memory]
    unfold upsertMemoryEvidence
    rw [hkey]
    exact ⟨rfl, _, rfl, rfl, rfl⟩
  | database d =>
    obtain ⟨row, hrow, rfl⟩ := Option.map_eq_some_iff.mp h
    have hkey : d.evidence.get? (databaseInput q).idempotencyKey = some row := by
      rw [databaseInput_idempotencyKey]
      exact hrow
    rw [ingest_database, upsertDatabaseEvidence_taken hkey]
    exact ⟨rfl, _, rfl, rfl, rfl⟩

/-- a key that is new: the event is stored under it, and is no duplicate -/
theorem ingest_new {s : Store} {q : Request × Draw} (h : s.find? q.1.idempotencyKey = none) :
    (∀ key, (ingest s q.1 q.2).1.find? key =
      if key = q.1.idempotencyKey then some (fresh s q) else s.find? key) ∧
      ∀ res, (ingest s q.1 q.2).2 = some res → res.duplicate = false := by
  cases s with
  | memory m =>
    have hkey : m.evidenceByIdempotencyKey.get? (fresh (.memory m) q).idempotencyKey = none := by
      rw [fresh_idempotencyKey]
      exact h
    rw [ingest_memory]
    unfold upsertMemoryEvidence
    rw [hkey]
    refine ⟨fun key => ?_, fun res hres => ?_⟩
    · show (storeMemoryCandidate _ _ _).1.evidenceByIdempotencyKey.get? key = _
      rw [storeMemoryCandidate_evidence, OrderedMap.get?_set, fresh_idempotencyKey]
      rfl
    · cases hres
      rfl
  | database d =>
    have hkey : d.evidence.get? (databaseInput q).idempotencyKey = none := by
      rw [databaseInput_idempotencyKey]
      exact Option.map_eq_none_iff.mp h
    rw [ingest_database, upsertDatabaseEvidence_new hkey, fresh_database]
    refine ⟨fun key => ?_, fun res hres => ?_⟩
    · show ((storeDatabaseCandidate _ _ _).1.evidence.get? key).map mapEvidenceRow = _
      rw [storeDatabaseCandidate_evidence, OrderedMap.get?_set, databaseInput_idempotencyKey,
        apply_ite (Option.map mapEvidenceRow)]
      rfl
    · obtain ⟨candidate, -, he⟩ := Option.map_eq_some_iff.mp hres
      rw [← he]

/-! ## runs -/

theorem after_succ {mode : Mode} {requests : List (Request × Draw)} {i : ℕ} {q : Request × Draw}
    (h : requests[i]? = some q) : after mode (requests.take (i + 1)) =
      (ingest (after mode (requests.take i)) q.1 q.2).1 := by
  unfold after
  rw [List.take_add_one, h, List.foldl_append]
  rfl

theorem after_past {mode : Mode} {requests : List (Request × Draw)} {i : ℕ} (h : requests[i]? = none) :
    after mode (requests.take (i + 1)) = after mode (requests.take i) := by
  unfold after
  rw [List.take_add_one, h, Option.toList_none, List.append_nil]

/-- the request at place `i` has the key, and finds it new -/
def Opens (mode : Mode) (requests : List (Request × Draw)) (key : String) (i : ℕ)
    (e : Option EvidenceEvent) : Prop :=
  ∃ q, requests[i]? = some q ∧ q.1.idempotencyKey = key ∧
    (after mode (requests.take i)).find? key = none ∧ e = some (fresh (after mode (requests.take i)) q)

/-- the event of a key is a register that is written once -/
theorem register (mode : Mode) (requests : List (Request × Draw)) (key : String) :
    WriteOnce.Register (fun n => (after mode (requests.take n)).find? key) (· = none)
      (Opens mode requests key) where
  start := by
    cases mode with
    | _ => rfl
  was_free := by
    rintro i e ⟨q, -, -, h, -⟩
    exact h
  written := by
    rintro i e ⟨q, hq, hkey, h, rfl⟩
    rw [← hkey] at h
    rw [after_succ hq, (ingest_new h).1, if_pos hkey.symm]
  taken := by
    rintro i e ⟨q, -, -, -, rfl⟩ h
    cases h
  unchanged := by
    intro i hno
    cases hq : requests[i]? with
    | none => rw [after_past hq]
    | some q =>
      rw [after_succ hq]
      cases hf : (after mode (requests.take i)).find? q.1.idempotencyKey with
      | some e => rw [(ingest_taken hf).1]
      | none =>
        rw [(ingest_new hf).1]
        refine if_neg fun he => hno _ ⟨q, hq, he.symm, ?_, rfl⟩
        rw [he]
        exact hf

theorem Opens.idempotencyKey {mode : Mode} {requests : List (Request × Draw)} {key : String} {i : ℕ}
    {e : EvidenceEvent} (h : Opens mode requests key i (some e)) : e.idempotencyKey = key := by
  obtain ⟨q, -, hkey, -, he⟩ := h
  rw [Option.some.inj he, fresh_idempotencyKey, hkey]

/-- an event that is in the store was brought by the request that opened its key -/
theorem opener {mode : Mode} {requests : List (Request × Draw)} {key : String} {n : ℕ}
    {e : EvidenceEvent} (h : (after mode (requests.take n)).find? key = some e) :
    ∃ i < n, Opens mode requests key i (some e) := by
  have hreg := register mode requests key
  have hne : (after mode (requests.take n)).find? key ≠ none := by
    rw [h]
    exact Option.some_ne_none e
  obtain ⟨i, hi, v, hv⟩ := (hreg.taken_iff n).mp hne
  have hvn := hreg.stays hv hi
  rw [h] at hvn
  exact ⟨i, hi, hvn ▸ hv⟩

/-- an event that a request stores is the one it makes, under the key of the request -/
theorem Stores.eq_fresh {s : Store} {q : Request × Draw} {e : EvidenceEvent} (h : Stores s q e) :
    e.idempotencyKey = q.1.idempotencyKey ∧ e = fresh s q := by
  obtain ⟨hnone, hsome⟩ := h
  cases hf : s.find? q.1.idempotencyKey with
  | some e' =>
    rw [(ingest_taken hf).1, hnone] at hsome
    cases hsome
  | none =>
    rw [(ingest_new hf).1] at hsome
    split at hsome
    · rename_i hkey
      exact ⟨hkey, (Option.some.inj hsome).symm⟩
    · rw [hnone] at hsome
      cases hsome

/-- a request stores an event iff it opens the event's key -/
theorem stores_iff {mode : Mode} {requests : List (Request × Draw)} {i : ℕ} {q : Request × Draw}
    {e : EvidenceEvent} (hq : requests[i]? = some q) :
    Stores (after mode (requests.take i)) q e ↔ Opens mode requests e.idempotencyKey i (some e) := by
  constructor
  · intro h
    obtain ⟨hkey, hfresh⟩ := h.eq_fresh
    exact ⟨q, hq, hkey.symm, h.1, congrArg some hfresh⟩
  · intro hopen
    have hwritten := (register mode requests e.idempotencyKey).written i _ hopen
    refine ⟨(register mode requests e.idempotencyKey).was_free i _ hopen, ?_⟩
    rw [← after_succ hq]
    exact hwritten

/-- **Every request that is answered as a duplicate gets an event that an earlier request with the same
reading has stored, iff requests with equal keys have equal readings.** -/
theorem duplicate_sound_iff (mode : Mode) (requests : List (Request × Draw)) :
    (∀ (j : ℕ) (r : Request × Draw) (res : IngestStoreResult), requests[j]? = some r →
      (ingest (after mode (requests.take j)) r.1 r.2).2 = some res → res.duplicate = true →
      ∃ i < j, ∃ q, requests[i]? = some q ∧
        Stores (after mode (requests.take i)) q res.evidenceEvent ∧ reading q.1 = reading r.1) ↔
    ∀ (i j : ℕ) (q r : Request × Draw), requests[i]? = some q → requests[j]? = some r →
      q.1.idempotencyKey = r.1.idempotencyKey → reading q.1 = reading r.1 := by
  constructor
  · intro h
    -- every request has the reading of the one that opened its key
    have hopener : ∀ (j : ℕ) (r : Request × Draw), requests[j]? = some r → ∃ i q e,
        Opens mode requests r.1.idempotencyKey i e ∧ requests[i]? = some q ∧
          reading q.1 = reading r.1 := by
      intro j r hr
      cases hf : (after mode (requests.take j)).find? r.1.idempotencyKey with
      | none => exact ⟨j, r, _, ⟨r, hr, rfl, hf, rfl⟩, hr, rfl⟩
      | some e =>
        obtain ⟨-, res, hres, hdup, rfl⟩ := ingest_taken hf
        obtain ⟨i, -, q, hq, hstores, hreading⟩ := h j r res hr hres hdup
        obtain ⟨k, -, hopen⟩ := opener hf
        have hopen' := (stores_iff hq).mp hstores
        rw [hopen.idempotencyKey] at hopen'
        exact ⟨i, q, _, hopen', hq, hreading⟩
    intro i j q r hq hr hkey
    obtain ⟨a, u, e, hopen, hu, hreading⟩ := hopener i q hq
    obtain ⟨b, v, e', hopen', hv, hreading'⟩ := hopener j r hr
    rw [← hkey] at hopen'
    rw [(register mode requests _).once hopen hopen', hv] at hu
    cases hu
    exact hreading.symm.trans hreading'
  · intro h j r res hr hres hdup
    cases hf : (after mode (requests.take j)).find? r.1.idempotencyKey with
    | none =>
      have hno := (ingest_new hf).2 res hres
      rw [hno] at hdup
      cases hdup
    | some e =>
      obtain ⟨-, res', hres', -, he⟩ := ingest_taken hf
      rw [hres] at hres'
      cases hres'
      obtain ⟨i, hi, hopen⟩ := opener hf
      obtain ⟨q, hq, hkey, -⟩ := id hopen
      refine ⟨i, hi, q, hq, ?_, h i j q r hq hr hkey⟩
      rw [he, stores_iff hq, hopen.idempotencyKey]
      exact hopen

end

/-- a key as the firmware of device `a84041ed485a0b9f` makes it -/
def sampleKey : String := "a84041ed485a0b9f-1767276000"

def sampleTime : IsoDate := ⟨"2026-01-01T14:00:00.000Z", 1767276000000000⟩

def sampleZone : String := "aaaaaaaa-aaaa-4aaa-8aaa-aaaaaaaaaaaa"

/-- a reporter's request under the key of the reading that the device sends next -/
def sampleRequests : List (Request × Draw) :=
  [(.report ⟨"0x1111111111111111111111111111111111111111", sampleZone, sampleKey, sampleTime, .gridUp,
      none⟩, ⟨"e1", "p1", "c1", sampleTime, fun _ => 0⟩),
    (.telemetry ⟨"a84041ed485a0b9f", "0x2222222222222222222222222222222222222222", sampleZone, sampleKey,
      sampleTime, .gridDown, some 0, none⟩, ⟨"e2", "p2", "c2", sampleTime, fun _ => 0⟩)]

/-- the outage that the device reports is answered with the reporter's restoration -/
theorem swallowed : letI := JsText.asciiRuntime
    ∃ j r res, sampleRequests[j]? = some r ∧
      (ingest (after .database (sampleRequests.take j)) r.1 r.2).2 = some res ∧ res.duplicate = true ∧
      ¬ ∃ i < j, ∃ q, sampleRequests[i]? = some q ∧
        Stores (after .database (sampleRequests.take i)) q res.evidenceEvent ∧
        reading q.1 = reading r.1 := by
  let _ := JsText.asciiRuntime
  have hnew : (Store.empty .database).find? sampleRequests[0].1.idempotencyKey = none := rfl
  have hfind := ((ingest_new hnew).1 sampleKey).trans (if_pos rfl)
  obtain ⟨-, res, hres, hdup, -⟩ := ingest_taken (q := sampleRequests[1]) hfind
  refine ⟨1, sampleRequests[1], res, rfl, hres, hdup, ?_⟩
  rintro ⟨i, hi, q, hq, -, hreading⟩
  obtain rfl : i = 0 := by omega
  cases hq
  cases hreading

end Ingestion
