import GridProof.Ingestion.Realtime
import GridProof.Ingestion.Unseen

/-!
# Who hears of a reporter

The event of a report holds its note, with the phone number and the text of the message, and whole events are
sent to the room of their zone, which every socket may join.

* `Site.withoutNotes`, `Keeps`   steps on sites that differ in notes only lead to such sites;
* `publish_alike`     so does a message, whatever its phone number and text, and its events differ in notes only;
* `delivered_eq`      two runs look the same to a socket that does not hear of the messages that differ.
-/

namespace Ingestion
open Pipeline (IsoDate CandidateEvent Simulation)
open Auth (UserRole)

/-! ## without notes -/

def Site.withoutNotes : Site → Site
  | .memory m pipeline => .memory m.withoutNotes pipeline
  | .database d => .database d.withoutNotes

def DomainEvent.withoutNote : DomainEvent → DomainEvent
  | evidenceReceived event => evidenceReceived event.withoutNote
  | event => event

theorem back_withoutNotes (s : Site) : s.withoutNotes.back = s.back := by
  cases s with
  | memory m pipeline => rfl
  | database d => rfl

theorem withBack_withoutNotes (s : Site) (b : Back) : s.withoutNotes.withBack b = (s.withBack b).withoutNotes := by
  cases s with
  | memory m pipeline =>
    cases b with
    | _ => rfl
  | database d =>
    cases b with
    | _ => rfl

section
variable [JsText.Runtime]

theorem process_withoutNotes (s : Site) (candidate : CandidateEvent) (simulation : Option Simulation)
    (decisionId : String) (now : IsoDate) : s.withoutNotes.process candidate simulation decisionId now =
      ((s.process candidate simulation decisionId now).1.withoutNotes,
        (s.process candidate simulation decisionId now).2) := by
  cases s with
  | memory m pipeline => rfl
  | database d => rfl

omit [JsText.Runtime] in
theorem recordMemoryGap_withoutNotes (m : Memory) (candidate : CandidateEvent) :
    recordMemoryGap m.withoutNotes candidate =
      ((recordMemoryGap m candidate).1.withoutNotes, (recordMemoryGap m candidate).2) := by
  unfold recordMemoryGap
  dsimp only
  rw [show m.withoutNotes.candidatesByKey = m.candidatesByKey from rfl]
  cases m.candidatesByKey.get? (Detection.heartbeatGapKey candidate) with
  | some c => rfl
  | none => rfl

omit [JsText.Runtime] in
theorem recordGap_withoutNotes (s : Site) (candidate : CandidateEvent) : s.withoutNotes.recordGap candidate =
    (s.recordGap candidate).map fun r => (r.1.withoutNotes, r.2) := by
  cases s with
  | memory m pipeline =>
    show some (Site.memory (recordMemoryGap m.withoutNotes candidate).1 pipeline,
      (recordMemoryGap m.withoutNotes candidate).2.isSome) = _
    rw [recordMemoryGap_withoutNotes]
    rfl
  | database d =>
    show (recordGapCandidate d.withoutNotes candidate).map _ = Option.map _ ((recordGapCandidate d candidate).map _)
    unfold recordGapCandidate
    rw [insertCandidate_withoutNotes, Option.map_map, Option.map_map]
    rfl

theorem findGaps_withoutNotes (s : Site) (now : Int) {draw : LabDraw} (hdraw : draw.Blind) :
    s.withoutNotes.findGaps now draw = s.findGaps now draw := by
  cases s with
  | memory m pipeline =>
    show sweepCandidates ((EvidenceStore.memory m.withoutNotes).sweepEvidenceByZone now) now draw.gapIds = _
    rw [EvidenceStore.sweepEvidenceByZone_eq, sweepRows_withoutNotes, sweep_withoutNotes,
      ← EvidenceStore.sweepEvidenceByZone_eq]
    rfl
  | database d =>
    show sweepCandidates ((EvidenceStore.database d.withoutNotes draw.rank).sweepEvidenceByZone now) now draw.gapIds = _
    rw [EvidenceStore.sweepEvidenceByZone_eq, sweepDatabaseRows_withoutNotes now d hdraw, sweep_withoutNotes,
      ← EvidenceStore.sweepEvidenceByZone_eq]
    rfl

theorem sweepLoop_withoutNotes (draw : LabDraw) (s : Site) (found : List CandidateEvent) :
    s.withoutNotes.sweepLoop draw found =
      ((s.sweepLoop draw found).1.withoutNotes, (s.sweepLoop draw found).2) := by
  induction found generalizing s with
  | nil => rfl
  | cons candidate rest ih =>
    unfold Site.sweepLoop
    rw [recordGap_withoutNotes]
    cases s.recordGap candidate with
    | none => rfl
    | some r =>
      obtain ⟨t, recorded⟩ := r
      cases recorded with
      | false => exact ih t
      | true =>
        dsimp only [Option.map_some]
        rw [process_withoutNotes]
        dsimp only
        rw [ih]

/-! ## requests that differ in a note -/

omit [JsText.Runtime] in
/-- a reading, or a report without its note -/
def blank : TelemetryIngestRequest ⊕ ReporterIngestRequest → TelemetryIngestRequest ⊕ ReporterIngestRequest
  | .inl input => .inl input
  | .inr input => .inr { input with note := none }

/-- the note that a request brings -/
def Request.note (r : Request) (draw : Draw) : Option String :=
  match input r draw with
  | .inl _ => none
  | .inr input => input.note

/-- the requests differ in their notes only -/
def SameButNote (r r' : Request) (draw : Draw) : Prop := blank (input r draw) = blank (input r' draw)

theorem databaseInput_withoutNote {r r' : Request} {draw : Draw} (h : SameButNote r r' draw) :
    (databaseInput (r, draw)).withoutNote = (databaseInput (r', draw)).withoutNote := by
  have hblank : ∀ r : Request, (databaseInput (r, draw)).withoutNote =
      match blank (input r draw) with
      | .inl input => telemetryEvidence input
      | .inr input => reporterEvidence input := fun r => by
    unfold databaseInput
    dsimp only
    cases input r draw with
    | _ => rfl
  rw [hblank, hblank, h]

theorem fresh_memory (m : Memory) (q : Request × Draw) : fresh (.memory m) q =
    match input q.1 q.2 with
    | .inl input => telemetryEvent input q.2
    | .inr input => reporterEvent input q.2 := by
  obtain ⟨r, draw⟩ := q
  cases r with
  | _ => rfl

theorem freshMemory_withoutNote {r r' : Request} {draw : Draw} (h : SameButNote r r' draw) (m m' : Memory) :
    (fresh (.memory m) (r, draw)).withoutNote = (fresh (.memory m') (r', draw)).withoutNote := by
  have hblank : ∀ (m : Memory) (r : Request), (fresh (.memory m) (r, draw)).withoutNote =
      match blank (input r draw) with
      | .inl input => telemetryEvent input draw
      | .inr input => reporterEvent input draw := fun m r => by
    rw [fresh_memory]
    dsimp only
    cases input r draw with
    | _ => rfl
  rw [hblank, hblank, h]

theorem fresh_note (s : Store) (r : Request) (draw : Draw) :
    (fresh s (r, draw)).rawPayload.note = r.note draw := by
  cases s with
  | memory m =>
    cases r with
    | _ => rfl
  | database d =>
    cases r with
    | _ => rfl

theorem fresh_withoutNote {s s' : Site} (hs : s.withoutNotes = s'.withoutNotes) {r r' : Request} {draw : Draw}
    (h : SameButNote r r' draw) :
    (fresh s.store (r, draw)).withoutNote = (fresh s'.store (r', draw)).withoutNote := by
  cases s with
  | memory m pipeline =>
    cases s' with
    | memory m' pipeline' => exact freshMemory_withoutNote h m m'
    | database d' => cases hs
  | database d =>
    cases s' with
    | memory m' pipeline' => cases hs
    | database d' =>
      show (fresh (.database d) (r, draw)).withoutNote = (fresh (.database d') (r', draw)).withoutNote
      rw [fresh_database, fresh_database, ← mapEvidenceRow_withoutNote, ← mapEvidenceRow_withoutNote]
      show mapEvidenceRow (evidenceRow (databaseInput (r, draw)).withoutNote draw) =
        mapEvidenceRow (evidenceRow (databaseInput (r', draw)).withoutNote draw)
      rw [databaseInput_withoutNote h]

/-! ## requests -/

/-- what a request leaves and gives back, without notes -/
def erased (x : Site × Option IngestStoreResult) : Site × Option IngestStoreResult :=
  (x.1.withoutNotes, x.2.map IngestStoreResult.withoutNote)

theorem receive_memory (m : Memory) (pipeline : Pipeline.Memory) (r : Request) (draw : Draw) :
    (Site.memory m pipeline).receive r draw =
      (.memory (upsertMemoryEvidence m (fresh (.memory m) (r, draw)) draw).1 pipeline,
        some (upsertMemoryEvidence m (fresh (.memory m) (r, draw)) draw).2) := by
  unfold Site.receive
  show (let x := ingest (.memory m) r draw; (Site.withStore _ x.1, x.2)) = _
  rw [ingest_memory m (r, draw)]
  rfl

theorem receive_database (d : Database) (r : Request) (draw : Draw) : (Site.database d).receive r draw =
    (.database (upsertDatabaseEvidence d (databaseInput (r, draw)) draw).1,
      (upsertDatabaseEvidence d (databaseInput (r, draw)) draw).2) := by
  unfold Site.receive
  show (let x := ingest (.database d) r draw; (Site.withStore _ x.1, x.2)) = _
  rw [ingest_database d (r, draw)]
  rfl

theorem receive_withoutNotes {s s' : Site} (hs : s.withoutNotes = s'.withoutNotes) {r r' : Request} {draw : Draw}
    (h : SameButNote r r' draw) (hdraw : draw.Blind) :
    erased (s.receive r draw) = erased (s'.receive r' draw) := by
  cases s with
  | memory m pipeline =>
    cases s' with
    | database d' => cases hs
    | memory m' pipeline' =>
      obtain ⟨hm, rfl⟩ := Site.memory.inj hs
      have hmem : ∀ (m : Memory) (r : Request), erased ((Site.memory m pipeline).receive r draw) =
          (.memory (upsertMemoryEvidence m.withoutNotes (fresh (.memory m) (r, draw)).withoutNote draw).1 pipeline,
            some (upsertMemoryEvidence m.withoutNotes (fresh (.memory m) (r, draw)).withoutNote draw).2) :=
        fun m r => by
          rw [receive_memory, upsertMemory_withoutNotes]
          rfl
      rw [hmem, hmem, hm, freshMemory_withoutNote h m m']
  | database d =>
    cases s' with
    | memory m' pipeline' => cases hs
    | database d' =>
      have hdb : ∀ (d : Database) (r : Request), erased ((Site.database d).receive r draw) =
          (.database (upsertDatabaseEvidence d.withoutNotes (databaseInput (r, draw)).withoutNote draw).1,
            (upsertDatabaseEvidence d.withoutNotes (databaseInput (r, draw)).withoutNote draw).2) := fun d r => by
        rw [receive_database, upsertDatabase_withoutNotes d _ hdraw]
        rfl
      rw [hdb, hdb, Site.database.inj hs, databaseInput_withoutNote h]

/-- **The steps that a message starts lead to the same, and to the same events, but for the notes.** -/
theorem publish_alike {s s' : Site} (hs : s.withoutNotes = s'.withoutNotes) {r r' : Request} {draw : LabDraw}
    (h : SameButNote r r' draw.toDraw) (hdraw : draw.Blind) :
    (s.publish r draw).1.withoutNotes = (s'.publish r' draw).1.withoutNotes ∧
      (s.publish r draw).2.map DomainEvent.withoutNote = (s'.publish r' draw).2.map DomainEvent.withoutNote := by
  have herased := receive_withoutNotes hs h hdraw
  unfold Site.publish
  generalize s.receive r draw.toDraw = x at herased ⊢
  generalize s'.receive r' draw.toDraw = x' at herased ⊢
  obtain ⟨t, result⟩ := x
  obtain ⟨t', result'⟩ := x'
  obtain ⟨ht, hresult⟩ := Prod.mk.inj herased
  dsimp only at ht hresult ⊢
  cases result with
  | none =>
    cases result' with
    | none => exact ⟨ht, rfl⟩
    | some result' => cases hresult
  | some result =>
    cases result' with
    | none => cases hresult
    | some result' =>
      obtain ⟨duplicate, event, candidate⟩ := result
      obtain ⟨duplicate', event', candidate'⟩ := result'
      obtain ⟨rfl, hevent, rfl⟩ := IngestStoreResult.mk.inj (Option.some.inj hresult)
      cases duplicate with
      | true => exact ⟨ht, rfl⟩
      | false =>
        cases candidate with
        | none => exact ⟨ht, congrArg (fun e => [DomainEvent.evidenceReceived e]) hevent⟩
        | some candidate =>
          have hprocess : ∀ t : Site, _ := fun t => process_withoutNotes t candidate none draw.decisionId draw.now
          have heq := (hprocess t).symm.trans ((congrArg (fun t : Site =>
            t.process candidate none draw.decisionId draw.now) ht).trans (hprocess t'))
          obtain ⟨hleft, hright⟩ := Prod.mk.inj heq
          refine ⟨hleft, ?_⟩
          show DomainEvent.evidenceReceived event.withoutNote :: .candidateDetected candidate ::
              (t.process candidate none draw.decisionId draw.now).2.map DomainEvent.withoutNote =
            .evidenceReceived event'.withoutNote :: .candidateDetected candidate ::
              (t'.process candidate none draw.decisionId draw.now).2.map DomainEvent.withoutNote
          rw [hright, show event.withoutNote = event'.withoutNote from hevent]

theorem simulate_withoutNotes {s s' : Site} (hs : s.withoutNotes = s'.withoutNotes) (input : DemoSimulationRequest)
    (allowChainWrite : Bool) {draw : LabDraw} (hdraw : draw.Blind) :
    (s.simulate input allowChainWrite draw).1.withoutNotes = (s'.simulate input allowChainWrite draw).1.withoutNotes ∧
      (s.simulate input allowChainWrite draw).2 = (s'.simulate input allowChainWrite draw).2 := by
  have herased := receive_withoutNotes (r := .telemetry (demoTelemetry input draw)) hs rfl hdraw
  unfold Site.simulate
  generalize s.receive (.telemetry (demoTelemetry input draw)) draw.toDraw = x at herased ⊢
  generalize s'.receive (.telemetry (demoTelemetry input draw)) draw.toDraw = x' at herased ⊢
  obtain ⟨t, result⟩ := x
  obtain ⟨t', result'⟩ := x'
  obtain ⟨ht, hresult⟩ := Prod.mk.inj herased
  have hcandidate : result.bind IngestStoreResult.candidateEvent =
      result'.bind IngestStoreResult.candidateEvent := by
    have hbind := congrArg (Option.bind · IngestStoreResult.candidateEvent) hresult
    dsimp only at hbind
    rw [Option.bind_map, Option.bind_map] at hbind
    exact hbind
  dsimp only
  rw [hcandidate]
  cases result'.bind IngestStoreResult.candidateEvent with
  | none => exact ⟨ht, rfl⟩
  | some candidate =>
    have heq := congrArg (fun t : Site => t.process candidate
      (some ⟨draw.runId, JsText.toLowerCase input.walletAddress, allowChainWrite⟩) draw.decisionId draw.now) ht
    dsimp only at heq
    rw [process_withoutNotes, process_withoutNotes] at heq
    exact Prod.mk.inj heq

/-! ## what is published of a request -/

/-- an event that a request publishes is the one it stores, under a key that was free -/
theorem receive_published (s : Site) (r : Request) (draw : Draw) {result : IngestStoreResult}
    (h : (s.receive r draw).2 = some result) (hnew : result.duplicate = false) :
    s.store.find? r.idempotencyKey = none ∧ result.evidenceEvent = fresh s.store (r, draw) := by
  cases s with
  | memory m pipeline =>
    rw [receive_memory] at h
    obtain rfl := Option.some.inj h
    have hkey := fresh_idempotencyKey (.memory m) (r, draw)
    unfold upsertMemoryEvidence at hnew ⊢
    cases hget : m.evidenceByIdempotencyKey.get? (fresh (.memory m) (r, draw)).idempotencyKey with
    | some existing =>
      rw [hget] at hnew
      cases hnew
    | none =>
      rw [hkey] at hget
      exact ⟨hget, rfl⟩
  | database d =>
    rw [receive_database] at h
    have hkey := databaseInput_idempotencyKey (r, draw)
    cases hget : d.evidence.get? (databaseInput (r, draw)).idempotencyKey with
    | some row =>
      rw [upsertDatabaseEvidence_taken hget] at h
      obtain rfl := Option.some.inj h
      cases hnew
    | none =>
      rw [upsertDatabaseEvidence_new hget] at h
      obtain ⟨candidate, -, rfl⟩ := Option.map_eq_some_iff.mp h
      rw [hkey] at hget
      exact ⟨Option.map_eq_none_iff.mpr hget, (fresh_database d (r, draw)).symm⟩

/-- of a request with a free key and no failing statement, the event is published first -/
theorem publish_new (s : Site) (r : Request) (draw : LabDraw) {result : IngestStoreResult}
    (h : (s.receive r draw.toDraw).2 = some result) (hnew : result.duplicate = false) :
    ∃ later, (s.publish r draw).2 = .evidenceReceived result.evidenceEvent :: later := by
  unfold Site.publish
  generalize s.receive r draw.toDraw = x at h ⊢
  obtain ⟨t, answer⟩ := x
  obtain rfl : answer = some result := h
  dsimp only
  rw [if_neg (by rw [hnew]; exact Bool.false_ne_true)]
  cases result.candidateEvent with
  | none => exact ⟨[], rfl⟩
  | some candidate => exact ⟨_, rfl⟩

omit [JsText.Runtime] in
theorem not_mem_pipelineEvents {candidate : CandidateEvent} {result : Pipeline.PipelineResult} {e : EvidenceEvent} :
    .evidenceReceived e ∉ pipelineEvents candidate result := by
  intro h
  unfold pipelineEvents at h
  split at h
  · cases List.mem_singleton.mp h
  · split at h
    · cases List.mem_singleton.mp h
    · exact absurd h List.not_mem_nil

/-- the pipeline publishes no evidence -/
theorem not_mem_process (s : Site) (candidate : CandidateEvent) {simulation : Option Simulation}
    {decisionId : String} {now : IsoDate} {e : EvidenceEvent} :
    .evidenceReceived e ∉ (s.process candidate simulation decisionId now).2 := by
  intro h
  cases s with
  | memory m pipeline => exact not_mem_pipelineEvents h
  | database d =>
    have h : .evidenceReceived e ∈ ((Pipeline.processCandidatePipeline d.system candidate simulation decisionId
      now).map fun r => pipelineEvents candidate r.2).getD [] := h
    cases hresult : Pipeline.processCandidatePipeline d.system candidate simulation decisionId now with
    | none =>
      rw [hresult] at h
      exact absurd h List.not_mem_nil
    | some r =>
      rw [hresult] at h
      exact not_mem_pipelineEvents h

theorem mem_publish {s : Site} {r : Request} {draw : LabDraw} {e : EvidenceEvent}
    (h : .evidenceReceived e ∈ (s.publish r draw).2) :
    s.store.find? r.idempotencyKey = none ∧ e = fresh s.store (r, draw.toDraw) := by
  have hreceived (result : IngestStoreResult) (h : (s.receive r draw.toDraw).2 = some result)
      (hnew : result.duplicate = false) := receive_published s r draw.toDraw h hnew
  unfold Site.publish at h
  generalize s.receive r draw.toDraw = x at h hreceived
  obtain ⟨t, answer⟩ := x
  cases answer with
  | none => exact absurd h List.not_mem_nil
  | some result =>
    dsimp only at h
    cases hduplicate : result.duplicate with
    | true =>
      rw [if_pos hduplicate] at h
      exact absurd h List.not_mem_nil
    | false =>
      rw [if_neg (by rw [hduplicate]; exact Bool.false_ne_true)] at h
      obtain ⟨hfree, hevent⟩ := hreceived result rfl hduplicate
      refine ⟨hfree, ?_⟩
      rw [← hevent]
      cases hcandidate : result.candidateEvent with
      | none =>
        rw [hcandidate] at h
        exact DomainEvent.evidenceReceived.inj (List.mem_singleton.mp h)
      | some candidate =>
        rw [hcandidate] at h
        rcases List.mem_cons.mp h with h | h
        · exact DomainEvent.evidenceReceived.inj h
        · rcases List.mem_cons.mp h with h | h
          · cases h
          · exact absurd h (not_mem_process t candidate)

/-! ## two runs -/

/-- the same action, or a message with an explicit status and another phone number and text -/
inductive Alike : SiteAction → SiteAction → Prop
  | same (a : SiteAction) : Alike a a
  | message (input : WhatsAppWebhookRequest) (fromPhone text : String) (draw : LabDraw) (hdraw : draw.Blind)
      (hstatus : input.status ≠ none) : Alike (.request (.webhook input) draw hdraw)
        (.request (.webhook { input with fromPhone := fromPhone, text := text }) draw hdraw)

def SiteAction.note : SiteAction → Option String
  | request r draw _ => r.note draw.toDraw
  | _ => none

/-- the socket is connected, and the request brings new evidence of its zone -/
def Hears (h : Handshake) (s : Site) (x : Moment) : Prop :=
  x.2 = true ∧
    match x.1 with
    | .request r draw _ => s.store.find? r.idempotencyKey = none ∧
        h.zoneId = some (fresh s.store (r, draw.toDraw)).zoneId
    | _ => False

/-- the actions are alike, at the same time, and a message that the socket hears of has the same note -/
def Unheard (h : Handshake) (s : Site) (x x' : Moment) : Prop :=
  Alike x.1 x'.1 ∧ x.2 = x'.2 ∧ (Hears h s x → x.1.note = x'.1.note)

theorem Alike.sameButNote {r r' : Request} {draw draw' : LabDraw} {hdraw : draw.Blind} {hdraw' : draw'.Blind}
    (h : Alike (.request r draw hdraw) (.request r' draw' hdraw')) :
    draw = draw' ∧ SameButNote r r' draw.toDraw := by
  cases h with
  | same => exact ⟨rfl, rfl⟩
  | message input fromPhone text draw hdraw hstatus =>
    refine ⟨rfl, ?_⟩
    obtain ⟨status, hstatus⟩ := Option.ne_none_iff_exists'.mp hstatus
    show Sum.inr _ = Sum.inr _
    unfold reporterInputFromWhatsapp
    rw [hstatus]
    rfl

omit [JsText.Runtime] in
theorem zoneRoom_mem {verify : String → Option UserRole} {h : Handshake} {zoneId : String}
    (hroom : zoneRoom zoneId ∈ h.rooms verify) : h.zoneId = some zoneId := by
  rcases List.mem_append.mp hroom with hroom | hroom
  · obtain ⟨z, hz, hzone⟩ := Option.map_eq_some_iff.mp (Option.mem_toList.mp hroom)
    obtain rfl : z = zoneId := String.append_right_inj _ |>.mp hzone
    exact (Option.filter_eq_some_iff.mp hz).1
  · split at hroom
    · have hne : (zoneRoom zoneId).toList.head? ≠ reviewerRoom.toList.head? := by
        unfold zoneRoom
        rw [String.toList_append]
        show some 'z' ≠ some 'r'
        decide
      exact absurd (congrArg (fun s : String => s.toList.head?) (List.mem_singleton.mp hroom)) hne
    · exact absurd hroom List.not_mem_nil

omit [JsText.Runtime] in
/-- events that differ in notes only look the same where those that are heard of are the same -/
theorem received_eq {rooms : List String} {events events' : List DomainEvent}
    (h : events.map DomainEvent.withoutNote = events'.map DomainEvent.withoutNote)
    (hheard : ∀ e e', .evidenceReceived e ∈ events → .evidenceReceived e' ∈ events' →
      zoneRoom e.zoneId ∈ rooms → e = e') :
    events.flatMap (DomainEvent.received rooms) = events'.flatMap (DomainEvent.received rooms) := by
  induction events generalizing events' with
  | nil =>
    obtain rfl := List.map_eq_nil_iff.mp h.symm
    rfl
  | cons event events ih =>
    cases events' with
    | nil => cases h
    | cons event' events' =>
      obtain ⟨hevent, hevents⟩ := List.cons.inj h
      rw [List.flatMap_cons, List.flatMap_cons, ih hevents fun e e' he he' =>
        hheard e e' (List.mem_cons_of_mem _ he) (List.mem_cons_of_mem _ he')]
      refine congrArg (· ++ _) ?_
      cases event with
      | evidenceReceived e =>
        cases event' with
        | evidenceReceived e' =>
          have hfields : e.withoutNote = e'.withoutNote := DomainEvent.evidenceReceived.inj hevent
          by_cases hroom : zoneRoom e.zoneId ∈ rooms
          · rw [hheard e e' List.mem_cons_self List.mem_cons_self hroom]
          · obtain ⟨hzone, hstatus, htime⟩ := EvidenceEvent.status_of_withoutNote hfields
            have hout : ∀ e : EvidenceEvent, zoneRoom e.zoneId ∉ rooms →
                (DomainEvent.evidenceReceived e).received rooms =
                  [.zoneStatusChanged e.zoneId e.status e.observedAt] := fun e hroom => by
              unfold DomainEvent.received DomainEvent.emitted
              simp [hroom]
            rw [hout e hroom, hout e' (hzone ▸ hroom), hzone, hstatus, htime]
        | _ => cases hevent
      | candidateDetected candidate =>
        cases event' with
        | candidateDetected candidate' => rfl
        | _ => cases hevent
      | chainCommitted zoneId epochStart txHash status =>
        cases event' with
        | chainCommitted _ _ _ _ =>
          cases hevent
          rfl
        | _ => cases hevent
      | reviewRequired candidateEventId zoneId reason =>
        cases event' with
        | reviewRequired _ _ _ =>
          cases hevent
          rfl
        | _ => cases hevent

theorem act_unheard {verify : String → Option UserRole} {h : Handshake} {s s' : Site} {x x' : Moment}
    (hs : s.withoutNotes = s'.withoutNotes) (hx : Unheard h s x x') :
    (s.next x).1.withoutNotes = (s'.next x').1.withoutNotes ∧
      toldOf (h.rooms verify) (x, (s.next x).2) = toldOf (h.rooms verify) (x', (s'.next x').2) := by
  obtain ⟨a, connected⟩ := x
  obtain ⟨a', connected'⟩ := x'
  obtain ⟨halike, rfl, hnote⟩ := hx
  dsimp only at halike hnote
  -- steps that bring no request do the same on sites that differ in notes
  have hquiet (step : Site → Site × List DomainEvent)
      (hstep : ∀ t : Site, step t.withoutNotes = ((step t).1.withoutNotes, (step t).2)) :
      (step s).1.withoutNotes = (step s').1.withoutNotes ∧ (step s).2 = (step s').2 :=
    Prod.mk.inj ((hstep s).symm.trans ((congrArg step hs).trans (hstep s')))
  have htold {events events' : List DomainEvent} (he : events = events') :
      toldOf (h.rooms verify) ((a, connected), events) = toldOf (h.rooms verify) ((a', connected), events') := by
    rw [he]
    rfl
  cases a with
  | request r draw hdraw =>
    cases a' with
    | request r' draw' hdraw' =>
      obtain ⟨rfl, hsame⟩ := halike.sameButNote
      obtain ⟨hleft, hevents⟩ := publish_alike hs hsame hdraw
      refine ⟨hleft, ?_⟩
      show (if connected then _ else _) = if connected then _ else _
      cases connected with
      | false => rfl
      | true =>
        refine received_eq hevents fun e e' he he' hroom => ?_
        obtain ⟨hfree, rfl⟩ := mem_publish he
        obtain ⟨-, rfl⟩ := mem_publish he'
        refine EvidenceEvent.eq_iff.mpr ⟨fresh_withoutNote hs hsame, ?_⟩
        rw [fresh_note, fresh_note]
        exact hnote ⟨rfl, hfree, zoneRoom_mem hroom⟩
    | _ => cases halike
  | sweep now draw hdraw =>
    cases halike
    obtain ⟨hleft, hevents⟩ := hquiet (fun t => t.sweepLoop draw (t.findGaps now draw)) fun t => by
      rw [findGaps_withoutNotes t now hdraw, sweepLoop_withoutNotes]
    exact ⟨hleft, htold hevents⟩
  | simulation input allowChainWrite draw hdraw =>
    cases halike
    obtain ⟨hleft, hevents⟩ := simulate_withoutNotes hs input allowChainWrite hdraw
    exact ⟨hleft, htold hevents⟩
  | work f =>
    cases halike
    obtain ⟨hleft, hevents⟩ := hquiet (fun t => (t.withBack (f t.back).1, (f t.back).2)) fun t => by
      rw [back_withoutNotes, withBack_withoutNotes]
    exact ⟨hleft, htold hevents⟩

/-- **Two runs look the same to a socket that hears of no message whose note differs.** -/
theorem delivered_eq (verify : String → Option UserRole) (h : Handshake) (mode : Mode) (run run' : List Moment)
    (hrun : Unwinding.Alongside Site.next (Unheard h) (.start mode) run run') :
    delivered (h.rooms verify) mode run = delivered (h.rooms verify) mode run' :=
  hrun.heard (fun s s' => s.withoutNotes = s'.withoutNotes)
    (fun _ _ _ _ hs hx => act_unheard hs hx) rfl

end

/-! ## one message -/

/-- a reporter's message in the zone, with these number and text -/
def sampleMessage (fromPhone text : String) : WhatsAppWebhookRequest :=
  ⟨.whatsappCloud, "m-1", fromPhone, "0x1111111111111111111111111111111111111111", sampleZone, some sampleTime, text,
    some .gridDown⟩

def sampleLabDraw : LabDraw :=
  ⟨⟨⟨"e1", "p1", "c1", sampleTime, fun _ => 0⟩, "d1", fun _ _ => "g1"⟩, "r1", sampleTime, fun _ => "d2"⟩

theorem sampleLabDraw_blind : sampleLabDraw.Blind := fun _ => rfl

def sampleMoment (fromPhone text : String) : Moment :=
  (.request (.webhook (sampleMessage fromPhone text)) sampleLabDraw sampleLabDraw_blind, true)

/-- two messages that differ, and a socket that asked for no zone -/
theorem delivered_elsewhere : letI := JsText.asciiRuntime
    delivered (Handshake.rooms (fun _ => none) ⟨none, none⟩) .database [sampleMoment "+2348030000001" "no light here"] =
      delivered (Handshake.rooms (fun _ => none) ⟨none, none⟩) .database
        [sampleMoment "+2348030000002" "still dark"] := by
  let _ := JsText.asciiRuntime
  refine delivered_eq (fun _ => none) ⟨none, none⟩ .database _ _ ⟨⟨?_, rfl, ?_⟩, trivial⟩
  · exact .message (sampleMessage "+2348030000001" "no light here") "+2348030000002" "still dark" sampleLabDraw
      sampleLabDraw_blind (Option.some_ne_none _)
  · rintro ⟨-, -, hzone⟩
    cases hzone

/-- a socket without a token, in the zone's room, is told the phone number and the text -/
theorem overheard : letI := JsText.asciiRuntime
    ∃ (h : Handshake) (mode : Mode) (run run' : List Moment), h.token = none ∧
      Unwinding.Alongside Site.next (fun _ x x' => Alike x.1 x'.1 ∧ x.2 = x'.2) (.start mode) run run' ∧
      delivered (h.rooms fun _ => none) mode run ≠ delivered (h.rooms fun _ => none) mode run' := by
  let _ := JsText.asciiRuntime
  refine ⟨⟨some sampleZone, none⟩, .memory, [sampleMoment "+2348030000001" "no light here"],
    [sampleMoment "+2348030000002" "no light here"], rfl, ⟨⟨?_, rfl⟩, trivial⟩, ?_⟩
  · exact .message (sampleMessage "+2348030000001" "no light here") "+2348030000002" "no light here" sampleLabDraw
      sampleLabDraw_blind (Option.some_ne_none _)
  · intro heq
    have hhead (fromPhone : String) : (delivered (Handshake.rooms (fun _ => none) ⟨some sampleZone, none⟩)
        .memory [sampleMoment fromPhone "no light here"]).head? = some (.evidenceReceived (fresh (.memory .empty)
          (.webhook (sampleMessage fromPhone "no light here"), sampleLabDraw.toDraw))) := by
      obtain ⟨later, hlater⟩ := publish_new (.memory .empty .empty)
        (.webhook (sampleMessage fromPhone "no light here")) sampleLabDraw rfl rfl
      show (((Site.memory .empty .empty).publish _ _).2.flatMap (DomainEvent.received _) ++ []).head? = _
      rw [hlater]
      rfl
    have hevent := (hhead "+2348030000001").symm.trans ((congrArg List.head? heq).trans (hhead "+2348030000002"))
    have hnote := congrArg (fun e : EvidenceEvent => e.rawPayload.note)
      (Message.evidenceReceived.inj (Option.some.inj hevent))
    exact absurd hnote (by decide)

end Ingestion
