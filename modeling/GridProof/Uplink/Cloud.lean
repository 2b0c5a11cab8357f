import GridProof.Lib.DateText
import GridProof.Lib.Runs
import GridProof.Firmware.Verified
import GridProof.Ingestion.Silencing
import GridProof.Ingestion.TaskEffect

/-!
# The other end of a POST

What becomes of the bodies that devices put on the network, with a database behind any number of API instances.  A
body may arrive at once, late, more than once or never.  An accepted request is handled one statement at a time, next
to others; any of its statements may fail, and its instance may go away.

* `TelemetryBody.request`   what `upsertTelemetryEvidence` is given;
* `Cloud.arrive`            the route of `POST /telemetry` up to the store;
* `Cloud.next`              what may happen on the network and at the API;
* `request_received`        the request that a record's body becomes.
-/

namespace Uplink
open Firmware
open Pipeline (IsoDate)
open Ingestion (EvidenceEvent TelemetryBody TelemetryIngestRequest TelemetryCall TelemetryEnv DatabaseEvidence
  Database Task StepDraw Api telemetry telemetryEvidence jsonBody)
open NumberText (Number)

/-! ## the request -/

/-- `none` for infinity -/
def numberValue : Number → Option ℚ
  | .zero => some 0
  | .finite value _ _ => some value
  | .infinity => none

/-- an optional number of the body -/
def optionalValue : Option Number → Option (Option ℚ)
  | none => some none
  | some a => (numberValue a).map some

/-- the validated body as it is stored; infinity is no value of the column, nor is a time that `Date.parse` does not
know -/
def request (parse : String → Option IsoDate) (b : TelemetryBody) : Option TelemetryIngestRequest := do
  let observedAt ← parse b.observedAt
  let voltage ← optionalValue b.voltage
  let currentAmps ← optionalValue b.currentAmps
  return {
    deviceId := b.deviceId
    providerWallet := b.providerWallet
    zoneId := b.zoneId
    idempotencyKey := b.idempotencyKey
    observedAt := observedAt
    status := b.status
    voltage := voltage
    currentAmps := currentAmps }

/-! ## handlings -/

/-- a request that an instance handles -/
structure Handling where
  /-- the post that brought it, none where somebody else sent it -/
  post : Option ℕ
  /-- what it is to store, where it was accepted -/
  input : Option DatabaseEvidence
  task : Task
  /-- the status that it is answered with -/
  status : Option ℤ

/-- a duplicate is answered with 200, and what is new with 202 -/
def successStatus : Task → ℤ
  | .replyDuplicate _ => 200
  | _ => 202

/-- after a statement that leaves `task` -/
def Handling.after (h : Handling) (task : Task) : Handling :=
  { h with
    task := task
    status :=
      match task with
      | .finished => some (successStatus h.task)
      | _ => none }

/-- `next(error)` of an error without a status, or a response that its schema refuses -/
def Handling.fail (h : Handling) : Handling := { h with task := .finished, status := some 500 }

/-- the instance is gone -/
def Handling.abandon (h : Handling) : Handling := { h with task := .finished, status := none }

/-! ## the cloud -/

/-- what a request has apart from its body -/
structure Arrival where
  ip : Option String
  remoteAddress : Option String
  clock : RateLimit.Clock
  attempt : RateLimit.Attempt
  now : ℤ

def Arrival.call (a : Arrival) (v : Json.Value) : TelemetryCall where
  body := jsonBody v
  ip := a.ip
  remoteAddress := a.remoteAddress
  clock := a.clock
  attempt := a.attempt
  now := a.now

structure Cloud where
  /-- the texts that were put on the network -/
  posts : List String
  apis : ℕ → Api
  database : Database
  handlings : List Handling

def Cloud.start : Cloud := ⟨[], fun _ => .start, .empty, []⟩

def Cloud.handle (c : Cloud) (h : Handling) : Cloud := { c with handlings := c.handlings ++ [h] }

inductive Event where
  /-- a post reaches an instance; none stops it from doing so again -/
  | arrive (post instanceId : ℕ) (a : Arrival)
  /-- somebody else's request, accepted -/
  | foreign (input : DatabaseEvidence)
  | statement (handling : ℕ) (draw : StepDraw)
  | fail (handling : ℕ)
  | abandon (handling : ℕ)
  | restart (instanceId : ℕ)
  /-- sweeps, reviews and agents: the tables of the pipeline change -/
  | work (f : Pipeline.System → Pipeline.System)

section
variable [JsText.Runtime] (env : TelemetryEnv)

/-- `express.json()` and the route -/
def Cloud.arrive (c : Cloud) (post instanceId : ℕ) (a : Arrival) : Option Cloud :=
  c.posts[post]?.bind fun text =>
    match Json.parse text with
    | none => some (c.handle ⟨some post, none, .finished, some 400⟩)
    | some v =>
      let reply := telemetry env (c.apis instanceId) (a.call v)
      let c := { c with apis := Function.update c.apis instanceId reply.1 }
      match reply.2 with
      | .error e => some (c.handle ⟨some post, none, .finished, some e.statusCode⟩)
      | .accepted input =>
        (request env.parse input).map fun r =>
          c.handle ⟨some post, some (telemetryEvidence r), .insertEvidence (telemetryEvidence r), none⟩
      | .threw => some (c.handle ⟨some post, none, .finished, none⟩)
      | .down => some (c.handle ⟨some post, none, .finished, none⟩)

def Cloud.next (c : Cloud) : Event → Option Cloud
  | .arrive post instanceId a => c.arrive env post instanceId a
  | .foreign input => some (c.handle ⟨none, some input, .insertEvidence input, none⟩)
  | .statement i draw =>
    c.handlings[i]?.bind fun h => (h.task.step c.database draw).map fun o =>
      { c with database := o.database, handlings := c.handlings.set i (h.after o.task) }
  | .fail i => c.handlings[i]?.map fun h => { c with handlings := c.handlings.set i h.fail }
  | .abandon i => c.handlings[i]?.map fun h => { c with handlings := c.handlings.set i h.abandon }
  | .restart instanceId => some { c with apis := Function.update c.apis instanceId .start }
  | .work f => some { c with database := { c.database with system := f c.database.system } }

end

/-- an arrival adds a handling of its post -/
theorem Cloud.arrive_adds [JsText.Runtime] {env : TelemetryEnv} {c c' : Cloud} {post instanceId : ℕ} {a : Arrival}
    (h : c.arrive env post instanceId a = some c') :
    ∃ apis added, added.post = some post ∧ c' = { c with apis := apis, handlings := c.handlings ++ [added] } := by
  obtain ⟨text, -, htext⟩ := Option.bind_eq_some_iff.mp h
  dsimp only at htext
  split at htext
  · obtain rfl := Option.some.inj htext
    exact ⟨_, _, rfl, rfl⟩
  · split at htext
    · obtain rfl := Option.some.inj htext
      exact ⟨_, _, rfl, rfl⟩
    · obtain ⟨r, -, rfl⟩ := Option.map_eq_some_iff.mp htext
      exact ⟨_, _, rfl, rfl⟩
    · obtain rfl := Option.some.inj htext
      exact ⟨_, _, rfl, rfl⟩
    · obtain rfl := Option.some.inj htext
      exact ⟨_, _, rfl, rfl⟩

/-! ## what a statement does to the evidence -/

/-- what the task is still to insert -/
def unstored : Task → Option DatabaseEvidence
  | .insertEvidence input => some input
  | _ => none

theorem unstored_resume (rest : List Pipeline.CandidateEvent) : unstored (Ingestion.resume rest) = none := by
  cases rest with
  | nil => rfl
  | cons c rest => rfl

theorem unstored_afterStatement (phase : Pipeline.Phase) (rest : List Pipeline.CandidateEvent) :
    unstored (Ingestion.afterStatement phase rest) = none := by
  cases phase with
  | finished c => exact unstored_resume rest
  | _ => rfl

section
variable [JsText.Runtime] {d : Database} {draw : StepDraw} {task : Task} {o : Ingestion.Outcome}

/-- only the insert of a request writes evidence, and every statement leaves it behind -/
theorem step_evidence (h : task.step d draw = some o) : unstored o.task = none ∧
    ((∃ input, task = .insertEvidence input ∧ o.database.evidence =
        (Ingestion.insertEvidence d (Ingestion.evidenceRow input draw.toDraw)).1.evidence) ∨
      unstored task = none ∧ o.database.evidence = d.evidence) := by
  cases task with
  | insertEvidence input =>
    dsimp only [Task.step] at h
    split at h
    · cases h
    · obtain rfl := Option.some.inj h
      exact ⟨rfl, .inl ⟨input, rfl, rfl⟩⟩
  | findEvidence key inserted =>
    obtain ⟨e, -, rfl⟩ := Option.map_eq_some_iff.mp h
    cases inserted with
    | true => exact ⟨rfl, .inr ⟨rfl, rfl⟩⟩
    | false => exact ⟨rfl, .inr ⟨rfl, rfl⟩⟩
  | replyDuplicate e =>
    obtain rfl := Option.some.inj h
    exact ⟨rfl, .inr ⟨rfl, rfl⟩⟩
  | readRecent e =>
    dsimp only [Task.step] at h
    split at h
    · obtain rfl := Option.some.inj h
      exact ⟨rfl, .inr ⟨rfl, rfl⟩⟩
    · obtain rfl := Option.some.inj h
      exact ⟨rfl, .inr ⟨rfl, rfl⟩⟩
  | insertCandidate e c =>
    obtain ⟨⟨d', inserted⟩, hins, rfl⟩ := Option.map_eq_some_iff.mp h
    exact ⟨rfl, .inr ⟨rfl, (Ingestion.insertCandidate_inserts hins).evidence⟩⟩
  | findCandidate e =>
    dsimp only [Task.step] at h
    split at h
    · obtain rfl := Option.some.inj h
      exact ⟨rfl, .inr ⟨rfl, rfl⟩⟩
    · obtain rfl := Option.some.inj h
      exact ⟨rfl, .inr ⟨rfl, rfl⟩⟩
  | listEvidence now =>
    obtain rfl := Option.some.inj h
    exact ⟨unstored_resume _, .inr ⟨rfl, rfl⟩⟩
  | recordGaps candidates =>
    cases candidates with
    | nil => cases h
    | cons c rest =>
      obtain ⟨⟨d', recorded⟩, hins, rfl⟩ := Option.map_eq_some_iff.mp h
      have hevidence := (Ingestion.insertCandidate_inserts hins).evidence
      cases recorded with
      | true => exact ⟨rfl, .inr ⟨rfl, hevidence⟩⟩
      | false => exact ⟨unstored_resume rest, .inr ⟨rfl, hevidence⟩⟩
  | decide c rest =>
    obtain ⟨⟨system, phase⟩, -, rfl⟩ := Option.map_eq_some_iff.mp h
    exact ⟨unstored_afterStatement phase rest, .inr ⟨rfl, rfl⟩⟩
  | score phase rest =>
    obtain ⟨⟨system, phase'⟩, -, rfl⟩ := Option.map_eq_some_iff.mp h
    exact ⟨unstored_afterStatement phase' rest, .inr ⟨rfl, rfl⟩⟩
  | finished => cases h

omit [JsText.Runtime] in
/-- the insert keeps the row of a key that is taken, and stores its own under a key that is free -/
theorem insertEvidence_get? (d : Database) (row : EvidenceEvent) (key : String) :
    (Ingestion.insertEvidence d row).1.evidence.get? key =
      if d.evidence.get? row.idempotencyKey = none ∧ key = row.idempotencyKey then some row
      else d.evidence.get? key := by
  unfold Ingestion.insertEvidence
  cases hrow : d.evidence.get? row.idempotencyKey with
  | some old => rw [if_neg (fun h => by cases h.1)]
  | none =>
    dsimp only
    rw [OrderedMap.get?_set]
    by_cases he : key = row.idempotencyKey
    · rw [if_pos he, if_pos ⟨rfl, he⟩]
    · rw [if_neg he, if_neg (fun h => he h.2)]

end

/-! ## the request of a record -/

section
variable (cfg : Config)

def reading (rec : TelemetryRecord) : TelemetryIngestRequest where
  deviceId := cfg.devEui rec.meterIndex
  providerWallet := cfg.providerWallet rec.meterIndex
  zoneId := cfg.zoneId rec.meterIndex
  idempotencyKey := makeIdempotencyKey cfg rec 48
  observedAt := ⟨makeTimestamp rec.timestamp, rec.timestamp.toNat * 1000000⟩
  status := evidenceStatus (gridproofStatusFor rec)
  voltage := if gridproofVoltage rec < 0 then none else some (gridproofVoltage rec)
  currentAmps := none

/-- what is stored of a record -/
def evidenceOf (rec : TelemetryRecord) : DatabaseEvidence := telemetryEvidence (reading cfg rec)

end

/-- `Date.parse` of the seconds of the device's clock -/
def ReadsUtc (parse : String → Option IsoDate) : Prop :=
  ∀ epoch : BitVec 32, parse (makeTimestamp epoch) = some ⟨makeTimestamp epoch, epoch.toNat * 1000000⟩

theorem readsUtc_readMicros : ReadsUtc fun text => some ⟨text, Calendar.readMicros text⟩ := by
  intro epoch
  have hlt := epoch.isLt
  have hread : Calendar.readMicros (makeTimestamp epoch) = epoch.toNat * 1000000 :=
    Calendar.readMicros_isoSeconds (by omega) (by omega)
  dsimp only
  rw [hread]

theorem numberValue_ofRat {q x : ℚ} {a : Number} (h : Number.ofRat q = some a) (hx : NumberText.toDouble q = some x) :
    numberValue a = some x := by
  unfold Number.ofRat at h
  rw [hx] at h
  dsimp only at h
  split at h
  · rename_i hzero
    obtain rfl := Option.some.inj h
    rw [hzero]
    rfl
  · split at h
    · cases h
    · obtain rfl := Option.some.inj h
      rfl

/-- the voltage of a body is stored as the one that was measured -/
theorem voltage_value (cfg : Config) (rec : TelemetryRecord) {voltage : Option Number}
    (h : Ingestion.optionalNumber (bodyValue (gridProofBody cfg rec)) "voltage" = some voltage) :
    optionalValue voltage =
      some (if gridproofVoltage rec < 0 then none else some (gridproofVoltage rec : ℚ)) := by
  have hbody := body_voltage cfg rec
  have hfield : (gridProofBody cfg rec).voltage =
      if gridproofVoltage rec < 0 then none else some (gridproofVoltage rec) := rfl
  unfold Ingestion.optionalNumber bodyValue bodyMembers Json.Value.member at h
  split at hfield
  · rename_i hsilent
    rw [hfield] at h
    obtain rfl : none = voltage := by simpa using h
    rw [if_pos hsilent]
    rfl
  · rename_i hsome
    rw [if_neg hsome]
    obtain ⟨-, hnonneg, hle⟩ := hbody _ hfield
    obtain ⟨n, hn⟩ := Int.eq_ofNat_of_zero_le hnonneg
    rw [hfield, hn] at h
    have hdouble : NumberText.toDouble (n : ℚ) = some (n : ℚ) :=
      NumberText.toDouble_nat (lt_of_le_of_lt (show n ≤ 65535 by omega) (by norm_num))
    obtain ⟨a, ha, rfl⟩ : ∃ a, Number.ofRat (n : ℚ) = some a ∧ some a = voltage := by
      simpa [Json.Scalar.value, Ingestion.nonnegative] using h
    show (numberValue a).map some = _
    rw [numberValue_ofRat ha hdouble, hn]
    rfl

section
variable {cfg : Config} {rec : TelemetryRecord}

/-- **The server reads from a body what the device had measured.** -/
theorem request_received {zod : Ingestion.Zod} (hcfg : cfg.Identities zod) {parse : String → Option IsoDate}
    (hparse : ReadsUtc parse) {voltage : Option Number}
    (h : Ingestion.optionalNumber (bodyValue (gridProofBody cfg rec)) "voltage" = some voltage) :
    request parse (received (gridProofBody cfg rec) voltage) = some (reading cfg rec) := by
  have htime : parse (received (gridProofBody cfg rec) voltage).observedAt =
      some ⟨makeTimestamp rec.timestamp, rec.timestamp.toNat * 1000000⟩ := by
    show parse (snprintf 25 (makeTimestamp rec.timestamp)) = _
    rw [(hcfg.uncut rec).observedAt, hparse]
  have hvoltage : optionalValue (received (gridProofBody cfg rec) voltage).voltage = _ := voltage_value cfg rec h
  have hamps : optionalValue (received (gridProofBody cfg rec) voltage).currentAmps = some none := rfl
  unfold request
  rw [htime, hvoltage, hamps]
  rfl

theorem parse_record {zod : Ingestion.Zod} (hcfg : cfg.Identities zod) (rec : TelemetryRecord) :
    Json.parse (gridProofBody cfg rec).text = some (bodyValue (gridProofBody cfg rec)) :=
  Json.parse_plain (List.cons_ne_nil _ _) (members_plain hcfg rec)
    (body_text fun v hv => (body_voltage cfg rec v hv).2.1)

/-- two records with the same body are stored alike -/
theorem evidenceOf_text {zod : Ingestion.Zod} (hcfg : cfg.Identities zod) {parse : String → Option IsoDate}
    (hparse : ReadsUtc parse) {rec rec' : TelemetryRecord}
    (h : (gridProofBody cfg rec').text = (gridProofBody cfg rec).text) : evidenceOf cfg rec' = evidenceOf cfg rec := by
  have hvalue : bodyValue (gridProofBody cfg rec') = bodyValue (gridProofBody cfg rec) := by
    have hparsed := parse_record hcfg rec'
    rw [h, parse_record hcfg rec] at hparsed
    exact (Option.some.inj hparsed).symm
  obtain ⟨voltage, hnumber, -⟩ := optionalNumber_voltage fun v hv => (body_voltage cfg rec v hv).2
  have hnumber' := hnumber
  rw [← hvalue] at hnumber'
  have hfields := fields_received hnumber'
  rw [hvalue, fields_received hnumber] at hfields
  have hrequest := request_received hcfg hparse hnumber'
  rw [← Option.some.inj hfields, request_received hcfg hparse hnumber] at hrequest
  exact congrArg telemetryEvidence (Option.some.inj hrequest).symm

/-! ## the arrival of a record -/

/-- every error behind the rate limit has a status that refuses, or the one of a missing secret -/
theorem checkTelemetry_error [JsText.Runtime] {env : TelemetryEnv} {call : TelemetryCall} {e : RateLimit.HttpError}
    (h : Ingestion.checkTelemetry env call = .error e) : 400 ≤ e.statusCode := by
  unfold Ingestion.checkTelemetry at h
  split at h
  · rename_i e' hbody
    obtain rfl := Ingestion.Response.error.inj h
    unfold Ingestion.validateBody at hbody
    split at hbody
    · split at hbody
      · cases hbody
      · obtain rfl := Except.error.inj hbody
        exact Nat.le_refl 400
    · obtain rfl := Except.error.inj hbody
      exact Nat.le_refl 400
  · split at h
    · rename_i e' htime
      obtain rfl := Ingestion.Response.error.inj h
      unfold TelemetryEnv.validateTime at htime
      split at htime
      · cases htime
      · unfold Except.mapError at htime
        split at htime
        · obtain rfl := Except.error.inj htime
          exact Nat.le_refl 400
        · cases htime
    · unfold TelemetryEnv.handle at h
      split at h
      · split at h
        · obtain rfl := Ingestion.Response.error.inj h
          show 400 ≤ 500
          decide
        · cases h
      · split at h
        · cases h
        · obtain rfl := Ingestion.Response.error.inj h
          show 400 ≤ 401
          decide
        · cases h

theorem telemetry_error [JsText.Runtime] {env : TelemetryEnv} {api : Api} {call : TelemetryCall}
    {e : RateLimit.HttpError} (h : (telemetry env api call).2 = .error e) : 400 ≤ e.statusCode := by
  unfold telemetry at h
  split at h
  · cases h
  · split at h
    · rename_i e' hsource
      obtain rfl := Ingestion.Response.error.inj h
      unfold Ingestion.requireEvidenceSource at hsource
      split at hsource
      · obtain rfl := Option.some.inj hsource
        show 400 ≤ 500
        decide
      · split at hsource
        · cases hsource
        · obtain rfl := Option.some.inj hsource
          show 400 ≤ 403
          decide
    · dsimp only at h
      split at h
      · rename_i e' hreply
        obtain rfl := Ingestion.Response.error.inj h
        unfold RateLimit.rateLimit RateLimit.reply at hreply
        dsimp only at hreply
        split at hreply
        · obtain rfl := Option.some.inj hreply
          show 400 ≤ 429
          decide
        · cases hreply
      · split at h
        · cases h
        · exact checkTelemetry_error h

/-- an accepted body is the one of the call -/
theorem telemetry_accepted [JsText.Runtime] {env : TelemetryEnv} {api : Api} {call : TelemetryCall}
    {input : TelemetryBody} (h : (telemetry env api call).2 = .accepted input) : call.body = .telemetry input := by
  unfold telemetry at h
  split at h
  · cases h
  · split at h
    · cases h
    · dsimp only at h
      split at h
      · cases h
      · have hcheck : Ingestion.checkTelemetry env call = .accepted input := by
          split at h
          · cases h
          · exact h
        rcases Ingestion.checkTelemetry_cases env call with ⟨e, he⟩ | ⟨b, hbody, hb⟩
        · rw [he] at hcheck
          cases hcheck
        · rw [hbody]
          rw [hb] at hcheck
          unfold TelemetryEnv.handle at hcheck
          split at hcheck
          · split at hcheck
            · cases hcheck
            · exact congrArg Ingestion.JsonBody.telemetry (Ingestion.Response.accepted.inj hcheck)
          · split at hcheck
            · cases hcheck
            · cases hcheck
            · exact congrArg Ingestion.JsonBody.telemetry (Ingestion.Response.accepted.inj hcheck)

/-- what the arrival of a record's body adds -/
inductive Arrived (cfg : Config) (rec : TelemetryRecord) (post : ℕ) : Handling → Prop
  | refused (code : ℤ) (h : 400 ≤ code) : Arrived cfg rec post ⟨some post, none, .finished, some code⟩
  | unanswered : Arrived cfg rec post ⟨some post, none, .finished, none⟩
  | accepted : Arrived cfg rec post ⟨some post, some (evidenceOf cfg rec), .insertEvidence (evidenceOf cfg rec), none⟩

theorem arrive_record [JsText.Runtime] {env : TelemetryEnv} (hcfg : cfg.Identities env.zod)
    (hparse : ReadsUtc env.parse) {c c' : Cloud} {post instanceId : ℕ} {a : Arrival}
    (hpost : c.posts[post]? = some (gridProofBody cfg rec).text)
    (h : c.arrive env post instanceId a = some c') :
    ∃ apis added, Arrived cfg rec post added ∧ c' = { c with apis := apis, handlings := c.handlings ++ [added] } := by
  obtain ⟨voltage, hnumber, -⟩ := optionalNumber_voltage fun v hv => (body_voltage cfg rec v hv).2
  have hbody : jsonBody (bodyValue (gridProofBody cfg rec)) =
      .telemetry (received (gridProofBody cfg rec) voltage) := by
    unfold jsonBody
    rw [fields_received hnumber]
  unfold Cloud.arrive at h
  rw [hpost, Option.bind_some, parse_record hcfg rec] at h
  dsimp only at h
  split at h
  · rename_i e he
    obtain rfl := Option.some.inj h
    exact ⟨_, _, .refused e.statusCode (Int.ofNat_le.mpr (telemetry_error he)), rfl⟩
  · rename_i input hinput
    obtain ⟨r, hr, rfl⟩ := Option.map_eq_some_iff.mp h
    have hcall : jsonBody (bodyValue (gridProofBody cfg rec)) = .telemetry input := telemetry_accepted hinput
    obtain rfl := Ingestion.JsonBody.telemetry.inj (hbody.symm.trans hcall)
    rw [request_received hcfg hparse hnumber] at hr
    obtain rfl := Option.some.inj hr
    exact ⟨_, _, .accepted, rfl⟩
  · obtain rfl := Option.some.inj h
    exact ⟨_, _, .unanswered, rfl⟩
  · obtain rfl := Option.some.inj h
    exact ⟨_, _, .unanswered, rfl⟩

end

end Uplink
