import GridProof.Firmware.Forwarding
import GridProof.Uplink.Cloud

/-!
# The arrival of a record

A device gives a record up after 23 hours, and the API takes readings for 24: where device and API share the secret
and their clocks agree, the API takes what the device still sends, as long as the limiter has room.

* `Configured`             what the two sides have in common;
* `checkTelemetry_fresh`   the body of a fresh record passes every check behind the limiter;
* `arrive_fresh`           its arrival starts the handling that stores it;
* `run_stored`             a row that is stored before the instance goes away;
* `run_duplicate`          a retry of what is stored is answered with 200, and changes no table.
-/

namespace Uplink
open Firmware
open Ingestion (EvidenceEvent TelemetryEnv DatabaseEvidence StepDraw Api telemetry)

/-- what the two sides have in common; a record that the device still sends is not too old for the API, as long as
their clocks differ by no more than the API allows for -/
structure Configured [JsText.Runtime] (env : TelemetryEnv) (cfg : Config) : Prop where
  identities : cfg.Identities env.zod
  utc : env.zod.AcceptsUtc
  parse : ReadsUtc env.parse
  secret : env.hmacSecret = some cfg.hmacSecret
  source : Ingestion.requireEvidenceSource env.evidenceMode .sensor = none
  window : maxRecordAge * 1000 + env.window.maxClockSkewMs ≤ env.window.maxEventAgeMs

/-! ## one arrival -/

section
variable [JsText.Runtime] {env : TelemetryEnv} {cfg : Config} {rec : TelemetryRecord} {now : BitVec 32}

/-- the reading is in the window of the API -/
theorem inWindow (hconf : Configured env cfg) {e : Sinks} (hposted : Posted cfg e rec)
    (hpast : rec.timestamp.toNat ≤ e.now.toNat) {t : ℤ} (hnear : |t - e.now.toNat * 1000| ≤ env.window.maxClockSkewMs)
    {b : Ingestion.TelemetryBody} (hb : b.observedAt = makeTimestamp rec.timestamp) :
    env.validateTime b t = .ok () := by
  obtain ⟨hepoch, hfresh, -⟩ := hposted
  have hage : e.now.toNat ≤ rec.timestamp.toNat + maxRecordAge := by
    unfold gridProofRecordExpired at hfresh
    rw [if_neg (by omega), Bool.and_eq_false_iff, decide_eq_false_iff_not, decide_eq_false_iff_not] at hfresh
    rcases hfresh with hfresh | hfresh
    · omega
    · rw [BitVec.toNat_sub_of_le (BitVec.le_def.mpr hpast)] at hfresh
      omega
  have hwindow := hconf.window
  obtain ⟨hlow, hhigh⟩ := abs_le.mp hnear
  have htime : (⟨makeTimestamp rec.timestamp, rec.timestamp.toNat * 1000000⟩ : Pipeline.IsoDate).getTime =
      rec.timestamp.toNat * 1000 := by
    show ((rec.timestamp.toNat : ℤ) * 1000000) / 1000 = _
    omega
  unfold TelemetryEnv.validateTime
  rw [hb, hconf.parse]
  dsimp only
  unfold Ingestion.validateObservedAt
  rw [htime, if_neg (by omega), if_neg (by omega)]
  rfl

/-- the signature of a body is the one that the server computes -/
theorem received_signed (hlower : LowersAscii) (hcfg : cfg.Identities env.zod) {voltage : Option NumberText.Number}
    (hvoltage : voltage.map NumberText.Number.text =
      (gridProofBody cfg rec).voltage.map fun v => (toString v).toList) :
    Ingestion.isValidTelemetrySignature (received (gridProofBody cfg rec) voltage) cfg.hmacSecret = some true := by
  apply Ingestion.isValid_own
  rw [signed_received hcfg rec hvoltage]
  have hascii : ∀ c ∈ (hmacSha256Hex cfg.hmacSecret (signingString cfg rec)).toList, c.toNat < 128 :=
    fun c hc => (signature_simple _ _ c hc).2
  exact (hlower _ hascii).trans (Ingestion.asciiLower_hmacHex _ _)

/-- **The body of a fresh record passes every check behind the limiter.** -/
theorem checkTelemetry_fresh (hlower : LowersAscii) (hconf : Configured env cfg) {e : Sinks}
    (hposted : Posted cfg e rec) (hpast : rec.timestamp.toNat ≤ e.now.toNat) {a : Arrival}
    (hnear : |a.now - e.now.toNat * 1000| ≤ env.window.maxClockSkewMs) {voltage : Option NumberText.Number}
    (hnumber : Ingestion.optionalNumber (bodyValue (gridProofBody cfg rec)) "voltage" = some voltage)
    (htext : voltage.map NumberText.Number.text = (gridProofBody cfg rec).voltage.map fun v => (toString v).toList) :
    Ingestion.checkTelemetry env (a.call (bodyValue (gridProofBody cfg rec))) =
      .accepted (received (gridProofBody cfg rec) voltage) := by
  have hbody : Ingestion.jsonBody (bodyValue (gridProofBody cfg rec)) =
      .telemetry (received (gridProofBody cfg rec) voltage) := by
    unfold Ingestion.jsonBody
    rw [fields_received hnumber]
  have hvalid : Ingestion.validateBody env.zod (a.call (bodyValue (gridProofBody cfg rec))).body =
      .ok (received (gridProofBody cfg rec) voltage) := by
    show Ingestion.validateBody env.zod (Ingestion.jsonBody _) = _
    rw [hbody]
    exact if_pos (received_accepted hconf.identities hconf.utc rec voltage)
  have htime : env.validateTime (received (gridProofBody cfg rec) voltage)
      (a.call (bodyValue (gridProofBody cfg rec))).now = .ok () :=
    inWindow hconf hposted hpast hnear (hconf.identities.uncut rec).observedAt
  unfold Ingestion.checkTelemetry
  rw [hvalid]
  dsimp only
  rw [htime]
  dsimp only
  unfold TelemetryEnv.handle
  rw [hconf.secret]
  dsimp only
  rw [received_signed hlower hconf.identities htext]

/-- what the limiter says to an arrival at an instance -/
def Cloud.limiter (env : TelemetryEnv) (c : Cloud) (instanceId : ℕ) (a : Arrival) (v : Json.Value) :
    RateLimit.Counters × RateLimit.Reply :=
  RateLimit.rateLimit env.rateLimit (c.apis instanceId).counters (a.call v).limited

/-- an instance that has just started, and does not reach Redis, has room -/
theorem limiter_start {c : Cloud} {instanceId : ℕ} (hstart : c.apis instanceId = .start) {a : Arrival}
    (hlost : a.attempt = .lost) (v : Json.Value) : (c.limiter env instanceId a v).2.error = none := by
  have hcount : (RateLimit.incrementRateLimit env.rateLimit .empty ((a.call v).limited.counterKey env.rateLimit.window)
      a.clock .lost).2.count = 1 := by
    unfold RateLimit.incrementRateLimit
    split
    · rfl
    · rfl
  unfold Cloud.limiter RateLimit.rateLimit
  rw [hstart]
  show (RateLimit.reply (env.rateLimit.limit .telemetry) (RateLimit.incrementRateLimit env.rateLimit .empty _ a.clock
    a.attempt).2 _).error = none
  rw [hlost]
  unfold RateLimit.reply
  dsimp only
  rw [hcount, if_neg (Nat.not_lt.mpr (env.rateLimit.limit_pos .telemetry))]

/-- **A fresh record that arrives at an instance with room for it starts the handling that stores it.** -/
theorem arrive_fresh (hlower : LowersAscii) (hconf : Configured env cfg) {e : Sinks} (hposted : Posted cfg e rec)
    (hpast : rec.timestamp.toNat ≤ e.now.toNat) {a : Arrival}
    (hnear : |a.now - e.now.toNat * 1000| ≤ env.window.maxClockSkewMs) {c : Cloud} {post instanceId : ℕ}
    (hpost : c.posts[post]? = some (gridProofBody cfg rec).text) (hrunning : (c.apis instanceId).running = true)
    (hroom : (c.limiter env instanceId a (bodyValue (gridProofBody cfg rec))).2.error = none) :
    c.arrive env post instanceId a = some { c with
      apis := Function.update c.apis instanceId
        ⟨(c.limiter env instanceId a (bodyValue (gridProofBody cfg rec))).1, true⟩
      handlings := c.handlings ++
        [⟨some post, some (evidenceOf cfg rec), .insertEvidence (evidenceOf cfg rec), none⟩] } := by
  obtain ⟨voltage, hnumber, htext⟩ := optionalNumber_voltage fun v hv => (body_voltage cfg rec v hv).2
  have hcheck := checkTelemetry_fresh hlower hconf hposted hpast hnear hnumber htext
  have hreply : telemetry env (c.apis instanceId) (a.call (bodyValue (gridProofBody cfg rec))) =
      (⟨(c.limiter env instanceId a (bodyValue (gridProofBody cfg rec))).1, true⟩,
        .accepted (received (gridProofBody cfg rec) voltage)) := by
    unfold telemetry
    rw [hrunning, if_neg (Bool.noConfusion : true ≠ false), hconf.source]
    unfold Cloud.limiter at hroom ⊢
    dsimp only
    rw [hroom, hcheck]
  unfold Cloud.arrive
  rw [hpost, Option.bind_some, parse_record hconf.identities rec]
  dsimp only
  rw [hreply]
  dsimp only
  rw [request_received hconf.identities hconf.parse hnumber]
  rfl

end

/-! ## two handlings -/

section
variable [JsText.Runtime] {env : TelemetryEnv} {c : Cloud} {post instanceId : ℕ} {a : Arrival}
  {input : DatabaseEvidence} {apis : ℕ → Api}

/-- the statement of the last handling -/
theorem next_statement {h : Handling} {handlings : List Handling} (hc : c.handlings = handlings ++ [h])
    {draw : StepDraw} {o : Ingestion.Outcome} (ho : h.task.step c.database draw = some o) :
    c.next env (.statement handlings.length draw) =
      some { c with database := o.database, handlings := handlings ++ [h.after o.task] } := by
  show (c.handlings[handlings.length]?.bind _) = _
  rw [hc, List.getElem?_concat_length, Option.bind_some, ho]
  show some { c with database := o.database, handlings := (handlings ++ [h]).set _ _ } = _
  rw [List.set_append_right _ _ (Nat.le_refl _), Nat.sub_self]
  rfl

theorem step_insert {d : Ingestion.Database} {draw : StepDraw}
    (hid : draw.evidenceId ∉ d.evidence.values.map EvidenceEvent.id) :
    (Ingestion.Task.insertEvidence input).step d draw =
      some ⟨(Ingestion.insertEvidence d (Ingestion.evidenceRow input draw.toDraw)).1,
        .findEvidence input.idempotencyKey (Ingestion.insertEvidence d (Ingestion.evidenceRow input draw.toDraw)).2,
        none⟩ :=
  if_neg hid

/-- the row is stored, and the instance goes away -/
theorem run_stored (draw : StepDraw)
    (harrive : c.arrive env post instanceId a = some { c with
      apis := apis, handlings := c.handlings ++ [⟨some post, some input, .insertEvidence input, none⟩] })
    (hid : draw.evidenceId ∉ c.database.evidence.values.map EvidenceEvent.id) :
    Runs.run (Cloud.next env) c [.arrive post instanceId a, .statement c.handlings.length draw,
      .abandon c.handlings.length] = some { c with
        apis := apis
        database := (Ingestion.insertEvidence c.database (Ingestion.evidenceRow input draw.toDraw)).1
        handlings := c.handlings ++ [⟨some post, some input, .finished, none⟩] } := by
  rw [Runs.run_cons]
  show (c.arrive env post instanceId a).bind _ = _
  rw [harrive, Option.bind_some, Runs.run_cons, next_statement rfl (step_insert hid), Option.bind_some, Runs.run_cons]
  show (((c.handlings ++ [_])[c.handlings.length]?).map _).bind _ = _
  rw [List.getElem?_concat_length, Option.map_some, Option.bind_some, List.set_append_right _ _ (Nat.le_refl _),
    Nat.sub_self]
  rfl

/-- **A retry of what is stored is answered with 200, and changes no table.** -/
theorem run_duplicate (draw draw' draw'' : StepDraw)
    (harrive : c.arrive env post instanceId a = some { c with
      apis := apis, handlings := c.handlings ++ [⟨some post, some input, .insertEvidence input, none⟩] })
    (hrow : c.database.evidence.get? input.idempotencyKey ≠ none)
    (hid : draw.evidenceId ∉ c.database.evidence.values.map EvidenceEvent.id) :
    Runs.run (Cloud.next env) c [.arrive post instanceId a, .statement c.handlings.length draw,
      .statement c.handlings.length draw', .statement c.handlings.length draw''] = some { c with
        apis := apis, handlings := c.handlings ++ [⟨some post, some input, .finished, some 200⟩] } := by
  obtain ⟨row, hrow⟩ := Option.ne_none_iff_exists'.mp hrow
  have hkept : Ingestion.insertEvidence c.database (Ingestion.evidenceRow input draw.toDraw) = (c.database, false) := by
    unfold Ingestion.insertEvidence
    rw [show (Ingestion.evidenceRow input draw.toDraw).idempotencyKey = input.idempotencyKey from rfl, hrow]
  have hinsert : (Ingestion.Task.insertEvidence input).step c.database draw =
      some ⟨c.database, .findEvidence input.idempotencyKey false, none⟩ := by
    rw [step_insert hid, hkept]
  have hfind : (Ingestion.Task.findEvidence input.idempotencyKey false).step c.database draw' =
      some ⟨c.database, .replyDuplicate (Ingestion.mapEvidenceRow row), none⟩ := by
    show (Ingestion.findEvidenceByIdempotencyKey c.database input.idempotencyKey).map _ = _
    unfold Ingestion.findEvidenceByIdempotencyKey
    rw [hrow]
    rfl
  rw [Runs.run_cons]
  show (c.arrive env post instanceId a).bind _ = _
  rw [harrive, Option.bind_some, Runs.run_cons, next_statement rfl hinsert, Option.bind_some, Runs.run_cons,
    next_statement rfl hfind, Option.bind_some, Runs.run_cons, next_statement rfl rfl]
  rfl

end

end Uplink
