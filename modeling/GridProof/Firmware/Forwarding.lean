import GridProof.Firmware.Payload
import GridProof.Firmware.QueueRuns

/-!
# Store and forward

A record is sent to both sinks as soon as it is captured; where one of them does not take it, it is put into the
queue, and sent again from there, oldest first and at most five a cycle.

* `encode`, `decode`     a record as its 62 bytes;
* `Sinks`                what the clock, the network and the sinks answer in one delivery;
* `deliverRecord`        both sinks; `deliver_iff` says when a record is finished with;
* `postTelemetry`, `flushQueue`   the two parts of a cycle, on a flash without limits.
-/

namespace Firmware
open Outage

/-! ## the bytes of a record -/

def wordBytes (x : BitVec 32) : List Byte :=
  [x.setWidth 8, (x >>> 8).setWidth 8, (x >>> 16).setWidth 8, (x >>> 24).setWidth 8]

/-- the word at an index, low byte first -/
def wordAt (bytes : List Byte) (i : ℕ) : BitVec 32 :=
  bytes.getD (i + 3) 0 ++ bytes.getD (i + 2) 0 ++ bytes.getD (i + 1) 0 ++ bytes.getD i 0

/-- the words of the readings, in the order of the struct -/
def Readings.words (x : Readings) : List (BitVec 32) :=
  [x.I_L1, x.I_L2, x.I_L3, x.V_L12, x.V_L23, x.V_L31, x.activePowerInst, x.reactivePowerInst, x.apparentPowerInst,
    x.powerFactorAvg, x.freqAvg, x.activeEnergyTot, x.reactiveEnergyTot, x.apparentEnergyTot]

/-- the packed struct in memory -/
def encode (rec : TelemetryRecord) : Block where
  bytes := wordBytes rec.timestamp ++ (BitVec.ofNat 8 rec.meterIndex.val :: rec.online ::
    rec.readings.words.flatMap wordBytes)
  length_eq := rfl

def readingsAt (bytes : List Byte) : Readings where
  I_L1 := wordAt bytes 6
  I_L2 := wordAt bytes 10
  I_L3 := wordAt bytes 14
  V_L12 := wordAt bytes 18
  V_L23 := wordAt bytes 22
  V_L31 := wordAt bytes 26
  activePowerInst := wordAt bytes 30
  reactivePowerInst := wordAt bytes 34
  apparentPowerInst := wordAt bytes 38
  powerFactorAvg := wordAt bytes 42
  freqAvg := wordAt bytes 46
  activeEnergyTot := wordAt bytes 50
  reactiveEnergyTot := wordAt bytes 54
  apparentEnergyTot := wordAt bytes 58

/-- `none` where the meter index is not one of the two that the tables have -/
def decode (b : Block) : Option TelemetryRecord :=
  let meterIndex := (b.bytes.getD 4 0).toNat
  if h : meterIndex < 2 then
    some ⟨wordAt b.bytes 0, ⟨meterIndex, h⟩, b.bytes.getD 5 0, readingsAt b.bytes⟩
  else none

theorem word_bytes (x : BitVec 32) :
    (x >>> 24).setWidth 8 ++ (x >>> 16).setWidth 8 ++ (x >>> 8).setWidth 8 ++ x.setWidth 8 = x := by
  apply BitVec.eq_of_getElem_eq
  intro i hi
  simp only [BitVec.getElem_append, BitVec.getElem_setWidth, BitVec.getLsbD_ushiftRight]
  split
  · exact BitVec.getLsbD_eq_getElem hi
  · split
    · rw [show 8 + (i - 8) = i by omega]
      exact BitVec.getLsbD_eq_getElem hi
    · split
      · rw [show 16 + (i - 8 - 8) = i by omega]
        exact BitVec.getLsbD_eq_getElem hi
      · rw [show 24 + (i - 8 - 8 - 8) = i by omega]
        exact BitVec.getLsbD_eq_getElem hi

/-- a record is read from its bytes -/
theorem decode_encode (rec : TelemetryRecord) : decode (encode rec) = some rec := by
  obtain ⟨timestamp, meterIndex, online, x⟩ := rec
  have hindex : (BitVec.ofNat 8 meterIndex.val).toNat = meterIndex.val := by
    rw [BitVec.toNat_ofNat]
    have := meterIndex.isLt
    omega
  have hlt : ((encode ⟨timestamp, meterIndex, online, x⟩).bytes.getD 4 0).toNat < 2 := by
    show (BitVec.ofNat 8 meterIndex.val).toNat < 2
    rw [hindex]
    exact meterIndex.isLt
  have hreadings : readingsAt (encode ⟨timestamp, meterIndex, online, x⟩).bytes = x := by
    obtain ⟨⟩ := x
    unfold readingsAt
    congr 1
    all_goals exact word_bytes _
  unfold decode
  rw [dif_pos hlt, hreadings]
  congr 2
  · exact word_bytes timestamp
  · exact Fin.ext hindex

/-! ## the sinks -/

/-- the answers that one delivery gets -/
structure Sinks where
  /-- `time(nullptr)` -/
  now : BitVec 32
  /-- whether the broker is connected, or could be -/
  mqttReconnect : Bool
  publish : Bool
  /-- `WiFi.status() == WL_CONNECTED` -/
  wifi : Bool
  /-- `http.begin` -/
  begun : Bool
  /-- the status of the POST, negative where there is none -/
  code : Int

def minPlausibleEpoch : ℕ := 1700000000

def maxRecordAge : ℕ := 23 * 3600

def gridProofRecordExpired (now : BitVec 32) (rec : TelemetryRecord) : Bool :=
  if now.toNat < minPlausibleEpoch then false
  else decide (rec.timestamp.toNat < now.toNat) && decide (maxRecordAge < (now - rec.timestamp).toNat)

/-- both sinks are enabled, as the source ships them -/
def sendRecordMQTT (e : Sinks) : Bool :=
  if !e.mqttReconnect then false else e.publish

/-- what it returns, and `permanentFailure` -/
def sendRecordGridProof (cfg : Config) (e : Sinks) (rec : TelemetryRecord) : Bool × Bool :=
  if rec.timestamp.toNat < minPlausibleEpoch then (false, true)
  else if gridProofRecordExpired e.now rec then (false, true)
  else if !e.wifi then (false, false)
  else
    match buildGridProofPayload cfg rec 640 with
    | none => (false, true)
    | some _ =>
      if !e.begun then (false, false)
      else if e.code = 200 ∨ e.code = 202 then (true, false)
      else if e.code = 429 then (false, false)
      else if 400 ≤ e.code ∧ e.code < 500 then (false, true)
      else (false, false)

def deliverRecord (cfg : Config) (e : Sinks) (rec : TelemetryRecord) : Bool :=
  let mqttOk := sendRecordMQTT e
  let (gpOk, gpPermanent) := sendRecordGridProof cfg e rec
  mqttOk && (gpOk || gpPermanent)

/-! ## when a record is finished with -/

/-- MQTT took it -/
def MqttAccepted (e : Sinks) : Prop := e.mqttReconnect = true ∧ e.publish = true

/-- the record is sent to GridProof -/
def Posted (cfg : Config) (e : Sinks) (rec : TelemetryRecord) : Prop :=
  minPlausibleEpoch ≤ rec.timestamp.toNat ∧ gridProofRecordExpired e.now rec = false ∧ e.wifi = true ∧
    buildGridProofPayload cfg rec 640 ≠ none ∧ e.begun = true

def GridProofAccepted (cfg : Config) (e : Sinks) (rec : TelemetryRecord) : Prop :=
  Posted cfg e rec ∧ (e.code = 200 ∨ e.code = 202)

/-- the answer is one that another try would get again -/
def GridProofRefused (cfg : Config) (e : Sinks) (rec : TelemetryRecord) : Prop :=
  Posted cfg e rec ∧ e.code ≠ 429 ∧ 400 ≤ e.code ∧ e.code < 500

/-- the record is not sent, and never will be: it is from before the clock was set, or too old by now, or its body
does not fit -/
def GivenUp (cfg : Config) (e : Sinks) (rec : TelemetryRecord) : Prop :=
  rec.timestamp.toNat < minPlausibleEpoch ∨ gridProofRecordExpired e.now rec = true ∨
    e.wifi = true ∧ buildGridProofPayload cfg rec 640 = none

theorem mqtt_iff (e : Sinks) : sendRecordMQTT e = true ↔ MqttAccepted e := by
  unfold sendRecordMQTT MqttAccepted
  cases e.mqttReconnect with
  | false => exact ⟨nofun, nofun⟩
  | true => exact ⟨fun h => ⟨rfl, h⟩, fun h => h.2⟩

theorem gridProof_iff (cfg : Config) (e : Sinks) (rec : TelemetryRecord) :
    ((sendRecordGridProof cfg e rec).1 || (sendRecordGridProof cfg e rec).2) = true ↔
      GridProofAccepted cfg e rec ∨ GridProofRefused cfg e rec ∨ GivenUp cfg e rec := by
  unfold sendRecordGridProof GridProofAccepted GridProofRefused GivenUp Posted
  by_cases hepoch : rec.timestamp.toNat < minPlausibleEpoch
  · rw [if_pos hepoch]
    exact ⟨fun _ => .inr (.inr (.inl hepoch)), fun _ => rfl⟩
  rw [if_neg hepoch]
  have hknown := Nat.not_lt.mp hepoch
  cases hexpired : gridProofRecordExpired e.now rec with
  | true => exact ⟨fun _ => .inr (.inr (.inr (.inl rfl))), fun _ => rfl⟩
  | false =>
    cases hwifi : e.wifi with
    | false => simp [hknown]
    | true =>
      cases hbody : buildGridProofPayload cfg rec 640 with
      | none => simp
      | some body =>
        cases hbegun : e.begun with
        | false => simp [hknown]
        | true =>
          by_cases hok : e.code = 200 ∨ e.code = 202
          · simp [hok, hknown]
          by_cases hlimited : e.code = 429
          · simp [hlimited, hknown]
          by_cases hrefused : 400 ≤ e.code ∧ e.code < 500
          · simp [hok, hlimited, hrefused, hknown]
          · simp [hok, hlimited, hrefused, hknown]

/-- **A record is finished with** when MQTT took it, and GridProof took it, or refused it for good, or it is not
sent there any more. -/
theorem deliver_iff (cfg : Config) (e : Sinks) (rec : TelemetryRecord) : deliverRecord cfg e rec = true ↔
    MqttAccepted e ∧ (GridProofAccepted cfg e rec ∨ GridProofRefused cfg e rec ∨ GivenUp cfg e rec) := by
  rw [← mqtt_iff, ← gridProof_iff]
  exact Bool.and_eq_true_iff

/-! ## a cycle -/

/-- `MAX_FLUSH_PER_LOOP` -/
def maxFlushPerLoop : ℕ := 5

inductive Cycle where
  /-- a meter was read, and its record is sent -/
  | post (now : BitVec 32) (meterIndex : Fin 2) (online : Bool) (x : Readings) (e : Sinks)
  /-- `env` is what the deliveries get, one after the other -/
  | flush (wifi : Bool) (env : ℕ → Sinks)

/-- a record that was sent, with the answers it got -/
abbrev Delivery := TelemetryRecord × Sinks

def postTelemetry (cfg : Config) (e : Sinks) (rec : TelemetryRecord) (s : Flash) : Flash :=
  if !deliverRecord cfg e rec then (enqueueRecord .unlimited (encode rec) s).2 else s

/-- the loop of `flushQueue`, before its `i`-th delivery; `left` is how many it may still make -/
def flushLoop (cfg : Config) (env : ℕ → Sinks) : ℕ → ℕ → Flash → Flash × List Delivery
  | 0, _, s => (s, [])
  | left + 1, i, s =>
    match (dequeuePeekRecord s).bind decode with
    | none => (s, [])
    | some rec =>
      if deliverRecord cfg (env i) rec then
        let (t, sent) := flushLoop cfg env left (i + 1) (dequeueAdvance .unlimited s).2
        (t, (rec, env i) :: sent)
      else (s, [(rec, env i)])

def flushQueue (cfg : Config) (wifi : Bool) (env : ℕ → Sinks) (s : Flash) : Flash × List Delivery :=
  let backlog := queueRecordCount s
  if backlog = 0 then (s, [])
  else if !wifi then (s, [])
  else flushLoop cfg env maxFlushPerLoop 0 s

/-- the flash after a part of a cycle, and what was sent -/
def cycleStep (cfg : Config) (s : Flash) : Cycle → Flash × List Delivery
  | .post now meterIndex online x e =>
    let record := makeRecord now meterIndex online x
    (postTelemetry cfg e record s, [(record, e)])
  | .flush wifi env => flushQueue cfg wifi env s

end Firmware
