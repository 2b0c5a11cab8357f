import GridProof.Ingestion.ExactlyOnce
import GridProof.Uplink.Arrival
import GridProof.Uplink.Exchange

/-!
# Every captured reading is delivered once

What a device has captured and what the database has of it, after any run: whatever is lost, delayed or repeated on
the way, whichever statements fail, and whatever else the instances do meanwhile.

* `sent_captured`   a device sends only what it has captured;
* `run_protocol`    a run of the device and the cloud is one of the protocol;
* `all_delivered`   every captured record waits in the queue, or its row is in the database, or the device has its
                    reason; and the rows under the keys of the device are of captured records, one for a key, and
                    stay as they are.
-/

namespace Uplink
open Firmware Acknowledged Keyed
open Ingestion (EvidenceEvent TelemetryEnv)

/-! ## what is sent was captured -/

section
variable (cfg : Config)

theorem waiting_captured {l : Ledger} {rec : TelemetryRecord} (h : rec ∈ waiting l) : rec ∈ l.map Prod.fst := by
  obtain ⟨entry, hentry, rfl⟩ := List.mem_map.mp h
  exact List.mem_map_of_mem (List.mem_of_mem_filter hentry)

theorem ledgerFlush_captured (env : ℕ → Sinks) (left i : ℕ) (l : Ledger) :
    ∀ d ∈ (ledgerFlush cfg env left i l).2, d.1 ∈ l.map Prod.fst := by
  induction left generalizing i l with
  | zero => exact fun _ hd => absurd hd List.not_mem_nil
  | succ left ih =>
    unfold ledgerFlush
    cases hhead : (waiting l).head? with
    | none => exact fun _ hd => absurd hd List.not_mem_nil
    | some rec =>
      have hrec : rec ∈ l.map Prod.fst := waiting_captured (List.mem_of_head? hhead)
      dsimp only
      split
      · intro d hd
        rcases List.mem_cons.mp hd with rfl | hd
        · exact hrec
        · rw [← captured_settleOldest (.finished (env i)) l]
          exact ih _ _ d hd
      · intro d hd
        rw [List.mem_singleton.mp hd]
        exact hrec

theorem ledgerStep_captured (l : Ledger) (c : Cycle) :
    ∀ d ∈ (ledgerStep cfg l c).2, d.1 ∈ (ledgerStep cfg l c).1.map Prod.fst := by
  rw [captured_ledgerStep]
  cases c with
  | post now meterIndex online x e =>
    intro d hd
    rw [List.mem_singleton.mp hd]
    exact List.mem_append_right _ (List.mem_singleton_self _)
  | flush wifi env =>
    intro d hd
    refine List.mem_append_left _ ?_
    unfold ledgerStep at hd
    dsimp only at hd
    split at hd
    · exact ledgerFlush_captured cfg env _ _ l d hd
    · exact absurd hd List.not_mem_nil

/-- **A device sends only what it has captured.** -/
theorem sent_captured (cycles : List Cycle) (l : Ledger) :
    ∀ d ∈ (answers (ledgerStep cfg) l cycles).flatMap Prod.snd,
      d.1 ∈ l.map Prod.fst ++ cycles.filterMap Cycle.record := by
  induction cycles generalizing l with
  | nil => exact fun _ hd => absurd hd List.not_mem_nil
  | cons c cycles ih =>
    intro d hd
    rw [answers_cons, List.flatMap_cons] at hd
    have hcons : l.map Prod.fst ++ (c :: cycles).filterMap Cycle.record =
        (ledgerStep cfg l c).1.map Prod.fst ++ cycles.filterMap Cycle.record := by
      rw [captured_ledgerStep, List.append_assoc, List.filterMap_cons]
      cases c.record with
      | none => rfl
      | some rec => rfl
    rw [hcons]
    rcases List.mem_append.mp hd with hd | hd
    · exact List.mem_append_left _ (ledgerStep_captured cfg l c d hd)
    · exact ih _ d hd

end

/-! ## runs -/

def Action.cycle? : Action → Option Cycle
  | .cloud _ => none
  | .cycle c _ => some c

/-- what happens in the cloud in an action -/
def Action.events : Action → List Event
  | .cloud event => [event]
  | .cycle _ xs => xs.flatMap Exchange.during

def cyclesOf (actions : List Action) : List Cycle := actions.filterMap Action.cycle?

/-- the records that a run captures -/
def capturedIn (actions : List Action) : List TelemetryRecord := (cyclesOf actions).filterMap Cycle.record

section
variable [JsText.Runtime] {env : TelemetryEnv} {cfg : Config} {s t : State} {actions : List Action}

/-- the flash of a run is that of its cycles -/
theorem run_flash (h : Runs.run (State.next env cfg) s actions = some t) :
    t.flash = final (cycleStep cfg) s.flash (cyclesOf actions) := by
  induction actions generalizing s with
  | nil =>
    obtain rfl := Option.some.inj h
    rfl
  | cons a actions ih =>
    obtain ⟨u, hnext, hrest⟩ := Runs.run_cons_eq_some h
    rw [ih hrest]
    cases a with
    | cloud event =>
      obtain ⟨cloud, -, rfl⟩ := Option.map_eq_some_iff.mp hnext
      rfl
    | cycle c xs =>
      obtain ⟨cloud, -, rfl⟩ := Option.map_eq_some_iff.mp hnext
      rfl

variable (hcfg : cfg.Identities env.zod) (hparse : ReadsUtc env.parse)
include hcfg hparse

/-- the deliveries of a cycle, in the protocol -/
theorem Represents.exchanges {c c' : Cloud} {l : Link TelemetryRecord String EvidenceEvent} {sent : List Delivery}
    {xs : List Exchange} (hc : Represents cfg c l) (hforeign : ∀ e ∈ xs.flatMap Exchange.during, e.Foreign cfg)
    (h : c.exchanges env cfg sent xs = some c') :
    ∃ l', (protocol cfg).Reaches l l' ∧ (∀ rec ∈ l'.sent, rec ∈ l.sent ∨ rec ∈ sent.map Prod.fst) ∧
      (∀ d ∈ sent, GridProofAccepted cfg d.2 d.1 → d.1 ∈ l'.acked) ∧ Represents cfg c' l' := by
  induction sent generalizing c l xs with
  | nil =>
    cases xs with
    | nil =>
      obtain rfl := Option.some.inj h
      exact ⟨l, .refl, fun _ hrec => .inl hrec, fun _ hd => absurd hd List.not_mem_nil, hc⟩
    | cons x xs => cases h
  | cons d sent ih =>
    obtain ⟨rec, e⟩ := d
    unfold Cloud.exchanges at h
    cases hbody : postedBody cfg e rec with
    | none =>
      rw [hbody] at h
      obtain ⟨l', hreach, hsent, hacked, hc'⟩ := ih hc hforeign h
      refine ⟨l', hreach, fun r hr => (hsent r hr).imp_right (List.mem_cons_of_mem _), fun d hd haccepted => ?_, hc'⟩
      rcases List.mem_cons.mp hd with rfl | hd
      · rw [postedBody_iff.mpr ⟨haccepted.1, rfl⟩] at hbody
        cases hbody
      · exact hacked d hd haccepted
    | some body =>
      obtain ⟨-, rfl⟩ := postedBody_iff.mp hbody
      rw [hbody] at h
      cases xs with
      | nil => cases h
      | cons x xs =>
        rw [List.flatMap_cons] at hforeign
        obtain ⟨c₁, hexchange, hrest⟩ := Option.bind_eq_some_iff.mp h
        obtain ⟨l₁, hreach₁, hsent₁, hacked₁, hc₁⟩ :=
          hc.exchange hcfg hparse (fun e he => hforeign e (List.mem_append_left _ he)) hexchange
        obtain ⟨l', hreach, hsent, hacked, hc'⟩ :=
          ih hc₁ (fun e he => hforeign e (List.mem_append_right _ he)) hrest
        refine ⟨l', hreach₁.trans hreach, fun r hr => ?_, fun d hd haccepted => ?_, hc'⟩
        · rcases hsent r hr with hr | hr
          · rw [hsent₁] at hr
            rcases Set.mem_insert_iff.mp hr with rfl | hr
            · exact .inr List.mem_cons_self
            · exact .inl hr
          · exact .inr (List.mem_cons_of_mem _ hr)
        · rcases List.mem_cons.mp hd with rfl | hd
          · exact hreach.grows.2 (hacked₁ haccepted.2)
          · exact hacked d hd haccepted

/-- **A run of the device and the cloud is one of the protocol.** -/
theorem run_protocol {l : Link TelemetryRecord String EvidenceEvent} (hs : Represents cfg s.cloud l)
    (hforeign : ∀ a ∈ actions, ∀ e ∈ a.events, e.Foreign cfg)
    (h : Runs.run (State.next env cfg) s actions = some t) :
    let sent := (answers (cycleStep cfg) s.flash (cyclesOf actions)).flatMap Prod.snd
    ∃ l', (protocol cfg).Reaches l l' ∧ (∀ rec ∈ l'.sent, rec ∈ l.sent ∨ rec ∈ sent.map Prod.fst) ∧
      (∀ d ∈ sent, GridProofAccepted cfg d.2 d.1 → d.1 ∈ l'.acked) ∧ Represents cfg t.cloud l' := by
  induction actions generalizing s l with
  | nil =>
    obtain rfl := Option.some.inj h
    exact ⟨l, .refl, fun _ hrec => .inl hrec, fun _ hd => absurd hd List.not_mem_nil, hs⟩
  | cons a actions ih =>
    obtain ⟨hfirst, hothers⟩ := List.forall_mem_cons.mp hforeign
    obtain ⟨u, hnext, hrest⟩ := Runs.run_cons_eq_some h
    cases a with
    | cloud event =>
      obtain ⟨cloud, hcloud, rfl⟩ := Option.map_eq_some_iff.mp hnext
      obtain ⟨l₁, hreach₁, hsent₁, -, hu⟩ :=
        hs.next hcfg hparse (hfirst event (List.mem_singleton_self event)) hcloud
      obtain ⟨l', hreach, hsent, hacked, ht⟩ := ih hu hothers hrest
      exact ⟨l', hreach₁.trans hreach, fun rec hrec => (hsent rec hrec).imp_left fun hr => hsent₁ ▸ hr, hacked, ht⟩
    | cycle c xs =>
      obtain ⟨cloud, hcloud, rfl⟩ := Option.map_eq_some_iff.mp hnext
      obtain ⟨l₁, hreach₁, hsent₁, hacked₁, hu⟩ := hs.exchanges hcfg hparse hfirst hcloud
      obtain ⟨l', hreach, hsent, hacked, ht⟩ := ih hu hothers hrest
      refine ⟨l', hreach₁.trans hreach, fun rec hrec => ?_, fun d hd haccepted => ?_, ht⟩
      · show _ ∨ rec ∈ ((cycleStep cfg s.flash c).2 ++ _).map Prod.fst
        rw [List.map_append, List.mem_append]
        rcases hsent rec hrec with hr | hr
        · exact (hsent₁ rec hr).imp_right .inl
        · exact .inr (.inr hr)
      · rcases List.mem_append.mp (show d ∈ (cycleStep cfg s.flash c).2 ++ _ from hd) with hd | hd
        · exact hreach.grows.2 (hacked₁ d hd haccepted)
        · exact hacked d hd haccepted

end

/-! ## what is delivered -/

/-- the row under the key of a record -/
def State.row? (cfg : Config) (t : State) (rec : TelemetryRecord) : Option EvidenceEvent :=
  t.cloud.database.evidence.get? (makeIdempotencyKey cfg rec 48)

/-- what a device has captured, and what the database has of it -/
structure Delivered (cfg : Config) (actions : List Action) (t : State) : Prop where
  queue : readable t.flash = (waiting (ledger cfg (cyclesOf actions))).map encode
  captured : (ledger cfg (cyclesOf actions)).map Prod.fst = capturedIn actions
  /-- a record that the device is done with -/
  finished : ∀ rec e, (rec, .finished e) ∈ ledger cfg (cyclesOf actions) → MqttAccepted e ∧
    (t.row? cfg rec ≠ none ∨ GridProofRefused cfg e rec ∨ GivenUp cfg e rec)
  /-- a record that the device has no room for -/
  evicted : ∀ rec n, (rec, .evicted n) ∈ ledger cfg (cyclesOf actions) → maxQueueBytes < recordSize * n + recordSize
  /-- a record that GridProof took counts, also while it still waits for the other sink -/
  acknowledged : ∀ d ∈ deliveries cfg (cyclesOf actions), GridProofAccepted cfg d.2 d.1 → t.row? cfg d.1 ≠ none
  /-- nothing is made up under the keys of the device -/
  origin : ∀ rec row, t.row? cfg rec = some row → ∃ rec' ∈ capturedIn actions,
    makeIdempotencyKey cfg rec' 48 = makeIdempotencyKey cfg rec 48 ∧
      ∃ draw, row = Ingestion.evidenceRow (evidenceOf cfg rec') draw
  /-- and nothing counts twice -/
  once : ∀ rec, (t.cloud.database.evidence.values.map EvidenceEvent.idempotencyKey).count
    (makeIdempotencyKey cfg rec 48) = if t.row? cfg rec = none then 0 else 1

/-- what became of a record that a delivery was done with -/
def Done (cfg : Config) (e : Sinks) (rec : TelemetryRecord) : Prop :=
  MqttAccepted e ∧ (GridProofAccepted cfg e rec ∨ GridProofRefused cfg e rec ∨ GivenUp cfg e rec)

/-- the flash and the deliveries of a run, by its ledger -/
theorem ledger_run (cfg : Config) (cycles : List Cycle) :
    answers (cycleStep cfg) .blank cycles = answers (ledgerStep cfg) [] cycles ∧
      Backs (final (cycleStep cfg) .blank cycles) (waiting (ledger cfg cycles)) ∧
      Accounted (Done cfg) (deliveries cfg cycles) (ledger cfg cycles) := by
  obtain ⟨hanswers, hbacks⟩ := (Keyed.along_true (cycleStep cfg) .blank cycles).simulates (t := []) (ledgerStep cfg)
    (fun s l => Backs s (waiting l)) (fun s l c hb _ => cycleStep_backs hb c) blank_backs
  have hnone : Accounted (Done cfg) [] [] :=
    ⟨fun _ _ h => absurd h List.not_mem_nil, fun _ _ h => absurd h List.not_mem_nil, .nil⟩
  have haccounted := accounted_run cycles (fun e rec => (deliver_iff cfg e rec).mp) hnone
  rw [← hanswers] at haccounted
  exact ⟨hanswers, hbacks, haccounted⟩

section
variable [JsText.Runtime] {env : TelemetryEnv} {cfg : Config} {t : State} {actions : List Action}

/-- what GridProof took is in the database -/
theorem accepted_kept (hcfg : cfg.Identities env.zod) (hparse : ReadsUtc env.parse)
    (hforeign : ∀ a ∈ actions, ∀ e ∈ a.events, e.Foreign cfg)
    (h : Runs.run (State.next env cfg) .start actions = some t) :
    ∀ d ∈ deliveries cfg (cyclesOf actions), GridProofAccepted cfg d.2 d.1 → t.row? cfg d.1 ≠ none := by
  obtain ⟨l, hreach, -, hacked, hrep⟩ := run_protocol hcfg hparse (s := .start) .start hforeign h
  intro d hd haccepted
  obtain ⟨-, row, hrow⟩ := (hreach.sound .start).acked d.1 (hacked d hd haccepted)
  unfold State.row?
  rw [hrep.store]
  exact fun hno => Option.some_ne_none row (hrow.symm.trans hno)

/-- a row that is stored stays as it is -/
theorem row_stays (hcfg : cfg.Identities env.zod) (hparse : ReadsUtc env.parse) {before after : List Action} {s : State}
    (hforeign : ∀ a ∈ before ++ after, ∀ e ∈ a.events, e.Foreign cfg)
    (hs : Runs.run (State.next env cfg) .start before = some s) (h : Runs.run (State.next env cfg) s after = some t)
    {rec : TelemetryRecord} {row : EvidenceEvent} (hrow : s.row? cfg rec = some row) : t.row? cfg rec = some row := by
  obtain ⟨l, -, -, -, hl⟩ :=
    run_protocol hcfg hparse (s := .start) .start (fun a ha => hforeign a (List.mem_append_left _ ha)) hs
  obtain ⟨l', hreach, -, -, hl'⟩ := run_protocol hcfg hparse hl (fun a ha => hforeign a (List.mem_append_right _ ha)) h
  unfold State.row? at hrow ⊢
  rw [hl.store] at hrow
  rw [hl'.store]
  exact hreach.keeps hrow

/-- what a run has delivered -/
theorem run_delivered (hcfg : cfg.Identities env.zod) (hparse : ReadsUtc env.parse)
    (hforeign : ∀ a ∈ actions, ∀ e ∈ a.events, e.Foreign cfg)
    (h : Runs.run (State.next env cfg) .start actions = some t) : Delivered cfg actions t := by
  obtain ⟨l, hreach, hsent, -, hrep⟩ := run_protocol hcfg hparse (s := .start) .start hforeign h
  have hkept := accepted_kept hcfg hparse hforeign h
  obtain ⟨hanswers, hbacks, haccounted⟩ := ledger_run cfg (cyclesOf actions)
  constructor
  · rw [run_flash h]
    exact hbacks.read
  · exact captured_run cfg (cyclesOf actions) []
  · intro rec e hmem
    obtain ⟨hd, hmqtt, hdone⟩ := haccounted.finished rec e hmem
    exact ⟨hmqtt, hdone.imp_left (hkept (rec, e) hd)⟩
  · exact haccounted.evicted
  · exact hkept
  · intro rec row hrow
    unfold State.row? at hrow
    rw [hrep.store] at hrow
    obtain ⟨rec', hmem, hkey, draw, rfl⟩ := (hreach.sound .start).origin _ ⟨rec, rfl⟩ row hrow
    refine ⟨rec', ?_, hkey, draw, rfl⟩
    rcases hsent rec' hmem with hno | hmem
    · exact absurd hno (Set.notMem_empty rec')
    · obtain ⟨d, hd, rfl⟩ := List.mem_map.mp hmem
      have hd : d ∈ (answers (cycleStep cfg) .blank (cyclesOf actions)).flatMap Prod.snd := hd
      rw [hanswers] at hd
      exact sent_captured cfg (cyclesOf actions) [] d hd
  · intro rec
    unfold State.row?
    split
    · rename_i hno
      refine List.count_eq_zero_of_not_mem fun hmem => ?_
      obtain ⟨row, hrow, hkey⟩ := List.mem_map.mp hmem
      obtain ⟨key, hget⟩ := OrderedMap.mem_values.mp hrow
      rw [← hrep.keyed key row hget, hkey, hno] at hget
      cases hget
    · rename_i hsome
      exact OrderedMap.count_values hrep.keyed hsome

/-- **Every captured record waits in the queue, or its row is in the database, or it was refused, given up or evicted;
and every row under a key of the device is the only one of its key and of a captured record, and stays as it was when
it was stored.** -/
theorem all_delivered (hcfg : cfg.Identities env.zod) (hparse : ReadsUtc env.parse)
    (hforeign : ∀ a ∈ actions, ∀ e ∈ a.events, e.Foreign cfg)
    (h : Runs.run (State.next env cfg) .start actions = some t) :
    Delivered cfg actions t ∧ ∀ before after s, actions = before ++ after →
      Runs.run (State.next env cfg) .start before = some s →
        ∀ rec row, s.row? cfg rec = some row → t.row? cfg rec = some row := by
  refine ⟨run_delivered hcfg hparse hforeign h, ?_⟩
  rintro before after s rfl hs rec row hrow
  rw [Runs.run_append, hs, Option.bind_some] at h
  exact row_stays hcfg hparse hforeign hs h hrow

/-! ## an answer that is lost -/

/-- a cycle of the device, by its ledger -/
theorem next_cycle {s : State} {l l' : Ledger} {c : Cycle} {sent : List Delivery} {xs : List Exchange} {cloud : Cloud}
    (hs : Backs s.flash (waiting l)) (hstep : ledgerStep cfg l c = (l', sent))
    (h : s.cloud.exchanges env cfg sent xs = some cloud) :
    ∃ flash, State.next env cfg s (.cycle c xs) = some ⟨flash, cloud⟩ ∧ Backs flash (waiting l') := by
  obtain ⟨hsent, hbacks⟩ : (cycleStep cfg s.flash c).2 = (ledgerStep cfg l c).2 ∧ _ := cycleStep_backs hs c
  rw [hstep] at hsent hbacks
  refine ⟨(cycleStep cfg s.flash c).1, ?_, hbacks⟩
  show (s.cloud.exchanges env cfg (cycleStep cfg s.flash c).2 xs).map _ = _
  rw [hsent, h]
  rfl

end

/-- an API that shares the secret of the devices -/
def sampleEnv : TelemetryEnv where
  zod := Ingestion.utcZod
  evidenceMode := none
  rateLimit := ⟨none, none, false⟩
  window := .default
  parse text := some ⟨text, Calendar.readMicros text⟩
  production := true
  hmacSecret := some "telemetry-secret"
  rejectionsHandled := false

theorem installed_identities : installed.Identities Ingestion.utcZod :=
  ⟨by decide +kernel, by decide +kernel, by decide +kernel, by decide +kernel⟩

theorem sampleEnv_configured : letI := JsText.asciiRuntime
    Configured sampleEnv installed := by
  let _ := JsText.asciiRuntime
  exact ⟨installed_identities, Ingestion.utcZod_acceptsUtc, readsUtc_readMicros, rfl, rfl, by decide⟩

def sampleArrival (now : ℕ) : Arrival where
  ip := none
  remoteAddress := none
  clock := ⟨now, now, now, now, now, now⟩
  attempt := .lost
  now := now

def sampleRecord : TelemetryRecord := makeRecord 1800000000 (Fin.last 1) true .zero

/-- the row is stored, but the instance is gone before it answers -/
def lostExchange : Exchange where
  during := [.arrive 0 0 (sampleArrival 1800000012000), .statement 0 (Ingestion.sampleStepDraw 0), .abandon 0]
  answer := none

/-- another instance answers the retry with 200 -/
def retryExchange : Exchange where
  during := [.arrive 1 1 (sampleArrival 1800000024000), .statement 1 (Ingestion.sampleStepDraw 1),
    .statement 1 (Ingestion.sampleStepDraw 2), .statement 1 (Ingestion.sampleStepDraw 3)]
  answer := some 1

/-- a record that nobody takes at first, and whose first answer does not come -/
def lostAnswer : List Action := [
  .cycle (.post 1800000000 (Fin.last 1) true .zero (.down 1800000000)) [],
  .cycle (.flush true fun _ => ⟨1800000012, true, true, true, true, -1⟩) [lostExchange],
  .cycle (.flush true fun _ => ⟨1800000024, true, true, true, true, 200⟩) [retryExchange]]

theorem sampleRecord_posted {e : Sinks} (hfresh : gridProofRecordExpired e.now sampleRecord = false)
    (hwifi : e.wifi = true) (hbegun : e.begun = true) : Posted installed e sampleRecord := by
  refine ⟨by decide, hfresh, hwifi, ?_, hbegun⟩
  rw [buildGridProofPayload_fits installed_identities.fits]
  exact Option.some_ne_none _

section
variable {cfg : Config} {env : ℕ → Sinks} {rec : TelemetryRecord}

theorem flush_one_failed (h : deliverRecord cfg (env 0) rec = false) :
    ledgerStep cfg [(rec, .waiting)] (.flush true env) = ([(rec, .waiting)], [(rec, env 0)]) := by
  unfold ledgerStep maxFlushPerLoop ledgerFlush
  dsimp only
  rw [if_pos rfl]
  show (if deliverRecord cfg (env 0) rec = true then _ else _) = _
  rw [h, if_neg Bool.false_ne_true]

theorem flush_one_done (h : deliverRecord cfg (env 0) rec = true) :
    ledgerStep cfg [(rec, .waiting)] (.flush true env) = ([(rec, .finished (env 0))], [(rec, env 0)]) := by
  unfold ledgerStep maxFlushPerLoop ledgerFlush
  dsimp only
  rw [if_pos rfl]
  show (if deliverRecord cfg (env 0) rec = true then _ else _) = _
  rw [h, if_pos rfl]
  rfl

end

theorem lostAnswer_ledger : ledgerStep installed [] (.post 1800000000 (Fin.last 1) true .zero (.down 1800000000)) =
      ([(sampleRecord, .waiting)], [(sampleRecord, .down 1800000000)]) ∧
    ledgerStep installed [(sampleRecord, .waiting)] (.flush true fun _ => ⟨1800000012, true, true, true, true, -1⟩) =
      ([(sampleRecord, .waiting)], [(sampleRecord, ⟨1800000012, true, true, true, true, -1⟩)]) ∧
    ledgerStep installed [(sampleRecord, .waiting)] (.flush true fun _ => ⟨1800000024, true, true, true, true, 200⟩) =
      ([(sampleRecord, .finished ⟨1800000024, true, true, true, true, 200⟩)],
        [(sampleRecord, ⟨1800000024, true, true, true, true, 200⟩)]) := by
  have hlost : deliverRecord installed ⟨1800000012, true, true, true, true, -1⟩ sampleRecord = false := by
    obtain ⟨hepoch, hfresh, hwifi, hbody, -⟩ :=
      sampleRecord_posted (e := ⟨1800000012, true, true, true, true, -1⟩) rfl rfl rfl
    refine Bool.eq_false_iff.mpr fun h => ?_
    rcases ((deliver_iff _ _ _).mp h).2 with ⟨-, hcode | hcode⟩ | ⟨-, -, hcode, -⟩ | hold | hold | ⟨-, hnone⟩
    · cases hcode
    · cases hcode
    · exact absurd hcode (by decide)
    · exact Nat.not_lt.mpr hepoch hold
    · exact Bool.noConfusion (hfresh.symm.trans hold)
    · exact hbody hnone
  have htaken : deliverRecord installed ⟨1800000024, true, true, true, true, 200⟩ sampleRecord = true :=
    (deliver_iff _ _ _).mpr ⟨⟨rfl, rfl⟩, .inl ⟨sampleRecord_posted rfl rfl rfl, .inl rfl⟩⟩
  exact ⟨rfl, flush_one_failed hlost, flush_one_done htaken⟩

theorem lostAnswer_foreign : ∀ a ∈ lostAnswer, ∀ e ∈ a.events, e.Foreign installed := by
  simp [lostAnswer, Action.events, lostExchange, retryExchange, Event.Foreign]

/-- the states of the run, and what is sent in each cycle -/
theorem lostAnswer_steps : letI := JsText.asciiRuntime
    ∃ s₁ s₂ s₃, State.next sampleEnv installed .start
        (.cycle (.post 1800000000 (Fin.last 1) true .zero (.down 1800000000)) []) = some s₁ ∧
      State.next sampleEnv installed s₁
        (.cycle (.flush true fun _ => ⟨1800000012, true, true, true, true, -1⟩) [lostExchange]) = some s₂ ∧
      State.next sampleEnv installed s₂
        (.cycle (.flush true fun _ => ⟨1800000024, true, true, true, true, 200⟩) [retryExchange]) = some s₃ ∧
      Backs s₁.flash [sampleRecord] ∧ Backs s₂.flash [sampleRecord] ∧ s₂.row? installed sampleRecord ≠ none := by
  let _ := JsText.asciiRuntime
  obtain ⟨hqueued, hretried, hdone⟩ := lostAnswer_ledger
  let text := (gridProofBody installed sampleRecord).text
  let input := evidenceOf installed sampleRecord
  have hlower : LowersAscii := fun _ _ => rfl
  have hposted {e : Sinks} (hfresh : gridProofRecordExpired e.now sampleRecord = false) (hwifi : e.wifi = true)
      (hbegun : e.begun = true) : Posted installed e sampleRecord := sampleRecord_posted hfresh hwifi hbegun
  have harrive := arrive_fresh hlower sampleEnv_configured
    (hposted (e := ⟨1800000012, true, true, true, true, -1⟩) rfl rfl rfl) (by decide)
    (a := sampleArrival 1800000012000) (by decide) (show (Cloud.start.post text).posts[0]? = some text from rfl)
    (show ((Cloud.start.post text).apis 0).running = true from rfl) (limiter_start rfl rfl _)
  obtain ⟨c₂, hlost, hposts, hapi, hids, hrow, hhandlings⟩ :
      ∃ c₂, Cloud.start.exchange sampleEnv text (-1) lostExchange = some c₂ ∧ c₂.posts = [text] ∧ c₂.apis 1 = .start ∧
        c₂.database.evidence.values.map EvidenceEvent.id = ["e0"] ∧
        c₂.database.evidence.get? input.idempotencyKey ≠ none ∧
        c₂.handlings = [⟨some 0, some input, .finished, none⟩] := by
    refine ⟨_, exchange_of_run (x := lostExchange) (run_stored (Ingestion.sampleStepDraw 0) harrive
      List.not_mem_nil) ⟨by decide, by decide⟩, rfl, rfl, rfl, ?_, rfl⟩
    rw [insertEvidence_get?, if_pos ⟨rfl, rfl⟩]
    exact Option.some_ne_none _
  have hposts' : (c₂.post text).posts[1]? = some text := by
    show (c₂.posts ++ [text])[1]? = _
    rw [hposts]
    rfl
  have harrive' := arrive_fresh hlower sampleEnv_configured
    (hposted (e := ⟨1800000024, true, true, true, true, 200⟩) rfl rfl rfl) (by decide)
    (a := sampleArrival 1800000024000) (by decide) hposts'
    (show ((c₂.post text).apis 1).running = true from congrArg Ingestion.Api.running hapi) (limiter_start hapi rfl _)
  have hretry := run_duplicate (Ingestion.sampleStepDraw 1) (Ingestion.sampleStepDraw 2) (Ingestion.sampleStepDraw 3)
    harrive' hrow (by
      show _ ∉ c₂.database.evidence.values.map EvidenceEvent.id
      rw [hids]
      decide)
  rw [show (c₂.post text).handlings.length = 1 from congrArg List.length hhandlings] at hretry
  obtain ⟨c₃, hc₃⟩ : ∃ c₃, c₂.exchange sampleEnv text 200 retryExchange = some c₃ := by
    refine ⟨_, exchange_of_run (x := retryExchange) hretry ⟨⟨some 1, some input, .finished, some 200⟩, ?_, ?_, rfl⟩⟩
    · show _ ∈ (c₂.handlings ++ _)[1]?
      rw [hhandlings]
      exact rfl
    · rw [hposts]
      rfl
  -- the cycles
  have hnothing : Cloud.start.exchanges sampleEnv installed [(sampleRecord, .down 1800000000)] [] = some .start :=
    exchanges_silent fun h => Bool.noConfusion h.2.2.1
  have hfirst : Cloud.start.exchanges sampleEnv installed
      [(sampleRecord, ⟨1800000012, true, true, true, true, -1⟩)] [lostExchange] = some c₂ :=
    exchanges_posted (hposted rfl rfl rfl) hlost
  have hsecond : c₂.exchanges sampleEnv installed
      [(sampleRecord, ⟨1800000024, true, true, true, true, 200⟩)] [retryExchange] = some c₃ :=
    exchanges_posted (hposted rfl rfl rfl) hc₃
  obtain ⟨flash₁, hpost, hbacks₁⟩ := next_cycle (s := .start) (l := []) blank_backs hqueued hnothing
  obtain ⟨flash₂, hflush, hbacks₂⟩ := next_cycle (s := ⟨flash₁, .start⟩) hbacks₁ hretried hfirst
  obtain ⟨flash₃, hflush', -⟩ := next_cycle (s := ⟨flash₂, c₂⟩) hbacks₂ hdone hsecond
  exact ⟨_, _, _, hpost, hflush, hflush', hbacks₁, hbacks₂, hrow⟩

theorem lostAnswer_run : letI := JsText.asciiRuntime
    ∃ s t, Runs.run (State.next sampleEnv installed) .start (lostAnswer.take 2) = some s ∧
      s.row? installed sampleRecord ≠ none ∧ Runs.run (State.next sampleEnv installed) .start lostAnswer = some t ∧
      ledger installed (cyclesOf lostAnswer) =
        [(sampleRecord, .finished ⟨1800000024, true, true, true, true, 200⟩)] := by
  let _ := JsText.asciiRuntime
  obtain ⟨hqueued, hretried, hdone⟩ := lostAnswer_ledger
  obtain ⟨s₁, s₂, s₃, hpost, hflush, hflush', -, -, hrow⟩ := lostAnswer_steps
  refine ⟨s₂, s₃, ?_, hrow, ?_, ?_⟩
  · unfold lostAnswer
    rw [List.take_succ_cons, List.take_succ_cons, List.take_zero, Runs.run_cons, hpost, Option.bind_some,
      Runs.run_cons, hflush, Option.bind_some, Runs.run_nil]
  · unfold lostAnswer
    rw [Runs.run_cons, hpost, Option.bind_some, Runs.run_cons, hflush, Option.bind_some, Runs.run_cons, hflush',
      Option.bind_some, Runs.run_nil]
  · have hcycles : cyclesOf lostAnswer = [.post 1800000000 (Fin.last 1) true .zero (.down 1800000000),
        .flush true fun _ => ⟨1800000012, true, true, true, true, -1⟩,
        .flush true fun _ => ⟨1800000024, true, true, true, true, 200⟩] := rfl
    rw [hcycles]
    unfold ledger final
    rw [hqueued]
    unfold final
    rw [hretried]
    unfold final
    rw [hdone]
    rfl

/-- the row that the first POST left is there after the second -/
theorem delivered_lost_answer : letI := JsText.asciiRuntime
    ∃ s t row, Runs.run (State.next sampleEnv installed) .start (lostAnswer.take 2) = some s ∧
      s.row? installed sampleRecord = some row ∧ Runs.run (State.next sampleEnv installed) .start lostAnswer = some t ∧
      ledger installed (cyclesOf lostAnswer) =
        [(sampleRecord, .finished ⟨1800000024, true, true, true, true, 200⟩)] ∧
      Delivered installed lostAnswer t ∧ t.row? installed sampleRecord = some row := by
  let _ := JsText.asciiRuntime
  obtain ⟨s, t, hbefore, hstored, hrun, hledger⟩ := lostAnswer_run
  obtain ⟨row, hrow⟩ := Option.ne_none_iff_exists'.mp hstored
  obtain ⟨hdelivered, hstays⟩ := all_delivered installed_identities readsUtc_readMicros lostAnswer_foreign hrun
  exact ⟨s, t, row, hbefore, hrow, hrun, hledger, hdelivered,
    hstays (lostAnswer.take 2) (lostAnswer.drop 2) s (List.take_append_drop 2 lostAnswer).symm hbefore _ row hrow⟩

end Uplink
