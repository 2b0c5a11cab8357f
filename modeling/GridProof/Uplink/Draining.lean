import Mathlib.Data.Fintype.EquivFin
import GridProof.Uplink.Unrefused

/-!
# The queue is emptied

Whatever a run has left behind (lost answers, failed statements, instances that are gone, requests that nobody
finished), it blocks nothing: as soon as both sides are up, every waiting record leaves the queue, five in a flush, and
what is not too old is in the database.

* `State.Serves`        both sides are up in a flush;
* `flush_all`           what a flush sends where everything is taken;
* `exchange_possible`   a POST that two instances get, one of which goes away, is answered with 200;
* `drains`              from every state that can be reached, every run of flushes empties the queue while both sides
                        are up, and there is one.
-/

namespace Uplink
open Firmware Acknowledged Keyed
open Ingestion (EvidenceEvent TelemetryEnv StepDraw)

/-! ## one POST -/

/-- there is always a fresh id -/
theorem exists_freshId (ids : List String) : ∃ id : String, id ∉ ids := by
  obtain ⟨id, hid⟩ := Infinite.exists_notMem_finset ids.toFinset
  exact ⟨id, fun hmem => hid (List.mem_toFinset.mpr hmem)⟩

def drawOf (id : String) : StepDraw where
  evidenceId := id
  providerId := id
  candidateId := id
  now := ⟨"", 0⟩
  rank _ := 0
  decisionId := id
  gapIds _ _ := id

/-- the device is up: the broker takes what is published, and a request goes out -/
structure Up (e : Sinks) : Prop where
  mqttReconnect : e.mqttReconnect = true
  publish : e.publish = true
  wifi : e.wifi = true
  begun : e.begun = true

/-- both sinks take what they get, and GridProof has it already -/
def Sinks.taken (now : BitVec 32) : Sinks := ⟨now, true, true, true, true, 200⟩

theorem taken_up (now : BitVec 32) : Up (Sinks.taken now) := ⟨rfl, rfl, rfl, rfl⟩

section
variable [JsText.Runtime] {env : TelemetryEnv} {cfg : Config} {c : Cloud} {rec : TelemetryRecord} {now : BitVec 32}

/-- an arrival at the clock of the device -/
def arrivalAt (now : BitVec 32) : Arrival := ⟨none, none, ⟨0, 0, 0, 0, 0, 0⟩, .lost, (now.toNat : ℤ) * 1000⟩

/-- an instance that has just started takes a fresh record -/
theorem arrive_started (hlower : LowersAscii) (hconf : Configured env cfg) (hskew : 0 ≤ env.window.maxClockSkewMs)
    (hposted : Posted cfg (Sinks.taken now) rec) (hpast : rec.timestamp.toNat ≤ now.toNat) {post : ℕ}
    (hpost : c.posts[post]? = some (gridProofBody cfg rec).text) (hstart : c.apis 0 = .start) :
    ∃ apis, c.arrive env post 0 (arrivalAt now) = some { c with
      apis := apis, handlings := c.handlings ++
        [⟨some post, some (evidenceOf cfg rec), .insertEvidence (evidenceOf cfg rec), none⟩] } := by
  have hnear : |(arrivalAt now).now - (Sinks.taken now).now.toNat * 1000| ≤ env.window.maxClockSkewMs := by
    show |(now.toNat : ℤ) * 1000 - now.toNat * 1000| ≤ _
    rwa [sub_self, abs_zero]
  exact ⟨_, arrive_fresh hlower hconf hposted hpast hnear hpost (congrArg Ingestion.Api.running hstart)
    (limiter_start hstart rfl _)⟩

/-- **A POST that arrives twice, at an instance that goes away when it has stored the row and at the one that takes its
place, is answered with 200.** -/
theorem exchange_possible (hlower : LowersAscii) (hconf : Configured env cfg) (hskew : 0 ≤ env.window.maxClockSkewMs)
    (c : Cloud) (hposted : Posted cfg (Sinks.taken now) rec) (hpast : rec.timestamp.toNat ≤ now.toNat) :
    ∃ x c', c.exchange env (gridProofBody cfg rec).text 200 x = some c' ∧ (∀ e ∈ x.during, e.Foreign cfg) ∧
      Served env (Sinks.taken now) rec x := by
  let text := (gridProofBody cfg rec).text
  let c₁ : Cloud := { c.post text with apis := Function.update c.apis 0 .start }
  have hposts : (c.post text).posts[c.posts.length]? = some text := List.getElem?_concat_length
  have hstart (apis : ℕ → Ingestion.Api) : Function.update apis 0 .start 0 = .start := Function.update_self 0 _ apis
  -- the row is stored
  obtain ⟨apis, harrive⟩ := arrive_started hlower hconf hskew hposted hpast (c := c₁) hposts (hstart c.apis)
  obtain ⟨id, hid⟩ := exists_freshId (c₁.database.evidence.values.map EvidenceEvent.id)
  have hstored := run_stored (drawOf id) harrive hid
  let database := (Ingestion.insertEvidence c.database
    (Ingestion.evidenceRow (evidenceOf cfg rec) (drawOf id).toDraw)).1
  have hrow : database.evidence.get? (evidenceOf cfg rec).idempotencyKey ≠ none := by
    rw [insertEvidence_get?]
    split
    · exact Option.some_ne_none _
    · rename_i hkept
      exact fun hnone => hkept ⟨hnone, rfl⟩
  -- and found
  let c₂ : Cloud := ⟨c.posts ++ [text], Function.update apis 0 .start, database,
    c.handlings ++ [⟨some c.posts.length, some (evidenceOf cfg rec), .finished, none⟩]⟩
  obtain ⟨apis', harrive'⟩ := arrive_started hlower hconf hskew hposted hpast (c := c₂) hposts (hstart apis)
  obtain ⟨id', hid'⟩ := exists_freshId (c₂.database.evidence.values.map EvidenceEvent.id)
  have hfound := run_duplicate (drawOf id') (drawOf id') (drawOf id') harrive' hrow hid'
  let x : Exchange := ⟨.restart 0 :: ([.arrive c.posts.length 0 (arrivalAt now),
    .statement c₁.handlings.length (drawOf id), .abandon c₁.handlings.length] ++ .restart 0 :: [.arrive c.posts.length 0 (arrivalAt now),
    .statement c₂.handlings.length (drawOf id'), .statement c₂.handlings.length (drawOf id'),
    .statement c₂.handlings.length (drawOf id')]), some c₂.handlings.length⟩
  let h : Handling := ⟨some c.posts.length, some (evidenceOf cfg rec), .finished, some 200⟩
  let c₃ : Cloud := { c₂ with apis := apis', handlings := c₂.handlings ++ [h] }
  have hrun : Runs.run (Cloud.next env) (c.post text) x.during = some c₃ := by
    refine (Runs.run_cons _ _ _ _).trans ?_
    show Runs.run (Cloud.next env) c₁ _ = _
    rw [Runs.run_append, hstored, Option.bind_some]
    exact hfound
  refine ⟨x, c₃, exchange_of_run hrun ⟨h, List.getElem?_concat_length, rfl, rfl⟩, ?_, hpast, ?_, ?_, ?_, ?_⟩
  · simp [x, Event.Foreign]
  · intro post instanceId a ha
    obtain rfl : a = arrivalAt now := by
      simp only [x, List.mem_cons, List.mem_append, List.not_mem_nil, or_false, reduceCtorEq, false_or,
        Event.arrive.injEq] at ha
      exact ha.elim (fun ha => ha.2.2) fun ha => ha.2.2
    show |(now.toNat : ℤ) * 1000 - now.toNat * 1000| ≤ _
    rwa [sub_self, abs_zero]
  · simp [x]
  · exact show (200 : ℤ) ≠ 429 by decide
  · exact Option.some_ne_none _

end

/-! ## a flush -/

section
variable (cfg : Config)

/-- what GridProof does not take is not sent there any more -/
theorem deliver_up {e : Sinks} {rec : TelemetryRecord} (hup : Up e)
    (hcode : Posted cfg e rec → e.code = 200 ∨ e.code = 202) : deliverRecord cfg e rec = true := by
  refine (deliver_iff _ _ _).mpr ⟨⟨hup.mqttReconnect, hup.publish⟩, ?_⟩
  by_cases hepoch : rec.timestamp.toNat < minPlausibleEpoch
  · exact .inr (.inr (.inl hepoch))
  by_cases hexpired : gridProofRecordExpired e.now rec = true
  · exact .inr (.inr (.inr (.inl hexpired)))
  by_cases hbody : buildGridProofPayload cfg rec 640 = none
  · exact .inr (.inr (.inr (.inr ⟨hup.wifi, hbody⟩)))
  · have hposted : Posted cfg e rec :=
      ⟨Nat.not_lt.mp hepoch, Bool.eq_false_iff.mpr hexpired, hup.wifi, hbody, hup.begun⟩
    exact .inl ⟨hposted, hcode hposted⟩

/-- **A flush where everything is taken sends the oldest records of the queue.** -/
theorem flush_all {env : ℕ → Sinks} {left i : ℕ} {l : Ledger}
    (h : ∀ d ∈ (ledgerFlush cfg env left i l).2, deliverRecord cfg d.2 d.1 = true) :
    waiting (ledgerFlush cfg env left i l).1 = (waiting l).drop left ∧
      (ledgerFlush cfg env left i l).2.map Prod.fst = (waiting l).take left := by
  induction left generalizing i l with
  | zero => exact ⟨rfl, rfl⟩
  | succ left ih =>
    unfold ledgerFlush at h ⊢
    cases hwaiting : waiting l with
    | nil => exact ⟨hwaiting, rfl⟩
    | cons rec recs =>
      have hsettled : waiting (settleOldest (.finished (env i)) l) = recs := by
        rw [waiting_settleOldest rfl, hwaiting, List.tail_cons]
      rw [hwaiting] at h
      dsimp only [List.head?] at h ⊢
      by_cases hdone : deliverRecord cfg (env i) rec = true
      · rw [if_pos hdone] at h ⊢
        obtain ⟨hleft, hsent⟩ := ih fun d hd => h d (List.mem_cons_of_mem _ hd)
        rw [hsettled] at hleft hsent
        exact ⟨hleft, congrArg (rec :: ·) hsent⟩
      · rw [if_neg hdone] at h
        exact absurd (h (rec, env i) (List.mem_singleton_self _)) hdone

/-- the sinks of a delivery are those of an attempt of the flush -/
theorem flush_sinks {env : ℕ → Sinks} {left i : ℕ} {l : Ledger} {d : Delivery}
    (hd : d ∈ (ledgerFlush cfg env left i l).2) : ∃ j, d.2 = env j := by
  induction left generalizing i l with
  | zero => exact absurd hd List.not_mem_nil
  | succ left ih =>
    unfold ledgerFlush at hd
    cases hwaiting : waiting l with
    | nil =>
      rw [hwaiting] at hd
      exact absurd hd List.not_mem_nil
    | cons rec recs =>
      rw [hwaiting] at hd
      dsimp only [List.head?] at hd
      split at hd
      · rcases List.mem_cons.mp hd with rfl | hd
        · exact ⟨i, rfl⟩
        · exact ih hd
      · obtain rfl := List.mem_singleton.mp hd
        exact ⟨i, rfl⟩

theorem flush_taken (now : BitVec 32) (left i : ℕ) (l : Ledger) :
    (ledgerFlush cfg (fun _ => Sinks.taken now) left i l).2 =
      ((waiting l).take left).map fun rec => (rec, Sinks.taken now) := by
  have hsinks : ∀ d ∈ (ledgerFlush cfg (fun _ => Sinks.taken now) left i l).2, d.2 = Sinks.taken now := by
    intro d hd
    obtain ⟨-, hsinks⟩ := flush_sinks cfg hd
    exact hsinks
  have hsent := (flush_all cfg fun d hd => by
    rw [hsinks d hd]
    exact deliver_up cfg (taken_up now) fun _ => .inl rfl).2
  rw [← hsent, List.map_map]
  refine ((List.map_congr_left fun d hd => ?_).trans (List.map_id _)).symm
  exact Prod.ext rfl (hsinks d hd).symm

end

/-- both sides are up in an action of the device, which is a flush; in the cloud anything may happen -/
def State.Serves (env : TelemetryEnv) (cfg : Config) (s : State) : Action → Prop
  | .cloud _ => True
  | .cycle (.post _ _ _ _ _) _ => False
  | .cycle (.flush wifi sinks) xs =>
    let sent := (cycleStep cfg s.flash (.flush wifi sinks)).2
    wifi = true ∧ (∀ d ∈ sent, Up d.2) ∧ EachExchange cfg (Served env) sent xs

/-- the deliveries of the device in a run from here -/
def State.sends (cfg : Config) (s : State) (actions : List Action) : List Delivery :=
  (answers (cycleStep cfg) s.flash (cyclesOf actions)).flatMap Prod.snd

section
variable [JsText.Runtime] {env : TelemetryEnv} {cfg : Config} (hlower : LowersAscii) (hconf : Configured env cfg)
include hlower hconf

/-- **A flush while both sides are up takes the five oldest records from the queue.** -/
theorem flush_serves {s t : State} {ledger : Ledger} {l : Link TelemetryRecord String EvidenceEvent}
    (hbacks : Backs s.flash (waiting ledger)) (hs : Represents cfg s.cloud l) {wifi : Bool} {sinks : ℕ → Sinks}
    {xs : List Exchange} (hforeign : ∀ e ∈ xs.flatMap Exchange.during, e.Foreign cfg)
    (hserves : s.Serves env cfg (.cycle (.flush wifi sinks) xs))
    (h : State.next env cfg s (.cycle (.flush wifi sinks) xs) = some t) :
    ∃ ledger', Backs t.flash (waiting ledger') ∧ waiting ledger' = (waiting ledger).drop maxFlushPerLoop ∧
      (cycleStep cfg s.flash (.flush wifi sinks)).2.map Prod.fst = (waiting ledger).take maxFlushPerLoop ∧
      ∀ d ∈ (cycleStep cfg s.flash (.flush wifi sinks)).2, Up d.2 ∧
        (Posted cfg d.2 d.1 → d.2.code = 200 ∨ d.2.code = 202) := by
  obtain ⟨rfl, hup, heach⟩ := hserves
  obtain ⟨cloud, hcloud, rfl⟩ := Option.map_eq_some_iff.mp h
  have hcodes := exchanges_succeed hlower hconf hs hforeign heach hcloud
  obtain ⟨hsent, hbacks'⟩ := @cycleStep_backs _ cfg _ hbacks (.flush true sinks)
  have hledger : ledgerStep cfg ledger (.flush true sinks) = ledgerFlush cfg sinks maxFlushPerLoop 0 ledger := rfl
  rw [hledger] at hsent hbacks'
  have hall : ∀ d ∈ (ledgerFlush cfg sinks maxFlushPerLoop 0 ledger).2, deliverRecord cfg d.2 d.1 = true := by
    rw [← hsent]
    exact fun d hd => deliver_up cfg (hup d hd) (hcodes d hd)
  obtain ⟨hleft, htaken⟩ := flush_all cfg hall
  refine ⟨_, hbacks', hleft, ?_, fun d hd => ⟨hup d hd, hcodes d hd⟩⟩
  rw [hsent]
  exact htaken

/-- **A run of flushes while both sides are up.** -/
theorem run_serves {s u : State} {ledger : Ledger} {l : Link TelemetryRecord String EvidenceEvent}
    (hbacks : Backs s.flash (waiting ledger)) (hs : Represents cfg s.cloud l) {more : List Action}
    (hforeign : ∀ a ∈ more, ∀ e ∈ a.events, e.Foreign cfg)
    (hserves : Runs.Along (State.next env cfg) (State.Serves env cfg) s more)
    (h : Runs.run (State.next env cfg) s more = some u) :
    ∃ ledger', Backs u.flash (waiting ledger') ∧
      waiting ledger' = (waiting ledger).drop (maxFlushPerLoop * (cyclesOf more).length) ∧
      (s.sends cfg more).map Prod.fst = (waiting ledger).take (maxFlushPerLoop * (cyclesOf more).length) ∧
      ∀ d ∈ s.sends cfg more, Up d.2 ∧ (Posted cfg d.2 d.1 → d.2.code = 200 ∨ d.2.code = 202) := by
  induction more generalizing s ledger l with
  | nil =>
    obtain rfl := Option.some.inj h
    exact ⟨ledger, hbacks, rfl, rfl, fun _ hd => absurd hd List.not_mem_nil⟩
  | cons a more ih =>
    obtain ⟨hfirst, hothers⟩ := List.forall_mem_cons.mp hforeign
    obtain ⟨t, hnext, hrest⟩ := Runs.run_cons_eq_some h
    have hlater := hserves.tail hnext
    cases a with
    | cloud event =>
      obtain ⟨cloud, hcloud, rfl⟩ := Option.map_eq_some_iff.mp hnext
      obtain ⟨l₁, -, -, -, ht⟩ :=
        hs.next hconf.identities hconf.parse (hfirst event (List.mem_singleton_self event)) hcloud
      exact ih (s := ⟨s.flash, cloud⟩) hbacks ht hothers hlater hrest
    | cycle c xs =>
      cases c with
      | post now meterIndex online x e => exact hserves.head.elim
      | flush wifi sinks =>
        obtain ⟨ledger₁, hbacks₁, hleft₁, htaken₁, hup₁⟩ :=
          flush_serves hlower hconf hbacks hs hfirst hserves.head hnext
        obtain ⟨cloud, hcloud, rfl⟩ := Option.map_eq_some_iff.mp hnext
        obtain ⟨l₁, -, -, -, ht⟩ := hs.exchanges hconf.identities hconf.parse hfirst hcloud
        obtain ⟨ledger', hbacks', hleft, htaken, hup⟩ := ih hbacks₁ ht hothers hlater hrest
        have hsends : s.sends cfg (.cycle (.flush wifi sinks) xs :: more) =
            (cycleStep cfg s.flash (.flush wifi sinks)).2 ++
              State.sends cfg ⟨(cycleStep cfg s.flash (.flush wifi sinks)).1, cloud⟩ more := rfl
        have hcount : maxFlushPerLoop * (cyclesOf (.cycle (.flush wifi sinks) xs :: more)).length =
            maxFlushPerLoop + maxFlushPerLoop * (cyclesOf more).length := by
          show maxFlushPerLoop * ((cyclesOf more).length + 1) = _
          rw [Nat.mul_succ, Nat.add_comm]
        rw [hcount, hsends]
        refine ⟨ledger', hbacks', ?_, ?_, fun d hd => (List.mem_append.mp hd).elim (hup₁ d) (hup d)⟩
        · rw [hleft, hleft₁, List.drop_drop]
        · rw [List.map_append, htaken₁, htaken, hleft₁, List.take_add]

/-! ## such a run -/

theorem exchanges_possible (hskew : 0 ≤ env.window.maxClockSkewMs) {now : BitVec 32} (c : Cloud)
    (recs : List TelemetryRecord) (hpast : ∀ rec ∈ recs, rec.timestamp.toNat ≤ now.toNat) :
    ∃ xs c', c.exchanges env cfg (recs.map fun rec => (rec, Sinks.taken now)) xs = some c' ∧
      (∀ e ∈ xs.flatMap Exchange.during, e.Foreign cfg) ∧
      EachExchange cfg (Served env) (recs.map fun rec => (rec, Sinks.taken now)) xs := by
  induction recs generalizing c with
  | nil => exact ⟨[], c, rfl, fun _ he => absurd he List.not_mem_nil, trivial⟩
  | cons rec recs ih =>
    obtain ⟨hfirst, hothers⟩ := List.forall_mem_cons.mp hpast
    rw [List.map_cons]
    by_cases hposted : Posted cfg (Sinks.taken now) rec
    · obtain ⟨x, c₁, hx, hforeign, hserved⟩ := exchange_possible hlower hconf hskew c hposted hfirst
      obtain ⟨xs, c', hxs, hforeign', heach⟩ := ih c₁ hothers
      refine ⟨x :: xs, c', (exchanges_posted hposted hx).trans hxs, fun e he => ?_, ?_⟩
      · rw [List.flatMap_cons] at he
        exact (List.mem_append.mp he).elim (hforeign e) (hforeign' e)
      · exact (eachExchange_posted hposted _ x xs).mpr ⟨hserved, heach⟩
    · obtain ⟨xs, c', hxs, hforeign, heach⟩ := ih c hothers
      exact ⟨xs, c', (exchanges_silent hposted).trans hxs, hforeign, (eachExchange_silent hposted _ xs).mpr heach⟩

/-- **From any cloud the queue can be flushed, as often as one likes.** -/
theorem serves_possible (hskew : 0 ≤ env.window.maxClockSkewMs) {now : BitVec 32} {s : State} {ledger : Ledger}
    (hbacks : Backs s.flash (waiting ledger)) (hpast : ∀ rec ∈ waiting ledger, rec.timestamp.toNat ≤ now.toNat)
    (n : ℕ) : ∃ more u, Runs.run (State.next env cfg) s more = some u ∧ (cyclesOf more).length = n ∧
      (∀ a ∈ more, ∀ e ∈ a.events, e.Foreign cfg) ∧
      Runs.Along (State.next env cfg) (State.Serves env cfg) s more ∧ ∀ d ∈ s.sends cfg more, d.2.now = now := by
  induction n generalizing s ledger with
  | zero =>
    exact ⟨[], s, rfl, rfl, fun _ ha => absurd ha List.not_mem_nil, trivial, fun _ hd => absurd hd List.not_mem_nil⟩
  | succ n ih =>
    let c : Cycle := .flush true fun _ => Sinks.taken now
    let sent := ((waiting ledger).take maxFlushPerLoop).map fun rec => (rec, Sinks.taken now)
    have hstep : ledgerStep cfg ledger c =
        ((ledgerFlush cfg (fun _ => Sinks.taken now) maxFlushPerLoop 0 ledger).1, sent) := by
      exact Prod.ext rfl (flush_taken cfg now maxFlushPerLoop 0 ledger)
    have hsent : (cycleStep cfg s.flash c).2 = sent := by
      rw [(cycleStep_backs hbacks c).1, hstep]
    have hsinks : ∀ d ∈ sent, d.2 = Sinks.taken now := by
      intro d hd
      obtain ⟨rec, -, rfl⟩ := List.mem_map.mp hd
      rfl
    have hleft : waiting (ledgerFlush cfg (fun _ => Sinks.taken now) maxFlushPerLoop 0 ledger).1 =
        (waiting ledger).drop maxFlushPerLoop := by
      refine (flush_all cfg fun d hd => ?_).1
      rw [flush_taken] at hd
      rw [hsinks d hd]
      exact deliver_up cfg (taken_up now) fun _ => .inl rfl
    obtain ⟨xs, cloud, hxs, hforeign, heach⟩ := exchanges_possible hlower hconf hskew s.cloud
      ((waiting ledger).take maxFlushPerLoop) fun rec hrec => hpast rec (List.mem_of_mem_take hrec)
    obtain ⟨flash, hnext, hbacks₁⟩ := next_cycle hbacks hstep hxs
    obtain ⟨more, u, hrun, hlength, hforeign', hserves, hclock⟩ := ih (s := ⟨flash, cloud⟩) hbacks₁
      fun rec hrec => hpast rec (List.mem_of_mem_drop (hleft ▸ hrec))
    refine ⟨.cycle c xs :: more, u, (Runs.run_cons _ _ _ _).trans ?_, congrArg Nat.succ hlength,
      List.forall_mem_cons.mpr ⟨hforeign, hforeign'⟩, .cons ?_ hnext hserves, fun d hd => ?_⟩
    · rw [hnext]
      exact hrun
    · refine ⟨rfl, fun d hd => ?_, ?_⟩
      · rw [hsent] at hd
        rw [hsinks d hd]
        exact taken_up now
      · rw [hsent]
        exact heach
    · have hflash : flash = (cycleStep cfg s.flash c).1 := by
        obtain ⟨cloud', -, hstate⟩ := Option.map_eq_some_iff.mp hnext
        exact (congrArg State.flash hstate).symm
      rcases List.mem_append.mp (show d ∈ (cycleStep cfg s.flash c).2 ++
        State.sends cfg ⟨(cycleStep cfg s.flash c).1, cloud⟩ more from hd) with hd | hd
      · rw [hsent] at hd
        rw [hsinks d hd]
        rfl
      · rw [← hflash] at hd
        exact hclock d hd

/-! ## runs -/

/-- **From every state that a run reaches, every run of flushes while both sides are up empties the queue, once there
is a flush for each five of its records, whatever the first run has left behind: every record in it is then in the
database, unless it was captured before the clock was set or was too old when it was sent.  And there is such a run,
with any number of flushes, at any time that is not before the records.** -/
theorem drains (hskew : 0 ≤ env.window.maxClockSkewMs) {t : State} {actions : List Action}
    (hforeign : ∀ a ∈ actions, ∀ e ∈ a.events, e.Foreign cfg)
    (h : Runs.run (State.next env cfg) .start actions = some t) :
    (∀ more u, (∀ a ∈ more, ∀ e ∈ a.events, e.Foreign cfg) → Runs.run (State.next env cfg) t more = some u →
      Runs.Along (State.next env cfg) (State.Serves env cfg) t more →
      (waiting (ledger cfg (cyclesOf actions))).length ≤ maxFlushPerLoop * (cyclesOf more).length →
        readable u.flash = [] ∧ ∀ rec ∈ waiting (ledger cfg (cyclesOf actions)), u.row? cfg rec ≠ none ∨
          rec.timestamp.toNat < minPlausibleEpoch ∨
          ∃ e, (rec, e) ∈ t.sends cfg more ∧ gridProofRecordExpired e.now rec = true) ∧
    ∀ now : BitVec 32, (∀ rec ∈ waiting (ledger cfg (cyclesOf actions)), rec.timestamp.toNat ≤ now.toNat) →
      ∀ n, ∃ more u, (∀ a ∈ more, ∀ e ∈ a.events, e.Foreign cfg) ∧ Runs.run (State.next env cfg) t more = some u ∧
        Runs.Along (State.next env cfg) (State.Serves env cfg) t more ∧ (cyclesOf more).length = n ∧
        ∀ d ∈ t.sends cfg more, d.2.now = now := by
  obtain ⟨l, hreach, -, -, hrep⟩ := run_protocol hconf.identities hconf.parse (s := .start) .start hforeign h
  have hbacks : Backs t.flash (waiting (ledger cfg (cyclesOf actions))) := by
    rw [run_flash h]
    exact (ledger_run cfg (cyclesOf actions)).2.1
  refine ⟨fun more u hforeign' hrun hserves hmany => ?_, fun now hpast n => ?_⟩
  · obtain ⟨ledger', hbacks', hleft, htaken, hup⟩ := run_serves hlower hconf hbacks hrep hforeign' hserves hrun
    rw [List.drop_eq_nil_of_le hmany] at hleft
    rw [List.take_of_length_le hmany] at htaken
    refine ⟨?_, fun rec hrec => ?_⟩
    · rw [hbacks'.read, hleft]
      rfl
    · rw [← htaken] at hrec
      obtain ⟨⟨rec, e⟩, hd, rfl⟩ := List.mem_map.mp hrec
      by_cases hepoch : rec.timestamp.toNat < minPlausibleEpoch
      · exact .inr (.inl hepoch)
      by_cases hexpired : gridProofRecordExpired e.now rec = true
      · exact .inr (.inr ⟨e, hd, hexpired⟩)
      have hbody : buildGridProofPayload cfg rec 640 ≠ none := by
        rw [buildGridProofPayload_fits hconf.identities.fits]
        exact Option.some_ne_none _
      obtain ⟨hsinks, hcode⟩ := hup (rec, e) hd
      have hposted : Posted cfg e rec :=
        ⟨Nat.not_lt.mp hepoch, Bool.eq_false_iff.mpr hexpired, hsinks.wifi, hbody, hsinks.begun⟩
      obtain ⟨l', hreach', -, hacked, hu⟩ := run_protocol hconf.identities hconf.parse hrep hforeign' hrun
      obtain ⟨-, row, hrow⟩ := ((hreach.trans hreach').sound .start).acked rec
        (hacked (rec, e) hd ⟨hposted, hcode hposted⟩)
      refine .inl ?_
      unfold State.row?
      rw [hu.store]
      exact fun hno => Option.some_ne_none row (hrow.symm.trans hno)
  · obtain ⟨more, u, hrun, hlength, hforeign', hserves, hclock⟩ :=
      serves_possible hlower hconf hskew hbacks hpast n
    exact ⟨more, u, hforeign', hrun, hserves, hlength, hclock⟩

end

/-- two records that nobody took leave the queue in one flush -/
theorem drains_two : letI := JsText.asciiRuntime
    ∃ t more u, Runs.run (State.next sampleEnv installed) .start [
        .cycle (.post 1800000000 0 true .zero (.down 1800000000)) [],
        .cycle (.post 1800000000 1 true .zero (.down 1800000000)) []] = some t ∧
      Runs.run (State.next sampleEnv installed) t more = some u ∧ (cyclesOf more).length = 1 ∧ readable u.flash = [] ∧
      u.row? installed (makeRecord 1800000000 0 true .zero) ≠ none ∧
      u.row? installed (makeRecord 1800000000 1 true .zero) ≠ none := by
  let _ := JsText.asciiRuntime
  let actions : List Action := [.cycle (.post 1800000000 0 true .zero (.down 1800000000)) [],
    .cycle (.post 1800000000 1 true .zero (.down 1800000000)) []]
  have hwaiting : waiting (ledger installed (cyclesOf actions)) =
      [makeRecord 1800000000 0 true .zero, makeRecord 1800000000 1 true .zero] := rfl
  have hnothing (rec : TelemetryRecord) :
      Cloud.start.exchanges sampleEnv installed [(rec, .down 1800000000)] [] = some .start :=
    exchanges_silent fun h => Bool.noConfusion h.2.2.1
  obtain ⟨flash₁, hfirst, hbacks₁⟩ := next_cycle (s := .start) (l := []) blank_backs
    (show ledgerStep installed [] (.post 1800000000 0 true .zero (.down 1800000000)) =
      (_, [(_, .down 1800000000)]) from rfl)
    (hnothing _)
  obtain ⟨flash₂, hsecond, -⟩ := next_cycle (s := ⟨flash₁, .start⟩) hbacks₁
    (show ledgerStep installed _ (.post 1800000000 1 true .zero (.down 1800000000)) =
      (_, [(_, .down 1800000000)]) from rfl)
    (hnothing _)
  have hrun : Runs.run (State.next sampleEnv installed) .start actions = some ⟨flash₂, .start⟩ := by
    rw [Runs.run_cons, hfirst, Option.bind_some, Runs.run_cons, hsecond, Option.bind_some, Runs.run_nil]
  have hforeign : ∀ a ∈ actions, ∀ e ∈ a.events, e.Foreign installed := by
    simp [actions, Action.events]
  obtain ⟨hempties, hpossible⟩ := drains (fun _ _ => rfl) sampleEnv_configured (by decide) hforeign hrun
  rw [hwaiting] at hempties hpossible
  obtain ⟨more, u, hforeign', hmore, hserves, hlength, hclock⟩ := hpossible 1800000060 (by decide) 1
  obtain ⟨hempty, hrows⟩ := hempties more u hforeign' hmore hserves (by
    rw [hlength]
    decide)
  have hstored (rec : TelemetryRecord) (hepoch : minPlausibleEpoch ≤ rec.timestamp.toNat)
      (hfresh : gridProofRecordExpired 1800000060 rec = false)
      (hrec : rec ∈ [makeRecord 1800000000 0 true .zero, makeRecord 1800000000 1 true .zero]) :
      u.row? installed rec ≠ none := by
    rcases hrows rec hrec with hrow | hold | ⟨e, hd, hexpired⟩
    · exact hrow
    · exact absurd hold (Nat.not_lt.mpr hepoch)
    · rw [hclock (rec, e) hd, hfresh] at hexpired
      cases hexpired
  exact ⟨_, more, u, hrun, hmore, hlength, hempty, hstored _ (by decide) rfl List.mem_cons_self,
    hstored _ (by decide) rfl (List.mem_cons_of_mem _ List.mem_cons_self)⟩

end Uplink
