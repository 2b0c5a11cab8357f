import GridProof.Uplink.Delivered

/-!
# No reading is refused

Where device and API are configured alike and their clocks agree, the API has no reason to refuse what a device
still sends.

* `telemetry_configured`   the body of a fresh record is accepted unless the limiter counts it out;
* `Timely`                 the clocks agree while the device waits, and every refusal it sees is the API's;
* `exchange_succeeds`      a POST is answered with success where the API is up;
* `never_refused`          every captured record waits, or is in the database, or was given up for its age.
-/

namespace Uplink
open Firmware Acknowledged Keyed
open Ingestion (EvidenceEvent TelemetryEnv TelemetryCall Api telemetry)

/-- the API does not refuse with this status for good -/
def Passing (status : Option ℤ) : Prop := ∀ code, status = some code → ¬(code ≠ 429 ∧ 400 ≤ code ∧ code < 500)

/-! ## one arrival -/

/-- **The body of a fresh record is accepted, unless the limiter counts it out or the instance is gone.** -/
theorem telemetry_configured [JsText.Runtime] {env : TelemetryEnv} {cfg : Config} {rec : TelemetryRecord}
    (hlower : LowersAscii) (hconf : Configured env cfg) {e : Sinks} (hposted : Posted cfg e rec)
    (hpast : rec.timestamp.toNat ≤ e.now.toNat) {a : Arrival}
    (hnear : |a.now - e.now.toNat * 1000| ≤ env.window.maxClockSkewMs) {api : Api} {err : RateLimit.HttpError}
    (h : (telemetry env api (a.call (bodyValue (gridProofBody cfg rec)))).2 = .error err) : err.statusCode = 429 := by
  obtain ⟨voltage, hnumber, htext⟩ := optionalNumber_voltage fun v hv => (body_voltage cfg rec v hv).2
  have haccepted := checkTelemetry_fresh hlower hconf hposted hpast hnear hnumber htext
  unfold telemetry at h
  split at h
  · cases h
  · rw [hconf.source] at h
    dsimp only at h
    split at h
    · rename_i e' hreply
      obtain rfl := Ingestion.Response.error.inj h
      unfold RateLimit.rateLimit RateLimit.reply at hreply
      dsimp only at hreply
      split at hreply
      · obtain rfl := Option.some.inj hreply
        rfl
      · cases hreply
    · rw [haccepted] at h
      cases h

/-! ## one exchange -/

/-- what an instance may answer to a fresh record, as long as no statement fails -/
structure Usual (P : Option ℤ → Prop) : Prop where
  silent : P none
  duplicate : P (some 200)
  taken : P (some 202)
  limited : P (some 429)

theorem Usual.after {P : Option ℤ → Prop} (hP : Usual P) (h : Handling) (task : Ingestion.Task) :
    P (h.after task).status := by
  unfold Handling.after
  dsimp only
  split
  · unfold successStatus
    split
    · exact hP.duplicate
    · exact hP.taken
  · exact hP.silent

theorem passing_usual : Usual Passing where
  silent := nofun
  duplicate code h := by
    obtain rfl := Option.some.inj h
    omega
  taken code h := by
    obtain rfl := Option.some.inj h
    omega
  limited code h := by
    obtain rfl := Option.some.inj h
    omega

/-- the answers to a post, so far -/
def Cloud.Replies (P : Option ℤ → Prop) (c : Cloud) (post : ℕ) : Prop :=
  ∀ h ∈ c.handlings, h.post = some post → P h.status

/-- while the device waits, the clocks of the instances are near its own -/
structure Timely (env : TelemetryEnv) (e : Sinks) (rec : TelemetryRecord) (x : Exchange) : Prop where
  past : rec.timestamp.toNat ≤ e.now.toNat
  near : ∀ post instanceId a, .arrive post instanceId a ∈ x.during →
    |a.now - (e.now.toNat : ℤ) * 1000| ≤ env.window.maxClockSkewMs
  /-- what is not answered by the API does not look as if it were refused -/
  answered : x.answer = none → Passing (some e.code)

/-- while the device waits, the API is up: it answers, no statement fails, and the limiter lets the post through -/
structure Served (env : TelemetryEnv) (e : Sinks) (rec : TelemetryRecord) (x : Exchange) : Prop where
  past : rec.timestamp.toNat ≤ e.now.toNat
  near : ∀ post instanceId a, .arrive post instanceId a ∈ x.during →
    |a.now - (e.now.toNat : ℤ) * 1000| ≤ env.window.maxClockSkewMs
  unfailing : ∀ i, .fail i ∉ x.during
  unlimited : e.code ≠ 429
  answered : x.answer ≠ none

section
variable [JsText.Runtime] {env : TelemetryEnv} {cfg : Config} {rec : TelemetryRecord} {P : Option ℤ → Prop}

/-- an event in time answers the post as usual -/
theorem Cloud.Replies.next (hlower : LowersAscii) (hconf : Configured env cfg) {e : Sinks} (hposted : Posted cfg e rec)
    (hpast : rec.timestamp.toNat ≤ e.now.toNat) (hP : Usual P) {c c' : Cloud} {post : ℕ}
    (hpost : c.posts[post]? = some (gridProofBody cfg rec).text) (hc : c.Replies P post) {event : Event}
    (hnear : ∀ post instanceId a, event = .arrive post instanceId a →
      |a.now - e.now.toNat * 1000| ≤ env.window.maxClockSkewMs)
    (hfail : ∀ i, event = .fail i → P (some 500))
    (h : c.next env event = some c') : c'.Replies P post := by
  have hadd {apis : ℕ → Api} {added : Handling} (hadded : added.post = some post → P added.status) :
      Cloud.Replies P { c with apis := apis, handlings := c.handlings ++ [added] } post := by
    intro h hh
    rcases List.mem_append.mp hh with hh | hh
    · exact hc h hh
    · rw [List.mem_singleton.mp hh]
      exact hadded
  have hset {database : Ingestion.Database} {i : ℕ} {h' : Handling} (hstatus : P h'.status) :
      Cloud.Replies P { c with database := database, handlings := c.handlings.set i h' } post := by
    intro h hh
    rcases List.mem_or_eq_of_mem_set hh with hh | rfl
    · exact hc h hh
    · exact fun _ => hstatus
  cases event with
  | arrive post' instanceId a =>
    by_cases hsame : post' = post
    · subst hsame
      change c.arrive env post' instanceId a = some c' at h
      unfold Cloud.arrive at h
      rw [hpost, Option.bind_some, parse_record hconf.identities rec] at h
      dsimp only at h
      split at h
      · rename_i err herr
        have hlimited := telemetry_configured hlower hconf hposted hpast (hnear _ _ _ rfl) herr
        obtain rfl := Option.some.inj h
        refine hadd fun _ => ?_
        show P (some err.statusCode)
        rw [hlimited]
        exact hP.limited
      · obtain ⟨r, -, rfl⟩ := Option.map_eq_some_iff.mp h
        exact hadd fun _ => hP.silent
      · obtain rfl := Option.some.inj h
        exact hadd fun _ => hP.silent
      · obtain rfl := Option.some.inj h
        exact hadd fun _ => hP.silent
    · obtain ⟨apis, added, hadded, rfl⟩ := Cloud.arrive_adds h
      exact hadd fun he => absurd (Option.some.inj (hadded.symm.trans he)) hsame
  | foreign input =>
    obtain rfl := Option.some.inj h
    exact hadd fun hno => by cases hno
  | statement i draw =>
    obtain ⟨h', -, hstep⟩ := Option.bind_eq_some_iff.mp h
    obtain ⟨o, -, rfl⟩ := Option.map_eq_some_iff.mp hstep
    exact hset (hP.after h' o.task)
  | fail i =>
    obtain ⟨h', -, rfl⟩ := Option.map_eq_some_iff.mp h
    exact hset (hfail i rfl)
  | abandon i =>
    obtain ⟨h', -, rfl⟩ := Option.map_eq_some_iff.mp h
    exact hset hP.silent
  | restart instanceId =>
    obtain rfl := Option.some.inj h
    exact hc
  | work f =>
    obtain rfl := Option.some.inj h
    exact hc

/-- **A POST that the API answers in time is answered as usual.** -/
theorem exchange_replies (hlower : LowersAscii) (hconf : Configured env cfg) {e : Sinks} (hposted : Posted cfg e rec)
    (hpast : rec.timestamp.toNat ≤ e.now.toNat) (hP : Usual P)
    {c c' : Cloud} {l : Link TelemetryRecord String EvidenceEvent} (hc : Represents cfg c l) {x : Exchange}
    (hnear : ∀ post instanceId a, .arrive post instanceId a ∈ x.during →
      |a.now - (e.now.toNat : ℤ) * 1000| ≤ env.window.maxClockSkewMs)
    (hfail : ∀ i, .fail i ∈ x.during → P (some 500))
    (h : c.exchange env (gridProofBody cfg rec).text e.code x = some c') (hanswered : x.answer ≠ none) :
    P (some e.code) := by
  obtain ⟨c₁, hrun, hanswer⟩ := Option.bind_eq_some_iff.mp h
  have hposts : (c.post (gridProofBody cfg rec).text).posts[c.posts.length]? = some (gridProofBody cfg rec).text :=
    List.getElem?_concat_length
  -- no handling is of a post that was not sent
  have hstart : (c.post (gridProofBody cfg rec).text).Replies P c.posts.length := by
    intro h' hh' hpost
    exact absurd ((hc.handlings h' hh').own _ hpost).1 (Nat.lt_irrefl _)
  let ok (event : Event) : Prop :=
    (∀ post instanceId a, event = .arrive post instanceId a →
      |a.now - (e.now.toNat : ℤ) * 1000| ≤ env.window.maxClockSkewMs) ∧ ∀ i, event = .fail i → P (some 500)
  have hok : Runs.Along (Cloud.next env) (fun _ => ok) (c.post (gridProofBody cfg rec).text) x.during := by
    refine Runs.along_of_forall (fun event hevent _ => ⟨fun post instanceId a he => ?_, fun i he => ?_⟩) _
    · exact hnear post instanceId a (he ▸ hevent)
    · exact hfail i (he ▸ hevent)
  have hreplies : c₁.Replies P c.posts.length ∧ c₁.posts[c.posts.length]? = some (gridProofBody cfg rec).text := by
    refine Runs.run_inv (fun c' => c'.Replies P c.posts.length ∧
      c'.posts[c.posts.length]? = some (gridProofBody cfg rec).text) ?_ ⟨hstart, hposts⟩ hok hrun
    intro c₂ event c₃ hc₂ ⟨hnear, hfail⟩ hnext
    refine ⟨hc₂.1.next hlower hconf hposted hpast hP hc₂.2 hnear hfail hnext, ?_⟩
    rw [Cloud.next_posts hnext]
    exact hc₂.2
  split at hanswer
  · rename_i hanswers
    obtain ⟨i, hx⟩ := Option.ne_none_iff_exists'.mp hanswered
    rw [hx] at hanswers
    obtain ⟨h', hi, hpost, hstatus⟩ := hanswers
    rw [← hstatus]
    exact hreplies.1 h' (List.mem_of_getElem? hi) hpost
  · cases hanswer

/-- **A POST in time is not refused for good.** -/
theorem exchange_passes (hlower : LowersAscii) (hconf : Configured env cfg) {e : Sinks} (hposted : Posted cfg e rec)
    {c c' : Cloud} {l : Link TelemetryRecord String EvidenceEvent} (hc : Represents cfg c l) {x : Exchange}
    (htimely : Timely env e rec x) (h : c.exchange env (gridProofBody cfg rec).text e.code x = some c') :
    Passing (some e.code) := by
  by_cases hanswered : x.answer = none
  · exact htimely.answered hanswered
  · refine exchange_replies hlower hconf hposted htimely.past passing_usual hc htimely.near ?_ h hanswered
    intro _ _ code hcode
    obtain rfl := Option.some.inj hcode
    omega

/-- **A POST that is served is answered with success.** -/
theorem exchange_succeeds (hlower : LowersAscii) (hconf : Configured env cfg) {e : Sinks} (hposted : Posted cfg e rec)
    {c c' : Cloud} {l : Link TelemetryRecord String EvidenceEvent} (hc : Represents cfg c l) {x : Exchange}
    (hserved : Served env e rec x) (h : c.exchange env (gridProofBody cfg rec).text e.code x = some c') :
    e.code = 200 ∨ e.code = 202 := by
  let tame (status : Option ℤ) : Prop := ∀ code, status = some code → code = 200 ∨ code = 202 ∨ code = 429
  have htame : Usual tame := by
    refine ⟨nofun, ?_, ?_, ?_⟩
    · exact fun code h => .inl (Option.some.inj h).symm
    · exact fun code h => .inr (.inl (Option.some.inj h).symm)
    · exact fun code h => .inr (.inr (Option.some.inj h).symm)
  have hreply := exchange_replies hlower hconf hposted hserved.past htame hc hserved.near
    (fun i hi => absurd hi (hserved.unfailing i)) h hserved.answered e.code rfl
  rcases hreply with hcode | hcode | hcode
  · exact .inl hcode
  · exact .inr hcode
  · exact absurd hcode hserved.unlimited

end

/-! ## runs -/

/-- every exchange of a cycle -/
def EachExchange (cfg : Config) (P : Sinks → TelemetryRecord → Exchange → Prop) :
    List Firmware.Delivery → List Exchange → Prop
  | [], _ => True
  | (rec, e) :: sent, xs =>
    match postedBody cfg e rec with
    | none => EachExchange cfg P sent xs
    | some _ =>
      match xs with
      | [] => True
      | x :: xs => P e rec x ∧ EachExchange cfg P sent xs

theorem eachExchange_posted {cfg : Config} {P : Sinks → TelemetryRecord → Exchange → Prop} {e : Sinks}
    {rec : TelemetryRecord} (hposted : Posted cfg e rec) (sent : List Firmware.Delivery) (x : Exchange)
    (xs : List Exchange) :
    EachExchange cfg P ((rec, e) :: sent) (x :: xs) ↔ P e rec x ∧ EachExchange cfg P sent xs := by
  conv_lhs => unfold EachExchange
  rw [postedBody_iff.mpr ⟨hposted, rfl⟩]

theorem eachExchange_silent {cfg : Config} {P : Sinks → TelemetryRecord → Exchange → Prop} {e : Sinks}
    {rec : TelemetryRecord} (hposted : ¬ Posted cfg e rec) (sent : List Firmware.Delivery) (xs : List Exchange) :
    EachExchange cfg P ((rec, e) :: sent) xs ↔ EachExchange cfg P sent xs := by
  conv_lhs => unfold EachExchange
  cases hbody : postedBody cfg e rec with
  | none => rfl
  | some body => exact absurd (postedBody_iff.mp hbody).1 hposted

/-- every exchange of a cycle is in time -/
def State.InTime (env : TelemetryEnv) (cfg : Config) (s : State) : Action → Prop
  | .cloud _ => True
  | .cycle c xs => EachExchange cfg (Timely env) (cycleStep cfg s.flash c).2 xs

section
variable [JsText.Runtime] {env : TelemetryEnv} {cfg : Config} (hlower : LowersAscii) (hconf : Configured env cfg)
include hlower hconf

omit hlower in
/-- what is known of every exchange is known of every record that is posted -/
theorem exchanges_each {P : Sinks → TelemetryRecord → Exchange → Prop} {Q : Sinks → TelemetryRecord → Prop}
    (hPQ : ∀ {e rec x c c' l}, Posted cfg e rec → Represents cfg c l → P e rec x →
      c.exchange env (gridProofBody cfg rec).text e.code x = some c' → Q e rec)
    {c c' : Cloud} {l : Link TelemetryRecord String EvidenceEvent} {sent : List Firmware.Delivery}
    {xs : List Exchange} (hc : Represents cfg c l) (hforeign : ∀ e ∈ xs.flatMap Exchange.during, e.Foreign cfg)
    (heach : EachExchange cfg P sent xs) (h : c.exchanges env cfg sent xs = some c') :
    ∀ d ∈ sent, Posted cfg d.2 d.1 → Q d.2 d.1 := by
  induction sent generalizing c l xs with
  | nil => exact fun _ hd => absurd hd List.not_mem_nil
  | cons d sent ih =>
    obtain ⟨rec, e⟩ := d
    unfold Cloud.exchanges at h
    unfold EachExchange at heach
    refine List.forall_mem_cons.mpr ?_
    cases hbody : postedBody cfg e rec with
    | none =>
      rw [hbody] at h heach
      refine ⟨fun hposted => ?_, ih hc hforeign heach h⟩
      rw [postedBody_iff.mpr ⟨hposted, rfl⟩] at hbody
      cases hbody
    | some body =>
      obtain ⟨hposted, rfl⟩ := postedBody_iff.mp hbody
      rw [hbody] at h heach
      cases xs with
      | nil => cases h
      | cons x xs =>
        rw [List.flatMap_cons] at hforeign
        obtain ⟨hx, hxs⟩ := heach
        obtain ⟨c₁, hexchange, hrest⟩ := Option.bind_eq_some_iff.mp h
        obtain ⟨l₁, -, -, -, hc₁⟩ := hc.exchange hconf.identities hconf.parse
          (fun e he => hforeign e (List.mem_append_left _ he)) hexchange
        exact ⟨fun _ => hPQ hposted hc hx hexchange,
          ih hc₁ (fun e he => hforeign e (List.mem_append_right _ he)) hxs hrest⟩

theorem exchanges_pass {c c' : Cloud} {l : Link TelemetryRecord String EvidenceEvent} {sent : List Firmware.Delivery}
    {xs : List Exchange} (hc : Represents cfg c l) (hforeign : ∀ e ∈ xs.flatMap Exchange.during, e.Foreign cfg)
    (htime : EachExchange cfg (Timely env) sent xs) (h : c.exchanges env cfg sent xs = some c') :
    ∀ d ∈ sent, ¬GridProofRefused cfg d.2 d.1 := by
  intro d hd hrefused
  have hpass := exchanges_each (Q := fun e _ => Passing (some e.code)) hconf
    (fun hposted hc hx h => exchange_passes hlower hconf hposted hc hx h) hc hforeign htime h
  exact hpass d hd hrefused.1 d.2.code rfl hrefused.2

/-- what the API takes while it is up -/
theorem exchanges_succeed {c c' : Cloud} {l : Link TelemetryRecord String EvidenceEvent}
    {sent : List Firmware.Delivery} {xs : List Exchange} (hc : Represents cfg c l)
    (hforeign : ∀ e ∈ xs.flatMap Exchange.during, e.Foreign cfg)
    (hserved : EachExchange cfg (Served env) sent xs) (h : c.exchanges env cfg sent xs = some c') :
    ∀ d ∈ sent, Posted cfg d.2 d.1 → d.2.code = 200 ∨ d.2.code = 202 :=
  exchanges_each hconf (fun hposted hc hx h => exchange_succeeds hlower hconf hposted hc hx h)
    hc hforeign hserved h

theorem run_passes {s t : State} {l : Link TelemetryRecord String EvidenceEvent} {actions : List Action}
    (hs : Represents cfg s.cloud l) (hforeign : ∀ a ∈ actions, ∀ e ∈ a.events, e.Foreign cfg)
    (htime : Runs.Along (State.next env cfg) (State.InTime env cfg) s actions)
    (h : Runs.run (State.next env cfg) s actions = some t) :
    ∀ d ∈ (answers (cycleStep cfg) s.flash (cyclesOf actions)).flatMap Prod.snd, ¬GridProofRefused cfg d.2 d.1 := by
  induction actions generalizing s l with
  | nil => exact fun _ hd => absurd hd List.not_mem_nil
  | cons a actions ih =>
    obtain ⟨hfirst, hothers⟩ := List.forall_mem_cons.mp hforeign
    obtain ⟨u, hnext, hrest⟩ := Runs.run_cons_eq_some h
    have hlater := htime.tail hnext
    cases a with
    | cloud event =>
      obtain ⟨cloud, hcloud, rfl⟩ := Option.map_eq_some_iff.mp hnext
      obtain ⟨l₁, -, -, -, hu⟩ :=
        hs.next hconf.identities hconf.parse (hfirst event (List.mem_singleton_self event)) hcloud
      exact ih (s := ⟨s.flash, cloud⟩) hu hothers hlater hrest
    | cycle c xs =>
      obtain ⟨cloud, hcloud, rfl⟩ := Option.map_eq_some_iff.mp hnext
      obtain ⟨l₁, -, -, -, hu⟩ := hs.exchanges hconf.identities hconf.parse hfirst hcloud
      intro d hd
      rcases List.mem_append.mp (show d ∈ (cycleStep cfg s.flash c).2 ++ _ from hd) with hd | hd
      · exact exchanges_pass hlower hconf hs hfirst htime.head hcloud d hd
      · exact ih hu hothers hlater hrest d hd

/-- **Where the two sides are configured alike and their clocks agree, a captured record that waits no more is in the
database, unless it was captured before the clock was set, was still not taken after 23 hours, or found no room.** -/
theorem never_refused {t : State} {actions : List Action} (hforeign : ∀ a ∈ actions, ∀ e ∈ a.events, e.Foreign cfg)
    (htime : Runs.Along (State.next env cfg) (State.InTime env cfg) .start actions)
    (h : Runs.run (State.next env cfg) .start actions = some t) :
    ∀ rec fate, (rec, fate) ∈ ledger cfg (cyclesOf actions) → fate = .waiting ∨ t.row? cfg rec ≠ none ∨
      rec.timestamp.toNat < minPlausibleEpoch ∨ (∃ e, fate = .finished e ∧ gridProofRecordExpired e.now rec = true) ∨
      ∃ n, fate = .evicted n ∧ maxQueueBytes < recordSize * n + recordSize := by
  have hpass : ∀ d ∈ deliveries cfg (cyclesOf actions), ¬GridProofRefused cfg d.2 d.1 :=
    run_passes hlower hconf (s := .start) .start hforeign htime h
  have hkept := accepted_kept hconf.identities hconf.parse hforeign h
  obtain ⟨-, -, haccounted⟩ := ledger_run cfg (cyclesOf actions)
  intro rec fate hmem
  cases fate with
  | waiting => exact .inl rfl
  | evicted n => exact .inr (.inr (.inr (.inr ⟨n, rfl, haccounted.evicted rec n hmem⟩)))
  | finished e =>
    obtain ⟨hd, -, hdone⟩ := haccounted.finished rec e hmem
    refine .inr (hdone.elim (fun haccepted => .inl (hkept (rec, e) hd haccepted)) fun hrest => .inr ?_)
    rcases hrest.resolve_left (hpass (rec, e) hd) with hepoch | hexpired | ⟨-, hunbuilt⟩
    · exact .inl hepoch
    · exact .inr (.inl ⟨e, rfl, hexpired⟩)
    · rw [buildGridProofPayload_fits hconf.identities.fits] at hunbuilt
      cases hunbuilt

end

/-- the run of an answer that is lost is in time -/
theorem lostAnswer_inTime : letI := JsText.asciiRuntime
    Runs.Along (State.next sampleEnv installed) (State.InTime sampleEnv installed) .start lostAnswer := by
  let _ := JsText.asciiRuntime
  obtain ⟨-, hretried, hdone⟩ := lostAnswer_ledger
  obtain ⟨s₁, s₂, s₃, hpost, hflush, hflush', hbacks₁, hbacks₂, -⟩ := lostAnswer_steps
  have hposted : Posted installed ⟨1800000012, true, true, true, true, -1⟩ sampleRecord :=
    sampleRecord_posted rfl rfl rfl
  have hposted' : Posted installed ⟨1800000024, true, true, true, true, 200⟩ sampleRecord :=
    sampleRecord_posted rfl rfl rfl
  refine .cons trivial hpost (.cons ?_ hflush (.cons ?_ hflush' trivial))
  · show EachExchange installed (Timely sampleEnv) (cycleStep installed s₁.flash _).2 _
    rw [(cycleStep_backs (l := [(sampleRecord, .waiting)]) hbacks₁ _).1, hretried, eachExchange_posted hposted]
    refine ⟨⟨by decide, fun post instanceId a ha => ?_, fun _ code hcode => ?_⟩, trivial⟩
    · obtain ⟨rfl, rfl, rfl⟩ : post = 0 ∧ instanceId = 0 ∧ a = sampleArrival 1800000012000 := by
        simpa [lostExchange] using ha
      decide
    · rw [← Option.some.inj hcode]
      decide
  · show EachExchange installed (Timely sampleEnv) (cycleStep installed s₂.flash _).2 _
    rw [(cycleStep_backs (l := [(sampleRecord, .waiting)]) hbacks₂ _).1, hdone, eachExchange_posted hposted']
    refine ⟨⟨by decide, fun post instanceId a ha => ?_, fun hnone => ?_⟩, trivial⟩
    · obtain ⟨rfl, rfl, rfl⟩ : post = 1 ∧ instanceId = 1 ∧ a = sampleArrival 1800000024000 := by
        simpa [retryExchange] using ha
      decide
    · cases hnone

theorem never_refused_lost_answer : letI := JsText.asciiRuntime
    ∃ t, Runs.run (State.next sampleEnv installed) .start lostAnswer = some t ∧
      ledger installed (cyclesOf lostAnswer) =
        [(sampleRecord, .finished ⟨1800000024, true, true, true, true, 200⟩)] ∧
      t.row? installed sampleRecord ≠ none := by
  let _ := JsText.asciiRuntime
  obtain ⟨-, t, -, -, hrun, hledger⟩ := lostAnswer_run
  refine ⟨t, hrun, hledger, ?_⟩
  rcases never_refused (fun _ _ => rfl) sampleEnv_configured lostAnswer_foreign lostAnswer_inTime hrun sampleRecord
    (.finished ⟨1800000024, true, true, true, true, 200⟩) (hledger ▸ List.mem_singleton_self _)
    with hno | hrow | hepoch | ⟨e, he, hexpired⟩ | ⟨n, hno, -⟩
  · cases hno
  · exact hrow
  · exact absurd hepoch (by decide)
  · obtain rfl := Fate.finished.inj he
    cases hexpired
  · cases hno

end Uplink
