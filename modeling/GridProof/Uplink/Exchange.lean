import GridProof.Lib.Acknowledged
import GridProof.Firmware.Ledger
import GridProof.Uplink.Cloud

/-!
# A device and the cloud

The device works through its cycles; each record that it sends to GridProof is put on the network, and while the
device waits for the answer anything may happen in the cloud.

* `Cloud.exchange`        one POST: the answer is that of the API to this post, or says nothing of the kind;
* `State.next`            a part of a cycle of the device, or an event in the cloud;
* `protocol`              what the device and the server do for each other, without the code;
* `Represents`            the cloud as a state of the protocol;
* `Represents.run`        every run of the cloud is one of the protocol;
* `Represents.exchange`   a POST that is answered with 200 or 202 is acknowledged in the protocol.
-/

namespace Uplink
open Firmware Acknowledged
open Ingestion (EvidenceEvent TelemetryEnv DatabaseEvidence Database Task)

/-! ## a POST -/

/-- the body that a delivery puts on the network -/
def postedBody (cfg : Config) (e : Sinks) (rec : TelemetryRecord) : Option GridProofBody :=
  if rec.timestamp.toNat < minPlausibleEpoch then none
  else if gridProofRecordExpired e.now rec then none
  else if !e.wifi then none
  else if e.begun then buildGridProofPayload cfg rec 640
  else none

theorem postedBody_iff {cfg : Config} {e : Sinks} {rec : TelemetryRecord} {b : GridProofBody} :
    postedBody cfg e rec = some b ↔ Posted cfg e rec ∧ b = gridProofBody cfg rec := by
  have hbuilt (b : GridProofBody) (h : buildGridProofPayload cfg rec 640 = some b) : b = gridProofBody cfg rec :=
    buildGridProofPayload_eq_some h
  unfold postedBody Posted
  generalize buildGridProofPayload cfg rec 640 = built at hbuilt ⊢
  constructor
  · intro h
    split at h
    · cases h
    rename_i hepoch
    split at h
    · cases h
    rename_i hfresh
    split at h
    · cases h
    rename_i hwifi
    split at h
    · rename_i hbegun
      rw [Bool.not_eq_true', Bool.not_eq_false] at hwifi
      refine ⟨⟨Nat.not_lt.mp hepoch, Bool.eq_false_iff.mpr hfresh, hwifi, ?_, hbegun⟩, hbuilt b h⟩
      exact fun hnone => Option.some_ne_none b (h.symm.trans hnone)
    · cases h
  · rintro ⟨⟨hepoch, hfresh, hwifi, hbody, hbegun⟩, rfl⟩
    obtain ⟨b, hb⟩ := Option.ne_none_iff_exists'.mp hbody
    rw [if_neg (Nat.not_lt.mpr hepoch), hfresh, if_neg Bool.false_ne_true, hwifi, Bool.not_true,
      if_neg Bool.false_ne_true, hbegun, if_pos rfl, hb, hbuilt b hb]

/-- what happens between a POST and its end -/
structure Exchange where
  during : List Event
  /-- the handling whose answer reaches the device -/
  answer : Option ℕ

/-- the code that the device sees is that of a handling of its post; where no such answer reaches it, the code does
not say that the reading was taken -/
def Cloud.Answers (c : Cloud) (post : ℕ) (code : ℤ) : Option ℕ → Prop
  | none => code ≠ 200 ∧ code ≠ 202
  | some i => ∃ h ∈ c.handlings[i]?, h.post = some post ∧ h.status = some code

instance (c : Cloud) (post : ℕ) (code : ℤ) : (answer : Option ℕ) → Decidable (c.Answers post code answer)
  | none => inferInstanceAs (Decidable (_ ∧ _))
  | some i => inferInstanceAs (Decidable (∃ h ∈ c.handlings[i]?, h.post = some post ∧ h.status = some code))

def Cloud.post (c : Cloud) (text : String) : Cloud := { c with posts := c.posts ++ [text] }

section
variable [JsText.Runtime] (env : TelemetryEnv) (cfg : Config)

def Cloud.exchange (c : Cloud) (text : String) (code : ℤ) (x : Exchange) : Option Cloud :=
  (Runs.run (Cloud.next env) (c.post text) x.during).bind fun c' =>
    if c'.Answers c.posts.length code x.answer then some c' else none

/-- the deliveries of a cycle, one exchange for each that is posted -/
def Cloud.exchanges : Cloud → List Firmware.Delivery → List Exchange → Option Cloud
  | c, [], [] => some c
  | _, [], _ :: _ => none
  | c, (rec, e) :: sent, xs =>
    match postedBody cfg e rec with
    | none => c.exchanges sent xs
    | some body =>
      match xs with
      | [] => none
      | x :: xs => (c.exchange env body.text e.code x).bind fun c' => c'.exchanges sent xs

section
variable {env cfg}
variable {c c' : Cloud} {rec : TelemetryRecord} {e : Sinks} {sent : List Firmware.Delivery} {x : Exchange}
  {xs : List Exchange}

theorem exchange_of_run {text : String} {code : ℤ} (hrun : Runs.run (Cloud.next env) (c.post text) x.during = some c')
    (hanswer : c'.Answers c.posts.length code x.answer) : c.exchange env text code x = some c' := by
  unfold Cloud.exchange
  rw [hrun, Option.bind_some, if_pos hanswer]

theorem exchanges_posted (hposted : Posted cfg e rec)
    (h : c.exchange env (gridProofBody cfg rec).text e.code x = some c') :
    c.exchanges env cfg ((rec, e) :: sent) (x :: xs) = c'.exchanges env cfg sent xs := by
  rw [Cloud.exchanges, postedBody_iff.mpr ⟨hposted, rfl⟩]
  dsimp only
  rw [h, Option.bind_some]

theorem exchanges_silent (hsilent : ¬Posted cfg e rec) :
    c.exchanges env cfg ((rec, e) :: sent) xs = c.exchanges env cfg sent xs := by
  cases hbody : postedBody cfg e rec with
  | none => rw [Cloud.exchanges, hbody]
  | some body => exact absurd (postedBody_iff.mp hbody).1 hsilent

end

/-! ## the device and the cloud -/

structure State where
  flash : Flash
  cloud : Cloud

def State.start : State := ⟨.blank, .start⟩

inductive Action where
  | cloud (event : Event)
  | cycle (c : Cycle) (xs : List Exchange)

def State.next (s : State) : Action → Option State
  | .cloud event => (s.cloud.next env event).map fun cloud => { s with cloud := cloud }
  | .cycle c xs =>
    (s.cloud.exchanges env cfg (cycleStep cfg s.flash c).2 xs).map fun cloud => ⟨(cycleStep cfg s.flash c).1, cloud⟩

end

/-! ## the protocol -/

def protocol (cfg : Config) : Protocol TelemetryRecord String EvidenceEvent where
  key rec := makeIdempotencyKey cfg rec 48
  Makes rec row := ∃ draw, row = Ingestion.evidenceRow (evidenceOf cfg rec) draw

variable {cfg : Config}

/-- the row of a request is stored -/
def Cloud.Has (c : Cloud) (input : DatabaseEvidence) : Prop := c.database.evidence.get? input.idempotencyKey ≠ none

/-- a handling stores the record of its post, or nothing under a key of the device; and where it is beyond its insert,
the row is there -/
structure Handling.Ok (cfg : Config) (c : Cloud) (h : Handling) : Prop where
  own : ∀ p, h.post = some p → p < c.posts.length ∧ ∀ rec, c.posts[p]? = some (gridProofBody cfg rec).text →
    ∀ input, h.input = some input → input = evidenceOf cfg rec
  foreign : h.post = none → ∀ input, h.input = some input → input.idempotencyKey ∉ (protocol cfg).own
  active : h.task ≠ .finished → ∃ input, h.input = some input ∧
    (h.task = .insertEvidence input ∨ unstored h.task = none ∧ c.Has input)
  taken : h.status = some 200 ∨ h.status = some 202 → ∃ input, h.input = some input ∧ c.Has input

structure Represents (cfg : Config) (c : Cloud) (l : Link TelemetryRecord String EvidenceEvent) : Prop where
  store : ∀ key, c.database.evidence.get? key = l.store key
  keyed : ∀ key row, c.database.evidence.get? key = some row → row.idempotencyKey = key
  posts : ∀ text ∈ c.posts, ∃ rec ∈ l.sent, text = (gridProofBody cfg rec).text
  handlings : ∀ h ∈ c.handlings, h.Ok cfg c

theorem Represents.start : Represents cfg .start .start where
  store _ := rfl
  keyed _ _ h := by cases h
  posts _ h := absurd h List.not_mem_nil
  handlings _ h := absurd h List.not_mem_nil

section
variable {c c' : Cloud} {l l' : Link TelemetryRecord String EvidenceEvent} {h : Handling}

/-- a handling is not affected by what others do -/
theorem Handling.Ok.mono (hok : h.Ok cfg c) (hposts : c.posts <+: c'.posts)
    (hrows : ∀ key, c.database.evidence.get? key ≠ none → c'.database.evidence.get? key ≠ none) : h.Ok cfg c' where
  own p hp := by
    obtain ⟨hlt, hrec⟩ := hok.own p hp
    refine ⟨Nat.lt_of_lt_of_le hlt hposts.length_le, fun rec htext => hrec rec ?_⟩
    obtain ⟨rest, hrest⟩ := hposts
    rwa [← hrest, List.getElem?_append_left hlt] at htext
  foreign := hok.foreign
  active hbusy := by
    obtain ⟨input, hinput, hrow⟩ := hok.active hbusy
    exact ⟨input, hinput, hrow.imp_right fun hrow => ⟨hrow.1, hrows _ hrow.2⟩⟩
  taken hstatus := by
    obtain ⟨input, hinput, hrow⟩ := hok.taken hstatus
    exact ⟨input, hinput, hrows _ hrow⟩

/-- a handling that ends without success -/
theorem Handling.Ok.stop (hok : h.Ok cfg c) {status : Option ℤ} (hstatus : status ≠ some 200 ∧ status ≠ some 202) :
    ({ h with task := .finished, status := status } : Handling).Ok cfg c where
  own := hok.own
  foreign := hok.foreign
  active hbusy := absurd rfl hbusy
  taken htaken := (htaken.elim hstatus.1 hstatus.2).elim

theorem Handling.ok_arrived {rec : TelemetryRecord} {post : ℕ} (hadded : Arrived cfg rec post h)
    (hpost : c.posts[post]? = some (gridProofBody cfg rec).text) (hsame : ∀ rec',
      (gridProofBody cfg rec').text = (gridProofBody cfg rec).text → evidenceOf cfg rec' = evidenceOf cfg rec) :
    h.Ok cfg c := by
  have hlt : post < c.posts.length := (List.getElem?_eq_some_iff.mp hpost).1
  cases hadded with
  | refused code hcode =>
    constructor
    · intro p hp
      refine ⟨Option.some.inj hp ▸ hlt, fun _ _ input hinput => ?_⟩
      cases hinput
    · intro hp
      cases hp
    · exact fun hbusy => absurd rfl hbusy
    · rintro (htaken | htaken)
      · have := Option.some.inj htaken
        omega
      · have := Option.some.inj htaken
        omega
  | unanswered =>
    constructor
    · intro p hp
      refine ⟨Option.some.inj hp ▸ hlt, fun _ _ input hinput => ?_⟩
      cases hinput
    · intro hp
      cases hp
    · exact fun hbusy => absurd rfl hbusy
    · rintro (htaken | htaken)
      · cases htaken
      · cases htaken
  | accepted =>
    constructor
    · intro p hp
      refine ⟨Option.some.inj hp ▸ hlt, fun rec' htext input hinput => ?_⟩
      rw [← Option.some.inj hp, hpost] at htext
      rw [← Option.some.inj hinput]
      exact (hsame rec' (Option.some.inj htext).symm).symm
    · intro hp
      cases hp
    · exact fun _ => ⟨evidenceOf cfg rec, rfl, .inl rfl⟩
    · rintro (htaken | htaken)
      · cases htaken
      · cases htaken

/-- a step that leaves the network and the evidence alone -/
theorem Represents.quiet (hc : Represents cfg c l) (hposts : c'.posts = c.posts)
    (hevidence : c'.database.evidence = c.database.evidence)
    (hhandlings : ∀ h ∈ c'.handlings, h ∈ c.handlings ∨ h.Ok cfg c) : Represents cfg c' l where
  store key := by
    rw [hevidence]
    exact hc.store key
  keyed := by
    rw [hevidence]
    exact hc.keyed
  posts := by
    rw [hposts]
    exact hc.posts
  handlings h hh := by
    refine ((hhandlings h hh).elim (hc.handlings h) id).mono ?_ ?_
    · exact hposts ▸ List.prefix_rfl
    · rw [hevidence]
      exact fun _ hrow => hrow

theorem Represents.row (hc : Represents cfg c l) {k : String} {row : EvidenceEvent} (hrow : row.idempotencyKey = k)
    (hposts : c'.posts = c.posts)
    (hevidence : ∀ key, c'.database.evidence.get? key = if key = k then some row else c.database.evidence.get? key)
    (hhandlings : ∀ h ∈ c'.handlings, h ∈ c.handlings ∨ h.Ok cfg c') :
    Represents cfg c' { l with store := Function.update l.store k (some row) } where
  store key := by
    rw [hevidence]
    by_cases he : key = k
    · rw [if_pos he, he]
      exact (Function.update_self k (some row) l.store).symm
    · rw [if_neg he, hc.store]
      exact (Function.update_of_ne he (some row) l.store).symm
  keyed key row' hrow' := by
    rw [hevidence] at hrow'
    split at hrow'
    · rename_i he
      rw [← Option.some.inj hrow', hrow, he]
    · exact hc.keyed key row' hrow'
  posts := by
    rw [hposts]
    exact hc.posts
  handlings h hh := by
    refine (hhandlings h hh).elim (fun hold => (hc.handlings h hold).mono ?_ fun key hsome => ?_) id
    · exact hposts ▸ List.prefix_rfl
    · rw [hevidence]
      split
      · exact Option.some_ne_none row
      · exact hsome

end

section
variable [JsText.Runtime] {env : TelemetryEnv} {c c' : Cloud} {l : Link TelemetryRecord String EvidenceEvent}

/-- nobody else stores anything under a key of the device -/
def Event.Foreign (cfg : Config) : Event → Prop
  | .foreign input => input.idempotencyKey ∉ (protocol cfg).own
  | _ => True

/-- a statement writes the first row of its key, or leaves the evidence alone -/
theorem Represents.statement (hc : Represents cfg c l) {i : ℕ} {h : Handling} (hi : c.handlings[i]? = some h)
    {draw : Ingestion.StepDraw} {o : Ingestion.Outcome} (ho : h.task.step c.database draw = some o) :
    ∃ l', (protocol cfg).Reaches l l' ∧ l'.sent = l.sent ∧ l'.acked = l.acked ∧
      Represents cfg { c with database := o.database, handlings := c.handlings.set i (h.after o.task) } l' := by
  have hok := hc.handlings h (List.mem_of_getElem? hi)
  have hbusy : h.task ≠ .finished := by
    intro he
    rw [he] at ho
    cases ho
  obtain ⟨input, hinput, hrow⟩ := hok.active hbusy
  obtain ⟨hleft, hevidence⟩ := step_evidence ho
  -- the handling is beyond its insert now
  have hnext {c'' : Cloud} (hposts : c''.posts = c.posts) (hhas : c''.Has input) : (h.after o.task).Ok cfg c'' := by
    refine ⟨?_, hok.foreign, fun _ => ⟨input, hinput, .inr ⟨hleft, hhas⟩⟩, fun _ => ⟨input, hinput, hhas⟩⟩
    rw [hposts]
    exact hok.own
  have hset (h' : Handling) (hh' : h' ∈ c.handlings.set i (h.after o.task)) : h' ∈ c.handlings ∨ h' = h.after o.task :=
    List.mem_or_eq_of_mem_set hh'
  have hstay (hhas : c.Has input) (hsame : o.database.evidence = c.database.evidence) :
      Represents cfg { c with database := o.database, handlings := c.handlings.set i (h.after o.task) } l := by
    refine hc.quiet rfl hsame fun h' hh' => (hset h' hh').imp_right ?_
    rintro rfl
    exact hnext rfl hhas
  rcases hevidence with ⟨input', htask, hinserted⟩ | ⟨hno, hsame⟩
  · obtain rfl : input' = input := by
      rcases hrow with hrow | ⟨hrow, -⟩
      · exact Task.insertEvidence.inj (htask.symm.trans hrow)
      · rw [htask] at hrow
        cases hrow
    by_cases hfree : c.database.evidence.get? input'.idempotencyKey = none
    · have hget := insertEvidence_get? c.database (Ingestion.evidenceRow input' draw.toDraw)
      rw [← hinserted] at hget
      have hevidence (key : String) : o.database.evidence.get? key =
          if key = input'.idempotencyKey then some (Ingestion.evidenceRow input' draw.toDraw)
          else c.database.evidence.get? key := by
        rw [hget]
        exact if_congr (and_iff_right hfree) rfl rfl
      have hhas : o.database.evidence.get? input'.idempotencyKey ≠ none := by
        rw [hevidence, if_pos rfl]
        exact Option.some_ne_none _
      let row := Ingestion.evidenceRow input' draw.toDraw
      have hstored : Represents cfg { c with database := o.database, handlings := c.handlings.set i (h.after o.task) }
          { l with store := Function.update l.store input'.idempotencyKey (some row) } := by
        refine hc.row rfl rfl hevidence fun h' hh' => (hset h' hh').imp_right ?_
        rintro rfl
        exact hnext rfl hhas
      refine ⟨{ l with store := Function.update l.store input'.idempotencyKey (some row) }, ?_, rfl, rfl, hstored⟩
      rw [hc.store] at hfree
      cases hpost : h.post with
      | none => exact .one (.other _ _ (hok.foreign hpost input' hinput) hfree)
      | some p =>
        obtain ⟨hlt, hrec⟩ := hok.own p hpost
        obtain ⟨rec, hsent, htext⟩ := hc.posts _ (List.getElem_mem hlt)
        obtain rfl := hrec rec ((List.getElem?_eq_getElem hlt).trans (congrArg some htext)) input' hinput
        exact .one (.keep rec _ hsent hfree ⟨draw.toDraw, rfl⟩)
    · refine ⟨l, .refl, rfl, rfl, hstay hfree ?_⟩
      obtain ⟨row, hrow⟩ := Option.ne_none_iff_exists'.mp hfree
      rw [hinserted]
      unfold Ingestion.insertEvidence
      rw [show (Ingestion.evidenceRow input' draw.toDraw).idempotencyKey = input'.idempotencyKey from rfl, hrow]
  · refine ⟨l, .refl, rfl, rfl, hstay ?_ hsame⟩
    rcases hrow with hrow | ⟨-, hhas⟩
    · rw [hrow] at hno
      cases hno
    · exact hhas

omit [JsText.Runtime] in
theorem Represents.post (hc : Represents cfg c l) (rec : TelemetryRecord) :
    Represents cfg (c.post (gridProofBody cfg rec).text) { l with sent := insert rec l.sent } where
  store := hc.store
  keyed := hc.keyed
  posts text htext := by
    rcases List.mem_append.mp htext with htext | htext
    · obtain ⟨rec', hsent, he⟩ := hc.posts text htext
      exact ⟨rec', Set.mem_insert_of_mem _ hsent, he⟩
    · exact ⟨rec, Set.mem_insert _ _, List.mem_singleton.mp htext⟩
  handlings h hh := (hc.handlings h hh).mono (List.prefix_append _ _) fun _ hrow => hrow

/-- the posts of a cloud only become more -/
theorem Cloud.next_posts {event : Event} (h : c.next env event = some c') : c'.posts = c.posts := by
  cases event with
  | arrive post instanceId a =>
    obtain ⟨apis, added, -, rfl⟩ := Cloud.arrive_adds h
    rfl
  | statement i draw =>
    obtain ⟨h', -, hstep⟩ := Option.bind_eq_some_iff.mp h
    obtain ⟨o, -, rfl⟩ := Option.map_eq_some_iff.mp hstep
    rfl
  | fail i =>
    obtain ⟨h', -, rfl⟩ := Option.map_eq_some_iff.mp h
    rfl
  | abandon i =>
    obtain ⟨h', -, rfl⟩ := Option.map_eq_some_iff.mp h
    rfl
  | foreign input =>
    obtain rfl := Option.some.inj h
    rfl
  | restart instanceId =>
    obtain rfl := Option.some.inj h
    rfl
  | work f =>
    obtain rfl := Option.some.inj h
    rfl

variable (hcfg : cfg.Identities env.zod) (hparse : ReadsUtc env.parse)
include hcfg hparse

/-- **What happens in the cloud is at most one step of the protocol.** -/
theorem Represents.next (hc : Represents cfg c l) {event : Event} (hforeign : event.Foreign cfg)
    (h : c.next env event = some c') :
    ∃ l', (protocol cfg).Reaches l l' ∧ l'.sent = l.sent ∧ l'.acked = l.acked ∧ Represents cfg c' l' := by
  cases event with
  | arrive post instanceId a =>
    have hbind : (c.posts[post]?).isSome = true := by
      cases hpost : c.posts[post]? with
      | some text => rfl
      | none =>
        change c.arrive env post instanceId a = some c' at h
        unfold Cloud.arrive at h
        rw [hpost] at h
        cases h
    obtain ⟨text, hpost⟩ := Option.isSome_iff_exists.mp hbind
    obtain ⟨rec, -, rfl⟩ := hc.posts text (List.mem_of_getElem? hpost)
    obtain ⟨apis, added, hadded, rfl⟩ := arrive_record hcfg hparse hpost h
    refine ⟨l, .refl, rfl, rfl, hc.quiet rfl rfl fun h hh => ?_⟩
    refine (List.mem_append.mp hh).imp_right fun hh => ?_
    obtain rfl := List.mem_singleton.mp hh
    exact Handling.ok_arrived hadded hpost fun rec' => evidenceOf_text hcfg hparse
  | foreign input =>
    obtain rfl := Option.some.inj h
    refine ⟨l, .refl, rfl, rfl, hc.quiet rfl rfl fun h hh => ?_⟩
    refine (List.mem_append.mp hh).imp_right fun hh => ?_
    obtain rfl := List.mem_singleton.mp hh
    constructor
    · intro p hp
      cases hp
    · intro _ input' hinput
      rw [← Option.some.inj hinput]
      exact hforeign
    · exact fun _ => ⟨input, rfl, .inl rfl⟩
    · rintro (htaken | htaken)
      · cases htaken
      · cases htaken
  | statement i draw =>
    obtain ⟨h', hi, hstep⟩ := Option.bind_eq_some_iff.mp h
    obtain ⟨o, ho, rfl⟩ := Option.map_eq_some_iff.mp hstep
    exact hc.statement hi ho
  | fail i =>
    obtain ⟨h', hi, rfl⟩ := Option.map_eq_some_iff.mp h
    refine ⟨l, .refl, rfl, rfl, hc.quiet rfl rfl fun h hh => (List.mem_or_eq_of_mem_set hh).imp_right ?_⟩
    rintro rfl
    exact (hc.handlings h' (List.mem_of_getElem? hi)).stop ⟨by decide, by decide⟩
  | abandon i =>
    obtain ⟨h', hi, rfl⟩ := Option.map_eq_some_iff.mp h
    refine ⟨l, .refl, rfl, rfl, hc.quiet rfl rfl fun h hh => (List.mem_or_eq_of_mem_set hh).imp_right ?_⟩
    rintro rfl
    exact (hc.handlings h' (List.mem_of_getElem? hi)).stop ⟨by decide, by decide⟩
  | restart instanceId =>
    obtain rfl := Option.some.inj h
    exact ⟨l, .refl, rfl, rfl, hc.quiet rfl rfl fun _ hh => .inl hh⟩
  | work f =>
    obtain rfl := Option.some.inj h
    exact ⟨l, .refl, rfl, rfl, hc.quiet rfl rfl fun _ hh => .inl hh⟩

/-- **What happens in the cloud in a row is a run of the protocol.** -/
theorem Represents.run {events : List Event} (hc : Represents cfg c l) (hforeign : ∀ e ∈ events, e.Foreign cfg)
    (h : Runs.run (Cloud.next env) c events = some c') :
    ∃ l', (protocol cfg).Reaches l l' ∧ l'.sent = l.sent ∧ l'.acked = l.acked ∧ Represents cfg c' l' := by
  induction events generalizing c l with
  | nil =>
    obtain rfl := Option.some.inj h
    exact ⟨l, .refl, rfl, rfl, hc⟩
  | cons event events ih =>
    obtain ⟨hevent, hevents⟩ := List.forall_mem_cons.mp hforeign
    obtain ⟨c₁, hnext, hrest⟩ := Runs.run_cons_eq_some h
    obtain ⟨l₁, hreach, hsent, hacked, hc₁⟩ := hc.next hcfg hparse hevent hnext
    obtain ⟨l', hreach', hsent', hacked', hc'⟩ := ih hc₁ hevents hrest
    exact ⟨l', hreach.trans hreach', hsent'.trans hsent, hacked'.trans hacked, hc'⟩

/-! ## the end of a POST -/

/-- **A POST is sent, and where the device is told that the reading was taken, it is acknowledged.** -/
theorem Represents.exchange (hc : Represents cfg c l) {rec : TelemetryRecord} {code : ℤ} {x : Exchange}
    (hforeign : ∀ e ∈ x.during, e.Foreign cfg)
    (h : c.exchange env (gridProofBody cfg rec).text code x = some c') :
    ∃ l', (protocol cfg).Reaches l l' ∧ l'.sent = insert rec l.sent ∧
      (code = 200 ∨ code = 202 → rec ∈ l'.acked) ∧ Represents cfg c' l' := by
  obtain ⟨c₁, hrun, hanswer⟩ := Option.bind_eq_some_iff.mp h
  split at hanswer
  · rename_i hanswers
    obtain rfl := Option.some.inj hanswer
    obtain ⟨l₁, hreach, hsent, hacked, hc₁⟩ := (hc.post rec).run hcfg hparse hforeign hrun
    have hreach₁ : (protocol cfg).Reaches l l₁ := Protocol.Reaches.trans (.one (.send rec)) hreach
    by_cases htaken : code = 200 ∨ code = 202
    · have hposts : c₁.posts = (c.post (gridProofBody cfg rec).text).posts :=
        Runs.run_inv_all (fun c' => c'.posts = (c.post (gridProofBody cfg rec).text).posts)
          (fun _ _ _ hs hnext => (Cloud.next_posts hnext).trans hs) rfl hrun
      cases hx : x.answer with
      | none =>
        rw [hx] at hanswers
        exact (htaken.elim hanswers.1 hanswers.2).elim
      | some i =>
        rw [hx] at hanswers
        obtain ⟨h', hi, hpost, hstatus⟩ := hanswers
        have hok := hc₁.handlings h' (List.mem_of_getElem? hi)
        obtain ⟨-, hrec⟩ := hok.own _ hpost
        obtain ⟨input, hinput, hhas⟩ := hok.taken (by
          rw [hstatus]
          exact htaken.imp (congrArg some) (congrArg some))
        have htext : c₁.posts[c.posts.length]? = some (gridProofBody cfg rec).text := by
          rw [hposts]
          exact List.getElem?_concat_length
        obtain rfl := hrec rec htext input hinput
        have hkept : l₁.store ((protocol cfg).key rec) ≠ none := by
          rw [← hc₁.store]
          exact hhas
        have hmem : rec ∈ l₁.sent := by
          rw [hsent]
          exact Set.mem_insert _ _
        exact ⟨{ l₁ with acked := insert rec l₁.acked }, hreach₁.trans (.one (.ack rec hmem hkept)), hsent,
          fun _ => Set.mem_insert _ _, ⟨hc₁.store, hc₁.keyed, hc₁.posts, hc₁.handlings⟩⟩
    · exact ⟨l₁, hreach₁, hsent, fun h => absurd h htaken, hc₁⟩
  · cases hanswer

end

end Uplink
