import GridProof.Ingestion.Telemetry
import GridProof.Limiter.Buckets

/-!
# What unsigned traffic does to a device

Two runs of the telemetry endpoint with the same correctly signed calls.  Calls without a correct signature reach
nothing but the counters of the rate limit, which is asked before the signature is read.

* `answers_eq`      every call is answered by the limiter's counters and by the call itself;
* `same_accepted`   the same correctly signed calls are accepted in both runs if their counters leave room for
                    the same of them;
* `rooms_same_of_few`   they do where no more calls than the limit name a device in a bucket.
-/

namespace Ingestion
open RateLimit (Counters Reply rateLimit)

/-! ## signed calls -/

section
variable [JsText.Runtime]

/-- the call carries a correct signature of its body -/
def isSigned (secret : String) (c : TelemetryCall) : Bool :=
  match c.body with
  | .telemetry input => isValidTelemetrySignature input secret = some true
  | .other _ => false

/-- the comparison of the signatures does not throw -/
def isComparable (secret : String) (c : TelemetryCall) : Bool :=
  match c.body with
  | .telemetry input => (isValidTelemetrySignature input secret).isSome
  | .other _ => true

section
variable {env : TelemetryEnv} {secret : String} (hsecret : env.hmacSecret = some secret) {c : TelemetryCall}

omit [JsText.Runtime] in
theorem validateBody_ok {zod : Zod} {body : JsonBody} {input : TelemetryBody}
    (h : validateBody zod body = .ok input) : body = .telemetry input := by
  cases body with
  | other deviceId => cases h
  | telemetry b =>
    by_cases hb : Accepted zod b
    · obtain rfl := Except.ok.inj ((if_pos hb).symm.trans h)
      rfl
    · exact absurd ((if_neg hb).symm.trans h) nofun

/-- what is handed to the handler is the body of the call -/
theorem checkTelemetry_cases (env : TelemetryEnv) (c : TelemetryCall) :
    (∃ e, checkTelemetry env c = .error e) ∨
      ∃ input, c.body = .telemetry input ∧ checkTelemetry env c = env.handle input := by
  unfold checkTelemetry
  cases hbody : validateBody env.zod c.body with
  | error e => exact .inl ⟨e, rfl⟩
  | ok input =>
    cases htime : env.validateTime input c.now with
    | error e =>
      refine .inl ⟨e, ?_⟩
      simp only [htime]
    | ok u =>
      refine .inr ⟨input, validateBody_ok hbody, ?_⟩
      simp only [htime]

include hsecret

/-- what becomes of a body is decided by its signature -/
theorem handle_eq (input : TelemetryBody) :
    (isValidTelemetrySignature input secret = none ∧ env.handle input = .threw) ∨
      (isValidTelemetrySignature input secret = some false ∧ ∃ e, env.handle input = .error e) ∨
      isValidTelemetrySignature input secret = some true ∧ env.handle input = .accepted input := by
  unfold TelemetryEnv.handle
  rcases hvalid : isValidTelemetrySignature input secret with _ | (_ | _)
  · exact .inl ⟨rfl, by simp only [hsecret, hvalid]⟩
  · refine .inr (.inl ⟨rfl, ⟨401, "BAD_SIGNATURE", "Telemetry signature is invalid"⟩, ?_⟩)
    simp only [hsecret, hvalid]
  · exact .inr (.inr ⟨rfl, by simp only [hsecret, hvalid]⟩)

theorem checkTelemetry_ne_threw (h : isComparable secret c = true) : checkTelemetry env c ≠ .threw := by
  intro hthrew
  rcases checkTelemetry_cases env c with ⟨e, he⟩ | ⟨input, hbody, hinput⟩
  · rw [he] at hthrew
    cases hthrew
  · rw [hinput] at hthrew
    rcases handle_eq hsecret input with ⟨hvalid, -⟩ | ⟨-, e, he⟩ | ⟨-, haccepted⟩
    · have hsome : (isValidTelemetrySignature input secret).isSome = true := by
        unfold isComparable at h
        rw [hbody] at h
        exact h
      rw [hvalid] at hsome
      cases hsome
    · rw [he] at hthrew
      cases hthrew
    · rw [haccepted] at hthrew
      cases hthrew

end

/-! ## one run -/

section
variable (env : TelemetryEnv)

/-- the limiter alone -/
def limiterStep (counters : Counters) (c : TelemetryCall) : Counters × Reply :=
  rateLimit env.rateLimit counters c.limited

/-- the answer to a call that the limiter has answered -/
def respond (e : TelemetryCall × Reply) : Response :=
  match e.2.error with
  | some error => .error error
  | none => checkTelemetry env e.1

variable {env} {secret : String} (hsecret : env.hmacSecret = some secret)
include hsecret

theorem telemetry_eq (hsource : requireEvidenceSource env.evidenceMode .sensor = none) {c : TelemetryCall}
    (hc : isComparable secret c = true) (counters : Counters) : telemetry env ⟨counters, true⟩ c =
      (⟨(limiterStep env counters c).1, true⟩, respond env (c, (limiterStep env counters c).2)) := by
  unfold telemetry respond limiterStep
  rw [hsource]
  have hthrew := checkTelemetry_ne_threw hsecret hc
  generalize rateLimit env.rateLimit counters c.limited = q
  obtain ⟨counters', headers, error⟩ := q
  cases error with
  | some error => rfl
  | none =>
    cases h : checkTelemetry env c with
    | threw => exact absurd h hthrew
    | _ => rfl

/-- **every call is answered by the limiter's counters and by the call itself** -/
theorem answers_eq (hsource : requireEvidenceSource env.evidenceMode .sensor = none) {xs : List TelemetryCall}
    (hxs : ∀ c ∈ xs, isComparable secret c = true) (counters : Counters) :
    Keyed.answers (telemetry env) ⟨counters, true⟩ xs =
      (Keyed.answers (limiterStep env) counters xs).map fun e => (e.1, respond env e) := by
  induction xs generalizing counters with
  | nil => rfl
  | cons c xs ih =>
    obtain ⟨hc, hxs⟩ := List.forall_mem_cons.mp hxs
    rw [Keyed.answers_cons, Keyed.answers_cons, telemetry_eq hsecret hsource hc, List.map_cons, ih hxs]

end

/-! ## two runs -/

section
variable (env : TelemetryEnv) (secret : String) (xs : List TelemetryCall)

/-- for each correctly signed call, in order, whether it is accepted -/
def verdicts : List Bool :=
  ((Keyed.answers (telemetry env) Api.start xs).filter fun e => isSigned secret e.1).map fun e => e.2.isAccepted

/-- for each correctly signed call that stands the checks behind the limiter, in order, whether the limiter's
counter leaves room for it -/
def rooms : List Bool :=
  (((Keyed.answers (limiterStep env) Counters.empty xs).filter fun e => isSigned secret e.1).filter fun e =>
    (checkTelemetry env e.1).isAccepted).map fun e => e.2.error = none

end

theorem respond_isAccepted (env : TelemetryEnv) (e : TelemetryCall × Reply) :
    (respond env e).isAccepted = ((checkTelemetry env e.1).isAccepted && decide (e.2.error = none)) := by
  unfold respond
  cases e.2.error with
  | some error => simp [Response.isAccepted]
  | none => simp

omit [JsText.Runtime] in
/-- two lists that agree in a first part, and in a second part where the first one has a property -/
theorem map_and_congr {α β γ : Type*} {f : α → γ} {f' : β → γ} (p : γ → Bool) {g : α → Bool} {g' : β → Bool}
    {as : List α} {bs : List β} (hf : as.map f = bs.map f')
    (hg : (as.filter fun a => p (f a)).map g = (bs.filter fun b => p (f' b)).map g') :
    (as.map fun a => p (f a) && g a) = bs.map fun b => p (f' b) && g' b := by
  induction as generalizing bs with
  | nil =>
    obtain rfl := List.map_eq_nil_iff.mp hf.symm
    rfl
  | cons a as ih =>
    cases bs with
    | nil => cases hf
    | cons b bs =>
      obtain ⟨hab, hrest⟩ := List.cons.inj hf
      rw [List.map_cons, List.map_cons]
      by_cases ha : p (f a) = true
      · have hb : p (f' b) = true := by rw [← hab]; exact ha
        rw [List.filter_cons_of_pos (p := fun a => p (f a)) ha, List.filter_cons_of_pos (p := fun b => p (f' b)) hb] at hg
        obtain ⟨hhead, htail⟩ := List.cons.inj hg
        rw [ih hrest htail, hhead, hab]
      · have hb : ¬ p (f' b) = true := by rw [← hab]; exact ha
        rw [List.filter_cons_of_neg (p := fun a => p (f a)) ha, List.filter_cons_of_neg (p := fun b => p (f' b)) hb] at hg
        rw [ih hrest hg, hab, Bool.eq_false_of_not_eq_true hb, Bool.false_and, Bool.false_and]

section
variable {env : TelemetryEnv} {secret : String} (hsecret : env.hmacSecret = some secret)

/-- what a disabled source refuses is not accepted -/
theorem verdicts_disabled {error : RateLimit.HttpError}
    (hsource : requireEvidenceSource env.evidenceMode .sensor = some error) (xs : List TelemetryCall) :
    verdicts env secret xs = (xs.filter (isSigned secret)).map fun _ => false := by
  have hstep : ∀ c, telemetry env Api.start c = (Api.start, .error error) := by
    intro c
    unfold telemetry
    rw [hsource]
    rfl
  unfold verdicts
  rw [Keyed.answers_const _ hstep, List.filter_map, List.map_map]
  rfl

/-- no more calls than the limit name a device in a bucket, signed or not -/
def Few (env : TelemetryEnv) (xs : List TelemetryCall) : Prop :=
  ∀ identity bucket, (RateLimit.inBucket env.rateLimit (xs.map TelemetryCall.limited) .telemetry identity
    bucket).length ≤ env.rateLimit.limit .telemetry

theorem rooms_of_few {xs : List TelemetryCall} (hfew : Few env xs) : rooms env secret xs =
    ((xs.filter (isSigned secret)).filter fun c => (checkTelemetry env c).isAccepted).map fun _ => true := by
  have hroom : ∀ e ∈ Keyed.answers (limiterStep env) Counters.empty xs, e.2.error = none := by
    intro e he
    have hmem := List.mem_map_of_mem (f := Prod.map TelemetryCall.limited id) he
    unfold limiterStep at hmem
    rw [Keyed.answers_map] at hmem
    exact RateLimit.passes_of_few hmem (hfew _ _)
  have hmap : rooms env secret xs = ((((Keyed.answers (limiterStep env) Counters.empty xs).filter fun e =>
      isSigned secret e.1).filter fun e => (checkTelemetry env e.1).isAccepted).map Prod.fst).map fun _ => true := by
    rw [List.map_map]
    refine List.map_congr_left fun e he => ?_
    exact decide_eq_true (hroom e (List.mem_of_mem_filter (List.mem_of_mem_filter he)))
  rw [hmap, List.filter_filter, Keyed.answers_filter_fst _ fun c =>
    (checkTelemetry env c).isAccepted && isSigned secret c, List.filter_filter]

/-- in two such runs there is room for the same calls -/
theorem rooms_same_of_few {xs ys : List TelemetryCall}
    (hsame : xs.filter (isSigned secret) = ys.filter (isSigned secret)) (hfew : Few env xs) (hfew' : Few env ys) :
    rooms env secret xs = rooms env secret ys := by
  rw [rooms_of_few hfew, rooms_of_few hfew', hsame]

include hsecret

/-- a correctly signed call is accepted iff it stands the checks and finds room -/
theorem verdicts_eq (hsource : requireEvidenceSource env.evidenceMode .sensor = none) {xs : List TelemetryCall}
    (hxs : ∀ c ∈ xs, isComparable secret c = true) : verdicts env secret xs =
      ((Keyed.answers (limiterStep env) Counters.empty xs).filter fun e => isSigned secret e.1).map fun e =>
        (checkTelemetry env e.1).isAccepted && decide (e.2.error = none) := by
  unfold verdicts
  show ((Keyed.answers (telemetry env) ⟨Counters.empty, true⟩ xs).filter _).map _ = _
  rw [answers_eq hsecret hsource hxs, List.filter_map, List.map_map]
  exact List.map_congr_left fun e _ => respond_isAccepted env e

theorem verdicts_same {xs ys : List TelemetryCall}
    (hsame : xs.filter (isSigned secret) = ys.filter (isSigned secret))
    (hxs : ∀ c ∈ xs, isComparable secret c = true) (hys : ∀ c ∈ ys, isComparable secret c = true)
    (hroom : rooms env secret xs = rooms env secret ys) : verdicts env secret xs = verdicts env secret ys := by
  cases hsource : requireEvidenceSource env.evidenceMode .sensor with
  | some error => rw [verdicts_disabled hsource, verdicts_disabled hsource, hsame]
  | none =>
    rw [verdicts_eq hsecret hsource hxs, verdicts_eq hsecret hsource hys]
    refine map_and_congr (fun c => (checkTelemetry env c).isAccepted) ?_ hroom
    rw [Keyed.answers_filter_fst, Keyed.answers_filter_fst, hsame]

/-- **the same correctly signed calls are accepted** in two runs with the same of them, if the limiter's counters
leave room for the same of them; they do for all of them where no more calls than the limit name a device in a
bucket -/
theorem same_accepted {xs ys : List TelemetryCall}
    (hsame : xs.filter (isSigned secret) = ys.filter (isSigned secret))
    (hxs : ∀ c ∈ xs, isComparable secret c = true) (hys : ∀ c ∈ ys, isComparable secret c = true) :
    (rooms env secret xs = rooms env secret ys → verdicts env secret xs = verdicts env secret ys) ∧
      (Few env xs → rooms env secret xs =
        ((xs.filter (isSigned secret)).filter fun c => (checkTelemetry env c).isAccepted).map fun _ => true) ∧
      (Few env xs → Few env ys → verdicts env secret xs = verdicts env secret ys) :=
  ⟨verdicts_same hsecret hsame hxs hys, rooms_of_few,
    fun hfew hfew' => verdicts_same hsecret hsame hxs hys (rooms_same_of_few hsame hfew hfew')⟩

end

end

/-! ## a device that is silenced -/

/-- one call a minute -/
def sampleTelemetryEnv : TelemetryEnv where
  zod := sampleZod
  evidenceMode := none
  rateLimit := ⟨none, some 1, false⟩
  window := .default
  parse text := some ⟨text, 1767276000000000⟩
  production := true
  hmacSecret := some "test-secret"
  rejectionsHandled := false

def readingBody (deviceId signature : String) : TelemetryBody where
  deviceId := deviceId
  providerWallet := "0x1111111111111111111111111111111111111111"
  zoneId := "11111111-1111-4111-8111-111111111111"
  idempotencyKey := "m-1-2026-01-01T14:00:00Z"
  observedAt := "2026-01-01T14:00:00.000Z"
  status := .gridUp
  voltage := none
  currentAmps := none
  signature := signature

def readingCall (body : TelemetryBody) (start : ℕ) : TelemetryCall where
  body := .telemetry body
  ip := none
  remoteAddress := none
  clock := ⟨start, start, start, start, start, start⟩
  attempt := .lost
  now := start

/-- what the limiter reads of such a call -/
def readingRequest (deviceId : String) (start : ℕ) : RateLimit.Request where
  limiter := .telemetry
  key := some deviceId
  ip := none
  remoteAddress := none
  clock := ⟨start, start, start, start, start, start⟩
  attempt := .lost

/-- the room of a reading behind a call of the given device -/
def roomBehind [JsText.Runtime] (deviceId : String) : Option RateLimit.HttpError :=
  (rateLimit sampleTelemetryEnv.rateLimit (rateLimit sampleTelemetryEnv.rateLimit .empty
    (readingRequest deviceId 1767276001000)).1 (readingRequest "m-1" 1767276002000)).2.error

/-- a reading with the signature of its device -/
def signedBody : TelemetryBody := (readingBody "m-1" "").sign "test-secret"

def signedCall : TelemetryCall := readingCall signedBody 1767276002000

/-- a reading of the device, sent by somebody who does not know its secret -/
def unsignedCall (deviceId : String) : TelemetryCall :=
  readingCall (readingBody deviceId "00000000000000000000000000000000") 1767276001000

theorem signedBody_valid : letI := JsText.asciiRuntime
    isValidTelemetrySignature signedBody "test-secret" = some true :=
  isValid_sign _ _

theorem unsigned_invalid (deviceId : String) : letI := JsText.asciiRuntime
    isValidTelemetrySignature (readingBody deviceId "00000000000000000000000000000000") "test-secret" =
      some false := by
  let _ := JsText.asciiRuntime
  apply isValid_length
  show JsText.utf16Length (JsText.asciiLower "00000000000000000000000000000000") ≠ 64
  decide

theorem signedBody_accepted : Accepted sampleZod signedBody := by
  refine ⟨by decide, by decide, by decide +kernel, by decide, by decide, ?_⟩
  show 32 ≤ JsText.utf16Length (hmacHex _ _)
  rw [hmacHex_utf16Length]
  decide

theorem signedBody_inTime : sampleTelemetryEnv.validateTime signedBody 1767276002000 = .ok () := by
  unfold TelemetryEnv.validateTime validateObservedAt
  show Except.mapError _ (if _ then _ else if _ then _ else _) = _
  rw [if_neg (by decide), if_neg (by decide)]
  rfl

section
variable [JsText.Runtime] (secret : String) (body : TelemetryBody) (start : ℕ)

theorem isSigned_reading : isSigned secret (readingCall body start) =
    decide (isValidTelemetrySignature body secret = some true) := rfl

theorem isComparable_reading : isComparable secret (readingCall body start) =
    (isValidTelemetrySignature body secret).isSome := rfl

theorem checkTelemetry_reading {env : TelemetryEnv} (hbody : Accepted env.zod body)
    (htime : env.validateTime body start = .ok ()) :
    checkTelemetry env (readingCall body start) = env.handle body := by
  unfold checkTelemetry
  rw [show validateBody env.zod (readingCall body start).body = .ok body from if_pos hbody]
  simp only [show (readingCall body start).now = start from rfl, htime]

end

theorem signedCall_checked : letI := JsText.asciiRuntime
    checkTelemetry sampleTelemetryEnv signedCall = .accepted signedBody := by
  let _ := JsText.asciiRuntime
  refine (checkTelemetry_reading signedBody 1767276002000 signedBody_accepted signedBody_inTime).trans ?_
  have hsecret : sampleTelemetryEnv.hmacSecret = some "test-secret" := rfl
  rcases handle_eq hsecret signedBody with ⟨hvalid, -⟩ | ⟨hvalid, -⟩ | ⟨-, h⟩
  · exact absurd (hvalid.symm.trans signedBody_valid) nofun
  · exact absurd (hvalid.symm.trans signedBody_valid) nofun
  · exact h

theorem signedCall_signed : letI := JsText.asciiRuntime
    isSigned "test-secret" signedCall = true ∧ isComparable "test-secret" signedCall = true := by
  let _ := JsText.asciiRuntime
  unfold signedCall
  rw [isSigned_reading, isComparable_reading, signedBody_valid]
  exact ⟨rfl, rfl⟩

theorem unsignedCall_unsigned (deviceId : String) : letI := JsText.asciiRuntime
    isSigned "test-secret" (unsignedCall deviceId) = false ∧
      isComparable "test-secret" (unsignedCall deviceId) = true := by
  let _ := JsText.asciiRuntime
  unfold unsignedCall
  rw [isSigned_reading, isComparable_reading, unsigned_invalid]
  exact ⟨rfl, rfl⟩

section
variable [JsText.Runtime]

theorem limiterStep_signed (counters : Counters) : limiterStep sampleTelemetryEnv counters signedCall =
    rateLimit sampleTelemetryEnv.rateLimit counters (readingRequest "m-1" 1767276002000) := rfl

theorem limiterStep_unsigned (counters : Counters) (deviceId : String) :
    limiterStep sampleTelemetryEnv counters (unsignedCall deviceId) =
      rateLimit sampleTelemetryEnv.rateLimit counters (readingRequest deviceId 1767276001000) := rfl

end

theorem sample_room : letI := JsText.asciiRuntime
    (rateLimit sampleTelemetryEnv.rateLimit .empty (readingRequest "m-1" 1767276002000)).2.error = none ∧
      roomBehind "m-1" ≠ none ∧ roomBehind "m-2" = none := by
  decide +kernel

theorem sample_source : letI := JsText.asciiRuntime
    requireEvidenceSource sampleTelemetryEnv.evidenceMode .sensor = none := by
  decide +kernel

theorem signedCall_accepted : letI := JsText.asciiRuntime
    (checkTelemetry sampleTelemetryEnv signedCall).isAccepted = true := by
  rw [signedCall_checked]
  rfl

/-- a reading that stands alone is accepted, and one behind another call if that leaves room -/
theorem sample_verdicts (deviceId : String) : letI := JsText.asciiRuntime
    verdicts sampleTelemetryEnv "test-secret" [signedCall] = [true] ∧
      verdicts sampleTelemetryEnv "test-secret" [unsignedCall deviceId, signedCall] =
        [decide (roomBehind deviceId = none)] := by
  let _ := JsText.asciiRuntime
  obtain ⟨hsigned, hcomparable⟩ := signedCall_signed
  obtain ⟨hunsigned, hcomparable'⟩ := unsignedCall_unsigned deviceId
  constructor
  · rw [verdicts_eq rfl sample_source (List.forall_mem_singleton.mpr hcomparable)]
    simp [Keyed.answers, hsigned, signedCall_accepted, limiterStep_signed, sample_room.1]
  · rw [verdicts_eq rfl sample_source
      (List.forall_mem_cons.mpr ⟨hcomparable', List.forall_mem_singleton.mpr hcomparable⟩)]
    simp [Keyed.answers, hsigned, hunsigned, signedCall_accepted, limiterStep_signed, limiterStep_unsigned, roomBehind]
    exact decide_eq_decide.mpr Iff.rfl

theorem sample_same (deviceId : String) : letI := JsText.asciiRuntime
    [signedCall].filter (isSigned "test-secret") =
      [unsignedCall deviceId, signedCall].filter (isSigned "test-secret") := by
  let _ := JsText.asciiRuntime
  exact (List.filter_cons_of_neg (by rw [(unsignedCall_unsigned deviceId).1]; decide)).symm

/-- one call that only names the device takes the room of its reading -/
theorem silenced : letI := JsText.asciiRuntime
    [signedCall].filter (isSigned "test-secret") =
        [unsignedCall "m-1", signedCall].filter (isSigned "test-secret") ∧
      verdicts sampleTelemetryEnv "test-secret" [signedCall] = [true] ∧
      verdicts sampleTelemetryEnv "test-secret" [unsignedCall "m-1", signedCall] = [false] := by
  let _ := JsText.asciiRuntime
  obtain ⟨halone, hboth⟩ := sample_verdicts "m-1"
  refine ⟨sample_same _, halone, hboth.trans ?_⟩
  rw [decide_eq_false sample_room.2.1]

/-- a call that names another device takes no room -/
theorem same_accepted_other : letI := JsText.asciiRuntime
    verdicts sampleTelemetryEnv "test-secret" [unsignedCall "m-2", signedCall] = [true] := by
  let _ := JsText.asciiRuntime
  obtain ⟨hsigned, hcomparable⟩ := signedCall_signed
  obtain ⟨hunsigned, hcomparable'⟩ := unsignedCall_unsigned "m-2"
  have hrooms : rooms sampleTelemetryEnv "test-secret" [signedCall] =
      rooms sampleTelemetryEnv "test-secret" [unsignedCall "m-2", signedCall] := by
    have hroom := sample_room.2.2
    unfold roomBehind at hroom
    unfold rooms
    simp [Keyed.answers, hsigned, hunsigned, signedCall_accepted, limiterStep_signed, limiterStep_unsigned, hroom,
      sample_room.1]
  refine ((same_accepted rfl (sample_same "m-2") (List.forall_mem_singleton.mpr hcomparable)
    (List.forall_mem_cons.mpr ⟨hcomparable', List.forall_mem_singleton.mpr hcomparable⟩)).1 hrooms).symm.trans ?_
  exact (sample_verdicts "m-2").1

end Ingestion
