import GridProof.Notifications.Outbox

/-!
# What the outbox says of the webhook

The row of a notification, against the requests that were sent for it, whatever fails and in whatever order the
tasks take their steps.

* `Progress`        the states that a task and its row go through;
* `progress_step`   every step leads from one of them to another;
* `outbox_honest`   what the rows say after every run;
* `outbox_settled`  the same where no statement fails.
-/

namespace Notifications
open Ingestion (DomainEvent)
open Pipeline (IsoDate)
open Runs

/-! ## the errors that are caught -/

/-- `message` of the error that a request ends in, none where it was accepted -/
def Answer.error (answer : Answer) : Option String :=
  match answer with
  | .response status => if answer.ok then none else some ("Notification webhook returned " ++ toString status)
  | .failure message => some (errorMessage message)

/-- `message` of what a statement throws -/
def Outcome.error : Outcome → Option String
  | .done => none
  | .refused message => some (errorMessage message)
  | .lost message => some (errorMessage message)

/-- the statement of the run that was to mark the row as sent has thrown this -/
def MarkThrew (webhook : Webhook) (as : List Action) (id lastError : String) : Prop :=
  ∃ before outcome now after w t, as = before ++ .act id (.query outcome now) :: after ∧
    run (Outbox.next webhook) .start before = some w ∧ w.tasks id = some t ∧ t.phase = .marking .sent none ∧
    outcome.error = some lastError

/-- an error of a request, or of the statement that followed it -/
def Caught (threw : String → Prop) (answer : Answer) (lastError : String) : Prop :=
  answer.error = some lastError ∨ answer.ok = true ∧ threw lastError

/-! ## the states of a task -/

section
variable (webhook : Webhook) (n : NotificationRecord) (threw : String → Prop)

/-- the request for a notification -/
def request (url : String) (answer : Answer) : Post := ⟨url, webhook.authorization, n, answer⟩

/-- the row and the requests in each phase; `n` is the row as it was stored -/
inductive Progress : Phase → Cell → Prop
  | storing : Progress .storing ⟨none, []⟩
  | unstored : Progress .finished ⟨none, []⟩
  | stored : Progress .finished ⟨some n, []⟩
  | posting {url : String} (hurl : webhook.url = some url) : Progress (.posting url) ⟨some n, []⟩
  | accepted {url : String} {answer : Answer} (hurl : webhook.url = some url) (hok : answer.ok = true) :
      Progress (.marking .sent none) ⟨some n, [request webhook n url answer]⟩
  /-- not accepted, or accepted and not marked -/
  | unmarked {url : String} {answer : Answer} (hurl : webhook.url = some url) {lastError : String}
      (hcaught : Caught threw answer lastError) :
      Progress (.marking .failed (some lastError)) ⟨some n, [request webhook n url answer]⟩
  /-- marked as sent by a statement that threw -/
  | marked {url : String} {answer : Answer} (hurl : webhook.url = some url) (hok : answer.ok = true)
      {lastError : String} (hthrew : threw lastError) (now : IsoDate) :
      Progress (.marking .failed (some lastError)) ⟨some (n.marked .sent none now), [request webhook n url answer]⟩
  /-- no statement that marks was done -/
  | left {url : String} {answer : Answer} (hurl : webhook.url = some url) :
      Progress .finished ⟨some n, [request webhook n url answer]⟩
  | sent {url : String} {answer : Answer} (hurl : webhook.url = some url) (hok : answer.ok = true) (now : IsoDate) :
      Progress .finished ⟨some (n.marked .sent none now), [request webhook n url answer]⟩
  | failed {url : String} {answer : Answer} (hurl : webhook.url = some url) {lastError : String}
      (hcaught : Caught threw answer lastError) (now : IsoDate) :
      Progress .finished ⟨some (n.marked .failed (some lastError) now), [request webhook n url answer]⟩
  | failedTwice {url : String} {answer : Answer} (hurl : webhook.url = some url) (hok : answer.ok = true)
      {lastError : String} (hthrew : threw lastError) (now later : IsoDate) :
      Progress .finished ⟨some ((n.marked .sent none now).marked .failed (some lastError) later),
        [request webhook n url answer]⟩

end

/-- what a request leaves behind, and what its answer has the task mark -/
theorem exec_post {webhook : Webhook} {n : NotificationRecord} {phase : Phase} {c c' : Cell} {answer : Answer}
    {t' : Task} (h : exec webhook ⟨n, phase⟩ c (.post answer) = some (t', c')) :
    ∃ url, phase = .posting url ∧ c' = ⟨c.row, c.posts ++ [request webhook n url answer]⟩ ∧
      (answer.ok = true ∧ t' = ⟨n, .marking .sent none⟩ ∨ ∃ lastError, answer.ok = false ∧
        answer.error = some lastError ∧ t' = ⟨n, .marking .failed (some lastError)⟩) := by
  cases phase with
  | posting url =>
    refine ⟨url, rfl, ?_⟩
    cases answer with
    | response status =>
      unfold exec at h
      dsimp only at h
      cases hok : (Answer.response status).ok with
      | true =>
        rw [if_pos hok] at h
        cases h
        exact ⟨rfl, .inl ⟨rfl, rfl⟩⟩
      | false =>
        have hno : ¬(Answer.response status).ok = true := Bool.eq_false_iff.mp hok
        rw [if_neg hno] at h
        cases h
        exact ⟨rfl, .inr ⟨_, rfl, if_neg hno, rfl⟩⟩
    | failure message =>
      cases h
      exact ⟨rfl, .inr ⟨_, rfl, rfl, rfl⟩⟩
  | storing => cases h
  | marking status lastError => cases h
  | finished => cases h

/-- **Every step of a task leads from one of these states to another.** -/
theorem progress_step {webhook : Webhook} {n : NotificationRecord} {threw : String → Prop} {phase : Phase} {c : Cell}
    (h : Progress webhook n threw phase c) {a : Act} (hthrew : ∀ outcome now message, a = .query outcome now →
      phase = .marking .sent none → outcome.error = some message → threw message)
    {t' : Task} {c' : Cell} (hexec : exec webhook ⟨n, phase⟩ c a = some (t', c')) :
    t'.notification = n ∧ Progress webhook n threw t'.phase c' := by
  cases a with
  | query outcome now =>
    cases h with
    | storing =>
      cases outcome with
      | done =>
        cases hexec
        refine ⟨rfl, ?_⟩
        cases hurl : webhook.url with
        | none => exact .stored
        | some url => exact .posting hurl
      | refused message =>
        cases hexec
        exact ⟨rfl, .unstored⟩
      | lost message =>
        cases hexec
        exact ⟨rfl, .stored⟩
    | unstored => cases hexec
    | stored => cases hexec
    | posting hurl => cases hexec
    | accepted hurl hok =>
      cases outcome with
      | done =>
        cases hexec
        exact ⟨rfl, .sent hurl hok now⟩
      | refused message =>
        cases hexec
        exact ⟨rfl, .unmarked hurl (.inr ⟨hok, hthrew _ now _ rfl rfl rfl⟩)⟩
      | lost message =>
        cases hexec
        exact ⟨rfl, .marked hurl hok (hthrew _ now _ rfl rfl rfl) now⟩
    | unmarked hurl hcaught =>
      cases outcome with
      | done =>
        cases hexec
        exact ⟨rfl, .failed hurl hcaught now⟩
      | refused message =>
        cases hexec
        exact ⟨rfl, .left hurl⟩
      | lost message =>
        cases hexec
        exact ⟨rfl, .failed hurl hcaught now⟩
    | marked hurl hok herror first =>
      cases outcome with
      | done =>
        cases hexec
        exact ⟨rfl, .failedTwice hurl hok herror first now⟩
      | refused message =>
        cases hexec
        exact ⟨rfl, .sent hurl hok first⟩
      | lost message =>
        cases hexec
        exact ⟨rfl, .failedTwice hurl hok herror first now⟩
    | left hurl => cases hexec
    | sent hurl hok now => cases hexec
    | failed hurl hcaught now => cases hexec
    | failedTwice hurl hok herror now later => cases hexec
  | post answer =>
    obtain ⟨url, rfl, rfl, hanswer⟩ := exec_post hexec
    cases h with
    | posting hurl =>
      rcases hanswer with ⟨hok, rfl⟩ | ⟨lastError, -, herror, rfl⟩
      · exact ⟨rfl, .accepted hurl hok⟩
      · exact ⟨rfl, .unmarked hurl (.inl herror)⟩

/-! ## the rows -/

/-- the row as it was stored -/
def NotificationRecord.asStored (row : NotificationRecord) : NotificationRecord :=
  { row with
    status := .queued
    attempts := 0
    lastError := none
    sentAt := none }

/-- what a row says, and the requests that were sent for it; `threw` is what the statement that marks it as sent has
thrown -/
structure Says (webhook : Webhook) (id : String) (threw : String → Prop) (posts : List Post)
    (row : NotificationRecord) : Prop where
  origin : ∃ event input now, notificationInput event = some input ∧ row.asStored = enqueue webhook id now input
  body : ∀ post ∈ posts, webhook.url = some post.url ∧ post.body = row.asStored
  unposted : webhook.url = none → posts = []
  waiting : posts = [] → row.status = .queued
  queued : row.status = .queued → row.attempts = 0 ∧ row.lastError = none ∧ row.sentAt = none
  sent : row.status = .sent → row.attempts = 1 ∧ row.lastError = none ∧ row.sentAt.isSome = true ∧
    ∃ post ∈ posts, post.answer.ok = true
  failed : row.status = .failed → row.sentAt = none ∧ ∃ lastError, row.lastError = some lastError ∧
    ((∃ post ∈ posts, post.answer.error = some lastError) ∧ row.attempts = 1 ∨
      (∃ post ∈ posts, post.answer.ok = true) ∧ threw lastError ∧ (row.attempts = 1 ∨ row.attempts = 2))

theorem posted_body {webhook : Webhook} {url : String} (hurl : webhook.url = some url) (n : NotificationRecord)
    (answer : Answer) :
    ∀ post ∈ [request webhook n url answer], webhook.url = some post.url ∧ post.body = n :=
  List.forall_mem_singleton.mpr ⟨hurl, rfl⟩

theorem posted_unposted {webhook : Webhook} {url : String} (hurl : webhook.url = some url) (n : NotificationRecord)
    (answer : Answer) : webhook.url = none → [request webhook n url answer] = [] := by
  rw [hurl]
  exact fun h => nomatch h

section
variable {webhook : Webhook} {id : String} {threw : String → Prop} {n : NotificationRecord}
  (hn : ∃ event input now, notificationInput event = some input ∧ n = enqueue webhook id now input)
include hn

theorem stored_says : Says webhook id threw [] n := by
  obtain ⟨event, input, now, hevent, rfl⟩ := hn
  exact ⟨⟨event, input, now, hevent, rfl⟩, List.forall_mem_nil _, fun _ => rfl, fun _ => rfl, fun _ => ⟨rfl, rfl, rfl⟩,
    (fun h => nomatch h), (fun h => nomatch h)⟩

section
variable {url : String} (hurl : webhook.url = some url) (answer : Answer)
include hurl

theorem posted_says : Says webhook id threw [request webhook n url answer] n := by
  have hbody := posted_body hurl n answer
  have hunposted := posted_unposted hurl n answer
  obtain ⟨event, input, now, hevent, rfl⟩ := hn
  exact ⟨⟨event, input, now, hevent, rfl⟩, hbody, hunposted, (fun h => nomatch h), fun _ => ⟨rfl, rfl, rfl⟩,
    (fun h => nomatch h), (fun h => nomatch h)⟩

theorem sent_says (hok : answer.ok = true) (now : IsoDate) :
    Says webhook id threw [request webhook n url answer] (n.marked .sent none now) := by
  have hbody := posted_body hurl n answer
  have hunposted := posted_unposted hurl n answer
  obtain ⟨event, input, first, hevent, rfl⟩ := hn
  exact ⟨⟨event, input, first, hevent, rfl⟩, hbody, hunposted, (fun h => nomatch h), (fun h => nomatch h),
    fun _ => ⟨rfl, rfl, rfl, _, List.mem_singleton_self _, hok⟩, (fun h => nomatch h)⟩

theorem failed_says {lastError : String} (hcaught : Caught threw answer lastError) (now : IsoDate) :
    Says webhook id threw [request webhook n url answer] (n.marked .failed (some lastError) now) := by
  have hbody := posted_body hurl n answer
  have hunposted := posted_unposted hurl n answer
  obtain ⟨event, input, first, hevent, rfl⟩ := hn
  refine ⟨⟨event, input, first, hevent, rfl⟩, hbody, hunposted, (fun h => nomatch h), (fun h => nomatch h),
    (fun h => nomatch h), fun _ => ⟨rfl, lastError, rfl, ?_⟩⟩
  rcases hcaught with herror | ⟨hok, hthrew⟩
  · exact .inl ⟨⟨_, List.mem_singleton_self _, herror⟩, rfl⟩
  · exact .inr ⟨⟨_, List.mem_singleton_self _, hok⟩, hthrew, .inl rfl⟩

theorem failedTwice_says (hok : answer.ok = true) {lastError : String} (hthrew : threw lastError)
    (now later : IsoDate) :
    Says webhook id threw [request webhook n url answer]
      ((n.marked .sent none now).marked .failed (some lastError) later) := by
  have hbody := posted_body hurl n answer
  have hunposted := posted_unposted hurl n answer
  obtain ⟨event, input, first, hevent, rfl⟩ := hn
  exact ⟨⟨event, input, first, hevent, rfl⟩, hbody, hunposted, (fun h => nomatch h), (fun h => nomatch h),
    (fun h => nomatch h), fun _ => ⟨rfl, lastError, rfl,
      .inr ⟨⟨_, List.mem_singleton_self _, hok⟩, hthrew, .inr rfl⟩⟩⟩

end

/-- the row and the requests of a task in any of its states -/
theorem progress_says {phase : Phase} {c : Cell} (h : Progress webhook n threw phase c) :
    c.posts.length ≤ 1 ∧ (c.row = none → c.posts = []) ∧
      ∀ row, c.row = some row → Says webhook id threw c.posts row := by
  cases h with
  | storing => exact ⟨Nat.zero_le _, fun _ => rfl, fun _ h => nomatch h⟩
  | unstored => exact ⟨Nat.zero_le _, fun _ => rfl, fun _ h => nomatch h⟩
  | stored => exact ⟨Nat.zero_le _, fun _ => rfl, fun _ h => Option.some.inj h ▸ stored_says hn⟩
  | posting hurl => exact ⟨Nat.zero_le _, fun _ => rfl, fun _ h => Option.some.inj h ▸ stored_says hn⟩
  | accepted hurl hok => exact ⟨le_rfl, (fun h => nomatch h), fun _ h => Option.some.inj h ▸ posted_says hn hurl _⟩
  | unmarked hurl hcaught => exact ⟨le_rfl, (fun h => nomatch h), fun _ h => Option.some.inj h ▸ posted_says hn hurl _⟩
  | marked hurl hok hthrew now =>
    exact ⟨le_rfl, (fun h => nomatch h), fun _ h => Option.some.inj h ▸ sent_says hn hurl _ hok now⟩
  | left hurl => exact ⟨le_rfl, (fun h => nomatch h), fun _ h => Option.some.inj h ▸ posted_says hn hurl _⟩
  | sent hurl hok now =>
    exact ⟨le_rfl, (fun h => nomatch h), fun _ h => Option.some.inj h ▸ sent_says hn hurl _ hok now⟩
  | failed hurl hcaught now =>
    exact ⟨le_rfl, (fun h => nomatch h), fun _ h => Option.some.inj h ▸ failed_says hn hurl _ hcaught now⟩
  | failedTwice hurl hok hthrew now later =>
    exact ⟨le_rfl, (fun h => nomatch h), fun _ h => Option.some.inj h ▸ failedTwice_says hn hurl _ hok hthrew now later⟩

end

/-- the notification of a task is that of an event, and its row is in one of the states -/
def Underway (webhook : Webhook) (as : List Action) (id : String) (t : Task) (c : Cell) : Prop :=
  (∃ event input now, notificationInput event = some input ∧ t.notification = enqueue webhook id now input) ∧
    Progress webhook t.notification (MarkThrew webhook as id) t.phase c

theorem run_progress {webhook : Webhook} {as : List Action} (hevents : FromEvents webhook as) {w : Outbox}
    (hrun : run (Outbox.next webhook) .start as = some w) : w.Keeps ⟨none, []⟩ (Underway webhook as) := by
  refine Owned.run_owned_split (fun k t hmem => ?_) ?_ hrun
  · obtain ⟨event, input, now, hevent, rfl⟩ := hevents k t hmem
    exact ⟨⟨event, input, now, hevent, rfl⟩, .storing⟩
  · rintro before k a after v t t' c' has hbefore htask ⟨hevent, hprogress⟩ hexec
    obtain ⟨hsame, hnext⟩ := progress_step hprogress (fun outcome now message ha hphase herror =>
      ⟨before, outcome, now, after, v, t, ha ▸ has, hbefore, htask, hphase, herror⟩) hexec
    exact ⟨hsame ▸ hevent, hsame ▸ hnext⟩

/-- **After every run, a notification was posted once at most, and only after its row was stored; a row says `sent`
only of a request that was accepted, and `failed` only with the error that was caught: that of the request, or, where
that was accepted, of the statement that was to mark the row.** -/
theorem outbox_honest {webhook : Webhook} {as : List Action} (hevents : FromEvents webhook as) {w : Outbox}
    (hrun : run (Outbox.next webhook) .start as = some w) (id : String) :
    (w.cells id).posts.length ≤ 1 ∧ ((w.cells id).row = none → (w.cells id).posts = []) ∧
      ∀ row, (w.cells id).row = some row → Says webhook id (MarkThrew webhook as id) (w.cells id).posts row := by
  have hkeeps := run_progress hevents hrun
  cases htask : w.tasks id with
  | none =>
    rw [hkeeps.none id htask]
    exact ⟨Nat.zero_le _, fun _ => rfl, fun _ h => nomatch h⟩
  | some t =>
    obtain ⟨hn, hprogress⟩ := hkeeps.task id t htask
    exact progress_says hn hprogress

/-! ## without failures of the database -/

section
variable (webhook : Webhook) (n : NotificationRecord)

/-- the states of a task whose statements are done -/
inductive Settling : Phase → Cell → Prop
  | storing : Settling .storing ⟨none, []⟩
  | unposted (hurl : webhook.url = none) : Settling .finished ⟨some n, []⟩
  | posting {url : String} (hurl : webhook.url = some url) : Settling (.posting url) ⟨some n, []⟩
  | accepted {url : String} {answer : Answer} (hurl : webhook.url = some url) (hok : answer.ok = true) :
      Settling (.marking .sent none) ⟨some n, [request webhook n url answer]⟩
  | rejected {url : String} {answer : Answer} (hurl : webhook.url = some url) (hno : answer.ok = false)
      (lastError : String) : Settling (.marking .failed (some lastError)) ⟨some n, [request webhook n url answer]⟩
  | sent {url : String} {answer : Answer} (hurl : webhook.url = some url) (hok : answer.ok = true) (now : IsoDate) :
      Settling .finished ⟨some (n.marked .sent none now), [request webhook n url answer]⟩
  | failed {url : String} {answer : Answer} (hurl : webhook.url = some url) (hno : answer.ok = false)
      (lastError : String) (now : IsoDate) :
      Settling .finished ⟨some (n.marked .failed (some lastError) now), [request webhook n url answer]⟩

end

/-- the database does the statement and says so -/
def Act.Answered : Act → Prop
  | .query outcome _ => outcome = .done
  | .post _ => True

theorem settling_step {webhook : Webhook} {n : NotificationRecord} {phase : Phase} {c : Cell}
    (h : Settling webhook n phase c) {a : Act} (hdone : a.Answered) {t' : Task} {c' : Cell}
    (hexec : exec webhook ⟨n, phase⟩ c a = some (t', c')) : t'.notification = n ∧ Settling webhook n t'.phase c' := by
  cases a with
  | query outcome now =>
    obtain rfl : outcome = .done := hdone
    cases h with
    | storing =>
      cases hexec
      refine ⟨rfl, ?_⟩
      cases hurl : webhook.url with
      | none => exact .unposted hurl
      | some url => exact .posting hurl
    | unposted hurl => cases hexec
    | posting hurl => cases hexec
    | accepted hurl hok =>
      cases hexec
      exact ⟨rfl, .sent hurl hok now⟩
    | rejected hurl hno lastError =>
      cases hexec
      exact ⟨rfl, .failed hurl hno lastError now⟩
    | sent hurl hok now => cases hexec
    | failed hurl hno lastError now => cases hexec
  | post answer =>
    obtain ⟨url, rfl, rfl, hanswer⟩ := exec_post hexec
    cases h with
    | posting hurl =>
      rcases hanswer with ⟨hok, rfl⟩ | ⟨lastError, hno, -, rfl⟩
      · exact ⟨rfl, .accepted hurl hok⟩
      · exact ⟨rfl, .rejected hurl hno lastError⟩

/-- **Where no statement fails, a task that has ended has left its row: `sent` exactly where the webhook accepted the
request, `queued` exactly where there is no webhook, and tried as often as it was posted.** -/
theorem outbox_settled {webhook : Webhook} {as : List Action} (hevents : FromEvents webhook as)
    (hdone : ∀ id a, Owned.Action.act id a ∈ as → a.Answered) {w : Outbox}
    (hrun : run (Outbox.next webhook) .start as = some w) {id : String} {t : Task} (htask : w.tasks id = some t)
    (hfinished : t.phase = .finished) : ∃ row, (w.cells id).row = some row ∧
      (row.status = .sent ↔ ∃ post ∈ (w.cells id).posts, post.answer.ok = true) ∧
      (row.status = .queued ↔ webhook.url = none) ∧ row.attempts = (w.cells id).posts.length := by
  have hkeeps : w.Keeps ⟨none, []⟩ fun id t c => (∃ input now, t.notification = enqueue webhook id now input) ∧
      Settling webhook t.notification t.phase c := by
    refine Owned.run_owned (fun k t c a t' c' h hok hexec => ?_) (fun k t hmem => ?_) hdone hrun
    · obtain ⟨hsame, hnext⟩ := settling_step h.2 hok hexec
      exact ⟨hsame ▸ h.1, hsame ▸ hnext⟩
    · obtain ⟨event, input, now, -, rfl⟩ := hevents k t hmem
      exact ⟨⟨input, now, rfl⟩, .storing⟩
  obtain ⟨⟨input, now, hn⟩, hsettling⟩ := hkeeps.task id t htask
  rw [hfinished, hn] at hsettling
  generalize w.cells id = c at hsettling
  cases hsettling with
  | unposted hurl =>
    refine ⟨_, rfl, iff_of_false (fun h => nomatch h) ?_, iff_of_true rfl hurl, rfl⟩
    rintro ⟨post, hpost, -⟩
    cases hpost
  | sent hurl hok now =>
    refine ⟨_, rfl, iff_of_true rfl ⟨_, List.mem_singleton_self _, hok⟩, iff_of_false (fun h => nomatch h) ?_, rfl⟩
    rw [hurl]
    exact fun h => nomatch h
  | failed hurl hno lastError now =>
    refine ⟨_, rfl, iff_of_false (fun h => nomatch h) ?_, iff_of_false (fun h => nomatch h) ?_, rfl⟩
    · rintro ⟨post, hpost, hok⟩
      obtain rfl := List.mem_singleton.mp hpost
      exact absurd (hno.symm.trans hok) Bool.false_ne_true
    · rw [hurl]
      exact fun h => nomatch h

/-! ## one notification -/

def sampleWebhook : Webhook := ⟨some "https://notifications.gridproof.test/webhook", none⟩

def sampleReview : DomainEvent :=
  .reviewRequired "c04ac0c9-73b8-49f0-97fd-52c77a38bd77" "8a27f3e2-2608-4a88-b8db-efce68be2a59"
    "Reporter evidence needs confirmation."

def sampleNotification (id : String) : NotificationRecord :=
  enqueue sampleWebhook id (.ofMillis 0) ⟨.reviewRequired, .reviewer, "Evidence needs reviewer confirmation",
    "Reporter evidence needs confirmation.", sampleReview⟩

/-- stored, posted, accepted, and marked -/
def sampleActions : List Action :=
  [.start "n1" ⟨sampleNotification "n1", .storing⟩, .act "n1" (.query .done (.ofMillis 1)),
    .act "n1" (.post (.response 200)), .act "n1" (.query .done (.ofMillis 2))]

/-- the statement that marks the first is done, but its answer is lost; the second is not accepted -/
def lostActions : List Action :=
  [.start "n1" ⟨sampleNotification "n1", .storing⟩, .start "n2" ⟨sampleNotification "n2", .storing⟩,
    .act "n1" (.query .done (.ofMillis 1)), .act "n2" (.query .done (.ofMillis 1)),
    .act "n1" (.post (.response 200)), .act "n2" (.post (.response 503)),
    .act "n1" (.query (.lost (some "Connection terminated")) (.ofMillis 2)),
    .act "n1" (.query .done (.ofMillis 3)), .act "n2" (.query .done (.ofMillis 3))]

theorem sample_starts (id : String) : Starts sampleWebhook id ⟨sampleNotification id, .storing⟩ :=
  ⟨sampleReview, _, _, rfl, rfl⟩

theorem lostActions_fromEvents : FromEvents sampleWebhook lostActions := by
  intro id t hmem
  unfold lostActions at hmem
  simp only [List.mem_cons, List.not_mem_nil, or_false, reduceCtorEq, Owned.Action.start.injEq] at hmem
  rcases hmem with ⟨rfl, rfl⟩ | ⟨rfl, rfl⟩
  · exact sample_starts "n1"
  · exact sample_starts "n2"

/-- one row says `failed`, tried twice, of a request that was accepted, and the other of one that was not -/
theorem outbox_honest_lost : ∃ w row other, run (Outbox.next sampleWebhook) .start lostActions = some w ∧
    (w.cells "n1").row = some row ∧ (w.cells "n2").row = some other ∧
    (row.status = .failed ∧ row.attempts = 2 ∧ row.lastError = some "Connection terminated" ∧
      (w.cells "n1").posts.length ≤ 1 ∧
      Says sampleWebhook "n1" (MarkThrew sampleWebhook lostActions "n1") (w.cells "n1").posts row) ∧
    other.status = .failed ∧ other.attempts = 1 ∧ other.lastError = some "Notification webhook returned 503" ∧
      (w.cells "n2").posts.length ≤ 1 ∧
      Says sampleWebhook "n2" (MarkThrew sampleWebhook lostActions "n2") (w.cells "n2").posts other := by
  obtain ⟨w, hw⟩ : ∃ w, run (Outbox.next sampleWebhook) .start lostActions = some w := ⟨_, rfl⟩
  obtain ⟨hposts, -, hsays⟩ := outbox_honest lostActions_fromEvents hw "n1"
  obtain ⟨hposts', -, hsays'⟩ := outbox_honest lostActions_fromEvents hw "n2"
  obtain ⟨row, hrow, hstatus, hattempts, herror⟩ : ∃ row, (w.cells "n1").row = some row ∧ row.status = .failed ∧
      row.attempts = 2 ∧ row.lastError = some "Connection terminated" := by
    rw [← Option.some.inj hw]
    exact ⟨_, rfl, rfl, rfl, rfl⟩
  obtain ⟨other, hother, hstatus', hattempts', herror'⟩ : ∃ row, (w.cells "n2").row = some row ∧
      row.status = .failed ∧ row.attempts = 1 ∧ row.lastError = some "Notification webhook returned 503" := by
    rw [← Option.some.inj hw]
    exact ⟨_, rfl, rfl, rfl, rfl⟩
  exact ⟨w, row, other, hw, hrow, hother, ⟨hstatus, hattempts, herror, hposts, hsays row hrow⟩,
    hstatus', hattempts', herror', hposts', hsays' other hother⟩

theorem outbox_settled_sample : ∃ w row, run (Outbox.next sampleWebhook) .start sampleActions = some w ∧
    (w.cells "n1").row = some row ∧ row.status = .sent := by
  have hevents : FromEvents sampleWebhook sampleActions := by
    intro id t hmem
    unfold sampleActions at hmem
    simp only [List.mem_cons, List.not_mem_nil, or_false, reduceCtorEq, Owned.Action.start.injEq] at hmem
    obtain ⟨rfl, rfl⟩ := hmem
    exact sample_starts "n1"
  have hdone : ∀ id a, Owned.Action.act id a ∈ sampleActions → a.Answered := by
    intro id a hmem
    unfold sampleActions at hmem
    simp only [List.mem_cons, List.not_mem_nil, or_false, reduceCtorEq, false_or, Owned.Action.act.injEq] at hmem
    rcases hmem with ⟨-, rfl⟩ | ⟨-, rfl⟩ | ⟨-, rfl⟩
    · rfl
    · trivial
    · rfl
  obtain ⟨w, hw⟩ : ∃ w, run (Outbox.next sampleWebhook) .start sampleActions = some w := ⟨_, rfl⟩
  obtain ⟨t, htask, hfinished⟩ : ∃ t, w.tasks "n1" = some t ∧ t.phase = .finished := by
    rw [← Option.some.inj hw]
    exact ⟨_, rfl, rfl⟩
  obtain ⟨row, hrow, hsent, -, -⟩ := outbox_settled hevents hdone hw htask hfinished
  refine ⟨w, row, hw, hrow, hsent.mpr ?_⟩
  rw [← Option.some.inj hw]
  exact ⟨_, List.mem_singleton_self _, rfl⟩

end Notifications
