import GridProof.Ingestion.Realtime
import GridProof.Lib.Owned

/-!
# The outbox of notifications

`notifications/service.ts`: a domain event is stored as a row, posted to the webhook, and marked.

* `notificationInput`   what is said of an event;
* `exec`                a step of the task of a notification: a statement or the request, with what came of it;
* `Outbox`              the tasks, each with its row and the requests that were sent for it.

The steps of different tasks come in any order.  A task that stops, as all do when the process ends, takes no step.
-/

namespace Notifications
open Ingestion (DomainEvent)
open Pipeline (IsoDate CommitmentStatus EpochStart)

/-! ## rows -/

inductive NotificationKind where
  | reviewRequired
  | chainCommitted
deriving DecidableEq

/-- `everyone` is `public` -/
inductive NotificationAudience where
  | reviewer
  | operator
  | everyone
deriving DecidableEq

inductive NotificationChannel where
  | outbox
  | webhook
deriving DecidableEq

inductive NotificationStatus where
  | queued
  | sent
  | failed
deriving DecidableEq

/-- what is said of an event; the payload is the event's -/
structure NotificationInput where
  kind : NotificationKind
  audience : NotificationAudience
  title : String
  message : String
  payload : DomainEvent

structure NotificationRecord extends NotificationInput where
  id : String
  channel : NotificationChannel
  status : NotificationStatus
  attempts : ℕ
  lastError : Option String
  createdAt : IsoDate
  sentAt : Option IsoDate

/-! ## events -/

def titleForChainStatus : CommitmentStatus → String
  | .confirmed => "Proof confirmed on BOT Chain"
  | .failed => "Chain commitment failed"
  | .pending => "Proof queued for BOT Chain submission"

def chainStatus : CommitmentStatus → String
  | .confirmed => "confirmed"
  | .failed => "failed"
  | .pending => "pending"

/-- the listeners of `attachNotifications`; the other events have none -/
def notificationInput (event : DomainEvent) : Option NotificationInput :=
  match event with
  | .reviewRequired _ _ reason =>
    some ⟨.reviewRequired, .reviewer, "Evidence needs reviewer confirmation", reason, event⟩
  | .chainCommitted zoneId _ _ status =>
    some ⟨.chainCommitted, if status = .pending then .operator else .everyone, titleForChainStatus status,
      "Zone " ++ zoneId ++ " chain commitment is " ++ chainStatus status ++ ".", event⟩
  | _ => none

/-- `NOTIFICATION_WEBHOOK_URL`, absent where it is empty, and the header that `NOTIFICATION_WEBHOOK_TOKEN` makes -/
structure Webhook where
  url : Option String
  authorization : Option String

/-- `enqueueNotification`, up to its first statement; `id` is the random id -/
def enqueue (webhook : Webhook) (id : String) (now : IsoDate) (input : NotificationInput) : NotificationRecord :=
  { input with
    id := id
    channel := if webhook.url.isSome then .webhook else .outbox
    status := .queued
    attempts := 0
    lastError := none
    createdAt := now
    sentAt := none }

/-! ## the task of a notification -/

/-- the end of the request: a response, or the message of what `fetch` throws -/
inductive Answer where
  | response (status : ℕ)
  | failure (message : Option String)

/-- `response.ok` -/
def Answer.ok : Answer → Bool
  | .response status => 200 ≤ status && status ≤ 299
  | .failure _ => false

/-- a request that was sent -/
structure Post where
  url : String
  authorization : Option String
  body : NotificationRecord
  answer : Answer

/-- a statement is done, or it throws: without an effect, or after the database has done it -/
inductive Outcome where
  | done
  | refused (message : Option String)
  | lost (message : Option String)

def Outcome.applied : Outcome → Bool
  | .refused _ => false
  | _ => true

inductive Phase where
  | storing
  | posting (url : String)
  | marking (status : NotificationStatus) (lastError : Option String)
  | finished

structure Task where
  notification : NotificationRecord
  phase : Phase

/-- the row of a notification, and the requests that were sent for it -/
structure Cell where
  row : Option NotificationRecord
  posts : List Post

inductive Act where
  | query (outcome : Outcome) (now : IsoDate)
  | post (answer : Answer)

/-- `message` of an error that is caught -/
def errorMessage (message : Option String) : String := message.getD "Unknown notification webhook failure"

/-- `markNotificationDelivered` on the row -/
def NotificationRecord.marked (row : NotificationRecord) (status : NotificationStatus) (lastError : Option String)
    (now : IsoDate) : NotificationRecord :=
  { row with
    status := status
    attempts := row.attempts + 1
    lastError := lastError
    sentAt := if status = .sent then some now else none }

/-- the next statement or the request; a statement that throws is caught where it marks `sent` -/
def exec (webhook : Webhook) (t : Task) (c : Cell) : Act → Option (Task × Cell)
  | .query outcome now =>
    match t.phase with
    | .storing =>
      let next : Phase := match outcome, webhook.url with
        | .done, some url => .posting url
        | _, _ => .finished
      some ({ t with phase := next }, if outcome.applied then { c with row := some t.notification } else c)
    | .marking status lastError =>
      let next : Phase := match status, outcome with
        | .sent, .refused message => .marking .failed (some (errorMessage message))
        | .sent, .lost message => .marking .failed (some (errorMessage message))
        | _, _ => .finished
      some ({ t with phase := next },
        if outcome.applied then { c with row := c.row.map fun row => row.marked status lastError now } else c)
    | _ => none
  | .post answer =>
    match t.phase with
    | .posting url =>
      let next : Phase := match answer with
        | .response status =>
          if answer.ok then .marking .sent none
          else .marking .failed (some ("Notification webhook returned " ++ toString status))
        | .failure message => .marking .failed (some (errorMessage message))
      some ({ t with phase := next },
        { c with posts := c.posts ++ [⟨url, webhook.authorization, t.notification, answer⟩] })
    | _ => none

/-! ## the outbox -/

abbrev Outbox := Owned.World String Task Cell

abbrev Action := Owned.Action String Task Act

def Outbox.next (webhook : Webhook) : Outbox → Action → Option Outbox := Owned.next (exec webhook)

def Outbox.start : Outbox := .empty ⟨none, []⟩

/-- an event that has a listener starts the task of its notification -/
def Starts (webhook : Webhook) (id : String) (t : Task) : Prop :=
  ∃ event input now, notificationInput event = some input ∧ t = ⟨enqueue webhook id now input, .storing⟩

/-- every task of the run is that of an event -/
def FromEvents (webhook : Webhook) (as : List Action) : Prop :=
  ∀ id t, Owned.Action.start id t ∈ as → Starts webhook id t

end Notifications
