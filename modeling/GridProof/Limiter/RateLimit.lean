import Mathlib.Algebra.Order.Ring.Unbundled.Rat
import GridProof.Lib.JsText
import GridProof.Lib.OrderedMap

/-!
# The rate limiter

`rateLimit`, the middleware that the ingestion routes and the demo routes share.  A request is counted in a
bucket of its limiter's name and of its identity, by Redis or, once an attempt for that bucket has failed, by a
counter in memory.

* `normalizeIdentity`, `bucketKey`    the key of a bucket's counters;
* `incrementMemoryCounter`, `incrementRedisCounter`, `incrementRateLimit`    the two counters;
* `rateLimit`    the headers that are set, and the error that a request past the limit ends with.

Redis is the service that its two commands document: `INCR` adds one to a counter, which begins at zero, and
`PEXPIRE` drops the counter after a time.
-/

namespace RateLimit

/-! ## limits -/

/-- `value` is `Number(process.env[name])`, absent where that is no finite number -/
def envInt (value : Option ℚ) (fallback : ℕ) : ℕ :=
  match value with
  | some q => if q.den = 1 ∧ 0 < q then q.num.toNat else fallback
  | none => fallback

theorem envInt_pos (value : Option ℚ) {fallback : ℕ} (h : 0 < fallback) : 0 < envInt value fallback := by
  unfold envInt
  cases value with
  | none => exact h
  | some q =>
    show 0 < if q.den = 1 ∧ 0 < q then q.num.toNat else fallback
    split
    · rename_i hq
      have := Rat.num_pos.mpr hq.2
      omega
    · exact h

/-- `DEFAULT_WINDOW_MS` -/
def defaultWindowMs : ℕ := 60000

/-- `DEFAULT_MAX_REQUESTS` -/
def defaultMaxRequests : ℕ := 60

structure Env where
  /-- `INGEST_RATE_LIMIT_WINDOW_MS` -/
  windowMs : Option ℚ
  /-- `INGEST_RATE_LIMIT_MAX` -/
  maxRequests : Option ℚ
  /-- there is a `REDIS_URL`, and Redis is not switched off for tests -/
  redis : Bool

/-- the limiters of the routes -/
inductive Limiter where
  | telemetry
  | report
  | whatsappWebhook
  | demoWalletChallenge
  | demoSimulation
deriving DecidableEq

namespace Limiter

/-- `options.name` -/
def name : Limiter → String
  | telemetry => "telemetry"
  | report => "report"
  | whatsappWebhook => "whatsapp-webhook"
  | demoWalletChallenge => "demo-wallet-challenge"
  | demoSimulation => "demo-simulation"

/-- `options.max` -/
def optionMax : Limiter → Option ℕ
  | demoWalletChallenge => some 20
  | demoSimulation => some 3
  | _ => none

end Limiter

/-- no limiter has a window of its own -/
def Env.window (env : Env) : ℕ := envInt env.windowMs defaultWindowMs

/-- `max` -/
def Env.limit (env : Env) (limiter : Limiter) : ℕ :=
  limiter.optionMax.getD (envInt env.maxRequests defaultMaxRequests)

theorem Env.window_pos (env : Env) : 0 < env.window := envInt_pos _ (by decide)

theorem Env.limit_pos (env : Env) (limiter : Limiter) : 0 < env.limit limiter := by
  cases limiter with
  | demoWalletChallenge => exact Nat.succ_pos 19
  | demoSimulation => exact Nat.succ_pos 2
  | _ => exact envInt_pos _ (by decide)

/-! ## requests -/

/-- the clock's readings while a request is counted, in milliseconds since 1970 -/
structure Clock where
  /-- `Date.now()` in `rateLimit` -/
  arrived : ℕ
  /-- when Redis runs `INCR` -/
  incr : ℕ
  /-- when Redis runs `PEXPIRE` -/
  pexpire : ℕ
  /-- `Date.now()` in `incrementMemoryCounter` -/
  counted : ℕ
  /-- `Date.now()` in `bucketResetFor` -/
  settled : ℕ
  /-- `Date.now()` where `Retry-After` is set -/
  replied : ℕ
deriving DecidableEq

/-- how far an attempt to count with Redis gets; one that is never settled answers no request, and is left out -/
inductive Attempt where
  /-- `INCR` is not applied -/
  | lost
  /-- `INCR` is applied, and nothing after it -/
  | incremented
  /-- both commands are applied, but the attempt fails -/
  | expiring
  | answered
deriving DecidableEq

structure Request where
  limiter : Limiter
  /-- `options.key(req)` -/
  key : Option String
  /-- `req.ip` -/
  ip : Option String
  /-- `req.socket.remoteAddress` -/
  remoteAddress : Option String
  clock : Clock
  attempt : Attempt
deriving DecidableEq

/-- `[a-z0-9:._-]` -/
def isIdentityChar (c : Char) : Bool := c.isLower || c.isDigit || [':', '.', '_', '-'].contains c

/-- `replace(/[^a-z0-9:._-]/g, "_")`; a character beyond the basic plane is replaced twice -/
def replaceOthers (text : List Char) : List Char :=
  text.flatMap fun c =>
    if isIdentityChar c then [c] else if c.toNat < 0x10000 then ['_'] else ['_', '_']

def bucketKey (limiter : Limiter) (identity : String) (bucket : ℕ) : String :=
  "gridproof:rate-limit:" ++ limiter.name ++ ":" ++ identity ++ ":" ++ toString bucket

section
variable [JsText.Runtime]

def normalizeIdentity (value : String) : String :=
  let text := (replaceOthers (JsText.toLowerCase (JsText.trim value)).toList).take 160
  if text = [] then "unknown" else String.ofList text

/-- `identity` -/
def Request.identity (r : Request) : String :=
  normalizeIdentity (((r.key.or r.ip).or r.remoteAddress).getD "unknown")

/-- `bucket` -/
def Request.bucket (r : Request) (windowMs : ℕ) : ℕ := r.clock.arrived / windowMs

/-- the key of the request's counters -/
def Request.counterKey (r : Request) (windowMs : ℕ) : String :=
  bucketKey r.limiter r.identity (r.bucket windowMs)

end

/-! ## counters -/

structure MemoryEntry where
  count : ℕ
  resetAt : ℕ
deriving DecidableEq

/-- a counter in Redis, and when it is dropped -/
structure RedisEntry where
  count : ℕ
  expiresAt : Option ℕ
deriving DecidableEq

structure Counters where
  redis : OrderedMap String RedisEntry
  redisFallbackKeys : List String
  memoryCounters : OrderedMap String MemoryEntry

def Counters.empty : Counters := ⟨.empty, [], .empty⟩

/-- what `incrementRateLimit` resolves to -/
structure Counted where
  count : ℕ
  resetAt : ℕ
deriving DecidableEq

/-- `now` is the reading that `bucketResetFor` takes itself -/
def bucketResetFor (windowMs now : ℕ) : ℕ := (now / windowMs + 1) * windowMs

def nextMemoryEntry (current : Option MemoryEntry) (windowMs : ℕ) (clock : Clock) : MemoryEntry :=
  match current with
  | none => ⟨1, bucketResetFor windowMs clock.settled⟩
  | some entry =>
    if entry.resetAt ≤ clock.counted then ⟨1, bucketResetFor windowMs clock.settled⟩
    else { entry with count := entry.count + 1 }

def incrementMemoryCounter (s : Counters) (key : String) (windowMs : ℕ) (clock : Clock) : Counters × Counted :=
  let entry := nextMemoryEntry (s.memoryCounters.get? key) windowMs clock
  ({ s with memoryCounters := s.memoryCounters.set key entry }, ⟨entry.count, entry.resetAt⟩)

/-- `INCR` at the instant `now`; a key is gone in the millisecond in which it expires -/
def incr (entry : Option RedisEntry) (now : ℕ) : RedisEntry :=
  match entry with
  | none => ⟨1, none⟩
  | some entry => if entry.expiresAt.any (· ≤ now) then ⟨1, none⟩ else { entry with count := entry.count + 1 }

/-- `PEXPIRE`, which is sent after the first `INCR` only -/
def expire (entry : RedisEntry) (windowMs now : ℕ) : RedisEntry :=
  if entry.count = 1 then { entry with expiresAt := some (now + windowMs) } else entry

/-- what Redis holds for a key after an attempt -/
def nextRedisEntry (current : Option RedisEntry) (windowMs : ℕ) (clock : Clock) : Attempt → Option RedisEntry
  | .lost => current
  | .incremented => some (incr current clock.incr)
  | .expiring | .answered => some (expire (incr current clock.incr) windowMs clock.pexpire)

/-- the answer is absent where the attempt fails -/
def incrementRedisCounter (s : Counters) (key : String) (windowMs : ℕ) (clock : Clock) (attempt : Attempt) :
    Counters × Option ℕ :=
  match nextRedisEntry (s.redis.get? key) windowMs clock attempt with
  | none => (s, none)
  | some entry =>
    ({ s with redis := s.redis.set key entry }, if attempt = .answered then some entry.count else none)

def incrementRateLimit (env : Env) (s : Counters) (key : String) (clock : Clock) (attempt : Attempt) :
    Counters × Counted :=
  if env.redis ∧ key ∉ s.redisFallbackKeys then
    match incrementRedisCounter s key env.window clock attempt with
    | (s, some count) => (s, ⟨count, bucketResetFor env.window clock.settled⟩)
    | (s, none) =>
      incrementMemoryCounter { s with redisFallbackKeys := key :: s.redisFallbackKeys } key env.window clock
  else incrementMemoryCounter s key env.window clock

/-! ## the middleware -/

/-- an error that a request ends with: `statusCode`, `code` and `message` -/
structure HttpError where
  statusCode : ℕ
  code : String
  message : String
deriving DecidableEq

/-- no error is `next()` -/
structure Reply where
  headers : List (String × String)
  error : Option HttpError
deriving DecidableEq

/-- `Math.ceil(ms / 1000)` -/
def ceilSeconds (ms : ℕ) : ℕ := (ms + 999) / 1000

def rateLimited : HttpError := ⟨429, "RATE_LIMITED", "Rate limit exceeded"⟩

def reply (limit : ℕ) (result : Counted) (now : ℕ) : Reply :=
  let headers := [("RateLimit-Limit", toString limit), ("RateLimit-Remaining", toString (limit - result.count)),
    ("RateLimit-Reset", toString (ceilSeconds result.resetAt))]
  if limit < result.count then
    ⟨headers ++ [("Retry-After", toString (max 1 (ceilSeconds (result.resetAt - now))))], some rateLimited⟩
  else ⟨headers, none⟩

variable [JsText.Runtime]

def rateLimit (env : Env) (s : Counters) (r : Request) : Counters × Reply :=
  let (s, result) := incrementRateLimit env s (r.counterKey env.window) r.clock r.attempt
  (s, reply (env.limit r.limiter) result r.clock.replied)

end RateLimit
